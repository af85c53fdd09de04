import Mathlib.Data.List.Induction
import TorchCraft.Lib.OrdMap
import TorchCraft.Snapshot.Scenario

/-!
# The players of a snapshot

`stateToSnapshot` looks for the two players with the highest scores.  It puts their upgrades into the
first and the second entry, but their units into the entry with the number of the player.
-/

namespace TorchCraft.Snapshotter
open Lib List

structure Unit where
  (playerId type x y health shield energy : Int)
  completed : Bool

structure State where
  (mapWidth mapHeight : Int := 0)
  (mapTitle mapName : String := "")
  /-- the keys of `units` -/
  ids : List Int
  units : Int → List Unit
  owned : ∀ i, ∀ u ∈ units i, u.playerId = i
  /-- upgrades, levels and techs -/
  resources : Int → Word × Word × Word := fun _ => (0, 0, 0)
  /-- of a unit's type -/
  isBuilding : Int → Bool := fun _ => false

inductive Failure
  | fewerThanTwoPlayers
  /-- an access outside of `players` -/
  | outside

def shibbolethTypes : List Int := [7, 64, 41, 109, 156, 42]

def points (u : Unit) : Nat := if shibbolethTypes.contains u.type then 1000 else 1

def addScore (m : OrdMap Int Int) (u : Unit) : OrdMap Int Int :=
  m.alter u.playerId (· + points u) (points u)

def pick (best e : Int × Int) : Int × Int := if best.2 < e.2 then e else best

def getActivePlayerId (m : OrdMap Int Int) : Int := (m.entries.foldl pick (-1, -1)).1

def unitToSnapshot (u : Unit) : SnapshotUnit := ⟨u.type, u.x, u.y, u.health, u.shield, u.energy⟩

/-- `output.players[playerId].units.push_back` -/
def push (id : Int) (players : List SnapshotPlayer) (u : Unit) :
    Except Failure (List SnapshotPlayer) :=
  if 0 ≤ id ∧ id < players.length then
    .ok (players.modify id.toNat fun p => { p with units := p.units ++ [unitToSnapshot u] })
  else .error .outside

namespace State
variable (s : State)

def all : List Unit := s.ids.flatMap s.units

def playerScore : OrdMap Int Int := s.all.foldl addScore .empty

def eligibleForSnapshot (u : Unit) : Bool := u.completed || s.isBuilding u.type

def populatePlayer (players : List SnapshotPlayer) (i : Nat) (id : Int) :
    Except Failure (List SnapshotPlayer) :=
  let (upgrades, levels, techs) := s.resources id
  ((s.units id).filter fun u => u.playerId == id && s.eligibleForSnapshot u).foldlM (push id)
    (players.modify i ({ · with upgrades := upgrades, upgradeLevels := levels, techs := techs }))

def stateToSnapshot : Except Failure Snapshot :=
  let playerId0 := getActivePlayerId s.playerScore
  let playerId1 := getActivePlayerId (s.playerScore.assign playerId0 (-1))
  if playerId1 < 0 then .error .fewerThanTwoPlayers
  else do
    let players ← s.populatePlayer [{}, {}] 0 playerId0
    let players ← s.populatePlayer players 1 playerId1
    .ok ⟨s.mapWidth.tdiv 4, s.mapHeight.tdiv 4, s.mapName, s.mapTitle, players⟩

/-! ## the main players -/

def Owns (i : Int) : Prop := ∃ u ∈ s.all, u.playerId = i

def score (us : List Unit) (i : Int) : Int :=
  (us.foldr (fun u n => if u.playerId = i then points u + n else n) 0 : Nat)

/-- a higher score, or the same and a smaller id -/
def Leads (p i : Int) : Prop :=
  score s.all i < score s.all p ∨ score s.all i = score s.all p ∧ p ≤ i

structure Main (p q : Int) : Prop where
  owns : s.Owns p ∧ s.Owns q
  ne : q ≠ p
  first : ∀ i, s.Owns i → s.Leads p i
  second : ∀ i, s.Owns i → i ≠ p → s.Leads q i

def player (p : Int) : SnapshotPlayer :=
  ⟨(s.resources p).1, (s.resources p).2.1, (s.resources p).2.2,
    ((s.units p).filter s.eligibleForSnapshot).map unitToSnapshot⟩

/-- the number of a player with units is that of its entry, or the numbers are exchanged and the
units look the same -/
def InPlace (p q : Int) : Prop :=
  0 ≤ q ∧ ((p = 0 ∨ (s.player p).units = []) ∧ (q = 1 ∨ (s.player q).units = []) ∨
    p = 1 ∧ q = 0 ∧ (s.player p).units = (s.player q).units)

lemma find_foldl_addScore (us : List Unit) (m : OrdMap Int Int) (i v : Int) :
    (us.foldl addScore m).find i = some v ↔
      v = (m.find i).getD 0 + score us i ∧ (m.find i ≠ none ∨ ∃ u ∈ us, u.playerId = i) := by
  induction us generalizing m with
  | nil => cases h : m.find i <;> simp [score, h, eq_comm]
  | cons u us ih =>
    have hfind : (addScore m u).find i =
        if i = u.playerId then some ((m.find u.playerId).elim ↑(points u) (· + ↑(points u)))
        else m.find i := OrdMap.find_alter ..
    rw [foldl_cons, ih, hfind]
    by_cases hi : u.playerId = i
    · subst hi
      cases m.find u.playerId <;> simp [score, Int.add_assoc]
    · simp [score, hi, Ne.symm hi]

lemma find_playerScore (i v : Int) :
    s.playerScore.find i = some v ↔ v = score s.all i ∧ s.Owns i := by
  simp [playerScore, find_foldl_addScore, Owns]

lemma pick_spec {es : List (Int × Int)} (hs : es.Pairwise fun a b => a.1 < b.1) :
    let r := es.foldl pick (-1, -1)
    (r ∈ es ∧ -1 < r.2 ∧ ∀ e ∈ es, e.2 < r.2 ∨ e.2 = r.2 ∧ r.1 ≤ e.1) ∨
      r = (-1, -1) ∧ ∀ e ∈ es, e.2 ≤ -1 := by
  induction es using List.reverseRecOn with
  | nil => simp
  | append_singleton es e ih =>
    obtain ⟨hes, -, hlast⟩ := pairwise_append.mp hs
    rw [foldl_append, foldl_cons, foldl_nil, pick]
    simp only [forall_mem_append, forall_mem_singleton]
    split
    next hlt =>
      refine .inl ⟨mem_append_right _ (mem_singleton_self e), ?_, ?_, by omega⟩
      · rcases ih hes with ⟨-, hpos, -⟩ | ⟨hr, -⟩
        · omega
        · rwa [hr] at hlt
      · intro e' he'
        rcases ih hes with ⟨-, -, hmax⟩ | ⟨hr, hmax⟩
        · have := hmax e' he'
          omega
        · rw [hr] at hlt
          have := hmax e' he'
          omega
    next hle =>
      rcases ih hes with ⟨hmem, hpos, hmax⟩ | ⟨hr, hmax⟩
      · have hbefore := hlast _ hmem e (mem_singleton_self e)
        exact .inl ⟨mem_append_left _ hmem, hpos, hmax, by omega⟩
      · rw [hr] at hle
        exact .inr ⟨hr, hmax, not_lt.mp hle⟩

lemma getActivePlayerId_spec {m : OrdMap Int Int} {P : Int → Prop} {f : Int → Int}
    (hm : ∀ i v, -1 < v → (m.find i = some v ↔ v = f i ∧ P i)) (hf : ∀ i, -1 < f i) :
    let p := getActivePlayerId m
    (P p ∧ ∀ i, P i → f i < f p ∨ f i = f p ∧ p ≤ i) ∨ p = -1 ∧ ∀ i, ¬ P i := by
  have hin {i : Int} (hi : P i) : (i, f i) ∈ m.entries :=
    (m.find_eq_some ..).mp ((hm _ _ (hf i)).mpr ⟨rfl, hi⟩)
  rcases pick_spec m.sorted with ⟨hmem, hpos, hmax⟩ | ⟨hr, hmax⟩
  · obtain ⟨hv, hp⟩ := (hm _ _ hpos).mp ((m.find_eq_some ..).mpr hmem)
    exact .inl ⟨hp, fun i hi => hv ▸ hmax _ (hin hi)⟩
  · exact .inr ⟨congrArg Prod.fst hr, fun i hi => absurd (hf i) (not_lt.mpr (hmax _ (hin hi)))⟩

lemma activePlayers_spec :
    let p := getActivePlayerId s.playerScore
    let q := getActivePlayerId (s.playerScore.assign p (-1))
    s.Main p q ∨ q = -1 ∧ ∀ i j, s.Owns i → s.Owns j → i = j := by
  intro p q
  have hpos (i : Int) : -1 < score s.all i := by
    unfold score
    omega
  have hsecond := getActivePlayerId_spec (m := s.playerScore.assign p (-1))
    (P := fun i => s.Owns i ∧ i ≠ p) (f := score s.all)
    (fun i v hv => by grind [OrdMap.find_assign, find_playerScore]) hpos
  rcases getActivePlayerId_spec (fun i v _ => s.find_playerScore i v) hpos with ⟨hp, hfirst⟩ | ⟨-, hno⟩
  · rcases hsecond with ⟨⟨hq, hne⟩, hsecond⟩ | ⟨hq, hno⟩
    · exact .inl ⟨⟨hp, hq⟩, hne, hfirst, fun i hi hne => hsecond i ⟨hi, hne⟩⟩
    · exact .inr ⟨hq, fun i j hi hj => by grind⟩
  · rcases hsecond with ⟨⟨hq, -⟩, -⟩ | ⟨hq, -⟩
    · exact absurd hq (hno _)
    · exact .inr ⟨hq, fun i j hi => absurd hi (hno i)⟩

lemma foldlM_push (us : List Unit) {k : Nat} {players : List SnapshotPlayer}
    (h : k < players.length) : us.foldlM (push k) players =
      .ok (players.modify k fun p => { p with units := p.units ++ us.map unitToSnapshot }) := by
  induction us generalizing players with
  | nil =>
    simp only [map_nil, append_nil]
    exact congrArg Except.ok (modify_id ..).symm
  | cons u us ih =>
    rw [foldlM_cons, push, if_pos (by omega)]
    exact (ih (by simpa using h)).trans (by simp [modify_modify_eq, Function.comp_def])

/-- **One player**: its resources go to the entry `i`, its units to the entry `id`. -/
lemma populatePlayer_ok {players players' : List SnapshotPlayer} {i : Nat} {id : Int} :
    s.populatePlayer players i id = .ok players' ↔
      ((s.player id).units = [] ∨ 0 ≤ id ∧ id < players.length) ∧
        (players.modify i fun r => { s.player id with units := r.units }).modify id.toNat
          (fun r => { r with units := r.units ++ (s.player id).units }) = players' := by
  have hfilter : (s.units id).filter (fun u => u.playerId == id && s.eligibleForSnapshot u) =
      (s.units id).filter s.eligibleForSnapshot :=
    filter_congr fun u hu => by simp [s.owned id u hu]
  unfold populatePlayer
  rw [hfilter]
  dsimp only
  by_cases hid : 0 ≤ id ∧ id < players.length
  · obtain ⟨k, rfl⟩ := Int.eq_ofNat_of_zero_le hid.1
    rw [foldlM_push _ (by simpa using hid.2), Except.ok.injEq]
    exact ⟨fun h => ⟨.inr hid, h⟩, fun h => h.2⟩
  · rw [or_iff_left hid]
    unfold player
    cases (s.units id).filter s.eligibleForSnapshot with
    | nil =>
      have hid (l : List SnapshotPlayer) : l.modify id.toNat (fun r => r) = l := modify_id ..
      simp only [map_nil, append_nil, true_and, hid]
      show Except.ok _ = Except.ok _ ↔ _
      rw [Except.ok.injEq]
    | cons u us =>
      rw [foldlM_cons, push, if_neg (by simpa using hid)]
      exact ⟨nofun, fun h => nomatch h.1⟩

lemma modify_pair (a b : SnapshotPlayer) {us : List SnapshotUnit} {id : Int}
    (h : us = [] ∨ 0 ≤ id ∧ id < 2) :
    [a, b].modify id.toNat (fun r => { r with units := r.units ++ us }) =
      [{ a with units := a.units ++ if id = 0 then us else [] },
        { b with units := b.units ++ if id = 1 then us else [] }] := by
  rcases h with rfl | h
  · simp only [append_nil, ite_self]
    exact modify_id ..
  · obtain rfl | rfl : id = 0 ∨ id = 1 := by omega
    · simp
    · simp

section entries
variable (a b : SnapshotPlayer) {id : Int} {players : List SnapshotPlayer}

lemma populateFirst_ok : s.populatePlayer [a, b] 0 id = .ok players ↔
    ((s.player id).units = [] ∨ 0 ≤ id ∧ id < 2) ∧
      [{ s.player id with units := a.units ++ if id = 0 then (s.player id).units else [] },
        { b with units := b.units ++ if id = 1 then (s.player id).units else [] }] = players :=
  s.populatePlayer_ok.trans (and_congr_right fun h => iff_of_eq (congrArg (· = players) (modify_pair _ _ h)))

lemma populateSecond_ok : s.populatePlayer [a, b] 1 id = .ok players ↔
    ((s.player id).units = [] ∨ 0 ≤ id ∧ id < 2) ∧
      [{ a with units := a.units ++ if id = 0 then (s.player id).units else [] },
        { s.player id with units := b.units ++ if id = 1 then (s.player id).units else [] }] = players :=
  s.populatePlayer_ok.trans (and_congr_right fun h => iff_of_eq (congrArg (· = players) (modify_pair _ _ h)))

end entries

lemma populatePlayers_iff {p q : Int} (hne : q ≠ p) (hq : 0 ≤ q) :
    (∃ players, s.populatePlayer [{}, {}] 0 p = .ok players ∧
      s.populatePlayer players 1 q = .ok [s.player p, s.player q]) ↔ s.InPlace p q := by
  simp only [populateFirst_ok, and_assoc, exists_and_left, exists_eq_left', populateSecond_ok,
    cons.injEq, and_true, InPlace]
  generalize s.player p = P
  generalize s.player q = Q
  obtain ⟨upgrades, levels, techs, us⟩ := P
  obtain ⟨upgrades', levels', techs', us'⟩ := Q
  simp only [SnapshotPlayer.mk.injEq, true_and, nil_append]
  grind

/-- **A snapshot holds the main players, each in its own entry, exactly if there are two and they are
`InPlace`.**  -/
theorem players_exact (s : State) :
    let p := getActivePlayerId s.playerScore
    let q := getActivePlayerId (s.playerScore.assign p (-1))
    ((∀ i j, s.Owns i → s.Owns j → i = j) → s.stateToSnapshot = .error .fewerThanTwoPlayers) ∧
    ((∃ i j, s.Owns i ∧ s.Owns j ∧ i ≠ j) → s.Main p q ∧
      (s.stateToSnapshot = .ok ⟨s.mapWidth.tdiv 4, s.mapHeight.tdiv 4, s.mapName, s.mapTitle,
        [s.player p, s.player q]⟩ ↔ s.InPlace p q)) := by
  intro p q
  unfold stateToSnapshot
  rcases s.activePlayers_spec with hmain | ⟨hq, hone⟩
  · refine ⟨fun h => absurd (h _ _ hmain.owns.2 hmain.owns.1) hmain.ne, fun _ => ⟨hmain, ?_⟩⟩
    by_cases hq : q < 0
    · rw [if_pos hq]
      exact iff_of_false nofun fun h => absurd h.1 (not_le.mpr hq)
    · rw [if_neg hq, ← populatePlayers_iff s hmain.ne (not_lt.mp hq)]
      cases s.populatePlayer [{}, {}] 0 p with
      | error e => exact iff_of_false nofun nofun
      | ok players =>
        simp only [Except.ok.injEq, exists_eq_left']
        change (s.populatePlayer players 1 q >>= _) = _ ↔ _
        cases s.populatePlayer players 1 q with
        | error e => exact iff_of_false nofun nofun
        | ok players' =>
          change Except.ok _ = Except.ok _ ↔ _
          simp only [Except.ok.injEq, Snapshot.mk.injEq, true_and]
          exact Iff.rfl
  · refine ⟨fun _ => if_pos (by omega), ?_⟩
    rintro ⟨i, j, hi, hj, hne⟩
    exact absurd (hone i j hi hj) hne

/-- an SCV of each of two players -/
def duel (p q : Int) : State where
  ids := [p, q]
  units i := if i = p ∨ i = q then [⟨i, 7, 0, 0, 60, 0, 0, true⟩] else []
  owned i u hu := by split at hu <;> simp_all

theorem players_exact_duel : (duel 0 1).stateToSnapshot =
    .ok ⟨0, 0, "", "", [(duel 0 1).player 0, (duel 0 1).player 1]⟩ :=
  ((players_exact (duel 0 1)).2 ⟨0, 1, ⟨_, .head _, rfl⟩, ⟨_, .tail _ (.head _), rfl⟩, by decide⟩).2.mpr
    ⟨by decide, .inl ⟨.inl rfl, .inl rfl⟩⟩

/-- Players 2 and 3: the first unit goes outside. -/
theorem players_outside : (duel 2 3).stateToSnapshot = .error .outside := rfl

end State
end TorchCraft.Snapshotter
