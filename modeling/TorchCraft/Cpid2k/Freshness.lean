import TorchCraft.Cpid2k.GlobalState

/-!
# Is the list of peers as new as its version?

* `peers_fresh`  the whole statement.
-/

namespace TorchCraft.Cpid2k
open Lib

variable {parse : String → Except String WorkerInfo} {g g' g'' : GlobalState} {a : Attempt}

/-- the stored version was read no later than the list was fetched, or both are as they were at the
start -/
def Fresh (g : GlobalState) : Prop :=
  (g.storedAt = none ∧ g.peerv_ = -1 ∧ g.peers_ = []) ∨
    ∃ n ∈ g.storedAt, ∃ m ∈ g.fetchedAt, n ≤ m

instance decidableFresh (g : GlobalState) : Decidable (Fresh g) :=
  inferInstanceAs (Decidable (_ ∨ _))

/-- the attempt reads a version other than the stored one -/
def News (g : GlobalState) (a : Attempt) : Prop :=
  ¬a.now - g.lastPeersCheck_ < g.pcInterval_ ∧
    ∃ r₀ r₁ peerv, a.first = .ok (r₀, r₁) ∧ newPeerv r₁ = .ok peerv ∧ peerv ≠ g.peerv_

def Readable (parse : String → Except String WorkerInfo) (r : RedisReply) : Prop :=
  r = .nil ∨ ∃ text info, r = .string text ∧ parse text = .ok info

/-- the `SCAN`s end, and they and `MGET` are answered -/
def Whole (parse : String → Except String WorkerInfo) (a : Attempt) : Prop :=
  ∃ keys, Scanned a.scans keys ∧
    (keys ≠ [] → ∃ rs, a.mget = .ok (.array rs) ∧ ∀ r ∈ rs, Readable parse r)

lemma readPeers_readable {rs : List RedisReply} (h : ∀ r ∈ rs, Readable parse r) :
    ∃ peers, readPeers parse rs = .ok peers := by
  induction rs with
  | nil => exact ⟨[], rfl⟩
  | cons r rs ih =>
    obtain ⟨peers, hpeers⟩ := ih fun r' hr' => h r' (List.mem_cons_of_mem _ hr')
    rcases h r (List.mem_cons_self ..) with rfl | ⟨text, info, rfl, hinfo⟩
    · exact ⟨peers, hpeers⟩
    · refine ⟨info :: peers, ?_⟩
      show (do
        let info ← parse text
        return info :: (← readPeers parse rs)) = _
      rw [hinfo, hpeers]
      rfl

lemma fetch_of_whole (h : Whole parse a) : ∃ peers, fetch parse a = some (.ok peers) := by
  obtain ⟨keys, hscan, hmget⟩ := h
  have hkeys : scan [] a.scans = some (.ok keys) := scan_of_scanned hscan []
  unfold fetch
  rw [hkeys]
  cases keys with
  | nil => exact ⟨[], rfl⟩
  | cons k keys =>
    obtain ⟨rs, hrs, hall⟩ := hmget (List.cons_ne_nil k keys)
    obtain ⟨peers, hpeers⟩ := readPeers_readable hall
    refine ⟨peers, ?_⟩
    rw [hrs]
    show some ((readPeers parse rs).mapError raise) = _
    rw [hpeers]
    rfl

/-! ## one attempt -/

/-- version and list are kept -/
def Same (g g' : GlobalState) : Prop :=
  g'.peerv_ = g.peerv_ ∧ g'.peers_ = g.peers_ ∧ g'.storedAt = g.storedAt ∧
    g'.fetchedAt = g.fetchedAt

lemma Same.trans (h : Same g g') (h' : Same g' g'') : Same g g'' :=
  ⟨h'.1.trans h.1, h'.2.1.trans h.2.1, h'.2.2.1.trans h.2.2.1, h'.2.2.2.trans h.2.2.2⟩

lemma Fresh.same (hf : Fresh g) (h : Same g g') : Fresh g' := by
  unfold Fresh
  rw [h.1, h.2.1, h.2.2.1, h.2.2.2]
  exact hf

lemma tryUpdate_cases (parse : String → Except String WorkerInfo) (g : GlobalState)
    (a : Attempt) :
    (Same g (g.tryUpdate parse a).1 ∧ (g.tryUpdate parse a).2 ≠ .waiting) ∨
    (News g a ∧ ∃ g' peerv, Same g g' ∧ g.tryUpdate parse a = g'.refetch parse a peerv) := by
  unfold GlobalState.tryUpdate
  by_cases hearly : a.now - g.lastPeersCheck_ < g.pcInterval_
  · rw [if_pos hearly]
    exact .inl ⟨⟨rfl, rfl, rfl, rfl⟩, nofun⟩
  · rw [if_neg hearly]
    split
    · exact .inl ⟨⟨rfl, rfl, rfl, rfl⟩, nofun⟩
    next r₀ r₁ hfirst =>
      split
      · exact .inl ⟨⟨rfl, rfl, rfl, rfl⟩, nofun⟩
      next peerv hpeerv =>
        by_cases hsame : peerv = g.peerv_
        · rw [if_pos hsame]
          exact .inl ⟨⟨rfl, rfl, rfl, rfl⟩, nofun⟩
        · rw [if_neg hsame]
          refine .inr ⟨⟨hearly, r₀, r₁, peerv, hfirst, hpeerv, hsame⟩, _, peerv, ?_, rfl⟩
          exact ⟨rfl, rfl, rfl, rfl⟩

lemma refetch_of_fetch {peers : List WorkerInfo} (h : fetch parse a = some (.ok peers))
    (g : GlobalState) (peerv : Int) :
    g.refetch parse a peerv =
      ({ g with
          peerv_ := peerv
          storedAt := some g.attempts
          peers_ := peers
          fetchedAt := some g.attempts }, .returned) := by
  unfold GlobalState.refetch
  rw [h]

lemma tryUpdate_careful (h : News g a → Whole parse a) :
    Same g (g.tryUpdate parse a).1 ∧ (g.tryUpdate parse a).2 ≠ .waiting ∨
      Fresh (g.tryUpdate parse a).1 ∧ (g.tryUpdate parse a).2 = .returned := by
  rcases tryUpdate_cases parse g a with hsame | ⟨hnews, g', peerv, -, heq⟩
  · exact .inl hsame
  · obtain ⟨peers, hpeers⟩ := fetch_of_whole (h hnews)
    rw [heq, refetch_of_fetch hpeers]
    exact .inr ⟨.inr ⟨_, rfl, _, rfl, Nat.le_refl _⟩, rfl⟩

/-! ## calls -/

/-- the attempts of a call that read another version are answered -/
def CarefulCall (parse : String → Except String WorkerInfo) (g : GlobalState) :
    List Attempt → Prop
  | [] => True
  | a :: as =>
    (News g a → Whole parse a) ∧
      ((∃ f, (g.tryUpdate parse a).2 = .thrown f ∧ f.connected = false) → a.reconnect = none →
        CarefulCall parse (g.tryUpdate parse a).1 as)

lemma update_careful (as : List Attempt) (g : GlobalState) (h : CarefulCall parse g as) :
    Same g (g.update parse as).1 ∨
      Fresh (g.update parse as).1 ∧ (g.update parse as).2 = .returned := by
  induction as generalizing g with
  | nil => exact .inl ⟨rfl, rfl, rfl, rfl⟩
  | cons a as ih =>
    obtain ⟨hwhole, hrest⟩ := h
    have hone := tryUpdate_careful hwhole
    unfold GlobalState.update
    generalize hres : g.tryUpdate parse a = res at hone hrest
    obtain ⟨g', outcome⟩ := res
    cases outcome with
    | returned => exact hone.imp (fun hsame => hsame.1) fun hfresh => hfresh
    | waiting =>
      rcases hone with ⟨-, hnot⟩ | ⟨-, hret⟩
      · exact absurd rfl hnot
      · cases hret
    | thrown f =>
      have hsame : Same g g' := by
        rcases hone with ⟨hsame, -⟩ | ⟨-, hret⟩
        · exact hsame
        · cases hret
      dsimp only
      by_cases hconn : f.connected
      · rw [if_pos hconn]
        exact .inl hsame
      · rw [if_neg hconn]
        cases hrec : a.reconnect with
        | some what => exact .inl hsame
        | none =>
          have hdown : f.connected = false := by simpa using hconn
          exact (ih g' (hrest ⟨f, rfl, hdown⟩ hrec)).imp_left fun h' => hsame.trans h'

/-! ## all calls -/

def updateSys (parse : String → Except String WorkerInfo) : Sys GlobalState (List Attempt) where
  run g as := (g.update parse as).1
  ok g as := (g.update parse as).2 ≠ .waiting

def carefulUpdateSys (parse : String → Except String WorkerInfo) :
    Sys GlobalState (List Attempt) where
  run g as := (g.update parse as).1
  ok g as := (g.update parse as).2 ≠ .waiting ∧ CarefulCall parse g as

instance updateSys_decidable (parse : String → Except String WorkerInfo) (g : GlobalState)
    (as : List Attempt) : Decidable ((updateSys parse).ok g as) :=
  inferInstanceAs (Decidable (_ ≠ _))

/-- **The list of peers is as new as its version** at every return of `update`, normal or
exceptional, if the `SCAN`s and the `MGET` of every attempt that reads another version are answered.
-/
theorem peers_fresh (parse : String → Except String WorkerInfo) (interval : Int)
    (calls : List (List Attempt))
    (hl : (carefulUpdateSys parse).Legal { pcInterval_ := interval } calls) :
    let g := (carefulUpdateSys parse).out { pcInterval_ := interval } calls
    Fresh g ∧
      ∀ as f, CarefulCall parse g as → (g.update parse as).2 = .thrown f →
        (g.update parse as).1.peerv_ = g.peerv_ ∧ (g.update parse as).1.peers_ = g.peers_ := by
  intro g
  refine ⟨(carefulUpdateSys parse).invariant Fresh (fun g as hf ho => ?_) _ (.inl ⟨rfl, rfl, rfl⟩)
    calls hl, fun as f hc hthrown => ?_⟩
  · rcases update_careful as g ho.2 with hsame | ⟨hfresh, -⟩
    · exact hf.same hsame
    · exact hfresh
  · rcases update_careful as g hc with hsame | ⟨-, hret⟩
    · exact ⟨hsame.1, hsame.2.1⟩
    · rw [hthrown] at hret
      cases hret

def emptyJob : Attempt :=
  { now := 10, checked := 10, first := .ok (.nil, .string "5"),
    scans := [.ok (.array [.string "0", .array []])] }

def namedPeer (text : String) : Except String WorkerInfo := .ok { id := text }

/-- there is one other worker -/
def onePeer : Attempt :=
  { emptyJob with scans := [.ok (.array [.string "0", .array [.string "peer"]])]
                  mget := .ok (.array [.string "w1"]) }

theorem peers_fresh_one :
    let g := (carefulUpdateSys namedPeer).out { pcInterval_ := 1 } [[onePeer]]
    g.peerv_ = 5 ∧ g.peers_ = [{ id := "w1" }] ∧ Fresh g := by
  have hwhole : Whole namedPeer onePeer := by
    refine ⟨["peer"], .last ["peer"] [], fun _ => ⟨[.string "w1"], rfl, fun r hr => ?_⟩⟩
    rw [List.mem_singleton.mp hr]
    exact .inr ⟨"w1", { id := "w1" }, rfl, rfl⟩
  have hlegal : (carefulUpdateSys namedPeer).Legal { pcInterval_ := 1 } [[onePeer]] :=
    ⟨⟨by decide +kernel, fun _ => hwhole, fun _ _ => trivial⟩, trivial⟩
  exact ⟨by decide +kernel, by decide +kernel, (peers_fresh namedPeer 1 [[onePeer]] hlegal).1⟩

def refusedScan : Attempt :=
  { emptyJob with now := 1, checked := 1, scans := [.ok (.error "LOADING dataset in memory")] }

theorem peers_stale :
    (updateSys fun _ => .error "no data").Legal { pcInterval_ := 1 } [[refusedScan], [emptyJob]] ∧
    ¬Fresh ((updateSys fun _ => .error "no data").out { pcInterval_ := 1 } [[refusedScan]]) ∧
    ¬Fresh ((updateSys fun _ => .error "no data").out { pcInterval_ := 1 }
      [[refusedScan], [emptyJob]]) := by
  decide +kernel

end TorchCraft.Cpid2k
