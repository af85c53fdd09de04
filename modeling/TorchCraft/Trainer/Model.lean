import TorchCraft.Lib.Nested

/-!
# The trainer and its replay buffer

Which episodes are active, the frames of the episodes and which of them are done are kept in three
maps of maps.

* `ReplayBuffer`  `append`, `erase`, `clear`, `get`, `sample_`;
* `Trainer`  `startEpisode`, `step`, `forceStopEpisode`, `isActive`, `reset`;
* `Stage`, `Act`  what an episode goes through, and what happens to it;
* `Mirrors t life`  the three maps of `t` say of every episode what its stage says;
* `mirrors_start`, `mirrors_step`, `mirrors_stop`, `mirrors_reset`  the operations follow the stages.
-/

set_option linter.unusedSectionVars false

namespace TorchCraft.Training
open Lib Lib.Nested

/-! ## the replay buffer -/

/-- `G` are the game ids, `K` the episode keys and `F` the frames -/
structure ReplayBuffer (G K F : Type) [LinearOrder G] [LinearOrder K] where
  storage_ : OrdMap G (OrdMap K (List F)) := .empty
  dones_ : OrdMap G (OrdMap K Unit) := .empty

/-- an element that a random generator selects; there is one unless the list is empty -/
def selectRandomly {A : Type} (l : List A) (i : Nat) : Option A := l[i % l.length]?

inductive SampleError where
  /-- the exception: no finished episodes yet -/
  | noFinishedEpisodes
  /-- the fatal error: no episodes in game -/
  | noEpisodesInGame
  deriving DecidableEq

variable {G K F : Type} [LinearOrder G] [LinearOrder K]

namespace ReplayBuffer
variable (b : ReplayBuffer G K F)

/-- the episode with the new frame, and the buffer -/
def append (uid : G) (key : K) (value : F) (isDone : Bool) : List F × ReplayBuffer G K F :=
  let episode := (find₂ b.storage_ uid key).getD [] ++ [value]
  (episode,
    { storage_ := put b.storage_ uid key episode
      dones_ := if isDone then put b.dones_ uid key () else b.dones_ })

def isDone (uid : G) (key : K) : Bool := (find₂ b.dones_ uid key).isSome

def erase (id : G) (key : K) : ReplayBuffer G K F where
  storage_ := drop b.storage_ id key
  dones_ := drop b.dones_ id key

def clear (_ : ReplayBuffer G K F) : ReplayBuffer G K F := {}

/-- `storage_[uid][key]`: an episode that is not there is inserted -/
def get (uid : G) (key : K) : List F × ReplayBuffer G K F :=
  match find₂ b.storage_ uid key with
  | some episode => (episode, b)
  | none => ([], { b with storage_ := put b.storage_ uid key [] })

def sample_ (i j : Nat) : Except SampleError ((G × K) × List F × ReplayBuffer G K F) :=
  match selectRandomly b.dones_.entries i with
  | none => .error .noFinishedEpisodes
  | some game =>
    match selectRandomly game.2.entries j with
    | none => .error .noEpisodesInGame
    | some ep => .ok ((game.1, ep.1), b.get game.1 ep.1)

end ReplayBuffer

/-! ## the trainer -/

structure Trainer (G K F : Type) [LinearOrder G] [LinearOrder K] where
  replayer_ : ReplayBuffer G K F := {}
  actives_ : OrdMap G (OrdMap K Unit) := .empty

namespace Trainer
variable (t : Trainer G K F)

def isActive (uid : G) (k : K) : Bool := (find₂ t.actives_ uid k).isSome

/-- the trainer, and the episode for which `stepEpisode` is called -/
def step (uid : G) (k : K) (v : F) (isDone : Bool) : Trainer G K F × Option (List F) :=
  if t.isActive uid k = false then (t, none)
  else
    let (episode, replayer) := t.replayer_.append uid k v isDone
    if isDone then ({ replayer_ := replayer, actives_ := drop t.actives_ uid k }, some episode)
    else ({ t with replayer_ := replayer }, none)

section step
variable {t} {uid : G} {k : K}

/-- the episode with the new frame -/
def extended (t : Trainer G K F) (uid : G) (k : K) (v : F) : List F :=
  (find₂ t.replayer_.storage_ uid k).getD [] ++ [v]

lemma step_inactive (h : ¬t.isActive uid k) (v : F) (isDone : Bool) :
    t.step uid k v isDone = (t, none) := if_pos (Bool.not_eq_true _ ▸ h)

lemma step_frame (h : t.isActive uid k) (v : F) :
    t.step uid k v false =
      ({ t with replayer_ := { t.replayer_ with
          storage_ := put t.replayer_.storage_ uid k (t.extended uid k v) } }, none) :=
  if_neg (by simp [h])

lemma step_last (h : t.isActive uid k) (v : F) :
    t.step uid k v true =
      ({ replayer_ :=
          { storage_ := put t.replayer_.storage_ uid k (t.extended uid k v)
            dones_ := put t.replayer_.dones_ uid k () }
         actives_ := drop t.actives_ uid k }, some (t.extended uid k v)) :=
  if_neg (by simp [h])

end step

/-- `kDefaultEpisodeKey` is the default of `K`, as it is for strings -/
def startEpisode [Inhabited K] (uid : G) : Trainer G K F :=
  { t with actives_ := put t.actives_ uid default () }

def forceStopEpisode (uid : G) (k : K) : Trainer G K F :=
  if t.isActive uid k then
    { replayer_ := t.replayer_.erase uid k, actives_ := drop t.actives_ uid k }
  else t

/-- the active episodes, in the order in which a copy of the map is iterated -/
def reset (order : List (G × K)) : Trainer G K F :=
  { order.foldl (fun t e => t.forceStopEpisode e.1 e.2) t with actives_ := .empty }

end Trainer

/-! ## what an episode goes through -/

inductive Stage (F : Type) where
  | never
  | active (frames : List F)
  | done (frames : List F)
  | stopped
  deriving DecidableEq

inductive Act (F : Type) where
  | start
  | step (frame : F) (isDone : Bool)
  | stop

/-- only an active episode takes frames, and only an active episode is stopped -/
def Stage.next : Stage F → Act F → Stage F
  | .never, .start => .active []
  | .active frames, .step frame isDone =>
    if isDone then .done (frames ++ [frame]) else .active (frames ++ [frame])
  | .active _, .stop => .stopped
  | x, _ => x

lemma Stage.next_inactive {x : Stage F} (h : ¬∃ frames, x = .active frames) {a : Act F}
    (ha : a ≠ .start) : x.next a = x := by
  cases x with
  | never =>
    cases a with
    | start => exact absurd rfl ha
    | step | stop => rfl
  | active frames => exact absurd ⟨frames, rfl⟩ h
  | done | stopped => rfl

/-- the frames of an episode that this act makes done -/
def Stage.call : Stage F → Act F → Option (List F)
  | .active frames, .step frame true => some (frames ++ [frame])
  | _, _ => none

/-- what the three maps hold for an episode in this stage: whether it is active, its frames, and
whether it is done -/
def Stage.record : Stage F → Option Unit × Option (List F) × Option Unit
  | .never => (none, none, none)
  | .active [] => (some (), none, none)
  | .active (f :: fs) => (some (), some (f :: fs), none)
  | .done frames => (none, some frames, some ())
  | .stopped => (none, none, none)

/-- what the three maps hold for an episode -/
def Trainer.records (t : Trainer G K F) (e : G × K) : Option Unit × Option (List F) × Option Unit :=
  (find₂ t.actives_ e.1 e.2, find₂ t.replayer_.storage_ e.1 e.2, find₂ t.replayer_.dones_ e.1 e.2)

def Mirrors (t : Trainer G K F) (life : G × K → Stage F) : Prop :=
  ∀ e, t.records e = (life e).record

section mirrors
variable {t : Trainer G K F} {life : G × K → Stage F} {e : G × K}

lemma mirrors_new : Mirrors ({} : Trainer G K F) fun _ => .never := fun _ => rfl

section
variable (h : Mirrors t life)
include h

lemma Mirrors.active_iff : t.isActive e.1 e.2 ↔ ∃ frames, life e = .active frames := by
  have he : find₂ t.actives_ e.1 e.2 = (life e).record.1 := congrArg Prod.fst (h e)
  unfold Trainer.isActive
  rw [he]
  cases life e with
  | never | done | stopped => exact ⟨nofun, nofun⟩
  | active frames =>
    cases frames with
    | nil | cons => exact ⟨fun _ => ⟨_, rfl⟩, fun _ => rfl⟩

lemma Mirrors.done_iff : t.replayer_.isDone e.1 e.2 ↔ ∃ frames, life e = .done frames := by
  have he : find₂ t.replayer_.dones_ e.1 e.2 = (life e).record.2.2 :=
    congrArg (fun r => r.2.2) (h e)
  unfold ReplayBuffer.isDone
  rw [he]
  cases life e with
  | never | stopped => exact ⟨nofun, nofun⟩
  | active frames =>
    cases frames with
    | nil | cons => exact ⟨nofun, nofun⟩
  | done frames => exact ⟨fun _ => ⟨_, rfl⟩, fun _ => rfl⟩

lemma Mirrors.stored : find₂ t.replayer_.storage_ e.1 e.2 = (life e).record.2.1 :=
  congrArg (fun r => r.2.1) (h e)

lemma Mirrors.extended {frames : List F} (he : life e = .active frames)
    (v : F) : t.extended e.1 e.2 v = frames ++ [v] := by
  unfold Trainer.extended
  rw [h.stored, he]
  cases frames with
  | nil | cons => rfl

lemma Mirrors.records_active {frames : List F} (he : life e = .active frames) :
    find₂ t.actives_ e.1 e.2 = some () ∧ find₂ t.replayer_.dones_ e.1 e.2 = none := by
  have hrec := h e
  rw [he] at hrec
  cases frames with
  | nil | cons => exact ⟨congrArg Prod.fst hrec, congrArg (fun r => r.2.2) hrec⟩

end

lemma record_active_concat (frames : List F) (v : F) :
    (Stage.active (frames ++ [v])).record = (some (), some (frames ++ [v]), none) := by
  cases frames with
  | nil | cons => rfl

lemma Mirrors.update (h : Mirrors t life) {t' : Trainer G K F} {x : Stage F}
    (hself : t'.records e = x.record) (hother : ∀ e', e' ≠ e → t'.records e' = t.records e') :
    Mirrors t' (Function.update life e x) :=
  (Function.forall_update_iff life fun e x => t'.records e = x.record).mpr
    ⟨hself, fun e' he => (hother e' he).trans (h e')⟩

lemma Mirrors.keep (h : Mirrors t life) {x : Stage F} (hx : x = life e) :
    Mirrors t (Function.update life e x) := by
  rw [hx, Function.update_eq_self]
  exact h

lemma keys_ne {e e' : G × K} (h : e' ≠ e) : ¬(e'.1 = e.1 ∧ e'.2 = e.2) :=
  fun heq => h (Prod.ext heq.1 heq.2)

lemma mirrors_start [Inhabited K] (h : Mirrors t life) {uid : G}
    (hnew : life (uid, default) = .never) :
    Mirrors (t.startEpisode uid)
      (Function.update life (uid, default) ((life (uid, default)).next .start)) := by
  refine h.update ?_ fun e' he' => ?_
  · have hrec := h (uid, default)
    rw [hnew] at hrec ⊢
    have hrest : (t.records (uid, default)).2 = (none, none) := congrArg Prod.snd hrec
    refine Prod.ext ?_ hrest
    show find₂ (put t.actives_ uid default ()) uid default = some ()
    rw [find₂_put, if_pos ⟨rfl, rfl⟩]
  · unfold Trainer.records
    refine Prod.ext ?_ rfl
    show find₂ (put t.actives_ uid default ()) e'.1 e'.2 = _
    rw [find₂_put, if_neg (keys_ne he')]

lemma mirrors_step (h : Mirrors t life) (v : F) (isDone : Bool) :
    Mirrors (t.step e.1 e.2 v isDone).1
      (Function.update life e ((life e).next (.step v isDone))) := by
  by_cases hact : t.isActive e.1 e.2
  · obtain ⟨frames, he⟩ := h.active_iff.mp hact
    obtain ⟨ha, hd⟩ := h.records_active he
    cases isDone with
    | true =>
      rw [Trainer.step_last hact, h.extended he, he]
      refine h.update ?_ fun e' he' => ?_
      · simp only [Trainer.records, find₂_drop, find₂_put, and_self, if_true]
        rfl
      · simp only [Trainer.records, find₂_drop, find₂_put, if_neg (keys_ne he')]
    | false =>
      rw [Trainer.step_frame hact, h.extended he, he]
      refine h.update ?_ fun e' he' => ?_
      · show _ = (Stage.active (frames ++ [v])).record
        unfold Trainer.records
        rw [record_active_concat, find₂_put, if_pos ⟨rfl, rfl⟩, ha, hd]
      · unfold Trainer.records
        rw [find₂_put, if_neg (keys_ne he')]
  · rw [Trainer.step_inactive hact]
    exact h.keep (Stage.next_inactive (fun he => hact (h.active_iff.mpr he)) nofun)

lemma mirrors_stop (h : Mirrors t life) :
    Mirrors (t.forceStopEpisode e.1 e.2) (Function.update life e ((life e).next .stop)) := by
  unfold Trainer.forceStopEpisode
  by_cases hact : t.isActive e.1 e.2
  · obtain ⟨frames, he⟩ := h.active_iff.mp hact
    rw [if_pos hact, he]
    refine h.update ?_ fun e' he' => ?_
    · simp only [Trainer.records, ReplayBuffer.erase, find₂_drop, and_self, if_true]
      rfl
    · simp only [Trainer.records, ReplayBuffer.erase, find₂_drop, if_neg (keys_ne he')]
  · rw [if_neg hact]
    exact h.keep (Stage.next_inactive (fun he => hact (h.active_iff.mpr he)) nofun)

lemma step_call (h : Mirrors t life) (v : F) (isDone : Bool) :
    (t.step e.1 e.2 v isDone).2 = (life e).call (.step v isDone) := by
  by_cases hact : t.isActive e.1 e.2
  · obtain ⟨frames, he⟩ := h.active_iff.mp hact
    cases isDone with
    | true =>
      rw [Trainer.step_last hact, h.extended he, he]
      rfl
    | false =>
      rw [Trainer.step_frame hact, he]
      rfl
  · rw [Trainer.step_inactive hact]
    cases hl : life e with
    | active frames => exact absurd (h.active_iff.mpr ⟨frames, hl⟩) hact
    | never | done | stopped => rfl

end mirrors

/-! ## what an operation leaves alone -/

section trainer
variable {t : Trainer G K F} {e e' : G × K}

lemma stored_step (h : e' ≠ e) (v : F) (isDone : Bool) :
    find₂ (t.step e.1 e.2 v isDone).1.replayer_.storage_ e'.1 e'.2
      = find₂ t.replayer_.storage_ e'.1 e'.2 := by
  by_cases hact : t.isActive e.1 e.2
  · cases isDone with
    | true =>
      rw [Trainer.step_last hact, find₂_put, if_neg (keys_ne h)]
    | false =>
      rw [Trainer.step_frame hact, find₂_put, if_neg (keys_ne h)]
  · rw [Trainer.step_inactive hact]

lemma stored_stop (h : e' ≠ e) :
    find₂ (t.forceStopEpisode e.1 e.2).replayer_.storage_ e'.1 e'.2
      = find₂ t.replayer_.storage_ e'.1 e'.2 := by
  unfold Trainer.forceStopEpisode
  split
  · show find₂ (drop _ _ _) _ _ = _
    rw [find₂_drop, if_neg (keys_ne h)]
  · rfl

lemma stop_of_inactive (h : ¬t.isActive e.1 e.2) : t.forceStopEpisode e.1 e.2 = t := if_neg h

lemma actives_stop (h : t.isActive e.1 e.2) :
    (t.forceStopEpisode e.1 e.2).actives_ = drop t.actives_ e.1 e.2 := by
  unfold Trainer.forceStopEpisode
  rw [if_pos h]

lemma active_of_stop {t : Trainer G K F} (e e' : G × K)
    (h : (t.forceStopEpisode e.1 e.2).isActive e'.1 e'.2) : t.isActive e'.1 e'.2 ∧ e' ≠ e := by
  by_cases hact : t.isActive e.1 e.2
  · unfold Trainer.isActive at h
    rw [actives_stop hact, find₂_drop] at h
    split at h
    · cases h
    next hne =>
      exact ⟨h, fun heq => hne ⟨congrArg Prod.fst heq, congrArg Prod.snd heq⟩⟩
  · rw [stop_of_inactive hact] at h
    exact ⟨h, fun heq => hact (heq ▸ h)⟩

lemma actives_frame (v : F) : (t.step e.1 e.2 v false).1.actives_ = t.actives_ := by
  by_cases hact : t.isActive e.1 e.2
  · rw [Trainer.step_frame hact]
  · rw [Trainer.step_inactive hact]

end trainer

/-! ## runs of events -/

/-- what happened to which episode -/
abbrev Event (G K F : Type) := (G × K) × Act F

/-- the stage of every episode after these events, the last one first -/
def lifeOf : List (Event G K F) → G × K → Stage F
  | [] => fun _ => .never
  | (e, a) :: events => Function.update (lifeOf events) e ((lifeOf events e).next a)

section lives
variable {events : List (Event G K F)} {e e' : G × K} {a : Act F}

lemma lifeOf_cons_self : lifeOf ((e, a) :: events) e = (lifeOf events e).next a :=
  Function.update_self ..

lemma lifeOf_cons_of_ne (h : e' ≠ e) : lifeOf ((e, a) :: events) e' = lifeOf events e' :=
  Function.update_of_ne h ..

end lives

lemma mirrors_stops {t : Trainer G K F} {events : List (Event G K F)}
    (h : Mirrors t (lifeOf events)) (order : List (G × K)) :
    Mirrors (order.foldl (fun t e => t.forceStopEpisode e.1 e.2) t)
      (lifeOf ((order.map (·, Act.stop)).reverse ++ events)) := by
  induction order generalizing t events with
  | nil => exact h
  | cons e order ih =>
    rw [List.map_cons, List.reverse_cons, List.append_assoc]
    exact ih (mirrors_stop h)

lemma next_stop_inactive (x : Stage F) : ¬∃ frames, x.next .stop = .active frames := by
  rintro ⟨frames, h⟩
  cases x with
  | never | active | done | stopped => cases h

lemma lifeOf_stops (events : List (Event G K F)) {order : List (G × K)} {e : G × K}
    (he : e ∈ order ∨ ¬∃ frames, lifeOf events e = .active frames) :
    ¬∃ frames, lifeOf ((order.map (·, Act.stop)).reverse ++ events) e = .active frames := by
  induction order generalizing events with
  | nil => exact he.resolve_left List.not_mem_nil
  | cons e' order ih =>
    rw [List.map_cons, List.reverse_cons, List.append_assoc]
    refine ih ((e', Act.stop) :: events) ?_
    by_cases heq : e = e'
    · right
      rw [heq, lifeOf_cons_self]
      exact next_stop_inactive _
    · rcases he with he | he
      · exact .inl ((List.mem_cons.mp he).resolve_left heq)
      · right
        rw [lifeOf_cons_of_ne heq]
        exact he

/-- after the loop no episode is active, and clearing the map changes nothing -/
lemma mirrors_reset {t : Trainer G K F} {events : List (Event G K F)} {order : List (G × K)}
    (h : Mirrors t (lifeOf events)) (horder : ∀ e, t.isActive e.1 e.2 → e ∈ order) :
    Mirrors (t.reset order) (lifeOf ((order.map (·, Act.stop)).reverse ++ events)) := by
  have hstops := mirrors_stops h order
  intro e
  have hnot : ¬∃ frames, lifeOf ((order.map (·, Act.stop)).reverse ++ events) e = .active frames := by
    refine lifeOf_stops events ?_
    by_cases hact : t.isActive e.1 e.2
    · exact .inl (horder e hact)
    · exact .inr fun he => hact (h.active_iff.mpr he)
  rw [← hstops e]
  have hnone := mt hstops.active_iff.mp hnot
  refine Prod.ext ?_ rfl
  exact (Option.not_isSome_iff_eq_none.mp hnone).symm

end TorchCraft.Training
