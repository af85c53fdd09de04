import TorchCraft.Lib.Sys
import TorchCraft.Trainer.Model

/-!
# Episodes and their handles

A handle belongs to one episode or to none; moving it leaves an empty handle, and a handle that goes
away force-stops its episode.

* `Op`, `trainerSys`  the calls, in any order;
* `Faithful`  the maps of the trainer and the calls of `stepEpisode` follow the events;
* `faithful_step`  every call keeps it.

An operation on an empty handle throws before it changes anything.  The move constructor
dereferences the trainer of the other handle, so moving from an empty handle ends the process.
-/

set_option linter.unusedSectionVars false

namespace TorchCraft.Training
open Lib Lib.OrdMap Lib.Nested Function
open List

variable (G K F : Type) [LinearOrder G] [LinearOrder K] [Inhabited K]

/-- handles are kept at addresses -/
structure World where
  trainer : Trainer G K F := {}
  handles : Nat → Option (G × K) := fun _ => none
  crashed : Bool := false
  /-- what has happened, the last event first -/
  events : List (Event G K F) := []
  calls : List ((G × K) × List F) := []
  /-- the ids that `genGameUID` returned -/
  uids : List G := []

inductive Op where
  | startEpisode (uid : G) (handle : Nat)
  | step (handle : Nat) (v : F) (isDone : Bool)
  | forceStopEpisode (handle : Nat)
  | reset (order : List (G × K))
  | moveConstruct (this other : Nat)
  | moveAssign (this other : Nat)
  | destroy (handle : Nat)

variable {G K F} {events : List (Event G K F)} {calls : List ((G × K) × List F)}
  {uids uids' : List G} {x : Stage F} {a : Act F} {frames : List F} {w : World G K F}

namespace World
variable (w : World G K F)

def step (e : G × K) (v : F) (isDone : Bool) : World G K F :=
  let (trainer, call) := w.trainer.step e.1 e.2 v isDone
  { w with
    trainer
    calls := call.toList.map (e, ·) ++ w.calls
    events := (e, .step v isDone) :: w.events }

def stop (e : G × K) : World G K F :=
  { w with
    trainer := w.trainer.forceStopEpisode e.1 e.2
    events := (e, .stop) :: w.events }

def release (handle : Nat) : World G K F :=
  match w.handles handle with
  | some e => w.stop e
  | none => w

end World

def Op.run (w : World G K F) : Op G K F → World G K F
  | .startEpisode uid handle =>
    { w with
      trainer := w.trainer.startEpisode uid
      handles := update w.handles handle (some (uid, default))
      events := ((uid, default), .start) :: w.events
      uids := uid :: w.uids }
  | .step handle v isDone =>
    match w.handles handle with
    | some e => w.step e v isDone
    | none => w
  | .forceStopEpisode handle => w.release handle
  | .reset order =>
    { w with
      trainer := w.trainer.reset order
      events := (order.map (·, Act.stop)).reverse ++ w.events }
  | .moveConstruct this other =>
    match w.handles other with
    | some e =>
      { w with handles := update (update w.handles this (some e)) other none }
    | none => { w with crashed := true }
  | .moveAssign this other =>
    { w.release this with
      handles := update (update w.handles this (w.handles other)) other none }
  | .destroy handle =>
    { w.release handle with handles := update w.handles handle none }

/-- ids are new, a handle is constructed where there is none, and the copy of the active episodes is
iterated in some order -/
def Op.Ok (w : World G K F) : Op G K F → Prop
  | .startEpisode uid handle => uid ∉ w.uids ∧ w.handles handle = none
  | .reset order => order.Perm (pairs w.trainer.actives_)
  | .moveConstruct this _ => w.handles this = none
  | _ => True

instance Op.decidableOk (w : World G K F) : ∀ o : Op G K F, Decidable (o.Ok w)
  | .startEpisode _ _ => inferInstanceAs (Decidable (_ ∧ _))
  | .step _ _ _ | .forceStopEpisode _ => inferInstanceAs (Decidable True)
  | .reset _ => inferInstanceAs (Decidable (List.Perm _ _))
  | .moveConstruct _ _ => inferInstanceAs (Decidable (_ = _))
  | .moveAssign _ _ | .destroy _ => inferInstanceAs (Decidable True)

def trainerSys (G K F : Type) [LinearOrder G] [LinearOrder K] [Inhabited K] :
    Sys (World G K F) (Op G K F) where
  run w o := o.run w
  ok w o := w.crashed = false ∧ o.Ok w

instance trainerSys_decidable (w : World G K F) (o : Op G K F) :
    Decidable ((trainerSys G K F).ok w o) :=
  inferInstanceAs (Decidable (_ ∧ _))

/-! ## what the events say -/

def Stage.isDone : Stage F → Bool
  | .done _ => true
  | _ => false

/-- how often `stepEpisode` was called for an episode -/
def callsOf (calls : List ((G × K) × List F)) (e : G × K) : Nat :=
  calls.countP fun c => decide (c.1 = e)

/-- the calls of `stepEpisode` are those for the episodes that are done, and ids are known -/
structure Logged (events : List (Event G K F)) (calls : List ((G × K) × List F)) (uids : List G) :
    Prop where
  frames : ∀ e frames, lifeOf events e = .done frames → frames ≠ []
  counted : ∀ e, callsOf calls e = if (lifeOf events e).isDone then 1 else 0
  called : ∀ c ∈ calls, lifeOf events c.1 = .done c.2
  known : ∀ e, lifeOf events e ≠ .never → e.1 ∈ uids

lemma next_done (frames : List F) (a : Act F) : (Stage.done frames).next a = .done frames := by
  cases a with
  | start | step | stop => rfl

lemma of_call_some (h : x.call a = some frames) :
    x.isDone = false ∧ x.next a = .done frames ∧ frames ≠ [] := by
  unfold Stage.call at h
  split at h
  · cases h
    exact ⟨rfl, rfl, concat_ne_nil _ _⟩
  · cases h

lemma of_call_none (h : x.call a = none) : (x.next a).isDone = x.isDone ∧
    ∀ frames, x.next a = .done frames → x = .done frames := by
  cases x with
  | never =>
    cases a with
    | start | step | stop => exact ⟨rfl, nofun⟩
  | active fs =>
    cases a with
    | start => exact ⟨rfl, nofun⟩
    | step v isDone =>
      cases isDone with
      | true => cases h
      | false => exact ⟨rfl, nofun⟩
    | stop => exact ⟨rfl, nofun⟩
  | done fs =>
    rw [next_done]
    exact ⟨rfl, fun _ h => h⟩
  | stopped =>
    cases a with
    | start | step | stop => exact ⟨rfl, nofun⟩

lemma next_never (h : x.next a ≠ .never) (ha : a ≠ .start) : x ≠ .never := by
  rintro rfl
  cases a with
  | start => exact ha rfl
  | step | stop => exact h rfl

lemma callsOf_event (h : Logged events calls uids) (e e' : G × K) (a : Act F) :
    callsOf (((lifeOf events e).call a).toList.map (e, ·) ++ calls) e'
      = if (lifeOf ((e, a) :: events) e').isDone then 1 else 0 := by
  have hold := h.counted e'
  by_cases he : e' = e
  · subst he
    have hlife : lifeOf ((e', a) :: events) e' = (lifeOf events e').next a := update_self ..
    rw [hlife]
    cases hc : (lifeOf events e').call a with
    | none =>
      rw [(of_call_none hc).1]
      exact hold
    | some frames =>
      obtain ⟨hx, hy, -⟩ := of_call_some hc
      rw [hx] at hold
      rw [hy]
      show countP _ ((e', frames) :: calls) = 1
      rw [countP_cons_of_pos (by simp)]
      exact congrArg (· + 1) hold
  · have hlife : lifeOf ((e, a) :: events) e' = lifeOf events e' := update_of_ne he ..
    rw [hlife, ← hold]
    cases (lifeOf events e).call a with
    | none => rfl
    | some frames =>
      exact countP_cons_of_neg (by simpa using Ne.symm he)

lemma logged_event (h : Logged events calls uids) (e : G × K) (a : Act F) (hu : uids ⊆ uids')
    (ha : a = .start → e.1 ∈ uids') :
    Logged ((e, a) :: events) (((lifeOf events e).call a).toList.map (e, ·) ++ calls) uids' := by
  refine ⟨?_, fun e' => callsOf_event h e e' a, fun c hc => ?_, ?_⟩
  · refine (forall_update_iff _ fun _ x => ∀ frames, x = Stage.done frames → frames ≠ []).mpr
      ⟨fun frames hd => ?_, fun e' _ => h.frames e'⟩
    cases hc : (lifeOf events e).call a with
    | none => exact h.frames e frames ((of_call_none hc).2 frames hd)
    | some fs =>
      obtain ⟨-, hy, hne⟩ := of_call_some hc
      rw [hy] at hd
      cases hd
      exact hne
  · refine (update_apply ..).trans ?_
    rcases mem_append.mp hc with hc | hc
    · obtain ⟨fs, hfs, rfl⟩ := mem_map.mp hc
      rw [if_pos rfl]
      exact (of_call_some (Option.mem_toList.mp hfs)).2.1
    · have hold := h.called c hc
      split
      next he => rw [← he, hold, next_done]
      next => exact hold
  · refine (forall_update_iff _ fun e' x => x ≠ Stage.never → e'.1 ∈ uids').mpr
      ⟨fun hn => ?_, fun e' _ hn => hu (h.known e' hn)⟩
    by_cases hs : a = .start
    · exact ha hs
    · exact hu (h.known e (next_never hn hs))

lemma call_stop (x : Stage F) : x.call .stop = none := by
  cases x with
  | never | active | done | stopped => rfl

lemma logged_stop (h : Logged events calls uids) (e : G × K) :
    Logged ((e, .stop) :: events) calls uids := by
  have hev := logged_event h e .stop (Subset.refl uids) nofun
  rwa [call_stop] at hev

lemma logged_stops (h : Logged events calls uids) (order : List (G × K)) :
    Logged ((order.map (·, Act.stop)).reverse ++ events) calls uids := by
  induction order generalizing events with
  | nil => exact h
  | cons e order ih =>
    rw [map_cons, reverse_cons, append_assoc]
    exact ih (logged_stop h e)

/-! ## what a run keeps -/

structure Faithful (w : World G K F) : Prop where
  mirrors : Mirrors w.trainer (lifeOf w.events)
  filled : Filled w.trainer.replayer_.dones_
  logged : Logged w.events w.calls w.uids

section faithful

lemma faithful_new : Faithful ({} : World G K F) where
  mirrors := mirrors_new
  filled := filled_empty
  logged := ⟨nofun, fun _ => rfl, nofun, fun _ h => absurd rfl h⟩

variable (t : Trainer G K F)

section
variable (h : Filled t.replayer_.dones_)
include h

lemma filled_step (e : G × K) (v : F) (isDone : Bool) :
    Filled (t.step e.1 e.2 v isDone).1.replayer_.dones_ := by
  by_cases hact : t.isActive e.1 e.2
  · cases isDone with
    | true =>
      rw [Trainer.step_last hact]
      exact filled_put h e.1 e.2 ()
    | false =>
      rw [Trainer.step_frame hact]
      exact h
  · rw [Trainer.step_inactive hact]
    exact h

lemma filled_stop (e : G × K) : Filled (t.forceStopEpisode e.1 e.2).replayer_.dones_ := by
  unfold Trainer.forceStopEpisode
  split
  · exact filled_drop h e.1 e.2
  · exact h

lemma filled_reset (order : List (G × K)) : Filled (t.reset order).replayer_.dones_ := by
  show Filled (order.foldl (fun t e => t.forceStopEpisode e.1 e.2) t).replayer_.dones_
  induction order generalizing t with
  | nil => exact h
  | cons e order ih => exact ih _ (filled_stop t h e)

end

section
variable (h : Faithful w)
include h

lemma Faithful.handles (handles : Nat → Option (G × K)) (crashed : Bool) :
    Faithful { w with handles, crashed } := ⟨h.mirrors, h.filled, h.logged⟩

lemma faithful_worldStep (e : G × K) (v : F) (isDone : Bool) : Faithful (w.step e v isDone) := by
  refine ⟨mirrors_step h.mirrors v isDone, filled_step w.trainer h.filled e v isDone, ?_⟩
  have hev := logged_event h.logged e (.step v isDone) (Subset.refl _) nofun
  rwa [← step_call h.mirrors v isDone] at hev

lemma faithful_stop (e : G × K) : Faithful (w.stop e) :=
  ⟨mirrors_stop h.mirrors, filled_stop w.trainer h.filled e, logged_stop h.logged e⟩

lemma faithful_release (handle : Nat) : Faithful (w.release handle) := by
  unfold World.release
  split
  · exact faithful_stop h _
  · exact h

lemma faithful_start {uid : G} (hnew : uid ∉ w.uids) (handles : Nat → Option (G × K)) :
    Faithful { w with
      trainer := w.trainer.startEpisode uid
      handles
      events := ((uid, default), .start) :: w.events
      uids := uid :: w.uids } := by
  have hnever : lifeOf w.events (uid, default) = .never := by
    by_contra hne
    exact hnew (h.logged.known _ hne)
  refine ⟨mirrors_start h.mirrors hnever, h.filled, ?_⟩
  have hev := logged_event h.logged (uid, default) .start (subset_cons_self uid w.uids)
    fun _ => mem_cons_self ..
  rwa [hnever] at hev

lemma faithful_step (o : Op G K F) (ho : (trainerSys G K F).ok w o) :
    Faithful ((trainerSys G K F).run w o) := by
  cases o with
  | startEpisode uid handle => exact faithful_start h ho.2.1 _
  | step handle v isDone =>
    show Faithful (match w.handles handle with
      | some e => w.step e v isDone
      | none => w)
    split
    · exact faithful_worldStep h _ v isDone
    · exact h
  | forceStopEpisode handle => exact faithful_release h handle
  | reset order =>
    refine ⟨mirrors_reset h.mirrors fun e he => ?_, filled_reset w.trainer h.filled order,
      logged_stops h.logged order⟩
    exact ho.2.symm.subset (mem_pairs.mpr he)
  | moveConstruct this other =>
    show Faithful (match w.handles other with
      | some e => _
      | none => _)
    split <;> exact h.handles _ _
  | moveAssign this other => exact (faithful_release h this).handles _ _
  | destroy handle => exact (faithful_release h handle).handles _ _

end

end faithful

/-! ## the statement -/

lemma selectRandomly_none {A : Type} {l : List A} {i : Nat} (h : selectRandomly l i = none) :
    l = [] := by
  by_contra hne
  have hlt := Nat.mod_lt i (length_pos_iff.mpr hne)
  exact absurd (List.getElem?_eq_none_iff.mp h) (Nat.not_le_of_lt hlt)

lemma sample_filled {b : ReplayBuffer G K F} (h : Filled b.dones_) (i j : Nat) :
    b.sample_ i j ≠ .error .noEpisodesInGame := by
  intro hs
  unfold ReplayBuffer.sample_ at hs
  split at hs
  · cases hs
  next game hgame =>
    split at hs
    next hnone =>
      have hfind : b.dones_.find game.1 = some game.2 :=
        (find_eq_some _ _ _).mpr (mem_of_getElem? hgame)
      exact h game.1 game.2 hfind (selectRandomly_none hnone)
    · cases hs

/-- a handle without an active episode -/
def Inactive (w : World G K F) (handle : Nat) : Prop :=
  ∀ e, w.handles handle = some e → w.trainer.isActive e.1 e.2 = false

lemma step_of_inactive {w : World G K F} {handle : Nat} (h : Inactive w handle) (v : F)
    (isDone : Bool) :
    ∃ events, (trainerSys G K F).run w (.step handle v isDone) = { w with events } := by
  show ∃ events, (match w.handles handle with
      | some e => w.step e v isDone
      | none => w) = { w with events }
  split
  next e he =>
    unfold World.step
    rw [Trainer.step_inactive (Bool.eq_false_iff.mp (h e he))]
    exact ⟨_, rfl⟩
  · exact ⟨w.events, rfl⟩

/-- **Episodes are kept as they were played**, and `stepEpisode` is called once for each episode
that becomes done. -/
theorem episodes_kept (os : List (Op G K F)) (hl : (trainerSys G K F).Legal {} os) :
    let w := (trainerSys G K F).out {} os
    let life := lifeOf w.events
    (∀ e : G × K, ¬(w.trainer.isActive e.1 e.2 = true ∧ w.trainer.replayer_.isDone e.1 e.2 = true)) ∧
    (∀ e : G × K, w.trainer.replayer_.isDone e.1 e.2 = true → ∃ frames, life e = .done frames ∧
      frames ≠ [] ∧ find₂ w.trainer.replayer_.storage_ e.1 e.2 = some frames) ∧
    (∀ e, life e = .stopped → find₂ w.trainer.replayer_.storage_ e.1 e.2 = none ∧
      w.trainer.replayer_.isDone e.1 e.2 = false ∧ w.trainer.isActive e.1 e.2 = false) ∧
    (∀ e, callsOf w.calls e = if (life e).isDone then 1 else 0) ∧
    (∀ c ∈ w.calls, life c.1 = .done c.2) ∧
    (∀ handle v isDone, Inactive w handle →
      ∃ events, (trainerSys G K F).run w (.step handle v isDone) = { w with events }) ∧
    (∀ g keys, w.trainer.replayer_.dones_.find g = some keys → keys.entries ≠ []) ∧
    ∀ i j, w.trainer.replayer_.sample_ i j ≠ .error .noEpisodesInGame := by
  intro w life
  have h : Faithful w :=
    (trainerSys G K F).invariant Faithful (fun _ o hw ho => faithful_step hw o ho) _ faithful_new os hl
  refine ⟨?_, ?_, ?_, h.logged.counted, h.logged.called, fun _ v d hi => step_of_inactive hi v d,
    h.filled, sample_filled h.filled⟩
  · rintro e ⟨hactive, hdone⟩
    obtain ⟨frames, he⟩ := h.mirrors.active_iff.mp hactive
    obtain ⟨frames', he'⟩ := h.mirrors.done_iff.mp hdone
    rw [he] at he'
    cases he'
  · intro e hdone
    obtain ⟨frames, he⟩ := h.mirrors.done_iff.mp hdone
    refine ⟨frames, he, h.logged.frames e frames he, ?_⟩
    rw [h.mirrors.stored, he]
    rfl
  · intro e he
    have hstopped : lifeOf w.events e = .stopped := he
    refine ⟨?_, ?_, ?_⟩
    · rw [h.mirrors.stored, hstopped]
      rfl
    · refine Bool.not_eq_true _ ▸ fun hdone => ?_
      obtain ⟨frames, hd⟩ := h.mirrors.done_iff.mp hdone
      rw [hstopped] at hd
      cases hd
    · refine Bool.not_eq_true _ ▸ fun hactive => ?_
      obtain ⟨frames, ha⟩ := h.mirrors.active_iff.mp hactive
      rw [hstopped] at ha
      cases ha

/-- two episodes are played, the second one is stopped by the move of another handle -/
def twoEpisodes : List (Op Nat Nat Nat) :=
  [.startEpisode 7 0, .startEpisode 8 1, .step 0 5 false, .step 1 6 false, .step 0 9 true,
    .moveAssign 1 0, .step 1 3 false, .destroy 1]

theorem episodes_kept_two :
    ((trainerSys Nat Nat Nat).Legal {} twoEpisodes ∧
      ((trainerSys Nat Nat Nat).out {} twoEpisodes).trainer.replayer_.isDone 7 0 = true) ∧
    (∃ frames, lifeOf ((trainerSys Nat Nat Nat).out {} twoEpisodes).events (7, 0) = .done frames ∧
      frames ≠ [] ∧
      find₂ ((trainerSys Nat Nat Nat).out {} twoEpisodes).trainer.replayer_.storage_ 7 0
        = some frames) ∧
    callsOf ((trainerSys Nat Nat Nat).out {} twoEpisodes).calls (8, 0) =
      if (lifeOf ((trainerSys Nat Nat Nat).out {} twoEpisodes).events (8, 0)).isDone then 1 else 0 := by
  refine ⟨by decide +kernel, ?_, ?_⟩
  · exact (episodes_kept twoEpisodes (by decide +kernel)).2.1 (7, 0) (by decide +kernel)
  · exact (episodes_kept twoEpisodes (by decide +kernel)).2.2.2.1 (8, 0)

end TorchCraft.Training
