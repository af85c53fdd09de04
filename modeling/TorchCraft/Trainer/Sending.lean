import TorchCraft.Trainer.Central

/-!
# The pieces of an episode

A central trainer that does not serve continuously sends the last `maxSz` frames of an episode when
it has `maxSz` frames, then every `sendInterval` frames, and when it is done.

* `View`  what the trainer holds for a game: whether its episode is active and done, the
  stored frames, the pieces sent;
* `view_framed`  what a frame does to it;
* `tracks_step`, `sent_run`  every call keeps what it says of the episode.
-/

set_option linter.unusedSectionVars false

namespace TorchCraft.Training
open Lib Lib.Nested
open List
open CentralTrainer ReplayBuffer

variable {G K F : Type} [LinearOrder G] [LinearOrder K] [Inhabited K] {S : Settings}
  {c : CentralTrainer G K F} {gameId g : G} {v : F} {isDone accepted : Bool} {randId : K}
  {w : CentralWorld G K F} {events : List (Event G K F)} {uids : List G} {e : G × K}

/-! ## what the trainer holds for a game -/

structure View (F : Type) where
  active : Option Unit
  done : Option Unit
  buffer : List F
  pieces : List (List F)

/-- the pieces of a game, in the order in which they were sent -/
def piecesOf (enqueued : List ((G × K) × List F)) (g : G) : List (List F) :=
  (enqueued.filter fun d => decide (d.1.1 = g)).map Prod.snd

def CentralTrainer.view (c : CentralTrainer G K F) (g : G) : View F where
  active := find₂ c.actives_ g default
  done := find₂ c.replayer_.dones_ g default
  buffer := (find₂ c.replayer_.storage_ g default).getD []
  pieces := piecesOf c.enqueued g

lemma piecesOf_concat (enqueued : List ((G × K) × List F)) (d : (G × K) × List F) (g : G) :
    piecesOf (enqueued ++ [d]) g = piecesOf enqueued g ++ if g = d.1.1 then [d.2] else [] := by
  unfold piecesOf
  rw [filter_append, map_append]
  by_cases h : g = d.1.1
  · rw [if_pos h, filter_cons_of_pos (by simpa using h.symm)]
    rfl
  · rw [if_neg h, filter_cons_of_neg (by simpa using Ne.symm h)]
    rfl

lemma find₂_appends {key : K} (hkey : key ≠ default) (gameId : G) (ep : List F)
    (b : ReplayBuffer G K F) (g : G) :
    find₂ (ep.foldl (fun b f => (b.append gameId key f false).2) b).storage_ g default
        = find₂ b.storage_ g default ∧
      (ep.foldl (fun b f => (b.append gameId key f false).2) b).dones_ = b.dones_ := by
  induction ep generalizing b with
  | nil => exact ⟨rfl, rfl⟩
  | cons f ep ih =>
    obtain ⟨hstorage, hdones⟩ := ih (b.append gameId key f false).2
    refine ⟨hstorage.trans ?_, hdones⟩
    show find₂ (put b.storage_ gameId key _) g default = _
    rw [find₂_put, if_neg fun h => hkey h.2.symm]

section view

lemma view_send {key : K} (ep : List F) :
    (c.send gameId key ep accepted).view g =
      { c.view g with pieces := (c.view g).pieces ++ if g = gameId then [ep] else [] } := by
  have hpieces := piecesOf_concat c.enqueued ((gameId, key), ep) g
  cases accepted with
  | true => simp [send, view, hpieces]
  | false =>
    by_cases hkey : key = default
    · simp [send, view, hpieces, not_not.mpr hkey]
    · obtain ⟨hstorage, hdones⟩ := find₂_appends hkey gameId ep c.replayer_ g
      simp [send, view, hpieces, hkey, hstorage, hdones]

lemma view_store (ep : List F) :
    (c.store gameId default ep).view g =
      if g = gameId then { c.view g with buffer := ep } else c.view g := by
  by_cases h : g = gameId <;> simp [store, view, find₂_put, h]

/-- the trainer after the frame was stored -/
def CentralTrainer.appended (c : CentralTrainer G K F) (uid : G) (v : F) (isDone : Bool) :
    CentralTrainer G K F :=
  { c with replayer_ := (c.replayer_.append uid default v isDone).2 }

/-- the trainer after the frame was sent, if it was due -/
def CentralTrainer.framed (S : Settings) (c : CentralTrainer G K F) (uid : G) (v : F)
    (isDone : Bool) (randId : K) (accepted : Bool) : CentralTrainer G K F :=
  ((c.appended uid v isDone).stepFrame S uid default ((c.view uid).buffer ++ [v]) randId accepted).1

lemma view_appended :
    (c.appended g v isDone).view g =
      { c.view g with
        buffer := (c.view g).buffer ++ [v]
        done := if isDone then some () else (c.view g).done } := by
  cases isDone with
  | true | false => simp [appended, view, append, find₂_put]

lemma view_appended_other (h : g ≠ gameId) : (c.appended gameId v isDone).view g = c.view g := by
  cases isDone with
  | true | false => simp [appended, view, append, find₂_put, h]

lemma view_ended (S : Settings) (c : CentralTrainer G K F) (g : G) :
    ((c.ended S g default).view g).active = none ∧
      ((c.ended S g default).view g).pieces = (c.view g).pieces := by
  unfold ended stepEpisode
  split <;> simp [view, find₂_drop]

lemma view_ended_other (S : Settings) (c : CentralTrainer G K F) (h : g ≠ gameId) :
    (c.ended S gameId default).view g = c.view g := by
  unfold ended stepEpisode
  split
  · simp [view, find₂_drop, h]
  · simp [CentralTrainer.view, ReplayBuffer.erase, find₂_drop, h]

variable (hS : S.serveContinuously = false)
include hS

lemma stepFrame_eq (k : K) (episode : List F) :
    (c.stepFrame S gameId k episode randId accepted) =
      if episode.length = S.maxSz ∨ episode.length = S.maxSz + S.sendInterval ∨
          c.replayer_.isDone gameId default = true then
        ((c.store gameId k (crop S.maxSz episode)).send gameId
          (if episode.length < S.maxSz then default else randId) (crop S.maxSz episode) accepted, none)
      else (c, none) := by
  unfold stepFrame
  rw [if_neg (by simp [hS])]
  simp only [cropped_eq]

lemma step_eq (hactive : c.isActive g default) :
    (c.step S g default v isDone randId accepted).1 =
      if isDone then (c.framed S g v isDone randId accepted).ended S g default
      else c.framed S g v isDone randId accepted := by
  have hframe : stepFrame S (c.appended g v isDone) g default
      (c.replayer_.append g default v isDone).1 randId accepted
        = (c.framed S g v isDone randId accepted, none) := by
    refine Prod.ext rfl ?_
    rw [stepFrame_eq hS]
    split <;> rfl
  unfold appended at hframe
  rw [step_of_active hactive, hframe]
  rfl

lemma view_framed (hdone : (c.view g).done = none) :
    let ep := (c.view g).buffer ++ [v]
    (c.framed S g v isDone randId accepted).view g =
      if ep.length = S.maxSz ∨ ep.length = S.maxSz + S.sendInterval ∨ isDone = true then
        { (c.appended g v isDone).view g with
          buffer := crop S.maxSz ep
          pieces := (c.view g).pieces ++ [crop S.maxSz ep] }
      else (c.appended g v isDone).view g := by
  intro ep
  have hisDone : ((c.appended g v isDone).replayer_.isDone g default) ↔ isDone := by
    have hview : find₂ (c.appended g v isDone).replayer_.dones_ g default
        = if isDone then some () else (c.view g).done :=
      congrArg View.done (view_appended (c := c) (g := g))
    unfold ReplayBuffer.isDone
    rw [hview, hdone]
    cases isDone with
    | true | false => simp
  unfold framed
  rw [stepFrame_eq hS]
  simp only [hisDone]
  split
  · rw [view_send, view_store, if_pos rfl, if_pos rfl]
    rfl
  · rfl

lemma view_framed_other (h : g ≠ gameId) :
    (c.framed S gameId v isDone randId accepted).view g = c.view g := by
  unfold framed
  rw [stepFrame_eq hS]
  split
  · rw [view_send, view_store, if_neg h, if_neg h, append_nil]
    exact view_appended_other h
  · exact view_appended_other h

lemma view_step_other (h : g ≠ gameId) :
    (c.step S gameId default v isDone randId accepted).1.view g = c.view g := by
  by_cases hactive : c.isActive gameId default
  · rw [step_eq hS hactive]
    cases isDone with
    | true => exact (view_ended_other S _ h).trans (view_framed_other hS h)
    | false => exact view_framed_other hS h
  · rw [CentralTrainer.step_of_inactive hactive]

end view

/-! ## episodes and their pieces -/

/-- what the trainer holds for an episode in this stage -/
def Tracks (S : Settings) : Stage F → View F → Prop
  | .never, v => v = ⟨none, none, [], []⟩
  | .active frames, v => v.active = some () ∧ v.done = none ∧
      Strided S.maxSz S.sendInterval frames v.buffer v.pieces
  | .done frames, v => v.active = none ∧ Tiled S.maxSz S.sendInterval frames v.pieces
  | .stopped, v => v.active = none

section tracks
variable {S : Settings} {c c' : CentralTrainer G K F} {g : G} {v : View F} {x : Stage F} {a : Act F}
  {frames : List F} {f : F} {isDone : Bool} {randId : K} {accepted : Bool}
  {events : List (Event G K F)} {order : List (G × K)}

lemma Tracks.inactive (h : Tracks S x v) (hx : ¬∃ frames, x = .active frames) : v.active = none := by
  cases x with
  | never =>
    obtain rfl : v = _ := h
    rfl
  | active frames => exact absurd ⟨frames, rfl⟩ hx
  | done frames => exact h.1
  | stopped => exact h

lemma Tracks.isActive (h : Tracks S x (c.view g)) :
    c.isActive g default ↔ ∃ frames, x = .active frames := by
  constructor
  · intro hactive
    by_contra hx
    exact absurd (h.inactive hx) (Option.isSome_iff_ne_none.mp hactive)
  · rintro ⟨frames, rfl⟩
    exact congrArg Option.isSome h.1

lemma Tracks.still (h : Tracks S x (c.view g)) (hactive : ¬c.isActive g default)
    (ha : a ≠ .start) : x.next a = x :=
  Stage.next_inactive (fun hx => hactive (h.isActive.mpr hx)) ha

lemma tracks_start (hM : 0 < S.maxSz) (h : Tracks S .never v) :
    Tracks S (.active []) { v with active := some () } := by
  obtain rfl : v = _ := h
  exact ⟨rfl, rfl, .before hM⟩

/-- the view of every game follows the stage of its episode -/
def TracksAll (S : Settings) (c : CentralTrainer G K F) (events : List (Event G K F)) : Prop :=
  ∀ g, Tracks S (lifeOf events (g, default)) (c.view g)

lemma TracksAll.event (h : TracksAll S c events) {e : G × K}
    (hself : ∀ g, (g, default) = e → Tracks S ((lifeOf events e).next a) (c'.view g))
    (hother : ∀ g, (g, default) ≠ e → c'.view g = c.view g) : TracksAll S c' ((e, a) :: events) := by
  intro g
  by_cases he : (g, default) = e
  · rw [he, lifeOf_cons_self]
    exact hself g he
  · rw [lifeOf_cons_of_ne he, hother g he]
    exact h g

/-- the trainer after the base class has stopped an episode -/
def CentralTrainer.stopped (c : CentralTrainer G K F) (e : G × K) : CentralTrainer G K F :=
  { c with toTrainer := c.toTrainer.forceStopEpisode e.1 e.2 }

lemma view_stopped_other {e : G × K} (h : (g, default) ≠ e) : (c.stopped e).view g = c.view g := by
  have hne : ¬(g = e.1 ∧ default = e.2) := fun hg => h (Prod.ext hg.1 hg.2)
  unfold stopped Trainer.forceStopEpisode
  split
  · simp [CentralTrainer.view, ReplayBuffer.erase, find₂_drop, hne]
  · rfl

section
variable (h : TracksAll S c events)
include h

lemma tracks_stopped (e : G × K) : TracksAll S (c.stopped e) ((e, .stop) :: events) := by
  refine h.event (fun g he => ?_) fun g => view_stopped_other
  subst he
  have hg := h g
  by_cases hactive : c.isActive g default
  · obtain ⟨frames, hlife⟩ := hg.isActive.mp hactive
    rw [hlife]
    show find₂ (c.toTrainer.forceStopEpisode g default).actives_ g default = none
    rw [actives_stop (e := (g, default)) hactive, find₂_drop, if_pos ⟨rfl, rfl⟩]
  · have hstop : c.stopped (g, default) = c := by
      unfold stopped
      rw [stop_of_inactive (e := (g, default)) hactive]
    rw [hg.still hactive (fun ha => by cases ha), hstop]
    exact hg

lemma tracks_stops (order : List (G × K)) :
    TracksAll S { c with toTrainer := order.foldl (fun t e => t.forceStopEpisode e.1 e.2) c.toTrainer }
      ((order.map (·, Act.stop)).reverse ++ events) := by
  induction order generalizing c events with
  | nil => exact h
  | cons e order ih =>
    have hrest : TracksAll S
        { c.stopped e with
          toTrainer := order.foldl (fun t e => t.forceStopEpisode e.1 e.2) (c.stopped e).toTrainer }
        ((order.map (·, Act.stop)).reverse ++ (e, .stop) :: events) :=
      ih (tracks_stopped h e)
    rw [map_cons, reverse_cons, append_assoc]
    exact hrest

/-- after the loop no episode is active, and clearing the map changes nothing -/
lemma tracks_reset (horder : ∀ e, c.isActive e.1 e.2 → e ∈ order) :
    TracksAll S { c with toTrainer := c.toTrainer.reset order }
      ((order.map (·, Act.stop)).reverse ++ events) := by
  intro g
  have hg := tracks_stops h order g
  have hnone := hg.inactive (lifeOf_stops events (by
    by_cases hactive : c.isActive g default
    · exact .inl (horder (g, default) hactive)
    · exact .inr fun hx => hactive ((h g).isActive.mpr hx)))
  have hview : view { c with toTrainer := c.toTrainer.reset order } g
      = view
        { c with toTrainer := order.foldl (fun t e => t.forceStopEpisode e.1 e.2) c.toTrainer } g := by
    unfold view at hnone ⊢
    dsimp only at hnone ⊢
    rw [hnone]
    rfl
  rw [hview]
  exact hg

end

variable (hS : S.serveContinuously = false) (hs : 0 < S.sendInterval)
include hS hs

lemma tracks_frame (h : Tracks S (.active frames) (c.view g)) :
    Tracks S (.active (frames ++ [f])) ((c.step S g default f false randId accepted).1.view g) := by
  obtain ⟨hactive, hdone, hstrided⟩ := id h
  have hlen : ((c.view g).buffer ++ [f]).length = (c.view g).buffer.length + 1 :=
    length_append
  rw [step_eq hS (h.isActive.mpr ⟨frames, rfl⟩), if_neg Bool.false_ne_true, view_framed hS hdone,
    view_appended, hlen]
  split
  next hdue =>
    refine ⟨hactive, hdone, hstrided.send f hs ?_⟩
    rcases hdue with hdue | hdue | hdue
    · exact .inl hdue
    · exact .inr hdue
    · cases hdue
  next hnot =>
    exact ⟨hactive, hdone, hstrided.keep f (fun h => hnot (.inl h)) fun h => hnot (.inr (.inl h))⟩

variable (hsM : S.sendInterval ≤ S.maxSz)
include hsM

lemma tracks_last (h : Tracks S (.active frames) (c.view g)) :
    Tracks S (.done (frames ++ [f])) ((c.step S g default f true randId accepted).1.view g) := by
  obtain ⟨-, hdone, hstrided⟩ := id h
  rw [step_eq hS (h.isActive.mpr ⟨frames, rfl⟩), if_pos rfl]
  obtain ⟨hactive, hpieces⟩ := view_ended S (c.framed S g f true randId accepted) g
  refine ⟨hactive, ?_⟩
  rw [hpieces, view_framed hS hdone, if_pos (.inr (.inr rfl))]
  exact hstrided.tiled f hs hsM

lemma tracks_step (h : TracksAll S c events) (g : G) :
    TracksAll S (c.step S g default f isDone randId accepted).1
      (((g, default), .step f isDone) :: events) := by
  refine h.event (fun g' hg' => ?_) fun g' hg' => view_step_other hS fun heq => hg' (by rw [heq])
  obtain rfl : g' = g := congrArg Prod.fst hg'
  have hg := h g'
  by_cases hactive : c.isActive g' default
  · obtain ⟨frames, hlife⟩ := hg.isActive.mp hactive
    rw [hlife] at hg ⊢
    cases isDone with
    | true => exact tracks_last hS hs hsM hg
    | false => exact tracks_frame hS hs hg
  · rw [CentralTrainer.step_of_inactive hactive,
      hg.still hactive fun ha => by cases ha]
    exact hg

end tracks

/-! ## runs -/

structure Sent (S : Settings) (w : CentralWorld G K F) : Prop where
  tracks : TracksAll S w.trainer w.events
  handles : ∀ h e, w.handles h = some e → e.2 = default
  known : ∀ g, lifeOf w.events (g, default) ≠ .never → g ∈ w.uids

section runs

lemma sent_new : Sent S ({} : CentralWorld G K F) where
  tracks _ := rfl
  handles h e he := by cases he
  known g h := absurd rfl h

lemma known_event {a : Act F}
    (h : ∀ g, lifeOf events (g, default) ≠ .never → g ∈ uids) (ha : a ≠ .start) (g : G)
    (hg : lifeOf ((e, a) :: events) (g, default) ≠ .never) : g ∈ uids := by
  refine h g fun hnever => hg ?_
  by_cases he : (g, default) = e
  · rw [← he, lifeOf_cons_self, hnever]
    exact Stage.next_inactive (fun hx => by obtain ⟨_, hx⟩ := hx; cases hx) ha
  · rw [lifeOf_cons_of_ne he, hnever]

lemma known_stops (h : ∀ g, lifeOf events (g, default) ≠ .never → g ∈ uids)
    (order : List (G × K)) (g : G)
    (hg : lifeOf ((order.map (·, Act.stop)).reverse ++ events) (g, default) ≠ .never) : g ∈ uids := by
  induction order generalizing events with
  | nil => exact h g hg
  | cons e order ih =>
    rw [map_cons, reverse_cons, append_assoc] at hg
    exact ih (known_event h fun ha => by cases ha) hg

lemma default_of_moved (h : Sent S w) {this other i : Nat}
    (he : Function.update (Function.update w.handles this (w.handles other)) other none i = some e) :
    e.2 = default := by
  obtain ⟨-, ⟨-, he⟩ | ⟨-, he⟩⟩ := moved_eq_some he
  · exact h.handles other e he
  · exact h.handles i e he

lemma Sent.withHandles (h : Sent S w) {handles : Nat → Option (G × K)}
    (hh : ∀ i e, handles i = some e → e.2 = default) (crashed : Bool) :
    Sent S { w with handles, crashed } := ⟨h.tracks, hh, h.known⟩

variable (hS : S.serveContinuously = false)
include hS

lemma sent_release (h : Sent S w) (handle : Nat) : Sent S (w.release S handle).1 := by
  unfold CentralWorld.release
  split
  next e he =>
    have hstop : w.trainer.forceStopEpisode S e.1 e.2 = (w.trainer.stopped e, none) :=
      if_neg (by simp [hS])
    unfold CentralWorld.stop
    rw [hstop]
    exact ⟨tracks_stopped h.tracks e, h.handles, known_event h.known fun ha => by cases ha⟩
  · exact h

lemma sent_start (hM : 0 < S.maxSz) (h : Sent S w) {uid : G} (hnew : uid ∉ w.uids) (handle : Nat) :
    Sent S (w.start S uid handle) := by
  have hstart : w.trainer.startEpisode S uid =
      ({ w.trainer with toTrainer := w.trainer.toTrainer.startEpisode uid }, none) :=
    if_neg (by simp [hS])
  have hview (g : G) :
      view { w.trainer with toTrainer := w.trainer.toTrainer.startEpisode uid } g =
        if g = uid then { w.trainer.view g with active := some () } else w.trainer.view g := by
    by_cases h : g = uid <;> simp [view, Trainer.startEpisode, find₂_put, h]
  have hnever : lifeOf w.events (uid, default) = .never := by
    by_contra hne
    exact hnew (h.known uid hne)
  unfold CentralWorld.start
  rw [hstart]
  refine ⟨h.tracks.event (fun g hg => ?_) fun g hg => ?_, fun h' e he => ?_, fun g hg => ?_⟩
  · obtain rfl : g = uid := congrArg Prod.fst hg
    have huid := h.tracks g
    rw [hnever] at huid ⊢
    rw [hview, if_pos rfl]
    exact tracks_start hM huid
  · rw [hview, if_neg fun heq => hg (by rw [heq])]
  · rcases opened_eq_some he with ⟨-, rfl⟩ | ⟨-, he⟩
    · rfl
    · exact h.handles h' e he
  · by_cases hg' : (g, default) = (uid, (default : K))
    · exact mem_cons.mpr (.inl (congrArg Prod.fst hg'))
    · rw [lifeOf_cons_of_ne hg'] at hg
      exact mem_cons_of_mem _ (h.known g hg)

variable (hs : 0 < S.sendInterval) (hsM : S.sendInterval ≤ S.maxSz)
include hs hsM

lemma sent_frame (h : Sent S w) (he : e.2 = default) (f : F) (isDone : Bool)
    (randId : K) (accepted : Bool) : Sent S (w.step S e f isDone randId accepted) := by
  obtain ⟨uid, k⟩ := e
  obtain rfl : k = default := he
  exact ⟨tracks_step hS hs hsM h.tracks uid, h.handles, known_event h.known fun ha => by cases ha⟩

lemma sent_run (h : Sent S w) (o : CentralOp G K F) (ho : (centralSys G K F S).ok w o) :
    Sent S ((centralSys G K F S).run w o) := by
  cases o with
  | startEpisode uid handle => exact sent_start hS (by omega) h ho.2.1 handle
  | step handle f isDone randId accepted =>
    dsimp only [centralSys, CentralOp.run]
    split
    next e he =>
      exact sent_frame hS hs hsM h (h.handles handle e he) f isDone randId accepted
    · exact h
  | forceStopEpisode handle => exact sent_release hS h handle
  | reset order =>
    exact ⟨tracks_reset h.tracks fun e he => ho.2.symm.subset (mem_pairs.mpr he), h.handles,
      known_stops h.known order⟩
  | moveConstruct this other =>
    dsimp only [centralSys, CentralOp.run]
    split
    next e he =>
      refine h.withHandles (fun i e' he' => ?_) w.crashed
      rw [← he] at he'
      exact default_of_moved h he'
    · exact h.withHandles h.handles true
  | moveAssign this other =>
    have hrel := sent_release hS h this
    show Sent S (if (w.release S this).2.isSome then (w.release S this).1 else _)
    split
    · exact hrel
    · exact hrel.withHandles (fun i e he => default_of_moved h he) _
  | destroy handle =>
    have hrel := sent_release hS h handle
    exact hrel.withHandles (fun i e he => h.handles i e (dropped_eq_some he).2) _

end runs

/-- **The pieces cover the episode.**  They are runs of consecutive frames (at `starts`), every
frame is in one of them, and the last one alone ends with the last frame. -/
theorem pieces_cover (S : Settings) (hS : S.serveContinuously = false) (hs : 1 ≤ S.sendInterval)
    (hsM : S.sendInterval ≤ S.maxSz) (os : List (CentralOp G K F))
    (hl : (centralSys G K F S).Legal {} os) :
    let w := (centralSys G K F S).out {} os
    ∀ (g : G) (frames : List F), lifeOf w.events (g, default) = .done frames →
      let n := frames.length
      let size := min S.maxSz n
      ∃ starts : List Nat,
        piecesOf w.trainer.enqueued g = starts.map (fun i => (frames.drop i).take size) ∧
        (∀ i ∈ starts, i + size ≤ n) ∧
        (∀ j < n, ∃ i ∈ starts, i ≤ j ∧ j < i + size) ∧
        (∃ init, starts = init ++ [n - size] ∧ ∀ i ∈ init, i + size < n) ∧
        (piecesOf w.trainer.enqueued g).length
          = if n ≤ S.maxSz then 1 else 1 + (n - S.maxSz) ⌈/⌉ S.sendInterval := by
  intro w g frames hdone
  have h : Sent S w := (centralSys G K F S).invariant (Sent S)
    (fun _ o hw ho => sent_run hS hs hsM hw o ho) _ sent_new os hl
  have htracks := h.tracks g
  rw [hdone] at htracks
  exact htracks.2

/-- an episode of six frames, in pieces of three every two frames; one piece is not taken -/
def sixFrames : List (CentralOp Nat Nat Nat) :=
  [.startEpisode 7 0, .startEpisode 8 1, .step 0 10 false 1 true, .step 1 50 false 1 true,
    .step 0 11 false 1 true, .step 0 12 false 2 true, .moveConstruct 2 0, .step 2 13 false 3 true,
    .step 2 14 false 4 false, .step 1 51 true 5 true, .step 2 15 true 6 true, .destroy 2]

theorem pieces_cover_six :
    (centralSys Nat Nat Nat { maxSz := 3, sendInterval := 2 }).Legal {} sixFrames ∧
    lifeOf ((centralSys Nat Nat Nat { maxSz := 3, sendInterval := 2 }).out {} sixFrames).events (7, 0)
      = .done [10, 11, 12, 13, 14, 15] ∧
    piecesOf ((centralSys Nat Nat Nat { maxSz := 3, sendInterval := 2 }).out {}
      sixFrames).trainer.enqueued 7 = [[10, 11, 12], [12, 13, 14], [13, 14, 15]] ∧
    (piecesOf ((centralSys Nat Nat Nat { maxSz := 3, sendInterval := 2 }).out {}
      sixFrames).trainer.enqueued 7).length = 1 + (6 - 3) ⌈/⌉ 2 := by
  refine ⟨by decide +kernel, by decide +kernel, by decide +kernel, ?_⟩
  obtain ⟨starts, -, -, -, -, hcount⟩ :=
    pieces_cover { maxSz := 3, sendInterval := 2 } rfl (by decide) (by decide) sixFrames
      (by decide +kernel) 7 [10, 11, 12, 13, 14, 15] (by decide +kernel)
  exact hcount

end TorchCraft.Training
