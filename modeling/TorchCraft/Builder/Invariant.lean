import TorchCraft.Builder.Model
import TorchCraft.Lib.Effects

/-!
# What the code of a controller keeps

* `Heap.Ages`  task objects get older: finished tasks stay as they are.  Updates, cancellations
  and code of other kinds do no more than this to the tasks of controllers;
* `Inv`  unfinished tasks are on the board, ids of tasks are never given twice, and the id
  that a controller remembers is the id of one of its own tasks;
* `Acts this c`  what the code of the controller `c` may do: it keeps `Inv` and is quiet for all
  other controllers;
* `Added.inv`, `leads_grabUnit`  new tasks;
* `leads_stepController`  the step of a controller.
-/

set_option linter.unusedSectionVars false

namespace TorchCraft.Builder
open Lib Board Function IsTrans Option
open TorchCraft.Lib.Effects (Leads map_ok bind_ok foldl_related)
open List
open Function (update_of_ne update_self)
open State

variable {U B M : Type} [DecidableEq U] [DecidableEq M] {this : M} {c d : TaskPtr}
  {s s' s'' : State U B M}

lemma ongoing_of_unfinished {t : TaskStatus} (hf : t.finished = false) (hu : t ≠ .unknown) :
    t = .ongoing := by
  cases t with
  | unknown => exact absurd rfl hu
  | ongoing => rfl
  | success | cancelled | failure => nomatch hf

/-! ## tasks get older -/

/-- what the first test of a step reads of a controller -/
def Ctrl.verdict (k : Ctrl U B) : UpcId × Bool × Bool := (k.upcId, k.succeeded, k.failed)

lemma Ctrl.verdict_foldl_release (id : UpcId) (us : List U) (k : Ctrl U B) :
    (us.foldl (release id) k).verdict = k.verdict := by
  induction us generalizing k with
  | nil => rfl
  | cons u us ih =>
    rw [foldl_cons, ih]
    unfold release
    split <;> rfl

namespace Heap

structure Ages (h h' : Heap U B M) : Prop where
  controller : h'.controller = h.controller
  serial : h'.serial = h.serial
  upcs : h'.upcs = h.upcs
  posts : h'.posts = h.posts
  settled : ∀ p c, h.controller p = some c → (h.tasks p).status.finished = true →
    (h'.tasks p).status = (h.tasks p).status
  known : ∀ p c, h.controller p = some c → (h.tasks p).status ≠ .unknown →
    (h'.tasks p).status ≠ .unknown
  verdict : ∀ c, (h'.ctrls c).verdict = (h.ctrls c).verdict

variable {h h' h'' : Heap U B M}

lemma Ages.refl (h : Heap U B M) : Ages h h :=
  ⟨rfl, rfl, rfl, rfl, fun _ _ _ _ => rfl, fun _ _ _ hu => hu, fun _ => rfl⟩

lemma Ages.trans (h₁ : Ages h h') (h₂ : Ages h' h'') : Ages h h'' := by
  have hc : ∀ {p c}, h.controller p = some c → h'.controller p = some c := fun {p c} hp => by
    rw [h₁.controller, hp]
  refine ⟨h₂.controller.trans h₁.controller, h₂.serial.trans h₁.serial, h₂.upcs.trans h₁.upcs,
    h₂.posts.trans h₁.posts, ?_, ?_, fun c => (h₂.verdict c).trans (h₁.verdict c)⟩
  · intro p c hp hf
    have hs := h₁.settled p c hp hf
    exact (h₂.settled p c (hc hp) (by rw [hs]; exact hf)).trans hs
  · exact fun p c hp hu => h₂.known p c (hc hp) (h₁.known p c hp hu)

instance : Std.Refl (Ages (U := U) (B := B) (M := M)) := ⟨Ages.refl⟩

instance : IsTrans (Heap U B M) Ages := ⟨fun _ _ _ => Ages.trans⟩

lemma Ages.finished (ha : Ages h h') {p c : TaskPtr} (hp : h.controller p = some c)
    (hf : (h.tasks p).status.finished) : (h'.tasks p).status.finished := by
  rw [ha.settled p c hp hf]
  exact hf

lemma ages_set {p c : TaskPtr} {t : Task U} {k : Ctrl U B} (hs : (h.tasks p).status = .ongoing)
    (ht : t.status ≠ .unknown) (hk : k.verdict = (h.ctrls c).verdict) :
    Ages h { h with
      tasks := update h.tasks p t
      ctrls := update h.ctrls c k } := by
  refine ⟨rfl, rfl, rfl, rfl, ?_, ?_, ?_⟩
  · intro q d _ hf
    have hq : q ≠ p := fun e => by
      rw [e, hs] at hf
      nomatch hf
    show (update h.tasks p t q).status = _
    rw [update_of_ne hq]
  · intro q d _ hu
    show (update h.tasks p t q).status ≠ _
    rw [update_apply]
    split
    · exact ht
    · exact hu
  · exact Loops.unseen_update Ctrl.verdict hk

lemma ages_updateTask (b : Board TaskPtr M U) (h : Heap U B M) (p c : TaskPtr) :
    Ages h (h.updateTask b p c) := by
  unfold updateTask
  by_cases hs : (h.tasks p).status = .ongoing
  · rw [if_neg (not_not.mpr hs)]
    refine ages_set hs ?_ (Ctrl.verdict_foldl_release ..)
    split
    · exact nofun
    · split <;> exact nofun
  · rw [if_pos hs]
    exact Ages.refl h

lemma ages_cancel (h : Heap U B M) (p : TaskPtr) : Ages h (h.cancel p) := by
  unfold cancel
  cases h.controller p with
  | none => exact Ages.refl h
  | some c =>
    dsimp only
    by_cases hs : (h.tasks p).status = .ongoing
    · rw [if_neg (not_not.mpr hs)]
      exact ages_set hs nofun (Ctrl.verdict_foldl_release ..)
    · rw [if_pos hs]
      exact Ages.refl h

lemma ages_writeOthers (h : Heap U B M) (t : TaskPtr → Task U) : Ages h (h.writeOthers t) := by
  have hsame : ∀ p c, h.controller p = some c → (h.writeOthers t).tasks p = h.tasks p := by
    intro p c hp
    show (if (h.controller p).isSome then h.tasks p else t p) = _
    rw [hp, isSome_some, if_pos rfl]
  exact ⟨rfl, rfl, rfl, rfl, fun p c hp _ => congrArg Task.status (hsame p c hp),
    fun p c hp hu => (congrArg Task.status (hsame p c hp)).trans_ne hu, fun _ => rfl⟩

lemma finished_cancel {p c : TaskPtr} (hp : h.controller p = some c)
    (hu : (h.tasks p).status ≠ .unknown) : ((h.cancel p).tasks p).status.finished := by
  cases hf : (h.tasks p).status.finished with
  | true => exact (ages_cancel h p).finished hp hf
  | false =>
    unfold cancel
    rw [hp]
    dsimp only
    rw [if_neg (not_not.mpr (ongoing_of_unfinished hf hu))]
    show (update h.tasks p ⟨.cancelled, []⟩ p).status.finished
    rw [update_self]
    rfl

end Heap

/-! ## the invariant -/

structure Inv (this : M) (s : State U B M) : Prop where
  index : Exact TaskPtr.upcId s.board
  allocated : ∀ p c, s.controller p = some c → p.serial < s.serial
  known : ∀ p c, s.controller p = some c → (s.tasks p).status ≠ .unknown
  live : ∀ p c, s.controller p = some c → s.finished p = false →
    ∃ n ∈ s.board.tasks, n.data.task = p ∧ n.data.owner = this
  pending : ∀ id ∈ s.board.tasksToBeRemoved, ∃ n ∈ s.board.tasks, n.data.task.upcId = id ∧
    ∀ c, s.controller n.data.task = some c → s.finished n.data.task = true
  distinct : ∀ p q c d, s.controller p = some c → s.controller q = some d →
    p.upcId = q.upcId → p = q
  given : ∀ p c, s.controller p = some c →
    s.upcs.Given p.upcId ∧ s.upcs.upcs.find p.upcId = none
  posted : s.upcs.Posted
  accepts : ∀ u, (s.upcs.filter (.grab u) this).isSome = true
  made : ∀ p c, s.controller p = some c → s.controller c = some c
  remembered : ∀ c, s.controller c = some c →
    ∃ q, s.controller q = some c ∧ q.upcId = (s.ctrls c).upcId

/-- the calls that the step of a controller made so far -/
def State.postsOf (s : State U B M) (c : TaskPtr) : List (Post U B) :=
  s.posts.filter (fun x => decide (x.controller = c))

/-- the tasks of `c` stay as they are, but that unfinished ones may finish; `c` posts nothing -/
structure Still (c : TaskPtr) (s s' : State U B M) : Prop where
  tasks : ∀ p, s'.controller p = some c ↔ s.controller p = some c
  settled : ∀ p, s.controller p = some c → s.finished p = true →
    (s'.tasks p).status = (s.tasks p).status
  posts : s'.postsOf c = s.postsOf c

/-- moreover, what decides about the steps of `c` stays -/
structure Quiet (c : TaskPtr) (s s' : State U B M) : Prop extends Still c s s' where
  verdict : (s'.ctrls c).verdict = (s.ctrls c).verdict
  nodes : ∀ n, s.controller n.data.task = some c → (n ∈ s'.board.tasks ↔ n ∈ s.board.tasks)

lemma Still.refl (c : TaskPtr) (s : State U B M) : Still c s s :=
  ⟨fun _ => Iff.rfl, fun _ _ _ => rfl, rfl⟩

lemma Still.finished (h : Still c s s') {p : TaskPtr} (hp : s.controller p = some c)
    (hf : s.finished p) : s'.finished p := by
  unfold State.finished at hf ⊢
  rw [h.settled p hp hf]
  exact hf

lemma Still.trans (h₁ : Still c s s') (h₂ : Still c s' s'') : Still c s s'' := by
  refine ⟨fun p => (h₂.tasks p).trans (h₁.tasks p), ?_, h₂.posts.trans h₁.posts⟩
  intro p hp hf
  exact (h₂.settled p ((h₁.tasks p).mpr hp) (h₁.finished hp hf)).trans (h₁.settled p hp hf)

lemma Quiet.refl (c : TaskPtr) (s : State U B M) : Quiet c s s :=
  ⟨Still.refl c s, rfl, fun _ _ => Iff.rfl⟩

lemma Quiet.trans (h₁ : Quiet c s s') (h₂ : Quiet c s' s'') : Quiet c s s'' :=
  ⟨h₁.toStill.trans h₂.toStill, h₂.verdict.trans h₁.verdict,
    fun n hn => (h₂.nodes n ((h₁.tasks _).mpr hn)).trans (h₁.nodes n hn)⟩

lemma still_of_ages (h : s.toHeap.Ages s'.toHeap) (c : TaskPtr) : Still c s s' :=
  ⟨fun p => by rw [h.controller], fun p hp hf => h.settled p c hp hf, by
    unfold postsOf
    rw [h.posts]⟩

lemma quiet_of_ages (h : s.toHeap.Ages s'.toHeap) (hb : s'.board = s.board) (c : TaskPtr) :
    Quiet c s s' :=
  ⟨still_of_ages h c, h.verdict c, fun n _ => by rw [hb]⟩

lemma inv_of_settled (hI : Inv this s) (hc : s'.controller = s.controller)
    (hserial : s.serial ≤ s'.serial) (hu : s'.upcs = s.upcs)
    (hid : ∀ c, (s'.ctrls c).upcId = (s.ctrls c).upcId)
    (hfin : ∀ p c, s.controller p = some c → s.finished p → s'.finished p)
    (hknown : ∀ p c, s.controller p = some c → (s'.tasks p).status ≠ .unknown)
    (hindex : Exact TaskPtr.upcId s'.board) (hnodes : ∀ n ∈ s.board.tasks, n ∈ s'.board.tasks)
    (hpending : s'.board.tasksToBeRemoved = s.board.tasksToBeRemoved) : Inv this s' := by
  refine ⟨hindex, ?_, ?_, ?_, ?_, ?_, ?_, ?_, ?_, ?_, ?_⟩
  · intro p c hp
    rw [hc] at hp
    exact lt_of_lt_of_le (hI.allocated p c hp) hserial
  · rw [hc]
    exact hknown
  · intro p c hp hf
    rw [hc] at hp
    have hf' : s.finished p = false := by
      by_contra hne
      rw [hfin p c hp (Bool.eq_true_of_not_eq_false hne)] at hf
      nomatch hf
    obtain ⟨n, hn, hnp⟩ := hI.live p c hp hf'
    exact ⟨n, hnodes n hn, hnp⟩
  · intro id hi
    rw [hpending] at hi
    obtain ⟨n, hn, hni, hf⟩ := hI.pending id hi
    refine ⟨n, hnodes n hn, hni, fun c hp => ?_⟩
    rw [hc] at hp
    exact hfin _ c hp (hf c hp)
  · rw [hc]
    exact hI.distinct
  · rw [hc, hu]
    exact hI.given
  · rw [hu]
    exact hI.posted
  · rw [hu]
    exact hI.accepts
  · rw [hc]
    exact hI.made
  · intro c hcc
    rw [hc] at hcc ⊢
    obtain ⟨q, hq, hqid⟩ := hI.remembered c hcc
    exact ⟨q, hq, hqid.trans (hid c).symm⟩

lemma inv_of_ages (hI : Inv this s) (h : s.toHeap.Ages s'.toHeap) (hb : s'.board = s.board) :
    Inv this s' := by
  refine inv_of_settled hI h.controller h.serial.ge h.upcs
    (fun c => congrArg Prod.fst (h.verdict c)) (fun p c hp => h.finished hp)
    (fun p c hp => h.known p c hp (hI.known p c hp)) ?_ ?_ ?_
  · rw [hb]
    exact hI.index
  · rw [hb]
    exact fun n hn => hn
  · rw [hb]

lemma Inv.controllerTask (hI : Inv this s) (hc : s.controller c = some c) {q : TaskPtr}
    (h : s.controllerTask (s.ctrls c).upcId = some (q, d)) :
    d = c ∧ s.controller q = some c ∧ ∃ n ∈ s.board.tasks, n.data.task = q ∧
      q.upcId = (s.ctrls c).upcId := by
  obtain ⟨p, hp, hm⟩ := bind_eq_some_iff.mp h
  obtain ⟨e, he, hpe⟩ := map_eq_some_iff.mp hm
  obtain ⟨rfl, rfl⟩ := Prod.mk.inj hpe
  obtain ⟨n, hn, hnp, hid⟩ := hI.index.taskForId_eq_some.mp hp
  obtain ⟨q, hq, hqid⟩ := hI.remembered c hc
  have hpq : p = q := hI.distinct p q e c he hq (hid.trans hqid.symm)
  rw [← hpq] at hq
  exact ⟨some.inj (he.symm.trans hq), hq, n, hn, hnp, hid⟩

/-! ## the code of a controller -/

lemma setCtrl_self (s : State U B M) (k : Ctrl U B) : (s.setCtrl c k).ctrls c = k :=
  update_self ..

lemma setCtrl_of_ne (hd : d ≠ c) (s : State U B M) (k : Ctrl U B) :
    (s.setCtrl c k).ctrls d = s.ctrls d :=
  update_of_ne hd ..

lemma inv_setCtrl (hI : Inv this s) {k : Ctrl U B}
    (hk : s.controller c = some c → k.upcId = (s.ctrls c).upcId) : Inv this (s.setCtrl c k) := by
  refine { hI with remembered := ?_ }
  intro e he
  obtain ⟨q, hq, hid⟩ := hI.remembered e he
  refine ⟨q, hq, hid.trans ?_⟩
  by_cases hec : e = c
  · subst hec
    rw [setCtrl_self, hk he]
  · rw [setCtrl_of_ne hec]

lemma quiet_setCtrl (hd : d ≠ c) (s : State U B M) (k : Ctrl U B) : Quiet d s (s.setCtrl c k) :=
  ⟨⟨fun _ => Iff.rfl, fun _ _ _ => rfl, rfl⟩, by rw [setCtrl_of_ne hd], fun _ _ => Iff.rfl⟩

def Acts (this : M) (c : TaskPtr) (s s' : State U B M) : Prop :=
  Inv this s → s.controller c = some c →
    Inv this s' ∧ s'.controller c = some c ∧ ∀ d, d ≠ c → Quiet d s s'

lemma acts_refl (s : State U B M) : Acts this c s s :=
  fun hI hc => ⟨hI, hc, fun d _ => Quiet.refl d s⟩

instance : Std.Refl (Acts (U := U) (B := B) this c) := ⟨acts_refl⟩

instance : IsTrans (State U B M) (Acts this c) := by
  refine ⟨fun s s' s'' h h' hI hc => ?_⟩
  obtain ⟨hI', hc', hq⟩ := h hI hc
  obtain ⟨hI'', hc'', hq'⟩ := h' hI' hc'
  exact ⟨hI'', hc'', fun d hd => (hq d hd).trans (hq' d hd)⟩

lemma acts_setCtrl {k : Ctrl U B} (hk : k.upcId = (s.ctrls c).upcId) :
    Acts this c s (s.setCtrl c k) :=
  fun hI hc => ⟨inv_setCtrl hI fun _ => hk, hc, fun _ hd => quiet_setCtrl hd s k⟩

lemma quiet_log (hd : d ≠ c) (s : State U B M) {x : Post U B} (hx : x.controller = c)
    (upcs : Upcs M (UPCTuple U B)) :
    Quiet d s { s with upcs := upcs, posts := s.posts ++ [x] } := by
  refine ⟨⟨fun _ => Iff.rfl, fun _ _ _ => rfl, ?_⟩, rfl, fun _ _ => Iff.rfl⟩
  show (s.posts ++ [x]).filter _ = _
  rw [filter_append, filter_cons_of_neg, filter_nil, append_nil]
  · rfl
  · rw [decide_eq_true_eq, hx]
    exact hd.symm

lemma inv_postUPC (hI : Inv this s) (frame : Int) (q : UPCTuple U B) (sourceId : UpcId)
    (origin : M) (l : List (Post U B)) :
    Inv this { s with upcs := (s.upcs.postUPC frame q sourceId origin).2, posts := l } := by
  refine { hI with given := ?_, posted := ?_, accepts := ?_ }
  · intro p e hp
    obtain ⟨hg, hf⟩ := hI.given p e hp
    exact ⟨Upcs.Later.given (Upcs.later_postUPC ..) hg, (Upcs.find_postUPC hg ..).trans hf⟩
  · exact Upcs.Posted.postUPC hI.posted frame q sourceId origin
  · intro u
    show (Upcs.filter (Upcs.postUPC ..).2 _ _).isSome
    rw [Upcs.filter_postUPC]
    exact hI.accepts u

lemma inv_consumeUPC (hI : Inv this s) (id : UpcId) :
    Inv this { s with upcs := s.upcs.consumeUPC id } := by
  refine { hI with given := ?_, posted := hI.posted.consumeUPC id }
  intro p e hp
  obtain ⟨hg, hf⟩ := hI.given p e hp
  refine ⟨hg, (OrdMap.find_erase ..).trans ?_⟩
  split
  · rfl
  · exact hf

lemma quiet_consumeUPC (e : TaskPtr) (s : State U B M) (id : UpcId) :
    Quiet e s { s with upcs := s.upcs.consumeUPC id } :=
  ⟨⟨fun _ => Iff.rfl, fun _ _ _ => rfl, rfl⟩, rfl, fun _ _ => Iff.rfl⟩

variable (frame : Int) {p : TaskPtr}

lemma acts_postUPC (s : State U B M) (sourceId : UpcId) (q : UPCTuple U B) :
    Acts this c s (s.postUPC this frame c sourceId q) :=
  fun hI hc => ⟨inv_postUPC hI frame q sourceId this _, hc, fun _ hd => quiet_log hd s rfl _⟩

/-! ## new tasks -/

lemma postNew_ok {frame : Int} {id : UpcId} {us : List U}
    (h : s.postNew this frame id us d = .ok s') :
    s.board.tasksById.find id = none ∧ s' = { s.toHeap.construct id us d with
      board := (s.board.postTask TaskPtr.upcId frame ⟨id, s.serial⟩ us this true).2 } := by
  unfold postNew at h
  cases hf : s.board.tasksById.find id with
  | some it =>
    have he : s.board.postTask TaskPtr.upcId frame ⟨id, s.serial⟩ us this true
        = (.error ("Existing task found for " ++ upcString id), s.board) :=
      postTask_present frame _ us this true hf
    rw [he] at h
    nomatch h
  | none =>
    have he : s.board.postTask TaskPtr.upcId frame ⟨id, s.serial⟩ us this true
        = (.ok (), (s.board.postTask TaskPtr.upcId frame ⟨id, s.serial⟩ us this true).2) := by
      unfold Board.postTask
      rw [hf]
    rw [he] at h
    exact ⟨rfl, (Except.ok.inj h).symm⟩

/-- the state after a task `p` of the controller `d` was made and posted under a new id -/
structure Added (this : M) (d p : TaskPtr) (s s' : State U B M) : Prop where
  controller : s'.controller = update s.controller p (some d)
  task : (s'.tasks p).status = .ongoing
  tasks : ∀ q, q ≠ p → s'.tasks q = s.tasks q
  upcId : (s'.ctrls d).upcId = p.upcId
  ctrls : ∀ e, e ≠ d → s'.ctrls e = s.ctrls e
  place : p.serial = s.serial
  serial : s'.serial = s.serial + 1
  upcs : s'.upcs = s.upcs
  posts : s'.posts = s.posts
  index : Exact TaskPtr.upcId s.board → Exact TaskPtr.upcId s'.board
  pending : s'.board.tasksToBeRemoved = s.board.tasksToBeRemoved
  absent : s.board.tasksById.find p.upcId = none
  nodes : ∃ n, n.data.task = p ∧ n.data.owner = this ∧ s'.board.tasks = s.board.tasks ++ [n]

lemma added_of_postNew {frame : Int} {id : UpcId} {us : List U}
    (h : s.postNew this frame id us d = .ok s') : Added this d ⟨id, s.serial⟩ s s' := by
  obtain ⟨hf, rfl⟩ := postNew_ok h
  refine ⟨rfl, ?_, ?_, ?_, ?_, rfl, rfl, rfl, rfl, fun hb => exact_postTask hb ..,
    pending_postTask .., hf, _, ?_, ?_,
    (postTask_fresh TaskPtr.upcId s.board frame ⟨id, s.serial⟩ us this true hf).1⟩
  · show (update s.tasks _ _ _).status = _
    rw [update_self]
  · exact fun q hq => update_of_ne hq ..
  · show (update s.ctrls _ _ _).upcId = _
    rw [update_self]
  · exact fun e he => update_of_ne he ..
  · rfl
  · rfl

namespace Added

lemma self (h : Added this d p s s') : s'.controller p = some d := by
  rw [h.controller, update_self]

lemma cases (h : Added this d p s s') {q e : TaskPtr} (hq : s'.controller q = some e) :
    q = p ∧ e = d ∨ s.controller q = some e := by
  by_cases hqp : q = p
  · rw [hqp, h.self] at hq
    exact .inl ⟨hqp, (some.inj hq).symm⟩
  · rw [h.controller, update_of_ne hqp] at hq
    exact .inr hq

section new
variable (h : Added this d p s s') (hnew : ∀ q e, s.controller q = some e → q ≠ p)
include h hnew

lemma old {q e : TaskPtr} (hq : s.controller q = some e) : s'.controller q = some e := by
  rw [h.controller, update_of_ne (hnew q e hq)]
  exact hq

lemma finished {q e : TaskPtr} (hq : s.controller q = some e) : s'.finished q = s.finished q := by
  unfold State.finished
  rw [h.tasks q (hnew q e hq)]

lemma live (hI : Inv this s) {q e : TaskPtr} (hq : s'.controller q = some e)
    (hf : s'.finished q = false) : ∃ n ∈ s'.board.tasks, n.data.task = q ∧ n.data.owner = this := by
  obtain ⟨m, hm, hmo, hnodes⟩ := h.nodes
  rw [hnodes]
  rcases h.cases hq with ⟨rfl, -⟩ | hq
  · exact ⟨m, mem_append_right _ (mem_singleton.mpr rfl), hm, hmo⟩
  · rw [h.finished hnew hq] at hf
    obtain ⟨n, hn, hnq⟩ := hI.live q e hq hf
    exact ⟨n, mem_append_left _ hn, hnq⟩

lemma notPending (hI : Inv this s) {id : UpcId} (hid : id ∈ s'.board.tasksToBeRemoved) :
    ∃ n ∈ s'.board.tasks, n.data.task.upcId = id ∧
      ∀ e, s'.controller n.data.task = some e → s'.finished n.data.task := by
  obtain ⟨m, -, -, hnodes⟩ := h.nodes
  rw [h.pending] at hid
  rw [hnodes]
  obtain ⟨n, hn, hni, hf⟩ := hI.pending id hid
  refine ⟨n, mem_append_left _ hn, hni, fun e he => ?_⟩
  rcases h.cases he with ⟨hnp, -⟩ | he
  · exact absurd (congrArg TaskPtr.upcId hnp) (hI.index.ne_of_absent h.absent hn)
  · rw [h.finished hnew he]
    exact hf e he

lemma remembered (hI : Inv this s) {e : TaskPtr} (he : s'.controller e = some e) :
    ∃ q, s'.controller q = some e ∧ q.upcId = (s'.ctrls e).upcId := by
  by_cases hed : e = d
  · subst hed
    exact ⟨p, h.self, h.upcId.symm⟩
  · rcases h.cases he with ⟨-, hed'⟩ | he
    · exact absurd hed' hed
    · obtain ⟨q, hq, hqid⟩ := hI.remembered e he
      exact ⟨q, h.old hnew hq, by rw [h.ctrls e hed]; exact hqid⟩

end new

lemma inv (h : Added this d p s s') (hI : Inv this s) (hid : s.upcs.Given p.upcId)
    (hfree : s.upcs.upcs.find p.upcId = none)
    (hnew : ∀ q e, s.controller q = some e → q.upcId ≠ p.upcId)
    (hd : s.controller d = some d ∨ d = p) : Inv this s' := by
  have hne : ∀ q e, s.controller q = some e → q ≠ p :=
    fun q e hq hqp => hnew q e hq (congrArg TaskPtr.upcId hqp)
  refine ⟨h.index hI.index, ?_, ?_, fun _ _ => h.live hne hI, fun _ => h.notPending hne hI, ?_, ?_,
    by rw [h.upcs]; exact hI.posted, by rw [h.upcs]; exact hI.accepts, ?_,
    fun _ => h.remembered hne hI⟩
  · intro q e hq
    rw [h.serial]
    rcases h.cases hq with ⟨rfl, -⟩ | hq
    · rw [h.place]
      exact Nat.lt_succ_self _
    · exact Nat.lt_succ_of_lt (hI.allocated q e hq)
  · intro q e hq
    rcases h.cases hq with ⟨rfl, -⟩ | hq
    · rw [h.task]
      exact nofun
    · rw [h.tasks q (hne q e hq)]
      exact hI.known q e hq
  · intro q q' e e' hq hq' hi
    rcases h.cases hq with ⟨rfl, -⟩ | hq
    · rcases h.cases hq' with ⟨rfl, -⟩ | hq'
      · rfl
      · exact absurd hi.symm (hnew q' e' hq')
    · rcases h.cases hq' with ⟨rfl, -⟩ | hq'
      · exact absurd hi (hnew q e hq)
      · exact hI.distinct q q' e e' hq hq' hi
  · intro q e hq
    rw [h.upcs]
    rcases h.cases hq with ⟨rfl, -⟩ | hq
    · exact ⟨hid, hfree⟩
    · exact hI.given q e hq
  · intro q e hq
    rcases h.cases hq with ⟨-, rfl⟩ | hq
    · rcases hd with hd | rfl
      · exact h.old hne hd
      · exact h.self
    · exact h.old hne (hI.made q e hq)

lemma quiet (h : Added this d p s s') (hnew : ∀ q e, s.controller q = some e → q ≠ p)
    {e : TaskPtr} (he : e ≠ d) : Quiet e s s' := by
  obtain ⟨m, hm, -, hnodes⟩ := h.nodes
  refine ⟨⟨fun q => ?_, fun q hq _ => ?_, ?_⟩, by rw [h.ctrls e he], fun n hn => ?_⟩
  · rw [h.controller]
    by_cases hq : q = p
    · subst hq
      rw [update_self]
      exact ⟨fun hc => absurd (some.inj hc).symm he, fun hc => absurd rfl (hnew q e hc)⟩
    · rw [update_of_ne hq]
  · rw [h.tasks q (hnew q e hq)]
  · unfold postsOf
    rw [h.posts]
  · rw [hnodes, mem_append, mem_singleton]
    refine ⟨fun hmem => hmem.resolve_right fun hnm => ?_, .inl⟩
    rw [hnm, hm] at hn
    exact hnew p e hn rfl

end Added

lemma acts_consumeUPC (s : State U B M) (id : UpcId) :
    Acts this c s { s with upcs := s.upcs.consumeUPC id } :=
  fun hI hc => ⟨inv_consumeUPC hI id, hc, fun e _ => quiet_consumeUPC e s id⟩

lemma acts_log (s : State U B M) {x : Post U B} (hx : x.controller = c) :
    Acts this c s { s with posts := s.posts ++ [x] } :=
  fun hI hc => ⟨{ hI with }, hc, fun _ hd => quiet_log hd s hx s.upcs⟩

lemma leads_grabUnit (s : State U B M) (u : U) :
    Leads (Acts this c) s (s.grabUnit this frame c u) := by
  unfold grabUnit
  cases hq : s.controllerTask (s.ctrls c).upcId with
  | none => exact .ok (acts_refl s)
  | some r =>
    obtain ⟨q, d⟩ := r
    dsimp only
    by_cases hfin : s.finished q
    · rw [if_pos hfin]
      exact .ok (acts_refl s)
    · rw [if_neg hfin]
      refine Leads.map ?_ fun s => trans _ _ _ (acts_log s rfl) (acts_setCtrl rfl)
      intro s' h hI hc
      obtain ⟨rfl, -, -⟩ := hI.controllerTask hc hq
      have hacc := hI.accepts u
      obtain ⟨x, hx⟩ := isSome_iff_exists.mp hacc
      have hid : (s.upcs.postUPC frame (.grab u) (s.ctrls d).upcId this).1 = s.upcs.nextId := by
        unfold Upcs.postUPC
        rw [hx]
      have hgiven := (Upcs.postUPC_id (hid.trans_ne (Upcs.nextId_ne_filtered s.upcs))).2
      rw [← hid] at hgiven
      have hnew : ∀ p e, s.controller p = some e →
          p.upcId ≠ (s.upcs.postUPC frame (.grab u) (s.ctrls d).upcId this).1 := by
        intro p e hp hpe
        rw [hid] at hpe
        exact Upcs.not_given_nextId s.upcs (hpe ▸ (hI.given p e hp).1)
      obtain ⟨hI₁, hc₁, hq₁⟩ := trans (r := Acts this d) _ _ _
        (acts_postUPC frame s (s.ctrls d).upcId (.grab u)) (acts_consumeUPC _ _) hI hc
      have hadd := added_of_postNew h
      have hne : ∀ p e, s.controller p = some e → p ≠ ⟨_, s.serial⟩ :=
        fun p e hp hpe => hnew p e hp (congrArg TaskPtr.upcId hpe)
      refine ⟨hadd.inv hI₁ hgiven ?_ hnew (.inl hc₁), ?_, fun e he => ?_⟩
      · exact (OrdMap.find_erase ..).trans (if_pos rfl)
      · exact hadd.old hne hc₁
      · exact (hq₁ e he).trans (hadd.quiet hne he)

lemma acts_dropUnits (s : State U B M) {p : TaskPtr} (hp : s.board.OnBoard p) (units : List U) :
    Acts this c s { s with
      tasks := update s.tasks p { s.tasks p with units := units }
      board := s.board.updateTasksByUnit p units } := by
  have hst : ∀ q, (update s.tasks p { s.tasks p with units := units } q).status
      = (s.tasks q).status := Loops.unseen_update Task.status rfl
  intro hI hc
  refine ⟨?_, hc, fun d _ => ⟨⟨fun _ => Iff.rfl, fun q _ _ => hst q, rfl⟩, rfl, fun _ _ => Iff.rfl⟩⟩
  refine inv_of_settled hI rfl (Nat.le_refl _) rfl (fun _ => rfl) (fun q e hq hf => ?_)
    (fun q e hq => (hst q).trans_ne (hI.known q e hq)) (exact_updateTasksByUnit hI.index hp units)
    (fun n hn => hn) rfl
  exact (congrArg TaskStatus.finished (hst q)).trans hf

lemma acts_releaseUnit (s : State U B M) (u : U) : Acts this c s (s.releaseUnit this c u) := by
  unfold releaseUnit
  cases h : s.board.taskWithUnitOfModule u this with
  | none => exact acts_setCtrl rfl
  | some p =>
    refine trans _ _ _ (acts_setCtrl ?_) (acts_dropUnits _ ?_ _)
    · rfl
    · unfold Board.taskWithUnitOfModule at h
      obtain ⟨d, hd, rfl⟩ := map_eq_some_iff.mp h
      obtain ⟨hd, -⟩ := filter_eq_some_iff.mp hd
      obtain ⟨it, -, hd⟩ := bind_eq_some_iff.mp hd
      obtain ⟨n, hn, -, rfl⟩ := deref_some hd
      exact ⟨n, hn, rfl⟩

lemma acts_postUpcs (s : State U B M) : Acts this c s (s.postUpcs this frame c) :=
  trans _ _ _
    (foldl_related (fun s (q : UpcId × UPCTuple U B) => acts_postUPC frame s q.1 q.2) _ s)
    (acts_setCtrl rfl)

/-! ## the steps of the two kinds of controllers -/

namespace Ctrl
variable (k : Ctrl U B)

@[simp] lemma addUpc_upcId (u : U) (q : UPCTuple U B) : (k.addUpc u q).upcId = k.upcId := by
  unfold addUpc
  split
  · rfl
  · split
    · rfl
    · split <;> rfl

@[simp] lemma checkLocation_upcId (canBuildAt : Bool) :
    (k.checkLocation frame canBuildAt).upcId = k.upcId := by
  unfold checkLocation
  split <;> rfl

@[simp] lemma followWorker_upcId (status : TrackerStatus) :
    (k.followWorker status).upcId = k.upcId := by
  have hm : (k.followMovement status).upcId = k.upcId := by cases status <;> rfl
  have hr : k.retryBuilding.upcId = k.upcId := by
    unfold retryBuilding
    split <;> rfl
  have hb : (k.followBuilding status).upcId = k.upcId := by
    cases status with
    | timeout | failure => exact hr
    | _ => rfl
  unfold followWorker
  split
  · split
    · exact hm
    · exact hb
  · rfl

@[simp] lemma followProduction_upcId (status : TrackerStatus) :
    (k.followProduction status).upcId = k.upcId := by
  unfold followProduction
  split
  · cases status <;> rfl
  · rfl

end Ctrl

lemma acts_addUpc (s : State U B M) (u : U) (q : UPCTuple U B) : Acts this c s (s.addUpc c u q) :=
  acts_setCtrl (Ctrl.addUpc_upcId ..)

lemma acts_releaseAll (s : State U B M) (us : List U) :
    Acts this c s (us.foldl (fun s u => s.releaseUnit this c u) s) :=
  foldl_related acts_releaseUnit us s

lemma acts_releaseMoved (s : State U B M) : Acts this c s (s.releaseMoved this frame c) := by
  unfold releaseMoved
  dsimp only
  split
  · refine trans _ _ _ (acts_setCtrl ?_)
      (trans _ _ _ (acts_releaseAll _ _) (acts_setCtrl rfl))
    rfl
  · exact acts_refl s

lemma leads_findWorker (s : State U B M) (pos : Position) (moveOnly : Bool) (g : Sight U) :
    Leads (Acts this c) s (s.findWorker this frame c pos moveOnly g) := by
  unfold findWorker
  dsimp only
  split
  · split
    · exact .ok (acts_setCtrl rfl)
    · refine .after (acts_setCtrl ?_) (leads_grabUnit frame _ _)
      rfl
  · exact .ok (acts_refl s)

lemma leads_detect (s : State U B M) (g : Sight U) :
    Leads (Acts this c) s (s.detect this frame c g) := by
  unfold detect
  split
  · dsimp only
    split
    · exact .ok (acts_setCtrl rfl)
    · refine .after (acts_setCtrl ?_) (leads_grabUnit frame _ _)
      rfl
  · split
    · exact .ok (acts_refl s)
    · exact .ok (acts_addUpc s _ _)

lemma acts_clearSite (builder : U) {es : List (Blocker U)} {moved : Nat}
    {r : State U B M × Nat × Option U}
    (h : State.clearSite this frame c builder es moved s = .ok r) : Acts this c s r.1 := by
  induction es generalizing moved s with
  | nil =>
    rw [← Except.ok.inj h]
    exact acts_refl s
  | cons e es ih =>
    unfold clearSite at h
    split at h
    · exact ih h
    · split at h
      · obtain ⟨s₁, h₁, h₂⟩ := bind_ok h
        refine trans _ _ _ ?_ (trans _ _ _ (acts_addUpc s₁ _ _) (ih h₂))
        refine Leads.after (acts_setCtrl ?_) (leads_grabUnit frame _ e.unit) s₁ h₁
        rfl
      · split at h
        · rw [← Except.ok.inj h]
          exact acts_refl s
        · exact ih h

lemma leads_startBuilding (s : State U B M) (pos : Position) (builder : U) (g : Sight U) :
    Leads (Acts this c) s (s.startBuilding this frame c pos builder g) := by
  intro s' h
  obtain ⟨⟨s₁, moved, killUnit⟩, h₁, rfl⟩ := map_ok h
  refine trans _ _ _ (acts_clearSite frame builder h₁) ?_
  cases killUnit with
  | some e =>
    refine trans _ _ _ (acts_releaseAll s₁ (s₁.ctrls c).movedUnits)
      (trans _ _ _ (acts_setCtrl ?_) (acts_addUpc _ builder (.sharpUnit builder e .delete)))
    rfl
  | none =>
    refine trans _ _ _ (acts_setCtrl ?_) (acts_addUpc _ builder _)
    rfl

lemma acts_sendBuilder (s : State U B M) (builder : U) (target : Option Position) :
    Acts this c s (s.sendBuilder c builder target) := by
  unfold sendBuilder
  cases target with
  | none => exact acts_refl s
  | some p =>
    refine trans _ _ _ (acts_addUpc s builder (.sharp builder p .move)) ?_
    dsimp only
    split
    · exact acts_refl _
    · exact acts_setCtrl rfl

variable (T : BuildTypes B)

lemma leads_build (frame : Int) (s : State U B M) (pos : Position) (moveOnly : Bool)
    (g : Sight U) : Leads (Acts this c) s (s.build this frame T c pos moveOnly g) := by
  unfold build
  split
  · exact .ok (acts_refl s)
  · split
    · refine Leads.bind (leads_detect frame s g) fun s => ?_
      split
      · exact .ok (acts_sendBuilder s _ _)
      · split
        · exact .ok (acts_refl s)
        · exact leads_startBuilding frame s pos _ g
    · exact .ok (acts_refl s)

lemma leads_workerStep (frame : Int) (s : State U B M) (pos : Position) (g : Sight U) :
    Leads (Acts this c) s (s.workerStep this frame T c pos g) := by
  unfold workerStep
  refine .after (acts_setCtrl (Ctrl.checkLocation_upcId frame _ g.canBuildAt)) ?_
  generalize s.setCtrl c _ = s₁
  dsimp only
  split
  · exact .ok (acts_refl s₁)
  · refine .after (acts_setCtrl (Ctrl.followWorker_upcId _ g.trackerStatus)) ?_
    generalize s₁.setCtrl c _ = s₂
    split
    · exact .ok (acts_refl s₂)
    · refine .after (acts_releaseMoved frame s₂) ?_
      generalize s₂.releaseMoved this frame c = s₃
      split
      · exact .ok (acts_refl s₃)
      · refine .after (acts_setCtrl ?_) (Leads.bind (leads_findWorker frame _ pos _ g) fun s => ?_)
        · rfl
        · exact (leads_build T frame s pos _ g).map fun s => acts_postUpcs frame s

lemma leads_findProducer (s : State U B M) (g : Sight U) :
    Leads (Acts this c) s (s.findProducer this frame c g) := by
  unfold findProducer
  dsimp only
  split
  · split
    · exact .ok (acts_setCtrl rfl)
    · refine .after (acts_setCtrl ?_) (leads_grabUnit frame _ _)
      rfl
  · exact .ok (acts_refl s)

lemma acts_produce (s : State U B M) (g : Sight U) : Acts this c s (s.produce c g) := by
  unfold produce
  split
  · exact acts_refl s
  · split
    · exact acts_refl s
    · exact trans _ _ _ (acts_addUpc _ _ _) (acts_setCtrl rfl)

lemma leads_productionStep (s : State U B M) (g : Sight U) :
    Leads (Acts this c) s (s.productionStep this frame c g) := by
  unfold productionStep
  refine .after (acts_setCtrl (Ctrl.followProduction_upcId _ g.trackerStatus)) ?_
  generalize s.setCtrl c _ = s₁
  dsimp only
  split
  · exact .ok (acts_refl s₁)
  · split
    · exact .ok (acts_refl s₁)
    · split
      · exact .ok (acts_setCtrl rfl)
      · refine .after (acts_setCtrl ?_) ((leads_findProducer frame _ g).map fun s => ?_)
        · rfl
        · exact trans _ _ _ (acts_produce s g) (acts_postUpcs frame _)

/-- **The step of a controller keeps the invariant and leaves all other controllers alone.** -/
theorem leads_stepController (frame : Int) (s : State U B M) (g : Sight U) :
    Leads (Acts this c) s (s.stepController this frame T c g) := by
  unfold stepController
  split
  · exact .ok (acts_refl s)
  · split
    · exact leads_workerStep T frame s _ g
    · exact leads_productionStep frame s g

end TorchCraft.Builder
