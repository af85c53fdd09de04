import TorchCraft.Controller.Shared

/-!
# Runs with a shared controller

* `SharedOp`, `sharedSys`  construction with immediate posting, tasks of other kinds, cancellation,
  deaths and changes of ownership, and updates of the board;
* `controlled_create`  a task enters with its units, whoever had them before;
* `controlled_run`  every operation keeps `Controlled`;
* `sharedController_exact`  right after an update the unit map of the controller is the set of pairs
  (unit, id) of its ongoing tasks on the board.
-/

namespace TorchCraft
open Lib Board List Function SharedHeap

variable {P M U Q : Type} [DecidableEq P] [DecidableEq M] [DecidableEq U] {upcId : P → UpcId}
  {shared : P → Bool} {others : OtherTasks P M U Q}

inductive SharedOp (P M U Q : Type) where
  /-- construct a `SharedControllerTask` and post it -/
  | create (currentFrame : Int) (p : P) (us : List U) (owner : M) (autoRemove : Bool)
  /-- post a task of another kind -/
  | postTask (currentFrame : Int) (p : P) (owner : M) (autoRemove : Bool)
  /-- code of other kinds writes to its task objects -/
  | writeOthers (t : P → Task U)
  | updateTasksByUnit (p : P)
  /-- cancel a task of the controller -/
  | cancel (p : P)
  | markTaskForRemoval (id : UpcId)
  /-- units die or change hands -/
  | setFlags (dead isMine : U → Bool)
  /-- the controller schedules and posts its UPCs -/
  | setUpcs (upcs : U → Option (UpcId × Q))
  | update (destroyed : List U)

namespace SharedOp

def run (w : World (sharedTasks upcId shared others)) :
    SharedOp P M U Q → World (sharedTasks upcId shared others)
  | .create frame p us owner ar =>
    let h := w.objects.construct upcId p us
    ⟨(w.board.postTask upcId frame p (h.tasks p).units owner ar).2, h⟩
  | .postTask frame p owner ar =>
    ⟨(w.board.postTask upcId frame p (w.objects.tasks p).units owner ar).2, w.heap⟩
  | .writeOthers t => ⟨w.board, w.objects.writeOthers shared t⟩
  | .updateTasksByUnit p => ⟨w.board.updateTasksByUnit p (w.objects.tasks p).units, w.heap⟩
  | .cancel p => ⟨w.board, w.objects.cancel upcId p⟩
  | .markTaskForRemoval id => ⟨w.board.markTaskForRemoval id, w.heap⟩
  | .setFlags dead isMine => ⟨w.board, { w.objects with dead := dead, isMine := isMine }⟩
  | .setUpcs upcs => ⟨w.board, { w.objects with ctrl := { w.objects.ctrl with upcs := upcs } }⟩
  | .update destroyed => w.update upcId destroyed

/-- ids are fresh when a task of the controller is posted; only finished tasks of the controller are
removed -/
def Ok (w : World (sharedTasks upcId shared others)) : SharedOp P M U Q → Prop
  | .create _ p _ _ _ => shared p = true ∧ w.board.tasksById.find (upcId p) = none
  | .postTask _ p _ _ => shared p = false
  | .updateTasksByUnit p => shared p = false ∧ w.board.OnBoard p
  | .cancel p => shared p = true
  | .update _ => OnlyFinished w
  | _ => True

end SharedOp

def sharedSys (upcId : P → UpcId) (shared : P → Bool) (others : OtherTasks P M U Q) :
    Sys (World (sharedTasks upcId shared others)) (SharedOp P M U Q) where
  run := SharedOp.run
  ok := SharedOp.Ok

/-! ## one operation -/

variable {S : Node P M → Prop} {b : Board P M U} {h : SharedHeap P U Q}

lemma controlled_post (hC : Controlled upcId shared S b h) {p : P}
    (hf : b.tasksById.find (upcId p) = none) (frame : Int) (us : List U) (owner : M) (ar : Bool)
    {h' : SharedHeap P U Q} (hself : shared p → h'.tasks p = ⟨.ongoing, us⟩)
    (hother : ∀ q, q ≠ p → h'.tasks q = h.tasks q)
    (hctrl : ∀ u, h'.ctrl.units u =
      if shared p ∧ u ∈ us then some (upcId p) else h.ctrl.units u) :
    Controlled upcId shared (fun _ => False) (b.postTask upcId frame p us owner ar).2 h' := by
  obtain ⟨htasks, hunits⟩ := postTask_fresh upcId b frame p us owner ar hf
  have hnew : ∀ n ∈ b.tasks, n.data.task ≠ p :=
    fun n hn e => hC.index.ne_of_absent hf hn (congrArg upcId e)
  refine ⟨exact_postTask hC.index frame p us owner ar, ?_, ?_, ?_, ?_, fun _ _ hs => hs.elim⟩
  · intro u i hi
    rw [htasks]
    rw [hctrl] at hi
    split at hi
    next hu =>
      exact ⟨_, mem_append_right _ (mem_singleton.mpr rfl), hu.1, by rw [hself hu.1],
        Option.some.inj hi, by rw [hself hu.1]; exact hu.2⟩
    next =>
      obtain ⟨n, hn, hsh, h1, h2, h3⟩ := hC.only u i hi
      have hq := hother _ (hnew n hn)
      exact ⟨n, mem_append_left _ hn, hsh, by rw [hq]; exact h1, h2, by rw [hq]; exact h3⟩
  · intro n hn hsh u hu hb
    rw [htasks] at hn
    rw [hunits] at hb
    rw [hctrl]
    rcases mem_append.mp hn with hn | hn
    · rw [hother _ (hnew n hn)] at hu
      rcases (assignRefs_eq_some ..).mp hb with ⟨_, ha⟩ | ⟨hus, hb⟩
      · exact absurd ha (Nat.ne_of_lt (hC.index.fresh n hn).2)
      · rw [if_neg fun h => hus h.2]
        exact hC.given n hn hsh u hu hb
    · rw [mem_singleton.mp hn] at hu hsh ⊢
      rw [hself hsh] at hu
      rw [if_pos ⟨hsh, hu⟩]
  · intro q hq hs
    by_cases he : q = p
    · rw [he] at hq hs
      exact absurd (by rw [hself hq]) hs
    · rw [hother q he] at hs ⊢
      exact hC.cleared q hq hs
  · intro q hq hs
    unfold OnBoard
    rw [htasks]
    by_cases he : q = p
    · exact ⟨_, mem_append_right _ (mem_singleton.mpr rfl), he.symm⟩
    · rw [hother q he] at hs
      obtain ⟨n, hn, hnq⟩ := hC.posted q hq hs
      exact ⟨n, mem_append_left _ hn, hnq⟩

lemma controlled_create (hC : Controlled upcId shared S b h) {p : P} (hp : shared p)
    (hf : b.tasksById.find (upcId p) = none) (frame : Int) (us : List U) (owner : M) (ar : Bool) :
    Controlled upcId shared (fun _ => False) (b.postTask upcId frame p us owner ar).2
      (h.construct upcId p us) := by
  refine controlled_post hC hf frame us owner ar (fun _ => update_self ..)
    (fun q hq => update_of_ne hq ..) fun u => ?_
  simp only [hp, true_and]
  exact ControllerBase.foldl_addUnit_units (upcId p) us h.ctrl u

lemma controlled_postTask (hC : Controlled upcId shared (fun _ => False) b h) {p : P}
    (hp : shared p = false) (frame : Int) (us : List U) (owner : M) (ar : Bool) :
    Controlled upcId shared (fun _ => False) (b.postTask upcId frame p us owner ar).2 h := by
  cases hf : b.tasksById.find (upcId p) with
  | some it => rw [postTask_present _ _ _ _ _ hf]; exact hC
  | none => exact controlled_post hC hf frame us owner ar (by simp [hp]) (fun _ _ => rfl) (by simp [hp])

lemma controlled_updateTasksByUnit (hC : Controlled upcId shared S b h) {p : P}
    (hp : shared p = false) (hon : b.OnBoard p) (us : List U) :
    Controlled upcId shared S (b.updateTasksByUnit p us) h := by
  refine hC.withUnits (exact_updateTasksByUnit hC.index hon us) rfl ?_
  obtain ⟨m, hm, rfl⟩ := hon
  intro n hn hsh u hu
  rw [hC.index.updateTasksByUnit_eq hm] at hu
  rcases (rebuild_eq_some ..).mp hu with ⟨ha, _⟩ | ⟨_, _, hb⟩
  · rw [hC.index.node_unique hn hm ha, hp] at hsh
    cases hsh
  · exact hb

variable {w : World (sharedTasks upcId shared others)}

lemma controlled_run (hC : WControlled (fun _ => False) w) (o : SharedOp P M U Q) (ho : o.Ok w) :
    WControlled (fun _ => False) (o.run w) := by
  cases o with
  | create frame p us owner ar =>
    have hus : ((w.objects.construct upcId p us).tasks p).units = us := by
      simp [construct]
    show Controlled upcId shared _ (w.board.postTask upcId frame p
      ((w.objects.construct upcId p us).tasks p).units owner ar).2 _
    rw [hus]
    exact controlled_create hC ho.1 ho.2 frame us owner ar
  | postTask frame p owner ar => exact controlled_postTask hC ho frame _ owner ar
  | writeOthers t => exact Controlled.writeOthers hC t
  | updateTasksByUnit p => exact controlled_updateTasksByUnit hC ho.1 ho.2 _
  | cancel p => exact Controlled.cancel hC ho
  | markTaskForRemoval id =>
    exact Controlled.withUnits hC (exact_markTaskForRemoval hC.index id) rfl (fun _ _ _ _ h => h)
  | setFlags | setUpcs => exact Controlled.congr hC (fun _ _ => rfl) rfl
  | update ds => exact (controlled_update hC ho ds).mono (fun _ hf => hf.elim)

/-! ## whole runs -/

lemma controlled_init (dead isMine : U → Bool) :
    WControlled (fun _ => False)
      (⟨Board.empty, init dead isMine⟩ : World (sharedTasks upcId shared others)) where
  index := exact_empty
  only := fun u i hi => by cases hi
  given := nofun
  cleared := fun _ _ _ => rfl
  posted := fun _ _ ho => by cases ho
  settled := nofun

lemma controlled_out (upcId : P → UpcId) (shared : P → Bool) (others : OtherTasks P M U Q)
    (dead isMine : U → Bool) (os : List (SharedOp P M U Q))
    (hl : (sharedSys upcId shared others).Legal ⟨Board.empty, init dead isMine⟩ os) :
    WControlled (fun _ => False)
      ((sharedSys upcId shared others).out ⟨Board.empty, init dead isMine⟩ os) :=
  (sharedSys upcId shared others).invariant (WControlled fun _ => False)
    (fun _ o hC ho => controlled_run hC o ho) _ (controlled_init dead isMine) os hl

lemma handed_over (hC : WControlled (fun _ => False) w) {frame : Int} {p : P} {us : List U}
    {owner : M} {ar : Bool} (ho : (SharedOp.create frame p us owner ar : SharedOp P M U Q).Ok w)
    (hf : OnlyFinished ((SharedOp.create frame p us owner ar).run w)) {ds : List U} {u : U}
    (hu : u ∈ us) (hds : u ∉ ds) (hk : w.objects.keepUnit u)
    (hfree : ∀ q, shared q = false → u ∉ (w.objects.tasks q).units)
    (ha : LeaveAlone shared others p u) :
    (((SharedOp.create frame p us owner ar).run w).update upcId ds).objects.ctrl.units u
      = some (upcId p) := by
  have hC₁ := controlled_run hC _ ho
  set w₁ := (SharedOp.create frame p us owner ar).run w with hw₁
  have hself : (w₁.objects.tasks p) = ⟨.ongoing, us⟩ := update_self ..
  obtain ⟨htasks, hunits⟩ :=
    postTask_fresh upcId w.board frame p (w₁.objects.tasks p).units owner ar ho.2
  have hn : (⟨w.board.nextAddr, ⟨p, owner, ar, frame⟩⟩ : Node P M) ∈ w₁.board.tasks := by
    show _ ∈ (w.board.postTask upcId frame p (w₁.objects.tasks p).units owner ar).2.tasks
    rw [htasks]
    exact mem_append_right _ (mem_singleton.mpr rfl)
  have hb : w₁.board.tasksByUnit u = some w.board.nextAddr := by
    show (w.board.postTask upcId frame p (w₁.objects.tasks p).units owner ar).2.tasksByUnit u = _
    rw [hunits, assignRefs_apply, hself, if_pos hu]
  have hl : Lists shared w₁.objects ⟨w.board.nextAddr, ⟨p, owner, ar, frame⟩⟩ u := by
    refine ⟨by rw [hself], by rw [hself]; exact hu, hk, fun q hq => ?_⟩
    have hqp : q ≠ p := fun e => by rw [e, ho.1] at hq; cases hq
    rw [show w₁.objects.tasks q = w.objects.tasks q from update_of_ne hqp ..]
    exact hfree q hq
  obtain ⟨hn', hl'⟩ := lists_update hC₁ hf hn ho.1 ha hl hb hds
  exact (controlled_update hC₁ hf ds).settled _ hn' hn' ho.1 u hl'.lists

/-- **Right after each update the unit map of the controller is exactly the set of pairs of a unit
and the id of an ongoing task of the controller on the board that lists it.**  -/
theorem sharedController_exact (upcId : P → UpcId) (shared : P → Bool)
    (others : OtherTasks P M U Q) (dead isMine : U → Bool) (os : List (SharedOp P M U Q))
    (hl : (sharedSys upcId shared others).Legal ⟨Board.empty, init dead isMine⟩ os) :
    let w := (sharedSys upcId shared others).out ⟨Board.empty, init dead isMine⟩ os
    (OnlyFinished w → ∀ ds u i, (w.update upcId ds).objects.ctrl.units u = some i ↔
      ∃ n ∈ (w.update upcId ds).board.tasks, shared n.data.task = true ∧
        ((w.update upcId ds).objects.tasks n.data.task).status = .ongoing ∧
        upcId n.data.task = i ∧ u ∈ ((w.update upcId ds).objects.tasks n.data.task).units) ∧
    (∀ frame p us owner ar, SharedOp.Ok w (.create frame p us owner ar) →
      OnlyFinished ((SharedOp.create frame p us owner ar).run w) → ∀ ds, ∀ u ∈ us, u ∉ ds →
      w.objects.keepUnit u = true → (∀ q, shared q = false → u ∉ (w.objects.tasks q).units) →
      LeaveAlone shared others p u →
      (((SharedOp.create frame p us owner ar).run w).update upcId ds).objects.ctrl.units u
        = some (upcId p)) := by
  intro w
  have hC := controlled_out upcId shared others dead isMine os hl
  refine ⟨fun hf ds u i => ?_, ?_⟩
  · have hC' := controlled_update hC hf ds
    refine ⟨hC'.only u i, ?_⟩
    rintro ⟨n, hn, hsh, _, rfl, hu⟩
    exact hC'.settled n hn hn hsh u hu
  · intro frame p us owner ar ho hf ds u hu hds hk hfree ha
    exact handed_over hC ho hf hu hds hk hfree ha

/-- tasks of other kinds that do nothing -/
def idleTasks : OtherTasks Nat Nat Nat Unit := ⟨fun _ h _ => h.tasks, fun _ _ _ => []⟩

theorem sharedController_handover :
    (((sharedSys (fun p : Nat => (p : Int)) (fun _ => true) idleTasks).out
      ⟨Board.empty, init (fun _ => false) (fun _ => true)⟩
      [.create 0 1 [5, 6] 0 true, .create 0 2 [5] 0 true]).update
        (fun p : Nat => (p : Int)) []).objects.ctrl.units 5 = some 2 := by
  refine ((sharedController_exact (fun p : Nat => (p : Int)) (fun _ => true) idleTasks
    (fun _ => false) (fun _ => true) [.create 0 1 [5, 6] 0 true, .create 0 2 [5] 0 true]
    ⟨⟨rfl, rfl⟩, ⟨rfl, rfl⟩, trivial⟩).1 (nofun) [] 5 2).mpr ?_
  exact ⟨⟨2, ⟨2, 0, true, 0⟩⟩, by decide +kernel, rfl, by decide +kernel, rfl, by decide +kernel⟩

end TorchCraft
