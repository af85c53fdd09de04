import TorchCraft.Board.Index

/-!
# The sweep, and whole runs of the board

The sweep of `Blackboard::update` keeps the task list and its id and module indices; it writes the
unit index, the last seen statuses and the removal list.  So an update keeps `Exact`, drops exactly
the tasks that were pending (`mem_update_tasks`) and schedules exactly the auto-remove tasks it has
seen finished (`mem_update_pending`).

* `Op`, `boardSys`  the operations on a `World` as a system;
* `boardSys_exact`  the indices are exact after every legal run;
* `mem_tasks_of_unseen`  a task stays while no update has seen it finished.
-/

set_option linter.unusedSectionVars false

namespace TorchCraft
open Lib Board List

variable {P M U : Type} [DecidableEq P] [DecidableEq M] [DecidableEq U] {O : Objects P M U}
  {upcId : P → UpcId}

variable {w : World O} {n : Node P M}

namespace World

/-! ## one round of the sweep -/

@[simp] lemma sweepOne_tasks (w : World O) (e : UpcId × Iter) :
    (sweepOne upcId w e).board.tasks = w.board.tasks := by
  unfold sweepOne
  split <;> rfl

def turn (w : World O) (p : P) : O.H :=
  if (O.get w.heap p).status ≠ .cancelled then O.update w.board w.heap p else w.heap

lemma sweepOne_node (hb : Exact upcId w.board) (hn : n ∈ w.board.tasks) :
    sweepOne upcId w (upcId n.data.task, n.addr)
      = ⟨w.board.record upcId (upcId n.data.task, n.addr) n.data
          (O.get (w.turn n.data.task) n.data.task), w.turn n.data.task⟩ := by
  unfold sweepOne
  simp only [hb.deref_node hn]
  rfl

lemma exact_sweepOne (hb : Exact upcId w.board) (e : UpcId × Iter) :
    Exact upcId (sweepOne upcId w e).board := by
  unfold sweepOne
  split
  · exact hb
  next d hd =>
    obtain ⟨n, hn, hi, _⟩ := deref_some hd
    rw [show e = (e.1, n.addr) from by rw [hi]]
    exact exact_record hb hn ..

/-! ## the whole sweep -/

@[simp] lemma foldl_sweepOne_tasks (es : List (UpcId × Iter)) (w : World O) :
    (es.foldl (sweepOne upcId) w).board.tasks = w.board.tasks := by
  induction es generalizing w with
  | nil => rfl
  | cons e es ih => rw [foldl_cons, ih, sweepOne_tasks]

lemma exact_foldl_sweepOne (es : List (UpcId × Iter)) (hb : Exact upcId w.board) :
    Exact upcId (es.foldl (sweepOne upcId) w).board := by
  induction es generalizing w with
  | nil => exact hb
  | cons e es ih => exact ih (exact_sweepOne hb e)

/-- the entries of a stretch of the sweep: live nodes, each id once -/
structure Stretch (upcId : P → UpcId) (w : World O) (es : List (UpcId × Iter)) : Prop where
  live : ∀ e ∈ es, ∃ n ∈ w.board.tasks, e = (upcId n.data.task, n.addr)
  once : (es.map Prod.fst).Nodup

variable {es : List (UpcId × Iter)}

lemma Stretch.tail {e e' : UpcId × Iter} (h : Stretch upcId w (e :: es)) :
    Stretch upcId (sweepOne upcId w e') es where
  live := fun a ha => by
    rw [sweepOne_tasks]
    exact h.live a (List.mem_cons_of_mem _ ha)
  once := (List.nodup_cons.mp h.once).2

lemma Stretch.head {e : UpcId × Iter} (h : Stretch upcId w (e :: es)) :
    ∃ n ∈ w.board.tasks, e = (upcId n.data.task, n.addr) ∧ upcId n.data.task ∉ es.map Prod.fst := by
  obtain ⟨n, hn, rfl⟩ := h.live e (mem_cons_self ..)
  exact ⟨n, hn, rfl, (nodup_cons.mp h.once).1⟩

lemma stretch_rentries (hb : Exact upcId w.board) :
    Stretch upcId w w.board.tasksById.rentries where
  live := by
    intro e he
    obtain ⟨n, hn, h1, h2⟩ := (hb.ids _ _).mp ((OrdMap.mem_rentries ..).mp he)
    exact ⟨n, hn, by rw [h1, h2]⟩
  once := by
    rw [Nodup, pairwise_map]
    exact (OrdMap.rentries_sorted _).imp (fun h => h.ne')

lemma mem_rentries_node (hb : Exact upcId w.board) (hn : n ∈ w.board.tasks) :
    (upcId n.data.task, n.addr) ∈ w.board.tasksById.rentries :=
  (OrdMap.mem_rentries ..).mpr (hb.find_node hn)

lemma lastStatusOfTask_record (b : Board P M U) (e : UpcId × Iter) (d : TaskData P M) (t : Task U)
    (id : UpcId) : (b.record upcId e d t).lastStatusOfTask id
      = if id = upcId d.task then t.status else b.lastStatusOfTask id := by
  unfold lastStatusOfTask record
  by_cases h : id = upcId d.task <;> simp [h]

lemma lastStatusOfTask_foldl (hb : Exact upcId w.board) (hs : Stretch upcId w es) {id : UpcId}
    (hid : id ∉ es.map Prod.fst) :
    (es.foldl (sweepOne upcId) w).board.lastStatusOfTask id = w.board.lastStatusOfTask id := by
  induction es generalizing w with
  | nil => rfl
  | cons e es ih =>
    obtain ⟨n, hn, rfl, _⟩ := hs.head
    rw [map_cons, mem_cons, not_or] at hid
    rw [foldl_cons, ih (exact_sweepOne hb _) hs.tail hid.2, sweepOne_node hb hn]
    exact (lastStatusOfTask_record ..).trans (if_neg hid.1)

/-- an update sees the auto-remove task of `n` finished -/
def Sees (upcId : P → UpcId) (w : World O) (n : Node P M) : Prop :=
  n.data.autoRemove = true ∧
    (w.board.lastStatusOfTask (upcId n.data.task)).finished = true

lemma mem_pending_foldl (hb : Exact upcId w.board) (hs : Stretch upcId w es) (id : UpcId) :
    id ∈ (es.foldl (sweepOne upcId) w).board.tasksToBeRemoved
      ↔ id ∈ w.board.tasksToBeRemoved ∨ ∃ n ∈ w.board.tasks, upcId n.data.task = id
          ∧ id ∈ es.map Prod.fst ∧ Sees upcId (es.foldl (sweepOne upcId) w) n := by
  induction es generalizing w with
  | nil => simp
  | cons e es ih =>
    obtain ⟨n, hn, rfl, hfirst⟩ := hs.head
    set w₁ := sweepOne upcId w (upcId n.data.task, n.addr) with hw₁
    have hb₁ : Exact upcId w₁.board := exact_sweepOne hb _
    have hpend : id ∈ w₁.board.tasksToBeRemoved ↔
        id ∈ w.board.tasksToBeRemoved ∨ (upcId n.data.task = id ∧ Sees upcId w₁ n) := by
      have hst : w₁.board.lastStatusOfTask (upcId n.data.task)
          = (O.get (w.turn n.data.task) n.data.task).status := by
        rw [hw₁, sweepOne_node hb hn]
        exact (lastStatusOfTask_record ..).trans (if_pos rfl)
      rw [Sees, hst, hw₁, sweepOne_node hb hn]
      simp only [record]
      split
      next h =>
        rw [Bool.and_eq_true] at h
        rw [mem_append, mem_singleton]
        exact or_congr_right ⟨fun e => ⟨e.symm, h⟩, fun e => e.1.symm⟩
      next h =>
        rw [Bool.and_eq_true] at h
        exact ⟨Or.inl, fun h' => h'.resolve_right (fun e => h e.2)⟩
    have hsees : Sees upcId (es.foldl (sweepOne upcId) w₁) n ↔ Sees upcId w₁ n := by
      rw [Sees, Sees, lastStatusOfTask_foldl hb₁ hs.tail hfirst]
    rw [foldl_cons, ih hb₁ hs.tail, hpend, sweepOne_tasks, or_assoc]
    refine or_congr_right ⟨?_, ?_⟩
    · rintro (⟨rfl, h⟩ | ⟨m, hm, rfl, h, h'⟩)
      · exact ⟨n, hn, rfl, mem_cons_self .., hsees.mpr h⟩
      · exact ⟨m, hm, rfl, mem_cons_of_mem _ h, h'⟩
    · rintro ⟨m, hm, rfl, h, h'⟩
      rcases mem_cons.mp h with h | h
      · rw [hb.node_unique_id hm hn h] at h' ⊢
        exact Or.inl ⟨rfl, hsees.mp h'⟩
      · exact Or.inr ⟨m, hm, rfl, h, h'⟩

lemma foldl_sweepOne_related {R : O.H → O.H → Prop} (hrefl : ∀ h, R h h)
    (htrans : ∀ h₁ h₂ h₃, R h₁ h₂ → R h₂ h₃ → R h₁ h₃)
    (hturn : ∀ (w : World O) p, R w.heap (w.turn p))
    (es : List (UpcId × Iter)) (w : World O) : R w.heap (es.foldl (sweepOne upcId) w).heap := by
  induction es generalizing w with
  | nil => exact hrefl _
  | cons e es ih =>
    refine htrans _ _ _ ?_ (ih (sweepOne upcId w e))
    unfold sweepOne
    split
    · exact hrefl _
    next d hd => exact hturn w d.task

lemma pending_foldl {G : O.H → P → Prop}
    (hturn : ∀ (w : World O) p q, G w.heap q → G (w.turn p) q)
    (hseen : ∀ h p, (O.get h p).status.finished → G h p) (hb : Exact upcId w.board)
    (hs : Stretch upcId w es)
    (h₀ : ∀ id ∈ w.board.tasksToBeRemoved, ∃ n ∈ w.board.tasks,
      upcId n.data.task = id ∧ G w.heap n.data.task) :
    ∀ id ∈ (es.foldl (sweepOne upcId) w).board.tasksToBeRemoved, ∃ n ∈ w.board.tasks,
      upcId n.data.task = id ∧ G (es.foldl (sweepOne upcId) w).heap n.data.task := by
  induction es generalizing w with
  | nil => exact h₀
  | cons e es ih =>
    obtain ⟨m, hm, rfl, -⟩ := hs.head
    have h₁ := ih (exact_sweepOne hb (upcId m.data.task, m.addr)) hs.tail
    rw [sweepOne_tasks] at h₁
    apply h₁
    intro id hid
    rw [sweepOne_node hb hm] at hid ⊢
    have hold : id ∈ w.board.tasksToBeRemoved → ∃ n ∈ w.board.tasks, upcId n.data.task = id ∧
        G (w.turn m.data.task) n.data.task := fun h => by
      obtain ⟨n, hn, hni, hg⟩ := h₀ id h
      exact ⟨n, hn, hni, hturn w _ _ hg⟩
    simp only [record] at hid
    split at hid
    next hfin =>
      rcases mem_append.mp hid with hid | hid
      · exact hold hid
      · rw [mem_singleton.mp hid]
        exact ⟨m, hm, rfl, hseen _ _ (Bool.and_eq_true_iff.mp hfin).2⟩
    next => exact hold hid

/-! ## one update -/

def cleared (upcId : P → UpcId) (w : World O) (destroyed : List U) : World O :=
  { w with board := (w.board.removePending upcId).dropDestroyed destroyed }

lemma update_eq (w : World O) (destroyed : List U) :
    w.update upcId destroyed = (w.cleared upcId destroyed).board.tasksById.rentries.foldl
      (sweepOne upcId) (w.cleared upcId destroyed) := rfl

section
variable (hb : Exact upcId w.board) (ds : List U)
include hb ds

lemma exact_cleared : Exact upcId (w.cleared upcId ds).board :=
  exact_dropDestroyed (exact_removePending hb) ds

lemma exact_update : Exact upcId (w.update upcId ds).board :=
  exact_foldl_sweepOne _ (exact_cleared hb ds)

lemma mem_cleared_tasks (n : Node P M) :
    n ∈ (w.cleared upcId ds).board.tasks
      ↔ n ∈ w.board.tasks ∧ upcId n.data.task ∉ w.board.tasksToBeRemoved :=
  hb.mem_removeAll w.board.tasksToBeRemoved n

lemma cleared_tasksByUnit (hn : n ∈ (w.cleared upcId ds).board.tasks) (u : U) :
    (w.cleared upcId ds).board.tasksByUnit u = some n.addr
      ↔ u ∉ ds ∧ w.board.tasksByUnit u = some n.addr :=
  (dropDestroyed_eq_some ..).trans (and_congr_right fun _ => hb.tasksByUnit_removeAll hn u)

lemma mem_update_tasks (n : Node P M) :
    n ∈ (w.update upcId ds).board.tasks
      ↔ n ∈ w.board.tasks ∧ upcId n.data.task ∉ w.board.tasksToBeRemoved := by
  rw [update_eq, foldl_sweepOne_tasks, mem_cleared_tasks hb]

/-- **An update schedules the auto-remove tasks it sees finished, and no other.** -/
theorem mem_update_pending (hn : n ∈ (w.update upcId ds).board.tasks) :
    upcId n.data.task ∈ (w.update upcId ds).board.tasksToBeRemoved
      ↔ Sees upcId (w.update upcId ds) n := by
  have hc := exact_cleared hb ds
  rw [update_eq, foldl_sweepOne_tasks] at hn
  rw [update_eq, mem_pending_foldl hc (stretch_rentries hc)]
  constructor
  · rintro (h | ⟨m, hm, he, _, h⟩)
    · exact absurd h (not_mem_nil)
    · rwa [hc.node_unique_id hm hn he] at h
  · intro h
    exact Or.inr ⟨n, hn, rfl, mem_map_of_mem (mem_rentries_node hc hn), h⟩

end

lemma lastStatusOfTask_update
    (hturn : ∀ (w : World O) p q, (O.get (w.turn p) q).status = (O.get w.heap q).status)
    (hb : Exact upcId w.board) (ds : List U) (hn : n ∈ (w.update upcId ds).board.tasks) :
    (w.update upcId ds).board.lastStatusOfTask (upcId n.data.task)
      = (O.get w.heap n.data.task).status := by
  have hall : ∀ (es : List (UpcId × Iter)) (w : World O), Exact upcId w.board → Stretch upcId w es →
      n ∈ w.board.tasks → upcId n.data.task ∈ es.map Prod.fst →
      (es.foldl (sweepOne upcId) w).board.lastStatusOfTask (upcId n.data.task)
        = (O.get w.heap n.data.task).status := by
    intro es
    induction es with
    | nil => exact nofun
    | cons e es ih =>
      intro w hb hs hn hmem
      obtain ⟨m, hm, rfl, hfirst⟩ := hs.head
      have hb₁ := exact_sweepOne hb (upcId m.data.task, m.addr)
      rw [foldl_cons]
      by_cases hlater : upcId n.data.task ∈ es.map Prod.fst
      · rw [ih _ hb₁ hs.tail (by rwa [sweepOne_tasks]) hlater, sweepOne_node hb hm]
        exact hturn w _ _
      · rw [lastStatusOfTask_foldl hb₁ hs.tail hlater, sweepOne_node hb hm]
        have hself := (mem_cons.mp hmem).resolve_right hlater
        rw [hb.node_unique_id hn hm hself]
        exact (lastStatusOfTask_record ..).trans ((if_pos rfl).trans (hturn w _ _))
  have hc := exact_cleared hb ds
  rw [update_eq, foldl_sweepOne_tasks] at hn
  exact hall _ _ hc (stretch_rentries hc) hn (mem_map_of_mem (mem_rentries_node hc hn))

end World

/-! ## the board as a system -/

/-- the operations on a world: those of the board, and any code that writes to task objects -/
inductive Op (O : Objects P M U) where
  | postTask (currentFrame : Int) (p : P) (owner : M) (autoRemove : Bool)
  | markTaskForRemoval (id : UpcId)
  | updateTasksByUnit (p : P)
  | update (destroyed : List U)
  | write (h : O.H)

namespace Op

def run (upcId : P → UpcId) (w : World O) : Op O → World O
  | .postTask frame p owner ar =>
    { w with board := (w.board.postTask upcId frame p (O.get w.heap p).units owner ar).2 }
  | .markTaskForRemoval id => { w with board := w.board.markTaskForRemoval id }
  | .updateTasksByUnit p =>
    { w with board := w.board.updateTasksByUnit p (O.get w.heap p).units }
  | .update destroyed => w.update upcId destroyed
  | .write h => { w with heap := h }

def Ok (w : World O) : Op O → Prop
  | .updateTasksByUnit p => w.board.OnBoard p
  | _ => True

def isUpdate : Op O → Bool
  | .update _ => true
  | _ => false

def marks (id : UpcId) : Op O → Prop
  | .markTaskForRemoval i => i = id
  | _ => False

end Op

def boardSys (upcId : P → UpcId) (O : Objects P M U) : Sys (World O) (Op O) where
  run := Op.run upcId
  ok := Op.Ok

lemma exact_run (hb : Exact upcId w.board) (o : Op O) (ho : o.Ok w) :
    Exact upcId (o.run upcId w).board := by
  cases o with
  | postTask frame p owner ar => exact exact_postTask hb frame p _ owner ar
  | markTaskForRemoval id => exact exact_markTaskForRemoval hb id
  | updateTasksByUnit p => exact exact_updateTasksByUnit hb ho _
  | update ds => exact World.exact_update hb ds
  | write h => exact hb

lemma boardSys_exact (w : World O) (hb : Exact upcId w.board) (os : List (Op O))
    (hl : (boardSys upcId O).Legal w os) : Exact upcId ((boardSys upcId O).out w os).board :=
  (boardSys upcId O).invariant (fun w => Exact upcId w.board) (fun _ o hb ho => exact_run hb o ho)
    w hb os hl

/-! ## how long a task stays -/

lemma mem_postTask {b : Board P M U} (hn : n ∈ b.tasks) (frame : Int) (p : P) (us : List U)
    (owner : M) (ar : Bool) : n ∈ (b.postTask upcId frame p us owner ar).2.tasks := by
  unfold Board.postTask
  split
  · exact hn
  · exact mem_append_left _ hn

lemma postTask_fresh (upcId : P → UpcId) (b : Board P M U) (frame : Int) (p : P)
    (us : List U) (owner : M) (ar : Bool) (hf : b.tasksById.find (upcId p) = none) :
    (b.postTask upcId frame p us owner ar).2.tasks
        = b.tasks ++ [⟨b.nextAddr, ⟨p, owner, ar, frame⟩⟩] ∧
      (b.postTask upcId frame p us owner ar).2.tasksByUnit
        = assignRefs b.tasksByUnit us b.nextAddr := by
  unfold Board.postTask
  rw [hf]
  exact ⟨rfl, rfl⟩

lemma pending_postTask (b : Board P M U) (frame : Int) (p : P) (us : List U) (owner : M)
    (ar : Bool) : (b.postTask upcId frame p us owner ar).2.tasksToBeRemoved = b.tasksToBeRemoved := by
  unfold Board.postTask
  split <;> rfl

lemma mem_run_tasks (hn : n ∈ w.board.tasks) {o : Op O} (ho : o.isUpdate = false) :
    n ∈ (o.run upcId w).board.tasks := by
  cases o with
  | postTask frame p owner ar => exact mem_postTask hn ..
  | update ds => cases ho
  | markTaskForRemoval | updateTasksByUnit | write => exact hn

lemma mem_run_pending {o : Op O} (ho : o.isUpdate = false) (id : UpcId) :
    id ∈ (o.run upcId w).board.tasksToBeRemoved ↔ id ∈ w.board.tasksToBeRemoved ∨ o.marks id := by
  cases o with
  | postTask frame p owner ar =>
    show id ∈ (w.board.postTask upcId frame p _ owner ar).2.tasksToBeRemoved ↔ _ ∨ False
    rw [pending_postTask, or_false]
  | update ds => cases ho
  | markTaskForRemoval i =>
    show id ∈ w.board.tasksToBeRemoved ++ [i] ↔ _ ∨ i = id
    rw [mem_append, mem_singleton, eq_comm]
  | updateTasksByUnit | write => exact (or_false _).to_iff.symm

/-- no update of the run sees the task of `n` finished, and nobody marks it by hand -/
def Unseen (upcId : P → UpcId) (n : Node P M) : World O → List (Op O) → Prop
  | _, [] => True
  | w, o :: os => (o.isUpdate = true → ¬ World.Sees upcId (o.run upcId w) n) ∧
      ¬ o.marks (upcId n.data.task) ∧ Unseen upcId n (o.run upcId w) os

lemma mem_run_of_unseen (hb : Exact upcId w.board) (hn : n ∈ w.board.tasks)
    (hp : upcId n.data.task ∉ w.board.tasksToBeRemoved) {o : Op O}
    (hsee : o.isUpdate → ¬ World.Sees upcId (o.run upcId w) n)
    (hmark : ¬ o.marks (upcId n.data.task)) : n ∈ (o.run upcId w).board.tasks ∧
      upcId n.data.task ∉ (o.run upcId w).board.tasksToBeRemoved := by
  cases ho : o.isUpdate with
  | false =>
    refine ⟨mem_run_tasks hn ho, ?_⟩
    rw [mem_run_pending ho]
    exact fun h => h.elim hp hmark
  | true =>
    cases o with
    | update ds =>
      have hn' : n ∈ (w.update upcId ds).board.tasks := (World.mem_update_tasks hb ds n).mpr ⟨hn, hp⟩
      exact ⟨hn', fun h => hsee rfl ((World.mem_update_pending hb ds hn').mp h)⟩
    | postTask | markTaskForRemoval | updateTasksByUnit | write => cases ho

lemma mem_tasks_of_unseen (w : World O) (hb : Exact upcId w.board) (hn : n ∈ w.board.tasks)
    (hp : upcId n.data.task ∉ w.board.tasksToBeRemoved) (os : List (Op O))
    (hl : (boardSys upcId O).Legal w os) (hu : Unseen upcId n w os) :
    n ∈ ((boardSys upcId O).out w os).board.tasks ∧
      upcId n.data.task ∉ ((boardSys upcId O).out w os).board.tasksToBeRemoved := by
  induction os generalizing w with
  | nil => exact ⟨hn, hp⟩
  | cons o os ih =>
    obtain ⟨hsee, hmark, hrest⟩ := hu
    obtain ⟨hn', hp'⟩ := mem_run_of_unseen hb hn hp hsee hmark
    exact ih (o.run upcId w) (exact_run hb o hl.1) hn' hp' hl.2 hrest

lemma mem_tasks_of_pending (w : World O) (hn : n ∈ w.board.tasks)
    (hp : upcId n.data.task ∈ w.board.tasksToBeRemoved) (os : List (Op O))
    (hno : ∀ o ∈ os, o.isUpdate = false) : n ∈ ((boardSys upcId O).out w os).board.tasks ∧
      upcId n.data.task ∈ ((boardSys upcId O).out w os).board.tasksToBeRemoved := by
  induction os generalizing w with
  | nil => exact ⟨hn, hp⟩
  | cons o os ih =>
    have ho := hno o (mem_cons_self ..)
    exact ih (o.run upcId w) (mem_run_tasks hn ho) ((mem_run_pending ho _).mpr (Or.inl hp))
      (fun o' h' => hno o' (mem_cons_of_mem _ h'))

/-! ## the statement for whole runs -/

/-- **The indices are exact views of the task list after every run, and an auto-remove task stays
through the update that sees it finished, until the next one.**  -/
theorem indices_exact_and_autoRemoval (upcId : P → UpcId) (O : Objects P M U) (h₀ : O.H)
    (os : List (Op O)) (hl : (boardSys upcId O).Legal ⟨Board.empty, h₀⟩ os) :
    let w := (boardSys upcId O).out ⟨Board.empty, h₀⟩ os
    Exact upcId w.board ∧
    (∀ frame p owner ar, (∃ n ∈ w.board.tasks, upcId n.data.task = upcId p) →
      w.board.postTask upcId frame p (O.get w.heap p).units owner ar
        = (.error ("Existing task found for " ++ upcString (upcId p)), w.board)) ∧
    (∀ n ∈ w.board.tasks, n.data.autoRemove = true →
      upcId n.data.task ∉ w.board.tasksToBeRemoved →
      ∀ os₁, (boardSys upcId O).Legal w os₁ → Unseen upcId n w os₁ → ∀ ds₁,
        let w₁ := ((boardSys upcId O).out w os₁).update upcId ds₁
        n ∈ ((boardSys upcId O).out w os₁).board.tasks ∧ n ∈ w₁.board.tasks ∧
        ((w₁.board.lastStatusOfTask (upcId n.data.task)).finished = true →
          ∀ os₂, (boardSys upcId O).Legal w₁ os₂ → (∀ o ∈ os₂, o.isUpdate = false) → ∀ ds₂,
            let w₂ := ((boardSys upcId O).out w₁ os₂).update upcId ds₂
            n ∈ ((boardSys upcId O).out w₁ os₂).board.tasks ∧
            ∀ m ∈ w₂.board.tasks, upcId m.data.task ≠ upcId n.data.task)) := by
  intro w
  have hb : Exact upcId w.board := boardSys_exact _ exact_empty os hl
  refine ⟨hb, ?_, ?_⟩
  · rintro frame p owner ar ⟨n, hn, he⟩
    exact postTask_present _ _ _ _ _ (he ▸ hb.find_node hn)
  · intro n hn har hp os₁ hl₁ hu ds₁ w₁
    obtain ⟨hmem, hnot⟩ := mem_tasks_of_unseen w hb hn hp os₁ hl₁ hu
    have hb' := boardSys_exact w hb os₁ hl₁
    have hn₁ : n ∈ w₁.board.tasks := (World.mem_update_tasks hb' ds₁ n).mpr ⟨hmem, hnot⟩
    refine ⟨hmem, hn₁, ?_⟩
    intro hfin os₂ hl₂ hno ds₂ w₂
    have hpend := (World.mem_update_pending hb' ds₁ hn₁).mpr ⟨har, hfin⟩
    obtain ⟨hn₂, hp₂⟩ := mem_tasks_of_pending w₁ hn₁ hpend os₂ hno
    have hb₂ := boardSys_exact w₁ (World.exact_update hb' ds₁) os₂ hl₂
    refine ⟨hn₂, fun m hm he => ?_⟩
    exact ((World.mem_update_tasks hb₂ ds₂ m).mp hm).2 (he ▸ hp₂)

/-- tasks that succeed in their first update, as the mock tasks of the blackboard tests -/
def mockStatusTasks : Objects Nat Nat Nat where
  H := Nat → Task Nat
  get := fun h p => h p
  update := fun _ h p => Function.update h p { h p with status := .success }

theorem autoRemoval_mockStatusTask :
    let w : World mockStatusTasks := (boardSys (fun p : Nat => (p : Int)) mockStatusTasks).out
      ⟨Board.empty, fun _ => ⟨.ongoing, [7]⟩⟩ [.postTask 0 3 1 true]
    let w₁ := w.update (fun p : Nat => (p : Int)) []
    (⟨1, ⟨3, 1, true, 0⟩⟩ : Node Nat Nat) ∈ w₁.board.tasks ∧
      ∀ m ∈ (w₁.update (fun p : Nat => (p : Int)) []).board.tasks, (m.data.task : Int) ≠ 3 := by
  intro w w₁
  have h := indices_exact_and_autoRemoval (fun p : Nat => (p : Int)) mockStatusTasks
    (fun _ => ⟨.ongoing, [7]⟩) [.postTask 0 3 1 true] ⟨trivial, trivial⟩
  have hn := h.2.2 ⟨1, ⟨3, 1, true, 0⟩⟩ (mem_singleton.mpr rfl) rfl not_mem_nil []
    trivial trivial []
  exact ⟨hn.2.1, (hn.2.2 rfl [] trivial (by simp) []).2⟩

end TorchCraft
