import TorchCraft.Board.Runs

/-!
# Who owns a unit

A unit is listed twice: in the unit sets of tasks, which anybody may rewrite, and in the unit index
of the board.  Here every task updates itself by `removeDeadOrReassignedUnits`, which keeps the
units the index gives to the task, and the sweep then rewrites the index from the task.

* `plainTasks`  the task objects with this update;
* `sweepOne_units`, `sweepOne_tasksByUnit`  one turn: the two listings of the task are intersected,
  nothing else changes.
-/

set_option linter.unusedSectionVars false

namespace TorchCraft
open Lib Board List

variable {P M U : Type} [DecidableEq P] [DecidableEq M] [DecidableEq U] {upcId : P → UpcId}
  {n : Node P M} {O : Objects P M U} {g : U → Option P}

def removeDeadOrReassignedUnits (b : Board P M U) (h : P → Task U) (p : P) : P → Task U :=
  Function.update h p
    { h p with units := (h p).units.filter (fun u => decide (b.taskWithUnit u = some p)) }

def plainTasks (P M U : Type) [DecidableEq P] [DecidableEq U] : Objects P M U where
  H := P → Task U
  get := fun h p => h p
  update := removeDeadOrReassignedUnits

def CancelledCleared (h : P → Task U) : Prop := ∀ p, (h p).status = .cancelled → (h p).units = []

namespace World

/-! ## one turn -/

/-- the task with the units that the index gives to the node `it` -/
def keepOwned (b : Board P M U) (it : Iter) (t : Task U) : Task U :=
  { t with units := t.units.filter (fun u => decide (b.tasksByUnit u = some it)) }

lemma mem_keepOwned (b : Board P M U) (it : Iter) (t : Task U) (u : U) :
    u ∈ (keepOwned b it t).units ↔ u ∈ t.units ∧ b.tasksByUnit u = some it := by
  simp [keepOwned]

lemma turn_plain {w : World (plainTasks P M U)} (hb : Exact upcId w.board)
    (hc : CancelledCleared w.heap) (hn : n ∈ w.board.tasks) :
    w.turn n.data.task = Function.update w.heap n.data.task
      (keepOwned w.board n.addr (w.heap n.data.task)) := by
  have hf : (fun u => decide (w.board.taskWithUnit u = some n.data.task))
      = fun u => decide (w.board.tasksByUnit u = some n.addr) := by
    funext u
    rw [decide_eq_decide]
    exact hb.taskWithUnit_node hn u
  unfold turn
  split
  · show Function.update w.heap n.data.task { w.heap n.data.task with
      units := (w.heap n.data.task).units.filter
        (fun u => decide (w.board.taskWithUnit u = some n.data.task)) } = _
    rw [hf]
    rfl
  next h =>
    have hu : keepOwned w.board n.addr (w.heap n.data.task) = w.heap n.data.task := by
      unfold keepOwned
      rw [hc _ (not_not.mp h), filter_nil, ← hc _ (not_not.mp h)]
    rw [hu]
    exact (Function.update_eq_self ..).symm

variable {w : World (plainTasks P M U)} {m : Node P M}

section
variable (hb : Exact upcId w.board) (hc : CancelledCleared w.heap)
include hb hc

lemma sweepOne_heap
    (hm : m ∈ w.board.tasks) (p : P) : (sweepOne upcId w (upcId m.data.task, m.addr)).heap p
      = if p = m.data.task then keepOwned w.board m.addr (w.heap p) else w.heap p := by
  rw [sweepOne_node hb hm, turn_plain hb hc hm]
  by_cases h : p = m.data.task
  · rw [if_pos h, h]; exact Function.update_self ..
  · rw [if_neg h]; exact Function.update_of_ne h ..

section
variable (hn : n ∈ w.board.tasks) (hm : m ∈ w.board.tasks) (u : U)
include hn hm u

lemma sweepOne_units :
    u ∈ ((sweepOne upcId w (upcId m.data.task, m.addr)).heap n.data.task).units
      ↔ u ∈ (w.heap n.data.task).units ∧ (n = m → w.board.tasksByUnit u = some n.addr) := by
  rw [sweepOne_heap hb hc hm]
  by_cases h : n = m
  · subst h
    rw [if_pos rfl, mem_keepOwned]
    simp
  · have ht : n.data.task ≠ m.data.task := fun e => h (hb.node_unique_id hn hm (by rw [e]))
    simp [h, ht]

lemma sweepOne_tasksByUnit :
    (sweepOne upcId w (upcId m.data.task, m.addr)).board.tasksByUnit u = some n.addr
      ↔ w.board.tasksByUnit u = some n.addr ∧ (n = m → u ∈ (w.heap n.data.task).units) := by
  have hu := sweepOne_units hb hc hm hm u
  rw [sweepOne_node hb hm] at hu ⊢
  refine (rebuild_eq_some ..).trans ?_
  rw [show u ∈ ((plainTasks P M U).get (w.turn m.data.task) m.data.task).units ↔ _ from hu]
  by_cases h : n = m
  · subst h
    simp [and_comm]
  · have ha : n.addr ≠ m.addr := fun e => h (hb.node_unique hn hm e)
    simp only [ha, h, false_and, ne_eq, not_false_eq_true, true_and, false_or, IsEmpty.forall_iff,
      and_true, forall_const, and_iff_right_iff_imp, not_and]
    intro e _ e'
    rw [e] at e'
    exact ha (Option.some.inj e')

end

lemma cancelledCleared_sweepOne (hm : m ∈ w.board.tasks) :
    CancelledCleared (sweepOne upcId w (upcId m.data.task, m.addr)).heap := by
  intro p hp
  rw [sweepOne_heap hb hc hm] at hp ⊢
  by_cases h : p = m.data.task
  · rw [if_pos h] at hp ⊢
    unfold keepOwned
    rw [hc p hp]
    rfl
  · rw [if_neg h] at hp ⊢
    exact hc p hp

end

/-! ## the whole sweep -/

/-- an entry is met first (`E`) or later (`X`): either way both listings are intersected once -/
lemma intersect_once {A T E X : Prop} (hexcl : E → ¬ X) :
    ((A ∧ (E → T)) ∧ (X → T ∧ (E → A))) ↔ A ∧ (E ∨ X → T) := by
  by_cases hE : E
  · simp [hE, hexcl hE]
  · simp [hE]

lemma foldl_sweepOne_owners {es : List (UpcId × Iter)} (hb : Exact upcId w.board)
    (hc : CancelledCleared w.heap) (hs : Stretch upcId w es) :
    CancelledCleared (es.foldl (sweepOne upcId) w).heap ∧ ∀ n ∈ w.board.tasks, ∀ u : U,
      (u ∈ ((es.foldl (sweepOne upcId) w).heap n.data.task).units
        ↔ u ∈ (w.heap n.data.task).units ∧
          (upcId n.data.task ∈ es.map Prod.fst → w.board.tasksByUnit u = some n.addr)) ∧
      ((es.foldl (sweepOne upcId) w).board.tasksByUnit u = some n.addr
        ↔ w.board.tasksByUnit u = some n.addr ∧
          (upcId n.data.task ∈ es.map Prod.fst → u ∈ (w.heap n.data.task).units)) := by
  induction es generalizing w with
  | nil => exact ⟨hc, fun n hn u => by simp⟩
  | cons e es ih =>
    obtain ⟨m, hm, rfl, hfirst⟩ := hs.head
    obtain ⟨hc', ih⟩ := ih (exact_sweepOne hb _) (cancelledCleared_sweepOne hb hc hm) hs.tail
    refine ⟨hc', fun n hn u => ?_⟩
    obtain ⟨h1, h2⟩ := ih n (by rwa [sweepOne_tasks]) u
    have hmem : upcId n.data.task ∈ upcId m.data.task :: es.map Prod.fst
        ↔ n = m ∨ upcId n.data.task ∈ es.map Prod.fst := by
      rw [mem_cons]
      exact or_congr_left ⟨hb.node_unique_id hn hm, fun e => by rw [e]⟩
    have hexcl : n = m → upcId n.data.task ∉ es.map Prod.fst := fun e => by rw [e]; exact hfirst
    rw [sweepOne_units hb hc hn hm, sweepOne_tasksByUnit hb hc hn hm] at h1 h2
    rw [foldl_cons, map_cons, h1, h2, hmem]
    exact ⟨intersect_once hexcl, intersect_once hexcl⟩

/-! ## one update -/

section
variable (hb : Exact upcId w.board) (hc : CancelledCleared w.heap) (ds : List U)
include hb hc ds

/-- **An update intersects the two listings of every task it keeps, and takes the dead out.** -/
theorem update_units (hn : n ∈ (w.update upcId ds).board.tasks) (u : U) :
    (u ∈ ((w.update upcId ds).heap n.data.task).units
      ↔ u ∈ (w.heap n.data.task).units ∧ u ∉ ds ∧ w.board.tasksByUnit u = some n.addr) ∧
    ((w.update upcId ds).board.tasksByUnit u = some n.addr
      ↔ u ∈ (w.heap n.data.task).units ∧ u ∉ ds ∧ w.board.tasksByUnit u = some n.addr) := by
  have hb' := exact_cleared hb ds
  rw [update_eq, foldl_sweepOne_tasks] at hn
  have hmem : upcId n.data.task ∈ (w.cleared upcId ds).board.tasksById.rentries.map Prod.fst :=
    mem_map_of_mem (mem_rentries_node hb' hn)
  obtain ⟨h1, h2⟩ := (foldl_sweepOne_owners hb' hc (stretch_rentries hb')).2 n hn u
  have hu := cleared_tasksByUnit hb ds hn u
  rw [update_eq, h1, h2, hu]
  exact ⟨and_congr_right fun _ => ⟨fun h => h hmem, fun h _ => h⟩,
    and_comm.trans (and_congr_left fun _ => ⟨fun h => h hmem, fun h _ => h⟩)⟩

lemma cancelledCleared_update : CancelledCleared (w.update upcId ds).heap :=
  (foldl_sweepOne_owners (exact_cleared hb ds) hc (stretch_rentries (exact_cleared hb ds))).1

end

end World

/-! ## runs -/

def plainSys (upcId : P → UpcId) : Sys (World (plainTasks P M U)) (Op (plainTasks P M U)) where
  run := Op.run upcId
  ok := fun w o => o.Ok w ∧ ∀ h : P → Task U, o = .write h → CancelledCleared h

lemma cancelledCleared_run {w : World (plainTasks P M U)} (hb : Exact upcId w.board)
    (hc : CancelledCleared w.heap) (o : Op (plainTasks P M U))
    (hw : ∀ h : P → Task U, o = .write h → CancelledCleared h) :
    CancelledCleared (o.run upcId w).heap := by
  cases o with
  | update ds => exact World.cancelledCleared_update hb hc ds
  | write h => exact hw h rfl
  | postTask | markTaskForRemoval | updateTasksByUnit => exact hc

namespace Op

/-- which task names a unit after the operation, given which one did before -/
def names (upcId : P → UpcId) (w : World O) (g : U → Option P) : Op O → U → Option P
  | .postTask _ p _ _ => fun u =>
    if w.board.tasksById.find (upcId p) = none ∧ u ∈ (O.get w.heap p).units then some p else g u
  | .updateTasksByUnit p => fun u => if u ∈ (O.get w.heap p).units then some p else g u
  | .update ds => fun u => if u ∈ ds then none else g u
  | _ => g

end Op

/-- the task of the last `postTask` or `updateTasksByUnit` that names the unit since it last died -/
def lastNaming {O : Objects P M U} (upcId : P → UpcId) :
    World O → (U → Option P) → List (Op O) → U → Option P
  | _, g, [] => g
  | w, g, o :: os => lastNaming upcId (o.run upcId w) (o.names upcId w g) os

/-- the unit index follows the last naming -/
def Follows {O : Objects P M U} (w : World O) (g : U → Option P) : Prop :=
  ∀ n ∈ w.board.tasks, ∀ u, w.board.tasksByUnit u = some n.addr → g u = some n.data.task

section
variable {O : Objects P M U} {w : World O} (hb : Exact upcId w.board) (hg : Follows w g)
include hb hg

lemma follows_postTask (frame : Int) (p : P) (owner : M) (ar : Bool) :
    Follows ((Op.postTask frame p owner ar : Op O).run upcId w)
      ((Op.postTask frame p owner ar : Op O).names upcId w g) := by
  intro n hn u hu
  simp only [Op.run] at hn hu
  simp only [Op.names]
  cases hf : w.board.tasksById.find (upcId p) with
  | some it =>
    rw [postTask_present _ _ _ _ _ hf] at hn hu
    simpa using hg n hn u hu
  | none =>
    simp only [postTask, hf] at hn hu
    simp only [true_and]
    rcases (assignRefs_eq_some ..).mp hu with ⟨hus, ha⟩ | ⟨hus, hold⟩
    · rw [if_pos hus]
      rcases mem_append.mp hn with hn | hn
      · exact absurd ha (Nat.ne_of_lt (hb.fresh n hn).2)
      · rw [mem_singleton.mp hn]
    · rw [if_neg hus]
      rcases mem_append.mp hn with hn | hn
      · exact hg n hn u hold
      · obtain ⟨m, hm, ha⟩ := hb.units u _ hold
        rw [mem_singleton.mp hn] at ha
        exact absurd ha (Nat.ne_of_lt (hb.fresh m hm).2)

lemma follows_updateTasksByUnit {p : P} (hp : w.board.OnBoard p) :
    Follows ((Op.updateTasksByUnit p : Op O).run upcId w)
      ((Op.updateTasksByUnit p : Op O).names upcId w g) := by
  obtain ⟨m, hm, rfl⟩ := hp
  intro n hn u hu
  simp only [Op.run, hb.updateTasksByUnit_eq hm] at hn hu
  simp only [Op.names]
  rcases (rebuild_eq_some ..).mp hu with ⟨ha, hus⟩ | ⟨_, hus, hold⟩
  · rw [if_pos hus, hb.node_unique hn hm ha]
  · rw [if_neg hus]
    exact hg n hn u hold

end

variable {w : World (plainTasks P M U)}

lemma follows_update (hb : Exact upcId w.board)
    (hc : CancelledCleared w.heap) (hg : Follows w g) (ds : List U) :
    Follows (w.update upcId ds) (fun u => if u ∈ ds then none else g u) := by
  intro n hn u hu
  obtain ⟨_, hnot, hold⟩ := (World.update_units hb hc ds hn u).2.mp hu
  show (if u ∈ ds then none else g u) = _
  rw [if_neg hnot]
  exact hg n ((World.mem_update_tasks hb ds n).mp hn).1 u hold

/-- exactness, cleared cancelled tasks and an index that follows the last naming: one operation -/
structure Owned (upcId : P → UpcId) (w : World (plainTasks P M U)) (g : U → Option P) : Prop where
  exact_ : Exact upcId w.board
  cleared : CancelledCleared w.heap
  follows : Follows w g

lemma owned_run (h : Owned upcId w g) (o : Op (plainTasks P M U))
    (ho : (plainSys upcId).ok w o) : Owned upcId (o.run upcId w) (o.names upcId w g) := by
  refine ⟨exact_run h.exact_ o ho.1, cancelledCleared_run h.exact_ h.cleared o ho.2, ?_⟩
  cases o with
  | postTask frame p owner ar => exact follows_postTask h.exact_ h.follows frame p owner ar
  | updateTasksByUnit p => exact follows_updateTasksByUnit h.exact_ h.follows ho.1
  | update ds => exact follows_update h.exact_ h.cleared h.follows ds
  | markTaskForRemoval | write => exact h.follows

lemma owned_out (h : Owned upcId w g)
    (os : List (Op (plainTasks P M U))) (hl : (plainSys upcId).Legal w os) :
    Owned upcId ((plainSys upcId).out w os) (lastNaming upcId w g os) := by
  induction os generalizing w g with
  | nil => exact h
  | cons o os ih => exact ih (owned_run h o hl.1) hl.2

lemma owned_empty {h₀ : P → Task U} (hc : CancelledCleared h₀) :
    Owned upcId (⟨Board.empty, h₀⟩ : World (plainTasks P M U)) (fun _ => none) :=
  ⟨exact_empty, hc, nofun⟩

/-- **Right after an update a task lists a unit if and only if the index refers to the task.  So a
unit is kept by the task it was last assigned to since it died, or by none.**  -/
theorem unit_owned_by_last_named (upcId : P → UpcId) (h₀ : P → Task U) (hc : CancelledCleared h₀)
    (os : List (Op (plainTasks P M U))) (hl : (plainSys upcId).Legal ⟨Board.empty, h₀⟩ os)
    (ds : List U) :
    let w := ((plainSys upcId).out ⟨Board.empty, h₀⟩ os).update upcId ds
    (∀ n ∈ w.board.tasks, ∀ u,
      u ∈ (w.heap n.data.task).units ↔ w.board.tasksByUnit u = some n.addr) ∧
    (∀ n ∈ w.board.tasks, ∀ n' ∈ w.board.tasks, n ≠ n' →
      ∀ u ∈ (w.heap n.data.task).units, u ∉ (w.heap n'.data.task).units) ∧
    (∀ n ∈ w.board.tasks, ∀ u ∈ (w.heap n.data.task).units, u ∉ ds ∧
      lastNaming upcId (⟨Board.empty, h₀⟩ : World (plainTasks P M U)) (fun _ => none) os u
        = some n.data.task) := by
  intro w
  have ho := owned_out (owned_empty hc) os hl
  have hw : Exact upcId w.board := World.exact_update ho.exact_ ds
  have hiff : ∀ n ∈ w.board.tasks, ∀ u,
      u ∈ (w.heap n.data.task).units ↔ w.board.tasksByUnit u = some n.addr := by
    intro n hn u
    obtain ⟨h1, h2⟩ := World.update_units ho.exact_ ho.cleared ds hn u
    exact h1.trans h2.symm
  refine ⟨hiff, ?_, ?_⟩
  · intro n hn n' hn' hne u hu hu'
    have h := (hiff n hn u).mp hu
    have h' := (hiff n' hn' u).mp hu'
    rw [h] at h'
    exact hne (hw.node_unique hn hn' (Option.some.inj h'))
  · intro n hn u hu
    obtain ⟨_, hnot, hold⟩ := (World.update_units ho.exact_ ho.cleared ds hn u).1.mp hu
    exact ⟨hnot, ho.follows n ((World.mem_update_tasks ho.exact_ ds n).mp hn).1 u hold⟩

theorem later_task_keeps_unit :
    let w := ((plainSys (M := Nat) (fun p : Nat => (p : Int))).out
      ⟨Board.empty, fun _ => ⟨.ongoing, [5, 6]⟩⟩
      [.postTask 0 1 0 true, .postTask 0 2 0 true]).update (fun p : Nat => (p : Int)) [6]
    5 ∉ (w.heap 1).units ∧ 6 ∉ (w.heap 1).units ∧ 5 ∈ (w.heap 2).units ∧ 6 ∉ (w.heap 2).units := by
  intro w
  have h := unit_owned_by_last_named (M := Nat) (fun p : Nat => (p : Int))
    (fun _ => ⟨.ongoing, [5, 6]⟩) (fun p hp => by cases hp)
    [.postTask 0 1 0 true, .postTask 0 2 0 true]
    ⟨⟨trivial, fun _ e => by cases e⟩, ⟨trivial, fun _ e => by cases e⟩, trivial⟩ [6]
  have h1 : (⟨1, ⟨1, 0, true, 0⟩⟩ : Node Nat Nat) ∈ w.board.tasks := mem_cons_self ..
  have h2 : (⟨2, ⟨2, 0, true, 0⟩⟩ : Node Nat Nat) ∈ w.board.tasks :=
    mem_cons_of_mem _ (mem_cons_self ..)
  refine ⟨fun hu => ?_, fun hu => ?_, (h.1 _ h2 5).mpr rfl, fun hu => ?_⟩
  · exact absurd (h.2.2 _ h1 5 hu).2 (by decide)
  · exact (h.2.2 _ h1 6 hu).1 (by decide)
  · exact (h.2.2 _ h2 6 hu).1 (by decide)

/-- **A task may name a unit that died before.**  The update takes out only the units that died since
the last one. -/
theorem dead_unit_owned :
    let w : World (plainTasks Nat Nat Nat) := ⟨Board.empty, fun _ => ⟨.ongoing, [5]⟩⟩
    let os := [.update [5], .postTask 0 1 0 true]
    CancelledCleared w.heap ∧ (plainSys (fun p : Nat => (p : Int))).Legal w os ∧
      let w' := ((plainSys (fun p : Nat => (p : Int))).out w os).update (fun p : Nat => (p : Int)) []
      (⟨1, ⟨1, 0, true, 0⟩⟩ : Node Nat Nat) ∈ w'.board.tasks ∧ 5 ∈ (w'.heap 1).units := by
  intro w os
  refine ⟨nofun, ⟨⟨trivial, nofun⟩, ⟨trivial, nofun⟩, trivial⟩, ?_, ?_⟩
  · exact mem_cons_self ..
  · decide

end TorchCraft
