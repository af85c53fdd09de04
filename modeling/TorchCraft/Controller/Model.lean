import TorchCraft.Board.Model

/-!
# Controllers that share their units with the board

A `SharedController` keeps a map from the units it controls to the UPC ids of the tasks it controls
them for.  The map is written from three places: the constructor of a `SharedControllerTask`, the
task's update in the sweep of the board, and its cancellation.

* `ControllerBase`  `units_` and `upcs_`, with `addUnit` and `removeUnit`;
* `SharedHeap`  the task objects, the controller and the two flags of a unit that
  `keepUnit` reads;
* `SharedHeap.construct`, `SharedHeap.updateTask`, `SharedHeap.cancel`  `SharedControllerTask`.
-/

set_option linter.unusedSectionVars false

namespace TorchCraft
open Function

structure ControllerBase (U Q : Type) where
  units : U → Option UpcId
  upcs : U → Option (UpcId × Q)

variable (id : UpcId)

namespace ControllerBase
variable {U Q : Type} [DecidableEq U]

def empty : ControllerBase U Q := ⟨fun _ => none, fun _ => none⟩

variable (c : ControllerBase U Q)

def addUnit (u : U) (id : UpcId) : ControllerBase U Q :=
  { c with units := update c.units u (some id) }

def isControllingUnitWith (u : U) (id : UpcId) : Bool :=
  decide (c.units u = some id)

/-- a unit that is not controlled for `id` is left alone; with the unit goes its scheduled UPC -/
def removeUnit (u : U) (id : UpcId) : ControllerBase U Q :=
  if !c.isControllingUnitWith u id then c
  else ⟨update c.units u none, update c.upcs u none⟩

def release (id : UpcId) (c : ControllerBase U Q) (u : U) : ControllerBase U Q :=
  if c.isControllingUnitWith u id then c.removeUnit u id else c

lemma release_units (v u : U) :
    (c.release id v).units u = if u = v ∧ c.units u = some id then none else c.units u := by
  unfold release removeUnit isControllingUnitWith
  by_cases hc : c.units v = some id
  · by_cases hu : u = v <;> simp [hu, hc]
  · by_cases hu : u = v <;> simp [hu, hc]

lemma foldl_release_units (us : List U) (c : ControllerBase U Q) (u : U) :
    (us.foldl (release id) c).units u
      = if u ∈ us ∧ c.units u = some id then none else c.units u := by
  rw [ite_and]
  refine Lib.Loops.foldl_at (fun c => c.units u) (fun o => if o = some id then none else o)
    (fun o => ?_) (fun c v => (release_units ..).trans (ite_and ..)) us c
  split <;> simp_all

lemma foldl_addUnit_units (us : List U) (c : ControllerBase U Q) (u : U) :
    (us.foldl (fun c u => c.addUnit u id) c).units u = if u ∈ us then some id else c.units u :=
  Lib.Loops.foldl_at (fun c => c.units u) (fun _ => some id) (fun _ => rfl)
    (fun _ _ => update_apply ..) us c

end ControllerBase

structure SharedHeap (P U Q : Type) where
  tasks : P → Task U
  ctrl : ControllerBase U Q
  dead : U → Bool
  isMine : U → Bool

namespace SharedHeap
variable {P M U Q : Type} [DecidableEq P] [DecidableEq M] [DecidableEq U]

def init (dead isMine : U → Bool) : SharedHeap P U Q :=
  ⟨fun _ => {}, ControllerBase.empty, dead, isMine⟩

def keepUnit (h : SharedHeap P U Q) (u : U) : Bool :=
  if h.dead u then false
  else if !h.isMine u then false
  else true

def construct (upcId : P → UpcId) (h : SharedHeap P U Q) (p : P) (us : List U) : SharedHeap P U Q :=
  { h with
    tasks := update h.tasks p ⟨.ongoing, us⟩
    ctrl := us.foldl (fun c u => c.addUnit u (upcId p)) h.ctrl }

/-- the loop of `SharedControllerTask::update` over the unit set -/
def dropUnits (id : UpcId) (remove : U → Bool) :
    List U → ControllerBase U Q → List U × ControllerBase U Q
  | [], c => ([], c)
  | u :: us, c =>
    if remove u then dropUnits id remove us (c.release id u)
    else
      let r := dropUnits id remove us c
      (u :: r.1, r.2)

def remove (b : Board P M U) (h : SharedHeap P U Q) (p : P) (u : U) : Bool :=
  if b.taskWithUnit u ≠ some p then true
  else if !h.keepUnit u then true
  else false

def updateTask (upcId : P → UpcId) (b : Board P M U) (h : SharedHeap P U Q) (p : P) :
    SharedHeap P U Q :=
  if (h.tasks p).status ≠ .ongoing then h
  else
    let r := dropUnits (upcId p) (h.remove b p) (h.tasks p).units h.ctrl
    { h with
      tasks := update h.tasks p ⟨if r.1.isEmpty then .failure else .ongoing, r.1⟩
      ctrl := r.2 }

def cancel (upcId : P → UpcId) (h : SharedHeap P U Q) (p : P) : SharedHeap P U Q :=
  if (h.tasks p).status ≠ .ongoing then h
  else
    { h with
      tasks := update h.tasks p ⟨.cancelled, []⟩
      ctrl := (h.tasks p).units.foldl (ControllerBase.release (upcId p)) h.ctrl }

/-- code of other kinds writes to its own task objects -/
def writeOthers (shared : P → Bool) (h : SharedHeap P U Q) (t : P → Task U) : SharedHeap P U Q :=
  { h with tasks := fun p => if shared p then h.tasks p else t p }

lemma dropUnits_units (remove : U → Bool) (us : List U) (c : ControllerBase U Q) :
    (dropUnits id remove us c).1 = us.filter (fun u => !remove u) := by
  induction us generalizing c with
  | nil => rfl
  | cons u us ih =>
    unfold dropUnits
    cases hr : remove u with
    | true | false => simp [hr, ih]

lemma remove_eq_false (b : Board P M U) (h : SharedHeap P U Q) (p : P) (u : U) :
    h.remove b p u = false ↔ b.taskWithUnit u = some p ∧ h.keepUnit u := by
  unfold remove
  by_cases hb : b.taskWithUnit u = some p <;> simp [hb]

lemma dropUnits_ctrl (remove : U → Bool) (us : List U) (c : ControllerBase U Q) :
    (dropUnits id remove us c).2 = (us.filter remove).foldl (ControllerBase.release id) c := by
  induction us generalizing c with
  | nil => rfl
  | cons u us ih =>
    unfold dropUnits
    cases hr : remove u with
    | true | false => simp [hr, ih]

def keptUnits (b : Board P M U) (h : SharedHeap P U Q) (p : P) : List U :=
  (h.tasks p).units.filter (fun u => !h.remove b p u)

lemma mem_keptUnits (b : Board P M U) (h : SharedHeap P U Q) (p : P) (u : U) :
    u ∈ h.keptUnits b p ↔
      u ∈ (h.tasks p).units ∧ b.taskWithUnit u = some p ∧ h.keepUnit u := by
  rw [keptUnits, List.mem_filter, Bool.not_eq_true', remove_eq_false]

variable (upcId : P → UpcId)

section
variable (b : Board P M U) (h : SharedHeap P U Q) {p : P}
include b h

lemma updateTask_tasks (hs : (h.tasks p).status = .ongoing) :
    (h.updateTask upcId b p).tasks = update h.tasks p
      ⟨if (h.keptUnits b p).isEmpty then .failure else .ongoing, h.keptUnits b p⟩ := by
  unfold updateTask keptUnits
  rw [if_neg (not_not.mpr hs), ← dropUnits_units (upcId p) (h.remove b p) _ h.ctrl]

lemma updateTask_ctrl
    (hs : (h.tasks p).status = .ongoing) (u : U) : (h.updateTask upcId b p).ctrl.units u
      = if (u ∈ (h.tasks p).units ∧ u ∉ h.keptUnits b p) ∧ h.ctrl.units u = some (upcId p) then none
        else h.ctrl.units u := by
  have hgone : u ∈ (h.tasks p).units.filter (h.remove b p) ↔
      u ∈ (h.tasks p).units ∧ u ∉ h.keptUnits b p := by
    rw [keptUnits, List.mem_filter, List.mem_filter]
    cases h.remove b p u <;> simp
  unfold updateTask
  rw [if_neg (not_not.mpr hs)]
  show (dropUnits (upcId p) (h.remove b p) (h.tasks p).units h.ctrl).2.units u = _
  rw [dropUnits_ctrl, ControllerBase.foldl_release_units]
  simp only [hgone]

lemma updateTask_finished (hs : (h.tasks p).status ≠ .ongoing) : h.updateTask upcId b p = h := by
  unfold updateTask
  rw [if_pos hs]

end

lemma cancel_tasks (h : SharedHeap P U Q) {p q : P} (hq : q ≠ p) :
    (h.cancel upcId p).tasks q = h.tasks q := by
  unfold cancel
  split
  · rfl
  · exact update_of_ne hq ..

@[simp] lemma cancel_keepUnit (h : SharedHeap P U Q) (p : P) (u : U) :
    (h.cancel upcId p).keepUnit u = h.keepUnit u := by
  unfold cancel
  split <;> rfl

@[simp] lemma updateTask_keepUnit (b : Board P M U) (h : SharedHeap P U Q) (p : P) (u : U) :
    (h.updateTask upcId b p).keepUnit u = h.keepUnit u := by
  unfold updateTask
  split <;> rfl

lemma cancelAll_tasks (ps : List P) (h : SharedHeap P U Q) {q : P} (hq : q ∉ ps) :
    (ps.foldl (cancel upcId) h).tasks q = h.tasks q := by
  induction ps generalizing h with
  | nil => rfl
  | cons p ps ih =>
    rw [List.mem_cons, not_or] at hq
    rw [List.foldl_cons, ih _ hq.2, cancel_tasks upcId h hq.1]

lemma cancelAll_keepUnit (ps : List P) (h : SharedHeap P U Q) (u : U) :
    (ps.foldl (cancel upcId) h).keepUnit u = h.keepUnit u := by
  induction ps generalizing h with
  | nil => rfl
  | cons p ps ih => rw [List.foldl_cons, ih, cancel_keepUnit]

end SharedHeap

/-- the update of a task that is not of the controller, and the tasks of the controller it cancels
-/
structure OtherTasks (P M U Q : Type) where
  write : Board P M U → SharedHeap P U Q → P → P → Task U
  cancels : Board P M U → SharedHeap P U Q → P → List P

/-- the tasks for which `shared` holds are tasks of the controller -/
def sharedTasks {P M U Q : Type} [DecidableEq P] [DecidableEq M] [DecidableEq U]
    (upcId : P → UpcId) (shared : P → Bool) (others : OtherTasks P M U Q) : Objects P M U where
  H := SharedHeap P U Q
  get := fun h p => h.tasks p
  update := fun b h p =>
    if shared p then h.updateTask upcId b p
    else ((others.cancels b h p).filter shared).foldl (SharedHeap.cancel upcId)
      (h.writeOthers shared (others.write b h p))

/-- the heap of a world with these tasks -/
abbrev World.objects {P M U Q : Type} [DecidableEq P] [DecidableEq M] [DecidableEq U]
    {upcId : P → UpcId} {shared : P → Bool} {others : OtherTasks P M U Q}
    (w : World (sharedTasks upcId shared others)) : SharedHeap P U Q := w.heap

end TorchCraft
