import Mathlib.Data.Finset.Card
import Mathlib.Data.List.AList
import TorchCraft.Controller.Model
import TorchCraft.Lib.Sys
import TorchCraft.Utils.Algorithms

/-!
# The gatherer

`GathererController` is a shared controller whose workers are assigned to resources.  Four containers
have to agree: `units_` of the controller, `workers` of the assignments, and the two maps of
`ResourceWorkers`.  They are written by the tasks of the controller, which add and remove units, and
by `GathererAssignments::step`, which assigns them.

* `ResourceWorkers`  which worker gathers from which resource, as a map and as sets;
* `GathererAssignments`  the workers with their state, `addUnit`, `removeUnit`, `step`;
* `GathererController`  `ControllerBase` with the assignments.

A unit is any type with decidable equality; there is no null unit, so the tests for null pointers are
left out.  Unordered maps are lists of entries with distinct keys, in some order.  Distances, scores
and the order in which the workers are updated are chosen freely by the `Situation` of each step.
-/

namespace TorchCraft.Gatherer
open Function
open Lib (Sys)
open Utils (Scoring getBestScoreCopy)

structure UnitData where
  dead : Bool := false
  gone : Bool := false
  isMine : Bool := false
  completed : Bool := false
  remainingBuildTrainTime : Int := 0
  isWorker : Bool := false
  isResourceContainer : Bool := false
  isMinerals : Bool := false
  isGas : Bool := false
  isRefinery : Bool := false

def isValidResource (u : UnitData) : Bool :=
  if u.dead then false
  else if !u.isResourceContainer then false
  else if u.isMinerals then !u.gone
  else u.isMine && (u.completed || decide (u.remainingBuildTrainTime < 24 * 2))

variable {P M U Q S : Type} [DecidableEq P] [DecidableEq M] [DecidableEq U]

structure ResourceWorkers (U : Type) where
  resourceByWorker : U → Option U := fun _ => none
  workersByResource : AList (fun _ : U => Finset U) := ∅

namespace ResourceWorkers

variable (a : ResourceWorkers U)

def getResource (worker : U) : Option U := a.resourceByWorker worker

def containsResource (resource : U) : Bool :=
  (a.workersByResource.lookup resource).isSome

def countWorkers (resource : U) : Nat :=
  match a.workersByResource.lookup resource with
  | some ws => ws.card
  | none => 0

def unassignWorker (worker : U) : ResourceWorkers U where
  resourceByWorker := update a.resourceByWorker worker none
  workersByResource :=
    match a.getResource worker with
    | none => a.workersByResource
    | some resource =>
      match a.workersByResource.lookup resource with
      | none => a.workersByResource
      | some ws => a.workersByResource.insert resource (ws.erase worker)

def assignWorker (worker resource : U) : ResourceWorkers U :=
  let a := a.unassignWorker worker
  match a.workersByResource.lookup resource with
  | none => a
  | some ws =>
    { resourceByWorker := update a.resourceByWorker worker (some resource)
      workersByResource := a.workersByResource.insert resource (insert worker ws) }

def includeResource (resource : U) : ResourceWorkers U :=
  if a.containsResource resource then a
  else { a with workersByResource := a.workersByResource.insert resource ∅ }

def excludeResource (resource : U) : ResourceWorkers U :=
  match a.workersByResource.lookup resource with
  | none => a
  | some ws =>
    { resourceByWorker := fun worker => if worker ∈ ws then none else a.resourceByWorker worker
      workersByResource := a.workersByResource.erase resource }

end ResourceWorkers

def kForever : Int := 24 * 60 * 60 * 24 * 7

structure WorkerState where
  framesSinceUpdate : Int := kForever
  cooldownUntil : Int := -kForever

/-- what a step of the assignments reads apart from the units, and what it computes in floating
point -/
structure Situation (U S : Type) where
  currentFrame : Int := 0
  liveUnits : List U := []
  /-- `gatherer_worker_updates` -/
  workerUpdates : Int := 15
  /-- the share of the workers that should gather gas, rounded -/
  gasTarget : Nat → Int := fun n => n
  minGasWorkers : Option Int := none
  maxGasWorkers : Option Int := none
  /-- is the worker closer than 4 walktiles to the resource -/
  near : U → U → Bool := fun _ _ => false
  /-- `scoreResource` for a worker, its resource so far, whether more gas is wanted, a resource and
  the number of its workers -/
  score : U → Option U → Bool → U → Nat → S
  /-- where the cooldown of a worker ends that is sent elsewhere now -/
  cooldownUntil : U → Int := fun _ => 0
  /-- `std::sort` by `workerSorter` -/
  sort : List U → List U := fun l => l
  sort_perm : ∀ l, (sort l).Perm l := by exact fun l => List.Perm.refl l

structure GathererAssignments (U : Type) where
  resourceWorkers : ResourceWorkers U := {}
  workers : AList (fun _ : U => WorkerState) := ∅

namespace GathererAssignments

variable (a : GathererAssignments U) (u : U)

def state : WorkerState := (a.workers.lookup u).getD {}

def touch (f : WorkerState → WorkerState) (u : U) (a : GathererAssignments U) :
    GathererAssignments U :=
  { a with workers := a.workers.insert u (f (a.state u)) }

def addUnit : GathererAssignments U := a.touch id u

def removeUnit : GathererAssignments U where
  workers := a.workers.erase u
  resourceWorkers := a.resourceWorkers.unassignWorker u

section step
variable (C : Scoring S) (unit : U → UnitData) (f : Situation U S)

/-- the first loops of `step`: resources that are not valid go, valid live ones come -/
def updateResources (a : ResourceWorkers U) : ResourceWorkers U :=
  let resourcesToRemove := a.workersByResource.keys.filter fun r => !isValidResource (unit r)
  f.liveUnits.foldl (fun a u => if isValidResource (unit u) then a.includeResource u else a)
    (resourcesToRemove.foldl ResourceWorkers.excludeResource a)

variable (a : GathererAssignments U)

def entries : List ((_ : U) × Finset U) :=
  a.resourceWorkers.workersByResource.entries

def gasWorkersNow : Int :=
  (a.entries.map fun e => if (unit e.1).isGas then (e.2.card : Int) else 0).sum

def gasWorkersMax : Int :=
  let target := f.gasTarget a.workers.keys.length
  let target := f.maxGasWorkers.elim target (min target)
  let target := f.minGasWorkers.elim target (max target)
  min target (a.entries.map fun e => if (unit e.1).isRefinery then (3 : Int) else 0).sum

structure Round (U : Type) where
  assignments : GathererAssignments U
  gasWorkersNow : Int
  workerUpdates : Int

def isGas (r : Option U) : Bool := r.any fun r => (unit r).isGas

/-- a worker that is about to reach its minerals is not interrupted -/
def aboutToReach (worker : U) : Bool :=
  (a.resourceWorkers.getResource worker).any fun r =>
    (unit r).isMinerals && f.near worker r && decide (a.resourceWorkers.countWorkers r < 4)

def reassign (gasWorkersMax : Int) (p : Round U) (worker : U) : Round U :=
  let before := p.assignments.resourceWorkers.getResource worker
  let a := p.assignments.touch (fun s => { s with framesSinceUpdate := 0 }) worker
  let a := { a with resourceWorkers := a.resourceWorkers.unassignWorker worker }
  let gasNow := if isGas unit before then p.gasWorkersNow - 1 else p.gasWorkersNow
  let score := f.score worker before (decide (gasNow < gasWorkersMax))
  match getBestScoreCopy C (fun e : (_ : U) × Finset U => score e.1 e.2.card) a.entries with
  | none => { p with assignments := a, gasWorkersNow := gasNow }
  | some e =>
    let a := { a with resourceWorkers := a.resourceWorkers.assignWorker worker e.1 }
    if before = some e.1 then { p with assignments := a, gasWorkersNow := gasNow }
    else
      -- a worker that leaves gas is subtracted a second time here
      { p with
        assignments := a.touch (fun s => { s with cooldownUntil := f.cooldownUntil worker }) worker
        gasWorkersNow := gasNow - (if isGas unit before then 1 else 0)
          + if isGas unit (some e.1) then 1 else 0 }

def updateWorker (respectCooldown : Bool) (gasWorkersMax : Int) (p : Round U) (worker : U) :
    Round U :=
  let p := { p with workerUpdates := p.workerUpdates + 1 }
  if p.workerUpdates ≥ f.workerUpdates then
    { p with
      assignments := p.assignments.touch
        (fun s => { s with framesSinceUpdate := s.framesSinceUpdate + 1 }) worker }
  else if respectCooldown && decide ((p.assignments.state worker).cooldownUntil > f.currentFrame)
  then p
  else if aboutToReach unit f p.assignments worker then p
  else reassign C unit f gasWorkersMax p worker

/-- the flag `respectCooldown` falls when two workers are compared and gas is short -/
def step : GathererAssignments U :=
  let a := { a with resourceWorkers := updateResources unit f a.resourceWorkers }
  let gasNow := a.gasWorkersNow unit
  let gasMax := a.gasWorkersMax unit f
  let respectCooldown := !(decide (gasNow < gasMax) && decide (2 ≤ a.workers.keys.length))
  let workersToUpdate := f.sort a.workers.keys
  (workersToUpdate.foldl (updateWorker C unit f respectCooldown gasMax) ⟨a, gasNow, 0⟩).assignments

end step
end GathererAssignments

structure GathererController (U Q : Type) extends ControllerBase U Q where
  assignments : GathererAssignments U := {}

namespace GathererController

def addUnit (c : GathererController U Q) (u : U) (id : UpcId) : GathererController U Q where
  toControllerBase := c.toControllerBase.addUnit u id
  assignments := c.assignments.addUnit u

/-- the unit leaves the assignments also if it is not controlled for `id` -/
def removeUnit (c : GathererController U Q) (u : U) (id : UpcId) : GathererController U Q where
  toControllerBase := c.toControllerBase.removeUnit u id
  assignments := c.assignments.removeUnit u

def keepUnit (u : UnitData) : Bool :=
  if u.isWorker then
    if u.dead then false
    else if !u.isMine then false
    else true
  else false

def release (id : UpcId) (c : GathererController U Q) (u : U) : GathererController U Q :=
  if c.isControllingUnitWith u id then c.removeUnit u id else c

end GathererController

/-- the tasks of the controller, the controller, and what the game says about the units -/
structure Heap (P U Q : Type) where
  tasks : P → Task U := fun _ => {}
  ctrl : GathererController U Q := { toControllerBase := .empty }
  unit : U → UnitData := fun _ => {}

namespace Heap
variable (upcId : P → UpcId)

def construct (h : Heap P U Q) (p : P) (us : List U) : Heap P U Q :=
  { h with
    tasks := update h.tasks p ⟨.ongoing, us⟩
    ctrl := us.foldl (fun c u => c.addUnit u (upcId p)) h.ctrl }

/-- the loop of `SharedControllerTask::update` over the unit set -/
def dropUnits (id : UpcId) (remove : U → Bool) :
    List U → GathererController U Q → List U × GathererController U Q
  | [], c => ([], c)
  | u :: us, c =>
    if remove u then dropUnits id remove us (c.release id u)
    else
      let r := dropUnits id remove us c
      (u :: r.1, r.2)

def remove (b : Board P M U) (h : Heap P U Q) (p : P) (u : U) : Bool :=
  if b.taskWithUnit u ≠ some p then true
  else if !GathererController.keepUnit (h.unit u) then true
  else false

def updateTask (b : Board P M U) (h : Heap P U Q) (p : P) : Heap P U Q :=
  if (h.tasks p).status ≠ .ongoing then h
  else
    let r := dropUnits (upcId p) (h.remove b p) (h.tasks p).units h.ctrl
    { h with
      tasks := update h.tasks p ⟨if r.1.isEmpty then .failure else .ongoing, r.1⟩
      ctrl := r.2 }

def cancel (h : Heap P U Q) (p : P) : Heap P U Q :=
  if (h.tasks p).status ≠ .ongoing then h
  else
    { h with
      tasks := update h.tasks p ⟨.cancelled, []⟩
      ctrl := (h.tasks p).units.foldl (GathererController.release (upcId p)) h.ctrl }

def step (C : Scoring S) (h : Heap P U Q) (f : Situation U S) : Heap P U Q :=
  { h with ctrl := { h.ctrl with assignments := h.ctrl.assignments.step C h.unit f } }

end Heap

inductive Op (P M U S : Type)
  | observe (unit : U → UnitData)
  | construct (p : P) (us : List U)
  | updateTask (b : Board P M U) (p : P)
  | cancel (p : P)
  | step (f : Situation U S)

/-- tasks of one controller in any order, interleaved with its steps -/
def gathererSys (upcId : P → UpcId) (C : Scoring S) : Sys (Heap P U Q) (Op P M U S) where
  run
    | h, .observe unit => { h with unit := unit }
    | h, .construct p us => h.construct upcId p us
    | h, .updateTask b p => h.updateTask upcId b p
    | h, .cancel p => h.cancel upcId p
    | h, .step f => h.step C f
  ok _ _ := True

end TorchCraft.Gatherer
