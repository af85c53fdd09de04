import TorchCraft.Lib.OrdMap

/-!
# The task half of the blackboard

`Blackboard` keeps every posted task in one list and indexes the list three times, by UPC id, by
owning module and by unit.  All three indices hold ITERATORS into the list (`std::list` iterators
stay valid until their own node is erased), so here a node carries an address and an index holds
addresses: a dangling iterator is an address that no node has.

* `Board`  `tasks_`, its three indices, the removal list and the last seen statuses;
* `Board.postTask`, `Board.markTaskForRemoval`, `Board.updateTasksByUnit`  the operations;
* `World.update`  `Blackboard::update`: pending removals, deaths, and the sweep over the tasks by
  descending id in which each task updates itself and the unit index is rebuilt.

Logging, the timing statistics and the overlap warnings at the end of `Blackboard::update` change
nothing and are left out; the UPC half of the board is not read by any function here.
-/

namespace TorchCraft
open Function

abbrev UpcId := Int

def kRootUpcId : UpcId := 0

def kInvalidUpcId : UpcId := -1

def kFilteredUpcId : UpcId := -2

def upcString (id : UpcId) : String := "u" ++ toString id

inductive TaskStatus where
  | unknown
  | ongoing
  | success
  | cancelled
  | failure
  deriving DecidableEq, Repr

def TaskStatus.finished : TaskStatus → Bool
  | .success => true
  | .failure => true
  | .cancelled => true
  | _ => false

/-- the mutable part of a task object -/
structure Task (U : Type) where
  status : TaskStatus := .unknown
  units : List U := []

structure TaskData (P M : Type) where
  task : P
  owner : M
  autoRemove : Bool
  creationFrame : Int
  deriving DecidableEq

namespace Board

/-- the address of a list node; `tasks_.end()` is `0` -/
abbrev Iter := Nat

def endIter : Iter := 0

structure Node (P M : Type) where
  addr : Iter
  data : TaskData P M
  deriving DecidableEq

end Board
open Board Lib

structure Board (P M U : Type) where
  tasks : List (Node P M)
  tasksById : OrdMap UpcId Iter
  tasksByModule : List (M × Iter)
  tasksByUnit : U → Option Iter
  tasksToBeRemoved : List UpcId
  lastTaskStatus : UpcId → Option TaskStatus
  nextAddr : Iter

namespace Board
variable {P M U : Type} [DecidableEq P] [DecidableEq M] [DecidableEq U]

def empty : Board P M U where
  tasks := []
  tasksById := OrdMap.empty
  tasksByModule := []
  tasksByUnit := fun _ => none
  tasksToBeRemoved := []
  lastTaskStatus := fun _ => none
  nextAddr := endIter + 1

variable (b : Board P M U)

/-- `*it`; `none` for `end()` and for a dangling iterator -/
def deref (it : Iter) : Option (TaskData P M) :=
  (b.tasks.find? (fun n => decide (n.addr = it))).map Node.data

/-- the loop that erases every entry of the unit index that refers to `it` -/
def eraseRefs (m : U → Option Iter) (it : Iter) : U → Option Iter :=
  fun u => if m u = some it then none else m u

def assignRefs (m : U → Option Iter) (us : List U) (it : Iter) : U → Option Iter :=
  us.foldl (fun m u => update m u (some it)) m

/-! ## queries -/

def taskForId (id : UpcId) : Option P :=
  ((b.tasksById.find id).bind b.deref).map TaskData.task

def tasksOfModule (m : M) : List P :=
  (b.tasksByModule.filter (fun e => decide (e.1 = m))).filterMap
    (fun e => (b.deref e.2).map TaskData.task)

def taskWithUnit (u : U) : Option P :=
  ((b.tasksByUnit u).bind b.deref).map TaskData.task

def taskWithUnitOfModule (u : U) (m : M) : Option P :=
  (((b.tasksByUnit u).bind b.deref).filter (fun d => decide (d.owner = m))).map TaskData.task

def lastStatusOfTask (id : UpcId) : TaskStatus :=
  (b.lastTaskStatus id).getD .unknown

/-! ## operations -/

variable (upcId : P → UpcId)

/-- `postTask` of a task that lists `units`; the exception comes with the board it leaves behind -/
def postTask (currentFrame : Int) (b : Board P M U) (p : P) (units : List U)
    (owner : M) (autoRemove : Bool) : Except String Unit × Board P M U :=
  match b.tasksById.find (upcId p) with
  | some _ => (.error ("Existing task found for " ++ upcString (upcId p)), b)
  | none =>
    let it := b.nextAddr
    (.ok (), { b with
      tasks := b.tasks ++ [⟨it, ⟨p, owner, autoRemove, currentFrame⟩⟩]
      tasksById := b.tasksById.emplace (upcId p) it
      tasksByModule := b.tasksByModule ++ [(owner, it)]
      tasksByUnit := assignRefs b.tasksByUnit units it
      nextAddr := it + 1 })

def markTaskForRemoval (id : UpcId) : Board P M U :=
  { b with tasksToBeRemoved := b.tasksToBeRemoved ++ [id] }

/-- `updateTasksByUnit` of a task that lists `units`; off the board the code stores `tasks_.end()`
-/
def updateTasksByUnit (p : P) (units : List U) : Board P M U :=
  let it := ((b.tasks.find? (fun n => decide (n.data.task = p))).map Node.addr).getD endIter
  { b with tasksByUnit := assignRefs (eraseRefs b.tasksByUnit it) units it }

def removeTask (b : Board P M U) (id : UpcId) : Board P M U :=
  match b.tasksById.find id with
  | none => b
  | some it =>
    match b.deref it with
    | none => b
    | some d =>
      { b with
        tasksByModule := b.tasksByModule.eraseP (fun e =>
          decide (e.1 = d.owner) && decide ((b.deref e.2).map (fun d' => upcId d'.task) = some id))
        tasksByUnit := eraseRefs b.tasksByUnit it
        tasks := b.tasks.filter (fun n => decide (n.addr ≠ it))
        tasksById := b.tasksById.erase id }

def removePending (b : Board P M U) : Board P M U :=
  { b.tasksToBeRemoved.foldl (removeTask upcId) b with tasksToBeRemoved := [] }

def dropDestroyed (destroyed : List U) : Board P M U :=
  { b with tasksByUnit := destroyed.foldl (fun m u => update m u none) b.tasksByUnit }

/-- what the sweep writes to the board once the task of the entry `e` has updated itself to `t` -/
def record (b : Board P M U) (e : UpcId × Iter) (d : TaskData P M) (t : Task U) : Board P M U :=
  { b with
    lastTaskStatus := update b.lastTaskStatus (upcId d.task) (some t.status)
    tasksByUnit := assignRefs (eraseRefs b.tasksByUnit e.2) t.units e.2
    tasksToBeRemoved :=
      if d.autoRemove && t.status.finished then b.tasksToBeRemoved ++ [e.1]
      else b.tasksToBeRemoved }

end Board

/-! ## task objects and the update of the board -/

/-- the heap of task objects: what an object holds, and its virtual `update(State*)`, which may
write to any task object -/
structure Objects (P M U : Type) where
  H : Type
  get : H → P → Task U
  update : Board P M U → H → P → H

structure World {P M U : Type} (O : Objects P M U) where
  board : Board P M U
  heap : O.H

namespace World
variable {P M U : Type} [DecidableEq P] [DecidableEq M] [DecidableEq U] {O : Objects P M U}
  (upcId : P → UpcId) (w : World O)

def sweepOne (e : UpcId × Iter) : World O :=
  match w.board.deref e.2 with
  | none => w
  | some d =>
    let h := if (O.get w.heap d.task).status ≠ .cancelled then O.update w.board w.heap d.task
      else w.heap
    ⟨w.board.record upcId e d (O.get h d.task), h⟩

def sweep : World O :=
  w.board.tasksById.rentries.foldl (sweepOne upcId) w

/-- `Blackboard::update` in a frame in which `destroyed` died -/
def update (destroyed : List U) : World O :=
  sweep upcId { w with board := (w.board.removePending upcId).dropDestroyed destroyed }

end World
end TorchCraft
