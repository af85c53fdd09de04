import Mathlib.Data.Rat.Defs
import TorchCraft.Board.Upcs
import TorchCraft.Board.Runs
import TorchCraft.Controller.Model

/-!
# `BuilderModule` and its controllers

The module makes a controller and a task for each Create UPC.  The controller takes units later on:
each unit comes with a task of its own that shares the controller (`grabUnit`).  The controller
remembers ONE id, that of the last task made for it, and asks the task of this id whether it has
been cancelled.

* `Heap`, `builderTasks`  task objects and controllers; `ControllerTask::update` and `cancel`;
* `State.grabUnit`, `State.releaseUnit`, `State.postUpcs`  what a controller does to the board;
* `State.workerStep`, `State.productionStep`  the `step` of the two kinds of controllers;
* `State.step`  `BuilderModule::step`;
* `builderSys`  all runs of the module, of `Blackboard::update` and of other code that
  cancels tasks, posts UPCs and takes units.

A controller is known by the task it was made with.  What a controller sees of the game (distances,
trackers, resources, which unit scores best) is a `Sight` and comes with the step.
-/

namespace TorchCraft.Builder
open Lib

/-! ## tuples -/

inductive Command
  | create
  | move
  | delete
  | setCreatePriority
  | other
deriving DecidableEq, Repr

abbrev Position := Int × Int

structure UPCTuple (U B : Type) where
  unit : List (U × Rat) := []
  command : List (Command × Rat) := []
  position : Position × Rat := ((-1, -1), 0)
  /-- the unit that is the position -/
  target : Option U := none
  createType : Option (B × Rat) := none
  /-- the `SetCreatePriorityState` -/
  priority : Option (UpcId × Rat) := none
deriving DecidableEq

namespace UPCTuple
variable {U B : Type}

def commandProb (q : UPCTuple U B) (c : Command) : Rat := (q.command.lookup c).getD 0

def sharp (u : U) (p : Position) (c : Command) : UPCTuple U B :=
  { unit := [(u, 1)], position := (p, 1), command := [(c, 1)] }

def sharpType (u : U) (p : Position) (c : Command) (type : B) : UPCTuple U B :=
  { unit := [(u, 1)], position := (p, 1), command := [(c, 1)], createType := some (type, 1) }

def sharpUnit (u v : U) (c : Command) : UPCTuple U B :=
  { unit := [(u, 1)], target := some v, command := [(c, 1)] }

def grab (u : U) : UPCTuple U B :=
  { unit := [(u, 1)], command := [(.create, 1 / 2), (.move, 1 / 2)] }

end UPCTuple

/-! ## controllers -/

structure BuildTypes (B : Type) where
  isBuilding : B → Bool
  hasBuilder : B → Bool
  builtByWorker : B → Bool

inductive TrackerStatus
  | notTracking
  | pending
  | timeout
  | ongoing
  | success
  | failure
  | cancelled
deriving DecidableEq, Repr

/-- a visible unit that could stand in the way, its distance in pixels, and where it would move to
-/
structure Blocker (U : Type) where
  unit : U
  /-- it is ours and can be used -/
  ours : Bool
  pxDistance : Int
  away : Position

structure Sight (U : Type) where
  canBuildAt : Bool := true
  trackerStatus : TrackerStatus := .pending
  /-- resources, supply and prerequisites -/
  affordable : Bool := true
  /-- the unit `findBuilder` selects -/
  found : Option U := none
  /-- the resources come later than the builder would -/
  early : Bool := false
  /-- the free detector that is closest -/
  detector : Option U := none
  /-- where the detector is sent, unless it is stuck or on its way -/
  detectorTarget : Option Position := none
  /-- the builder is not close to the location -/
  far : Bool := false
  /-- where the builder is sent, unless it is on its way -/
  target : Option Position := none
  blockers : List (Blocker U) := []
  builderPos : Position := (0, 0)

def kMaxBuildAttempts : Nat := 3

/-- the fields of `BuilderControllerBase`, `WorkerBuilderController` and `BuilderController` -/
structure Ctrl (U B : Type) where
  /-- `units_` and `upcs_` -/
  base : ControllerBase U (UPCTuple U B) := ControllerBase.empty
  /-- the keys of `upcs_`, in the order of the map -/
  scheduled : List U := []
  upcId : UpcId := 0
  type : B
  /-- `pos_` of a `WorkerBuilderController`; a `BuilderController` has none -/
  pos : Option Position := none
  priority : Rat := 0
  succeeded : Bool := false
  failed : Bool := false
  builder : Option U := none
  detector : Option U := none
  lastUpdate : Int := 0
  constructionStarted : Bool := false
  lastCheckLocation : Int := 0
  lastMoveUnitsInTheWay : Int := 0
  moveAttempts : Nat := 0
  movedUnits : List U := []
  buildAttempts : Nat := 0
  tracker : Bool := false
  moving : Bool := false
  building : Bool := false

namespace Ctrl
variable {U B : Type} [DecidableEq U]

def removeUnit (k : Ctrl U B) (u : U) (id : UpcId) : Ctrl U B :=
  { k with
    builder := if k.builder = some u then none else k.builder
    detector := if k.detector = some u then none else k.detector
    base := k.base.removeUnit u id }

def release (id : UpcId) (k : Ctrl U B) (u : U) : Ctrl U B :=
  if k.base.isControllingUnitWith u id then k.removeUnit u id else k

/-- `addUpc`: a unit that is not controlled, or has a UPC already, gets none -/
def addUpc (k : Ctrl U B) (u : U) (q : UPCTuple U B) : Ctrl U B :=
  match k.base.units u with
  | none => k
  | some sourceId =>
    if sourceId = kInvalidUpcId then k
    else if (k.base.upcs u).isSome then k
    else { k with
      base := { k.base with upcs := Function.update k.base.upcs u (some (sourceId, q)) }
      scheduled := k.scheduled.filter (fun v => decide (v ≠ u)) ++ [u] }

def checkLocation (frame : Int) (canBuildAt : Bool) (k : Ctrl U B) : Ctrl U B :=
  if !k.building && decide (11 ≤ frame - k.lastCheckLocation) then
    { k with lastCheckLocation := frame, failed := k.failed || !canBuildAt }
  else k

variable (status : TrackerStatus) (k : Ctrl U B)

def followMovement : Ctrl U B :=
  match status with
  | .success => { k with lastUpdate := 0, moving := false, tracker := false }
  -- this case falls through to the next two
  | .cancelled => { k with failed := true, moving := false, tracker := false }
  | .timeout => { k with moving := false, tracker := false }
  | .failure => { k with moving := false, tracker := false }
  | _ => k

def retryBuilding (k : Ctrl U B) : Ctrl U B :=
  if k.buildAttempts < kMaxBuildAttempts then
    { k with lastUpdate := 0, tracker := false, building := false }
  else { k with failed := true, tracker := false, building := false }

def followBuilding : Ctrl U B :=
  match status with
  | .ongoing => { k with constructionStarted := true }
  | .success => { k with building := false, succeeded := true }
  | .timeout => k.retryBuilding
  | .failure => k.retryBuilding
  | .cancelled => { k with failed := true }
  | _ => k

def followWorker : Ctrl U B :=
  if k.tracker then
    if k.moving then k.followMovement status else k.followBuilding status
  else k

def followProduction : Ctrl U B :=
  if k.tracker then
    match status with
    | .ongoing => { k with constructionStarted := true }
    | .success => { k with succeeded := true }
    | .timeout => { k with lastUpdate := 0, tracker := false }
    | .failure => { k with lastUpdate := 0, tracker := false }
    | .cancelled => { k with failed := true }
    | _ => k
  else k

/-- the attempts are counted and, after too many, from the start again -/
def attempt (moved : Nat) (k : Ctrl U B) : Ctrl U B :=
  let moveAttempts := if moved = 0 then k.moveAttempts else k.moveAttempts + 1
  let buildAttempts :=
    if moved = 0 ∨ 12 ≤ moveAttempts then k.buildAttempts + 1 else k.buildAttempts
  { k with
    moveAttempts := moveAttempts
    buildAttempts := if kMaxBuildAttempts < buildAttempts then 0 else buildAttempts
    tracker := true
    building := true }

def recent (frame : Int) (k : Ctrl U B) : Bool :=
  decide (0 < k.lastUpdate) && decide (frame - k.lastUpdate < 4)

def waits (g : Sight U) (k : Ctrl U B) : Bool := !k.constructionStarted && !g.affordable

end Ctrl

/-! ## tasks -/

/-- a task object: its id, which never changes, and the place it was allocated in -/
structure TaskPtr where
  upcId : UpcId
  serial : Nat
deriving DecidableEq, Repr

inductive Post (U B : Type)
  | upc (controller : TaskPtr) (upc : UPCTuple U B)
  | task (controller : TaskPtr) (task : TaskPtr)
deriving DecidableEq

def Post.controller {U B : Type} : Post U B → TaskPtr
  | .upc c _ => c
  | .task c _ => c

structure Heap (U B M : Type) where
  tasks : TaskPtr → Task U := fun _ => {}
  /-- `controller_` of a `ControllerTask`; tasks of other kinds have none -/
  controller : TaskPtr → Option TaskPtr := fun _ => none
  ctrls : TaskPtr → Ctrl U B
  /-- where the next task object is allocated -/
  serial : Nat := 0
  upcs : Upcs M (UPCTuple U B) := {}
  dead : U → Bool := fun _ => false
  isMine : U → Bool := fun _ => true
  /-- all calls so far -/
  posts : List (Post U B) := []

namespace Heap
variable {U B M : Type} [DecidableEq U] [DecidableEq M]

def construct (h : Heap U B M) (id : UpcId) (us : List U) (c : TaskPtr) : Heap U B M :=
  let p : TaskPtr := ⟨id, h.serial⟩
  { h with
    tasks := Function.update h.tasks p ⟨.ongoing, us⟩
    controller := Function.update h.controller p (some c)
    ctrls := Function.update h.ctrls c { h.ctrls c with
      base := us.foldl (fun b u => b.addUnit u id) (h.ctrls c).base
      upcId := id }
    serial := h.serial + 1 }

def keepUnit (h : Heap U B M) (u : U) : Bool :=
  if h.dead u then false
  else if !h.isMine u then false
  else true

def remove (b : Board TaskPtr M U) (h : Heap U B M) (p : TaskPtr) (u : U) : Bool :=
  if b.taskWithUnit u ≠ some p then true
  else if !h.keepUnit u then true
  else false

def updateTask (b : Board TaskPtr M U) (h : Heap U B M) (p c : TaskPtr) : Heap U B M :=
  if (h.tasks p).status ≠ .ongoing then h
  else
    let k := ((h.tasks p).units.filter (h.remove b p)).foldl (Ctrl.release p.upcId) (h.ctrls c)
    let status := if k.succeeded then .success else if k.failed then .failure else .ongoing
    { h with
      tasks := Function.update h.tasks p
        ⟨status, (h.tasks p).units.filter (fun u => !h.remove b p u)⟩
      ctrls := Function.update h.ctrls c k }

def cancel (h : Heap U B M) (p : TaskPtr) : Heap U B M :=
  match h.controller p with
  | none => h
  | some c =>
    if (h.tasks p).status ≠ .ongoing then h
    else
      { h with
        tasks := Function.update h.tasks p ⟨.cancelled, []⟩
        ctrls := Function.update h.ctrls c
          ((h.tasks p).units.foldl (Ctrl.release p.upcId) (h.ctrls c)) }

/-- code of other kinds writes to its own task objects -/
def writeOthers (h : Heap U B M) (t : TaskPtr → Task U) : Heap U B M :=
  { h with tasks := fun p => if (h.controller p).isSome then h.tasks p else t p }

end Heap

structure OtherTasks (U B M : Type) where
  write : Board TaskPtr M U → Heap U B M → TaskPtr → TaskPtr → Task U
  cancels : Board TaskPtr M U → Heap U B M → TaskPtr → List TaskPtr

@[reducible] def builderTasks {U B M : Type} [DecidableEq U] [DecidableEq M]
    (others : OtherTasks U B M) : Objects TaskPtr M U where
  H := Heap U B M
  get := fun h p => h.tasks p
  update := fun b h p =>
    match h.controller p with
    | some c => h.updateTask b p c
    | none => (others.cancels b h p).foldl Heap.cancel (h.writeOthers (others.write b h p))

structure State (U B M : Type) extends Heap U B M where
  board : Board TaskPtr M U

namespace State
variable {U B M : Type} [DecidableEq U] [DecidableEq M] (s : State U B M)

def setCtrl (c : TaskPtr) (k : Ctrl U B) : State U B M :=
  { s with ctrls := Function.update s.ctrls c k }

def addUpc (c : TaskPtr) (u : U) (q : UPCTuple U B) : State U B M :=
  s.setCtrl c ((s.ctrls c).addUpc u q)

def finished (p : TaskPtr) : Bool := (s.tasks p).status.finished

def controllerTask (id : UpcId) : Option (TaskPtr × TaskPtr) :=
  (s.board.taskForId id).bind fun p => (s.controller p).map fun d => (p, d)

def cancelled (s : State U B M) (c : TaskPtr) : Bool :=
  match s.controllerTask (s.ctrls c).upcId with
  | none => false
  | some (p, _) => decide ((s.tasks p).status = .cancelled)

def halted (c : TaskPtr) : Bool :=
  (s.ctrls c).succeeded || (s.ctrls c).failed || s.cancelled c

variable (this : M) (frame : Int) (s : State U B M) (c : TaskPtr)

def postUPC (sourceId : UpcId) (q : UPCTuple U B) : State U B M :=
  { s with
    upcs := (s.upcs.postUPC frame q sourceId this).2
    posts := s.posts ++ [.upc c q] }

def postNew (s : State U B M) (id : UpcId) (us : List U) (d : TaskPtr) :
    Except String (State U B M) :=
  match s.board.postTask TaskPtr.upcId frame ⟨id, s.serial⟩ us this true with
  | (.error e, _) => .error e
  | (.ok _, b) => .ok { s.toHeap.construct id us d with board := b }

/-- `BuilderControllerBase::grabUnit`: the new task gets the controller of the remembered task -/
def grabUnit (u : U) : Except String (State U B M) :=
  match s.controllerTask (s.ctrls c).upcId with
  | none => .ok s
  | some (q, d) =>
    if s.finished q then .ok s
    else
      let newId := (s.upcs.postUPC frame (.grab u) (s.ctrls c).upcId this).1
      let s := s.postUPC this frame c (s.ctrls c).upcId (.grab u)
      let s := { s with upcs := s.upcs.consumeUPC newId }
      let p : TaskPtr := ⟨newId, s.serial⟩
      (s.postNew this frame newId [u] d).map fun s : State U B M =>
        let s : State U B M := { s with posts := s.posts ++ [Post.task c p] }
        s.setCtrl c { s.ctrls c with base := (s.ctrls c).base.addUnit u newId }

def releaseUnit (u : U) : State U B M :=
  let k := s.ctrls c
  match s.board.taskWithUnitOfModule u this with
  | none => s.setCtrl c { k with
      base := ⟨Function.update k.base.units u none, Function.update k.base.upcs u none⟩ }
  | some p =>
    let units := (s.tasks p).units.filter (fun v => decide (v ≠ u))
    let s := s.setCtrl c { k with base := k.base.removeUnit u p.upcId }
    { s with
      tasks := Function.update s.tasks p { s.tasks p with units := units }
      board := s.board.updateTasksByUnit p units }

def postUpcs : State U B M :=
  let s := ((s.ctrls c).scheduled.filterMap (s.ctrls c).base.upcs).foldl
    (fun s q => s.postUPC this frame c q.1 q.2) s
  s.setCtrl c { s.ctrls c with
    base := { (s.ctrls c).base with upcs := fun _ => none }
    scheduled := [] }

/-! ## `WorkerBuilderController::step` -/

/-- units that were moved away are released after 30 frames -/
def releaseMoved : State U B M :=
  let k := s.ctrls c
  if decide (k.lastMoveUnitsInTheWay ≠ 0) && decide (30 ≤ frame - k.lastMoveUnitsInTheWay) then
    let s := s.setCtrl c { k with lastMoveUnitsInTheWay := 0 }
    let s := k.movedUnits.foldl (fun s u => s.releaseUnit this c u) s
    s.setCtrl c { s.ctrls c with movedUnits := [] }
  else s

def known (pos : Position) : Bool := decide (pos.1 ≠ -1) || decide (pos.2 ≠ -1)

/-- find a builder; one that would arrive long before the resources is not taken -/
def findWorker (pos : Position) (moveOnly : Bool) (g : Sight U) : Except String (State U B M) :=
  let k := s.ctrls c
  if k.builder.isNone && !k.building then
    let builder := if moveOnly && known pos && g.early then none else g.found
    let s := s.setCtrl c { k with builder := builder }
    match builder with
    | none => .ok s
    | some u => s.grabUnit this frame c u
  else .ok s

def detect (g : Sight U) : Except String (State U B M) :=
  match (s.ctrls c).detector with
  | none =>
    let s := s.setCtrl c { s.ctrls c with detector := g.detector }
    match g.detector with
    | none => .ok s
    | some d => s.grabUnit this frame c d
  | some d =>
    match g.detectorTarget with
    | none => .ok s
    | some p => .ok (s.addUpc c d (.sharp d p .move))

/-- the loop over the units in the way: ours are moved away (with their number), another one is to
be killed -/
def clearSite (c : TaskPtr) (builder : U) :
    List (Blocker U) → Nat → State U B M → Except String (State U B M × Nat × Option U)
  | [], moved, s => .ok (s, moved, none)
  | e :: es, moved, s =>
    if e.unit = builder then clearSite c builder es moved s
    else if e.ours && decide (e.pxDistance ≤ 16) then
      let s := s.setCtrl c { s.ctrls c with
        lastMoveUnitsInTheWay := frame
        movedUnits := e.unit :: (s.ctrls c).movedUnits.filter (fun v => decide (v ≠ e.unit)) }
      (s.grabUnit this frame c e.unit).bind fun s =>
        clearSite c builder es (moved + 1) (s.addUpc c e.unit (.sharp e.unit e.away .move))
    else if e.pxDistance ≤ 0 then .ok (s, moved, some e.unit)
    else clearSite c builder es moved s

def startBuilding (pos : Position) (builder : U) (g : Sight U) : Except String (State U B M) :=
  (clearSite this frame c builder g.blockers 0 s).map fun (s, moved, killUnit) =>
    match killUnit with
    | some e =>
      let s := (s.ctrls c).movedUnits.foldl (fun s u => s.releaseUnit this c u) s
      let s := s.setCtrl c { s.ctrls c with movedUnits := [] }
      s.addUpc c builder (.sharpUnit builder e .delete)
    | none =>
      let s := s.setCtrl c ((s.ctrls c).attempt moved)
      s.addUpc c builder (.sharpType builder pos .create (s.ctrls c).type)

def sendBuilder (builder : U) (target : Option Position) : State U B M :=
  match target with
  | none => s
  | some p =>
    let s := s.addUpc c builder (.sharp builder p .move)
    if (s.ctrls c).tracker then s
    else s.setCtrl c { s.ctrls c with tracker := true, moving := true }

variable (T : BuildTypes B)

def build (s : State U B M) (c : TaskPtr) (pos : Position) (moveOnly : Bool)
    (g : Sight U) : Except String (State U B M) :=
  match (s.ctrls c).builder with
  | none => .ok s
  | some builder =>
    if T.isBuilding (s.ctrls c).type && known pos then
      (s.detect this frame c g).bind fun s =>
        if g.far then .ok (s.sendBuilder c builder g.target)
        else if (s.ctrls c).tracker || moveOnly then .ok s
        else s.startBuilding this frame c pos builder g
    else .ok s

/-- `WorkerBuilderController::step` behind its first test -/
def workerStep (s : State U B M) (c : TaskPtr) (pos : Position) (g : Sight U) :
    Except String (State U B M) :=
  let s := s.setCtrl c ((s.ctrls c).checkLocation frame g.canBuildAt)
  if (s.ctrls c).failed then .ok s
  else
    let s := s.setCtrl c ((s.ctrls c).followWorker g.trackerStatus)
    if (s.ctrls c).succeeded || (s.ctrls c).failed then .ok s
    else
      let s := s.releaseMoved this frame c
      if (s.ctrls c).recent frame then .ok s
      else
        let s := s.setCtrl c { s.ctrls c with lastUpdate := frame }
        let moveOnly := (s.ctrls c).waits g
        (s.findWorker this frame c pos moveOnly g).bind fun s =>
          (s.build this frame T c pos moveOnly g).map fun s => s.postUpcs this frame c

/-! ## `BuilderController::step` -/

def findProducer (g : Sight U) : Except String (State U B M) :=
  let k := s.ctrls c
  if k.builder.isNone && !k.tracker then
    let s := s.setCtrl c { k with builder := g.found }
    match g.found with
    | none => .ok s
    | some u => s.grabUnit this frame c u
  else .ok s

def produce (g : Sight U) : State U B M :=
  match (s.ctrls c).builder with
  | none => s
  | some builder =>
    if (s.ctrls c).tracker then s
    else
      let s := s.addUpc c builder (.sharpType builder g.builderPos .create (s.ctrls c).type)
      s.setCtrl c { s.ctrls c with tracker := true }

/-- `BuilderController::step` behind its first test -/
def productionStep (g : Sight U) : Except String (State U B M) :=
  let s := s.setCtrl c ((s.ctrls c).followProduction g.trackerStatus)
  if (s.ctrls c).succeeded || (s.ctrls c).failed then .ok s
  else if (s.ctrls c).recent frame then .ok s
  else
    let s := s.setCtrl c { s.ctrls c with lastUpdate := frame }
    if (s.ctrls c).waits g then .ok s
    else (s.findProducer this frame c g).map fun s => (s.produce c g).postUpcs this frame c

def stepController (s : State U B M) (c : TaskPtr) (g : Sight U) : Except String (State U B M) :=
  if s.halted c then .ok s
  else
    match (s.ctrls c).pos with
    | some pos => s.workerStep this frame T c pos g
    | none => s.productionStep this frame c g

/-! ## `BuilderModule::step` -/

def upcsWithSharpCommand (s : State U B M) (cmd : Command) : List (UpcId × UPCTuple U B) :=
  (s.upcs.upcs.entries.map fun d => (d.1, d.2.upc)).filter
    (fun d => decide (d.2.commandProb cmd = 1))

/-- what to build, and where if a worker has to go there; `none` for a UPC that is skipped -/
def wanted (q : UPCTuple U B) : Option (B × Option Position) :=
  match q.createType with
  | none => none
  | some (type, p) =>
    if p < 99 / 100 then none
    else if !T.hasBuilder type then none
    else if T.isBuilding type && T.builtByWorker type then
      if q.position.2 < 99 / 100 ∨ q.position.1.1 < 0 ∨ q.position.1.2 < 0 then none
      else some (type, some q.position.1)
    else some (type, none)

/-- one round of the loop over the Create UPCs: a controller and its original task -/
def create (s : State U B M) (d : UpcId × UPCTuple U B) : Except String (State U B M) :=
  match wanted T d.2 with
  | none => .ok s
  | some (type, pos) =>
    let c : TaskPtr := ⟨d.1, s.serial⟩
    let s := s.setCtrl c { type := type, pos := pos, priority := d.1 }
    let s := { s with upcs := s.upcs.consumeUPC d.1 }
    s.postNew this frame d.1 [] c

def setCreatePriority (s : State U B M) (d : UpcId × UPCTuple U B) : State U B M :=
  let task := d.2.priority.bind fun st =>
    ((s.board.tasksOfModule this).find? (fun p => decide (p.upcId = st.1))).bind fun p =>
      (s.controller p).map fun c => (c, st.2)
  let s := match task with
    | none => s
    | some (c, value) => s.setCtrl c { s.ctrls c with priority := value }
  { s with upcs := s.upcs.consumeUPC d.1 }

def takeUpcs (s : State U B M) : Except String (State U B M) :=
  ((s.upcsWithSharpCommand .create).foldlM (create this frame T) s).map fun s =>
    (s.upcsWithSharpCommand .setCreatePriority).foldl (setCreatePriority this) s

/-- the other tasks of the list that share the controller are cancelled -/
def cancelOthers (tasks : List TaskPtr) (v c : TaskPtr) (s : State U B M) : State U B M :=
  tasks.foldl (fun s v2 =>
    if decide (v ≠ v2) && !s.finished v2 && decide (s.controller v2 = some c) then
      { s with toHeap := s.toHeap.cancel v2 }
    else s) s

/-- one round of the loop over the tasks; with the state come the controllers stepped so far -/
def visit (tasks : List TaskPtr) (sight : TaskPtr → Sight U)
    (r : State U B M × List TaskPtr) (v : TaskPtr) : Except String (State U B M × List TaskPtr) :=
  match r.1.controller v with
  | none => .ok r
  | some c =>
    (if c ∈ r.2 then .ok r.1 else r.1.stepController this frame T c (sight c)).map fun s =>
      (if s.finished v then s.cancelOthers tasks v c else s, c :: r.2)

def visitAll (tasks : List TaskPtr) (sight : TaskPtr → Sight U)
    (s : State U B M) : Except String (State U B M) :=
  (tasks.foldlM (visit this frame T tasks sight) (s, [])).map Prod.fst

def priority (s : State U B M) (p : TaskPtr) : Rat :=
  ((s.controller p).map fun c => (s.ctrls c).priority).getD 0

end State

/-- the frame of a step, the order of the tasks, and what the controllers see -/
structure StepInput (U : Type) where
  frame : Int
  tasks : List TaskPtr
  sight : TaskPtr → Sight U

variable {U B M : Type} [DecidableEq U] [DecidableEq M] (T : BuildTypes B) (this : M)

def State.step (s : State U B M) (i : StepInput U) : Except String (State U B M) :=
  (s.takeUpcs this i.frame T).bind fun s => s.visitAll this i.frame T i.tasks i.sight

/-! ## runs -/

inductive Op (U B M : Type)
  | step (i : StepInput U)
  | update (destroyed : List U) (dead isMine : U → Bool)
  /-- other code cancels a task -/
  | cancel (p : TaskPtr)
  /-- other modules post and consume UPCs -/
  | postUPC (frame : Int) (upc : UPCTuple U B) (sourceId : UpcId) (origin : M)
  | consumeUPC (id : UpcId)
  /-- another module posts a task of another kind -/
  | postTask (frame : Int) (id : UpcId) (units : List U) (owner : M) (autoRemove : Bool)
  /-- code of other kinds writes to its task objects -/
  | writeOthers (t : TaskPtr → Task U)

namespace Op

def run (others : OtherTasks U B M) (s : State U B M) :
    Op U B M → State U B M
  | .step i => match s.step T this i with
    | .ok s => s
    | .error _ => s
  | .update destroyed dead isMine =>
    let w := World.update (O := builderTasks others) TaskPtr.upcId
      ⟨s.board, { s.toHeap with dead := dead, isMine := isMine }⟩ destroyed
    { w.heap with board := w.board }
  | .cancel p => { s with toHeap := s.toHeap.cancel p }
  | .postUPC frame upc sourceId origin =>
    { s with upcs := (s.upcs.postUPC frame upc sourceId origin).2 }
  | .consumeUPC id => { s with upcs := s.upcs.consumeUPC id }
  | .postTask frame id units owner autoRemove =>
    { s with
      tasks := Function.update s.tasks ⟨id, s.serial⟩ ⟨.unknown, units⟩
      serial := s.serial + 1
      board := (s.board.postTask TaskPtr.upcId frame ⟨id, s.serial⟩ units owner autoRemove).2 }
  | .writeOthers t => { s with toHeap := s.toHeap.writeOthers t }

/-- a step returns, and visits the tasks of the module by priority -/
def Ok (s : State U B M) : Op U B M → Prop
  | .step i => (∃ s', s.step T this i = .ok s') ∧
      ∀ s', s.takeUpcs this i.frame T = .ok s' →
        i.tasks.Perm (s'.board.tasksOfModule this) ∧
          i.tasks.Pairwise (fun p q => s'.priority p ≤ s'.priority q)
  | .postTask _ _ _ owner _ => owner ≠ this
  | _ => True

def check (s : State U B M) : Op U B M → Bool
  | .step i => match s.takeUpcs this i.frame T with
    | .error _ => false
    | .ok s' => (s'.visitAll this i.frame T i.tasks i.sight).toBool &&
        decide (i.tasks.Perm (s'.board.tasksOfModule this) ∧
          i.tasks.Pairwise (fun p q => s'.priority p ≤ s'.priority q))
  | .postTask _ _ _ owner _ => decide (owner ≠ this)
  | _ => true

lemma check_iff (s : State U B M) (o : Op U B M) : o.check T this s ↔ o.Ok T this s := by
  cases o with
  | step i =>
    unfold check Ok State.step
    dsimp only
    cases h : s.takeUpcs this i.frame T with
    | error e => exact ⟨nofun, fun ⟨⟨_, hs⟩, _⟩ => nomatch hs⟩
    | ok s' =>
      dsimp only [Except.bind]
      cases hv : s'.visitAll this i.frame T i.tasks i.sight with
      | error e => exact ⟨nofun, fun ⟨⟨_, hs⟩, _⟩ => nomatch hs⟩
      | ok s'' =>
        rw [Except.toBool, Bool.true_and, decide_eq_true_eq]
        constructor
        · intro hs
          refine ⟨⟨s'', rfl⟩, fun s₁ h₁ => ?_⟩
          rw [← Except.ok.inj h₁]
          exact hs
        · exact fun hs => hs.2 s' rfl
  | postTask frame id units owner ar => exact decide_eq_true_iff
  | _ => exact ⟨fun _ => trivial, fun _ => rfl⟩

instance (T : BuildTypes B) (this : M) (s : State U B M) (o : Op U B M) :
    Decidable (o.Ok T this s) :=
  decidable_of_iff _ (check_iff T this s o)

end Op

def builderSys (others : OtherTasks U B M) : Sys (State U B M) (Op U B M) where
  run := Op.run T this others
  ok := Op.Ok T this

instance (T : BuildTypes B) (this : M) (others : OtherTasks U B M) (s : State U B M)
    (o : Op U B M) : Decidable ((builderSys T this others).ok s o) :=
  inferInstanceAs (Decidable (o.Ok T this s))

/-- an empty board with its filters; no controller has been made -/
def start (ctrls : TaskPtr → Ctrl U B) (filters : List (UPCTuple U B → M → Option (UPCTuple U B))) :
    State U B M where
  ctrls := ctrls
  upcs := { upcFilters := filters }
  board := Board.empty

end TorchCraft.Builder
