import Mathlib.Algebra.Group.Int.Defs
import TorchCraft.Board.Model
import TorchCraft.Lib.Sys
import TorchCraft.Lib.Holdings

/-!
# `BuildingPlacerModule` and the tiles it reserves

`BuildingPlacerTask` is a proxy of the task that builds one building.  It reserves the tiles of the
building and of its add-on, gives them back when it finishes, and asks the module for another
position when the task it proxies fails.

* `Placer.step`, `Placer.update`, `Placer.cancel`  the module, `Blackboard::update`, and `cancel()`;
* `placerSys`  all runs of these.

Where a building goes, which UPCs pass the filters, and what becomes of the proxied tasks is the
environment's and comes with each operation.  A building type is known by the table of its sizes.
The relayed `SetCreatePriority` UPCs touch neither tiles nor tasks and are left out.
-/

namespace TorchCraft.Placer
open Lib

structure BuildTypes (B : Type) where
  tileWidth : B → Nat
  tileHeight : B → Nat
  isBuilding : B → Bool
  builtByWorker : B → Bool
  commandCenter : B
  comsatStation : B
  factory : B
  machineShop : B
  starport : B
  controlTower : B
  scienceFacility : B
  physicsLab : B

structure Position where
  x : Int
  y : Int
deriving DecidableEq, Repr

inductive Error
  | reserveOutOfBounds
  | reserveReserved
  | unreserveOutOfBounds
  | unreserveUnreserved
  | existingTask (id : UpcId)
deriving DecidableEq, Repr

def Error.text : Error → String
  | .reserveOutOfBounds => "attempt to reserve area out of bounds"
  | .reserveReserved => "attempt to reserve reserved tile"
  | .unreserveOutOfBounds => "attempt to unreserve area out of bounds"
  | .unreserveUnreserved => "attempt to unreserve unreserved tile"
  | .existingTask id => "Existing task found for " ++ upcString id

/-! ## tiles -/

abbrev Tile := Nat × Nat

structure TilesInfo where
  mapTileWidth : Nat
  mapTileHeight : Nat
  reservedAsUnbuildable : Tile → Bool

def walktilesPerBuildtile : Nat := 4

def toUnsigned (x : Int) : Nat := (x % 2 ^ 32).toNat

section tiles
variable {B : Type} [DecidableEq B] (T : BuildTypes B)

def beginTile (p : Position) : Tile :=
  (toUnsigned p.x / walktilesPerBuildtile, toUnsigned p.y / walktilesPerBuildtile)

def area (type : B) (p : Position) : List Tile :=
  (List.range (T.tileHeight type)).flatMap fun dy =>
    (List.range (T.tileWidth type)).map fun dx => ((beginTile p).1 + dx, (beginTile p).2 + dy)

def inMap (tt : TilesInfo) (type : B) (p : Position) : Bool :=
  decide ((beginTile p).1 < tt.mapTileWidth) &&
  decide ((beginTile p).1 + T.tileWidth type < tt.mapTileWidth) &&
  decide ((beginTile p).2 < tt.mapTileHeight) &&
  decide ((beginTile p).2 + T.tileHeight type < tt.mapTileHeight)

/-- the loop over the tiles; at a tile that has the flag already the changed ones are set back -/
def setLoop (reserve : Bool) : List Tile → List Tile → (Tile → Bool) →
    Except Error Unit × (Tile → Bool)
  | [], _, flags => (.ok (), flags)
  | t :: ts, changed, flags =>
    if flags t ≠ !reserve then
      (.error (if reserve then .reserveReserved else .unreserveUnreserved),
        setAll flags changed (!reserve))
    else setLoop reserve ts (changed ++ [t]) (setAll flags [t] reserve)

def TilesInfo.reserveAreaImpl (reserve : Bool) (tt : TilesInfo) (type : B) (p : Position) :
    Except Error Unit × TilesInfo :=
  if inMap T tt type p then
    let r := setLoop reserve (area T type p) [] tt.reservedAsUnbuildable
    (r.1, { tt with reservedAsUnbuildable := r.2 })
  else (.error (if reserve then .reserveOutOfBounds else .unreserveOutOfBounds), tt)

/-- the add-on that `fullReserveImpl` leaves room for -/
def addonOf (type : B) : Option B :=
  if type = T.commandCenter then some T.comsatStation
  else if type = T.factory then some T.machineShop
  else if type = T.starport then some T.controlTower
  else if type = T.scienceFacility then some T.physicsLab
  else none

def addonPosition (type addon : B) (p : Position) : Position where
  x := p.x + walktilesPerBuildtile * T.tileWidth type
  y := p.y + walktilesPerBuildtile * ((T.tileHeight type : Int) - T.tileHeight addon)

def fullReserveImpl (reserve : Bool) (tt : TilesInfo) (type : B) (p : Position) :
    Except Error Unit × TilesInfo :=
  match addonOf T type with
  | some addon =>
    match tt.reserveAreaImpl T reserve type p with
    | (.error e, tt) => (.error e, tt)
    | (.ok _, tt) => tt.reserveAreaImpl T reserve addon (addonPosition T type addon p)
  | none => tt.reserveAreaImpl T reserve type p

def footprint (type : B) (p : Position) : List Tile :=
  area T type p ++ ((addonOf T type).map fun addon =>
    area T addon (addonPosition T type addon p)).getD []

end tiles

/-! ## tasks -/

/-- `BuildingPlacerTask`; of the proxied task only whether it has been found -/
structure PlacerTask (B : Type) where
  targetUpcId : UpcId
  target : Bool := false
  status : TaskStatus := .unknown
  type : B
  pos : Position
  reserved : Bool := false
  respawn : Bool := false

namespace PlacerTask
variable {B : Type} [DecidableEq B] (T : BuildTypes B) (t : PlacerTask B)

def finished : Bool := t.status.finished

def reserveLocation (tt : TilesInfo) : Except Error (PlacerTask B × TilesInfo) :=
  if t.reserved then .ok (t, tt)
  else match fullReserveImpl T true tt t.type t.pos with
    | (.error e, _) => .error e
    | (.ok _, tt) => .ok ({ t with reserved := true }, tt)

def unreserveLocation (tt : TilesInfo) : Except Error (PlacerTask B × TilesInfo) :=
  if t.reserved then
    match fullReserveImpl T false tt t.type t.pos with
    | (.error e, _) => .error e
    | (.ok _, tt) => .ok ({ t with reserved := false }, tt)
  else .ok (t, tt)

/-- `ProxyTask::update`; `found` says whether there is a task with the target id, `seen` is its
status -/
def proxyUpdate (found : Bool) (seen : TaskStatus) (t : PlacerTask B) : PlacerTask B :=
  if t.target || found then { t with target := true, status := seen } else t

def scheduleRetry : PlacerTask B :=
  { t with respawn := true, status := .unknown, target := false, targetUpcId := kInvalidUpcId }

def update (found : Bool) (seen : TaskStatus) (t : PlacerTask B) (tt : TilesInfo) :
    Except Error (PlacerTask B × TilesInfo) :=
  let t := t.proxyUpdate found seen
  if t.finished then
    if t.status = .failure then .ok (t.scheduleRetry, tt) else t.unreserveLocation T tt
  else .ok (t, tt)

def cancel (tt : TilesInfo) : Except Error (PlacerTask B × TilesInfo) :=
  (if t.target then t else { t with status := .cancelled }).unreserveLocation T tt

end PlacerTask

end TorchCraft.Placer

namespace TorchCraft
open Lib

/-- the tiles, the placer tasks on the board, and the removal list of the board -/
structure Placer (B : Type) where
  tiles : Placer.TilesInfo
  tasks : OrdMap UpcId (Placer.PlacerTask B) := OrdMap.empty
  tasksToBeRemoved : List UpcId := []
  /-- the tasks for which another UPC was posted, with their status at that time -/
  reposts : List (UpcId × TaskStatus) := []

namespace Placer
variable {B : Type} [DecidableEq B] (T : BuildTypes B)

/-- a Create UPC on the board: whether its type is certain, the position found, and the id of the
placed UPC -/
structure Create (B : Type) where
  upcId : UpcId
  certain : Bool
  type : B
  position : Option Position
  newUpcId : UpcId

/-- what a step meets: the Create UPCs, the order of the tasks, and the positions and ids found for
retries -/
structure StepInput (B : Type) where
  creates : List (Create B)
  order : List UpcId
  position : UpcId → Option Position
  newUpcId : UpcId → UpcId

/-- `upcWithPositionForBuilding` is asked for buildings of workers only -/
def placed (type : B) (position : Option Position) : Option Position :=
  if T.isBuilding type && T.builtByWorker type then position else none

variable (s : Placer B)

/-- the task for a placed UPC: its location is reserved before it is posted -/
def postPlaced (c : Create B) (pos : Position) : Except Error (Placer B) :=
  (PlacerTask.reserveLocation T { targetUpcId := c.newUpcId, type := c.type, pos := pos }
    s.tiles).bind fun r =>
      match s.tasks.find c.upcId with
      | some _ => .error (.existingTask c.upcId)
      | none => .ok { s with tiles := r.2, tasks := s.tasks.emplace c.upcId r.1 }

def create (c : Create B) : Except Error (Placer B) :=
  if c.certain then
    match placed T c.type c.position with
    | none => .ok s
    | some pos => if 0 ≤ c.newUpcId then s.postPlaced T c pos else .ok s
  else .ok s

/-- another UPC for a task that has given its tiles back -/
def repost (id : UpcId) (t : PlacerTask B) (newUpcId : UpcId) (pos : Position) :
    Except Error (Placer B) :=
  (PlacerTask.reserveLocation T { t with respawn := false, targetUpcId := newUpcId, pos := pos }
    s.tiles).bind fun r =>
      .ok { s with
        tiles := r.2
        tasks := s.tasks.assign id r.1
        reposts := s.reposts ++ [(id, t.status)] }

def retry (i : StepInput B) (s : Placer B) (id : UpcId) : Except Error (Placer B) :=
  match s.tasks.find id with
  | none => .ok s
  | some t =>
    if t.respawn then
      (t.unreserveLocation T s.tiles).bind fun r =>
        let s := { s with tiles := r.2, tasks := s.tasks.assign id r.1 }
        match placed T t.type (i.position id) with
        | none => .ok s
        | some pos => if 0 ≤ i.newUpcId id then s.repost T id r.1 (i.newUpcId id) pos else .ok s
    else .ok s

def step (i : StepInput B) : Except Error (Placer B) :=
  (i.creates.foldlM (create T) s).bind fun s => i.order.foldlM (retry T i) s

def removePending : Placer B :=
  { s with tasks := s.tasksToBeRemoved.foldl OrdMap.erase s.tasks, tasksToBeRemoved := [] }

/-- one round of the sweep of `Blackboard::update`; placer tasks have `autoRemove` -/
def sweepOne (found : UpcId → Bool) (seen : UpcId → TaskStatus) (s : Placer B) (id : UpcId) :
    Except Error (Placer B) :=
  match s.tasks.find id with
  | none => .ok s
  | some t =>
    (if t.status ≠ .cancelled then t.update T (found id) (seen id) s.tiles
      else .ok (t, s.tiles)).bind fun r =>
      .ok { s with
        tiles := r.2
        tasks := s.tasks.assign id r.1
        tasksToBeRemoved :=
          if r.1.finished then s.tasksToBeRemoved ++ [id] else s.tasksToBeRemoved }

def update (found : UpcId → Bool) (seen : UpcId → TaskStatus) : Except Error (Placer B) :=
  (s.removePending.tasks.rentries.map Prod.fst).foldlM (sweepOne T found seen) s.removePending

def cancel (s : Placer B) (id : UpcId) : Except Error (Placer B) :=
  match s.tasks.find id with
  | none => .ok s
  | some t => (t.cancel T s.tiles).bind fun r =>
      .ok { s with tiles := r.2, tasks := s.tasks.assign id r.1 }

/-! ## runs -/

inductive Op (B : Type)
  | step (i : StepInput B)
  | update (found : UpcId → Bool) (seen : UpcId → TaskStatus)
  | cancel (id : UpcId)

def Op.exec : Op B → Except Error (Placer B)
  | .step i => s.step T i
  | .update found seen => s.update T found seen
  | .cancel id => s.cancel T id

def Error.unreserve : Error → Bool
  | .unreserveOutOfBounds => true
  | .unreserveUnreserved => true
  | _ => false

/-- positions are chosen so that reservations succeed, and the UPCs have no task yet -/
def Op.Allowed (o : Op B) : Prop :=
  ∀ e, o.exec T s = .error e → e.unreserve = true

def Op.run (o : Op B) : Placer B :=
  match o.exec T s with
  | .ok s' => s'
  | .error _ => s

def placerSys : Sys (Placer B) (Op B) where
  run := Op.run T
  ok := Op.Allowed T

def start (width height : Nat) : Placer B where
  tiles := ⟨width, height, fun _ => false⟩

end Placer
end TorchCraft
