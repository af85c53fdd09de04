import TorchCraft.Lib.Slots
import TorchCraft.Utils.Algorithms

/-!
# `UnitsInfo`: what the bot knows about the units

Every frame brings the data of the units that are seen now and the list of deaths.
`UnitsInfo::update` copies the data, and keeps up to date

* the group containers (`Container`), by `updateGroups`, which is called only for the units for
  which some test says that it is needed;
* the lists of our units by type, which are built again only if a flag was raised in the frame;
* the lists of the units in sight and of the attackers of every unit (`Lists`).

A unit is named by its id, so `unitsMap_` is a function to `Option`, and the lists of a unit, which
nothing of the rest reads, are kept beside it.  The unit types are any type with the attributes that
the code reads.  What the code looks up outside of `UnitsInfo` is part of the `Frame`: the visibility
of the tiles, the places that the position inference finds and the units it moves.
-/

namespace TorchCraft.Units
open Function
open Lib (Slots)
open Utils (Position)

abbrev UnitId := Int
abbrev PlayerId := Int
abbrev FrameNum := Int

inductive Flag
  | beingConstructed | blind | completed | flying | lifted | loaded | lockedDown | maelstrommed
  | morphing | powered | stasised | stuck
  deriving DecidableEq

inductive UpgradeType
  | Ocular_Implants | Antennae | Sensor_Array | Apial_Sensors
  deriving DecidableEq

/-- the constants of a game: players, map, `inferEnemyPositions`, the attack orders and the unit
types -/
structure Game (Ty : Type*) where
  playerId : PlayerId
  neutralId : PlayerId
  mapWidth : Int
  mapHeight : Int
  inferEnemyPositions : Bool
  tcOrderIsAttack : Int → Bool
  isBuilding : Ty → Bool
  isWorker : Ty → Bool
  isGas : Ty → Bool
  isMinerals : Ty → Bool
  isResourceDepot : Ty → Bool
  isResourceContainer : Ty → Bool
  isNonUsable : Ty → Bool
  isSpecialBuilding : Ty → Bool
  /-- Hive, Lair, Greater Spire, Spore Colony and Sunken Colony -/
  isMorphingBuilding : Ty → Bool
  /-- the upgrade of Ghosts, Overlords, Observers and Scouts -/
  sightUpgrade : Ty → Option UpgradeType
  sightRange : Ty → Int
  dimensionUp : Ty → Int
  dimensionDown : Ty → Int
  dimensionLeft : Ty → Int
  dimensionRight : Ty → Int

structure Order where
  type : Int
  targetId : UnitId

structure TcUnit (Ty : Type*) where
  id : UnitId
  x : Int
  y : Int
  playerId : PlayerId
  type : Ty
  flags : Flag → Bool
  orders : List Order := []

/-- `units` is an unordered map, so no id comes twice -/
structure Frame (Ty : Type*) where
  frame : FrameNum
  units : List (TcUnit Ty)
  deaths : List UnitId := []
  /-- is the tile visible; `none` is outside of the map -/
  tryGetTile : Int → Int → Option Bool := fun _ _ => some false
  upgraded : UpgradeType → Bool := fun _ => false
  /-- what `inferMovePosition` finds for a unit; the origin says that there is no such place -/
  inferMovePosition : UnitId → Position := fun _ => (0, 0)
  /-- the units that the inference wants to move at the end, and where -/
  moves : List (UnitId × Position) := []
  /-- `std::sort` by the distance to a unit; units at the same distance come in any order -/
  sortByDistance : UnitId → List UnitId → List UnitId := fun _ l => l
  nodup : (units.map TcUnit.id).Nodup := by decide
  sort_perm : ∀ id l, (sortByDistance id l).Perm l := by exact fun _ l => List.Perm.refl l

structure Unit (Ty : Type*) where
  x : Int := 0
  y : Int := 0
  playerId : PlayerId := -1
  visible : Bool := false
  dead : Bool := false
  gone : Bool := false
  lastSeen : FrameNum := 0
  goneFrame : FrameNum := 0
  isMine : Bool := false
  isEnemy : Bool := false
  isNeutral : Bool := false
  type : Option Ty := none
  sightRange : Int := 0
  flags : Flag → Bool := fun _ => false

structure Lists where
  beingAttackedByEnemies : List UnitId := []
  unitsInSightRange : List UnitId := []
  obstaclesInSightRange : List UnitId := []
  enemyUnitsInSightRange : List UnitId := []
  allyUnitsInSightRange : List UnitId := []

inductive Container
  | allUnitsEver | liveUnits | visibleUnits | hiddenUnits | visibleBuildings | resourceUnits
  | myUnits | myWorkers | myBuildings | myResourceDepots | enemyUnits | visibleEnemyUnits
  | neutralUnits
  deriving DecidableEq

structure UnitsInfo (Ty : Type*) where
  unit : UnitId → Option (Unit Ty) := fun _ => none
  lists : UnitId → Lists := fun _ => {}
  cont : Container → Slots UnitId := fun _ => {}
  myUnitsOfType : Ty → List UnitId := fun _ => []
  myCompletedUnitsOfType : Ty → List UnitId := fun _ => []

variable {Ty : Type*}

namespace Unit
variable (g : Game Ty) (f : Frame Ty) (u : Unit Ty)

def completed : Bool := u.flags .completed
def morphing : Bool := u.flags .morphing
def powered : Bool := u.flags .powered
def flying : Bool := u.flags .flying
def lifted : Bool := u.flags .lifted
def blind : Bool := u.flags .blind

/-- the bits that are one in an active unit -/
def flip : Flag → Bool
  | .powered | .completed => true
  | _ => false

def mask : List Flag :=
  [.beingConstructed, .completed, .loaded, .lockedDown, .maelstrommed, .powered, .stasised, .stuck]

def active : Bool := !u.dead && mask.all fun b => (u.flags b ^^ flip b) == false

/-- a unit whose type is not set yet has no attribute -/
def is (a : Ty → Bool) (u : Unit Ty) : Bool := u.type.any a

def unitSightRange (type : Ty) (u : Unit Ty) : Int :=
  if g.isBuilding type && !u.lifted && !u.completed && !g.isMorphingBuilding type then 4 * 4
  else if u.blind then 4 * 2
  else if (g.sightUpgrade type).any f.upgraded then 4 * 11
  else g.sightRange type

def clamp (size x : Int) : Int :=
  let x := if x < 0 then 0 else x
  if x ≥ size then size - 1 else x

def refresh (v : TcUnit Ty) (u : Unit Ty) : Unit Ty :=
  let u : Unit Ty :=
    { u with
      x := clamp g.mapWidth v.x
      y := clamp g.mapHeight v.y
      playerId := v.playerId
      visible := true
      lastSeen := f.frame
      type := some v.type
      flags := v.flags
      isMine := v.playerId == g.playerId
      isEnemy := v.playerId != g.playerId && v.playerId != g.neutralId
      isNeutral := v.playerId == g.neutralId }
  { u with sightRange := unitSightRange g f v.type u }

def changed [DecidableEq Ty] (u u' : Unit Ty) : Bool :=
  u.type.isNone || !u.visible
    || (u'.morphing && (!u.morphing || u'.type != u.type))
    || u'.type != u.type
    || (u'.completed != u.completed || u'.morphing != u.morphing)
    || (u'.active != u.active || u'.playerId != u.playerId || u'.type != u.type)

def die : Unit Ty := { u with dead := true, goneFrame := f.frame }

def look : Unit Ty :=
  let u := if u.gone then { u with gone := false } else u
  if u.lastSeen ≠ f.frame then { u with visible := false } else u

/-- how often that loop puts the unit into `needUpdateGroups` -/
def needUpdateGroups : Nat :=
  (if u.gone then 1 else 0) + if u.lastSeen ≠ f.frame then 1 else 0

/-- the loop over `hiddenUnits_`, with the call of `updateGroups` -/
def fade (id : UnitId) (u : Unit Ty) : Unit Ty × Bool :=
  if u.gone then (u, false)
  else if f.tryGetTile u.x u.y = some false then (u, false)
  else if f.frame - u.goneFrame ≥ 40 then ({ u with goneFrame := f.frame }, false)
  else if f.frame - u.goneFrame ≥ 20 then
    if g.inferEnemyPositions && !u.is g.isNonUsable then
      let newPos := f.inferMovePosition id
      if newPos ≠ (0, 0) then ({ u with x := newPos.1, y := newPos.2 }, false)
      else ({ u with gone := true }, false)
    else ({ u with gone := true }, true)
  else (u, false)

def inferMove (pos : Position) (u : Unit Ty) : Unit Ty :=
  if u.visible ∨ pos = (0, 0) then u else { u with x := pos.1, y := pos.2 }

def sees (u o : Unit Ty) : Bool :=
  let oSize : Nat := o.type.elim 0 fun t =>
    max (g.dimensionUp t - g.dimensionDown t).natAbs (g.dimensionLeft t - g.dimensionRight t).natAbs
  let range : Int := u.sightRange + (oSize / 8 : Nat)
  !o.gone && (o.visible && decide (Utils.distance o.x o.y u.x u.y ≤ range))

def isObstacle : Bool := u.is g.isBuilding || u.is g.isGas || u.is g.isMinerals

end Unit

def wants (g : Game Ty) : Container → Unit Ty → Bool
  | .allUnitsEver, _ => true
  | .liveUnits, u => !u.dead
  | .visibleUnits, u => !u.dead && u.visible
  | .hiddenUnits, u => !u.dead && !u.visible
  | .visibleBuildings, u => !u.dead && u.visible && u.is g.isBuilding
  | .resourceUnits, u => !u.dead && !u.gone && u.is g.isResourceContainer
  | .myUnits, u => !u.dead && u.visible && u.playerId == g.playerId && u.powered
  | .myWorkers, u =>
    !u.dead && u.visible && u.playerId == g.playerId && u.is g.isWorker && u.completed
  | .myBuildings, u => !u.dead && u.visible && u.playerId == g.playerId && u.is g.isBuilding
  | .myResourceDepots, u =>
    !u.dead && u.visible && u.playerId == g.playerId && u.is g.isResourceDepot
  | .enemyUnits, u => !u.dead && u.isEnemy
  | .visibleEnemyUnits, u => !u.dead && u.visible && u.isEnemy
  | .neutralUnits, u => !u.dead && u.isNeutral

namespace UnitsInfo
variable (g : Game Ty) (f : Frame Ty) (s : UnitsInfo Ty)

def set (id : UnitId) (u : Unit Ty) : UnitsInfo Ty :=
  { s with unit := update s.unit id (some u) }

/-- the unit is put into or taken out of every container -/
def updateGroups (id : UnitId) : UnitsInfo Ty :=
  match s.unit id with
  | none => s
  | some u => { s with cont := fun c => (s.cont c).put id (wants g c u) }

def revise (h : Unit Ty → Unit Ty × Bool) (s : UnitsInfo Ty) (id : UnitId) : UnitsInfo Ty :=
  match s.unit id with
  | none => s
  | some u => if (h u).2 then (s.set id (h u).1).updateGroups g id else s.set id (h u).1

def touch (id : UnitId) : UnitsInfo Ty := s.set id ((s.unit id).getD {})

def clear (v : TcUnit Ty) : UnitsInfo Ty :=
  let s := s.touch v.id
  { s with lists := update s.lists v.id {} }

/-- the target of the first attack order whose target is known -/
def attackTarget (v : TcUnit Ty) : Option UnitId :=
  (v.orders.find? fun o => g.tcOrderIsAttack o.type && (s.unit o.targetId).isSome).map Order.targetId

def attack (v : TcUnit Ty) : UnitsInfo Ty :=
  match s.attackTarget g v with
  | none => s
  | some t =>
    let l := s.lists t
    { s with
      lists := update s.lists t
        { l with beingAttackedByEnemies := l.beingAttackedByEnemies ++ [v.id] } }

/-- the second loop: `updateUnit`, and `updateGroups` if something changed.  The flag is
`updateMyGroups` -/
def see [DecidableEq Ty] (p : UnitsInfo Ty × Bool) (v : TcUnit Ty) : UnitsInfo Ty × Bool :=
  let s := p.1.touch v.id
  let u := (p.1.unit v.id).getD {}
  let s := s.revise g (fun u => (u.refresh g f v, u.changed (u.refresh g f v))) v.id
  (s.attack g v, p.2 ||
    (u.changed (u.refresh g f v) && (u.playerId == g.playerId || v.playerId == g.playerId)))

def bury (p : UnitsInfo Ty × Bool) (id : UnitId) : UnitsInfo Ty × Bool :=
  (p.1.revise g (fun u => (u.die f, true)) id, p.2 || (p.1.unit id).any Unit.isMine)

def lookAt (p : UnitsInfo Ty × List UnitId) (id : UnitId) : UnitsInfo Ty × List UnitId :=
  (p.1.revise g (fun u => (u.look f, false)) id,
    p.2 ++ List.replicate ((p.1.unit id).elim 0 (Unit.needUpdateGroups f)) id)

def hide : UnitsInfo Ty :=
  let p := (s.cont .visibleUnits).items.foldl (lookAt g f) (s, [])
  p.2.foldl (updateGroups g) p.1

/-- the loop over `hiddenUnits_`; a hidden unit that is gone is still hidden -/
def forget : UnitsInfo Ty :=
  (s.cont .hiddenUnits).items.foldl (fun s id => s.revise g (Unit.fade g f id) id) s

def setLists (h : UnitId → Lists → Lists) (s : UnitsInfo Ty) (id : UnitId) : UnitsInfo Ty :=
  { s with lists := update s.lists id (h id (s.lists id)) }

def watch (id : UnitId) (l : Lists) : Lists :=
  match s.unit id with
  | none => l
  | some u =>
    if u.gone || u.is g.isGas || u.is g.isMinerals || u.playerId < 0 then l
    else
      { l with
        unitsInSightRange := (s.cont .liveUnits).items.filter fun o =>
          o != id && (s.unit o).any (u.sees g) }

/-- the sorting, and the loop that splits `unitsInSightRange` -/
def split (id : UnitId) (l : Lists) : Lists :=
  let sight := f.sortByDistance id l.unitsInSightRange
  let owner (o : UnitId) : Option PlayerId := (s.unit o).map Unit.playerId
  { beingAttackedByEnemies := f.sortByDistance id l.beingAttackedByEnemies
    unitsInSightRange := sight
    obstaclesInSightRange :=
      l.obstaclesInSightRange ++ sight.filter fun o => (s.unit o).any (Unit.isObstacle g)
    enemyUnitsInSightRange := l.enemyUnitsInSightRange ++ sight.filter fun o => owner o != owner id
    allyUnitsInSightRange := l.allyUnitsInSightRange ++ sight.filter fun o => owner o == owner id }

def sight : UnitsInfo Ty :=
  let s := (s.cont .liveUnits).items.foldl (setLists (s.watch g)) s
  (s.cont .liveUnits).items.foldl (setLists (s.split g f)) s

def pushOfType [DecidableEq Ty] (s : UnitsInfo Ty) (m : Ty → List UnitId) (id : UnitId) :
    Ty → List UnitId :=
  match (s.unit id).bind Unit.type with
  | none => m
  | some t => update m t (m t ++ [id])

def regroup [DecidableEq Ty] (s : UnitsInfo Ty) : UnitsInfo Ty :=
  let mine := (s.cont .myUnits).items
  { s with
    myUnitsOfType := mine.foldl (pushOfType s) fun _ => []
    myCompletedUnitsOfType :=
      (mine.filter fun id => (s.unit id).any Unit.completed).foldl (pushOfType s) fun _ => [] }

def infer : UnitsInfo Ty :=
  if g.inferEnemyPositions then
    f.moves.foldl (fun s m => s.revise g (fun u => (u.inferMove m.2, false)) m.1) s
  else s

/-- what the frame says about the units: the first loops, with the flag `updateMyGroups` -/
def read [DecidableEq Ty] (s : UnitsInfo Ty) : UnitsInfo Ty × Bool :=
  let s := f.units.foldl clear s
  let p := f.units.foldl (see g f) (s, false)
  f.deaths.foldl (bury g f) p

def update [DecidableEq Ty] (s : UnitsInfo Ty) : UnitsInfo Ty :=
  let p := s.read g f
  let s := ((p.1.hide g f).forget g f).sight g f
  let s := if p.2 then s.regroup else s
  s.infer g f

end UnitsInfo
end TorchCraft.Units
