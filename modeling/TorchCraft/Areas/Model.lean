import TorchCraft.Units.Groups

/-!
# `AreaInfo`: the areas of the map, the bases and the start location of the enemy

Every frame, after `UnitsInfo`, `AreaInfo::update` runs

* `updateUnits`  the units are sorted into the areas, and a completed resource depot
  at a base location that is not known yet is registered as a base;
* `updateEnemyStartLocations`  the candidates for the start location of the enemy are reduced;
* `updateBases`  the bases that are no longer alive are dropped.

Our bases and those of the enemy are treated alike, except for what `Side` distinguishes here: which
units count, and the macro depots.  An area is named by its place in `areas_`; its id is one more, so
`nmyAreaId` is never negative once it is set, and is an `Option` here.  Fields that these functions
only write are left out.
-/

namespace TorchCraft.Areas
open TorchCraft.Units Utils Function

inductive Side
  | mine | enemy
  deriving DecidableEq

structure Area where
  liveUnits : List UnitId := []
  visibleUnits : List UnitId := []
  /-- `isMyBase`, `isEnemyBase` -/
  isBase : Side → Bool := fun _ => false
  /-- `hasMyBuildings`, `hasEnemyBuildings` -/
  hasBuildings : Side → Bool := fun _ => false

structure BaseInfo where
  area : Nat
  baseId : Nat
  resourceDepot : UnitId
  deriving DecidableEq

/-- what the map says about positions and areas -/
structure AreaMap where
  getArea : Position → Nat
  baseLocations : Nat → List Position

structure AreaInfo where
  area : Nat → Area := fun _ => {}
  candidateEnemyStartLoc : List Position := []
  /-- `myBases_`, `enemyBases_` -/
  bases : Side → List BaseInfo := fun _ => []
  /-- the keys of `myDepot2Base_` and `enemyDepot2Base_` -/
  depots : Side → List UnitId := fun _ => []
  macroDepots : List UnitId := []

variable {Ty : Type*} [DecidableEq Ty]

/-- a frame as `AreaInfo` sees it: the units, as `UnitsInfo` keeps them, and the visible tiles -/
structure View (g : Game Ty) where
  info : UnitsInfo Ty
  tracked : info.Tracked g
  tileVisible : Position → Bool := fun _ => false

namespace View
variable {g : Game Ty} (v : View g)

def liveUnits : List UnitId := (v.info.cont .liveUnits).items
def enemyUnits : List UnitId := (v.info.cont .enemyUnits).items

end View

def kBaseLocationToDepotDistanceThreshold : Nat := 4 * 2
def kBaseAliveBuildingCountThreshold : Nat := 5

def sideOf (u : Unit Ty) : Option Side :=
  if u.isMine then some .mine else if u.isEnemy then some .enemy else none

def belongs : Side → Unit Ty → Bool
  | .mine, u => u.isMine
  | .enemy, u => u.isEnemy

def findBaseLocationIndexInArea (m : AreaMap) (a : Nat) (u : Unit Ty) : Option Nat :=
  (m.baseLocations a).findIdx? fun p =>
    decide (distance u.x u.y p.1 p.2 ≤ kBaseLocationToDepotDistanceThreshold)

namespace AreaInfo
variable (g : Game Ty) (m : AreaMap) (v : View g) (s : AreaInfo)

def onArea (a : Nat) (h : Area → Area) : AreaInfo :=
  { s with area := update s.area a (h (s.area a)) }

variable (side : Side)

def known (id : UnitId) : Bool :=
  (s.depots side).contains id || match side with
    | .mine => s.macroDepots.contains id
    | .enemy => false

variable (a : Nat) (id : UnitId) (u : Unit Ty)

/-- a new depot is a base, or one that is not at a base location -/
def register : AreaInfo :=
  match findBaseLocationIndexInArea m a u with
  | some i =>
    let s := s.onArea a fun ar => { ar with isBase := update ar.isBase side true }
    { s with
      bases := update s.bases side (s.bases side ++ [⟨a, i, id⟩])
      depots := update s.depots side (id :: s.depots side) }
  | none =>
    let s := s.onArea a fun ar => { ar with hasBuildings := update ar.hasBuildings side true }
    match side with
    | .mine => { s with macroDepots := id :: s.macroDepots }
    | .enemy => s

def enter : AreaInfo :=
  s.onArea a fun ar =>
    { ar with
      liveUnits := ar.liveUnits ++ [id]
      visibleUnits := if u.visible then ar.visibleUnits ++ [id] else ar.visibleUnits }

def checkDepot : AreaInfo :=
  if u.is g.isResourceDepot && u.completed && !s.known side id then s.register m side a id u else s

def checkBuilding (a : Nat) (u : Unit Ty) : AreaInfo :=
  if u.is g.isBuilding then
    s.onArea a fun ar => { ar with hasBuildings := update ar.hasBuildings side true }
  else s

def visit (id : UnitId) : AreaInfo :=
  match v.info.unit id with
  | none => s
  | some u =>
    let a := m.getArea (u.x, u.y)
    if u.is g.isSpecialBuilding then s
    else
      match sideOf u with
      | none => s.enter a id u
      | some side => ((s.enter a id u).checkDepot g m side a id u).checkBuilding g side a u

def updateUnits : AreaInfo :=
  v.liveUnits.foldl (visit g m v) { s with area := fun _ => {} }

/-- the units that are looked at to see whether a base is alive -/
def unitsOf (ar : Area) : Side → List UnitId
  | .mine => ar.visibleUnits
  | .enemy => ar.liveUnits

/-- `isMyBaseAlive` and `isEnemyBaseAlive` -/
def isBaseAlive (b : BaseInfo) : Bool :=
  (s.area b.area).hasBuildings side &&
    decide (kBaseAliveBuildingCountThreshold < (unitsOf (s.area b.area) side).countP fun id =>
      (v.info.unit id).any fun u => belongs side u && u.is g.isBuilding)

def isLost (b : BaseInfo) : Bool :=
  (v.info.unit b.resourceDepot).any Unit.dead && !s.isBaseAlive g v side b

/-- the loop over the bases of one side; the accumulator holds the bases that stay -/
def sweepBase (p : AreaInfo × List BaseInfo) (b : BaseInfo) : AreaInfo × List BaseInfo :=
  if p.1.isLost g v side b then
    let s := p.1.onArea b.area fun ar => { ar with isBase := update ar.isBase side false }
    ({ s with depots := update s.depots side ((s.depots side).filter (· ≠ b.resourceDepot)) },
      p.2)
  else (p.1, p.2 ++ [b])

def sweepBases (s : AreaInfo) : AreaInfo :=
  let p := (s.bases side).foldl (sweepBase g v side) (s, [])
  { p.1 with bases := update p.1.bases side p.2 }

def updateBases : AreaInfo := (s.sweepBases g v .mine).sweepBases g v .enemy

/-- the candidates other than our start location -/
def initializePossibleEnemyLocations (startLocations : List Position) (myStartLoc : Position) :
    AreaInfo :=
  { candidateEnemyStartLoc := startLocations.filter (· ≠ myStartLoc) }

def foundEnemyStartLocation : Bool := s.candidateEnemyStartLoc.length == 1

/-- the loop over the candidates: what is left of them, and the one with enemy buildings -/
def checkCandidates (s : AreaInfo) : List Position → List Position × Option Position
  | [] => ([], none)
  | pos :: l =>
    if (s.area (m.getArea pos)).hasBuildings .enemy then (pos :: l, some pos)
    else if v.tileVisible pos then checkCandidates s l
    else (pos :: (checkCandidates s l).1, (checkCandidates s l).2)

def candidateScore (u : Unit Ty) (pos : Position) : Option ℚ :=
  let d := distance pos.1 pos.2 u.x u.y
  if d > 4 * 30 then none else some d

/-- the loop over the enemy units: the candidate next to the last building that is near one -/
def guess (candidates : List Position) (nmyPos : Option Position) (id : UnitId) : Option Position :=
  match v.info.unit id with
  | none => nmyPos
  | some u =>
    if !u.gone && !u.flying && u.is g.isBuilding then
      match getBestScoreCopy infty (candidateScore u) candidates with
      | none => nmyPos
      | some pos => if pos ≠ (0, 0) then some pos else nmyPos
    else nmyPos

def byElimination : List Position → Option Position → Option Position
  | [pos], _ => some pos
  | _, found => found

def updateEnemyStartLocations : AreaInfo :=
  if s.foundEnemyStartLocation then s
  else
    let p := s.checkCandidates g m v s.candidateEnemyStartLoc
    let nmyPos := match byElimination p.1 p.2 with
      | some pos => some pos
      | none => v.enemyUnits.foldl (guess g v p.1) none
    { s with
      candidateEnemyStartLoc := match nmyPos with
        | some pos => [pos]
        | none => p.1 }

def update : AreaInfo :=
  ((s.updateUnits g m v).updateEnemyStartLocations g m v).updateBases g v

omit [DecidableEq Ty] in
lemma visit_of {g : Game Ty} {m : AreaMap} {v : View g} {s : AreaInfo} {id : UnitId}
    {I : AreaInfo → Prop} (harea : ∀ s a h, I s → I (s.onArea a h))
    (hreg : ∀ s side a (u : Unit Ty), I s → I (s.register m side a id u)) (h : I s) :
    I (s.visit g m v id) := by
  unfold visit
  split
  · exact h
  next u _ =>
    split
    · exact h
    · split
      · exact harea _ _ _ h
      next side _ =>
        have hdepot : ∀ a, I ((s.enter a id u).checkDepot g m side a id u) := by
          intro a
          unfold checkDepot
          split
          · exact hreg _ _ _ _ (harea _ _ _ h)
          · exact harea _ _ _ h
        unfold checkBuilding
        split
        · exact harea _ _ _ (hdepot _)
        · exact hdepot _

end AreaInfo

def views (g : Game Ty) (m : AreaMap) : Lib.Sys AreaInfo (View g) where
  run s v := s.update g m v
  ok _ _ := True

end TorchCraft.Areas
