import TorchCraft.Placer.Areas

/-!
# Where a building can stand

* `canBuildAt`  the test of a building site: the bounds of the map, then every tile;
* `canBuildAt_iff`  the same as a property of the site;
* `powered_iff`  the power of the whole building is asked for at every one of its tiles.

Log and drawings are left out.
-/

namespace TorchCraft.Placer

/-! ## what the test reads -/

structure Types (B : Type) extends BuildTypes B where
  isResourceDepot : B → Bool
  requiresCreep : B → Bool
  requiresPsi : B → Bool
  isRefinery : B → Bool
  hasGroundWeapon : B → Bool
  hasAirWeapon : B → Bool
  zergHatchery : B
  zergCreepColony : B
  resourceVespeneGeyser : B

structure TileData (B : Type) where
  buildable : Bool := true
  entirelyWalkable : Bool := true
  hasCreep : Bool := false
  expectsCreepBy : Int := 0
  reservedForGathering : Bool := false
  resourceDepotUnbuildable : Bool := false
  reservedForResourceDepot : Bool := false
  blockedUntil : Int := 0
  /-- the type of `building` -/
  building : Option B := none

structure Pylon where
  completed : Bool
  remainingBuildTrainTime : Int
  pixelX : Int
  pixelY : Int

structure State (B : Type) where
  tilesInfo : TilesInfo
  tile : Tile → TileData B
  currentFrame : Int
  pylons : List Pylon := []

/-! ## power -/

def psiFieldMask : List (List Bool) :=
  [[true, true, true, true, true, true, true, true],
    [true, true, true, true, true, true, true, true],
    [true, true, true, true, true, true, true, false],
    [true, true, true, true, true, true, false, false],
    [true, true, true, false, false, false, false, false]]

def isInPsionicMatrixRange (relX relY : Int) : Bool :=
  let x := relX.natAbs
  let y := relY.natAbs
  if x ≥ 256 ∨ y ≥ 160 then false
  else
    let x := if relX < 0 then x - 1 else x
    let y := if relY < 0 then y - 1 else y
    ((psiFieldMask.getD (y / 32) []).getD (x / 32) false)

section sites
variable {B : Type} [DecidableEq B] (T : Types B) (s : State B) (type : B)

/-- `checkPsi`: the centre of a building with its upper left corner at a walk tile is powered -/
def checkPsi (x y : Int) : Bool :=
  let centerPixelX := 8 * x + 32 * (T.tileWidth type : Int) / 2
  let centerPixelY := 8 * y + 32 * (T.tileHeight type : Int) / 2
  s.pylons.any fun u => (u.completed || decide (u.remainingBuildTrainTime ≤ 30)) &&
    isInPsionicMatrixRange (centerPixelX - u.pixelX) (centerPixelY - u.pixelY)

def corner (t : Tile) : Position := ⟨walktilesPerBuildtile * t.1, walktilesPerBuildtile * t.2⟩

def testsBefore (ignoreReserved : Bool) (t : Tile) : Bool :=
  let tile := s.tile t
  let isRefinery := T.isRefinery type
  let geyser := tile.building == some T.resourceVespeneGeyser
  if !tile.buildable || (s.tilesInfo.reservedAsUnbuildable t && !ignoreReserved) then false
  else if isRefinery && !geyser then false
  else if tile.building.isSome && (!geyser || !isRefinery) then false
  else if T.requiresCreep type && !tile.hasCreep &&
    decide (tile.expectsCreepBy > s.currentFrame + 24 * 9) then false
  else !(!T.requiresCreep type && decide (type ≠ T.zergHatchery) && tile.hasCreep)

def testsAfter (t : Tile) : Bool :=
  let tile := s.tile t
  let isResourceDepot := T.isResourceDepot type
  let isDefence := T.hasGroundWeapon type || T.hasAirWeapon type || type == T.zergCreepColony
  if !isResourceDepot && !T.isRefinery type && !isDefence && tile.reservedForGathering then false
  else if isResourceDepot && tile.resourceDepotUnbuildable then false
  else if !isResourceDepot && tile.reservedForResourceDepot then false
  else decide (tile.blockedUntil ≤ s.currentFrame)

def testTile (ignoreReserved : Bool) (t : Tile) : Bool :=
  if !testsBefore T s type ignoreReserved t then false
  else if T.requiresPsi type && !checkPsi T s type (corner t).x (corner t).y then false
  else testsAfter T s type t

def canBuildAt (pos : Position) (ignoreReserved : Bool := false) : Bool :=
  if !inMap T.toBuildTypes s.tilesInfo type pos then false
  else (area T.toBuildTypes type pos).all (testTile T s type ignoreReserved)

/-! ## the test as a property -/

/-- every tile passes the tests but that for power -/
def Clear (ignoreReserved : Bool) (pos : Position) : Prop :=
  ∀ t ∈ area T.toBuildTypes type pos,
    testsBefore T s type ignoreReserved t = true ∧ testsAfter T s type t = true

lemma canBuildAt_iff (pos : Position) (ignoreReserved : Bool) :
    canBuildAt T s type pos ignoreReserved ↔
      inMap T.toBuildTypes s.tilesInfo type pos ∧ Clear T s type ignoreReserved pos ∧
      (T.requiresPsi type → ∀ t ∈ area T.toBuildTypes type pos,
        checkPsi T s type (corner t).x (corner t).y) := by
  have htile (t : Tile) : testTile T s type ignoreReserved t ↔
      (testsBefore T s type ignoreReserved t ∧ testsAfter T s type t) ∧
        (T.requiresPsi type → checkPsi T s type (corner t).x (corner t).y) := by
    unfold testTile
    cases testsBefore T s type ignoreReserved t <;> cases T.requiresPsi type <;>
      cases checkPsi T s type (corner t).x (corner t).y <;> simp
  unfold canBuildAt Clear
  cases inMap T.toBuildTypes s.tilesInfo type pos with
  | false => simp
  | true =>
    simp only [Bool.not_true, Bool.false_eq_true, if_false, true_and, List.all_eq_true, htile]
    exact ⟨fun h => ⟨fun t ht => (h t ht).1, fun hp t ht => (h t ht).2 hp⟩,
      fun h t ht => ⟨h.1 t ht, fun hp => h.2 hp t ht⟩⟩

lemma unreserved_of_testsBefore {t : Tile} (h : testsBefore T s type false t) :
    s.tilesInfo.reservedAsUnbuildable t = false := by
  cases hr : s.tilesInfo.reservedAsUnbuildable t with
  | false => rfl
  | true => simp [testsBefore, hr] at h

lemma canBuildAt_reservable {pos : Position} (h : canBuildAt T s type pos) :
    inMap T.toBuildTypes s.tilesInfo type pos ∧
      ∀ t ∈ area T.toBuildTypes type pos, s.tilesInfo.reservedAsUnbuildable t = false := by
  obtain ⟨hin, hclear, -⟩ := (canBuildAt_iff T s type pos false).mp h
  exact ⟨hin, fun t ht => unreserved_of_testsBefore T s type (hclear t ht).1⟩

def Aligned (pos : Position) : Prop := pos = corner (beginTile pos)

/-- **When the test for power is that of the building.**  It is made at every tile, as if the
building stood there; so exactly if on a clear site with power all these buildings have power. -/
theorem powered_iff (hpsi : T.requiresPsi type = true) (hwidth : 0 < T.tileWidth type)
    (hheight : 0 < T.tileHeight type) (pos : Position) (haligned : Aligned pos)
    (hin : inMap T.toBuildTypes s.tilesInfo type pos = true) :
    (canBuildAt T s type pos = true ↔ Clear T s type false pos ∧
      ∀ t ∈ area T.toBuildTypes type pos, checkPsi T s type (corner t).x (corner t).y = true) ∧
    ((canBuildAt T s type pos = true ↔
        Clear T s type false pos ∧ checkPsi T s type pos.x pos.y = true) ↔
      (Clear T s type false pos → checkPsi T s type pos.x pos.y = true →
        ∀ t ∈ area T.toBuildTypes type pos,
          checkPsi T s type (corner t).x (corner t).y = true)) := by
  have hiff := canBuildAt_iff T s type pos false
  simp only [hin, hpsi, true_and, true_imp_iff] at hiff
  refine ⟨hiff, ⟨fun h hclear hpower => (hiff.mp (h.mpr ⟨hclear, hpower⟩)).2, fun h => ?_⟩⟩
  refine ⟨fun hcan => ⟨(hiff.mp hcan).1, ?_⟩, fun ⟨hclear, hpower⟩ =>
    hiff.mpr ⟨hclear, h hclear hpower⟩⟩
  -- the first tile is where the building stands
  have hfirst : beginTile pos ∈ area T.toBuildTypes type pos :=
    (mem_area T.toBuildTypes type pos _).mpr ⟨⟨le_rfl, by omega⟩, le_rfl, by omega⟩
  have hpower := (hiff.mp hcan).2 _ hfirst
  rwa [← haligned] at hpower

end sites

def gateway : Types Bool where
  tileWidth _ := 4
  tileHeight _ := 3
  isBuilding _ := true
  builtByWorker _ := true
  commandCenter := true
  comsatStation := true
  factory := true
  machineShop := true
  starport := true
  controlTower := true
  scienceFacility := true
  physicsLab := true
  isResourceDepot _ := false
  requiresCreep _ := false
  requiresPsi _ := true
  isRefinery _ := false
  hasGroundWeapon _ := false
  hasAirWeapon _ := false
  zergHatchery := true
  zergCreepColony := true
  resourceVespeneGeyser := true

def besidePylon (pixelX : Int) : State Bool where
  tilesInfo := ⟨20, 12, fun _ => false⟩
  tile _ := {}
  currentFrame := 0
  pylons := [⟨true, 0, pixelX, 128⟩]

theorem powered_iff_beside :
    canBuildAt gateway (besidePylon 320) false ⟨40, 8⟩ = true ↔
      Clear gateway (besidePylon 320) false false ⟨40, 8⟩ ∧
        ∀ t ∈ area gateway.toBuildTypes false ⟨40, 8⟩,
          checkPsi gateway (besidePylon 320) false (corner t).x (corner t).y = true :=
  (powered_iff gateway (besidePylon 320) false rfl (by decide) (by decide) ⟨40, 8⟩ rfl rfl).1

/-- The gateway is in the range of the pylon.  The test asks for power 96 pixels further to the
right and fails. -/
theorem powered_not_built :
    Clear gateway (besidePylon 192) false false ⟨40, 8⟩ ∧
      checkPsi gateway (besidePylon 192) false 40 8 = true ∧
      canBuildAt gateway (besidePylon 192) false ⟨40, 8⟩ = false := by
  unfold Clear
  decide +kernel

end TorchCraft.Placer
