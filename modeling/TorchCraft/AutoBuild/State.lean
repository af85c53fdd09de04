import Mathlib.Data.List.DropRight
import Mathlib.Algebra.Order.Ring.Unbundled.Rat
import Mathlib.Data.Finset.Insert
import Mathlib.Data.Fintype.Defs
import TorchCraft.Lib.Buckets

/-!
# Build states

The data of the AutoBuild simulation.  The tech tree is a parameter: build types are the elements of
a type `T`, and a `TechTree T` gives the columns of the type table that the simulation reads and the
types the code names.

* `Roster`  `st.units`: the units by type, each stored under its own type (a field, so that a
  unit under a foreign key cannot be built);
* `BuildState`  the simulated state;
* `addUnit`, `removeUnit`, `emplaceProd`, `hasUnit`, `has`, `isInProduction`, …  as in the source.

`double`s are rationals, and the arrays indexed by race are functions on `Race`.
-/

namespace TorchCraft.AutoBuild
open Function

/-- `BWAPI::Races` as they index the supply arrays -/
inductive Race where
  | zerg
  | terran
  | protoss
  deriving DecidableEq, Repr

structure Position where
  x : Int := 0
  y : Int := 0
  deriving DecidableEq, Repr

def kInvalidPosition : Position := ⟨-1, -1⟩

/-- the columns of `BuildType` that the simulation reads -/
structure TypeInfo (T : Type) where
  isUnit : Bool := true
  race : Race := .zerg
  builder : Option T := none
  prerequisites : List T := []
  mineralCost : ℚ := 0
  gasCost : ℚ := 0
  supplyRequired : ℚ := 0
  supplyProvided : ℚ := 0
  buildTime : Int := 0
  isAddon : Bool := false
  isWorker : Bool := false
  isRefinery : Bool := false
  isResourceDepot : Bool := false
  isTwoUnitsInOneEgg : Bool := false

/-- the type table and the types the code names -/
structure TechTree (T : Type) where
  info : T → TypeInfo T
  zergLarva : T
  zergEgg : T
  zergHatchery : T
  zergLair : T
  zergHive : T
  zergSpire : T
  zergGreaterSpire : T
  zergMutalisk : T
  zergHydralisk : T
  zergLurker : T
  zergExtractor : T
  zergOverlord : T
  lurkerAspect : T
  terranRefinery : T
  terranSupplyDepot : T
  terranNuclearMissile : T
  protossAssimilator : T
  protossPylon : T
  protossArchon : T
  protossDarkArchon : T

def TechTree.getRaceRefinery {T : Type} (tt : TechTree T) : Race → T
  | .protoss => tt.protossAssimilator
  | .zerg => tt.zergExtractor
  | .terran => tt.terranRefinery

def TechTree.getRaceSupplyDepot {T : Type} (tt : TechTree T) : Race → T
  | .protoss => tt.protossPylon
  | .zerg => tt.zergOverlord
  | .terran => tt.terranSupplyDepot

structure BuildStateUnit (T : Type) where
  type : T
  busyUntil : Int := 0
  addon : Option T := none
  larvaTimer : Int := 0
  deriving DecidableEq

/-- a request; the callback is known by a number -/
structure BuildEntry (T : Type) where
  type : T
  pos : Position := {}
  builtCallback : Option Nat := none

variable {T : Type} [DecidableEq T]

/-- `BuildEntry::operator==`, which ignores the callback -/
def BuildEntry.same (e e' : BuildEntry T) : Bool := decide (e.type = e'.type ∧ e.pos = e'.pos)

/-! ## the units by type -/

structure Roster (T : Type) where
  list : T → List (BuildStateUnit T)
  typed : ∀ t, ∀ u ∈ list t, u.type = t

namespace Roster

def empty : Roster T := ⟨fun _ => [], nofun⟩

lemma typed_update (r : Roster T) {t : T} {l : List (BuildStateUnit T)} (hl : ∀ u ∈ l, u.type = t) :
    ∀ t', ∀ u ∈ update r.list t l t', u.type = t' :=
  (forall_update_iff r.list fun t l => ∀ u ∈ l, u.type = t).mpr ⟨hl, fun t' _ => r.typed t'⟩

def push (r : Roster T) (u : BuildStateUnit T) : Roster T where
  list := update r.list u.type (r.list u.type ++ [u])
  typed := r.typed_update fun v hv => by
    rcases List.mem_append.mp hv with hv | hv
    · exact r.typed _ v hv
    · rw [List.mem_singleton.mp hv]

variable (r : Roster T) (t : T) (i : Nat)

/-- a write to the unit at place `i` of `st.units[t]` that keeps its type -/
def modify (f : BuildStateUnit T → BuildStateUnit T)
    (hf : ∀ u, (f u).type = u.type) : Roster T where
  list := update r.list t ((r.list t).modify i f)
  typed := r.typed_update fun v hv => by
    rcases Lib.Buckets.mem_modify hv with hv | ⟨u, hu, rfl⟩
    · exact r.typed t v hv
    · rw [hf]
      exact r.typed t u (List.mem_of_getElem? hu)

def erase : Roster T where
  list := update r.list t ((r.list t).eraseIdx i)
  typed := r.typed_update fun v hv => r.typed t v (List.mem_of_mem_eraseIdx hv)

lemma erase_self : (r.erase t i).list t = (r.list t).eraseIdx i :=
  update_self ..

lemma erase_of_ne (r : Roster T) {t t' : T} (h : t' ≠ t) (i : Nat) :
    (r.erase t i).list t' = r.list t' := update_of_ne h ..

end Roster

structure BuildState (T : Type) where
  frame : Int := 0
  race : Race := .zerg
  minerals : ℚ := 0
  gas : ℚ := 0
  mineralsPerFramePerGatherer : ℚ := 0
  gasPerFramePerGatherer : ℚ := 0
  usedSupply : Race → ℚ := fun _ => 0
  maxSupply : Race → ℚ := fun _ => 0
  inprodSupply : Race → ℚ := fun _ => 0
  units : Roster T
  upgradesAndTech : T → Bool := fun _ => false
  production : List (Int × T) := []
  buildOrder : List (Int × BuildEntry T) := []
  morphingHatcheries : List (BuildStateUnit T) := []
  workers : Int := 0
  refineries : Int := 0
  availableGases : Int := 0
  autoBuildRefineries : Bool := true
  autoBuildHatcheries : Bool := true
  isExpanding : Bool := false

/-! ## queries -/

section Queries
variable (tt : TechTree T) (st : BuildState T) (type : T)

def hasUnit : Bool := !(st.units.list type).isEmpty

def has : Bool := if (tt.info type).isUnit then hasUnit st type else st.upgradesAndTech type

def isInProduction : Bool := st.production.any (fun v => decide (v.2 = type))

def hasOrInProduction : Bool := has tt st type || isInProduction st type

def countProduction : Nat := st.production.countP (fun v => decide (v.2 = type))

end Queries

/-! ## changes -/

def bump (a : Race → ℚ) (r : Race) (x : ℚ) : Race → ℚ := update a r (a r + x)

def addUnit (tt : TechTree T) (st : BuildState T) (type : T) : BuildState T :=
  let i := tt.info type
  { st with
    units := st.units.push { type := type }
    workers := if i.isWorker then st.workers + 1 else st.workers
    refineries := if i.isRefinery then st.refineries + 1 else st.refineries
    usedSupply := bump st.usedSupply i.race i.supplyRequired
    maxSupply := bump st.maxSupply i.race i.supplyProvided }

def removeUnit (tt : TechTree T) (st : BuildState T) (type : T) (i : Nat) : BuildState T :=
  let info := tt.info type
  { st with
    usedSupply := bump st.usedSupply info.race (-info.supplyRequired)
    maxSupply := bump st.maxSupply info.race (-info.supplyProvided)
    workers := if info.isWorker then st.workers - 1 else st.workers
    refineries := if info.isRefinery then st.refineries - 1 else st.refineries
    units := st.units.erase type i }

/-- insertion after the last entry that is not later, found from the end of the list -/
def emplaceProd {α : Type} (list : List (Int × α)) (frame : Int) (t : α) : List (Int × α) :=
  list.rdropWhile (fun e => decide (frame < e.1)) ++
    (frame, t) :: list.rtakeWhile (fun e => decide (frame < e.1))

/-! ## a small tech tree -/

inductive Toy where
  | larva
  | hatchery
  | drone
  | overlord
  | pool
  | zergling
  | other
  deriving DecidableEq, Repr

instance : Fintype Toy where
  elems := {.larva, .hatchery, .drone, .overlord, .pool, .zergling, .other}
  complete := by
    intro t
    cases t <;> decide

/-- the beginning of the Zerg tech tree; the names of all other types stand for `other` -/
def toyTree : TechTree Toy where
  info
    | .larva => {}
    | .hatchery =>
      { builder := some .drone, prerequisites := [.drone], mineralCost := 300,
        supplyProvided := 1, buildTime := 1800, isResourceDepot := true }
    | .drone =>
      { builder := some .larva, prerequisites := [.larva], mineralCost := 50,
        supplyRequired := 1, buildTime := 300, isWorker := true }
    | .overlord =>
      { builder := some .larva, prerequisites := [.larva], mineralCost := 100,
        supplyProvided := 8, buildTime := 600 }
    | .pool =>
      { builder := some .drone, prerequisites := [.hatchery, .drone], mineralCost := 200,
        buildTime := 1200 }
    | .zergling =>
      { builder := some .larva, prerequisites := [.pool, .larva], mineralCost := 50,
        supplyRequired := 1 / 2, buildTime := 420, isTwoUnitsInOneEgg := true }
    | .other => {}
  zergLarva := .larva
  zergEgg := .other
  zergHatchery := .hatchery
  zergOverlord := .overlord
  zergLair := .other
  zergHive := .other
  zergSpire := .other
  zergGreaterSpire := .other
  zergMutalisk := .other
  zergHydralisk := .other
  zergLurker := .other
  zergExtractor := .other
  lurkerAspect := .other
  terranRefinery := .other
  terranSupplyDepot := .other
  terranNuclearMissile := .other
  protossAssimilator := .other
  protossPylon := .other
  protossArchon := .other
  protossDarkArchon := .other

def toyState : BuildState Toy where
  minerals := 50
  frame := 400
  usedSupply := fun _ => 1
  maxSupply := fun _ => 9
  units := (Roster.empty.push { type := .hatchery }).push { type := .drone }
  workers := 1

/-! ## a larger tech tree -/

inductive Sample where
  | larva
  | drone
  | overlord
  | hatchery
  | lair
  | hive
  | extractor
  | spawningPool
  | hydraliskDen
  | hydralisk
  | lurker
  | lurkerAspect
  | gateway
  | highTemplar
  | archon
  | other
  deriving DecidableEq, Repr

instance : Fintype Sample where
  elems := {.larva, .drone, .overlord, .hatchery, .lair, .hive, .extractor, .spawningPool,
    .hydraliskDen, .hydralisk, .lurker, .lurkerAspect, .gateway, .highTemplar, .archon, .other}
  complete := by
    intro t
    cases t <;> decide

/-- what hatcheries become, gas, a technology and the templars that merge -/
def sampleTree : TechTree Sample where
  info
    | .larva => { builder := some .hatchery, prerequisites := [.hatchery], buildTime := 1 }
    | .drone =>
      { builder := some .larva, prerequisites := [.larva], mineralCost := 50,
        supplyRequired := 1, buildTime := 300, isWorker := true }
    | .overlord =>
      { builder := some .larva, prerequisites := [.larva], mineralCost := 100,
        supplyProvided := 8, buildTime := 600 }
    | .hatchery =>
      { builder := some .drone, prerequisites := [.drone], mineralCost := 300,
        supplyProvided := 1, buildTime := 1800, isResourceDepot := true }
    | .lair =>
      { builder := some .hatchery, prerequisites := [.spawningPool, .hatchery], mineralCost := 150,
        gasCost := 100, supplyProvided := 1, buildTime := 1500, isResourceDepot := true }
    | .hive =>
      { builder := some .lair, prerequisites := [.lair], mineralCost := 200, gasCost := 150,
        supplyProvided := 1, buildTime := 1800, isResourceDepot := true }
    | .extractor =>
      { builder := some .drone, prerequisites := [.drone], mineralCost := 50, buildTime := 600,
        isRefinery := true }
    | .spawningPool =>
      { builder := some .drone, prerequisites := [.hatchery, .drone], mineralCost := 200,
        buildTime := 1200 }
    | .hydraliskDen =>
      { builder := some .drone, prerequisites := [.drone], mineralCost := 100, gasCost := 50,
        buildTime := 600 }
    | .hydralisk =>
      { builder := some .larva, prerequisites := [.hydraliskDen, .larva], mineralCost := 75,
        gasCost := 25, supplyRequired := 1, buildTime := 420 }
    | .lurker =>
      { builder := some .hydralisk, prerequisites := [.lurkerAspect, .hydralisk], mineralCost := 50,
        gasCost := 100, supplyRequired := 2, buildTime := 600 }
    | .lurkerAspect =>
      { isUnit := false, builder := some .hydraliskDen, prerequisites := [.lair, .hydraliskDen],
        mineralCost := 200, gasCost := 200, buildTime := 1800 }
    | .gateway => { race := .protoss }
    | .highTemplar =>
      { race := .protoss, builder := some .gateway, prerequisites := [.gateway], mineralCost := 50,
        gasCost := 150, supplyRequired := 2, buildTime := 750 }
    | .archon =>
      { race := .protoss, builder := some .highTemplar, prerequisites := [.highTemplar],
        supplyRequired := 4, buildTime := 20 }
    | .other => {}
  zergLarva := .larva
  zergEgg := .other
  zergHatchery := .hatchery
  zergOverlord := .overlord
  zergLair := .lair
  zergHive := .hive
  zergSpire := .other
  zergGreaterSpire := .other
  zergMutalisk := .other
  zergHydralisk := .hydralisk
  zergLurker := .lurker
  zergExtractor := .extractor
  lurkerAspect := .lurkerAspect
  terranRefinery := .other
  terranSupplyDepot := .other
  terranNuclearMissile := .other
  protossAssimilator := .other
  protossPylon := .other
  protossArchon := .archon
  protossDarkArchon := .archon

end TorchCraft.AutoBuild
