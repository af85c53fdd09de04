import TorchCraft.AutoBuild.Simulation

/-!
# The state of the game

`getMyState` reads the units of the player into a `BuildState`: what is complete becomes a unit, what
is not goes into production.

* `ImportTree`, `GameUnit`, `World`  what `getMyState` reads;
* `importUnit`, `getMyState`  the function;
* `Imports`, `Imports.getMyState`  the rule for what it establishes, one case for each way in which a
  unit is read.

Whether there is a free geyser (`findGeyserForRefinery`) is given by the world.
-/

namespace TorchCraft.AutoBuild

variable {T : Type} [DecidableEq T]

/-! ## what is read -/

/-- the type table with the further types and columns that `getMyState` names -/
structure ImportTree (T : Type) extends TechTree T where
  zergCocoon : T
  zergLurkerEgg : T
  zergDrone : T
  terranSiegeTankSiegeMode : T
  terranSiegeTankTankMode : T
  terranNuclearSilo : T
  terranSCV : T
  protossProbe : T
  level : T → Int
  allUpgradeTypes : List T
  allTechTypes : List T

structure GameUnit (tt : TechTree T) where
  id : Nat
  type : T
  completed : Bool := true
  morphing : Bool := false
  upgrading : Bool := false
  researching : Bool := false
  constructingType : Option T := none
  upgradingType : Option T := none
  researchingType : Option T := none
  remainingBuildTrainTime : Int := 0
  remainingUpgradeResearchTime : Int := 0
  /-- the type of the add-on -/
  addon : Option T := none
  associatedUnit : Option Nat := none
  associatedCount : Int := 0
  upgradingType_tech : ∀ t, upgradingType = some t → (tt.info t).isUnit = false := by
    intro t h; cases h
  researchingType_tech : ∀ t, researchingType = some t → (tt.info t).isUnit = false := by
    intro t h; cases h

structure World (it : ImportTree T) where
  currentFrame : Int
  ore : Int := 0
  gas : Int := 0
  used_psi : Int := 0
  total_psi : Int := 0
  kMineralsPerFramePerGatherer : Option ℚ := none
  kGasPerFramePerGatherer : Option ℚ := none
  /-- `findGeyserForRefinery` finds one -/
  geyser : Bool := false
  myUnits : List (GameUnit it.toTechTree)
  getUpgradeLevel : T → Int := fun _ => 0
  hasResearched : T → Bool := fun _ => false

/-! ## reading units -/

section read
variable {it : ImportTree T}

def larvaeOf (us : List (GameUnit it.toTechTree)) (id : Nat) : Int :=
  us.countP fun u => decide (u.type = it.zergLarva) && decide (u.associatedUnit = some id)

def toProduction (st : BuildState T) (frame : Int) (t : T) : BuildState T :=
  { st with production := emplaceProd st.production frame t }

def importResearch (st : BuildState T) (active : Bool) (remaining : Int) (type : Option T) :
    BuildState T :=
  match active, type with
  | true, some t => toProduction st (st.frame + remaining) t
  | _, _ => st

def morphingRecord (frame : Int) (larvae : Int) (u : GameUnit it.toTechTree) (t : T) :
    BuildStateUnit T where
  type := t
  busyUntil := frame + u.remainingUpgradeResearchTime
  larvaTimer := frame - 342 * larvae

def importProduction (larvae : Nat → Int) (st : BuildState T) (u : GameUnit it.toTechTree) (t : T) :
    BuildState T :=
  let frame := st.frame + u.remainingBuildTrainTime
  let st := toProduction st frame t
  let st := if (it.info t).isTwoUnitsInOneEgg then toProduction st frame t else st
  let st := if t = it.zergLair ∨ t = it.zergHive then
      { st with morphingHatcheries :=
          st.morphingHatcheries ++ [morphingRecord st.frame (larvae u.id) u t] }
    else st
  { st with inprodSupply := bump st.inprodSupply (it.info t).race (it.info t).supplyProvided }

def readRecord (it : ImportTree T) (frame larvae : Int) (u : GameUnit it.toTechTree) (t : T)
    (v : BuildStateUnit T) : BuildStateUnit T :=
  let v := if u.addon.isSome then { v with addon := u.addon } else v
  let v := if t = it.terranNuclearSilo ∧ u.associatedCount ≠ 0 then { v with busyUntil := intMax }
    else v
  if t = it.zergHatchery ∨ t = it.zergLair ∨ t = it.zergHive then
    { v with
      busyUntil := frame + u.remainingUpgradeResearchTime
      larvaTimer := frame - 342 + u.remainingBuildTrainTime - 342 * larvae }
  else { v with busyUntil := frame + max u.remainingBuildTrainTime u.remainingUpgradeResearchTime }

lemma readRecord_type (it : ImportTree T) (frame larvae : Int) (u : GameUnit it.toTechTree) (t : T)
    (v : BuildStateUnit T) : (readRecord it frame larvae u t v).type = v.type := by
  unfold readRecord
  split <;> split <;> split <;> rfl

def importCompleted (larvae : Nat → Int) (st : BuildState T) (u : GameUnit it.toTechTree) (t : T) :
    BuildState T :=
  modifyAt (addUnit it.toTechTree st t) (.unit t (st.units.list t).length)
    (readRecord it st.frame (larvae u.id) u t) (readRecord_type it st.frame (larvae u.id) u t)

def hatches (it : ImportTree T) (u : GameUnit it.toTechTree) (t : T) : Option T :=
  (if t = it.zergEgg ∨ t = it.zergCocoon then u.constructingType else some t).map fun t =>
    if t = it.zergLurkerEgg then it.zergLurker else t

def seenType (it : ImportTree T) (u : GameUnit it.toTechTree) : T :=
  if u.type = it.terranSiegeTankSiegeMode then it.terranSiegeTankTankMode else u.type

def importUnit (it : ImportTree T) (larvae : Nat → Int) (st : BuildState T)
    (u : GameUnit it.toTechTree) : BuildState T :=
  let t := seenType it u
  let st := importResearch st u.upgrading u.remainingUpgradeResearchTime u.upgradingType
  let st := importResearch st u.researching u.remainingUpgradeResearchTime u.researchingType
  if t = it.zergLarva then st
  else
    match hatches it u t with
    | none => st
    | some t =>
      if !u.completed || u.morphing then importProduction larvae st u t
      else importCompleted larvae st u t

/-- the race of the most workers -/
def workerRace (it : ImportTree T) (st : BuildState T) : Race :=
  let scvs := countUnits it.toTechTree st it.terranSCV
  let probes := countUnits it.toTechTree st it.protossProbe
  let drones := countUnits it.toTechTree st it.zergDrone
  let best := max scvs (max probes drones)
  if best = scvs then .terran else if best = probes then .protoss
  else if best = drones then .zerg else .terran

def emptyState (w : World it) : BuildState T where
  frame := w.currentFrame
  minerals := w.ore
  gas := w.gas
  mineralsPerFramePerGatherer := w.kMineralsPerFramePerGatherer.getD 0
  gasPerFramePerGatherer := w.kGasPerFramePerGatherer.getD 0
  availableGases := if w.geyser then 1 else 0
  units := Roster.empty

def imported (w : World it) : BuildState T :=
  w.myUnits.foldl (importUnit it (larvaeOf w.myUnits)) (emptyState w)

def getMyState (w : World it) : BuildState T :=
  let st := imported w
  { st with
    upgradesAndTech := fun t =>
      (decide (t ∈ it.allUpgradeTypes) && decide (w.getUpgradeLevel t ≥ it.level t)) ||
        (decide (t ∈ it.allTechTypes) && w.hasResearched t)
    usedSupply := fun _ => w.used_psi / 2
    maxSupply := fun _ => w.total_psi / 2
    race := workerRace it st }

end read

/-! ## what is established -/

/-- a unit is read in three ways: as a research, into the production, as a complete unit -/
structure Imports (it : ImportTree T) (I : BuildState T → Prop) : Prop where
  research : ∀ st frame t, (it.info t).isUnit = false → I st → I (toProduction st frame t)
  production : ∀ larvae st (u : GameUnit it.toTechTree) t, I st → I (importProduction larvae st u t)
  completed : ∀ larvae st (u : GameUnit it.toTechTree) t, I st → I (importCompleted larvae st u t)

namespace Imports
variable {it : ImportTree T} {I : BuildState T → Prop}

lemma importResearch (hi : Imports it I) {st : BuildState T} {active : Bool} {remaining : Int}
    {type : Option T} (ht : ∀ t, type = some t → (it.info t).isUnit = false) (h : I st) :
    I (importResearch st active remaining type) := by
  unfold AutoBuild.importResearch
  split
  · exact hi.research st _ _ (ht _ rfl) h
  · exact h

lemma importUnit (hi : Imports it I) (larvae : Nat → Int) (st : BuildState T)
    (u : GameUnit it.toTechTree) (h : I st) : I (importUnit it larvae st u) := by
  have hread : I (AutoBuild.importResearch (AutoBuild.importResearch st u.upgrading
      u.remainingUpgradeResearchTime u.upgradingType) u.researching u.remainingUpgradeResearchTime
      u.researchingType) :=
    hi.importResearch u.researchingType_tech (hi.importResearch u.upgradingType_tech h)
  unfold AutoBuild.importUnit
  dsimp only
  split
  · exact hread
  · split
    · exact hread
    · split
      · exact hi.production larvae _ u _ hread
      · exact hi.completed larvae _ u _ hread

lemma imported (hi : Imports it I) (w : World it) (h : I (emptyState w)) : I (imported w) := by
  unfold AutoBuild.imported
  generalize larvaeOf w.myUnits = larvae
  generalize emptyState w = st at h
  induction w.myUnits generalizing st with
  | nil => exact h
  | cons u us ih => exact ih (AutoBuild.importUnit it larvae st u) (hi.importUnit larvae st u h)

end Imports

section established
variable {it : ImportTree T}

lemma imports_unplanned : Imports it (fun st => st.buildOrder = []) where
  research st frame t _ h := h
  production larvae st u t h := by
    unfold importProduction toProduction
    split <;> split <;> exact h
  completed larvae st u t h := h

def World.game (w : World it) (myRace : Race) : Game T where
  getMyState := getMyState w
  myRace := myRace
  unplanned := imports_unplanned.imported w rfl

lemma imports_timed : Imports it Timed where
  research st frame t _ h := ⟨pairwise_emplaceProd h.production frame t, h.buildOrder⟩
  production larvae st u t h := by
    unfold importProduction toProduction
    split <;> split <;> refine ⟨?_, h.buildOrder⟩ <;>
      first
      | exact pairwise_emplaceProd (pairwise_emplaceProd h.production _ t) _ t
      | exact pairwise_emplaceProd h.production _ t
  completed larvae st u t h := ⟨h.production, h.buildOrder⟩

variable [Fintype T]

lemma uncounted_importProduction (larvae : Nat → Int) (st : BuildState T)
    (u : GameUnit it.toTechTree) (t : T) : Uncounted st (importProduction larvae st u t) := by
  unfold importProduction toProduction
  split <;> split <;> exact ⟨rfl, rfl, rfl, fun _ => rfl⟩

lemma imports_tally : Imports it (fun st => Tally it.toTechTree st.availableGases st) where
  research st frame t _ h := by
    refine h.of_uncounted ?_
    exact ⟨rfl, rfl, rfl, fun _ => rfl⟩
  production larvae st u t h := by
    have hu := uncounted_importProduction larvae st u t
    rw [hu.availableGases]
    exact h.of_uncounted hu
  completed larvae st u t h := (tally_addUnit h t).of_uncounted (.modifyAt (.refl _) ..)

lemma tally_getMyState (w : World it) :
    Tally it.toTechTree (getMyState w).availableGases (getMyState w) := by
  have hempty : ∀ g : T → ℚ, (Roster.empty : Roster T).total g = 0 :=
    fun g => Finset.sum_eq_zero fun t _ => rfl
  have hinit : Tally it.toTechTree (emptyState w).availableGases (emptyState w) := by
    constructor
    · show ((0 : Int) : ℚ) = (Roster.empty : Roster T).total _
      rw [hempty, Int.cast_zero]
    · show ((0 : Int) : ℚ) + _ = (Roster.empty : Roster T).total _ + _
      rw [hempty, Int.cast_zero]
  have h := imports_tally.imported w hinit
  exact ⟨h.workers, h.refineries⟩

/-- **What is simulated from a game is in order.**  Production and build order are sorted, the
workers are counted, and the refineries exactly if as many geysers are free as in the game. -/
theorem simulated_game (it : ImportTree T) (ha : Archons it.toTechTree) (w : World it) (myRace : Race)
    (st : BuildState T)
    (h : Relation.ReflTransGen (Call it.toTechTree) (w.game myRace).getMyState st) :
    Timed st ∧ st.workers = countWhere it.toTechTree TypeInfo.isWorker st ∧
      (st.refineries = countWhere it.toTechTree TypeInfo.isRefinery st ↔
        st.availableGases = (w.game myRace).getMyState.availableGases) := by
  have htimed := imports_timed.imported w ⟨.nil, .nil⟩
  have hend := calls_keep (keeps_tally ha _) h (tally_getMyState w)
  have hworkers := hend.workers
  have hrefineries := hend.refineries
  rw [← countWhere_eq] at hworkers hrefineries
  refine ⟨calls_keep keeps_timed h ⟨htimed.production, htimed.buildOrder⟩,
    by exact_mod_cast hworkers, ?_⟩
  have hsum : st.refineries + st.availableGases =
      countWhere it.toTechTree TypeInfo.isRefinery st + (getMyState w).availableGases := by
    exact_mod_cast hrefineries
  show _ ↔ _ = (getMyState w).availableGases
  omega

end established

end TorchCraft.AutoBuild
