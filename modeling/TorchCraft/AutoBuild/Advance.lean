import TorchCraft.AutoBuild.State

/-!
# `advance`

`advance st thing endFrame` runs the simulation until `thing` is put into production or `endFrame`
is reached.  The source's one long loop is cut at its comments:

* `supplyCheck`  the supply decision;
* `start`  the thing is put into production.

The loop is bounded by the frames that are left: a time step is at least one frame
(`advanceLoop_decides`: the bound is never met).
-/

set_option linter.unusedSectionVars false

namespace TorchCraft.AutoBuild

variable {T : Type} [DecidableEq T]

/-- what `advance` returns: null, `failed`, `timeout`, `builtdep` or a type to build first -/
inductive Advanced (T : Type) where
  | success
  | failed
  | timeout
  | builtdep
  | needs (t : T)
  deriving DecidableEq

/-! ## prerequisites -/

section Prerequisites
variable (tt : TechTree T)

/-- the four cases in which a prerequisite that is not there is passed over -/
def morphEquivalent (st : BuildState T) (prereq : T) : Bool :=
  if prereq = tt.zergSpire ∧ hasOrInProduction tt st tt.zergGreaterSpire then true
  else if prereq = tt.zergHatchery ∧ hasOrInProduction tt st tt.zergHive then true
  else if prereq = tt.zergHatchery ∧ hasOrInProduction tt st tt.zergLair then true
  else if prereq = tt.zergLair ∧ hasOrInProduction tt st tt.zergHive then true
  else false

def requiresAddon (build : T) (prereq : T) : Bool :=
  (tt.info prereq).isAddon && decide ((tt.info prereq).builder = (tt.info build).builder) &&
    !((tt.info build).builder.any fun b => (tt.info b).isAddon)

/-- the loop before the main loop: a missing prerequisite, or the add-on and whether one is in
production -/
def entryCheck (st : BuildState T) (build : T) :
    List T → Option T → Bool → Except T (Option T × Bool)
  | [], addonRequired, prereqInProd => .ok (addonRequired, prereqInProd)
  | prereq :: prereqs, addonRequired, prereqInProd =>
    if prereq = tt.zergLarva then entryCheck st build prereqs addonRequired prereqInProd
    else
      let addonRequired := if requiresAddon tt build prereq then some prereq else addonRequired
      if has tt st prereq then entryCheck st build prereqs addonRequired prereqInProd
      else if morphEquivalent tt st prereq then entryCheck st build prereqs addonRequired prereqInProd
      else if isInProduction st prereq then entryCheck st build prereqs addonRequired true
      else .error prereq

/-- the recheck in the completion loop; it asks `hasUnit`, also for upgrades and technologies -/
def recheck (st : BuildState T) (build : T) : Bool :=
  (tt.info build).prerequisites.any fun prereq =>
    !decide (prereq = tt.zergLarva) && !hasUnit st prereq && !morphEquivalent tt st prereq

end Prerequisites

/-! ## pointers to units -/

inductive Loc (T : Type) where
  | unit (t : T) (i : Nat)
  | morphing (i : Nat)

def modifyAt (st : BuildState T) (l : Loc T) (f : BuildStateUnit T → BuildStateUnit T)
    (hf : ∀ u, (f u).type = u.type) : BuildState T :=
  match l with
  | .unit t i => { st with units := st.units.modify t i f hf }
  | .morphing i => { st with morphingHatcheries := st.morphingHatcheries.modify i f }

def unitAt (st : BuildState T) : Loc T → Option (BuildStateUnit T)
  | .unit t i => (st.units.list t)[i]?
  | .morphing i => st.morphingHatcheries[i]?

/-! ## completion -/

def addonPlace (frame : Int) (us : List (BuildStateUnit T)) : Option Nat :=
  us.findIdx? fun v => decide (frame ≥ v.busyUntil) && v.addon.isNone

variable (tt : TechTree T) (st : BuildState T)

def attachAddon (t : T) : BuildState T :=
  match (tt.info t).builder with
  | none => st
  | some b =>
    match addonPlace st.frame (st.units.list b) with
    | none => st
    | some i => modifyAt st (.unit b i) (fun v => { v with addon := some t }) (fun _ => rfl)

/-- the supply of the unit `t` is taken off the production and, for a moment, off the used supply -/
def releaseSupply (t : T) : BuildState T :=
  { st with
    inprodSupply := bump st.inprodSupply (tt.info t).race (-(tt.info t).supplyProvided)
    usedSupply := bump st.usedSupply (tt.info t).race (-(tt.info t).supplyRequired) }

/-- a lair or hive that morphed on gives its larvae itself again -/
def popMorphing (t : T) : BuildState T :=
  if (tt.info t).builder = some tt.zergLair ∨ (tt.info t).builder = some tt.zergHive then
    { st with morphingHatcheries := st.morphingHatcheries.dropLast }
  else st

def completeOne (t : T) : BuildState T :=
  if (tt.info t).isUnit then
    let st := if (tt.info t).isAddon then attachAddon tt st t else st
    popMorphing tt (addUnit tt (releaseSupply tt st t) t) t
  else { st with upgradesAndTech := Function.update st.upgradesAndTech t true }

def completeDue (tt : TechTree T) (build : Option T) :
    List (Int × T) → BuildState T → Bool → BuildState T × Bool
  | [], st, prereqInProd => ({ st with production := [] }, prereqInProd)
  | e :: es, st, prereqInProd =>
    if st.frame ≥ e.1 then
      let st := completeOne tt { st with production := es } e.2
      let prereqInProd := if prereqInProd then build.any (recheck tt st) else prereqInProd
      completeDue tt build es st prereqInProd
    else ({ st with production := e :: es }, prereqInProd)

/-! ## automatic refineries and supply -/

def pay (build : T) : BuildState T :=
  { st with
    minerals := st.minerals - (tt.info build).mineralCost
    gas := st.gas - (tt.info build).gasCost }

def addBuilt (t : T) (subtractBuildTime : Bool) : BuildState T :=
  pay tt (addUnit tt { st with
    buildOrder := emplaceProd st.buildOrder
      (st.frame - if subtractBuildTime then (tt.info t).buildTime else 0) { type := t } } t) t

section Afford
variable (tt : TechTree T) (st : BuildState T) (build : T)

def hasEnoughMinerals : Bool :=
  decide ((tt.info build).mineralCost = 0 ∨ st.minerals ≥ (tt.info build).mineralCost)

def hasEnoughGas : Bool := decide ((tt.info build).gasCost = 0 ∨ st.gas ≥ (tt.info build).gasCost)

/-- only gas is short, and the minerals pay for a refinery as well -/
def wantsRefinery : Bool :=
  st.autoBuildRefineries && decide (st.availableGases ≠ 0) && hasEnoughMinerals tt st build &&
    !hasEnoughGas tt st build && decide (st.minerals ≥ (tt.info build).mineralCost +
      (tt.info (tt.getRaceRefinery (tt.info build).race)).mineralCost)

end Afford

/-- the refinery `t` is built ahead; it is counted here once more than in `addUnit` -/
def prebuildRefinery (t : T) : BuildState T :=
  let st := addBuilt tt st t false
  { st with
    refineries := st.refineries + 1
    availableGases := st.availableGases - 1 }

inductive SupplyVerdict where
  | enough
  | wait
  | maxedOut
  | buildSupply
  | prebuildSupply
  deriving DecidableEq

def supplyCheck (build : T) : SupplyVerdict :=
  let info := tt.info build
  let supply := tt.getRaceSupplyDepot info.race
  if info.isUnit then
    if info.supplyRequired ≠ 0 ∧ info.builder ≠ some tt.zergMutalisk ∧ build ≠ tt.protossArchon ∧
        build ≠ tt.protossDarkArchon then
      let nextSupply := st.usedSupply info.race + info.supplyRequired
      if nextSupply ≥ 200 then .maxedOut
      else if nextSupply > st.maxSupply info.race + st.inprodSupply info.race then
        if (st.maxSupply info.race > 10 ∨ st.production.isEmpty) ∧
            (nextSupply > st.maxSupply info.race + st.inprodSupply info.race ∨
              (st.minerals ≥ info.mineralCost + (tt.info supply).mineralCost ∧
                st.maxSupply info.race + st.inprodSupply info.race - nextSupply < 30)) then
          if st.maxSupply info.race < 16 then .buildSupply else .prebuildSupply
        else .wait
      else .enough
    else .enough
  else .enough

/-! ## the builder -/

/-- the place of the largest larva timer of at least 342 frames; `i` is the place of the head of the
list -/
def bestLarva (frame : Int) : List (BuildStateUnit T) → Nat → Option (Nat × Int) → Option (Nat × Int)
  | [], _, best => best
  | u :: us, i, best =>
    let t := frame - u.larvaTimer
    if t ≥ 342 ∧ t > (best.map Prod.snd).getD 0 then bestLarva frame us (i + 1) (some (i, t))
    else bestLarva frame us (i + 1) best

/-- the search for a larva: hives, lairs, hatcheries, morphing hatcheries; the flag is
`builderExists` -/
def larvaBuilder (frame : Int) :
    List ((Nat → Loc T) × List (BuildStateUnit T)) → Bool → Option (Loc T) × Bool
  | [], builderExists => (none, builderExists)
  | (loc, us) :: rest, builderExists =>
    let builderExists := builderExists || !us.isEmpty
    match bestLarva frame us 0 none with
    | some (i, _) => (some (loc i), builderExists)
    | none => larvaBuilder frame rest builderExists

def larvaSources : List ((Nat → Loc T) × List (BuildStateUnit T)) :=
  [(.unit tt.zergHive, st.units.list tt.zergHive),
   (.unit tt.zergLair, st.units.list tt.zergLair),
   (.unit tt.zergHatchery, st.units.list tt.zergHatchery),
   (.morphing, st.morphingHatcheries)]

def eligible (tt : TechTree T) (build : T) (addonRequired : Option T) (u : BuildStateUnit T) : Bool :=
  !((tt.info build).isAddon && u.addon.isSome) &&
    !(addonRequired.isSome && decide (u.addon ≠ addonRequired))

/-- the search for the first idle eligible unit; the flag is `builderExists` -/
def idleBuilder (tt : TechTree T) (build : T) (addonRequired : Option T) (frame : Int) :
    List (BuildStateUnit T) → Nat → Bool → Option Nat × Bool
  | [], _, builderExists => (none, builderExists)
  | u :: us, i, builderExists =>
    if !eligible tt build addonRequired u then
      idleBuilder tt build addonRequired frame us (i + 1) builderExists
    else if frame ≥ u.busyUntil then (some i, true)
    else idleBuilder tt build addonRequired frame us (i + 1) true

structure BuilderChoice (T : Type) where
  builder : Option (Loc T)
  builder2 : Option Nat
  builderExists : Bool

def isArchon (tt : TechTree T) (build : T) : Bool :=
  decide (build = tt.protossArchon) || decide (build = tt.protossDarkArchon)

/-- the builder, and for the two kinds of Archons the second templar: the first other one -/
def chooseBuilder (build b : T) (addonRequired : Option T) : BuilderChoice T :=
  if b = tt.zergLarva then
    let r := larvaBuilder st.frame (larvaSources tt st) false
    ⟨r.1, none, r.2⟩
  else
    let us := st.units.list b
    match idleBuilder tt build addonRequired st.frame us 0 false with
    | (none, builderExists) => ⟨none, none, builderExists⟩
    | (some i, builderExists) =>
      if isArchon tt build then
        match (List.range us.length).find? (fun j => decide (j ≠ i)) with
        | some j => ⟨some (.unit b i), some j, builderExists⟩
        | none => ⟨none, none, false⟩
      else ⟨some (.unit b i), none, builderExists⟩

/-! ## putting the thing into production -/

def intMax : Int := 2147483647

def takeLarva (frame : Int) (u : BuildStateUnit T) : BuildStateUnit T :=
  if frame - u.larvaTimer ≥ 342 * 3 then { u with larvaTimer := frame - 342 * 2 }
  else { u with larvaTimer := u.larvaTimer + 342 }

lemma takeLarva_type (frame : Int) (u : BuildStateUnit T) : (takeLarva frame u).type = u.type := by
  unfold takeLarva
  split <;> rfl

def occupy (build b : T) (l : Loc T) : BuildState T :=
  let st := if b = tt.zergLarva then modifyAt st l (takeLarva st.frame) (takeLarva_type st.frame)
    else modifyAt st l (fun u => { u with busyUntil := st.frame + (tt.info build).buildTime })
      (fun _ => rfl)
  if build = tt.terranNuclearMissile then
    modifyAt st l (fun u => { u with busyUntil := intMax }) (fun _ => rfl)
  else st

def produce (build : T) : BuildState T :=
  let info := tt.info build
  { st with
    inprodSupply := bump st.inprodSupply info.race info.supplyProvided
    usedSupply := bump st.usedSupply info.race info.supplyRequired
    production := emplaceProd st.production (st.frame + info.buildTime) build }

variable (thing : BuildEntry T)

def markExpanding : BuildState T :=
  if (tt.info thing.type).isResourceDepot ∧ thing.pos ≠ {} then { st with isExpanding := true }
  else st

def recordOrder (st : BuildState T) (thing : BuildEntry T) : BuildState T :=
  { st with buildOrder := emplaceProd st.buildOrder st.frame thing }

def secondOfEgg (build : T) : BuildState T :=
  if (tt.info build).isTwoUnitsInOneEgg then produce tt st build else st

def enqueue : BuildState T :=
  let st := markExpanding tt st thing
  let st := produce tt st thing.type
  let st := recordOrder st thing
  let st := secondOfEgg tt st thing.type
  pay tt st thing.type

/-- a builder that becomes the thing leaves the roster; a lair or hive goes on giving larvae -/
def consumeBuilder (build b : T) (l : Loc T) (builder2 : Option Nat) : BuildState T :=
  match l with
  | .morphing _ => st
  | .unit t i =>
    if (tt.info t).race = .zerg ∧ b ≠ tt.zergLarva then
      if (tt.info build).isUnit then
        let st := if t = tt.zergLair ∨ t = tt.zergHive then
            { st with morphingHatcheries :=
                st.morphingHatcheries ++ (unitAt st (.unit t i)).toList }
          else st
        removeUnit tt st t i
      else st
    else if isArchon tt build then
      let st := removeUnit tt st t i
      match builder2 with
      | some j => removeUnit tt st t j
      | none => st
    else st

def noteAddon (build : T) (l : Loc T) : BuildState T :=
  if (tt.info build).isAddon then
    modifyAt st l (fun u => { u with addon := some build }) (fun _ => rfl)
  else st

def start (b : T) (l : Loc T) (builder2 : Option Nat) : BuildState T :=
  let st := occupy tt st thing.type b l
  let st := enqueue tt st thing
  let st := noteAddon tt st thing.type l
  consumeBuilder tt st thing.type b l builder2

/-! ## the loop -/

variable (b : T) (addonRequired : Option T)

/-- no eligible unit of the builder type `b` exists: the type to build first -/
def builderMissing : Option T :=
  if b = tt.zergLarva then
    if !hasOrInProduction tt st tt.zergHatchery && !hasOrInProduction tt st tt.zergLair &&
        !hasOrInProduction tt st tt.zergHive then some tt.zergHatchery
    else none
  else if !isInProduction st b then some (addonRequired.getD b)
  else none

def tryStart : Option (Advanced T × BuildState T) :=
  let c := chooseBuilder tt st thing.type b addonRequired
  match c.builder with
  | some l => some (.success, start tt st thing b l c.builder2)
  | none =>
    if c.builderExists then none
    else (builderMissing tt st b addonRequired).map fun t => (.needs t, st)

/-- one round of decisions for `thing`, whose builder type is `b`; `none` is to wait -/
def tryBuild (prereqInProd : Bool) : Option (Advanced T × BuildState T) :=
  if wantsRefinery tt st thing.type then
    some (.builtdep, prebuildRefinery tt st (tt.getRaceRefinery (tt.info thing.type).race))
  else
    match supplyCheck tt st thing.type with
    | .maxedOut => some (.failed, st)
    | .buildSupply => some (.needs (tt.getRaceSupplyDepot (tt.info thing.type).race), st)
    | .prebuildSupply =>
      some (.builtdep, addBuilt tt st (tt.getRaceSupplyDepot (tt.info thing.type).race) true)
    | .wait => none
    | .enough =>
      if hasEnoughMinerals tt st thing.type && hasEnoughGas tt st thing.type && !prereqInProd then
        tryStart tt st thing b addonRequired
      else none

def tick (st : BuildState T) (endFrame : Int) : BuildState T :=
  let f := min 15 (endFrame - st.frame)
  let gasWorkers := min (3 * st.refineries) (st.workers.tdiv 4)
  let mineralWorkers := st.workers - gasWorkers
  let gasPerFramePerWorker := max st.gasPerFramePerGatherer (1 / 10) * (85 / 100)
  let mineralsPerFramePerWorker := max st.mineralsPerFramePerGatherer (5 / 100) * (85 / 100)
  { st with
    minerals := st.minerals + mineralsPerFramePerWorker * mineralWorkers * f
    gas := st.gas + gasPerFramePerWorker * gasWorkers * f
    frame := st.frame + f }

/-- what the main loop works on: nothing, or a thing with its builder type and required add-on -/
structure Goal (T : Type) where
  thing : BuildEntry T
  builder : T
  addonRequired : Option T

def advanceLoop (tt : TechTree T) (goal : Option (Goal T)) (endFrame : Int) :
    Nat → BuildState T → Bool → Advanced T × BuildState T
  | 0, st, _ => (.timeout, st)
  | n + 1, st, prereqInProd =>
    let c := completeDue tt (goal.map fun g => g.thing.type) st.production st prereqInProd
    match goal.bind fun g => tryBuild tt c.1 g.thing g.builder g.addonRequired c.2 with
    | some r => r
    | none =>
      let st := tick c.1 endFrame
      if st.frame ≥ endFrame then (.timeout, st) else advanceLoop tt goal endFrame n st c.2

def advance (thing : Option (BuildEntry T)) (endFrame : Int) :
    Except String (Advanced T × BuildState T) :=
  if st.frame ≥ endFrame then .ok (.timeout, st)
  else
    match thing with
    | none => .ok (advanceLoop tt none endFrame (endFrame - st.frame).toNat st false)
    | some thing =>
      match (tt.info thing.type).builder with
      | none => .error "autobuild::advance: build has no builder"
      | some b =>
        match entryCheck tt st thing.type (tt.info thing.type).prerequisites none false with
        | .error prereq => .ok (.needs prereq, st)
        | .ok (addonRequired, prereqInProd) =>
          .ok (advanceLoop tt (some ⟨thing, b, addonRequired⟩) endFrame
            (endFrame - st.frame).toNat st prereqInProd)

end TorchCraft.AutoBuild
