import TorchCraft.Lib.Archive

/-!
# Snapshots and scenarios

A snapshot holds the upgrades and techs of its players as words of bits.  `serialize` lists the
fields that go to the file and come from it.

* `SnapshotPlayer.getUpgradeLevel`, `SnapshotPlayer.hasTech`  the bits;
* `snapshotToScenario`  the scenario of a snapshot;
* `saveSnapshot`, `loadSnapshot`  the file.
-/

namespace TorchCraft.Snapshotter
open Lib.Archive Reads Reader
open List

/-! ## snapshots -/

abbrev Word := BitVec 64

structure SnapshotUnit where
  type : Int := 0
  x : Int := 0
  y : Int := 0
  health : Int := 0
  shields : Int := 0
  energy : Int := 0
deriving DecidableEq

structure SnapshotPlayer where
  upgrades : Word := 0
  upgradeLevels : Word := 0
  techs : Word := 0
  units : List SnapshotUnit := []
deriving DecidableEq

/-- the default has two players -/
structure Snapshot where
  mapBuildTileWidth : Int := 0
  mapBuildTileHeight : Int := 0
  replay : String := ""
  mapTitle : String := ""
  players : List SnapshotPlayer := [{}, {}]
deriving DecidableEq

namespace SnapshotPlayer

def bit (id : Nat) : Word := 1#64 <<< id

def kLevelableUpgrades : Nat := 16

def getUpgradeLevel (p : SnapshotPlayer) (upgradeId : Nat) : Nat :=
  if p.upgrades &&& bit upgradeId = 0 then 0
  else if kLevelableUpgrades ≤ upgradeId then 1
  else if p.upgradeLevels &&& bit upgradeId ≠ 0 then 2
  else if p.upgradeLevels &&& bit (upgradeId + kLevelableUpgrades) ≠ 0 then 3
  else 1

def hasTech (p : SnapshotPlayer) (techId : Nat) : Bool := decide (p.techs &&& bit techId ≠ 0)

lemma getUpgradeLevel_eq_zero (p : SnapshotPlayer) (upgradeId : Nat) :
    p.getUpgradeLevel upgradeId = 0 ↔ p.upgrades &&& bit upgradeId = 0 := by
  unfold getUpgradeLevel
  by_cases h : p.upgrades &&& bit upgradeId = 0
  · rw [if_pos h]
    exact ⟨fun _ => h, fun _ => rfl⟩
  · rw [if_neg h]
    refine ⟨fun hl => ?_, fun he => absurd he h⟩
    split at hl
    · cases hl
    · split at hl
      · cases hl
      · split at hl <;> cases hl

end SnapshotPlayer

/-! ## scenarios -/

/-- the ids of `allUpgradeTypes` and `allTechTypes`, in this order, and the unit id of the Defiler
-/
structure BuildTypes where
  allUpgradeTypes : List Nat
  allTechTypes : List Nat
  defiler : Int

structure SpawnPosition where
  count : Nat
  type : Int
  x : Int
  y : Int
  spreadX : Rat := 0
  spreadY : Rat := 0
  health : Int := -1
  shields : Int := -1
  energy : Int := -1
deriving DecidableEq

structure ScenarioUpgradeLevel where
  upgradeType : Nat
  level : Nat := 1
deriving DecidableEq

structure FixedScenarioPlayer where
  techs : List Nat := []
  upgrades : List ScenarioUpgradeLevel := []
  units : List SpawnPosition := []
deriving DecidableEq

structure FixedScenario where
  map : String
  players : List FixedScenarioPlayer := [{}, {}]
deriving DecidableEq

section scenario
variable (T : BuildTypes)

def spawn (u : SnapshotUnit) : SpawnPosition where
  count := 1
  type := u.type
  x := u.x
  y := u.y
  health := u.health
  shields := u.shields
  energy := u.energy

def upgradesOf (p : SnapshotPlayer) : List ScenarioUpgradeLevel :=
  T.allUpgradeTypes.filterMap fun upgradeId =>
    let upgradeLevel := p.getUpgradeLevel upgradeId
    if 0 < upgradeLevel then some ⟨upgradeId, upgradeLevel⟩ else none

def fill (out : FixedScenarioPlayer) (p : SnapshotPlayer) : FixedScenarioPlayer where
  units := out.units ++ p.units.map spawn
  upgrades := out.upgrades ++ upgradesOf T p
  techs := out.techs ++ T.allTechTypes.filter p.hasTech

def hasDefiler (p : FixedScenarioPlayer) : Bool := p.units.any fun u => decide (u.type = T.defiler)

/-- the player with a Defiler comes first -/
def order (players : List FixedScenarioPlayer) : List FixedScenarioPlayer :=
  match players with
  | p :: q :: rest => if hasDefiler T q && !hasDefiler T p then q :: p :: rest else p :: q :: rest
  | _ => players

def fillAll : List FixedScenarioPlayer → List SnapshotPlayer → List FixedScenarioPlayer
  | out :: outs, p :: ps => fill T out p :: fillAll outs ps
  | outs, _ => outs

def snapshotToScenario (s : Snapshot) : FixedScenario where
  map := "test/maps/micro-empty-128.scm"
  players := order T (fillAll T [{}, {}] s.players)

end scenario

/-! ## files -/

inductive Value
  | int (n : Int)
  | int64 (w : Word)
  | string (s : String)
  | size (n : Nat)
deriving DecidableEq

namespace Value

def toInt : Value → Option Int
  | .int n => some n
  | _ => none

def toInt64 : Value → Option Word
  | .int64 w => some w
  | _ => none

def toString : Value → Option String
  | .string s => some s
  | _ => none

def toSize : Value → Option Nat
  | .size n => some n
  | _ => none

end Value

def saveVector {A : Type} (save : A → List Value) (l : List A) : List Value :=
  .size l.length :: l.flatMap save

def loadVector {A : Type} (new : A) (load : A → Reader Value A) (l : List A) :
    Reader Value (List A) := do
  let n ← next Value.toSize
  readAll load (resize new n l)

def SnapshotUnit.save (u : SnapshotUnit) : List Value :=
  [.int u.type, .int u.x, .int u.y, .int u.health, .int u.shields, .int u.energy]

def SnapshotUnit.load (_ : SnapshotUnit) : Reader Value SnapshotUnit := do
  let type ← next Value.toInt
  let x ← next Value.toInt
  let y ← next Value.toInt
  let health ← next Value.toInt
  let shields ← next Value.toInt
  let energy ← next Value.toInt
  pure { type, x, y, health, shields, energy }

def SnapshotPlayer.save (p : SnapshotPlayer) : List Value :=
  .int64 p.upgradeLevels :: .int64 p.techs :: saveVector SnapshotUnit.save p.units

def SnapshotPlayer.load (p : SnapshotPlayer) : Reader Value SnapshotPlayer := do
  let upgradeLevels ← next Value.toInt64
  let techs ← next Value.toInt64
  let units ← loadVector {} SnapshotUnit.load p.units
  pure { p with upgradeLevels, techs, units }

def Snapshot.save (s : Snapshot) : List Value :=
  [.int s.mapBuildTileWidth, .int s.mapBuildTileHeight, .string s.mapTitle, .string s.replay] ++
    saveVector SnapshotPlayer.save s.players

def Snapshot.load (s : Snapshot) : Reader Value Snapshot := do
  let mapBuildTileWidth ← next Value.toInt
  let mapBuildTileHeight ← next Value.toInt
  let mapTitle ← next Value.toString
  let replay ← next Value.toString
  let players ← loadVector {} SnapshotPlayer.load s.players
  pure { mapBuildTileWidth, mapBuildTileHeight, mapTitle, replay, players }

abbrev Files := String → List Value

def saveSnapshot (files : Files) (s : Snapshot) (path : String) : Files :=
  Function.update files path s.save

/-- `none` if the file does not hold a snapshot -/
def loadSnapshot (files : Files) (path : String) : Option Snapshot :=
  ((({} : Snapshot).load (files path)).map Prod.fst)

/-! ## what comes back -/

lemma reads_vector {A : Type} {new : A} {save : A → List Value} {load : A → Reader Value A}
    {g : A → A} {l l' : List A} (h : ∀ a ∈ new :: l, ∀ b ∈ l', Reads (load a) (save b) (g b)) :
    Reads (loadVector new load l) (saveVector save l') (l'.map g) := by
  refine cons rfl (reads_readAll (length_resize ..) fun a ha b hb => h a ?_ b hb)
  rcases mem_resize ha with ha | ha
  · exact mem_cons_of_mem _ ha
  · rw [ha]
    exact mem_cons_self ..

lemma reads_unit (u v : SnapshotUnit) : Reads u.load v.save v := by
  refine cons rfl ?_
  refine cons rfl ?_
  refine cons rfl ?_
  refine cons rfl ?_
  refine cons rfl ?_
  refine cons rfl ?_
  exact pure v

lemma reads_player (p q : SnapshotPlayer) :
    Reads p.load q.save { q with upgrades := p.upgrades } := by
  have hunits : Reads (loadVector {} SnapshotUnit.load p.units)
      (saveVector SnapshotUnit.save q.units) q.units := by
    have h : Reads (loadVector {} SnapshotUnit.load p.units)
        (saveVector SnapshotUnit.save q.units) (q.units.map id) :=
      reads_vector fun u _ v _ => reads_unit u v
    rwa [map_id] at h
  refine cons rfl ?_
  refine cons rfl ?_
  rw [← append_nil (saveVector _ _)]
  exact hunits.bind (pure _)

def SnapshotPlayer.unupgraded (p : SnapshotPlayer) : SnapshotPlayer := { p with upgrades := 0 }

lemma reads_snapshot (s : Snapshot) :
    Reads ({} : Snapshot).load s.save
      { s with players := s.players.map SnapshotPlayer.unupgraded } := by
  have hplayers : Reads (loadVector {} SnapshotPlayer.load [{}, {}])
      (saveVector SnapshotPlayer.save s.players) (s.players.map SnapshotPlayer.unupgraded) := by
    refine reads_vector fun p hp q _ => ?_
    have hzero : p.upgrades = 0 := by
      rcases mem_cons.mp hp with rfl | hp
      · rfl
      · rcases mem_cons.mp hp with rfl | hp
        · rfl
        · rw [mem_singleton.mp hp]
    have h := reads_player p q
    rwa [hzero] at h
  refine cons rfl ?_
  refine cons rfl ?_
  refine cons rfl ?_
  refine cons rfl ?_
  rw [← append_nil (List.append [] _)]
  exact hplayers.bind (pure _)

/-- **A snapshot that was saved is loaded, but for the upgrades.** -/
theorem load_save (files : Files) (s : Snapshot) (path : String) :
    loadSnapshot (saveSnapshot files s path) path
      = some { s with players := s.players.map SnapshotPlayer.unupgraded } := by
  unfold loadSnapshot saveSnapshot
  rw [Function.update_self, (reads_snapshot s).eq_some]
  rfl

section restored
variable (T : BuildTypes)

/-- the player has none of the upgrades that a scenario can have -/
def SnapshotPlayer.Bare (p : SnapshotPlayer) : Prop :=
  ∀ id ∈ T.allUpgradeTypes, p.upgrades &&& SnapshotPlayer.bit id = 0

section
variable (p : SnapshotPlayer)
include p

lemma upgradesOf_eq_nil : upgradesOf T p = [] ↔ p.Bare T := by
  unfold upgradesOf SnapshotPlayer.Bare
  rw [filterMap_eq_nil_iff]
  refine forall₂_congr fun id _ => ?_
  rw [← SnapshotPlayer.getUpgradeLevel_eq_zero]
  by_cases h : 0 < p.getUpgradeLevel id
  · simp only [if_pos h, reduceCtorEq, false_iff]
    omega
  · simp only [if_neg h, true_iff]
    omega

lemma unupgraded_bare : p.unupgraded.Bare T :=
  fun _ _ => BitVec.zero_and

lemma fill_unupgraded_iff : fill T {} p.unupgraded = fill T {} p ↔ p.Bare T := by
  have hnil : upgradesOf T p.unupgraded = [] := (upgradesOf_eq_nil T _).mpr (unupgraded_bare T p)
  rw [← upgradesOf_eq_nil]
  unfold fill
  rw [hnil]
  constructor
  · intro h
    exact (congrArg FixedScenarioPlayer.upgrades h).symm
  · intro h
    rw [h]
    rfl

lemma units_unupgraded : (fill T {} p.unupgraded).units = (fill T {} p).units := rfl

end

lemma order_inj {p p' q q' : FixedScenarioPlayer} (hp : p'.units = p.units)
    (hq : q'.units = q.units) : order T [p', q'] = order T [p, q] ↔ p' = p ∧ q' = q := by
  have hdp : hasDefiler T p' = hasDefiler T p := by rw [hasDefiler, hp, hasDefiler]
  have hdq : hasDefiler T q' = hasDefiler T q := by rw [hasDefiler, hq, hasDefiler]
  unfold order
  dsimp only
  rw [hdp, hdq]
  split
  · rw [List.cons.injEq, List.cons.injEq, eq_self_iff_true, and_true, and_comm]
  · rw [List.cons.injEq, List.cons.injEq, eq_self_iff_true, and_true]

/-- **The scenario of a snapshot with two players comes back from the file exactly if neither
player has an upgrade.** -/
theorem scenario_restored_iff (files : Files) (s : Snapshot) (path : String)
    (hs : s.players.length = 2) :
    (loadSnapshot (saveSnapshot files s path) path).map (snapshotToScenario T)
        = some (snapshotToScenario T s) ↔ ∀ p ∈ s.players, p.Bare T := by
  obtain ⟨p, q, hpq⟩ := length_eq_two.mp hs
  rw [load_save, hpq, Option.map_some, Option.some_inj]
  have hplayers : snapshotToScenario T
        { s with players := [p, q].map SnapshotPlayer.unupgraded } = snapshotToScenario T s ↔
      order T [fill T {} p.unupgraded, fill T {} q.unupgraded]
        = order T [fill T {} p, fill T {} q] := by
    unfold snapshotToScenario
    rw [hpq, FixedScenario.mk.injEq]
    exact and_iff_right rfl
  rw [hplayers, order_inj T (units_unupgraded T p) (units_unupgraded T q), fill_unupgraded_iff,
    fill_unupgraded_iff]
  exact (forall_mem_cons.trans (and_congr_right' forall_mem_singleton)).symm

/-- a player with techs and units and without upgrades comes back -/
theorem scenario_restored_techs :
    (([{ techs := 5, units := [{ type := 46 }] }, {}] : List SnapshotPlayer).length = 2) ∧
      ∀ files path,
        (loadSnapshot (saveSnapshot files
            { players := [{ techs := 5, units := [{ type := 46 }] }, {}] } path) path).map
          (snapshotToScenario ⟨[0, 0, 0, 27], [0, 2], 46⟩)
        = some (snapshotToScenario ⟨[0, 0, 0, 27], [0, 2], 46⟩
            { players := [{ techs := 5, units := [{ type := 46 }] }, {}] }) := by
  refine ⟨rfl, fun files path => (scenario_restored_iff _ files _ path rfl).mpr ?_⟩
  intro p hp id _
  have hzero : p.upgrades = 0 := by
    rcases mem_cons.mp hp with rfl | hp
    · rfl
    · rw [mem_singleton.mp hp]
  rw [hzero]
  exact BitVec.zero_and

/-- the first upgrade, at level 2, is not in the loaded scenario -/
theorem upgrade_lost :
    snapshotToScenario ⟨[0, 0, 0, 27], [0, 2], 46⟩
        { players := [{ upgrades := 1, upgradeLevels := 1 }, {}] }
      = { map := "test/maps/micro-empty-128.scm"
          players := [{ upgrades := [⟨0, 2⟩, ⟨0, 2⟩, ⟨0, 2⟩] }, {}] } ∧
    ∀ files path, (loadSnapshot (saveSnapshot files
          { players := [{ upgrades := 1, upgradeLevels := 1 }, {}] } path) path).map
        (snapshotToScenario ⟨[0, 0, 0, 27], [0, 2], 46⟩)
      = some { map := "test/maps/micro-empty-128.scm", players := [{}, {}] } := by
  refine ⟨by decide +kernel, fun files path => ?_⟩
  rw [load_save]
  decide +kernel

end restored

end TorchCraft.Snapshotter
