import TorchCraft.Lib.Archive
import TorchCraft.Lib.Unordered
import TorchCraft.AutoBuild.State
import Mathlib.Data.Nat.Bitwise
import Mathlib.Data.Fintype.Basic
import Mathlib.Tactic.FinCases

/-!
# Build states in an archive

The archive holds the values written, in order.  A pointer to a build type cannot be written, so it
is packed into a word: a byte each for `unit`, `upgrade` and `tech`, seven bits for `level`, and the
top bit, which says that the pointer is not null.

* `buildTypeId`, `buildTypeFromId`  the word of a pointer and back;
* `BuildStateUnit`, `BuildEntry`, `BuildState`  with `save` and `load`, the pointers as they are.

A unit of the archive is one value; a word may be read where an `int` was written, as both have four
bytes.  Loops over unordered containers meet the elements in any order (`Iteration`).
-/

namespace TorchCraft.AutoBuild.Cereal
open List

open Lib.Archive Lib.Unordered

/-! ## the registry -/

/-- the columns of `BuildType` that name a type; there is one object for each -/
structure BuildType where
  unit : Int := -1
  upgrade : Int := -1
  tech : Int := -1
  level : Int := 0
  deriving DecidableEq

/-- `BuildType const*`; `none` is null -/
abbrev Ptr := Option BuildType

/-- the sizes (`MAX`) of the enumerations and their `None`; the last value is `Unknown` -/
structure Registry where
  units : Nat
  noUnit : Nat
  techs : Nat
  noTech : Nat
  upgrades : Nat
  noUpgrade : Nat
  levels : Nat
  units_le : units ≤ 255
  techs_le : techs ≤ 255
  upgrades_le : upgrades ≤ 255
  levels_le : levels ≤ 127

/-- the enumerations of BWAPI -/
def Registry.bwapi : Registry where
  units := 234
  noUnit := 228
  techs := 47
  noTech := 44
  upgrades := 63
  noUpgrade := 61
  levels := 3
  units_le := by decide
  techs_le := by decide
  upgrades_le := by decide
  levels_le := by decide

/-- `BWAPI::Type::Type`: what is not an id becomes `Unknown` -/
def typeId (max : Nat) (id : Int) : Int := if id < 0 ∨ id > max - 1 then max - 1 else id

/-- an enumeration of `max` ids, whose objects stand in an array; `none` if `std::array::at`
throws -/
def getBuildType (max noType : Nat) (inArray : Int → Bool) (object : Int → BuildType) (type : Int) :
    Option Ptr :=
  let id := typeId max type
  if id = noType then some none
  else if inArray id then some (some (object id))
  else none

section registry
variable (R : Registry)

def getUnitBuildType (unit : Int) : Option Ptr :=
  getBuildType R.units R.noUnit (fun id => 0 ≤ id ∧ id < R.units) (fun id => { unit := id }) unit

def getTechBuildType (tech : Int) : Option Ptr :=
  getBuildType R.techs R.noTech (fun id => 0 ≤ id ∧ id < R.techs)
    (fun id => { tech := id, level := 1 }) tech

/-- the types of a level stand after those of the level before -/
def getUpgradeBuildType (upgrade level : Int) : Option Ptr :=
  getBuildType R.upgrades R.noUpgrade
    (fun id => 0 ≤ R.upgrades * (level - 1) + id ∧
      R.upgrades * (level - 1) + id < R.upgrades * R.levels)
    (fun id => { upgrade := id, level := level }) upgrade

/-- a type that the registry has handed out -/
def Registered (t : BuildType) : Prop :=
  (∃ unit, getUnitBuildType R unit = some (some t)) ∨
  (∃ tech, getTechBuildType R tech = some (some t)) ∨
  ∃ upgrade level, getUpgradeBuildType R upgrade level = some (some t)

/-- null, or from the registry -/
def RegisteredPtr (p : Ptr) : Prop := ∀ t, p = some t → Registered R t

end registry

/-! ## words -/

def byte (i : Int) : Nat := (i % 256).toNat

def buildTypeId : Ptr → Nat
  | none => 0
  | some t =>
    byte t.unit <<< 0 ||| byte t.upgrade <<< 8 ||| byte t.tech <<< 16 ||| byte t.level <<< 24
      ||| 1 <<< 31

variable (R : Registry) {t : BuildType} {A B : Type} {f : A → B} {g : B → Option A} {l : List A}

def buildTypeFromId (id : Nat) : Option Ptr :=
  if id >>> 31 = 0 then some none
  else
    let unit := (id >>> 0) &&& 0xFF
    let upgrade := (id >>> 8) &&& 0xFF
    let tech := (id >>> 16) &&& 0xFF
    -- the top bit is not the level's
    let level := (id >>> 24) &&& 0x7F
    if unit ≠ 255 then getUnitBuildType R unit
    else if tech ≠ 255 then getTechBuildType R tech
    else getUpgradeBuildType R upgrade level

/-! ## values -/

inductive Value
  | int (n : Int)
  | id (n : Nat)
  | double (q : ℚ)
  | bool (b : Bool)
  | size (n : Nat)
  deriving DecidableEq

namespace Value

def toInt : Value → Option Int
  | .int n => some n
  | _ => none

/-- an `int` has the four bytes of a word -/
def toId : Value → Option Nat
  | .id n => some n
  | .int n => some (n % 4294967296).toNat
  | _ => none

def toDouble : Value → Option ℚ
  | .double q => some q
  | _ => none

def toBool : Value → Option Bool
  | .bool b => some b
  | _ => none

def toSize : Value → Option Nat
  | .size n => some n
  | _ => none

end Value

/-- what may throw while it is computed from values read before -/
def computed {A : Type} (a : Option A) : Reader Value A := fun vs => a.map fun a => (a, vs)

/-- a container goes with its size -/
def saveAll {A : Type} (save : A → List Value) (l : List A) : List Value :=
  .size l.length :: l.flatMap save

def loadAll {A : Type} (new : A) (load : A → Reader Value A) : Reader Value (List A) := do
  let n ← Reader.next Value.toSize
  readAll load (List.replicate n new)

/-! ## units, entries, states -/

structure BuildStateUnit where
  type : Ptr := none
  busyUntil : Int := 0
  addon : Ptr := none
  larvaTimer : Int := 0
  deriving DecidableEq

structure BuildEntry where
  type : Ptr := none
  pos : Position := {}
  deriving DecidableEq

structure BuildState where
  frame : Int := 0
  race : Int := 0
  minerals : ℚ := 0
  gas : ℚ := 0
  mineralsPerFramePerGatherer : ℚ := 0
  gasPerFramePerGatherer : ℚ := 0
  usedSupply : Fin 3 → ℚ := fun _ => 0
  maxSupply : Fin 3 → ℚ := fun _ => 0
  inprodSupply : Fin 3 → ℚ := fun _ => 0
  units : UnorderedMap Ptr (List BuildStateUnit) := {}
  upgradesAndTech : UnorderedSet Ptr := {}
  production : List (Int × Ptr) := []
  buildOrder : List (Int × BuildEntry) := []
  morphingHatcheries : List BuildStateUnit := []
  workers : Int := 0
  refineries : Int := 0
  availableGases : Int := 0
  autoBuildRefineries : Bool := true
  autoBuildHatcheries : Bool := true
  isExpanding : Bool := false

def BuildStateUnit.save (stu : BuildStateUnit) : List Value :=
  [.id (buildTypeId stu.type), .int stu.busyUntil, .id (buildTypeId stu.addon), .int stu.larvaTimer]

def BuildStateUnit.load (_ : BuildStateUnit) : Reader Value BuildStateUnit := do
  let type ← Reader.next Value.toId
  let busyUntil ← Reader.next Value.toInt
  let addon ← Reader.next Value.toId
  let larvaTimer ← Reader.next Value.toInt
  let type ← computed (buildTypeFromId R type)
  let addon ← computed (buildTypeFromId R addon)
  pure { type, busyUntil, addon, larvaTimer }

/-- `e.type->unit`, then the position; `none` if the type is null -/
def BuildEntry.save (e : BuildEntry) : Option (List Value) :=
  e.type.map fun t => [.int t.unit, .int e.pos.x, .int e.pos.y]

def BuildEntry.load (_ : BuildEntry) : Reader Value BuildEntry := do
  let type ← Reader.next Value.toId
  let x ← Reader.next Value.toInt
  let y ← Reader.next Value.toInt
  let type ← computed (buildTypeFromId R type)
  pure { type, pos := { x, y } }

/-- one round of the loop over the supply arrays -/
def BuildState.saveSupply (st : BuildState) (i : Fin 3) : List Value :=
  [.double (st.usedSupply i), .double (st.maxSupply i), .double (st.inprodSupply i)]

def BuildState.setSupply (st : BuildState) (i : Fin 3) (used max inprod : ℚ) : BuildState :=
  { st with
    usedSupply := Function.update st.usedSupply i used
    maxSupply := Function.update st.maxSupply i max
    inprodSupply := Function.update st.inprodSupply i inprod }

def BuildState.loadSupply (st : BuildState) : List (Fin 3) → Reader Value BuildState
  | [] => pure st
  | i :: is => do
    let used ← Reader.next Value.toDouble
    let max ← Reader.next Value.toDouble
    let inprod ← Reader.next Value.toDouble
    (st.setSupply i used max inprod).loadSupply is

/-- the vector of one word -/
def saveUnits (e : Nat × List BuildStateUnit) : List Value :=
  .id e.1 :: saveAll BuildStateUnit.save e.2

def loadUnits (_ : Nat × List BuildStateUnit) :
    Reader Value (Nat × List BuildStateUnit) := do
  let id ← Reader.next Value.toId
  let units ← loadAll {} (BuildStateUnit.load R)
  pure (id, units)

/-- an item in production -/
def saveItem (e : Int × Nat) : List Value := [.int e.1, .id e.2]

def loadItem (_ : Int × Nat) : Reader Value (Int × Nat) := do
  let frame ← Reader.next Value.toInt
  let id ← Reader.next Value.toId
  pure (frame, id)

section save
variable (it : Iteration) (st : BuildState)

/-- `units` of `save`: the vectors under words -/
def BuildState.unitIds : UnorderedMap Nat (List BuildStateUnit) :=
  UnorderedMap.setAll {} ((it.order st.units.entries).map fun e => (buildTypeId e.1, e.2))

/-- `upgradesAndTech` of `save` -/
def BuildState.upgradeIds : UnorderedSet Nat :=
  UnorderedSet.insertAll {} ((it.order st.upgradesAndTech.elems).map buildTypeId)

/-- the build order is not written -/
def BuildState.save : List Value :=
  [.int st.frame, .int st.race, .double st.minerals, .double st.gas,
    .double st.mineralsPerFramePerGatherer, .double st.gasPerFramePerGatherer] ++
  ([0, 1, 2].flatMap st.saveSupply ++
  (saveAll saveUnits (it.order (st.unitIds it).entries) ++
  (saveAll (fun id => [.id id]) (it.order (st.upgradeIds it).elems) ++
  (saveAll saveItem (st.production.map fun e => (e.1, buildTypeId e.2)) ++
  (saveAll BuildStateUnit.save st.morphingHatcheries ++
  [.int st.workers, .int st.refineries, .int st.availableGases,
    .bool st.autoBuildRefineries, .bool st.autoBuildHatcheries, .bool st.isExpanding])))))

end save

def BuildState.load (it : Iteration) (st : BuildState) : Reader Value BuildState := do
  let frame ← Reader.next Value.toInt
  let race ← Reader.next Value.toInt
  let minerals ← Reader.next Value.toDouble
  let gas ← Reader.next Value.toDouble
  let mineralsPerFramePerGatherer ← Reader.next Value.toDouble
  let gasPerFramePerGatherer ← Reader.next Value.toDouble
  let st ← { st with
    frame, race, minerals, gas, mineralsPerFramePerGatherer, gasPerFramePerGatherer }.loadSupply
      [0, 1, 2]
  let units ← loadAll (0, []) (loadUnits R)
  let upgradesAndTech ← loadAll 0 fun _ => Reader.next Value.toId
  let production ← loadAll (0, 0) loadItem
  let units ← computed
    ((it.order units).mapM fun e => (buildTypeFromId R e.1).map fun t => (t, e.2))
  let upgradesAndTech ← computed ((it.order upgradesAndTech).mapM (buildTypeFromId R))
  let production ← computed
    (production.mapM fun e => (buildTypeFromId R e.2).map fun t => (e.1, t))
  let morphingHatcheries ← loadAll {} (BuildStateUnit.load R)
  let workers ← Reader.next Value.toInt
  let refineries ← Reader.next Value.toInt
  let availableGases ← Reader.next Value.toInt
  let autoBuildRefineries ← Reader.next Value.toBool
  let autoBuildHatcheries ← Reader.next Value.toBool
  let isExpanding ← Reader.next Value.toBool
  pure { st with
    units := st.units.setAll units
    upgradesAndTech := st.upgradesAndTech.insertAll upgradesAndTech
    production := st.production ++ production
    morphingHatcheries, workers, refineries, availableGases
    autoBuildRefineries, autoBuildHatcheries, isExpanding }

/-! ## what is compared -/

section registered
variable (R : Registry)

def BuildStateUnit.Registered (stu : BuildStateUnit) : Prop :=
  RegisteredPtr R stu.type ∧ RegisteredPtr R stu.addon

structure BuildState.Registered (st : BuildState) : Prop where
  keys : ∀ e ∈ st.units.entries, RegisteredPtr R e.1
  units : ∀ e ∈ st.units.entries, ∀ u ∈ e.2, u.Registered R
  upgradesAndTech : ∀ t ∈ st.upgradesAndTech.elems, RegisteredPtr R t
  production : ∀ e ∈ st.production, RegisteredPtr R e.2
  morphingHatcheries : ∀ u ∈ st.morphingHatcheries, u.Registered R

end registered

/-- without the unordered containers and the build order -/
def BuildState.plain (st : BuildState) : BuildState :=
  { st with units := {}, upgradesAndTech := {}, buildOrder := [] }

/-- equal but for the build order -/
structure BuildState.Same (st st' : BuildState) : Prop where
  plain : st.plain = st'.plain
  units : st.units.entries.Perm st'.units.entries
  upgradesAndTech : st.upgradesAndTech.elems.Perm st'.upgradesAndTech.elems

/-! ## a type comes back -/

lemma or_shiftLeft {a k : Nat} (h : a < 2 ^ k) (b : Nat) : a ||| b <<< k = a + 2 ^ k * b := by
  rw [Nat.lor_comm, ← Nat.shiftLeft_add_eq_or_of_lt h, Nat.shiftLeft_eq, Nat.mul_comm, Nat.add_comm]

lemma byte_lt (i : Int) : byte i < 256 := by
  unfold byte
  omega

lemma byte_of_mem {i : Int} (h : 0 ≤ i) (h' : i < 256) : (byte i : Int) = i := by
  unfold byte
  omega

lemma buildTypeId_some (hlevel : byte t.level < 128) :
    buildTypeId (some t) = byte t.unit + 256 * byte t.upgrade + 65536 * byte t.tech
      + 16777216 * byte t.level + 2147483648 := by
  have hu := byte_lt t.unit
  have hg := byte_lt t.upgrade
  have ht := byte_lt t.tech
  have h0 : byte t.unit <<< 0 = byte t.unit := rfl
  rw [buildTypeId, h0, or_shiftLeft (k := 8) (by omega), or_shiftLeft (k := 16) (by omega),
    or_shiftLeft (k := 24) (by omega), or_shiftLeft (k := 31) (by omega)]
  omega

lemma buildTypeFromId_eq (R : Registry) {id : Nat} (h : 2147483648 ≤ id) :
    buildTypeFromId R id =
      if id % 256 ≠ 255 then getUnitBuildType R (id % 256 : Nat)
      else if id / 65536 % 256 ≠ 255 then getTechBuildType R (id / 65536 % 256 : Nat)
      else getUpgradeBuildType R (id / 256 % 256 : Nat) (id / 16777216 % 128 : Nat) := by
  have hmark : id >>> 31 ≠ 0 := by
    rw [Nat.shiftRight_eq_div_pow]
    omega
  have hbyte (n : Nat) : n &&& 0xFF = n % 256 := Nat.and_two_pow_sub_one_eq_mod n 8
  have hseven (n : Nat) : n &&& 0x7F = n % 128 := Nat.and_two_pow_sub_one_eq_mod n 7
  unfold buildTypeFromId
  rw [if_neg hmark]
  simp only [hbyte, hseven, Nat.shiftRight_eq_div_pow, Nat.reducePow, Nat.div_one]

lemma buildTypeFromId_some (R : Registry) (hlevel : byte t.level < 128) :
    buildTypeFromId R (buildTypeId (some t)) =
      if byte t.unit ≠ 255 then getUnitBuildType R (byte t.unit)
      else if byte t.tech ≠ 255 then getTechBuildType R (byte t.tech)
      else getUpgradeBuildType R (byte t.upgrade) (byte t.level) := by
  have hword := buildTypeId_some hlevel
  have hu := byte_lt t.unit
  have hg := byte_lt t.upgrade
  have ht := byte_lt t.tech
  have h0 : buildTypeId (some t) % 256 = byte t.unit := by omega
  have h8 : buildTypeId (some t) / 256 % 256 = byte t.upgrade := by omega
  have h16 : buildTypeId (some t) / 65536 % 256 = byte t.tech := by omega
  have h24 : buildTypeId (some t) / 16777216 % 128 = byte t.level := by omega
  rw [buildTypeFromId_eq R (by omega), h0, h8, h16, h24]

lemma typeId_lt (max : Nat) (id : Int) : typeId max id < max := by
  unfold typeId
  split <;> omega

lemma typeId_nonneg {max : Nat} (h : max ≠ 0) (id : Int) : 0 ≤ typeId max id := by
  unfold typeId
  split <;> omega

lemma typeId_typeId (max : Nat) (id : Int) : typeId max (typeId max id) = typeId max id := by
  unfold typeId
  split
  · split <;> rfl
  · rfl

lemma getBuildType_eq_some {max noType : Nat} {inArray : Int → Bool} {object : Int → BuildType}
    {type : Int} (h : getBuildType max noType inArray object type = some (some t)) :
    ∃ id, id = typeId max type ∧ inArray id ∧ t = object id ∧
      getBuildType max noType inArray object id = some (some t) := by
  have hagain : getBuildType max noType inArray object (typeId max type) = some (some t) := by
    unfold getBuildType at h ⊢
    rwa [typeId_typeId]
  refine ⟨typeId max type, rfl, ?_⟩
  unfold getBuildType at h
  dsimp only at h
  split_ifs at h with hnone harray
  · cases h
  · exact ⟨harray, (Option.some.inj (Option.some.inj h)).symm, hagain⟩

lemma level_of_index {max levels : Nat} {id level : Int} (hid : id < max)
    (h : 0 ≤ max * (level - 1) + id) (h' : max * (level - 1) + id < max * levels) (h0 : 0 ≤ id) :
    1 ≤ level ∧ level ≤ levels := by
  have hmax : (0 : Int) < max := by omega
  constructor
  · by_contra hlt
    have : (max : Int) * (level - 1) ≤ max * (-1) :=
      Int.mul_le_mul_of_nonneg_left (by omega) hmax.le
    omega
  · by_contra hlt
    have : (max : Int) * levels ≤ max * (level - 1) :=
      Int.mul_le_mul_of_nonneg_left (by omega) hmax.le
    omega

lemma registered_cases {R : Registry} (h : Registered R t) :
    (∃ id : Int, 0 ≤ id ∧ id < 255 ∧ t = { unit := id } ∧ getUnitBuildType R id = some (some t)) ∨
    (∃ id : Int, 0 ≤ id ∧ id < 255 ∧ t = { tech := id, level := 1 } ∧
      getTechBuildType R id = some (some t)) ∨
    ∃ id level : Int, 0 ≤ id ∧ id < 255 ∧ 0 ≤ level ∧ level < 128 ∧
      t = { upgrade := id, level := level } ∧ getUpgradeBuildType R id level = some (some t) := by
  rcases h with ⟨unit, h⟩ | ⟨tech, h⟩ | ⟨upgrade, level, h⟩
  · obtain ⟨id, -, hmem, ht, hagain⟩ := getBuildType_eq_some h
    have hmem : 0 ≤ id ∧ id < R.units := of_decide_eq_true hmem
    have := R.units_le
    exact .inl ⟨id, hmem.1, by omega, ht, hagain⟩
  · obtain ⟨id, -, hmem, ht, hagain⟩ := getBuildType_eq_some h
    have hmem : 0 ≤ id ∧ id < R.techs := of_decide_eq_true hmem
    have := R.techs_le
    exact .inr (.inl ⟨id, hmem.1, by omega, ht, hagain⟩)
  · obtain ⟨id, hid, hmem, ht, hagain⟩ := getBuildType_eq_some h
    have hmem : 0 ≤ R.upgrades * (level - 1) + id ∧
        R.upgrades * (level - 1) + id < R.upgrades * R.levels := of_decide_eq_true hmem
    have hlt : id < R.upgrades := hid ▸ typeId_lt ..
    have hmax : R.upgrades ≠ 0 := by
      intro hzero
      rw [hzero] at hmem
      simp only [Nat.cast_zero, zero_mul, zero_add] at hmem
      omega
    have hpos : 0 ≤ id := hid ▸ typeId_nonneg hmax _
    obtain ⟨hlevel, hlevel'⟩ := level_of_index hlt hmem.1 hmem.2 hpos
    have := R.upgrades_le
    have := R.levels_le
    exact .inr (.inr ⟨id, level, hpos, by omega, by omega, by omega, ht, hagain⟩)

lemma buildTypeFromId_buildTypeId {R : Registry} {p : Ptr} (h : RegisteredPtr R p) :
    buildTypeFromId R (buildTypeId p) = some p := by
  cases p with
  | none => rfl
  | some t =>
    have hnot : ¬ byte (-1) ≠ 255 := by decide
    rcases registered_cases (h t rfl) with ⟨id, h0, h1, rfl, hid⟩ | ⟨id, h0, h1, rfl, hid⟩ |
      ⟨id, level, h0, h1, h2, h3, rfl, hid⟩
    · have hbyte := byte_of_mem h0 (by omega)
      rw [buildTypeFromId_some R (show byte 0 < 128 by decide), if_pos (by dsimp only; omega), hbyte]
      exact hid
    · have hbyte := byte_of_mem h0 (by omega)
      rw [buildTypeFromId_some R (show byte 1 < 128 by decide), if_neg hnot,
        if_pos (by dsimp only; omega), hbyte]
      exact hid
    · have hbyte := byte_of_mem h0 (by omega)
      have hlevel := byte_of_mem h2 (by omega)
      rw [buildTypeFromId_some R (show byte level < 128 by omega), if_neg hnot, if_neg hnot, hbyte,
        hlevel]
      exact hid

/-! ## an archive comes back -/

lemma reads_computed {A B : Type} {o : Option A} {a : A} {g : A → Reader Value B}
    {vs : List Value} {b : B} (ho : o = some a) (hg : Reads (g a) vs b) :
    Reads (computed o >>= g) vs b := by
  subst ho
  exact hg

/-- **A container comes back if its elements do.** -/
theorem reads_loadAll {A : Type} {new : A} {load : A → Reader Value A} {save : A → List Value}
    {l : List A} (h : ∀ a ∈ l, Reads (load new) (save a) a) :
    Reads (loadAll new load) (saveAll save l) l := by
  have helems : Reads (readAll load (replicate l.length new)) (l.flatMap save) (l.map id) := by
    refine reads_readAll length_replicate fun a ha b hb => ?_
    rw [eq_of_mem_replicate ha]
    exact h b hb
  rw [map_id] at helems
  exact Reads.cons rfl helems

lemma mapM_map_eq_some (h : ∀ a ∈ l, g (f a) = some a) : (l.map f).mapM g = some l := by
  induction l with
  | nil => rfl
  | cons a l ih =>
    rw [map_cons, mapM_cons, h a (mem_cons_self ..), ih fun a ha => h a (mem_cons_of_mem _ ha)]
    rfl

lemma mapM_perm {m : List B} (hm : m.Perm (l.map f)) (h : ∀ a ∈ l, g (f a) = some a) :
    ∃ l', m.mapM g = some l' ∧ l'.Perm l := by
  obtain ⟨l', rfl, hperm⟩ := (congrFun (congrFun (eq_map_comp_perm f) m) l).mpr hm
  exact ⟨l', mapM_map_eq_some fun a ha => h a (hperm.subset ha), hperm⟩

section reads
variable {R : Registry}

lemma reads_unit (new : BuildStateUnit) {u : BuildStateUnit} (h : u.Registered R) :
    Reads (new.load R) u.save u := by
  refine Reads.cons rfl ?_
  refine Reads.cons rfl ?_
  refine Reads.cons rfl ?_
  refine Reads.cons rfl ?_
  refine reads_computed (buildTypeFromId_buildTypeId h.1) ?_
  refine reads_computed (buildTypeFromId_buildTypeId h.2) ?_
  exact Reads.pure u

lemma reads_units {new e : Nat × List BuildStateUnit} (h : ∀ u ∈ e.2, u.Registered R) :
    Reads (loadUnits R new) (saveUnits e) e := by
  have hunits : Reads (loadAll {} (BuildStateUnit.load R)) (saveAll BuildStateUnit.save e.2) e.2 :=
    reads_loadAll fun u hu => reads_unit {} (h u hu)
  refine Reads.cons rfl ?_
  rw [← append_nil (saveAll _ _)]
  exact hunits.bind (Reads.pure e)

lemma reads_item (new e : Int × Nat) : Reads (loadItem new) (saveItem e) e :=
  Reads.cons rfl (Reads.cons rfl (Reads.pure e))

lemma reads_supply (st new : BuildState) (is : List (Fin 3)) :
    Reads (new.loadSupply is) (is.flatMap st.saveSupply)
      (is.foldl (fun s i => s.setSupply i (st.usedSupply i) (st.maxSupply i) (st.inprodSupply i))
        new) := by
  induction is generalizing new with
  | nil => exact Reads.pure new
  | cons i is ih => exact Reads.cons rfl (Reads.cons rfl (Reads.cons rfl (ih _)))

lemma update_all (f g : Fin 3 → ℚ) :
    Function.update (Function.update (Function.update f 0 (g 0)) 1 (g 1)) 2 (g 2) = g := by
  funext i
  fin_cases i <;> rfl

lemma reads_supplies (st new : BuildState) :
    Reads (new.loadSupply [0, 1, 2]) ([0, 1, 2].flatMap st.saveSupply)
      { new with
        usedSupply := st.usedSupply
        maxSupply := st.maxSupply
        inprodSupply := st.inprodSupply } := by
  have h := reads_supply st new [0, 1, 2]
  simp only [foldl_cons, foldl_nil, BuildState.setSupply, update_all] at h
  exact h

lemma buildTypeId_inj {p q : Ptr} (hp : RegisteredPtr R p) (hq : RegisteredPtr R q)
    (h : buildTypeId p = buildTypeId q) : p = q := by
  have hback := buildTypeFromId_buildTypeId hp
  rw [h, buildTypeFromId_buildTypeId hq] at hback
  exact (Option.some.inj hback).symm

variable (it : Iteration) {st : BuildState}

section
variable (h : st.Registered R)
include h

lemma unitIds_perm :
    (st.unitIds it).entries.Perm (st.units.entries.map fun e => (buildTypeId e.1, e.2)) := by
  have hperm := (it.perm st.units.entries).map fun e => (buildTypeId e.1, e.2)
  have hkeys : (Lib.Assoc.keys (st.units.entries.map fun e => (buildTypeId e.1, e.2))).Nodup := by
    have hmap : Lib.Assoc.keys (st.units.entries.map fun e => (buildTypeId e.1, e.2))
        = (Lib.Assoc.keys st.units.entries).map buildTypeId := by
      simp only [Lib.Assoc.keys, map_map, Function.comp_def]
    rw [hmap]
    refine st.units.nodup.map_on fun p hp q hq => ?_
    obtain ⟨e, he, rfl⟩ := mem_map.mp hp
    obtain ⟨e', he', rfl⟩ := mem_map.mp hq
    exact buildTypeId_inj (h.keys e he) (h.keys e' he')
  exact (setAll_empty_perm ((hperm.map Prod.fst).nodup_iff.mpr hkeys)).trans hperm

lemma upgradeIds_perm :
    (st.upgradeIds it).elems.Perm (st.upgradesAndTech.elems.map buildTypeId) := by
  have hperm := (it.perm st.upgradesAndTech.elems).map buildTypeId
  have hnodup : (st.upgradesAndTech.elems.map buildTypeId).Nodup :=
    st.upgradesAndTech.nodup.map_on fun p hp q hq =>
      buildTypeId_inj (h.upgradesAndTech p hp) (h.upgradesAndTech q hq)
  exact (insertAll_empty_perm (hperm.nodup_iff.mpr hnodup)).trans hperm

lemma registered_of_mem_unitIds {e : Nat × List BuildStateUnit}
    (he : e ∈ it.order (st.unitIds it).entries) : ∀ u ∈ e.2, u.Registered R := by
  obtain ⟨e', he', rfl⟩ :=
    mem_map.mp (((it.perm _).trans (unitIds_perm it h)).mem_iff.mp he)
  exact h.units e' he'

/-- **A state comes back without its build order.** -/
theorem reads_state :
    ∃ st', Reads (BuildState.load R it {}) (st.save it) st' ∧ st'.Same st ∧ st'.buildOrder = [] := by
  -- the pointers that `load` computes, in the order in which its loops meet them
  obtain ⟨units, hunits, hunits'⟩ :=
    mapM_perm (g := fun e => (buildTypeFromId R e.1).map fun t => (t, e.2))
      ((it.perm _).trans ((it.perm _).trans (unitIds_perm it h))) fun e he => by
        rw [buildTypeFromId_buildTypeId (h.keys e he)]
        rfl
  obtain ⟨ups, hups, hups'⟩ := mapM_perm (g := buildTypeFromId R)
    ((it.perm _).trans ((it.perm _).trans (upgradeIds_perm it h))) fun t ht =>
      buildTypeFromId_buildTypeId (h.upgradesAndTech t ht)
  have hprod := mapM_map_eq_some (f := fun e : Int × Ptr => (e.1, buildTypeId e.2))
    (g := fun e => (buildTypeFromId R e.2).map fun t => (e.1, t)) (l := st.production)
    fun e he => by
      rw [buildTypeFromId_buildTypeId (h.production e he)]
      rfl
  refine ⟨{ st with
    units := UnorderedMap.setAll {} units
    upgradesAndTech := UnorderedSet.insertAll {} ups
    buildOrder := [] }, ?_, ⟨rfl, ?_, ?_⟩, rfl⟩
  · unfold BuildState.load BuildState.save
    refine Reads.cons rfl ?_
    refine Reads.cons rfl ?_
    refine Reads.cons rfl ?_
    refine Reads.cons rfl ?_
    refine Reads.cons rfl ?_
    refine Reads.cons rfl ?_
    refine (reads_supplies st _).bind ?_
    refine (reads_loadAll fun e he => reads_units (registered_of_mem_unitIds it h he)).bind ?_
    refine (reads_loadAll fun id _ => Reads.next (show Value.toId (.id id) = some id from rfl)).bind ?_
    refine (reads_loadAll fun e _ => reads_item _ e).bind ?_
    refine reads_computed hunits ?_
    refine reads_computed hups ?_
    refine reads_computed hprod ?_
    refine (reads_loadAll fun u hu => reads_unit {} (h.morphingHatcheries u hu)).bind ?_
    refine Reads.cons rfl ?_
    refine Reads.cons rfl ?_
    refine Reads.cons rfl ?_
    refine Reads.cons rfl ?_
    refine Reads.cons rfl ?_
    refine Reads.cons rfl ?_
    exact Reads.pure _
  · exact (setAll_empty_perm ((hunits'.map Prod.fst).nodup_iff.mpr st.units.nodup)).trans hunits'
  · exact (insertAll_empty_perm (hups'.nodup_iff.mpr st.upgradesAndTech.nodup)).trans hups'

end

/-! ## an entry does not -/

lemma buildTypeFromId_unit {n : Int} (h : 0 ≤ n) (h' : n < 255) :
    buildTypeFromId R (n % 4294967296).toNat = some none := by
  refine if_pos ?_
  rw [Nat.shiftRight_eq_div_pow]
  omega

lemma buildTypeFromId_neg_one
    (h : buildTypeFromId R ((-1 : Int) % 4294967296).toNat = some (some t)) : t.level = 127 := by
  have hword : ((-1 : Int) % 4294967296).toNat = 4294967295 := rfl
  rw [hword, buildTypeFromId_eq R (by decide), if_neg (by decide), if_neg (by decide)] at h
  obtain ⟨id, -, -, rfl, -⟩ := getBuildType_eq_some h
  rfl

lemma unit_cases (h : Registered R t) : 0 ≤ t.unit ∧ t.unit < 255 ∨ t.unit = -1 := by
  rcases registered_cases h with ⟨id, h0, h1, rfl, -⟩ | ⟨id, -, -, rfl, -⟩ | ⟨id, l, -, -, -, -, rfl, -⟩
  · exact .inl ⟨h0, h1⟩
  · exact .inr rfl
  · exact .inr rfl

lemma load_entry {e e' : BuildEntry} {vs rest rest' : List Value} (hsave : e.save = some vs)
    (ht : e.type = some t) (hload : BuildEntry.load R {} (vs ++ rest) = some (e', rest')) :
    buildTypeFromId R (t.unit % 4294967296).toNat = some e'.type ∧ e'.pos = e.pos ∧ rest' = rest := by
  rw [BuildEntry.save, ht] at hsave
  cases hsave
  have hload : ((buildTypeFromId R (t.unit % 4294967296).toNat).map fun type =>
      (({ type, pos := { x := e.pos.x, y := e.pos.y } } : BuildEntry), rest)) = some (e', rest') := by
    rw [← hload]
    show _ = (computed (buildTypeFromId R (t.unit % 4294967296).toNat) >>= fun type =>
      (pure { type, pos := { x := e.pos.x, y := e.pos.y } } : Reader Value BuildEntry)) rest
    cases buildTypeFromId R (t.unit % 4294967296).toNat with
    | none | some => rfl
  obtain ⟨type, htype, h⟩ := Option.map_eq_some_iff.mp hload
  cases h
  exact ⟨htype, rfl, rfl⟩

lemma level_of_load {n : Int} (hn : 0 ≤ n ∧ n < 255 ∨ n = -1)
    (h : buildTypeFromId R (n % 4294967296).toNat = some (some t)) : t.level = 127 := by
  rcases hn with ⟨h0, h1⟩ | rfl
  · rw [buildTypeFromId_unit h0 h1] at h
    cases h
  · exact buildTypeFromId_neg_one h

end reads

/-! ## the round trip -/

/-- **What was saved is loaded, but for the type of an entry**: a unit type becomes null, and for an
upgrade or a tech, whose number is `-1`, `load` asks the registry for an upgrade of level 127. -/
theorem round_trip (R : Registry) (it : Iteration) :
    (∀ u : BuildStateUnit, u.Registered R → Reads (BuildStateUnit.load R {}) u.save u) ∧
    (∀ st : BuildState, st.Registered R →
      ∃ st', Reads (BuildState.load R it {}) (st.save it) st' ∧ st'.Same st) ∧
    ∀ (e : BuildEntry) (t : BuildType) (vs : List Value), e.type = some t → Registered R t →
      e.save = some vs →
      (0 ≤ t.unit → Reads (BuildEntry.load R {}) vs { e with type := none }) ∧
      ∀ (rest : List Value) (e' : BuildEntry) (rest' : List Value),
        BuildEntry.load R {} (vs ++ rest) = some (e', rest') →
          e'.pos = e.pos ∧ rest' = rest ∧ (e'.type = e.type → t.level = 127) := by
  refine ⟨fun u hu => reads_unit {} hu, fun st hst => ?_, fun e t vs ht hR hsave => ⟨?_, ?_⟩⟩
  · obtain ⟨st', hreads, hsame, -⟩ := reads_state it hst
    exact ⟨st', hreads, hsame⟩
  · intro hunit
    obtain ⟨h0, h1⟩ | hneg := unit_cases hR
    · rw [BuildEntry.save, ht] at hsave
      cases hsave
      refine Reads.cons rfl ?_
      refine Reads.cons rfl ?_
      refine Reads.cons rfl ?_
      refine reads_computed (buildTypeFromId_unit h0 h1) ?_
      exact Reads.pure _
    · omega
  · intro rest e' rest' hload
    obtain ⟨htype, hpos, hrest⟩ := load_entry hsave ht hload
    refine ⟨hpos, hrest, fun hsame => ?_⟩
    rw [hsame, ht] at htype
    exact level_of_load (unit_cases hR) htype

def droneType : BuildType := { unit := 41 }

/-- two drones, one of them building, and burrow -/
def sampleState : BuildState where
  frame := 240
  minerals := 75
  units := ⟨[(some droneType, [{ type := some droneType },
    { type := some droneType, busyUntil := 300 }])], by decide⟩
  upgradesAndTech := ⟨[some { tech := 11, level := 1 }], by decide⟩
  production := [(300, some { unit := 142 })]

lemma registered_drone : Registered .bwapi droneType := .inl ⟨41, by decide⟩

lemma registered_sample : sampleState.Registered .bwapi where
  keys := by
    intro e he t ht
    obtain rfl := mem_singleton.mp he
    cases ht
    exact registered_drone
  units := by
    intro e he u hu
    obtain rfl := mem_singleton.mp he
    have hu : u ∈ [({ type := some droneType } : BuildStateUnit),
      { type := some droneType, busyUntil := 300 }] := hu
    simp only [mem_cons, not_mem_nil, or_false] at hu
    rcases hu with rfl | rfl
    · exact ⟨fun t ht => Option.some.inj ht ▸ registered_drone, fun t ht => by cases ht⟩
    · exact ⟨fun t ht => Option.some.inj ht ▸ registered_drone, fun t ht => by cases ht⟩
  upgradesAndTech := by
    intro p hp t ht
    obtain rfl := mem_singleton.mp hp
    cases ht
    exact .inr (.inl ⟨11, by decide⟩)
  production := by
    intro e he t ht
    obtain rfl := mem_singleton.mp he
    cases ht
    exact .inl ⟨142, by decide⟩
  morphingHatcheries := by
    intro u hu
    cases hu

theorem round_trip_sample :
    sampleState.Registered .bwapi ∧
    (∃ st', Reads (BuildState.load .bwapi .insertion {}) (sampleState.save .insertion) st' ∧
      st'.Same sampleState) ∧
    Reads (BuildEntry.load .bwapi {}) [.int 41, .int 3, .int 4] { pos := ⟨3, 4⟩ } :=
  ⟨registered_sample, (round_trip .bwapi .insertion).2.1 sampleState registered_sample,
    ((round_trip .bwapi .insertion).2.2 { type := some droneType, pos := ⟨3, 4⟩ } droneType _ rfl
      registered_drone rfl).1 (by decide)⟩

/-- An entry for a drone is loaded without a type; for an upgrade or a tech `load` throws. -/
theorem entry_type_lost :
    Registered .bwapi droneType ∧
    (BuildEntry.save { type := some droneType, pos := ⟨3, 4⟩ } = some [.int 41, .int 3, .int 4] ∧
      BuildEntry.load .bwapi {} [.int 41, .int 3, .int 4] = some ({ type := none, pos := ⟨3, 4⟩ }, []))
    ∧ Registered .bwapi { upgrade := 27, level := 1 } ∧
    (BuildEntry.save { type := some { upgrade := 27, level := 1 }, pos := ⟨3, 4⟩ }
        = some [.int (-1), .int 3, .int 4] ∧
      BuildEntry.load .bwapi {} [.int (-1), .int 3, .int 4] = none) := by
  refine ⟨registered_drone, ⟨rfl, by decide⟩, .inr (.inr ⟨27, 1, by decide⟩), ⟨rfl, by decide⟩⟩

end TorchCraft.AutoBuild.Cereal
