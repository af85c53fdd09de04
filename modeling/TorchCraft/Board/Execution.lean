import Mathlib.Algebra.Order.Field.Rat
import TorchCraft.Board.Retention
import TorchCraft.Lib.Assoc

/-!
# From UPCs to game commands

`UPCToCommandModule` meets the UPCs on the board in random order, translates those that are sharp
enough into game commands, consumes these UPCs and posts the commands.

* `stepUPC`  the commands for one UPC, by the first of seven cases that applies;
* `stepAll_eq`, `executes`  what a step posts and consumes does not depend on the order;
* `assignedUnitsFilter`, `commanded_iff`  when a unit with probability zero gets a command.

Probabilities are rationals.  `command` gives the probability of a command; that of a missing entry
is zero, and so is that of the entry which `command[Cast]` inserts.  The log of the module and its
drawings are left out.
-/

set_option linter.unusedSectionVars false

namespace TorchCraft.UPCToCommand
open Lib List

/-! ## tuples -/

inductive Command
  | create | move | delete | gather | scout | cancel | harass | flee | setCreatePriority
  | returnCargo | cast
  deriving DecidableEq

structure Position where
  x : Int := 0
  y : Int := 0
  deriving DecidableEq

/-- `std::unordered_map<Unit*, float>`, in the order of its iteration -/
structure UnitMap (U : Type) where
  entries : List (U × ℚ)
  nodup : (Assoc.keys entries).Nodup

/-- `PositionT`; of a tensor only its `argmax` -/
inductive PositionT (U : Type)
  | empty
  | position (pos : Position)
  | area (center : Position)
  | units (map : UnitMap U)
  | tensor (argmax : Position)

structure UPCTuple (U B : Type) where
  unit : UnitMap U
  position : PositionT U := .empty
  command : Command → ℚ
  /-- the keys of a `BuildTypeMap`; `none` if the state is something else -/
  state : Option (List B) := none
  scale : Int := 1

structure World (U B : Type) where
  id : U → Int
  pos : U → Position
  isWorker : U → Bool
  visibleUnits : List U
  isBuilding : B → Bool
  isAddon : B → Bool
  isUnit : B → Bool
  isUpgrade : B → Bool
  isTech : B → Bool
  unit : B → Int
  upgrade : B → Int
  tech : B → Int

inductive UnitCommandType
  | rightClickUnit | build | buildAddon | morph | train | upgrade | research | move | attackUnit
  | attackMove | useTechUnit | useTechPosition | cancelMorph | returnCargo
  deriving DecidableEq

structure Issued (U : Type) where
  unit : U
  type : UnitCommandType
  args : List Int := []
  deriving DecidableEq

section step
variable {U B : Type} (w : World U B) (upc : UPCTuple U B)

def UPCTuple.positionUArgMax : Option U :=
  match upc.position with
  | .units map => (map.entries.foldl
      (fun best el => if best.2 < el.2 then (some el.1, el.2) else best) (none, 0)).1
  | _ => none

/-- the position of `positionArgMax`; `none` if it dereferences the null pointer -/
def UPCTuple.positionArgMax : Option Position :=
  match upc.position with
  | .empty => some ⟨-1, -1⟩
  | .position pos => some ⟨pos.x * upc.scale, pos.y * upc.scale⟩
  | .area center => some center
  | .units _ => upc.positionUArgMax.map w.pos
  | .tensor argmax => some argmax

/-- the unit that a Gather command goes to; `none` if a null pointer is dereferenced -/
def gatherTarget : Option (Option U) :=
  match upc.positionUArgMax with
  | some dest => some (some dest)
  | none => (upc.positionArgMax w).map fun pos => w.visibleUnits.find? fun u => w.pos u = pos

def forUnits (issue : U → Issued U) : List (Issued U) :=
  (upc.unit.entries.filter fun uprob => uprob.2 ≠ 0).map fun uprob => issue uprob.1

/-- the target of Delete and Cast commands; `none` if they are skipped -/
def target : Option (Int × Position) :=
  match upc.position with
  | .units map =>
    match map.entries with
    | [] => none
    | (u, p) :: _ => if p = 1 then some (w.id u, {}) else none
  | _ => (upc.positionArgMax w).map fun pos => (-1, pos)

def create (unit : U) (type : B) : Option (List (Issued U)) :=
  if w.isWorker unit && w.isBuilding type then
    (upc.positionArgMax w).map fun p => [⟨unit, .build, [-1, p.x, p.y, w.unit type]⟩]
  else if w.isAddon type then some [⟨unit, .buildAddon, [-1, 0, 0, w.unit type]⟩]
  else if w.isUnit type then
    if w.isBuilding type then some [⟨unit, .morph, [-1, 0, 0, w.unit type]⟩]
    else some [⟨unit, .train, [-1, 0, 0, w.unit type]⟩]
  else if w.isUpgrade type then some [⟨unit, .upgrade, [-1, 0, 0, w.upgrade type]⟩]
  else if w.isTech type then some [⟨unit, .research, [-1, 0, 0, w.tech type]⟩]
  else some []

/-- the commands for a UPC; `none` if a null pointer is dereferenced -/
def stepUPC : Option (List (Issued U)) :=
  match upc.unit.entries with
  | [(unit, p)] =>
    if upc.command .gather = 1 then
      (gatherTarget w upc).map fun
        | some dest => [⟨unit, .rightClickUnit, [w.id dest]⟩]
        | none => []
    else if upc.command .create = 1 ∧ upc.state.isSome then
      match upc.state with
      | some [type] => if p < 1 then some [] else create w upc unit type
      | _ => some []
    else others true
  | _ => others false
where
  /-- the cases for any number of units; `single` says that there is one -/
  others (single : Bool) : Option (List (Issued U)) :=
    if upc.command .move = 1 ∨ upc.command .flee = 1 then
      if forUnits upc (⟨·, .move, []⟩) = [] then some []
      else (upc.positionArgMax w).map fun pos => forUnits upc (⟨·, .move, [-1, pos.x, pos.y]⟩)
    else if upc.command .delete = 1 then
      match target w upc with
      | none => some []
      | some (targetId, pos) =>
        if targetId ≥ 0 then some (forUnits upc (⟨·, .attackUnit, [targetId]⟩))
        else some (forUnits upc (⟨·, .attackMove, [-1, pos.x, pos.y]⟩))
    else if single ∧ upc.command .cast = 1 ∧ upc.state.isSome then
      match upc.state, target w upc with
      | some [spell], some (targetId, pos) =>
        if targetId ≥ 0 then
          some (forUnits upc (⟨·, .useTechUnit, [targetId, 0, 0, w.tech spell]⟩))
        else some (forUnits upc (⟨·, .useTechPosition, [-1, pos.x, pos.y, w.tech spell]⟩))
      | _, _ => some []
    else if upc.command .cancel = 1 then some (forUnits upc (⟨·, .cancelMorph, []⟩))
    else if upc.command .returnCargo = 1 then some (forUnits upc (⟨·, .returnCargo, []⟩))
    else some []

end step

/-! ## a step -/

/-- `UPCToCommandState`, without the set of units that is read for the log -/
structure State (U : Type) where
  commands : List (Issued U) := []
  upcIds : List UpcId := []

def State.registerCommand {U : Type} (st : State U) (upcId : UpcId) (command : Issued U) :
    State U where
  commands := st.commands ++ [command]
  upcIds := st.upcIds ++ [upcId]

section run
variable {U B M : Type} [DecidableEq M] (w : World U B)

def stepAll (st : State U) : List (UpcId × UPCTuple U B) → Option (State U)
  | [] => some st
  | (upcId, upc) :: upcs => (stepUPC w upc).bind fun commands =>
      stepAll (commands.foldl (fun st c => st.registerCommand upcId c) st) upcs

variable (b : Upcs M (UPCTuple U B))

def postGameCommand (st : State U) : Upcs M (UPCTuple U B) × List (Issued U × UpcId) :=
  (b.eraseUPCs st.upcIds, st.commands.zip st.upcIds)

def upcs : List (UpcId × UPCTuple U B) :=
  b.upcs.entries.map fun e => (e.1, e.2.upc)

/-- `UPCToCommandModule::step`, with the shuffled UPCs; `none` if a null pointer is dereferenced -/
def step (allUpcs : List (UpcId × UPCTuple U B)) :
    Option (Upcs M (UPCTuple U B) × List (Issued U × UpcId)) :=
  (stepAll w {} allUpcs).map (postGameCommand b)

/-! ## the order does not matter -/

def derived (e : UpcId × UPCTuple U B) : List (Issued U × UpcId) :=
  ((stepUPC w e.2).getD []).map fun c => (c, e.1)

lemma foldl_registerCommand (st : State U) (upcId : UpcId) (cs : List (Issued U)) :
    cs.foldl (fun st c => st.registerCommand upcId c) st =
      ⟨st.commands ++ cs, st.upcIds ++ cs.map fun _ => upcId⟩ := by
  induction cs generalizing st with
  | nil => simp
  | cons c cs ih =>
    rw [foldl_cons, ih]
    simp [State.registerCommand]

lemma stepAll_eq (st : State U) (l : List (UpcId × UPCTuple U B)) :
    stepAll w st l = if l.all fun e => (stepUPC w e.2).isSome then
      some ⟨st.commands ++ (l.flatMap (derived w)).map Prod.fst,
        st.upcIds ++ (l.flatMap (derived w)).map Prod.snd⟩
    else none := by
  induction l generalizing st with
  | nil => simp [stepAll]
  | cons e l ih =>
    rw [stepAll]
    cases hs : stepUPC w e.2 with
    | none => simp [hs]
    | some cs =>
      have hsome : (stepUPC w e.2).isSome := by rw [hs]; rfl
      rw [Option.bind_some, ih, foldl_registerCommand, all_cons, hsome, Bool.true_and]
      simp [derived, hs, Function.comp_def]

lemma zip_fst_snd {X Y : Type} (l : List (X × Y)) :
    (l.map Prod.fst).zip (l.map Prod.snd) = l := by
  induction l with
  | nil => rfl
  | cons a l ih => rw [map_cons, map_cons, zip_cons_cons, ih]

lemma step_eq (l : List (UpcId × UPCTuple U B)) :
    step w b l = if l.all fun e => (stepUPC w e.2).isSome then
      some (b.eraseUPCs ((l.flatMap (derived w)).map Prod.snd), l.flatMap (derived w))
    else none := by
  rw [step, stepAll_eq]
  split
  · simp [postGameCommand, zip_fst_snd]
  · rfl

lemma find_eraseUPCs (ids : List UpcId) (id : UpcId) :
    (b.eraseUPCs ids).upcs.find id = if id ∈ ids then none else b.upcs.find id := by
  rw [Upcs.eraseUPCs_eq]
  exact OrdMap.find_foldl_erase ..

variable {w} {b : Upcs M (UPCTuple U B)} {l : List (UpcId × UPCTuple U B)}

lemma step_some {r : Upcs M (UPCTuple U B) × List (Issued U × UpcId)} (h : step w b l = some r) :
    (∀ e ∈ l, (stepUPC w e.2).isSome) ∧
      r = (b.eraseUPCs ((l.flatMap (derived w)).map Prod.snd), l.flatMap (derived w)) := by
  rw [step_eq] at h
  split at h
  next hall => exact ⟨all_eq_true.mp hall, (Option.some.inj h).symm⟩
  next => cases h

lemma mem_derived (hl : l.Perm (upcs b)) {c : Issued U} {id : UpcId} :
    (c, id) ∈ l.flatMap (derived w) ↔
      ∃ d cs, b.upcs.find id = some d ∧ stepUPC w d.upc = some cs ∧ c ∈ cs := by
  have hder (upc : UPCTuple U B) :
      (c, id) ∈ derived w (id, upc) ↔ ∃ cs, stepUPC w upc = some cs ∧ c ∈ cs := by
    cases hs : stepUPC w upc <;> simp [derived, hs]
  rw [(hl.flatMap_right _).mem_iff, mem_flatMap]
  constructor
  · rintro ⟨e, he, hc⟩
    obtain ⟨⟨k, d⟩, hd, rfl⟩ := mem_map.mp he
    obtain ⟨c', -, heq⟩ := mem_map.mp hc
    obtain ⟨-, rfl⟩ := Prod.mk.inj heq
    obtain ⟨cs, hs, hmem⟩ := (hder d.upc).mp hc
    exact ⟨d, cs, (OrdMap.find_eq_some ..).mpr hd, hs, hmem⟩
  · rintro ⟨d, cs, hd, hs, hmem⟩
    exact ⟨(id, d.upc), mem_map.mpr ⟨(id, d), (OrdMap.find_eq_some ..).mp hd, rfl⟩,
      (hder d.upc).mpr ⟨cs, hs, hmem⟩⟩

/-- **A step does not depend on the order in which it meets the UPCs.**  -/
theorem executes (w : World U B) (b : Upcs M (UPCTuple U B)) (l l' : List (UpcId × UPCTuple U B))
    (hl : l.Perm (upcs b)) (hl' : l'.Perm (upcs b)) :
    (step w b l = none ↔ step w b l' = none) ∧
    ∀ r r', step w b l = some r → step w b l' = some r' →
      r.2.Perm r'.2 ∧
      (∀ c id, (c, id) ∈ r.2 ↔
        ∃ d cs, b.upcs.find id = some d ∧ stepUPC w d.upc = some cs ∧ c ∈ cs) ∧
      ∀ id, ((∃ c, (c, id) ∈ r.2) → r.1.upcs.find id = none) ∧
        ((¬∃ c, (c, id) ∈ r.2) → r.1.upcs.find id = b.upcs.find id) := by
  have hperm := hl.trans hl'.symm
  have hall : (l.all fun e => (stepUPC w e.2).isSome) = l'.all fun e => (stepUPC w e.2).isSome := by
    rw [Bool.eq_iff_iff, all_eq_true, all_eq_true]
    exact forall_congr' fun e => by rw [hperm.mem_iff]
  rw [step_eq, step_eq, hall]
  split
  · refine ⟨by simp, ?_⟩
    intro r r' hr hr'
    cases hr
    cases hr'
    refine ⟨hperm.flatMap_right _, fun c id => mem_derived hl, fun id => ?_⟩
    have hids : id ∈ (l.flatMap (derived w)).map Prod.snd ↔
        ∃ c, (c, id) ∈ l.flatMap (derived w) := by
      simp
    rw [find_eraseUPCs]
    exact ⟨fun h => if_pos (hids.mpr h), fun h => if_neg (h ∘ hids.mp)⟩
  · simp

end run

def sampleWorld : World Nat Unit where
  id u := u
  pos u := ⟨u, u⟩
  isWorker _ := true
  visibleUnits := [1, 2, 7]
  isBuilding _ := false
  isAddon _ := false
  isUnit _ := true
  isUpgrade _ := false
  isTech _ := false
  unit _ := 0
  upgrade _ := 0
  tech _ := 0

def gatherUPC : UPCTuple Nat Unit where
  unit := ⟨[(1, 1)], by decide⟩
  position := .units ⟨[(7, 1)], by decide⟩
  command c := if c = .gather then 1 else 0

def moveUPC : UPCTuple Nat Unit where
  unit := ⟨[(1, 0), (2, 1)], by decide⟩
  position := .position ⟨3, 4⟩
  command c := if c = .move then 1 else 0

def sampleBoard (filters : List (UPCTuple Nat Unit → Nat → Option (UPCTuple Nat Unit))) :
    Upcs Nat (UPCTuple Nat Unit) :=
  let b : Upcs Nat (UPCTuple Nat Unit) := { upcFilters := filters }
  ((b.postUPC 0 gatherUPC 0 5).2.postUPC 0 moveUPC 0 5).2

theorem executes_sample : ∃ r r',
    step sampleWorld (sampleBoard []) (upcs (sampleBoard [])) = some r ∧
    step sampleWorld (sampleBoard []) (upcs (sampleBoard [])).reverse = some r' ∧
    r.2.Perm r'.2 := by
  obtain ⟨r, hr⟩ := Option.isSome_iff_exists.mp (show (step sampleWorld (sampleBoard [])
    (upcs (sampleBoard []))).isSome = true by decide +kernel)
  obtain ⟨r', hr'⟩ := Option.isSome_iff_exists.mp (show (step sampleWorld (sampleBoard [])
    (upcs (sampleBoard [])).reverse).isSome = true by decide +kernel)
  exact ⟨r, r', hr, hr', ((executes _ _ _ _ (.refl _) (reverse_perm _)).2 r r' hr hr').1⟩

/-! ## units with probability zero -/

section probabilities
variable {U B M : Type} [DecidableEq U] [DecidableEq M] {w : World U B} {upc : UPCTuple U B}
  {cs : List (Issued U)}

def UPCTuple.unitProb (upc : UPCTuple U B) (u : U) : ℚ := (upc.unit.entries.lookup u).getD 0

def UnitMap.map (m : UnitMap U) (f : U → ℚ → ℚ) : UnitMap U where
  entries := m.entries.map fun e => (e.1, f e.1 e.2)
  nodup := by
    have hkeys : Assoc.keys (m.entries.map fun e => (e.1, f e.1 e.2)) = Assoc.keys m.entries := by
      simp [Assoc.keys]
    rw [hkeys]
    exact m.nodup

/-- `AssignedUnitsFilter::filter`, where `owner` is the owner of a unit's task -/
def assignedUnitsFilter (owner : U → Option M) (upc : UPCTuple U B) (origin : M) :
    Option (UPCTuple U B) :=
  if upc.command .gather = 1 then
    some { upc with unit := upc.unit.map fun u p =>
      if p ≤ 0 ∨ owner u = none ∨ owner u = some origin then p else 0 }
  else some upc

/-- a Gather UPC with one unit of probability zero, and something to gather -/
def Unheeded (w : World U B) (upc : UPCTuple U B) : Prop :=
  upc.command .gather = 1 ∧ (∃ u, upc.unit.entries = [(u, 0)]) ∧
    ∃ dest, gatherTarget w upc = some (some dest)

lemma unitProb_of_mem {u : U} {p : ℚ} (h : (u, p) ∈ upc.unit.entries) : upc.unitProb u = p := by
  rw [UPCTuple.unitProb, (Assoc.lookup_iff_mem upc.unit.nodup).mpr h]
  rfl

lemma unitProb_ne_zero {u : U} : upc.unitProb u ≠ 0 ↔ ∃ p, (u, p) ∈ upc.unit.entries ∧ p ≠ 0 := by
  constructor
  · intro h
    cases hl : upc.unit.entries.lookup u with
    | none => exact absurd (by rw [UPCTuple.unitProb, hl]; rfl) h
    | some p =>
      have hmem := (Assoc.lookup_iff_mem upc.unit.nodup).mp hl
      exact ⟨p, hmem, unitProb_of_mem hmem ▸ h⟩
  · rintro ⟨p, hmem, hne⟩
    rwa [unitProb_of_mem hmem]

def Heeded (upc : UPCTuple U B) (cs : List (Issued U)) : Prop :=
  ∀ c ∈ cs, ∃ p, (c.unit, p) ∈ upc.unit.entries ∧ p ≠ 0

lemma heeded_nil (upc : UPCTuple U B) : Heeded upc [] := nofun

lemma heeded_forUnits (upc : UPCTuple U B) (type : UnitCommandType) (args : List Int) :
    Heeded upc (forUnits upc (⟨·, type, args⟩)) := by
  intro c hc
  obtain ⟨e, he, rfl⟩ := mem_map.mp hc
  obtain ⟨hmem, hne⟩ := mem_filter.mp he
  exact ⟨e.2, hmem, of_decide_eq_true hne⟩

lemma heeded_others {single : Bool}
    (h : stepUPC.others w upc single = some cs) : Heeded upc cs := by
  unfold stepUPC.others at h
  split at h
  · split at h
    · cases h
      exact heeded_nil upc
    · obtain ⟨pos, -, rfl⟩ := Option.map_eq_some_iff.mp h
      exact heeded_forUnits upc _ _
  · split at h
    · split at h
      · cases h
        exact heeded_nil upc
      · split at h <;> (cases h; exact heeded_forUnits upc _ _)
    · split at h
      · split at h
        · split at h <;> (cases h; exact heeded_forUnits upc _ _)
        · cases h
          exact heeded_nil upc
      · split at h
        · cases h
          exact heeded_forUnits upc _ _
        · split at h
          · cases h
            exact heeded_forUnits upc _ _
          · cases h
            exact heeded_nil upc

lemma create_unit {unit : U} {type : B}
    (h : create w upc unit type = some cs) : ∀ c ∈ cs, c.unit = unit := by
  unfold create at h
  split at h
  · obtain ⟨pos, -, rfl⟩ := Option.map_eq_some_iff.mp h
    exact fun c hc => mem_singleton.mp hc ▸ rfl
  · split_ifs at h
    all_goals cases h; simp

/-- **All cases but Gather skip units with probability zero.** -/
theorem heeded_iff (h : stepUPC w upc = some cs) : Heeded upc cs ↔ ¬Unheeded w upc := by
  unfold stepUPC at h
  split at h
  next unit p hunit =>
    split at h
    next hg =>
      obtain ⟨t, ht, rfl⟩ := Option.map_eq_some_iff.mp h
      cases t with
      | none =>
        refine iff_of_true (heeded_nil upc) fun hun => ?_
        obtain ⟨dest, hdest⟩ := hun.2.2
        rw [ht] at hdest
        cases hdest
      | some dest =>
        have hheeded : Heeded upc [⟨unit, .rightClickUnit, [w.id dest]⟩] ↔ p ≠ 0 := by
          simp [Heeded, hunit]
        have hun : Unheeded w upc ↔ p = 0 := by
          simp [Unheeded, hg, hunit, ht]
        rw [hheeded, hun]
    next hg =>
      refine iff_of_true ?_ fun hun => hg hun.1
      split at h
      · split at h
        · split at h
          · cases h
            exact heeded_nil upc
          next hp =>
            intro c hc
            refine ⟨p, ?_, fun h0 => hp (h0 ▸ one_pos)⟩
            rw [hunit, create_unit h c hc]
            exact mem_singleton_self _
        · cases h
          exact heeded_nil upc
      · exact heeded_others h
  next hunit =>
    refine iff_of_true (heeded_others h) fun hun => ?_
    obtain ⟨u, hu⟩ := hun.2.1
    exact hunit u 0 hu

/-- **When a unit with probability zero is commanded**: only if the UPC asks one unit of probability
zero to gather something. -/
theorem commanded_iff (w : World U B) (b : Upcs M (UPCTuple U B))
    (l : List (UpcId × UPCTuple U B)) (hl : l.Perm (upcs b))
    (r : Upcs M (UPCTuple U B) × List (Issued U × UpcId)) (hr : step w b l = some r) :
    (∀ id d, b.upcs.find id = some d →
      ((∀ c, (c, id) ∈ r.2 → d.upc.unitProb c.unit ≠ 0) ↔ ¬Unheeded w d.upc)) ∧
    ∀ (owner : U → Option M) (upc upc' : UPCTuple U B) (origin m : M) (u : U),
      assignedUnitsFilter owner upc origin = some upc' → upc.command .gather = 1 →
      owner u = some m → m ≠ origin → 0 ≤ upc.unitProb u → upc'.unitProb u = 0 := by
  obtain ⟨hall, rfl⟩ := step_some hr
  constructor
  · intro id d hd
    have hmem : (id, d.upc) ∈ l :=
      hl.mem_iff.mpr (mem_map.mpr ⟨(id, d), (OrdMap.find_eq_some ..).mp hd, rfl⟩)
    obtain ⟨cs, hcs⟩ := Option.isSome_iff_exists.mp (hall _ hmem)
    rw [← heeded_iff hcs]
    refine forall_congr' fun c => ?_
    rw [mem_derived hl, unitProb_ne_zero]
    refine imp_congr_left ⟨?_, fun hc => ⟨d, cs, hd, hcs, hc⟩⟩
    rintro ⟨d', cs', hd', hcs', hc⟩
    rw [hd] at hd'
    cases hd'
    rw [hcs] at hcs'
    cases hcs'
    exact hc
  · intro owner upc upc' origin m u hf hg howner hm hpos
    rw [assignedUnitsFilter, if_pos hg] at hf
    cases hf
    by_contra hne
    obtain ⟨p, hp, hp0⟩ := unitProb_ne_zero.mp hne
    obtain ⟨⟨u', q⟩, hq, heq⟩ := mem_map.mp hp
    cases heq
    rw [unitProb_of_mem hq] at hpos
    dsimp only at hp0 howner
    split at hp0
    next hor =>
      rcases hor with h | h | h
      · exact hp0 (le_antisymm h hpos)
      · rw [howner] at h
        cases h
      · rw [howner] at h
        exact hm (Option.some.inj h)
    next => exact hp0 rfl

end probabilities

theorem commanded_iff_sample : ∃ r,
    step sampleWorld (sampleBoard []) (upcs (sampleBoard [])) = some r ∧
    ∀ d, (sampleBoard []).upcs.find 2 = some d → ∀ c, (c, 2) ∈ r.2 → d.upc.unitProb c.unit ≠ 0 := by
  obtain ⟨r, hr⟩ := Option.isSome_iff_exists.mp (show (step sampleWorld (sampleBoard [])
    (upcs (sampleBoard []))).isSome = true by decide +kernel)
  refine ⟨r, hr, fun d hd => ((commanded_iff _ _ _ (.refl _) r hr).1 2 d hd).mpr fun h => ?_⟩
  have hmove : (sampleBoard []).upcs.find 2 = some ⟨moveUPC, 0, 5⟩ := by rfl
  rw [hmove] at hd
  cases hd
  obtain ⟨u, hu⟩ := h.2.1
  cases hu

/-- Unit 1 has probability zero in the Gather UPC of module 5; the step commands it all the same. -/
theorem gather_commands_assigned :
    let b := sampleBoard [assignedUnitsFilter fun u => if u = 1 then some 3 else none]
    (b.upcs.find 1).map (fun d => d.upc.unitProb 1) = some 0 ∧
      (step sampleWorld b (upcs b)).map Prod.snd =
        some [(⟨1, .rightClickUnit, [7]⟩, 1), (⟨2, .move, [-1, 3, 4]⟩, 2)] := by
  decide +kernel

end TorchCraft.UPCToCommand
