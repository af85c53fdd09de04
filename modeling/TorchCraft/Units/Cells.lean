import TorchCraft.Lib.Loops
import TorchCraft.Units.Model

/-!
# `UnitsInfo::update`, one unit at a time

Every loop of the update treats the units one by one, and what it does with a unit depends on
nothing but this unit and its places in the containers.

* `Cell`  a unit and the containers it is in;
* `Cell.update`  what a frame does with one unit;
* `update_spec`  `UnitsInfo::update` does this with every unit;
* `containers_exact`  the containers after any changes.
-/

namespace TorchCraft.Units
open Lib Lib.Loops
open Utils (Position)
open List

variable {Ty : Type*} (g : Game Ty) (f : Frame Ty)

structure Cell (Ty : Type*) where
  unit : Option (Unit Ty)
  has : Container → Bool

namespace Cell

def set (c : Cell Ty) (u : Unit Ty) : Cell Ty := { c with unit := some u }

def updateGroups (c : Cell Ty) : Cell Ty :=
  match c.unit with
  | none => c
  | some u => { c with has := fun k => wants g k u }

def revise (h : Unit Ty → Unit Ty × Bool) (c : Cell Ty) : Cell Ty :=
  match c.unit with
  | none => c
  | some u => if (h u).2 then (c.set (h u).1).updateGroups g else c.set (h u).1

def touch (c : Cell Ty) : Cell Ty := c.set (c.unit.getD {})

def see [DecidableEq Ty] (v : TcUnit Ty) (c : Cell Ty) : Cell Ty :=
  c.touch.revise g fun u => (u.refresh g f v, u.changed (u.refresh g f v))

def bury (c : Cell Ty) : Cell Ty := c.revise g fun u => (u.die f, true)

def hide (c : Cell Ty) : Cell Ty :=
  if c.has .visibleUnits then c.revise g fun u => (u.look f, decide (u.needUpdateGroups f ≠ 0))
  else c

def forget (id : UnitId) (c : Cell Ty) : Cell Ty :=
  if c.has .hiddenUnits then c.revise g (Unit.fade g f id) else c

def infer (id : UnitId) (c : Cell Ty) : Cell Ty :=
  if g.inferEnemyPositions then
    f.moves.foldl (fun c m => if id = m.1 then c.revise g fun u => (u.inferMove m.2, false) else c) c
  else c

/-- the data of the frame about the unit, if there is any, and its death -/
def read [DecidableEq Ty] (id : UnitId) (c : Cell Ty) : Cell Ty :=
  let c := (f.units.find? fun v => id = v.id).elim c fun v => c.see g f v
  if id ∈ f.deaths then c.bury g f else c

/-- **What a frame does with one unit.** -/
def update [DecidableEq Ty] (id : UnitId) (c : Cell Ty) : Cell Ty :=
  (((c.read g f id).hide g f).forget g f id).infer g f id

variable (c : Cell Ty)

@[simp] lemma updateGroups_unit : (c.updateGroups g).unit = c.unit := by
  unfold updateGroups
  split <;> rfl

lemma updateGroups_idem : (c.updateGroups g).updateGroups g = c.updateGroups g := by
  obtain ⟨_ | u, has⟩ := c <;> rfl

lemma bury_idem : (c.bury g f).bury g f = c.bury g f := by
  obtain ⟨_ | u, has⟩ := c <;> rfl

end Cell

namespace UnitsInfo

def cell (s : UnitsInfo Ty) (id : UnitId) : Cell Ty :=
  ⟨s.unit id, fun c => decide (id ∈ (s.cont c).items)⟩

def Placed (s : UnitsInfo Ty) : Prop := ∀ c, (s.cont c).Ok

lemma placed_init : Placed ({} : UnitsInfo Ty) := fun _ => Slots.ok_empty

variable {g f} {s s' s'' : UnitsInfo Ty} {id j : UnitId} {h h' : Cell Ty → Cell Ty}

/-! ## the single steps -/

/-- one unit is treated, and no other -/
structure Treats (h : Cell Ty → Cell Ty) (id : UnitId) (s s' : UnitsInfo Ty) : Prop where
  placed : s'.Placed
  cell (j : UnitId) : s'.cell j = if j = id then h (s.cell j) else s.cell j

lemma Treats.trans (hs : Treats h id s s') (hs' : Treats h' id s' s'') :
    Treats (fun c => h' (h c)) id s s'' where
  placed := hs'.placed
  cell j := by
    rw [hs'.cell, hs.cell]
    split <;> rfl

lemma Treats.congr (hs : Treats h id s s') (heq : h (s.cell id) = h' (s.cell id)) :
    Treats h' id s s' where
  placed := hs.placed
  cell j := by
    rw [hs.cell]
    split
    next hj => rw [hj, heq]
    next => rfl

section
variable (hs : s.Placed)
include hs

lemma treats_self (id : UnitId) : Treats (fun c => c) id s s := ⟨hs, fun _ => (ite_self _).symm⟩

lemma treats_set (id : UnitId) (u : Unit Ty) : Treats (fun c => c.set u) id s (s.set id u) where
  placed := hs
  cell j := by
    refine (congrArg (Cell.mk · _) (Function.update_apply ..)).trans ?_
    split <;> rfl

lemma treats_updateGroups (id : UnitId) :
    Treats (Cell.updateGroups g) id s (s.updateGroups g id) := by
  unfold updateGroups
  split
  next hu => exact (treats_self hs id).congr (by rw [Cell.updateGroups, cell, hu])
  next u hu =>
    refine ⟨fun c => Slots.ok_put (hs c) id _, fun j => ?_⟩
    have hmem : (fun c => decide (j ∈ ((s.cont c).put id (wants g c u)).items)) =
        fun c => if j = id then wants g c u else decide (j ∈ (s.cont c).items) := by
      funext c
      rw [Bool.eq_iff_iff, decide_eq_true_iff, Slots.mem_put (hs c)]
      split <;> simp
    rw [cell, hmem]
    split
    next hj => rw [Cell.updateGroups, cell, hj, hu]
    next => rfl

lemma treats_revise (h : Unit Ty → Unit Ty × Bool) (id : UnitId) :
    Treats (Cell.revise g h) id s (s.revise g h id) := by
  unfold revise
  split
  next hu => exact (treats_self hs id).congr (by rw [Cell.revise, cell, hu])
  next u hu =>
    have hset := treats_set hs id (h u).1
    split
    next hc =>
      refine (hset.trans (treats_updateGroups hset.placed id)).congr ?_
      rw [Cell.revise, show (s.cell id).unit = some u from hu]
      exact (if_pos hc).symm
    next hc =>
      refine hset.congr ?_
      rw [Cell.revise, show (s.cell id).unit = some u from hu]
      exact (if_neg hc).symm

lemma treats_touch (id : UnitId) : Treats Cell.touch id s (s.touch id) :=
  (treats_set hs id _).congr rfl

end

/-! ## the loops -/

lemma treats_foldl {P A : Type*} (view : P → UnitsInfo Ty) (step : P → A → P) (key : A → UnitId)
    {h : A → Cell Ty → Cell Ty}
    (hstep : ∀ p a, (view p).Placed → Treats (h a) (key a) (view p) (view (step p a)))
    (l : List A) {p : P} (hp : (view p).Placed) :
    (view (l.foldl step p)).Placed ∧ ∀ id, (view (l.foldl step p)).cell id =
      l.foldl (fun c a => if id = key a then h a c else c) ((view p).cell id) :=
  ⟨foldlRecOn (motive := fun p => (view p).Placed) _ _ hp fun p hp a _ => (hstep p a hp).placed,
    fun id => foldl_view (fun p => (view p).Placed) (fun p => (view p).cell id)
      (fun a c => if id = key a then h a c else c) (fun p a hp => (hstep p a hp).placed)
      (fun p a hp => (hstep p a hp).cell id) l p hp⟩

lemma clears_spec (hs : s.Placed) :
    (f.units.foldl clear s).Placed ∧ ∀ id, (f.units.foldl clear s).cell id =
      (f.units.find? fun v => id = v.id).elim (s.cell id) fun _ => (s.cell id).touch := by
  obtain ⟨hplaced, hcell⟩ := treats_foldl (fun s => s) clear TcUnit.id
    (fun s v hs => ⟨hs, (treats_touch hs v.id).cell⟩) f.units hs
  exact ⟨hplaced, fun id => (hcell id).trans (foldl_one f.nodup id (fun _ => Cell.touch) _)⟩

section
variable [DecidableEq Ty]

lemma treats_see {p : UnitsInfo Ty × Bool} (hs : p.1.Placed) (v : TcUnit Ty) :
    Treats (Cell.see g f v) v.id p.1 (see g f p v).1 := by
  have htouch := treats_touch hs v.id
  have hrevise := htouch.trans (treats_revise (g := g) htouch.placed
    (fun u => (u.refresh g f v, u.changed (u.refresh g f v))) v.id)
  unfold see attack
  dsimp only
  split <;> exact ⟨hrevise.placed, hrevise.cell⟩

/-- the state after the first two loops, with the flag -/
def seen (g : Game Ty) (f : Frame Ty) (s : UnitsInfo Ty) : UnitsInfo Ty × Bool :=
  f.units.foldl (see g f) (f.units.foldl clear s, false)

lemma seen_spec (hs : s.Placed) :
    (s.seen g f).1.Placed ∧ ∀ id, (s.seen g f).1.cell id =
      (f.units.find? fun v => id = v.id).elim (s.cell id) fun v => (s.cell id).see g f v := by
  obtain ⟨hclear, hcleared⟩ := clears_spec (f := f) hs
  obtain ⟨hplaced, hcell⟩ := treats_foldl Prod.fst (see g f) TcUnit.id
    (fun p v hp => treats_see hp v) f.units (p := (f.units.foldl clear s, false)) hclear
  refine ⟨hplaced, fun id => (hcell id).trans ?_⟩
  rw [foldl_one f.nodup, hcleared]
  cases f.units.find? fun v => id = v.id with
  | none | some => rfl

lemma read_spec (hs : s.Placed) :
    (s.read g f).1.Placed ∧ ∀ id, (s.read g f).1.cell id = (s.cell id).read g f id := by
  obtain ⟨hseen, hcells⟩ := seen_spec (g := g) (f := f) hs
  obtain ⟨hplaced, hcell⟩ := treats_foldl Prod.fst (bury g f) (fun j => j)
    (fun p j hp => treats_revise hp _ j) f.deaths hseen
  refine ⟨hplaced, fun id => (hcell id).trans ?_⟩
  rw [hcells]
  exact foldl_idem (Cell.bury_idem g f) _ _ _

end

lemma treats_lookAt {p : UnitsInfo Ty × List UnitId} (hs : p.1.Placed) (id : UnitId) :
    Treats (Cell.revise g fun u => (u.look f, false)) id p.1 (lookAt g f p id).1 :=
  treats_revise hs _ id

lemma mem_lookAt {p : UnitsInfo Ty × List UnitId} {l : List UnitId} (hl : l.Nodup)
    (hp : p.1.Placed) :
    id ∈ (l.foldl (lookAt g f) p).2 ↔
      id ∈ p.2 ∨ id ∈ l ∧ (p.1.unit id).elim 0 (Unit.needUpdateGroups f) ≠ 0 := by
  induction l generalizing p with
  | nil => exact ⟨Or.inl, fun h => h.elim (fun h => h) fun h => nomatch h.1⟩
  | cons a l ih =>
    obtain ⟨ha, hl⟩ := nodup_cons.mp hl
    have hlook := treats_lookAt (g := g) (f := f) hp a
    have hunit := congrArg Cell.unit (hlook.cell id)
    rw [foldl_cons, ih hl hlook.placed]
    by_cases hid : id = a
    · subst hid
      simp [lookAt]
      tauto
    · rw [if_neg hid] at hunit
      rw [show (lookAt g f p a).1.unit id = p.1.unit id from hunit]
      simp [lookAt, hid]

lemma hide_spec (hs : s.Placed) :
    (s.hide g f).Placed ∧ ∀ id, (s.hide g f).cell id = (s.cell id).hide g f := by
  have hnodup := (hs .visibleUnits).nodup
  obtain ⟨hlook, hcell⟩ := treats_foldl Prod.fst (lookAt g f) (fun j => j)
    (fun p j hp => treats_lookAt hp j) (s.cont .visibleUnits).items (p := (s, [])) hs
  obtain ⟨hplaced, hcell'⟩ := treats_foldl (fun s => s) (updateGroups g) (fun j => j)
    (fun s j hs => treats_updateGroups hs j)
    ((s.cont .visibleUnits).items.foldl (lookAt g f) (s, [])).2 hlook
  refine ⟨hplaced, fun id => (hcell' id).trans ?_⟩
  rw [foldl_idem (Cell.updateGroups_idem g), hcell,
    foldl_mem hnodup id fun _ => Cell.revise g fun u => (u.look f, false)]
  simp only [mem_lookAt hnodup (p := (s, [])) hs, not_mem_nil, false_or]
  have hhas : (s.cell id).has .visibleUnits = decide (id ∈ (s.cont .visibleUnits).items) := rfl
  have hu : (s.cell id).unit = s.unit id := rfl
  unfold Cell.hide Cell.revise
  rw [hhas, hu]
  by_cases hin : id ∈ (s.cont .visibleUnits).items
  · cases s.unit id with
    | none | some => simp [hin]
  · simp [hin]

lemma forget_spec (hs : s.Placed) :
    (s.forget g f).Placed ∧ ∀ id, (s.forget g f).cell id = (s.cell id).forget g f id := by
  obtain ⟨hplaced, hcell⟩ := treats_foldl (fun s => s) (fun s j => s.revise g (Unit.fade g f j) j)
    (fun j => j) (fun s j hs => treats_revise hs _ j) (s.cont .hiddenUnits).items hs
  refine ⟨hplaced, fun id => (hcell id).trans ?_⟩
  rw [foldl_mem (hs .hiddenUnits).nodup]
  exact if_congr decide_eq_true_iff.symm rfl rfl

lemma foldl_setLists (h : UnitId → Lists → Lists) (l : List UnitId) (s : UnitsInfo Ty) :
    l.foldl (setLists h) s = { s with lists := (l.foldl (setLists h) s).lists } := by
  induction l generalizing s with
  | nil => rfl
  | cons a l ih =>
    rw [foldl_cons, ih]
    rfl

lemma sight_eq (s : UnitsInfo Ty) : s.sight g f = { s with lists := (s.sight g f).lists } := by
  unfold sight
  rw [foldl_setLists, foldl_setLists]

lemma infer_spec (hs : s.Placed) :
    (s.infer g f).Placed ∧ ∀ id, (s.infer g f).cell id = (s.cell id).infer g f id := by
  unfold infer Cell.infer
  split
  · exact treats_foldl (fun s => s) _ Prod.fst (fun s m hs => treats_revise hs _ m.1) f.moves hs
  · exact ⟨hs, fun _ => rfl⟩

/-! ## what is beside the cells -/

structure Beside (s s' : UnitsInfo Ty) : Prop where
  lists : s'.lists = s.lists
  ofType : s'.myUnitsOfType = s.myUnitsOfType
  completed : s'.myCompletedUnitsOfType = s.myCompletedUnitsOfType

lemma Beside.refl (s : UnitsInfo Ty) : Beside s s := ⟨rfl, rfl, rfl⟩

lemma Beside.trans {s s' s'' : UnitsInfo Ty} (h : Beside s s') (h' : Beside s' s'') :
    Beside s s'' :=
  ⟨h'.lists.trans h.lists, h'.ofType.trans h.ofType, h'.completed.trans h.completed⟩

lemma beside_updateGroups (s : UnitsInfo Ty) (id : UnitId) : Beside s (s.updateGroups g id) := by
  unfold updateGroups
  split <;> exact ⟨rfl, rfl, rfl⟩

lemma beside_revise (h : Unit Ty → Unit Ty × Bool) (s : UnitsInfo Ty) (id : UnitId) :
    Beside s (s.revise g h id) := by
  unfold revise
  split
  · exact .refl s
  · split
    next u _ _ =>
      have hset : Beside s (s.set id (h u).1) := ⟨rfl, rfl, rfl⟩
      exact hset.trans (beside_updateGroups _ id)
    · exact ⟨rfl, rfl, rfl⟩

lemma beside_infer (s : UnitsInfo Ty) : Beside s (s.infer g f) := by
  unfold infer
  split
  · exact foldlRecOn _ _ (.refl s) fun s' h m _ => h.trans (beside_revise _ s' m.1)
  · exact .refl s

section
variable [DecidableEq Ty]

/-- the state when the loops over the live units start -/
def gathered (g : Game Ty) (f : Frame Ty) (s : UnitsInfo Ty) : UnitsInfo Ty :=
  ((s.read g f).1.hide g f).forget g f

lemma beside_gathered (s : UnitsInfo Ty) : Beside (s.seen g f).1 (s.gathered g f) := by
  have hread : Beside (s.seen g f).1 (s.read g f).1 :=
    foldlRecOn (motive := fun p : UnitsInfo Ty × Bool => Beside (s.seen g f).1 p.1) _ _ (.refl _)
      fun p h id _ => h.trans (beside_revise _ p.1 id)
  have hlook : Beside (s.seen g f).1 (((s.read g f).1.cont .visibleUnits).items.foldl (lookAt g f)
      ((s.read g f).1, [])).1 :=
    foldlRecOn (motive := fun p : UnitsInfo Ty × List UnitId => Beside _ p.1) _ _ hread
      fun p h id _ => h.trans (beside_revise _ p.1 id)
  have hhide : Beside (s.seen g f).1 ((s.read g f).1.hide g f) :=
    foldlRecOn _ _ hlook fun s h id _ => h.trans (beside_updateGroups s id)
  exact foldlRecOn _ _ hhide fun s h id _ => h.trans (beside_revise _ s id)

/-- the state before the lists by type are built -/
def settle (g : Game Ty) (f : Frame Ty) (s : UnitsInfo Ty) : UnitsInfo Ty :=
  (((s.read g f).1.hide g f).forget g f).sight g f

lemma update_eq (g : Game Ty) (f : Frame Ty) (s : UnitsInfo Ty) :
    s.update g f =
      (if (s.read g f).2 then (s.settle g f).regroup else s.settle g f).infer g f := rfl

lemma gathered_spec (hs : s.Placed) :
    (s.gathered g f).Placed ∧ ∀ id,
      (s.gathered g f).cell id = (((s.cell id).read g f id).hide g f).forget g f id := by
  obtain ⟨hread, hcell⟩ := read_spec (g := g) (f := f) hs
  obtain ⟨hhide, hcell'⟩ := hide_spec (g := g) (f := f) hread
  obtain ⟨hforget, hcell''⟩ := forget_spec (g := g) (f := f) hhide
  exact ⟨hforget, fun id => by rw [← hcell, ← hcell', ← hcell'']; rfl⟩

lemma settle_spec (hs : s.Placed) :
    (s.settle g f).Placed ∧ ∀ id,
      (s.settle g f).cell id = (((s.cell id).read g f id).hide g f).forget g f id := by
  rw [settle, sight_eq]
  exact gathered_spec hs

lemma update_spec (hs : s.Placed) :
    (s.update g f).Placed ∧ ∀ id, (s.update g f).cell id = (s.cell id).update g f id := by
  obtain ⟨hsettle, hcell⟩ := settle_spec (g := g) (f := f) hs
  rw [update_eq]
  split
  · obtain ⟨hinfer, hcell'⟩ := infer_spec (g := g) (f := f) (s := (s.settle g f).regroup) hsettle
    exact ⟨hinfer, fun id => (hcell' id).trans (congrArg _ (hcell id))⟩
  · obtain ⟨hinfer, hcell'⟩ := infer_spec (g := g) (f := f) hsettle
    exact ⟨hinfer, fun id => (hcell' id).trans (congrArg _ (hcell id))⟩

end

/-! ## the containers, when units change in any way -/

inductive GroupOp (Ty : Type*) where
  | change (id : UnitId) (u : Unit Ty)
  | updateGroups (id : UnitId)

def GroupOp.run (g : Game Ty) (s : UnitsInfo Ty) : GroupOp Ty → UnitsInfo Ty
  | .change id u => s.set id u
  | .updateGroups id => s.updateGroups g id

lemma placed_run (os : List (GroupOp Ty)) : (os.foldl (GroupOp.run g) {}).Placed := by
  refine foldlRecOn os _ placed_init fun s hs o _ => ?_
  cases o with
  | change id u => exact hs
  | updateGroups id => exact (treats_updateGroups hs id).placed

/-- **The containers and their indices agree after any calls of `updateGroups`.**  -/
theorem containers_exact (g : Game Ty) (os : List (GroupOp Ty)) :
    let s := os.foldl (GroupOp.run g) {}
    (∀ c, (s.cont c).items.Nodup ∧
      ∀ v, (∀ i, (s.cont c).index v = some i ↔ (s.cont c).items[i]? = some v) ∧
        ((s.cont c).index v = none ↔ v ∉ (s.cont c).items)) ∧
    ∀ id u c v, v ∈ (((s.set id u).updateGroups g id).cont c).items ↔
      if v = id then wants g c u = true else v ∈ (s.cont c).items := by
  intro s
  have hs : s.Placed := placed_run os
  refine ⟨fun c => ⟨(hs c).nodup, fun v => ⟨hs c v, (hs c).index_none⟩⟩, fun id u c v => ?_⟩
  have hu : (s.set id u).unit id = some u := Function.update_self ..
  rw [updateGroups, hu]
  exact Slots.mem_put (hs c) id (wants g c u)

end UnitsInfo
end TorchCraft.Units
