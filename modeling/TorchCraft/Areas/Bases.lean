import TorchCraft.Areas.Model

/-!
# The flags of the bases

`updateUnits` clears `isMyBase` and `isEnemyBase` of every area in every frame, and sets them again
only when a new base is registered; `updateBases` clears them when any base of the area is dropped.
The base lists persist.

* `update_spec`  the lists and the flags after a frame.
-/

set_option linter.unusedSectionVars false

namespace TorchCraft.Areas
open TorchCraft.Units Lib
open List
open Function (update_of_ne update_self)

variable {Ty : Type*} [DecidableEq Ty] {g : Game Ty} {m : AreaMap} {v : View g}

def inArea (g : Game Ty) (m : AreaMap) (v : View g) (a : Nat) (id : UnitId) : Bool :=
  (v.info.unit id).any fun u => !u.is g.isSpecialBuilding && decide (m.getArea (u.x, u.y) = a)

def sustains (g : Game Ty) : Side → Unit Ty → Bool
  | .mine, u => u.visible && (u.isMine && u.is g.isBuilding)
  | .enemy, u => u.isEnemy && u.is g.isBuilding

/-- there are more than five of them -/
def BaseAlive (g : Game Ty) (m : AreaMap) (v : View g) (side : Side) (a : Nat) : Prop :=
  kBaseAliveBuildingCountThreshold <
    v.liveUnits.countP fun id => inArea g m v a id && (v.info.unit id).any (sustains g side)

/-- **The bases that a frame drops.** -/
def Lost (g : Game Ty) (m : AreaMap) (v : View g) (side : Side) (b : BaseInfo) : Prop :=
  (v.info.unit b.resourceDepot).any Unit.dead = true ∧ ¬ BaseAlive g m v side b.area

namespace AreaInfo
variable {s : AreaInfo} {side : Side} {a : Nat} {id : UnitId}

def registration (g : Game Ty) (m : AreaMap) (v : View g) (s : AreaInfo) (side : Side)
    (id : UnitId) : Option BaseInfo :=
  match v.info.unit id with
  | none => none
  | some u =>
    let a := m.getArea (u.x, u.y)
    if !u.is g.isSpecialBuilding && decide (sideOf u = some side) && u.is g.isResourceDepot
      && u.completed && !s.known side id
    then (findBaseLocationIndexInArea m a u).map fun i => ⟨a, i, id⟩
    else none

/-- **The bases that a frame adds.** -/
def registered (g : Game Ty) (m : AreaMap) (v : View g) (s : AreaInfo) (side : Side) :
    List BaseInfo :=
  v.liveUnits.filterMap (s.registration g m v side)

/-! ## one unit -/

lemma area_onArea (h : Area → Area) (a' : Nat) :
    (s.onArea a h).area a' = if a' = a then h (s.area a') else s.area a' := by
  refine (Function.update_apply ..).trans (ite_congr rfl (fun ha => ?_) fun _ => rfl)
  rw [ha]

lemma onArea_of {P : Area → Prop} {h : Area → Area} (a' : Nat) (hold : P (s.area a'))
    (hnew : P (h (s.area a'))) : P ((s.onArea a h).area a') := by
  rw [area_onArea]
  split
  · exact hnew
  · exact hold

lemma isBase_flag (side : Side) (flag : Bool) (a' : Nat) (side' : Side) :
    ((s.onArea a fun ar => { ar with isBase := Function.update ar.isBase side flag }).area
        a').isBase side' =
      if a' = a ∧ side' = side then flag else (s.area a').isBase side' := by
  rw [area_onArea, ite_and]
  split
  · exact Function.update_apply ..
  · rfl

/-- what a unit does to the list of bases and to the flags of one side -/
structure Adds (s s' : AreaInfo) (side : Side) (new : Option BaseInfo) : Prop where
  bases : s'.bases side = s.bases side ++ new.toList
  isBase : ∀ a, (s'.area a).isBase side =
    ((s.area a).isBase side || new.any fun b => decide (b.area = a))

variable {s' s'' : AreaInfo}

lemma Adds.refl (s : AreaInfo) (side : Side) : Adds s s side none :=
  ⟨(append_nil _).symm, fun _ => (Bool.or_false _).symm⟩

lemma Adds.trans {s : AreaInfo} {new : Option BaseInfo} (h : Adds s s' side none)
    (h' : Adds s' s'' side new) : Adds s s'' side new where
  bases := by
    rw [h'.bases, h.bases]
    exact congrArg (· ++ _) (append_nil _)
  isBase := by
    intro a
    rw [h'.isBase, h.isBase]
    exact congrArg (· || _) (Bool.or_false _)

lemma adds_onArea (h : Area → Area) (hh : ∀ ar, (h ar).isBase = ar.isBase) (side : Side) :
    Adds s (s.onArea a h) side none where
  bases := (append_nil _).symm
  isBase a' := onArea_of (P := (·.isBase side = _)) a' (Bool.or_false _).symm
    ((congrFun (hh _) side).trans (Bool.or_false _).symm)

variable (side' : Side)

lemma adds_register (id : UnitId) (u : Unit Ty) (side : Side) :
    Adds s (s.register m side' a id u) side
      (if side' = side then (findBaseLocationIndexInArea m a u).map fun i => ⟨a, i, id⟩ else none) := by
  have hbuilt : Adds s (s.onArea a fun ar =>
      { ar with hasBuildings := Function.update ar.hasBuildings side' true }) side none :=
    adds_onArea _ (by intro ar; rfl) side
  unfold register
  cases findBaseLocationIndexInArea m a u with
  | none =>
    rw [Option.map_none, ite_self]
    cases side' with
    | mine => exact ⟨hbuilt.bases, hbuilt.isBase⟩
    | enemy => exact hbuilt
  | some i =>
    constructor
    · show Function.update s.bases side' (s.bases side' ++ [⟨a, i, id⟩]) side = _
      split
      next h =>
        subst h
        rw [update_self]
        rfl
      next h =>
        rw [update_of_ne (Ne.symm h)]
        exact (append_nil _).symm
    · intro a'
      refine (isBase_flag side' true a' side).trans ?_
      rcases eq_or_ne side' side with rfl | hs
      · rcases eq_or_ne a' a with rfl | ha
        · simp
        · simp [ha, ha.symm]
      · simp [hs, hs.symm]

lemma adds_checkDepot (id : UnitId) (u : Unit Ty) (side : Side) :
    Adds s (s.checkDepot g m side' a id u) side
      (if side' = side ∧ (u.is g.isResourceDepot && u.completed && !s.known side' id) = true then
        (findBaseLocationIndexInArea m a u).map fun i => ⟨a, i, id⟩
      else none) := by
  unfold checkDepot
  split
  next h =>
    have hreg := adds_register (s := s) (m := m) (a := a) side' id u side
    by_cases hs : side' = side
    · rw [if_pos ⟨hs, h⟩]
      rwa [if_pos hs] at hreg
    · rw [if_neg fun h' => hs h'.1]
      rwa [if_neg hs] at hreg
  next h =>
    rw [if_neg fun h' => h h'.2]
    exact .refl s side

lemma adds_checkBuilding (u : Unit Ty) (side : Side) :
    Adds s (s.checkBuilding g side' a u) side none := by
  unfold checkBuilding
  split
  · exact adds_onArea _ (by intro ar; rfl) side
  · exact .refl s side

lemma Adds.then_none {s : AreaInfo} {new : Option BaseInfo} (h : Adds s s' side new)
    (h' : Adds s' s'' side none) : Adds s s'' side new where
  bases := by
    rw [h'.bases, h.bases]
    exact append_nil _
  isBase := by
    intro a
    rw [h'.isBase, h.isBase]
    exact Bool.or_false _

lemma adds_visit (s : AreaInfo) (id : UnitId) (side : Side) :
    Adds s (s.visit g m v id) side (s.registration g m v side id) := by
  unfold visit registration
  cases v.info.unit id with
  | none => exact .refl s side
  | some u =>
    dsimp only
    cases u.is g.isSpecialBuilding with
    | true => exact .refl s side
    | false =>
      have henter : Adds s (s.enter (m.getArea (u.x, u.y)) id u) side none :=
        adds_onArea _ (by intro ar; rfl) side
      rw [if_neg Bool.false_ne_true]
      cases sideOf u with
      | none => exact henter
      | some side' =>
        have hdepot := adds_checkDepot (g := g) (m := m) (s := s.enter (m.getArea (u.x, u.y)) id u)
          (a := m.getArea (u.x, u.y)) side' id u side
        have hknown : (s.enter (m.getArea (u.x, u.y)) id u).known side' id = s.known side' id := rfl
        rw [hknown] at hdepot
        have hall := (henter.trans hdepot).then_none (adds_checkBuilding (g := g)
          (a := m.getArea (u.x, u.y)) side' u side)
        by_cases hs : side' = side
        · subst hs
          simpa using hall
        · simpa [hs] using hall

lemma known_visit (s : AreaInfo) {id id' : UnitId} (h : id' ≠ id) (side : Side) :
    (s.visit g m v id).known side id' = s.known side id' := by
  have hcons : ∀ l : List UnitId, (id :: l).contains id' = l.contains id' := by
    intro l
    rw [contains_cons, beq_eq_false_iff_ne.mpr h, Bool.false_or]
  have hregister : ∀ (s : AreaInfo) side' a (u : Unit Ty),
      (s.register m side' a id u).known side id' = s.known side id' := by
    intro s side' a u
    have hdepots : (Function.update s.depots side' (id :: s.depots side') side).contains id' =
        (s.depots side).contains id' := by
      by_cases hs : side = side'
      · rw [hs, update_self, hcons]
      · rw [update_of_ne hs]
    unfold register
    split
    · exact congrArg (· || _) hdepots
    · cases side' with
      | mine =>
        cases side with
        | mine => exact congrArg (_ || ·) (hcons _)
        | enemy => rfl
      | enemy => rfl
  exact visit_of (I := (·.known side id' = s.known side id')) (fun _ _ _ h => h)
    (fun s side' a u => (hregister s side' a u).trans) rfl

lemma registration_visit (s : AreaInfo) {id id' : UnitId} (h : id' ≠ id) (side : Side) :
    (s.visit g m v id).registration g m v side id' = s.registration g m v side id' := by
  unfold registration
  rw [known_visit s h side]

/-! ## all units -/

lemma adds_visits {l : List UnitId} (hl : l.Nodup) (s : AreaInfo) (side : Side) :
    (l.foldl (visit g m v) s).bases side =
      s.bases side ++ l.filterMap (s.registration g m v side) ∧
    ∀ a, ((l.foldl (visit g m v) s).area a).isBase side =
      ((s.area a).isBase side ||
        (l.filterMap (s.registration g m v side)).any fun b => decide (b.area = a)) := by
  induction l generalizing s with
  | nil => exact ⟨(append_nil _).symm, fun _ => (Bool.or_false _).symm⟩
  | cons id l ih =>
    obtain ⟨hid, hl⟩ := nodup_cons.mp hl
    have hvisit := adds_visit (g := g) (m := m) (v := v) s id side
    have hrest : l.filterMap ((s.visit g m v id).registration g m v side) =
        l.filterMap (s.registration g m v side) := by
      refine filterMap_congr fun id' hid' => registration_visit s ?_ side
      rintro rfl
      exact hid hid'
    obtain ⟨h₁, h₂⟩ := ih hl (s.visit g m v id)
    rw [hrest] at h₁ h₂
    rw [foldl_cons]
    constructor
    · rw [h₁, hvisit.bases, append_assoc]
      congr 1
      cases h : s.registration g m v side id with
      | none => rw [filterMap_cons_none h]; rfl
      | some b => rw [filterMap_cons_some h]; rfl
    · intro a
      rw [h₂, hvisit.isBase, Bool.or_assoc]
      congr 1
      cases h : s.registration g m v side id with
      | none => rw [filterMap_cons_none h]; rfl
      | some b => rw [filterMap_cons_some h, any_cons]; rfl

/-! ## which bases are alive -/

/-- the units of the areas are the same, and no area lost its buildings -/
structure Keeps (s s' : AreaInfo) : Prop where
  live : ∀ a, (s'.area a).liveUnits = (s.area a).liveUnits
  visible : ∀ a, (s'.area a).visibleUnits = (s.area a).visibleUnits
  buildings : ∀ a side, (s.area a).hasBuildings side = true → (s'.area a).hasBuildings side = true

lemma Keeps.refl (s : AreaInfo) : Keeps s s := ⟨fun _ => rfl, fun _ => rfl, fun _ _ h => h⟩

lemma Keeps.trans {s : AreaInfo} (h : Keeps s s') (h' : Keeps s' s'') : Keeps s s'' :=
  ⟨fun a => (h'.live a).trans (h.live a), fun a => (h'.visible a).trans (h.visible a),
    fun a side hb => h'.buildings a side (h.buildings a side hb)⟩

lemma keeps_onArea {h : Area → Area} (hlive : ∀ ar, (h ar).liveUnits = ar.liveUnits)
    (hvis : ∀ ar, (h ar).visibleUnits = ar.visibleUnits)
    (hb : ∀ ar side, ar.hasBuildings side → (h ar).hasBuildings side) : Keeps s (s.onArea a h) where
  live a' := onArea_of (P := (·.liveUnits = _)) a' rfl (hlive _)
  visible a' := onArea_of (P := (·.visibleUnits = _)) a' rfl (hvis _)
  buildings a' side h' := onArea_of (P := (·.hasBuildings side)) a' h' (hb _ _ h')

lemma keeps_mark (side : Side) :
    Keeps s (s.onArea a fun ar =>
      { ar with hasBuildings := Function.update ar.hasBuildings side true }) := by
  refine keeps_onArea (fun _ => rfl) (fun _ => rfl) fun ar side' h => ?_
  by_cases hs : side' = side
  · subst hs
    exact update_self ..
  · exact (update_of_ne hs ..).trans h

lemma keeps_checkDepot (side : Side) (u : Unit Ty) : Keeps s (s.checkDepot g m side a id u) := by
  unfold checkDepot register
  split
  · split
    · have hflag : Keeps s (s.onArea a fun ar =>
          { ar with isBase := Function.update ar.isBase side true }) :=
        keeps_onArea (fun _ => rfl) (fun _ => rfl) fun _ _ h => h
      exact ⟨hflag.live, hflag.visible, hflag.buildings⟩
    · have hmark := keeps_mark (s := s) (a := a) side
      cases side with
      | mine => exact ⟨hmark.live, hmark.visible, hmark.buildings⟩
      | enemy => exact hmark
  · exact .refl s

lemma visit_in {u : Unit Ty} (hu : v.info.unit id = some u)
    (hsp : u.is g.isSpecialBuilding = false) :
    Keeps (s.enter (m.getArea (u.x, u.y)) id u) (s.visit g m v id) ∧
      ∀ side, sideOf u = some side → u.is g.isBuilding →
        ((s.visit g m v id).area (m.getArea (u.x, u.y))).hasBuildings side := by
  unfold visit
  rw [hu]
  dsimp only
  rw [hsp, if_neg Bool.false_ne_true]
  cases sideOf u with
  | none => exact ⟨.refl _, nofun⟩
  | some side =>
    have hdepot : Keeps (s.enter (m.getArea (u.x, u.y)) id u)
        ((s.enter (m.getArea (u.x, u.y)) id u).checkDepot g m side (m.getArea (u.x, u.y)) id u) :=
      keeps_checkDepot side u
    dsimp only
    unfold checkBuilding
    split
    · refine ⟨hdepot.trans (keeps_mark side), ?_⟩
      rintro side' hs -
      cases hs
      rw [area_onArea, if_pos rfl]
      exact update_self ..
    next hb => exact ⟨hdepot, fun _ _ h => absurd h hb⟩

lemma visit_out (h : ∀ u, v.info.unit id = some u → u.is g.isSpecialBuilding) :
    s.visit g m v id = s := by
  unfold visit
  split
  · rfl
  next u hu => rw [h u hu, if_pos rfl]

lemma lists_visit (s : AreaInfo) (id : UnitId) (a : Nat) :
    ((s.visit g m v id).area a).liveUnits =
      (s.area a).liveUnits ++ [id].filter (inArea g m v a) ∧
    ((s.visit g m v id).area a).visibleUnits =
      (s.area a).visibleUnits ++
        [id].filter fun id => inArea g m v a id && (v.info.unit id).any Unit.visible := by
  by_cases hout : ∀ u, v.info.unit id = some u → u.is g.isSpecialBuilding
  · have hin : inArea g m v a id = false := by
      unfold inArea
      cases hu : v.info.unit id with
      | none => rfl
      | some u => simp [hout u hu]
    rw [visit_out hout]
    simp [hin]
  · simp only [not_forall] at hout
    obtain ⟨u, hu, hsp⟩ := hout
    have hsp : u.is g.isSpecialBuilding = false := Bool.eq_false_iff.mpr hsp
    obtain ⟨hkeeps, -⟩ := visit_in (g := g) (m := m) (s := s) hu hsp
    have hin : inArea g m v a id = decide (m.getArea (u.x, u.y) = a) := by
      rw [inArea, hu]
      dsimp only [Option.any]
      rw [hsp]
      rfl
    rw [hkeeps.live, hkeeps.visible, enter, area_onArea]
    by_cases ha : m.getArea (u.x, u.y) = a
    · cases hvis : u.visible with
      | true | false => simp [hin, ha, hu, hvis]
    · have ha' : a ≠ m.getArea (u.x, u.y) := Ne.symm ha
      simp [hin, ha, ha']

lemma lists_visits (l : List UnitId) (s : AreaInfo) (a : Nat) :
    ((l.foldl (visit g m v) s).area a).liveUnits =
      (s.area a).liveUnits ++ l.filter (inArea g m v a) ∧
    ((l.foldl (visit g m v) s).area a).visibleUnits =
      (s.area a).visibleUnits ++
        l.filter fun id => inArea g m v a id && (v.info.unit id).any Unit.visible := by
  induction l generalizing s with
  | nil => exact ⟨(append_nil _).symm, (append_nil _).symm⟩
  | cons id l ih =>
    obtain ⟨h₁, h₂⟩ := lists_visit (g := g) (m := m) (v := v) s id a
    obtain ⟨h₃, h₄⟩ := ih (s.visit g m v id)
    rw [foldl_cons, h₃, h₄, h₁, h₂, append_assoc, append_assoc, ← filter_append, ← filter_append]
    exact ⟨rfl, rfl⟩

lemma hasBuildings_visit {side : Side} (h : (s.area a).hasBuildings side) (id : UnitId) :
    ((s.visit g m v id).area a).hasBuildings side := by
  by_cases hout : ∀ u, v.info.unit id = some u → u.is g.isSpecialBuilding
  · rwa [visit_out hout]
  · simp only [not_forall] at hout
    obtain ⟨u, hu, hsp⟩ := hout
    obtain ⟨hkeeps, -⟩ := visit_in (g := g) (m := m) (s := s) hu (Bool.eq_false_iff.mpr hsp)
    refine hkeeps.buildings a side ?_
    rw [enter, area_onArea]
    split <;> exact h

lemma hasBuildings_visits {l : List UnitId} (hid : id ∈ l) {u : Unit Ty}
    (hu : v.info.unit id = some u) (hin : inArea g m v a id) (hs : sideOf u = some side)
    (hb : u.is g.isBuilding) (s : AreaInfo) :
    ((l.foldl (visit g m v) s).area a).hasBuildings side := by
  obtain ⟨l₁, l₂, rfl⟩ := append_of_mem hid
  rw [foldl_append, foldl_cons]
  refine foldlRecOn (motive := fun s' : AreaInfo => (s'.area a).hasBuildings side)
    _ _ ?_ fun s' h id' _ => hasBuildings_visit h id'
  rw [inArea, hu] at hin
  simp only [Option.any, Bool.and_eq_true, Bool.not_eq_true', decide_eq_true_iff] at hin
  obtain ⟨hsp, rfl⟩ := hin
  exact (visit_in hu hsp).2 side hs hb

lemma sideOf_of_belongs {u : Unit Ty} (hm : u.Marked g) (h : belongs side u) :
    sideOf u = some side := by
  cases side with
  | mine =>
    have h : u.isMine := h
    rw [sideOf, if_pos h]
  | enemy =>
    have h : u.isEnemy := h
    have hmine : u.isMine = false := by
      rw [hm.enemy, Bool.and_eq_true] at h
      rw [hm.mine, beq_eq_false_iff_ne]
      exact bne_iff_ne.mp h.1
    rw [sideOf, hmine, if_neg Bool.false_ne_true, if_pos h]

/-- **Whether a base is alive is a matter of the frame alone.** -/
theorem isBaseAlive_updateUnits (s : AreaInfo) (side : Side) (b : BaseInfo) :
    (s.updateUnits g m v).isBaseAlive g v side b ↔ BaseAlive g m v side b.area := by
  obtain ⟨hlive, hvis⟩ := lists_visits (g := g) (m := m) (v := v) v.liveUnits
    { s with area := fun _ => {} } b.area
  have hunits : (unitsOf ((s.updateUnits g m v).area b.area) side).countP
        (fun id => (v.info.unit id).any fun u => belongs side u && u.is g.isBuilding) =
      v.liveUnits.countP
        fun id => inArea g m v b.area id && (v.info.unit id).any (sustains g side) := by
    cases side with
    | mine | enemy =>
      simp only [updateUnits, unitsOf, hvis, hlive, nil_append, countP_filter]
      congr 1
      funext id
      cases v.info.unit id with
      | none => simp
      | some u => simp [belongs, sustains]; grind
  unfold isBaseAlive BaseAlive
  rw [Bool.and_eq_true, decide_eq_true_iff, hunits]
  refine ⟨And.right, fun h => ⟨?_, h⟩⟩
  -- one of the buildings that are counted
  obtain ⟨id, hid, hsustains⟩ := countP_pos_iff.mp (Nat.zero_lt_of_lt h)
  rw [Bool.and_eq_true] at hsustains
  obtain ⟨hin, hany⟩ := hsustains
  cases hu : v.info.unit id with
  | none =>
    rw [hu] at hany
    cases hany
  | some u =>
    rw [hu] at hany
    have hb : belongs side u ∧ u.is g.isBuilding := by
      cases side with
      | mine =>
        simp only [Option.any, sustains, Bool.and_eq_true] at hany
        exact hany.2
      | enemy =>
        simp only [Option.any, sustains, Bool.and_eq_true] at hany
        exact hany
    have hmarked := (v.tracked.cells id).marked u hu
    exact hasBuildings_visits hid hu hin (sideOf_of_belongs hmarked hb.1) hb.2 _

/-! ## dropping bases -/

def Alike (v : View g) (s s' : AreaInfo) : Prop :=
  ∀ side b, s'.isBaseAlive g v side b = s.isBaseAlive g v side b

lemma alike_flag (side : Side) (flag : Bool) :
    Alike v s (s.onArea a fun ar => { ar with isBase := Function.update ar.isBase side flag }) := by
  intro side' b
  unfold isBaseAlive
  rw [area_onArea]
  split <;> rfl

lemma isLost_eq (h : Alike v s s') (side : Side) (b : BaseInfo) :
    s'.isLost g v side b = s.isLost g v side b := by
  unfold isLost
  rw [h side b]

lemma sweepBase_spec (l : List BaseInfo) (p : AreaInfo × List BaseInfo) (side : Side) :
    let p' := l.foldl (sweepBase g v side) p
    Alike v p.1 p'.1 ∧
    p'.2 = p.2 ++ l.filter (fun b => !p.1.isLost g v side b) ∧
    (∀ side', p'.1.bases side' = p.1.bases side') ∧
    (∀ a side', side' ≠ side → (p'.1.area a).isBase side' = (p.1.area a).isBase side') ∧
    ∀ a, (p'.1.area a).isBase side = ((p.1.area a).isBase side &&
      !l.any fun b => p.1.isLost g v side b && decide (b.area = a)) := by
  induction l generalizing p with
  | nil =>
    refine ⟨fun _ _ => rfl, (append_nil _).symm, fun _ => rfl, fun _ _ _ => rfl, fun a => ?_⟩
    exact (Bool.and_true _).symm
  | cons b l ih =>
    rw [foldl_cons]
    obtain ⟨h₁, h₂, h₃, h₄, h₅⟩ := ih (sweepBase g v side p b)
    cases hb : p.1.isLost g v side b with
    | false =>
      have hstep : sweepBase g v side p b = (p.1, p.2 ++ [b]) := by
        rw [sweepBase, hb, if_neg Bool.false_ne_true]
      rw [hstep] at h₁ h₂ h₃ h₄ h₅ ⊢
      refine ⟨h₁, ?_, h₃, h₄, fun a => ?_⟩
      · rw [h₂, append_assoc, filter_cons_of_pos (by rw [hb]; rfl)]
        rfl
      · rw [h₅, any_cons, hb]
        rfl
    | true =>
      have hlost : ∀ b', (sweepBase g v side p b).1.isLost g v side b' = p.1.isLost g v side b' := by
        intro b'
        rw [sweepBase, if_pos hb]
        exact isLost_eq (alike_flag side false) side b'
      have halike : Alike v p.1 (sweepBase g v side p b).1 := by
        rw [sweepBase, if_pos hb]
        exact alike_flag side false
      have hflag : ∀ a side', ((sweepBase g v side p b).1.area a).isBase side' =
          if a = b.area ∧ side' = side then false else (p.1.area a).isBase side' := by
        intro a side'
        rw [sweepBase, if_pos hb]
        exact isBase_flag ..
      simp only [hlost] at h₂ h₅
      refine ⟨fun side' b' => (h₁ side' b').trans (halike side' b'), ?_, ?_, ?_, ?_⟩
      · rw [h₂, filter_cons_of_neg (by simp [hb])]
        rw [sweepBase, if_pos hb]
      · intro side'
        rw [h₃, sweepBase, if_pos hb]
        rfl
      · intro a side' hs
        rw [h₄ a side' hs, hflag, if_neg fun h => hs h.2]
      · intro a
        rw [h₅, hflag, any_cons, hb]
        by_cases ha : a = b.area
        · simp [ha]
        · have ha' : ¬ b.area = a := fun h => ha h.symm
          simp [ha, ha']

lemma sweepBases_spec (s : AreaInfo) (side : Side) :
    Alike v s (s.sweepBases g v side) ∧
    (s.sweepBases g v side).bases side = (s.bases side).filter (fun b => !s.isLost g v side b) ∧
    (∀ side', side' ≠ side → (s.sweepBases g v side).bases side' = s.bases side') ∧
    (∀ a side', side' ≠ side →
      ((s.sweepBases g v side).area a).isBase side' = (s.area a).isBase side') ∧
    ∀ a, ((s.sweepBases g v side).area a).isBase side = ((s.area a).isBase side &&
      !(s.bases side).any fun b => s.isLost g v side b && decide (b.area = a)) := by
  obtain ⟨h₁, h₂, h₃, h₄, h₅⟩ := sweepBase_spec (g := g) (v := v) (s.bases side) (s, []) side
  refine ⟨h₁, ?_, fun side' hs => ?_, h₄, h₅⟩
  · exact (update_self ..).trans h₂
  · exact (update_of_ne hs ..).trans (h₃ side')

lemma updateBases_spec (s : AreaInfo) (side : Side) :
    (s.updateBases g v).bases side = (s.bases side).filter (fun b => !s.isLost g v side b) ∧
    ∀ a, ((s.updateBases g v).area a).isBase side = ((s.area a).isBase side &&
      !(s.bases side).any fun b => s.isLost g v side b && decide (b.area = a)) := by
  obtain ⟨h₁, h₂, h₃, h₄, h₅⟩ := sweepBases_spec (g := g) (v := v) s .mine
  obtain ⟨-, k₂, k₃, k₄, k₅⟩ := sweepBases_spec (g := g) (v := v) (s.sweepBases g v .mine) .enemy
  have hlost := isLost_eq h₁
  cases side with
  | mine =>
    refine ⟨(k₃ .mine (by decide)).trans h₂, fun a => ?_⟩
    exact (k₄ a .mine (by decide)).trans (h₅ a)
  | enemy =>
    simp only [hlost, h₃ .enemy (by decide)] at k₂ k₅
    refine ⟨k₂, fun a => ?_⟩
    exact (k₅ a).trans (by rw [h₄ a .enemy (by decide)])

/-! ## a frame -/

lemma startLocations_bases (s : AreaInfo) :
    (s.updateEnemyStartLocations g m v).area = s.area ∧
      (s.updateEnemyStartLocations g m v).bases = s.bases := by
  unfold updateEnemyStartLocations
  split <;> exact ⟨rfl, rfl⟩

lemma isLost_update (s : AreaInfo) (side : Side) (b : BaseInfo) :
    ((s.updateUnits g m v).updateEnemyStartLocations g m v).isLost g v side b ↔
      Lost g m v side b := by
  have halike : Alike v (s.updateUnits g m v)
      ((s.updateUnits g m v).updateEnemyStartLocations g m v) := by
    intro side b
    unfold isBaseAlive
    rw [(startLocations_bases _).1]
  rw [isLost_eq halike, isLost, Bool.and_eq_true, Bool.not_eq_true', Lost,
    ← isBaseAlive_updateUnits (s := s), Bool.eq_false_iff]

lemma not_lost_registered {b : BaseInfo} (hb : b ∈ s.registered g m v side) :
    ¬ Lost g m v side b := by
  obtain ⟨id, hid, hreg⟩ := mem_filterMap.mp hb
  rintro ⟨hdead, -⟩
  have hdepot : b.resourceDepot = id := by
    unfold registration at hreg
    split at hreg
    · nomatch hreg
    · dsimp only at hreg
      split at hreg
      · obtain ⟨i, -, rfl⟩ := Option.map_eq_some_iff.mp hreg
        rfl
      · nomatch hreg
  rw [hdepot] at hdead
  -- the depot is one of the live units
  cases hu : v.info.unit id with
  | none =>
    rw [hu] at hdead
    nomatch hdead
  | some u =>
    rw [hu] at hdead
    have hat := (v.tracked.cells id).groups .liveUnits (by decide) (by decide) u hu
    have hlive : (v.info.cell id).has .liveUnits := decide_eq_true hid
    rw [hlive] at hat
    have hdead : u.dead := hdead
    rw [wants, hdead] at hat
    exact Bool.noConfusion hat

lemma update_spec (s : AreaInfo) (v : View g) (side : Side) :
    (∀ b, b ∈ (s.update g m v).bases side ↔
      (b ∈ s.bases side ∧ ¬ Lost g m v side b) ∨ b ∈ s.registered g m v side) ∧
    ∀ a, ((s.update g m v).area a).isBase side ↔
      (∃ b ∈ s.registered g m v side, b.area = a) ∧
        ∀ b ∈ s.bases side, b.area = a → ¬ Lost g m v side b := by
  have hnodup : v.liveUnits.Nodup := (v.tracked.placed .liveUnits).nodup
  obtain ⟨hbases, hflags⟩ := adds_visits (g := g) (m := m) (v := v) hnodup
    { s with area := fun _ => {} } side
  obtain ⟨h₁, h₂⟩ := updateBases_spec (g := g) (v := v)
    ((s.updateUnits g m v).updateEnemyStartLocations g m v) side
  obtain ⟨harea, hsame⟩ := startLocations_bases (m := m) (v := v) (s.updateUnits g m v)
  have hall : ((s.updateUnits g m v).updateEnemyStartLocations g m v).bases side =
      s.bases side ++ s.registered g m v side := by
    rw [hsame]
    exact hbases
  have hlost : ∀ b, ((s.updateUnits g m v).updateEnemyStartLocations g m v).isLost g v side b =
      true ↔ Lost g m v side b := fun b => isLost_update s side b
  constructor
  · intro b
    show b ∈ (updateBases g v _).bases side ↔ _
    rw [h₁, hall, mem_filter, mem_append, Bool.not_eq_true', Bool.eq_false_iff, Ne, hlost]
    constructor
    · rintro ⟨hb | hb, hn⟩
      · exact .inl ⟨hb, hn⟩
      · exact .inr hb
    · rintro (⟨hb, hn⟩ | hb)
      · exact ⟨.inl hb, hn⟩
      · exact ⟨.inr hb, not_lost_registered hb⟩
  · intro a
    show ((updateBases g v _).area a).isBase side ↔ _
    have hnew : (((s.updateUnits g m v).updateEnemyStartLocations g m v).area a).isBase side =
        (s.registered g m v side).any fun b => decide (b.area = a) := by
      rw [harea]
      exact (hflags a).trans (Bool.false_or _)
    rw [h₂, hall, hnew, Bool.and_eq_true, Bool.not_eq_true', any_eq_true, any_eq_false]
    refine and_congr (by simp only [decide_eq_true_iff]) ?_
    constructor
    · intro h b hb ha hl
      refine h b (mem_append_left _ hb) ?_
      rw [Bool.and_eq_true]
      exact ⟨(hlost b).mpr hl, decide_eq_true ha⟩
    · intro h b hb hl
      rw [Bool.and_eq_true, decide_eq_true_iff] at hl
      rcases mem_append.mp hb with hb | hb
      · exact h b hb hl.2 ((hlost b).mp hl.1)
      · exact not_lost_registered hb ((hlost b).mp hl.1)

/-- **When the flags follow the registered bases**: exactly if a frame that registers a base in the
area drops no old base of it, and a frame that registers none leaves no old base of it. -/
theorem flags_agree_iff (g : Game Ty) (m : AreaMap) (init : AreaInfo) (vs : List (View g))
    (v : View g) (side : Side) (a : Nat) :
    let s := (views g m).out init vs
    let s' := (views g m).out init (vs ++ [v])
    ((s'.area a).isBase side = true ↔ ∃ b ∈ s'.bases side, b.area = a) ↔
      ((∃ b ∈ s.registered g m v side, b.area = a) →
        ∀ b ∈ s.bases side, b.area = a → ¬ Lost g m v side b) ∧
      ((¬ ∃ b ∈ s.registered g m v side, b.area = a) →
        ∀ b ∈ s.bases side, b.area = a → Lost g m v side b) := by
  intro s s'
  obtain ⟨hbases, hflags⟩ := update_spec (m := m) s v side
  have hs' : s' = s.update g m v := by
    show (views g m).out init (vs ++ [v]) = _
    rw [Sys.out_append]
    rfl
  have hin : (∃ b ∈ s'.bases side, b.area = a) ↔
      (∃ b ∈ s.bases side, b.area = a ∧ ¬ Lost g m v side b) ∨
        ∃ b ∈ s.registered g m v side, b.area = a := by
    rw [hs']
    simp only [hbases]
    constructor
    · rintro ⟨b, ⟨hb, hn⟩ | hb, ha⟩
      · exact .inl ⟨b, hb, ha, hn⟩
      · exact .inr ⟨b, hb, ha⟩
    · rintro (⟨b, hb, ha, hn⟩ | ⟨b, hb, ha⟩)
      · exact ⟨b, .inl ⟨hb, hn⟩, ha⟩
      · exact ⟨b, .inr hb, ha⟩
  rw [hin, hs', hflags]
  by_cases hnew : ∃ b ∈ s.registered g m v side, b.area = a
  · simp only [hnew, true_and, or_true, iff_true, forall_const, not_true_eq_false, false_implies,
      and_true]
  · simp only [hnew, false_and, or_false, false_iff, false_implies, true_and, not_false_eq_true,
      forall_const]
    constructor
    · intro h b hb ha
      by_contra hn
      exact h ⟨b, hb, ha, hn⟩
    · rintro h ⟨b, hb, ha, hn⟩
      exact hn (h b hb ha)

/-! ### a base for two frames -/

def colony : Game Bool := { UnitsInfo.skirmish with isResourceDepot := fun t => t }

def homeMap : AreaMap where
  getArea := fun _ => 0
  baseLocations := fun _ => [(8, 8)]

def depotFrame : Frame Bool where
  frame := 1
  units := [⟨1, 8, 8, 0, true, fun b => b == .completed || b == .powered, []⟩]

def home : View colony where
  info := UnitsInfo.update colony depotFrame {}
  tracked := UnitsInfo.tracked_update UnitsInfo.tracked_init depotFrame

/-- **The flags do not follow the bases in general**: our base is still in `myBases_`, and the flag
of its area is cleared. -/
theorem flags_forgotten :
    (((views colony homeMap).out {} [home]).area 0).isBase .mine = true ∧
    (((views colony homeMap).out {} [home, home]).area 0).isBase .mine = false ∧
    ∃ b ∈ ((views colony homeMap).out {} [home, home]).bases .mine, b.area = 0 := by
  refine ⟨by decide +kernel, by decide +kernel, ⟨0, 0, 1⟩, by decide +kernel, rfl⟩

end AreaInfo
end TorchCraft.Areas
