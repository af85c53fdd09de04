import TorchCraft.Controller.Shared
import TorchCraft.Gatherer.Model

/-!
# The four containers of the gatherer agree

`workersOf a r` is the set of workers of a resource, empty if the resource has no entry.  Every
operation of `ResourceWorkers` is described by what it does to `resourceByWorker`, to `workersOf` and
to the resources with an entry; `Inverse` follows from that.

* `ResourceWorkers.Inverse`  the two maps are inverse;
* `GathererAssignments.Booked`  inverse, and only workers are assigned;
* `GathererAssignments.step_spec`  what a step keeps, and that it leaves only valid resources;
* `GathererController.Kept`  the workers are the units of the controller.
-/

set_option linter.unusedSectionVars false

namespace TorchCraft.Gatherer
open Function AList Option
open Lib (Sys)
open Utils (Scoring getBestScoreCopy getBestScoreCopy_spec)
open List
open Function (update_of_ne update_self)
open ResourceWorkers GathererAssignments GathererController SharedHeap

variable {P M U Q S : Type} [DecidableEq P] [DecidableEq M] [DecidableEq U] {a : ResourceWorkers U}
  {w w' r r' : U}

lemma isValidResource_eq_true {u : UnitData} (h : isValidResource u) :
    u.dead = false ∧ (u.isMinerals → u.gone = false) ∧
      (u.isMinerals = false → u.isMine) := by
  unfold isValidResource at h
  split at h
  · cases h
  next hd =>
    split at h
    · cases h
    · split at h
      next hm => simp_all
      next hm => simp_all

namespace ResourceWorkers

def workersOf (a : ResourceWorkers U) (r : U) : Finset U := (a.workersByResource.lookup r).getD ∅

/-- **The maps are inverse**: `r` is the resource of `w` iff `w` is in the set of `r`. -/
def Inverse (a : ResourceWorkers U) : Prop :=
  ∀ w r, a.resourceByWorker w = some r ↔ w ∈ a.workersOf r

lemma workersOf_insert (m : AList (fun _ : U => Finset U)) (r r' : U) (ws : Finset U) :
    ((m.insert r ws).lookup r').getD ∅ = if r' = r then ws else (m.lookup r').getD ∅ := by
  by_cases h : r' = r
  · subst h
    rw [if_pos rfl, lookup_insert]
    rfl
  · rw [if_neg h, lookup_insert_ne h]

lemma mem_workersOf :
    w ∈ a.workersOf r ↔ ∃ ws, a.workersByResource.lookup r = some ws ∧ w ∈ ws := by
  unfold workersOf
  cases a.workersByResource.lookup r with
  | none => exact ⟨fun e => absurd e (Finset.notMem_empty w), nofun⟩
  | some ws => exact ⟨fun e => ⟨ws, rfl, e⟩, fun ⟨_, hws, e⟩ => some.inj hws ▸ e⟩

lemma mem_of_mem_workersOf (h : w ∈ a.workersOf r) : r ∈ a.workersByResource := by
  obtain ⟨ws, hl, -⟩ := mem_workersOf.mp h
  exact lookup_isSome.mp (isSome_of_eq_some hl)

lemma Inverse.unique (h : a.Inverse) (hr : w ∈ a.workersOf r) (hr' : w ∈ a.workersOf r') : r = r' :=
  some.inj (((h w r).mpr hr).symm.trans ((h w r').mpr hr'))

/-! ## unassignWorker -/

lemma mem_unassignWorker : r ∈ (a.unassignWorker w).workersByResource ↔ r ∈ a.workersByResource := by
  unfold unassignWorker
  split
  · exact Iff.rfl
  · split
    · exact Iff.rfl
    next hl =>
      rw [mem_insert, or_iff_right_iff_imp]
      rintro rfl
      rw [← lookup_isSome, hl]
      rfl

lemma workersOf_unassignWorker (h : a.Inverse) (r : U) :
    (a.unassignWorker w).workersOf r = (a.workersOf r).erase w := by
  -- the set that changes is that of the worker's resource; no other set has the worker
  have hother (hne : a.resourceByWorker w ≠ some r) : a.workersOf r = (a.workersOf r).erase w :=
    (Finset.erase_eq_of_notMem fun hmem => hne ((h w r).mpr hmem)).symm
  unfold unassignWorker workersOf getResource
  split
  next hg => exact hother (by rw [hg]; exact nofun)
  next r₀ hg =>
    have hother (hr : r ≠ r₀) := hother (by rw [hg]; exact fun e => hr (some.inj e).symm)
    split
    next hl =>
      by_cases hr : r = r₀
      · rw [hr, hl]
        rfl
      · exact hother hr
    next ws hl =>
      rw [workersOf_insert]
      by_cases hr : r = r₀
      · rw [if_pos hr, hr, hl]
        rfl
      · rw [if_neg hr]
        exact hother hr

lemma inverse_unassignWorker (h : a.Inverse) (w : U) : (a.unassignWorker w).Inverse := by
  intro w' r
  rw [workersOf_unassignWorker h, Finset.mem_erase, ← h w' r]
  show update a.resourceByWorker w none w' = some r ↔ _
  by_cases hw : w' = w
  · subst hw
    rw [update_self]
    exact ⟨nofun, fun e => absurd rfl e.1⟩
  · rw [update_of_ne hw]
    exact (and_iff_right hw).symm

/-! ## assignWorker -/

lemma mem_assignWorker : r' ∈ (a.assignWorker w r).workersByResource ↔ r' ∈ a.workersByResource := by
  rw [← mem_unassignWorker (a := a) (w := w)]
  unfold assignWorker
  dsimp only
  split
  · exact Iff.rfl
  next hl =>
    rw [mem_insert, or_iff_right_iff_imp]
    rintro rfl
    rw [← lookup_isSome, hl]
    rfl

lemma inverse_assignWorker (h : a.Inverse) (w r : U) : (a.assignWorker w r).Inverse := by
  have hun := inverse_unassignWorker h w
  have hgone : ∀ r, w ∉ (a.unassignWorker w).workersOf r := fun r => by
    rw [workersOf_unassignWorker h]
    exact Finset.notMem_erase w _
  unfold assignWorker
  dsimp only
  split
  · exact hun
  next ws hl =>
    have hws : (a.unassignWorker w).workersOf r = ws := by
      rw [workersOf, hl]
      rfl
    intro w' r'
    show update (a.unassignWorker w).resourceByWorker w (some r) w' = some r' ↔
      w' ∈ ((insert r (insert w ws) (a.unassignWorker w).workersByResource).lookup r').getD ∅
    rw [workersOf_insert]
    by_cases hw : w' = w
    · subst hw
      rw [update_self, some.injEq]
      by_cases hr : r' = r
      · rw [if_pos hr]
        exact ⟨fun _ => Finset.mem_insert_self .., fun _ => hr.symm⟩
      · rw [if_neg hr]
        exact ⟨fun e => absurd e.symm hr, fun e => absurd e (hgone r')⟩
    · rw [update_of_ne hw, hun w' r']
      by_cases hr : r' = r
      · rw [if_pos hr, hr, hws, Finset.mem_insert, or_iff_right hw]
      · rw [if_neg hr]
        exact Iff.rfl

lemma assigned_unassignWorker (hw : ((a.unassignWorker w).resourceByWorker w').isSome) :
    w' ≠ w ∧ (a.resourceByWorker w').isSome := by
  change (update a.resourceByWorker w none w').isSome at hw
  by_cases he : w' = w
  · rw [he, update_self] at hw
    cases hw
  · rw [update_of_ne he] at hw
    exact ⟨he, hw⟩

lemma assigned_assignWorker (hw : ((a.assignWorker w r).resourceByWorker w').isSome) :
    w' = w ∨ (a.resourceByWorker w').isSome := by
  unfold assignWorker at hw
  dsimp only at hw
  split at hw
  · exact .inr (assigned_unassignWorker hw).2
  · change (update (a.unassignWorker w).resourceByWorker w (some r) w').isSome at hw
    by_cases he : w' = w
    · exact .inl he
    · rw [update_of_ne he] at hw
      exact .inr (assigned_unassignWorker hw).2

/-! ## includeResource and excludeResource -/

lemma mem_includeResource :
    r' ∈ (a.includeResource r).workersByResource ↔ r' = r ∨ r' ∈ a.workersByResource := by
  unfold includeResource containsResource
  split
  next hc =>
    refine (or_iff_right_of_imp ?_).symm
    rintro rfl
    exact lookup_isSome.mp hc
  · exact mem_insert _

lemma includeResource_same (a : ResourceWorkers U) (r : U) :
    (a.includeResource r).resourceByWorker = a.resourceByWorker ∧
      (a.includeResource r).workersOf = a.workersOf := by
  unfold includeResource
  split
  · exact ⟨rfl, rfl⟩
  next hc =>
    refine ⟨rfl, funext fun r' => ?_⟩
    show ((insert r ∅ _).lookup r').getD ∅ = _
    rw [workersOf_insert]
    split
    next hr =>
      have hnone : a.workersByResource.lookup r = none := not_isSome_iff_eq_none.mp hc
      rw [hr, workersOf, hnone]
      rfl
    · rfl

lemma inverse_includeResource (h : a.Inverse) (r : U) : (a.includeResource r).Inverse := by
  unfold Inverse
  rw [(includeResource_same a r).1, (includeResource_same a r).2]
  exact h

lemma mem_excludeResource :
    r' ∈ (a.excludeResource r).workersByResource ↔ r' ≠ r ∧ r' ∈ a.workersByResource := by
  unfold excludeResource
  split
  next hl =>
    refine (and_iff_right_of_imp ?_).symm
    rintro hr' rfl
    exact lookup_eq_none.mp hl hr'
  · exact mem_erase

lemma excludeResource_spec (a : ResourceWorkers U) (r : U) :
    (∀ w, (a.excludeResource r).resourceByWorker w =
      if w ∈ a.workersOf r then none else a.resourceByWorker w) ∧
    ∀ r', (a.excludeResource r).workersOf r' = if r' = r then ∅ else a.workersOf r' := by
  unfold excludeResource
  split
  next hl =>
    have hempty : a.workersOf r = ∅ := by rw [workersOf, hl]; rfl
    refine ⟨fun w => ?_, fun r' => ?_⟩
    · rw [hempty, if_neg (Finset.notMem_empty w)]
    · split
      next hr => rw [hr, hempty]
      · rfl
  next ws hl =>
    have hws : a.workersOf r = ws := by rw [workersOf, hl]; rfl
    refine ⟨fun w => by rw [hws], fun r' => ?_⟩
    show ((erase r _).lookup r').getD ∅ = _
    split
    next hr => rw [hr, lookup_erase]; rfl
    next hr => rw [lookup_erase_ne hr]; rfl

lemma inverse_excludeResource (h : a.Inverse) (r : U) : (a.excludeResource r).Inverse := by
  obtain ⟨hres, hset⟩ := excludeResource_spec a r
  intro w r'
  rw [hres, hset]
  by_cases hr : r' = r
  · rw [if_pos hr, hr]
    split
    · exact ⟨nofun, fun e => absurd e (Finset.notMem_empty w)⟩
    next hw => exact ⟨fun e => absurd ((h w r).mp e) hw, fun e => absurd e (Finset.notMem_empty w)⟩
  · rw [if_neg hr]
    split
    next hw => exact ⟨nofun, fun e => absurd (h.unique e hw) hr⟩
    · exact h w r'

lemma assigned_excludeResource (hw : ((a.excludeResource r).resourceByWorker w).isSome) :
    (a.resourceByWorker w).isSome := by
  rw [(excludeResource_spec a r).1] at hw
  split at hw
  · cases hw
  · exact hw

end ResourceWorkers

namespace GathererAssignments
variable {a a' : GathererAssignments U} {u : U} {C : Scoring S} {unit : U → UnitData}
  {f : Situation U S}

structure Booked (a : GathererAssignments U) : Prop where
  inverse : a.resourceWorkers.Inverse
  assigned : ∀ w, (a.resourceWorkers.resourceByWorker w).isSome → w ∈ a.workers

lemma mem_touch (f : WorkerState → WorkerState) {w : U} :
    w ∈ (a.touch f u).workers ↔ w = u ∨ w ∈ a.workers := mem_insert _

lemma booked_addUnit (h : a.Booked) (u : U) : (a.addUnit u).Booked :=
  ⟨h.inverse, fun w hw => (mem_touch id).mpr (.inr (h.assigned w hw))⟩

lemma booked_removeUnit (h : a.Booked) (u : U) : (a.removeUnit u).Booked := by
  refine ⟨inverse_unassignWorker h.inverse u, fun w hw => ?_⟩
  obtain ⟨hne, hw⟩ := assigned_unassignWorker hw
  exact mem_erase.mpr ⟨hne, h.assigned w hw⟩

/-! ## a step -/

/-- nobody is assigned who was not -/
structure Loses (b b' : ResourceWorkers U) : Prop where
  inverse : b.Inverse → b'.Inverse
  assigned : ∀ w, (b'.resourceByWorker w).isSome → (b.resourceByWorker w).isSome

lemma Loses.refl (b : ResourceWorkers U) : Loses b b := ⟨id, fun _ => id⟩

lemma Loses.trans {b b' b'' : ResourceWorkers U} (h : Loses b b') (h' : Loses b' b'') :
    Loses b b'' :=
  ⟨fun hi => h'.inverse (h.inverse hi), fun w hw => h.assigned w (h'.assigned w hw)⟩

lemma loses_excludeResource (b : ResourceWorkers U) (r : U) : Loses b (b.excludeResource r) :=
  ⟨fun h => inverse_excludeResource h r,
    fun _ => assigned_excludeResource⟩

lemma loses_includeResource (b : ResourceWorkers U) (r : U) : Loses b (b.includeResource r) := by
  refine ⟨fun h => inverse_includeResource h r, fun w hw => ?_⟩
  rwa [(includeResource_same b r).1] at hw

lemma foldl_excludeResource (rs : List U) (b : ResourceWorkers U) :
    Loses b (rs.foldl ResourceWorkers.excludeResource b) ∧
    ∀ r, r ∈ (rs.foldl ResourceWorkers.excludeResource b).workersByResource ↔
      r ∉ rs ∧ r ∈ b.workersByResource := by
  induction rs generalizing b with
  | nil => exact ⟨Loses.refl b, fun r => (and_iff_right not_mem_nil).symm⟩
  | cons r₀ rs ih =>
    obtain ⟨hloses, hmem⟩ := ih (b.excludeResource r₀)
    refine ⟨(loses_excludeResource b r₀).trans hloses, fun r => ?_⟩
    rw [foldl_cons, hmem, mem_excludeResource, mem_cons, not_or]
    exact ⟨fun e => ⟨⟨e.2.1, e.1⟩, e.2.2⟩, fun e => ⟨e.1.2, e.1.1, e.2⟩⟩

lemma foldl_includeResource (us : List U) (b : ResourceWorkers U)
    (hb : ∀ r ∈ b.workersByResource, isValidResource (unit r)) :
    let b' := us.foldl (fun b u => if isValidResource (unit u) then b.includeResource u else b) b
    Loses b b' ∧ ∀ r ∈ b'.workersByResource, isValidResource (unit r) := by
  induction us generalizing b with
  | nil => exact ⟨Loses.refl b, hb⟩
  | cons u us ih =>
    rw [foldl_cons]
    split
    next hu =>
      refine (ih _ fun r hr => ?_).imp_left (loses_includeResource b u).trans
      rcases mem_includeResource.mp hr with rfl | hr
      · exact hu
      · exact hb r hr
    · exact ih b hb

lemma updateResources_spec (unit : U → UnitData) (f : Situation U S) (b : ResourceWorkers U) :
    Loses b (updateResources unit f b) ∧
    ∀ r ∈ (updateResources unit f b).workersByResource, isValidResource (unit r) := by
  obtain ⟨hout, hmem⟩ := foldl_excludeResource
    (b.workersByResource.keys.filter fun r => !isValidResource (unit r)) b
  refine (foldl_includeResource f.liveUnits _ fun r hr => ?_).imp_left hout.trans
  obtain ⟨hnot, hr⟩ := (hmem r).mp hr
  by_contra hv
  exact hnot (mem_filter.mpr ⟨mem_keys.mp hr, by simpa using hv⟩)

/-- the assignments change, the workers and the resources stay -/
structure Tended (a a' : GathererAssignments U) : Prop where
  booked : a.Booked → a'.Booked
  workers : ∀ w, w ∈ a'.workers ↔ w ∈ a.workers
  resources : ∀ r, r ∈ a'.resourceWorkers.workersByResource ↔
    r ∈ a.resourceWorkers.workersByResource

lemma Tended.refl (a : GathererAssignments U) : Tended a a :=
  ⟨id, fun _ => Iff.rfl, fun _ => Iff.rfl⟩

lemma Tended.trans {a'' : GathererAssignments U} (h : Tended a a') (h' : Tended a' a'') :
    Tended a a'' :=
  ⟨fun hb => h'.booked (h.booked hb), fun w => (h'.workers w).trans (h.workers w),
    fun r => (h'.resources r).trans (h.resources r)⟩

lemma tended_touch (hu : u ∈ a.workers) (g : WorkerState → WorkerState) :
    Tended a (a.touch g u) := by
  have hw : ∀ w, w ∈ (a.touch g u).workers ↔ w ∈ a.workers := fun w => by
    rw [mem_touch, or_iff_right_iff_imp]
    rintro rfl
    exact hu
  exact ⟨fun h => ⟨h.inverse, fun w e => (hw w).mpr (h.assigned w e)⟩, hw, fun _ => Iff.rfl⟩

lemma tended_unassign (a : GathererAssignments U) (u : U) :
    Tended a { a with resourceWorkers := a.resourceWorkers.unassignWorker u } :=
  ⟨fun h => ⟨ResourceWorkers.inverse_unassignWorker h.inverse u,
      fun w hw => h.assigned w (ResourceWorkers.assigned_unassignWorker hw).2⟩,
    fun _ => Iff.rfl, fun _ => ResourceWorkers.mem_unassignWorker⟩

lemma tended_assign (hu : u ∈ a.workers) (r : U) :
    Tended a { a with resourceWorkers := a.resourceWorkers.assignWorker u r } := by
  refine ⟨fun h => ⟨inverse_assignWorker h.inverse u r, fun w hw => ?_⟩,
    fun _ => Iff.rfl, fun _ => mem_assignWorker⟩
  rcases assigned_assignWorker hw with rfl | hw
  · exact hu
  · exact h.assigned w hw

variable {p : Round U}

lemma tended_reassign (hu : u ∈ p.assignments.workers) (gasWorkersMax : Int) :
    Tended p.assignments (reassign C unit f gasWorkersMax p u).assignments := by
  have hfree := (tended_touch hu fun s => { s with framesSinceUpdate := 0 }).trans
    (tended_unassign _ u)
  have hu' := (hfree.workers u).mpr hu
  unfold reassign
  dsimp only
  split
  · exact hfree
  next e _ =>
    have hassign := hfree.trans (tended_assign hu' e.1)
    split
    · exact hassign
    · have hu'' := (hassign.workers u).mpr hu
      exact hassign.trans (tended_touch hu'' fun s => { s with cooldownUntil := f.cooldownUntil u })

lemma tended_updateWorker (hu : u ∈ p.assignments.workers) (respectCooldown : Bool)
    (gasWorkersMax : Int) :
    Tended p.assignments (updateWorker C unit f respectCooldown gasWorkersMax p u).assignments := by
  unfold updateWorker
  dsimp only
  split
  · exact tended_touch hu fun s => { s with framesSinceUpdate := s.framesSinceUpdate + 1 }
  · split
    · exact Tended.refl _
    · split
      · exact Tended.refl _
      · exact tended_reassign (p := { p with workerUpdates := p.workerUpdates + 1 }) hu gasWorkersMax

lemma tended_foldl {us : List U} (hus : ∀ u ∈ us, u ∈ p.assignments.workers)
    (respectCooldown : Bool) (gasWorkersMax : Int) : Tended p.assignments
      (us.foldl (updateWorker C unit f respectCooldown gasWorkersMax) p).assignments := by
  induction us generalizing p with
  | nil => exact Tended.refl _
  | cons u us ih =>
    have hone : Tended p.assignments
        (updateWorker C unit f respectCooldown gasWorkersMax p u).assignments :=
      tended_updateWorker (hus u (mem_cons_self ..)) respectCooldown gasWorkersMax
    refine hone.trans (ih fun v hv => (hone.workers v).mpr ?_)
    exact hus v (mem_cons_of_mem _ hv)

/-- **A step keeps the bookkeeping and the workers, and leaves only valid resources.** -/
theorem step_spec (C : Scoring S) (unit : U → UnitData) (f : Situation U S)
    (a : GathererAssignments U) :
    (a.Booked → (a.step C unit f).Booked) ∧
    (∀ w, w ∈ (a.step C unit f).workers ↔ w ∈ a.workers) ∧
    ∀ r ∈ (a.step C unit f).resourceWorkers.workersByResource, isValidResource (unit r) := by
  obtain ⟨hloses, hvalid⟩ := updateResources_spec unit f a.resourceWorkers
  let a₁ : GathererAssignments U :=
    { a with resourceWorkers := updateResources unit f a.resourceWorkers }
  have hloop : Tended a₁ (a.step C unit f) :=
    tended_foldl (p := ⟨a₁, _, 0⟩) (fun u hu => mem_keys.mpr ((f.sort_perm _).mem_iff.mp hu)) _ _
  refine ⟨fun h => hloop.booked ?_, hloop.workers, fun r hr => hvalid r ((hloop.resources r).mp hr)⟩
  exact ⟨hloses.inverse h.inverse, fun w hw => h.assigned w (hloses.assigned w hw)⟩

end GathererAssignments

namespace GathererController
variable {c : GathererController U Q}

structure Kept (c : GathererController U Q) : Prop where
  workers : ∀ u, u ∈ c.assignments.workers ↔ (c.units u).isSome
  booked : c.assignments.Booked

lemma kept_addUnit (h : c.Kept) (u : U) (id : UpcId) : (c.addUnit u id).Kept := by
  refine ⟨fun v => ?_, booked_addUnit h.booked u⟩
  show v ∈ (c.assignments.touch _ u).workers ↔ (update c.units u (some id) v).isSome
  rw [mem_touch, h.workers v]
  by_cases hv : v = u
  · rw [hv, update_self]
    exact ⟨fun _ => rfl, fun _ => .inl rfl⟩
  · rw [update_of_ne hv]
    exact or_iff_right hv

/-- **The unconditional removal is safe because of the guard at the call.** -/
theorem kept_release (h : c.Kept) (id : UpcId) (u : U) : (c.release id u).Kept := by
  unfold release
  split
  next hc =>
    refine ⟨fun v => ?_, booked_removeUnit h.booked u⟩
    have hunits : (c.removeUnit u id).units = update c.units u none := by
      show (c.toControllerBase.removeUnit u id).units = _
      rw [ControllerBase.removeUnit, hc]
      rfl
    rw [hunits]
    refine mem_erase.trans ?_
    rw [h.workers v]
    by_cases hv : v = u
    · rw [hv, update_self]
      exact ⟨fun e => absurd rfl e.1, nofun⟩
    · rw [update_of_ne hv]
      exact and_iff_right hv
  · exact h

lemma kept_step (h : c.Kept) (C : Scoring S) (unit : U → UnitData) (f : Situation U S) :
    Kept { c with assignments := c.assignments.step C unit f } := by
  obtain ⟨hbooked, hworkers, -⟩ := step_spec C unit f c.assignments
  exact ⟨fun u => (hworkers u).trans (h.workers u), hbooked h.booked⟩

end GathererController

namespace Heap
variable {upcId : P → UpcId} {h : Heap P U Q}

lemma kept_dropUnits (id : UpcId) (remove : U → Bool) (us : List U) {c : GathererController U Q}
    (hc : c.Kept) : (dropUnits id remove us c).2.Kept := by
  induction us generalizing c with
  | nil => exact hc
  | cons u us ih =>
    unfold dropUnits
    split
    · exact ih (kept_release hc id u)
    · exact ih hc

lemma kept_run {C : Scoring S} (hk : h.ctrl.Kept) (o : Op P M U S) :
    ((gathererSys upcId C).run h o).ctrl.Kept := by
  cases o with
  | observe unit => exact hk
  | construct p us =>
    exact foldlRecOn us _ hk fun c hc u _ => kept_addUnit hc u _
  | updateTask b p =>
    show (h.updateTask upcId b p).ctrl.Kept
    unfold updateTask
    split
    · exact hk
    · exact kept_dropUnits _ _ _ hk
  | cancel p =>
    show (h.cancel upcId p).ctrl.Kept
    unfold cancel
    split
    · exact hk
    · exact foldlRecOn _ _ hk fun c hc u _ => kept_release hc _ u
  | step f => exact kept_step hk C h.unit f

lemma kept_init (unit : U → UnitData) : ({ unit := unit } : Heap P U Q).ctrl.Kept :=
  ⟨fun u => ⟨fun e => absurd e (notMem_empty u), nofun⟩,
    ⟨fun w _ => ⟨nofun, fun e => absurd e (Finset.notMem_empty w)⟩, nofun⟩⟩

/-! ## the shared controller -/

/-- the heap of a shared controller that keeps only workers -/
def shared (h : Heap P U Q) : SharedHeap P U Q :=
  ⟨h.tasks, h.ctrl.toControllerBase, fun u => (h.unit u).dead,
    fun u => (h.unit u).isMine && (h.unit u).isWorker⟩

lemma shared_keepUnit (h : Heap P U Q) (u : U) :
    h.shared.keepUnit u = GathererController.keepUnit (h.unit u) := by
  unfold SharedHeap.keepUnit GathererController.keepUnit shared
  cases hw : (h.unit u).isWorker with
  | true | false => simp [hw]

lemma shared_release (id : UpcId) (c : GathererController U Q) (u : U) :
    (c.release id u).toControllerBase = c.toControllerBase.release id u := by
  unfold release ControllerBase.release
  split <;> rfl

lemma shared_dropUnits (id : UpcId) (remove : U → Bool) (us : List U)
    (c : GathererController U Q) :
    (dropUnits id remove us c).1 = (SharedHeap.dropUnits id remove us c.toControllerBase).1 ∧
    (dropUnits id remove us c).2.toControllerBase =
      (SharedHeap.dropUnits id remove us c.toControllerBase).2 := by
  induction us generalizing c with
  | nil => exact ⟨rfl, rfl⟩
  | cons u us ih =>
    unfold dropUnits SharedHeap.dropUnits
    split
    · rw [← shared_release]
      exact ih (c.release id u)
    · exact ⟨congrArg (u :: ·) (ih c).1, (ih c).2⟩

lemma shared_construct (h : Heap P U Q) (p : P) (us : List U) :
    (h.construct upcId p us).shared = h.shared.construct upcId p us := by
  unfold construct SharedHeap.construct shared
  congr 1
  exact (foldl_hom toControllerBase fun _ _ => rfl).symm

lemma shared_updateTask (b : Board P M U) (h : Heap P U Q) (p : P) :
    (h.updateTask upcId b p).shared = h.shared.updateTask upcId b p := by
  have hremove : h.remove b p = h.shared.remove b p := funext fun u => by
    rw [remove, SharedHeap.remove, shared_keepUnit]
  obtain ⟨hus, hc⟩ := shared_dropUnits (upcId p) (h.shared.remove b p) (h.tasks p).units h.ctrl
  unfold updateTask SharedHeap.updateTask
  refine (apply_ite shared ..).trans (if_congr Iff.rfl rfl ?_)
  rw [hremove]
  unfold shared at hus hc ⊢
  dsimp only at hus hc ⊢
  rw [hus, hc]

lemma shared_cancel (h : Heap P U Q) (p : P) :
    (h.cancel upcId p).shared = h.shared.cancel upcId p := by
  unfold cancel SharedHeap.cancel
  refine (apply_ite shared ..).trans (if_congr Iff.rfl rfl ?_)
  unfold shared
  congr 1
  exact (foldl_hom toControllerBase fun c u => (shared_release (upcId p) c u).symm).symm

/-- what an operation of the gatherer is for the shared controller -/
def sharedRun (upcId : P → UpcId) (h : SharedHeap P U Q) : Op P M U S → SharedHeap P U Q
  | .observe unit =>
    { h with dead := fun u => (unit u).dead, isMine := fun u => (unit u).isMine && (unit u).isWorker }
  | .construct p us => h.construct upcId p us
  | .updateTask b p => h.updateTask upcId b p
  | .cancel p => h.cancel upcId p
  | .step _ => h

lemma run_shared (C : Scoring S) (h : Heap P U Q) (o : Op P M U S) :
    ((gathererSys upcId C).run h o).shared = sharedRun upcId h.shared o := by
  cases o with
  | observe unit => rfl
  | construct p us => exact shared_construct h p us
  | updateTask b p => exact shared_updateTask b h p
  | cancel p => exact shared_cancel h p
  | step f => rfl

/-- **Without its assignments the gatherer is a shared controller**, in every run: what a step
assigns has no effect on the tasks and on the units they control. -/
theorem gatherer_refines_shared (upcId : P → UpcId) (C : Scoring S) (h : Heap P U Q)
    (os : List (Op P M U S)) :
    ((gathererSys upcId C).out h os).shared = os.foldl (sharedRun upcId) h.shared := by
  induction os generalizing h with
  | nil => rfl
  | cons o os ih => exact (ih _).trans (congrArg (foldl _ · os) (run_shared C h o))

end Heap

/-! ## the whole statement -/

/-- **The bookkeeping of the gatherer**: at every moment of every run the workers are the units of
the controller, the maps of the resources are inverse, and only workers are assigned. -/
theorem bookkeeping (upcId : P → UpcId) (C : Scoring S) (unit : U → UnitData)
    (os : List (Op P M U S)) :
    let h : Heap P U Q := (gathererSys upcId C).out { unit := unit } os
    let a := h.ctrl.assignments
    (∀ u, u ∈ a.workers ↔ (h.ctrl.units u).isSome) ∧
    (∀ w r, a.resourceWorkers.getResource w = some r ↔
      ∃ ws, a.resourceWorkers.workersByResource.lookup r = some ws ∧ w ∈ ws) ∧
    (∀ w r r' ws ws', a.resourceWorkers.workersByResource.lookup r = some ws → w ∈ ws →
      a.resourceWorkers.workersByResource.lookup r' = some ws' → w ∈ ws' → r = r') ∧
    (∀ w r, a.resourceWorkers.getResource w = some r → w ∈ a.workers) ∧
    ∀ f : Situation U S,
      let a' := (h.step C f).ctrl.assignments
      (∀ r ∈ a'.resourceWorkers.workersByResource, isValidResource (h.unit r) = true) ∧
      ∀ w r, a'.resourceWorkers.getResource w = some r →
        (h.unit r).dead = false ∧ ((h.unit r).isMinerals = true → (h.unit r).gone = false) ∧
          ((h.unit r).isMinerals = false → (h.unit r).isMine = true) := by
  intro h a
  have hk : h.ctrl.Kept := Sys.invariant (gathererSys upcId C) (fun h => h.ctrl.Kept)
    (fun _ o hk _ => Heap.kept_run hk o) _ (Heap.kept_init unit) os
    (Sys.legal_of_ok _ (fun _ _ => trivial) _ os)
  have hinv : ∀ w r, a.resourceWorkers.getResource w = some r ↔
      ∃ ws, a.resourceWorkers.workersByResource.lookup r = some ws ∧ w ∈ ws := fun w r =>
    (hk.booked.inverse w r).trans mem_workersOf
  refine ⟨hk.workers, hinv, fun w r r' ws ws' hl hw hl' hw' => ?_, fun w r hr => ?_, fun f => ?_⟩
  · exact some.inj (((hinv w r).mpr ⟨ws, hl, hw⟩).symm.trans ((hinv w r').mpr ⟨ws', hl', hw'⟩))
  · exact hk.booked.assigned w (isSome_of_eq_some hr)
  · obtain ⟨hbooked, -, hvalid⟩ := step_spec C h.unit f a
    refine ⟨hvalid, fun w r hr => ?_⟩
    have hmem := ((hbooked hk.booked).inverse w r).mp hr
    exact isValidResource_eq_true (hvalid r (mem_of_mem_workersOf hmem))

/-- two tasks want worker 1; it is sent to the patch 10 and stays there when the first task, which
has lost it, is cancelled -/
example :
    let unit : Nat → UnitData := fun u =>
      if u = 10 then { isResourceContainer := true, isMinerals := true }
      else { isWorker := true, isMine := true, completed := true }
    let h : Heap Nat Nat Nat :=
      (gathererSys (M := Nat) (fun p : Nat => (p : UpcId)) Utils.infty).out { unit := unit }
        [.construct 1 [1], .construct 2 [1],
          .step { liveUnits := [1, 10], score := fun _ _ _ _ _ => some 0 },
          .cancel 1]
    h.ctrl.assignments.resourceWorkers.getResource 1 = some 10 ∧ h.ctrl.units 1 = some 2 := by
  decide

end TorchCraft.Gatherer
