import Mathlib.Algebra.BigOperators.Ring.Finset
import Mathlib.Tactic.Ring
import Mathlib.Tactic.Linarith
import TorchCraft.AutoBuild.Loop

/-!
# The supply ledger

Supply is kept in three arrays, `usedSupply`, `maxSupply` and `inprodSupply`.  `Ledger tt st r` are
the differences between the arrays and what the units and the production of race `r` account for.

* `Roster.total`  a sum over the completed units (`total_push`, `total_modify`,
  `total_erase`);
* `ledger_completeOne`, `ledger_addBuilt`, `ledger_start`  one write.
-/

set_option linter.unusedSectionVars false

namespace TorchCraft.AutoBuild
open Finset List Function TypeInfo

variable {T : Type} [DecidableEq T] [Fintype T] {tt : TechTree T}

/-! ## sums over the completed units -/

lemma sum_update_add {A R : Type} [AddCommMonoid R] (f : T → A → R) (L : T → A) (t : T) (a : A) :
    ∑ s, f s (update L t a s) + f t (L t) = ∑ s, f s (L s) + f t a := by
  simp only [apply_update f]
  rw [sum_update_of_mem (mem_univ t), sdiff_singleton_eq_erase, add_assoc,
    sum_erase_add univ (fun s => f s (L s)) (mem_univ t), add_comm]

namespace Roster

variable (r : Roster T)

/-- the sum of `g` over the units -/
def total (g : T → ℚ) : ℚ := ∑ t, ((r.list t).map fun u => g u.type).sum

lemma total_eq (g : T → ℚ) : r.total g = ∑ t, ((r.list t).length : ℚ) * g t := by
  refine sum_congr rfl (fun t _ => ?_)
  have h : (r.list t).map (fun u => g u.type) = replicate (r.list t).length (g t) := by
    rw [eq_replicate_iff]
    exact ⟨length_map _, forall_mem_map.mpr fun u hu => by rw [r.typed t u hu]⟩
  rw [h, sum_replicate, nsmul_eq_mul]

lemma total_of_update {r r' : Roster T} {t : T} {l : List (BuildStateUnit T)}
    (h : r'.list = update r.list t l) (g : T → ℚ) :
    r'.total g = r.total g + ((l.length : ℚ) - (r.list t).length) * g t := by
  have hsum := sum_update_add (fun s (l : List (BuildStateUnit T)) => l.length * g s) r.list t l
  rw [total_eq, total_eq, h]
  linarith

lemma total_push (u : BuildStateUnit T) (g : T → ℚ) :
    (r.push u).total g = r.total g + g u.type := by
  rw [total_of_update (rfl : (r.push u).list = _), length_append, length_singleton]
  push_cast
  ring

lemma total_modify (t : T) (i : Nat) (f : BuildStateUnit T → BuildStateUnit T)
    (hf : ∀ u, (f u).type = u.type) (g : T → ℚ) : (r.modify t i f hf).total g = r.total g := by
  rw [total_of_update (rfl : (r.modify t i f hf).list = _), length_modify]
  ring

lemma total_erase (t : T) (i : Nat) (hi : i < (r.list t).length) (g : T → ℚ) :
    (r.erase t i).total g = r.total g - g t := by
  rw [total_of_update (rfl : (r.erase t i).list = _), length_eraseIdx_of_lt hi,
    Nat.cast_sub (Nat.one_le_of_lt hi)]
  push_cast
  ring

end Roster

/-! ## the differences -/

def ofRace (tt : TechTree T) (r : Race) (f : TypeInfo T → ℚ) (t : T) : ℚ :=
  if (tt.info t).race = r then f (tt.info t) else 0

def completedTotal (tt : TechTree T) (f : TypeInfo T → ℚ) (st : BuildState T) (r : Race) : ℚ :=
  st.units.total (ofRace tt r f)

/-- what an entry of the production counts for -/
def unitOfRace (tt : TechTree T) (r : Race) (f : TypeInfo T → ℚ) (t : T) : ℚ :=
  if (tt.info t).isUnit then ofRace tt r f t else 0

def productionTotal (tt : TechTree T) (f : TypeInfo T → ℚ) (st : BuildState T) (r : Race) : ℚ :=
  (st.production.map fun e => unitOfRace tt r f e.2).sum

@[ext] structure Ledger where
  used : ℚ
  max : ℚ
  inprod : ℚ

/-- the three differences of race `r` -/
def ledger (tt : TechTree T) (st : BuildState T) (r : Race) : Ledger where
  used := st.usedSupply r - (completedTotal tt supplyRequired st r +
    productionTotal tt supplyRequired st r)
  max := st.maxSupply r - completedTotal tt supplyProvided st r
  inprod := st.inprodSupply r - productionTotal tt supplyProvided st r

lemma ledger_congr {st st' : BuildState T} {r : Race} (hu : st'.usedSupply r = st.usedSupply r)
    (hm : st'.maxSupply r = st.maxSupply r) (hi : st'.inprodSupply r = st.inprodSupply r)
    (hr : ∀ g, st'.units.total g = st.units.total g) (hp : st'.production = st.production) :
    ledger tt st' r = ledger tt st r := by
  unfold ledger completedTotal productionTotal
  rw [hu, hm, hi, hr, hr, hp]

lemma bump_apply (a : Race → ℚ) (r r' : Race) (x : ℚ) :
    bump a r x r' = a r' + if r = r' then x else 0 := by
  unfold bump
  by_cases h : r' = r
  · rw [h, update_self, if_pos rfl]
  · rw [update_of_ne h, if_neg (Ne.symm h), add_zero]

structure NoSupply (tt : TechTree T) : Prop where
  required : ∀ t, (tt.info t).isUnit = false → (tt.info t).supplyRequired = 0
  provided : ∀ t, (tt.info t).isUnit = false → (tt.info t).supplyProvided = 0

lemma productionTotal_emplaceProd (f : TypeInfo T → ℚ) (st : BuildState T) (frame : Int) (t : T)
    (r : Race) : ((emplaceProd st.production frame t).map fun e => unitOfRace tt r f e.2).sum
      = productionTotal tt f st r + unitOfRace tt r f t := by
  rw [((emplaceProd_perm st.production frame t).map _).sum_eq, List.map_cons, List.sum_cons, add_comm]
  rfl

/-! ## units come and go -/

variable (st : BuildState T)

lemma ledger_addUnit (t : T) (r : Race) : ledger tt (addUnit tt st t) r = ledger tt st r := by
  refine Ledger.ext ?_ ?_ rfl
  · show bump st.usedSupply _ _ r - ((st.units.push _).total _ + _) = _
    rw [bump_apply, Roster.total_push]
    simp only [ledger, completedTotal, productionTotal, ofRace, addUnit]
    ring
  · show bump st.maxSupply _ _ r - (st.units.push _).total _ = _
    rw [bump_apply, Roster.total_push]
    simp only [ledger, completedTotal, ofRace]
    ring

lemma ledger_removeUnit {t : T} {i : Nat} (hi : i < (st.units.list t).length) (r : Race) :
    ledger tt (removeUnit tt st t i) r = ledger tt st r := by
  refine Ledger.ext ?_ ?_ rfl
  · show bump st.usedSupply _ _ r - ((st.units.erase t i).total _ + _) = _
    rw [bump_apply, Roster.total_erase _ _ _ hi]
    simp only [ledger, completedTotal, productionTotal, ofRace, removeUnit]
    split <;> ring
  · show bump st.maxSupply _ _ r - (st.units.erase t i).total _ = _
    rw [bump_apply, Roster.total_erase _ _ _ hi]
    simp only [ledger, completedTotal, ofRace]
    split <;> ring

lemma ledger_modifyAt (l : Loc T) (f : BuildStateUnit T → BuildStateUnit T)
    (hf : ∀ u, (f u).type = u.type) (r : Race) :
    ledger tt (modifyAt st l f hf) r = ledger tt st r := by
  cases l with
  | unit t i => exact ledger_congr rfl rfl rfl (Roster.total_modify st.units t i f hf) rfl
  | morphing i => exact ledger_congr rfl rfl rfl (fun _ => rfl) rfl

/-! ## completion -/

lemma ledger_popMorphing (t : T) (r : Race) :
    ledger tt (popMorphing tt st t) r = ledger tt st r := by
  unfold popMorphing
  split <;> rfl

lemma ledger_releaseSupply {st st' : BuildState T} {e : Int × T} {es : List (Int × T)} {r : Race}
    (hprod : st.production = e :: es) (hunit : (tt.info e.2).isUnit)
    (hst : ledger tt st' r = ledger tt { st with production := es } r) :
    ledger tt (releaseSupply tt st' e.2) r = ledger tt st r := by
  have hu : (ledger tt st' r).used = st.usedSupply r - (completedTotal tt supplyRequired st r
      + (es.map fun e => unitOfRace tt r supplyRequired e.2).sum) := by rw [hst]; rfl
  have hm : (ledger tt st' r).max = (ledger tt st r).max := by rw [hst]; rfl
  have hi : (ledger tt st' r).inprod = st.inprodSupply r
      - (es.map fun e => unitOfRace tt r supplyProvided e.2).sum := by rw [hst]; rfl
  have hsum : ∀ f, productionTotal tt f st r
      = ofRace tt r f e.2 + (es.map fun e => unitOfRace tt r f e.2).sum := by
    intro f
    rw [productionTotal, hprod, List.map_cons, List.sum_cons, unitOfRace, if_pos hunit]
  refine Ledger.ext ?_ hm ?_
  · have hstep : (ledger tt (releaseSupply tt st' e.2) r).used
        = (ledger tt st' r).used - ofRace tt r supplyRequired e.2 := by
      show bump st'.usedSupply _ _ r - _ = _
      rw [bump_apply]
      simp only [ledger, completedTotal, productionTotal, releaseSupply, ofRace]
      split <;> ring
    rw [hstep, hu]
    show _ = st.usedSupply r - (_ + productionTotal tt _ st r)
    rw [hsum]
    ring
  · have hstep : (ledger tt (releaseSupply tt st' e.2) r).inprod
        = (ledger tt st' r).inprod - ofRace tt r supplyProvided e.2 := by
      show bump st'.inprodSupply _ _ r - _ = _
      rw [bump_apply]
      simp only [ledger, productionTotal, releaseSupply, ofRace]
      split <;> ring
    rw [hstep, hi]
    show _ = st.inprodSupply r - productionTotal tt _ st r
    rw [hsum]
    ring

lemma ledger_completeOne {st : BuildState T} {e : Int × T} {es : List (Int × T)}
    (hprod : st.production = e :: es) (r : Race) :
    ledger tt (completeOne tt { st with production := es } e.2) r = ledger tt st r := by
  unfold completeOne
  split
  next hunit =>
    rw [ledger_popMorphing, ledger_addUnit]
    refine ledger_releaseSupply hprod hunit ?_
    exact attachAddon_of (fun s l f hf => (ledger_modifyAt s l f hf r).trans) rfl _
  next hunit =>
    have hsum : ∀ f, productionTotal tt f st r
        = (es.map fun e => unitOfRace tt r f e.2).sum := by
      intro f
      rw [productionTotal, hprod, List.map_cons, List.sum_cons, unitOfRace, if_neg hunit, zero_add]
    refine Ledger.ext ?_ rfl ?_
    · simp only [ledger, hsum]
      rfl
    · simp only [ledger, hsum]
      rfl

/-! ## the thing is put into production -/

lemma ledger_addBuilt (t : T) (s : Bool) (r : Race) :
    ledger tt (addBuilt tt st t s) r = ledger tt st r :=
  ledger_addUnit { st with
    buildOrder := emplaceProd st.buildOrder
      (st.frame - if s then (tt.info t).buildTime else 0) { type := t } } t r

lemma ledger_produce (hz : NoSupply tt) (st : BuildState T) (t : T) (r : Race) :
    ledger tt (produce tt st t) r = ledger tt st r := by
  have hunit : ∀ f : TypeInfo T → ℚ, ((tt.info t).isUnit = false → f (tt.info t) = 0) →
      (if (tt.info t).race = r then f (tt.info t) else 0) = unitOfRace tt r f t := by
    intro f hf
    unfold unitOfRace ofRace
    cases h : (tt.info t).isUnit with
    | true => rfl
    | false => simp [hf h]
  refine Ledger.ext ?_ rfl ?_
  · show bump st.usedSupply _ _ r - (_ + ((emplaceProd st.production _ t).map _).sum) = _
    rw [bump_apply, productionTotal_emplaceProd, hunit _ (hz.required t)]
    simp only [ledger, completedTotal, produce]
    ring
  · show bump st.inprodSupply _ _ r - ((emplaceProd st.production _ t).map _).sum = _
    rw [bump_apply, productionTotal_emplaceProd, hunit _ (hz.provided t)]
    simp only [ledger]
    ring

lemma ledger_enqueue (hz : NoSupply tt) (st : BuildState T) (th : BuildEntry T) (r : Race) :
    ledger tt (enqueue tt st th) r = ledger tt st r := by
  obtain ⟨_, _, _, he⟩ := enqueue_eq tt st th
  rw [he]
  show ledger tt (secondOfEgg tt (produce tt st th.type) th.type) r = _
  unfold secondOfEgg
  split
  · exact (ledger_produce hz _ th.type r).trans (ledger_produce hz st th.type r)
  · exact ledger_produce hz st th.type r

/-! ## the builder that is used up -/

lemma ledger_consumeBuilder {st : BuildState T} {build b : T} {l : Loc T} {b₂ : Option Nat}
    (harchon : isArchon tt build = false)
    (hl : b ≠ tt.zergLarva → ∃ i, l = .unit b i ∧ i < (st.units.list b).length) (r : Race) :
    ledger tt (consumeBuilder tt st build b l b₂) r = ledger tt st r := by
  unfold consumeBuilder
  split
  · rfl
  next t i =>
    split
    next hc =>
      obtain ⟨j, hj, hlt⟩ := hl hc.2
      cases hj
      split
      · simp only
        split
        · exact ledger_removeUnit { st with morphingHatcheries := _ } hlt r
        · exact ledger_removeUnit st hlt r
      · rfl
    next =>
      rw [if_neg (by rw [harchon]; decide)]

lemma ledger_start (hz : NoSupply tt) {st : BuildState T} {th : BuildEntry T} {b : T}
    {addon : Option T} {l : Loc T} {b₂ : Option Nat} {ex : Bool}
    (harchon : isArchon tt th.type = false)
    (h : chooseBuilder tt st th.type b addon = ⟨some l, b₂, ex⟩) (r : Race) :
    ledger tt (start tt st th b l b₂) r = ledger tt st r := by
  have hmod : ∀ s l f hf, ledger tt s r = ledger tt st r →
      ledger tt (modifyAt s l f hf) r = ledger tt st r :=
    fun s l f hf => (ledger_modifyAt s l f hf r).trans
  refine (ledger_consumeBuilder harchon (chooseBuilder_place h) r).trans (noteAddon_of hmod ?_ ..)
  rw [ledger_enqueue hz]
  exact occupy_of hmod rfl ..

/-! ## a whole call -/

lemma keeps_ledger (hz : NoSupply tt) {thing : Option (BuildEntry T)}
    (harchon : ∀ th, thing = some th → isArchon tt th.type = false) (L : Race → Ledger) :
    Keeps tt thing (fun st => ledger tt st = L) where
  complete := fun st e es hst hprod _ => by
    rw [← hst]
    exact funext (ledger_completeOne hprod)
  refinery := fun st t hst => by
    rw [← hst]
    exact funext (ledger_addBuilt st t false)
  supply := fun st t hst => by
    rw [← hst]
    exact funext (ledger_addBuilt st t true)
  start := fun st th b addon l b₂ ex hth _ hc hst => by
    rw [← hst]
    exact funext (ledger_start hz (harchon th hth) hc)
  tick := fun st endFrame hst => hst

/-- a sequence of calls; the first exception ends it -/
def advanceAll (tt : TechTree T) (st : BuildState T) :
    List (Option (BuildEntry T) × Int) → Except String (BuildState T)
  | [] => .ok st
  | (thing, endFrame) :: calls =>
    match advance tt st thing endFrame with
    | .error e => .error e
    | .ok (_, st) => advanceAll tt st calls

/-- **Calls of `advance` for anything but the two kinds of Archons leave the three supply
differences of every race as they are, whatever they return.**  -/
theorem advance_ledger (tt : TechTree T) (hz : NoSupply tt) (st : BuildState T) (r : Race) :
    (∀ thing endFrame result st', (∀ th, thing = some th → isArchon tt th.type = false) →
      advance tt st thing endFrame = .ok (result, st') → ledger tt st' r = ledger tt st r) ∧
    (∀ calls st', (∀ c ∈ calls, ∀ th, c.1 = some th → isArchon tt th.type = false) →
      advanceAll tt st calls = .ok st' → ledger tt st' r = ledger tt st r) := by
  have hone : ∀ (st : BuildState T) thing endFrame result st',
      (∀ th, thing = some th → isArchon tt th.type = false) →
      advance tt st thing endFrame = .ok (result, st') → ledger tt st' r = ledger tt st r := by
    intro st thing endFrame result st' harchon h
    exact congrFun ((keeps_ledger hz harchon (ledger tt st)).advance h rfl) r
  refine ⟨hone st, ?_⟩
  intro calls
  induction calls generalizing st with
  | nil =>
    intro st' _ h
    cases h
    rfl
  | cons c calls ih =>
    intro st' harchon h
    unfold advanceAll at h
    split at h
    · cases h
    next result st₁ h₁ =>
      have hrest := ih st₁ st' (fun c' hc' => harchon c' (mem_cons_of_mem _ hc')) h
      exact hrest.trans (hone st _ _ _ _ (harchon c (mem_cons_self ..)) h₁)

/-- the drone that `toyState` can start -/
theorem advance_ledger_drone :
    (advance toyTree toyState (some { type := .drone }) 500).toOption.map Prod.fst = some .success ∧
      ∀ result st', advance toyTree toyState (some { type := .drone }) 500 = .ok (result, st') →
        ledger toyTree st' .zerg = ledger toyTree toyState .zerg := by
  refine ⟨by decide +kernel, fun result st' h => ?_⟩
  refine (advance_ledger toyTree ⟨?_, ?_⟩ toyState .zerg).1 _ _ _ _ ?_ h
  · decide
  · decide
  · intro th hth
    cases hth
    rfl

end TorchCraft.AutoBuild
