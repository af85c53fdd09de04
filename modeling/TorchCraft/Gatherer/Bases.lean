import Mathlib.Algebra.Order.Field.Rat
import Mathlib.Algebra.BigOperators.Group.Finset.Basic

/-!
# The resources of a base

`GathererAssignments::step` maps each resource to the nearest base of its area, in a loop over the
bases that keeps the smallest distance so far.  The resource is also appended to the list of every
base that is the nearest so far, and it stays there when a nearer one is found.

* `mapResources`  the loops;
* `minima`  the bases at which the smallest distance falls;
* `timesListed_eq`  how often a resource is counted for the saturation of the bases.
-/

set_option linter.unusedSectionVars false

namespace TorchCraft.Gatherer
open List Function

def lightYear : ℚ := 10000000000

/-- our bases and the resources; distances are smaller than a light year -/
structure Bases (R B A : Type) where
  myBases : List B
  nodup : myBases.Nodup
  resourceDepot : B → Bool := fun _ => true
  baseArea : B → A
  area : R → Option A
  distanceBB : R → B → ℚ
  distance_lt : ∀ r b, distanceBB r b < lightYear

structure Mapped (R B : Type) where
  depotToResourceDistances : R → ℚ := fun _ => 0
  resourceBases : R → Option B := fun _ => none
  baseResources : B → List R := fun _ => []

section
variable {R B A : Type} [DecidableEq R] [DecidableEq B] [DecidableEq A] (S : Bases R B A)

def Bases.serves (r : R) (b : B) : Bool :=
  S.resourceDepot b && decide (S.area r = some (S.baseArea b))

def visitBase (r : R) (m : Mapped R B) (b : B) : Mapped R B :=
  if S.serves r b && decide (S.distanceBB r b < m.depotToResourceDistances r) then
    { depotToResourceDistances :=
        update m.depotToResourceDistances r (S.distanceBB r b)
      resourceBases := update m.resourceBases r (some b)
      baseResources := update m.baseResources b (m.baseResources b ++ [r]) }
  else m

def mapResource (m : Mapped R B) (r : R) : Mapped R B :=
  S.myBases.foldl (visitBase S r)
    { m with depotToResourceDistances := update m.depotToResourceDistances r lightYear }

def mapResources (resources : List R) : Mapped R B := resources.foldl (mapResource S) {}

def timesListed (m : Mapped R B) (r : R) : Nat :=
  (S.myBases.map fun b => (m.baseResources b).count r).sum

/-! ## one resource -/

/-- the bases at which the distance falls below `d` and below what came before -/
def minima (r : R) : List B → ℚ → List B
  | [], _ => []
  | b :: bs, d =>
    if S.serves r b && decide (S.distanceBB r b < d) then b :: minima r bs (S.distanceBB r b)
    else minima r bs d

variable {S} {r : R}

lemma foldl_visitBase (bs : List B) (m : Mapped R B) :
    let m' := bs.foldl (visitBase S r) m
    let l := minima S r bs (m.depotToResourceDistances r)
    m'.resourceBases = update m.resourceBases r (l.getLast?.or (m.resourceBases r)) ∧
      ∀ b r', (m'.baseResources b).count r' =
        (m.baseResources b).count r' + if r' = r then l.count b else 0 := by
  induction bs generalizing m with
  | nil => simp [minima]
  | cons b bs ih =>
    obtain ⟨hbase, hcount⟩ := ih (visitBase S r m b)
    rw [foldl_cons]
    dsimp only
    rw [hbase, minima]
    by_cases hb : (S.serves r b && decide (S.distanceBB r b < m.depotToResourceDistances r))
    · have hvisit : visitBase S r m b = ⟨_, _, _⟩ := if_pos hb
      simp only [hvisit, update_self, update_idem] at hcount ⊢
      rw [if_pos hb]
      refine ⟨?_, fun b' r' => ?_⟩
      · cases hl : minima S r bs (S.distanceBB r b) with
        | nil => rfl
        | cons c l => simp [getLast?_cons]
      · rw [hcount b' r', count_cons]
        by_cases hne : b' = b
        · subst hne
          rw [update_self, count_append, count_singleton]
          by_cases hr : r' = r
          · simp [hr]
            omega
          · simp [hr, Ne.symm hr]
        · rw [update_of_ne hne]
          simp [Ne.symm hne]
    · have hvisit : visitBase S r m b = m := if_neg hb
      rw [hvisit] at hcount ⊢
      rw [if_neg hb]
      exact ⟨rfl, hcount⟩

lemma minima_subset {b : B} {bs : List B} {d : ℚ} (h : b ∈ minima S r bs d) : b ∈ bs := by
  induction bs generalizing d with
  | nil => exact h
  | cons c bs ih =>
    rw [minima] at h
    split at h
    · exact mem_cons.mpr ((mem_cons.mp h).imp_right ih)
    · exact mem_cons_of_mem _ (ih h)

lemma minima_spec (bs : List B) (d : ℚ) :
    (minima S r bs d = [] ↔ ∀ b ∈ bs, S.serves r b → d ≤ S.distanceBB r b) ∧
    ∀ b, (minima S r bs d).getLast? = some b → b ∈ bs ∧ S.serves r b ∧
      S.distanceBB r b < d ∧
      ∀ b' ∈ bs, S.serves r b' → S.distanceBB r b ≤ S.distanceBB r b' := by
  induction bs generalizing d with
  | nil => simp [minima]
  | cons c bs ih =>
    rw [minima]
    simp only [forall_mem_cons]
    split
    next hc =>
      obtain ⟨hserves, hlt⟩ := Bool.and_eq_true_iff.mp hc
      have hlt := of_decide_eq_true hlt
      obtain ⟨hnil, hlast⟩ := ih (S.distanceBB r c)
      refine ⟨iff_of_false (cons_ne_nil _ _) fun h => (h.1 hserves).not_gt hlt, fun b hb => ?_⟩
      rw [getLast?_cons] at hb
      cases hl : (minima S r bs (S.distanceBB r c)).getLast? with
      | none =>
        rw [hl] at hb
        cases hb
        exact ⟨mem_cons_self, hserves, hlt, fun _ => le_refl _,
          hnil.mp (getLast?_eq_none_iff.mp hl)⟩
      | some c' =>
        rw [hl] at hb
        cases hb
        obtain ⟨hmem, hserves', hlt', hmin⟩ := hlast _ hl
        exact ⟨mem_cons_of_mem _ hmem, hserves', hlt'.trans hlt, fun _ => hlt'.le, hmin⟩
    next hc =>
      have hfar : S.serves r c → d ≤ S.distanceBB r c := fun hserves =>
        not_lt.mp fun hlt => hc (by rw [hserves, decide_eq_true hlt]; rfl)
      obtain ⟨hnil, hlast⟩ := ih d
      refine ⟨hnil.trans (and_iff_right hfar).symm, fun b hb => ?_⟩
      obtain ⟨hmem, hserves, hlt, hmin⟩ := hlast b hb
      exact ⟨mem_cons_of_mem _ hmem, hserves, hlt, fun h => hlt.le.trans (hfar h), hmin⟩

lemma minima_length_eq_one {bs : List B} {d : ℚ} (hd : ∀ b ∈ bs, S.distanceBB r b < d) {b : B}
    (hb : bs.find? (S.serves r) = some b) : (minima S r bs d).length = 1 ↔
      ∀ b' ∈ bs, S.serves r b' → S.distanceBB r b ≤ S.distanceBB r b' := by
  induction bs with
  | nil => cases hb
  | cons c bs ih =>
    rw [minima, forall_mem_cons]
    by_cases hc : S.serves r c
    · rw [find?_cons_of_pos hc] at hb
      cases hb
      rw [if_pos (by rw [hc, decide_eq_true (hd b mem_cons_self)]; rfl), length_cons,
        Nat.add_eq_right, length_eq_zero_iff, (minima_spec bs _).1]
      exact (and_iff_right fun _ => le_rfl).symm
    · rw [find?_cons_of_neg hc] at hb
      rw [if_neg (by simp [hc]), ih (fun b h => hd b (mem_cons_of_mem _ h)) hb]
      exact (and_iff_right fun h => absurd h hc).symm

/-! ## all resources -/

lemma foldl_mapResource (rs : List R) (hrs : rs.Nodup) (m : Mapped R B) (r : R) :
    let m' := rs.foldl (mapResource S) m
    let l := if r ∈ rs then minima S r S.myBases lightYear else []
    m'.resourceBases r = l.getLast?.or (m.resourceBases r) ∧
      ∀ b, (m'.baseResources b).count r = (m.baseResources b).count r + l.count b := by
  induction rs generalizing m with
  | nil => simp
  | cons q rs ih =>
    obtain ⟨hbase, hcount⟩ := foldl_visitBase (S := S) (r := q) S.myBases
      { m with depotToResourceDistances := update m.depotToResourceDistances q lightYear }
    obtain ⟨hq, hrs⟩ := nodup_cons.mp hrs
    obtain ⟨hbase', hcount'⟩ := ih hrs (mapResource S m q)
    dsimp only at hbase hcount hbase' hcount' ⊢
    rw [update_self] at hbase hcount
    rw [foldl_cons, hbase']
    have hfirst : (mapResource S m q).resourceBases = _ := hbase
    have hlists : ∀ b r', ((mapResource S m q).baseResources b).count r' = _ := hcount
    simp only [hcount', hfirst, hlists]
    by_cases hr : r = q
    · subst hr
      simp [hq]
    · simp [hr]

/-- **How often a resource is counted**: once for each base of ours with a depot in its area that is
nearer than all of them before it; so once exactly if the first is a nearest one. -/
theorem timesListed_eq (S : Bases R B A) (resources : List R) (hrs : resources.Nodup) (r : R)
    (hr : r ∈ resources) (hserves : ∃ b ∈ S.myBases, S.serves r b = true) :
    let m := mapResources S resources
    (∃ b, m.resourceBases r = some b ∧ b ∈ S.myBases ∧ S.serves r b = true ∧
      r ∈ m.baseResources b ∧
      ∀ b' ∈ S.myBases, S.serves r b' = true → S.distanceBB r b ≤ S.distanceBB r b') ∧
    timesListed S m r = (minima S r S.myBases lightYear).length ∧
    (timesListed S m r = 1 ↔ ∃ b, S.myBases.find? (S.serves r) = some b ∧
      ∀ b' ∈ S.myBases, S.serves r b' = true → S.distanceBB r b ≤ S.distanceBB r b') := by
  intro m
  obtain ⟨hbase, hcount⟩ := foldl_mapResource (S := S) resources hrs {} r
  rw [if_pos hr] at hbase hcount
  simp only [count_nil, zero_add, Option.or_none] at hbase hcount
  obtain ⟨hnil, hlast⟩ := minima_spec (S := S) (r := r) S.myBases lightYear
  obtain ⟨b₀, hb₀, hs₀⟩ := hserves
  have hne : minima S r S.myBases lightYear ≠ [] := fun h =>
    (hnil.mp h b₀ hb₀ hs₀).not_gt (S.distance_lt r b₀)
  obtain ⟨b, hb⟩ := Option.isSome_iff_exists.mp (getLast?_isSome.mpr hne)
  obtain ⟨hmem, hserves, -, hmin⟩ := hlast b hb
  have htimes : timesListed S m r = (minima S r S.myBases lightYear).length := by
    -- no base is a minimum twice
    have hsub : ∀ c ∈ (minima S r S.myBases lightYear : Multiset B), c ∈ S.myBases.toFinset :=
      fun c hc => mem_toFinset.mpr (minima_subset hc)
    rw [timesListed, ← Multiset.coe_card, ← Multiset.sum_count_eq_card hsub, sum_toFinset _ S.nodup]
    exact congrArg List.sum (map_congr_left fun b _ =>
      (hcount b).trans (Multiset.coe_count b _).symm)
  refine ⟨⟨b, hbase.trans hb, hmem, hserves, ?_, hmin⟩, htimes, ?_⟩
  · rw [← count_pos_iff]
    exact (hcount b).symm ▸ count_pos_iff.mpr (mem_of_getLast? hb)
  · obtain ⟨b₁, hb₁⟩ := Option.isSome_iff_exists.mp (find?_isSome.mpr ⟨b₀, hb₀, hs₀⟩)
    rw [htimes, minima_length_eq_one (fun b _ => S.distance_lt r b) hb₁]
    simp [hb₁]

end

def twoBases : Bases Unit Bool Unit where
  myBases := [true, false]
  nodup := by decide
  baseArea _ := ()
  area _ := some ()
  distanceBB _ b := if b then 2 else 1
  distance_lt _ b := by cases b <;> decide +kernel

theorem timesListed_eq_twoBases : timesListed twoBases (mapResources twoBases [()]) () = 2 :=
  (timesListed_eq twoBases [()] (by decide) () mem_cons_self ⟨true, mem_cons_self, rfl⟩).2.1.trans
    (by decide +kernel)

/-- A resource that is nearer to the second base is in both lists. -/
theorem listed_twice : (mapResources twoBases [()]).resourceBases () = some false ∧
    (mapResources twoBases [()]).baseResources true = [()] ∧
    (mapResources twoBases [()]).baseResources false = [()] := by
  decide +kernel

end TorchCraft.Gatherer
