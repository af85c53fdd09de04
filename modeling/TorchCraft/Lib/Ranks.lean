import Mathlib.Data.List.Sort

/-!
# Ranks in a sorted list

Parties that see the same set, each in its own order, agree on the sorted list, and each takes its
position in it.

* `sorted`  the list in ascending order; the same for all orders of the elements;
* `rank?`  this position when `x` is there;
* `exists_rank`  every member has a rank;
* `rank_lt`, `rank_inj`  ranks are positions, and different members have different ranks.
-/

namespace TorchCraft.Lib.Ranks

variable {α : Type*} [LinearOrder α] {l m : List α} {x y : α} {i : Nat}

def sorted (l : List α) : List α := l.insertionSort (· ≤ ·)

/-- the position that a binary search finds in a sorted list -/
def lowerBound (l : List α) (x : α) : Nat := l.findIdx fun y => !decide (y < x)

def rank? (l : List α) (x : α) : Option Nat :=
  if l[lowerBound l x]? = some x then some (lowerBound l x) else none

lemma sorted_perm (l : List α) : (sorted l).Perm l := List.perm_insertionSort _ l

lemma sorted_pairwise (l : List α) : (sorted l).Pairwise (· ≤ ·) :=
  List.pairwise_insertionSort _ l

lemma sorted_eq_of_perm (h : l.Perm m) : sorted l = sorted m := by
  refine List.Perm.eq_of_pairwise (fun a b _ _ hab hba => le_antisymm hab hba) (sorted_pairwise l)
    (sorted_pairwise m) ?_
  exact (sorted_perm l).trans (h.trans (sorted_perm m).symm)

lemma getElem?_lowerBound (hl : l.Pairwise (· ≤ ·)) (hx : x ∈ l) :
    l[lowerBound l x]? = some x := by
  have hlt : lowerBound l x < l.length :=
    List.findIdx_lt_length_of_exists ⟨x, hx, by simp⟩
  have hge : x ≤ l[lowerBound l x] := by
    have h : (!decide (l[lowerBound l x] < x)) := List.findIdx_getElem (w := hlt)
    rw [Bool.not_eq_true', decide_eq_false_iff_not] at h
    exact not_lt.mp h
  obtain ⟨j, hj, rfl⟩ := List.getElem_of_mem hx
  -- the elements before the lower bound are below `x`, so `x` does not stand before it
  have hle : lowerBound l l[j] ≤ j := by
    by_contra hnot
    have h := List.not_of_lt_findIdx (Nat.lt_of_not_le hnot)
    simp at h
  rw [List.getElem?_eq_getElem hlt]
  refine congrArg some (le_antisymm ?_ hge)
  rcases Nat.eq_or_lt_of_le hle with heq | hlt'
  · exact le_of_eq (getElem_congr_idx heq)
  · exact List.pairwise_iff_getElem.mp hl _ _ hlt hj hlt'

lemma exists_rank (hl : l.Pairwise (· ≤ ·)) (hx : x ∈ l) : ∃ i, rank? l x = some i :=
  ⟨_, if_pos (getElem?_lowerBound hl hx)⟩

lemma getElem?_of_rank (h : rank? l x = some i) : l[i]? = some x := by
  unfold rank? at h
  split at h
  next hat =>
    cases h
    exact hat
  · cases h

lemma rank_lt (h : rank? l x = some i) : i < l.length :=
  (List.getElem?_eq_some_iff.mp (getElem?_of_rank h)).1

lemma rank_inj (hx : rank? l x = some i) (hy : rank? l y = some i) : x = y := by
  have h := (getElem?_of_rank hx).symm.trans (getElem?_of_rank hy)
  exact Option.some.inj h

omit [LinearOrder α] in
lemma perm_iff_nodup (hm : m.Nodup) (h : ∀ x, x ∈ l ↔ x ∈ m) : l.Perm m ↔ l.Nodup :=
  ⟨fun hp => hp.nodup_iff.mpr hm, fun hl => (List.perm_ext_iff_of_nodup hl hm).mpr h⟩

end TorchCraft.Lib.Ranks
