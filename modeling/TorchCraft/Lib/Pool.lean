import Mathlib.Data.List.Perm.Basic

/-!
# Thread pools

A pool is the list of the phases its threads are in.  A move of thread `i` from phase `a` to phase
`b` is `l.set i b`, and what the threads hold or count together changes by what `a` and `b` hold or
count.

* `exchange`  a move, up to the order of the threads;
* `countP_add`, `countP_remove`, `countP_keep`  a count over the pool after a move;
* `forall_set`  what holds of every thread after a move;
* `filterMap_add`, `filterMap_remove`, `filterMap_keep`  what the threads hold after a move.
-/

namespace TorchCraft.Lib.Pool
open List
variable {A B : Type*} {l : List A} {i : Nat} {a : A}

lemma exchange (h : l[i]? = some a) (b : A) :
    ∃ rest, l.Perm (a :: rest) ∧ (l.set i b).Perm (b :: rest) := by
  obtain ⟨hi, rfl⟩ := List.getElem?_eq_some_iff.mp h
  exact ⟨l.eraseIdx i, (getElem_cons_eraseIdx_perm hi).symm, set_perm_cons_eraseIdx hi b⟩

section count
variable {p : A → Bool} {b : A}

lemma countP_add (h : l[i]? = some a) (ha : p a = false) (hb : p b) :
    (l.set i b).countP p = l.countP p + 1 := by
  obtain ⟨rest, hl, hs⟩ := exchange h b
  rw [hl.countP_eq, hs.countP_eq, countP_cons_of_pos hb,
    countP_cons_of_neg (Bool.not_eq_true _ ▸ ha)]

lemma countP_remove (h : l[i]? = some a) (ha : p a) (hb : p b = false) :
    l.countP p = (l.set i b).countP p + 1 := by
  obtain ⟨rest, hl, hs⟩ := exchange h b
  rw [hl.countP_eq, hs.countP_eq, countP_cons_of_pos ha,
    countP_cons_of_neg (Bool.not_eq_true _ ▸ hb)]

lemma countP_keep (h : l[i]? = some a) (hab : p b = p a) : (l.set i b).countP p = l.countP p := by
  obtain ⟨rest, hl, hs⟩ := exchange h b
  rw [hl.countP_eq, hs.countP_eq, countP_cons, countP_cons, hab]

end count

lemma forall_set {P : A → Prop} {b : A} (hl : ∀ w ∈ l, P w) (hb : P b) : ∀ w ∈ l.set i b, P w := by
  intro w hw
  rcases mem_or_eq_of_mem_set hw with hw | rfl
  · exact hl w hw
  · exact hb

variable {f : A → Option B} {b : A} {v : B}

lemma filterMap_add (h : l[i]? = some a) (ha : f a = none) (hb : f b = some v) :
    ((l.set i b).filterMap f).Perm (v :: l.filterMap f) := by
  obtain ⟨rest, hl, hs⟩ := exchange h b
  refine (hs.filterMap f).trans ?_
  rw [filterMap_cons_some hb]
  refine Perm.cons v ((hl.filterMap f).trans ?_).symm
  rw [filterMap_cons_none ha]

lemma filterMap_remove (h : l[i]? = some a) (ha : f a = some v) (hb : f b = none) :
    (l.filterMap f).Perm (v :: (l.set i b).filterMap f) := by
  obtain ⟨rest, hl, hs⟩ := exchange h b
  refine (hl.filterMap f).trans ?_
  rw [filterMap_cons_some ha]
  refine Perm.cons v ((hs.filterMap f).trans ?_).symm
  rw [filterMap_cons_none hb]

lemma filterMap_keep (h : l[i]? = some a) (ha : f a = none) (hb : f b = none) :
    ((l.set i b).filterMap f).Perm (l.filterMap f) := by
  obtain ⟨rest, hl, hs⟩ := exchange h b
  refine (hs.filterMap f).trans ((hl.filterMap f).trans ?_).symm
  rw [filterMap_cons_none ha, filterMap_cons_none hb]

end TorchCraft.Lib.Pool
