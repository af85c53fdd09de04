import Mathlib.Data.List.Perm.Basic
import Mathlib.Data.List.Nodup

/-!
# Vectors that remove by a swap with the last element

* `swapPop l i`  the element at `i` is exchanged with the last one, which is then dropped;
* `Slots`  a vector together with the places of its elements;
* `Slots.Ok`  the places are right, so no element is there twice;
* `Slots.put`  an element is put in or taken out, in constant time;
* `ok_put`, `mem_put`  the places stay right, and only this element comes or goes.
-/

namespace TorchCraft.Lib
open List Function

section swapPop
variable {A : Type*}

def swapPop (l : List A) (i : Nat) : List A :=
  match l.getLast? with
  | none => l
  | some back => (if i ≠ l.length - 1 then l.set i back else l).dropLast

lemma swapPop_concat (m : List A) (back : A) (i : Nat) :
    swapPop (m ++ [back]) i = if i = m.length then m else m.set i back := by
  have hlen : (m ++ [back]).length - 1 = m.length := by rw [length_append]; rfl
  unfold swapPop
  rw [getLast?_concat, hlen]
  dsimp only
  by_cases hi : i = m.length
  · rw [if_pos hi, if_neg (not_not.mpr hi), dropLast_concat]
  · rw [if_neg hi, if_pos hi]
    rcases Nat.lt_or_ge i m.length with hlt | hge
    · rw [set_append_left _ _ hlt, dropLast_concat]
    · rw [set_eq_of_length_le (l := m) hge, set_eq_of_length_le, dropLast_concat]
      rw [length_append, length_singleton]
      omega

/-- **The removed element is the only one that is missing.** -/
theorem perm_swapPop {l : List A} {i : Nat} {a : A} (h : l[i]? = some a) :
    l.Perm (a :: swapPop l i) := by
  obtain ⟨hi, rfl⟩ := List.getElem?_eq_some_iff.mp h
  rcases eq_nil_or_concat' l with rfl | ⟨m, back, rfl⟩
  · exact absurd hi (Nat.not_lt_zero _)
  · rw [swapPop_concat]
    split
    next he =>
      subst he
      rw [getElem_concat_length rfl]
      exact perm_append_singleton back m
    next hne =>
      rw [length_append, length_singleton] at hi
      have hlt : i < m.length := by omega
      rw [getElem_append_left hlt]
      have herase : m.Perm (m[i] :: m.eraseIdx i) := (getElem_cons_eraseIdx_perm hlt).symm
      calc (m ++ [back]).Perm (back :: m) := perm_append_singleton back m
        Perm _ (back :: m[i] :: m.eraseIdx i) := herase.cons back
        Perm _ (m[i] :: back :: m.eraseIdx i) := .swap ..
        Perm _ (m[i] :: m.set i back) := (set_perm_cons_eraseIdx hlt back).symm.cons _

end swapPop

structure Slots (A : Type*) where
  items : List A := []
  index : A → Option Nat := fun _ => none

namespace Slots
variable {A : Type*} [DecidableEq A]

/-- an element that is there already is not added again -/
def add (s : Slots A) (a : A) : Slots A :=
  match s.index a with
  | some _ => s
  | none => { items := s.items ++ [a], index := update s.index a (some s.items.length) }

/-- the last element gets the place of the removed one -/
def remove (s : Slots A) (a : A) : Slots A :=
  match s.index a with
  | none => s
  | some i =>
    let moved := match s.items.getLast? with
      | none => s.index
      | some back => if i ≠ s.items.length - 1 then update s.index back (some i) else s.index
    { items := swapPop s.items i, index := update moved a none }

def put (s : Slots A) (a : A) (contain : Bool) : Slots A := if contain then s.add a else s.remove a

/-- the places are right -/
def Ok (s : Slots A) : Prop := ∀ a i, s.index a = some i ↔ s.items[i]? = some a

variable {s : Slots A} {a : A}

omit [DecidableEq A] in
lemma ok_empty : Ok ({} : Slots A) := fun _ _ => ⟨nofun, nofun⟩

omit [DecidableEq A] in
lemma Ok.nodup (h : s.Ok) : s.items.Nodup := by
  rw [nodup_iff_getElem?_ne_getElem?]
  intro i j hij hj he
  obtain ⟨b, hb⟩ : ∃ b, s.items[j]? = some b := ⟨_, getElem?_eq_getElem hj⟩
  have hi := (h b i).mpr (he.trans hb)
  rw [(h b j).mpr hb] at hi
  exact absurd (Option.some.inj hi).symm (Nat.ne_of_lt hij)

omit [DecidableEq A] in
lemma Ok.index_none (h : s.Ok) : s.index a = none ↔ a ∉ s.items := by
  rw [← not_iff_not, not_not, ← Ne, Option.ne_none_iff_exists']
  constructor
  · rintro ⟨i, hi⟩
    exact mem_of_getElem? ((h a i).mp hi)
  · intro ha
    obtain ⟨i, hi⟩ := mem_iff_getElem?.mp ha
    exact ⟨i, (h a i).mpr hi⟩

variable {index : A → Option Nat}

lemma ok_concat {m : List A} (ha : a ∉ m) :
    Ok ⟨m ++ [a], update index a (some m.length)⟩ ↔
      Ok ⟨m, update index a none⟩ := by
  refine forall_congr' fun b => forall_congr' fun i => ?_
  dsimp only
  by_cases hb : b = a
  · subst hb
    rw [update_self, update_self, getElem?_append]
    have hm : m[i]? ≠ some b := fun hi => ha (mem_of_getElem? hi)
    grind
  · rw [update_of_ne hb, update_of_ne hb, getElem?_append]
    grind

lemma ok_swap {l : List A} {i j : Nat} {a b : A} (h : Ok ⟨l, index⟩) (ha : l[i]? = some a)
    (hb : l[j]? = some b) :
    Ok ⟨(l.set i b).set j a, update (update index b (some i)) a (some j)⟩ := by
  intro c k
  have hc := h c k
  have hai := h a i
  have hbj := h b j
  grind [update]

section
variable (h : s.Ok)
include h

lemma ok_add (a : A) : (s.add a).Ok := by
  unfold add
  split
  · exact h
  next hnone =>
    refine (ok_concat (h.index_none.mp hnone)).mpr ?_
    rw [← hnone, update_eq_self]
    exact h

lemma ok_remove (a : A) : (s.remove a).Ok := by
  cases hi : s.index a with
  | none =>
    rw [remove, hi]
    exact h
  | some i =>
    have hplace := (h a i).mp hi
    obtain ⟨items, index⟩ := s
    dsimp only at hi hplace
    rcases eq_nil_or_concat' items with rfl | ⟨m, back, rfl⟩
    · nomatch hplace
    have hlen : (m ++ [back]).length - 1 = m.length := by rw [length_append]; rfl
    have hback : (m ++ [back])[m.length]? = some back := getElem?_concat_length
    unfold remove
    dsimp only
    rw [hi]
    dsimp only
    rw [getLast?_concat, swapPop_concat, hlen]
    dsimp only
    by_cases hlast : i = m.length
    · subst hlast
      obtain rfl : a = back := Option.some.inj (hplace.symm.trans hback)
      rw [if_pos rfl, if_neg (not_not.mpr rfl)]
      refine (ok_concat ?_).mp ?_
      · exact (nodup_cons.mp (nodup_append_comm.mp h.nodup)).1
      · rw [← hi, update_eq_self]
        exact h
    · have hswap := ok_swap h hplace hback
      have hlt : i < m.length := by
        have := (List.getElem?_eq_some_iff.mp hplace).1
        rw [length_append, length_singleton] at this
        omega
      rw [set_append_left _ _ hlt, set_append_right _ _ (Nat.le_of_eq (length_set ..)),
        length_set, Nat.sub_self, set_cons_zero] at hswap
      rw [if_neg hlast, if_pos hlast]
      have ha : a ∉ m.set i back :=
        (nodup_cons.mp (nodup_append_comm.mp hswap.nodup)).1
      refine (ok_concat ha).mp ?_
      rw [length_set]
      exact hswap

lemma mem_add {b : A} : b ∈ (s.add a).items ↔ b = a ∨ b ∈ s.items := by
  unfold add
  split
  next i hi =>
    have ha : a ∈ s.items := mem_of_getElem? ((h a i).mp hi)
    refine ⟨Or.inr, ?_⟩
    rintro (rfl | hb)
    · exact ha
    · exact hb
  · rw [mem_append, mem_singleton, or_comm]

lemma mem_remove {b : A} : b ∈ (s.remove a).items ↔ b ≠ a ∧ b ∈ s.items := by
  unfold remove
  split
  next hnone =>
    refine ⟨fun hb => ⟨?_, hb⟩, And.right⟩
    rintro rfl
    exact h.index_none.mp hnone hb
  next i hi =>
    have hperm := perm_swapPop ((h a i).mp hi)
    have hnodup := hperm.nodup_iff.mp h.nodup
    rw [hperm.mem_iff, mem_cons]
    refine ⟨fun hb => ⟨?_, Or.inr hb⟩, fun hb => hb.2.resolve_left hb.1⟩
    rintro rfl
    exact (nodup_cons.mp hnodup).1 hb

lemma ok_put (a : A) (contain : Bool) : (s.put a contain).Ok := by
  rw [put]
  split
  · exact ok_add h a
  · exact ok_remove h a

lemma mem_put (a : A) (contain : Bool) {b : A} :
    b ∈ (s.put a contain).items ↔ if b = a then contain = true else b ∈ s.items := by
  cases contain with
  | true =>
    rw [put, if_pos rfl, mem_add h]
    split <;> simp [*]
  | false =>
    rw [put, if_neg Bool.false_ne_true, mem_remove h]
    split <;> simp [*]

end

end Slots
end TorchCraft.Lib
