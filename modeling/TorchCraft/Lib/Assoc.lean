import Mathlib.Data.List.Nodup

/-!
# Association lists with distinct keys

* `lookup_iff_mem`  with distinct `keys`, looking up is membership;
* `erase`, `assign`, `perm_erase`  an entry goes, an entry comes;
* `forall₂_iff_getElem?`, `forall₂_trans`, `forall₂_set`  lists related place by place.
-/

set_option linter.unusedSectionVars false

namespace TorchCraft.Lib.Assoc
open List

section pairs
variable {A B : Type*} {l : List A} {R : A → B → Prop}

lemma exists_mem_left {m : List B} (h : List.Forall₂ R l m) {b : B} (hb : b ∈ m) :
    ∃ a ∈ l, R a b := by
  obtain ⟨i, hi, rfl⟩ := getElem_of_mem hb
  have hi' : i < l.length := h.length_eq ▸ hi
  exact ⟨l.get ⟨i, hi'⟩, get_mem _ _, h.get hi' hi⟩

lemma forall₂_iff_getElem? {m : List B} : List.Forall₂ R l m ↔
      l.length = m.length ∧ ∀ (i : Nat) (a : A) (b : B), l[i]? = some a → m[i]? = some b → R a b := by
  rw [forall₂_iff_get]
  refine and_congr_right fun _ => ⟨fun h i a b ha hb => ?_, fun h i h1 h2 => ?_⟩
  · obtain ⟨h1, rfl⟩ := List.getElem?_eq_some_iff.mp ha
    obtain ⟨h2, rfl⟩ := List.getElem?_eq_some_iff.mp hb
    exact h i h1 h2
  · exact h i _ _ (getElem?_eq_getElem h1) (getElem?_eq_getElem h2)

variable {Q : A → A → Prop}

lemma forall₂_trans (hQ : ∀ a b c, Q a b → Q b c → Q a c) {m n : List A} (h : List.Forall₂ Q l m)
    (h' : List.Forall₂ Q m n) : List.Forall₂ Q l n := by
  induction h generalizing n with
  | nil => exact h'
  | cons hab _ ih =>
    cases h' with
    | cons hbc hrest => exact .cons (hQ _ _ _ hab hbc) (ih hrest)

lemma forall₂_set (h : ∀ a ∈ l, Q a a) {i : Nat} {a b : A} (hi : l[i]? = some a) (hab : Q a b) :
    List.Forall₂ Q l (l.set i b) := by
  rw [forall₂_iff_getElem?, length_set]
  refine ⟨rfl, fun j c d hc hd => ?_⟩
  by_cases hij : i = j
  · subst hij
    rw [getElem?_set_self (List.getElem?_eq_some_iff.mp hi).1] at hd
    cases hd
    cases hc.symm.trans hi
    exact hab
  · rw [getElem?_set_ne hij, hc] at hd
    cases hd
    exact h c (mem_of_getElem? hc)

end pairs

variable {K V : Type*} [BEq K] [LawfulBEq K]

def keys (m : List (K × V)) : List K := m.map Prod.fst

variable {k : K} {v : V} {m : List (K × V)}

lemma lookup_eq_none (h : k ∉ keys m) : m.lookup k = none := by
  rw [lookup_eq_none_iff]
  intro e he
  refine bne_iff_ne.mpr ?_
  rintro rfl
  exact h (mem_map_of_mem he)

lemma lookup_iff_mem (h : (keys m).Nodup) : m.lookup k = some v ↔ (k, v) ∈ m := by
  induction m with
  | nil => simp
  | cons e m ih =>
    obtain ⟨k', v'⟩ := e
    obtain ⟨hk', hm⟩ := nodup_cons.mp h
    rw [lookup_cons, mem_cons, Prod.mk.injEq]
    cases hk : k == k' with
    | true =>
      obtain rfl := eq_of_beq hk
      show some v' = some v ↔ _
      constructor
      · intro hv
        exact .inl ⟨rfl, (Option.some.inj hv).symm⟩
      · rintro (⟨-, rfl⟩ | hmem)
        · rfl
        · exact absurd (mem_map_of_mem hmem) hk'
    | false =>
      have hne : k ≠ k' := ne_of_beq_false hk
      show m.lookup k = some v ↔ _
      rw [ih hm]
      exact ⟨.inr, fun h => h.resolve_left fun h => hne h.1⟩

/-! ## erasing and assigning -/

def erase (k : K) (m : List (K × V)) : List (K × V) := m.filter fun e => !(e.1 == k)

/-- `m[k] = v` -/
def assign (k : K) (v : V) (m : List (K × V)) : List (K × V) := (k, v) :: erase k m

lemma keys_erase_sublist (k : K) (m : List (K × V)) : (keys (erase k m)).Sublist (keys m) :=
  filter_sublist.map _

lemma erase_of_not_mem (h : k ∉ keys m) : erase k m = m := by
  refine filter_eq_self.mpr fun e he => ?_
  have hne : e.1 ≠ k := fun hk => h (hk ▸ mem_map_of_mem he)
  rw [beq_false_of_ne hne]
  rfl

lemma assign_of_not_mem (h : k ∉ keys m) (v : V) :
    assign k v m = (k, v) :: m := by rw [assign, erase_of_not_mem h]

lemma length_erase_lt (h : m.lookup k = some v) : (erase k m).length < m.length := by
  refine length_filter_lt_length_iff_exists.mpr ?_
  by_contra hno
  have hk : k ∉ keys m := by
    intro hk
    obtain ⟨e, he, rfl⟩ := mem_map.mp hk
    exact hno ⟨e, he, by simp⟩
  rw [lookup_eq_none hk] at h
  cases h

/-- **With distinct keys, one entry goes.** -/
theorem perm_erase (hn : (keys m).Nodup) (h : m.lookup k = some v) :
    m.Perm ((k, v) :: erase k m) := by
  induction m with
  | nil => cases h
  | cons e m ih =>
    obtain ⟨k', v'⟩ := e
    obtain ⟨hk', hm⟩ := nodup_cons.mp hn
    rw [lookup_cons] at h
    cases hk : k == k' with
    | true =>
      obtain rfl := eq_of_beq hk
      rw [hk] at h
      obtain rfl := Option.some.inj h
      have herase : erase k ((k, v') :: m) = m := by
        rw [erase, filter_cons_of_neg (by simp)]
        exact erase_of_not_mem hk'
      rw [herase]
    | false =>
      rw [hk] at h
      have hne : (k' == k) = false := beq_false_of_ne (ne_of_beq_false hk).symm
      have herase : erase k ((k', v') :: m) = (k', v') :: erase k m :=
        filter_cons_of_pos (by simp [hne])
      rw [herase]
      exact ((ih hm h).cons _).trans (Perm.swap ..)

end TorchCraft.Lib.Assoc
