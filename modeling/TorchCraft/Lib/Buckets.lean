import Mathlib.Data.List.Perm.Subperm
import TorchCraft.Lib.Assoc

/-!
# Elements in buckets

A list of buckets `gs`, where `items g` are the elements of the bucket `g`; `gs.flatMap items` are
those of all buckets.
-/

namespace TorchCraft.Lib.Buckets
open List

variable {G A B : Type*} {gs : List G}

/-- **One bucket is changed.** -/
theorem perm_modify (items : G → List A) {j : Nat} {g : G} (h : gs[j]? = some g) :
    ∃ rest, (gs.flatMap items).Perm (items g ++ rest) ∧
      ∀ f : G → G, ((gs.modify j f).flatMap items).Perm (items (f g) ++ rest) := by
  obtain ⟨hj, rfl⟩ := List.getElem?_eq_some_iff.mp h
  refine ⟨(gs.take j).flatMap items ++ (gs.drop (j + 1)).flatMap items, ?_, fun f => ?_⟩
  · conv_lhs => rw [← take_append_drop j gs, drop_eq_getElem_cons hj]
    rw [flatMap_append, flatMap_cons]
    exact perm_append_comm_assoc ..
  · rw [modify_eq_take_cons_drop hj, flatMap_append, flatMap_cons]
    exact perm_append_comm_assoc ..

lemma modify_of_none {j : Nat} (h : gs[j]? = none) (f : G → G) : gs.modify j f = gs :=
  modify_eq_self (List.getElem?_eq_none_iff.mp h)

variable {f : G → G}

lemma mem_modify {j : Nat} {x : G} (h : x ∈ gs.modify j f) :
    x ∈ gs ∨ ∃ g, gs[j]? = some g ∧ x = f g := by
  obtain ⟨k, hk⟩ := getElem?_of_mem h
  rw [getElem?_modify] at hk
  obtain ⟨g, hg, rfl⟩ := Option.map_eq_some_iff.mp hk
  by_cases hjk : j = k
  · rw [if_pos hjk]
    exact .inr ⟨g, hjk ▸ hg, rfl⟩
  · rw [if_neg hjk]
    exact .inl (mem_of_getElem? hg)

lemma map_modify (k : G → B) (hf : ∀ g, k (f g) = k g) (gs : List G) (j : Nat) :
    (gs.modify j f).map k = gs.map k := by
  refine ext_getElem? fun i => ?_
  rw [getElem?_map, getElem?_map, getElem?_modify]
  cases gs[i]? with
  | none => rfl
  | some g =>
    show some (k (if j = i then f g else g)) = some (k g)
    split
    · rw [hf]
    · rfl

/-- **Without repetition an element is in one bucket only.** -/
theorem existsUnique_of_nodup {items : G → List A} (h : (gs.flatMap items).Nodup) {a : A}
    (ha : a ∈ gs.flatMap items) : ∃! j : Nat, ∃ g, gs[j]? = some g ∧ a ∈ items g := by
  obtain ⟨g, hg, hag⟩ := mem_flatMap.mp ha
  obtain ⟨j, hj⟩ := getElem?_of_mem hg
  have hdisj := pairwise_iff_getElem.mp (nodup_flatMap.mp h).2
  have hlt : ∀ (j k : Nat) (g g' : G), gs[j]? = some g → gs[k]? = some g' →
      a ∈ items g → a ∈ items g' → ¬ j < k := by
    intro j k g g' hj hk hag hag' hlt
    obtain ⟨hj', rfl⟩ := List.getElem?_eq_some_iff.mp hj
    obtain ⟨hk', rfl⟩ := List.getElem?_eq_some_iff.mp hk
    exact hdisj j k hj' hk' hlt hag hag'
  refine ⟨j, ⟨g, hj, hag⟩, fun k hk => ?_⟩
  obtain ⟨g', hk, hag'⟩ := hk
  exact Nat.le_antisymm (Nat.le_of_not_lt (hlt j k g g' hj hk hag hag'))
    (Nat.le_of_not_lt (hlt k j g' g hk hj hag' hag))

end TorchCraft.Lib.Buckets
