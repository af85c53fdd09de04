import Mathlib.Data.List.Perm.Basic
import TorchCraft.Lib.OrdMap

/-!
# Maps of maps

A value is found under two keys.  `m[g]` inserts an empty inner map where there is none, and an
inner map that becomes empty is removed by hand.

* `get m g`  the inner map, empty where there is none;
* `find₂ m g k`  the value under two keys;
* `put`, `drop`  `m[g][k] = v`, and `m[g].erase(k)` with the removal of an empty `m[g]`;
* `find₂_put`, `find₂_drop`  only this value comes or goes;
* `pairs`  the pairs of keys, without repetition, `pairs_put` and `pairs_drop`.
-/

namespace TorchCraft.Lib.Nested
open OrdMap List

variable {G K V : Type*} [LinearOrder G] [LinearOrder K] (m : OrdMap G (OrdMap K V))

def get (g : G) : OrdMap K V := (m.find g).getD empty

def find₂ (g : G) (k : K) : Option V := (get m g).find k

def put (g : G) (k : K) (v : V) : OrdMap G (OrdMap K V) := m.assign g ((get m g).assign k v)

/-- the inner map, without `k`, is looked at before it is kept -/
def drop (g : G) (k : K) : OrdMap G (OrdMap K V) :=
  let m' := m.assign g ((get m g).erase k)
  if (get m' g).entries = [] then m'.erase g else m'

/-- no inner map is empty -/
def Filled : Prop := ∀ g i, m.find g = some i → i.entries ≠ []

def pairs : List (G × K) := m.entries.flatMap fun e => e.2.entries.map fun e' => (e.1, e'.1)

section find
variable (g g' : G) (k k' : K) (v : V)

lemma get_assign (i : OrdMap K V) : get (m.assign g i) g' = if g' = g then i else get m g' := by
  unfold get
  rw [find_assign]
  split <;> rfl

lemma get_erase : get (m.erase g) g' = if g' = g then empty else get m g' := by
  unfold get
  rw [find_erase]
  split <;> rfl

lemma find₂_assign {i : OrdMap K V} {v : Option V}
    (hi : ∀ k', i.find k' = if k' = k then v else find₂ m g k') :
    find₂ (m.assign g i) g' k' = if g' = g ∧ k' = k then v else find₂ m g' k' := by
  rw [find₂, get_assign]
  by_cases hg : g' = g
  · rw [if_pos hg, hi, hg]
    simp only [true_and]
  · rw [if_neg hg, if_neg fun h => hg h.1]
    rfl

lemma find₂_put :
    find₂ (put m g k v) g' k' = if g' = g ∧ k' = k then some v else find₂ m g' k' :=
  find₂_assign m g g' k k' fun _ => find_assign ..

lemma find_of_entries {m : OrdMap K V} (h : m.entries = []) (k : K) : m.find k = none := by
  unfold OrdMap.find
  rw [h]
  rfl

lemma find₂_drop :
    find₂ (drop m g k) g' k' = if g' = g ∧ k' = k then none else find₂ m g' k' := by
  have hassign : find₂ (m.assign g ((get m g).erase k)) g' k'
      = if g' = g ∧ k' = k then none else find₂ m g' k' :=
    find₂_assign m g g' k k' fun _ => find_erase ..
  unfold drop
  dsimp only
  split
  next hnil =>
    rw [← hassign]
    unfold find₂
    rw [get_erase]
    by_cases hg : g' = g
    · rw [if_pos hg, hg, find_of_entries hnil]
      rfl
    · rw [if_neg hg]
  · exact hassign

end find

section filled
variable {m}

lemma filled_empty : Filled (empty : OrdMap G (OrdMap K V)) := by
  intro g i h
  rw [find_empty] at h
  cases h

lemma entries_of_find {i : OrdMap K V} {k : K} {v : V} (h : i.find k = some v) :
    i.entries ≠ [] := by
  intro hnil
  rw [find_of_entries hnil] at h
  cases h

lemma filled_put (h : Filled m) (g : G) (k : K) (v : V) : Filled (put m g k v) := by
  intro g' i hi
  unfold put at hi
  rw [find_assign] at hi
  split at hi
  · cases hi
    refine entries_of_find (k := k) (v := v) ?_
    rw [find_assign, if_pos rfl]
  · exact h g' i hi

lemma filled_drop (h : Filled m) (g : G) (k : K) : Filled (drop m g k) := by
  intro g' i hi
  unfold drop at hi
  dsimp only at hi
  split at hi
  · rw [find_erase] at hi
    split at hi
    · cases hi
    next hg =>
      rw [find_assign, if_neg hg] at hi
      exact h g' i hi
  next hne =>
    rw [find_assign] at hi
    split at hi
    · cases hi
      rwa [get_assign, if_pos rfl] at hne
    · exact h g' i hi

end filled

section pairs
variable {m}

lemma mem_pairs {g : G} {k : K} : (g, k) ∈ pairs m ↔ (find₂ m g k).isSome := by
  unfold pairs find₂ get
  rw [mem_flatMap]
  constructor
  · rintro ⟨⟨g', i⟩, hi, hk⟩
    obtain ⟨⟨k', v⟩, hv, he⟩ := mem_map.mp hk
    cases he
    rw [(find_eq_some m g' i).mpr hi, Option.getD_some, (find_eq_some i k' v).mpr hv]
    rfl
  · intro h
    cases hi : m.find g with
    | none =>
      rw [hi] at h
      cases h
    | some i =>
      rw [hi, Option.getD_some] at h
      obtain ⟨v, hv⟩ := Option.isSome_iff_exists.mp h
      exact ⟨(g, i), (find_eq_some m g i).mp hi,
        mem_map.mpr ⟨(k, v), (find_eq_some i k v).mp hv, rfl⟩⟩

lemma entries_of_pairs (h : Filled m) (hp : pairs m = []) : m.entries = [] := by
  cases he : m.entries with
  | nil => rfl
  | cons e es =>
    have hmem : e ∈ m.entries := he ▸ mem_cons_self ..
    have hne := h e.1 e.2 ((find_eq_some m e.1 e.2).mpr hmem)
    have hnil := flatMap_eq_nil_iff.mp hp e hmem
    exact absurd (map_eq_nil_iff.mp hnil) hne

lemma nodup_pairs : (pairs m).Nodup := by
  unfold pairs
  rw [nodup_flatMap]
  constructor
  · intro e _
    have hkeys := e.2.nodup_keys.map (f := Prod.mk e.1) fun _ _ h => (Prod.mk.inj h).2
    rwa [map_map] at hkeys
  · refine m.sorted.imp fun hlt => ?_
    intro p hp hp'
    obtain ⟨_, _, rfl⟩ := mem_map.mp hp
    obtain ⟨_, _, he⟩ := mem_map.mp hp'
    exact absurd (congrArg Prod.fst he) (ne_of_gt hlt)

lemma pairs_perm {m' : OrdMap G (OrdMap K V)} {g : G} {k : K} (h : find₂ m g k = none)
    (h' : ∀ g' k', (find₂ m' g' k').isSome ↔ g' = g ∧ k' = k ∨ (find₂ m g' k').isSome) :
    (pairs m').Perm ((g, k) :: pairs m) := by
  have hnew : (g, k) ∉ pairs m := by
    rw [mem_pairs, h]
    exact Bool.false_ne_true
  refine (perm_ext_iff_of_nodup nodup_pairs (nodup_cons.mpr ⟨hnew, nodup_pairs⟩)).mpr ?_
  rintro ⟨g', k'⟩
  rw [mem_pairs, h', mem_cons, mem_pairs, Prod.mk.injEq]

lemma pairs_put {g : G} {k : K} (h : find₂ m g k = none) (v : V) :
    (pairs (put m g k v)).Perm ((g, k) :: pairs m) := by
  refine pairs_perm h fun g' k' => ?_
  rw [find₂_put]
  split <;> simp [*]

lemma pairs_drop {g : G} {k : K} (h : (find₂ m g k).isSome) :
    (pairs m).Perm ((g, k) :: pairs (drop m g k)) := by
  refine pairs_perm (by rw [find₂_drop, if_pos ⟨rfl, rfl⟩]) fun g' k' => ?_
  rw [find₂_drop]
  split <;> simp [*]

end pairs
end TorchCraft.Lib.Nested
