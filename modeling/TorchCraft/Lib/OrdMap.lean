import Mathlib.Order.Lattice
import TorchCraft.Lib.Loops

/-!
# Ordered maps

`OrdMap K V` is a finite map kept as its list of entries in ascending key order, the order in
which `std::map` is iterated.  The order is a field, so an unsorted map cannot be built.

* `OrdMap.find`  the value of a key (lemma `find_eq_some`: the entries and nothing else);
* `OrdMap.emplace`  insertion that leaves a present key alone;
* `OrdMap.assign`  insertion that overwrites;
* `OrdMap.erase`  removal of a key, `OrdMap.restrict`: of all keys without a property;
* `entries_assign`, `entries_erase`  how the entries change;
* `OrdMap.rentries`  the entries in descending order.
-/

namespace TorchCraft.Lib
open List

structure OrdMap (K V : Type*) [LinearOrder K] where
  entries : List (K × V)
  sorted : entries.Pairwise (fun a b => a.1 < b.1)

namespace OrdMap
variable {K V : Type*} [LinearOrder K]

def empty : OrdMap K V := ⟨[], List.Pairwise.nil⟩

def find (m : OrdMap K V) (k : K) : Option V :=
  (m.entries.find? (fun e => decide (e.1 = k))).map Prod.snd

/-- put `g` of the old value at a present key, `v` at an absent one -/
def alterList (k : K) (g : V → V) (v : V) : List (K × V) → List (K × V)
  | [] => [(k, v)]
  | e :: es =>
    if k < e.1 then (k, v) :: e :: es
    else if k = e.1 then (e.1, g e.2) :: es
    else e :: alterList k g v es

variable {k : K}

lemma mem_alterList_key {g : V → V} {v : V} {es : List (K × V)} {e : K × V}
    (h : e ∈ alterList k g v es) : e.1 = k ∨ e ∈ es := by
  induction es with
  | nil => exact Or.inl (by simp [alterList] at h; rw [h])
  | cons a es ih =>
    unfold alterList at h
    split at h
    · rcases mem_cons.mp h with rfl | h
      · exact Or.inl rfl
      · exact Or.inr h
    · split at h
      next e' =>
        rcases mem_cons.mp h with rfl | h
        · exact Or.inl e'.symm
        · exact Or.inr (mem_cons_of_mem _ h)
      next =>
        rcases mem_cons.mp h with rfl | h
        · exact Or.inr (mem_cons_self ..)
        · exact (ih h).imp id (mem_cons_of_mem _)

lemma sorted_alterList (k : K) (g : V → V) (v : V) (es : List (K × V))
    (hs : es.Pairwise (fun a b => a.1 < b.1)) :
    (alterList k g v es).Pairwise (fun a b => a.1 < b.1) := by
  induction es with
  | nil => exact pairwise_singleton _ _
  | cons a es ih =>
    obtain ⟨ha, hes⟩ := pairwise_cons.mp hs
    unfold alterList
    split
    next hlt =>
      refine pairwise_cons.mpr ⟨fun b hb => ?_, hs⟩
      rcases mem_cons.mp hb with rfl | hb
      · exact hlt
      · exact lt_trans hlt (ha b hb)
    next hlt =>
      split
      · exact pairwise_cons.mpr ⟨ha, hes⟩
      next hne =>
        refine pairwise_cons.mpr ⟨fun b hb => ?_, ih hes⟩
        rcases mem_alterList_key hb with e | hb
        · rw [e]
          exact lt_of_le_of_ne (not_lt.mp hlt) (Ne.symm hne)
        · exact ha b hb

variable (m : OrdMap K V)

def alter (k : K) (g : V → V) (v : V) : OrdMap K V :=
  ⟨alterList k g v m.entries, sorted_alterList k g v m.entries m.sorted⟩

def emplace (k : K) (v : V) : OrdMap K V := m.alter k id v

/-- `m[k] = v` -/
def assign (k : K) (v : V) : OrdMap K V := m.alter k (fun _ => v) v

def erase (k : K) : OrdMap K V :=
  ⟨m.entries.filter (fun e => decide (e.1 ≠ k)), m.sorted.sublist List.filter_sublist⟩

/-- removal of every key without `p` -/
def restrict (p : K → Bool) : OrdMap K V :=
  ⟨m.entries.filter (fun e => p e.1), m.sorted.sublist List.filter_sublist⟩

def rentries : List (K × V) := m.entries.reverse

/-! ## lookups -/

@[simp] lemma find_empty (k : K) : (empty : OrdMap K V).find k = none := rfl

lemma find_cons (e : K × V) (es : List (K × V)) (h : (e :: es).Pairwise (fun a b => a.1 < b.1))
    (k : K) : (OrdMap.mk (e :: es) h).find k
      = if e.1 = k then some e.2 else (OrdMap.mk es (List.pairwise_cons.mp h).2).find k := by
  by_cases hk : e.1 = k <;> simp [find, hk]

variable (m : OrdMap K V)

lemma nodup_keys : (m.entries.map Prod.fst).Nodup := pairwise_map.mpr (m.sorted.imp ne_of_lt)

lemma find_eq_some (k : K) (v : V) : m.find k = some v ↔ (k, v) ∈ m.entries := by
  rw [find, Option.map_eq_some_iff]
  constructor
  · rintro ⟨e, he, rfl⟩
    obtain rfl : e.1 = k := by simpa using find?_some he
    exact mem_of_find?_eq_some he
  · intro h
    have hsome : (m.entries.find? fun e => decide (e.1 = k)).isSome :=
      find?_isSome.mpr ⟨(k, v), h, decide_eq_true rfl⟩
    obtain ⟨e, he⟩ := Option.isSome_iff_exists.mp hsome
    have hk : e.1 = k := by simpa using find?_some he
    exact ⟨e, he, by rw [inj_on_of_nodup_map m.nodup_keys (mem_of_find?_eq_some he) h hk]⟩

lemma find_alter (k : K) (g : V → V) (v : V) (k' : K) :
    (m.alter k g v).find k' = if k' = k then some ((m.find k).elim v g) else m.find k' := by
  obtain ⟨es, hs⟩ := m
  induction es with
  | nil =>
    simp only [alter, alterList, find_cons, eq_comm (a := k)]
    rfl
  | cons e es ih =>
    obtain ⟨he, hes⟩ := pairwise_cons.mp hs
    by_cases hlt : k < e.1
    · have hout : (OrdMap.mk es hes).find k = none := by
        cases hf : (OrdMap.mk es hes).find k with
        | none => rfl
        | some w => exact absurd (he _ ((find_eq_some _ _ _).mp hf)) hlt.asymm
      simp only [alter, alterList, if_pos hlt, find_cons, if_neg hlt.ne', hout, eq_comm (a := k)]
      rfl
    · have hrest := ih hes
      simp only [alter] at hrest
      by_cases hk : k = e.1
      · subst hk
        simp only [alter, alterList, if_neg hlt, ↓reduceIte, find_cons, eq_comm (a := k')]
        split_ifs <;> rfl
      · simp only [alter, alterList, if_neg hlt, if_neg hk, find_cons, if_neg (Ne.symm hk), hrest]
        grind

lemma find_emplace (k k' : K) (v : V) (hk : m.find k = none) :
    (m.emplace k v).find k' = if k' = k then some v else m.find k' := by
  rw [emplace, find_alter, hk]
  rfl

lemma find_emplace_of_ne {k k' : K} (h : k' ≠ k) (v : V) :
    (m.emplace k v).find k' = m.find k' := by
  rw [emplace, find_alter, if_neg h]

lemma alterList_congr (g g' : V → V) (v : V) {es : List (K × V)}
    (h : ∀ e ∈ es, e.1 ≠ k) : alterList k g v es = alterList k g' v es := by
  induction es with
  | nil => rfl
  | cons e es ih =>
    have hk : k ≠ e.1 := (h e (mem_cons_self ..)).symm
    rw [alterList, alterList, if_neg hk, if_neg hk, ih fun e he => h e (mem_cons_of_mem _ he)]

lemma emplace_eq_assign {m : OrdMap K V} (v : V) (hk : m.find k = none) :
    m.emplace k v = m.assign k v := by
  have hne : ∀ e ∈ m.entries, e.1 ≠ k := by
    rintro ⟨k', w⟩ he rfl
    rw [(find_eq_some m k' w).mpr he] at hk
    nomatch hk
  show OrdMap.mk _ _ = OrdMap.mk _ _
  congr 1
  exact alterList_congr id (fun _ => v) v hne

lemma assign_assign (k : K) (v w : V) : (m.assign k v).assign k w = m.assign k w := by
  have hlist : ∀ es : List (K × V),
      alterList k (fun _ => w) w (alterList k (fun _ => v) v es) = alterList k (fun _ => w) w es := by
    intro es
    induction es with
    | nil => simp [alterList]
    | cons e es ih =>
      rw [alterList]
      by_cases hlt : k < e.1
      · simp [alterList, hlt]
      · by_cases hk : k = e.1
        · simp [alterList, hk]
        · simp [alterList, hlt, hk, ih]
  show OrdMap.mk _ _ = OrdMap.mk _ _
  congr 1
  exact hlist m.entries

lemma find_erase (k k' : K) : (m.erase k).find k' = if k' = k then none else m.find k' := by
  apply Option.ext
  intro v
  rw [find_eq_some]
  show (k', v) ∈ m.entries.filter (fun e => decide (e.1 ≠ k)) ↔ _
  rw [mem_filter]
  by_cases h : k' = k
  · simp [h]
  · simp [h, find_eq_some]

lemma find_assign (k k' : K) (v : V) :
    (m.assign k v).find k' = if k' = k then some v else m.find k' := by
  rw [assign, find_alter]
  cases m.find k <;> rfl

lemma find_foldl_erase (ks : List K) (k : K) :
    (ks.foldl erase m).find k = if k ∈ ks then none else m.find k :=
  Loops.foldl_at (fun m => m.find k) (fun _ => none) (fun _ => rfl) (fun m a => m.find_erase a k) ks m

lemma find_restrict (p : K → Bool) (k : K) (v : V) :
    (m.restrict p).find k = some v ↔ m.find k = some v ∧ p k := by
  rw [find_eq_some, find_eq_some]
  exact mem_filter

lemma mem_rentries (e : K × V) : e ∈ m.rentries ↔ m.find e.1 = some e.2 := by
  rw [rentries, mem_reverse, find_eq_some]

lemma nodup_entries : m.entries.Nodup := m.nodup_keys.of_map

lemma entries_perm {m m' : OrdMap K V} {v : V} (h : m.find k = none)
    (h' : ∀ k', m'.find k' = if k' = k then some v else m.find k') :
    m'.entries.Perm ((k, v) :: m.entries) := by
  have hnew : (k, v) ∉ m.entries := by
    rw [← find_eq_some, h]
    exact fun hv => by cases hv
  refine (perm_ext_iff_of_nodup (nodup_entries _)
    (nodup_cons.mpr ⟨hnew, nodup_entries m⟩)).mpr ?_
  rintro ⟨k', v'⟩
  rw [← find_eq_some, h', mem_cons, Prod.mk.injEq, ← find_eq_some]
  by_cases hk : k' = k
  · subst hk
    rw [if_pos rfl, h]
    constructor
    · intro hv
      exact .inl ⟨rfl, (Option.some.inj hv).symm⟩
    · rintro (⟨-, rfl⟩ | hv)
      · rfl
      · cases hv
  · rw [if_neg hk]
    exact ⟨.inr, fun hv => hv.resolve_left fun heq => hk heq.1⟩

lemma entries_assign {m : OrdMap K V} (h : m.find k = none) (v : V) :
    (m.assign k v).entries.Perm ((k, v) :: m.entries) :=
  entries_perm h fun _ => find_assign ..

lemma entries_erase {m : OrdMap K V} {v : V} (h : m.find k = some v) :
    m.entries.Perm ((k, v) :: (m.erase k).entries) := by
  refine entries_perm (by rw [find_erase, if_pos rfl]) fun k' => ?_
  rw [find_erase]
  split
  next hk => rw [hk, h]
  · rfl

lemma rentries_sorted : m.rentries.Pairwise (fun a b => b.1 < a.1) := by
  rw [rentries, pairwise_reverse]
  exact m.sorted

end OrdMap
end TorchCraft.Lib
