import Mathlib.Data.List.Basic

/-!
# Cutting a list with gaps into batches

A list of optional values is read from the front; a batch is full when `n` values have been found,
and the gaps in between are skipped.
-/

namespace TorchCraft.Lib
open List
variable {T : Type*}

/-- the number of entries up to the `n`-th value, or all of them -/
def cut : Nat → List (Option T) → Nat
  | 0, _ => 0
  | _ + 1, [] => 0
  | n + 1, none :: ds => cut (n + 1) ds + 1
  | n + 1, some _ :: ds => cut n ds + 1

@[simp] lemma cut_zero (ds : List (Option T)) : cut 0 ds = 0 := by cases ds <;> rfl

@[simp] lemma cut_nil (n : Nat) : cut n ([] : List (Option T)) = 0 := by cases n <;> rfl

@[simp] lemma cut_none (n : Nat) (ds : List (Option T)) :
    cut (n + 1) (none :: ds) = cut (n + 1) ds + 1 := rfl

@[simp] lemma cut_some (n : Nat) (v : T) (ds : List (Option T)) :
    cut (n + 1) (some v :: ds) = cut n ds + 1 := rfl

variable {n : Nat} {ds : List (Option T)}

lemma cut_pos (hn : 1 ≤ n) (hd : ds ≠ []) : 1 ≤ cut n ds := by
  obtain ⟨m, rfl⟩ := Nat.exists_eq_add_of_le' hn
  cases ds with
  | nil => exact absurd rfl hd
  | cons d ds => cases d <;> simp

lemma length_cut (n : Nat) (ds : List (Option T)) :
    ((ds.take (cut n ds)).filterMap id).length ≤ n ∧
      (cut n ds < ds.length → ((ds.take (cut n ds)).filterMap id).length = n) := by
  induction ds generalizing n with
  | nil => simp
  | cons d ds ih =>
    cases n with
    | zero => simp
    | succ n =>
      cases d with
      | none =>
        obtain ⟨hle, heq⟩ := ih (n + 1)
        simp only [cut_none, take_succ_cons, length_cons, Nat.add_lt_add_iff_right]
        exact ⟨hle, heq⟩
      | some v =>
        obtain ⟨hle, heq⟩ := ih n
        simp only [cut_some, take_succ_cons, length_cons, Nat.add_lt_add_iff_right]
        exact ⟨Nat.succ_le_succ hle, fun h => congrArg (· + 1) (heq h)⟩

def batches (n : Nat) (ds : List (Option T)) : List (List T) :=
  if _h : 1 ≤ n ∧ ds ≠ [] then
    (ds.take (cut n ds)).filterMap id :: batches n (ds.drop (cut n ds))
  else []
termination_by ds.length
decreasing_by
  have hp := cut_pos _h.1 _h.2
  have hl := List.length_pos_iff.mpr _h.2
  rw [List.length_drop]
  omega

@[simp] lemma batches_nil (n : Nat) : batches n ([] : List (Option T)) = [] := by
  rw [batches, dif_neg (by simp)]

lemma batches_of_ne (hn : 1 ≤ n) (hd : ds ≠ []) :
    batches n ds = (ds.take (cut n ds)).filterMap id :: batches n (ds.drop (cut n ds)) := by
  rw [batches, dif_pos ⟨hn, hd⟩]

lemma batches_eq_nil (hn : 1 ≤ n) : batches n ds = [] ↔ ds = [] := by
  refine ⟨fun h => ?_, fun h => by rw [h, batches_nil]⟩
  by_contra hd
  rw [batches_of_ne hn hd] at h
  exact absurd h (by simp)

/-- **Nothing is lost.** -/
theorem batches_flatten (hn : 1 ≤ n) (ds : List (Option T)) :
    (batches n ds).flatten = ds.filterMap id := by
  by_cases hd : ds = []
  · rw [hd, batches_nil]
    rfl
  · have hp := cut_pos hn hd
    have hl := length_pos_iff.mpr hd
    rw [batches_of_ne hn hd, flatten_cons, batches_flatten hn (ds.drop (cut n ds)),
      ← filterMap_append, take_append_drop]
termination_by ds.length
decreasing_by
  rw [length_drop]
  omega

/-- **All batches but the last are full.** -/
theorem length_of_mem_dropLast (hn : 1 ≤ n) (ds : List (Option T)) {b : List T}
    (hb : b ∈ (batches n ds).dropLast) : b.length = n := by
  by_cases hd : ds = []
  · rw [hd, batches_nil] at hb
    nomatch hb
  · have hp := cut_pos hn hd
    have hl := length_pos_iff.mpr hd
    rw [batches_of_ne hn hd] at hb
    by_cases hr : ds.drop (cut n ds) = []
    · rw [hr, batches_nil] at hb
      nomatch hb
    · have hne : batches n (ds.drop (cut n ds)) ≠ [] := fun h => hr ((batches_eq_nil hn).mp h)
      rw [dropLast_cons_of_ne_nil hne] at hb
      rcases mem_cons.mp hb with rfl | hb
      · exact (length_cut n ds).2 (Nat.not_le.mp fun h => hr (drop_eq_nil_iff.mpr h))
      · exact length_of_mem_dropLast hn (ds.drop (cut n ds)) hb
termination_by ds.length
decreasing_by
  rw [length_drop]
  omega

/-- the positions at which a batch begins, or at which the list ends -/
inductive Boundary (n : Nat) (ds : List (Option T)) : Nat → Prop
  | zero : Boundary n ds 0
  | next {p : Nat} (h : Boundary n ds p) (hp : p < ds.length) :
      Boundary n ds (p + cut n (ds.drop p))

end TorchCraft.Lib
