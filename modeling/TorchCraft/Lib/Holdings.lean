import Mathlib.Data.List.Nodup

/-!
# Cells that are held by owners

A cell is a flag, and an owner holds a list of cells.  `Exactly` says that the flags that are set
are the disjoint union of what the owners hold.

* `Exactly.acquire`  an owner without cells takes free ones;
* `Exactly.release`  an owner gives all its cells back;
* `Exactly.congr`  the owners hold the same as before.
-/

set_option linter.unusedSectionVars false

namespace TorchCraft.Lib
open Function
variable {X K : Type*} [DecidableEq X] [DecidableEq K]

/-- the flags after setting those of a list of cells -/
def setAll (flags : X → Bool) (cells : List X) (b : Bool) : X → Bool :=
  fun x => if x ∈ cells then b else flags x

/-- the set flags are the disjoint union of the holdings -/
structure Exactly (flags : X → Bool) (hold : K → List X) : Prop where
  exact : ∀ x, flags x = true ↔ ∃ k, x ∈ hold k
  disjoint : ∀ x k k', x ∈ hold k → x ∈ hold k' → k = k'
  nodup : ∀ k, (hold k).Nodup

@[simp] lemma setAll_nil (flags : X → Bool) (b : Bool) : setAll flags [] b = flags :=
  funext fun _ => if_neg List.not_mem_nil

lemma mem_update {hold : K → List X} {k j : K} {cells : List X} {x : X} :
    x ∈ update hold k cells j ↔ (j = k ∧ x ∈ cells) ∨ (j ≠ k ∧ x ∈ hold j) := by
  by_cases hjk : j = k
  · rw [hjk, update_self]
    simp
  · rw [update_of_ne hjk]
    simp [hjk]

namespace Exactly
variable {flags : X → Bool} {hold hold' : K → List X} {k : K}

section
variable (h : Exactly flags hold)
include h

lemma congr (heq : ∀ k, hold' k = hold k) : Exactly flags hold' := by
  rw [funext heq]
  exact h

/-- an owner gives its cells back and takes others -/
lemma exchange (k : K) {cells : List X} (hn : cells.Nodup)
    (hnew : ∀ x ∈ cells, ∀ j, j ≠ k → x ∉ hold j) :
    Exactly (setAll (setAll flags (hold k) false) cells true) (update hold k cells) where
  exact := by
    intro x
    unfold setAll
    by_cases hx : x ∈ cells
    · rw [if_pos hx]
      exact ⟨fun _ => ⟨k, mem_update.mpr (.inl ⟨rfl, hx⟩)⟩, fun _ => rfl⟩
    · have hothers : (∃ j, x ∈ update hold k cells j) ↔ ∃ j, j ≠ k ∧ x ∈ hold j := by
        simp only [mem_update, hx, and_false, false_or]
      rw [if_neg hx, hothers]
      by_cases hk : x ∈ hold k
      · rw [if_pos hk]
        refine ⟨nofun, ?_⟩
        rintro ⟨j, hjk, hj⟩
        exact absurd (h.disjoint x j k hj hk) hjk
      · rw [if_neg hk, h.exact]
        constructor
        · rintro ⟨j, hj⟩
          exact ⟨j, fun he => hk (he ▸ hj), hj⟩
        · rintro ⟨j, -, hj⟩
          exact ⟨j, hj⟩
  disjoint := by
    intro x i j hi hj
    rcases mem_update.mp hi with ⟨hik, hi⟩ | ⟨hik, hi⟩
    · rcases mem_update.mp hj with ⟨hjk, -⟩ | ⟨hjk, hj⟩
      · exact hik.trans hjk.symm
      · exact absurd hj (hnew x hi j hjk)
    · rcases mem_update.mp hj with ⟨-, hj⟩ | ⟨-, hj⟩
      · exact absurd hi (hnew x hj i hik)
      · exact h.disjoint x i j hi hj
  nodup := (forall_update_iff hold fun _ l => l.Nodup).mpr ⟨hn, fun j _ => h.nodup j⟩

lemma acquire (hk : hold k = []) {cells : List X} (hn : cells.Nodup)
    (hfree : ∀ x ∈ cells, flags x = false) :
    Exactly (setAll flags cells true) (update hold k cells) := by
  -- a free cell is nobody's
  have hnew : ∀ x ∈ cells, ∀ j, j ≠ k → x ∉ hold j := by
    intro x hx j _ hj
    have := (h.exact x).mpr ⟨j, hj⟩
    rw [hfree x hx] at this
    exact Bool.false_ne_true this
  have hall := h.exchange k hn hnew
  rwa [hk, setAll_nil] at hall

lemma release (k : K) : Exactly (setAll flags (hold k) false) (update hold k []) :=
  h.exchange k List.nodup_nil nofun

end

end Exactly
end TorchCraft.Lib
