import Mathlib.Data.List.DropRight
import Mathlib.Data.List.Iterate

/-!
# Strings and paths: `common/str.cpp` and `common/fsutils.cpp`

* `stringSplit`;
* `basename`, `dirname`  compared with the `components` of a path;
* `mkdir`.
-/

namespace TorchCraft.Common
open List

section split
variable (sep : UInt8) (max : Nat)

/-- the loop: `cur` are the bytes from `bptr` to `eptr`, `rest` those from `eptr` on -/
def splitLoop (result : List (List UInt8)) (cur : List UInt8) : List UInt8 → List (List UInt8)
  | [] => result ++ [cur]
  | c :: rest =>
    if c = sep then
      if (result ++ [cur]).length = max ∧ rest ≠ [] then result ++ [cur] ++ [rest]
      else splitLoop (result ++ [cur]) [] rest
    else splitLoop result (cur ++ [c]) rest

def stringSplit (s : List UInt8) : List (List UInt8) :=
  if max = 0 then [s] else splitLoop sep max [] [] s

variable {sep max}

-- the limit is reached at the end of the string only, where the loop does not break
lemma splitLoop_spec {result : List (List UInt8)} {cur rest : List UInt8}
    (hr : result.length < max ∨ rest = []) (hc : sep ∉ cur) :
    ∃ parts, splitLoop sep max result cur rest = result ++ parts ∧
      [sep].intercalate parts = cur ++ rest ∧
      parts.length = min (max - result.length) (rest.count sep) + 1 ∧
      ∀ p ∈ parts.dropLast, sep ∉ p := by
  induction rest generalizing result cur with
  | nil => exact ⟨[cur], rfl, by simp, by simp, nofun⟩
  | cons c rest ih =>
    have hr : result.length < max := hr.resolve_right nofun
    unfold splitLoop
    split
    next h =>
      subst h
      rw [count_cons_self]
      split
      next h => exact ⟨[cur, rest], by simp, by simp [intercalate], by grind, by simpa⟩
      next h =>
        have hr : (result ++ [cur]).length < max ∨ rest = [] := by grind
        obtain ⟨parts, heq, hjoin, hlen, hfree⟩ := ih hr not_mem_nil
        have hne : parts ≠ [] := ne_nil_of_length_pos (by omega)
        refine ⟨cur :: parts, by rw [heq, append_assoc]; rfl, ?_, by grind, ?_⟩
        · rw [intercalate_cons_of_ne_nil hne, hjoin, append_assoc]
          rfl
        · rw [dropLast_cons_of_ne_nil hne]
          exact forall_mem_cons.mpr ⟨hc, hfree⟩
    next h =>
      have hc : sep ∉ cur ++ [c] := by simpa [hc] using Ne.symm h
      obtain ⟨parts, heq, hjoin, hspec⟩ := ih (.inl hr) hc
      rw [append_assoc] at hjoin
      rw [count_cons_of_ne h]
      exact ⟨parts, heq, hjoin, hspec⟩

theorem stringSplit_spec (s : List UInt8) :
    [sep].intercalate (stringSplit sep max s) = s ∧
      (stringSplit sep max s).length = min max (s.count sep) + 1 ∧
      ∀ p ∈ (stringSplit sep max s).dropLast, sep ∉ p := by
  unfold stringSplit
  split
  next h => exact ⟨by simp, by simp [h], nofun⟩
  next h =>
    have hr : ([] : List (List UInt8)).length < max ∨ s = [] := .inl (Nat.pos_of_ne_zero h)
    obtain ⟨parts, heq, hspec⟩ := splitLoop_spec hr not_mem_nil
    rw [heq]
    exact hspec

end split

/-! ## Paths -/

abbrev Path := List Char

variable {path : Path}

section mkdir
variable (isdir createDir : Path → Bool)

inductive Failure where
  | assertion
  | createDir
  deriving DecidableEq

/-- `mkdir` has nothing to do -/
def isDone (path : Path) : Bool := path = [] || path = ['/'] || path = ['.'] || isdir path

end mkdir

end TorchCraft.Common
