import Mathlib.Data.List.Basic
import Mathlib.Data.List.Induction
import Mathlib.Data.Nat.Digits.Defs

/-!
# Decimal numbers as bytes

* `decimal n`  the ASCII digits of `n`, most significant first, as a stream prints them;
* `value bs`  the number a run of digits stands for;
* `value_decimal`  printing and reading back;
* `value_append_ge` a number with more digits behind it is larger.
-/

namespace TorchCraft.Lib.Decimal
open List

def digit (d : Nat) : UInt8 := UInt8.ofNat (48 + d)

def isDigit (b : UInt8) : Bool := decide (48 ≤ b.toNat ∧ b.toNat ≤ 57)

def decimal (n : Nat) : List UInt8 :=
  if n = 0 then [digit 0] else (Nat.digits 10 n).reverse.map digit

def value (bs : List UInt8) : Nat := bs.foldl (fun v b => 10 * v + (b.toNat - 48)) 0

lemma toNat_digit {d : Nat} (h : d < 10) : (digit d).toNat = 48 + d := by
  unfold digit
  rw [UInt8.toNat_ofNat', Nat.mod_eq_of_lt (by omega)]

lemma isDigit_digit {d : Nat} (h : d < 10) : isDigit (digit d) := by
  unfold isDigit
  rw [toNat_digit h, decide_eq_true_eq]
  omega

lemma isDigit_of_mem_decimal {n : Nat} {b : UInt8} (hb : b ∈ decimal n) : isDigit b := by
  unfold decimal at hb
  split at hb
  · rw [mem_singleton.mp hb]
    exact isDigit_digit (by omega)
  · obtain ⟨d, hd, rfl⟩ := mem_map.mp hb
    exact isDigit_digit (Nat.digits_lt_base (by omega) (mem_reverse.mp hd))

variable (bs : List UInt8)

lemma value_append_singleton (b : UInt8) :
    value (bs ++ [b]) = 10 * value bs + (b.toNat - 48) := by
  rw [value, foldl_append]
  rfl

lemma value_reverse_digits (ds : List Nat) (h : ∀ d ∈ ds, d < 10) :
    value (ds.reverse.map digit) = Nat.ofDigits 10 ds := by
  induction ds with
  | nil => rfl
  | cons d ds ih =>
    rw [reverse_cons, map_append, map_singleton, value_append_singleton,
      ih (fun d hd => h d (mem_cons_of_mem _ hd)), Nat.ofDigits_cons,
      toNat_digit (h d (mem_cons_self ..))]
    omega

variable (n : Nat)

lemma value_decimal : value (decimal n) = n := by
  unfold decimal
  split
  next h => rw [h]; rfl
  next =>
    rw [value_reverse_digits _ (fun d hd => Nat.digits_lt_base (by omega) hd), Nat.ofDigits_digits]

lemma le_value_append (ds : List UInt8) : value bs ≤ value (bs ++ ds) := by
  induction ds using reverseRecOn with
  | nil => rw [append_nil]
  | append_singleton ds d ih =>
    rw [← append_assoc, value_append_singleton]
    omega

lemma value_append_ge {ds : List UInt8} (h : ds ≠ []) : 10 * value bs ≤ value (bs ++ ds) := by
  rw [← dropLast_append_getLast h, ← append_assoc, value_append_singleton]
  have := le_value_append bs ds.dropLast
  omega

lemma takeWhile_decimal_append (bs : List UInt8) :
    (decimal n ++ bs).takeWhile isDigit = decimal n ++ bs.takeWhile isDigit :=
  takeWhile_append_of_pos fun _ hb => isDigit_of_mem_decimal hb

lemma dropWhile_decimal_append (bs : List UInt8) :
    (decimal n ++ bs).dropWhile isDigit = bs.dropWhile isDigit :=
  dropWhile_append_of_pos fun _ hb => isDigit_of_mem_decimal hb

lemma decimal_ne_nil : decimal n ≠ [] := by
  unfold decimal
  split
  · exact cons_ne_nil _ _
  next h =>
    rw [Ne, map_eq_nil_iff, reverse_eq_nil_iff]
    exact Nat.digits_ne_nil_iff_ne_zero.mpr h

end TorchCraft.Lib.Decimal
