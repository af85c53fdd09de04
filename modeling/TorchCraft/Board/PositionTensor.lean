import Mathlib.Algebra.Order.Field.Rat
import TorchCraft.Lib.Fuel

/-!
# `UPCTuple::positionTensor` of a tensor

A position given as a coarse tensor is spread over the walk tiles: a cell becomes a block of
`scale × scale` tiles.  The two loops over a block have the indices `dy` and `dx`, but advance `y`
and `x`, the indices of the loops around them.

* `loopX_spin`, `loopY_spin`  a positive cell is never left;
* `positionTensor_iff`  the function returns exactly if there is no positive cell.

Integers are unbounded: after `2^31` rounds the behaviour of the source is undefined.
-/

namespace TorchCraft.PositionTensor
open Lib

structure Tensor where
  rows : Nat
  cols : Nat
  get : Nat → Nat → ℚ

/-- values by `y` and `x`; what has not been written is zero -/
abbrev Acc := Nat → Nat → ℚ

section loops
variable (scale : Nat)

/-- `for (int dx = x * scale; dx < (x + 1) * scale; x++) row[dx] = p` -/
def loopDx (p : ℚ) (dy dx : Nat) : Nat → Nat → Acc → Run (Nat × Acc)
  | 0, _, _ => .spin
  | n + 1, x, acc =>
    if dx < (x + 1) * scale then
      loopDx p dy dx n (x + 1) (Function.update acc dy (Function.update (acc dy) dx p))
    else .ret (x, acc)

/-- `for (int dy = y * scale; dy < (y + 1) * scale; y++)` -/
def loopDy (p : ℚ) (dy : Nat) : Nat → Nat → Nat → Acc → Run (Nat × Nat × Acc)
  | 0, _, _, _ => .spin
  | n + 1, y, x, acc =>
    if dy < (y + 1) * scale then
      (loopDx scale p dy (x * scale) n x acc).bind fun r => loopDy p dy n (y + 1) r.1 r.2
    else .ret (y, x, acc)

variable (t : Tensor)

def loopX : Nat → Nat → Nat → Acc → Run (Nat × Acc)
  | 0, _, _, _ => .spin
  | n + 1, y, x, acc =>
    if x < t.cols then
      let p := t.get y x
      if p ≤ 0 then loopX n y (x + 1) acc
      else (loopDy scale (p / (scale * scale)) (y * scale) n y x acc).bind fun r =>
        loopX n r.1 (r.2.1 + 1) r.2.2
    else .ret (y, acc)

def loopY : Nat → Nat → Acc → Run Acc
  | 0, _, _ => .spin
  | n + 1, y, acc =>
    if y < t.rows then (loopX scale t n y 0 acc).bind fun r => loopY n (r.1 + 1) r.2
    else .ret acc

def positionTensor (n : Nat) : Run Acc := loopY scale t n 0 fun _ _ => 0

def spread : Acc := fun y x =>
  if y < t.rows * scale ∧ x < t.cols * scale then
    max 0 (t.get (y / scale) (x / scale)) / scale ^ 2
  else 0

end loops

variable {scale : Nat} {t : Tensor} {acc : Acc}

section
variable (hs : 1 ≤ scale)
include hs

lemma lt_block {i j : Nat} (h : i ≤ j) : i * scale < (j + 1) * scale :=
  Nat.mul_lt_mul_of_lt_of_le (Nat.lt_succ_of_le h) le_rfl hs

lemma loopDx_spin (p : ℚ) (dy : Nat) {x x' : Nat} (h : x ≤ x') (n : Nat) :
    loopDx scale p dy (x * scale) n x' acc = .spin := by
  induction n generalizing x' acc with
  | zero => rfl
  | succ n ih =>
    rw [loopDx, if_pos (lt_block hs h)]
    exact ih (Nat.le_succ_of_le h)

lemma loopDy_spin (p : ℚ) (y x n : Nat) : loopDy scale p (y * scale) n y x acc = .spin := by
  cases n with
  | zero => rfl
  | succ n => rw [loopDy, if_pos (lt_block hs le_rfl), loopDx_spin hs p _ le_rfl]; rfl

lemma loopX_spin {y x x' : Nat} (hx : x ≤ x') (hx' : x' < t.cols)
    (hp : 0 < t.get y x') (n : Nat) : loopX scale t n y x acc = .spin := by
  induction n generalizing x with
  | zero => rfl
  | succ n ih =>
    rw [loopX, if_pos (by omega)]
    dsimp only
    split
    next hle =>
      have hne : x ≠ x' := fun h => absurd hp (not_lt.mpr (h ▸ hle))
      exact ih (by omega)
    next => rw [loopDy_spin hs]; rfl

end

lemma loopX_eq {y x : Nat} (h : ∀ x' < t.cols, t.get y x' ≤ 0) (n : Nat) :
    loopX scale t n y x acc = if t.cols - x < n then .ret (y, acc) else .spin := by
  induction n generalizing x with
  | zero => rfl
  | succ n ih =>
    rw [loopX]
    split
    next hx =>
      rw [if_pos (h x hx), ih]
      exact if_congr (by omega) rfl rfl
    next hx => rw [if_pos (by omega)]

lemma loopY_spin (hs : 1 ≤ scale) {y y' x' : Nat} (hy : y ≤ y') (hy' : y' < t.rows)
    (hx' : x' < t.cols) (hp : 0 < t.get y' x') (n : Nat) : loopY scale t n y acc = .spin := by
  induction n generalizing y acc with
  | zero => rfl
  | succ n ih =>
    rw [loopY, if_pos (by omega)]
    by_cases hrow : ∃ x < t.cols, 0 < t.get y x
    · obtain ⟨x, hx, hpos⟩ := hrow
      rw [loopX_spin hs (Nat.zero_le x) hx hpos]
      rfl
    · have hrow : ∀ x < t.cols, t.get y x ≤ 0 := fun x hx => not_lt.mp fun h => hrow ⟨x, hx, h⟩
      have hne : y ≠ y' := fun h => absurd hp (not_lt.mpr (h ▸ hrow x' hx'))
      rw [loopX_eq hrow]
      split
      · exact ih (by omega)
      · rfl

lemma loopY_ret {y : Nat} (h : ∀ y' < t.rows, ∀ x < t.cols, t.get y' x ≤ 0) {n : Nat}
    (hn : t.rows - y + t.cols < n) : loopY scale t n y acc = .ret acc := by
  induction n generalizing y with
  | zero => omega
  | succ n ih =>
    rw [loopY]
    split
    next hy =>
      rw [loopX_eq (h y hy), if_pos (by omega)]
      exact ih (by omega)
    next => rfl

lemma spread_of_nonpos (h : ∀ y < t.rows, ∀ x < t.cols, t.get y x ≤ 0) :
    spread scale t = fun _ _ => 0 := by
  funext y x
  unfold spread
  split
  next hin =>
    have hy : y / scale < t.rows := Nat.div_lt_of_lt_mul (by rw [Nat.mul_comm]; exact hin.1)
    have hx : x / scale < t.cols := Nat.div_lt_of_lt_mul (by rw [Nat.mul_comm]; exact hin.2)
    rw [max_eq_left (h _ hy _ hx), zero_div]
  next => rfl

/-- **`positionTensor` returns exactly if no cell is positive.**  -/
theorem positionTensor_iff (scale : Nat) (hs : 1 ≤ scale) (t : Tensor) :
    (Returns (positionTensor scale t) (spread scale t) ↔
      ∀ y < t.rows, ∀ x < t.cols, t.get y x ≤ 0) ∧
    ((∃ y < t.rows, ∃ x < t.cols, 0 < t.get y x) → ∀ n, positionTensor scale t n = .spin) := by
  have hspin : (∃ y < t.rows, ∃ x < t.cols, 0 < t.get y x) →
      ∀ n, positionTensor scale t n = .spin := by
    rintro ⟨y, hy, x, hx, hp⟩ n
    exact loopY_spin hs (Nat.zero_le y) hy hx hp n
  refine ⟨⟨fun ⟨n, hn⟩ y hy x hx => not_lt.mp fun hp => ?_, fun h => ?_⟩, hspin⟩
  · have hloop := hspin ⟨y, hy, x, hx, hp⟩ n
    rw [hn n le_rfl] at hloop
    cases hloop
  · refine ⟨t.rows + t.cols + 1, fun n hn => ?_⟩
    rw [spread_of_nonpos h]
    exact loopY_ret h (by omega)

/-- a tensor without a positive cell -/
theorem positionTensor_iff_zero :
    Returns (positionTensor 4 ⟨2, 3, fun _ _ => 0⟩) (spread 4 ⟨2, 3, fun _ _ => 0⟩) :=
  (positionTensor_iff 4 (by decide) _).1.mpr fun _ _ _ _ => le_rfl

/-- one positive cell should become four tiles, and the loop over them never ends -/
theorem positionTensor_one_cell :
    spread 2 ⟨1, 1, fun _ _ => 1⟩ 1 1 = 1 / 4 ∧
      ∀ n, positionTensor 2 ⟨1, 1, fun _ _ => 1⟩ n = .spin :=
  ⟨by decide +kernel, loopY_spin (by decide) le_rfl Nat.one_pos Nat.one_pos one_pos⟩

end TorchCraft.PositionTensor
