import Mathlib.Algebra.Order.Floor.Div

/-!
# Windows of a sequence

Elements are appended to a queue.  From time to time the first `L` elements are read, as a window,
and then the first `d` of them are dropped.

* `Slide d L`  the windows read so far start at `0`, `d`, `2 d`, … of what was appended;
* `Slide.push`  an element is appended;
* `Slide.cut`  a window is read;
* `getElem?_modifyAll` several places of a list are changed, each once;
* `Strided.tiled`  the last elements are sent once more at the end.
-/

namespace TorchCraft.Lib
open List Nat

variable {A : Type*}

structure Slide (d L : Nat) (appended queue : List A) (windows : List (List A)) : Prop where
  queue : queue = appended.drop (windows.length * d)
  room : windows.length * d ≤ appended.length
  windows : ∀ j w, windows[j]? = some w → w = (appended.drop (j * d)).take L ∧ w.length = L

namespace Slide
variable {d L : Nat} {appended queue : List A} {windows : List (List A)}

lemma nil (d L : Nat) : Slide d L ([] : List A) [] [] where
  queue := List.drop_nil.symm
  room := by rw [length_nil, zero_mul]; exact Nat.zero_le _
  windows j w h := by cases h

lemma push (h : Slide d L appended queue windows) (a : A) :
    Slide d L (appended ++ [a]) (queue ++ [a]) windows where
  queue := by rw [drop_append_of_le_length h.room, ← h.queue]
  room := by
    rw [length_append]
    exact le_add_right_of_le h.room
  windows j w hw := by
    obtain ⟨heq, hlen⟩ := h.windows j w hw
    refine ⟨?_, hlen⟩
    -- a window of full length does not reach the new element
    have hle : L ≤ (appended.drop (j * d)).length := by
      rw [heq, length_take] at hlen
      omega
    rw [heq]
    rcases Nat.le_or_ge (j * d) appended.length with hj | hj
    · rw [drop_append_of_le_length hj, take_append_of_le_length hle]
    · rw [drop_eq_nil_of_le hj] at hle ⊢
      obtain rfl := le_zero.mp hle
      rw [take_zero, take_zero]

lemma cut (h : Slide d L appended queue windows) (hL : L ≤ queue.length) (hd : d ≤ L) :
    Slide d L appended (queue.drop d) (windows ++ [queue.take L]) where
  queue := by
    rw [h.queue, drop_drop, length_append, length_singleton, Nat.succ_mul]
  room := by
    rw [h.queue, length_drop] at hL
    have hroom := h.room
    rw [length_append, length_singleton, Nat.succ_mul]
    omega
  windows j w hw := by
    rcases lt_or_ge j windows.length with hj | hj
    · rw [getElem?_append_left hj] at hw
      exact h.windows j w hw
    · have hlast : j = windows.length := by
        have hlt := (List.getElem?_eq_some_iff.mp hw).1
        rw [length_append, length_singleton] at hlt
        omega
      rw [hlast, getElem?_concat_length] at hw
      cases hw
      rw [hlast, ← h.queue, length_take]
      exact ⟨rfl, min_eq_left hL⟩

end Slide

/-! ## changing several places -/

/-- `f` is applied at the places `is`, one after the other -/
def modifyAll (f : A → A) (is : List Nat) (l : List A) : List A :=
  is.foldl (fun l i => l.modify i f) l

lemma getElem?_modifyAll {f : A → A} {is : List Nat} (h : is.Nodup) (l : List A) (j : Nat) :
    (modifyAll f is l)[j]? = if j ∈ is then l[j]?.map f else l[j]? := by
  induction is generalizing l with
  | nil => rfl
  | cons i is ih =>
    obtain ⟨hi, his⟩ := nodup_cons.mp h
    show (modifyAll f is (l.modify i f))[j]? = _
    rw [ih his]
    by_cases hj : j = i
    · subst hj
      rw [if_neg hi, if_pos (mem_cons_self ..), getElem?_modify_eq]
      rfl
    · rw [getElem?_modify_ne f l (Ne.symm hj)]
      simp only [mem_cons, hj, false_or]

/-! ## windows at the end -/

/-- the last `M` elements, or all of them -/
def crop (M : Nat) (l : List A) : List A := l.drop (l.length - M)

/-- what was appended, what is kept of it, and the windows sent -/
inductive Strided (M s : Nat) (all : List A) : List A → List (List A) → Prop
  | before : all.length < M → Strided M s all all []
  | after (k : Nat) : k * s + M ≤ all.length → all.length < (k + 1) * s + M →
      Strided M s all (all.drop (k * s))
        ((List.range (k + 1)).map fun j => (all.drop (j * s)).take M)

/-- Windows of consecutive elements that cover `all`, `M` unless there are fewer; only the last one
ends with `all` -/
def Tiled (M s : Nat) (all : List A) (windows : List (List A)) : Prop :=
  ∃ starts : List Nat,
    windows = starts.map (fun i => (all.drop i).take (min M all.length)) ∧
    (∀ i ∈ starts, i + min M all.length ≤ all.length) ∧
    (∀ j < all.length, ∃ i ∈ starts, i ≤ j ∧ j < i + min M all.length) ∧
    (∃ init, starts = init ++ [all.length - min M all.length] ∧
      ∀ i ∈ init, i + min M all.length < all.length) ∧
    windows.length = if all.length ≤ M then 1 else 1 + (all.length - M) ⌈/⌉ s

namespace Strided
variable {M s : Nat} {all buffer : List A} {windows : List (List A)}

lemma crop_drop {i : Nat} (h : i + M ≤ all.length) : crop M (all.drop i) = crop M all := by
  unfold crop
  rw [drop_drop, length_drop]
  congr 1
  omega

lemma crop_of_length (h : all.length ≤ M) : crop M all = all := by
  rw [crop, Nat.sub_eq_zero_of_le h, drop_zero]

lemma window_concat {i : Nat} (h : i + M ≤ all.length) (a : A) :
    ((all ++ [a]).drop i).take M = (all.drop i).take M := by
  rw [drop_append_of_le_length (by omega), take_append_of_le_length]
  rw [length_drop]
  omega

lemma windows_concat {k : Nat} (h : k * s + M ≤ all.length) (a : A) :
    ((List.range (k + 1)).map fun j => ((all ++ [a]).drop (j * s)).take M)
      = (List.range (k + 1)).map fun j => (all.drop (j * s)).take M := by
  refine map_congr_left fun j hj => window_concat ?_ a
  have hle : j * s ≤ k * s := mul_le_mul_right s (le_of_lt_succ (mem_range.mp hj))
  omega

section
variable (h : Strided M s all buffer windows) (a : A)
include h a

lemma keep (hM : buffer.length + 1 ≠ M)
    (hs : buffer.length + 1 ≠ M + s) : Strided M s (all ++ [a]) (buffer ++ [a]) windows := by
  cases h with
  | before hlt =>
    refine .before ?_
    rw [length_append, length_singleton]
    omega
  | after k hk hlt =>
    rw [length_drop] at hs
    have hdrop : all.drop (k * s) ++ [a] = (all ++ [a]).drop (k * s) :=
      (drop_append_of_le_length (by omega)).symm
    rw [hdrop, ← windows_concat hk a]
    rw [Nat.succ_mul] at hlt
    refine .after k ?_ ?_
    · rw [length_append]
      omega
    · rw [length_append, length_singleton, Nat.succ_mul]
      omega

lemma send (hs : 0 < s) (hdue : buffer.length + 1 = M ∨ buffer.length + 1 = M + s) :
    Strided M s (all ++ [a]) (crop M (buffer ++ [a])) (windows ++ [crop M (buffer ++ [a])]) := by
  have hlen : (all ++ [a]).length = all.length + 1 := length_append
  cases h with
  | before hlt =>
    have hM : (all ++ [a]).length = M := by omega
    have hafter : Strided M s (all ++ [a]) _ _ := .after 0 (by omega) (by omega)
    rw [crop_of_length hM.le]
    rw [zero_mul, drop_zero, range_one, map_singleton, zero_mul,
      drop_zero, take_of_length_le hM.le] at hafter
    exact hafter
  | after k hk hlt =>
    rw [length_drop] at hdue
    have hmul : (k + 1) * s = k * s + s := Nat.succ_mul k s
    have hdrop : all.drop (k * s) ++ [a] = (all ++ [a]).drop (k * s) :=
      (drop_append_of_le_length (by omega)).symm
    have hcrop : crop M (all.drop (k * s) ++ [a]) = (all ++ [a]).drop ((k + 1) * s) := by
      rw [hdrop, crop_drop (by omega), crop]
      congr 1
      omega
    have hafter : Strided M s (all ++ [a]) _ _ := .after (k + 1) (by omega) (by rw [Nat.succ_mul]; omega)
    have htake : ((all ++ [a]).drop ((k + 1) * s)).take M = (all ++ [a]).drop ((k + 1) * s) := by
      refine take_of_length_le ?_
      rw [length_drop]
      omega
    rw [range_succ, map_append, map_singleton, windows_concat hk a, htake] at hafter
    rw [hcrop]
    exact hafter

lemma crop_concat : crop M (buffer ++ [a]) = crop M (all ++ [a]) := by
  cases h with
  | before hlt => rfl
  | after k hk hlt =>
    have hlen : (all ++ [a]).length = all.length + 1 := length_append
    rw [← drop_append_of_le_length (by omega), crop_drop (by omega)]

/-- **The windows sent before the end and one at the end cover the sequence.** -/
theorem tiled (hs : 0 < s) (hsM : s ≤ M) :
    Tiled M s (all ++ [a]) (windows ++ [crop M (buffer ++ [a])]) := by
  have hlen : (all ++ [a]).length = all.length + 1 := length_append
  rw [h.crop_concat a]
  cases h with
  | before hlt =>
    have hmin : min M (all ++ [a]).length = (all ++ [a]).length := by omega
    refine ⟨[0], ?_, ?_, ?_, ⟨[], ?_, nofun⟩, ?_⟩
    · rw [crop_of_length (by omega), hmin, nil_append, map_singleton, drop_zero, take_length]
    · intro i hi
      rw [mem_singleton.mp hi, hmin]
      omega
    · intro j hj
      exact ⟨0, mem_singleton.mpr rfl, Nat.zero_le j, by omega⟩
    · rw [hmin, Nat.sub_self]
      rfl
    · rw [if_pos (by omega)]
      rfl
  | after k hk hlt =>
    have hmul : (k + 1) * s = k * s + s := Nat.succ_mul k s
    have hmin : min M (all ++ [a]).length = M := by omega
    have hstart : ∀ i ∈ (range (k + 1)).map (· * s), i + M < (all ++ [a]).length := by
      refine forall_mem_map.mpr fun j hj => ?_
      have hle : j * s ≤ k * s := mul_le_mul_right s (le_of_lt_succ (mem_range.mp hj))
      show j * s + M < _
      omega
    rw [← windows_concat hk a]
    refine ⟨(range (k + 1)).map (· * s) ++ [(all ++ [a]).length - M], ?_, ?_, ?_,
      ⟨(range (k + 1)).map (· * s), ?_, ?_⟩, ?_⟩
    · rw [hmin, map_append, map_map, map_singleton, take_of_length_le]
      · rfl
      · rw [length_drop]
        omega
    · rw [hmin]
      exact forall_mem_append.mpr ⟨fun i hi => (hstart i hi).le, forall_mem_singleton.mpr (by omega)⟩
    · intro j hj
      rw [hmin]
      rcases lt_or_ge j ((all ++ [a]).length - M) with hlt' | hge
      · -- the windows before the last one are at most `M` apart
        refine ⟨j / s * s, mem_append_left _ (mem_map.mpr ⟨j / s, ?_, rfl⟩),
          Nat.div_mul_le_self j s, ?_⟩
        · refine mem_range.mpr (Nat.div_lt_of_lt_mul ?_)
          rw [Nat.mul_comm]
          omega
        · have hmod := Nat.div_add_mod j s
          have hltmod := mod_lt j hs
          rw [Nat.mul_comm] at hmod
          omega
      · exact ⟨_, mem_append_right _ (mem_singleton.mpr rfl), hge, by omega⟩
    · rw [hmin]
    · rw [hmin]
      exact hstart
    · have hceil : ((all ++ [a]).length - M) ⌈/⌉ s = k + 1 := by
        rw [Nat.ceilDiv_eq_add_pred_div]
        refine Nat.div_eq_of_lt_le ?_ ?_
        · omega
        · rw [Nat.succ_mul]
          omega
      rw [if_neg (by omega), hceil, length_append, length_map, length_range, length_singleton]
      omega

end

end Strided

end TorchCraft.Lib
