import Mathlib.Algebra.GroupWithZero.Nat
import Mathlib.Data.List.Induction
import TorchCraft.Board.Retention

/-!
# The command history

`CircularBuffer` keeps the last `max` values that were pushed, in an array and a position in it.

* `CircularBuffer.Shows`  the buffer as the list of the values kept, the latest first;
* `Shows.push`, `Shows.modify`  what the two kinds of writes do to that list;
* `commands_posted`  the blackboard's use of it: one list of commands for each frame.
-/

namespace TorchCraft
open List Function Int

/-! ## the buffer -/

/-- the position is `-1` before the first push -/
structure CircularBuffer (T : Type) (max : Nat) where
  buf : Fin max → T
  pos : Int := -1
  size : Int := 0
  le_pos : -1 ≤ pos := by omega
  pos_lt : pos < max := by omega

namespace CircularBuffer
variable {T : Type} {max : Nat}

lemma max_pos (max : Nat) [NeZero max] : (0 : Int) < max := by
  have := NeZero.ne max
  omega

variable [NeZero max]

def wrap (max : Nat) [NeZero max] (pos : Int) : Int :=
  if pos < 0 then wrap max (max + pos) else pos
termination_by (-pos).toNat
decreasing_by
  have := max_pos max
  omega

/-- signed remainder and loop together are the remainder -/
lemma wrap_tmod (a : Int) : wrap max (a.tmod max) = a % max := by
  have hpos := emod_nonneg a (max_pos max).ne'
  have hlt := emod_lt_of_pos a (max_pos max)
  have hstop : wrap max (a % max) = a % max := by rw [wrap, if_neg (by omega)]
  rw [tmod_eq_emod]
  split
  · simpa using hstop
  · have hneg : a % max - ((max : Int).natAbs : Int) < 0 := by omega
    have hback : max + (a % max - ((max : Int).natAbs : Int)) = a % max := by omega
    rw [wrap, if_pos hneg, hback, hstop]

lemma wrap_toNat_lt (a : Int) : (wrap max (a.tmod max)).toNat < max := by
  have hpos := emod_nonneg a (max_pos max).ne'
  have hlt := emod_lt_of_pos a (max_pos max)
  rw [wrap_tmod]
  omega

lemma tmod_toNat_lt (a : Int) : (a.tmod max).toNat < max := by
  have hlt := tmod_lt_of_pos a (max_pos max)
  have hpos := max_pos max
  omega

section operations
variable (b : CircularBuffer T max)

def index (pos : Int) : Fin max := ⟨(wrap max ((pos + b.pos).tmod max)).toNat, wrap_toNat_lt _⟩

def at_ (pos : Int) : T := b.buf (b.index pos)

def modify (f : T → T) : CircularBuffer T max :=
  { b with buf := update b.buf (b.index 0) (f (b.at_ 0)) }

def push (value : T) : CircularBuffer T max where
  buf := update b.buf ⟨((b.pos + 1).tmod max).toNat, tmod_toNat_lt _⟩ value
  pos := (b.pos + 1).tmod max
  size := min (b.size + 1) max
  le_pos := by
    have hpos := b.le_pos
    have := tmod_nonneg max (show 0 ≤ b.pos + 1 by omega)
    omega
  pos_lt := tmod_lt_of_pos _ (max_pos max)

lemma index_val (pos : Int) : ((b.index pos : Nat) : Int) = (pos + b.pos) % max := by
  have hpos := emod_nonneg (pos + b.pos) (max_pos max).ne'
  simp only [index, wrap_tmod]
  omega

lemma push_pos (value : T) : (b.push value).pos = (b.pos + 1) % max := by
  have hpos := b.le_pos
  exact tmod_eq_emod_of_nonneg (by omega)

lemma index_push (value : T) (pos : Int) : (b.push value).index pos = b.index (pos + 1) := by
  refine Fin.ext (ofNat.inj ?_)
  have h := index_val (b.push value) pos
  rw [push_pos, add_emod_emod] at h
  rw [show pos + (b.pos + 1) = pos + 1 + b.pos by omega, ← index_val] at h
  exact h

lemma push_buf (value : T) : (b.push value).buf = update b.buf (b.index 1) value := by
  have hnext : ((b.pos + 1).tmod max).toNat = b.index 1 := by
    have hpos := emod_nonneg (1 + b.pos) (max_pos max).ne'
    have hval := b.index_val 1
    have hnew : (b.pos + 1).tmod max = _ := b.push_pos value
    rw [hnew, Int.add_comm]
    omega
  rw [← Fin.ext (a := ⟨_, tmod_toNat_lt _⟩) hnext]
  rfl

lemma index_ne {k : Nat} (h0 : 0 < k) (hk : k < max) (pos : Int) :
    b.index (pos - k) ≠ b.index pos := by
  intro heq
  have hval : (pos + b.pos) % max = (pos - k + b.pos) % max := by
    rw [← index_val, ← index_val, heq]
  have hzero := emod_eq_emod_iff_emod_sub_eq_zero.mp hval
  rw [show pos + b.pos - (pos - k + b.pos) = k by omega, emod_eq_of_lt (by omega) (by omega)]
    at hzero
  omega

end operations

/-! ## the values kept -/

/-- the values that `at(0)`, `at(-1)`, … return, as far as the size goes -/
structure Shows (b : CircularBuffer T max) (l : List T) : Prop where
  size : b.size = l.length
  le : l.length ≤ max
  get : ∀ k (h : k < l.length), b.at_ (-k) = l[k]

namespace Shows
variable {b : CircularBuffer T max} {l : List T}

lemma push (h : Shows b l) (value : T) : Shows (b.push value) ((value :: l).take max) where
  size := by
    show min (b.size + 1) (max : Int) = _
    rw [h.size, length_take, length_cons]
    omega
  le := by
    rw [length_take]
    exact Nat.min_le_left ..
  get k hk := by
    have hread : (b.push value).at_ (-k) =
        update b.buf (b.index 1) value (b.index (-k + 1)) := by
      rw [at_, index_push, push_buf]
    rw [length_take, length_cons] at hk
    rw [hread, getElem_take]
    cases k with
    | zero => simp
    | succ k =>
      have hne := b.index_ne (k := k + 1) (by omega) (by omega) 1
      rw [show (1 : Int) - (k + 1 : Nat) = -(k + 1 : Nat) + 1 by omega] at hne
      rw [update_of_ne hne, getElem_cons_succ, ← h.get k (by omega), at_]
      congr 2
      omega

lemma modify (h : Shows b l) (f : T → T) : Shows (b.modify f) (l.modifyHead f) where
  size := by rw [length_modifyHead, ← h.size]; rfl
  le := by rw [length_modifyHead]; exact h.le
  get k hk := by
    rw [length_modifyHead] at hk
    have hle := h.le
    rw [getElem_modifyHead]
    show update b.buf (b.index 0) (f (b.at_ 0)) (b.index (-k)) = _
    split
    next h0 =>
      subst h0
      rw [← h.get 0 hk]
      exact update_self ..
    next h0 =>
      have hne := b.index_ne (k := k) (by omega) (by omega) 0
      rw [show (0 : Int) - k = -k by omega] at hne
      rw [update_of_ne hne]
      exact h.get k hk

end Shows
end CircularBuffer

/-! ## the commands of a frame -/

structure CommandPost where
  command : Command
  sourceId : UpcId

abbrev Commands := CircularBuffer (List CommandPost) 16

namespace Commands

def empty : Commands := { buf := fun _ => [] }

def postCommand (b : Commands) (command : Command) (sourceId : UpcId) : Commands :=
  b.modify (· ++ [⟨command, sourceId⟩])

def clearCommands (b : Commands) : Commands := b.push []

def commands (b : Commands) (stepsBack : Int) : List Command :=
  (b.at_ (-(min stepsBack (b.size - 1)))).map CommandPost.command

inductive Op
  | postCommand (command : Command) (sourceId : UpcId)
  | clearCommands

def step (b : Commands) : Op → Commands
  | .postCommand command sourceId => b.postCommand command sourceId
  | .clearCommands => b.clearCommands

variable (ops : List Op)

def run : Commands := ops.foldl step empty

/-! ## what was posted -/

def clears : List Op → Nat
  | [] => 0
  | .clearCommands :: ops => clears ops + 1
  | .postCommand .. :: ops => clears ops

/-- what was posted after the `j`-th `clearCommands` and before the next -/
def posted : Nat → List Op → List CommandPost
  | _, [] => []
  | 0, .clearCommands :: _ => []
  | 0, .postCommand command sourceId :: ops => ⟨command, sourceId⟩ :: posted 0 ops
  | j + 1, .clearCommands :: ops => posted j ops
  | j + 1, .postCommand .. :: ops => posted (j + 1) ops

@[simp] lemma clears_append (ops ops' : List Op) :
    clears (ops ++ ops') = clears ops + clears ops' := by
  fun_induction clears ops with
  | case1 => simp
  | case2 ops ih => simp only [cons_append, clears, ih]; omega
  | case3 ops c s ih => simpa only [cons_append, clears] using ih

lemma posted_append (ops ops' : List Op) {j : Nat} (h : j ≤ clears ops) :
    posted j (ops ++ ops') = posted j ops ++ if j = clears ops then posted 0 ops' else [] := by
  induction ops generalizing j with
  | nil =>
    obtain rfl := Nat.le_zero.mp h
    simp [posted, clears]
  | cons op ops ih =>
    cases op with
    | clearCommands =>
      cases j with
      | zero => simp [posted, clears]
      | succ j => simpa [posted, clears] using ih (Nat.le_of_succ_le_succ h)
    | postCommand command sourceId =>
      cases j with
      | zero => exact congrArg (_ :: ·) (ih h)
      | succ j => exact ih h

lemma posted_clear : posted (clears ops + 1) (ops ++ [.clearCommands]) = [] := by
  induction ops with
  | nil => rfl
  | cons op ops ih => cases op <;> exact ih

def frames : List (List CommandPost) :=
  (List.range (clears ops)).map fun k => posted (clears ops - k) ops

lemma frames_clear : frames (ops ++ [.clearCommands]) = [] :: frames ops := by
  have hn : clears (ops ++ [.clearCommands]) = clears ops + 1 := clears_append ..
  unfold frames
  rw [hn, range_succ_eq_map, map_cons, map_map]
  refine congrArg₂ _ ?_ (map_congr_left fun k hk => ?_)
  · exact posted_clear ops
  · have hj : clears ops + 1 - (k + 1) = clears ops - k := by omega
    show posted (clears ops + 1 - (k + 1)) _ = _
    rw [hj, posted_append ops _ (Nat.sub_le ..)]
    simp [posted]

lemma frames_post (command : Command) (sourceId : UpcId) :
    frames (ops ++ [.postCommand command sourceId]) =
      (frames ops).modifyHead (· ++ [⟨command, sourceId⟩]) := by
  have hn : clears (ops ++ [.postCommand command sourceId]) = clears ops := clears_append ..
  unfold frames
  rw [hn]
  cases hc : clears ops with
  | zero => rfl
  | succ n =>
    rw [range_succ_eq_map, map_cons, map_cons, modifyHead_cons, map_map, map_map, ← hc]
    refine congrArg₂ _ ?_ (map_congr_left fun k hk => ?_)
    · rw [posted_append ops _ (Nat.sub_le ..), if_pos (Nat.sub_zero _)]
      rfl
    · show posted (clears ops - (k + 1)) _ = posted (clears ops - (k + 1)) ops
      rw [posted_append ops _ (Nat.sub_le ..), if_neg (by omega), append_nil]

lemma shows_run : (run ops).Shows ((frames ops).take 16) := by
  induction ops using reverseRecOn with
  | nil => exact ⟨rfl, Nat.zero_le _, fun k hk => by cases hk⟩
  | append_singleton ops op ih =>
    rw [run, foldl_append]
    cases op with
    | clearCommands =>
      have htake : ([] :: (frames ops).take 16).take 16 = ([] :: frames ops).take 16 := by
        simp [take_take]
      rw [frames_clear, ← htake]
      exact ih.push []
    | postCommand command sourceId =>
      have h := ih.modify (· ++ [⟨command, sourceId⟩])
      rw [frames_post]
      cases hf : frames ops with
      | nil | cons f fs => rw [hf] at h; exact h

/-- **`commands` returns what was posted in a frame**, of the last 16 frames. -/
theorem commands_posted (ops : List Op) (hn : 1 ≤ clears ops) :
    (∀ k : Nat, k < min (clears ops) 16 →
      (run ops).commands k = (posted (clears ops - k) ops).map CommandPost.command) ∧
    ∀ k : Nat, min (clears ops) 16 ≤ k → (run ops).commands k =
      (posted (clears ops - (min (clears ops) 16 - 1)) ops).map CommandPost.command := by
  have h := shows_run ops
  have hlen : ((frames ops).take 16).length = min (clears ops) 16 := by
    rw [length_take, frames, length_map, length_range, Nat.min_comm]
  have hread (k : Nat) (hk : k < min (clears ops) 16) :
      (run ops).at_ (-k) = posted (clears ops - k) ops := by
    rw [h.get k (by omega), getElem_take]
    simp [frames]
  have hsize := h.size
  rw [hlen] at hsize
  constructor
  · intro k hk
    rw [commands, hsize, min_eq_left (by omega), hread k hk]
  · intro k hk
    rw [commands, hsize, min_eq_right (by omega)]
    rw [show ((min (clears ops) 16 : Nat) : Int) - 1 = (min (clears ops) 16 - 1 : Nat) by omega,
      hread _ (by omega)]

def threeFrames : List Op :=
  [.clearCommands, .postCommand ⟨true, [7]⟩ 1, .clearCommands, .postCommand ⟨true, [8]⟩ 2,
    .clearCommands]

theorem commands_posted_three :
    (run threeFrames).commands 0 = [] ∧ (run threeFrames).commands 1 = [⟨true, [8]⟩] ∧
      (run threeFrames).commands 2 = [⟨true, [7]⟩] ∧
      (run threeFrames).commands 7 = [⟨true, [7]⟩] := by
  have h := commands_posted threeFrames (by decide)
  exact ⟨h.1 0 (by decide), h.1 1 (by decide), h.1 2 (by decide), h.2 7 (by decide)⟩

end Commands
end TorchCraft
