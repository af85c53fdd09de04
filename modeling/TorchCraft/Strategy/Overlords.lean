import Mathlib.Data.List.Induction
import TorchCraft.Utils.Algorithms

/-!
# The tiles in range of the enemy

Each update of an overlord's score map marks the tiles that the enemy can shoot at with its number,
a byte; the marks are cleared only when it overflows.  The propagation of the scores compares a mark
with the number, `addOpen` and `update` take every mark for a current one.  The scores are arbitrary,
and a move only reads.
-/

namespace TorchCraft.Scouting
open List Utils

structure Enemy where
  pos : Position
  (gone isBuilding flying hasAirWeapon : Bool)

/-- what an update of the score map reads -/
structure Scene where
  (mapWidth mapHeight : Int)
  enemyUnits : List Enemy

def clampPositionToMap (w : Scene) (pos : Position) : Position :=
  let clamp (v hi : Int) := if v < 1 then 1 else if hi < v then hi else v
  (clamp pos.1 (w.mapWidth - 1), clamp pos.2 (w.mapHeight - 1))

def posIndex (pos : Position) : Nat := (pos.2 / 4).toNat * 256 + (pos.1 / 4).toNat

def relativePositions : List Position :=
  let steps := (range 17).map fun (n : Nat) => 4 * (n : Int) - 32
  (steps.flatMap fun y => steps.map fun x => (x, y)).filter fun (x, y) => distance 0 0 x y ≤ 32

/-- the tiles around the units that can shoot up -/
def Scene.tiles (w : Scene) : List Nat :=
  (w.enemyUnits.filter fun e =>
      !e.gone && !((!e.isBuilding || e.flying) && !e.hasAirWeapon)).flatMap fun e =>
    relativePositions.map fun r =>
      posIndex (clampPositionToMap w (e.pos.1 + r.1, e.pos.2 + r.2))

/-- the marks by index, and the next -/
structure SneakyOverlord where
  inRange : Nat → Nat := fun _ => 0
  nextInRangeValue : Nat := 1

namespace SneakyOverlord
variable (o : SneakyOverlord) (scoreMap : Nat → ℚ) (i : Nat)

/-- `inRangeValue`, and the marks before it is used -/
def next : Nat × (Nat → Nat) :=
  if o.nextInRangeValue = 0 then (1, fun _ => 0) else (o.nextInRangeValue, o.inRange)

def updateScoreMap (w : Scene) : SneakyOverlord :=
  let (inRangeValue, inRange) := o.next
  ⟨fun i => if i ∈ w.tiles then inRangeValue else inRange i, (inRangeValue + 1) % 256⟩

/-- does `addOpen` open the tile -/
def addOpen : Bool := o.inRange i = 0 && scoreMap i = 0

/-- does the propagation open the tile -/
def add (inRangeValue : Nat) : Bool := !(scoreMap i ≠ 0 || o.inRange i = inRangeValue)

/-- does an overlord on the tile escape -/
def escape : Bool := o.inRange i ≠ 0

/-- may it escape to the tile -/
def shelter : Bool := o.inRange i = 0

/-- the scenes whose marks the next update finds -/
def kept (ws : List Scene) : List Scene := if ws.length = 255 then [] else ws

/-- the scenes since the last clearing -/
def recent (ws : List Scene) : List Scene := ws.foldl (fun ws w => kept ws ++ [w]) []

structure Marked (ws : List Scene) (o : SneakyOverlord) : Prop where
  length : ws.length ≤ 255
  value : o.nextInRangeValue = (ws.length + 1) % 256
  le : ∀ i, o.inRange i ≤ ws.length
  iff : ∀ i, o.inRange i ≠ 0 ↔ ∃ w ∈ ws, i ∈ w.tiles

variable {o} {ws : List Scene}

lemma Marked.old (h : Marked ws o) : o.next.1 = (kept ws).length + 1 ∧ (kept ws).length < 255 ∧
    ∀ i, o.next.2 i ≤ (kept ws).length ∧ (o.next.2 i ≠ 0 ↔ ∃ w ∈ kept ws, i ∈ w.tiles) := by
  obtain ⟨hlen, hvalue, hle, hiff⟩ := h
  unfold kept next
  by_cases hfull : ws.length = 255
  · rw [if_pos hfull, if_pos (by omega)]
    simp
  · rw [if_neg hfull, if_neg (by omega)]
    exact ⟨by omega, by omega, fun i => ⟨hle i, hiff i⟩⟩

/-- **One update** marks its tiles, with a number that no other tile has. -/
lemma Marked.update (h : Marked ws o) (w : Scene) :
    Marked (kept ws ++ [w]) (o.updateScoreMap w) ∧
      ∀ i, (o.updateScoreMap w).inRange i = o.next.1 ↔ i ∈ w.tiles := by
  obtain ⟨hvalue, hlen, hold⟩ := h.old
  refine ⟨⟨by simp; omega, by simp [updateScoreMap, hvalue], fun i => ?_, fun i => ?_⟩, fun i => ?_⟩
  -- a mark that is left is below the number, so the tiles of `w` are told apart by it
  all_goals
    obtain ⟨hle, hiff⟩ := hold i
    by_cases hi : i ∈ w.tiles <;> simp [updateScoreMap, hvalue, hi, hiff] <;> omega

lemma marked_foldl (ws : List Scene) : Marked (recent ws) (ws.foldl updateScoreMap {}) := by
  induction ws using List.reverseRecOn with
  | nil => exact ⟨by simp [recent], rfl, by simp, by simp [recent]⟩
  | append_singleton ws w ih =>
    rw [recent, foldl_append, foldl_append]
    exact (ih.update w).1

/-- **What counts as in range.**  The propagation is right about every tile; `addOpen` and the two
tests of `update` are, exactly if the tile is in range or was not since the last clearing. -/
theorem inRange_current (ws : List Scene) (w : Scene) (i : Nat) :
    let o : SneakyOverlord := ws.foldl updateScoreMap {}
    let o' := o.updateScoreMap w
    let Fresh := (∃ w' ∈ kept (recent ws), i ∈ w'.tiles) → i ∈ w.tiles
    (∀ scoreMap, o'.add scoreMap i o.next.1 ↔ scoreMap i = 0 ∧ i ∉ w.tiles) ∧
    ((∀ scoreMap, o'.addOpen scoreMap i ↔ scoreMap i = 0 ∧ i ∉ w.tiles) ↔ Fresh) ∧
    ((o'.escape i ↔ i ∈ w.tiles) ↔ Fresh) ∧
    ((o'.shelter i ↔ i ∉ w.tiles) ↔ Fresh) := by
  intro o o' Fresh
  obtain ⟨hmarked, hcurrent⟩ := (marked_foldl ws).update w
  have hfresh : (o'.inRange i ≠ 0 ↔ i ∈ w.tiles) ↔ Fresh := by
    rw [hmarked.iff i]
    simp [Fresh, or_and_right, exists_or]
  have hshelter : (o'.inRange i = 0 ↔ i ∉ w.tiles) ↔ Fresh := by
    rw [← hfresh, ← not_iff_not (a := o'.inRange i = 0), not_not]
  refine ⟨fun scoreMap => ?_, ?_, ?_, ?_⟩
  · simp [add, show o'.inRange i = o.next.1 ↔ _ from hcurrent i]
  · rw [← hshelter]
    simp only [addOpen, Bool.and_eq_true, decide_eq_true_eq]
    exact ⟨fun h => by simpa using h 0, fun h _ => by rw [h, and_comm]⟩
  · simpa [escape] using hfresh
  · simpa [shelter] using hshelter

/-- The enemy at the place is gone, and an overlord there still escapes. -/
theorem escape_stale :
    let marine : Enemy := ⟨(40, 40), false, false, false, true⟩
    let empty : Scene := ⟨256, 256, []⟩
    let o := [{ empty with enemyUnits := [marine] }, empty].foldl updateScoreMap {}
    posIndex (40, 40) ∉ empty.tiles ∧ o.escape (posIndex (40, 40)) := by
  decide +kernel

end SneakyOverlord

end TorchCraft.Scouting
