import Mathlib.Algebra.Order.Ring.Rat
import Mathlib.Order.Bounds.Basic

/-!
# The top speed of a unit

`UnitsInfo::updateUnit` is to remember the greatest speed seen for each player and type, so that
`topSpeed` includes upgrades.  The map of the player is copied before it is written, and the copy is
lost at the end of the update: `speedMap_` never holds a speed.

* `updateSpeed`  the code;
* `Forgetful`  the invariant of `speedMap_`;
* `topSpeed_greatest_iff`  when `topSpeed` is the greatest speed seen.
-/

namespace TorchCraft.Units
open Function

/-- `TopSpeed` of the types and the length of a velocity, both in walk tiles -/
structure SpeedTable (T V : Type) where
  base : T → V
  length : ℚ → ℚ → V

structure Observation (U P T : Type) where
  unit : U
  playerId : P
  type : T
  velocityX : ℚ
  velocityY : ℚ

structure Speeds (U P T V : Type) where
  speedMap : P → Option (T → Option V) := fun _ => none
  topSpeed : U → V

variable {U P T V : Type} [DecidableEq U] [DecidableEq P] [DecidableEq T] [LinearOrder V]
  (S : SpeedTable T V)

def curSpeed (o : Observation U P T) : V := S.length o.velocityX o.velocityY

def updateSpeed (s : Speeds U P T V) (o : Observation U P T) : Speeds U P T V :=
  let speedMap := if (s.speedMap o.playerId).isNone then
    update s.speedMap o.playerId (some fun _ => none) else s.speedMap
  -- a copy: nothing below reaches speedMap
  let playerSpeedMap := (speedMap o.playerId).getD fun _ => none
  let known := (playerSpeedMap o.type).getD (S.base o.type)
  let playerSpeedMap := update playerSpeedMap o.type (some (max known (curSpeed S o)))
  { speedMap := speedMap
    topSpeed := update s.topSpeed o.unit
      ((playerSpeedMap o.type).getD (S.base o.type)) }

def updates (topSpeed : U → V) (os : List (Observation U P T)) : Speeds U P T V :=
  os.foldl (updateSpeed S) { topSpeed := topSpeed }

def Forgetful (s : Speeds U P T V) : Prop :=
  ∀ p speeds, s.speedMap p = some speeds → ∀ t, speeds t = none

variable {S}

lemma Forgetful.updateSpeed {s : Speeds U P T V} (h : Forgetful s) (o : Observation U P T) :
    Forgetful (updateSpeed S s o) := by
  intro p speeds hp t
  dsimp only [Units.updateSpeed] at hp
  split at hp
  · by_cases hne : p = o.playerId
    · subst hne
      rw [update_self] at hp
      exact Option.some.inj hp ▸ rfl
    · rw [update_of_ne hne] at hp
      exact h p speeds hp t
  · exact h p speeds hp t

lemma forgetful_updates (topSpeed : U → V) (os : List (Observation U P T)) :
    Forgetful (updates S topSpeed os) := by
  apply List.foldlRecOn os (Units.updateSpeed S)
  · exact nofun
  · intro s hs o _
    exact hs.updateSpeed o

lemma topSpeed_updateSpeed {s : Speeds U P T V} (h : Forgetful s) (o : Observation U P T) :
    (updateSpeed S s o).topSpeed o.unit = max (S.base o.type) (curSpeed S o) := by
  have hcopy : ((updateSpeed S s o).speedMap o.playerId).getD (fun _ => none) o.type = none := by
    cases hp : (updateSpeed S s o).speedMap o.playerId with
    | none => rfl
    | some speeds => exact h.updateSpeed o _ _ hp o.type
  dsimp only [updateSpeed] at hcopy ⊢
  rw [update_self, update_self, hcopy]
  rfl

lemma topSpeed_updates (topSpeed : U → V) (os : List (Observation U P T))
    (o : Observation U P T) :
    (updates S topSpeed (os ++ [o])).topSpeed o.unit = max (S.base o.type) (curSpeed S o) := by
  rw [updates, List.foldl_append]
  exact topSpeed_updateSpeed (forgetful_updates topSpeed os) o

def seen (S : SpeedTable T V) (p : P) (t : T) (os : List (Observation U P T)) : Set V :=
  {w | w = S.base t ∨ ∃ o ∈ os, o.playerId = p ∧ o.type = t ∧ w = curSpeed S o}

/-- **When `topSpeed` is the greatest speed seen**: exactly if no earlier speed for the player and
the type exceeds both the base speed and the speed of this update. -/
theorem topSpeed_greatest_iff (S : SpeedTable T V) (topSpeed : U → V)
    (os : List (Observation U P T)) (o : Observation U P T) :
    let top (os : List (Observation U P T)) := (updates S topSpeed os).topSpeed o.unit
    (IsGreatest (seen S o.playerId o.type (os ++ [o])) (top (os ++ [o])) ↔
      ∀ o' ∈ os, o'.playerId = o.playerId → o'.type = o.type →
        curSpeed S o' ≤ max (S.base o.type) (curSpeed S o)) ∧
    ∀ os' o', o'.unit = o.unit → o'.playerId = o.playerId → o'.type = o.type →
      (top (os ++ [o]) ≤ top (os ++ [o] ++ os' ++ [o']) ↔
        max (S.base o.type) (curSpeed S o) ≤ max (S.base o.type) (curSpeed S o')) := by
  intro top
  have htop : top (os ++ [o]) = max (S.base o.type) (curSpeed S o) := topSpeed_updates topSpeed os o
  refine ⟨?_, fun os' o' hunit _ htype => ?_⟩
  · rw [htop]
    constructor
    · intro hgreat o' ho' hplayer htype
      exact hgreat.2 (.inr ⟨o', List.mem_append_left _ ho', hplayer, htype, rfl⟩)
    · intro hle
      constructor
      · rcases max_choice (S.base o.type) (curSpeed S o) with h | h
        · exact .inl h
        · exact .inr ⟨o, by simp, rfl, rfl, h⟩
      · rintro w (rfl | ⟨o', ho', hplayer, htype, rfl⟩)
        · exact le_max_left ..
        · rcases List.mem_append.mp ho' with ho' | ho'
          · exact hle o' ho' hplayer htype
          · rw [List.mem_singleton.mp ho']
            exact le_max_right ..
  · have htop' := topSpeed_updates (S := S) topSpeed (os ++ [o] ++ os') o'
    rw [hunit, htype] at htop'
    rw [htop]
    exact iff_of_eq (congrArg _ htop')

/-- one type of base speed 1; the speed is the horizontal velocity -/
def flat : SpeedTable Unit ℚ := { base := fun _ => 1, length := fun x _ => x }

def speeding (unit : Nat) (speed : ℚ) : Observation Nat Nat Unit :=
  { unit := unit, playerId := 0, type := (), velocityX := speed, velocityY := 0 }

theorem topSpeed_greatest_iff_speeding :
    (updates flat 0 ([] ++ [speeding 0 2])).topSpeed 0 ≤
      (updates flat 0 ([] ++ [speeding 0 2] ++ [] ++ [speeding 0 3])).topSpeed 0 :=
  ((topSpeed_greatest_iff flat 0 [] (speeding 0 2)).2 [] (speeding 0 3) rfl rfl rfl).mpr
    (by decide +kernel)

/-- The speed 2 of a unit is forgotten when another unit of its player and type is updated, and when
the unit stops. -/
theorem speed_forgotten :
    2 ∈ seen flat 0 () [speeding 0 2, speeding 1 1] ∧
      (updates flat 0 [speeding 0 2, speeding 1 1]).topSpeed 1 = 1 ∧
      (updates flat 0 [speeding 0 2, speeding 0 0]).topSpeed 0 = 1 :=
  ⟨.inr ⟨speeding 0 2, List.mem_cons_self, rfl, rfl, rfl⟩, by decide +kernel, by decide +kernel⟩

end TorchCraft.Units
