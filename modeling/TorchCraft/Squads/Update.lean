import TorchCraft.Board.Model

/-!
# Squads

`SquadTask::update` notes what the squad and the frame are like.  Some of it is never taken back:
`storms_` is not cleared and `hasCloakedFighters` is not reset.

* `SquadTask.update`  the code;
* `current_run`  when what is noted is about the current frame only.
-/

namespace TorchCraft.Squads
open List

inductive UnitType
  | spiderMine
  | lurker
  | lurkerEgg
  | darkTemplar
  | arbiter
  | other
  deriving DecidableEq

variable {U : Type}

structure Frame (U : Type) where
  /-- the task of the unit on the board is not this one, as for a dead unit -/
  reassigned : U → Bool := fun _ => false
  dead : U → Bool := fun _ => false
  flying : U → Bool := fun _ => false
  type : U → UnitType := fun _ => .other
  /-- is the bullet a Psionic Storm, and where -/
  bullets : List (Bool × Int × Int) := []

def Frame.cloaked (f : Frame U) (u : U) : Bool := f.type u ≠ .other

def Frame.storms (f : Frame U) : List (Int × Int) := (f.bullets.filter Prod.fst).map Prod.snd

structure SquadTask (U : Type) where
  units : List U
  targets : List U := []
  targetingLocation : Bool := false
  hasAirUnits : Bool := false
  hasGroundUnits : Bool := false
  hasCloakedFighters : Bool := false
  storms : List (Int × Int) := []
  status : TaskStatus := .unknown

namespace SquadTask

variable (t : SquadTask U) (f : Frame U)

def stay : List U := t.units.filter (!f.reassigned ·)

def goesOn : Bool :=
  !(t.stay f).isEmpty && (t.targetingLocation || !(t.targets.filter (!f.dead ·)).isEmpty)

/-- the targets are kept in another order -/
def update : SquadTask U :=
  let t := { t with units := t.stay f }
  if t.units.isEmpty then { t with status := .failure }
  else
    let t := { t with
      targets := t.targets.filter (!f.dead ·)
      hasAirUnits := t.units.any f.flying
      hasGroundUnits := t.units.any (!f.flying ·)
      hasCloakedFighters := t.hasCloakedFighters || t.units.any f.cloaked }
    if !t.targetingLocation && t.targets.isEmpty then { t with status := .success }
    else { t with storms := t.storms ++ f.storms }

/-- an update after other code has given the task other units and targets -/
structure Turn (U : Type) extends Frame U where
  units : List U
  targets : List U := []
  targetingLocation : Bool := false

def Turn.given (o : Turn U) (t : SquadTask U) : SquadTask U :=
  { t with units := o.units, targets := o.targets, targetingLocation := o.targetingLocation }

def run (t : SquadTask U) (os : List (Turn U)) : SquadTask U :=
  os.foldl (fun t o => (o.given t).update o.toFrame) t

def Always (P : SquadTask U → Frame U → Prop) : SquadTask U → List (Turn U) → Prop
  | _, [] => True
  | t, o :: os => P (o.given t) o.toFrame ∧ Always P ((o.given t).update o.toFrame) os

@[mk_iff]
structure Current (t : SquadTask U) (f : Frame U) : Prop where
  storms : t.storms = f.storms
  air : t.hasAirUnits = true ↔ ∃ u ∈ t.units, f.flying u = true
  ground : t.hasGroundUnits = true ↔ ∃ u ∈ t.units, f.flying u = false
  cloaked : t.hasCloakedFighters = true ↔ ∃ u ∈ t.units, f.cloaked u = true

def Calm : Prop := t.goesOn f = true → f.storms = []

def Plain : Prop := ∀ u ∈ t.stay f, f.cloaked u = false

section
variable (t : SquadTask U) (f : Frame U)

lemma update_cases : (t.update f).units = t.stay f ∧
    (t.update f).storms = (if t.goesOn f then t.storms ++ f.storms else t.storms) ∧
    (t.update f).hasCloakedFighters =
      (t.hasCloakedFighters || (t.stay f).any f.cloaked) ∧
    (t.goesOn f = true → (t.update f).hasAirUnits = (t.stay f).any f.flying ∧
      (t.update f).hasGroundUnits = (t.stay f).any (!f.flying ·)) := by
  unfold update goesOn
  dsimp only
  cases hstay : t.stay f with
  | nil => simp
  | cons u us =>
    rw [if_neg (by simp)]
    split
    next h => simp_all
    next h => simp_all

lemma current_update (h : t.goesOn f = true) : Current (t.update f) f ↔
    t.storms = [] ∧ (t.hasCloakedFighters = false ∨ ∃ u ∈ t.stay f, f.cloaked u = true) := by
  obtain ⟨hunits, hstorms, hcloaked, hflags⟩ := update_cases t f
  obtain ⟨hair, hground⟩ := hflags h
  rw [current_iff, hunits, hstorms, hcloaked, hair, hground, if_pos h]
  cases t.hasCloakedFighters <;> simp

lemma storms_run (os : List (Turn U)) :
    (run t os).storms = [] ↔ t.storms = [] ∧ Always Calm t os := by
  induction os generalizing t with
  | nil => simp [run, Always]
  | cons o os ih =>
    obtain ⟨-, hstorms, -⟩ := update_cases (o.given t) o.toFrame
    refine (ih _).trans ?_
    rw [hstorms, Always, Calm]
    split <;> simp_all [Turn.given, and_assoc]

lemma cloaked_run (os : List (Turn U)) :
    (run t os).hasCloakedFighters = false ↔ t.hasCloakedFighters = false ∧ Always Plain t os := by
  induction os generalizing t with
  | nil => simp [run, Always]
  | cons o os ih =>
    obtain ⟨-, -, hcloaked, -⟩ := update_cases (o.given t) o.toFrame
    refine (ih _).trans ?_
    rw [hcloaked, Always, Plain]
    simp [Turn.given, and_assoc]

end

/-- **What a squad knows.**  After an update that goes on it is about the current frame exactly if
there was no storm before, and either no unit fought cloaked before or one that stays does now. -/
theorem current_run (units : List U) (os : List (Turn U)) (o : Turn U)
    (h : (o.given (run { units := units } os)).goesOn o.toFrame = true) :
    let t : SquadTask U := run { units := units } (os ++ [o])
    (Current t o.toFrame ↔ Always Calm { units := units } os ∧
      (Always Plain { units := units } os ∨
        ∃ u ∈ o.units, o.reassigned u = false ∧ o.cloaked u = true)) ∧
    (t.hasAirUnits = true ↔ ∃ u ∈ t.units, o.flying u = true) ∧
    (t.hasGroundUnits = true ↔ ∃ u ∈ t.units, o.flying u = false) := by
  intro t
  have ht : t = (o.given (run { units := units } os)).update o.toFrame := foldl_append ..
  obtain ⟨hunits, -, -, hflags⟩ := update_cases (o.given (run { units := units } os)) o.toFrame
  obtain ⟨hair, hground⟩ := hflags h
  have hcalm := storms_run { units := units } os
  have hplain := cloaked_run { units := units } os
  have hstay : (∃ u ∈ (o.given (run { units := units } os)).stay o.toFrame, o.cloaked u = true) ↔
      ∃ u ∈ o.units, o.reassigned u = false ∧ o.cloaked u = true := by
    simp [stay, Turn.given, and_assoc]
  rw [ht, current_update _ _ h, hunits, hair, hground, hstay]
  refine ⟨and_congr (hcalm.trans (and_iff_right rfl))
    (or_congr_left (hplain.trans (and_iff_right rfl))), ?_, ?_⟩
  · simp
  · simp

/-- a squad of a lurker, which may have died, and another unit -/
def turn (dead : Bool) (bullets : List (Bool × Int × Int)) : Turn Nat :=
  { units := [1, 2], targets := [3], type := fun u => if u = 1 then .lurker else .other
    reassigned := fun u => dead && u == 1, bullets := bullets }

theorem current_run_first :
    Current (run { units := [] } [turn false [], turn false [(true, 3, 4)]])
      (turn false [(true, 3, 4)]).toFrame :=
  (current_run [] [turn false []] (turn false [(true, 3, 4)]) (by decide)).1.mpr
    ⟨⟨fun _ => rfl, trivial⟩, .inr ⟨1, by decide, by decide, by decide⟩⟩

/-- A storm and a cloaked unit are gone with the next frame, and stay in the notes. -/
theorem storm_remembered :
    let t := run { units := [] } [turn false [(true, 3, 4)], turn true []]
    t.units = [2] ∧ t.storms = [(3, 4)] ∧ t.hasCloakedFighters = true ∧
      (turn true []).storms = [] ∧ (turn true []).cloaked 2 = false := by
  decide

end SquadTask
end TorchCraft.Squads
