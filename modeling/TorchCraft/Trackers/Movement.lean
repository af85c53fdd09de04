import Mathlib.Algebra.Order.Field.Rat
import TorchCraft.Builder.Model

/-!
# Trackers

A tracker follows a command from frame to frame.  `Tracker::update` counts the frames in the states
that may time out and calls the function of the state.

* `Tracker`  the base class;
* `MovementTracker`  units on their way to a position;
* `status_moving`  when the tracker of units in motion stays ongoing.

While it is pending a `MovementTracker` takes a unit for moving if one component of its velocity is
not zero; when it is ongoing both have to be.
-/

namespace TorchCraft.Trackers
open Builder (TrackerStatus)

structure Tracker (D : Type) where
  status : TrackerStatus := .pending
  time : Int := 0
  timeout : Int := 15
  data : D

/-- `Tracker::update` where `updateNotTracking` does nothing; with a result comes whether the status
changed -/
def Tracker.update {D : Type} (updatePending updateOngoing : Tracker D → Tracker D × Bool)
    (t : Tracker D) : Tracker D :=
  match t.status with
  | .notTracking =>
    let t := { t with time := t.time + 1 }
    if t.time > t.timeout then { t with status := .timeout } else t
  | .pending =>
    let t := { t with time := t.time + 1 }
    if t.time > t.timeout then { t with status := .timeout }
    else
      let r := updatePending t
      if r.2 && decide (r.1.status = .ongoing) then { r.1 with time := 0 } else r.1
  | .ongoing => (updateOngoing t).1
  | _ => t

/-! ## `MovementTracker` -/

structure Motion where
  dead : Bool := false
  x : Int := 0
  y : Int := 0
  velocityX : ℚ := 0
  velocityY : ℚ := 0

structure Movement (U : Type) where
  units : List U
  target : Int × Int := (0, 0)
  mind : ℚ := 4 * 2

abbrev MovementTracker (U : Type) := Tracker (Movement U)

section movement
variable {U : Type} (see : U → Motion)

def centerOfUnits (units : List U) : Int × Int :=
  (((units.map fun u => (see u).x).sum).tdiv units.length,
    ((units.map fun u => (see u).y).sum).tdiv units.length)

def arrived (m : Movement U) : Bool :=
  let c := centerOfUnits see m.units
  let dx : ℚ := m.target.1 - c.1
  let dy : ℚ := m.target.2 - c.2
  decide (0 < m.mind) && decide (dx * dx + dy * dy < m.mind * m.mind)

variable (t : MovementTracker U)

def alive : MovementTracker U :=
  { t with data := { t.data with units := t.data.units.filter fun u => !(see u).dead } }

def updatePending : MovementTracker U × Bool :=
  let t := alive see t
  if t.data.units.isEmpty then ({ t with status := .failure }, true)
  else if t.data.units.any fun u => (see u).velocityX ≠ 0 || (see u).velocityY ≠ 0 then
    ({ t with status := .ongoing }, true)
  else (t, false)

def updateOngoing : MovementTracker U × Bool :=
  let t := alive see t
  if t.data.units.isEmpty then ({ t with status := .failure }, true)
  else if arrived see t.data then ({ t with status := .success }, true)
  else if t.data.units.any fun u => (see u).velocityX ≠ 0 && (see u).velocityY ≠ 0 then (t, false)
  else ({ t with time := 0, status := .pending }, true)

def update : MovementTracker U :=
  t.update (updatePending see) (updateOngoing see)

/-! ## units in motion -/

/-- some tracked unit is alive and moves, and the units have not arrived -/
def Moving : Prop :=
  (∃ u ∈ t.data.units, (see u).dead = false ∧ ((see u).velocityX ≠ 0 ∨ (see u).velocityY ≠ 0)) ∧
    arrived see (alive see t).data = false

def Diagonal : Prop :=
  ∃ u ∈ t.data.units, (see u).dead = false ∧ (see u).velocityX ≠ 0 ∧ (see u).velocityY ≠ 0

lemma any_alive (p : Motion → Bool) :
    ((alive see t).data.units.any fun u => p (see u)) ↔
      ∃ u ∈ t.data.units, (see u).dead = false ∧ p (see u) := by
  simp [alive]

variable {see} {t : MovementTracker U}

lemma Moving.nonempty (h : Moving see t) : (alive see t).data.units.isEmpty = false := by
  obtain ⟨⟨u, hu, hdead, -⟩, -⟩ := h
  refine List.isEmpty_eq_false_iff_exists_mem.mpr ⟨u, ?_⟩
  simp [alive, hu, hdead]

lemma ongoing_update (h : Moving see t) (hs : t.status = .ongoing) :
    (update see t).status = .ongoing ↔ Diagonal see t := by
  have hdiag := any_alive see t fun m => decide (m.velocityX ≠ 0) && decide (m.velocityY ≠ 0)
  simp only [Bool.and_eq_true, decide_eq_true_eq] at hdiag
  have hstatus : (alive see t).status = .ongoing := hs
  rw [update, Tracker.update, hs, Diagonal, ← hdiag]
  dsimp only [updateOngoing]
  rw [if_neg (Bool.eq_false_iff.mp h.nonempty), if_neg (Bool.eq_false_iff.mp h.2)]
  by_cases hany : ((alive see t).data.units.any fun u =>
      decide ((see u).velocityX ≠ 0) && decide ((see u).velocityY ≠ 0))
  · rw [if_pos hany]
    exact iff_of_true hstatus hany
  · rw [if_neg hany]
    exact iff_of_false TrackerStatus.noConfusion hany

lemma pending_update (h : Moving see t) (hs : t.status = .pending) :
    (update see t).status = .ongoing ↔ t.time < t.timeout := by
  have hany := any_alive see t fun m => decide (m.velocityX ≠ 0) || decide (m.velocityY ≠ 0)
  simp only [Bool.or_eq_true, decide_eq_true_eq] at hany
  rw [update, Tracker.update, hs]
  dsimp only
  by_cases hlate : t.time + 1 > t.timeout
  · rw [if_pos hlate]
    exact iff_of_false TrackerStatus.noConfusion (by omega)
  · have hgo (t' : MovementTracker U) (ht' : t'.data = t.data) :
        updatePending see t' = ({ alive see t' with status := .ongoing }, true) := by
      have hsame : (alive see t').data = (alive see t).data := by
        simp only [alive, ht']
      dsimp only [updatePending]
      rw [hsame, if_neg (Bool.eq_false_iff.mp h.nonempty), if_pos (hany.mpr h.1)]
    rw [if_neg hlate, hgo ⟨.pending, t.time + 1, t.timeout, t.data⟩ rfl]
    exact iff_of_true rfl (by omega)

end movement

/-- a property of all updates of a run: of the tracker and of what it sees -/
def Always {U : Type} (P : (U → Motion) → MovementTracker U → Prop) :
    MovementTracker U → List (U → Motion) → Prop
  | _, [] => True
  | t, see :: vs => P see t ∧ Always P (update see t) vs

/-- **When a movement tracker does not flap**, with units on their way: exactly as long as one moves
in both directions. -/
theorem status_moving {U : Type} (t : MovementTracker U) (vs : List (U → Motion))
    (h : Always Moving t vs) :
    (t.status = .ongoing →
      (Always (fun see t => (update see t).status = .ongoing) t vs ↔ Always Diagonal t vs)) ∧
    (t.status = .pending → ∀ see, Moving see t →
      ((update see t).status = .ongoing ↔ t.time < t.timeout)) := by
  refine ⟨fun hs => ?_, fun hs see hm => pending_update hm hs⟩
  induction vs generalizing t with
  | nil => exact Iff.rfl
  | cons see vs ih =>
    have hstep := ongoing_update h.1 hs
    constructor
    · rintro ⟨hon, hrest⟩
      exact ⟨hstep.mp hon, (ih _ h.2 hon).mp hrest⟩
    · rintro ⟨hdiag, hrest⟩
      have hon := hstep.mpr hdiag
      exact ⟨hon, (ih _ h.2 hon).mpr hrest⟩

def walker (velocityX velocityY : ℚ) : Nat → Motion := fun _ =>
  { x := 100, y := 100, velocityX := velocityX, velocityY := velocityY }

def marching : MovementTracker Nat := { status := .ongoing, data := { units := [1] } }

lemma moving_walker (velocityY : ℚ) : Moving (walker 1 velocityY) marching := by
  have harrived : arrived (walker 1 0) (alive (walker 1 0) marching).data = false := by
    decide +kernel
  exact ⟨⟨1, List.mem_singleton_self _, rfl, .inl one_ne_zero⟩, harrived⟩

theorem status_moving_walker :
    Always (fun see t => (update see t).status = .ongoing) marching [walker 1 1] :=
  ((status_moving marching [walker 1 1] ⟨moving_walker 1, trivial⟩).1 rfl).mpr
    ⟨⟨1, List.mem_singleton_self _, rfl, one_ne_zero, one_ne_zero⟩, trivial⟩

/-- A unit that moves to the right is taken for standing. -/
theorem horizontal_pending : Moving (walker 1 0) marching ∧
    (update (walker 1 0) marching).status = .pending :=
  ⟨moving_walker 0, by decide +kernel⟩

end TorchCraft.Trackers
