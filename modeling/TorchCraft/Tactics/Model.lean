import Mathlib.Algebra.BigOperators.Group.List.Basic
import Mathlib.Data.List.Infix
import TorchCraft.Board.Model
import TorchCraft.Lib.Fuel
import TorchCraft.Lib.Slots
import TorchCraft.Lib.Sys
import TorchCraft.Utils.Algorithms

/-!
# The tactics module

Every few frames `TacticsModule::process` forms groups around the enemy units and assigns our units
to them.  `TacticsState::assignUnits` does it in six phases:

* `collectAvailableUnits`  units on the ground of a group join it, the others are available;
* `assignScoutingUnits`  Zerglings for the scout groups;
* `assignNecessaryUnits`  each group recruits the best available unit until it is strong enough;
* `assignDetectors`  detectors against cloaked units.

Then `process` gives each group its task, or a new one.

A group is named by its place in `groups_`, which does not change.  Which groups there are, where the
units stand and who owns them is the `Scene`; what the win ratios and the scores are is chosen freely
by the `Outcomes`.  The loops may need any number of rounds, so they are run with fuel.
-/

namespace TorchCraft.Tactics
open Lib Utils

inductive Kind
  | Zerg_Zergling
  | Zerg_Overlord
  | other
  deriving DecidableEq

structure UnitData where
  dead : Bool := false
  isMine : Bool := true
  active : Bool := true
  burrowed : Bool := false
  flying : Bool := false
  kind : Kind := .other
  isWorker : Bool := false
  isBuilding : Bool := false
  isNonUsable : Bool := false
  isDetector : Bool := false
  hasAirWeapon : Bool := false
  supplyRequired : ℚ := 1

structure TacticsTask (U : Type) extends Task U where
  myUnits : List U := []
  targetPos : Position := (0, 0)
  averagePos : Position := (0, 0)

structure TacticsGroup (P U : Type) where
  enemyUnits : List U := []
  myUnits : List U := []
  targetPos : Position := (0, 0)
  averagePos : Position := (0, 0)
  task : Option P := none
  hasEnoughUnits : Bool := false
  hasEnemyGroundUnits : Bool := false
  hasEnemyAirUnits : Bool := false
  hasEnemyCloakedUnits : Bool := false
  hasEnemyAntiGround : Bool := false
  hasEnemyAntiAir : Bool := false
  isAggressiveGroup : Bool := true
  searchAndDestroy : Bool := false
  isIdleGroup : Bool := false
  isScoutGroup : Bool := false
  enemyIsOnlyWorkers : Bool := true

/-- what `assignUnits` finds: our units, who owns them, the new groups, and on whose ground a unit
stands -/
structure Scene (P U : Type) where
  unit : U → UnitData
  myUnits : List U
  myWorkers : Nat := 0
  ownerName : U → Option String := fun _ => none
  /-- the key `TacticsAttack` of the board -/
  tacticsAttack : Bool := true
  groups : List (TacticsGroup P U)
  inside : U → Option Nat := fun _ => none
  nodup : myUnits.Nodup
  own : ∀ u ∈ myUnits, (unit u).isMine = true ∧ (unit u).dead = false
  groups_ne : groups ≠ []
  fresh : ∀ g ∈ groups, g.myUnits = [] ∧ g.task = none
  inside_lt : ∀ u j, inside u = some j → j < groups.length := by exact nofun

/-- `winRatio us es x` says whether the ratio is at least `x`; a score `none` is infinite -/
structure Outcomes (U : Type) where
  winRatio : List U → List U → ℚ → Bool
  /-- `scoreUnitForGroup` -/
  score : Nat → U → Option ℚ
  /-- how far the target of a group is from a unit -/
  distanceTo : Nat → U → ℚ := fun _ _ => 0
  /-- `std::sort` of the groups in `assignDetectors` -/
  sort : List Nat → List Nat := fun l => l
  sort_perm : ∀ l, (sort l).Perm l := by exact fun l => List.Perm.refl l

variable {P M U : Type} [DecidableEq P] [DecidableEq M] [DecidableEq U]

structure TacticsState (P U : Type) where
  groups : List (TacticsGroup P U)
  softAssignedUnits : U → Option Nat := fun _ => none
  /-- the keys of `hardAssignedUnits_`; the values are not read -/
  hardAssignedUnits : U → Bool := fun _ => false

namespace TacticsState

def onGroup (s : TacticsState P U) (j : Nat) (f : TacticsGroup P U → TacticsGroup P U) :
    TacticsState P U :=
  { s with groups := s.groups.modify j f }

def push (s : TacticsState P U) (j : Nat) (u : U) : TacticsState P U :=
  s.onGroup j fun g => { g with myUnits := g.myUnits ++ [u] }

end TacticsState

/-! ## previous assignments -/

section matching
variable (c : Scene P U) (tasks : List P) (obj : P → TacticsTask U)

def matchDistance (g : TacticsGroup P U) (t : TacticsTask U) : ℚ :=
  if t.averagePos = (0, 0) then distance g.targetPos.1 g.targetPos.2 t.targetPos.1 t.targetPos.2
  else distance g.averagePos.1 g.averagePos.2 t.averagePos.1 t.averagePos.2

/-- in the first pass only groups with enemies are matched, by the positions of the enemies -/
def skipped (first : Bool) (g : TacticsGroup P U) (t : TacticsTask U) : Bool :=
  first && (g.isIdleGroup || g.enemyUnits.isEmpty || decide (t.averagePos = (0, 0)))

structure Matching (P U : Type) where
  state : TacticsState P U
  groupTaken : List Nat := []
  taskTaken : List P := []

abbrev Pair (P : Type) := ℚ × Nat × P

variable (first : Bool) (m : Matching P U)

def consider (p : P) (best : Option (Pair P)) (e : TacticsGroup P U × Nat) : Option (Pair P) :=
  if skipped first e.1 (obj p) then best
  else if m.groupTaken.contains e.2 then best
  else
    let d := matchDistance e.1 (obj p)
    if decide (d < 4 * 16) && best.all fun b => decide (d < b.1) then some (d, e.2, p) else best

def considerTask (best : Option (Pair P)) (p : P) : Option (Pair P) :=
  if m.taskTaken.contains p then best
  else m.state.groups.zipIdx.foldl (consider obj first m p) best

def search : Option (Pair P) :=
  tasks.foldl (considerTask obj first m) none

def adopt (j : Nat) (isScoutGroup : Bool) (s : TacticsState P U) (u : U) : TacticsState P U :=
  if (c.unit u).dead || !(c.unit u).isMine || !(c.unit u).active then s
  else if (s.softAssignedUnits u).isSome then s
  else
    let s := { s with softAssignedUnits := Function.update s.softAssignedUnits u (some j) }
    if isScoutGroup && !(c.unit u).burrowed && (c.inside u).isNone then
      { s.push j u with hardAssignedUnits := Function.update s.hardAssignedUnits u true }
    else s

def take (m : Matching P U) (j : Nat) (p : P) : Matching P U where
  groupTaken := j :: m.groupTaken
  taskTaken := p :: m.taskTaken
  state :=
    let s := m.state.onGroup j fun g => { g with task := some p }
    match m.state.groups[j]? with
    | none => s
    | some g =>
      if g.isIdleGroup then s else (obj p).myUnits.foldl (adopt c j g.isScoutGroup) s

def matchOne (_ : ℕ) : Run (Matching P U ⊕ Matching P U) :=
  .ret <| match search tasks obj first m with
    | none => .inr m
    | some b => .inl (take c obj m b.2.1 b.2.2)

/-- the second component are the tasks that no group took, which are cancelled -/
def assignUnitsBasedOnPreviousAssignments (n : ℕ) : Run (TacticsState P U × List P) :=
  (loop (matchOne c tasks obj true) ⟨⟨c.groups, fun _ => none, fun _ => false⟩, [], []⟩ n).bind fun m =>
    (loop (matchOne c tasks obj false) m n).bind fun m =>
      .ret (m.state, tasks.filter fun p => !m.taskTaken.contains p)

end matching

/-! ## the other phases -/

section phases
variable (c : Scene P U) (o : Outcomes U)

def nameContains (name part : String) : Bool := decide (part.toList <:+: name.toList)

def isReserved (u : U) : Bool :=
  (c.ownerName u).any fun name => nameContains name "Builder" || nameContains name "Scouting"

def joins (u : UnitData) (g : TacticsGroup P U) : Bool :=
  (if u.flying then g.hasEnemyAntiAir else g.hasEnemyAntiGround) && !u.isWorker
    && (decide (u.kind ≠ .Zerg_Zergling) || g.hasEnemyGroundUnits)
    && !g.enemyIsOnlyWorkers && !g.hasEnoughUnits

abbrev Pool (P U : Type) := TacticsState P U × List U

variable (w : Pool P U)

def collect (u : U) : Pool P U :=
  let d := c.unit u
  if !d.active || d.isBuilding then w
  else if d.isNonUsable then w
  else if w.1.hardAssignedUnits u then w
  else if isReserved c u then w
  else
    match (c.inside u).bind fun j => (w.1.groups[j]?).map fun g => (j, g) with
    | some (j, g) =>
      if joins d g then
        (w.1.onGroup j fun g =>
          let mine := g.myUnits ++ [u]
          { g with myUnits := mine, hasEnoughUnits := o.winRatio mine g.enemyUnits 4 }, w.2)
      else if d.isWorker then w
      else (w.1, w.2 ++ [u])
    | none =>
      if d.isWorker then w
      else (w.1, w.2 ++ [u])

def collectAvailableUnits (s : TacticsState P U) : Pool P U := c.myUnits.foldl (collect c o) (s, [])

def nScouts : Nat :=
  let n := if 60 ≤ c.myWorkers then 3 else if 45 ≤ c.myWorkers then 2 else 1
  if 20 ≤ (c.myUnits.map fun u => (c.unit u).supplyRequired).sum then n * 2 else n

def isScout (u : U) : Bool :=
  decide ((c.unit u).kind = .Zerg_Zergling) && !(c.unit u).burrowed && (c.inside u).isNone

def takeScouts (n : Nat) : List U → List U → List U × List U
  | [], mine => ([], mine)
  | u :: us, mine =>
    if isScout c u then
      if mine.length + 1 ≥ n then (us, mine ++ [u]) else takeScouts n us (mine ++ [u])
    else
      let r := takeScouts n us mine
      (u :: r.1, r.2)

def scoutGroup (j : Nat) : Pool P U :=
  match w.1.groups[j]? with
  | none => w
  | some g =>
    if g.isScoutGroup && decide (g.myUnits.length < nScouts c) then
      let r := takeScouts c (nScouts c) w.2 g.myUnits
      (w.1.onGroup j fun g => { g with myUnits := r.2 }, r.1)
    else w

def assignScoutingUnits : Pool P U :=
  (List.range w.1.groups.length).foldl (scoutGroup c) w

/-- `std::remove_if` on a vector: the elements that stay are moved to the front; the places behind
them are not written -/
def removeIf {A : Type} (p : A → Bool) (l : List A) : List A × List A :=
  let kept := l.filter fun a => !p a
  (kept, l.drop kept.length)

structure Recruiting (U : Type) where
  available : List U
  mine : List U
  hasEnoughUnits : Bool
  assignedAnything : Bool

def recruitOne (j : Nat) (g : TacticsGroup P U) (r : Recruiting U) (_ : ℕ) :
    Run (Recruiting U ⊕ Recruiting U) :=
  .ret <|
    if r.hasEnoughUnits then .inr r
    else
      match getBestScorePointer infty (o.score j) r.available with
      | none => .inr r
      | some (i, u) =>
        let mine := r.mine ++ [u]
        let desired : ℚ := if g.enemyIsOnlyWorkers then 1 else if g.isAggressiveGroup then 4 else 2
        let r := ⟨swapPop r.available i, mine, o.winRatio mine g.enemyUnits desired, true⟩
        if g.enemyIsOnlyWorkers && decide (g.enemyUnits.length = 1) then
          .inr { r with hasEnoughUnits := true }
        else if !g.isAggressiveGroup && o.winRatio mine g.enemyUnits (1 / 2) then .inr r
        else .inl r

/-- the locals of `assignNecessaryUnits`; what the groups that got something put back held before is
written down in `history`, which the code does not have -/
structure Drive (P U : Type) where
  state : TacticsState P U
  available : List U
  assignedAnything : Bool := false
  history : List (List U) := []

def visitGroup (first : Bool) (w : Drive P U) (j : Nat) (n : ℕ) : Run (Drive P U) :=
  match w.state.groups[j]? with
  | none => .ret w
  | some g =>
    if g.hasEnoughUnits || (first && g.isAggressiveGroup) then .ret w
    else
      let r := removeIf (fun u => (c.unit u).isWorker) g.myUnits
      let workers := if g.enemyIsOnlyWorkers then r.2 else []
      (loop (recruitOne o j g) ⟨w.available, r.1, false, w.assignedAnything⟩ n).bind fun r =>
        let mine := if r.hasEnoughUnits then r.mine else r.mine ++ workers
        .ret
          { state := w.state.onGroup j fun g =>
              { g with myUnits := mine, hasEnoughUnits := r.hasEnoughUnits }
            available := r.available
            assignedAnything := r.assignedAnything
            history := if g.enemyIsOnlyWorkers && !r.hasEnoughUnits then g.myUnits :: w.history
              else w.history }

def recruitRound (first : Bool) (w : Drive P U) (n : ℕ) : Run (Drive P U ⊕ Drive P U) :=
  (forEach (visitGroup c o first) { w with assignedAnything := false }
    (List.range w.state.groups.length) n).bind fun w =>
      .ret (if w.assignedAnything then .inl w else .inr w)

/-- the two passes of `assignNecessaryUnits` -/
def recruiting (n : ℕ) : Run (Drive P U) :=
  (loop (recruitRound c o true) ⟨w.1, w.2, false, []⟩ n).bind fun d =>
    loop (recruitRound c o false) d n

def assignNecessaryUnits (n : ℕ) : Run (Pool P U) :=
  (recruiting c o w n).bind fun d => .ret (d.state, d.available)

def detectorScore (j : Nat) (u : U) : Option ℚ :=
  if !(c.unit u).isDetector then none else some (o.distanceTo j u)

def sendDetectors : List Nat → Pool P U → Pool P U
  | [], w => w
  | j :: js, w =>
    match w.1.groups[j]? with
    | none => sendDetectors js w
    | some g =>
      if !g.hasEnemyCloakedUnits then sendDetectors js w
      else if g.myUnits.any fun u => (c.unit u).isDetector then sendDetectors js w
      else
        match getBestScorePointer infty (detectorScore c o j) w.2 with
        | none => w
        | some (i, u) => sendDetectors js (w.1.push j u, swapPop w.2 i)

def assignDetectors : Pool P U :=
  sendDetectors c o (o.sort (List.range w.1.groups.length)) w

def firstGroup (p : TacticsGroup P U → Bool) (groups : List (TacticsGroup P U)) (dflt : Nat) : Nat :=
  (groups.findIdx? p).getD dflt

variable (groups : List (TacticsGroup P U))

def leftoverGroup (u : UnitData) : Nat :=
  if c.tacticsAttack then
    if u.hasAirWeapon then firstGroup (fun g => g.hasEnemyAirUnits) groups 0
    else firstGroup (fun g => g.hasEnemyGroundUnits) groups 0
  else
    if u.hasAirWeapon then
      firstGroup (fun g => !g.isAggressiveGroup && g.hasEnemyAirUnits) groups (groups.length - 1)
    else firstGroup (fun g => !g.isAggressiveGroup && g.hasEnemyGroundUnits) groups (groups.length - 1)

def assignNOverlords : Int :=
  if 45 ≤ c.myWorkers then
    2 - (((groups.filter fun g => g.isAggressiveGroup).map fun g =>
      g.myUnits.countP fun u => decide ((c.unit u).kind = .Zerg_Overlord)).sum : Nat)
  else 0

/-- the choice of the group does not depend on the units that the groups have -/
def placeLeftover (w : TacticsState P U × Int) (u : U) : TacticsState P U × Int :=
  let d := c.unit u
  if d.isWorker then w
  else if d.kind ≠ .Zerg_Overlord then (w.1.push (leftoverGroup c groups d) u, w.2)
  else if w.2 ≠ 0 then (w.1.push (leftoverGroup c groups d) u, w.2 - 1)
  else w

/-- from the back of the available units; `leftoverWorkers` is a copy that is not read -/
def assignLeftovers : TacticsState P U :=
  if w.1.groups.isEmpty then w.1
  else (w.2.reverse.foldl (placeLeftover c w.1.groups) (w.1, assignNOverlords c w.1.groups)).1

end phases

/-- the groups with their units, and the tasks that were cancelled -/
def assignUnits (c : Scene P U) (o : Outcomes U) (tasks : List P) (obj : P → TacticsTask U) (n : ℕ) :
    Run (List (TacticsGroup P U) × List P) :=
  (assignUnitsBasedOnPreviousAssignments c tasks obj n).bind fun r =>
    (assignNecessaryUnits c o (assignScoutingUnits c (collectAvailableUnits c o r.1)) n).bind fun w =>
      .ret ((assignLeftovers c (assignDetectors c o w)).groups, r.2)

end TorchCraft.Tactics
