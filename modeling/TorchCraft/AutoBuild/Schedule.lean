import TorchCraft.AutoBuild.Evaluate
import TorchCraft.Board.Index
import TorchCraft.Board.Upcs

/-!
# The scheduled part of a build order

An `AutoBuildTask` posts a UPC for each entry of its build order that is due within 30 seconds and
proxies the tasks that other modules make of these UPCs.  Three containers go together:
`targetUpcIds_`, `targets_` (same places) and `scheduledUpcs` (by id).  Here they are three separate
values and every access that is undefined in the source, a place beyond the end or an id without
entry, is a `none` of the whole call.

* `takeBackAll`, `eraseWhere`  the loops of `evaluate` that drop targets.

The priorities of the source are floats that count up from 1, here natural numbers.
-/

namespace TorchCraft.AutoBuild

variable {T P M U : Type} [DecidableEq T] [DecidableEq P] [DecidableEq M] [DecidableEq U]

/-! ## tuples -/

inductive Command where
  | create
  | setCreatePriority
  | other
  deriving DecidableEq

inductive UPCState (T : Type) where
  | buildTypeMap (types : List (T × ℚ))
  | setCreatePriorityState (upcId : UpcId) (priority : Nat)
  | other

/-- a tuple with a sharp command; no position is the uniform one -/
structure UPCTuple (T : Type) where
  scale : Nat := 1
  position : Option Position := none
  command : Command
  state : UPCState T

def createUPC (thing : BuildEntry T) : UPCTuple T where
  position := if thing.pos ≠ kInvalidPosition ∧ thing.pos ≠ {} then some thing.pos else none
  command := .create
  state := .buildTypeMap [(thing.type, 1)]

def priorityUPC (T : Type) (upcId : UpcId) (priority : Nat) : UPCTuple T where
  command := .setCreatePriority
  state := .setCreatePriorityState upcId priority

/-! ## the task -/

abbrev Scheduled (T : Type) := UpcId → Option (BuildEntry T × Nat)

structure AutoBuildTask (T P : Type) where
  upcId : UpcId
  targetUpcIds : List UpcId := []
  targets : List (Option P) := []
  scheduledUpcs : Scheduled T := fun _ => none

inductive Effect (P : Type) where
  | builtCallback (callback : Nat)
  | cancel (task : P)
  deriving DecidableEq

def AutoBuildTask.eraseTarget (t : AutoBuildTask T P) (i : Nat) : AutoBuildTask T P :=
  { t with targetUpcIds := t.targetUpcIds.eraseIdx i, targets := t.targets.eraseIdx i }

/-! ## update -/

def fillTargets (taskForId : UpcId → Option P) : List UpcId → List (Option P) →
    Option (List (Option P))
  | [], targets => some targets
  | _ :: _, [] => none
  | id :: ids, target :: targets =>
    (fillTargets taskForId ids targets).map (target.or (taskForId id) :: ·)

structure NewUnit (T : Type) where
  type : T
  constructingType : Option T := none
  isMine : Bool := true

def NewUnit.utype (tt : TechTree T) (u : NewUnit T) : Option T :=
  if u.type = tt.zergEgg then u.constructingType else some u.type

def findStarted (m : Scheduled T) (utype : Option T) : List UpcId → Nat →
    Option (Option (Nat × UpcId × BuildEntry T))
  | [], _ => some none
  | id :: ids, i =>
    match m id with
    | none => none
    | some e => if some e.1.type = utype then some (some (i, id, e.1))
      else findStarted m utype ids (i + 1)

/-- what the lambda `newUnit` does once it has found the place `i` -/
def started (t : AutoBuildTask T P) (i : Nat) (id : UpcId) (entry : BuildEntry T) :
    Option (AutoBuildTask T P × List (Effect P)) :=
  (t.targets[i]?).map fun target =>
    ({ t.eraseTarget i with scheduledUpcs := Function.update t.scheduledUpcs id none },
      entry.builtCallback.toList.map Effect.builtCallback ++ target.toList.map Effect.cancel)

def newUnit (tt : TechTree T) (t : AutoBuildTask T P) (u : NewUnit T) :
    Option (AutoBuildTask T P × List (Effect P)) :=
  (findStarted t.scheduledUpcs (u.utype tt) t.targetUpcIds 0).bind fun r =>
    match r with
    | none => some (t, [])
    | some (i, id, entry) => started t i id entry

def newUnits (tt : TechTree T) : AutoBuildTask T P → List (NewUnit T) →
    Option (AutoBuildTask T P × List (Effect P))
  | t, [] => some (t, [])
  | t, u :: us =>
    (newUnit tt t u).bind fun r => (newUnits tt r.1 us).map fun r' => (r'.1, r.2 ++ r'.2)

def update (tt : TechTree T) (board : Board P M U) (getNewUnits getStartedMorphingUnits :
    List (NewUnit T)) (t : AutoBuildTask T P) : Option (AutoBuildTask T P × List (Effect P)) :=
  (fillTargets board.taskForId t.targetUpcIds t.targets).bind fun targets =>
    newUnits tt { t with targets := targets }
      (getNewUnits.filter NewUnit.isMine ++ getStartedMorphingUnits.filter NewUnit.isMine)

/-! ## evaluate -/

structure Scheduler (T P M : Type) where
  task : AutoBuildTask T P
  upcs : Upcs M (UPCTuple T)

/-- a UPC of the task that nobody has consumed is taken back; its entry stays in `scheduledUpcs` -/
def takeBack (s : Scheduler T P M) (id : UpcId) : Scheduler T P M :=
  match s.task.targetUpcIds.findIdx? (fun i => decide (i = id)) with
  | none => s
  | some i => ⟨s.task.eraseTarget i, s.upcs.consumeUPC id⟩

def takeBackAll (module : M) (s : Scheduler T P M) : Scheduler T P M :=
  ((s.upcs.upcsFrom module).map Prod.fst).foldl takeBack s

/-- the two loops that erase what meets `drop`; the dropped targets are returned last -/
def eraseLoop (drop : UpcId → Option P → Bool) : List UpcId → List (Option P) → Scheduled T →
    Option (List UpcId × List (Option P) × Scheduled T × List (Option P))
  | [], targets, m => some ([], targets, m, [])
  | _ :: _, [], _ => none
  | id :: ids, target :: targets, m =>
    if drop id target then
      (eraseLoop drop ids targets (Function.update m id none)).map fun r =>
        (r.1, r.2.1, r.2.2.1, target :: r.2.2.2)
    else (eraseLoop drop ids targets m).map fun r => (id :: r.1, target :: r.2.1, r.2.2)

def eraseWhere (drop : UpcId → Option P → Bool) (t : AutoBuildTask T P) :
    Option (AutoBuildTask T P × List (Option P)) :=
  (eraseLoop drop t.targetUpcIds t.targets t.scheduledUpcs).map fun r =>
    ({ t with targetUpcIds := r.1, targets := r.2.1, scheduledUpcs := r.2.2.1 }, r.2.2.2)

structure Matching (T M : Type) where
  scheduledUpcs : Scheduled T
  upcMatched : List UpcId := []
  newUpcs : List UpcId := []
  upcs : Upcs M (UPCTuple T)

structure Poster (M : Type) where
  frame : Int
  upcId : UpcId
  module : M

variable (w : Poster M) (m : Matching T M)

def sendPriority (id : UpcId) (priority : Nat) : Matching T M :=
  { m with upcs := (m.upcs.postUPC w.frame (priorityUPC T id priority) w.upcId w.module).2 }

/-- the first target with an equal entry that is not matched yet -/
def findMatch (m : Scheduled T) (upcMatched : List UpcId) (thing : BuildEntry T) :
    List UpcId → Option (Option (UpcId × BuildEntry T × Nat))
  | [] => some none
  | id :: ids =>
    match m id with
    | none => none
    | some e => if e.1.same thing ∧ id ∉ upcMatched then some (some (id, e))
      else findMatch m upcMatched thing ids

def rematch (id : UpcId) (e : BuildEntry T × Nat) (priority : Nat) : Matching T M :=
  if e.2 ≠ priority then
    sendPriority w { m with
      upcMatched := m.upcMatched ++ [id]
      scheduledUpcs := Function.update m.scheduledUpcs id (some (e.1, priority)) } id priority
  else { m with upcMatched := m.upcMatched ++ [id] }

def postCreate (thing : BuildEntry T) : UpcId × Upcs M (UPCTuple T) :=
  m.upcs.postUPC w.frame (createUPC thing) w.upcId w.module

def adopt (m : Matching T M) (id : UpcId) (upcs : Upcs M (UPCTuple T)) (thing : BuildEntry T)
    (priority : Nat) : Matching T M :=
  { m with
    scheduledUpcs := Function.update m.scheduledUpcs id (some (thing, priority))
    newUpcs := m.newUpcs ++ [id]
    upcs := upcs }

def spawn (thing : BuildEntry T) (priority : Nat) : Matching T M :=
  if (postCreate w m thing).1 ≠ kFilteredUpcId then
    sendPriority w (adopt m (postCreate w m thing).1 (postCreate w m thing).2 thing priority)
      (postCreate w m thing).1 priority
  else { m with upcs := (postCreate w m thing).2 }

def place (w : Poster M) (ids : List UpcId) (m : Matching T M) (thing : BuildEntry T)
    (priority : Nat) : Option (Matching T M) :=
  (findMatch m.scheduledUpcs m.upcMatched thing ids).map fun r =>
    match r with
    | some (id, e) => rematch w m id e priority
    | none => spawn w m thing priority

/-- the loop over the build order, up to the first entry that is not due -/
def placeAll (w : Poster M) (ids : List UpcId) : List (Int × BuildEntry T) → Nat → Matching T M →
    Option (Matching T M)
  | [], _, m => some m
  | v :: vs, priority, m =>
    if v.1 ≥ w.frame + 15 * 30 then some m
    else (place w ids m v.2 (priority + 1)).bind (placeAll w ids vs (priority + 1))

/-- the end of `evaluate`: unmatched targets are cancelled, the new UPCs become targets -/
def adoptNew (t : AutoBuildTask T P) (m : Matching T M) :
    Option (Scheduler T P M × List (Effect P)) :=
  (eraseWhere (fun id _ => decide (id ∉ m.upcMatched))
    { t with scheduledUpcs := m.scheduledUpcs }).map fun r =>
      (⟨{ r.1 with
          targetUpcIds := r.1.targetUpcIds ++ m.newUpcs
          targets := r.1.targets ++ m.newUpcs.map fun _ => none }, m.upcs⟩,
        r.2.reduceOption.map Effect.cancel)

/-- `evaluate` from `targetBuildState = currentBuildState` on -/
def schedule (module : M) (finished : P → Bool) (frame : Int) (order : List (Int × BuildEntry T))
    (s : Scheduler T P M) : Option (Scheduler T P M × List (Effect P)) :=
  (eraseWhere (fun _ target => target.all finished) (takeBackAll module s).task).bind fun r =>
    (placeAll ⟨frame, r.1.upcId, module⟩ r.1.targetUpcIds order 0
      ⟨r.1.scheduledUpcs, [], [], (takeBackAll module s).upcs⟩).bind (adoptNew r.1)

/-- `AutoBuildTask::evaluate`; a simulation that does not return leaves the containers alone -/
def evaluate (tt : TechTree T) (bo : BuildOrder T) (g : Game T) (module : M) (finished : P → Bool)
    (n : Nat) (s : Scheduler T P M) : Option (Scheduler T P M × List (Effect P)) :=
  match simulate tt bo g n with
  | .ret st => schedule module finished g.getMyState.frame st.buildOrder s
  | _ => some (s, [])

end TorchCraft.AutoBuild
