import TorchCraft.Lib.Sys
import TorchCraft.Lib.Windows
import TorchCraft.Trainer.Model

/-!
# The synchronous trainer

Every game gets a buffer for its frames; a buffer whose game is over is given to another game.
`update` trains on the first `returnsLength_` frames of some buffers that have enough of them.

* `getBufferForHandleUNSAFE`  the buffer of a game;
* `step`, `forward`, `forceStopEpisode`, `update`, `reset`  the critical sections;
* `syncSys`  the calls, in any order.

The sums of rewards in the buffers are only reported and are left out, as is everything that is
done with a batch.  `appended` and `windows` record what happened to a buffer; the code does not
read them.
-/

namespace TorchCraft.Training
open Lib Lib.Nested

/-- the constructor throws if `returnsLength_` is less than 2 -/
structure Config where
  returnsLength_ : Nat
  trainerBatchSize_ : Int
  overlappingUpdates_ : Bool
  forceOnPolicy_ : Bool
  two_le : 2 ≤ returnsLength_

def Config.toDelete (c : Config) : Nat := if c.overlappingUpdates_ then 1 else c.returnsLength_ - 1

/-- a frame goes with its end mark; there is no owner after a reset -/
structure Buffer (G F : Type) where
  frames : List (F × Bool) := []
  isDone : Bool := false
  lastUpdateNum : Nat := 0
  currentOwner : Option G := none
  /-- all frames that were ever appended -/
  appended : List (F × Bool) := []
  /-- the windows that were trained -/
  windows : List (List (F × Bool)) := []

namespace Buffer
variable {G F : Type} (c : Config) (b : Buffer G F)

def append (v : F) (isDone : Bool) (b : Buffer G F) : Buffer G F :=
  { b with
    frames := b.frames ++ [(v, isDone)]
    appended := b.appended ++ [(v, isDone)]
    isDone }

/-- `createBatch` reads the first frames -/
def readWindow : Buffer G F :=
  { b with windows := b.windows ++ [b.frames.take c.returnsLength_] }

def dropFrames : Buffer G F := { b with frames := b.frames.drop c.toDelete }

def clearFrames : Buffer G F := { b with frames := [] }

def setUpdateNum (n : Nat) (b : Buffer G F) : Buffer G F := { b with lastUpdateNum := n }

end Buffer

/-- `readyToUpdate_` holds the time at which a buffer became ready -/
structure SyncTrainer (G K F : Type) [LinearOrder G] [LinearOrder K] where
  trainer : Trainer G K F := {}
  train_ : Bool := true
  updateCount_ : Nat := 0
  buffers_ : List (Buffer G F) := []
  gamesToBuffers_ : OrdMap G Nat := .empty
  readyToUpdate_ : OrdMap Nat Nat := .empty

inductive SyncError where
  /-- the exception: the handle no longer owns its buffer -/
  | notOwner
  /-- the fatal error: wrong buffer size -/
  | wrongBufferSize
  deriving DecidableEq

variable {G K F : Type} [LinearOrder G] [LinearOrder K] [Inhabited K]

def bestFree (best : Option (Nat × Nat)) (i : Nat) : List (Buffer G F) → Option (Nat × Nat)
  | [] => best
  | b :: buffers =>
    if b.isDone = false then bestFree best (i + 1) buffers
    else
      match best with
      | none => bestFree (some (i, b.lastUpdateNum)) (i + 1) buffers
      | some (idx, bestValue) =>
        if b.lastUpdateNum < bestValue then bestFree (some (i, b.lastUpdateNum)) (i + 1) buffers
        else bestFree (some (idx, bestValue)) (i + 1) buffers

namespace SyncTrainer
variable (c : Config) (s : SyncTrainer G K F)

def size (i : Nat) : Nat := ((s.buffers_[i]?).map fun b => b.frames.length).getD 0

def setBuffer (i : Nat) (f : Buffer G F → Buffer G F) : SyncTrainer G K F :=
  { s with buffers_ := s.buffers_.modify i f }

def own (key : G) (idx : Nat) : SyncTrainer G K F :=
  { s.setBuffer idx fun b => { b with currentOwner := some key, isDone := false } with
    gamesToBuffers_ := s.gamesToBuffers_.assign key idx }

def getBufferForHandleUNSAFE (key : G) : Except SyncError (Nat × SyncTrainer G K F) :=
  match s.gamesToBuffers_.find key with
  | some i =>
    if (s.buffers_[i]?).bind Buffer.currentOwner = some key then .ok (i, s) else .error .notOwner
  | none =>
    match bestFree none 0 s.buffers_ with
    | some (idx, _) => .ok (idx, s.own key idx)
    | none =>
      let idx := s.buffers_.length
      .ok (idx, { s with buffers_ := s.buffers_ ++ [({} : Buffer G F)] }.own key idx)

def append (e : G × K) (v : F) (isDone : Bool) (now i : Nat) : SyncTrainer G K F :=
  let s := s.setBuffer i (Buffer.append v isDone)
  let s := if isDone then { s with trainer := s.trainer.forceStopEpisode e.1 e.2 } else s
  if c.returnsLength_ ≤ s.size i then
    { s with readyToUpdate_ := s.readyToUpdate_.emplace i now }
  else s

def step (e : G × K) (v : F) (isDone : Bool) (now : Nat) : Except SyncError (SyncTrainer G K F) :=
  if s.train_ = false ∨ s.trainer.isActive e.1 e.2 = false then .ok s
  else
    match s.getBufferForHandleUNSAFE e.1 with
    | .error error => .error error
    | .ok (i, s) => .ok (s.append c e v isDone now i)

/-- up to the wait for the buffer to be trained -/
def forward (e : G × K) : Except SyncError (SyncTrainer G K F) :=
  if c.forceOnPolicy_ = false ∨ s.trainer.isActive e.1 e.2 = false then .ok s
  else (s.getBufferForHandleUNSAFE e.1).map Prod.snd

def discard (i : Nat) : SyncTrainer G K F :=
  { s.setBuffer i fun b =>
      { b with frames := [], isDone := true, lastUpdateNum := s.updateCount_ } with
    readyToUpdate_ := s.readyToUpdate_.erase i }

def forceStopEpisode (e : G × K) : Except SyncError (SyncTrainer G K F) :=
  if s.trainer.isActive e.1 e.2 = false then .ok s
  else
    match { s with trainer := s.trainer.forceStopEpisode e.1 e.2 }.getBufferForHandleUNSAFE e.1 with
    | .error error => .error error
    | .ok (i, s) => .ok (s.discard i)

/-- enough buffers are ready, or one has been ready for more than five seconds -/
def shouldDoUpdate (now : Nat) : Bool :=
  decide (c.trainerBatchSize_ ≤ s.readyToUpdate_.entries.length) ||
    s.readyToUpdate_.entries.any fun e => decide (5000 < now - e.2)

/-- the loop stops when the batch is full -/
def selectBuffers (order : List Nat) : List Nat :=
  if c.trainerBatchSize_ ≤ 0 then order else order.take c.trainerBatchSize_.toNat

def trim (s : SyncTrainer G K F) (g : Nat) : SyncTrainer G K F :=
  let s := s.setBuffer g (Buffer.dropFrames c)
  if s.size g < c.returnsLength_ then { s with readyToUpdate_ := s.readyToUpdate_.erase g } else s

def cleanUp (selected : List Nat) : SyncTrainer G K F :=
  if c.forceOnPolicy_ then
    { s with buffers_ := s.buffers_.map Buffer.clearFrames, readyToUpdate_ := .empty }
  else selected.foldl (trim c) s

def setUpdateNums (selected : List Nat) : SyncTrainer G K F :=
  { s with buffers_ := modifyAll (Buffer.setUpdateNum s.updateCount_) selected s.buffers_ }

def train (selected : List Nat) : SyncTrainer G K F :=
  { s with
    updateCount_ := s.updateCount_ + 1
    buffers_ := modifyAll (Buffer.readWindow c) selected s.buffers_ }

/-- `order` is the order in which `readyToUpdate_` is iterated -/
def update (order : List Nat) : Except SyncError (Bool × SyncTrainer G K F) :=
  if s.readyToUpdate_.entries = [] then .ok (false, s)
  else
    let selected := selectBuffers c order
    if ∃ g ∈ selected, s.size g < c.returnsLength_ then .error .wrongBufferSize
    else .ok (true, ((s.train c selected).cleanUp c selected).setUpdateNums selected)

def reset (order : List (G × K)) : SyncTrainer G K F :=
  { s with
    buffers_ := s.buffers_.map fun b =>
      { b with frames := [], isDone := true, currentOwner := none }
    readyToUpdate_ := .empty
    trainer := s.trainer.reset order }

end SyncTrainer

/-! ## runs -/

variable (G K F)

structure Session where
  sync : SyncTrainer G K F := {}
  failed : Option SyncError := none
  /-- the ids that `genGameUID` returned -/
  uids : List G := []
  /-- an active episode was stopped by force, or the trainer was reset -/
  disturbed : Bool := false

inductive SyncOp where
  | startEpisode (uid : G)
  | step (e : G × K) (v : F) (isDone : Bool) (now : Nat)
  | forward (e : G × K)
  | forceStopEpisode (e : G × K)
  | update (now : Nat) (order : List Nat)
  | reset (order : List (G × K))
  | setTrain (train : Bool)

variable {G K F}

def Session.after (w : Session G K F) :
    Except SyncError (SyncTrainer G K F) → Session G K F
  | .ok sync => { w with sync }
  | .error error => { w with failed := some error }

def SyncOp.run (c : Config) (w : Session G K F) : SyncOp G K F → Session G K F
  | .startEpisode uid =>
    { w with
      sync := { w.sync with trainer := w.sync.trainer.startEpisode uid }
      uids := uid :: w.uids }
  | .step e v isDone now => w.after (w.sync.step c e v isDone now)
  | .forward e => w.after (w.sync.forward c e)
  | .forceStopEpisode e =>
    { w with disturbed := w.disturbed || w.sync.trainer.isActive e.1 e.2 }.after
      (w.sync.forceStopEpisode e)
  | .update _ order => w.after ((w.sync.update c order).map Prod.snd)
  | .reset order => { w with sync := w.sync.reset order, disturbed := true }
  | .setTrain train => { w with sync := { w.sync with train_ := train } }

/-- ids are new, `update` has waited long enough, and maps are iterated in some order -/
def SyncOp.Ok (c : Config) (w : Session G K F) : SyncOp G K F → Prop
  | .startEpisode uid => uid ∉ w.uids
  | .update now order => w.sync.shouldDoUpdate c now = true ∧
    order.Perm (w.sync.readyToUpdate_.entries.map Prod.fst)
  | .reset order => order.Perm (pairs w.sync.trainer.actives_)
  | _ => True

instance SyncOp.decidableOk (c : Config) (w : Session G K F) :
    ∀ o : SyncOp G K F, Decidable (o.Ok c w)
  | .startEpisode _ => inferInstanceAs (Decidable (_ ∉ _))
  | .step _ _ _ _ | .forward _ | .forceStopEpisode _ => inferInstanceAs (Decidable True)
  | .update _ _ => inferInstanceAs (Decidable (_ ∧ List.Perm _ _))
  | .reset _ => inferInstanceAs (Decidable (List.Perm _ _))
  | .setTrain _ => inferInstanceAs (Decidable True)

def syncSys (G K F : Type) [LinearOrder G] [LinearOrder K] [Inhabited K] (c : Config) :
    Sys (Session G K F) (SyncOp G K F) where
  run w o := o.run c w
  ok w o := w.failed = none ∧ o.Ok c w

instance syncSys_decidable (c : Config) (w : Session G K F) (o : SyncOp G K F) :
    Decidable ((syncSys G K F c).ok w o) := inferInstanceAs (Decidable (_ ∧ _))

end TorchCraft.Training
