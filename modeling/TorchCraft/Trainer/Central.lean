import TorchCraft.Lib.Sys
import TorchCraft.Lib.Windows
import TorchCraft.Trainer.Model

/-!
# The central trainer

A trainer that hands pieces of its episodes to a client as they are played, and keeps the pieces
that the client does not take.  It either sends from the stored episode, which it crops in place, or
it moves each frame to a row of a pool (`serveContinuously`).

* `BufferPool`  `get`, `add`, `free` with their assertions;
* `CentralTrainer`  `stepFrame`, `stepEpisode`, `step`, `startEpisode`, `forceStopEpisode`;
* `step_of_active`  a frame is stored, sent if it is due, and the last one ends the episode;
* `CentralWorld`  the trainer and the handles of its users;
* `CentralOp`, `centralSys`  the calls, in any order; what `randId` returns and whether a piece is
  taken is part of a call;
* `opened_eq_some`, `moved_eq_some`, `dropped_eq_some`  what the handles hold after a start, a move
  and a destruction.

`ASSERT` throws.  A throw out of `forceStopEpisode` leaves the assignment of a handle undone, and it
ends the process in the destructor of a handle.  Each call is atomic.
-/

set_option linter.unusedSectionVars false

namespace TorchCraft.Training
open Lib Lib.Nested Function

/-! ## the pool of rows -/

inductive Fault where
  /-- `get`: Id not registered in pool -/
  | notRegistered
  /-- `add`: cannot find free row -/
  | noFreeRow
  /-- `free`: No such id to free -/
  | noSuchId
  /-- `stepFrame`: Cannot serve continuously and be episodic -/
  | episodic
  deriving DecidableEq

structure BufferPool (G F : Type) [LinearOrder G] where
  pool_ : List (List F) := []
  poolToId_ : List (Option G) := []
  idToPool_ : OrdMap G Nat := .empty

variable {G K F : Type} [LinearOrder G] [LinearOrder K]

namespace BufferPool
variable (b : BufferPool G F) (id : G)

def get : Except Fault Nat :=
  match b.idToPool_.find id with
  | some i => .ok i
  | none => .error .notRegistered

/-- a new row if there are as many ids as rows, else the first free one; what is in it stays -/
def add : Except Fault (BufferPool G F) :=
  if b.idToPool_.entries.length = b.pool_.length then
    .ok
      { pool_ := b.pool_ ++ [[]]
        poolToId_ := b.poolToId_ ++ [some id]
        idToPool_ := b.idToPool_.assign id b.poolToId_.length }
  else
    match b.poolToId_.findIdx? Option.isNone with
    | some i =>
      .ok { b with poolToId_ := b.poolToId_.set i (some id), idToPool_ := b.idToPool_.assign id i }
    | none => .error .noFreeRow

def free : Except Fault (BufferPool G F) :=
  match b.idToPool_.find id with
  | some i => .ok { b with poolToId_ := b.poolToId_.set i none, idToPool_ := b.idToPool_.erase id }
  | none => .error .noSuchId

end BufferPool

/-! ## the trainer -/

structure Settings where
  maxSz : Nat
  sendInterval : Nat
  serveContinuously : Bool := false
  isServer : Bool := false

structure CentralTrainer (G K F : Type) [LinearOrder G] [LinearOrder K] extends Trainer G K F where
  bufferPool_ : BufferPool G F := {}
  newBatches_ : List (G × K) := []
  /-- what was handed to `episodeClientEnqueue` -/
  enqueued : List ((G × K) × List F) := []

def cropped (maxSz : Nat) (ep : List F) : List F :=
  if ep.length > maxSz then ep.drop (ep.length - maxSz) else ep

lemma cropped_eq (maxSz : Nat) (ep : List F) : cropped maxSz ep = crop maxSz ep := by
  unfold cropped
  split
  · rfl
  · exact (Strided.crop_of_length (by omega)).symm

namespace CentralTrainer
variable [Inhabited K] (S : Settings) (c : CentralTrainer G K F)

def store (gameId : G) (k : K) (ep : List F) : CentralTrainer G K F :=
  { c with replayer_.storage_ := put c.replayer_.storage_ gameId k ep }

def write (i : Nat) (ep : List F) : CentralTrainer G K F :=
  { c with bufferPool_.pool_ := c.bufferPool_.pool_.set i ep }

/-- A piece that is not taken is put into the local replay buffer, unless it is under the default
key -/
def send (gameId : G) (key : K) (ep : List F) (accepted : Bool) : CentralTrainer G K F :=
  if accepted then { c with enqueued := c.enqueued ++ [((gameId, key), ep)] }
  else
    { c with
      enqueued := c.enqueued ++ [((gameId, key), ep)]
      replayer_ :=
        if key ≠ default then
          ep.foldl (fun b f => (b.append gameId key f false).2) c.replayer_
        else c.replayer_
      newBatches_ := c.newBatches_ ++ [(gameId, key)] }

def maxBatchLength : Nat := 4294967295

/-- `episode` is the stored episode, with the new frame -/
def stepFrame (gameId : G) (k : K) (episode : List F) (randId : K) (accepted : Bool) :
    CentralTrainer G K F × Option Fault :=
  if S.serveContinuously then
    if S.maxSz = maxBatchLength then (c, some .episodic)
    else
      match c.bufferPool_.get gameId with
      | .error fault => (c, some fault)
      | .ok i =>
        -- the frame moves from the episode to the row
        let ep := (c.bufferPool_.pool_[i]?).getD [] ++ episode.getLast?.toList
        let c := c.store gameId k episode.dropLast
        if ep.length = S.maxSz ∨ ep.length = S.maxSz + S.sendInterval then
          let ep := cropped S.maxSz ep
          ((c.write i ep).send gameId randId ep accepted, none)
        else (c.write i ep, none)
  else if episode.length = S.maxSz ∨ episode.length = S.maxSz + S.sendInterval ∨
      c.replayer_.isDone gameId default = true then
    let key := if episode.length < S.maxSz then default else randId
    let ep := cropped S.maxSz episode
    ((c.store gameId k ep).send gameId key ep accepted, none)
  else (c, none)

def stepEpisode (gameId : G) (key : K) : CentralTrainer G K F :=
  if S.isServer then c else { c with replayer_ := c.replayer_.erase gameId key }

/-- `Trainer::step`; a throw leaves the episode active -/
def step (uid : G) (k : K) (v : F) (isDone : Bool) (randId : K) (accepted : Bool) :
    CentralTrainer G K F × Option Fault :=
  if c.isActive uid k = false then (c, none)
  else
    let (episode, replayer) := c.replayer_.append uid k v isDone
    match stepFrame S { c with replayer_ := replayer } uid k episode randId accepted with
    | (c, some fault) => (c, some fault)
    | (c, none) =>
      if isDone then (stepEpisode S { c with actives_ := drop c.actives_ uid k } uid k, none)
      else (c, none)

def startEpisode (uid : G) : CentralTrainer G K F × Option Fault :=
  let c := { c with toTrainer := c.toTrainer.startEpisode uid }
  if S.serveContinuously then
    match c.bufferPool_.add uid with
    | .ok pool => ({ c with bufferPool_ := pool }, none)
    | .error fault => (c, some fault)
  else (c, none)

def forceStopEpisode (uid : G) (k : K) : CentralTrainer G K F × Option Fault :=
  let c := { c with toTrainer := c.toTrainer.forceStopEpisode uid k }
  if S.serveContinuously then
    match c.bufferPool_.free uid with
    | .ok pool => ({ c with bufferPool_ := pool }, none)
    | .error fault => (c, some fault)
  else (c, none)

def ended (uid : G) (k : K) : CentralTrainer G K F :=
  stepEpisode S { c with actives_ := drop c.actives_ uid k } uid k

section step
variable {S c} {uid : G} {k : K}

lemma step_of_inactive (h : ¬c.isActive uid k) (v : F) (isDone : Bool) (randId : K)
    (accepted : Bool) : c.step S uid k v isDone randId accepted = (c, none) :=
  if_pos (Bool.not_eq_true _ ▸ h)

lemma step_of_active (h : c.isActive uid k) (v : F) (isDone : Bool) (randId : K)
    (accepted : Bool) :
    c.step S uid k v isDone randId accepted =
      let r := stepFrame S { c with replayer_ := (c.replayer_.append uid k v isDone).2 } uid k
        (c.replayer_.append uid k v isDone).1 randId accepted
      if r.2.isSome then r else (if isDone then r.1.ended S uid k else r.1, none) := by
  unfold step
  rw [if_neg (by simp [h])]
  dsimp only
  generalize stepFrame S { c with replayer_ := (c.replayer_.append uid k v isDone).2 } uid k
    (c.replayer_.append uid k v isDone).1 randId accepted = r
  obtain ⟨c', fault⟩ := r
  cases fault with
  | some fault => rfl
  | none =>
    cases isDone with
    | true | false => rfl

lemma ended_frame (uid : G) (k : K) :
    (c.ended S uid k).bufferPool_ = c.bufferPool_ ∧
      (c.ended S uid k).actives_ = drop c.actives_ uid k := by
  unfold ended stepEpisode
  split <;> exact ⟨rfl, rfl⟩

end step

end CentralTrainer

/-! ## the trainer and its users -/

variable (G K F)

structure CentralWorld where
  trainer : CentralTrainer G K F := {}
  handles : Nat → Option (G × K) := fun _ => none
  crashed : Bool := false
  /-- what has happened, the last event first -/
  events : List (Event G K F) := []
  /-- the ids that `genGameUID` returned -/
  uids : List G := []
  /-- the episodes that `forceStopEpisode` was called for -/
  stops : List (G × K) := []
  /-- what the calls threw -/
  faults : List Fault := []

inductive CentralOp where
  | startEpisode (uid : G) (handle : Nat)
  | step (handle : Nat) (v : F) (isDone : Bool) (randId : K) (accepted : Bool)
  | forceStopEpisode (handle : Nat)
  | reset (order : List (G × K))
  | moveConstruct (this other : Nat)
  | moveAssign (this other : Nat)
  | destroy (handle : Nat)

variable {G K F} [Inhabited K] (S : Settings) {handles : Nat → Option (G × K)} {this other i : Nat}
  {e : G × K}

namespace CentralWorld
variable (w : CentralWorld G K F)

def start (uid : G) (handle : Nat) : CentralWorld G K F :=
  let (trainer, fault) := w.trainer.startEpisode S uid
  { w with
    trainer
    -- the handle goes away with the call that throws, and throws again
    handles := if fault.isSome then w.handles
      else update w.handles handle (some (uid, default))
    crashed := fault.isSome
    events := ((uid, default), .start) :: w.events
    uids := uid :: w.uids
    faults := fault.toList ++ w.faults }

def step (e : G × K) (v : F) (isDone : Bool) (randId : K) (accepted : Bool) : CentralWorld G K F :=
  let (trainer, fault) := w.trainer.step S e.1 e.2 v isDone randId accepted
  { w with
    trainer
    events := (e, .step v isDone) :: w.events
    faults := fault.toList ++ w.faults }

def stop (e : G × K) : CentralWorld G K F × Option Fault :=
  let (trainer, fault) := w.trainer.forceStopEpisode S e.1 e.2
  ({ w with
      trainer
      events := (e, .stop) :: w.events
      stops := e :: w.stops
      faults := fault.toList ++ w.faults }, fault)

def release (handle : Nat) : CentralWorld G K F × Option Fault :=
  match w.handles handle with
  | some e => w.stop S e
  | none => (w, none)

end CentralWorld

def CentralOp.run (w : CentralWorld G K F) : CentralOp G K F → CentralWorld G K F
  | .startEpisode uid handle => w.start S uid handle
  | .step handle v isDone randId accepted =>
    match w.handles handle with
    | some e => w.step S e v isDone randId accepted
    | none => w
  | .forceStopEpisode handle => (w.release S handle).1
  | .reset order =>
    { w with
      trainer := { w.trainer with toTrainer := w.trainer.toTrainer.reset order }
      events := (order.map (·, Act.stop)).reverse ++ w.events }
  | .moveConstruct this other =>
    match w.handles other with
    | some e =>
      { w with handles := update (update w.handles this (some e)) other none }
    | none => { w with crashed := true }
  | .moveAssign this other =>
    let (w', fault) := w.release S this
    if fault.isSome then w'
    else
      { w' with
        handles := update (update w.handles this (w.handles other)) other none }
  | .destroy handle =>
    let (w', fault) := w.release S handle
    { w' with handles := update w.handles handle none, crashed := fault.isSome }

/-- ids are new, a random key is not the default one, a handle is constructed where there is none,
and the copy is iterated in some order -/
def CentralOp.Ok (w : CentralWorld G K F) : CentralOp G K F → Prop
  | .startEpisode uid handle => uid ∉ w.uids ∧ w.handles handle = none
  | .step _ _ _ randId _ => randId ≠ default
  | .reset order => order.Perm (pairs w.trainer.actives_)
  | .moveConstruct this _ => w.handles this = none
  | _ => True

instance CentralOp.decidableOk (w : CentralWorld G K F) : ∀ o : CentralOp G K F, Decidable (o.Ok w)
  | .startEpisode _ _ => inferInstanceAs (Decidable (_ ∧ _))
  | .step _ _ _ _ _ => inferInstanceAs (Decidable (_ ≠ _))
  | .forceStopEpisode _ => inferInstanceAs (Decidable True)
  | .reset _ => inferInstanceAs (Decidable (List.Perm _ _))
  | .moveConstruct _ _ => inferInstanceAs (Decidable (_ = _))
  | .moveAssign _ _ | .destroy _ => inferInstanceAs (Decidable True)

def centralSys (G K F : Type) [LinearOrder G] [LinearOrder K] [Inhabited K] (S : Settings) :
    Sys (CentralWorld G K F) (CentralOp G K F) where
  run w o := o.run S w
  ok w o := w.crashed = false ∧ o.Ok w

instance centralSys_decidable (w : CentralWorld G K F) (o : CentralOp G K F) :
    Decidable ((centralSys G K F S).ok w o) :=
  inferInstanceAs (Decidable (_ ∧ _))

/-! ## handles -/

lemma set_eq_some {o : Option (G × K)} (h : update handles this o i = some e) :
    i = this ∧ o = some e ∨ i ≠ this ∧ handles i = some e := by
  by_cases hi : i = this
  · rw [hi, update_self] at h
    exact .inl ⟨hi, h⟩
  · rw [update_of_ne hi] at h
    exact .inr ⟨hi, h⟩

lemma opened_eq_some {e' : G × K} (h : update handles this (some e') i = some e) :
    i = this ∧ e = e' ∨ i ≠ this ∧ handles i = some e :=
  (set_eq_some h).imp_left fun hset => ⟨hset.1, (Option.some.inj hset.2).symm⟩

lemma moved_eq_some
    (h : update (update handles this (handles other)) other none i = some e) :
    i ≠ other ∧ (i = this ∧ handles other = some e ∨ i ≠ this ∧ handles i = some e) := by
  obtain ⟨-, h⟩ | ⟨hi, h⟩ := set_eq_some h
  · cases h
  · exact ⟨hi, set_eq_some h⟩

lemma dropped_eq_some (h : update handles this none i = some e) :
    i ≠ this ∧ handles i = some e :=
  (set_eq_some h).resolve_left fun hset => nomatch hset.2

end TorchCraft.Training
