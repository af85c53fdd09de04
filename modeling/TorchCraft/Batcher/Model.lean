import Mathlib.Data.List.ModifyLast
import TorchCraft.Lib.Sys

/-!
# `cpid::AsyncBatcher`: producers and the consume thread

Any number of threads call `batchedForward`; one consume thread takes the queued queries in batches,
forwards each batch and resolves the promises.  A critical section under `accessMutex_` is one step,
and so is every promise the consumer resolves outside of it, so that a run is an interleaving of
the producers' critical sections with the steps of the consumer.

A promise is numbered by its arrival: promise `p` is the one of the query `arrivals[p]`.
Batching is started and not stopped.
-/

namespace TorchCraft.Batcher
open TorchCraft.Lib

inductive Outcome (R E : Type*)
  | value (r : R)
  | exception (e : E)
deriving DecidableEq, Repr

inductive Phase (Q R E : Type*)
  -- in `batchReadyCV_.wait`
  | waiting
  -- a batch is taken and the lock released
  | working (queries : List Q) (replies : List Nat)
  -- in the loop of `set_value` or of `set_exception`
  | resolving (todo : List (Nat × Outcome R E))
  -- the process is gone: `LOG(FATAL)`, or an exception left the thread
  | fatal (text : String)

/-- a batch that was taken, and the model it was forwarded with once it was -/
structure Batch (Q I O E : Type*) where
  queries : List Q
  replies : List Nat
  model : Option (I → Except E O)

/-- the batcher; `arrivals`, `batches` and `resolved` are the history of what happened -/
structure AsyncBatcher (Q I O R E : Type*) where
  batchSize : Nat
  -- `startBatching` throws "Batchsize must be at least 1" otherwise
  hbatchSize : 1 ≤ batchSize
  model : I → Except E O
  queries : List Q
  replies : List Nat
  consumer : Phase Q R E
  arrivals : List Q
  batches : List (Batch Q I O E)
  resolved : List (Nat × Outcome R E)

variable {Q I O R E : Type*}

def AsyncBatcher.start (batchSize : Nat) (h : 1 ≤ batchSize) (model : I → Except E O) :
    AsyncBatcher Q I O R E where
  batchSize := batchSize
  hbatchSize := h
  model := model
  queries := []
  replies := []
  consumer := .waiting
  arrivals := []
  batches := []
  resolved := []

/-! ## the producers -/

def sizeMismatch (replies queries : Nat) : String :=
  "Size mismatch between replies (" ++ toString replies ++ ") and queries(" ++ toString queries ++ ")"

variable (s : AsyncBatcher Q I O R E)

/-- the critical section of `batchedForward`: a new promise and the query go to the back -/
def batchedForward (state : Q) : AsyncBatcher Q I O R E :=
  let s' := { s with replies := s.replies ++ [s.arrivals.length]
                     queries := s.queries ++ [state]
                     arrivals := s.arrivals ++ [state] }
  if s'.replies.length ≠ s'.queries.length then
    { s' with consumer := .fatal (sizeMismatch s'.replies.length s'.queries.length) }
  else s'

def setModel (newModel : I → Except E O) : AsyncBatcher Q I O R E :=
  { s with model := newModel }

/-! ## the consume thread -/

/-- `std::move(l.begin() + n, l.end(), l.begin())`; the last `n` places stay -/
def moveDown {A : Type*} (n : Nat) (l : List A) : List A := l.drop n ++ l.drop (l.length - n)

def shift {A : Type*} (n : Nat) (l : List A) : List A := (moveDown n l).take (l.length - n)

def todoSize : Nat := min s.batchSize s.queries.length

def takeBatch : AsyncBatcher Q I O R E :=
  let n := todoSize s
  { s with queries := shift n s.queries
           replies := shift n s.replies
           consumer := .working (s.queries.take n) (s.replies.take n)
           batches := s.batches ++ [⟨s.queries.take n, s.replies.take n, none⟩] }

section forward
variable (makeBatch : List Q → Except E I) (unBatch : O → Except E (List R))

def forward (model : I → Except E O) (queries : List Q) : Except E (List R) :=
  (makeBatch queries).bind fun input => (model input).bind unBatch

def answers (replies : List Nat) : Except E (List R) → List (Nat × Outcome R E)
  | .ok values => replies.zip (values.map .value)
  | .error e => replies.map fun p => (p, .exception e)

def replyMismatch (values replies : Nat) : String :=
  "The batch size of the reply (" ++ toString values ++
    ") doesn't match the expected batch size (" ++ toString replies ++ ")"

def mismatch (replies : List Nat) : Except E (List R) → Option Nat
  | .ok values => if replies.length ≠ values.length then some values.length else none
  | .error _ => none

def forwarded (model : I → Except E O) (bs : List (Batch Q I O E)) : List (Batch Q I O E) :=
  bs.modifyLast fun b => { b with model := some model }

def forwardBatch (s : AsyncBatcher Q I O R E) (queries : List Q) (replies : List Nat) :
    AsyncBatcher Q I O R E :=
  match mismatch replies (forward makeBatch unBatch s.model queries) with
  | some n => { s with consumer := .fatal (replyMismatch n replies.length) }
  | none =>
    { s with consumer := .resolving (answers replies (forward makeBatch unBatch s.model queries))
             batches := forwarded s.model s.batches }

/-- one `set_value` or `set_exception`; on a promise that has its value the thread ends in
`std::terminate` -/
def resolve (s : AsyncBatcher Q I O R E) : List (Nat × Outcome R E) → AsyncBatcher Q I O R E
  | [] => { s with consumer := .waiting }
  | (p, o) :: todo =>
    if p ∈ s.resolved.map Prod.fst then
      { s with consumer := .fatal "std::terminate" }
    else
      { s with resolved := s.resolved ++ [(p, o)]
               consumer := if todo.isEmpty then .waiting else .resolving todo }

def consume (s : AsyncBatcher Q I O R E) : AsyncBatcher Q I O R E :=
  match s.consumer with
  | .waiting => takeBatch s
  | .working queries replies => forwardBatch makeBatch unBatch s queries replies
  | .resolving todo => resolve s todo
  | .fatal _ => s

end forward

/-! ## interleavings -/

inductive BatcherOp (Q I O E : Type*)
  | batchedForward (state : Q)
  | setModel (newModel : I → Except E O)
  | consume

def Phase.Alive : Phase Q R E → Prop
  | .fatal _ => False
  | _ => True

/-- the consumer has something to do: `wait` returns once there is a query -/
def Ready : Prop :=
  match s.consumer with
  | .waiting => s.queries ≠ []
  | .fatal _ => False
  | _ => True

variable (makeBatch : List Q → Except E I) (unBatch : O → Except E (List R))

def batcherSys : Sys (AsyncBatcher Q I O R E) (BatcherOp Q I O E) where
  run s
    | .batchedForward state => batchedForward s state
    | .setModel newModel => setModel s newModel
    | .consume => consume makeBatch unBatch s
  ok s
    | .batchedForward _ => s.consumer.Alive
    | .setModel _ => s.consumer.Alive
    | .consume => Ready s

def consumes : List (BatcherOp Q I O E) → Nat
  | [] => 0
  | .consume :: os => consumes os + 1
  | _ :: os => consumes os

end TorchCraft.Batcher
