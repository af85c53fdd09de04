import Mathlib.Data.List.Perm.Basic
import TorchCraft.Lib.Sys

/-!
# The buffered transport

A consumer hands messages to any number of producers over a request-reply client.  A message stays
in `pending_` until a producer has confirmed it; after a denial or an exception it is requested
again.

* `Call`  a request: its message, the replies that handlers made to it, its result;
* `consume`  the next step of the consumer's send function;
* `handleRequest`, `confirm`, `produce`  a producer;
* `transportSys`  everything, in any order.

A call may be delivered any number of times, to any producer, and its result is one of the replies
made to it or an exception: this is what the request-reply client is taken to guarantee.
-/

namespace TorchCraft.ZeroMQ
open Lib

abbrev Blob := List Char

def kConfirm : Blob := ['A', 'C', 'K']

def kDeny : Blob := ['D', 'E', 'N', 'Y']

inductive Outcome where
  | reply (content : Blob)
  | exception
  deriving DecidableEq

structure Call where
  msg : Blob
  replies : List Blob := []
  result : Option Outcome := none
  deriving DecidableEq

/-- where the consumer is in the function it sends with -/
inductive Place where
  | idle
  | check (ca : Blob)
  | scan (ca : Blob) (i : Nat)
  deriving DecidableEq

/-- `P` are the producers.  The last five fields record what happened. -/
structure Transport (P : Type) where
  pending_ : List (Blob × Nat) := []
  place : Place := .idle
  calls : List Call := []
  queue_ : P → List Blob := fun _ => []
  /-- calls whose message was placed and that are about to be confirmed -/
  confirming : List (P × Nat) := []
  handed : List Blob := []
  placed : List (P × Nat × Blob) := []
  confirmed : List (P × Nat) := []
  taken : List (P × Blob) := []
  released : List (Blob × Nat) := []

variable {P : Type} [DecidableEq P]

/-! ## the calls -/

variable (calls : List Call)

def ask (msg : Blob) : List Call := calls ++ [{ msg := msg }]

def addReply (n : Nat) (content : Blob) : List Call :=
  calls.modify n fun c => { c with replies := c.replies ++ [content] }

def settle (n : Nat) (outcome : Outcome) : List Call :=
  calls.modify n fun c => { c with result := some outcome }

namespace Transport
variable (s : Transport P)

/-! ## the consumer -/

/-- the request at `i` is sent again -/
def resend (ca : Blob) (i : Nat) (req : Blob) : Transport P :=
  { s with
    pending_ := s.pending_.set i (req, s.calls.length)
    calls := ask s.calls req
    place := .scan ca (i + 1) }

def consume (maxConcurrentRequests_ : Nat) : Transport P :=
  match s.place with
  | .idle => s
  | .check ca =>
    if maxConcurrentRequests_ ≤ s.pending_.length then { s with place := .scan ca 0 }
    else
      { s with
        pending_ := s.pending_ ++ [(ca, s.calls.length)]
        calls := ask s.calls ca
        place := .idle }
  | .scan ca i =>
    match s.pending_[i]? with
    | none => { s with place := .check ca }
    | some (req, n) =>
      match (s.calls[n]?).bind Call.result with
      | none => { s with place := .scan ca (i + 1) }
      | some .exception => s.resend ca i req
      | some (.reply content) =>
        if content = kConfirm then
          { s with pending_ := s.pending_.eraseIdx i, released := (req, n) :: s.released }
        else s.resend ca i req

/-! ## the producers -/

/-- a producer gets the message of a call; the lock is held until the message is placed or denied -/
def handleRequest (maxInQueue_ : P → Nat) (p : P) (n : Nat) : Transport P :=
  match s.calls[n]? with
  | none => s
  | some call =>
    if maxInQueue_ p ≤ (s.queue_ p).length then { s with calls := addReply s.calls n kDeny }
    else
      { s with
        queue_ := Function.update s.queue_ p (s.queue_ p ++ [call.msg])
        confirming := (p, n) :: s.confirming
        placed := (p, n, call.msg) :: s.placed }

def confirm (p : P) (n : Nat) : Transport P :=
  { s with
    calls := addReply s.calls n kConfirm
    confirming := s.confirming.erase (p, n)
    confirmed := (p, n) :: s.confirmed }

def produce (p : P) : Transport P :=
  match s.queue_ p with
  | [] => s
  | data :: rest =>
    { s with
      queue_ := Function.update s.queue_ p rest
      taken := (p, data) :: s.taken }

end Transport

/-! ## runs -/

inductive Op (P : Type) where
  | hand (msg : Blob)
  | consume
  | handleRequest (p : P) (n : Nat)
  | confirm (p : P) (n : Nat)
  | settle (n : Nat) (outcome : Outcome)
  | produce (p : P)

def Op.run (maxConcurrentRequests_ : Nat) (maxInQueue_ : P → Nat) (s : Transport P) :
    Op P → Transport P
  | .hand msg => { s with place := .check msg, handed := msg :: s.handed }
  | .consume => s.consume maxConcurrentRequests_
  | .handleRequest p n => s.handleRequest maxInQueue_ p n
  | .confirm p n => s.confirm p n
  | .settle n outcome => { s with calls := ZeroMQ.settle s.calls n outcome }
  | .produce p => s.produce p

/-- a result is one of the replies made to the call, or an exception -/
def Settles (n : Nat) (outcome : Outcome) : Prop :=
  ∃ call ∈ calls[n]?, call.result = none ∧
    match outcome with
    | .reply content => content ∈ call.replies
    | .exception => True

/-- one message is sent at a time; what is delivered was requested; `produce` waits for a message -/
def Op.Ok (s : Transport P) : Op P → Prop
  | .hand _ => s.place = .idle
  | .consume => True
  | .handleRequest _ n => n < s.calls.length
  | .confirm p n => (p, n) ∈ s.confirming
  | .settle n outcome => Settles s.calls n outcome
  | .produce p => s.queue_ p ≠ []

instance decidableSettles (calls : List Call) (n : Nat) : ∀ o, Decidable (Settles calls n o)
  | .reply content =>
    inferInstanceAs (Decidable (∃ call ∈ calls[n]?, call.result = none ∧ content ∈ call.replies))
  | .exception => inferInstanceAs (Decidable (∃ call ∈ calls[n]?, call.result = none ∧ True))

instance Op.decidableOk (s : Transport P) : ∀ o : Op P, Decidable (o.Ok s)
  | .hand _ => inferInstanceAs (Decidable (_ = _))
  | .consume => inferInstanceAs (Decidable True)
  | .handleRequest _ _ => inferInstanceAs (Decidable (_ < _))
  | .confirm _ _ => inferInstanceAs (Decidable (_ ∈ _))
  | .settle n outcome => inferInstanceAs (Decidable (Settles s.calls n outcome))
  | .produce _ => inferInstanceAs (Decidable (_ ≠ _))

def transportSys (P : Type) [DecidableEq P] (maxConcurrentRequests_ : Nat) (maxInQueue_ : P → Nat) :
    Sys (Transport P) (Op P) where
  run s o := o.run maxConcurrentRequests_ maxInQueue_ s
  ok s o := o.Ok s

instance transportSys_decidable (m : Nat) (k : P → Nat) (s : Transport P) (o : Op P) :
    Decidable ((transportSys P m k).ok s o) := Op.decidableOk s o

end TorchCraft.ZeroMQ
