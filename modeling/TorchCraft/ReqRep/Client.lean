import Mathlib.Data.List.Sort
import TorchCraft.Lib.Assoc
import TorchCraft.Lib.Sys

/-!
# The request-reply client

`ReqRepClient::request` queues a message and returns a future; the client thread sends the messages
under new random ids, waits for replies and sends expired requests again.  Other threads call
`request`, `updateEndpoints` and the destructor at any time.

* `Client`  the client: what its threads share and the local variables of `run`;
* `pollHandleReply`, `requeueExpiredRequests`, `sendRequests`  its lambdas;
* `threadStep`  the next step of the thread, for any behaviour of network and clock;
* `clientSys`  all threads, any interleaving.

A poll waits for the sockets and changes nothing, so only what is received is modelled.  The logs
`sent`, `received`, `settled` and `drawn` record what happened; the code does not read them.
-/

namespace TorchCraft.ReqRep
open Lib Lib.Assoc

abbrev Blob := List Char

abbrev Id := Blob

/-- requests are counted; the number stands for the promise -/
structure QueueItem where
  promise : Nat
  msg : Blob
  retries : Nat := 0
  deriving DecidableEq

structure Request where
  item : QueueItem
  sentTime : Nat
  deriving DecidableEq

inductive Result where
  | value (reply : Blob)
  | exception (what : String)
  deriving DecidableEq

inductive Source where
  | resendQueue
  | queue
  deriving DecidableEq

/-- in `sendRequests` there is an id while the front of the queue is being sent -/
inductive Place where
  | start
  | head
  | check
  | wait
  | waitReply
  | waitExpired
  | disconnect
  | takeOver
  | reply
  | expired
  | send (w : Source) (id : Option Id)
  | assertion
  | ended
  | terminated
  deriving DecidableEq

def Place.holdsQueue : Place → Bool
  | .send .queue _ => true
  | _ => false

def Place.iterates : Place → Bool
  | .waitExpired => true
  | .expired => true
  | _ => false

def Place.draws : Place → Bool
  | .send _ none => true
  | _ => false

structure Client where
  queue_ : List QueueItem := []
  endpoints_ : List String := []
  endpointsChanged_ : Bool := false
  stop_ : Bool := false
  place : Place := .start
  endpoints : List String := []
  resendQueue : List QueueItem := []
  requests : List (Id × Request) := []
  /-- the number of calls of `request` so far -/
  accepted : Nat := 0
  /-- promise and id of each message that went out -/
  sent : List (Nat × Id) := []
  /-- id and content of each reply that came in -/
  received : List (Id × Blob) := []
  /-- each call of `set_value` and `set_exception` -/
  settled : List (Nat × Result) := []
  /-- the ids that `randId` returned -/
  drawn : List Id := []
  deriving DecidableEq

/-- what the network, the clock and `randId` do in one step of the thread -/
structure Choice where
  /-- the parts of the message that is received, none if there is no message -/
  parts : List Blob := []
  replyTimeout : Nat := 0
  now : Nat := 0
  /-- the order in which the map of requests is iterated -/
  order : List Id := []
  /-- a new id -/
  id : Id := []
  /-- both parts of the message go out -/
  delivered : Bool := false
  /-- the error of a send that did not succeed -/
  eintr : Bool := false
  /-- `disconnect` throws -/
  throws : Bool := false

/-! ## calls of other threads -/

def sort (endpoints : List String) : List String := endpoints.insertionSort (· ≤ ·)

def Client.request (s : Client) (msg : Blob) : Client :=
  { s with queue_ := s.queue_ ++ [{ promise := s.accepted, msg }], accepted := s.accepted + 1 }

def Client.updateEndpoints (s : Client) (endpoints : List String) : Bool × Client :=
  if s.endpoints_ = sort endpoints then (false, s)
  else (true, { s with endpoints_ := sort endpoints, endpointsChanged_ := true })

def construct (endpoints : List String) : Client := (Client.updateEndpoints {} endpoints).2

/-! ## the client thread -/

def pollHandleReply (s : Client) (parts : List Blob) : Client :=
  match parts with
  | [id, reply] =>
    let s := { s with received := (id, reply) :: s.received }
    match s.requests.lookup id with
    | some req =>
      { s with
        requests := erase id s.requests
        settled := (req.item.promise, .value reply) :: s.settled }
    | none => s
  | _ => s

def kRetriesText : String := "Maximum number of retries reached"

def requeueExpired (maxRetries : Nat) (c : Choice) (s : Client) (id : Id) : Client :=
  match s.requests.lookup id with
  | none => s
  | some req =>
    if req.sentTime + c.replyTimeout < c.now then
      if req.item.retries < maxRetries then
        { s with
          resendQueue := s.resendQueue ++ [{ req.item with retries := req.item.retries + 1 }]
          requests := erase id s.requests }
      else
        { s with
          settled := (req.item.promise, .exception kRetriesText) :: s.settled
          requests := erase id s.requests }
    else s

def requeueExpiredRequests (maxRetries : Nat) (c : Choice) (s : Client) : Client :=
  c.order.foldl (requeueExpired maxRetries c) s

def Client.source (s : Client) : Source → List QueueItem
  | .resendQueue => s.resendQueue
  | .queue => s.queue_

def Client.setSource (s : Client) (w : Source) (q : List QueueItem) : Client :=
  match w with
  | .resendQueue => { s with resendQueue := q }
  | .queue => { s with queue_ := q }

def Source.exit : Source → Place
  | .resendQueue => .assertion
  | .queue => .head

/-- the next step in the loop of `sendRequests`; a send of an empty message returns 0 although the
message goes out -/
def sendRequests (maxConcurrentRequests : Nat) (s : Client) (w : Source) (id : Option Id)
    (c : Choice) : Client :=
  match s.source w, id with
  | [], _ => { s with place := w.exit }
  | _ :: _, none =>
    if s.endpoints = [] then { s with place := w.exit }
    else if maxConcurrentRequests ≤ s.requests.length then { s with place := w.exit }
    else { s with place := .send w (some c.id), drawn := c.id :: s.drawn }
  | item :: rest, some id =>
    let out := { s with sent := if c.delivered then (item.promise, id) :: s.sent else s.sent }
    if c.delivered ∧ item.msg ≠ [] then
      { out.setSource w rest with
        requests := assign id { item, sentTime := c.now } s.requests
        place := .send w none }
    else if c.eintr then out
    else { out with place := .send w none }

variable (maxConcurrentRequests maxRetries : Nat)

def threadStep (s : Client) (c : Choice) : Client :=
  match s.place with
  | .start =>
    { s with endpoints := s.endpoints_, endpointsChanged_ := false, place := .head }
  | .head => { s with place := if s.stop_ then .ended else .check }
  | .check => { s with place := if s.endpointsChanged_ then .wait else .reply }
  | .wait =>
    { s with place := if !s.stop_ && !s.requests.isEmpty then .waitReply else .disconnect }
  | .waitReply => { pollHandleReply s c.parts with place := .waitExpired }
  | .waitExpired => { requeueExpiredRequests maxRetries c s with place := .wait }
  | .disconnect =>
    -- an exception of the thread is not caught
    { s with place := if c.throws ∧ s.endpoints ≠ [] then .terminated else .takeOver }
  | .takeOver =>
    { s with endpoints := s.endpoints_, endpointsChanged_ := false, place := .reply }
  | .reply => { pollHandleReply s c.parts with place := .expired }
  | .expired =>
    { requeueExpiredRequests maxRetries c s with place := .send .resendQueue none }
  | .send w id => sendRequests maxConcurrentRequests s w id c
  | .assertion =>
    { s with place := if s.resendQueue.isEmpty then .send .queue none else .terminated }
  | .ended => s
  | .terminated => s

/-! ## runs -/

inductive Op where
  | request (msg : Blob)
  | updateEndpoints (endpoints : List String)
  | stop
  | thread (c : Choice)

/-- `request` waits for the lock; an iteration visits each outstanding request once; `randId`
returns a new id -/
def Op.Ok (s : Client) : Op → Prop
  | .request _ => s.place.holdsQueue = false
  | .updateEndpoints _ => True
  | .stop => True
  | .thread c =>
    (s.place.iterates = true → c.order.Perm (keys s.requests)) ∧
      (s.place.draws = true → c.id ∉ s.drawn)

instance Op.decidableOk (s : Client) : ∀ o : Op, Decidable (o.Ok s)
  | .request _ => inferInstanceAs (Decidable (_ = _))
  | .updateEndpoints _ | .stop => inferInstanceAs (Decidable True)
  | .thread _ => inferInstanceAs (Decidable (_ ∧ _))

def Op.run (s : Client) : Op → Client
  | .request msg => s.request msg
  | .updateEndpoints endpoints => (s.updateEndpoints endpoints).2
  | .stop => { s with stop_ := true }
  | .thread c => threadStep maxConcurrentRequests maxRetries s c

def clientSys : Sys Client Op where
  run s o := o.run maxConcurrentRequests maxRetries s
  ok s o := s.place ≠ .terminated ∧ o.Ok s

instance clientSys_decidable (max r : Nat) (s : Client) (o : Op) :
    Decidable ((clientSys max r).ok s o) :=
  inferInstanceAs (Decidable (_ ∧ _))

end TorchCraft.ReqRep
