import Mathlib.Data.List.Perm.Basic
import Mathlib.Data.List.Range
import TorchCraft.ReqRep.Assertion

/-!
# The life of a request

A request waits to be sent, is outstanding under an id, or is settled.  The `Book` of a client says
which, for every request that was accepted, whatever container it is in.

* `Standing`, `Book`  where the requests stand;
* `Good`, `Kept`  what a standing says about the messages sent for the request;
* `kept_move`  every move keeps it.
-/

namespace TorchCraft.ReqRep
open Lib.Assoc Relation
open List

/-! ## books -/

inductive Standing where
  | waiting (item : QueueItem)
  | outstanding (id : Id) (item : QueueItem)
  | settled (result : Result)

structure Book where
  issued : Nat
  standing : List (Nat × Standing)
  sent : List (Nat × Id)
  received : List (Id × Blob)

/-- what happens to the request `p`, and the messages that go out for it -/
inductive Turn (r : Nat) (received : List (Id × Blob)) (p : Nat) :
    Standing → Standing → List (Nat × Id) → Prop
  | post (item : QueueItem) (id : Id) (h : item.msg ≠ []) :
    Turn r received p (.waiting item) (.outstanding id item) [(p, id)]
  | lost (item : QueueItem) (id : Id) (h : item.msg = []) :
    Turn r received p (.waiting item) (.waiting item) [(p, id)]
  | answer (item : QueueItem) (id : Id) (reply : Blob) (h : (id, reply) ∈ received) :
    Turn r received p (.outstanding id item) (.settled (.value reply)) []
  | expire (item : QueueItem) (id : Id) (h : item.retries < r) :
    Turn r received p (.outstanding id item) (.waiting { item with retries := item.retries + 1 }) []
  | giveUp (item : QueueItem) (id : Id) (h : ¬item.retries < r) :
    Turn r received p (.outstanding id item) (.settled (.exception kRetriesText)) []

inductive Move (r : Nat) (b b' : Book) : Prop
  | issue (msg : Blob) (hi : b'.issued = b.issued + 1)
    (hs : b'.standing.Perm ((b.issued, .waiting { promise := b.issued, msg }) :: b.standing))
    (hsent : b'.sent = b.sent) (hrec : b'.received = b.received)
  | hear (hi : b'.issued = b.issued) (hs : b'.standing = b.standing) (hsent : b'.sent = b.sent)
    (e : Id × Blob) (hrec : b'.received = e :: b.received)
  | turn (p : Nat) (x y : Standing) (d : List (Nat × Id)) (rest : List (Nat × Standing))
    (ht : Turn r b.received p x y d) (hi : b'.issued = b.issued)
    (hs : b.standing.Perm ((p, x) :: rest)) (hs' : b'.standing.Perm ((p, y) :: rest))
    (hsent : b'.sent = d ++ b.sent) (hrec : b'.received = b.received)

/-- how often a message was sent for the request `p` -/
def sends (sent : List (Nat × Id)) (p : Nat) : Nat := sent.countP fun e => e.1 == p

/-- what the standing of `p` says about the messages sent and received -/
def Good (r : Nat) (sent : List (Nat × Id)) (received : List (Id × Blob)) (p : Nat) :
    Standing → Prop
  | .waiting item => item.retries ≤ r ∧ (item.msg ≠ [] → sends sent p = item.retries)
  | .outstanding id item =>
    item.retries ≤ r ∧ item.msg ≠ [] ∧ sends sent p = item.retries + 1 ∧ (p, id) ∈ sent
  | .settled (.value reply) => ∃ id, (p, id) ∈ sent ∧ (id, reply) ∈ received
  | .settled (.exception what) => what = kRetriesText ∧ sends sent p = r + 1

structure Kept (r : Nat) (b : Book) : Prop where
  exact : (b.standing.map Prod.fst).Perm (List.range b.issued)
  good : ∀ e ∈ b.standing, Good r b.sent b.received e.1 e.2
  known : ∀ e ∈ b.sent, e.1 < b.issued

section books
variable {r : Nat} {b b' : Book} {sent sent' : List (Nat × Id)}
  {received received' : List (Id × Blob)} {p : Nat} {x y : Standing} {d : List (Nat × Id)}

lemma sends_cons_self (sent : List (Nat × Id)) (p : Nat) (id : Id) :
    sends ((p, id) :: sent) p = sends sent p + 1 :=
  countP_cons_of_pos (beq_self_eq_true p)

lemma sends_append_of_ne (hd : ∀ e ∈ d, e.1 ≠ p) : sends (d ++ sent) p = sends sent p := by
  have hzero : d.countP (fun e => e.1 == p) = 0 :=
    countP_eq_zero.mpr fun e he h => hd e he (eq_of_beq h)
  unfold sends
  rw [countP_append, hzero, Nat.zero_add]

lemma sends_eq_zero (h : ∀ e ∈ sent, e.1 ≠ p) : sends sent p = 0 :=
  countP_eq_zero.mpr fun e he hp => h e he (eq_of_beq hp)

lemma Good.mono (h : Good r sent received p x) (hs : sends sent' p = sends sent p)
    (hsent : sent ⊆ sent') (hrec : received ⊆ received') : Good r sent' received' p x := by
  cases x with
  | waiting item => exact ⟨h.1, fun hm => hs.trans (h.2 hm)⟩
  | outstanding id item => exact ⟨h.1, h.2.1, hs.trans h.2.2.1, hsent h.2.2.2⟩
  | settled result =>
    cases result with
    | value reply =>
      obtain ⟨id, hid, hreply⟩ := h
      exact ⟨id, hsent hid, hrec hreply⟩
    | exception what => exact ⟨h.1, hs.trans h.2⟩

lemma Turn.own (h : Turn r received p x y d) : ∀ e ∈ d, e.1 = p := by
  intro e he
  cases h with
  | post | lost => rw [mem_singleton.mp he]
  | answer | expire | giveUp => cases he

lemma good_turn (h : Good r sent received p x) (ht : Turn r received p x y d) :
    Good r (d ++ sent) received p y := by
  cases ht with
  | post item id hm =>
    refine ⟨h.1, hm, ?_, mem_cons_self ..⟩
    rw [← h.2 hm]
    exact sends_cons_self sent p id
  | lost item id hm => exact ⟨h.1, fun hne => absurd hm hne⟩
  | answer item id reply hreply => exact ⟨id, h.2.2.2, hreply⟩
  | expire item id hlt => exact ⟨hlt, fun _ => h.2.2.1⟩
  | giveUp item id hge =>
    have hle := h.1
    refine ⟨rfl, h.2.2.1.trans ?_⟩
    omega

lemma kept_issue (h : Kept r b) {msg : Blob} (hi : b'.issued = b.issued + 1)
    (hs : b'.standing.Perm ((b.issued, .waiting { promise := b.issued, msg }) :: b.standing))
    (hsent : b'.sent = b.sent) (hrec : b'.received = b.received) : Kept r b' := by
  refine ⟨?_, fun e he => ?_, ?_⟩
  · refine (hs.map Prod.fst).trans ?_
    rw [hi, range_succ, map_cons]
    exact (h.exact.cons b.issued).trans (perm_append_singleton ..).symm
  · rw [hsent, hrec]
    rcases mem_cons.mp (hs.subset he) with rfl | he
    · refine ⟨Nat.zero_le r, fun _ => sends_eq_zero fun e he => ?_⟩
      exact Nat.ne_of_lt (h.known e he)
    · exact h.good e he
  · rw [hsent, hi]
    exact fun e he => Nat.lt_succ_of_lt (h.known e he)

/-- one request changes its standing; the others are other requests -/
lemma kept_turn (h : Kept r b) {rest : List (Nat × Standing)} (ht : Turn r b.received p x y d)
    (hi : b'.issued = b.issued) (hs : b.standing.Perm ((p, x) :: rest))
    (hs' : b'.standing.Perm ((p, y) :: rest)) (hsent : b'.sent = d ++ b.sent)
    (hrec : b'.received = b.received) : Kept r b' := by
  have hkeys : (b.standing.map Prod.fst).Perm (p :: rest.map Prod.fst) := hs.map Prod.fst
  have hnodup : (p :: rest.map Prod.fst).Nodup :=
    (hkeys.symm.trans h.exact).nodup_iff.mpr nodup_range
  have hp : p ∉ rest.map Prod.fst := (nodup_cons.mp hnodup).1
  have hmem : (p, x) ∈ b.standing := hs.symm.subset (mem_cons_self ..)
  refine ⟨?_, fun e he => ?_, fun e he => ?_⟩
  · rw [hi]
    exact (hs'.map Prod.fst).trans (hkeys.symm.trans h.exact)
  · rw [hsent, hrec]
    rcases mem_cons.mp (hs'.subset he) with rfl | he
    · exact good_turn (h.good (p, x) hmem) ht
    · have hne : e.1 ≠ p := fun hep => hp (hep ▸ mem_map_of_mem he)
      have hold := h.good e (hs.symm.subset (mem_cons_of_mem _ he))
      refine hold.mono (sends_append_of_ne fun e' he' => ?_) (subset_append_right ..)
        (Subset.refl _)
      rw [ht.own e' he']
      exact hne.symm
  · rw [hi]
    rw [hsent] at he
    rcases mem_append.mp he with he | he
    · rw [ht.own e he]
      exact mem_range.mp (h.exact.subset (mem_map_of_mem hmem))
    · exact h.known e he

lemma kept_move (h : Kept r b) (hm : Move r b b') : Kept r b' := by
  cases hm with
  | issue msg hi hs hsent hrec => exact kept_issue h hi hs hsent hrec
  | hear hi hs hsent e hrec =>
    refine ⟨by rw [hs, hi]; exact h.exact, fun e he => ?_, by rw [hsent, hi]; exact h.known⟩
    rw [hs] at he
    rw [hsent, hrec]
    exact (h.good e he).mono rfl (Subset.refl _) (subset_cons_self ..)
  | turn p x y d rest ht hi hs hs' hsent hrec => exact kept_turn h ht hi hs hs' hsent hrec

lemma kept_moves (h : Kept r b) (hm : ReflTransGen (Move r) b b') : Kept r b' := by
  induction hm with
  | refl => exact h
  | tail _ hm ih => exact kept_move ih hm

end books

/-! ## the book of a client -/

def waiting (item : QueueItem) : Nat × Standing := (item.promise, .waiting item)

def outstanding (e : Id × Request) : Nat × Standing :=
  (e.2.item.promise, .outstanding e.1 e.2.item)

def settled (e : Nat × Result) : Nat × Standing := (e.1, .settled e.2)

/-- the standings of the requests in the four containers -/
def standings (q q' : List QueueItem) (reqs : List (Id × Request)) (results : List (Nat × Result)) :
    List (Nat × Standing) :=
  q.map waiting ++ (q'.map waiting ++ (reqs.map outstanding ++ results.map settled))

def book (s : Client) : Book where
  issued := s.accepted
  standing := standings s.queue_ s.resendQueue s.requests s.settled
  sent := s.sent
  received := s.received

section containers
variable (q q' : List QueueItem) (reqs : List (Id × Request)) (results : List (Nat × Result))
  (item : QueueItem)

/-- where an element can be taken out or put in: the ends of the queues, and anywhere else -/
lemma standings_concat : (standings (q ++ [item]) q' reqs results).Perm
      (waiting item :: standings q q' reqs results) := by
  unfold standings
  rw [map_append, append_assoc]
  exact perm_middle

lemma standings_resend_cons :
    (standings q (item :: q') reqs results).Perm (waiting item :: standings q q' reqs results) :=
  perm_middle

lemma standings_resend_concat : (standings q (q' ++ [item]) reqs results).Perm
      (waiting item :: standings q q' reqs results) := by
  refine Perm.trans ?_ (standings_resend_cons q q' reqs results item)
  exact ((perm_append_singleton item q').map waiting).append_right _ |>.append_left _

lemma standings_requests {reqs reqs' : List (Id × Request)} {e : Id × Request}
    (h : reqs.Perm (e :: reqs')) :
    (standings q q' reqs results).Perm (outstanding e :: standings q q' reqs' results) := by
  unfold standings
  have hcons := ((h.map outstanding).append_right (results.map settled)).append_left
    (q.map waiting ++ q'.map waiting)
  rw [append_assoc, append_assoc] at hcons
  refine hcons.trans ?_
  rw [← append_assoc, ← append_assoc (q.map waiting)]
  exact perm_middle

lemma standings_settled (e : Nat × Result) :
    (standings q q' reqs (e :: results)).Perm (settled e :: standings q q' reqs results) := by
  unfold standings
  rw [← append_assoc, ← append_assoc, ← append_assoc (q.map waiting),
    ← append_assoc (q.map waiting ++ q'.map waiting)]
  exact perm_middle

end containers

section client
variable {max r : Nat} {s : Client} {w : Source} {item : QueueItem} {rest : List QueueItem}

section
variable (hn : (keys s.requests).Nodup)
include hn

lemma moves_pollHandleReply (parts : List Blob) :
    ReflTransGen (Move r) (book s) (book (pollHandleReply s parts)) := by
  unfold pollHandleReply
  split
  next id reply =>
    have hear : Move r (book s) (book { s with received := (id, reply) :: s.received }) :=
      .hear rfl rfl rfl (id, reply) rfl
    dsimp only
    split
    next req hreq =>
      refine (ReflTransGen.single hear).tail ?_
      exact .turn req.item.promise _ _ [] _ (.answer req.item id reply (mem_cons_self ..)) rfl
        (standings_requests _ _ _ (perm_erase hn hreq)) (standings_settled ..) rfl rfl
    · exact ReflTransGen.single hear
  · exact .refl

lemma moves_requeueExpired (c : Choice) (id : Id) :
    ReflTransGen (Move r) (book s) (book (requeueExpired r c s id)) := by
  unfold requeueExpired
  split
  · exact .refl
  next req hreq =>
    have hout := standings_requests s.queue_ s.resendQueue s.settled (perm_erase hn hreq)
    split
    · split
      next hlt =>
        exact .single (.turn req.item.promise _ _ [] _ (.expire req.item id hlt) rfl hout
          (standings_resend_concat ..) rfl rfl)
      next hge =>
        exact .single (.turn req.item.promise _ _ [] _ (.giveUp req.item id hge) rfl hout
          (standings_settled ..) rfl rfl)
    · exact .refl

lemma moves_requeueExpiredRequests (c : Choice) :
    ReflTransGen (Move r) (book s) (book (requeueExpiredRequests r c s)) := by
  unfold requeueExpiredRequests
  generalize c.order = order
  induction order generalizing s with
  | nil => exact .refl
  | cons id order ih =>
    have hn' := hn.sublist (thins_requeueExpired r c s id).keys
    exact (moves_requeueExpired hn c id).trans (ih hn')

end

lemma perm_source {rest : List QueueItem} (hw : s.source w = item :: rest) :
    (book s).standing.Perm (waiting item :: (book (s.setSource w rest)).standing) := by
  cases w with
  | resendQueue =>
    have hq : s.resendQueue = item :: rest := hw
    show (standings s.queue_ s.resendQueue s.requests s.settled).Perm _
    rw [hq]
    exact standings_resend_cons ..
  | queue =>
    have hq : s.queue_ = item :: rest := hw
    show (standings s.queue_ s.resendQueue s.requests s.settled).Perm _
    rw [hq]
    exact .refl _

lemma move_post {id : Id} (hid : id ∉ keys s.requests)
    (hw : s.source w = item :: rest) (hm : item.msg ≠ []) (now : Nat) (p : Place) :
    Move r (book s) (book
      { Client.setSource { s with sent := (item.promise, id) :: s.sent } w rest with
        requests := assign id ⟨item, now⟩ s.requests
        place := p }) := by
  rw [assign_of_not_mem hid]
  have hout := perm_source hw
  cases w with
  | resendQueue | queue =>
    exact .turn item.promise _ _ _ _ (.post item id hm) rfl hout
      (standings_requests _ _ _ (.refl _)) rfl rfl

lemma move_lost {id : Id} (hw : s.source w = item :: rest) (hm : item.msg = []) (p : Place) :
    Move r (book s) (book { s with sent := (item.promise, id) :: s.sent, place := p }) :=
  .turn item.promise _ _ _ _ (.lost item id hm) rfl (perm_source hw) (perm_source hw) rfl rfl

lemma moves_sendRequests (h : Tidy max s) {id : Option Id} (c : Choice)
    (hp : s.place = .send w id) :
    ReflTransGen (Move r) (book s) (book (sendRequests max s w id c)) := by
  unfold sendRequests
  split
  · exact .refl
  · split
    · exact .refl
    · split <;> exact .refl
  next item rest id hw =>
    cases c.delivered with
    | false =>
      rw [if_neg (fun hd => Bool.false_ne_true hd.1)]
      split <;> exact .refl
    | true =>
      by_cases hm : item.msg = []
      · rw [if_neg (fun hd => hd.2 hm)]
        split
        · exact .single (move_lost hw hm s.place)
        · exact .single (move_lost hw hm _)
      · rw [if_pos ⟨rfl, hm⟩]
        exact .single (move_post (h.fresh w id hp).1 hw hm c.now _)

lemma moves_threadStep (h : Tidy max s) (c : Choice) :
    ReflTransGen (Move r) (book s) (book (threadStep max r s c)) := by
  unfold threadStep
  split
  case h_5 => exact moves_pollHandleReply h.nodup c.parts
  case h_6 => exact moves_requeueExpiredRequests h.nodup c
  case h_9 => exact moves_pollHandleReply h.nodup c.parts
  case h_10 => exact moves_requeueExpiredRequests h.nodup c
  case h_11 w id hp => exact moves_sendRequests h c hp
  all_goals exact .refl

/-- **A step of the client is a series of moves of its book.** -/
theorem moves_step (h : Tidy max s) (o : Op) :
    ReflTransGen (Move r) (book s) (book ((clientSys max r).run s o)) := by
  cases o with
  | request msg =>
    exact .single (.issue msg rfl (standings_concat ..) rfl rfl)
  | updateEndpoints endpoints =>
    show ReflTransGen (Move r) (book s) (book (s.updateEndpoints endpoints).2)
    unfold Client.updateEndpoints
    split <;> exact .refl
  | stop => exact .refl
  | thread c => exact moves_threadStep h c

lemma kept_construct (endpoints : List String) : Kept r (book (construct endpoints)) := by
  have hbook : book (construct endpoints) = ⟨0, [], [], []⟩ := by
    unfold construct Client.updateEndpoints
    split <;> rfl
  rw [hbook]
  exact ⟨.refl _, nofun, nofun⟩

end client

/-! ## the statement -/

/-- how often the request `p` is in a queue -/
def inQueue (q : List QueueItem) (p : Nat) : Nat := q.countP fun item => item.promise == p

/-- how often the request `p` is outstanding -/
def inRequests (requests : List (Id × Request)) (p : Nat) : Nat :=
  requests.countP fun e => e.2.item.promise == p

/-- how often the promise of the request `p` was set -/
def timesSet (results : List (Nat × Result)) (p : Nat) : Nat := results.countP fun e => e.1 == p

lemma count_standings (q q' : List QueueItem) (reqs : List (Id × Request))
    (results : List (Nat × Result)) (p : Nat) :
    ((standings q q' reqs results).map Prod.fst).count p
      = inQueue q p + inQueue q' p + inRequests reqs p + timesSet results p := by
  unfold standings inQueue inRequests timesSet
  rw [map_append, map_append, map_append, count_append, count_append,
    List.count_append, List.map_map, List.map_map, List.map_map, List.map_map]
  simp only [count_eq_countP, countP_map, Nat.add_assoc]
  rfl

lemma Kept.count {r : Nat} {b : Book} (h : Kept r b) {p : Nat} (hp : p < b.issued) :
    (b.standing.map Prod.fst).count p = 1 := by
  rw [h.exact.count_eq]
  exact count_eq_one_of_mem nodup_range (mem_range.mpr hp)

/-- a reply that does not name an outstanding request -/
def Unknown (s : Client) (parts : List Blob) : Prop :=
  ∀ id reply, parts = [id, reply] → id ∉ keys s.requests

lemma pollHandleReply_unknown {s : Client} {parts : List Blob} (h : Unknown s parts) :
    ∃ received, pollHandleReply s parts = { s with received } := by
  unfold pollHandleReply
  split
  next id reply =>
    dsimp only
    rw [lookup_eq_none (h id reply rfl)]
    exact ⟨_, rfl⟩
  · exact ⟨s.received, rfl⟩

/-- **The life of a request.**  It is in exactly one of the three containers and was not settled, or
in none and was settled once: with a reply to one of its messages, or with the exception. -/
theorem request_lifecycle (max r : Nat) (endpoints : List String) (os : List Op)
    (hl : (clientSys max r).Legal (construct endpoints) os) :
    let s := (clientSys max r).out (construct endpoints) os
    (∀ p < s.accepted, inQueue s.queue_ p + inQueue s.resendQueue p + inRequests s.requests p +
      timesSet s.settled p = 1) ∧
    (∀ p reply, (p, .value reply) ∈ s.settled →
      ∃ id, (p, id) ∈ s.sent ∧ (id, reply) ∈ s.received) ∧
    (∀ p what, (p, .exception what) ∈ s.settled → sends s.sent p = r + 1) ∧
    (∀ parts, Unknown s parts → ∃ received, pollHandleReply s parts = { s with received }) ∧
    s.requests.length + s.resendQueue.length ≤ max := by
  intro s
  have hinv : Tidy max s ∧ Kept r (book s) :=
    (clientSys max r).invariant (fun s => Tidy max s ∧ Kept r (book s))
      (fun s o h ho => ⟨tidy_step h.1 o ho, kept_moves h.2 (moves_step h.1 o)⟩) _
      ⟨tidy_construct endpoints, kept_construct endpoints⟩ os hl
  obtain ⟨htidy, hkept⟩ := hinv
  have hsettled : ∀ e ∈ s.settled, Good r s.sent s.received e.1 (.settled e.2) := by
    intro e he
    refine hkept.good (settled e) ?_
    exact mem_append_right _ (mem_append_right _ (mem_append_right _
      (mem_map_of_mem he)))
  refine ⟨fun p hp => ?_, fun p reply h => hsettled _ h, fun p what h => (hsettled _ h).2,
    fun parts hu => ?_, htidy.room⟩
  · rw [← count_standings]
    exact hkept.count hp
  · exact pollHandleReply_unknown hu

/-- a request is sent twice and not answered; the reply to the first message comes too late -/
def expireTwice : List Op :=
  sendOne ++ changeEndpoints ["b"] ++
    [.thread { id := ['j'] }, .thread { delivered := true }, .thread {}, .thread {}, .thread {},
      .thread {}, .thread {}, .thread { parts := [['i'], ['x']] },
      .thread { replyTimeout := 9, now := 20, order := [['j']] }]

theorem request_lifecycle_expired :
    ((clientSys 1 1).Legal (construct ["a"]) expireTwice ∧
      ((clientSys 1 1).out (construct ["a"]) expireTwice).settled
        = [(0, .exception kRetriesText)]) ∧
    sends ((clientSys 1 1).out (construct ["a"]) expireTwice).sent 0 = 1 + 1 :=
  ⟨by decide +kernel, (request_lifecycle 1 1 ["a"] expireTwice (by decide +kernel)).2.2.1 0
    kRetriesText (by decide +kernel)⟩

end TorchCraft.ReqRep
