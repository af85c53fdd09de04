import TorchCraft.ReqRep.Client

/-!
# The assertion of the client thread

A request that was sent is outstanding or waits to be sent again, and there is room for all of them:
`sendRequests(resendQueue)` can stop early only if there are no endpoints.

* `Thins s s'`  replies and timeouts only take requests away or move them to `resendQueue`;
* `Tidy`  what always holds of the containers of the thread;
* `tidy_step`  every step keeps it.
-/

namespace TorchCraft.ReqRep
open Lib Lib.Assoc
open List
open Client

def Client.underway (s : Client) : Nat := s.requests.length + s.resendQueue.length

structure Thins (s s' : Client) : Prop where
  keys : (keys s'.requests).Sublist (keys s.requests)
  underway : s'.underway ≤ s.underway
  drawn : s'.drawn = s.drawn
  endpoints : s'.endpoints = s.endpoints

lemma Thins.refl (s : Client) : Thins s s := ⟨.refl _, le_refl _, rfl, rfl⟩

lemma Thins.trans {s s' s'' : Client} (h : Thins s s') (h' : Thins s' s'') : Thins s s'' where
  keys := h'.keys.trans h.keys
  underway := le_trans h'.underway h.underway
  drawn := h'.drawn.trans h.drawn
  endpoints := h'.endpoints.trans h.endpoints

lemma thins_pollHandleReply (s : Client) (parts : List Blob) :
    Thins s (pollHandleReply s parts) := by
  unfold pollHandleReply
  split
  next id reply =>
    dsimp only
    split
    next req hreq =>
      have hlt := length_erase_lt hreq
      refine ⟨keys_erase_sublist id s.requests, ?_, rfl, rfl⟩
      show (erase id s.requests).length + s.resendQueue.length ≤ _
      unfold underway
      omega
    · exact ⟨.refl _, le_refl _, rfl, rfl⟩
  · exact Thins.refl s

lemma thins_requeueExpired (r : Nat) (c : Choice) (s : Client) (id : Id) :
    Thins s (requeueExpired r c s id) := by
  unfold requeueExpired
  split
  · exact Thins.refl s
  next req hreq =>
    have hlt := length_erase_lt hreq
    split
    · split
      · refine ⟨keys_erase_sublist id s.requests, ?_, rfl, rfl⟩
        show (erase id s.requests).length + (s.resendQueue ++ [_]).length ≤ _
        rw [length_append, length_singleton]
        unfold underway
        omega
      · refine ⟨keys_erase_sublist id s.requests, ?_, rfl, rfl⟩
        show (erase id s.requests).length + s.resendQueue.length ≤ _
        unfold underway
        omega
    · exact Thins.refl s

lemma thins_requeueExpiredRequests (r : Nat) (c : Choice) (s : Client) :
    Thins s (requeueExpiredRequests r c s) := by
  unfold requeueExpiredRequests
  generalize c.order = order
  induction order generalizing s with
  | nil => exact Thins.refl s
  | cons id order ih => exact (thins_requeueExpired r c s id).trans (ih _)

/-! ## what always holds -/

structure Tidy (max : Nat) (s : Client) : Prop where
  nodup : (keys s.requests).Nodup
  drawn : ∀ k ∈ keys s.requests, k ∈ s.drawn
  /-- the id under which a message is being sent is new -/
  fresh : ∀ w id, s.place = .send w (some id) →
    id ∉ keys s.requests ∧ id ∈ s.drawn ∧ s.requests.length < max
  /-- the assertion was passed -/
  asserted : ∀ id, s.place = .send .queue id → s.resendQueue = []
  room : s.underway ≤ max

def Place.idle : Place → Bool
  | .send .resendQueue none => true
  | .send _ _ => false
  | _ => true

section tidy
variable {max r : Nat} {s s' : Client}

lemma tidy_construct (endpoints : List String) : Tidy max (construct endpoints) := by
  unfold construct updateEndpoints
  split <;> exact ⟨nodup_nil, nofun, nofun, nofun, Nat.zero_le max⟩

section
variable (h : Tidy max s)
include h

lemma Tidy.thin (ht : Thins s s') (hp : s'.place.idle) : Tidy max s' where
  nodup := h.nodup.sublist ht.keys
  drawn k hk := ht.drawn ▸ h.drawn k (ht.keys.subset hk)
  fresh w id hw := by
    rw [hw] at hp
    cases w with
    | resendQueue | queue => cases hp
  asserted id hid := by
    rw [hid] at hp
    cases hp
  room := le_trans ht.underway h.room

variable {w : Source}

lemma Tidy.next {id : Option Id} (hp : s.place = .send w id)
    (p : Place) (hq : p = .send w none ∨ p = w.exit) (x : List (Nat × Id)) :
    Tidy max { s with place := p, sent := x } := by
  refine ⟨h.nodup, h.drawn, fun v id' hv => ?_, fun id' hv => ?_, h.room⟩
  · have hv' : p = .send v (some id') := hv
    rcases hq with rfl | rfl
    · cases hv'
    · cases w with
      | resendQueue | queue => cases hv'
  · have hv' : p = .send .queue id' := hv
    rcases hq with rfl | rfl
    · cases hv'
      exact h.asserted id hp
    · cases w with
      | resendQueue | queue => cases hv'

lemma Tidy.post {id : Id} {item : QueueItem} {rest : List QueueItem}
    (hp : s.place = .send w (some id)) (hw : s.source w = item :: rest) (now : Nat)
    (x : List (Nat × Id)) :
    Tidy max { Client.setSource { s with sent := x } w rest with
      requests := assign id ⟨item, now⟩ s.requests
      place := .send w none } := by
  obtain ⟨hid, hdrawn, hlt⟩ := h.fresh w id hp
  rw [assign_of_not_mem hid]
  cases w with
  | resendQueue =>
    have hrest : s.resendQueue = item :: rest := hw
    refine ⟨nodup_cons.mpr ⟨hid, h.nodup⟩, forall_mem_cons.mpr ⟨hdrawn, h.drawn⟩, nofun, nofun, ?_⟩
    have hroom := h.room
    unfold underway at hroom ⊢
    rw [hrest, length_cons] at hroom
    show s.requests.length + 1 + rest.length ≤ max
    omega
  | queue =>
    have hnil := h.asserted _ hp
    refine ⟨nodup_cons.mpr ⟨hid, h.nodup⟩, forall_mem_cons.mpr ⟨hdrawn, h.drawn⟩, nofun,
      fun _ _ => hnil, ?_⟩
    show s.requests.length + 1 + s.resendQueue.length ≤ max
    rw [hnil]
    exact hlt

lemma tidy_sendRequests {id : Option Id} {c : Choice}
    (hp : s.place = .send w id) (hc : id = none → c.id ∉ s.drawn) :
    Tidy max (sendRequests max s w id c) := by
  unfold sendRequests
  split
  · exact h.next hp _ (.inr rfl) s.sent
  · split
    · exact h.next hp _ (.inr rfl) s.sent
    · split
      · exact h.next hp _ (.inr rfl) s.sent
      next hlt =>
        refine ⟨h.nodup, fun k hk => mem_cons_of_mem _ (h.drawn k hk), ?_, ?_, h.room⟩
        · intro v id hv
          cases hv
          exact ⟨fun hk => hc rfl (h.drawn _ hk), mem_cons_self .., Nat.lt_of_not_le hlt⟩
        · intro id hv
          cases hv
          exact h.asserted none hp
  next item rest id hw =>
    dsimp only
    split
    · exact h.post hp hw c.now _
    · split
      · exact ⟨h.nodup, h.drawn, h.fresh, h.asserted, h.room⟩
      · exact h.next hp _ (.inl rfl) _

lemma tidy_threadStep (c : Choice)
    (hc : s.place.draws → c.id ∉ s.drawn) : Tidy max (threadStep max r s c) := by
  have thinned : ∀ {t : Client} {p : Place}, Thins s t → p.idle →
      Tidy max { t with place := p } := fun ht hp =>
    h.thin ⟨ht.keys, ht.underway, ht.drawn, ht.endpoints⟩ hp
  have stay := Thins.refl s
  unfold threadStep
  split
  case h_1 => exact ⟨h.nodup, h.drawn, nofun, nofun, h.room⟩
  case h_2 => exact thinned stay (by cases s.stop_ <;> rfl)
  case h_3 => exact thinned stay (by cases s.endpointsChanged_ <;> rfl)
  case h_4 => exact thinned stay (by cases s.stop_ <;> cases s.requests.isEmpty <;> rfl)
  case h_5 => exact thinned (thins_pollHandleReply s c.parts) rfl
  case h_6 => exact thinned (thins_requeueExpiredRequests r c s) rfl
  case h_7 => exact thinned stay (by split <;> rfl)
  case h_8 => exact ⟨h.nodup, h.drawn, nofun, nofun, h.room⟩
  case h_9 => exact thinned (thins_pollHandleReply s c.parts) rfl
  case h_10 => exact thinned (thins_requeueExpiredRequests r c s) rfl
  case h_11 w id hp =>
    refine tidy_sendRequests h hp fun hid => hc ?_
    rw [hp, hid]
    rfl
  case h_12 =>
    split
    next hempty =>
      refine ⟨h.nodup, h.drawn, nofun, fun _ _ => ?_, h.room⟩
      exact List.isEmpty_iff.mp hempty
    · exact thinned stay rfl
  case h_13 => exact h
  case h_14 => exact h

lemma tidy_step (o : Op) (ho : (clientSys max r).ok s o) :
    Tidy max ((clientSys max r).run s o) := by
  cases o with
  | request msg => exact ⟨h.nodup, h.drawn, h.fresh, h.asserted, h.room⟩
  | updateEndpoints endpoints =>
    show Tidy max (s.updateEndpoints endpoints).2
    unfold updateEndpoints
    split
    · exact h
    · exact ⟨h.nodup, h.drawn, h.fresh, h.asserted, h.room⟩
  | stop => exact ⟨h.nodup, h.drawn, h.fresh, h.asserted, h.room⟩
  | thread c => exact tidy_threadStep h c ho.2.2

end

end tidy

/-! ## the assertion -/

/-- when an empty list of endpoints is taken over, no request is under way -/
def Op.Careful (s : Client) : Op → Prop
  | .thread _ => s.place = .takeOver → s.endpoints_ = [] → s.requests = [] ∧ s.resendQueue = []
  | _ => True

instance Op.decidableCareful (s : Client) : ∀ o : Op, Decidable (o.Careful s)
  | .request _ | .updateEndpoints _ | .stop => inferInstanceAs (Decidable True)
  | .thread _ => inferInstanceAs (Decidable (_ → _ → _))

def carefulSys (maxConcurrentRequests maxRetries : Nat) : Sys Client Op where
  run := (clientSys maxConcurrentRequests maxRetries).run
  ok s o := (clientSys maxConcurrentRequests maxRetries).ok s o ∧ o.Careful s

instance carefulSys_decidable (max r : Nat) (s : Client) (o : Op) :
    Decidable ((carefulSys max r).ok s o) :=
  inferInstanceAs (Decidable (_ ∧ _))

/-- without endpoints nothing is under way -/
structure Quiet (max : Nat) (s : Client) : Prop where
  tidy : Tidy max s
  start : s.place = .start → s.underway = 0
  quiet : s.endpoints = [] → s.underway = 0
  sending : ∀ w id, s.place = .send w (some id) → s.endpoints ≠ []
  assertion : s.place = .assertion → s.resendQueue = []

section quiet
variable {max r : Nat} {s : Client}

/-- a place that is neither the start nor the assertion, and where no message is being sent -/
def Place.plain : Place → Bool
  | .start => false
  | .assertion => false
  | .send _ (some _) => false
  | _ => true

section
variable (h : Quiet max s)
include h

lemma Quiet.move {t : Client} {p : Place} (ht : Thins s t)
    (htidy : Tidy max { t with place := p }) (hp : p.plain) :
    Quiet max { t with place := p } where
  tidy := htidy
  start hv := by
    obtain rfl : p = .start := hv
    cases hp
  quiet hv := Nat.le_zero.mp (le_trans ht.underway (h.quiet (ht.endpoints.symm.trans hv)).le)
  sending w id hv := by
    obtain rfl : p = .send w (some id) := hv
    cases hp
  assertion hv := by
    obtain rfl : p = .assertion := hv
    cases hp

lemma Quiet.exit {w : Source} (htidy : Tidy max { s with place := w.exit })
    (hw : s.source w = [] ∨ s.endpoints = [] ∨ max ≤ s.requests.length) :
    Quiet max { s with place := w.exit } := by
  refine ⟨htidy, ?_, h.quiet, ?_, ?_⟩
  · intro hv
    cases w with
    | resendQueue | queue => cases hv
  · intro v id hv
    cases w with
    | resendQueue | queue => cases hv
  · intro hv
    cases w with
    | queue => cases hv
    | resendQueue =>
      rcases hw with hnil | hnone | hfull
      · exact hnil
      · have hzero := h.quiet hnone
        unfold underway at hzero
        have hlen : s.resendQueue.length = 0 := by omega
        exact length_eq_zero_iff.mp hlen
      · have hroom := h.tidy.room
        unfold underway at hroom
        have hlen : s.resendQueue.length = 0 := by omega
        exact length_eq_zero_iff.mp hlen

lemma quiet_sendRequests {w : Source} {id : Option Id} {c : Choice} (hp : s.place = .send w id) :
    Tidy max (sendRequests max s w id c) → Quiet max (sendRequests max s w id c) := by
  unfold sendRequests
  split
  next hnil => exact (h.exit · (.inl hnil))
  · split
    next hnone => exact (h.exit · (.inr (.inl hnone)))
    next hsome =>
      split
      next hfull => exact (h.exit · (.inr (.inr hfull)))
      · exact fun htidy => ⟨htidy, nofun, h.quiet, fun _ _ _ => hsome, nofun⟩
  next item rest id hw =>
    have hsome := h.sending w id hp
    dsimp only
    split
    · refine fun htidy => ⟨htidy, nofun, fun hv => absurd ?_ hsome, nofun, nofun⟩
      cases w with
      | resendQueue | queue => exact hv
    · split
      · exact (⟨·, h.start, h.quiet, h.sending, h.assertion⟩)
      · exact fun htidy => ⟨htidy, nofun, h.quiet, nofun, nofun⟩

lemma quiet_threadStep (c : Choice)
    (hc : s.place.draws → c.id ∉ s.drawn) (hcareful : (Op.thread c).Careful s) :
    Quiet max (threadStep max r s c) := by
  have stay := Thins.refl s
  refine (?_ : Tidy max (threadStep max r s c) → _) (tidy_threadStep h.tidy c hc)
  unfold threadStep
  split
  case h_1 hp => exact fun htidy => ⟨htidy, nofun, fun _ => h.start hp, nofun, nofun⟩
  case h_2 => exact (h.move stay · (by cases s.stop_ <;> rfl))
  case h_3 => exact (h.move stay · (by cases s.endpointsChanged_ <;> rfl))
  case h_4 => exact (h.move stay · (by cases s.stop_ <;> cases s.requests.isEmpty <;> rfl))
  case h_5 => exact (h.move (thins_pollHandleReply s c.parts) · rfl)
  case h_6 => exact (h.move (thins_requeueExpiredRequests r c s) · rfl)
  case h_7 => exact (h.move stay · (by split <;> rfl))
  case h_8 hp =>
    refine fun htidy => ⟨htidy, nofun, fun hv => ?_, nofun, nofun⟩
    obtain ⟨hr, hq⟩ := hcareful hp hv
    show s.requests.length + s.resendQueue.length = 0
    rw [hr, hq]
    rfl
  case h_9 => exact (h.move (thins_pollHandleReply s c.parts) · rfl)
  case h_10 => exact (h.move (thins_requeueExpiredRequests r c s) · rfl)
  case h_11 w id hp => exact quiet_sendRequests h hp
  case h_12 => exact (h.move stay · (by cases s.resendQueue.isEmpty <;> rfl))
  case h_13 => exact fun _ => h
  case h_14 => exact fun _ => h

lemma quiet_step (o : Op) (ho : (carefulSys max r).ok s o) :
    Quiet max ((carefulSys max r).run s o) := by
  cases o with
  | request msg => exact ⟨tidy_step h.tidy _ ho.1, h.start, h.quiet, h.sending, h.assertion⟩
  | updateEndpoints endpoints =>
    show Quiet max (s.updateEndpoints endpoints).2
    refine (?_ : Tidy max _ → _) (tidy_step h.tidy (.updateEndpoints endpoints) ho.1)
    show Tidy max (s.updateEndpoints endpoints).2 → _
    unfold updateEndpoints
    split
    · exact fun _ => h
    · exact (⟨·, h.start, h.quiet, h.sending, h.assertion⟩)
  | stop => exact ⟨tidy_step h.tidy _ ho.1, h.start, h.quiet, h.sending, h.assertion⟩
  | thread c => exact quiet_threadStep h c ho.1.2.2 ho.2

end

lemma quiet_construct (endpoints : List String) : Quiet max (construct endpoints) := by
  refine (?_ : Tidy max (construct endpoints) → Quiet max _) (tidy_construct endpoints)
  unfold construct updateEndpoints
  split <;> exact (⟨·, fun _ => rfl, fun _ => rfl, nofun, nofun⟩)

end quiet

/-- **If no empty list of endpoints is taken over while requests are under way, the client thread
passes its assertion.** -/
theorem assertion_holds (max r : Nat) (endpoints : List String) (os : List Op)
    (hl : (carefulSys max r).Legal (construct endpoints) os)
    (hp : ((carefulSys max r).out (construct endpoints) os).place = .assertion) :
    ((carefulSys max r).out (construct endpoints) os).resendQueue = [] :=
  ((carefulSys max r).invariant (Quiet max) (fun _ o h ho => quiet_step h o ho) _
    (quiet_construct endpoints) os hl).assertion hp

def sendOne : List Op :=
  [.thread {}, .request ['m'], .thread {}, .thread {}, .thread {}, .thread {}, .thread {},
    .thread {}, .thread { id := ['i'] }, .thread { delivered := true }, .thread {}]

/-- the endpoints change, and the reply to the request does not come in time -/
def changeEndpoints (endpoints : List String) : List Op :=
  [.updateEndpoints endpoints, .thread {}, .thread {}, .thread {}, .thread {},
    .thread { replyTimeout := 9, now := 10, order := [['i']] }, .thread {}, .thread {}, .thread {},
    .thread {}, .thread {}]

/-- the request that expired while the endpoints changed is sent again before the assertion -/
theorem assertion_holds_changed :
    ((carefulSys 1 1).Legal (construct ["a"]) (sendOne ++ changeEndpoints ["b"] ++
        [.thread { id := ['j'] }, .thread { delivered := true }, .thread {}]) ∧
      ((carefulSys 1 1).out (construct ["a"]) (sendOne ++ changeEndpoints ["b"] ++
        [.thread { id := ['j'] }, .thread { delivered := true }, .thread {}])).place = .assertion) ∧
    ((carefulSys 1 1).out (construct ["a"]) (sendOne ++ changeEndpoints ["b"] ++
        [.thread { id := ['j'] }, .thread { delivered := true }, .thread {}])).resendQueue = [] :=
  ⟨by decide +kernel, assertion_holds 1 1 ["a"] _ (by decide +kernel) (by decide +kernel)⟩

/-- with no endpoints left it cannot be sent, and the assertion fails -/
theorem assertion_fails :
    (clientSys 1 1).Legal (construct ["a"]) (sendOne ++ changeEndpoints [] ++ [.thread {}]) ∧
      ((clientSys 1 1).out (construct ["a"])
        (sendOne ++ changeEndpoints [] ++ [.thread {}])).place = .assertion ∧
      ((clientSys 1 1).out (construct ["a"])
        (sendOne ++ changeEndpoints [] ++ [.thread {}])).resendQueue
        = [{ promise := 0, msg := ['m'], retries := 1 }] := by
  decide +kernel

end TorchCraft.ReqRep
