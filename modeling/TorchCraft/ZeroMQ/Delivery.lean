import TorchCraft.ZeroMQ.Transport

/-!
# Nothing is lost and nothing is invented

* `Asked`, `Replied`  the message of a call, and the replies made to it;
* `Kept`  what holds of both ends of the channel;
* `kept_step`  every step keeps it;
* `nothing_lost`  the whole statement.
-/

namespace TorchCraft.ZeroMQ
open List Function Prod

variable {P : Type} {outcome : Outcome} {m : Nat} {s s' : Transport P}

/-! ## calls -/

def Asked (calls : List Call) (n : Nat) (msg : Blob) : Prop :=
  ∃ c, calls[n]? = some c ∧ c.msg = msg

def Replied (calls : List Call) (n : Nat) (content : Blob) : Prop :=
  ∃ c, calls[n]? = some c ∧ content ∈ c.replies

section calls
variable {calls : List Call} {n k : Nat} {msg content msg' : Blob}

lemma Asked.unique (h : Asked calls n msg) (h' : Asked calls n msg') : msg = msg' := by
  obtain ⟨c, hc, rfl⟩ := h
  obtain ⟨c', hc', rfl⟩ := h'
  rw [hc] at hc'
  cases hc'
  rfl

lemma getElem?_ask (calls : List Call) (msg : Blob) (n : Nat) :
    (ask calls msg)[n]? = if n = calls.length then some { msg := msg } else calls[n]? := by
  unfold ask
  by_cases hn : n = calls.length
  · rw [if_pos hn, hn, getElem?_concat_length]
  · rw [if_neg hn]
    rcases Nat.lt_or_gt_of_ne hn with hlt | hgt
    · exact getElem?_append_left hlt
    · rw [List.getElem?_eq_none_iff.mpr (Nat.le_of_lt hgt), List.getElem?_eq_none_iff]
      rw [length_append, length_singleton]
      omega

lemma asked_ask_self : Asked (ask calls msg) calls.length msg :=
  ⟨{ msg := msg }, by rw [getElem?_ask, if_pos rfl], rfl⟩

lemma Asked.ask (h : Asked calls n msg) (msg' : Blob) : Asked (ask calls msg') n msg := by
  obtain ⟨c, hc, hm⟩ := h
  have hne : n ≠ calls.length := Nat.ne_of_lt (List.getElem?_eq_some_iff.mp hc).1
  exact ⟨c, by rw [getElem?_ask, if_neg hne, hc], hm⟩

lemma asked_of_ask (h : Asked (ZeroMQ.ask calls msg') n msg) :
    msg = msg' ∨ Asked calls n msg := by
  obtain ⟨c, hc, hm⟩ := h
  rw [getElem?_ask] at hc
  split at hc
  · cases hc
    exact .inl hm.symm
  · exact .inr ⟨c, hc, hm⟩

lemma replied_ask : Replied (ask calls msg') n content ↔ Replied calls n content := by
  unfold Replied
  rw [getElem?_ask]
  split
  next hn =>
    rw [List.getElem?_eq_none_iff.mpr (Nat.le_of_eq hn.symm)]
    constructor
    · rintro ⟨c, hc, hr⟩
      cases hc
      cases hr
    · rintro ⟨c, hc, -⟩
      cases hc
  · exact Iff.rfl

lemma exists_modify (f : Call → Call) (Q : Call → Prop) :
    (∃ c, (calls.modify k f)[n]? = some c ∧ Q c) ↔
      ∃ c, calls[n]? = some c ∧ Q (if k = n then f c else c) := by
  rw [getElem?_modify]
  cases calls[n]? <;> simp

lemma asked_modify {f : Call → Call} (hf : ∀ c, (f c).msg = c.msg) :
    Asked (calls.modify k f) n msg ↔ Asked calls n msg := by
  refine (exists_modify f _).trans ?_
  simp only [apply_ite Call.msg, hf, ite_self]
  rfl

lemma asked_addReply : Asked (addReply calls k content) n msg ↔ Asked calls n msg :=
  asked_modify fun _ => rfl

lemma asked_settle : Asked (settle calls k outcome) n msg ↔ Asked calls n msg :=
  asked_modify fun _ => rfl

lemma replied_settle : Replied (settle calls k outcome) n content ↔ Replied calls n content := by
  refine (exists_modify _ _).trans ?_
  simp only [apply_ite Call.replies, ite_self]
  rfl

lemma replied_of_addReply {content' : Blob} (h : Replied (addReply calls k content') n content) :
    (n = k ∧ content = content') ∨ Replied calls n content := by
  obtain ⟨c, hc, hr⟩ := (exists_modify _ _).mp h
  split at hr
  next hk =>
    rcases mem_append.mp hr with hr | hr
    · exact .inr ⟨c, hc, hr⟩
    · exact .inl ⟨hk.symm, mem_singleton.mp hr⟩
  next => exact .inr ⟨c, hc, hr⟩

lemma Replied.addReply {content' : Blob} (h : Replied calls n content) :
    Replied (ZeroMQ.addReply calls k content') n content := by
  obtain ⟨c, hc, hr⟩ := h
  refine (exists_modify _ _).mpr ⟨c, hc, ?_⟩
  split
  · exact mem_append_left _ hr
  · exact hr

end calls

/-! ## both ends -/

/-- calls, and the messages that were placed for them -/
structure Linked (calls : List Call) (confirming confirmed : List (P × Nat))
    (placed : List (P × Nat × Blob)) (handed : List Blob) : Prop where
  asked : ∀ n msg, Asked calls n msg → msg ∈ handed
  copied : ∀ e ∈ placed, Asked calls e.2.1 e.2.2
  answered : ∀ (n : Nat) (c : Call) (content : Blob), calls[n]? = some c →
    c.result = some (.reply content) → content ∈ c.replies
  underway : ∀ e ∈ confirming, ∃ msg, Asked calls e.2 msg ∧ (e.1, e.2, msg) ∈ placed
  agreed : ∀ n, Replied calls n kConfirm →
    ∃ p msg, Asked calls n msg ∧ (p, n, msg) ∈ placed ∧ (p, n) ∈ confirmed

section linked
variable {calls : List Call} {confirming confirmed : List (P × Nat)}
  {placed : List (P × Nat × Blob)} {handed : List Blob}

section
variable (h : Linked calls confirming confirmed placed handed)
include h

lemma Linked.hand (msg : Blob) : Linked calls confirming confirmed placed (msg :: handed) :=
  ⟨fun n m hm => mem_cons_of_mem _ (h.asked n m hm), h.copied, h.answered, h.underway,
    h.agreed⟩

lemma Linked.update {calls' : List Call} {confirming' confirmed' : List (P × Nat)}
    (hnew : ∀ n m, Asked calls' n m → m ∈ handed ∨ Asked calls n m)
    (hold : ∀ n m, Asked calls n m → Asked calls' n m)
    (hans : ∀ (n : Nat) (c : Call) content, calls'[n]? = some c → c.result = some (.reply content) →
      content ∈ c.replies)
    (hsub : confirming' ⊆ confirming) (hsup : confirmed ⊆ confirmed')
    (hagreed : ∀ n, Replied calls' n kConfirm → Replied calls n kConfirm ∨
      ∃ p msg, Asked calls n msg ∧ (p, n, msg) ∈ placed ∧ (p, n) ∈ confirmed') :
    Linked calls' confirming' confirmed' placed handed := by
  refine ⟨fun n m ha => (hnew n m ha).elim (fun hm => hm) (h.asked n m),
    fun e he => hold _ _ (h.copied e he), hans, fun e he => ?_, fun n hr => ?_⟩
  · obtain ⟨m, ha, hp⟩ := h.underway e (hsub he)
    exact ⟨m, hold _ _ ha, hp⟩
  · rcases hagreed n hr with hr | ⟨p, m, ha, hp⟩
    · obtain ⟨p, m, ha, hp, hq⟩ := h.agreed n hr
      exact ⟨p, m, hold _ _ ha, hp, hsup hq⟩
    · exact ⟨p, m, hold _ _ ha, hp⟩

lemma Linked.ask {msg : Blob} (hm : msg ∈ handed) :
    Linked (ask calls msg) confirming confirmed placed handed := by
  refine h.update (fun _ m ha => (asked_of_ask ha).imp_left fun (he : m = msg) => he ▸ hm)
    (fun _ _ ha => ha.ask msg) (fun n c content hc hr => ?_) (Subset.refl _) (Subset.refl _)
    fun _ hr => .inl (replied_ask.mp hr)
  rw [getElem?_ask] at hc
  split at hc
  · cases hc
    cases hr
  · exact h.answered n c content hc hr

lemma Linked.place {p : P} {n : Nat}
    {msg : Blob} (ha : Asked calls n msg) :
    Linked calls ((p, n) :: confirming) confirmed ((p, n, msg) :: placed) handed := by
  refine ⟨h.asked, forall_mem_cons.mpr ⟨ha, h.copied⟩, h.answered,
    forall_mem_cons.mpr ⟨⟨msg, ha, mem_cons_self ..⟩, fun e he => ?_⟩, fun k hk => ?_⟩
  · obtain ⟨m, hm, hp⟩ := h.underway e he
    exact ⟨m, hm, mem_cons_of_mem _ hp⟩
  · obtain ⟨q, m, hm, hp, hq⟩ := h.agreed k hk
    exact ⟨q, m, hm, mem_cons_of_mem _ hp, hq⟩

lemma Linked.reply {n : Nat}
    {content : Blob} {confirming' confirmed' : List (P × Nat)} (hsub : confirming' ⊆ confirming)
    (hsup : confirmed ⊆ confirmed')
    (hc : content = kConfirm →
      ∃ p msg, Asked calls n msg ∧ (p, n, msg) ∈ placed ∧ (p, n) ∈ confirmed') :
    Linked (addReply calls n content) confirming' confirmed' placed handed := by
  refine h.update (fun _ _ ha => .inr (asked_addReply.mp ha)) (fun _ _ ha => asked_addReply.mpr ha)
    (fun k c r hk hr => ?_) hsub hsup fun k hk => ?_
  · obtain ⟨c, hold, rfl⟩ := (exists_modify _ (· = c)).mp ⟨c, hk, rfl⟩
    by_cases hn : n = k
    · simp only [hn, if_true] at hr ⊢
      exact mem_append_left _ (h.answered k c r hold hr)
    · simp only [hn, if_false] at hr ⊢
      exact h.answered k c r hold hr
  · rcases replied_of_addReply hk with ⟨rfl, heq⟩ | hold
    · exact .inr (hc heq.symm)
    · exact .inl hold

lemma Linked.settle {n : Nat} (hs : Settles calls n outcome) :
    Linked (settle calls n outcome) confirming confirmed placed handed := by
  refine h.update (fun _ _ ha => .inr (asked_settle.mp ha)) (fun _ _ ha => asked_settle.mpr ha)
    (fun k c r hk hr => ?_) (Subset.refl _) (Subset.refl _) fun _ hk => .inl (replied_settle.mp hk)
  obtain ⟨c, hold, rfl⟩ := (exists_modify _ (· = c)).mp ⟨c, hk, rfl⟩
  by_cases hn : n = k
  · simp only [hn, if_true] at hr ⊢
    obtain rfl : outcome = .reply r := Option.some.inj hr
    obtain ⟨call, hcall, -, hmem⟩ := hs
    rw [hn, hold] at hcall
    cases hcall
    exact hmem
  · simp only [hn, if_false] at hr ⊢
    exact h.answered k c r hold hr

end

end linked

/-! ## the consumer -/

/-- the message that the consumer is about to send -/
def Place.carried : Place → List Blob
  | .idle => []
  | .check ca => [ca]
  | .scan ca _ => [ca]

/-- what one step of the send function does -/
inductive Consumes (m : Nat) (s : Transport P) : Transport P → Prop
  | walk (place : Place) (h : place.carried = s.place.carried) : Consumes m s { s with place }
  | send (ca : Blob) (h : s.place = .check ca) (hroom : s.pending_.length < m) :
      Consumes m s
        { s with
          pending_ := s.pending_ ++ [(ca, s.calls.length)]
          calls := ask s.calls ca
          place := .idle }
  | resend (ca : Blob) (i : Nat) (req : Blob) (n : Nat) (h : s.place = .scan ca i)
      (hi : s.pending_[i]? = some (req, n)) : Consumes m s (s.resend ca i req)
  | release (i : Nat) (req : Blob) (n : Nat) (hi : s.pending_[i]? = some (req, n))
      (hr : (s.calls[n]?).bind Call.result = some (.reply kConfirm)) :
      Consumes m s
        { s with pending_ := s.pending_.eraseIdx i, released := (req, n) :: s.released }

lemma consumes (m : Nat) (s : Transport P) : Consumes m s (s.consume m) := by
  unfold Transport.consume
  split
  · exact .walk s.place rfl
  next ca hplace =>
    split
    · exact .walk _ (by rw [hplace]; rfl)
    next hroom =>
      exact .send ca hplace (Nat.lt_of_not_le hroom)
  next ca i hplace =>
    split
    · exact .walk _ (by rw [hplace]; rfl)
    next req n hi =>
      split
      · exact .walk _ (by rw [hplace]; rfl)
      · exact .resend ca i req n hplace hi
      next content hr =>
        split
        next hconfirm =>
          rw [hconfirm] at hr
          exact .release i req n hi hr
        · exact .resend ca i req n hplace hi

/-- where the messages handed to the consumer are -/
structure Held (m : Nat) (s : Transport P) : Prop where
  pending : ∀ e ∈ s.pending_, Asked s.calls e.2 e.1
  released : ∀ e ∈ s.released, Asked s.calls e.2 e.1 ∧ Replied s.calls e.2 kConfirm
  balance : s.handed.Perm
    (s.place.carried ++ (s.pending_.map fst ++ s.released.map fst))
  room : s.pending_.length ≤ m

lemma Held.calls (h : Held m s) (hpending : s'.pending_ = s.pending_)
    (hreleased : s'.released = s.released) (hhanded : s'.handed = s.handed)
    (hplace : s'.place = s.place) (hasked : ∀ n msg, Asked s.calls n msg → Asked s'.calls n msg)
    (hreplied : ∀ n content, Replied s.calls n content → Replied s'.calls n content) :
    Held m s' := by
  refine ⟨fun e he => ?_, fun e he => ?_, ?_, ?_⟩
  · rw [hpending] at he
    exact hasked _ _ (h.pending e he)
  · rw [hreleased] at he
    exact ⟨hasked _ _ (h.released e he).1, hreplied _ _ (h.released e he).2⟩
  · rw [hpending, hreleased, hhanded, hplace]
    exact h.balance
  · rw [hpending]
    exact h.room

lemma Held.hand (h : Held m s) (hidle : s.place = .idle) (msg : Blob) :
    Held m { s with place := .check msg, handed := msg :: s.handed } := by
  refine ⟨h.pending, h.released, ?_, h.room⟩
  have hb := h.balance
  rw [hidle] at hb
  exact hb.cons msg

lemma map_fst_set {l : List (Blob × Nat)} {i n k : Nat} {req : Blob}
    (hi : l[i]? = some (req, n)) : (l.set i (req, k)).map fst = l.map fst := by
  apply ext_getElem?
  intro j
  rw [getElem?_map, getElem?_map]
  by_cases hj : i = j
  · rw [← hj, getElem?_set_self (List.getElem?_eq_some_iff.mp hi).1, hi]
    rfl
  · rw [getElem?_set_ne hj]

lemma perm_eraseIdx {l : List (Blob × Nat)} {i : Nat} {e : Blob × Nat} (hi : l[i]? = some e) :
    l.Perm (e :: l.eraseIdx i) := by
  obtain ⟨hlt, hget⟩ := List.getElem?_eq_some_iff.mp hi
  rw [← hget]
  exact (getElem_cons_eraseIdx_perm hlt).symm

lemma Held.consumes (h : Held m s)
    (hlink : Linked s.calls s.confirming s.confirmed s.placed s.handed) (hs : Consumes m s s') :
    Held m s' := by
  cases hs with
  | walk place hcarried =>
    refine ⟨h.pending, h.released, ?_, h.room⟩
    show s.handed.Perm (place.carried ++ _)
    rw [hcarried]
    exact h.balance
  | send ca hplace hroom =>
    refine ⟨forall_mem_append.mpr ⟨fun e he => (h.pending e he).ask ca,
      forall_mem_singleton.mpr asked_ask_self⟩, fun e he => ⟨(h.released e he).1.ask ca,
      replied_ask.mpr (h.released e he).2⟩, ?_, ?_⟩
    · have hb := h.balance
      rw [hplace] at hb
      show s.handed.Perm ((s.pending_ ++ [(ca, s.calls.length)]).map fst ++ _)
      rw [map_append, append_assoc]
      have hmiddle : (ca :: (s.pending_.map fst ++ s.released.map fst)).Perm
          (s.pending_.map fst ++ ca :: s.released.map fst) := perm_middle.symm
      exact hb.trans hmiddle
    · show (s.pending_ ++ [(ca, s.calls.length)]).length ≤ m
      rw [length_append, length_singleton]
      omega
  | resend ca i req n hplace hi =>
    refine ⟨fun e he => ?_, fun e he => ⟨(h.released e he).1.ask req,
      replied_ask.mpr (h.released e he).2⟩, ?_, ?_⟩
    · rcases mem_or_eq_of_mem_set he with he | rfl
      · exact (h.pending e he).ask req
      · exact asked_ask_self
    · have hb := h.balance
      rw [hplace] at hb
      show s.handed.Perm ([ca] ++ ((s.pending_.set i (req, s.calls.length)).map fst ++ _))
      rw [map_fst_set hi]
      exact hb
    · show (s.pending_.set i (req, s.calls.length)).length ≤ m
      rw [length_set]
      exact h.room
  | release i req n hi hr =>
    have hperm := perm_eraseIdx hi
    have hmem : (req, n) ∈ s.pending_ := mem_of_getElem? hi
    refine ⟨fun e he => h.pending e (mem_of_mem_eraseIdx he),
      forall_mem_cons.mpr ⟨⟨h.pending _ hmem, ?_⟩, h.released⟩, ?_, ?_⟩
    · obtain ⟨c, hc, hres⟩ := Option.bind_eq_some_iff.mp hr
      exact ⟨c, hc, hlink.answered n c kConfirm hc hres⟩
    · refine h.balance.trans (Perm.append_left _ ?_)
      show (s.pending_.map fst ++ s.released.map fst).Perm
        ((s.pending_.eraseIdx i).map fst ++ req :: s.released.map fst)
      exact ((hperm.map fst).append_right _).trans perm_middle.symm
    · exact Nat.le_trans (length_eraseIdx_le _ _) h.room

lemma left_of_consumes (hs : Consumes m s s') {msg : Blob}
    (hleft : (s'.pending_.map fst).count msg < (s.pending_.map fst).count msg) :
    ∃ n, (msg, n) ∈ s.pending_ ∧ (s.calls[n]?).bind Call.result = some (.reply kConfirm) := by
  cases hs with
  | walk place hcarried => exact absurd hleft (Nat.lt_irrefl _)
  | send ca hplace hroom =>
    have hle := (sublist_append_left s.pending_ [(ca, s.calls.length)]).map fst
    exact absurd hleft (Nat.not_lt.mpr (hle.count_le msg))
  | resend ca i req n hplace hi =>
    have hsame : ((s.resend ca i req).pending_.map fst) = s.pending_.map fst :=
      map_fst_set hi
    rw [hsame] at hleft
    exact absurd hleft (Nat.lt_irrefl _)
  | release i req n hi hr =>
    have hcount := ((perm_eraseIdx hi).map fst).count_eq msg
    rw [map_cons, count_cons] at hcount
    by_cases hreq : req = msg
    · exact ⟨n, hreq ▸ mem_of_getElem? hi, hr⟩
    · rw [if_neg (by simpa using hreq), Nat.add_zero] at hcount
      exact absurd hleft (by rw [hcount]; exact Nat.lt_irrefl _)

/-! ## the producers -/

section producers
variable [DecidableEq P] {m : Nat} {k : P → Nat} {s : Transport P}

/-- what is recorded for `p`, oldest first -/
def recorded (p : P) (l : List (P × Blob)) : List Blob :=
  ((l.filter fun e => e.1 = p).map snd).reverse

lemma recorded_cons_self (p : P) (msg : Blob) (l : List (P × Blob)) :
    recorded p ((p, msg) :: l) = recorded p l ++ [msg] := by
  unfold recorded
  rw [filter_cons_of_pos (by simp), map_cons, reverse_cons]

lemma recorded_cons_of_ne {p q : P} (hne : q ≠ p) (msg : Blob) (l : List (P × Blob)) :
    recorded p ((q, msg) :: l) = recorded p l := by
  unfold recorded
  rw [filter_cons_of_neg (by simpa using hne)]

lemma mem_recorded {p : P} {msg : Blob} {l : List (P × Blob)} :
    msg ∈ recorded p l ↔ (p, msg) ∈ l := by
  unfold recorded
  simp

/-- the messages placed in queues, with the producer -/
def copies (placed : List (P × Nat × Blob)) : List (P × Blob) := placed.map fun e => (e.1, e.2.2)

/-- what a producer placed is what it took and what waits in its queue -/
structure Stocked (k : P → Nat) (s : Transport P) : Prop where
  fifo : ∀ p, recorded p (copies s.placed) = recorded p s.taken ++ s.queue_ p
  space : ∀ p, (s.queue_ p).length ≤ k p

lemma Stocked.place (h : Stocked k s) {p : P} (hspace : (s.queue_ p).length < k p) (n : Nat)
    (msg : Blob) (calls : List Call) (confirming : List (P × Nat)) :
    Stocked k
      { s with
        calls, confirming
        queue_ := update s.queue_ p (s.queue_ p ++ [msg])
        placed := (p, n, msg) :: s.placed } := by
  refine ⟨fun q => ?_, ?_⟩
  · show recorded q ((p, msg) :: copies s.placed) = recorded q s.taken ++
      update s.queue_ p (s.queue_ p ++ [msg]) q
    by_cases hq : q = p
    · rw [hq, recorded_cons_self, h.fifo p, update_self, append_assoc]
    · rw [recorded_cons_of_ne (Ne.symm hq), update_of_ne hq, h.fifo q]
  · refine (forall_update_iff s.queue_ fun q l => l.length ≤ k q).mpr ⟨?_, fun q _ => h.space q⟩
    rw [length_append]
    exact hspace

lemma Stocked.produce (h : Stocked k s) (p : P) : Stocked k (s.produce p) := by
  unfold Transport.produce
  split
  · exact h
  next data rest hqueue =>
    refine ⟨fun q => ?_, ?_⟩
    · show recorded q (copies s.placed) = recorded q ((p, data) :: s.taken) ++
        update s.queue_ p rest q
      by_cases hq : q = p
      · rw [hq, recorded_cons_self, update_self, h.fifo p, hqueue, append_assoc]
        rfl
      · rw [recorded_cons_of_ne (Ne.symm hq), update_of_ne hq, h.fifo q]
    · refine (forall_update_iff s.queue_ fun q l => l.length ≤ k q).mpr ⟨?_, fun q _ => h.space q⟩
      have hspace := h.space p
      rw [hqueue, length_cons] at hspace
      exact Nat.le_of_succ_le hspace

lemma handleRequest_cases (k : P → Nat) (s : Transport P) (p : P) {n : Nat} {call : Call}
    (hn : s.calls[n]? = some call) :
    s.handleRequest k p n = { s with calls := addReply s.calls n kDeny } ∨
    (s.queue_ p).length < k p ∧
      s.handleRequest k p n =
        { s with
          queue_ := update s.queue_ p (s.queue_ p ++ [call.msg])
          confirming := (p, n) :: s.confirming
          placed := (p, n, call.msg) :: s.placed } := by
  unfold Transport.handleRequest
  rw [hn]
  by_cases hspace : k p ≤ (s.queue_ p).length
  · exact .inl (if_pos hspace)
  · exact .inr ⟨Nat.lt_of_not_le hspace, if_neg hspace⟩

/-! ## whole runs -/

structure Kept (m : Nat) (k : P → Nat) (s : Transport P) : Prop where
  linked : Linked s.calls s.confirming s.confirmed s.placed s.handed
  held : Held m s
  stocked : Stocked k s

lemma kept_consume (h : Kept m k s) : Kept m k (s.consume m) := by
  have hs := consumes m s
  have hheld := h.held.consumes h.linked hs
  generalize s.consume m = s' at hs hheld
  have hhanded : ∀ {msg}, msg ∈ s.place.carried ++ (s.pending_.map fst ++
      s.released.map fst) → msg ∈ s.handed := fun hm => h.held.balance.mem_iff.mpr hm
  cases hs with
  | walk place hcarried => exact ⟨h.linked, hheld, h.stocked.fifo, h.stocked.space⟩
  | send ca hplace hroom =>
    refine ⟨h.linked.ask (hhanded ?_), hheld, h.stocked.fifo, h.stocked.space⟩
    rw [hplace]
    exact mem_cons_self ..
  | resend ca i req n hplace hi =>
    refine ⟨h.linked.ask (hhanded ?_), hheld, h.stocked.fifo, h.stocked.space⟩
    refine mem_append_right _ (mem_append_left _ ?_)
    exact mem_map_of_mem (mem_of_getElem? hi)
  | release i req n hi hr => exact ⟨h.linked, hheld, h.stocked.fifo, h.stocked.space⟩

lemma kept_reply (h : Kept m k s) {n : Nat} {content : Blob}
    {confirming confirmed : List (P × Nat)} (hsub : confirming ⊆ s.confirming)
    (hsup : s.confirmed ⊆ confirmed)
    (hc : content = kConfirm →
      ∃ p msg, Asked s.calls n msg ∧ (p, n, msg) ∈ s.placed ∧ (p, n) ∈ confirmed) :
    Kept m k { s with calls := addReply s.calls n content, confirming, confirmed } :=
  ⟨h.linked.reply hsub hsup hc,
    h.held.calls rfl rfl rfl rfl (fun _ _ ha => asked_addReply.mpr ha)
      (fun _ _ hr => hr.addReply),
    h.stocked.fifo, h.stocked.space⟩

lemma kept_step (h : Kept m k s) (o : Op P) (ho : o.Ok s) : Kept m k (o.run m k s) := by
  cases o with
  | hand msg => exact ⟨h.linked.hand msg, h.held.hand ho msg, h.stocked.fifo, h.stocked.space⟩
  | consume => exact kept_consume h
  | handleRequest p n =>
    obtain ⟨call, hcall⟩ : ∃ call, s.calls[n]? = some call := ⟨_, getElem?_eq_getElem ho⟩
    show Kept m k (s.handleRequest k p n)
    rcases handleRequest_cases k s p hcall with heq | ⟨hspace, heq⟩
    · rw [heq]
      exact kept_reply h (Subset.refl _) (Subset.refl _)
        (fun hne => absurd hne (by decide))
    · rw [heq]
      exact ⟨h.linked.place ⟨call, hcall, rfl⟩, ⟨h.held.pending, h.held.released, h.held.balance,
        h.held.room⟩, h.stocked.place hspace n call.msg s.calls _⟩
  | confirm p n =>
    obtain ⟨msg, ha, hp⟩ := h.linked.underway (p, n) ho
    exact kept_reply h erase_subset (subset_cons_self ..)
      (fun _ => ⟨p, msg, ha, hp, mem_cons_self ..⟩)
  | settle n outcome =>
    exact ⟨h.linked.settle ho,
      h.held.calls rfl rfl rfl rfl (fun _ _ ha => asked_settle.mpr ha)
        (fun _ _ hr => replied_settle.mpr hr),
      h.stocked.fifo, h.stocked.space⟩
  | produce p =>
    have hstocked := h.stocked.produce p
    show Kept m k (s.produce p)
    unfold Transport.produce at hstocked ⊢
    split
    · exact h
    next data rest hqueue =>
      rw [hqueue] at hstocked
      exact ⟨h.linked, ⟨h.held.pending, h.held.released, h.held.balance, h.held.room⟩, hstocked⟩

lemma kept_empty : Kept m k ({} : Transport P) := by
  refine ⟨⟨?_, nofun, ?_, nofun, ?_⟩, ⟨nofun, nofun, Perm.nil, Nat.zero_le m⟩,
    ⟨fun _ => rfl, fun p => Nat.zero_le (k p)⟩⟩
  · rintro n msg ⟨c, hc, -⟩
    cases hc
  · intro n c content hc
    cases hc
  · rintro n ⟨c, hc, -⟩
    cases hc

lemma left_of_run {o : Op P} {msg : Blob} (hleft :
      ((o.run m k s).pending_.map fst).count msg < (s.pending_.map fst).count msg) :
    ∃ n, (msg, n) ∈ s.pending_ ∧ (s.calls[n]?).bind Call.result = some (.reply kConfirm) := by
  have hsame : (o.run m k s).pending_ = s.pending_ →
      ∃ n, (msg, n) ∈ s.pending_ ∧ (s.calls[n]?).bind Call.result = some (.reply kConfirm) := by
    intro heq
    rw [heq] at hleft
    exact absurd hleft (Nat.lt_irrefl _)
  cases o with
  | hand msg => exact hsame rfl
  | consume => exact left_of_consumes (consumes m s) hleft
  | handleRequest p n =>
    refine hsame ?_
    show (s.handleRequest k p n).pending_ = s.pending_
    unfold Transport.handleRequest
    split
    · rfl
    · split <;> rfl
  | confirm | settle => exact hsame rfl
  | produce p =>
    refine hsame ?_
    show (s.produce p).pending_ = s.pending_
    unfold Transport.produce
    split <;> rfl

/-- **No message is lost and none is invented**, in every interleaving: what leaves `pending_` was
placed in a queue and confirmed, and a producer takes what was placed, in order. -/
theorem nothing_lost (m : Nat) (k : P → Nat) (os : List (Op P))
    (hl : (transportSys P m k).Legal {} os) :
    let s := (transportSys P m k).out {} os
    (∀ (o : Op P) msg, o.Ok s →
      ((o.run m k s).pending_.map fst).count msg < (s.pending_.map fst).count msg →
      ∃ n p, (msg, n) ∈ s.pending_ ∧ (p, n, msg) ∈ s.placed ∧ (p, n) ∈ s.confirmed) ∧
    s.handed.Perm (s.place.carried ++ (s.pending_.map fst ++ s.released.map fst)) ∧
    (∀ e ∈ s.released, ∃ p, (p, e.2, e.1) ∈ s.placed ∧ (p, e.2) ∈ s.confirmed) ∧
    (∀ p, recorded p (copies s.placed) = recorded p s.taken ++ s.queue_ p) ∧
    (∀ e ∈ s.taken, e.2 ∈ s.handed) ∧
    (∀ p, (s.queue_ p).length ≤ k p) ∧
    (∀ p n msg, Asked s.calls n msg →
      ((Op.handleRequest p n).run m k s).calls = addReply s.calls n kDeny ∧
          ((Op.handleRequest p n).run m k s).queue_ = s.queue_ ∨
        ((Op.handleRequest p n).run m k s).calls = s.calls ∧
          ((Op.handleRequest p n).run m k s).queue_
            = update s.queue_ p (s.queue_ p ++ [msg])) ∧
    s.pending_.length ≤ m := by
  intro s
  have h : Kept m k s :=
    (transportSys P m k).invariant (Kept m k) (fun _ o hs ho => kept_step hs o ho) _ kept_empty os
      hl
  have hcopy : ∀ {n msg}, Asked s.calls n msg → Replied s.calls n kConfirm →
      ∃ p, (p, n, msg) ∈ s.placed ∧ (p, n) ∈ s.confirmed := by
    intro n msg ha hr
    obtain ⟨p, msg', ha', hp, hq⟩ := h.linked.agreed n hr
    exact ⟨p, ha.unique ha' ▸ hp, hq⟩
  refine ⟨fun o msg _ hleft => ?_, h.held.balance, fun e he => ?_, h.stocked.fifo, fun e he => ?_,
    h.stocked.space, fun p n msg ha => ?_, h.held.room⟩
  · obtain ⟨n, hmem, hr⟩ := left_of_run hleft
    obtain ⟨c, hc, hres⟩ := Option.bind_eq_some_iff.mp hr
    have hreplied : Replied s.calls n kConfirm := ⟨c, hc, h.linked.answered n c kConfirm hc hres⟩
    obtain ⟨p, hp⟩ := hcopy (h.held.pending _ hmem) hreplied
    exact ⟨n, p, hmem, hp⟩
  · obtain ⟨ha, hr⟩ := h.held.released e he
    exact hcopy ha hr
  · have hmem : e.2 ∈ recorded e.1 (copies s.placed) := by
      rw [h.stocked.fifo e.1]
      exact mem_append_left _ (mem_recorded.mpr he)
    obtain ⟨placed, hplaced, heq⟩ := mem_map.mp (mem_recorded.mp hmem)
    have hmsg : placed.2.2 = e.2 := congrArg snd heq
    exact hmsg ▸ h.linked.asked _ _ (h.linked.copied placed hplaced)
  · obtain ⟨call, hcall, rfl⟩ := ha
    show (s.handleRequest k p n).calls = _ ∧ (s.handleRequest k p n).queue_ = _ ∨
      (s.handleRequest k p n).calls = _ ∧ (s.handleRequest k p n).queue_ = _
    rcases handleRequest_cases k s p hcall with heq | ⟨-, heq⟩
    · rw [heq]
      exact .inl ⟨rfl, rfl⟩
    · rw [heq]
      exact .inr ⟨rfl, rfl⟩

/-- one slot at either end: the second message is denied, requested again and delivered twice -/
def deniedThenTwice : List (Op Bool) :=
  [.hand ['a'], .consume, .handleRequest true 0, .confirm true 0, .settle 0 (.reply kConfirm),
    .hand ['b'], .consume, .consume, .consume, .consume, .handleRequest true 1,
    .settle 1 (.reply kDeny), .hand ['c'], .consume, .consume, .produce true,
    .handleRequest true 2, .handleRequest false 2, .confirm true 2,
    .settle 2 (.reply kConfirm), .consume, .consume, .consume]

theorem nothing_lost_denied :
    ((transportSys Bool 1 fun _ => 1).Legal {} deniedThenTwice ∧
      ((transportSys Bool 1 fun _ => 1).out {} deniedThenTwice).released
        = [(['b'], 2), (['a'], 0)]) ∧
    ∀ e ∈ ((transportSys Bool 1 fun _ => 1).out {} deniedThenTwice).released,
      ∃ p, (p, e.2, e.1) ∈ ((transportSys Bool 1 fun _ => 1).out {} deniedThenTwice).placed ∧
        (p, e.2) ∈ ((transportSys Bool 1 fun _ => 1).out {} deniedThenTwice).confirmed :=
  ⟨by decide +kernel, (nothing_lost 1 (fun _ => 1) deniedThenTwice (by decide +kernel)).2.2.1⟩

end producers

end TorchCraft.ZeroMQ
