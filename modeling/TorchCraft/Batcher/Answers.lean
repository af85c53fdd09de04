import Mathlib.Data.List.Range
import Mathlib.Algebra.Order.BigOperators.Group.List
import TorchCraft.Batcher.Model

/-!
# Every query of an `AsyncBatcher` is answered once

* `answered_once`  every promise is resolved once, with the reply of its own query.
-/

namespace TorchCraft.Batcher
open TorchCraft.Lib
open List

variable {Q I O R E : Type*} (makeBatch : List Q → Except E I) (unBatch : O → Except E (List R))

/-! ## the invariant -/

def outcomeAt (i : Nat) : Except E (List R) → Option (Outcome R E)
  | .ok values => values[i]?.map .value
  | .error e => some (.exception e)

/-- what the promises of a batch have to be resolved with, as soon as it has been forwarded -/
def Batch.answers (b : Batch Q I O E) : List (Nat × Outcome R E) :=
  match b.model with
  | none => []
  | some m => Batcher.answers b.replies (forward makeBatch unBatch m b.queries)

/-- the batch has been forwarded, and there is one reply for each promise -/
def Batch.Forwarded (b : Batch Q I O E) : Prop :=
  ∃ m, b.model = some m ∧ mismatch b.replies (forward makeBatch unBatch m b.queries) = none

def Batch.Sized (batchSize : Nat) (b : Batch Q I O E) : Prop :=
  1 ≤ b.queries.length ∧ b.queries.length ≤ batchSize ∧ b.replies.length = b.queries.length

def Batch.Own (arrivals : List Q) (b : Batch Q I O E) : Prop :=
  ∀ i p : Nat, b.replies[i]? = some p → b.queries[i]? = arrivals[p]?

/-- the batches are forwarded and `resolved` holds exactly their answers -/
def Answered (bs : List (Batch Q I O E)) (resolved : List (Nat × Outcome R E)) : Prop :=
  (∀ b ∈ bs, b.Forwarded makeBatch unBatch)
    ∧ resolved = bs.flatMap (Batch.answers makeBatch unBatch)

/-- what has been answered when the consumer is in a phase -/
def Phase.Tidy (bs : List (Batch Q I O E)) (resolved : List (Nat × Outcome R E)) :
    Phase Q R E → Prop
  | .waiting => Answered makeBatch unBatch bs resolved
  | .working queries replies =>
      ∃ bs', bs = bs' ++ [⟨queries, replies, none⟩] ∧ Answered makeBatch unBatch bs' resolved
  | .resolving todo =>
      ∃ bs' b done, bs = bs' ++ [b] ∧ b.Forwarded makeBatch unBatch ∧ todo ≠ []
        ∧ b.answers makeBatch unBatch = done ++ todo
        ∧ ∃ before, Answered makeBatch unBatch bs' before ∧ resolved = before ++ done
  | .fatal text =>
      ∃ bs' b m n, bs = bs' ++ [b] ∧ b.model = none ∧ Answered makeBatch unBatch bs' resolved
        ∧ mismatch b.replies (forward makeBatch unBatch m b.queries) = some n
        ∧ text = replyMismatch n b.replies.length

/-- the invariant of every reachable batcher -/
structure Tidy (s : AsyncBatcher Q I O R E) : Prop where
  /-- the batches and the queue are the queries in the order of their arrival -/
  arrived : (s.batches.map Batch.queries).flatten ++ s.queries = s.arrivals
  /-- the promises of the batches and of the queue are numbered in the same order -/
  promised : (s.batches.map Batch.replies).flatten ++ s.replies = List.range s.arrivals.length
  sized : ∀ b ∈ s.batches, b.Sized s.batchSize
  own : ∀ b ∈ s.batches, b.Own s.arrivals
  answered : s.consumer.Tidy makeBatch unBatch s.batches s.resolved

variable {makeBatch unBatch} {s : AsyncBatcher Q I O R E} {b : Batch Q I O E} {p : Nat}
  {o : Outcome R E} {replies : List Nat} {bs : List (Batch Q I O E)}
  {resolved todo : List (Nat × Outcome R E)} {os : List (BatcherOp Q I O E)}

/-! ## the vectors -/

lemma shift_eq_drop {A : Type*} (n : Nat) (l : List A) : shift n l = l.drop n := by
  rw [shift, moveDown, take_left' (length_drop)]

lemma flatten_map_concat {A B : Type*} (f : B → List A) (bs : List B) (b : B) :
    ((bs ++ [b]).map f).flatten = (bs.map f).flatten ++ f b := by
  rw [map_append, flatten_append, map_singleton, flatten_singleton]

lemma Tidy.same_length (h : Tidy makeBatch unBatch s) : s.queries.length = s.replies.length := by
  have hq := congrArg List.length h.arrived
  have hr := congrArg List.length h.promised
  have hb : s.batches.map (fun b => b.replies.length) = s.batches.map fun b => b.queries.length :=
    map_congr_left fun b hb => (h.sized b hb).2.2
  simp only [length_append, length_flatten, map_map, Function.comp_def, length_range] at hq hr
  rw [hb] at hr
  omega

lemma Tidy.replies_eq (h : Tidy makeBatch unBatch s) :
    s.replies = List.range' (s.arrivals.length - s.queries.length) s.queries.length := by
  have hq := congrArg List.length h.arrived
  have hp := congrArg (List.drop (s.arrivals.length - s.queries.length)) h.promised
  have hr := congrArg List.length h.promised
  have hs := h.same_length
  simp only [length_append, length_range] at hq hr
  rw [drop_append_of_le_length (by omega), drop_of_length_le (by omega), nil_append] at hp
  rw [hp, range_eq_range', drop_range']
  congr 1 <;> omega

lemma Tidy.position (h : Tidy makeBatch unBatch s) {i : Nat}
    (hp : s.replies[i]? = some p) : s.queries[i]? = s.arrivals[p]? := by
  have hq := congrArg List.length h.arrived
  rw [length_append] at hq
  have hi : i < s.queries.length := by
    rw [h.same_length]
    exact (List.getElem?_eq_some_iff.mp hp).1
  rw [h.replies_eq, getElem?_range' hi] at hp
  have hp := Option.some.inj hp
  have ha : s.arrivals[p]? = ((s.batches.map Batch.queries).flatten ++ s.queries)[p]? := by
    rw [h.arrived]
  rw [ha, getElem?_append_right (by omega)]
  congr 1
  omega

lemma Tidy.reply_lt (h : Tidy makeBatch unBatch s)
    (hb : b ∈ s.batches) (hp : p ∈ b.replies) : p < s.arrivals.length := by
  rw [← mem_range, ← h.promised]
  exact mem_append_left _ (mem_flatten.mpr ⟨_, mem_map_of_mem hb, hp⟩)

/-! ## the answers of a batch -/

lemma answers_fst {res : Except E (List R)} (h : mismatch replies res = none) :
    (answers replies res).map Prod.fst = replies := by
  cases res with
  | ok values =>
    have hl : replies.length = values.length := by
      by_contra hne
      rw [mismatch, if_pos hne] at h
      exact absurd h (by simp)
    exact map_fst_zip (by rw [length_map]; omega)
  | error e =>
    rw [answers, map_map]
    exact map_id replies

lemma mem_answers {res : Except E (List R)} (h : (p, o) ∈ answers replies res) :
    ∃ i, replies[i]? = some p ∧ outcomeAt i res = some o := by
  obtain ⟨i, hi⟩ := mem_iff_getElem?.mp h
  refine ⟨i, ?_⟩
  cases res with
  | ok values =>
    rw [answers, getElem?_zip_eq_some, getElem?_map] at hi
    exact hi
  | error e =>
    rw [answers, getElem?_map, Option.map_eq_some_iff] at hi
    obtain ⟨q, hq, he⟩ := hi
    cases he
    exact ⟨hq, rfl⟩

lemma Batch.Forwarded.answers_fst (h : b.Forwarded makeBatch unBatch) :
    (b.answers makeBatch unBatch).map Prod.fst = b.replies := by
  obtain ⟨m, hm, hn⟩ := h
  rw [Batch.answers, hm]
  exact Batcher.answers_fst hn

lemma Answered.fst (h : Answered makeBatch unBatch bs resolved) :
    resolved.map Prod.fst = (bs.map Batch.replies).flatten := by
  rw [h.2, map_flatMap, ← flatMap_def]
  exact flatMap_congr fun b hb => (h.1 b hb).answers_fst

lemma Answered.concat (h : Answered makeBatch unBatch bs resolved)
    (hb : b.Forwarded makeBatch unBatch) :
    Answered makeBatch unBatch (bs ++ [b]) (resolved ++ b.answers makeBatch unBatch) := by
  refine ⟨?_, ?_⟩
  · exact forall_mem_append.mpr ⟨h.1, forall_mem_singleton.mpr hb⟩
  · rw [h.2, flatMap_append, flatMap_singleton]

section
variable {c : Phase Q R E} (h : c.Tidy makeBatch unBatch bs resolved)
include h

lemma Phase.Tidy.split : ∃ bs' last before done, bs = bs' ++ last ∧ last.length ≤ 1 ∧
    Answered makeBatch unBatch bs' before ∧ resolved = before ++ done ∧
    done <+: last.flatMap (Batch.answers makeBatch unBatch) ∧
    done.map Prod.fst <+: (last.map Batch.replies).flatten := by
  cases c with
  | waiting => exact ⟨bs, [], resolved, [], by simp, by simp, h, by simp, by simp, by simp⟩
  | working queries replies =>
    obtain ⟨bs', rfl, ha⟩ := h
    exact ⟨bs', [_], resolved, [], rfl, Nat.le_refl 1, ha, by simp, nil_prefix, nil_prefix⟩
  | resolving todo =>
    obtain ⟨bs', b, done, rfl, hb, -, hd, before, ha, rfl⟩ := h
    have hr := hb.answers_fst
    rw [hd, map_append] at hr
    exact ⟨bs', [b], before, done, rfl, Nat.le_refl 1, ha, rfl, ⟨todo, by simp [hd]⟩,
      ⟨todo.map Prod.fst, by simp [hr]⟩⟩
  | fatal text =>
    obtain ⟨bs', b, m, n, rfl, -, ha, -⟩ := h
    exact ⟨bs', [b], resolved, [], rfl, Nat.le_refl 1, ha, by simp, nil_prefix, nil_prefix⟩

lemma Phase.Tidy.first : resolved.map Prod.fst <+: (bs.map Batch.replies).flatten := by
  obtain ⟨bs', last, before, done, rfl, -, ha, rfl, -, hfst⟩ := h.split
  rw [map_append, map_append, flatten_append, ha.fst]
  exact (prefix_append_right_inj _).mpr hfst

lemma Phase.Tidy.mem : ∀ x ∈ resolved, ∃ b ∈ bs, x ∈ b.answers makeBatch unBatch := by
  obtain ⟨bs', last, before, done, rfl, -, ha, rfl, hdone, -⟩ := h.split
  have hpre : before ++ done <+: (bs' ++ last).flatMap (Batch.answers makeBatch unBatch) := by
    rw [flatMap_append, ← ha.2]
    exact (prefix_append_right_inj _).mpr hdone
  exact fun x hx => mem_flatMap.mp (hpre.subset hx)

end

/-! ## one step -/

lemma forwarded_concat (m : I → Except E O) (bs : List (Batch Q I O E)) (b : Batch Q I O E) :
    forwarded m (bs ++ [b]) = bs ++ [{ b with model := some m }] :=
  List.modifyLast_concat _ _ _

section step
variable (h : Tidy makeBatch unBatch s)
include h

lemma batchedForward_eq (state : Q) :
    batchedForward s state =
      { s with replies := s.replies ++ [s.arrivals.length]
               queries := s.queries ++ [state]
               arrivals := s.arrivals ++ [state] } := by
  have hs := h.same_length
  refine if_neg ?_
  simp only [length_append, length_singleton, ne_eq, not_not]
  omega

lemma Tidy.batchedForward (state : Q) : Tidy makeBatch unBatch (batchedForward s state) := by
  rw [batchedForward_eq h]
  refine ⟨?_, ?_, h.sized, ?_, h.answered⟩
  · show _ ++ (s.queries ++ [state]) = s.arrivals ++ [state]
    rw [← append_assoc, h.arrived]
  · show _ ++ (s.replies ++ [s.arrivals.length]) = range (s.arrivals ++ [state]).length
    rw [← append_assoc, h.promised, length_append, length_singleton, range_succ]
  · intro b hb i p hp
    show b.queries[i]? = (s.arrivals ++ [state])[p]?
    rw [getElem?_append_left (h.reply_lt hb (mem_of_getElem? hp))]
    exact h.own b hb i p hp

lemma Tidy.setModel (newModel : I → Except E O) : Tidy makeBatch unBatch (setModel s newModel) :=
  ⟨h.arrived, h.promised, h.sized, h.own, h.answered⟩

lemma Tidy.takeBatch (hc : s.consumer = .waiting)
    (hq : s.queries ≠ []) : Tidy makeBatch unBatch (takeBatch s) := by
  have hs := h.same_length
  have hb := s.hbatchSize
  have hpos := length_pos_iff.mpr hq
  have ha := h.answered
  rw [hc] at ha
  refine ⟨?_, ?_, ?_, ?_, ⟨s.batches, rfl, ha⟩⟩
  · show (List.map _ (s.batches ++ [_])).flatten ++ shift _ s.queries = s.arrivals
    rw [shift_eq_drop, flatten_map_concat, append_assoc, take_append_drop, h.arrived]
  · show (List.map _ (s.batches ++ [_])).flatten ++ shift _ s.replies = range s.arrivals.length
    rw [shift_eq_drop, flatten_map_concat, append_assoc, take_append_drop, h.promised]
  · refine forall_mem_append.mpr ⟨h.sized, forall_mem_singleton.mpr ?_⟩
    simp only [Batch.Sized, length_take, todoSize]
    show _ ∧ _ ≤ s.batchSize ∧ _
    omega
  · refine forall_mem_append.mpr ⟨h.own, forall_mem_singleton.mpr fun i p hp => ?_⟩
    have hi := (List.getElem?_eq_some_iff.mp hp).1
    have hi : i < todoSize s := by
      rw [length_take] at hi
      omega
    rw [getElem?_take_of_lt hi] at hp ⊢
    exact h.position hp

lemma Tidy.forwardBatch {queries : List Q} (hc : s.consumer = .working queries replies) :
    Tidy makeBatch unBatch (forwardBatch makeBatch unBatch s queries replies) := by
  have ha := h.answered
  rw [hc] at ha
  obtain ⟨bs', hbs, ha⟩ := ha
  have hz : 1 ≤ queries.length ∧ _ ∧ replies.length = queries.length :=
    h.sized ⟨queries, replies, none⟩ (by rw [hbs]; simp)
  rw [Batcher.forwardBatch]
  split
  next n hn =>
    exact ⟨h.arrived, h.promised, h.sized, h.own, bs', _, s.model, n, hbs, rfl, ha, hn, rfl⟩
  next hn =>
    have hm : forwarded s.model s.batches = bs' ++ [⟨queries, replies, some s.model⟩] := by
      rw [hbs, forwarded_concat]
    have hlast : (⟨queries, replies, none⟩ : Batch Q I O E) ∈ s.batches := by
      rw [hbs]
      simp
    have hmem : ∀ b ∈ forwarded s.model s.batches,
        ∃ c ∈ s.batches, b.queries = c.queries ∧ b.replies = c.replies := by
      intro b hb
      rw [hm] at hb
      rcases mem_append.mp hb with hb | hb
      · exact ⟨b, by rw [hbs]; exact mem_append_left _ hb, rfl, rfl⟩
      · rw [mem_singleton.mp hb]
        exact ⟨_, hlast, rfl, rfl⟩
    refine ⟨?_, ?_, ?_, ?_, ?_⟩
    · show (List.map _ (forwarded s.model s.batches)).flatten ++ s.queries = s.arrivals
      rw [← h.arrived, hm, hbs, flatten_map_concat, flatten_map_concat]
    · show (List.map _ (forwarded s.model s.batches)).flatten ++ s.replies = _
      rw [← h.promised, hm, hbs, flatten_map_concat, flatten_map_concat]
    · intro b hb
      obtain ⟨c, hc, hq, hr⟩ := hmem b hb
      rw [Batch.Sized, hq, hr]
      exact h.sized c hc
    · intro b hb
      obtain ⟨c, hc, hq, hr⟩ := hmem b hb
      rw [Batch.Own, hq, hr]
      exact h.own c hc
    · refine ⟨bs', ⟨queries, replies, some s.model⟩, [], hm, ⟨s.model, rfl, hn⟩, ?_, rfl,
        s.resolved, ha, (append_nil _).symm⟩
      intro he
      have hf := answers_fst hn
      rw [he] at hf
      rw [← hz.2.2, ← hf] at hz
      exact absurd hz.1 (by simp)

lemma Tidy.fresh (hc : s.consumer = .resolving ((p, o) :: todo)) :
    p ∉ s.resolved.map Prod.fst := by
  have ha := h.answered
  rw [hc] at ha
  obtain ⟨bs', b, done, hbs, hb, -, hd, before, ha, hr⟩ := ha
  have hn : ((s.batches.map Batch.replies).flatten ++ s.replies).Nodup := by
    rw [h.promised]
    exact nodup_range
  have hf := hb.answers_fst
  rw [hd, map_append, map_cons] at hf
  rw [hbs, flatten_map_concat, ← hf, ← append_assoc, ← ha.fst, ← map_append, ← hr] at hn
  have hn := (nodup_append.mp (nodup_append.mp hn).1).2.2
  intro hp
  exact hn p hp p (mem_cons_self ..) rfl

lemma resolve_eq (hc : s.consumer = .resolving ((p, o) :: todo)) :
    resolve s ((p, o) :: todo) =
      { s with resolved := s.resolved ++ [(p, o)]
               consumer := if todo.isEmpty then .waiting else .resolving todo } :=
  if_neg (h.fresh hc)

lemma Tidy.resolve (hc : s.consumer = .resolving todo) :
    Tidy makeBatch unBatch (resolve s todo) := by
  have ha := h.answered
  rw [hc] at ha
  obtain ⟨bs', b, done, hbs, hb, ht, hd, before, ha, hr⟩ := ha
  cases todo with
  | nil => exact absurd rfl ht
  | cons x todo =>
    obtain ⟨p, o⟩ := x
    rw [resolve_eq h hc]
    refine ⟨h.arrived, h.promised, h.sized, h.own, ?_⟩
    cases todo with
    | nil =>
      show Answered makeBatch unBatch s.batches (s.resolved ++ [(p, o)])
      rw [hbs, hr, append_assoc, ← hd]
      exact ha.concat hb
    | cons y todo =>
      refine ⟨bs', b, done ++ [(p, o)], hbs, hb, by simp, ?_, before, ha, ?_⟩
      · rw [hd, append_assoc]
        rfl
      · show s.resolved ++ [(p, o)] = _
        rw [hr, append_assoc]

lemma Tidy.step (op : BatcherOp Q I O E) (ho : (batcherSys makeBatch unBatch).ok s op) :
    Tidy makeBatch unBatch ((batcherSys makeBatch unBatch).run s op) := by
  cases op with
  | batchedForward state => exact h.batchedForward state
  | setModel newModel => exact h.setModel newModel
  | consume =>
    show Tidy makeBatch unBatch (consume makeBatch unBatch s)
    have hready : Ready s := ho
    rw [Ready] at hready
    rw [consume]
    split
    next hc =>
      rw [hc] at hready
      exact h.takeBatch hc hready
    next hc =>
      exact h.forwardBatch hc
    next hc =>
      exact h.resolve hc
    · exact h

end step

lemma batchSize_step (op : BatcherOp Q I O E) :
    ((batcherSys makeBatch unBatch).run s op).batchSize = s.batchSize := by
  cases op with
  | batchedForward state =>
    show (batchedForward s state).batchSize = s.batchSize
    rw [batchedForward]
    split <;> rfl
  | setModel newModel => rfl
  | consume =>
    show (consume makeBatch unBatch s).batchSize = s.batchSize
    rw [consume]
    split
    · rfl
    · rw [forwardBatch]
      split <;> rfl
    next todo _ =>
      cases todo with
      | nil => rfl
      | cons x todo =>
        rw [resolve]
        split <;> rfl
    · rfl

lemma tidy_start (batchSize : Nat) (hb : 1 ≤ batchSize) (model : I → Except E O) :
    Tidy makeBatch unBatch (AsyncBatcher.start (Q := Q) (R := R) batchSize hb model) :=
  ⟨rfl, rfl, nofun, nofun,
    nofun, rfl⟩

lemma Tidy.run (h : Tidy makeBatch unBatch s)
    (hl : (batcherSys makeBatch unBatch).Legal s os) :
    Tidy makeBatch unBatch ((batcherSys makeBatch unBatch).out s os) :=
  (batcherSys makeBatch unBatch).invariant (Tidy makeBatch unBatch)
    (fun _ op hs ho => hs.step op ho) s h os hl

/-! ## progress -/

def work (s : AsyncBatcher Q I O R E) : Nat :=
  s.batches.length + s.batches.countP (fun b => b.model.isSome) + s.resolved.length

/-- the part of a step that is the consumer's -/
def BatcherOp.share : BatcherOp Q I O E → Nat
  | .consume => 1
  | _ => 0

lemma consumes_cons (op : BatcherOp Q I O E) (os : List (BatcherOp Q I O E)) :
    consumes (op :: os) = op.share + consumes os := by
  cases op <;> simp [consumes, BatcherOp.share, Nat.add_comm]

lemma work_consume (h : Tidy makeBatch unBatch s)
    (ha : (consume makeBatch unBatch s).consumer.Alive) :
    work (consume makeBatch unBatch s) = work s + 1 := by
  have ht := h.answered
  rw [consume] at ha ⊢
  split
  · simp only [work, takeBatch, length_append, length_singleton, countP_append]
    simp only [countP_singleton, Option.isSome_none, Bool.false_eq_true, if_false]
    omega
  next queries replies hc =>
    rw [hc] at ht ha
    obtain ⟨bs', hbs, -⟩ := ht
    simp only [forwardBatch] at ha ⊢
    split
    next n hn =>
      rw [hn] at ha
      exact absurd ha id
    · simp only [work, hbs, forwarded_concat, length_append, length_singleton,
        countP_append, countP_singleton, Option.isSome_none, Option.isSome_some,
        Bool.false_eq_true, if_false, if_true]
      omega
  next todo hc =>
    rw [hc] at ht
    obtain ⟨_, _, _, _, _, hne, _⟩ := ht
    cases todo with
    | nil => exact absurd rfl hne
    | cons x todo =>
      rw [resolve_eq h hc]
      simp only [work, length_append, length_singleton]
      omega
  next text hc =>
    rw [hc] at ha
    simp only [hc] at ha
    exact absurd ha id

lemma work_step (h : Tidy makeBatch unBatch s) (op : BatcherOp Q I O E)
    (ha : ((batcherSys makeBatch unBatch).run s op).consumer.Alive) :
    work ((batcherSys makeBatch unBatch).run s op) = work s + op.share := by
  cases op with
  | batchedForward state =>
    show work (batchedForward s state) = work s + 0
    rw [batchedForward_eq h]
    rfl
  | setModel newModel => rfl
  | consume => exact work_consume h ha

lemma alive_of_legal (hl : (batcherSys makeBatch unBatch).Legal s os)
    (ha : ((batcherSys makeBatch unBatch).out s os).consumer.Alive) : s.consumer.Alive := by
  cases os with
  | nil => exact ha
  | cons op os =>
    cases op with
    | batchedForward | setModel => exact hl.1
    | consume =>
      have hready : Ready s := hl.1
      rw [Ready] at hready
      cases hc : s.consumer with
      | fatal text =>
        rw [hc] at hready
        exact hready
      | _ => trivial

lemma work_run (h : Tidy makeBatch unBatch s) (hl : (batcherSys makeBatch unBatch).Legal s os)
    (ha : ((batcherSys makeBatch unBatch).out s os).consumer.Alive) :
    work ((batcherSys makeBatch unBatch).out s os) = work s + consumes os := by
  induction os generalizing s with
  | nil => rfl
  | cons op os ih =>
    rw [Sys.out_cons, ih (h.step op hl.1) hl.2 ha, work_step h op (alive_of_legal hl.2 ha),
      consumes_cons, Nat.add_assoc]

lemma Answered.length_le (h : Answered makeBatch unBatch bs resolved) {batchSize : Nat}
    (hs : ∀ b ∈ bs, b.Sized batchSize) : bs.length ≤ resolved.length := by
  have hr := congrArg List.length h.fst
  rw [length_map, length_flatten, map_map] at hr
  have hle := length_le_sum_of_one_le (bs.map (List.length ∘ Batch.replies)) (by
    intro n hn
    obtain ⟨b, hb, rfl⟩ := mem_map.mp hn
    have hz := hs b hb
    show 1 ≤ b.replies.length
    rw [hz.2.2]
    exact hz.1)
  rw [length_map] at hle
  omega

section
variable (h : Tidy makeBatch unBatch s)
include h

lemma Tidy.batches_le : s.batches.length ≤ s.resolved.length + 1 := by
  obtain ⟨bs', last, before, done, hbs, hlast, ha, hr, -⟩ := h.answered.split
  have hle := ha.length_le fun c hc => h.sized c (hbs ▸ mem_append_left last hc)
  rw [hbs, hr, length_append, length_append]
  omega

lemma Tidy.work_le : work s ≤ 3 * s.resolved.length + 2 := by
  have hb := h.batches_le
  have hc : s.batches.countP (fun b => b.model.isSome) ≤ s.batches.length := countP_le_length
  rw [work]
  omega

lemma Tidy.resolved_fst : s.resolved.map Prod.fst = List.range s.resolved.length := by
  have hpre : s.resolved.map Prod.fst <+: range s.arrivals.length := by
    rw [← h.promised]
    exact h.answered.first.trans (prefix_append _ _)
  have hle := hpre.length_le
  rw [length_map, length_range] at hle
  rw [prefix_iff_eq_take.mp hpre, length_map, take_range, Nat.min_eq_left hle]

lemma Tidy.ready
    (ha : s.consumer.Alive) (hp : p < s.arrivals.length) (hn : p ∉ s.resolved.map Prod.fst) :
    Ready s := by
  have ht := h.answered
  rw [Ready]
  cases hc : s.consumer with
  | waiting =>
    rw [hc] at ht
    intro hq
    have hr := length_eq_zero_iff.mp (h.same_length ▸ length_eq_zero_iff.mpr hq)
    have hpr := h.promised
    rw [hr, append_nil, ← Answered.fst ht] at hpr
    exact hn (hpr ▸ mem_range.mpr hp)
  | fatal text =>
    rw [hc] at ha
    exact ha
  | _ => trivial

end

/-! ## the main result -/

/-- **Every query is taken into one batch, in the order of arrival, and its promise is resolved
once**, with the reply at its own position of the batch or with the exception of the forward. -/
theorem answered_once (batchSize : Nat) (hb : 1 ≤ batchSize) (model : I → Except E O)
    (os : List (BatcherOp Q I O E))
    (hl : (batcherSys makeBatch unBatch).Legal (.start batchSize hb model) os) :
    let s := (batcherSys makeBatch unBatch).out (.start batchSize hb model) os
    s.queries.length = s.replies.length
    ∧ (∀ i p : Nat, s.replies[i]? = some p → s.queries[i]? = s.arrivals[p]?)
    ∧ (s.batches.map Batch.queries).flatten ++ s.queries = s.arrivals
    ∧ (s.batches.map Batch.replies).flatten ++ s.replies = List.range s.arrivals.length
    ∧ (∀ b ∈ s.batches, 1 ≤ b.queries.length ∧ b.queries.length ≤ batchSize
        ∧ b.replies.length = b.queries.length
        ∧ ∀ i p : Nat, b.replies[i]? = some p → b.queries[i]? = s.arrivals[p]?)
    ∧ (s.resolved.map Prod.fst).Nodup
    ∧ (∀ p o, (p, o) ∈ s.resolved → ∃ b ∈ s.batches, ∃ m, ∃ i : Nat, b.model = some m
        ∧ b.replies[i]? = some p ∧ outcomeAt i (forward makeBatch unBatch m b.queries) = some o)
    ∧ (s.consumer.Alive → ∀ p < s.arrivals.length,
        (p ∉ s.resolved.map Prod.fst → Ready s)
        ∧ (3 * p + 3 ≤ consumes os → p ∈ s.resolved.map Prod.fst))
    ∧ (∀ text, s.consumer = .fatal text → ∃ b ∈ s.batches, ∃ m n,
        mismatch b.replies (forward makeBatch unBatch m b.queries) = some n
        ∧ text = replyMismatch n b.replies.length) := by
  intro s
  have h : Tidy makeBatch unBatch s := (tidy_start batchSize hb model).run hl
  have hsize : s.batchSize = batchSize := by
    refine (batcherSys makeBatch unBatch).invariant (fun t => t.batchSize = batchSize) ?_ _ rfl os hl
    intro t op ht _
    rw [batchSize_step, ht]
  have hfst := h.resolved_fst
  refine ⟨h.same_length, fun i p hp => h.position hp, h.arrived, h.promised,
    fun b hmem => ?_, hfst ▸ nodup_range, ?_, ?_, ?_⟩
  · have hz := h.sized b hmem
    rw [Batch.Sized, hsize] at hz
    exact ⟨hz.1, hz.2.1, hz.2.2, h.own b hmem⟩
  · intro p o hpo
    obtain ⟨b, hmem, hans⟩ := h.answered.mem _ hpo
    rw [Batch.answers] at hans
    split at hans
    · nomatch hans
    next m hm =>
      obtain ⟨i, hi, ho⟩ := mem_answers hans
      exact ⟨b, hmem, m, i, hm, hi, ho⟩
  · intro ha p hp
    refine ⟨h.ready ha hp, fun hc => ?_⟩
    have hw := work_run (tidy_start batchSize hb model) hl ha
    have hle := h.work_le
    rw [hfst, mem_range]
    change work s = 0 + consumes os at hw
    omega
  · intro text hc
    have ht := h.answered
    rw [hc] at ht
    obtain ⟨bs', b, m, n, hbs, -, -, hn, htext⟩ := ht
    exact ⟨b, by rw [hbs]; simp, m, n, hn, htext⟩

theorem answered_once_doubling :
    ∃ os : List (BatcherOp Nat (List Nat) (List Nat) Unit),
      let s := (batcherSys (R := Nat) Except.ok Except.ok).out
        (.start 2 (by decide) fun input => .ok (input.map (2 * ·))) os
      s.resolved = [(0, .value 6), (1, .value 10)] ∧ (s.resolved.map Prod.fst).Nodup := by
  refine ⟨[.batchedForward 3, .consume, .batchedForward 5, .consume, .consume, .consume, .consume,
    .consume], rfl, ?_⟩
  refine (answered_once 2 (by decide) _ _ ?_).2.2.2.2.2.1
  simp only [Sys.legal_cons, Sys.legal_nil, and_true]
  refine ⟨trivial, ?_, trivial, trivial, trivial, ?_, trivial, trivial⟩
  · exact cons_ne_nil _ _
  · exact cons_ne_nil _ _

end TorchCraft.Batcher
