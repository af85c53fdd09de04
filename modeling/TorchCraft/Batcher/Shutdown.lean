import TorchCraft.Batcher.Answers

/-!
# `startBatching` and `stopBatching`

The consume thread of an `AsyncBatcher` can be stopped and started again.  A producer tests
`consumeThreadStarted_` first and takes the lock later, so it may enqueue long after its test, and
the consume thread tests `shouldStop_` before it looks at the queue.

* `Service`  the batcher with its flags, its thread and the producers past their test;
* `startBatching`, `stopBatching`  as far as they change the state; `join` is the return.
-/

namespace TorchCraft.Batcher
open TorchCraft.Lib
open List

/-- `consumeThread_`: `gone` is not joinable, `exited` has returned and is not joined yet -/
inductive ConsumeThread
  | gone
  | running
  | exited
deriving DecidableEq, Repr

structure Service (Q I O R E : Type*) where
  batcher : AsyncBatcher Q I O R E
  consumeThreadStarted : Bool
  shouldStop : Bool
  consumeThread : ConsumeThread
  -- a call of `stopBatching` is in `join`
  stopping : Bool
  -- the queries of the producers that passed their test and have not taken the lock
  entering : List Q

variable {Q I O R E : Type*}

def Service.start (batchSize : Nat) (h : 1 ≤ batchSize) (model : I → Except E O) :
    Service Q I O R E where
  batcher := .start batchSize h model
  consumeThreadStarted := true
  shouldStop := false
  consumeThread := .running
  stopping := false
  entering := []

/-! ## the calls -/

variable (s : Service Q I O R E)

def enter (state : Q) : Except String (Service Q I O R E) :=
  if s.consumeThreadStarted then .ok { s with entering := s.entering ++ [state] }
  else .error
    "Can't batch forwards if the consume thread is not started. Call startBatching() first"

/-- the critical section of the `i`-th producer that waits for the lock -/
def enqueue (i : Nat) : Service Q I O R E :=
  match s.entering[i]? with
  | none => s
  | some state =>
    { s with batcher := batchedForward s.batcher state, entering := s.entering.eraseIdx i }

def restarted (b : AsyncBatcher Q I O R E) (batchSize : Nat) (h : 1 ≤ batchSize) :
    AsyncBatcher Q I O R E :=
  { AsyncBatcher.start batchSize h b.model with
    queries := b.queries
    replies := List.range b.queries.length
    arrivals := b.queries }

def startBatching (batchSize : Nat) : Except String (Service Q I O R E) :=
  if s.consumeThreadStarted then .error "Consumer thread already started"
  else if h : 1 ≤ batchSize then
    .ok { s with
      batcher := restarted s.batcher batchSize h
      consumeThreadStarted := true
      shouldStop := false
      consumeThread := .running }
  else .error "Batchsize must be at least 1"

/-- `stopBatching` up to its `join`; a thread that is not joinable is left alone -/
def stopBatching : Service Q I O R E :=
  if s.consumeThread = .gone then s else { s with shouldStop := true, stopping := true }

def joined : Service Q I O R E :=
  { s with consumeThread := .gone, consumeThreadStarted := false, stopping := false }

/-! ## interleavings -/

inductive ServiceOp (Q I O E : Type*)
  | enter (state : Q)
  | enqueue (i : Nat)
  | setModel (newModel : I → Except E O)
  | consume
  -- the consume thread sees `shouldStop_` and returns
  | exit
  | startBatching (batchSize : Nat)
  | stopBatching
  | join

variable (makeBatch : List Q → Except E I) (unBatch : O → Except E (List R))

/-- one thread starts and stops the batcher, any number of others are producers -/
def serviceSys : Sys (Service Q I O R E) (ServiceOp Q I O E) where
  run s
    | .enter state => (enter s state).toOption.getD s
    | .enqueue i => enqueue s i
    | .setModel newModel => { s with batcher := setModel s.batcher newModel }
    | .consume => { s with batcher := consume makeBatch unBatch s.batcher }
    | .exit => { s with consumeThread := .exited }
    | .startBatching batchSize => (startBatching s batchSize).toOption.getD s
    | .stopBatching => stopBatching s
    | .join => joined s
  ok s op := s.batcher.consumer.Alive ∧
    match op with
    | .enter _ => True
    | .enqueue i => i < s.entering.length
    | .setModel _ => True
    -- `wait` returns on a stop or a query, and the test of `shouldStop_` behind it comes first
    | .consume => s.consumeThread = .running ∧ Ready s.batcher ∧
        (s.batcher.consumer = .waiting → s.shouldStop = false)
    | .exit => s.consumeThread = .running ∧ s.batcher.consumer = .waiting ∧ s.shouldStop = true
    | .startBatching _ => s.stopping = false
    | .stopBatching => s.stopping = false
    | .join => s.stopping = true ∧ s.consumeThread = .exited

/-! ## the invariant -/

/-- the batcher is tidy, and a consume thread that does not run has no batch at hand -/
structure Sound (s : Service Q I O R E) : Prop where
  tidy : Tidy makeBatch unBatch s.batcher
  idle : s.consumeThread ≠ .running → s.batcher.consumer = .waiting

variable {makeBatch unBatch} {b : AsyncBatcher Q I O R E} {s : Service Q I O R E}

lemma Tidy.restarted (batchSize : Nat) (h : 1 ≤ batchSize) :
    Tidy makeBatch unBatch (restarted b batchSize h) :=
  ⟨rfl, rfl, nofun, nofun,
    nofun, rfl⟩

lemma sound_start (batchSize : Nat) (hb : 1 ≤ batchSize) (model : I → Except E O) :
    Sound makeBatch unBatch (Service.start (Q := Q) (R := R) batchSize hb model) :=
  ⟨tidy_start batchSize hb model, fun h => absurd rfl h⟩

lemma enter_eq (s : Service Q I O R E) (state : Q) :
    ∃ qs, (enter s state).toOption.getD s = { s with entering := qs } := by
  rw [enter]
  split
  · exact ⟨_, rfl⟩
  · exact ⟨s.entering, rfl⟩

lemma startBatching_eq (s : Service Q I O R E) (batchSize : Nat) :
    (startBatching s batchSize).toOption.getD s = s ∨
      ∃ h, (startBatching s batchSize).toOption.getD s =
        { s with batcher := restarted s.batcher batchSize h, consumeThreadStarted := true,
                 shouldStop := false, consumeThread := .running } := by
  rw [startBatching]
  split
  · exact .inl rfl
  · split
    next h => exact .inr ⟨h, rfl⟩
    · exact .inl rfl

lemma enqueue_eq {i : Nat} (hi : i < s.entering.length) :
    enqueue s i = { s with batcher := batchedForward s.batcher s.entering[i],
                           entering := s.entering.eraseIdx i } := by
  rw [enqueue, getElem?_eq_getElem hi]

lemma Sound.step (h : Sound makeBatch unBatch s) (op : ServiceOp Q I O E)
    (ho : (serviceSys makeBatch unBatch).ok s op) :
    Sound makeBatch unBatch ((serviceSys makeBatch unBatch).run s op) := by
  obtain ⟨ha, ho⟩ := ho
  cases op with
  | enter state =>
    obtain ⟨qs, hqs⟩ := enter_eq s state
    show Sound makeBatch unBatch ((enter s state).toOption.getD s)
    rw [hqs]
    exact ⟨h.tidy, h.idle⟩
  | enqueue i =>
    show Sound makeBatch unBatch (enqueue s i)
    rw [enqueue_eq ho]
    refine ⟨h.tidy.batchedForward _, fun hr => ?_⟩
    show (batchedForward s.batcher _).consumer = .waiting
    rw [batchedForward_eq h.tidy]
    exact h.idle hr
  | setModel newModel => exact ⟨h.tidy.setModel newModel, h.idle⟩
  | consume => exact ⟨h.tidy.step .consume ho.2.1, fun hr => absurd ho.1 hr⟩
  | exit => exact ⟨h.tidy, fun _ => ho.2.1⟩
  | startBatching batchSize =>
    show Sound makeBatch unBatch ((startBatching s batchSize).toOption.getD s)
    rcases startBatching_eq s batchSize with he | ⟨hb, he⟩
    · rw [he]
      exact h
    · rw [he]
      exact ⟨.restarted batchSize hb, fun hr => absurd rfl hr⟩
  | stopBatching =>
    show Sound makeBatch unBatch (stopBatching s)
    rw [stopBatching]
    split
    · exact h
    · exact ⟨h.tidy, h.idle⟩
  | join => exact ⟨h.tidy, fun _ => h.idle (by rw [ho.2]; decide)⟩

lemma Sound.run {s : Service Q I O R E} (h : Sound makeBatch unBatch s)
    {os : List (ServiceOp Q I O E)} (hl : (serviceSys makeBatch unBatch).Legal s os) :
    Sound makeBatch unBatch ((serviceSys makeBatch unBatch).out s os) :=
  (serviceSys makeBatch unBatch).invariant (Sound makeBatch unBatch)
    (fun _ op hs ho => hs.step op ho) s h os hl

/-! ## what a stopped batcher leaves behind -/

def Settled (b : AsyncBatcher Q I O R E) : Prop :=
  (∀ p < b.arrivals.length, p ∈ b.resolved.map Prod.fst) ∧ b.queries = [] ∧ b.replies = []

lemma Tidy.settled_iff (h : Tidy makeBatch unBatch b) (hw : b.consumer = .waiting) :
    Settled b ↔ b.queries = [] := by
  refine ⟨fun hs => hs.2.1, fun hq => ?_⟩
  have hr : b.replies = [] := by
    rw [← length_eq_zero_iff, ← h.same_length, hq]
    rfl
  have ha := h.answered
  rw [hw] at ha
  refine ⟨fun p hp => ?_, hq, hr⟩
  have hp' := h.promised
  rw [hr, append_nil] at hp'
  rw [Answered.fst ha, hp']
  exact mem_range.mpr hp

section exit
variable {s : Service Q I O R E}

lemma running_of_run (hrun : s.consumeThread = .running) {op : ServiceOp Q I O E}
    (ho : (serviceSys makeBatch unBatch).ok s op) (hne : op ≠ .exit) :
    ((serviceSys makeBatch unBatch).run s op).consumeThread = .running := by
  cases op with
  | enter state =>
    obtain ⟨qs, hqs⟩ := enter_eq s state
    exact (congrArg Service.consumeThread hqs).trans hrun
  | enqueue i => exact (congrArg Service.consumeThread (enqueue_eq ho.2)).trans hrun
  | setModel | consume => exact hrun
  | exit => exact absurd rfl hne
  | startBatching batchSize =>
    rcases startBatching_eq s batchSize with he | ⟨hb, he⟩
    · exact (congrArg Service.consumeThread he).trans hrun
    · exact congrArg Service.consumeThread he
  | stopBatching =>
    show (stopBatching s).consumeThread = .running
    rw [stopBatching]
    split <;> exact hrun
  | join => exact absurd (ho.2.2.symm.trans hrun) (by decide)

lemma queries_of_run (h : Sound makeBatch unBatch s) (hrun : s.consumeThread ≠ .running)
    {op : ServiceOp Q I O E} (ho : (serviceSys makeBatch unBatch).ok s op)
    (ht : ((serviceSys makeBatch unBatch).run s op).consumeThread ≠ .running) :
    op ≠ .exit ∧ (((serviceSys makeBatch unBatch).run s op).batcher.queries = [] ↔
      s.batcher.queries = [] ∧ ∀ i, op ≠ .enqueue i) := by
  cases op with
  | enter state =>
    obtain ⟨qs, hqs⟩ := enter_eq s state
    refine ⟨by simp, ?_⟩
    show ((enter s state).toOption.getD s).batcher.queries = [] ↔ _
    rw [hqs]
    simp
  | enqueue i =>
    refine ⟨by simp, ?_⟩
    show (enqueue s i).batcher.queries = [] ↔ _
    rw [enqueue_eq ho.2]
    show (batchedForward s.batcher _).queries = [] ↔ _
    rw [batchedForward_eq h.tidy]
    simp
  | setModel newModel => exact ⟨by simp, ⟨fun hq => ⟨hq, by simp⟩, fun hq => hq.1⟩⟩
  | consume | exit => exact absurd ho.2.1 hrun
  | startBatching batchSize =>
    refine ⟨by simp, ?_⟩
    show ((startBatching s batchSize).toOption.getD s).batcher.queries = [] ↔ _
    rcases startBatching_eq s batchSize with he | ⟨hb, he⟩
    · rw [he]
      simp
    · refine absurd ?_ ht
      show ((startBatching s batchSize).toOption.getD s).consumeThread = .running
      rw [he]
  | stopBatching =>
    refine ⟨by simp, ?_⟩
    show (stopBatching s).batcher.queries = [] ↔ _
    rw [stopBatching]
    split <;> simp
  | join => exact ⟨by simp, ⟨fun hq => ⟨hq, by simp⟩, fun hq => hq.1⟩⟩

/-- a run that ends without a consume thread has a last exit, and behind it the queue stays as the
exit found it up to the `enqueue`s -/
lemma since_exit (hs : Sound makeBatch unBatch s) (hrun : s.consumeThread = .running)
    (os : List (ServiceOp Q I O E)) (hl : (serviceSys makeBatch unBatch).Legal s os)
    (ht : ((serviceSys makeBatch unBatch).out s os).consumeThread ≠ .running) :
    ∃ os₁ os₂, os = os₁ ++ .exit :: os₂ ∧ .exit ∉ os₂ ∧
      (((serviceSys makeBatch unBatch).out s os).batcher.queries = [] ↔
        ((serviceSys makeBatch unBatch).out s os₁).batcher.queries = [] ∧
          ∀ i, .enqueue i ∉ os₂) := by
  induction os using reverseRecOn with
  | nil => exact absurd hrun ht
  | append_singleton os op ih =>
    obtain ⟨hl, ho, -⟩ := (Sys.legal_append _ s os [op]).mp hl
    rw [Sys.out_append] at ht ⊢
    by_cases hr : ((serviceSys makeBatch unBatch).out s os).consumeThread = .running
    · obtain rfl : op = .exit := by_contra (ht ∘ running_of_run hr ho)
      refine ⟨os, [], rfl, not_mem_nil, ?_⟩
      show ((serviceSys makeBatch unBatch).out s os).batcher.queries = [] ↔ _
      simp
    · obtain ⟨os₁, os₂, rfl, hx, hq⟩ := ih hl hr
      obtain ⟨hne, hq'⟩ := queries_of_run (hs.run hl) hr ho ht
      refine ⟨os₁, os₂ ++ [op], by simp, by simp [hx, Ne.symm hne], ?_⟩
      show ((serviceSys makeBatch unBatch).run _ op).batcher.queries = [] ↔ _
      rw [hq', hq, and_assoc]
      simp only [mem_append, mem_singleton, not_or, forall_and, ne_comm, ne_eq]

end exit

/-- **When a stopped batcher has answered everybody**: exactly if the queue was empty when the
consume thread saw `shouldStop_` for the last time and no producer has enqueued since. -/
theorem stopped_settled_iff (batchSize : Nat) (hb : 1 ≤ batchSize) (model : I → Except E O)
    (os : List (ServiceOp Q I O E))
    (hl : (serviceSys (R := R) makeBatch unBatch).Legal (.start batchSize hb model) os)
    (hstop : ((serviceSys (R := R) makeBatch unBatch).out (.start batchSize hb model)
      os).consumeThread = .gone) :
    ∃ os₁ os₂, os = os₁ ++ .exit :: os₂ ∧ .exit ∉ os₂ ∧
      (Settled ((serviceSys (R := R) makeBatch unBatch).out (.start batchSize hb model) os).batcher ↔
        ((serviceSys (R := R) makeBatch unBatch).out (.start batchSize hb model)
          os₁).batcher.queries = [] ∧ ∀ i, .enqueue i ∉ os₂) := by
  have hs : Sound makeBatch unBatch (Service.start (Q := Q) (R := R) batchSize hb model) :=
    sound_start batchSize hb model
  have hr : ((serviceSys (R := R) makeBatch unBatch).out (.start batchSize hb model)
      os).consumeThread ≠ .running := by
    rw [hstop]
    decide
  obtain ⟨os₁, os₂, he, hx, hq⟩ := since_exit hs rfl os hl hr
  refine ⟨os₁, os₂, he, hx, ?_⟩
  rw [(hs.run hl).tidy.settled_iff ((hs.run hl).idle hr), hq]

def servedRun : List (ServiceOp Nat (List Nat) (List Nat) Unit) :=
  [.enter 3, .enqueue 0, .consume, .consume, .consume, .stopBatching, .exit, .join]

theorem stopped_settled_iff_served :
    ∃ os₁ os₂, servedRun = os₁ ++ .exit :: os₂ ∧ .exit ∉ os₂ ∧
      (Settled ((serviceSys (R := Nat) Except.ok Except.ok).out (.start 1 (by decide) Except.ok)
          servedRun).batcher ↔
        ((serviceSys (R := Nat) Except.ok Except.ok).out (.start 1 (by decide) Except.ok)
          os₁).batcher.queries = [] ∧ ∀ i, .enqueue i ∉ os₂) := by
  refine stopped_settled_iff 1 (by decide) Except.ok servedRun ?_ rfl
  refine ⟨⟨trivial, trivial⟩, ⟨trivial, ?_⟩, ⟨trivial, rfl, ?_, fun _ => rfl⟩,
    ⟨trivial, rfl, trivial, fun _ => rfl⟩, ⟨trivial, rfl, trivial, fun _ => rfl⟩, ⟨trivial, rfl⟩,
    ⟨trivial, rfl, rfl, rfl⟩, ⟨trivial, rfl, rfl⟩, trivial⟩
  · decide
  · show [3] ≠ []
    decide

def lostRun : List (ServiceOp Nat (List Nat) (List Nat) Unit) :=
  [.enter 3, .enqueue 0, .stopBatching, .exit, .join]

/-- the producer waits on a promise that nobody resolves, until the next consume thread serves it -/
theorem lost_query :
    let Y := serviceSys (Q := Nat) (I := List Nat) (O := List Nat) (R := Nat) (E := Unit) .ok .ok
    let s := Y.out (.start 1 (by decide) .ok) lostRun
    Y.Legal (.start 1 (by decide) .ok) lostRun ∧ s.consumeThread = .gone ∧
      s.batcher.arrivals = [3] ∧ s.batcher.resolved = [] ∧ s.batcher.queries = [3] ∧
      s.batcher.replies = [0] ∧ ¬ Settled s.batcher ∧
      (Y.out s [.startBatching 1, .consume]).batcher.batches.map Batch.queries = [[3]] := by
  refine ⟨?_, rfl, rfl, rfl, rfl, rfl, fun h => ?_, rfl⟩
  · refine ⟨⟨trivial, trivial⟩, ⟨trivial, ?_⟩, ⟨trivial, rfl⟩, ⟨trivial, rfl, rfl, rfl⟩,
      ⟨trivial, rfl, rfl⟩, trivial⟩
    show 0 < 1
    decide
  · exact absurd h.2.1 (by show [3] ≠ []; decide)

end TorchCraft.Batcher
