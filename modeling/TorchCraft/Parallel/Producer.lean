import Mathlib.Data.Int.Order.Basic
import TorchCraft.Lib.Pool
import TorchCraft.Lib.Sys

/-!
# `common::BufferedProducer`

Several threads call one generator and queue what it hands out; `get` takes it from the queue.  The
constructor starts the threads first and stores `running_` afterwards, so every step of a thread may
also come before that store.

* `Counted`  the invariant of every reachable producer.

A critical section under `mutex_` is one step, and so is a call of the generator, which is made
outside of it.  A thread that has not been started yet is one that has not moved.
-/

namespace TorchCraft.Parallel
open TorchCraft.Lib Pool
open List

namespace Producer

inductive Worker (T : Type*)
  -- in front of the critical section that waits for space
  | waiting
  -- in `fn()`
  | generating
  -- `fn()` has returned and the lock is not taken again
  | holding (result : Option T)
  | exited
deriving DecidableEq, Repr

def Worker.busy {T : Type*} : Worker T → Bool
  | .generating => true
  | .holding _ => true
  | _ => false

def Worker.held {T : Type*} : Worker T → Option T
  | .holding result => result
  | _ => none

def Worker.isExited {T : Type*} : Worker T → Bool
  | .exited => true
  | _ => false

end Producer
open Producer

/-- `source` is what the generator will hand out; `produced` and `returned` are the history -/
structure Producer (T : Type*) where
  maxQueueSize : Nat
  nThreads : Nat
  stop : Bool
  working : Int
  running : Int
  threads : List (Worker T)
  queue : List T
  constructed : Bool
  source : List T
  produced : List T
  returned : List T

namespace Producer
variable {T : Type*}

/-- the producer in front of the store of `running_`, which holds whatever was there -/
def started (nThreads maxQueueSize : Nat) (uninitialised : Int) (values : List T) : Producer T where
  maxQueueSize := maxQueueSize
  nThreads := nThreads
  stop := false
  working := 0
  running := uninitialised
  threads := List.replicate nThreads .waiting
  queue := []
  constructed := false
  source := values
  produced := []
  returned := []

def construct (nThreads maxQueueSize : Nat) (uninitialised : Int) (values : List T) :
    Except String (Producer T) :=
  if nThreads = 0 then .error "Cannot use a buffered producer with no threads"
  else if maxQueueSize = 0 then .error "Cannot consturct a BufferedProducer with 0 queue size"
  else .ok (started nThreads maxQueueSize uninitialised values)

variable (s : Producer T)

def store : Producer T := { s with running := s.nThreads, constructed := true }

/-! ## the threads -/

def HasSpace : Prop := (s.queue.length : Int) + s.working < s.maxQueueSize

instance (s : Producer T) : Decidable (HasSpace s) := inferInstanceAs (Decidable (_ < _))

def acquire (i : Nat) : Producer T :=
  if s.stop then { s with threads := s.threads.set i .exited }
  else { s with working := s.working + 1, threads := s.threads.set i .generating }

def generate (i : Nat) : Producer T :=
  { s with source := s.source.tail
           produced := s.produced ++ s.source.head?.toList
           threads := s.threads.set i (.holding s.source.head?) }

def deliver (i : Nat) : Producer T :=
  match s.threads[i]? with
  | some (.holding none) =>
    { s with working := s.working - 1
             running := s.running - 1
             threads := s.threads.set i .exited }
  | some (.holding (some value)) =>
    { s with working := s.working - 1
             queue := s.queue ++ [value]
             threads := s.threads.set i .waiting }
  | _ => s

/-! ## the consumer -/

def CanGet : Prop := s.stop = true ∨ s.queue ≠ [] ∨ s.running = 0

def get : Except String (Option T) × Producer T :=
  if s.stop then (.error "BufferedProducer not active", s)
  else if s.running = 0 ∧ s.queue = [] then (.ok none, s)
  else match s.queue with
    | [] => (.ok none, s)
    | value :: queue =>
      (.ok (some value), { s with queue := queue, returned := s.returned ++ [value] })

/-! ## interleavings -/

inductive ProducerOp
  | store
  | acquire (i : Nat)
  | generate (i : Nat)
  | deliver (i : Nat)
  | get
  -- the destructor sets `stop_`
  | destroy
deriving DecidableEq, Repr

/-- the consumer uses the object when its constructor has returned -/
def producerSys : Sys (Producer T) ProducerOp where
  run s
    | .store => store s
    | .acquire i => acquire s i
    | .generate i => generate s i
    | .deliver i => deliver s i
    | .get => (get s).2
    | .destroy => { s with stop := true }
  ok s
    | .store => s.constructed = false
    | .acquire i => s.threads[i]? = some .waiting ∧ (s.stop = true ∨ HasSpace s)
    | .generate i => s.threads[i]? = some .generating
    | .deliver i => ∃ result, s.threads[i]? = some (.holding result)
    | .get => s.constructed = true ∧ CanGet s
    | .destroy => s.constructed = true

/-! ## the invariant -/

def inFlight : List T := s.threads.filterMap Worker.held

/-- a thread has seen the end of the generator, or it has been stopped -/
def Worker.Ended : Worker T → Prop
  | .holding none => s.source = []
  | .exited => s.source = [] ∨ s.stop = true
  | _ => True

structure Counted (values : List T) (s : Producer T) : Prop where
  space : (s.queue.length : Int) + s.working ≤ s.maxQueueSize
  counts : s.working = s.threads.countP Worker.busy
  once : (s.returned ++ s.queue ++ s.inFlight).Perm s.produced
  split : s.produced ++ s.source = values
  ended : ∀ w ∈ s.threads, w.Ended s
  all : s.threads.length = s.nThreads

section step
variable {values : List T} {s : Producer T} {i : Nat}

lemma deliver_none (h : s.threads[i]? = some (.holding none)) :
    deliver s i = { s with working := s.working - 1, running := s.running - 1,
                           threads := s.threads.set i .exited } := by
  rw [deliver, h]

lemma deliver_some {value : T} (h : s.threads[i]? = some (.holding (some value))) :
    deliver s i = { s with working := s.working - 1, queue := s.queue ++ [value],
                           threads := s.threads.set i .waiting } := by
  rw [deliver, h]

lemma get_eq (s : Producer T) :
    (get s).2 = s ∨ ∃ value queue, s.queue = value :: queue ∧
      (get s).2 = { s with queue := queue, returned := s.returned ++ [value] } := by
  rw [get]
  split
  · exact .inl rfl
  · split
    · exact .inl rfl
    · split
      · exact .inl rfl
      next value queue hq => exact .inr ⟨value, queue, hq, rfl⟩

lemma Counted.acquire (h : Counted values s) (hi : s.threads[i]? = some .waiting)
    (hs : s.stop ∨ HasSpace s) : Counted values (acquire s i) := by
  rw [Producer.acquire]
  split
  next hstop =>
    have hc := countP_keep (p := Worker.busy) (b := .exited) hi rfl
    have hp := filterMap_keep (f := Worker.held) (b := .exited) hi rfl rfl
    refine ⟨h.space, ?_, (Perm.append_left _ hp).trans h.once, h.split, ?_, ?_⟩
    · show s.working = ((s.threads.set i .exited).countP Worker.busy : Int)
      rw [hc]
      exact h.counts
    · exact forall_set h.ended (.inr hstop)
    · simpa using h.all
  next hstop =>
    have hc := countP_add (p := Worker.busy) (b := .generating) hi rfl rfl
    have hp := filterMap_keep (f := Worker.held) (b := .generating) hi rfl rfl
    have hsp : HasSpace s := hs.resolve_left hstop
    refine ⟨?_, ?_, (Perm.append_left _ hp).trans h.once, h.split, ?_, ?_⟩
    · show (s.queue.length : Int) + (s.working + 1) ≤ s.maxQueueSize
      rw [HasSpace] at hsp
      omega
    · show s.working + 1 = ((s.threads.set i .generating).countP Worker.busy : Int)
      rw [hc, h.counts]
      rfl
    · exact forall_set h.ended trivial
    · simpa using h.all

lemma Worker.Ended.mono {w : Worker T} (h : w.Ended s) (s' : Producer T)
    (hs : s.source = [] → s'.source = []) (ht : s.stop → s'.stop) : w.Ended s' := by
  cases w with
  | waiting | generating => trivial
  | holding result =>
    cases result with
    | none => exact hs h
    | some value => trivial
  | exited => exact h.imp hs ht

lemma Counted.generate (h : Counted values s) (hi : s.threads[i]? = some .generating) :
    Counted values (generate s i) := by
  have hc := countP_keep (p := Worker.busy) (b := .holding s.source.head?) hi rfl
  refine ⟨h.space, ?_, ?_, ?_, ?_, ?_⟩
  · show s.working = ((s.threads.set i (.holding s.source.head?)).countP Worker.busy : Int)
    rw [hc]
    exact h.counts
  · cases hsrc : s.source with
    | nil =>
      have hp := filterMap_keep (f := Worker.held) (b := .holding none) hi rfl rfl
      simp only [Producer.generate, hsrc, inFlight, head?_nil, Option.toList_none, append_nil]
      exact (Perm.append_left _ hp).trans h.once
    | cons value source =>
      have hp := filterMap_add (f := Worker.held) (b := .holding (some value)) hi rfl rfl
      simp only [Producer.generate, hsrc, inFlight, head?_cons, Option.toList_some]
      refine (Perm.append_left _ hp).trans ?_
      refine perm_middle.trans ?_
      exact (h.once.cons value).trans (perm_append_singleton value s.produced).symm
  · show s.produced ++ s.source.head?.toList ++ s.source.tail = values
    rw [append_assoc, ← h.split]
    cases s.source <;> rfl
  · have hmono : s.source = [] → s.source.tail = [] := fun h => by rw [h]; rfl
    refine forall_set (fun w hw => (h.ended w hw).mono (Producer.generate s i) hmono id) ?_
    cases hsrc : s.source with
    | nil =>
      show s.source.tail = []
      exact hmono hsrc
    | cons value source => trivial
  · simpa [Producer.generate] using h.all

lemma Counted.deliver (h : Counted values s) {result : Option T}
    (hi : s.threads[i]? = some (.holding result)) : Counted values (deliver s i) := by
  cases result with
  | none =>
    have hc := countP_remove (p := Worker.busy) (b := .exited) hi rfl rfl
    have hp := filterMap_keep (f := Worker.held) (b := .exited) hi rfl rfl
    have hw := h.counts
    rw [deliver_none hi]
    refine ⟨?_, ?_, (Perm.append_left _ hp).trans h.once, h.split, ?_, ?_⟩
    · show (s.queue.length : Int) + (s.working - 1) ≤ s.maxQueueSize
      have := h.space
      omega
    · show s.working - 1 = ((s.threads.set i .exited).countP Worker.busy : Int)
      omega
    · have hsrc : s.source = [] := h.ended _ (mem_of_getElem? hi)
      exact forall_set h.ended (.inl hsrc)
    · simpa using h.all
  | some value =>
    have hc := countP_remove (p := Worker.busy) (b := .waiting) hi rfl rfl
    have hp := filterMap_remove (f := Worker.held) (b := .waiting) hi rfl rfl
    have hw := h.counts
    rw [deliver_some hi]
    refine ⟨?_, ?_, ?_, h.split, ?_, ?_⟩
    · show ((s.queue ++ [value]).length : Int) + (s.working - 1) ≤ s.maxQueueSize
      have := h.space
      rw [length_append, length_singleton]
      omega
    · show s.working - 1 = ((s.threads.set i .waiting).countP Worker.busy : Int)
      omega
    · refine Perm.trans ?_ h.once
      show (s.returned ++ (s.queue ++ [value]) ++ _).Perm (s.returned ++ s.queue ++ _)
      rw [← append_assoc, append_assoc _ [value]]
      exact Perm.append_left _ hp.symm
    · exact forall_set h.ended trivial
    · simpa using h.all

lemma Counted.step (h : Counted values s) (op : ProducerOp) (ho : producerSys.ok s op) :
    Counted values (producerSys.run s op) := by
  cases op with
  | store => exact ⟨h.space, h.counts, h.once, h.split, h.ended, h.all⟩
  | acquire i => exact h.acquire ho.1 ho.2
  | generate i => exact h.generate ho
  | deliver i =>
    obtain ⟨result, hi⟩ := ho
    exact h.deliver hi
  | get =>
    show Counted values (get s).2
    rcases get_eq s with he | ⟨value, queue, hq, he⟩
    · rw [he]
      exact h
    · rw [he]
      have hsp := h.space
      have hon := h.once
      rw [hq] at hsp hon
      refine ⟨?_, h.counts, ?_, h.split, h.ended, h.all⟩
      · show (queue.length : Int) + s.working ≤ s.maxQueueSize
        rw [length_cons] at hsp
        omega
      · show (s.returned ++ [value] ++ queue ++ s.inFlight).Perm s.produced
        rwa [append_assoc s.returned]
  | destroy =>
    refine ⟨h.space, h.counts, h.once, h.split, fun w hw => ?_, h.all⟩
    exact (h.ended w hw).mono { s with stop := true } id fun _ => rfl

end step

lemma Counted.run {values : List T} {s : Producer T} (h : Counted values s) {os : List ProducerOp}
    (hl : producerSys.Legal s os) : Counted values (producerSys.out s os) :=
  producerSys.invariant (Counted values) (fun _ op hs ho => hs.step op ho) s h os hl

lemma construct_ok {nThreads maxQueueSize : Nat} {uninitialised : Int} {values : List T}
    {s : Producer T} (h : construct nThreads maxQueueSize uninitialised values = .ok s) :
    1 ≤ nThreads ∧ 1 ≤ maxQueueSize ∧ s.nThreads = nThreads ∧ s.maxQueueSize = maxQueueSize ∧
      s.constructed = false ∧ s.stop = false ∧ Counted values s := by
  rw [construct] at h
  split at h
  · exact absurd h (by simp)
  · split at h
    · exact absurd h (by simp)
    next hn hm =>
      cases h
      refine ⟨by omega, by omega, rfl, rfl, rfl, rfl, ?_⟩
      refine ⟨by simp [started], ?_, ?_, rfl, ?_, by simp [started]⟩
      · simp [started, countP_replicate, Worker.busy]
      · simp [started, inFlight, filterMap_replicate, Worker.held]
      · intro w hw
        obtain rfl := eq_of_mem_replicate hw
        trivial

/-! ## what `running_` counts -/

/-- behind the store, `running_` misses the threads that exited before it: there were `early` -/
structure Running (early : Nat) (s : Producer T) : Prop where
  constructed : s.constructed = true
  counts : s.stop = false → s.running + s.threads.countP Worker.isExited = s.nThreads + early

lemma Running.step {early : Nat} {s : Producer T} (h : Running early s) (op : ProducerOp)
    (ho : producerSys.ok s op) : Running early (producerSys.run s op) := by
  cases op with
  | store => exact absurd (h.constructed.symm.trans ho) (by decide)
  | acquire i =>
    show Running early (acquire s i)
    rw [acquire]
    split
    next hstop => exact ⟨h.constructed, fun hs => absurd (hstop.symm.trans hs) (by decide)⟩
    · refine ⟨h.constructed, fun hs => ?_⟩
      have hc := countP_keep (p := Worker.isExited) (b := .generating) ho.1 rfl
      show s.running + ((s.threads.set i .generating).countP Worker.isExited : Int) = _
      rw [hc]
      exact h.counts hs
  | generate i =>
    refine ⟨h.constructed, fun hs => ?_⟩
    have hc := countP_keep (p := Worker.isExited) (b := .holding s.source.head?) ho rfl
    show s.running + ((s.threads.set i (.holding s.source.head?)).countP Worker.isExited : Int) = _
    rw [hc]
    exact h.counts hs
  | deliver i =>
    show Running early (deliver s i)
    obtain ⟨result, hi⟩ := ho
    cases result with
    | none =>
      rw [deliver_none hi]
      refine ⟨h.constructed, fun hs => ?_⟩
      have hc := countP_add (p := Worker.isExited) (b := .exited) hi rfl rfl
      have := h.counts hs
      show s.running - 1 + ((s.threads.set i .exited).countP Worker.isExited : Int) = _
      rw [hc]
      push_cast
      omega
    | some value =>
      rw [deliver_some hi]
      refine ⟨h.constructed, fun hs => ?_⟩
      have hc := countP_keep (p := Worker.isExited) (b := .waiting) hi rfl
      show s.running + ((s.threads.set i .waiting).countP Worker.isExited : Int) = _
      rw [hc]
      exact h.counts hs
  | get =>
    show Running early (get s).2
    rcases get_eq s with he | ⟨value, queue, -, he⟩
    · rw [he]
      exact h
    · rw [he]
      exact ⟨h.constructed, h.counts⟩
  | destroy => exact ⟨h.constructed, fun hs => absurd hs (by simp [producerSys])⟩

lemma running_store :
    Running (s.threads.countP Worker.isExited) (store s) := ⟨rfl, fun _ => rfl⟩

lemma sizes_step (op : ProducerOp) :
    (producerSys.run s op).nThreads = s.nThreads ∧
      (producerSys.run s op).maxQueueSize = s.maxQueueSize := by
  cases op with
  | store => exact ⟨rfl, rfl⟩
  | acquire i =>
    show (acquire s i).nThreads = _ ∧ (acquire s i).maxQueueSize = _
    rw [acquire]
    split <;> exact ⟨rfl, rfl⟩
  | generate i => exact ⟨rfl, rfl⟩
  | deliver i =>
    show (deliver s i).nThreads = _ ∧ (deliver s i).maxQueueSize = _
    rw [deliver]
    split <;> exact ⟨rfl, rfl⟩
  | get =>
    show (get s).2.nThreads = _ ∧ (get s).2.maxQueueSize = _
    rcases get_eq s with he | ⟨value, queue, -, he⟩ <;> rw [he] <;> exact ⟨rfl, rfl⟩
  | destroy => exact ⟨rfl, rfl⟩

lemma sizes_out {n m : Nat} {s : Producer T} (h : s.nThreads = n ∧ s.maxQueueSize = m)
    {os : List ProducerOp} (hl : producerSys.Legal s os) :
    (producerSys.out s os).nThreads = n ∧ (producerSys.out s os).maxQueueSize = m := by
  refine producerSys.invariant (fun s => s.nThreads = n ∧ s.maxQueueSize = m) ?_ s h os hl
  intro s op hs _
  rw [(sizes_step s op).1, (sizes_step s op).2]
  exact hs

lemma countP_isExited {l : List (Worker T)} :
    l.countP Worker.isExited = 0 ↔ ∀ w ∈ l, w ≠ .exited := by
  rw [countP_eq_zero]
  refine forall₂_congr fun w _ => ?_
  cases w <;> simp [Worker.isExited]

def Drained : Prop := (∀ w ∈ s.threads, w = .exited) ∧ s.queue = [] ∧ s.stop = false

lemma Counted.drained {values : List T} {s : Producer T} (h : Counted values s)
    (hn : 1 ≤ s.nThreads) (hd : Drained s) :
    s.returned.Perm values ∧ s.threads.countP Worker.isExited = s.nThreads := by
  obtain ⟨hex, hq, hstop⟩ := hd
  have hne : s.threads ≠ [] := by
    rw [← length_pos_iff, h.all]
    exact hn
  obtain ⟨w, hw⟩ := exists_mem_of_ne_nil _ hne
  have hsrc : s.source = [] := by
    have hend := h.ended w hw
    rw [hex w hw] at hend
    exact hend.resolve_right (by simp [hstop])
  have hfl : s.inFlight = [] := by
    refine filterMap_eq_nil_iff.mpr fun w hw => ?_
    rw [hex w hw]
    rfl
  have hon := h.once
  rw [hq, hfl, append_nil, append_nil] at hon
  refine ⟨?_, ?_⟩
  · rw [← h.split, hsrc, append_nil]
    exact hon
  · rw [← h.all, countP_eq_length]
    intro w hw
    rw [hex w hw]
    rfl

/-- **When the consumer sees the end.**  When all threads have exited and the queue is empty, `get`
returns exactly if no thread had exited when the constructor stored `running_`. -/
theorem drained_iff (nThreads maxQueueSize : Nat) (uninitialised : Int) (values : List T)
    (s₀ : Producer T) (h₀ : construct nThreads maxQueueSize uninitialised values = .ok s₀)
    (os : List ProducerOp) (hl : producerSys.Legal s₀ os) :
    let s := producerSys.out s₀ os
    (s.returned ++ s.queue ++ s.inFlight).Perm s.produced ∧ s.produced ++ s.source = values ∧
      s.queue.length ≤ maxQueueSize ∧
      ∀ os₁ os₂, os = os₁ ++ .store :: os₂ → Drained s →
        s.returned.Perm values ∧
        (s.running = 0 ↔ ∀ w ∈ (producerSys.out s₀ os₁).threads, w ≠ .exited) ∧
        (CanGet s ↔ ∀ w ∈ (producerSys.out s₀ os₁).threads, w ≠ .exited) ∧
        (CanGet s → get s = (.ok none, s)) := by
  intro s
  obtain ⟨hn, hm, hsn, hsm, -, -, hc₀⟩ := construct_ok h₀
  have hc : Counted values s := hc₀.run hl
  have hz : s.nThreads = nThreads ∧ s.maxQueueSize = maxQueueSize := sizes_out ⟨hsn, hsm⟩ hl
  refine ⟨hc.once, hc.split, ?_, ?_⟩
  · have hsp := hc.space
    have hw := hc.counts
    omega
  · intro os₁ os₂ hos hd
    obtain ⟨hret, hall⟩ := hc.drained (by omega) hd
    have hr : Running ((producerSys.out s₀ os₁).threads.countP Worker.isExited) s := by
      have hl' := hl
      rw [hos] at hl'
      obtain ⟨hl₁, -, hl₂⟩ := (Sys.legal_append _ _ _ _).mp hl'
      show Running _ (producerSys.out s₀ os)
      rw [hos, Sys.out_append]
      exact producerSys.invariant (Running _) (fun _ op hs ho => hs.step op ho) _
        (running_store _) os₂ hl₂
    have hcount := hr.counts hd.2.2
    rw [hall] at hcount
    have hrun : s.running = 0 ↔ ∀ w ∈ (producerSys.out s₀ os₁).threads, w ≠ .exited := by
      rw [← countP_isExited]
      omega
    have hget : CanGet s ↔ s.running = 0 := by
      refine ⟨fun h => ?_, fun h => .inr (.inr h)⟩
      rcases h with h | h | h
      · exact absurd (h.symm.trans hd.2.2) (by decide)
      · exact absurd hd.2.1 h
      · exact h
    refine ⟨hret, hrun, hget.trans hrun, fun h => ?_⟩
    rw [get, hd.2.2, if_neg (by decide), if_pos ⟨hget.mp h, hd.2.1⟩]

def singleRun : List ProducerOp :=
  [.store, .acquire 0, .generate 0, .deliver 0, .get, .acquire 0, .generate 0, .deliver 0]

theorem drained_iff_single :
    let s := producerSys.out (started 1 1 7 [3]) singleRun
    Drained s ∧ s.returned.Perm [3] ∧ get s = (.ok none, s) := by
  intro s
  have hd : Drained s := ⟨by decide, rfl, rfl⟩
  have hl : producerSys.Legal (started 1 1 7 [3]) singleRun :=
    ⟨rfl, ⟨rfl, .inr (by decide)⟩, rfl, ⟨_, rfl⟩, ⟨rfl, .inr (.inl (by decide))⟩,
      ⟨rfl, .inr (by decide)⟩, rfl, ⟨_, rfl⟩, trivial⟩
  obtain ⟨-, -, -, h⟩ := drained_iff 1 1 7 [3] _ rfl singleRun hl
  obtain ⟨hr, -, hi, hg⟩ := h [] singleRun.tail rfl hd
  exact ⟨hd, hr, hg (hi.mpr (by decide))⟩

def earlyRun : List ProducerOp := [.acquire 0, .generate 0, .deliver 0, .store]

/-- `running_` stays at `1` for ever, and every `get` waits -/
theorem exit_before_store :
    let s := producerSys.out (started (T := Nat) 1 1 7 []) earlyRun
    producerSys.Legal (started (T := Nat) 1 1 7 []) earlyRun ∧ Drained s ∧ s.constructed = true ∧
      s.running = 1 ∧ ¬ CanGet s := by
  refine ⟨?_, ⟨by decide, rfl, rfl⟩, rfl, rfl, ?_⟩
  · exact ⟨⟨rfl, .inr (by decide)⟩, rfl, ⟨_, rfl⟩, rfl, trivial⟩
  · rintro (h | h | h)
    · exact absurd h (by decide)
    · exact h rfl
    · exact absurd h (by decide)

end Producer
end TorchCraft.Parallel
