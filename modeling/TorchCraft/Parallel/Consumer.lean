import Mathlib.Data.Int.Order.Basic
import Mathlib.Data.List.Nodup
import TorchCraft.Lib.Pool
import TorchCraft.Lib.Sys

/-!
# `common::BufferedConsumer`

Any number of callers put items into a bounded queue and worker threads pass them to a functor; with
no worker threads the caller of `enqueue` passes the item on itself, under the lock.

* `Ordered`  the invariant of every reachable consumer;
* `Staffed`, `work`  with threads, the steps that they have left.

An item is the argument with its number: the `k`-th item to be enqueued is `(arg, k)`.  An item is
started when it leaves the queue: from there a worker calls the functor without the lock.
-/

namespace TorchCraft.Parallel
open TorchCraft.Lib
open List

namespace Consumer

abbrev Item (T : Type*) := T × Nat

inductive Worker (T : Type*)
  | waiting
  -- in `fn_(std::move(item))`, without the lock
  | calling (item : Item T)
  | exited
deriving DecidableEq, Repr

def Worker.item {T : Type*} : Worker T → Option (Item T)
  | .calling item => some item
  | _ => none

end Consumer
open Consumer

/-- `inline` is the item that a caller of `enqueue` passes on itself; the last five fields are the
history -/
structure Consumer (T : Type*) where
  maxQueueSize : Nat
  stop : Bool
  consuming : Int
  threads : List (Worker T)
  queue : List (Item T)
  inline : Option (Item T)
  enqueued : List T
  started : List (Item T)
  finished : List (Item T)
  thrown : List (Item T)
  replaced : List (Item T)

namespace Consumer
variable {T : Type*}

def begun (nthreads maxQueueSize : Nat) : Consumer T where
  maxQueueSize := maxQueueSize
  stop := false
  consuming := 0
  threads := List.replicate nthreads .waiting
  queue := []
  inline := none
  enqueued := []
  started := []
  finished := []
  thrown := []
  replaced := []

def construct (nthreads maxQueueSize : Nat) : Except String (Consumer T) :=
  if maxQueueSize = 0 ∧ 0 < nthreads then
    .error "Cannot construct BufferedConsumer with > 0 threads but zero-sized queue"
  else .ok (begun nthreads maxQueueSize)

/-! ## the callers -/

variable (s : Consumer T)

def next (arg : T) : Item T := (arg, s.enqueued.length)

def push (arg : T) (queue : List (Item T)) : Consumer T :=
  { s with queue := queue ++ [s.next arg], enqueued := s.enqueued ++ [arg] }

/-- `enqueue` behind its wait; without threads it stops in front of the functor's return -/
def enqueue (arg : T) : Except String Unit × Consumer T :=
  if s.stop then (.error "BufferedConsumer not active", s)
  else if s.threads ≠ [] then (.ok (), s.push arg s.queue)
  else (.ok (), { s with
    consuming := s.consuming + 1
    inline := some (s.next arg)
    enqueued := s.enqueued ++ [arg]
    started := s.started ++ [s.next arg] })

def enqueueOrReplaceOldest (arg : T) : Except String Bool × Consumer T :=
  if s.threads = [] then
    (.error "Please use BufferedConsumer::enqueue when not using threads", s)
  else if s.stop then (.error "BufferedConsumer not active", s)
  else if s.maxQueueSize ≤ s.queue.length then
    (.ok true, { s.push arg s.queue.tail with replaced := s.replaced ++ s.queue.head?.toList })
  else (.ok false, s.push arg s.queue)

def CanEnqueue : Prop :=
  s.threads ≠ [] → s.stop = true ∨ s.queue.length < s.maxQueueSize

def CanReturn : Prop := s.stop = true ∨ (s.queue = [] ∧ s.consuming = 0)

/-- the functor that a caller of `enqueue` runs ends; a throw leaves `enqueue` past the decrement -/
def endInline (throws : Bool) : Consumer T :=
  { s with
    consuming := if throws then s.consuming else s.consuming - 1
    inline := none
    finished := s.finished ++ s.inline.toList
    thrown := if throws then s.thrown ++ s.inline.toList else s.thrown }

/-! ## the workers -/

def take (i : Nat) : Consumer T :=
  if s.stop then { s with threads := s.threads.set i .exited }
  else match s.queue with
    | [] => s
    | item :: queue =>
      { s with
        queue := queue
        consuming := s.consuming + 1
        threads := s.threads.set i (.calling item)
        started := s.started ++ [item] }

def finish (i : Nat) : Consumer T :=
  match s.threads[i]? with
  | some (.calling item) =>
    { s with
      consuming := s.consuming - 1
      threads := s.threads.set i .waiting
      finished := s.finished ++ [item] }
  | _ => s

/-! ## interleavings -/

inductive ConsumerOp (T : Type*)
  | enqueue (arg : T)
  | enqueueOrReplaceOldest (arg : T)
  -- the functor inside of `enqueue` ends
  | endInline (throws : Bool)
  -- `wait` returns
  | wait
  | take (i : Nat)
  | finish (i : Nat)
  -- the destructor sets `stop_`
  | destroy
deriving DecidableEq, Repr

/-- while a caller runs the functor itself, it holds the lock and nobody else moves -/
def consumerSys : Sys (Consumer T) (ConsumerOp T) where
  run s
    | .enqueue arg => (enqueue s arg).2
    | .enqueueOrReplaceOldest arg => (enqueueOrReplaceOldest s arg).2
    | .endInline throws => endInline s throws
    | .wait => s
    | .take i => take s i
    | .finish i => finish s i
    | .destroy => { s with stop := true }
  ok s
    | .enqueue _ => s.inline = none ∧ CanEnqueue s
    | .enqueueOrReplaceOldest _ => s.inline = none
    | .endInline _ => s.inline ≠ none
    | .wait => s.inline = none ∧ CanReturn s
    | .take i => s.inline = none ∧ s.threads[i]? = some .waiting ∧ (s.stop = true ∨ s.queue ≠ [])
    | .finish i => s.inline = none ∧ ∃ item, s.threads[i]? = some (.calling item)
    | .destroy => s.inline = none

/-! ## the invariant -/

def inProgress : List (Item T) := s.inline.toList ++ s.threads.filterMap Worker.item

structure Ordered (s : Consumer T) : Prop where
  -- what is started or queued is in the order of its numbers
  fifo : ((s.started ++ s.queue).map Prod.snd).Pairwise (· < ·)
  -- every item is in one place
  once : (s.started ++ s.replaced ++ s.queue).Perm s.enqueued.zipIdx
  progress : s.started.Perm (s.finished ++ s.inProgress)
  space : s.queue.length ≤ s.maxQueueSize
  -- a consumer with threads has a queue
  room : s.threads ≠ [] → 0 < s.maxQueueSize
  -- and one without threads does not use it
  direct : s.threads = [] → s.queue = []
  counts : s.consuming = s.inProgress.length + s.thrown.length

variable {item : Item T}

section step
variable {s : Consumer T}

lemma Ordered.number_lt (h : Ordered s) (hi : item ∈ s.started ++ s.queue) :
    item.2 < s.enqueued.length := by
  have hm : item ∈ s.enqueued.zipIdx := by
    refine h.once.subset ?_
    rcases mem_append.mp hi with hi | hi
    · exact mem_append_left _ (mem_append_left _ hi)
    · exact mem_append_right _ hi
  obtain ⟨-, hlt, -⟩ := mem_zipIdx hm
  simpa using hlt

lemma Ordered.concat (h : Ordered s) {l : List (Item T)} (hl : l.Sublist (s.started ++ s.queue))
    (arg : T) : ((l ++ [s.next arg]).map Prod.snd).Pairwise (· < ·) := by
  rw [map_append]
  refine pairwise_append.mpr
    ⟨h.fifo.sublist (hl.map _), pairwise_singleton _ _, fun k hk m hm => ?_⟩
  obtain ⟨item, hi, rfl⟩ := mem_map.mp hk
  rw [mem_singleton.mp hm]
  exact h.number_lt (hl.subset hi)

lemma zipIdx_concat (s : Consumer T) (arg : T) :
    (s.enqueued ++ [arg]).zipIdx = s.enqueued.zipIdx ++ [s.next arg] := by
  rw [zipIdx_append, Nat.zero_add]
  rfl

section
variable (h : Ordered s)
include h

lemma Ordered.push (arg : T) {queue replaced : List (Item T)} (hq : queue.Sublist s.queue)
    (hp : (s.started ++ replaced ++ queue).Perm (s.started ++ s.replaced ++ s.queue))
    (hl : queue.length < s.maxQueueSize) (ht : s.threads ≠ []) :
    Ordered { s.push arg queue with replaced := replaced } := by
  refine ⟨?_, ?_, h.progress, ?_, h.room, fun h => absurd h ht, h.counts⟩
  · show ((s.started ++ (queue ++ [s.next arg])).map Prod.snd).Pairwise (· < ·)
    rw [← append_assoc]
    exact h.concat (hq.append_left _) arg
  · show (s.started ++ replaced ++ (queue ++ [s.next arg])).Perm (s.enqueued ++ [arg]).zipIdx
    rw [zipIdx_concat, ← append_assoc]
    exact (hp.trans h.once).append_right _
  · show (queue ++ [s.next arg]).length ≤ s.maxQueueSize
    rw [length_append, length_singleton]
    exact hl

lemma Ordered.enqueue (arg : T) (hi : s.inline = none) (hc : CanEnqueue s) :
    Ordered (enqueue s arg).2 := by
  rw [Consumer.enqueue]
  split
  · exact h
  next hstop =>
    split
    next ht =>
      exact h.push arg (Sublist.refl _) (List.Perm.refl _) ((hc ht).resolve_left hstop) ht
    next ht =>
      have hnil : s.threads = [] := not_not.mp ht
      have hq := h.direct hnil
      have hp : s.inProgress = [] := by
        rw [inProgress, hi, hnil]
        rfl
      have hp' : inProgress { s with inline := some (s.next arg) } = [s.next arg] := by
        rw [inProgress, hnil]
        rfl
      have honce := h.once
      have hprog := h.progress
      have hcount := h.counts
      rw [hq, append_nil] at honce
      rw [hp, append_nil] at hprog
      rw [hp] at hcount
      refine ⟨?_, ?_, ?_, h.space, h.room, h.direct, ?_⟩
      · show ((s.started ++ [s.next arg] ++ s.queue).map Prod.snd).Pairwise (· < ·)
        rw [hq, append_nil]
        exact h.concat (sublist_append_left ..) arg
      · show (s.started ++ [s.next arg] ++ s.replaced ++ s.queue).Perm (s.enqueued ++ [arg]).zipIdx
        rw [hq, append_nil, zipIdx_concat, append_assoc]
        refine (Perm.append_left _ (perm_append_comm)).trans ?_
        rw [← append_assoc]
        exact honce.append_right _
      · show (s.started ++ [s.next arg]).Perm (s.finished ++ inProgress { s with inline := _ })
        rw [hp']
        exact hprog.append_right _
      · show s.consuming + 1 = ((inProgress { s with inline := _ }).length : Int) + s.thrown.length
        rw [hp', hcount]
        simp only [length_nil, length_singleton]
        omega

lemma Ordered.enqueueOrReplaceOldest (arg : T) : Ordered (enqueueOrReplaceOldest s arg).2 := by
  rw [Consumer.enqueueOrReplaceOldest]
  split
  · exact h
  next ht =>
    split
    · exact h
    · split
      next hfull =>
        have hroom := h.room ht
        have hspace := h.space
        cases hq : s.queue with
        | nil =>
          rw [hq, length_nil] at hfull
          omega
        | cons oldest queue =>
          rw [hq, length_cons] at hspace
          refine h.push arg ?_ ?_ hspace ht
          · rw [hq]
            exact sublist_cons_self oldest queue
          · show (s.started ++ (s.replaced ++ [oldest]) ++ queue).Perm _
            rw [hq, ← append_assoc, append_assoc _ [oldest]]
            exact List.Perm.refl _
      next hfull =>
        exact h.push arg (Sublist.refl _) (List.Perm.refl _) (Nat.not_le.mp hfull) ht

lemma Ordered.endInline (throws : Bool) (hi : s.inline ≠ none) :
    Ordered (endInline s throws) := by
  obtain ⟨item, hitem⟩ := Option.ne_none_iff_exists'.mp hi
  have hprog := h.progress
  have hcount := h.counts
  rw [inProgress, hitem] at hprog hcount
  refine ⟨h.fifo, h.once, ?_, h.space, h.room, h.direct, ?_⟩
  · show s.started.Perm (s.finished ++ s.inline.toList ++ ([] ++ s.threads.filterMap Worker.item))
    rw [hitem, nil_append, append_assoc]
    exact hprog
  · show (if throws then s.consuming else s.consuming - 1) = (([] ++ s.threads.filterMap
      Worker.item).length : Int) + (if throws then s.thrown ++ s.inline.toList else s.thrown).length
    rw [length_append] at hcount
    cases throws with
    | false =>
      simp only [Bool.false_eq_true, if_false, nil_append, Option.toList_some,
        length_singleton] at hcount ⊢
      omega
    | true =>
      rw [hitem]
      simp only [if_true, nil_append, length_append, Option.toList_some,
        length_singleton] at hcount ⊢
      omega

lemma Ordered.take {i : Nat} (hi : s.threads[i]? = some .waiting) : Ordered (take s i) := by
  rw [Consumer.take]
  split
  · have hk := Pool.filterMap_keep (f := Worker.item) (b := .exited) hi rfl rfl
    have hpr : (inProgress { s with threads := s.threads.set i .exited }).Perm s.inProgress :=
      hk.append_left _
    refine ⟨h.fifo, h.once, ?_, h.space, fun ht => h.room (mt (set_eq_nil_iff ..).mpr ht),
      fun hn => h.direct ((set_eq_nil_iff ..).mp hn), ?_⟩
    · exact h.progress.trans (hpr.symm.append_left _)
    · rw [hpr.length_eq]
      exact h.counts
  · split
    · exact h
    next item queue hq =>
      have ha := Pool.filterMap_add (f := Worker.item) (b := .calling item) hi rfl rfl
      have hpr : (inProgress { s with threads := s.threads.set i (.calling item) }).Perm
          (item :: s.inProgress) := (ha.append_left _).trans perm_middle
      have hfifo := h.fifo
      have honce := h.once
      have hspace := h.space
      rw [hq] at hfifo honce hspace
      refine ⟨?_, ?_, ?_, ?_, fun ht => h.room (mt (set_eq_nil_iff ..).mpr ht), fun hn => ?_, ?_⟩
      · show ((s.started ++ [item] ++ queue).map Prod.snd).Pairwise (· < ·)
        rwa [append_assoc]
      · show (s.started ++ [item] ++ s.replaced ++ queue).Perm s.enqueued.zipIdx
        refine Perm.trans ?_ honce
        rw [append_assoc s.started, append_assoc s.started, append_assoc s.started]
        refine Perm.append_left _ ?_
        exact perm_middle.symm
      · show (s.started ++ [item]).Perm (s.finished ++ inProgress { s with threads := _ })
        refine (h.progress.append_right _).trans ?_
        rw [append_assoc]
        exact Perm.append_left _ ((perm_append_singleton _ _).trans hpr.symm)
      · show queue.length ≤ s.maxQueueSize
        rw [length_cons] at hspace
        omega
      · rw [h.direct ((set_eq_nil_iff ..).mp hn)] at hq
        nomatch hq
      · show s.consuming + 1 = ((inProgress { s with threads := _ }).length : Int) + s.thrown.length
        rw [hpr.length_eq, h.counts, length_cons]
        push_cast
        omega

lemma Ordered.finish {i : Nat} (hi : s.threads[i]? = some (.calling item)) :
    Ordered (finish s i) := by
  have hr := Pool.filterMap_remove (f := Worker.item) (b := .waiting) hi rfl rfl
  have hpr : s.inProgress.Perm (item :: inProgress { s with threads := s.threads.set i .waiting }) :=
    (hr.append_left _).trans perm_middle
  have he : Consumer.finish s i =
      { s with consuming := s.consuming - 1, threads := s.threads.set i .waiting,
               finished := s.finished ++ [item] } := by
    rw [Consumer.finish, hi]
  rw [he]
  refine ⟨h.fifo, h.once, ?_, h.space, fun ht => h.room (mt (set_eq_nil_iff ..).mpr ht),
    fun hn => h.direct ((set_eq_nil_iff ..).mp hn), ?_⟩
  · show s.started.Perm (s.finished ++ [item] ++ inProgress { s with threads := _ })
    rw [append_assoc]
    exact h.progress.trans (hpr.append_left _)
  · show s.consuming - 1 = ((inProgress { s with threads := _ }).length : Int) + s.thrown.length
    have hl := hpr.length_eq
    have hc := h.counts
    rw [length_cons] at hl
    rw [hl] at hc
    push_cast at hc
    omega

lemma Ordered.step (op : ConsumerOp T) (ho : consumerSys.ok s op) :
    Ordered (consumerSys.run s op) := by
  cases op with
  | enqueue arg => exact h.enqueue arg ho.1 ho.2
  | enqueueOrReplaceOldest arg => exact h.enqueueOrReplaceOldest arg
  | endInline throws => exact h.endInline throws ho
  | wait => exact h
  | take i => exact h.take ho.2.1
  | finish i =>
    obtain ⟨-, item, hi⟩ := ho
    exact h.finish hi
  | destroy => exact ⟨h.fifo, h.once, h.progress, h.space, h.room, h.direct, h.counts⟩

end

end step

variable {s : Consumer T}

lemma Ordered.run (h : Ordered s) {os : List (ConsumerOp T)}
    (hl : consumerSys.Legal s os) : Ordered (consumerSys.out s os) :=
  consumerSys.invariant Ordered (fun _ op hs ho => hs.step op ho) s h os hl

lemma construct_ok {nthreads maxQueueSize : Nat}
    (h : construct nthreads maxQueueSize = .ok s) : s = begun nthreads maxQueueSize ∧ Ordered s := by
  rw [construct] at h
  split at h
  · exact absurd h (by simp)
  next hn =>
    cases h
    have hp : (begun (T := T) nthreads maxQueueSize).inProgress = [] := by
      simp [inProgress, begun, filterMap_replicate, Worker.item]
    refine ⟨rfl, List.Pairwise.nil, List.Perm.refl _, ?_, Nat.zero_le _, fun ht => ?_,
      fun _ => rfl, ?_⟩
    · rw [hp]
      exact List.Perm.refl _
    · have : nthreads ≠ 0 := fun h0 => ht (by rw [h0]; rfl)
      show 0 < maxQueueSize
      omega
    · rw [hp]
      rfl

/-! ## what becomes of the items -/

lemma Ordered.nodup (h : Ordered s) : (s.started ++ s.replaced ++ s.queue).Nodup := by
  rw [h.once.nodup_iff]
  exact Nodup.of_map Prod.snd (by rw [zipIdx_map_snd]; exact nodup_range')

lemma Ordered.not_started (h : Ordered s) (hi : item ∈ s.enqueued.zipIdx) :
    item ∉ s.started ↔ item ∈ s.replaced ∨ item ∈ s.queue := by
  have hm := h.once.symm.subset hi
  have hd := h.nodup
  rw [append_assoc] at hm hd
  have hdis := disjoint_of_nodup_append hd
  rw [mem_append, mem_append] at hm
  refine ⟨fun hn => hm.resolve_left hn, fun hq hs => hdis hs (mem_append.mpr hq)⟩

lemma Ordered.waited (h : Ordered s) (hw : CanReturn s) :
    s.stop ∨ ∀ item ∈ s.enqueued.zipIdx, item ∈ s.finished ∨ item ∈ s.replaced := by
  rcases hw with hs | ⟨hq, hc⟩
  · exact .inl hs
  · refine .inr fun item hi => ?_
    have hp : s.inProgress = [] := by
      have := h.counts
      rw [hc] at this
      exact length_eq_zero_iff.mp (by omega)
    have hprog := h.progress
    rw [hp, append_nil] at hprog
    have hm := h.once.symm.subset hi
    rw [hq, append_nil] at hm
    exact (mem_append.mp hm).imp_left fun hs => hprog.subset hs

/-- **What a `BufferedConsumer` does with its items.**  They are started in the order in which they
were enqueued, each at most once, and `wait` returns only if all are done or the consumer is
stopped.  `consuming_` is the number of calls in progress exactly if no call has thrown. -/
theorem consuming_iff (nthreads maxQueueSize : Nat) (s₀ : Consumer T)
    (h₀ : construct nthreads maxQueueSize = .ok s₀) (os : List (ConsumerOp T))
    (hl : consumerSys.Legal s₀ os) :
    let s := consumerSys.out s₀ os
    s.started.Nodup ∧ (s.started.map Prod.snd).Pairwise (· < ·) ∧
      (∀ item ∈ s.started, item ∈ s.enqueued.zipIdx) ∧
      (∀ item ∈ s.enqueued.zipIdx, item ∉ s.started ↔ item ∈ s.replaced ∨ item ∈ s.queue) ∧
      s.queue.length ≤ s.maxQueueSize ∧
      (CanReturn s → s.stop = true ∨
        ∀ item ∈ s.enqueued.zipIdx, item ∈ s.finished ∨ item ∈ s.replaced) ∧
      (s.consuming = s.inProgress.length ↔ s.thrown = []) := by
  intro s
  have h : Ordered s := (construct_ok h₀).2.run hl
  have hfifo := h.fifo
  rw [map_append] at hfifo
  refine ⟨h.nodup.of_append_left.of_append_left, (pairwise_append.mp hfifo).1, fun item hi => ?_,
    fun item hi => h.not_started hi, h.space, h.waited, ?_⟩
  · exact h.once.subset (mem_append_left _ (mem_append_left _ hi))
  · rw [h.counts, ← length_eq_zero_iff]
    omega

/-- two workers over a queue of one, and an item that replaces another -/
theorem consuming_iff_replaced :
    let s := consumerSys.out (begun (T := Nat) 2 1)
      [.enqueue 5, .take 1, .enqueue 6, .enqueueOrReplaceOldest 7, .take 0, .finish 1]
    s.started = [(5, 0), (7, 2)] ∧ s.replaced = [(6, 1)] ∧ s.consuming = s.inProgress.length := by
  refine ⟨rfl, rfl, ?_⟩
  refine (consuming_iff 2 1 _ rfl _ ?_).2.2.2.2.2.2.mpr rfl
  exact ⟨⟨rfl, fun _ => .inr (by decide)⟩, ⟨rfl, rfl, .inr (by decide)⟩,
    ⟨rfl, fun _ => .inr (by decide)⟩, rfl, ⟨rfl, rfl, .inr (by decide)⟩, ⟨rfl, _, rfl⟩, trivial⟩

/-- without threads, an item whose functor throws is counted for ever, and `wait` never returns -/
theorem counted_after_throw :
    let s := consumerSys.out (begun (T := Nat) 0 0) [.enqueue 5, .endInline true]
    construct (T := Nat) 0 0 = .ok (begun 0 0) ∧
      consumerSys.Legal (begun (T := Nat) 0 0) [.enqueue 5, .endInline true] ∧
      s.inProgress = [] ∧ s.consuming = 1 ∧ s.stop = false ∧ ¬ CanReturn s := by
  refine ⟨rfl, ⟨⟨rfl, fun h => absurd rfl h⟩, ?_, trivial⟩, rfl, rfl, rfl, ?_⟩
  · exact Option.some_ne_none (5, 0)
  · rintro (h | h)
    · exact absurd h (by decide)
    · exact absurd h.2 (by decide)

/-! ## the workers empty the queue -/

def ConsumerOp.byWorker : ConsumerOp T → Bool
  | .take _ | .finish _ => true
  | _ => false

/-- the steps that the workers have to make: two for a queued item, one for a started one -/
def work (s : Consumer T) : Nat := 2 * s.queue.length + s.inProgress.length

/-- a consumer with threads that have not exited -/
structure Staffed (s : Consumer T) : Prop where
  threads : s.threads ≠ []
  inline : s.inline = none
  thrown : s.thrown = []
  awake : s.stop = false → .exited ∉ s.threads

lemma Staffed.step (h : Staffed s) (o : ConsumerOp T) (ho : consumerSys.ok s o) :
    Staffed (consumerSys.run s o) := by
  cases o with
  | enqueue arg =>
    show Staffed (enqueue s arg).2
    rw [Consumer.enqueue, if_pos h.threads]
    split <;> exact ⟨h.threads, h.inline, h.thrown, h.awake⟩
  | enqueueOrReplaceOldest arg =>
    show Staffed (enqueueOrReplaceOldest s arg).2
    rw [Consumer.enqueueOrReplaceOldest, if_neg h.threads]
    split
    · exact h
    · split <;> exact ⟨h.threads, h.inline, h.thrown, h.awake⟩
  | endInline throws => exact absurd h.inline ho
  | wait => exact h
  | take i =>
    show Staffed (take s i)
    rw [Consumer.take]
    split
    next hs =>
      refine ⟨mt (set_eq_nil_iff ..).mp h.threads, h.inline, h.thrown, fun hn => ?_⟩
      exact absurd (hs.symm.trans hn) (by decide)
    · split
      · exact h
      · refine ⟨mt (set_eq_nil_iff ..).mp h.threads, h.inline, h.thrown, fun hn hm => ?_⟩
        exact (mem_or_eq_of_mem_set hm).elim (h.awake hn) nofun
  | finish i =>
    show Staffed (finish s i)
    rw [Consumer.finish]
    split
    · refine ⟨mt (set_eq_nil_iff ..).mp h.threads, h.inline, h.thrown, fun hn hm => ?_⟩
      exact (mem_or_eq_of_mem_set hm).elim (h.awake hn) nofun
    · exact h
  | destroy => exact ⟨h.threads, h.inline, h.thrown, nofun⟩

lemma work_step (hs : s.stop = false) {o : ConsumerOp T} (hw : o.byWorker)
    (ho : consumerSys.ok s o) :
    (consumerSys.run s o).stop = false ∧ work (consumerSys.run s o) + 1 = work s := by
  cases o with
  | take i =>
    obtain ⟨-, hi, hq⟩ := ho
    obtain ⟨item, queue, hqueue⟩ := ne_nil_iff_exists_cons.mp (hq.resolve_left (by simp [hs]))
    have he : consumerSys.run s (.take i) = { s with
        queue := queue, consuming := s.consuming + 1, threads := s.threads.set i (.calling item)
        started := s.started ++ [item] } := by
      show take s i = _
      rw [Consumer.take, hs, hqueue]
      rfl
    have hadd := (Pool.filterMap_add (f := Worker.item) (b := .calling item) hi rfl rfl).length_eq
    rw [he]
    refine ⟨hs, ?_⟩
    simp only [work, inProgress, hqueue, length_append, length_cons] at hadd ⊢
    omega
  | finish i =>
    obtain ⟨-, item, hi⟩ := ho
    have he : consumerSys.run s (.finish i) = { s with
        consuming := s.consuming - 1, threads := s.threads.set i .waiting
        finished := s.finished ++ [item] } := by
      show finish s i = _
      rw [Consumer.finish, hi]
    have hrem := (Pool.filterMap_remove (f := Worker.item) (b := .waiting) hi rfl rfl).length_eq
    rw [he]
    refine ⟨hs, ?_⟩
    simp only [work, inProgress, length_append, length_cons] at hrem ⊢
    omega
  | _ => nomatch hw

lemma work_run {ws : List (ConsumerOp T)} (hs : s.stop = false) (hw : ∀ o ∈ ws, o.byWorker)
    (hl : consumerSys.Legal s ws) :
    (consumerSys.out s ws).stop = false ∧ ws.length + work (consumerSys.out s ws) = work s := by
  induction ws generalizing s with
  | nil => exact ⟨hs, Nat.zero_add _⟩
  | cons o ws ih =>
    obtain ⟨hstop, hone⟩ := work_step hs (hw o (mem_cons_self ..)) hl.1
    obtain ⟨hstop', hrest⟩ := ih hstop (fun o ho => hw o (mem_cons_of_mem _ ho)) hl.2
    refine ⟨hstop', ?_⟩
    rw [Sys.out_cons, length_cons]
    omega

lemma Staffed.idle (h : Staffed s) (hs : s.stop = false) (hord : Ordered s)
    (hidle : ∀ o : ConsumerOp T, o.byWorker → ¬ consumerSys.ok s o) : CanReturn s := by
  have hcall : ∀ w ∈ s.threads, w = .waiting := by
    intro w hw
    obtain ⟨i, hi⟩ := mem_iff_getElem?.mp hw
    cases w with
    | waiting => rfl
    | calling item => exact absurd ⟨h.inline, item, hi⟩ (hidle (.finish i) rfl)
    | exited => exact absurd hw (h.awake hs)
  refine .inr ⟨?_, ?_⟩
  · by_contra hq
    obtain ⟨w, ws, hws⟩ := ne_nil_iff_exists_cons.mp h.threads
    refine hidle (.take 0) rfl ⟨h.inline, ?_, .inr hq⟩
    rw [hws, getElem?_cons_zero, hcall w (hws ▸ mem_cons_self ..)]
  · have hnone : s.threads.filterMap Worker.item = [] :=
      filterMap_eq_nil_iff.mpr fun w hw => by rw [hcall w hw]; rfl
    rw [hord.counts, inProgress, h.inline, hnone, h.thrown]
    rfl

/-- **The workers drain the queue, however they are scheduled**: each of their steps is one of the
`work` steps that are left, and where they can make no step `wait` returns. -/
theorem workers_drain (nthreads maxQueueSize : Nat) (hn : 0 < nthreads) (s₀ : Consumer T)
    (h₀ : construct nthreads maxQueueSize = .ok s₀) (os ws : List (ConsumerOp T))
    (hl : consumerSys.Legal s₀ (os ++ ws)) (hs : (consumerSys.out s₀ os).stop = false)
    (hw : ∀ o ∈ ws, o.byWorker) :
    let s := consumerSys.out s₀ (os ++ ws)
    ws.length + work s = work (consumerSys.out s₀ os) ∧
      ((∀ o : ConsumerOp T, o.byWorker → ¬ consumerSys.ok s o) → CanReturn s) := by
  intro s
  obtain ⟨rfl, hord⟩ := construct_ok h₀
  have hfirst : Staffed (begun (T := T) nthreads maxQueueSize) :=
    ⟨by simp [begun]; omega, rfl, rfl, fun _ => by simp [begun]⟩
  have hstaff : Staffed s := consumerSys.invariant Staffed (fun _ o h ho => h.step o ho) _ hfirst _ hl
  have hord : Ordered s := hord.run hl
  have hwork := work_run hs hw ((consumerSys.legal_append ..).mp hl).2
  rw [← Sys.out_append] at hwork
  exact ⟨hwork.2, hstaff.idle hwork.1 hord⟩

theorem workers_drain_two :
    let s := consumerSys.out (begun (T := Nat) 1 2) [.enqueue 5, .enqueue 6, .take 0, .finish 0]
    2 + work s = work (consumerSys.out (begun (T := Nat) 1 2) [.enqueue 5, .enqueue 6]) :=
  (workers_drain 1 2 Nat.one_pos (begun (T := Nat) 1 2) rfl [.enqueue 5, .enqueue 6]
    [.take 0, .finish 0]
    ⟨⟨rfl, fun _ => .inr (by decide)⟩, ⟨rfl, fun _ => .inr (by decide)⟩,
      ⟨rfl, rfl, .inr (by decide)⟩, ⟨rfl, _, rfl⟩, trivial⟩ rfl (by decide)).1

end Consumer
end TorchCraft.Parallel
