import Mathlib.Data.List.Nodup
import TorchCraft.Lib.Batches
import TorchCraft.Lib.Pool
import TorchCraft.Lib.Sys

/-!
# `common::DataReaderIterator`

Reader threads open the files of a list in turn and put a future for each into a bounded queue; the
consumer takes the futures by position and forms batches.  A reader takes the lock to get its next
position and fulfils its promise without it; the consumer holds the lock through the whole of
`next` except while it waits for a position that is not in the queue.

* `next`, `advance`, `recheck`, `get`  the steps of the consumer;
* `iteratorSys`  the interleavings, with spurious wakeups.

What reading a file gives is a parameter: `data[k]` is the datum of `paths_[k]`, and `none` if
opening or decoding it throws.
-/

namespace TorchCraft.DataReader
open TorchCraft.Lib
open List

def filePath (pathPrefix curPath : String) : String :=
  if pathPrefix ≠ "" ∧ curPath ≠ "" ∧ curPath.toList.head? ≠ some '/' then
    pathPrefix ++ "/" ++ curPath
  else curPath

def files {T : Type*} (decode : String → Option T) (pathPrefix : String) (paths : List String) :
    List (Option T) := paths.map fun p => decode (filePath pathPrefix p)

def kMaxBatchesInQueue : Nat := 4

inductive Future (T : Type*)
  | pending
  | value (v : T)
  | exception
deriving DecidableEq, Repr

/-- `set_value`, or `set_exception` where decoding throws -/
def Future.of {T : Type*} : Option T → Future T
  | some v => .value v
  | none => .exception

inductive Reader
  -- in front of the lock, or woken from `prodCV_.wait`
  | contending
  -- in `prodCV_.wait`
  | asleep
  -- it has a position and reads the file
  | reading (curPos : Nat)
  -- the promise is fulfilled, `consumerCV_.notify_all` comes next
  | notifying (curPos : Nat)
  | done
deriving DecidableEq, Repr

inductive Caller (T : Type*)
  -- between two calls
  | idle
  -- at the head of the loop of `next`, with the lock
  | looping (batch : List T)
  -- in `it->second.get()`, with the lock
  | getting (curPos : Nat) (batch : List T)
  -- in `consumerCV_.wait` after `numAttempts` tests
  | asleep (curPos numAttempts : Nat) (batch : List T)
  -- notified, and in front of the lock
  | woken (curPos numAttempts : Nat) (batch : List T)
deriving DecidableEq, Repr

/-- `start` is where the batch at hand begins, `returned` are the batches of `next` -/
structure Iterator (T : Type*) where
  pos : Nat
  threadPos : Nat
  dataQueue : List (Nat × Future T)
  maxQueueSize : Nat
  readers : List Reader
  consumer : Caller T
  start : Nat
  returned : List (List T)

def Caller.notified {T : Type*} : Caller T → Caller T
  | .asleep curPos numAttempts batch => .woken curPos numAttempts batch
  | c => c

def Reader.notified : Reader → Reader
  | .asleep => .contending
  | r => r

def Caller.locks {T : Type*} : Caller T → Bool
  | .looping _ => true
  | .getting _ _ => true
  | _ => false

/-- the position that the consumer takes next, at a value of `pos_` -/
def Caller.head {T : Type*} (pos : Nat) : Caller T → Nat
  | .getting curPos _ => curPos
  | .asleep curPos _ _ => curPos
  | .woken curPos _ _ => curPos
  | _ => pos

def Caller.batch {T : Type*} : Caller T → List T
  | .idle => []
  | .looping batch => batch
  | .getting _ batch => batch
  | .asleep _ _ batch => batch
  | .woken _ _ batch => batch

/-- the consumer is past the head of its loop, for some position -/
def Caller.seeks {T : Type*} : Caller T → Bool
  | .idle => false
  | .looping _ => false
  | _ => true

namespace Iterator
variable {T : Type*}

def new (numThreads batchSize : Nat) : Iterator T where
  pos := 0
  threadPos := 0
  dataQueue := []
  maxQueueSize := kMaxBatchesInQueue * batchSize
  readers := List.replicate numThreads .contending
  consumer := .idle
  start := 0
  returned := []

def find (s : Iterator T) (k : Nat) : Option (Future T) := s.dataQueue.lookup k

def erase (s : Iterator T) (k : Nat) : List (Nat × Future T) :=
  s.dataQueue.filter fun e => decide (e.1 ≠ k)

variable (data : List (Option T)) (batchSize : Nat)

/-! ## the readers -/

variable (s : Iterator T)

def acquire (i : Nat) : Iterator T :=
  if data.length ≤ s.threadPos then { s with readers := s.readers.set i .done }
  else if s.dataQueue.length < s.maxQueueSize then
    { s with
      threadPos := s.threadPos + 1
      dataQueue := s.dataQueue ++ [(s.threadPos, .pending)]
      readers := s.readers.set i (.reading s.threadPos) }
  else { s with consumer := s.consumer.notified, readers := s.readers.set i .asleep }

def fulfil (i k : Nat) : Iterator T :=
  { s with
    dataQueue := s.dataQueue.map fun e => if e.1 = k then (k, .of data[k]?.join) else e
    readers := s.readers.set i (.notifying k) }

def notify (i : Nat) : Iterator T :=
  { s with consumer := s.consumer.notified, readers := s.readers.set i .contending }

def read (i : Nat) : Iterator T :=
  match s.readers[i]? with
  | some .contending => acquire data s i
  | some (.reading k) => fulfil data s i k
  | some (.notifying _) => notify s i
  | _ => s

def CanRead (i : Nat) : Prop :=
  match s.readers[i]? with
  | some .contending => s.consumer.locks = false
  | some (.reading _) => True
  | some (.notifying _) => True
  | _ => False

/-! ## the consumer -/

def hasNext : Bool := !s.dataQueue.isEmpty || decide (s.threadPos < data.length)

def next : Except String (Iterator T) :=
  if s.dataQueue = [] ∧ data.length ≤ s.threadPos then .error "Data iterator is already at end"
  else .ok { s with consumer := .looping [] }

/-- the predicate of `consumerCV_.wait`, which grows the queue at every fifth failure -/
def test (curPos numAttempts : Nat) (batch : List T) : Iterator T :=
  match s.find curPos with
  | some _ => { s with consumer := .getting curPos batch }
  | none =>
    { s with
      maxQueueSize := if (numAttempts + 1) % 5 = 0 then s.maxQueueSize * 3 / 2 else s.maxQueueSize
      consumer := .asleep curPos (numAttempts + 1) batch }

/-- the head of the loop: the next position, or the return of the batch -/
def advance (batch : List T) : Iterator T :=
  if s.pos < data.length ∧ batch.length < batchSize then
    test { s with pos := s.pos + 1 } s.pos 0 batch
  else
    { s with
      maxQueueSize := kMaxBatchesInQueue * batchSize
      readers := s.readers.map Reader.notified
      consumer := .idle
      start := s.pos
      returned := s.returned ++ [batch] }

def get (curPos : Nat) (batch : List T) : Iterator T :=
  match s.find curPos with
  | some (.value v) => { s with dataQueue := s.erase curPos, consumer := .looping (batch ++ [v]) }
  | some .exception => { s with dataQueue := s.erase curPos, consumer := .looping batch }
  | _ => s

/-- the next step of the consumer; a call of `next` that throws changes nothing -/
def consume : Iterator T :=
  match s.consumer with
  | .idle => (next data s).toOption.getD s
  | .looping batch => advance data batchSize s batch
  | .getting curPos batch => get s curPos batch
  | .woken curPos numAttempts batch => test s curPos numAttempts batch
  | .asleep _ _ _ => s

def CanConsume : Prop :=
  match s.consumer with
  | .getting curPos _ => s.find curPos ≠ some .pending
  | .asleep _ _ _ => False
  | _ => True

/-! ## interleavings -/

inductive IteratorOp
  | read (i : Nat)
  | consume
  -- spurious wakeups
  | wakeReader (i : Nat)
  | wakeConsumer
deriving DecidableEq, Repr

def iteratorSys : Sys (Iterator T) IteratorOp where
  run s
    | .read i => read data s i
    | .consume => consume data batchSize s
    | .wakeReader i => { s with readers := s.readers.set i .contending }
    | .wakeConsumer => { s with consumer := s.consumer.notified }
  ok s
    | .read i => CanRead s i
    | .consume => CanConsume s
    | .wakeReader i => s.readers[i]? = some .asleep
    | .wakeConsumer => True

/-! ## the keys of the queue -/

/-- `pos_` is one past the position that the consumer waits for -/
def At (pos threadPos length : Nat) : Caller T → Prop
  | .getting curPos _ => pos = curPos + 1 ∧ curPos < threadPos
  | .asleep curPos _ _ => pos = curPos + 1 ∧ curPos < length
  | .woken curPos _ _ => pos = curPos + 1 ∧ curPos < length
  | _ => True

/-- the keys of the queue are the positions from the consumer's to the readers', with the data of
their keys unless pending -/
structure Contiguous (s : Iterator T) : Prop where
  keys : s.dataQueue.map Prod.fst =
    List.range' (s.consumer.head s.pos) (s.threadPos - s.consumer.head s.pos)
  head_le : s.consumer.head s.pos ≤ s.threadPos
  le_length : s.threadPos ≤ data.length
  futures : ∀ e ∈ s.dataQueue, e.2 = .pending ∨ e.2 = .of data[e.1]?.join
  at_pos : At s.pos s.threadPos data.length s.consumer

@[simp] lemma head_notified (c : Caller T) (pos : Nat) : c.notified.head pos = c.head pos := by
  cases c <;> rfl

@[simp] lemma batch_notified (c : Caller T) : c.notified.batch = c.batch := by cases c <;> rfl

lemma At.notified {c : Caller T} {pos threadPos length : Nat} (h : At pos threadPos length c) :
    At pos threadPos length c.notified := by cases c <;> exact h

lemma At.mono {c : Caller T} {pos threadPos threadPos' length : Nat}
    (h : At pos threadPos length c) (ht : threadPos ≤ threadPos') : At pos threadPos' length c := by
  cases c with
  | getting curPos batch => exact ⟨h.1, Nat.lt_of_lt_of_le h.2 ht⟩
  | idle | looping => trivial
  | asleep | woken => exact h

variable {data batchSize} {s s' : Iterator T} {curPos numAttempts : Nat} {batch : List T}
  {d : Option T}

section
variable (h : Contiguous data s) (hlt : s.consumer.head s.pos < s.threadPos)
include h hlt

lemma Contiguous.front :
    ∃ f rest, s.dataQueue = (s.consumer.head s.pos, f) :: rest ∧
      rest.map Prod.fst = List.range' (s.consumer.head s.pos + 1)
        (s.threadPos - (s.consumer.head s.pos + 1)) := by
  have hk := h.keys
  have hn : s.threadPos - s.consumer.head s.pos = s.threadPos - (s.consumer.head s.pos + 1) + 1 := by
    omega
  rw [hn, range'_succ] at hk
  cases hq : s.dataQueue with
  | nil =>
    rw [hq] at hk
    exact absurd hk (by simp)
  | cons e rest =>
    rw [hq, map_cons] at hk
    obtain ⟨he, hr⟩ := List.cons.inj hk
    exact ⟨e.2, rest, by rw [← he], hr⟩

lemma Contiguous.find_front :
    ∃ f, s.find (s.consumer.head s.pos) = some f ∧ (f = .pending ∨
      f = .of data[s.consumer.head s.pos]?.join) := by
  obtain ⟨f, rest, hq, -⟩ := h.front hlt
  refine ⟨f, ?_, h.futures (_, f) (by rw [hq]; exact mem_cons_self ..)⟩
  rw [find, hq, lookup_cons_self]

lemma Contiguous.erase_front :
    (s.erase (s.consumer.head s.pos)).map Prod.fst = List.range' (s.consumer.head s.pos + 1)
      (s.threadPos - (s.consumer.head s.pos + 1)) := by
  obtain ⟨f, rest, hq, hr⟩ := h.front hlt
  rw [erase, hq, filter_cons_of_neg (by simp), filter_eq_self.mpr, hr]
  intro e he
  have hm : e.1 ∈ rest.map Prod.fst := mem_map_of_mem he
  rw [hr, mem_range'_1] at hm
  exact decide_eq_true (by omega)

end

lemma Contiguous.find_none (h : Contiguous data s) {k : Nat} (hk : s.threadPos ≤ k) :
    s.find k = none := by
  rw [find, lookup_eq_none_iff]
  intro e he
  have hm : e.1 ∈ s.dataQueue.map Prod.fst := mem_map_of_mem he
  rw [h.keys, mem_range'_1] at hm
  exact bne_iff_ne.mpr (by omega)

lemma Contiguous.length_eq (h : Contiguous data s) :
    s.dataQueue.length = s.threadPos - s.consumer.head s.pos := by
  rw [← length_map (f := Prod.fst), h.keys, length_range']

/-! ## the moves -/

def Seeking (data : List (Option T)) (batchSize : Nat) (s : Iterator T) (curPos numAttempts : Nat)
    (batch : List T) : Prop :=
  (s.consumer = .looping batch ∧ curPos = s.pos ∧ numAttempts = 0 ∧ s.pos < data.length ∧
    batch.length < batchSize) ∨
  (s.consumer = .woken curPos numAttempts batch)

/-- all that one operation can do to an iterator -/
inductive Step (data : List (Option T)) (batchSize : Nat) (s : Iterator T) : Iterator T → Prop
  | stay : Step data batchSize s s
  | finish {i : Nat} (hi : s.readers[i]? = some .contending) :
      Step data batchSize s { s with readers := s.readers.set i .done }
  | insert {i : Nat} (hi : s.readers[i]? = some .contending) (ht : s.threadPos < data.length)
      (hq : s.dataQueue.length < s.maxQueueSize) :
      Step data batchSize s
        { s with threadPos := s.threadPos + 1
                 dataQueue := s.dataQueue ++ [(s.threadPos, .pending)]
                 readers := s.readers.set i (.reading s.threadPos) }
  | sleep {i : Nat} (hi : s.readers[i]? = some .contending) (ht : s.threadPos < data.length)
      (hq : s.maxQueueSize ≤ s.dataQueue.length) :
      Step data batchSize s
        { s with consumer := s.consumer.notified, readers := s.readers.set i .asleep }
  | fulfil {i k : Nat} (hi : s.readers[i]? = some (.reading k)) :
      Step data batchSize s (fulfil data s i k)
  | notify {i k : Nat} (hi : s.readers[i]? = some (.notifying k)) :
      Step data batchSize s (notify s i)
  | wakeReader {i : Nat} (hi : s.readers[i]? = some .asleep) :
      Step data batchSize s { s with readers := s.readers.set i .contending }
  | wakeConsumer : Step data batchSize s { s with consumer := s.consumer.notified }
  | call (hc : s.consumer = .idle) (hn : ¬ (s.dataQueue = [] ∧ data.length ≤ s.threadPos)) :
      Step data batchSize s { s with consumer := .looping [] }
  | back {batch : List T} (hc : s.consumer = .looping batch)
      (he : data.length ≤ s.pos ∨ batchSize ≤ batch.length) :
      Step data batchSize s
        { s with maxQueueSize := kMaxBatchesInQueue * batchSize
                 readers := s.readers.map Reader.notified
                 consumer := .idle
                 start := s.pos
                 returned := s.returned ++ [batch] }
  | found {curPos numAttempts : Nat} {batch : List T}
      (hs : Seeking data batchSize s curPos numAttempts batch) (hlt : curPos < s.threadPos) :
      Step data batchSize s { s with pos := curPos + 1, consumer := .getting curPos batch }
  | missed {curPos numAttempts : Nat} {batch : List T}
      (hs : Seeking data batchSize s curPos numAttempts batch) (hge : s.threadPos ≤ curPos) :
      Step data batchSize s
        { s with pos := curPos + 1
                 maxQueueSize := if (numAttempts + 1) % 5 = 0 then s.maxQueueSize * 3 / 2
                   else s.maxQueueSize
                 consumer := .asleep curPos (numAttempts + 1) batch }
  | got {curPos : Nat} {batch : List T} {d : Option T} (hc : s.consumer = .getting curPos batch)
      (hd : data[curPos]? = some d) :
      Step data batchSize s
        { s with dataQueue := s.erase curPos, consumer := .looping (batch ++ d.toList) }

section
variable (hs : Seeking data batchSize s curPos numAttempts batch)
include hs

lemma Seeking.head : s.consumer.head s.pos = curPos := by
  rcases hs with ⟨hc, hp, -⟩ | hc
  · rw [hc, hp]
    rfl
  · rw [hc]
    rfl

lemma Seeking.batch_eq : s.consumer.batch = batch := by
  rcases hs with ⟨hc, -⟩ | hc <;> rw [hc] <;> rfl

end

section
variable (h : Contiguous data s)
include h

lemma Contiguous.step_test (hs : Seeking data batchSize s curPos numAttempts batch) :
    Step data batchSize s (test { s with pos := curPos + 1 } curPos numAttempts batch) := by
  by_cases hlt : curPos < s.threadPos
  · obtain ⟨f, hf, -⟩ := h.find_front (by rwa [hs.head])
    rw [hs.head] at hf
    have hf' : find { s with pos := curPos + 1 } curPos = some f := hf
    rw [test, hf']
    exact .found hs hlt
  · have hf : find { s with pos := curPos + 1 } curPos = none := h.find_none (Nat.le_of_not_lt hlt)
    rw [test, hf]
    exact .missed hs (Nat.le_of_not_lt hlt)

lemma Contiguous.step_advance (hc : s.consumer = .looping batch) :
    Step data batchSize s (advance data batchSize s batch) := by
  rw [advance]
  split
  next hlt => exact h.step_test (.inl ⟨hc, rfl, rfl, hlt⟩)
  next hlt =>
    refine .back hc ?_
    by_cases hp : data.length ≤ s.pos
    · exact .inl hp
    · exact .inr (Nat.le_of_not_lt fun hb => hlt ⟨Nat.lt_of_not_le hp, hb⟩)

lemma Contiguous.step_get (hc : s.consumer = .getting curPos batch)
    (hf : s.find curPos ≠ some .pending) : Step data batchSize s (get s curPos batch) := by
  have ha := h.at_pos
  rw [hc] at ha
  have hh : s.consumer.head s.pos = curPos := by rw [hc]; rfl
  obtain ⟨f, hfind, hval⟩ := h.find_front (by rw [hh]; exact ha.2)
  rw [hh] at hfind hval
  have hne : f ≠ .pending := fun he => hf (by rw [hfind, he])
  have hlt : curPos < data.length := Nat.lt_of_lt_of_le ha.2 h.le_length
  have hd : data[curPos]? = some data[curPos] := getElem?_eq_getElem hlt
  have hval : f = .of data[curPos] := by
    rw [hval.resolve_left hne, hd]
    rfl
  have hgot : Step data batchSize s _ := Step.got hc hd
  rw [get, hfind, hval]
  cases hv : data[curPos] with
  | none =>
    rw [hv, Option.toList_none, append_nil] at hgot
    exact hgot
  | some v =>
    rw [hv] at hgot
    exact hgot

lemma Contiguous.step_of {op : IteratorOp} (ho : (iteratorSys data batchSize).ok s op) :
    Step data batchSize s ((iteratorSys data batchSize).run s op) := by
  cases op with
  | read i =>
    show Step data batchSize s (read data s i)
    rw [read]
    split
    next hi =>
      rw [acquire]
      split
      · exact .finish hi
      next ht =>
        split
        next hq => exact .insert hi (Nat.lt_of_not_le ht) hq
        next hq => exact .sleep hi (Nat.lt_of_not_le ht) (Nat.le_of_not_lt hq)
    next k hi => exact .fulfil hi
    next k hi => exact .notify hi
    · exact .stay
  | consume =>
    show Step data batchSize s (consume data batchSize s)
    have ho : CanConsume s := ho
    rw [consume]
    rw [CanConsume] at ho
    split
    next hc =>
      rw [next]
      split
      · exact .stay
      next hn => exact .call hc hn
    next batch hc => exact h.step_advance hc
    next curPos batch hc =>
      rw [hc] at ho
      exact h.step_get hc ho
    next curPos numAttempts batch hc =>
      have ha := h.at_pos
      rw [hc] at ha
      have hs : Step data batchSize s _ := h.step_test (.inr hc)
      rwa [← ha.1] at hs
    · exact .stay
  | wakeReader i => exact .wakeReader ho
  | wakeConsumer => exact .wakeConsumer

end

/-! ## contiguity -/

lemma contiguous_new (data : List (Option T)) (numThreads batchSize : Nat) :
    Contiguous data (new numThreads batchSize) :=
  ⟨rfl, Nat.le_refl 0, Nat.zero_le _, nofun, trivial⟩

lemma Contiguous.congr (h : Contiguous data s) (hqueue : s'.dataQueue = s.dataQueue)
    (hthread : s'.threadPos = s.threadPos) (hhead : s'.consumer.head s'.pos = s.consumer.head s.pos)
    (hat : At s'.pos s'.threadPos data.length s'.consumer) : Contiguous data s' := by
  refine ⟨?_, ?_, ?_, ?_, hat⟩
  · rw [hqueue, hthread, hhead]
    exact h.keys
  · rw [hhead, hthread]
    exact h.head_le
  · rw [hthread]
    exact h.le_length
  · rw [hqueue]
    exact h.futures

lemma Contiguous.notified (h : Contiguous data s) (readers : List Reader) :
    Contiguous data { s with consumer := s.consumer.notified, readers := readers } :=
  h.congr rfl rfl (head_notified ..) h.at_pos.notified

lemma Contiguous.step (h : Contiguous data s) (hs : Step data batchSize s s') :
    Contiguous data s' := by
  cases hs with
  | stay => exact h
  | finish hi => exact h.congr rfl rfl rfl h.at_pos
  | insert hi ht hq =>
    refine ⟨?_, Nat.le_succ_of_le h.head_le, ht, ?_, h.at_pos.mono (Nat.le_succ _)⟩
    · have hle := h.head_le
      show (s.dataQueue ++ [(s.threadPos, Future.pending)]).map Prod.fst = range'
        (s.consumer.head s.pos) (s.threadPos + 1 - s.consumer.head s.pos)
      rw [map_append, h.keys, Nat.succ_sub hle, range'_concat]
      simp only [Nat.one_mul, map_singleton, Nat.add_sub_cancel' hle]
    · exact forall_mem_append.mpr ⟨h.futures, forall_mem_singleton.mpr (.inl rfl)⟩
  | sleep hi ht hq => exact h.notified _
  | @fulfil i k hi =>
    refine ⟨?_, h.head_le, h.le_length, ?_, h.at_pos⟩
    · show (s.dataQueue.map _).map Prod.fst = range' (s.consumer.head s.pos)
        (s.threadPos - s.consumer.head s.pos)
      rw [← h.keys, map_map]
      refine map_congr_left fun e _ => ?_
      show (if e.1 = k then _ else e).1 = e.1
      split
      next he => exact he.symm
      · rfl
    · refine forall_mem_map.mpr fun e he => ?_
      split
      · exact .inr rfl
      · exact h.futures e he
  | notify hi => exact h.notified _
  | wakeReader hi => exact h.congr rfl rfl rfl h.at_pos
  | wakeConsumer => exact h.notified s.readers
  | call hc hn | back hc he =>
    refine h.congr rfl rfl ?_ trivial
    rw [hc]
    rfl
  | found hs hlt => exact h.congr rfl rfl hs.head.symm ⟨rfl, hlt⟩
  | missed hs hge =>
    have ha := h.at_pos
    refine h.congr rfl rfl hs.head.symm ⟨rfl, ?_⟩
    rcases hs with ⟨hc, rfl, -, hlt, -⟩ | hc
    · exact hlt
    · rw [hc] at ha
      exact ha.2
  | @got curPos batch d hc hd =>
    have ha := h.at_pos
    have he := h.erase_front
    rw [hc] at ha he
    refine ⟨?_, ?_, h.le_length, fun e hm => h.futures e (mem_filter.mp hm).1, trivial⟩
    · show (s.erase curPos).map Prod.fst = range' s.pos (s.threadPos - s.pos)
      rw [ha.1]
      exact he ha.2
    · show s.pos ≤ s.threadPos
      rw [ha.1]
      exact ha.2

/-! ## the batches -/

def slice (data : List (Option T)) (a b : Nat) : List T := ((data.drop a).take (b - a)).filterMap id

@[simp] lemma slice_self (data : List (Option T)) (a : Nat) : slice data a a = [] := by
  rw [slice, Nat.sub_self]
  rfl

lemma slice_succ {a b : Nat} (hab : a ≤ b) (hd : data[b]? = some d) :
    slice data a (b + 1) = slice data a b ++ d.toList := by
  have hd' : (data.drop a)[b - a]? = some d := by rw [getElem?_drop, Nat.add_sub_cancel' hab, hd]
  rw [slice, slice, Nat.succ_sub hab, take_add_one, hd', filterMap_append]
  cases d <;> rfl

lemma drop_of_getElem? {b : Nat} (hd : data[b]? = some d) :
    data.drop b = d :: data.drop (b + 1) := by
  obtain ⟨hb, rfl⟩ := List.getElem?_eq_some_iff.mp hd
  exact drop_eq_getElem_cons hb

lemma cut_step {b l : Nat} (hl : l < batchSize) (hd : data[b]? = some d) :
    cut (batchSize - l) (data.drop b) =
      cut (batchSize - (l + d.toList.length)) (data.drop (b + 1)) + 1 := by
  obtain ⟨n, hn⟩ : ∃ n, batchSize - l = n + 1 := ⟨batchSize - l - 1, by omega⟩
  rw [drop_of_getElem? hd, hn]
  cases d with
  | none => rw [cut_none, Option.toList_none, length_nil, Nat.add_zero l, hn]
  | some v =>
    rw [cut_some, Option.toList_some, length_singleton]
    congr 2
    omega

/-- the batch at hand is what lies between its start and the consumer -/
structure Progress (data : List (Option T)) (batchSize : Nat) (s : Iterator T) : Prop where
  boundary : Boundary batchSize data s.start
  parts : s.returned ++ batches batchSize (data.drop s.start) = batches batchSize data
  start_le : s.start ≤ s.consumer.head s.pos
  content : s.consumer.batch = slice data s.start (s.consumer.head s.pos)
  cuts : s.consumer.head s.pos - s.start +
    cut (batchSize - s.consumer.batch.length) (data.drop (s.consumer.head s.pos)) =
      cut batchSize (data.drop s.start)
  idle : s.consumer = .idle → s.start = s.pos
  active : s.consumer ≠ .idle → s.start < data.length
  -- a position is looked for only while the batch is not full
  short : s.consumer.seeks = true → s.consumer.batch.length < batchSize

lemma progress_new (data : List (Option T)) (numThreads : Nat) (batchSize : Nat) :
    Progress data batchSize (new numThreads batchSize) := by
  refine ⟨.zero, rfl, Nat.le_refl 0, rfl, ?_, fun _ => rfl, fun h => absurd rfl h, fun h => ?_⟩
  · exact Nat.zero_add _
  · exact absurd h Bool.false_ne_true

section
variable (h : Progress data batchSize s)
include h

lemma Progress.same (hst : s'.start = s.start) (hr : s'.returned = s.returned)
    (hhead : s'.consumer.head s'.pos = s.consumer.head s.pos)
    (hbatch : s'.consumer.batch = s.consumer.batch) (hidle : s'.consumer = .idle → s.start = s'.pos)
    (hactive : s'.consumer ≠ .idle → s.consumer ≠ .idle)
    (hshort : s'.consumer.seeks → s.consumer.batch.length < batchSize) :
    Progress data batchSize s' := by
  refine ⟨hst ▸ h.boundary, ?_, ?_, ?_, ?_, hst ▸ hidle, fun hi => ?_, hbatch ▸ hshort⟩
  · rw [hr, hst, h.parts]
  · rw [hst, hhead]
    exact h.start_le
  · rw [hbatch, hst, hhead]
    exact h.content
  · rw [hhead, hst, hbatch]
    exact h.cuts
  · rw [hst]
    exact h.active (hactive hi)

lemma Progress.notified (readers : List Reader) :
    Progress data batchSize { s with consumer := s.consumer.notified, readers := readers } := by
  obtain ⟨hidle, hseeks⟩ : (s.consumer.notified = .idle ↔ s.consumer = .idle) ∧
      s.consumer.notified.seeks = s.consumer.seeks := by
    cases s.consumer <;> simp [Caller.notified, Caller.seeks]
  exact h.same rfl rfl (head_notified ..) (batch_notified _) (fun hi => h.idle (hidle.mp hi))
    (fun hi he => hi (hidle.mpr he)) fun hs => h.short (hseeks ▸ hs)

lemma Progress.seek
    (hs : Seeking data batchSize s curPos numAttempts batch) (hst : s'.start = s.start)
    (hr : s'.returned = s.returned) (hhead : s'.consumer.head s'.pos = curPos)
    (hbatch : s'.consumer.batch = batch) (hseeks : s'.consumer.seeks) :
    Progress data batchSize s' := by
  rw [← hs.head] at hhead
  rw [← hs.batch_eq] at hbatch
  refine h.same hst hr hhead hbatch (fun he => ?_) (fun _ => ?_) fun _ => ?_
  · rw [he] at hseeks
    cases hseeks
  · rcases hs with ⟨hc, -⟩ | hc <;> rw [hc] <;> simp
  · have hsh := h.short
    rcases hs with ⟨hc, -, -, -, hl⟩ | hc
    · rwa [hc]
    · rw [hc] at hsh ⊢
      exact hsh rfl

lemma Progress.back (hb : 1 ≤ batchSize)
    (hc : s.consumer = .looping batch) (he : data.length ≤ s.pos ∨ batchSize ≤ batch.length) :
    s.pos = s.start + cut batchSize (data.drop s.start) ∧
      batches batchSize (data.drop s.start) = batch :: batches batchSize (data.drop s.pos) := by
  have hlt : s.start < data.length := h.active (by rw [hc]; simp)
  have hcut := h.cuts
  have hcont := h.content
  have hle := h.start_le
  rw [hc] at hcut hcont hle
  have hzero : cut (batchSize - batch.length) (data.drop s.pos) = 0 := by
    rcases he with he | he
    · rw [drop_of_length_le he, cut_nil]
    · rw [Nat.sub_eq_zero_of_le he, cut_zero]
  have hpos : s.pos - s.start + 0 = cut batchSize (data.drop s.start) := by
    rw [← hcut, ← hzero]
    rfl
  have hle' : s.start ≤ s.pos := hle
  have hne : data.drop s.start ≠ [] := by
    rw [Ne, drop_eq_nil_iff]
    omega
  refine ⟨by omega, ?_⟩
  have hbatch : batch = slice data s.start s.pos := hcont
  rw [batches_of_ne hb hne, ← hpos, Nat.add_zero, drop_drop, Nat.add_sub_cancel' hle', hbatch]
  rfl

lemma Progress.step (hk : Contiguous data s) (hb : 1 ≤ batchSize)
    (hs : Step data batchSize s s') : Progress data batchSize s' := by
  cases hs with
  | stay => exact h
  | finish | insert | fulfil | wakeReader =>
    exact ⟨h.boundary, h.parts, h.start_le, h.content, h.cuts, h.idle, h.active, h.short⟩
  | sleep | notify => exact h.notified _
  | wakeConsumer => exact h.notified s.readers
  | call hc hn =>
    have hst := h.idle hc
    have hlen := hk.length_eq
    have hle := hk.head_le
    rw [hc] at hlen hle
    have hlt : s.start < data.length := by
      rw [hst]
      by_contra hge
      have hle' : s.pos ≤ s.threadPos := hle
      have hlen' : s.dataQueue.length = s.threadPos - s.pos := hlen
      have := hk.le_length
      exact hn ⟨length_eq_zero_iff.mp (by omega), by omega⟩
    refine ⟨h.boundary, h.parts, Nat.le_of_eq hst, ?_, ?_, fun hi => absurd hi (by simp),
      fun _ => hlt, fun hs => absurd hs Bool.false_ne_true⟩
    · show [] = slice data s.start s.pos
      rw [hst, slice_self]
    · show s.pos - s.start + cut (batchSize - 0) (data.drop s.pos) = _
      rw [← hst, Nat.sub_self, Nat.zero_add, Nat.sub_zero]
  | @back batch hc he =>
    obtain ⟨hpos, hbs⟩ := h.back hb hc he
    have hlt : s.start < data.length := h.active (by rw [hc]; simp)
    refine ⟨?_, ?_, Nat.le_refl _, ?_, ?_, fun _ => rfl, fun hi => absurd rfl hi,
      fun hs => absurd hs Bool.false_ne_true⟩
    · show Boundary batchSize data s.pos
      rw [hpos]
      exact .next h.boundary hlt
    · show s.returned ++ [batch] ++ batches batchSize (data.drop s.pos) = _
      rw [append_assoc, singleton_append, ← hbs, h.parts]
    · show [] = slice data s.pos s.pos
      rw [slice_self]
    · show s.pos - s.pos + cut (batchSize - 0) (data.drop s.pos) = cut batchSize (data.drop s.pos)
      rw [Nat.sub_self, Nat.zero_add, Nat.sub_zero]
  | found hs hlt | missed hs hge => exact h.seek hs rfl rfl rfl rfl rfl
  | @got curPos batch d hc hd =>
    have ha := hk.at_pos
    have hshort := h.short
    have hcont := h.content
    have hcut := h.cuts
    have hle := h.start_le
    have hlt : s.start < data.length := h.active (by rw [hc]; simp)
    rw [hc] at ha hshort hcont hcut hle
    have hl : batch.length < batchSize := hshort rfl
    have hle' : s.start ≤ curPos := hle
    refine ⟨h.boundary, h.parts, ?_, ?_, ?_, fun hi => absurd hi (by simp), fun _ => hlt,
      fun hs => absurd hs Bool.false_ne_true⟩
    · show s.start ≤ s.pos
      rw [ha.1]
      exact Nat.le_succ_of_le hle'
    · show batch ++ d.toList = slice data s.start s.pos
      rw [ha.1, slice_succ hle' hd]
      exact congrArg (· ++ d.toList) hcont
    · show s.pos - s.start + cut (batchSize - (batch ++ d.toList).length) (data.drop s.pos) = _
      have hstep := cut_step hl hd
      have hcut' : curPos - s.start + cut (batchSize - batch.length) (data.drop curPos) =
        cut batchSize (data.drop s.start) := hcut
      rw [length_append, ha.1, ← hcut', hstep]
      omega

end

/-! ## runs -/

/-- **Every interleaving keeps the queue contiguous and the batches in order.** -/
theorem run_invariant (hb : 1 ≤ batchSize) (numThreads : Nat) {os : List IteratorOp}
    (hl : (iteratorSys data batchSize).Legal (new numThreads batchSize) os) :
    Contiguous data ((iteratorSys data batchSize).out (new numThreads batchSize) os) ∧
      Progress data batchSize ((iteratorSys data batchSize).out (new numThreads batchSize) os) := by
  refine (iteratorSys data batchSize).invariant
    (fun s => Contiguous data s ∧ Progress data batchSize s) ?_ _
    ⟨contiguous_new data numThreads batchSize, progress_new data numThreads batchSize⟩ os hl
  intro s op hs ho
  have hstep := hs.1.step_of ho
  exact ⟨hs.1.step hstep, hs.2.step hs.1 hb hstep⟩

end Iterator
end TorchCraft.DataReader
