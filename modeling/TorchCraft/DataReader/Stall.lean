import TorchCraft.DataReader.Iterator

/-!
# When a `DataReaderIterator` stalls

A reader that finds the queue full sleeps until a call of `next` returns.  If one batch uses up a
full queue because too many of its files cannot be decoded, the consumer sleeps inside of `next`
and every reader sleeps until `next` returns.

* `Watchful`  who wakes the sleepers (an invariant of every reachable iterator);
* `reaches_boundary`, `reaches_fill`, `reaches_sleep`, `reaches_drain`  a schedule that stalls.
-/

namespace TorchCraft.DataReader
open TorchCraft.Lib
open List

namespace Iterator
variable {T : Type*} {data : List (Option T)} {batchSize i : Nat} {s : Iterator T}

/-- the consumer waits in `next` and every reader waits for space -/
def Stuck (s : Iterator T) : Prop :=
  (∃ curPos numAttempts batch, s.consumer = .asleep curPos numAttempts batch) ∧
    ∀ r ∈ s.readers, r = .asleep

/-- wherever a batch begins, a full queue is a whole batch or reaches the end of the data -/
def Fed (batchSize : Nat) (data : List (Option T)) : Prop :=
  ∀ p, Boundary batchSize data p → p + kMaxBatchesInQueue * batchSize < data.length →
    batchSize ≤ (slice data p (p + kMaxBatchesInQueue * batchSize)).length

/-! ## who wakes the sleepers -/

structure Watchful (batchSize : Nat) (s : Iterator T) : Prop where
  size : kMaxBatchesInQueue * batchSize ≤ s.maxQueueSize
  -- a reader sleeps only when the readers are a full queue past the start of the batch
  sleepers : .asleep ∈ s.readers → s.start + kMaxBatchesInQueue * batchSize ≤ s.threadPos
  -- once the position of a sleeping consumer is in the queue, its reader is about to notify it
  watched : ∀ curPos numAttempts batch, s.consumer = .asleep curPos numAttempts batch →
    curPos < s.threadPos → ∃ r ∈ s.readers, r = .reading curPos ∨ r = .notifying curPos

lemma watchful_new (numThreads batchSize : Nat) :
    Watchful batchSize (new (T := T) numThreads batchSize) := by
  refine ⟨Nat.le_refl _, fun h => ?_, fun _ _ _ h => absurd h (by simp [new])⟩
  exact absurd (eq_of_mem_replicate h) (by decide)

lemma notified_watched (c : Caller T) {P : Nat → Prop} (curPos numAttempts : Nat) (batch : List T)
    (hc : c.notified = .asleep curPos numAttempts batch) : P curPos := by
  cases c <;> cases hc

lemma Watchful.sleepers_set (h : Watchful batchSize s) {r : Reader} (hr : r ≠ .asleep)
    (hm : .asleep ∈ s.readers.set i r) :
    s.start + kMaxBatchesInQueue * batchSize ≤ s.threadPos := by
  rcases mem_or_eq_of_mem_set hm with hm | he
  · exact h.sleepers hm
  · exact absurd he.symm hr

lemma mem_set_of_ne {l : List Reader} {a r b : Reader} (hi : l[i]? = some a) (hr : r ∈ l)
    (hne : r ≠ a) : r ∈ l.set i b := by
  obtain ⟨j, hj⟩ := mem_iff_getElem?.mp hr
  have hij : i ≠ j := by
    rintro rfl
    exact hne (Option.some.inj (hj.symm.trans hi))
  exact mem_iff_getElem?.mpr ⟨j, by rw [getElem?_set_ne hij, hj]⟩

lemma Watchful.watched_set (h : Watchful batchSize s) {a b : Reader} (hi : s.readers[i]? = some a)
    (ha : ∀ k, a ≠ .reading k ∧ a ≠ .notifying k) {curPos numAttempts : Nat} {batch : List T}
    (hc : s.consumer = .asleep curPos numAttempts batch) (hlt : curPos < s.threadPos) :
    ∃ r ∈ s.readers.set i b, r = .reading curPos ∨ r = .notifying curPos := by
  obtain ⟨r, hr, hrk⟩ := h.watched curPos numAttempts batch hc hlt
  refine ⟨r, mem_set_of_ne hi hr ?_, hrk⟩
  rcases hrk with rfl | rfl
  · exact (ha curPos).1.symm
  · exact (ha curPos).2.symm

lemma Watchful.step (h : Watchful batchSize s) (hk : Contiguous data s)
    (hp : Progress data batchSize s) {s' : Iterator T} (hs : Step data batchSize s s') :
    Watchful batchSize s' := by
  cases hs with
  | stay => exact h
  | finish hi | wakeReader hi =>
    exact ⟨h.size, h.sleepers_set (by decide), fun _ _ _ hc hlt => h.watched_set hi (by simp) hc hlt⟩
  | @insert i hi ht hq =>
    refine ⟨h.size, fun hm => Nat.le_succ_of_le (h.sleepers_set (by simp) hm), ?_⟩
    intro curPos numAttempts batch hc hlt
    by_cases he : curPos = s.threadPos
    · obtain ⟨hil, -⟩ := List.getElem?_eq_some_iff.mp hi
      exact ⟨.reading s.threadPos, mem_iff_getElem?.mpr ⟨i, getElem?_set_self hil⟩,
        .inl (by rw [he])⟩
    · have hlt' : curPos < s.threadPos := by
        have : curPos < s.threadPos + 1 := hlt
        omega
      exact h.watched_set hi (by simp) hc hlt'
  | sleep hi ht hq =>
    refine ⟨h.size, fun _ => ?_, notified_watched _⟩
    have hlen := hk.length_eq
    have hle := hk.head_le
    have hst := hp.start_le
    have hsz := h.size
    show s.start + kMaxBatchesInQueue * batchSize ≤ s.threadPos
    omega
  | @fulfil i k hi =>
    refine ⟨h.size, h.sleepers_set (by simp), ?_⟩
    intro curPos numAttempts batch hc hlt
    obtain ⟨r, hr, hrk⟩ := h.watched curPos numAttempts batch hc hlt
    by_cases he : r = .reading k
    · obtain ⟨hil, -⟩ := List.getElem?_eq_some_iff.mp hi
      have hk : curPos = k := by
        rcases hrk with hrk | hrk
        · exact Reader.reading.inj (hrk.symm.trans he)
        · exact absurd (hrk.symm.trans he) (by simp)
      exact ⟨.notifying k, mem_iff_getElem?.mpr ⟨i, getElem?_set_self hil⟩, .inr (by rw [hk])⟩
    · exact ⟨r, mem_set_of_ne hi hr he, hrk⟩
  | notify => exact ⟨h.size, h.sleepers_set (by decide), notified_watched _⟩
  | wakeConsumer => exact ⟨h.size, h.sleepers, notified_watched _⟩
  | call | found | got => exact ⟨h.size, h.sleepers, nofun⟩
  | back hc he =>
    refine ⟨Nat.le_refl _, fun hm => ?_, nofun⟩
    obtain ⟨r, -, hr⟩ := mem_map.mp hm
    exact absurd hr (by cases r <;> simp [Reader.notified])
  | @missed curPos numAttempts batch hs hge =>
    refine ⟨?_, h.sleepers, ?_⟩
    · have hsz := h.size
      have hgrown : s.maxQueueSize ≤ s.maxQueueSize * 3 / 2 := by omega
      show kMaxBatchesInQueue * batchSize ≤ if _ then _ else _
      split
      · exact Nat.le_trans hsz hgrown
      · exact hsz
    · intro curPos' numAttempts' batch' hc hlt
      obtain ⟨rfl, -, -⟩ := Caller.asleep.inj hc
      exact absurd hlt (Nat.not_lt.mpr hge)

lemma length_slice_le (data : List (Option T)) {a b c : Nat} (hbc : b ≤ c) :
    (slice data a b).length ≤ (slice data a c).length := by
  have hpre : (data.drop a).take (b - a) <+: (data.drop a).take (c - a) :=
    take_prefix_take_left (by omega)
  exact (hpre.filterMap id).length_le

/-- **Whoever is stuck has used up a full queue within one batch.** -/
theorem Watchful.not_stuck (h : Watchful batchSize s) (hk : Contiguous data s)
    (hp : Progress data batchSize s) (hr : s.readers ≠ []) (hf : Fed batchSize data) : ¬ Stuck s := by
  rintro ⟨⟨curPos, numAttempts, batch, hc⟩, hall⟩
  obtain ⟨r, hm⟩ := exists_mem_of_ne_nil _ hr
  have hsl := h.sleepers (by rw [← hall r hm]; exact hm)
  have hge : s.threadPos ≤ curPos := by
    by_contra hlt
    obtain ⟨r, hr, hrk⟩ := h.watched _ _ _ hc (Nat.lt_of_not_le hlt)
    rw [hall r hr] at hrk
    exact absurd hrk (by simp)
  have ha := hk.at_pos
  have hshort := hp.short
  have hcont := hp.content
  rw [hc] at ha hshort hcont
  have hb : batch.length < batchSize := hshort rfl
  have hbatch : batch = slice data s.start curPos := hcont
  have hlt : curPos < data.length := ha.2
  have hle := length_slice_le data (a := s.start)
    (show s.start + kMaxBatchesInQueue * batchSize ≤ curPos by omega)
  rw [← hbatch] at hle
  have hfed := hf s.start hp.boundary (by omega)
  omega

lemma readers_length_step {s' : Iterator T} (hs : Step data batchSize s s') :
    s'.readers.length = s.readers.length := by
  cases hs <;> simp [fulfil, notify]

lemma run_watchful (hb : 1 ≤ batchSize) {numThreads : Nat} (hn : 1 ≤ numThreads)
    {os : List IteratorOp}
    (hl : (iteratorSys data batchSize).Legal (new numThreads batchSize) os) :
    Watchful batchSize ((iteratorSys data batchSize).out (new numThreads batchSize) os) ∧
      ((iteratorSys data batchSize).out (new numThreads batchSize) os).readers ≠ [] := by
  have hinv := (iteratorSys data batchSize).invariant
    (fun s => (Contiguous data s ∧ Progress data batchSize s) ∧ Watchful batchSize s ∧
      s.readers.length = numThreads) ?_ _
    ⟨⟨contiguous_new data numThreads batchSize, progress_new data numThreads batchSize⟩,
      watchful_new numThreads batchSize, length_replicate⟩ os hl
  · refine ⟨hinv.2.1, length_pos_iff.mp ?_⟩
    rw [hinv.2.2]
    exact hn
  · intro s op hs ho
    have hstep := hs.1.1.step_of ho
    refine ⟨⟨hs.1.1.step hstep, hs.1.2.step hs.1.1 hb hstep⟩, hs.2.1.step hs.1.1 hs.1.2 hstep, ?_⟩
    rw [readers_length_step hstep]
    exact hs.2.2

/-! ## a schedule that stalls -/

section schedule
variable (data batchSize)

/-- between two calls, everything up to `p` is consumed and nothing is queued -/
def between (p : Nat) (readers : List Reader) (returned : List (List T)) : Iterator T where
  pos := p
  threadPos := p
  dataQueue := []
  maxQueueSize := kMaxBatchesInQueue * batchSize
  readers := readers
  consumer := .idle
  start := p
  returned := returned

/-- in the loop of `next`, everything up to `p` is consumed and nothing is queued -/
def within (p start : Nat) (batch : List T) (readers : List Reader) (returned : List (List T)) :
    Iterator T :=
  { between batchSize p readers returned with consumer := .looping batch, start := start }

variable {data batchSize}

lemma read_contending (hi : s.readers[i]? = some .contending) :
    read data s i = acquire data s i := by
  rw [read, hi]

lemma canRead_contending (hi : s.readers[i]? = some .contending) (hl : s.consumer.locks = false) :
    CanRead s i := by
  rw [CanRead, hi]
  exact hl

lemma acquire_insert (ht : s.threadPos < data.length) (hq : s.dataQueue.length < s.maxQueueSize) :
    acquire data s i =
      { s with threadPos := s.threadPos + 1
               dataQueue := s.dataQueue ++ [(s.threadPos, .pending)]
               readers := s.readers.set i (.reading s.threadPos) } := by
  rw [acquire, if_neg (Nat.not_le.mpr ht), if_pos hq]

lemma acquire_sleep (ht : s.threadPos < data.length) (hq : s.maxQueueSize ≤ s.dataQueue.length) :
    acquire data s i =
      { s with consumer := s.consumer.notified, readers := s.readers.set i .asleep } := by
  rw [acquire, if_neg (Nat.not_le.mpr ht), if_neg (Nat.not_lt.mpr hq)]

lemma reaches_serve {p start : Nat} {d : Option T} (hd : data[p]? = some d) {batch : List T}
    (hl : batch.length < batchSize) (readers : List Reader) (returned : List (List T)) :
    (iteratorSys data batchSize).Reaches
      (within batchSize p start batch (.contending :: readers) returned)
      (within batchSize (p + 1) start (batch ++ d.toList) (.contending :: readers) returned) := by
  obtain ⟨hp, -⟩ := List.getElem?_eq_some_iff.mp hd
  have hsize : 0 < kMaxBatchesInQueue * batchSize := Nat.mul_pos (by decide) (by omega)
  have hd' : data[p]?.join = d := by rw [hd]; rfl
  -- the consumer sleeps
  refine .head .consume ⟨p + 1, p, [], kMaxBatchesInQueue * batchSize, .contending :: readers,
    .asleep p 1 batch, start, returned⟩ trivial ?_ ?_
  · show advance data batchSize _ batch = _
    rw [advance, if_pos ⟨hp, hl⟩]
    rfl
  -- the reader gets the position, reads the file, and notifies
  refine .head (.read 0) ⟨p + 1, p + 1, [(p, .pending)], kMaxBatchesInQueue * batchSize,
      .reading p :: readers,
    .asleep p 1 batch, start, returned⟩ rfl ?_ ?_
  · exact acquire_insert hp hsize
  refine .head (.read 0) ⟨p + 1, p + 1, [(p, .of d)], kMaxBatchesInQueue * batchSize,
      .notifying p :: readers,
    .asleep p 1 batch, start, returned⟩ trivial ?_ ?_
  · show fulfil data _ 0 p = _
    simp [fulfil, hd']
  refine .head (.read 0) ⟨p + 1, p + 1, [(p, .of d)], kMaxBatchesInQueue * batchSize,
      .contending :: readers,
    .woken p 1 batch, start, returned⟩ trivial rfl ?_
  -- the consumer finds it
  refine .head .consume ⟨p + 1, p + 1, [(p, .of d)], kMaxBatchesInQueue * batchSize,
      .contending :: readers,
    .getting p batch, start, returned⟩ trivial ?_ ?_
  · show test _ p 1 batch = _
    simp [test, find]
  refine .head .consume (within batchSize (p + 1) start (batch ++ d.toList) (.contending :: readers)
    returned) ?_ ?_ (.refl _)
  · show find _ p ≠ some .pending
    cases d <;> simp [find, Future.of]
  · show get _ p batch = _
    cases d <;> simp [get, find, erase, Future.of, within, between]

variable (n : Nat)

lemma reaches_batch (start : Nat) (ds : List (Option T)) (p : Nat) (hp : data.drop p = ds)
    (batch : List T) (hl : batch.length ≤ batchSize) (returned : List (List T)) :
    ∃ batch', (iteratorSys data batchSize).Reaches
      (within batchSize p start batch (List.replicate (n + 1) .contending) returned)
      (between batchSize (p + cut (batchSize - batch.length) ds)
        (List.replicate (n + 1) .contending) (returned ++ [batch'])) := by
  induction ds generalizing p batch with
  | nil =>
    refine ⟨batch, .head .consume _ trivial ?_ (.refl _)⟩
    show advance data batchSize _ batch = _
    have hle : data.length ≤ p := drop_eq_nil_iff.mp hp
    rw [advance, if_neg fun h => absurd h.1 (Nat.not_lt.mpr hle), cut_nil]
    simp [within, between, Reader.notified]
  | cons d ds ih =>
    have hd : data[p]? = some d := by
      have h : (data.drop p)[0]? = data[p + 0]? := getElem?_drop
      rw [hp] at h
      exact h.symm
    by_cases hlt : batch.length < batchSize
    · have hds : data.drop (p + 1) = ds := by
        rw [drop_of_getElem? hd] at hp
        exact (List.cons.inj hp).2
      have hl' : (batch ++ d.toList).length ≤ batchSize := by
        rw [length_append]
        cases d with
        | none => simpa using hl
        | some v => exact hlt
      obtain ⟨batch', h⟩ := ih (p + 1) hds (batch ++ d.toList) hl'
      have hcut := cut_step hlt hd
      rw [hp, hds] at hcut
      refine ⟨batch', (reaches_serve hd hlt _ returned).trans ?_⟩
      rw [hcut, ← length_append, Nat.add_comm (cut _ _), ← Nat.add_assoc]
      exact h
    · refine ⟨batch, .head .consume _ trivial ?_ (.refl _)⟩
      show advance data batchSize _ batch = _
      rw [advance, if_neg fun h => hlt h.2, Nat.sub_eq_zero_of_le (Nat.le_of_not_lt hlt), cut_zero]
      simp [within, between, Reader.notified]

lemma reaches_boundary {p : Nat} (hp : Boundary batchSize data p) :
    ∃ returned, (iteratorSys data batchSize).Reaches (new (n + 1) batchSize)
      (between batchSize p (List.replicate (n + 1) .contending) returned) := by
  induction hp with
  | zero => exact ⟨[], .refl _⟩
  | @next p hp hlt ih =>
    obtain ⟨returned, h⟩ := ih
    obtain ⟨batch', hbatch⟩ := reaches_batch n p (data.drop p) p rfl [] (Nat.zero_le batchSize)
      returned
    refine ⟨returned ++ [batch'], h.trans (.head .consume _ trivial ?_ hbatch)⟩
    show (next data _).toOption.getD _ = _
    rw [next, if_neg fun h => absurd h.2 (Nat.not_le.mpr hlt)]
    rfl

variable (data) in
/-- the entries of `k` positions from `p` on, all of them fulfilled -/
def entries (p k : Nat) : List (Nat × Future T) :=
  (List.range' p k).map fun j => (j, .of data[j]?.join)

/-- between two calls, with `k` positions in the queue -/
def filled (data : List (Option T)) (batchSize p k : Nat) (readers : List Reader)
    (returned : List (List T)) : Iterator T :=
  { between batchSize p readers returned with threadPos := p + k, dataQueue := entries data p k }

variable (p k : Nat)

lemma entries_succ :
    entries data p (k + 1) = entries data p k ++ [(p + k, .of data[p + k]?.join)] := by
  rw [entries, range'_concat, map_append, Nat.one_mul]
  rfl

lemma entries_cons :
    entries data p (k + 1) = (p, .of data[p]?.join) :: entries data (p + 1) k := by
  rw [entries, range'_succ, map_cons]
  rfl

lemma length_entries : (entries data p k).length = k := by
  rw [entries, length_map, length_range']

lemma key_of_mem_entries {p k : Nat} {e : Nat × Future T} (he : e ∈ entries data p k) :
    p ≤ e.1 ∧ e.1 < p + k := by
  obtain ⟨j, hj, rfl⟩ := mem_map.mp he
  exact mem_range'_1.mp hj

lemma reaches_fill (hk : k ≤ kMaxBatchesInQueue * batchSize) (hlen : p + k ≤ data.length)
    (returned : List (List T)) : (iteratorSys data batchSize).Reaches
      (between batchSize p (List.replicate (n + 1) .contending) returned)
      (filled data batchSize p k (List.replicate (n + 1) .contending) returned) := by
  induction k with
  | zero => exact .refl _
  | succ k ih =>
    refine (ih (by omega) (by omega)).trans ?_
    refine .head (.read 0) ⟨p, p + k + 1, entries data p k ++ [(p + k, .pending)],
      kMaxBatchesInQueue * batchSize,
      .reading (p + k) :: replicate n .contending, .idle, p, returned⟩ rfl ?_ ?_
    · have hq : (entries data p k).length < kMaxBatchesInQueue * batchSize := by
        rw [length_entries]
        omega
      exact acquire_insert (by show p + k < data.length; omega) hq
    refine .head (.read 0) ⟨p, p + k + 1, entries data p (k + 1), kMaxBatchesInQueue * batchSize,
      .notifying (p + k) :: replicate n .contending, .idle, p, returned⟩ trivial ?_ ?_
    · show fulfil data _ 0 (p + k) = _
      have hmap : (entries data p k).map (fun e => if e.1 = p + k then
          (p + k, .of data[p + k]?.join) else e) = entries data p k := by
        refine (map_congr_left fun e he => ?_).trans (map_id _)
        have := key_of_mem_entries he
        exact if_neg (by omega)
      rw [fulfil, entries_succ]
      simp only [map_append, hmap, map_singleton, if_true]
      rfl
    exact .head (.read 0) _ trivial rfl (.refl _)

lemma reaches_sleep (m j : Nat) (hlen : p + kMaxBatchesInQueue * batchSize < data.length)
    (returned : List (List T)) : (iteratorSys data batchSize).Reaches
      (filled data batchSize p (kMaxBatchesInQueue * batchSize)
        (List.replicate j .asleep ++ List.replicate m .contending) returned)
      (filled data batchSize p (kMaxBatchesInQueue * batchSize) (List.replicate (j + m) .asleep)
        returned) := by
  induction m generalizing j with
  | zero =>
    rw [replicate_zero, append_nil]
    exact .refl _
  | succ m ih =>
    have hj : (replicate j Reader.asleep ++ replicate (m + 1) Reader.contending)[j]? =
        some .contending := by
      rw [getElem?_append_right (by simp)]
      simp [replicate_succ]
    have hset : (replicate j Reader.asleep ++
        replicate (m + 1) Reader.contending).set j .asleep =
        replicate (j + 1) .asleep ++ replicate m .contending := by
      rw [set_append_right _ _ (by simp), length_replicate, Nat.sub_self,
        replicate_succ, set_cons_zero, replicate_succ', append_assoc]
      rfl
    have hrest := ih (j + 1)
    rw [Nat.add_assoc, Nat.add_comm 1 m] at hrest
    refine .head (.read j) _ (canRead_contending hj rfl) ?_ hrest
    have hq : kMaxBatchesInQueue * batchSize ≤
        (entries data p (kMaxBatchesInQueue * batchSize)).length :=
      Nat.le_of_eq (length_entries _ _).symm
    refine (read_contending hj).trans ((acquire_sleep hlen hq).trans ?_)
    rw [← hset]
    rfl

lemma slice_cons {a b : Nat} (hab : a < b) {d : Option T} (hd : data[a]? = some d) :
    slice data a b = d.toList ++ slice data (a + 1) b := by
  have hn : b - a = b - (a + 1) + 1 := by omega
  rw [slice, slice, drop_of_getElem? hd, hn, take_succ_cons]
  cases d <;> rfl

/-- in the loop of `next`, with the `r` positions from `q` on in the queue -/
def stocked (data : List (Option T)) (batchSize q r start : Nat) (batch : List T)
    (readers : List Reader) (returned : List (List T)) : Iterator T :=
  { within batchSize q start batch readers returned with
    threadPos := q + r, dataQueue := entries data q r }

lemma reaches_take {q r start : Nat} (hq : q < data.length) {batch : List T}
    (hl : batch.length < batchSize) (readers : List Reader) (returned : List (List T)) :
    (iteratorSys data batchSize).Reaches
      (stocked data batchSize q (r + 1) start batch readers returned)
      (stocked data batchSize (q + 1) r start (batch ++ data[q].toList) readers returned) := by
  have hfind : (entries data q (r + 1)).lookup q = some (.of data[q]) := by
    rw [entries_cons, lookup_cons_self, getElem?_eq_getElem hq]
    rfl
  have herase : (entries data q (r + 1)).filter (fun e => decide (e.1 ≠ q)) =
      entries data (q + 1) r := by
    rw [entries_cons, filter_cons_of_neg (by simp), filter_eq_self]
    intro e he
    have := key_of_mem_entries he
    exact decide_eq_true (by omega)
  have hpos : q + (r + 1) = q + 1 + r := by omega
  refine .head .consume ⟨q + 1, q + (r + 1), entries data q (r + 1), kMaxBatchesInQueue * batchSize,
    readers, .getting q batch, start, returned⟩ trivial ?_ ?_
  · show advance data batchSize _ batch = _
    rw [advance, if_pos ⟨hq, hl⟩]
    show test _ q 0 batch = _
    simp [test, find, hfind, stocked, within, between]
  refine .head .consume _ ?_ ?_ (.refl _)
  · show (entries data q (r + 1)).lookup q ≠ some .pending
    rw [hfind]
    cases data[q] <;> simp [Future.of]
  · show get _ q batch = _
    rw [get, find, hfind, stocked, ← herase, ← hpos]
    cases data[q] with
    | none =>
      rw [Option.toList_none, append_nil]
      rfl
    | some v => rfl

lemma reaches_drain (q r start : Nat) (batch : List T) (readers : List Reader)
    (returned : List (List T)) (hlen : q + r ≤ data.length)
    (hl : (batch ++ slice data q (q + r)).length < batchSize) :
    (iteratorSys data batchSize).Reaches
      (stocked data batchSize q r start batch readers returned)
      (within batchSize (q + r) start (batch ++ slice data q (q + r)) readers returned) := by
  induction r generalizing q batch with
  | zero =>
    rw [Nat.add_zero, slice_self, append_nil]
    exact .refl _
  | succ r ih =>
    have hq : q < data.length := by omega
    have hpos : q + (r + 1) = q + 1 + r := by omega
    have hcons := slice_cons (show q < q + 1 + r by omega) (getElem?_eq_getElem hq)
    rw [hpos, hcons, ← append_assoc] at hl ⊢
    have hlt : batch.length < batchSize := by
      rw [length_append, length_append] at hl
      omega
    exact (reaches_take hq hlt readers returned).trans
      (ih (q + 1) (batch ++ data[q].toList) (by omega) hl)

/-- **A batch that uses up a full queue leads to a stall.** -/
theorem reaches_stuck {p : Nat} (hp : Boundary batchSize data p)
    (hlen : p + kMaxBatchesInQueue * batchSize < data.length)
    (hl : (slice data p (p + kMaxBatchesInQueue * batchSize)).length < batchSize) :
    ∃ s, (iteratorSys data batchSize).Reaches (new (n + 1) batchSize) s ∧ Stuck s := by
  obtain ⟨returned, h₁⟩ := reaches_boundary n hp
  have h₂ := reaches_fill n p (kMaxBatchesInQueue * batchSize) (Nat.le_refl _)
    (Nat.le_of_lt hlen) returned
  have h₃ := reaches_sleep p (n + 1) 0 hlen returned
  rw [Nat.zero_add] at h₃
  have h₄ := reaches_drain p (kMaxBatchesInQueue * batchSize) p [] (replicate (n + 1) .asleep)
    returned (Nat.le_of_lt hlen) hl
  refine ⟨⟨p + kMaxBatchesInQueue * batchSize + 1, p + kMaxBatchesInQueue * batchSize, [],
      kMaxBatchesInQueue * batchSize, replicate (n + 1) .asleep,
      .asleep (p + kMaxBatchesInQueue * batchSize) 1
        ([] ++ slice data p (p + kMaxBatchesInQueue * batchSize)), p, returned⟩, ?_,
    ⟨_, _, _, rfl⟩, fun r hr => eq_of_mem_replicate hr⟩
  refine h₁.trans (h₂.trans (h₃.trans ?_))
  refine .head .consume _ trivial ?_ (h₄.trans (.head .consume _ trivial ?_ (.refl _)))
  · show (next data _).toOption.getD _ = _
    rw [next, if_neg fun h => absurd h.2 (Nat.not_le.mpr hlen)]
    rfl
  · show advance data batchSize _ _ = _
    rw [advance, if_pos ⟨hlen, hl⟩]
    rfl

end schedule

/-! ## the result -/

lemma hasNext_iff (hk : Contiguous data s) (hi : s.consumer = .idle) :
    hasNext data s ↔ s.pos < data.length := by
  have hlen := hk.length_eq
  have hle := hk.head_le
  have hle' := hk.le_length
  rw [hi] at hlen hle
  have hlen' : s.dataQueue.length = s.threadPos - s.pos := hlen
  have hhead : s.pos ≤ s.threadPos := hle
  rw [hasNext, Bool.or_eq_true, Bool.not_eq_true', decide_eq_true_iff, isEmpty_eq_false_iff,
    ← length_pos_iff]
  omega

lemma Progress.flatten_returned (hp : Progress data batchSize s) (hb : 1 ≤ batchSize) :
    s.returned.flatten = (data.take s.start).filterMap id := by
  have h := congrArg flatten hp.parts
  rw [flatten_append, batches_flatten hb, batches_flatten hb] at h
  have hsplit : data.filterMap id =
      (data.take s.start).filterMap id ++ (data.drop s.start).filterMap id := by
    rw [← filterMap_append, take_append_drop]
  rw [hsplit] at h
  exact append_cancel_right h

/-- **`DataReaderIterator` delivers every file once and in order, and when it stalls**: never
exactly if, wherever a batch begins with more than a full queue of files to come, a full queue of
files completes it. -/
theorem delivers_iff (decode : String → Option T) (pathPrefix : String) (paths : List String)
    (batchSize : Nat) (hb : 1 ≤ batchSize) (numThreads : Nat) (hn : 1 ≤ numThreads) :
    let data := files decode pathPrefix paths
    let Y := iteratorSys data batchSize
    (∀ os, Y.Legal (new numThreads batchSize) os →
      let s := Y.out (new numThreads batchSize) os
      s.returned <+: batches batchSize data ∧ (batches batchSize data).flatten = data.filterMap id ∧
      (∀ b ∈ (batches batchSize data).dropLast, b.length = batchSize) ∧
      (s.consumer = .idle → s.returned.flatten = (data.take s.pos).filterMap id ∧
        (hasNext data s = true ↔ s.pos < paths.length))) ∧
    ((∀ os, Y.Legal (new numThreads batchSize) os → ¬ Stuck (Y.out (new numThreads batchSize) os)) ↔
      Fed batchSize data) := by
  intro data Y
  refine ⟨fun os hl => ?_, fun h p hp hlen => ?_, fun hf os hl => ?_⟩
  · obtain ⟨hk, hp⟩ := run_invariant hb numThreads hl
    refine ⟨⟨_, hp.parts⟩, batches_flatten hb data, fun b hm => length_of_mem_dropLast hb data hm, ?_⟩
    intro hi
    refine ⟨?_, ?_⟩
    · rw [hp.flatten_returned hb, hp.idle hi]
    · rw [hasNext_iff hk hi]
      show _ < (paths.map _).length ↔ _
      rw [length_map]
  · by_contra hlt
    obtain ⟨n, rfl⟩ := Nat.exists_eq_add_of_le' hn
    obtain ⟨s, ⟨os, hl, rfl⟩, hstuck⟩ := reaches_stuck n hp hlen (Nat.lt_of_not_le hlt)
    exact h os hl hstuck
  · obtain ⟨hk, hp⟩ := run_invariant hb numThreads hl
    obtain ⟨hw, hr⟩ := run_watchful hb hn hl
    exact hw.not_stuck hk hp hr hf

/-- all files but the first can be decoded -/
def notFirst (path : String) : Option String := if path = "a" then none else some path

theorem delivers_iff_six :
    let data := files notFirst "" ["a", "b", "c", "d", "e", "f"]
    Fed 1 data ∧ ∀ os, (iteratorSys data 1).Legal (new 1 1) os →
      ¬ Stuck ((iteratorSys data 1).out (new 1 1) os) := by
  intro data
  have hf : Fed 1 data := by
    intro p _ hlen
    change p + 4 < 6 at hlen
    obtain rfl | rfl : p = 0 ∨ p = 1 := by omega
    · decide
    · decide
  exact ⟨hf, (delivers_iff notFirst "" _ 1 (by decide) 1 (by decide)).2.mpr hf⟩

/-- only the last of five files can be decoded -/
def fifth (path : String) : Option Nat := if path = "e" then some 5 else none

/-- with one reader and batches of one, four files that cannot be decoded and a fifth one stall the
iterator -/
theorem stalls_on_undecodable :
    ∃ os, (iteratorSys (files fifth "" ["a", "b", "c", "d", "e"]) 1).Legal (new 1 1) os ∧
      Stuck ((iteratorSys (files fifth "" ["a", "b", "c", "d", "e"]) 1).out (new 1 1) os) := by
  have h : ∃ s, (iteratorSys (files fifth "" ["a", "b", "c", "d", "e"]) 1).Reaches (new 1 1) s ∧
      Stuck s := reaches_stuck 0 .zero (by decide) (by decide)
  obtain ⟨s, ⟨os, hl, rfl⟩, hs⟩ := h
  exact ⟨os, hl, hs⟩

end Iterator
end TorchCraft.DataReader
