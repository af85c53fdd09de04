import TorchCraft.DataReader.Iterator

/-!
# `common::DataReaderTransform`

A worker thread takes the batches of a `DataReaderIterator`, applies a function to each and puts the
results into a queue of at most `kMaxResultsInQueue`; the consumer calls `next` when `hasNext` has
returned true.

* `begin`, `fetch`, `push`  the steps of the worker;
* `hasNext`, `next`, `take`  the steps of the consumer;
* `Handed`  the invariant of every reachable transform.

The batches are those of the iterator (`Lib.batches`); `fetch` is a step that happens when
`it_->next()` returns.
-/

namespace TorchCraft.DataReader
open TorchCraft.Lib List

namespace Transform

def kMaxResultsInQueue : Nat := 4

inductive Worker (R : Type*)
  -- in front of the first `it_->hasNext()`
  | starting
  -- in `fn_(it_->next())`, without the lock
  | fetching
  -- in front of the lock, or in `prodCV_.wait`, with a result
  | holding (result : R)
  | exited
deriving DecidableEq, Repr

inductive Caller
  | idle
  -- `hasNext` has returned true
  | permitted
  -- in `consumerCV_.wait`
  | waiting
  -- it has called the destructor
  | gone
deriving DecidableEq, Repr

def Worker.held {R : Type*} : Worker R → List R
  | .holding result => [result]
  | _ => []

end Transform
open Transform

/-- `it` are the batches that `it_` has left, `results` what `next` has returned -/
structure Transform (B R : Type*) where
  it : List B
  queue : List R
  done : Bool
  worker : Transform.Worker R
  consumer : Transform.Caller
  results : List R

namespace Transform
variable {B R : Type*}

def new (batches : List B) : Transform B R where
  it := batches
  queue := []
  done := false
  worker := .starting
  consumer := .idle
  results := []

/-! ## the worker -/

variable (s : Transform B R)

def loop : Transform B R :=
  if s.it.isEmpty then { s with done := true, worker := .exited }
  else { s with worker := .fetching }

def fetch (fn : B → R) (s : Transform B R) : Transform B R :=
  match s.it with
  | [] => s
  | batch :: it => { s with it := it, worker := .holding (fn batch) }

def push : Transform B R :=
  match s.worker with
  | .holding result =>
    if s.done then { s with worker := .exited }
    else loop { s with queue := s.queue ++ [result] }
  | _ => s

/-! ## the consumer -/

def hasNext : Bool := !(s.queue.isEmpty && s.done)

def pop : Transform B R :=
  match s.queue with
  | [] => s
  | result :: queue =>
    { s with queue := queue, results := s.results ++ [result], consumer := .idle }

/-- `next`: it throws, returns a result, or waits -/
def next : Except String (Transform B R) :=
  if s.queue.isEmpty && s.done then .error "Data iterator is already at end"
  else if s.queue.isEmpty then .ok { s with consumer := .waiting }
  else .ok (pop s)

/-! ## interleavings -/

inductive TransformOp
  | loop
  | fetch
  | push
  | hasNext
  | next
  | take
  | destroy
deriving DecidableEq, Repr

/-- the consumer calls `next` only after `hasNext` returned true -/
def transformSys (fn : B → R) : Sys (Transform B R) TransformOp where
  run s
    | .loop => loop s
    | .fetch => fetch fn s
    | .push => push s
    | .hasNext => { s with consumer := if hasNext s then .permitted else .idle }
    | .next => (next s).toOption.getD { s with consumer := .idle }
    | .take => pop s
    | .destroy => { s with done := true, consumer := .gone }
  ok s
    | .loop => s.worker = .starting
    | .fetch => s.worker = .fetching
    | .push => s.worker.held ≠ [] ∧ (s.done = true ∨ s.queue.length < kMaxResultsInQueue)
    | .hasNext => s.consumer = .idle
    | .next => s.consumer = .permitted
    | .take => s.consumer = .waiting ∧ s.queue ≠ []
    | .destroy => s.consumer = .idle

/-! ## the invariant -/

def Worker.Due : Prop :=
  match s.worker with
  | .starting => True
  | .fetching => s.it ≠ []
  | .holding _ => True
  | .exited => s.done = true

structure Handed (fn : B → R) (batches : List B) (s : Transform B R) : Prop where
  order : s.results ++ s.queue <+: batches.map fn
  -- no result is lost before the destructor runs
  all : s.consumer ≠ .gone →
    s.results ++ s.queue ++ s.worker.held ++ s.it.map fn = batches.map fn
  due : Worker.Due s
  done : s.consumer ≠ .gone → s.done = true → s.worker = .exited ∧ s.it = []
  starting : s.worker = .starting → s.it = batches
  gone : s.consumer = .gone → s.done = true

lemma handed_new (fn : B → R) (batches : List B) : Handed fn batches (new batches) :=
  ⟨ nil_prefix, fun _ => rfl, trivial, fun _ h => absurd h (by simp [new]), fun _ => rfl,
    fun h => absurd h (by simp [new])⟩

section step
variable {fn : B → R} {batches : List B} {s : Transform B R}

lemma handed_loop (ho : s.results ++ s.queue <+: batches.map fn)
    (ha : s.consumer ≠ .gone → s.results ++ s.queue ++ s.it.map fn = batches.map fn)
    (hd : s.consumer ≠ .gone → s.done = false) (hg : s.consumer = .gone → s.done) :
    Handed fn batches (loop s) := by
  rw [loop]
  split
  next hit =>
    have hnil : s.it = [] := List.isEmpty_iff.mp hit
    refine ⟨ho, fun hg => ?_, rfl, fun _ _ => ⟨rfl, hnil⟩, fun h => absurd h (by simp),
      fun _ => rfl⟩
    show s.results ++ s.queue ++ [] ++ s.it.map fn = batches.map fn
    rw [append_nil]
    exact ha hg
  next hit =>
    refine ⟨ho, fun hg => ?_, fun h => hit (List.isEmpty_iff.mpr h), fun hg h => ?_,
      fun h => absurd h (by simp), hg⟩
    · show s.results ++ s.queue ++ [] ++ s.it.map fn = batches.map fn
      rw [append_nil]
      exact ha hg
    · exact absurd ((hd hg).symm.trans h) (by decide)

lemma Handed.caller (h : Handed fn batches s) (hg : s.consumer ≠ .gone) {c : Caller}
    (hc : c ≠ .gone) : Handed fn batches { s with consumer := c } :=
  ⟨h.order, fun _ => h.all hg, h.due, fun _ => h.done hg, h.starting, fun h => absurd h hc⟩

lemma Handed.pop (h : Handed fn batches s) (hg : s.consumer ≠ .gone) :
    Handed fn batches (pop s) := by
  rw [Transform.pop]
  split
  · exact h
  next result queue hq =>
    have ho := h.order
    have ha := h.all hg
    rw [hq] at ho ha
    have hmove : s.results ++ [result] ++ queue = s.results ++ result :: queue := by simp
    refine ⟨?_, fun _ => ?_, h.due, fun _ => h.done hg, h.starting, fun h => absurd h (by simp)⟩
    · show s.results ++ [result] ++ queue <+: batches.map fn
      rw [hmove]
      exact ho
    · show s.results ++ [result] ++ queue ++ s.worker.held ++ s.it.map fn = batches.map fn
      rw [hmove]
      exact ha

lemma next_cases (s : Transform B R) :
    (s.queue = [] ∧ s.done ∧
      (next s).toOption.getD { s with consumer := .idle } = { s with consumer := .idle }) ∨
    (s.queue = [] ∧ s.done = false ∧
      (next s).toOption.getD { s with consumer := .idle } = { s with consumer := .waiting }) ∨
    (s.queue ≠ [] ∧ (next s).toOption.getD { s with consumer := .idle } = pop s) := by
  rw [next]
  cases hq : s.queue with
  | nil =>
    cases hd : s.done with
    | true => exact .inl ⟨rfl, rfl, rfl⟩
    | false => exact .inr (.inl ⟨rfl, rfl, rfl⟩)
  | cons result queue => exact .inr (.inr ⟨by simp, rfl⟩)

lemma holding_of_held (h : s.worker.held ≠ []) : ∃ result, s.worker = .holding result := by
  cases hw : s.worker with
  | holding result => exact ⟨result, rfl⟩
  | _ =>
    rw [hw] at h
    exact absurd rfl h

lemma push_holding {result : R} (hw : s.worker = .holding result) :
    push s = if s.done then { s with worker := .exited }
      else loop { s with queue := s.queue ++ [result] } := by
  rw [push, hw]

lemma Handed.push (h : Handed fn batches s) {result : R} (hw : s.worker = .holding result) :
    Handed fn batches (push s) := by
  have ha := h.all
  have hd := h.done
  rw [hw] at ha hd
  rw [push_holding hw]
  split
  next hdone =>
    have hgone : s.consumer = .gone := by
      by_contra hg
      exact absurd (hd hg hdone).1 (by simp)
    exact ⟨h.order, fun hg => absurd hgone hg, hdone, fun hg => absurd hgone hg,
      fun h => absurd h (by simp), fun _ => hdone⟩
  next hdone =>
    have hng : s.consumer ≠ .gone := fun hg => hdone (h.gone hg)
    have hall : s.results ++ (s.queue ++ [result]) ++ s.it.map fn = batches.map fn := by
      rw [← append_assoc s.results]
      exact ha hng
    exact handed_loop ⟨_, hall⟩ (fun _ => hall) (fun _ => Bool.eq_false_iff.mpr hdone)
      (fun hg => absurd hg hng)

lemma Handed.step (h : Handed fn batches s) (op : TransformOp) (ho : (transformSys fn).ok s op) :
    Handed fn batches ((transformSys fn).run s op) := by
  cases op with
  | loop =>
    have hw : s.worker = .starting := ho
    have ha := h.all
    have hd := h.done
    rw [hw] at ha hd
    refine handed_loop h.order (fun hg => ?_) (fun hg => ?_) h.gone
    · rw [← ha hg]
      show _ = s.results ++ s.queue ++ [] ++ s.it.map fn
      rw [append_nil]
    · rw [Bool.eq_false_iff]
      exact fun hdone => absurd (hd hg hdone).1 (by simp)
  | fetch =>
    have hw : s.worker = .fetching := ho
    have ha := h.all
    have hd := h.done
    rw [hw] at ha hd
    show Handed fn batches (fetch fn s)
    rw [fetch]
    split
    · exact h
    next batch it hit =>
      rw [hit] at ha
      refine ⟨h.order, fun hg => ?_, trivial, fun hg hdone => ?_, fun h => absurd h (by simp), h.gone⟩
      · rw [← ha hg]
        show s.results ++ s.queue ++ [fn batch] ++ it.map fn =
          s.results ++ s.queue ++ [] ++ (batch :: it).map fn
        simp
      · exact absurd (hd hg hdone).1 (by simp)
  | push =>
    obtain ⟨result, hw⟩ := holding_of_held ho.1
    exact h.push hw
  | hasNext =>
    have hi : s.consumer = .idle := ho
    refine h.caller (by rw [hi]; simp) ?_
    split <;> simp
  | next =>
    have hi : s.consumer = .permitted := ho
    have hg : s.consumer ≠ .gone := by rw [hi]; simp
    show Handed fn batches ((next s).toOption.getD { s with consumer := .idle })
    rcases next_cases s with ⟨-, -, he⟩ | ⟨-, -, he⟩ | ⟨-, he⟩
    · rw [he]
      exact h.caller hg (by simp)
    · rw [he]
      exact h.caller hg (by simp)
    · rw [he]
      exact h.pop hg
  | take => exact h.pop (by rw [ho.1]; simp)
  | destroy =>
    have hdue := h.due
    refine ⟨h.order, fun hg => absurd rfl hg, ?_, fun hg => absurd rfl hg, h.starting, fun _ => rfl⟩
    show Worker.Due { s with done := true, consumer := .gone }
    rw [Worker.Due] at hdue ⊢
    cases hw : s.worker with
    | starting => trivial
    | fetching =>
      rw [hw] at hdue
      exact hdue
    | holding result => trivial
    | exited => rfl

end step

variable {s : Transform B R}

lemma Handed.run {fn : B → R} {batches : List B} (h : Handed fn batches s)
    {os : List TransformOp} (hl : (transformSys fn).Legal s os) :
    Handed fn batches ((transformSys fn).out s os) :=
  (transformSys fn).invariant (Handed fn batches) (fun _ op hs ho => hs.step op ho) s h os hl

/-! ## the hand-over at the end -/

def Stranded (s : Transform B R) : Prop :=
  s.done = true ∧ s.worker = .exited ∧ s.consumer = .waiting ∧ s.queue = []

def Awaited (s : Transform B R) : Prop :=
  s.consumer = .waiting → s.worker ≠ .exited ∨ s.queue ≠ []

lemma awaited_pop (hq : s.queue ≠ []) : Awaited (pop s) := by
  intro hc
  rw [pop] at hc
  split at hc
  next hn => exact absurd hn hq
  · exact absurd hc (by simp)

/-- a worker that has batches exits only behind a result -/
lemma Awaited.step {fn : B → R} {batches : List B} (hb : batches ≠ [])
    (h : Awaited s) (hh : Handed fn batches s) (op : TransformOp) (ho : (transformSys fn).ok s op) :
    Awaited ((transformSys fn).run s op) := by
  cases op with
  | loop =>
    have hit : ¬ s.it.isEmpty := by
      rw [hh.starting ho, List.isEmpty_iff]
      exact hb
    intro _
    show (loop s).worker ≠ .exited ∨ _
    rw [loop, if_neg hit]
    exact .inl (by simp)
  | fetch =>
    show Awaited (fetch fn s)
    rw [fetch]
    split
    · exact h
    · exact fun _ => .inl (by simp)
  | push =>
    obtain ⟨result, hw⟩ := holding_of_held ho.1
    show Awaited (push s)
    rw [push_holding hw]
    split
    next hdone =>
      -- only the destructor sets `done_` before the worker exits
      intro hc
      have hc' : s.consumer = .waiting := hc
      have hex := (hh.done (by rw [hc']; simp) hdone).1
      exact absurd (hw.symm.trans hex) (by simp)
    · refine fun _ => .inr ?_
      rw [loop]
      split <;> simp
  | hasNext =>
    intro hc
    have hc' : (if hasNext s then Caller.permitted else .idle) = .waiting := hc
    split at hc' <;> simp at hc'
  | next =>
    show Awaited ((next s).toOption.getD { s with consumer := .idle })
    rcases next_cases s with ⟨-, -, he⟩ | ⟨-, hd, he⟩ | ⟨hq, he⟩
    · rw [he]
      exact fun hc => absurd hc (by simp)
    · rw [he]
      refine fun _ => .inl fun hw => ?_
      have hdue := hh.due
      have hw' : s.worker = .exited := hw
      rw [Worker.Due, hw'] at hdue
      exact absurd (hd.symm.trans hdue) (by decide)
    · rw [he]
      exact awaited_pop hq
  | take => exact awaited_pop ho.2
  | destroy => exact fun hc => absurd hc (by simp [transformSys])

/-- with no batch at all, `hasNext` can be asked before the worker has found out -/
def strandedRun : List TransformOp := [.hasNext, .next, .loop]

/-- **The results of a `DataReaderTransform`** are those of the first batches, in order and each
once.  The consumer never waits for a worker that has finished exactly if there is a path at all. -/
theorem transform_iff {T : Type*} (decode : String → Option T) (pathPrefix : String)
    (paths : List String) (batchSize : Nat) (hb : 1 ≤ batchSize) (fn : List T → R) :
    let bs := batches batchSize (files decode pathPrefix paths)
    let Y := transformSys fn
    (∀ os, Y.Legal (new bs) os →
      let s := Y.out (new bs) os
      s.results <+: bs.map fn ∧
        (s.consumer ≠ .gone → hasNext s = false → s.results = bs.map fn)) ∧
    ((∀ os, Y.Legal (new bs) os → ¬ Stranded (Y.out (new bs) os)) ↔ paths ≠ []) := by
  intro bs Y
  have hbs : bs = [] ↔ paths = [] := (batches_eq_nil hb).trans map_eq_nil_iff
  refine ⟨fun os hl => ?_, fun h hp => ?_, fun hp os hl hs => ?_⟩
  · have hh := (handed_new fn bs).run hl
    refine ⟨(List.prefix_append _ _).trans hh.order, fun hg hn => ?_⟩
    rw [hasNext, Bool.not_eq_false', Bool.and_eq_true, List.isEmpty_iff] at hn
    have ha := hh.all hg
    obtain ⟨hw, hit⟩ := hh.done hg hn.2
    rw [hn.1, hw, hit] at ha
    simpa [Worker.held] using ha
  · have hnil : bs = [] := hbs.mpr hp
    refine h strandedRun ?_ ?_
    · rw [hnil]
      exact ⟨rfl, rfl, rfl, trivial⟩
    · rw [hnil]
      exact ⟨rfl, rfl, rfl, rfl⟩
  · have hne : bs ≠ [] := fun he => hp (hbs.mp he)
    have hinv := Y.invariant (fun s => Handed fn bs s ∧ Awaited s)
      (fun s op h ho => ⟨h.1.step op ho, h.2.step hne h.1 op ho⟩) (new bs)
      ⟨handed_new fn bs, fun hc => absurd hc (by simp [new])⟩ os hl
    rcases hinv.2 hs.2.2.1 with hw | hq
    · exact hw hs.2.1
    · exact hq hs.2.2.2

/-- with one path, the same steps leave the worker with a batch for the consumer -/
theorem transform_iff_single :
    let bs := batches 1 (files (some : String → Option String) "" ["a"])
    (transformSys length).Legal (new bs) strandedRun ∧
      ¬ Stranded ((transformSys length).out (new bs) strandedRun) := by
  intro bs
  have hl : (transformSys length).Legal (new bs) strandedRun := ⟨rfl, rfl, rfl, trivial⟩
  exact ⟨hl, (transform_iff some "" ["a"] 1 (by decide) length).2.mpr (by decide) _ hl⟩

/-- without a path, `hasNext` returns true, `next` waits, and the worker exits -/
theorem stranded_without_paths :
    let bs := batches 1 (files (some : String → Option String) "" [])
    (transformSys length).Legal (new bs) strandedRun ∧
      hasNext (new bs : Transform (List String) Nat) = true ∧
      Stranded ((transformSys length).out (new bs) strandedRun) := by
  intro bs
  have hnil : bs = [] := batches_nil 1
  rw [hnil]
  exact ⟨⟨rfl, rfl, rfl, trivial⟩, rfl, rfl, rfl, rfl, rfl⟩

end Transform
end TorchCraft.DataReader
