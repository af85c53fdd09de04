import Mathlib.Data.List.Nodup

/-!
# Breadth-first search

A node is taken from the front of a queue, and its neighbours are marked.  Those that were not
marked before and may be entered go to the end of the queue.

* `Front.addAll`  the marks and the queue after a node;
* `Reach`  the nodes that a search from `start` can enter;
* `Inv.pop`, `Inv.done_iff`  when the queue is empty, these nodes have been taken, and
  they and their neighbours are marked;
* `nodup_pop`  no node is taken twice;
* `taken`  the nodes in the order in which they are taken.
-/

set_option linter.unusedSectionVars false

namespace TorchCraft.Lib.Search
open List

structure Front (X : Type*) where
  seen : X → Bool
  queue : List X

section front
variable {X : Type*} [DecidableEq X] (enter : X → Bool)

def Front.add (f : Front X) (y : X) : Front X :=
  if f.seen y then f
  else ⟨Function.update f.seen y true, if enter y then f.queue ++ [y] else f.queue⟩

def Front.addAll (f : Front X) (ys : List X) : Front X := ys.foldl (Front.add enter) f

variable {enter} {f : Front X}

@[simp] lemma seen_add (y z : X) : (f.add enter y).seen z ↔ f.seen z ∨ z = y := by
  unfold Front.add
  split
  next hy => exact ⟨.inl, fun h => h.elim id fun h => h ▸ hy⟩
  next =>
    by_cases hz : z = y
    · simp [hz]
    · simp [hz]

lemma seen_addAll (enter : X → Bool) (f : Front X) (ys : List X) (z : X) :
    (f.addAll enter ys).seen z ↔ f.seen z ∨ z ∈ ys := by
  induction ys generalizing f with
  | nil => simp [Front.addAll]
  | cons y ys ih =>
    have h : (f.addAll enter (y :: ys)).seen z ↔ _ := ih (f.add enter y)
    rw [h, seen_add, mem_cons, or_assoc]

lemma queue_addAll (enter : X → Bool) (f : Front X) (ys : List X) :
    ∃ new, (f.addAll enter ys).queue = f.queue ++ new ∧ new.Nodup ∧
      ∀ y, y ∈ new ↔ y ∈ ys ∧ f.seen y = false ∧ enter y := by
  induction ys generalizing f with
  | nil => exact ⟨[], by simp [Front.addAll], nodup_nil, by simp⟩
  | cons y ys ih =>
    obtain ⟨new, hq, hn, hnew⟩ := ih (f.add enter y)
    have hseen (z : X) : (f.add enter y).seen z = false ↔ f.seen z = false ∧ z ≠ y := by
      rw [← Bool.not_eq_true, seen_add, not_or, Bool.not_eq_true]
    simp only [hseen] at hnew
    have hq : (f.addAll enter (y :: ys)).queue = (f.add enter y).queue ++ new := hq
    by_cases hy : f.seen y = false ∧ enter y
    · have hadd : (f.add enter y).queue = f.queue ++ [y] := by simp [Front.add, hy]
      refine ⟨y :: new, by rw [hq, hadd, append_assoc, singleton_append],
        nodup_cons.mpr ⟨fun h => ((hnew y).mp h).2.1.2 rfl, hn⟩, fun z => ?_⟩
      rw [mem_cons, hnew, mem_cons]
      by_cases hz : z = y
      · simp [hz, hy]
      · simp [hz]
    · have hadd : (f.add enter y).queue = f.queue := by
        unfold Front.add
        split
        · rfl
        next hs => exact if_neg fun he => hy ⟨by simpa using hs, he⟩
      refine ⟨new, by rw [hq, hadd], hn, fun z => ?_⟩
      rw [hnew, mem_cons]
      by_cases hz : z = y
      · subst hz
        exact ⟨fun h => absurd rfl h.2.1.2, fun h => absurd h.2 hy⟩
      · simp [hz]

end front

/-! ## the whole search -/

section search
variable {X : Type*} [DecidableEq X] (nbrs : X → List X) (enter : X → Bool) (start : List X)

inductive Reach : X → Prop
  | start {x : X} : x ∈ start → Reach x
  | step {x y : X} : Reach x → y ∈ nbrs x → enter y = true → Reach y

/-- the nodes `done` have been taken from the queue -/
structure Inv (done : List X) (f : Front X) : Prop where
  reached : ∀ x ∈ done ++ f.queue, Reach nbrs enter start x
  started : ∀ x ∈ start, x ∈ done ++ f.queue
  entered : ∀ y, f.seen y = true → enter y = true → y ∈ done ++ f.queue
  marked : ∀ x ∈ done ++ f.queue, f.seen x = true
  seen : ∀ y, f.seen y = true ↔ y ∈ start ∨ ∃ x ∈ done, y ∈ nbrs x

variable {nbrs enter start} {done queue : List X} {seen : X → Bool} {x : X}

lemma Inv.init (h : ∀ x, seen x ↔ x ∈ start) : Inv nbrs enter start [] ⟨seen, start⟩ :=
  ⟨fun _ => .start, fun _ => id, fun y hy _ => (h y).mp hy, fun x => (h x).mpr,
    fun y => by simp [h]⟩

lemma Inv.reorder {queue' : List X} (h : Inv nbrs enter start done ⟨seen, queue⟩)
    (hq : queue'.Perm queue) : Inv nbrs enter start done ⟨seen, queue'⟩ := by
  have hmem (x : X) : x ∈ done ++ queue' ↔ x ∈ done ++ queue := (hq.append_left done).mem_iff
  exact ⟨fun x hx => h.reached x ((hmem x).mp hx), fun x hx => (hmem x).mpr (h.started x hx),
    fun y hy he => (hmem y).mpr (h.entered y hy he),
    fun x hx => h.marked x ((hmem x).mp hx), h.seen⟩

section
variable (h : Inv nbrs enter start done ⟨seen, x :: queue⟩)
include h

lemma Inv.pop :
    Inv nbrs enter start (done ++ [x]) (Front.addAll enter ⟨seen, queue⟩ (nbrs x)) := by
  obtain ⟨new, hq, -, hnew⟩ := queue_addAll enter ⟨seen, queue⟩ (nbrs x)
  have hmem (y : X) : y ∈ done ++ [x] ++ (Front.addAll enter ⟨seen, queue⟩ (nbrs x)).queue ↔
      y ∈ done ++ x :: queue ∨ y ∈ new := by
    rw [hq]
    simp only [mem_append, mem_cons, not_mem_nil, or_false]
    tauto
  have hx : x ∈ done ++ x :: queue := mem_append_right _ (mem_cons_self ..)
  have hseen (y : X) := seen_addAll enter ⟨seen, queue⟩ (nbrs x) y
  constructor
  · intro y hy
    rcases (hmem y).mp hy with hy | hy
    · exact h.reached y hy
    · exact .step (h.reached x hx) ((hnew y).mp hy).1 ((hnew y).mp hy).2.2
  · exact fun y hy => (hmem y).mpr (.inl (h.started y hy))
  · intro y hy henter
    rw [hmem]
    cases hs : seen y with
    | true => exact .inl (h.entered y hs henter)
    | false => exact .inr ((hnew y).mpr ⟨((hseen y).mp hy).resolve_left (by simp [hs]), hs, henter⟩)
  · intro y hy
    rw [hseen]
    rcases (hmem y).mp hy with hy | hy
    · exact .inl (h.marked y hy)
    · exact .inr ((hnew y).mp hy).1
  · intro y
    rw [hseen]
    have hold := h.seen y
    simp only [mem_append, mem_singleton]
    constructor
    · rintro (hy | hy)
      · exact (hold.mp hy).imp_right fun ⟨z, hz, hyz⟩ => ⟨z, .inl hz, hyz⟩
      · exact .inr ⟨x, .inr rfl, hy⟩
    · rintro (hy | ⟨z, hz | rfl, hyz⟩)
      · exact .inl (hold.mpr (.inl hy))
      · exact .inl (hold.mpr (.inr ⟨z, hz, hyz⟩))
      · exact .inr hyz

lemma nodup_pop (hn : (done ++ x :: queue).Nodup) :
    (done ++ [x] ++ (Front.addAll enter ⟨seen, queue⟩ (nbrs x)).queue).Nodup := by
  obtain ⟨new, hq, hnodup, hnew⟩ := queue_addAll enter ⟨seen, queue⟩ (nbrs x)
  rw [hq, ← append_assoc, append_assoc done, singleton_append]
  refine hn.append hnodup fun y hy hy' => ?_
  have := h.marked y hy
  rw [((hnew y).mp hy').2.1] at this
  cases this

end

/-- **When the queue is empty, the search has been everywhere.** -/
theorem Inv.done_iff (h : Inv nbrs enter start done ⟨seen, []⟩) (x : X) :
    x ∈ done ↔ Reach nbrs enter start x := by
  have hdone : done ++ [] = done := append_nil done
  refine ⟨fun hx => h.reached x (mem_append_left _ hx), fun hx => ?_⟩
  induction hx with
  | start hx => exact hdone ▸ h.started _ hx
  | step _ hy henter ih => exact hdone ▸ h.entered _ ((h.seen _).mpr (.inr ⟨_, ih, hy⟩)) henter

/-! ## the order of the search -/

/-- the nodes taken in so many rounds -/
def taken (nbrs : X → List X) (enter : X → Bool) : Nat → Front X → List X
  | 0, _ => []
  | k + 1, f =>
    match f.queue with
    | [] => []
    | x :: queue => x :: taken nbrs enter k (Front.addAll enter ⟨f.seen, queue⟩ (nbrs x))

lemma Inv.reach_taken {f : Front X} (h : Inv nbrs enter start done f) {k : Nat} :
    ∀ x ∈ taken nbrs enter k f, Reach nbrs enter start x := by
  induction k generalizing f done with
  | zero => exact nofun
  | succ k ih =>
    obtain ⟨seen, queue⟩ := f
    cases queue with
    | nil => exact nofun
    | cons x queue => exact forall_mem_cons.mpr ⟨h.reached x (by simp), ih h.pop⟩

end search
end TorchCraft.Lib.Search
