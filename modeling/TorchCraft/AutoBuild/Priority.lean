import TorchCraft.AutoBuild.Depbuild

/-!
# The priority of build requests

`AutoBuildTask::build` wraps the queue it finds in a call of `nodelay`, so a queue is a nest of
closures with the request made last on the outside.

* `nodelay`, `nodelayStage2`  build the thing, and squeeze in the rest of the queue if that does
  not delay the thing;
* `queueOf`  the nest over a list of requests (`runCalls_eq`: every queue is one).
-/

namespace TorchCraft.AutoBuild
open Lib List

variable {T : Type} [DecidableEq T]

abbrev Queue (T : Type) := BuildState T → Nat → Run (Bool × BuildState T)

def emptyQueue : Queue T := fun st _ => .ret (false, st)

variable (tt : TechTree T)

/-- `nodelayStage2` once the other thing has returned -/
def afterOther (thingSt : BuildState T) (thing : BuildEntry T)
    (r : Bool × BuildState T) (n : Nat) : Run (Bool × BuildState T) :=
  if r.1 then
    if r.2.frame ≥ thingSt.frame then .ret (true, thingSt)
    else (depbuild tt r.2 r.2 thing n).bind fun s =>
      if s.1 then
        if s.2.frame ≤ thingSt.frame then .ret (true, r.2) else .ret (true, thingSt)
      else .ret (true, thingSt)
  else .ret (true, thingSt)

def nodelayStage2 (st thingSt : BuildState T) (thing : BuildEntry T)
    (otherThing : Queue T) (n : Nat) : Run (Bool × BuildState T) :=
  (otherThing st n).bind fun r => afterOther tt thingSt thing r n

def nodelay (st : BuildState T) (thing : BuildEntry T) (otherThing : Queue T)
    (n : Nat) : Run (Bool × BuildState T) :=
  (depbuild tt st st thing n).bind fun r =>
    if r.1 then nodelayStage2 tt st r.2 thing otherThing n else otherThing st n

/-! ## the calls that make a queue -/

section Calls
variable (tt : TechTree T) (currentBuildState : BuildState T)

/-- an upgrade or technology that is there or on its way is not queued again -/
def skipped (type : T) : Bool :=
  !(tt.info type).isUnit && hasOrInProduction tt currentBuildState type

/-- the overloads of `AutoBuildTask::build` with a position or a callback -/
def build (queue : Queue T) (entry : BuildEntry T) : Queue T :=
  if skipped tt currentBuildState entry.type then queue
  else fun st => nodelay tt st entry queue

/-- `AutoBuildTask::build(type)`, which queues a hydralisk before a lurker -/
def buildType (queue : Queue T) (type : T) : Queue T :=
  if skipped tt currentBuildState type then queue
  else
    let queue := if type = tt.zergLurker ∧ has tt currentBuildState tt.lurkerAspect then
        build tt currentBuildState queue { type := tt.zergHydralisk }
      else queue
    fun st => nodelay tt st { type := type } queue

inductive BuildCall (T : Type) where
  | entry (e : BuildEntry T)
  | type (t : T)

def runCall (queue : Queue T) : BuildCall T → Queue T
  | .entry e => build tt currentBuildState queue e
  | .type t => buildType tt currentBuildState queue t

def runCalls (calls : List (BuildCall T)) : Queue T :=
  calls.foldl (runCall tt currentBuildState) emptyQueue

def queuedEntry (e : BuildEntry T) : List (BuildEntry T) :=
  if skipped tt currentBuildState e.type then [] else [e]

def queued : BuildCall T → List (BuildEntry T)
  | .entry e => queuedEntry tt currentBuildState e
  | .type t =>
    if skipped tt currentBuildState t then []
    else (if t = tt.zergLurker ∧ has tt currentBuildState tt.lurkerAspect then
        queuedEntry tt currentBuildState { type := tt.zergHydralisk }
      else []) ++ [{ type := t }]

end Calls

def nest (queue : Queue T) (ts : List (BuildEntry T)) : Queue T :=
  ts.foldl (fun q t st => nodelay tt st t q) queue

def queueOf (ts : List (BuildEntry T)) : Queue T := nest tt emptyQueue ts

variable {tt : TechTree T} {q : Queue T} {t : BuildEntry T} {st : BuildState T}
  {ts : List (BuildEntry T)}

lemma build_eq (cur : BuildState T) (q : Queue T) (e : BuildEntry T) :
    build tt cur q e = nest tt q (queuedEntry tt cur e) := by
  unfold build queuedEntry
  by_cases hs : skipped tt cur e.type
  · rw [if_pos hs, if_pos hs]; rfl
  · rw [if_neg hs, if_neg hs]; rfl

lemma runCall_eq (cur : BuildState T) (q : Queue T) (c : BuildCall T) :
    runCall tt cur q c = nest tt q (queued tt cur c) := by
  cases c with
  | entry e => exact build_eq cur q e
  | type t =>
    show buildType tt cur q t = nest tt q (if skipped tt cur t then [] else _)
    unfold buildType
    by_cases hs : skipped tt cur t
    · rw [if_pos hs, if_pos hs]; rfl
    · rw [if_neg hs, if_neg hs, nest, foldl_append]
      by_cases hl : t = tt.zergLurker ∧ has tt cur tt.lurkerAspect
      · simp only [if_pos hl, build_eq]; rfl
      · simp only [if_neg hl]; rfl

/-- **Every queue that calls of `build` make is a nest over the requests that were queued.** -/
theorem runCalls_eq (cur : BuildState T) (calls : List (BuildCall T)) :
    runCalls tt cur calls = queueOf tt (calls.flatMap (queued tt cur)) := by
  suffices h : ∀ q, calls.foldl (runCall tt cur) q = nest tt q (calls.flatMap (queued tt cur)) from
    h emptyQueue
  induction calls with
  | nil => exact fun q => rfl
  | cons c calls ih =>
    intro q
    rw [foldl_cons, ih, runCall_eq, flatMap_cons]
    exact (foldl_append ..).symm

lemma queueOf_snoc (ts : List (BuildEntry T)) (t : BuildEntry T) (st : BuildState T) :
    queueOf tt (ts ++ [t]) st = nodelay tt st t (queueOf tt ts) := by
  unfold queueOf nest
  rw [foldl_append]
  rfl

/-! ## what `nodelay` returns -/

lemma stable_afterOther (S : BuildState T) (thing : BuildEntry T) (r : Bool × BuildState T) :
    Stable (afterOther tt S thing r) := by
  unfold afterOther
  split
  · split
    · exact stable_const _
    · exact (stable_depbuild _ _ _).bind (fun _ => stable_const _)
  · exact stable_const _

lemma stable_nodelay (hq : ∀ st, Stable (q st)) (st : BuildState T) (thing : BuildEntry T) :
    Stable (nodelay tt st thing q) := by
  refine (stable_depbuild st st thing).bind (fun r => ?_)
  split
  · exact (hq st).bind (stable_afterOther r.2 thing)
  · exact hq st

lemma stable_queueOf (ts : List (BuildEntry T)) (st : BuildState T) :
    Stable (queueOf tt ts st) := by
  induction ts using reverseRecOn generalizing st with
  | nil => exact stable_const _
  | append_singleton ts t ih =>
    rw [queueOf_snoc]
    exact stable_nodelay ih st t

def Fails (tt : TechTree T) (st : BuildState T) (t : BuildEntry T) : Prop :=
  ∃ s, Returns (depbuild tt st st t) (false, s)

def Builds (tt : TechTree T) (st : BuildState T) (t : BuildEntry T) (S : BuildState T) : Prop :=
  Returns (depbuild tt st st t) (true, S)

lemma nodelay_of_fails (h : Fails tt st t) (r : Bool × BuildState T) :
    Returns (nodelay tt st t q) r ↔ Returns (q st) r := by
  obtain ⟨s, hs⟩ := h
  refine (returns_bind (stable_depbuild st st t)).trans ⟨?_, fun h => ⟨_, hs, h⟩⟩
  rintro ⟨a, ha, h⟩
  cases hs.unique ha
  exact h

lemma nodelay_of_builds {S : BuildState T} (h : Builds tt st t S) (r : Bool × BuildState T) :
    Returns (nodelay tt st t q) r ↔ Returns (nodelayStage2 tt st S t q) r := by
  refine (returns_bind (stable_depbuild st st t)).trans ⟨?_, fun h' => ⟨_, h, h'⟩⟩
  rintro ⟨a, ha, h'⟩
  cases h.unique ha
  exact h'

lemma nodelay_cases {r : Bool × BuildState T}
    (h : Returns (nodelay tt st t q) r) : Fails tt st t ∨ ∃ S, Builds tt st t S := by
  obtain ⟨⟨b, s⟩, hs, _⟩ := (returns_bind (stable_depbuild st st t)).mp h
  cases b with
  | false => exact Or.inl ⟨s, hs⟩
  | true => exact Or.inr ⟨s, hs⟩

lemma queueOf_builds {st st' : BuildState T} (h : Returns (queueOf tt ts st) (true, st')) :
    ∃ t ∈ ts, Builds tt st t st' := by
  induction ts using reverseRecOn with
  | nil => cases returns_const.mp h
  | append_singleton ts t ih =>
    rw [queueOf_snoc] at h
    have hrest : Returns (queueOf tt ts st) (true, st') → ∃ t' ∈ ts ++ [t], Builds tt st t' st' := by
      intro h
      obtain ⟨t', ht', hb⟩ := ih h
      exact ⟨t', mem_append_left _ ht', hb⟩
    rcases nodelay_cases h with hf | ⟨S, hS⟩
    · exact hrest ((nodelay_of_fails hf _).mp h)
    · obtain ⟨⟨b, R⟩, hother, hafter⟩ :=
        (returns_bind (stable_queueOf ts st)).mp ((nodelay_of_builds hS _).mp h)
      have hwhich : st' = S ∨ b ∧ st' = R := by
        unfold afterOther at hafter
        split at hafter
        next hb =>
          split at hafter
          · cases returns_const.mp hafter
            exact .inl rfl
          · obtain ⟨s, _, hafter⟩ := (returns_bind (stable_depbuild _ _ _)).mp hafter
            have hafter := returns_const.mp hafter
            split at hafter
            · split at hafter
              · cases hafter
                exact .inr ⟨hb, rfl⟩
              · cases hafter
                exact .inl rfl
            · cases hafter
              exact .inl rfl
        next =>
          cases returns_const.mp hafter
          exact .inl rfl
      rcases hwhich with rfl | ⟨rfl, rfl⟩
      · exact ⟨t, mem_append_right _ (mem_singleton_self t), hS⟩
      · exact hrest hother

/-! ## a queue returns -/

section
variable {rank : T → Nat} {P : T → Prop} (hr : RankedOn tt rank P)
include hr

lemma afterOther_returns (ht : P t.type)
    (S : BuildState T) (r : Bool × BuildState T) : ∃ r', Returns (afterOther tt S t r) r' := by
  unfold afterOther
  split
  · split
    · exact ⟨_, returns_const.mpr rfl⟩
    · obtain ⟨s, hs⟩ := depbuild_returns hr r.2 r.2 t ht
      have hex : ∃ r', (if s.1 then (if s.2.frame ≤ S.frame then Run.ret (true, r.2)
          else Run.ret (true, S)) else Run.ret (true, S)) = Run.ret r' := by
        split
        · split <;> exact ⟨_, rfl⟩
        · exact ⟨_, rfl⟩
      obtain ⟨r', hr'⟩ := hex
      exact ⟨r', (returns_bind (stable_depbuild _ _ _)).mpr ⟨s, hs, returns_const.mpr hr'⟩⟩
  · exact ⟨_, returns_const.mpr rfl⟩

lemma queueOf_returns
    (hb : ∀ t ∈ ts, P t.type) (st : BuildState T) : ∃ r, Returns (queueOf tt ts st) r := by
  induction ts using reverseRecOn with
  | nil => exact ⟨_, returns_const.mpr rfl⟩
  | append_singleton ts t ih =>
    have hbt := hb t (by simp)
    obtain ⟨r₀, h₀⟩ := ih (fun t' ht' => hb t' (mem_append_left _ ht'))
    rw [queueOf_snoc]
    obtain ⟨⟨b, S⟩, hS⟩ := depbuild_returns hr st st t hbt
    cases b with
    | false => exact ⟨r₀, (nodelay_of_fails ⟨S, hS⟩ _).mpr h₀⟩
    | true =>
      obtain ⟨r', h'⟩ := afterOther_returns hr hbt S r₀
      exact ⟨r', (nodelay_of_builds hS _).mpr ((returns_bind (stable_queueOf ts st)).mpr ⟨r₀, h₀, h'⟩)⟩

end

def toyRank : Toy → Nat
  | .hatchery => 1
  | .overlord => 2
  | .pool => 2
  | .zergling => 3
  | .drone => 3
  | _ => 0

lemma toyTree_ranked : Ranked toyTree toyRank := by
  have hdep : ∀ build t, Dep toyTree build t →
      (t ∈ (toyTree.info build).prerequisites ∧ t ≠ .larva) ∨
      ((toyTree.info build).builder = some t ∧ t ≠ .larva) ∨
      (build ∈ [Toy.zergling, .drone] ∧ t = .overlord) ∨
      (build ∈ [Toy.zergling, .drone, .overlord] ∧ t = .hatchery) := by
    intro build t h
    cases h with
    | prerequisite ht hl => exact Or.inl ⟨ht, hl⟩
    | supply h => revert h; cases build <;> decide +kernel
    | builder h hl => exact Or.inr (Or.inl ⟨h, hl⟩)
    | hatchery h => revert h; cases build <;> decide +kernel
  constructor
  all_goals
    intro build t h
    have h := hdep build t h
    revert h
    cases build <;> cases t <;> decide +kernel

end TorchCraft.AutoBuild
