import Mathlib.Data.List.Pairwise
import TorchCraft.AutoBuild.Priority

/-!
# The simulation of `evaluate`

`AutoBuildTask::evaluate` imports the game as a `BuildState`, lets the build order step through a
simulated future of four minutes, and may add a macro hatchery.  What it then schedules is the
`buildOrder` of the last state.

* `Advances.queueOf`  the rule for what a queue keeps;
* `calls_advance`  what `depbuild` and `nodelay` return is reached by calls of `advance`;
* `Call`, `calls_keep`  what a sequence of calls of `advance`, `depbuild` and `nodelay` keeps;
* `Ordered`, `simulate_ordered`  the simulated build order is sorted by frame.

The number of gas workers that `evaluate` posts as a key of the blackboard, the drawing and the log
are left out.
-/

set_option linter.unusedSectionVars false

namespace TorchCraft.AutoBuild
open Lib

variable {T : Type} [DecidableEq T] {tt : TechTree T} {I : BuildState T → Prop} {n : Nat}

/-! ## counting -/

section Count
variable (tt : TechTree T) (st : BuildState T)

def larvaCount (u : BuildStateUnit T) : Int := max (min ((st.frame - u.larvaTimer).tdiv 342) 3) 0

/-- the types that give larvae; a key occurs once in `st.units` -/
def larvaTypes : List T := [tt.zergHatchery, tt.zergLair, tt.zergHive].dedup

def countUnits (type : T) : Int :=
  if type = tt.zergLarva then
    (((larvaTypes tt).flatMap st.units.list).map (larvaCount st)).sum
  else (st.units.list type).length

def countOwn (type : T) : Int :=
  (if (tt.info type).isUnit then countUnits tt st type else if has tt st type then 1 else 0) +
    countProduction st type

def countPlusProduction (type : T) : Int :=
  if type = tt.zergHatchery then
    countOwn tt st type + (countOwn tt st tt.zergLair + countOwn tt st tt.zergHive)
  else if type = tt.zergLair then countOwn tt st type + countOwn tt st tt.zergHive
  else if type = tt.zergSpire then countOwn tt st type + countOwn tt st tt.zergGreaterSpire
  else countOwn tt st type

end Count

/-! ## the simulation -/

/-- the virtual functions of a build order; the order that has been simulated so far is not theirs
to change -/
structure BuildOrder (T : Type) where
  preBuild : BuildState T → BuildState T := id
  buildStep : BuildState T → BuildState T × List (BuildCall T)
  postBuild : BuildState T → BuildState T := id
  preBuild_order : ∀ st, (preBuild st).buildOrder = st.buildOrder := by intro st; rfl
  buildStep_order : ∀ st, (buildStep st).1.buildOrder = st.buildOrder := by intro st; rfl
  postBuild_order : ∀ st, (postBuild st).buildOrder = st.buildOrder := by intro st; rfl

structure Sim (T : Type) where
  currentBuildState : BuildState T
  previousToLastState : BuildState T
  firstFrameToBuildHatchery : Int := 0

def noteHatchery (tt : TechTree T) (s : Sim T) : Int :=
  if s.firstFrameToBuildHatchery = 0 ∧ s.currentBuildState.minerals ≥ 300 ∧
      countPlusProduction tt s.currentBuildState tt.zergLarva = 0 then s.currentBuildState.frame
  else s.firstFrameToBuildHatchery

/-- the loop of `evaluate`, one unit of fuel for each `buildStep` -/
def simLoop (tt : TechTree T) (bo : BuildOrder T) (endFrame : Int) : Nat → Sim T → Run (Sim T)
  | 0, _ => .spin
  | n + 1, s =>
    if s.currentBuildState.frame < endFrame then
      let step := bo.buildStep s.currentBuildState
      (runCalls tt step.1 step.2 step.1 n).bind fun r =>
        if r.1 then simLoop tt bo endFrame n ⟨r.2, r.2, noteHatchery tt s⟩
        else .ret ⟨r.2, s.previousToLastState, noteHatchery tt s⟩
    else .ret s

/-- what `evaluate` reads from the game: `getMyState`, whose build order is empty, and the race -/
structure Game (T : Type) where
  getMyState : BuildState T
  myRace : Race
  unplanned : getMyState.buildOrder = [] := by rfl

section MacroHatchery
variable (tt : TechTree T) (g : Game T) (s : Sim T)

def wantsMacroHatchery : Bool :=
  g.getMyState.autoBuildHatcheries && decide (g.myRace = .zerg) &&
    decide (s.firstFrameToBuildHatchery ≠ 0) && decide (s.previousToLastState.minerals ≥ 300) &&
    decide (countPlusProduction tt s.previousToLastState tt.zergLarva < 3) &&
    decide (countPlusProduction tt g.getMyState tt.zergLarva < 3)

/-- a hatchery after the first six minutes is built half its build time ahead -/
def macroHatcheryFrame : Int :=
  s.firstFrameToBuildHatchery -
    if s.firstFrameToBuildHatchery > 24 * 60 * 6 then (tt.info tt.zergHatchery).buildTime.tdiv 2
    else 0

def addMacroHatchery : BuildState T :=
  if wantsMacroHatchery tt g s then
    { s.currentBuildState with
      buildOrder := emplaceProd s.currentBuildState.buildOrder (macroHatcheryFrame tt s)
        { type := tt.zergHatchery } }
  else s.currentBuildState

end MacroHatchery

/-- `evaluate` up to `targetBuildState = currentBuildState` -/
def simulate (tt : TechTree T) (bo : BuildOrder T) (g : Game T) (n : Nat) : Run (BuildState T) :=
  let st := bo.preBuild g.getMyState
  (simLoop tt bo (g.getMyState.frame + 15 * 60 * 4) n ⟨st, st, 0⟩).bind fun s =>
    .ret (addMacroHatchery tt g { s with currentBuildState := bo.postBuild s.currentBuildState })

/-! ## what a queue keeps -/

def Advances (tt : TechTree T) (st st' : BuildState T) : Prop :=
  ∃ thing endFrame r, advance tt st thing endFrame = .ok (r, st')

lemma Keeps.advances (hk : ∀ thing, Keeps tt thing I) {st st' : BuildState T}
    (h : Advances tt st st') (hI : I st) : I st' := by
  obtain ⟨thing, endFrame, r, h⟩ := h
  exact (hk thing).advance h hI

namespace Advances

variable {st : BuildState T} {r : Bool × BuildState T}

lemma restore {prevSt : BuildState T} (hp : I prevSt) (hs : I st) : I (restore prevSt st) := by
  unfold AutoBuild.restore
  split
  · exact hp
  · exact hs

lemma depLoop (hk : ∀ {a b}, Advances tt a b → I a → I b) {prevSt : BuildState T} (hp : I prevSt)
    (endFrame : Int) (n : Nat) (st : BuildState T) (thing : BuildEntry T) (hs : I st)
    (h : depLoop tt prevSt endFrame n st thing = .ret r) : I r.2 := by
  induction n generalizing st thing with
  | zero => cases h
  | succ n ih =>
    rw [AutoBuild.depLoop] at h
    cases ha : AutoBuild.advance tt st (some thing) endFrame with
    | error e => rw [ha] at h; cases h
    | ok p =>
      obtain ⟨res, st₁⟩ := p
      have h₁ : I st₁ := hk ⟨_, _, _, ha⟩ hs
      rw [ha] at h
      cases res with
      | success | builtdep => cases h; exact h₁
      | failed | timeout => cases h; exact restore hp h₁
      | needs type =>
        simp only at h
        split at h
        · cases h; exact restore hp h₁
        · split at h
          · cases h; exact restore hp h₁
          · exact ih _ _ (restore hp h₁) h

lemma depbuild (hk : ∀ {a b}, Advances tt a b → I a → I b) (hs : I st) {thing : BuildEntry T}
    (h : depbuild tt st st thing n = .ret r) : I r.2 :=
  depLoop hk hs _ n st thing hs h

lemma afterOther {S : BuildState T} (hS : I S) {thing : BuildEntry T} (hr : I r.2)
    {r' : Bool × BuildState T} (h : afterOther tt S thing r n = .ret r') : I r'.2 := by
  unfold AutoBuild.afterOther at h
  split at h
  · split at h
    · cases h; exact hS
    · obtain ⟨s, _, h⟩ := Run.bind_eq_ret.mp h
      split at h
      · split at h
        · cases h; exact hr
        · cases h; exact hS
      · cases h; exact hS
  · cases h; exact hS

lemma queueOf (hk : ∀ {a b}, Advances tt a b → I a → I b) (ts : List (BuildEntry T)) (hs : I st)
    (h : queueOf tt ts st n = .ret r) : I r.2 := by
  induction ts using List.reverseRecOn generalizing r with
  | nil => cases h; exact hs
  | append_singleton ts t ih =>
    rw [queueOf_snoc] at h
    obtain ⟨a, ha, h⟩ := Run.bind_eq_ret.mp h
    split at h
    · obtain ⟨o, ho, h⟩ := Run.bind_eq_ret.mp h
      exact afterOther (depbuild hk hs ha) (ih ho) h
    · exact ih h

lemma runCalls (hk : ∀ {a b}, Advances tt a b → I a → I b) (cur : BuildState T)
    (calls : List (BuildCall T)) (hs : I st) (h : runCalls tt cur calls st n = .ret r) : I r.2 := by
  rw [runCalls_eq] at h
  exact queueOf hk _ hs h

end Advances

/-! ## what a sequence of calls keeps -/

/-- a call that returns, with the state before and after it; what else `nodelay` tries is a queue -/
inductive Call (tt : TechTree T) : BuildState T → BuildState T → Prop where
  | advance {st st' : BuildState T} {thing : Option (BuildEntry T)} {endFrame : Int} {r : Advanced T}
    (h : advance tt st thing endFrame = .ok (r, st')) : Call tt st st'
  | depbuild {st st' : BuildState T} {thing : BuildEntry T} {b : Bool}
    (h : Returns (depbuild tt st st thing) (b, st')) : Call tt st st'
  | nodelay {st st' : BuildState T} {thing : BuildEntry T} {others : List (BuildEntry T)} {b : Bool}
    (h : Returns (nodelay tt st thing (queueOf tt others)) (b, st')) : Call tt st st'

section
variable {st st' : BuildState T}

lemma Call.advances (h : Call tt st st') : Relation.ReflTransGen (Advances tt) st st' := by
  have hk : ∀ {a b}, Advances tt a b → Relation.ReflTransGen (Advances tt) st a →
      Relation.ReflTransGen (Advances tt) st b := fun ha h => h.tail ha
  cases h with
  | advance h => exact .single ⟨_, _, _, h⟩
  | depbuild h =>
    obtain ⟨n, hn⟩ := h
    exact Advances.depbuild hk .refl (hn n le_rfl)
  | nodelay h =>
    obtain ⟨n, hn⟩ := h
    have hq := hn n le_rfl
    rw [← queueOf_snoc] at hq
    exact Advances.queueOf hk _ .refl hq

/-- **What a sequence of calls returns is reached by calls of `advance`.** -/
lemma calls_advance (h : Relation.ReflTransGen (Call tt) st st') :
    Relation.ReflTransGen (Advances tt) st st' := by
  induction h with
  | refl => exact .refl
  | tail _ hcall ih => exact ih.trans hcall.advances

lemma calls_keep (hk : ∀ thing, Keeps tt thing I) (h : Relation.ReflTransGen (Call tt) st st')
    (hI : I st) : I st' := by
  have hadv := calls_advance h
  clear h
  induction hadv with
  | refl => exact hI
  | tail _ hcall ih => exact Keeps.advances hk hcall ih

end

/-! ## the build order is sorted -/

def Ordered (order : List (Int × BuildEntry T)) : Prop := order.Pairwise (fun a b => a.1 ≤ b.1)

lemma pairwise_emplaceProd {α : Type} {l : List (Int × α)} (hl : l.Pairwise (fun a b => a.1 ≤ b.1))
    (frame : Int) (t : α) : (emplaceProd l frame t).Pairwise (fun a b => a.1 ≤ b.1) := by
  have happ : l.rdropWhile (fun e => decide (frame < e.1)) ++
      l.rtakeWhile (fun e => decide (frame < e.1)) = l := List.rdropWhile_append_rtakeWhile ..
  rw [← happ, List.pairwise_append] at hl
  obtain ⟨hfront, hback, hcross⟩ := hl
  have hlater : ∀ e ∈ l.rtakeWhile (fun e => decide (frame < e.1)), frame < e.1 := fun e he => by
    simpa using List.mem_rtakeWhile_imp he
  -- the last entry that stays in front is not later than `frame`, and the others before it
  have hearlier : ∀ e ∈ l.rdropWhile (fun e => decide (frame < e.1)), e.1 ≤ frame := by
    intro e he
    have hne : l.rdropWhile (fun e => decide (frame < e.1)) ≠ [] := List.ne_nil_of_mem he
    have hlast := List.rdropWhile_last_not (fun e => decide (frame < e.1)) l hne
    have hle : e.1 ≤ ((l.rdropWhile (fun e => decide (frame < e.1))).getLast hne).1 :=
      hfront.rel_getLast he
    exact hle.trans (by simpa using hlast)
  refine List.pairwise_append.mpr ⟨hfront, List.pairwise_cons.mpr ⟨?_, hback⟩, ?_⟩
  · exact fun e he => (hlater e he).le
  · exact fun a ha => List.forall_mem_cons.mpr ⟨hearlier a ha, hcross a ha⟩

section
variable (st : BuildState T)
include st

lemma start_buildOrder (thing : BuildEntry T) (b : T) (l : Loc T)
    (b₂ : Option Nat) : ∃ frame, (start tt st thing b l b₂).buildOrder
      = emplaceProd st.buildOrder frame thing := by
  obtain ⟨_, _, _, he⟩ := enqueue_eq tt (occupy tt st thing.type b l) thing
  refine ⟨(occupy tt st thing.type b l).frame, ?_⟩
  unfold start
  rw [(apart_consumeBuilder ..).buildOrder, (apart_noteAddon ..).buildOrder, he,
    (apart_occupy ..).buildOrder]

end

lemma keeps_ordered (thing : Option (BuildEntry T)) :
    Keeps tt thing (fun st => Ordered st.buildOrder) where
  complete st e es h _ _ := by
    rw [completeOne_buildOrder]
    exact h
  refinery st t h := pairwise_emplaceProd h _ _
  supply st t h := pairwise_emplaceProd h _ _
  start st th b addon l b₂ ex _ _ _ h := by
    obtain ⟨frame, ho⟩ := start_buildOrder st th b l b₂
    rw [ho]
    exact pairwise_emplaceProd h frame th
  tick st endFrame h := h

lemma simLoop_ordered (bo : BuildOrder T) (endFrame : Int) (n : Nat) (s : Sim T)
    (hs : Ordered s.currentBuildState.buildOrder) {s' : Sim T}
    (h : simLoop tt bo endFrame n s = .ret s') : Ordered s'.currentBuildState.buildOrder := by
  induction n generalizing s with
  | zero => cases h
  | succ n ih =>
    rw [simLoop] at h
    split at h
    · obtain ⟨r, hr, h⟩ := Run.bind_eq_ret.mp h
      have hstep : Ordered (bo.buildStep s.currentBuildState).1.buildOrder := by
        rw [bo.buildStep_order]
        exact hs
      have hr : Ordered r.2.buildOrder := Advances.runCalls (Keeps.advances keeps_ordered) _ _ hstep hr
      split at h
      · exact ih _ hr h
      · cases h
        exact hr
    · cases h
      exact hs

lemma simulate_ordered (bo : BuildOrder T) (g : Game T) {st : BuildState T}
    (h : simulate tt bo g n = .ret st) : Ordered st.buildOrder := by
  obtain ⟨s, hs, h⟩ := Run.bind_eq_ret.mp h
  have hpre : Ordered (bo.preBuild g.getMyState).buildOrder := by
    rw [bo.preBuild_order, g.unplanned]
    exact List.Pairwise.nil
  have hpost : Ordered (bo.postBuild s.currentBuildState).buildOrder := by
    rw [bo.postBuild_order]
    exact simLoop_ordered bo _ n _ hpre hs
  cases h
  unfold addMacroHatchery
  split
  · exact pairwise_emplaceProd hpost _ _
  · exact hpost

end TorchCraft.AutoBuild
