import Mathlib.Data.Prod.Lex
import TorchCraft.AutoBuild.Counters
import TorchCraft.AutoBuild.Potential

/-!
# Simulated time

* `Timed`, `keeps_timed`  production and build order are sorted by frame;
* `decides_production`  in each decision what is in production is what was, and is later;
* `simEvaluateFor`  a build order is followed for a number of frames;
* `simBody_computes`, `finishSim_computes`  its loop ends;
* `event_order`  the whole statement.
-/

set_option linter.unusedSectionVars false

namespace TorchCraft.AutoBuild
open Lib List

variable {T : Type} [DecidableEq T] {tt : TechTree T}

/-! ## the order of events -/

/-- the production and the build order are sorted by frame -/
structure Timed (st : BuildState T) : Prop where
  production : st.production.Pairwise (fun a b => a.1 ≤ b.1)
  buildOrder : Ordered st.buildOrder

lemma pairwise_enlist {l : List (Int × T)} (hl : l.Pairwise (fun a b => a.1 ≤ b.1)) (frame : Int)
    (t : T) : (enlist tt l frame t).Pairwise (fun a b => a.1 ≤ b.1) := by
  unfold enlist
  split
  · exact pairwise_emplaceProd (pairwise_emplaceProd hl _ t) _ t
  · exact pairwise_emplaceProd hl _ t

lemma keeps_timed (thing : Option (BuildEntry T)) : Keeps tt thing Timed where
  complete st e es h hprod _ := by
    refine ⟨?_, (keeps_ordered thing).complete st e es h.buildOrder hprod ‹_›⟩
    have hsorted := h.production
    rw [hprod] at hsorted
    rw [completeOne_production]
    exact hsorted.tail
  refinery st t h := ⟨h.production, (keeps_ordered thing).refinery st t h.buildOrder⟩
  supply st t h := ⟨h.production, (keeps_ordered thing).supply st t h.buildOrder⟩
  start st th b addon l b₂ ex hth hb hc h := by
    refine ⟨?_, (keeps_ordered thing).start st th b addon l b₂ ex hth hb hc h.buildOrder⟩
    rw [(start_times ..).2]
    exact pairwise_enlist h.production _ _
  tick st endFrame h := ⟨h.production, h.buildOrder⟩

/-- what is inserted comes after what is there for the same frame; the rest stays in its order -/
lemma emplaceProd_filter {α : Type} (l : List (Int × α)) (frame : Int) (t : α) (g : Int) :
    (emplaceProd l frame t).filter (fun e => decide (e.1 = g)) =
      l.filter (fun e => decide (e.1 = g)) ++ if frame = g then [(frame, t)] else [] := by
  have hlater : ∀ e ∈ l.rtakeWhile (fun e => decide (frame < e.1)), frame < e.1 := fun e he => by
    simpa using mem_rtakeWhile_imp he
  have hsplit : l.filter (fun e => decide (e.1 = g)) =
      (l.rdropWhile fun e => decide (frame < e.1)).filter (fun e => decide (e.1 = g)) ++
        (l.rtakeWhile fun e => decide (frame < e.1)).filter (fun e => decide (e.1 = g)) := by
    rw [← filter_append, rdropWhile_append_rtakeWhile]
  unfold emplaceProd
  rw [filter_append, filter_cons, hsplit]
  by_cases hg : frame = g
  · have hnone : (l.rtakeWhile fun e => decide (frame < e.1)).filter (fun e => decide (e.1 = g))
        = [] := by
      rw [filter_eq_nil_iff]
      intro e he
      have hlt := hlater e he
      simp only [decide_eq_true_eq]
      omega
    rw [hnone, if_pos (decide_eq_true hg), if_pos hg, append_nil]
  · rw [if_neg (by simpa using hg), if_neg hg, append_nil]

lemma completeDue_production (build : Option T) (es : List (Int × T)) (st : BuildState T) (p : Bool)
    (h : es.Pairwise (fun a b => a.1 ≤ b.1)) :
    (completeDue tt build es st p).1.production = es.filter fun e => decide (st.frame < e.1) := by
  induction es generalizing st p with
  | nil => rfl
  | cons e es ih =>
    unfold completeDue
    split
    next hdue =>
      rw [filter_cons_of_neg (by simpa using hdue)]
      refine (ih _ _ h.tail).trans ?_
      rw [completeOne_frame]
    next hlater =>
      refine (filter_eq_self.mpr fun e' he' => decide_eq_true ?_).symm
      rcases mem_cons.mp he' with rfl | he'
      · exact not_le.mp hlater
      · exact (not_le.mp hlater).trans_le (rel_of_pairwise_cons h he')

/-- **In each decision what is in production is what was there in the beginning and is later.** -/
theorem decides_production {goal : Option (Goal T)} {endFrame : Int} {s d : BuildState T × Bool}
    (h : Decides tt goal endFrame s d) (hlt : s.1.frame < endFrame)
    (hs : s.1.production.Pairwise (fun a b => a.1 ≤ b.1)) :
    d.1.production = s.1.production.filter fun e => decide (d.1.frame < e.1) := by
  induction h with
  | here s =>
    rw [completed_frame]
    exact completeDue_production _ _ s.1 s.2 hs
  | @later s d hwait htime hd ih =>
    have hprod : (completed tt goal s).1.production = _ := completeDue_production _ _ s.1 s.2 hs
    have hstart : s.1.frame ≤ d.1.frame := by
      have hstep := tick_lt ((completed_frame tt goal s).trans_lt hlt)
      rw [completed_frame] at hstep
      rcases hd.due_or_later htime with hdue | hlater
      · rw [hdue, due_frame]
        exact hstep.le
      · exact (hstep.trans hlater).le
    have hrest : d.1.production = (completed tt goal s).1.production.filter _ :=
      ih htime (by
        show (completed tt goal s).1.production.Pairwise _
        rw [hprod]
        exact hs.filter _)
    rw [hrest, hprod, filter_filter]
    refine filter_congr fun e _ => ?_
    by_cases he : d.1.frame < e.1
    · simp [he, hstart.trans_lt he]
    · simp [he]

/-! ## `simEvaluateFor` -/

/-- the virtual functions of a task, which may keep what it likes between the calls -/
structure Hooks (T : Type) where
  preBuild : BuildState T → BuildState T := id
  buildStep : Nat → BuildState T → BuildState T × List (BuildCall T)
  postBuild : BuildState T → BuildState T := id

structure SimFor (T : Type) where
  round : Nat := 0
  st : BuildState T
  previousToLastState : BuildState T

def simBody (tt : TechTree T) (hooks : Hooks T) (endFrame : Int) (s : SimFor T) (n : Nat) :
    Run (SimFor T ⊕ SimFor T) :=
  if s.st.frame < endFrame then
    let step := hooks.buildStep s.round s.st
    (runCalls tt step.1 step.2 step.1 n).bind fun r =>
      let s' : SimFor T := ⟨s.round + 1, r.2, s.st⟩
      if r.1 then .ret (.inl s') else .ret (.inr s')
  else .ret (.inr s)

def finishSim (tt : TechTree T) (hooks : Hooks T) (endFrame : Int) (s : SimFor T) :
    Run (BuildState T) :=
  let st := hooks.postBuild s.st
  let st := if st.frame > endFrame then s.previousToLastState else st
  if st.frame < endFrame then
    match advance tt st none endFrame with
    | .ok r => .ret r.2
    | .error e => .raise e
  else .ret st

def simEvaluateFor (tt : TechTree T) (hooks : Hooks T) (st : BuildState T) (frames : Int) (n : Nat) :
    Run (BuildState T) :=
  (loop (simBody tt hooks (st.frame + frames))
    ⟨0, hooks.preBuild st, { units := Roster.empty }⟩ n).bind
      fun s => finishSim tt hooks (st.frame + frames) s

/-- the hooks only queue builds, of types in `S` -/
structure Hooks.OnlyQueue (tt : TechTree T) (S : T → Prop) (hooks : Hooks T) : Prop where
  preBuild : ∀ st, hooks.preBuild st = st
  buildStep : ∀ k st, (hooks.buildStep k st).1 = st
  postBuild : ∀ st, hooks.postBuild st = st
  requests : ∀ k st, ∀ e ∈ (hooks.buildStep k st).2.flatMap (queued tt st), S e.type

lemma advance_none {st : BuildState T} {endFrame : Int} (hlt : st.frame < endFrame) :
    ∃ st', advance tt st none endFrame = .ok (.timeout, st') ∧ st'.frame = endFrame := by
  unfold advance
  rw [if_neg (not_le.mpr hlt)]
  cases hloop : advanceLoop tt none endFrame (endFrame - st.frame).toNat st false with
  | mk r st' =>
    obtain ⟨d, hd, hres⟩ := advanceLoop_decides (s := (st, false)) _ hlt le_rfl hloop
    rcases hres with hres | ⟨-, rfl, rfl, hend⟩
    · cases hres
    · refine ⟨_, rfl, le_antisymm ?_ hend⟩
      rw [tick_frame]
      omega

/-! ## the loop ends -/

section ends
variable [Fintype T] {S : T → Prop} {rank : T → Nat} {hooks : Hooks T} {endFrame : Int}

/-- the frames that are left, what is due, what can start, what can be built ahead -/
def simMeasure (tt : TechTree T) (endFrame : Int) (st : BuildState T) : ℕ ×ₗ ℕ ×ₗ ℕ ×ₗ ℕ :=
  toLex ((endFrame - st.frame).toNat,
    toLex (if st.production.head?.any (fun e => decide (e.1 ≤ st.frame)) then 1 else 0,
      toLex (potential tt st, reserve st)))

lemma settled_iff {st : BuildState T} :
    Settled st ↔ st.production.head?.any (fun e => decide (e.1 ≤ st.frame)) = false := by
  unfold Settled
  cases st.production with
  | nil | cons => simp

lemma LaterOrLess.measure_lt {st st' : BuildState T} (h : LaterOrLess tt st st')
    (hlt : st.frame < endFrame) : simMeasure tt endFrame st' < simMeasure tt endFrame st := by
  unfold simMeasure
  rw [Prod.Lex.toLex_lt_toLex]
  rcases h with hlater | ⟨hframe, hsettled, hless⟩
  · left
    omega
  · right
    refine ⟨by rw [hframe], ?_⟩
    rw [settled_iff.mp hsettled, Prod.Lex.toLex_lt_toLex]
    by_cases hst : Settled st
    · right
      rw [settled_iff.mp hst, Prod.Lex.toLex_lt_toLex]
      exact ⟨rfl, hless hst⟩
    · left
      rw [settled_iff, Bool.not_eq_false] at hst
      rw [hst]
      exact Nat.zero_lt_one

/-- the state has not passed `endFrame`, or the one before it had not -/
def InTime (endFrame : Int) (s : SimFor T) : Prop :=
  s.st.frame ≤ endFrame ∨ s.previousToLastState.frame < endFrame

lemma simBody_computes (hr : RankedOn tt rank S) (hc : Costs tt S) (hh : hooks.OnlyQueue tt S)
    (hmax : endFrame ≤ intMax) (s : SimFor T) (hs : InTime endFrame s) :
    Computes (simBody tt hooks endFrame s) (Sum.elim
      (fun s' => InTime endFrame s' ∧ simMeasure tt endFrame s'.st < simMeasure tt endFrame s.st)
      (InTime endFrame)) := by
  unfold simBody
  by_cases hlt : s.st.frame < endFrame
  · simp only [if_pos hlt, hh.buildStep]
    rw [runCalls_eq]
    obtain ⟨⟨b, st'⟩, hret⟩ := queueOf_returns hr (hh.requests s.round s.st) s.st
    cases b with
    | true =>
      obtain ⟨e, he, hbuilds⟩ := queueOf_builds hret
      have hless := hbuilds.laterOrLess hr hc (hh.requests s.round s.st e he) (hlt.trans_le hmax)
      exact ⟨.inl ⟨s.round + 1, st', s.st⟩, hret.bind (returns_const.mpr rfl), .inr hlt,
        hless.measure_lt hlt⟩
    | false =>
      exact ⟨.inr ⟨s.round + 1, st', s.st⟩, hret.bind (returns_const.mpr rfl), .inr hlt⟩
  · simp only [if_neg hlt]
    exact computes_ret hs

lemma finishSim_computes (hpost : ∀ st, hooks.postBuild st = st) {s : SimFor T}
    (hs : InTime endFrame s) :
    Computes (fun _ => finishSim tt hooks endFrame s) fun st => st.frame = endFrame := by
  have hrun : ∀ st : BuildState T, st.frame ≤ endFrame →
      Computes (fun _ => if st.frame < endFrame then
        match advance tt st none endFrame with
        | .ok r => .ret r.2
        | .error e => .raise e
      else .ret st) fun st => st.frame = endFrame := by
    intro st hle
    by_cases hlt : st.frame < endFrame
    · obtain ⟨st', hcall, hframe⟩ :
          ∃ st', advance tt st none endFrame = .ok (.timeout, st') ∧ st'.frame = endFrame :=
        advance_none hlt
      simp only [if_pos hlt, hcall]
      exact computes_ret hframe
    · simp only [if_neg hlt]
      exact computes_ret (le_antisymm hle (not_lt.mp hlt))
  unfold finishSim
  rw [hpost]
  refine hrun _ ?_
  split
  next hover => exact (hs.resolve_left (not_le.mpr hover)).le
  next hover => exact not_lt.mp hover

end ends

/-- **The order of events.**  A call of `advance` keeps production and build order sorted, and in
each decision exactly what was due has completed. -/
theorem event_order [Fintype T] (tt : TechTree T) :
    (∀ st st' thing endFrame r, Timed st → advance tt st thing endFrame = .ok (r, st') → Timed st') ∧
    (∀ (α : Type) (l : List (Int × α)) (frame : Int) (t : α) (g : Int),
      (emplaceProd l frame t).filter (fun e => decide (e.1 = g)) =
        l.filter (fun e => decide (e.1 = g)) ++ if frame = g then [(frame, t)] else []) ∧
    (∀ goal endFrame st p d, st.frame < endFrame → Timed st → Decides tt goal endFrame (st, p) d →
      d.1.production = st.production.filter fun e => decide (d.1.frame < e.1)) ∧
    ∀ (rank : T → Nat) (S : T → Prop) (hooks : Hooks T), RankedOn tt rank S → Costs tt S →
      hooks.OnlyQueue tt S → ∀ st frames, 0 ≤ frames → st.frame + frames ≤ intMax →
        Computes (simEvaluateFor tt hooks st frames) fun st' => st'.frame = st.frame + frames := by
  refine ⟨fun st st' thing endFrame r hst h => (keeps_timed thing).advance h hst,
    fun α => emplaceProd_filter, fun goal endFrame st p d hlt hst h =>
      decides_production h hlt hst.production, ?_⟩
  intro rank S hooks hr hc hh st frames hframes hmax
  have hinit : InTime (st.frame + frames)
      ⟨0, hooks.preBuild st, { units := Roster.empty }⟩ := by
    left
    dsimp only
    rw [hh.preBuild]
    omega
  have hloop := computes_loop (InTime (st.frame + frames))
    (fun s => simMeasure tt (st.frame + frames) s.st) (simBody_computes hr hc hh hmax) hinit
  exact hloop.bind (g := fun s _ => finishSim tt hooks (st.frame + frames) s)
    fun s hs => finishSim_computes hh.postBuild hs

/-! ## drones for ever -/

def zergTree : TechTree Sample where
  __ := sampleTree
  info
    | .gateway => {}
    | .highTemplar => {}
    | .archon => {}
    | t => sampleTree.info t

def zergRank : Sample → Nat
  | .hatchery => 1
  | .larva => 2
  | .overlord => 2
  | .spawningPool => 2
  | .hydraliskDen => 2
  | .drone => 3
  | .lair => 3
  | .hydralisk => 3
  | .hive => 4
  | .lurkerAspect => 4
  | .lurker => 5
  | _ => 0

lemma zergTree_ranked : Ranked zergTree zergRank := by
  have hdep : ∀ build t, Dep zergTree build t → (zergTree.info t).isWorker = false →
      zergRank t < zergRank build ∧ (zergTree.info t).builder.isSome := by
    intro build t h
    cases h with
    | prerequisite ht hl =>
      revert build t
      decide
    | supply h =>
      revert build
      decide +kernel
    | builder h hl =>
      revert build t
      decide
    | hatchery h =>
      revert build
      decide
  exact ⟨fun build t h hw _ => (hdep build t h hw).1, fun build t h hw => (hdep build t h hw).2⟩

lemma zergTree_costs : Costs zergTree fun t => (zergTree.info t).builder.isSome = true where
  time := by decide
  minerals := by decide +kernel
  refinery := by
    unfold Inert
    decide +kernel
  supply := by
    unfold Inert
    decide +kernel

def droneHooks : Hooks Sample where
  buildStep _ st := (st, [.type .drone])

theorem event_order_drones : ∃ st', Returns (simEvaluateFor zergTree droneHooks noGas 1000) st' ∧
    st'.frame = 1400 := by
  refine (event_order zergTree).2.2.2 zergRank _ droneHooks zergTree_ranked.on zergTree_costs
    ⟨fun _ => rfl, fun _ _ => rfl, fun _ => rfl, fun _ st e he => ?_⟩ noGas 1000 (by decide) (by decide)
  rw [show (droneHooks.buildStep _ st).2.flatMap (queued zergTree st) = [{ type := .drone }] from rfl,
    mem_singleton] at he
  rw [he]
  rfl

end TorchCraft.AutoBuild
