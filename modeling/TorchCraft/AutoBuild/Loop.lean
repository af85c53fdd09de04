import TorchCraft.AutoBuild.Advance

/-!
# The loop of `advance`

* `Decides`, `advance_decides`  the rounds of a call, and what its last one gives: the loop ends by
  itself before its bound;
* `Keeps`, `Keeps.advance`  the rule for what a call of `advance` keeps: one case for each of the
  five places where the state is written;
* `Dep`, `advance_needs`  what `advance` may ask for: a prerequisite, the supply provider of the
  race, the builder, or a hatchery for a larva.
-/

set_option linter.unusedSectionVars false

namespace TorchCraft.AutoBuild
open List Function

variable {T : Type} [DecidableEq T] {tt : TechTree T} {b : T} {addon : Option T}
  {goal : Option (Goal T)} {r : Advanced T} {endFrame : Int} {s d : BuildState T × Bool}
  {thing : Option (BuildEntry T)} {I : BuildState T → Prop} {th : BuildEntry T}

/-! ## what a write to the records leaves alone -/

-- the rule for the operations that write to units and records in place
section modified
variable {I : BuildState T → Prop} (hI : ∀ st l f hf, I st → I (modifyAt st l f hf))
  {st : BuildState T} (h : I st)
include hI h

lemma attachAddon_of (t : T) : I (if (tt.info t).isAddon then attachAddon tt st t else st) := by
  unfold attachAddon
  split
  · split
    · exact h
    · split
      · exact h
      · exact hI _ _ _ _ h
  · exact h

lemma occupy_of (build b : T) (l : Loc T) : I (occupy tt st build b l) := by
  unfold occupy
  dsimp only
  split
  · refine hI _ _ _ _ ?_
    split <;> exact hI _ _ _ _ h
  · split <;> exact hI _ _ _ _ h

lemma noteAddon_of (build : T) (l : Loc T) : I (noteAddon tt st build l) := by
  unfold noteAddon
  split
  · exact hI _ _ _ _ h
  · exact h

end modified

/-- only counters, units and records may differ -/
structure Apart (st st' : BuildState T) : Prop where
  frame : st'.frame = st.frame
  production : st'.production = st.production
  buildOrder : st'.buildOrder = st.buildOrder
  tech : st'.upgradesAndTech = st.upgradesAndTech

lemma Apart.refl (st : BuildState T) : Apart st st := ⟨rfl, rfl, rfl, rfl⟩

lemma Apart.modifyAt {st st' : BuildState T} (l : Loc T)
    (f : BuildStateUnit T → BuildStateUnit T) (hf : ∀ u, (f u).type = u.type) (h : Apart st st') :
    Apart st (modifyAt st' l f hf) := by
  cases l <;> exact ⟨h.frame, h.production, h.buildOrder, h.tech⟩

lemma apart_occupy (st : BuildState T) (build b : T) (l : Loc T) :
    Apart st (occupy tt st build b l) :=
  occupy_of (fun _ => Apart.modifyAt) (.refl st) ..

lemma apart_noteAddon (st : BuildState T) (build : T) (l : Loc T) :
    Apart st (noteAddon tt st build l) :=
  noteAddon_of (fun _ => Apart.modifyAt) (.refl st) ..

lemma apart_consumeBuilder (st : BuildState T) (build b : T) (l : Loc T) (b₂ : Option Nat) :
    Apart st (consumeBuilder tt st build b l b₂) := by
  unfold consumeBuilder
  cases l with
  | morphing i => exact .refl st
  | unit t i =>
    dsimp only
    split
    · split
      · split <;> exact ⟨rfl, rfl, rfl, rfl⟩
      · exact .refl st
    · split
      · cases b₂ <;> exact ⟨rfl, rfl, rfl, rfl⟩
      · exact .refl st

lemma apart_completeOne (st : BuildState T) {t : T} (hu : (tt.info t).isUnit) :
    Apart st (completeOne tt st t) := by
  have haddon : Apart st (if (tt.info t).isAddon then attachAddon tt st t else st) :=
    attachAddon_of (fun _ => Apart.modifyAt) (.refl st) t
  unfold completeOne popMorphing
  rw [if_pos hu]
  dsimp only
  split <;> exact ⟨haddon.frame, haddon.production, haddon.buildOrder, haddon.tech⟩

section
variable (st : BuildState T) (t : T)

lemma completeOne_frame : (completeOne tt st t).frame = st.frame := by
  by_cases hu : (tt.info t).isUnit
  · exact (apart_completeOne st hu).frame
  · rw [completeOne, if_neg hu]

lemma completeOne_production : (completeOne tt st t).production = st.production := by
  by_cases hu : (tt.info t).isUnit
  · exact (apart_completeOne st hu).production
  · rw [completeOne, if_neg hu]

lemma completeOne_buildOrder : (completeOne tt st t).buildOrder = st.buildOrder := by
  by_cases hu : (tt.info t).isUnit
  · exact (apart_completeOne st hu).buildOrder
  · rw [completeOne, if_neg hu]

end

lemma completeDue_frame (tt : TechTree T) (build : Option T) (es : List (Int × T))
    (st : BuildState T) (p : Bool) : (completeDue tt build es st p).1.frame = st.frame := by
  induction es generalizing st p with
  | nil => rfl
  | cons e es ih =>
    unfold completeDue
    split
    · rw [ih, completeOne_frame]
    · rfl

lemma completeDue_flag {J : BuildState T → Bool → Prop} {build : Option T}
    (hJ : ∀ st e es p, J st p → st.production = e :: es → st.frame ≥ e.1 →
      J (completeOne tt { st with production := es } e.2)
        (if p then build.any (recheck tt (completeOne tt { st with production := es } e.2)) else p))
    (st : BuildState T) (p : Bool) (hst : J st p) :
    J (completeDue tt build st.production st p).1 (completeDue tt build st.production st p).2 := by
  suffices h : ∀ es (st : BuildState T) (p : Bool), st.production = es → J st p →
      J (completeDue tt build es st p).1 (completeDue tt build es st p).2 from h _ st p rfl hst
  intro es
  induction es with
  | nil =>
    intro st p hes hst
    have he : { st with production := [] } = st := by rw [← hes]
    unfold completeDue
    rw [he]
    exact hst
  | cons e es ih =>
    intro st p hes hst
    unfold completeDue
    split
    next hle => exact ih _ _ (completeOne_production _ _) (hJ st e es p hst hes hle)
    next =>
      have he : { st with production := e :: es } = st := by rw [← hes]
      rw [he]
      exact hst

lemma completeDue_keeps {I : BuildState T → Prop}
    (hI : ∀ st e es, I st → st.production = e :: es → st.frame ≥ e.1 →
      I (completeOne tt { st with production := es } e.2))
    (build : Option T) (st : BuildState T) (p : Bool) (hst : I st) :
    I (completeDue tt build st.production st p).1 :=
  completeDue_flag (J := fun st _ => I st) (fun st e es _ h => hI st e es h) st p hst

/-! ## the production -/

lemma emplaceProd_perm {α : Type} (l : List (Int × α)) (frame : Int) (t : α) :
    (emplaceProd l frame t).Perm ((frame, t) :: l) := by
  refine perm_middle.trans (Perm.cons _ ?_)
  rw [rdropWhile_append_rtakeWhile]

/-- one item goes into production, two of what hatches in pairs -/
def enlist (tt : TechTree T) (production : List (Int × T)) (frame : Int) (t : T) : List (Int × T) :=
  let production := emplaceProd production (frame + (tt.info t).buildTime) t
  if (tt.info t).isTwoUnitsInOneEgg then
    emplaceProd production (frame + (tt.info t).buildTime) t
  else production

lemma enqueue_eq (tt : TechTree T) (st : BuildState T) (th : BuildEntry T) :
    ∃ isExpanding minerals gas, enqueue tt st th =
      { secondOfEgg tt (produce tt st th.type) th.type with
        isExpanding, minerals, gas, buildOrder := emplaceProd st.buildOrder st.frame th } := by
  unfold enqueue secondOfEgg markExpanding
  dsimp only
  split <;> split <;> exact ⟨_, _, _, rfl⟩

lemma enqueue_times (st : BuildState T) (th : BuildEntry T) :
    (enqueue tt st th).frame = st.frame ∧
      (enqueue tt st th).production = enlist tt st.production st.frame th.type := by
  obtain ⟨_, _, _, he⟩ := enqueue_eq tt st th
  rw [he]
  unfold secondOfEgg enlist
  split <;> exact ⟨rfl, rfl⟩

lemma start_times (st : BuildState T) (th : BuildEntry T) (b : T) (l : Loc T) (b₂ : Option Nat) :
    (start tt st th b l b₂).frame = st.frame ∧
      (start tt st th b l b₂).production = enlist tt st.production st.frame th.type := by
  unfold start
  rw [(apart_consumeBuilder ..).frame, (apart_consumeBuilder ..).production,
    (apart_noteAddon ..).frame, (apart_noteAddon ..).production, (enqueue_times ..).1,
    (enqueue_times ..).2, (apart_occupy st _ b l).frame, (apart_occupy st _ b l).production]
  exact ⟨rfl, rfl⟩

/-! ## how many units there are -/

lemma length_modifyAt {t : T} (n : Nat) (st : BuildState T) (l : Loc T)
    (f : BuildStateUnit T → BuildStateUnit T) (hf : ∀ u, (f u).type = u.type)
    (h : (st.units.list t).length = n) : ((modifyAt st l f hf).units.list t).length = n := by
  cases l with
  | unit t' i =>
    refine Eq.trans ?_ h
    show (update st.units.list t' _ t).length = _
    by_cases h : t = t'
    · rw [h, update_self, length_modify]
    · rw [update_of_ne h]
  | morphing i => exact h

lemma popMorphing_units (st : BuildState T) (t : T) : (popMorphing tt st t).units = st.units := by
  unfold popMorphing
  split <;> rfl

lemma push_length (r : Roster T) (u : BuildStateUnit T) (t : T) :
    ((r.push u).list t).length = (r.list t).length + if t = u.type then 1 else 0 := by
  show (update r.list u.type _ t).length = _
  by_cases h : t = u.type
  · rw [h, update_self, length_append, if_pos rfl]
    rfl
  · rw [update_of_ne h, if_neg h]
    rfl

section
variable (st : BuildState T)
include st

lemma completeOne_length (t t' : T) :
    ((completeOne tt st t).units.list t').length = (st.units.list t').length +
      if (tt.info t).isUnit ∧ t' = t then 1 else 0 := by
  unfold completeOne
  by_cases hu : (tt.info t).isUnit
  · rw [if_pos hu, popMorphing_units]
    simp only [hu, true_and]
    refine (push_length _ _ t').trans (congrArg (· + _) ?_)
    exact attachAddon_of (length_modifyAt _) rfl t
  · rw [if_neg hu, if_neg fun h => hu h.1]
    rfl

lemma enqueue_records (th : BuildEntry T) : (enqueue tt st th).units = st.units ∧
    (enqueue tt st th).morphingHatcheries = st.morphingHatcheries := by
  unfold enqueue pay secondOfEgg markExpanding
  split <;> split <;> exact ⟨rfl, rfl⟩

end

/-- what the search for an idle builder stops at -/
def idleFor (tt : TechTree T) (build : T) (addon : Option T) (frame : Int) (u : BuildStateUnit T) :
    Bool :=
  eligible tt build addon u && decide (u.busyUntil ≤ frame)

lemma idleBuilder_fst (build : T) (addon : Option T) (frame : Int) (us : List (BuildStateUnit T))
    (i : Nat) (ex : Bool) : (idleBuilder tt build addon frame us i ex).1
      = (us.findIdx? (idleFor tt build addon frame)).map (· + i) := by
  induction us generalizing i ex with
  | nil => rfl
  | cons u us ih =>
    have hlater (ex : Bool) : (idleBuilder tt build addon frame us (i + 1) ex).1
        = ((us.findIdx? (idleFor tt build addon frame)).map (· + 1)).map (· + i) := by
      rw [ih, Option.map_map]
      congr 1
      funext k
      exact (Nat.add_right_comm k 1 i).symm
    unfold idleBuilder
    rw [findIdx?_cons]
    by_cases he : eligible tt build addon u
    · by_cases hb : u.busyUntil ≤ frame
      · simp [idleFor, he, hb]
      · simpa [idleFor, he, hb] using hlater true
    · simpa [idleFor, he] using hlater ex

lemma chooseBuilder_unit {st : BuildState T} {build : T} {l : Loc T}
    {b₂ : Option Nat} {ex : Bool} (h : chooseBuilder tt st build b addon = ⟨some l, b₂, ex⟩)
    (hb : b ≠ tt.zergLarva) :
    ∃ i, l = .unit b i ∧ (st.units.list b).findIdx? (idleFor tt build addon st.frame) = some i ∧
      (isArchon tt build → ∃ j, b₂ = some j ∧
        (List.range (st.units.list b).length).find? (fun j => decide (j ≠ i)) = some j) := by
  have hfind : (idleBuilder tt build addon st.frame (st.units.list b) 0 false).1 = _ :=
    idleBuilder_fst build addon st.frame (st.units.list b) 0 false
  unfold chooseBuilder at h
  rw [if_neg hb] at h
  simp only at h
  split at h
  · cases h
  next i ex hi =>
    rw [hi] at hfind
    obtain ⟨i', hi', rfl⟩ := Option.map_eq_some_iff.mp hfind.symm
    split at h
    · split at h
      next j hj =>
        cases h
        exact ⟨_, rfl, hi', fun _ => ⟨j, rfl, hj⟩⟩
      next => cases h
    next harchon =>
      cases h
      exact ⟨_, rfl, hi', fun ha => absurd ha harchon⟩

lemma chooseBuilder_place {st : BuildState T} {th : BuildEntry T} {l : Loc T}
    {b₂ : Option Nat} {ex : Bool} (h : chooseBuilder tt st th.type b addon = ⟨some l, b₂, ex⟩)
    (hb : b ≠ tt.zergLarva) : ∃ i, l = .unit b i ∧
      i < ((noteAddon tt (enqueue tt (occupy tt st th.type b l) th) th.type l).units.list b).length := by
  obtain ⟨i, hl, hi, -⟩ := chooseBuilder_unit h hb
  refine ⟨i, hl, (findIdx?_eq_some_iff_getElem.mp hi).1.trans_eq (Eq.symm ?_)⟩
  refine noteAddon_of (length_modifyAt _) ?_ ..
  rw [(enqueue_records ..).1]
  exact occupy_of (length_modifyAt _) rfl ..

@[simp] lemma tick_frame (st : BuildState T) (endFrame : Int) :
    (tick st endFrame).frame = st.frame + min 15 (endFrame - st.frame) := rfl

/-! ## decisions -/

/-- what a round of decisions can be, unless it is to wait -/
inductive Decided (tt : TechTree T) (st : BuildState T) (th : BuildEntry T) (b : T)
    (addon : Option T) : Advanced T → BuildState T → Prop where
  | refinery (h : wantsRefinery tt st th.type = true) : Decided tt st th b addon .builtdep
      (prebuildRefinery tt st (tt.getRaceRefinery (tt.info th.type).race))
  | maxedOut : Decided tt st th b addon .failed st
  | supply (h : supplyCheck tt st th.type = .buildSupply) :
    Decided tt st th b addon (.needs (tt.getRaceSupplyDepot (tt.info th.type).race)) st
  | prebuilt (h : supplyCheck tt st th.type = .prebuildSupply) : Decided tt st th b addon .builtdep
      (addBuilt tt st (tt.getRaceSupplyDepot (tt.info th.type).race) true)
  | start {l : Loc T} {b₂ : Option Nat} {ex : Bool}
    (h : chooseBuilder tt st th.type b addon = ⟨some l, b₂, ex⟩) :
    Decided tt st th b addon .success (start tt st th b l b₂)
  | missing {t : T} (h : builderMissing tt st b addon = some t) : Decided tt st th b addon (.needs t) st

lemma tryBuild_decided {r : Advanced T} {st st' : BuildState T} {th : BuildEntry T} {p : Bool}
    (h : tryBuild tt st th b addon p = some (r, st')) : Decided tt st th b addon r st' := by
  unfold tryBuild at h
  split at h
  next hw =>
    cases h
    exact .refinery hw
  · split at h
    · cases h
      exact .maxedOut
    next hs =>
      cases h
      exact .supply hs
    next hs =>
      cases h
      exact .prebuilt hs
    · cases h
    · split at h
      · unfold tryStart at h
        rcases hc : chooseBuilder tt st th.type b addon with ⟨_ | l, b₂, ex⟩
        · simp only [hc] at h
          split at h
          · cases h
          · obtain ⟨t, ht, he⟩ := Option.map_eq_some_iff.mp h
            cases he
            exact .missing ht
        · simp only [hc] at h
          cases h
          exact .start hc
      · cases h

/-! ## the last decision -/

/-- the state and the flag after the completion loop -/
def completed (tt : TechTree T) (goal : Option (Goal T)) (s : BuildState T × Bool) :
    BuildState T × Bool :=
  completeDue tt (goal.map fun g => g.thing.type) s.1.production s.1 s.2

def decision (tt : TechTree T) (goal : Option (Goal T)) (c : BuildState T × Bool) :
    Option (Advanced T × BuildState T) :=
  goal.bind fun g => tryBuild tt c.1 g.thing g.builder g.addonRequired c.2

lemma completed_frame (tt : TechTree T) (goal : Option (Goal T)) (s : BuildState T × Bool) :
    (completed tt goal s).1.frame = s.1.frame := completeDue_frame ..

/-- the loop that starts with the first pair decides in the second -/
inductive Decides (tt : TechTree T) (goal : Option (Goal T)) (endFrame : Int) :
    BuildState T × Bool → BuildState T × Bool → Prop where
  | here (s : BuildState T × Bool) : Decides tt goal endFrame s (completed tt goal s)
  | later {s d : BuildState T × Bool} (hwait : decision tt goal (completed tt goal s) = none)
    (htime : (tick (completed tt goal s).1 endFrame).frame < endFrame)
    (h : Decides tt goal endFrame (tick (completed tt goal s).1 endFrame, (completed tt goal s).2) d) :
    Decides tt goal endFrame s d

lemma Decides.invariant {J : BuildState T × Bool → Prop}
    (hcomplete : ∀ s, J s → J (completed tt goal s))
    (htick : ∀ c : BuildState T × Bool, J c → J (tick c.1 endFrame, c.2))
    (h : Decides tt goal endFrame s d) (hs : J s) : J d := by
  induction h with
  | here s => exact hcomplete s hs
  | later _ _ _ ih => exact ih (htick _ (hcomplete _ hs))

lemma advanceLoop_decides (n : Nat) (hlt : s.1.frame < endFrame)
    (hn : (endFrame - s.1.frame).toNat ≤ n) {st' : BuildState T}
    (h : advanceLoop tt goal endFrame n s.1 s.2 = (r, st')) :
    ∃ d, Decides tt goal endFrame s d ∧ (decision tt goal d = some (r, st') ∨
      decision tt goal d = none ∧ r = .timeout ∧ st' = tick d.1 endFrame ∧ endFrame ≤ st'.frame) := by
  induction n generalizing s with
  | zero => omega
  | succ n ih =>
    rw [advanceLoop] at h
    simp only at h
    split at h
    next r' hr =>
      rw [h] at hr
      exact ⟨_, .here s, .inl hr⟩
    next hnone =>
      split at h
      next hge =>
        cases h
        exact ⟨_, .here s, .inr ⟨hnone, rfl, rfl, hge⟩⟩
      next hge =>
        have htime : (tick (completed tt goal s).1 endFrame).frame < endFrame := not_le.mp hge
        obtain ⟨d, hd, hres⟩ := ih
          (s := (tick (completed tt goal s).1 endFrame, (completed tt goal s).2)) htime
          (by rw [tick_frame, completed_frame]; omega) h
        exact ⟨d, .later hnone htime hd, hres⟩

lemma advance_late {st : BuildState T} {thing : Option (BuildEntry T)} (h : ¬st.frame < endFrame) :
    advance tt st thing endFrame = .ok (.timeout, st) := by
  exact if_pos (not_lt.mp h)

/-- **A call that does not ask for a missing prerequisite returns what its last decision is, or runs
into `endFrame` there.** -/
theorem advance_decides {st st' : BuildState T} {th : BuildEntry T}
    (hlt : st.frame < endFrame) (h : advance tt st (some th) endFrame = .ok (r, st')) :
    (∃ t, entryCheck tt st th.type (tt.info th.type).prerequisites none false = .error t ∧
      r = .needs t ∧ st' = st) ∨
    ∃ b addon p d, (tt.info th.type).builder = some b ∧
      entryCheck tt st th.type (tt.info th.type).prerequisites none false = .ok (addon, p) ∧
      Decides tt (some ⟨th, b, addon⟩) endFrame (st, p) d ∧
      (tryBuild tt d.1 th b addon d.2 = some (r, st') ∨ tryBuild tt d.1 th b addon d.2 = none ∧
        r = .timeout ∧ st' = tick d.1 endFrame ∧ endFrame ≤ st'.frame) := by
  unfold advance at h
  rw [if_neg (not_le.mpr hlt)] at h
  simp only at h
  split at h
  · cases h
  next b hb =>
    split at h
    next t ht =>
      cases h
      exact .inl ⟨t, ht, rfl, rfl⟩
    next addon p hp =>
      rw [Except.ok.injEq] at h
      obtain ⟨d, hd, hres⟩ := advanceLoop_decides (s := (st, p)) _ hlt le_rfl h
      exact .inr ⟨b, addon, p, d, hb, hp, hd, hres⟩

/-! ## what a call keeps -/

/-- the state is written when an item completes, when something is built ahead or starts, and by the
time step -/
structure Keeps (tt : TechTree T) (thing : Option (BuildEntry T)) (I : BuildState T → Prop) :
    Prop where
  complete : ∀ st e es, I st → st.production = e :: es → st.frame ≥ e.1 →
    I (completeOne tt { st with production := es } e.2)
  refinery : ∀ st t, I st → I (prebuildRefinery tt st t)
  supply : ∀ st t, I st → I (addBuilt tt st t true)
  start : ∀ st th b addon l b₂ ex, thing = some th → (tt.info th.type).builder = some b →
    chooseBuilder tt st th.type b addon = ⟨some l, b₂, ex⟩ → I st → I (start tt st th b l b₂)
  tick : ∀ st endFrame, I st → I (tick st endFrame)

namespace Keeps

lemma tryBuild (hk : Keeps tt thing I) {st st' : BuildState T} {th : BuildEntry T}
    {addon : Option T} {p : Bool} (hth : thing = some th) (hb : (tt.info th.type).builder = some b)
    (h : tryBuild tt st th b addon p = some (r, st')) (hI : I st) : I st' := by
  cases tryBuild_decided h with
  | refinery => exact hk.refinery st _ hI
  | prebuilt => exact hk.supply st _ hI
  | start hc => exact hk.start st th b addon _ _ _ hth hb hc hI
  | maxedOut | supply | missing => exact hI

lemma decides (hk : Keeps tt thing I) (h : Decides tt goal endFrame s d) (hI : I s.1) : I d.1 :=
  h.invariant (J := fun s => I s.1) (fun s => completeDue_keeps hk.complete _ s.1 s.2)
    (fun c => hk.tick c.1 endFrame) hI

/-- **What each write keeps, a call of `advance` keeps, whatever it returns.** -/
theorem advance (hk : Keeps tt thing I) {st st' : BuildState T}
    (h : advance tt st thing endFrame = .ok (r, st')) (hI : I st) : I st' := by
  by_cases hlt : st.frame < endFrame
  · cases thing with
    | none =>
      rw [AutoBuild.advance, if_neg (not_le.mpr hlt), Except.ok.injEq] at h
      obtain ⟨d, hd, hres⟩ := advanceLoop_decides (s := (st, false)) _ hlt le_rfl h
      rcases hres with hres | ⟨-, -, rfl, -⟩
      · cases hres
      · exact hk.tick _ _ (hk.decides hd hI)
    | some th =>
      rcases advance_decides hlt h with ⟨_, -, -, rfl⟩ | ⟨b, addon, p, d, hb, -, hd, hres⟩
      · exact hI
      · rcases hres with hres | ⟨-, -, rfl, -⟩
        · exact hk.tryBuild rfl hb hres (hk.decides hd hI)
        · exact hk.tick _ _ (hk.decides hd hI)
  · rw [advance_late hlt] at h
    cases h
    exact hI

end Keeps

/-! ## what `advance` asks for -/

/-- `t` may have to be built before `build` -/
inductive Dep (tt : TechTree T) (build : T) : T → Prop where
  | prerequisite {t : T} (ht : t ∈ (tt.info build).prerequisites) (hl : t ≠ tt.zergLarva) :
    Dep tt build t
  | supply (h : (tt.info build).supplyRequired ≠ 0) :
    Dep tt build (tt.getRaceSupplyDepot (tt.info build).race)
  | builder {b : T} (h : (tt.info build).builder = some b) (hl : b ≠ tt.zergLarva) : Dep tt build b
  | hatchery (h : (tt.info build).builder = some tt.zergLarva) : Dep tt build tt.zergHatchery

section
variable {st : BuildState T} {build : T}

lemma entryCheck_error {ps : List T} {a : Option T} {p : Bool}
    {t : T} (h : entryCheck tt st build ps a p = .error t) : t ∈ ps ∧ t ≠ tt.zergLarva := by
  induction ps generalizing a p with
  | nil => cases h
  | cons q ps ih =>
    unfold entryCheck at h
    split at h
    · exact (ih h).imp_left (mem_cons_of_mem _)
    next hl =>
      simp only at h
      split at h
      · exact (ih h).imp_left (mem_cons_of_mem _)
      · split at h
        · exact (ih h).imp_left (mem_cons_of_mem _)
        · split at h
          · exact (ih h).imp_left (mem_cons_of_mem _)
          · cases h
            exact ⟨mem_cons_self .., hl⟩

lemma entryCheck_addon {ps : List T} {a : Option T} {p : Bool}
    {a' : Option T} {p' : Bool} (h : entryCheck tt st build ps a p = .ok (a', p')) {t : T}
    (ht : a' = some t) : a = some t ∨ (t ∈ ps ∧ t ≠ tt.zergLarva) := by
  induction ps generalizing a p with
  | nil =>
    cases h
    exact Or.inl ht
  | cons q ps ih =>
    unfold entryCheck at h
    split at h
    · exact (ih h).imp_right (fun e => ⟨mem_cons_of_mem _ e.1, e.2⟩)
    next hl =>
      have hrec : ∀ p, entryCheck tt st build ps (if requiresAddon tt build q then some q else a) p
          = .ok (a', p') → a = some t ∨ (t ∈ q :: ps ∧ t ≠ tt.zergLarva) := by
        intro p hp
        rcases ih hp with hq | hq
        · split at hq
          · rw [← Option.some.inj hq]
            exact Or.inr ⟨mem_cons_self .., hl⟩
          · exact Or.inl hq
        · exact Or.inr ⟨mem_cons_of_mem _ hq.1, hq.2⟩
      simp only at h
      split at h
      · exact hrec p h
      · split at h
        · exact hrec p h
        · split at h
          · exact hrec true h
          · cases h

lemma supplyCheck_buildSupply
    (h : supplyCheck tt st build = .buildSupply) : (tt.info build).supplyRequired ≠ 0 := by
  unfold supplyCheck at h
  simp only at h
  split at h
  · split at h
    next hc => exact hc.1
    next => cases h
  · cases h

lemma builderMissing_dep {addon : Option T} {t : T}
    (hb : (tt.info build).builder = some b) (ha : ∀ t, addon = some t → Dep tt build t)
    (h : builderMissing tt st b addon = some t) : Dep tt build t := by
  unfold builderMissing at h
  split at h
  next hl =>
    split at h
    · cases h
      exact .hatchery (hl ▸ hb)
    · cases h
  next hl =>
    split at h
    · cases addon with
      | none =>
        cases h
        exact .builder hb hl
      | some a => exact Option.some.inj h ▸ ha a rfl
    · cases h

end

lemma tryBuild_needs {st st' : BuildState T} {addon : Option T} {p : Bool}
    {t : T} (hb : (tt.info th.type).builder = some b) (ha : ∀ t, addon = some t → Dep tt th.type t)
    (h : tryBuild tt st th b addon p = some (.needs t, st')) : Dep tt th.type t := by
  cases tryBuild_decided h with
  | supply hs => exact .supply (supplyCheck_buildSupply hs)
  | missing hm => exact builderMissing_dep hb ha hm

lemma advance_needs {st st' : BuildState T} {t : T}
    (h : advance tt st (some th) endFrame = .ok (.needs t, st')) : Dep tt th.type t := by
  by_cases hlt : st.frame < endFrame
  · rcases advance_decides hlt h with ⟨t', hp, hr, -⟩ | ⟨b, addon, p, d, hb, hp, -, hres⟩
    · cases hr
      obtain ⟨hm, hl⟩ := entryCheck_error hp
      exact .prerequisite hm hl
    · refine tryBuild_needs hb (fun a hadd => ?_) (hres.resolve_right fun h => nomatch h.2.1)
      rcases entryCheck_addon hp hadd with he | he
      · cases he
      · exact .prerequisite he.1 he.2
  · rw [advance_late hlt] at h
    cases h

lemma advance_ok (st : BuildState T) (endFrame : Int) (hb : (tt.info th.type).builder.isSome) :
    ∃ r st', advance tt st (some th) endFrame = .ok (r, st') := by
  obtain ⟨b, hb⟩ := Option.isSome_iff_exists.mp hb
  unfold advance
  split
  · exact ⟨_, _, rfl⟩
  · simp only [hb]
    split <;> exact ⟨_, _, rfl⟩

lemma ok_of_fst {ε α β : Type} {x : Except ε (α × β)} {a : α}
    (h : x.toOption.map Prod.fst = some a) : ∃ b, x = .ok (a, b) := by
  cases x with
  | error e => cases h
  | ok v =>
    cases h
    exact ⟨v.2, rfl⟩

end TorchCraft.AutoBuild
