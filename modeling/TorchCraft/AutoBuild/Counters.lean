import TorchCraft.AutoBuild.Archon
import TorchCraft.AutoBuild.Evaluate
import TorchCraft.AutoBuild.Supply

/-!
# The counters of workers and refineries

`st.workers` and `st.refineries` are kept by `addUnit` and `removeUnit`, beside the units themselves.
A refinery that is built ahead is counted by `addUnit` and then once more.

* `countWhere`  the units whose type has a property;
* `Calm`  the calls of `advance` that build no refinery ahead.
-/

set_option linter.unusedSectionVars false

namespace TorchCraft.AutoBuild
open Finset TypeInfo

variable {T : Type} [DecidableEq T] [Fintype T] {tt : TechTree T}

/-! ## counting units -/

def countWhere (tt : TechTree T) (p : TypeInfo T → Bool) (st : BuildState T) : Nat :=
  ∑ t, if p (tt.info t) then (st.units.list t).length else 0

def each (tt : TechTree T) (p : TypeInfo T → Bool) (t : T) : ℚ := if p (tt.info t) then 1 else 0

lemma countWhere_eq (p : TypeInfo T → Bool) (st : BuildState T) :
    (countWhere tt p st : ℚ) = st.units.total (each tt p) := by
  rw [Roster.total_eq, countWhere, Nat.cast_sum]
  refine sum_congr rfl fun t _ => ?_
  unfold each
  split
  · rw [mul_one]
  · rw [mul_zero, Nat.cast_zero]

/-- `c` is the surplus of refineries when there are no free geysers -/
structure Tally (tt : TechTree T) (c : ℚ) (st : BuildState T) : Prop where
  workers : (st.workers : ℚ) = st.units.total (each tt isWorker)
  refineries : (st.refineries : ℚ) + st.availableGases =
    st.units.total (each tt isRefinery) + c

/-- the counters and how many units there are of each type stay -/
structure Uncounted (st st' : BuildState T) : Prop where
  workers : st'.workers = st.workers
  refineries : st'.refineries = st.refineries
  availableGases : st'.availableGases = st.availableGases
  units : ∀ g, st'.units.total g = st.units.total g

section uncounted
variable {st st' st'' : BuildState T} {c : ℚ}

lemma Uncounted.refl (st : BuildState T) : Uncounted st st := ⟨rfl, rfl, rfl, fun _ => rfl⟩

lemma Uncounted.trans (h : Uncounted st st') (h' : Uncounted st' st'') : Uncounted st st'' :=
  ⟨h'.workers.trans h.workers, h'.refineries.trans h.refineries,
    h'.availableGases.trans h.availableGases, fun g => (h'.units g).trans (h.units g)⟩

lemma Tally.of_surplus (h : Tally tt c st) (hg : st'.availableGases = st.availableGases)
    (hw : st'.workers - st'.units.total (each tt isWorker) =
      st.workers - st.units.total (each tt isWorker))
    (hr : st'.refineries - st'.units.total (each tt isRefinery) =
      st.refineries - st.units.total (each tt isRefinery)) : Tally tt c st' := by
  have hworkers := h.workers
  have hrefineries := h.refineries
  constructor
  · linarith
  · rw [hg]
    linarith

lemma Tally.of_uncounted (h : Tally tt c st) (hu : Uncounted st st') : Tally tt c st' :=
  h.of_surplus hu.availableGases (by rw [hu.workers, hu.units]) (by rw [hu.refineries, hu.units])

lemma Uncounted.modifyAt (h : Uncounted st st') (l : Loc T)
    (f : BuildStateUnit T → BuildStateUnit T) (hf : ∀ u, (f u).type = u.type) :
    Uncounted st (modifyAt st' l f hf) := by
  cases l with
  | unit t i => exact h.trans ⟨rfl, rfl, rfl, Roster.total_modify st'.units t i f hf⟩
  | morphing i => exact h.trans ⟨rfl, rfl, rfl, fun _ => rfl⟩

lemma uncounted_popMorphing (st : BuildState T) (t : T) : Uncounted st (popMorphing tt st t) := by
  unfold popMorphing
  split
  · exact ⟨rfl, rfl, rfl, fun _ => rfl⟩
  · exact .refl st

lemma uncounted_enqueue (st : BuildState T) (th : BuildEntry T) :
    Uncounted st (enqueue tt st th) := by
  obtain ⟨_, _, _, he⟩ := enqueue_eq tt st th
  rw [he]
  unfold secondOfEgg
  split <;> exact ⟨rfl, rfl, rfl, fun _ => rfl⟩

end uncounted

/-! ## units come and go -/

section tally
variable {st : BuildState T} {c : ℚ}

lemma count_sub {p : TypeInfo T → Bool} {t : T} {r r' : ℚ} (x n : Int)
    (hr : r' = r + x * each tt p t) :
    ((if p (tt.info t) then n + x else n : Int) : ℚ) - r' = n - r := by
  rw [hr, each]
  split
  · push_cast
    ring
  · ring

lemma tally_addUnit (h : Tally tt c st) (t : T) : Tally tt c (addUnit tt st t) := by
  have hsum (p : TypeInfo T → Bool) : (st.units.push { type := t }).total (each tt p) =
      st.units.total (each tt p) + (1 : Int) * each tt p t := by
    rw [Roster.total_push, Int.cast_one, one_mul]
  exact h.of_surplus rfl (count_sub 1 _ (hsum _)) (count_sub 1 _ (hsum _))

lemma tally_removeUnit (h : Tally tt c st) {t : T} {i : Nat}
    (hi : i < (st.units.list t).length ∨
      (tt.info t).isWorker = false ∧ (tt.info t).isRefinery = false) :
    Tally tt c (removeUnit tt st t i) := by
  have hsum (p : TypeInfo T → Bool) (hp : i < (st.units.list t).length ∨ p (tt.info t) = false) :
      (st.units.erase t i).total (each tt p) =
        st.units.total (each tt p) + (-1 : Int) * each tt p t := by
    rcases hp with hlt | hnot
    · rw [Roster.total_erase _ _ _ hlt, Int.cast_neg, Int.cast_one, neg_one_mul, sub_eq_add_neg]
    · rw [Roster.total_of_update (rfl : (st.units.erase t i).list = _)]
      simp [each, hnot]
  exact h.of_surplus rfl (count_sub (-1) _ (hsum _ (hi.imp_right And.left)))
    (count_sub (-1) _ (hsum _ (hi.imp_right And.right)))

lemma tally_completeOne (h : Tally tt c st) (t : T) : Tally tt c (completeOne tt st t) := by
  unfold completeOne
  split
  · have haddon : Uncounted st (if (tt.info t).isAddon then attachAddon tt st t else st) :=
      attachAddon_of (fun _ l f hf h => h.modifyAt l f hf) (.refl st) t
    have hsupply : ∀ st' : BuildState T, Uncounted st' (releaseSupply tt st' t) :=
      fun _ => ⟨rfl, rfl, rfl, fun _ => rfl⟩
    exact (tally_addUnit (h.of_uncounted (haddon.trans (hsupply _))) t).of_uncounted
      (uncounted_popMorphing ..)
  · exact h.of_uncounted ⟨rfl, rfl, rfl, fun _ => rfl⟩

lemma tally_addBuilt (h : Tally tt c st) (t : T) (s : Bool) : Tally tt c (addBuilt tt st t s) := by
  have horder : Tally tt c { st with
      buildOrder := emplaceProd st.buildOrder
        (st.frame - if s then (tt.info t).buildTime else 0) { type := t } } :=
    h.of_uncounted ⟨rfl, rfl, rfl, fun _ => rfl⟩
  exact (tally_addUnit horder t).of_uncounted ⟨rfl, rfl, rfl, fun _ => rfl⟩

lemma tally_prebuildRefinery (h : Tally tt c st) (t : T) :
    Tally tt c (prebuildRefinery tt st t) := by
  have hbuilt := tally_addBuilt h t false
  refine ⟨hbuilt.workers, Eq.trans ?_ hbuilt.refineries⟩
  show (((addBuilt tt st t false).refineries + 1 : Int) : ℚ)
    + ((addBuilt tt st t false).availableGases - 1 : Int) = _
  push_cast
  ring

lemma tally_consumeBuilder (ha : Archons tt) (h : Tally tt c st) {build b : T} {l : Loc T}
    {b₂ : Option Nat} (hb : (tt.info build).builder = some b)
    (hl : b ≠ tt.zergLarva → ∃ i, l = .unit b i ∧ i < (st.units.list b).length) :
    Tally tt c (consumeBuilder tt st build b l b₂) := by
  unfold consumeBuilder
  split
  · exact h
  next t i =>
    split
    next hc =>
      obtain ⟨j, hj, hlt⟩ := hl hc.2
      cases hj
      split
      · dsimp only
        split
        · refine tally_removeUnit (h.of_uncounted ?_) (.inl hlt)
          exact ⟨rfl, rfl, rfl, fun _ => rfl⟩
        · exact tally_removeUnit h (.inl hlt)
      · exact h
    next hc =>
      split
      next harchon =>
        obtain ⟨hlarva, -, hworker, hrefinery⟩ := ha.templar build b harchon hb
        obtain ⟨j, hj, hlt⟩ := hl hlarva
        cases hj
        have hfirst : Tally tt c (removeUnit tt st b i) :=
          tally_removeUnit h (.inr ⟨hworker, hrefinery⟩)
        cases b₂ with
        | none => exact hfirst
        | some k => exact tally_removeUnit hfirst (.inr ⟨hworker, hrefinery⟩)
      next => exact h

lemma tally_start (ha : Archons tt) (h : Tally tt c st) {th : BuildEntry T} {b : T}
    {addon : Option T} {l : Loc T} {b₂ : Option Nat} {ex : Bool}
    (hb : (tt.info th.type).builder = some b)
    (hc : chooseBuilder tt st th.type b addon = ⟨some l, b₂, ex⟩) :
    Tally tt c (start tt st th b l b₂) := by
  have hocc : Uncounted st (occupy tt st th.type b l) :=
    occupy_of (fun _ l f hf h => h.modifyAt l f hf) (.refl st) ..
  have hbefore : Uncounted st (noteAddon tt (enqueue tt (occupy tt st th.type b l) th) th.type l) :=
    noteAddon_of (fun _ l f hf h => h.modifyAt l f hf) (hocc.trans (uncounted_enqueue _ th)) ..
  refine tally_consumeBuilder ha (h.of_uncounted hbefore) hb fun hlarva => ?_
  exact chooseBuilder_place hc hlarva

lemma keeps_tally (ha : Archons tt) (c : ℚ) (thing : Option (BuildEntry T)) :
    Keeps tt thing (Tally tt c) where
  complete st e es h _ _ := by
    refine tally_completeOne (h.of_uncounted ?_) e.2
    exact ⟨rfl, rfl, rfl, fun _ => rfl⟩
  refinery _ t h := tally_prebuildRefinery h t
  supply _ t h := tally_addBuilt h t true
  start _ _ _ _ _ _ _ _ hb hc h := tally_start ha h hb hc
  tick _ _ h := h.of_uncounted ⟨rfl, rfl, rfl, fun _ => rfl⟩

end tally

/-! ## free geysers -/

/-- what the refineries that are built ahead depend on, money apart -/
def gasPlan (st : BuildState T) : Int × Bool := (st.availableGases, st.autoBuildRefineries)

lemma gasPlan_modifyAt (n : Int × Bool) (st : BuildState T) (l : Loc T)
    (f : BuildStateUnit T → BuildStateUnit T) (hf : ∀ u, (f u).type = u.type)
    (h : gasPlan st = n) : gasPlan (modifyAt st l f hf) = n := by
  cases l with
  | unit t i => exact h
  | morphing i => exact h

lemma gasPlan_completeOne (st : BuildState T) (t : T) :
    gasPlan (completeOne tt st t) = gasPlan st := by
  unfold completeOne popMorphing
  split
  · dsimp only
    split <;> exact attachAddon_of (gasPlan_modifyAt _) rfl t
  · rfl

lemma gasPlan_start (st : BuildState T) (th : BuildEntry T) (b : T) (l : Loc T) (b₂ : Option Nat) :
    gasPlan (start tt st th b l b₂) = gasPlan st := by
  have hconsume (st' : BuildState T) :
      gasPlan (consumeBuilder tt st' th.type b l b₂) = gasPlan st' := by
    unfold consumeBuilder
    cases l with
    | morphing i => rfl
    | unit t i =>
      dsimp only
      split
      · split
        · split <;> rfl
        · rfl
      · split
        · cases b₂ <;> rfl
        · rfl
  have henqueue (st' : BuildState T) : gasPlan (enqueue tt st' th) = gasPlan st' := by
    obtain ⟨_, _, _, he⟩ := enqueue_eq tt st' th
    rw [he]
    unfold secondOfEgg
    split <;> rfl
  refine (hconsume _).trans (noteAddon_of (gasPlan_modifyAt _) ?_ ..)
  rw [henqueue]
  exact occupy_of (gasPlan_modifyAt _) rfl ..

section calls
variable {st st' : BuildState T} {thing : Option (BuildEntry T)} {endFrame : Int} {r : Advanced T}

lemma Decides.gasPlan {goal : Option (Goal T)} {s d : BuildState T × Bool}
    (h : Decides tt goal endFrame s d) : gasPlan d.1 = gasPlan s.1 :=
  h.invariant (J := fun c => AutoBuild.gasPlan c.1 = AutoBuild.gasPlan s.1)
    (fun c => completeDue_keeps (I := fun st => AutoBuild.gasPlan st = AutoBuild.gasPlan s.1)
      (fun _ _ _ h _ _ => (gasPlan_completeOne ..).trans h) _ c.1 c.2)
    (fun _ h => h) rfl

/-- in some round of the call only gas is short -/
def WantsRefinery (tt : TechTree T) (st : BuildState T) (thing : Option (BuildEntry T))
    (endFrame : Int) : Prop :=
  st.frame < endFrame ∧ ∃ th b addon p d, thing = some th ∧ (tt.info th.type).builder = some b ∧
    entryCheck tt st th.type (tt.info th.type).prerequisites none false = .ok (addon, p) ∧
    Decides tt (some ⟨th, b, addon⟩) endFrame (st, p) d ∧ wantsRefinery tt d.1 th.type = true

lemma WantsRefinery.allowed (h : WantsRefinery tt st thing endFrame) :
    st.autoBuildRefineries = true ∧ st.availableGases ≠ 0 := by
  obtain ⟨-, th, b, addon, p, d, -, -, -, hd, hwants⟩ := h
  have hplan := Prod.mk.inj hd.gasPlan
  simp only [wantsRefinery, Bool.and_eq_true, decide_eq_true_eq] at hwants
  exact ⟨hplan.2 ▸ hwants.1.1.1.1, hplan.1 ▸ hwants.1.1.1.2⟩

/-- **A call that wants a refinery in some round takes a geyser.**  That round is its last. -/
lemma WantsRefinery.takes (hwants : WantsRefinery tt st thing endFrame)
    (h : advance tt st thing endFrame = .ok (r, st')) :
    st'.availableGases = st.availableGases - 1 := by
  obtain ⟨hlt, th, b, addon, p, d, rfl, hb, hentry, hd, hwants⟩ := hwants
  have hahead : decision tt (some ⟨th, b, addon⟩) d =
      some (.builtdep, prebuildRefinery tt d.1 (tt.getRaceRefinery (tt.info th.type).race)) :=
    if_pos hwants
  rcases advance_decides hlt h with ⟨t, ht, -⟩ | ⟨b', addon', p', d', hb', hentry', hd', hres⟩
  · cases ht.symm.trans hentry
  cases hb.symm.trans hb'
  cases hentry.symm.trans hentry'
  have hstop : decision tt (some ⟨th, b, addon⟩) d' ≠ none ∨
      endFrame ≤ (tick d'.1 endFrame).frame := by
    rcases hres with hres | ⟨-, -, rfl, hle⟩
    · exact .inl (Option.ne_none_iff_exists'.mpr ⟨_, hres⟩)
    · exact .inr hle
  obtain rfl := hd'.unique hd hstop (.inl (Option.ne_none_iff_exists'.mpr ⟨_, hahead⟩))
  rcases hres with hres | ⟨hnone, -⟩
  · cases hahead.symm.trans hres
    exact congrArg (· - 1) (Prod.mk.inj hd.gasPlan).1
  · cases hahead.symm.trans hnone

/-- **A call that wants no refinery leaves the geysers alone.** -/
lemma advance_gasPlan (h : advance tt st thing endFrame = .ok (r, st'))
    (hno : ¬WantsRefinery tt st thing endFrame) : gasPlan st' = gasPlan st := by
  by_cases hlt : st.frame < endFrame
  swap
  · rw [advance_late hlt] at h
    cases h
    rfl
  cases thing with
  | none =>
    rw [advance, if_neg (not_le.mpr hlt), Except.ok.injEq] at h
    obtain ⟨d, hd, hres⟩ := advanceLoop_decides (s := (st, false)) _ hlt le_rfl h
    rcases hres with hres | ⟨-, -, rfl, -⟩
    · cases hres
    · exact hd.gasPlan
  | some th =>
    rcases advance_decides hlt h with ⟨_, _, _, rfl⟩ | ⟨b, addon, p, d, hb, hentry, hd, hres⟩
    · rfl
    refine Eq.trans ?_ hd.gasPlan
    rcases hres with hres | ⟨-, -, rfl, -⟩
    · cases tryBuild_decided hres with
      | refinery hwants => exact absurd ⟨hlt, th, b, addon, p, d, rfl, hb, hentry, hd, hwants⟩ hno
      | start hc => exact gasPlan_start ..
      | prebuilt | maxedOut | supply | missing => rfl
    · rfl

/-- a call of `advance` that wants no refinery -/
def Calm (tt : TechTree T) (st st' : BuildState T) : Prop :=
  ∃ thing endFrame r, advance tt st thing endFrame = .ok (r, st') ∧
    ¬WantsRefinery tt st thing endFrame

lemma calm_gases (h : Relation.ReflTransGen (Calm tt) st st') :
    st'.availableGases = st.availableGases := by
  induction h with
  | refl => rfl
  | tail _ hcall ih =>
    obtain ⟨_, _, _, hcall, hno⟩ := hcall
    exact (Prod.mk.inj (advance_gasPlan hcall hno)).1.trans ih

/-- The free geysers get fewer, and stay as many only if no call takes one. -/
lemma advances_gases (h : Relation.ReflTransGen (Advances tt) st st') :
    st'.availableGases ≤ st.availableGases ∧
      (st'.availableGases = st.availableGases → Relation.ReflTransGen (Calm tt) st st') := by
  induction h with
  | refl => exact ⟨le_rfl, fun _ => .refl⟩
  | @tail a b _ hcall ih =>
    obtain ⟨thing, endFrame, r, hcall⟩ := hcall
    by_cases hwants : WantsRefinery tt a thing endFrame
    · have htaken := hwants.takes hcall
      exact ⟨by omega, fun h => by omega⟩
    · have hsame := (Prod.mk.inj (advance_gasPlan hcall hwants)).1
      refine ⟨by omega, fun h => (ih.2 (by omega)).tail ⟨thing, endFrame, r, hcall, hwants⟩⟩

/-- without geysers or the permission nothing is built ahead -/
lemma advances_calm (hno : st.autoBuildRefineries = false ∨ st.availableGases = 0)
    (h : Relation.ReflTransGen (Advances tt) st st') :
    Relation.ReflTransGen (Calm tt) st st' ∧ gasPlan st' = gasPlan st := by
  induction h with
  | refl => exact ⟨.refl, rfl⟩
  | @tail a b _ hcall ih =>
    obtain ⟨thing, endFrame, r, hcall⟩ := hcall
    have hcalm : ¬WantsRefinery tt a thing endFrame := by
      intro hwants
      obtain ⟨hallowed, hfree⟩ := hwants.allowed
      have hplan := Prod.mk.inj ih.2
      rcases hno with hno | hno
      · rw [hplan.2, hno] at hallowed
        cases hallowed
      · exact hfree (hplan.1.trans hno)
    exact ⟨ih.1.tail ⟨thing, endFrame, r, hcall, hcalm⟩,
      (advance_gasPlan hcall hcalm).trans ih.2⟩

end calls

/-! ## calls -/

/-- **The workers are counted after any calls, the refineries exactly if no call wanted one.**  No
call does without a free geyser, or if refineries are not to be built ahead. -/
theorem counters_exact (tt : TechTree T) (ha : Archons tt) (st st' : BuildState T)
    (hw : st.workers = countWhere tt isWorker st) (hr : st.refineries = countWhere tt isRefinery st)
    (h : Relation.ReflTransGen (Call tt) st st') :
    st'.workers = countWhere tt isWorker st' ∧
    (st'.refineries = countWhere tt isRefinery st' ↔ Relation.ReflTransGen (Calm tt) st st') ∧
    (st.autoBuildRefineries = false ∨ st.availableGases = 0 →
      st'.refineries = countWhere tt isRefinery st') := by
  have hstart : Tally tt st.availableGases st := by
    constructor
    · rw [hw, Int.cast_natCast, countWhere_eq]
    · rw [hr, Int.cast_natCast, countWhere_eq]
  have hend := calls_keep (keeps_tally ha st.availableGases) h hstart
  have hworkers := hend.workers
  have hrefineries := hend.refineries
  rw [← countWhere_eq] at hworkers hrefineries
  have hsum : st'.refineries + st'.availableGases
      = countWhere tt isRefinery st' + st.availableGases := by exact_mod_cast hrefineries
  have hadv := calls_advance h
  refine ⟨by exact_mod_cast hworkers, ⟨fun heq => ?_, fun hcalm => ?_⟩, fun hno => ?_⟩
  · exact (advances_gases hadv).2 (by omega)
  · have := calm_gases hcalm
    omega
  · have := calm_gases (advances_calm hno hadv).1
    omega

def noGas : BuildState Sample where
  frame := 400
  minerals := 500
  usedSupply := fun _ => 2
  maxSupply := fun _ => 9
  units := ((Roster.empty.push { type := .hatchery }).push { type := .drone }).push
    { type := .hydraliskDen }
  workers := 1
  availableGases := 1

lemma noGas_counted : noGas.workers = countWhere sampleTree isWorker noGas ∧
    noGas.refineries = countWhere sampleTree isRefinery noGas := by
  constructor
  · decide +kernel
  · decide +kernel

theorem counters_exact_drone :
    ∃ st', advance sampleTree noGas (some { type := .drone }) 500 = .ok (.success, st') ∧
      st'.workers = countWhere sampleTree isWorker st' ∧
      st'.refineries = countWhere sampleTree isRefinery st' := by
  obtain ⟨st', h⟩ := ok_of_fst (a := Advanced.success)
    (x := advance sampleTree noGas (some { type := .drone }) 500) (by decide +kernel)
  have hcount := counters_exact sampleTree sampleTree_archons noGas st' noGas_counted.1
    noGas_counted.2 (.single (.advance h))
  refine ⟨st', h, hcount.1, hcount.2.1.mpr (.single ⟨_, _, _, h, ?_⟩)⟩
  -- a drone costs no gas
  rintro ⟨-, th, b, addon, p, d, hth, -, -, -, hwants⟩
  cases hth
  have hgas : hasEnoughGas sampleTree d.1 .drone = true := decide_eq_true (.inl rfl)
  simp [wantsRefinery, hgas] at hwants

/-- **A refinery that is built ahead is counted twice.**  -/
theorem refinery_counted_twice :
    noGas.workers = countWhere sampleTree isWorker noGas ∧
    noGas.refineries = countWhere sampleTree isRefinery noGas ∧
    (advance sampleTree noGas (some { type := .hydralisk }) 500).toOption.map
        (fun r => (r.1, r.2.refineries, countWhere sampleTree isRefinery r.2))
      = some (.builtdep, 2, 1) := by
  refine ⟨noGas_counted.1, noGas_counted.2, ?_⟩
  decide +kernel

end TorchCraft.AutoBuild
