import TorchCraft.AutoBuild.Loop

/-!
# The rounds of `advance`

A round of the loop completes what is due, decides, and lets time pass if there is nothing to do.

* `prereqsMet`  the prerequisites, as the check on entry sees them;
* `Waiting`, `waiting_decides`  the flag `prereqInProd` in every round;
* `Decides.unique`  the round in which a call ends.

The recheck in the completion loop asks `hasUnit` where the check on entry asks `has`, so it never
finds an upgrade or a technology (`lurker_waits`).
-/

set_option linter.unusedSectionVars false

namespace TorchCraft.AutoBuild
open List Function Bool

variable {T : Type} [DecidableEq T] {tt : TechTree T} {goal : Option (Goal T)} {endFrame : Int}
  {s d : BuildState T × Bool}

/-! ## prerequisites -/

def satisfied (tt : TechTree T) (st : BuildState T) (t : T) : Bool :=
  decide (t = tt.zergLarva) || has tt st t || morphEquivalent tt st t

def prereqsMet (tt : TechTree T) (st : BuildState T) (build : T) : Bool :=
  (tt.info build).prerequisites.all (satisfied tt st)

section met
variable {st st' : BuildState T} {t build : T}

lemma entryCheck_flag {ps : List T} {a a' : Option T} {p p' : Bool}
    (h : entryCheck tt st build ps a p = .ok (a', p')) :
    p' = (p || !ps.all (satisfied tt st)) ∧
      ∀ t ∈ ps, satisfied tt st t ∨ isInProduction st t := by
  induction ps generalizing a p with
  | nil =>
    cases h
    exact ⟨(Bool.or_false _).symm, nofun⟩
  | cons q ps ih =>
    have hmet : satisfied tt st q → ∀ a, entryCheck tt st build ps a p = .ok (a', p') →
        p' = (p || !(q :: ps).all (satisfied tt st)) ∧
          ∀ t ∈ q :: ps, satisfied tt st t ∨ isInProduction st t := by
      intro hq a h
      obtain ⟨hflag, hrest⟩ := ih h
      refine ⟨?_, forall_mem_cons.mpr ⟨.inl hq, hrest⟩⟩
      rw [all_cons, hq, Bool.true_and]
      exact hflag
    unfold entryCheck at h
    split at h
    next hl => exact hmet (by simp [satisfied, hl]) _ h
    next hl =>
      simp only at h
      split at h
      next hhas => exact hmet (by simp [satisfied, hhas]) _ h
      next hhas =>
        split at h
        next hmorph => exact hmet (by simp [satisfied, hmorph]) _ h
        next hmorph =>
          split at h
          next hprod =>
            obtain ⟨hflag, hrest⟩ := ih h
            refine ⟨?_, forall_mem_cons.mpr ⟨.inr hprod, hrest⟩⟩
            have hq : satisfied tt st q = false := by simp [satisfied, hl, hhas, hmorph]
            rw [hflag, all_cons, hq]
            simp
          next => cases h

/-- what is there stays there, and what is in production comes or stays in production -/
structure Grows (tt : TechTree T) (st st' : BuildState T) : Prop where
  unit : ∀ t, hasUnit st t = true → hasUnit st' t = true
  has : ∀ t, has tt st t = true → AutoBuild.has tt st' t = true
  coming : ∀ t, hasOrInProduction tt st t = true → hasOrInProduction tt st' t = true

lemma Grows.morphEquivalent (h : Grows tt st st') (hm : morphEquivalent tt st t) :
    morphEquivalent tt st' t := by
  unfold AutoBuild.morphEquivalent at hm ⊢
  have hgs := h.coming tt.zergGreaterSpire
  have hhive := h.coming tt.zergHive
  have hlair := h.coming tt.zergLair
  grind

lemma Grows.satisfied (h : Grows tt st st') (ht : satisfied tt st t) : satisfied tt st' t := by
  unfold AutoBuild.satisfied at ht ⊢
  rw [or_eq_true, or_eq_true] at ht ⊢
  exact ht.imp (Or.imp_right (h.has t)) h.morphEquivalent

lemma hasUnit_iff : hasUnit st t ↔ 0 < (st.units.list t).length := by
  unfold hasUnit
  rw [length_pos_iff, not_eq_true', isEmpty_eq_false_iff]

lemma completeOne_tech (st : BuildState T) (t t' : T) :
    (completeOne tt st t).upgradesAndTech t' =
      (st.upgradesAndTech t' || (!(tt.info t).isUnit && decide (t' = t))) := by
  cases hu : (tt.info t).isUnit with
  | true =>
    rw [(apart_completeOne st hu).tech, Bool.not_true, Bool.false_and, Bool.or_false]
  | false =>
    rw [completeOne, hu, if_neg Bool.false_ne_true]
    show update st.upgradesAndTech t true t' = _
    by_cases ht : t' = t
    · rw [ht, update_self]
      simp
    · rw [update_of_ne ht]
      simp [ht]

/-- **Completion takes no prerequisite away.** -/
theorem grows_completeOne {e : Int × T} {es : List (Int × T)} (hprod : st.production = e :: es) :
    Grows tt st (completeOne tt { st with production := es } e.2) := by
  have hhas : ∀ t, has tt st t ∨ t = e.2 →
      has tt (completeOne tt { st with production := es } e.2) t := by
    intro t ht
    unfold has at ht ⊢
    cases hu : (tt.info t).isUnit with
    | true =>
      rw [if_pos rfl, hasUnit_iff, completeOne_length]
      rcases ht with ht | rfl
      · rw [hu, if_pos rfl, hasUnit_iff] at ht
        exact Nat.add_pos_left ht _
      · rw [if_pos ⟨hu, rfl⟩]
        exact Nat.succ_pos _
    | false =>
      rw [if_neg Bool.false_ne_true, completeOne_tech]
      rcases ht with ht | rfl
      · rw [hu, if_neg Bool.false_ne_true] at ht
        show (st.upgradesAndTech t || _)
        rw [ht, Bool.true_or]
      · simp [hu]
  refine ⟨fun t ht => ?_, fun t ht => hhas t (.inl ht), fun t ht => ?_⟩
  · rw [hasUnit_iff, completeOne_length]
    exact Nat.add_pos_left (hasUnit_iff.mp ht) _
  unfold hasOrInProduction at ht ⊢
  rw [or_eq_true] at ht ⊢
  by_cases he : has tt st t ∨ t = e.2
  · exact .inl (hhas t he)
  · right
    have hin := ht.resolve_left fun h => he (.inl h)
    unfold isInProduction at hin ⊢
    rw [completeOne_production]
    rw [hprod, any_cons, or_eq_true, decide_eq_true_eq] at hin
    exact hin.resolve_left fun h => he (.inr h.symm)

/-- an upgrade or technology among the prerequisites, which no unit is -/
def TechRequired (tt : TechTree T) (st : BuildState T) (build : T) : Prop :=
  ∃ t ∈ (tt.info build).prerequisites, t ≠ tt.zergLarva ∧ (tt.info t).isUnit = false ∧
    hasUnit st t = false ∧ morphEquivalent tt st t = false

lemma recheck_iff : recheck tt st build ↔ ∃ t ∈ (tt.info build).prerequisites, t ≠ tt.zergLarva ∧
    hasUnit st t = false ∧ morphEquivalent tt st t = false := by
  simp only [recheck, any_eq_true, and_eq_true, not_eq_true', decide_eq_false_iff_not]
  exact exists_congr fun t => and_congr_right fun _ => and_assoc

/-- What the recheck misses although it is there is no unit. -/
lemma recheck_of_met (h : prereqsMet tt st build) :
    recheck tt st build ↔ TechRequired tt st build := by
  rw [recheck_iff]
  refine exists_congr fun t => and_congr_right fun ht => and_congr_right fun hl =>
    ⟨fun ⟨hu, hm⟩ => ⟨?_, hu, hm⟩, fun ⟨_, hu, hm⟩ => ⟨hu, hm⟩⟩
  have hsat := all_eq_true.mp h t ht
  simp only [satisfied, has, hl, hm, decide_false, Bool.false_or, Bool.or_false] at hsat
  split at hsat
  · rw [hu] at hsat
    cases hsat
  next hunit => exact Bool.not_eq_true _ ▸ hunit

lemma Grows.recheck (h : Grows tt st st') (hr : recheck tt st' build) :
    recheck tt st build := by
  rw [recheck_iff] at hr ⊢
  obtain ⟨t, ht, hl, hu, hm⟩ := hr
  exact ⟨t, ht, hl, eq_false_iff.mpr fun hu' => eq_false_iff.mp hu (h.unit t hu'),
    eq_false_iff.mpr fun hm' => eq_false_iff.mp hm (h.morphEquivalent hm')⟩

/-- the flag of a call that starts with the flag `p` -/
structure Waiting (tt : TechTree T) (build : T) (p : Bool) (st : BuildState T) (flag : Bool) :
    Prop where
  set : flag = true → p = true
  missed : flag = true → prereqsMet tt st build = true → recheck tt st build = true
  kept : p = true → recheck tt st build = true → flag = true

lemma waiting_completed {g : Goal T} {p : Bool} (h : Waiting tt g.thing.type p s.1 s.2) :
    Waiting tt g.thing.type p (completed tt (some g) s).1 (completed tt (some g) s).2 := by
  refine completeDue_flag (J := Waiting tt g.thing.type p) (fun st e es f hJ hprod _ => ?_)
    s.1 s.2 h
  have hgrows : Grows tt st _ := grows_completeOne hprod
  cases f with
  | true => exact ⟨fun _ => hJ.set rfl, fun h _ => h, fun _ h => h⟩
  | false => exact ⟨nofun, nofun, fun hp hr => hJ.kept hp (hgrows.recheck hr)⟩

lemma waiting_decides {g : Goal T} {st : BuildState T} {p : Bool}
    (hp : p = !prereqsMet tt st g.thing.type) (h : Decides tt (some g) endFrame (st, p) d) :
    Waiting tt g.thing.type p d.1 d.2 := by
  refine h.invariant (J := fun s => Waiting tt g.thing.type p s.1 s.2) (fun s => waiting_completed)
    (fun c hc => ⟨hc.set, hc.missed, hc.kept⟩) ⟨id, fun h hm => ?_, fun h _ => h⟩
  rw [hp, hm] at h
  cases h

end met

/-! ## the start conditions -/

section ready
variable (tt : TechTree T) (st : BuildState T)

def hasSupply (build : T) : Bool :=
  let info := tt.info build
  !(info.isUnit && decide (info.supplyRequired ≠ 0 ∧ info.builder ≠ some tt.zergMutalisk ∧
      build ≠ tt.protossArchon ∧ build ≠ tt.protossDarkArchon) &&
    decide (st.usedSupply info.race + info.supplyRequired >
      st.maxSupply info.race + st.inprodSupply info.race))

/-- there is a larva, or an idle unit that may build the thing, and another one for an Archon -/
def hasIdleBuilder (g : Goal T) : Bool :=
  if g.builder = tt.zergLarva then
    (larvaSources tt st).any fun x => x.2.any fun u => decide (342 ≤ st.frame - u.larvaTimer)
  else
    ((st.units.list g.builder).any fun u =>
      eligible tt g.thing.type g.addonRequired u && decide (u.busyUntil ≤ st.frame)) &&
    (!isArchon tt g.thing.type || decide (2 ≤ (st.units.list g.builder).length))

def ready (g : Goal T) : Bool :=
  hasEnoughMinerals tt st g.thing.type && hasEnoughGas tt st g.thing.type &&
    hasSupply tt st g.thing.type && hasIdleBuilder tt st g && prereqsMet tt st g.thing.type

variable {tt st}

lemma prereqsMet_of_ready {g : Goal T} (h : ready tt st g) : prereqsMet tt st g.thing.type := by
  unfold ready at h
  exact (and_eq_true _ _ ▸ h).2

lemma supplyCheck_of_hasSupply {build : T} (h : hasSupply tt st build) :
    supplyCheck tt st build = .enough ∨ supplyCheck tt st build = .maxedOut := by
  unfold hasSupply at h
  simp only [not_eq_true', and_eq_false_iff, decide_eq_false_iff_not] at h
  unfold supplyCheck
  dsimp only
  split
  next hu =>
    split
    next hc =>
      split
      · exact .inr rfl
      · have hle := h.resolve_left (not_or.mpr ⟨by simp [hu], not_not.mpr hc⟩)
        rw [if_neg hle]
        exact .inl rfl
    next => exact .inl rfl
  next => exact .inl rfl

lemma bestLarva_isSome {frame : Int} {us : List (BuildStateUnit T)} {i : Nat}
    {best : Option (Nat × Int)}
    (h : best.isSome ∨ ∃ u ∈ us, 342 ≤ frame - u.larvaTimer) :
    (bestLarva frame us i best).isSome := by
  induction us generalizing i best with
  | nil => exact h.resolve_right fun ⟨_, hu, _⟩ => absurd hu not_mem_nil
  | cons u us ih =>
    unfold bestLarva
    dsimp only
    split
    next => exact ih (.inl rfl)
    next hc =>
      refine ih ?_
      cases best with
      | some b => exact .inl rfl
      | none =>
        obtain ⟨v, hv, hlarva⟩ := h.resolve_left Bool.false_ne_true
        rcases mem_cons.mp hv with rfl | hv
        · have hpos : frame - v.larvaTimer > ((none : Option (Nat × Int)).map Prod.snd).getD 0 := by
            show (0 : Int) < _
            omega
          exact absurd ⟨hlarva, hpos⟩ hc
        · exact .inr ⟨v, hv, hlarva⟩

lemma larvaBuilder_isSome {frame : Int} {l : List ((Nat → Loc T) × List (BuildStateUnit T))}
    {ex : Bool} (h : ∃ x ∈ l, ∃ u ∈ x.2, 342 ≤ frame - u.larvaTimer) :
    (larvaBuilder frame l ex).1.isSome := by
  induction l generalizing ex with
  | nil =>
    obtain ⟨_, hx, _⟩ := h
    nomatch hx
  | cons y l ih =>
    obtain ⟨loc, us⟩ := y
    unfold larvaBuilder
    split
    next => rfl
    next hnone =>
      obtain ⟨x, hx, hlarva⟩ := h
      refine ih ⟨x, (mem_cons.mp hx).resolve_left ?_, hlarva⟩
      rintro rfl
      have hsome : (bestLarva frame us 0 none).isSome := bestLarva_isSome (.inr hlarva)
      rw [hnone] at hsome
      cases hsome

lemma chooseBuilder_isSome {g : Goal T} (h : hasIdleBuilder tt st g) :
    (chooseBuilder tt st g.thing.type g.builder g.addonRequired).builder.isSome := by
  unfold hasIdleBuilder at h
  unfold chooseBuilder
  split at h
  next hl =>
    rw [if_pos hl]
    refine larvaBuilder_isSome ?_
    obtain ⟨x, hx, hu⟩ := any_eq_true.mp h
    obtain ⟨u, hu, hlarva⟩ := any_eq_true.mp hu
    exact ⟨x, hx, u, hu, of_decide_eq_true hlarva⟩
  next hl =>
    rw [if_neg hl]
    rw [and_eq_true] at h
    have hsome : (idleBuilder tt g.thing.type g.addonRequired st.frame (st.units.list g.builder) 0
        false).1.isSome := by
      rw [idleBuilder_fst, Option.isSome_map, findIdx?_isSome]
      exact h.1
    dsimp only
    split
    next ex hi =>
      rw [hi] at hsome
      cases hsome
    next i ex hi =>
      split
      next harchon =>
        have hlen : 2 ≤ (st.units.list g.builder).length := by simpa [harchon] using h.2
        -- one of the places 0 and 1 is not the builder's
        have hother : ((range (st.units.list g.builder).length).find?
            fun j => decide (j ≠ i)).isSome := by
          rw [find?_isSome]
          by_cases hi0 : i = 0
          · exact ⟨1, mem_range.mpr (by omega), by simp [hi0]⟩
          · exact ⟨0, mem_range.mpr (by omega), by simpa using Ne.symm hi0⟩
        obtain ⟨j, hj⟩ := Option.isSome_iff_exists.mp hother
        rw [hj]
        rfl
      next => rfl

/-- With all start conditions only the flag keeps a thing waiting. -/
lemma tryBuild_of_ready {g : Goal T} (h : ready tt st g) {p : Bool} :
    tryBuild tt st g.thing g.builder g.addonRequired p = none ↔
      p = true ∧ supplyCheck tt st g.thing.type = .enough := by
  unfold ready at h
  simp only [and_eq_true] at h
  obtain ⟨⟨⟨⟨hmin, hgas⟩, hsup⟩, hbuilder⟩, -⟩ := h
  have hno : wantsRefinery tt st g.thing.type = false := by simp [wantsRefinery, hgas]
  unfold tryBuild
  rw [hno, if_neg Bool.false_ne_true]
  rcases supplyCheck_of_hasSupply hsup with hs | hs
  · rw [hs, hmin, hgas]
    cases p with
    | true => exact iff_of_true rfl ⟨rfl, rfl⟩
    | false =>
      refine iff_of_false ?_ nofun
      obtain ⟨l, hl⟩ := Option.isSome_iff_exists.mp (chooseBuilder_isSome hbuilder)
      show tryStart tt st g.thing g.builder g.addonRequired ≠ none
      unfold tryStart
      dsimp only
      rw [hl]
      exact Option.some_ne_none _
  · rw [hs]
    exact iff_of_false (Option.some_ne_none _) nofun

end ready

lemma tryBuild_success {st st' : BuildState T} {th : BuildEntry T} {b : T} {addon : Option T}
    {p : Bool} (h : tryBuild tt st th b addon p = some (.success, st')) :
    ∃ l b₂ ex, chooseBuilder tt st th.type b addon = ⟨some l, b₂, ex⟩ ∧
      st' = start tt st th b l b₂ := by
  cases tryBuild_decided h with
  | start hc => exact ⟨_, _, _, hc, rfl⟩

/-! ## waiting for prerequisites -/

lemma Grows.refl (st : BuildState T) : Grows tt st st := ⟨fun _ h => h, fun _ h => h, fun _ h => h⟩

lemma Grows.trans {st st' st'' : BuildState T} (h : Grows tt st st') (h' : Grows tt st' st'') :
    Grows tt st st'' :=
  ⟨fun t ht => h'.unit t (h.unit t ht), fun t ht => h'.has t (h.has t ht),
    fun t ht => h'.coming t (h.coming t ht)⟩

lemma grows_completed (goal : Option (Goal T)) (s : BuildState T × Bool) :
    Grows tt s.1 (completed tt goal s).1 :=
  completeDue_keeps (I := Grows tt s.1)
    (fun _ _ _ h hprod _ => h.trans (grows_completeOne hprod)) _ s.1 s.2 (.refl s.1)

lemma grows_decides (h : Decides tt goal endFrame s d) : Grows tt s.1 d.1 :=
  h.invariant (J := fun c => Grows tt s.1 c.1) (fun c hc => hc.trans (grows_completed goal c))
    (fun _ hc => ⟨hc.unit, hc.has, hc.coming⟩) (.refl s.1)

lemma tryBuild_ne_timeout (st st' : BuildState T) (th : BuildEntry T) (b : T) (addon : Option T)
    (p : Bool) : tryBuild tt st th b addon p ≠ some (.timeout, st') := by
  intro h
  cases tryBuild_decided h

/-- **A call ends in one round.** -/
lemma Decides.unique {d' : BuildState T × Bool} (h : Decides tt goal endFrame s d)
    (h' : Decides tt goal endFrame s d')
    (hd : decision tt goal d ≠ none ∨ endFrame ≤ (tick d.1 endFrame).frame)
    (hd' : decision tt goal d' ≠ none ∨ endFrame ≤ (tick d'.1 endFrame).frame) : d = d' := by
  induction h with
  | here s =>
    cases h' with
    | here => rfl
    | later hwait htime _ => exact absurd hd (not_or.mpr ⟨not_not.mpr hwait, not_le.mpr htime⟩)
  | later hwait htime _ ih =>
    cases h' with
    | here => exact absurd hd' (not_or.mpr ⟨not_not.mpr hwait, not_le.mpr htime⟩)
    | later _ _ h' => exact ih h' hd

section call
variable {st : BuildState T} {th : BuildEntry T} {b : T} {addon : Option T} {p : Bool}
  (hb : (tt.info th.type).builder = some b)
  (hentry : entryCheck tt st th.type (tt.info th.type).prerequisites none false = .ok (addon, p))
  (hlt : st.frame < endFrame)
include hb hentry hlt

/-- **A call times out exactly if it waits in its last round.** -/
lemma advance_timeout_iff {st' : BuildState T} :
    advance tt st (some th) endFrame = .ok (.timeout, st') ↔
      ∃ d, Decides tt (some ⟨th, b, addon⟩) endFrame (st, p) d ∧
        tryBuild tt d.1 th b addon d.2 = none ∧ st' = tick d.1 endFrame ∧ endFrame ≤ st'.frame := by
  have hends {r : Advanced T} {st'' : BuildState T}
      (h : advance tt st (some th) endFrame = .ok (r, st'')) :
      ∃ d, Decides tt (some ⟨th, b, addon⟩) endFrame (st, p) d ∧
        (tryBuild tt d.1 th b addon d.2 = some (r, st'') ∨ tryBuild tt d.1 th b addon d.2 = none ∧
          r = .timeout ∧ st'' = tick d.1 endFrame ∧ endFrame ≤ st''.frame) := by
    rcases advance_decides hlt h with ⟨t, ht, -⟩ | ⟨b', addon', p', d, hb', hentry', hd, hres⟩
    · rw [hentry] at ht
      cases ht
    · rw [hb] at hb'
      rw [hentry] at hentry'
      cases hb'
      cases hentry'
      exact ⟨d, hd, hres⟩
  constructor
  · intro h
    obtain ⟨d, hd, hres | ⟨hnone, -, hst, hle⟩⟩ := hends h
    · exact absurd hres (tryBuild_ne_timeout d.1 st' th b addon d.2)
    · exact ⟨d, hd, hnone, hst, hle⟩
  · rintro ⟨d, hd, hnone, rfl, hle⟩
    obtain ⟨r, st'', h⟩ := advance_ok st endFrame (hb ▸ rfl : (tt.info th.type).builder.isSome)
    obtain ⟨d', hd', hres⟩ := hends h
    have hstop : decision tt (some ⟨th, b, addon⟩) d' ≠ none ∨
        endFrame ≤ (tick d'.1 endFrame).frame := by
      rcases hres with hres | ⟨-, -, hst, hle'⟩
      · exact .inl fun hn => nomatch hres.symm.trans hn
      · exact .inr (hst ▸ hle')
    obtain rfl := hd.unique hd' (.inr hle) hstop
    rcases hres with hres | ⟨-, rfl, rfl, -⟩
    · exact nomatch hres.symm.trans hnone
    · exact h

end call

/-- **When a build waits for prerequisites that are there**: a prerequisite was in production when
`advance` was called, and one of them is an upgrade or technology.  So the last round of a timeout
misses something, unless everything is there and the flag is up for that reason. -/
theorem prerequisites_released (tt : TechTree T) (st : BuildState T) (th : BuildEntry T)
    (endFrame : Int) (b : T) (addon : Option T) (p : Bool) (hb : (tt.info th.type).builder = some b)
    (hentry :
      entryCheck tt st th.type (tt.info th.type).prerequisites none false = .ok (addon, p)) :
    (st.frame < endFrame →
      ((∀ st', advance tt st (some th) endFrame = .ok (.timeout, st') →
        ∃ d, Decides tt (some ⟨th, b, addon⟩) endFrame (st, p) d ∧ st' = tick d.1 endFrame ∧
          endFrame ≤ st'.frame ∧ ready tt d.1 ⟨th, b, addon⟩ = false) ↔
      ¬(p = true ∧ ∃ d, Decides tt (some ⟨th, b, addon⟩) endFrame (st, p) d ∧
        endFrame ≤ (tick d.1 endFrame).frame ∧ supplyCheck tt d.1 th.type = .enough ∧
          ready tt d.1 ⟨th, b, addon⟩ = true ∧ TechRequired tt d.1 th.type))) ∧
    ∀ d, Decides tt (some ⟨th, b, addon⟩) endFrame (st, p) d →
      (prereqsMet tt d.1 th.type = true → (d.2 = true ↔ p = true ∧ TechRequired tt d.1 th.type)) ∧
      ((∀ t ∈ (tt.info th.type).prerequisites, isInProduction st t = true → has tt d.1 t = true) →
        prereqsMet tt d.1 th.type = true) := by
  obtain ⟨hflag, hcoming⟩ := entryCheck_flag hentry
  have hflagged : ∀ d, Decides tt (some ⟨th, b, addon⟩) endFrame (st, p) d →
      prereqsMet tt d.1 th.type = true → (d.2 = true ↔ p = true ∧ TechRequired tt d.1 th.type) := by
    intro d hd hmet
    have hw := waiting_decides (g := ⟨th, b, addon⟩) (hflag.trans (Bool.false_or _)) hd
    rw [← recheck_of_met hmet]
    exact ⟨fun h => ⟨hw.set h, hw.missed h hmet⟩, fun h => hw.kept h.1 h.2⟩
  refine ⟨fun hlt => ⟨fun hall => ?_, fun hnot st' h => ?_⟩,
    fun d hd => ⟨hflagged d hd, fun hhas => ?_⟩⟩
  · rintro ⟨hp, d, hd, hlast, hsupply, hready, htech⟩
    have hup : d.2 = true := (hflagged d hd (prereqsMet_of_ready hready)).mpr ⟨hp, htech⟩
    have hwait : tryBuild tt d.1 th b addon d.2 = none :=
      (tryBuild_of_ready hready).mpr ⟨hup, hsupply⟩
    obtain ⟨d', hd', htick, -, hno⟩ := hall _
      ((advance_timeout_iff hb hentry hlt).mpr ⟨d, hd, hwait, rfl, hlast⟩)
    obtain rfl := hd.unique hd' (.inr hlast) (.inr (htick ▸ hlast))
    rw [hready] at hno
    cases hno
  · obtain ⟨d, hd, hnone, hst, hle⟩ := (advance_timeout_iff hb hentry hlt).mp h
    refine ⟨d, hd, hst, hle, eq_false_iff.mpr fun hready => hnot ?_⟩
    obtain ⟨hup, hsupply⟩ := (tryBuild_of_ready hready).mp hnone
    obtain ⟨hp, htech⟩ := (hflagged d hd (prereqsMet_of_ready hready)).mp hup
    exact ⟨hp, d, hd, hst ▸ hle, hsupply, hready, htech⟩
  · have hgrows : Grows tt st d.1 := grows_decides hd
    refine all_eq_true.mpr fun t ht => ?_
    rcases hcoming t ht with hsat | hprod
    · exact hgrows.satisfied hsat
    · unfold satisfied
      rw [hhas t ht hprod, Bool.or_true, Bool.true_or]

/-- a hatchery with a larva and a hydralisk; `t` completes in the next frame but one -/
def awaiting (t : Sample) : BuildState Sample where
  frame := 400
  minerals := 500
  gas := 500
  usedSupply := fun _ => 2
  maxSupply := fun _ => 9
  units := (Roster.empty.push { type := .hatchery }).push { type := .hydralisk }
  production := [(402, t)]

theorem prerequisites_released_den :
    (advance sampleTree (awaiting .hydraliskDen) (some { type := .hydralisk }) 401).toOption.map
        Prod.fst = some .timeout ∧
      ∃ d, Decides sampleTree (some ⟨{ type := .hydralisk }, .larva, none⟩) 401
        (awaiting .hydraliskDen, true) d ∧ ready sampleTree d.1 ⟨{ type := .hydralisk }, .larva, none⟩
          = false := by
  have htime : (advance sampleTree (awaiting .hydraliskDen) (some { type := .hydralisk })
      401).toOption.map Prod.fst = some .timeout := by decide +kernel
  refine ⟨htime, ?_⟩
  have hcall := (prerequisites_released sampleTree (awaiting .hydraliskDen) { type := .hydralisk } 401
    .larva none true rfl (by rfl)).1 (by decide)
  obtain ⟨st', hok⟩ := ok_of_fst htime
  have hunits : ∀ t ∈ (sampleTree.info .hydralisk).prerequisites,
      (sampleTree.info t).isUnit = true := by
    decide
  obtain ⟨d, hd, -, -, hnot⟩ := hcall.mpr (fun ⟨_, d, _, _, _, _, t, ht, _, htech, _⟩ => by
    rw [hunits t ht] at htech
    cases htech) st' hok
  exact ⟨d, hd, hnot⟩

/-- **A lurker whose technology is being researched is never started.**  -/
theorem lurker_waits :
    entryCheck sampleTree (awaiting .lurkerAspect) .lurker (sampleTree.info .lurker).prerequisites none
        false = .ok (none, true) ∧
    (advance sampleTree (awaiting .lurkerAspect) (some { type := .lurker }) 420).toOption.map Prod.fst
        = some .timeout ∧
    ∃ d, Decides sampleTree (some ⟨{ type := .lurker }, .hydralisk, none⟩) 420
        (awaiting .lurkerAspect, true) d ∧
      (tick d.1 420).frame = 420 ∧ isInProduction d.1 .lurkerAspect = false ∧
      ready sampleTree d.1 ⟨{ type := .lurker }, .hydralisk, none⟩ = true ∧ d.2 = true := by
  refine ⟨by rfl, by decide +kernel, _, .later ?_ ?_ (.here _), ?_, ?_, ?_, ?_⟩
  · exact Option.isNone_iff_eq_none.mp (by decide +kernel)
  · decide +kernel
  · decide +kernel
  · decide +kernel
  · decide +kernel
  · decide +kernel

end TorchCraft.AutoBuild
