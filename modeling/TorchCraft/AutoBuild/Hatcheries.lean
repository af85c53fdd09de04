import TorchCraft.AutoBuild.Import

/-!
# Morphing hatcheries

A hatchery that morphs leaves the roster and comes back as a lair or hive.  In between a record of
`morphingHatcheries` should give its larvae.  `getMyState` makes one for each lair and hive in
production.  `advance` makes one if the builder is a lair or hive, and takes one away if the builder
of what completes is: a lair that starts has no record, and a lair that completes leaves its own
behind.

* `HatcheryTree`  what the type table says about the three types.
-/

namespace TorchCraft.AutoBuild

variable {T : Type} [DecidableEq T] {tt : TechTree T}

structure HatcheryTree (tt : TechTree T) : Prop where
  lair_ne_hive : tt.zergLair ≠ tt.zergHive
  larva_ne_lair : tt.zergLarva ≠ tt.zergLair
  hive : (tt.info tt.zergHive).builder = some tt.zergLair
  /-- nothing but a hive is built from a lair or hive -/
  only : ∀ t, (tt.info t).isUnit = true → (tt.info t).builder = some tt.zergLair ∨
    (tt.info t).builder = some tt.zergHive → t = tt.zergHive
  units : ∀ t, t = tt.zergLair ∨ t = tt.zergHive → (tt.info t).isUnit = true
  single : ∀ t, t = tt.zergLair ∨ t = tt.zergHive → (tt.info t).isTwoUnitsInOneEgg = false
  race : (tt.info tt.zergLair).race = .zerg

section sides
variable (tt : TechTree T) (st : BuildState T)

def completedHatcheries : Nat :=
  (st.units.list tt.zergHatchery).length + (st.units.list tt.zergLair).length +
    (st.units.list tt.zergHive).length

def larvaRecords : Nat := completedHatcheries tt st + st.morphingHatcheries.length

/-- the buildings that give larvae: the complete ones and the lairs and hives in production -/
def larvaBuildings : Nat :=
  completedHatcheries tt st + (countProduction st tt.zergLair + countProduction st tt.zergHive)

end sides

/-! ## counting the production -/

lemma countProduction_emplaceProd (l : List (Int × T)) (frame : Int) (t s : T) :
    (emplaceProd l frame t).countP (fun v => decide (v.2 = s)) =
      l.countP (fun v => decide (v.2 = s)) + if t = s then 1 else 0 := by
  rw [(emplaceProd_perm l frame t).countP_eq, List.countP_cons]
  simp only [decide_eq_true_eq]

lemma countProduction_enlist (l : List (Int × T)) (frame : Int) (t s : T)
    (hs : (tt.info s).isTwoUnitsInOneEgg = false) :
    (enlist tt l frame t).countP (fun v => decide (v.2 = s)) =
      l.countP (fun v => decide (v.2 = s)) + if t = s then 1 else 0 := by
  unfold enlist
  split
  next htwo =>
    have hne : t ≠ s := by
      rintro rfl
      rw [hs] at htwo
      cases htwo
    rw [countProduction_emplaceProd, countProduction_emplaceProd, if_neg hne]
  next => exact countProduction_emplaceProd ..

/-! ## what a write does to the records -/

/-- there is a record for each hive in production, and `n` more -/
def Unmatched (tt : TechTree T) (n : Nat) (st : BuildState T) : Prop :=
  st.morphingHatcheries.length = countProduction st tt.zergHive + n

section writes
variable {st : BuildState T} {n : Nat}

lemma morphing_modifyAt (n : Nat) (st : BuildState T) (l : Loc T)
    (f : BuildStateUnit T → BuildStateUnit T) (hf : ∀ u, (f u).type = u.type)
    (h : st.morphingHatcheries.length = n) :
    (modifyAt st l f hf).morphingHatcheries.length = n := by
  cases l with
  | unit t i => exact h
  | morphing i => exact (List.length_modify ..).trans h

/-- a hive that starts leaves a record of its lair; nothing else does -/
lemma consumeBuilder_morphing (ht : HatcheryTree tt) {build b : T} {l : Loc T} {b₂ : Option Nat}
    (hb : (tt.info build).builder = some b)
    (hl : b ≠ tt.zergLarva → ∃ i, l = .unit b i ∧ i < (st.units.list b).length) :
    (consumeBuilder tt st build b l b₂).morphingHatcheries.length =
      st.morphingHatcheries.length + if build = tt.zergHive then 1 else 0 := by
  by_cases hhive : build = tt.zergHive
  · subst hhive
    obtain rfl : tt.zergLair = b := Option.some.inj (ht.hive.symm.trans hb)
    obtain ⟨i, rfl, hi⟩ := hl (Ne.symm ht.larva_ne_lair)
    unfold consumeBuilder
    dsimp only
    rw [if_pos ⟨ht.race, Ne.symm ht.larva_ne_lair⟩, if_pos (ht.units _ (.inr rfl)), if_pos (.inl rfl),
      if_pos rfl]
    show (st.morphingHatcheries ++ (st.units.list tt.zergLair)[i]?.toList).length = _
    rw [List.getElem?_eq_getElem hi, List.length_append]
    rfl
  · rw [if_neg hhive]
    unfold consumeBuilder
    split
    · rfl
    next t i =>
      split
      next hc =>
        obtain ⟨j, hj, -⟩ := hl hc.2
        cases hj
        split
        next hunit =>
          -- a unit with this builder would be a hive
          have hother : ¬(b = tt.zergLair ∨ b = tt.zergHive) := by
            rintro (h | h)
            · exact hhive (ht.only build hunit (.inl (hb.trans (congrArg some h))))
            · exact hhive (ht.only build hunit (.inr (hb.trans (congrArg some h))))
          rw [if_neg hother]
          rfl
        next => rfl
      next =>
        split
        · cases b₂ <;> rfl
        · rfl

lemma unmatched_start (ht : HatcheryTree tt) (h : Unmatched tt n st) {th : BuildEntry T} {b : T}
    {addon : Option T} {l : Loc T} {b₂ : Option Nat} {ex : Bool}
    (hb : (tt.info th.type).builder = some b)
    (hc : chooseBuilder tt st th.type b addon = ⟨some l, b₂, ex⟩) :
    Unmatched tt n (start tt st th b l b₂) := by
  have hrecords : (start tt st th b l b₂).morphingHatcheries.length =
      st.morphingHatcheries.length + if th.type = tt.zergHive then 1 else 0 := by
    refine (consumeBuilder_morphing ht hb fun hlarva => ?_).trans (congrArg (· + _) ?_)
    · exact chooseBuilder_place hc hlarva
    · refine noteAddon_of (morphing_modifyAt _) ?_ ..
      rw [(enqueue_records ..).2]
      exact occupy_of (morphing_modifyAt _) rfl ..
  have hprod : countProduction (start tt st th b l b₂) tt.zergHive =
      countProduction st tt.zergHive + if th.type = tt.zergHive then 1 else 0 := by
    unfold countProduction
    rw [(start_times ..).2, countProduction_enlist _ _ _ _ (ht.single _ (.inr rfl))]
  unfold Unmatched at h ⊢
  omega

lemma completeOne_morphing (ht : HatcheryTree tt) (st : BuildState T) (t : T) :
    (completeOne tt st t).morphingHatcheries.length =
      st.morphingHatcheries.length - if t = tt.zergHive then 1 else 0 := by
  have hbefore : (addUnit tt (releaseSupply tt
      (if (tt.info t).isAddon = true then attachAddon tt st t else st) t) t).morphingHatcheries.length
        = st.morphingHatcheries.length := attachAddon_of (morphing_modifyAt _) rfl t
  unfold completeOne popMorphing
  split
  next hunit =>
    dsimp only
    split
    next hb =>
      rw [if_pos (ht.only t hunit hb), List.length_dropLast, hbefore]
    next hb =>
      have hne : t ≠ tt.zergHive := by
        rintro rfl
        exact hb (.inl ht.hive)
      rw [if_neg hne, hbefore]
      rfl
  next hunit =>
    have hne : t ≠ tt.zergHive := by
      rintro rfl
      exact hunit (ht.units _ (.inr rfl))
    rw [if_neg hne]
    rfl

lemma keeps_unmatched (ht : HatcheryTree tt) (n : Nat) (thing : Option (BuildEntry T)) :
    Keeps tt thing (Unmatched tt n) where
  complete st e es h hprod _ := by
    have hrecords := completeOne_morphing ht { st with production := es } e.2
    have hcount : countProduction st tt.zergHive
        = es.countP (fun v => decide (v.2 = tt.zergHive)) + if e.2 = tt.zergHive then 1 else 0 := by
      unfold countProduction
      rw [hprod, List.countP_cons]
      simp only [decide_eq_true_eq]
    unfold Unmatched at h ⊢
    unfold countProduction at hcount h ⊢
    rw [completeOne_production, hrecords]
    show st.morphingHatcheries.length - _ = es.countP _ + n
    omega
  refinery _ _ h := h
  supply _ _ h := h
  start _ _ _ _ _ _ _ _ hb hc h := unmatched_start ht h hb hc
  tick _ _ h := h

/-- a call that does not ask for a lair starts none -/
lemma keeps_lairless (ht : HatcheryTree tt) {thing : Option (BuildEntry T)}
    (hthing : ∀ th, thing = some th → th.type ≠ tt.zergLair) :
    Keeps tt thing (fun st => countProduction st tt.zergLair = 0) where
  complete st e es h hprod _ := by
    unfold countProduction at h ⊢
    rw [hprod, List.countP_cons] at h
    rw [completeOne_production]
    exact Nat.eq_zero_of_add_eq_zero_right h
  refinery _ _ h := h
  supply _ _ h := h
  start st th b addon l b₂ ex hth _ _ h := by
    unfold countProduction at h ⊢
    rw [(start_times ..).2, countProduction_enlist _ _ _ _ (ht.single _ (.inl rfl)), h,
      if_neg (hthing th hth)]
  tick _ _ h := h

end writes

/-! ## the game and the calls -/

/-- a call of `advance` with no lair in production, and not for one -/
def Lairless (tt : TechTree T) (st st' : BuildState T) : Prop :=
  ∃ thing endFrame r, advance tt st thing endFrame = .ok (r, st') ∧
    countProduction st tt.zergLair = 0 ∧ ∀ th, thing = some th → th.type ≠ tt.zergLair

lemma Lairless.call {st st' : BuildState T} (h : Lairless tt st st') : Call tt st st' := by
  obtain ⟨_, _, _, h, -⟩ := h
  exact .advance h

lemma lairless_count (ht : HatcheryTree tt) {st st' : BuildState T}
    (h : Relation.ReflTransGen (Lairless tt) st st') :
    countProduction st' tt.zergLair = countProduction st tt.zergLair := by
  induction h with
  | refl => rfl
  | tail _ hcall ih =>
    obtain ⟨_, _, _, hcall, hzero, hthing⟩ := hcall
    exact ((keeps_lairless ht hthing).advance hcall hzero).trans (hzero.symm.trans ih)

lemma imports_matched {it : ImportTree T} (ht : HatcheryTree it.toTechTree) :
    Imports it (fun st => st.morphingHatcheries.length =
      countProduction st it.zergLair + countProduction st it.zergHive) where
  research st frame t htech h := by
    have hne : ∀ s, s = it.zergLair ∨ s = it.zergHive → t ≠ s := by
      rintro s hs rfl
      rw [ht.units t hs] at htech
      cases htech
    show st.morphingHatcheries.length = (emplaceProd _ _ _).countP _ + (emplaceProd _ _ _).countP _
    rw [countProduction_emplaceProd, countProduction_emplaceProd, if_neg (hne _ (.inl rfl)),
      if_neg (hne _ (.inr rfl))]
    exact h
  production larvae st u t h := by
    have hcount : ∀ s, s = it.zergLair ∨ s = it.zergHive →
        countProduction (importProduction larvae st u t) s
          = countProduction st s + if t = s then 1 else 0 := by
      intro s hs
      have hsingle := ht.single s hs
      unfold importProduction toProduction countProduction
      dsimp only
      by_cases hts : t = s
      · subst hts
        rw [hsingle, if_neg Bool.false_ne_true]
        split <;> exact countProduction_emplaceProd ..
      · split <;> split <;> simp only [countProduction_emplaceProd, if_neg hts, Nat.add_zero]
    have hrecords : (importProduction larvae st u t).morphingHatcheries.length =
        st.morphingHatcheries.length + if t = it.zergLair ∨ t = it.zergHive then 1 else 0 := by
      unfold importProduction toProduction
      split <;> split <;> simp
    have hne := ht.lair_ne_hive
    rw [hcount _ (.inl rfl), hcount _ (.inr rfl), hrecords, h]
    by_cases hlair : t = it.zergLair
    · have : t ≠ it.zergHive := hlair ▸ hne
      simp [hlair, hne]
      omega
    · simp [hlair]
      omega
  completed larvae st u t h := h

/-- **The records and the buildings that give larvae agree as long as no lair is in production when
`advance` is called, and none is asked for.**  After any calls they do exactly if as many lairs are in
production as in the beginning. -/
theorem hatcheries_conserved (it : ImportTree T) (ht : HatcheryTree it.toTechTree) (w : World it)
    (st : BuildState T) :
    (Relation.ReflTransGen (Lairless it.toTechTree) (getMyState w) st →
      larvaRecords it.toTechTree st = larvaBuildings it.toTechTree st) ∧
    (Relation.ReflTransGen (Call it.toTechTree) (getMyState w) st →
      (larvaRecords it.toTechTree st = larvaBuildings it.toTechTree st ↔
        countProduction st it.zergLair = countProduction (getMyState w) it.zergLair)) := by
  have hinit : Unmatched it.toTechTree (countProduction (getMyState w) it.zergLair) (getMyState w) :=
    ((imports_matched ht).imported w rfl).trans (Nat.add_comm ..)
  have hexact (h : Relation.ReflTransGen (Call it.toTechTree) (getMyState w) st) :
      larvaRecords it.toTechTree st = larvaBuildings it.toTechTree st ↔
        countProduction st it.zergLair = countProduction (getMyState w) it.zergLair := by
    have hend := calls_keep (keeps_unmatched ht _) h hinit
    unfold Unmatched at hend
    unfold larvaRecords larvaBuildings
    omega
  refine ⟨fun h => (hexact ?_).mpr (lairless_count ht h), hexact⟩
  exact Relation.ReflTransGen.mono (fun _ _ => Lairless.call) _ _ h

/-! ## a small game -/

def sampleImport : ImportTree Sample where
  toTechTree := sampleTree
  zergCocoon := .other
  zergLurkerEgg := .other
  zergDrone := .drone
  terranSiegeTankSiegeMode := .other
  terranSiegeTankTankMode := .other
  terranNuclearSilo := .other
  terranSCV := .other
  protossProbe := .other
  level := fun _ => 1
  allUpgradeTypes := []
  allTechTypes := [.lurkerAspect]

lemma sampleTree_hatcheries : HatcheryTree sampleTree where
  lair_ne_hive := by decide
  larva_ne_lair := by decide
  hive := rfl
  only := by decide
  units := by decide
  single := by decide
  race := rfl

def village (building : GameUnit sampleTree) : World sampleImport where
  currentFrame := 400
  ore := 500
  gas := 500
  used_psi := 4
  total_psi := 18
  myUnits := [{ id := 0, type := .hatchery }, { id := 1, type := .drone },
    { id := 2, type := .larva, associatedUnit := some 0 }, { id := 4, type := .spawningPool }, building]

def lairSoon : GameUnit sampleTree :=
  { id := 3, type := .lair, completed := false, remainingBuildTrainTime := 10 }

theorem simulated_village :
    ∃ st, advance sampleTree (getMyState (village lairSoon)) (some { type := .hive }) 500
        = .ok (.success, st) ∧ Timed st ∧
      st.workers = countWhere sampleTree TypeInfo.isWorker st ∧
      st.refineries = countWhere sampleTree TypeInfo.isRefinery st := by
  have hcall : (advance sampleTree (getMyState (village lairSoon)) (some { type := .hive })
      500).toOption.map (fun r => (r.1, decide (r.2.availableGases = 0))) = some (.success, true) := by
    decide +kernel
  obtain ⟨st, h⟩ := ok_of_fst (a := Advanced.success)
    (x := advance sampleTree (getMyState (village lairSoon)) (some { type := .hive }) 500)
    (by decide +kernel)
  obtain ⟨htimed, hworkers, hrefineries⟩ :=
    simulated_game sampleImport sampleTree_archons _ .zerg st (.single (.advance h))
  rw [h] at hcall
  have hgases : st.availableGases = 0 :=
    of_decide_eq_true (Prod.mk.inj (Option.some.inj hcall)).2
  exact ⟨st, h, htimed, hworkers, hrefineries.mpr (hgases.trans (by decide +kernel))⟩

theorem hatcheries_conserved_hive :
    ∃ st, advance sampleTree (getMyState (village { id := 3, type := .lair }))
        (some { type := .hive }) 500 = .ok (.success, st) ∧
      larvaRecords sampleTree st = larvaBuildings sampleTree st := by
  obtain ⟨st, h⟩ := ok_of_fst (a := Advanced.success)
    (x := advance sampleTree (getMyState (village { id := 3, type := .lair })) (some { type := .hive })
      500) (by decide +kernel)
  refine ⟨st, h, ?_⟩
  refine (hatcheries_conserved sampleImport sampleTree_hatcheries _ st).1 (.single ⟨_, _, _, h, ?_, ?_⟩)
  · decide +kernel
  · rintro th hth
    cases hth
    decide

/-- **A lair that starts has no record, and one that completes leaves its own.**  -/
theorem lair_records :
    (advance sampleTree (getMyState (village { id := 3, type := .other })) (some { type := .lair })
        500).toOption.map (fun r => (r.1, larvaRecords sampleTree r.2, larvaBuildings sampleTree r.2))
      = some (.success, 0, 1) ∧
    (advance sampleTree (getMyState (village lairSoon)) none
        500).toOption.map (fun r => (r.1, larvaRecords sampleTree r.2, larvaBuildings sampleTree r.2))
      = some (.timeout, 3, 2) := by
  constructor
  · decide +kernel
  · decide +kernel

end TorchCraft.AutoBuild
