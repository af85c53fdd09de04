import TorchCraft.Builder.Invariant

/-!
# The loops of `BuilderModule::step`, and whole runs

* `takeUpcs_spec`  they are quiet for all controllers that are there;
* `finished_cancelOthers`  the loop that cancels the tasks of a controller;
* `visitAll_spec`  the loop over the tasks is quiet for a controller that is halted, and if
  one of its tasks is finished then all are in the end;
* `inv_update`  `Blackboard::update`;
* `inv_run`, `still_run`  every operation keeps `Inv`; only steps of the module post for a
  controller.
-/

set_option linter.unusedSectionVars false

namespace TorchCraft.Builder
open Lib Board Function State
open TorchCraft.Lib.Effects (map_ok bind_ok foldlM_inv foldl_related)
open List

variable {U B M : Type} [DecidableEq U] [DecidableEq M] {this : M} {c : TaskPtr}
  {s s' : State U B M} {T : BuildTypes B} {frame : Int}

/-! ## the loops of the module -/

lemma create_spec (hI : Inv this s) {q : UpcId × UPCTuple U B} {x : UPCData M (UPCTuple U B)}
    (hx : s.upcs.upcs.find q.1 = some x) (h : create this frame T s q = .ok s') :
    Inv this s' ∧ (∀ e, s.controller e = some e → Quiet e s s') ∧
      ∀ id, id ≠ q.1 → s'.upcs.upcs.find id = s.upcs.upcs.find id := by
  unfold create at h
  cases hw : wanted T q.2 with
  | none =>
    rw [hw] at h
    rw [← Except.ok.inj h]
    exact ⟨hI, fun e _ => Quiet.refl e s, fun _ _ => rfl⟩
  | some r =>
    rw [hw] at h
    have hnew : ∀ p e, s.controller p = some e → p.upcId ≠ q.1 := by
      intro p e hp hpq
      have hfree := (hI.given p e hp).2
      rw [hpq, hx] at hfree
      nomatch hfree
    have hne : ∀ p e, s.controller p = some e → p ≠ ⟨q.1, s.serial⟩ :=
      fun p e hp hpq => hnew p e hp (congrArg TaskPtr.upcId hpq)
    have hadd := added_of_postNew h
    refine ⟨?_, fun e he => ?_, fun id hid => ?_⟩
    · refine hadd.inv (inv_consumeUPC (inv_setCtrl hI fun hc => absurd rfl (hne _ _ hc)) q.1)
        (hI.posted q.1 x hx) ?_ hnew (.inr rfl)
      exact (OrdMap.find_erase ..).trans (if_pos rfl)
    · have hec := hne e e he
      exact ((quiet_setCtrl hec s _).trans (quiet_consumeUPC e _ q.1)).trans (hadd.quiet hne hec)
    · rw [hadd.upcs]
      exact (OrdMap.find_erase ..).trans (if_neg hid)

lemma setCreatePriority_spec (hI : Inv this s) (q : UpcId × UPCTuple U B) :
    Inv this (s.setCreatePriority this q) ∧ ∀ e, Quiet e s (s.setCreatePriority this q) := by
  have hset : ∀ k value, Inv this (s.setCtrl k { s.ctrls k with priority := value }) ∧
      ∀ e, Quiet e s (s.setCtrl k { s.ctrls k with priority := value }) := by
    intro k value
    refine ⟨inv_setCtrl hI fun _ => rfl, fun e => ?_⟩
    refine ⟨⟨fun _ => Iff.rfl, fun _ _ _ => rfl, rfl⟩, ?_, fun _ _ => Iff.rfl⟩
    by_cases hek : e = k
    · rw [hek, setCtrl_self]
      rfl
    · rw [setCtrl_of_ne hek]
  have hconsume : ∀ s₁ : State U B M, Inv this s₁ ∧ (∀ e, Quiet e s s₁) →
      Inv this { s₁ with upcs := s₁.upcs.consumeUPC q.1 } ∧
        ∀ e, Quiet e s { s₁ with upcs := s₁.upcs.consumeUPC q.1 } := by
    rintro s₁ ⟨h₁, hq⟩
    exact ⟨inv_consumeUPC h₁ q.1, fun e => (hq e).trans (quiet_consumeUPC e s₁ q.1)⟩
  apply hconsume
  split
  · exact ⟨hI, fun e => Quiet.refl e s⟩
  · exact hset _ _

/-- the two loops over UPCs: what every round keeps, they keep; a UPC of the first list stays on the
board until its own turn -/
lemma takeUpcs_rule (hI : Inv this s) {K : State U B M → Prop} (hK : K s)
    (hcreate : ∀ s₁ s₂ q x, Inv this s₁ → K s₁ → s₁.upcs.upcs.find q.1 = some x →
      create this frame T s₁ q = .ok s₂ → K s₂)
    (hpriority : ∀ s₁ q, Inv this s₁ → K s₁ → K (s₁.setCreatePriority this q))
    (h : s.takeUpcs this frame T = .ok s') : Inv this s' ∧ K s' := by
  obtain ⟨s₁, h₁, rfl⟩ := map_ok h
  have hloop := foldlM_inv (fun l s₁ => (Inv this s₁ ∧ K s₁) ∧
    (∀ q ∈ l, ∃ x, s₁.upcs.upcs.find q.1 = some x) ∧ (l.map Prod.fst).Nodup) ?_ ?_ h₁
  · obtain ⟨hI₁, -⟩ := hloop
    generalize s₁.upcsWithSharpCommand .setCreatePriority = l
    clear h₁ h
    induction l generalizing s₁ with
    | nil => exact hI₁
    | cons q l ih =>
      exact ih _ ⟨(setCreatePriority_spec hI₁.1 q).1, hpriority s₁ q hI₁.1 hI₁.2⟩
  · rintro q l s₁ s₂ ⟨⟨hI₁, hK₁⟩, hl, hn⟩ h₂
    rw [map_cons, nodup_cons] at hn
    obtain ⟨x, hx⟩ := hl q (mem_cons_self ..)
    obtain ⟨hI₂, -, hfind⟩ := create_spec hI₁ hx h₂
    refine ⟨⟨hI₂, hcreate s₁ s₂ q x hI₁ hK₁ hx h₂⟩, fun q' hq' => ?_, hn.2⟩
    have hne : q'.1 ≠ q.1 := fun hqq => hn.1 (hqq ▸ mem_map_of_mem hq')
    rw [hfind q'.1 hne]
    exact hl q' (mem_cons_of_mem _ hq')
  · refine ⟨⟨hI, hK⟩, ?_, ?_⟩
    · intro q hq
      obtain ⟨y, hy, rfl⟩ := mem_map.mp (mem_filter.mp hq).1
      exact ⟨y.2, (OrdMap.find_eq_some ..).mpr hy⟩
    · have hs : (s.upcs.upcs.entries.map Prod.fst).Nodup := by
        rw [Nodup, pairwise_map]
        exact s.upcs.upcs.sorted.imp fun hlt => hlt.ne
      have hsub : ((s.upcsWithSharpCommand .create).map Prod.fst).Sublist
          ((s.upcs.upcs.entries.map fun y => (y.1, y.2.upc)).map Prod.fst) :=
        List.Sublist.map _ filter_sublist
      rw [map_map] at hsub
      exact hs.sublist hsub

lemma takeUpcs_spec (hI : Inv this s) (h : s.takeUpcs this frame T = .ok s') :
    Inv this s' ∧ ∀ e, s.controller e = some e → Quiet e s s' := by
  refine takeUpcs_rule (K := fun s₁ => ∀ e, s.controller e = some e → Quiet e s s₁) hI
    (fun e _ => Quiet.refl e s) ?_ ?_ h
  · intro s₁ s₂ q x hI₁ hq₁ hx h₂ e he
    exact (hq₁ e he).trans ((create_spec hI₁ hx h₂).2.1 e (((hq₁ e he).tasks e).mpr he))
  · exact fun s₁ q hI₁ hq₁ e he => (hq₁ e he).trans ((setCreatePriority_spec hI₁ q).2 e)

lemma cancelOthers_ages (tasks : List TaskPtr) (v c : TaskPtr) (s : State U B M) :
    s.toHeap.Ages (s.cancelOthers tasks v c).toHeap ∧
      (s.cancelOthers tasks v c).board = s.board := by
  unfold cancelOthers
  induction tasks generalizing s with
  | nil => exact ⟨Heap.Ages.refl _, rfl⟩
  | cons p tasks ih =>
    rw [foldl_cons]
    split
    · obtain ⟨ha, hb⟩ := ih { s with toHeap := s.toHeap.cancel p }
      exact ⟨(Heap.ages_cancel s.toHeap p).trans ha, hb⟩
    · exact ih s

variable {tasks : List TaskPtr}

lemma finished_cancelOthers {v : TaskPtr}
    (hk : ∀ p d, s.controller p = some d → (s.tasks p).status ≠ .unknown)
    (hv : s.controller v = some c) (hf : s.finished v) {p : TaskPtr} (hp : p ∈ tasks)
    (hpc : s.controller p = some c) : (s.cancelOthers tasks v c).finished p := by
  induction tasks generalizing s with
  | nil => nomatch hp
  | cons t tasks ih =>
    -- the round of `t` ages the tasks, and `t` is finished after it
    obtain ⟨s₁, hs₁, ha, ht⟩ : ∃ s₁ : State U B M,
        s.cancelOthers (t :: tasks) v c = s₁.cancelOthers tasks v c ∧ s.toHeap.Ages s₁.toHeap ∧
        (s.controller t = some c → s₁.finished t) := by
      unfold cancelOthers
      rw [foldl_cons]
      refine ⟨_, rfl, ?_⟩
      by_cases hcond : (decide (v ≠ t) && !s.finished t && decide (s.controller t = some c))
      · rw [if_pos hcond]
        exact ⟨Heap.ages_cancel s.toHeap t, fun htc => Heap.finished_cancel htc (hk t c htc)⟩
      · rw [if_neg hcond]
        refine ⟨Heap.Ages.refl _, fun htc => ?_⟩
        by_cases htv : v = t
        · rw [← htv]
          exact hf
        · by_contra hnf
          exact hcond (by simp [htv, hnf, htc])
    have hc₁ : s₁.controller = s.controller := ha.controller
    rw [hs₁]
    rcases mem_cons.mp hp with rfl | hp
    · exact (cancelOthers_ages tasks v c s₁).1.finished (by rw [hc₁]; exact hpc) (ht hpc)
    · refine ih ?_ (by rw [hc₁]; exact hv) (ha.finished hv hf) hp (by rw [hc₁]; exact hpc)
      intro q d hq
      rw [hc₁] at hq
      exact ha.known q d hq (hk q d hq)

lemma Quiet.halted (hI : Inv this s) (hI' : Inv this s') (hc : s.controller c = some c)
    (hq : Quiet c s s') (h : s.halted c) : s'.halted c := by
  have hv := hq.verdict
  obtain ⟨hid, hv⟩ := Prod.mk.inj hv
  obtain ⟨hsucc, hfail⟩ := Prod.mk.inj hv
  unfold State.halted at h ⊢
  rw [hsucc, hfail]
  rcases Bool.or_eq_true_iff.mp h with hdone | hcan
  · rw [hdone, Bool.true_or]
  · rw [Bool.or_eq_true]
    right
    unfold cancelled at hcan ⊢
    cases hq' : s.controllerTask (s.ctrls c).upcId with
    | none =>
      rw [hq'] at hcan
      nomatch hcan
    | some r =>
      obtain ⟨p, d⟩ := r
      rw [hq'] at hcan
      obtain ⟨rfl, hp, n, hn, hnp, hpid⟩ := hI.controllerTask hc hq'
      have hst : (s.tasks p).status = .cancelled := of_decide_eq_true hcan
      have hfin : s.finished p := by
        unfold finished
        rw [hst]
        rfl
      have htask : s'.controllerTask (s'.ctrls d).upcId = some (p, d) := by
        unfold controllerTask
        have hn' := (hq.nodes n (by rw [hnp]; exact hp)).mpr hn
        rw [hI'.index.taskForId_eq_some.mpr ⟨n, hn', hnp, hpid.trans hid.symm⟩, Option.bind_some,
          (hq.tasks p).mpr hp]
        rfl
      rw [htask]
      exact decide_eq_true ((hq.settled p hp hfin).trans hst)

variable {sight : TaskPtr → Sight U}

lemma visit_spec {r r' : State U B M × List TaskPtr} {v : TaskPtr} (hI : Inv this r.1)
    (h : visit this frame T tasks sight r v = .ok r') :
    Inv this r'.1 ∧ ∀ c, r.1.controller c = some c →
      (r.1.controller v = some c → r.1.halted c) → Quiet c r.1 r'.1 ∧
        (r.1.controller v = some c → r.1.finished v →
          ∀ p ∈ tasks, r'.1.controller p = some c → r'.1.finished p) := by
  unfold visit at h
  cases hv : r.1.controller v with
  | none =>
    rw [hv] at h
    rw [← Except.ok.inj h]
    exact ⟨hI, fun c _ _ => ⟨Quiet.refl c r.1, nofun⟩⟩
  | some e =>
    rw [hv] at h
    obtain ⟨s₁, h₁, rfl⟩ := map_ok h
    have hacts : Acts this e r.1 s₁ := by
      split at h₁
      · rw [← Except.ok.inj h₁]
        exact acts_refl r.1
      · exact leads_stepController T frame r.1 (sight e) s₁ h₁
    obtain ⟨hI₁, -, hq₁⟩ := hacts hI (hI.made v e hv)
    obtain ⟨ha, hb⟩ : s₁.toHeap.Ages
          (if s₁.finished v then s₁.cancelOthers tasks v e else s₁).toHeap ∧
        (if s₁.finished v then s₁.cancelOthers tasks v e else s₁).board = s₁.board := by
      split
      · exact cancelOthers_ages tasks v e s₁
      · exact ⟨Heap.Ages.refl _, rfl⟩
    refine ⟨inv_of_ages hI₁ ha hb, fun c hc hh => ?_⟩
    by_cases hce : c = e
    · subst hce
      have hs₁ : s₁ = r.1 := by
        split at h₁
        · exact (Except.ok.inj h₁).symm
        · unfold stepController at h₁
          rw [if_pos (hh rfl)] at h₁
          exact (Except.ok.inj h₁).symm
      subst hs₁
      refine ⟨quiet_of_ages ha hb c, fun _ hf p hp hpc => ?_⟩
      rw [if_pos hf] at ha hpc ⊢
      have hpc' : r.1.controller p = some c := by
        rw [← ha.controller]
        exact hpc
      exact finished_cancelOthers hI.known hv hf hp hpc'
    · refine ⟨(hq₁ c hce).trans (quiet_of_ages ha hb c), fun hcv => ?_⟩
      exact absurd (Option.some.inj hcv).symm hce

def AllFinished (tasks : List TaskPtr) (c : TaskPtr) (s : State U B M) : Prop :=
  ∀ p ∈ tasks, s.controller p = some c → s.finished p = true

/-- **The loop over the tasks does nothing for a controller that is halted, but if one of its tasks
is finished then all of them are in the end.** -/
theorem visitAll_spec (hI : Inv this s) (h : s.visitAll this frame T tasks sight = .ok s') :
    Inv this s' ∧ ∀ c, s.controller c = some c →
      (∀ v ∈ tasks, s.controller v = some c → s.halted c) → Quiet c s s' ∧
        ((∃ v ∈ tasks, s.controller v = some c ∧ s.finished v) → AllFinished tasks c s') := by
  obtain ⟨r, hr, rfl⟩ := map_ok h
  refine ⟨foldlM_inv (fun _ r => Inv this r.1) (fun _ _ _ _ hI h => (visit_spec hI h).1) hI hr,
    fun c hc hh => ?_⟩
  have hloop := foldlM_inv (fun l r => (l ⊆ tasks ∧ Inv this r.1 ∧ Quiet c s r.1) ∧
    ((∃ v ∈ tasks, s.controller v = some c ∧ s.finished v) →
      (∃ v ∈ l, s.controller v = some c ∧ s.finished v) ∨ AllFinished tasks c r.1)) ?_ ?_ hr
  · refine ⟨hloop.1.2.2, fun hex => ?_⟩
    rcases hloop.2 hex with ⟨v, hv, -⟩ | hall
    · nomatch hv
    · exact hall
  · rintro v l r₁ r₂ ⟨⟨hsub, hI₁, hq₁⟩, hex⟩ h₂
    have hc₁ : r₁.1.controller c = some c := (hq₁.tasks c).mpr hc
    have hv : v ∈ tasks := hsub (mem_cons_self ..)
    obtain ⟨hI₂, hvisit⟩ := visit_spec hI₁ h₂
    obtain ⟨hq₂, hall⟩ := hvisit c hc₁ fun hvc =>
      hq₁.halted hI hI₁ hc (hh v hv ((hq₁.tasks v).mp hvc))
    refine ⟨⟨fun p hp => hsub (mem_cons_of_mem _ hp), hI₂, hq₁.trans hq₂⟩, fun he => ?_⟩
    rcases hex he with ⟨w, hw, hwc, hwf⟩ | hfin
    · rcases mem_cons.mp hw with rfl | hw
      · exact .inr (hall ((hq₁.tasks w).mpr hwc) (hq₁.finished hwc hwf))
      · exact .inl ⟨w, hw, hwc, hwf⟩
    · refine .inr fun p hp hpc => ?_
      have hpc₁ := (hq₂.tasks p).mp hpc
      exact hq₂.finished hpc₁ (hfin p hp hpc₁)
  · exact ⟨⟨Subset.refl _, hI, Quiet.refl c s⟩, .inl⟩

/-! ## `Blackboard::update` -/

variable {others : OtherTasks U B M} (w : World (builderTasks others))

lemma ages_turn (p : TaskPtr) : w.heap.Ages (w.turn p) := by
  have hupdate : w.heap.Ages ((builderTasks others).update w.board w.heap p) := by
    dsimp only [builderTasks]
    split
    · exact Heap.ages_updateTask ..
    · exact (Heap.ages_writeOthers ..).trans (foldl_related Heap.ages_cancel _ _)
  unfold World.turn
  split
  · exact hupdate
  · exact Heap.Ages.refl _

lemma ages_update (ds : List U) : w.heap.Ages (w.update TaskPtr.upcId ds).heap :=
  World.foldl_sweepOne_related (O := builderTasks others) Heap.Ages.refl
    (fun _ _ _ => Heap.Ages.trans) ages_turn _ (w.cleared TaskPtr.upcId ds)

lemma inv_update (hI : Inv this s) {w : World (builderTasks others)} (hb : w.board = s.board)
    (ha : s.toHeap.Ages w.heap) (ds : List U) :
    Inv this { (w.update TaskPtr.upcId ds).heap with
      board := (w.update TaskPtr.upcId ds).board } := by
  have hex : Exact TaskPtr.upcId w.board := by
    rw [hb]
    exact hI.index
  have hmem := World.mem_update_tasks hex ds
  have hI₁ : Inv this { (w.update TaskPtr.upcId ds).heap with board := s.board } :=
    inv_of_ages hI (ha.trans (ages_update w ds)) rfl
  refine { hI₁ with index := World.exact_update hex ds, live := ?_, pending := ?_ }
  · intro p e hp hf
    obtain ⟨n, hn, hnp, ho⟩ := hI₁.live p e hp hf
    refine ⟨n, (hmem n).mpr ⟨by rw [hb]; exact hn, fun hid => ?_⟩, hnp, ho⟩
    rw [hb] at hid
    obtain ⟨m, hm, hmn, hfin⟩ := hI₁.pending _ hid
    obtain rfl := hI.index.node_unique_id hm hn hmn
    rw [hnp] at hfin
    exact absurd ((hfin e hp).symm.trans hf) Bool.noConfusion
  · intro id hid
    obtain ⟨n, hn, hni, hfin⟩ := World.pending_foldl (O := builderTasks others)
      (G := fun h q => ∀ e, h.controller q = some e → (h.tasks q).status.finished)
      (fun w p q hG e hq => by
        have hturn := ages_turn w p
        rw [hturn.controller] at hq
        exact hturn.finished hq (hG e hq))
      (fun h p hf _ _ => hf) (World.exact_cleared hex ds)
      (World.stretch_rentries (World.exact_cleared hex ds)) (nofun)
      id hid
    exact ⟨n, (hmem n).mpr ((World.mem_cleared_tasks hex ds n).mp hn), hni, hfin⟩

/-! ## whole runs -/

lemma postTask_keeps (hI : Inv this s) (frame : Int) (id : UpcId) (units : List U) (owner : M)
    (autoRemove : Bool) (T : BuildTypes B) (c : TaskPtr) :
    Inv this ((Op.postTask frame id units owner autoRemove).run T this others s) ∧
      Still c s ((Op.postTask frame id units owner autoRemove).run T this others s) := by
  have htasks : ∀ p e, s.controller p = some e →
      update s.tasks ⟨id, s.serial⟩ ⟨.unknown, units⟩ p = s.tasks p := by
    intro p e hp
    refine update_of_ne ?_ _ _
    rintro rfl
    exact absurd (hI.allocated _ e hp) (Nat.lt_irrefl _)
  have hst : ∀ p e, s.controller p = some e →
      (update s.tasks ⟨id, s.serial⟩ ⟨.unknown, units⟩ p).status = (s.tasks p).status :=
    fun p e hp => congrArg Task.status (htasks p e hp)
  refine ⟨?_, fun _ => Iff.rfl, fun p hp _ => hst p c hp, rfl⟩
  refine inv_of_settled hI rfl (Nat.le_succ _) rfl (fun _ => rfl) (fun p e hp hf => ?_)
    (fun p e hp => (hst p e hp).trans_ne (hI.known p e hp)) (exact_postTask hI.index ..)
    (fun n hn => mem_postTask hn ..) (pending_postTask ..)
  exact (congrArg TaskStatus.finished (hst p e hp)).trans hf

lemma ages_setFlags (h : Heap U B M) (dead isMine : U → Bool) :
    h.Ages { h with dead := dead, isMine := isMine } :=
  ⟨rfl, rfl, rfl, rfl, fun _ _ _ _ => rfl, fun _ _ _ hu => hu, fun _ => rfl⟩

lemma step_ok (others : OtherTasks U B M) {i : StepInput U}
    (ho : (Op.step i : Op U B M).Ok T this s) :
    ∃ s₁, s.takeUpcs this i.frame T = .ok s₁ ∧ i.tasks.Perm (s₁.board.tasksOfModule this) ∧
      s₁.visitAll this i.frame T i.tasks i.sight = .ok ((Op.step i).run T this others s) := by
  obtain ⟨⟨s', hs'⟩, hsort⟩ := ho
  obtain ⟨s₁, h₁, h₂⟩ := bind_ok hs'
  refine ⟨s₁, h₁, (hsort s₁ h₁).1, h₂.trans ?_⟩
  rw [Op.run, hs']

lemma inv_run (hI : Inv this s) (o : Op U B M) (ho : o.Ok T this s) :
    Inv this (o.run T this others s) := by
  cases o with
  | step i =>
    obtain ⟨s₁, h₁, -, h₂⟩ := step_ok others ho
    exact (visitAll_spec (takeUpcs_spec hI h₁).1 h₂).1
  | update ds dead isMine =>
    exact inv_update hI rfl (ages_setFlags s.toHeap dead isMine) ds
  | cancel p => exact inv_of_ages hI (Heap.ages_cancel s.toHeap p) rfl
  | postUPC frame upc sourceId origin => exact inv_postUPC hI frame upc sourceId origin s.posts
  | consumeUPC id => exact inv_consumeUPC hI id
  | postTask frame id units owner ar =>
    exact (postTask_keeps hI frame id units owner ar T ⟨id, s.serial⟩).1
  | writeOthers t => exact inv_of_ages hI (Heap.ages_writeOthers s.toHeap t) rfl

def Op.isStep : Op U B M → Bool
  | .step _ => true
  | _ => false

lemma still_run (hI : Inv this s) (T : BuildTypes B) {o : Op U B M} (ho : o.isStep = false)
    (c : TaskPtr) : Still c s (o.run T this others s) := by
  cases o with
  | step i => nomatch ho
  | update ds dead isMine =>
    let w : World (builderTasks others) :=
      ⟨s.board, { s.toHeap with dead := dead, isMine := isMine }⟩
    exact still_of_ages ((ages_setFlags s.toHeap dead isMine).trans (ages_update w ds)) c
  | cancel p => exact still_of_ages (Heap.ages_cancel s.toHeap p) c
  | postUPC frame upc sourceId origin => exact ⟨fun _ => Iff.rfl, fun _ _ _ => rfl, rfl⟩
  | consumeUPC id => exact (quiet_consumeUPC c s id).toStill
  | postTask frame id units owner ar => exact (postTask_keeps hI frame id units owner ar T c).2
  | writeOthers t => exact still_of_ages (Heap.ages_writeOthers s.toHeap t) c

lemma inv_start (ctrls : TaskPtr → Ctrl U B)
    {filters : List (UPCTuple U B → M → Option (UPCTuple U B))}
    (hf : ∀ u, ((start ctrls filters).upcs.filter (.grab u) this).isSome) :
    Inv this (start ctrls filters) where
  index := exact_empty
  allocated := nofun
  known := nofun
  live := nofun
  pending := nofun
  distinct := nofun
  given := nofun
  posted := fun id _ h => nomatch (OrdMap.find_empty id).symm.trans h
  accepts := hf
  made := nofun
  remembered := nofun

end TorchCraft.Builder
