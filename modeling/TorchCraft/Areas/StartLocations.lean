import TorchCraft.Areas.Model

/-!
# The start location of the enemy

* `checkCandidates_spec`  what the erasing loop keeps, and why it drops a candidate;
* `guess_spec`  what the search over the enemy buildings finds;
* `startLocations_narrow`  over a whole game the candidates only become fewer, a single one stays,
  and there is a reason for every candidate that is dropped.
-/

set_option linter.unusedSectionVars false

namespace TorchCraft.Areas
open TorchCraft.Units Utils Lib
open List

variable {Ty : Type*} [DecidableEq Ty] {g : Game Ty} {m : AreaMap} {v : View g}

namespace AreaInfo
variable {s : AreaInfo}

/-- the candidate is seen in this frame, and there are no enemy buildings in its area -/
def RuledOut (m : AreaMap) (v : View g) (s : AreaInfo) (c : Position) : Prop :=
  v.tileVisible c = true ∧ (s.area (m.getArea c)).hasBuildings .enemy = false

/-- a building of the enemy that stands, and that is not gone, is within 120 walktiles -/
def NearBuilding (v : View g) (d : Position) : Prop :=
  ∃ id ∈ v.enemyUnits, ∃ u, v.info.unit id = some u ∧ u.gone = false ∧ u.flying = false ∧
    u.is g.isBuilding = true ∧ distance d.1 d.2 u.x u.y ≤ 4 * 30

/-! ## one update -/

lemma checkCandidates_sublist (s : AreaInfo) (l : List Position) :
    (s.checkCandidates g m v l).1.Sublist l := by
  induction l with
  | nil => exact .slnil
  | cons pos l ih =>
    rw [checkCandidates]
    split
    · exact .refl _
    · split
      · exact ih.cons pos
      · exact ih.cons_cons pos

lemma checkCandidates_spec (s : AreaInfo) (l : List Position) :
    (∀ c ∈ l, c ∉ (s.checkCandidates g m v l).1 → RuledOut m v s c) ∧
    ∀ d, (s.checkCandidates g m v l).2 = some d →
      d ∈ (s.checkCandidates g m v l).1 ∧ (s.area (m.getArea d)).hasBuildings .enemy := by
  induction l with
  | nil => exact ⟨nofun, nofun⟩
  | cons pos l ih =>
    rw [checkCandidates]
    split
    next hb =>
      refine ⟨fun c hc hn => absurd hc hn, fun d hd => ?_⟩
      cases hd
      exact ⟨mem_cons_self, hb⟩
    next hb =>
      split
      next hv =>
        exact ⟨forall_mem_cons.mpr ⟨fun _ => ⟨hv, Bool.eq_false_iff.mpr hb⟩, ih.1⟩, ih.2⟩
      · refine ⟨forall_mem_cons.mpr ⟨fun hn => absurd mem_cons_self hn, fun c hc hn => ?_⟩,
          fun d hd => (ih.2 d hd).imp_left (mem_cons_of_mem pos)⟩
        exact ih.1 c hc fun h => hn (mem_cons_of_mem pos h)

variable {candidates : List Position}

lemma guess_spec {d : Position} (h : v.enemyUnits.foldl (guess g v candidates) none = some d) :
    d ∈ candidates ∧ NearBuilding v d := by
  have hall : ∀ d, v.enemyUnits.foldl (guess g v candidates) none = some d →
      d ∈ candidates ∧ NearBuilding v d := by
    refine foldlRecOn (motive := fun r => ∀ d, r = some d → d ∈ candidates ∧ NearBuilding v d)
      _ _ (nofun) fun best hbest id hid d hd => ?_
    unfold guess at hd
    split at hd
    · exact hbest d hd
    next u hu =>
      split at hd
      next hcond =>
        simp only [Bool.and_eq_true, Bool.not_eq_true'] at hcond
        obtain ⟨⟨hgone, hflying⟩, hbuilding⟩ := hcond
        split at hd
        · exact hbest d hd
        next pos hpos =>
          split at hd
          · cases hd
            obtain ⟨hmem, hvalid⟩ := getBestScoreCopy_spec hpos
            refine ⟨hmem, id, hid, u, hu, hgone, hflying, hbuilding, ?_⟩
            unfold candidateScore at hvalid
            dsimp only at hvalid
            split at hvalid
            · nomatch hvalid
            next hfar => exact Rat.not_lt.mp hfar
          · exact hbest d hd
      · exact hbest d hd
  exact hall d h

lemma byElimination_spec {found : Option Position} {d : Position}
    (h : byElimination candidates found = some d) : candidates = [d] ∨ found = some d := by
  unfold byElimination at h
  split at h
  · exact .inl (congrArg (fun p => [p]) (Option.some.inj h))
  · exact .inr h

/-- how the candidates change in one update, and why -/
structure Narrowed (m : AreaMap) (v : View g) (s : AreaInfo) (old new : List Position) : Prop where
  sublist : new.Sublist old
  settled : old.length = 1 → new = old
  reason : ∀ c ∈ old, c ∉ new → RuledOut m v s c ∨ ∃ d ∈ old, d ≠ c ∧ new = [d] ∧
    ((s.area (m.getArea d)).hasBuildings .enemy = true ∨
      (∀ c' ∈ old, c' ≠ d → RuledOut m v s c') ∨ NearBuilding v d)

lemma narrowed_update (s : AreaInfo) :
    Narrowed m v s s.candidateEnemyStartLoc
      (s.updateEnemyStartLocations g m v).candidateEnemyStartLoc := by
  have hsub := checkCandidates_sublist (m := m) (v := v) s s.candidateEnemyStartLoc
  obtain ⟨hout, hfound⟩ := checkCandidates_spec (m := m) (v := v) s s.candidateEnemyStartLoc
  unfold updateEnemyStartLocations
  split
  · exact ⟨.refl _, fun _ => rfl, fun c hc hn => absurd hc hn⟩
  next hsettled =>
  have hlen : s.candidateEnemyStartLoc.length ≠ 1 := fun h => hsettled (beq_iff_eq.mpr h)
  generalize s.checkCandidates g m v s.candidateEnemyStartLoc = p at hsub hout hfound ⊢
  obtain ⟨candidates, found⟩ := p
  dsimp only at hsub hout hfound ⊢
  -- a candidate `d` that was found stays as the only one
  have hone : ∀ d ∈ candidates,
      ((s.area (m.getArea d)).hasBuildings .enemy ∨
        (∀ c' ∈ s.candidateEnemyStartLoc, c' ≠ d → RuledOut m v s c') ∨ NearBuilding v d) →
      Narrowed m v s s.candidateEnemyStartLoc [d] := by
    intro d hd hwhy
    have hd' := hsub.subset hd
    refine ⟨singleton_sublist.mpr hd', fun h => absurd h hlen, fun c _ hn => ?_⟩
    exact .inr ⟨d, hd', fun h => hn (mem_singleton.mpr h.symm), rfl, hwhy⟩
  cases helim : byElimination candidates found with
  | some d =>
    rcases byElimination_spec helim with rfl | rfl
    · refine hone d mem_cons_self (.inr (.inl fun c hc hne => hout c hc ?_))
      exact fun h => hne (mem_singleton.mp h)
    · exact hone d (hfound d rfl).1 (.inl (hfound d rfl).2)
  | none =>
    cases hguess : v.enemyUnits.foldl (guess g v candidates) none with
    | some d => exact hone d (guess_spec hguess).1 (.inr (.inr (guess_spec hguess).2))
    | none => exact ⟨hsub, fun h => absurd h hlen, fun c hc hn => .inl (hout c hc hn)⟩

/-! ## the rest of a frame -/

lemma candidates_visit (s : AreaInfo) (id : UnitId) :
    (s.visit g m v id).candidateEnemyStartLoc = s.candidateEnemyStartLoc := by
  refine visit_of (I := (·.candidateEnemyStartLoc = s.candidateEnemyStartLoc)) (fun _ _ _ h => h)
    (fun s side a u h => ?_) rfl
  unfold register
  split
  · exact h
  · cases side <;> exact h

lemma candidates_updateUnits (s : AreaInfo) :
    (s.updateUnits g m v).candidateEnemyStartLoc = s.candidateEnemyStartLoc :=
  List.foldlRecOn (motive := fun s' : AreaInfo =>
    s'.candidateEnemyStartLoc = s.candidateEnemyStartLoc) _ _ rfl
    fun s' h id _ => (candidates_visit s' id).trans h

lemma candidates_sweepBases (s : AreaInfo) (side : Side) :
    (s.sweepBases g v side).candidateEnemyStartLoc = s.candidateEnemyStartLoc := by
  refine foldlRecOn (motive := fun p : AreaInfo × List BaseInfo =>
    p.1.candidateEnemyStartLoc = s.candidateEnemyStartLoc) _ _ rfl fun p h b _ => ?_
  unfold sweepBase
  split <;> exact h

lemma candidates_update (s : AreaInfo) :
    (s.update g m v).candidateEnemyStartLoc =
      ((s.updateUnits g m v).updateEnemyStartLocations g m v).candidateEnemyStartLoc :=
  (candidates_sweepBases _ .enemy).trans (candidates_sweepBases _ .mine)

lemma narrowed_frame (s : AreaInfo) (v : View g) :
    Narrowed m v (s.updateUnits g m v) s.candidateEnemyStartLoc
      (s.update g m v).candidateEnemyStartLoc := by
  have h := narrowed_update (m := m) (v := v) (s.updateUnits g m v)
  rw [candidates_updateUnits] at h
  rw [candidates_update]
  exact h

/-! ## whole games -/

lemma settled_forever (s : AreaInfo) (h : s.candidateEnemyStartLoc.length = 1)
    (vs : List (View g)) :
    ((views g m).out s vs).candidateEnemyStartLoc = s.candidateEnemyStartLoc := by
  induction vs generalizing s with
  | nil => rfl
  | cons v vs ih =>
    have hone := (narrowed_frame (m := m) s v).settled h
    exact (ih (s.update g m v) (by rw [hone]; exact h)).trans hone

/-- **The inference of the enemy's start location is monotone.** -/
theorem startLocations_narrow (g : Game Ty) (m : AreaMap) (startLocations : List Position)
    (hnodup : startLocations.Nodup) (myStartLoc : Position) (vs : List (View g)) (v : View g) :
    let init := initializePossibleEnemyLocations startLocations myStartLoc
    let s := (views g m).out init vs
    let old := s.candidateEnemyStartLoc
    let new := ((views g m).out init (vs ++ [v])).candidateEnemyStartLoc
    new.Nodup ∧ new.Subperm old ∧
    (old.length = 1 → ∀ vs', ((views g m).out init (vs ++ vs')).candidateEnemyStartLoc = old) ∧
    ∀ c ∈ old, c ∉ new → RuledOut m v (s.updateUnits g m v) c ∨ ∃ d ∈ old, d ≠ c ∧ new = [d] ∧
      (((s.updateUnits g m v).area (m.getArea d)).hasBuildings .enemy = true ∨
        (∀ c' ∈ old, c' ≠ d → RuledOut m v (s.updateUnits g m v) c') ∨ NearBuilding v d) := by
  intro init s old new
  have hold : old.Nodup := by
    refine Sys.invariant (views g m) (fun s => s.candidateEnemyStartLoc.Nodup)
      (fun s v hs _ => hs.sublist (narrowed_frame s v).sublist) init ?_ vs
      (Sys.legal_of_ok _ (fun _ _ => trivial) init vs)
    exact hnodup.filter _
  have hnew : Narrowed m v (s.updateUnits g m v) old new := by
    have h := narrowed_frame (m := m) s v
    have hout : new = (s.update g m v).candidateEnemyStartLoc := by
      show ((views g m).out init (vs ++ [v])).candidateEnemyStartLoc = _
      rw [Sys.out_append]
      rfl
    rw [hout]
    exact h
  refine ⟨hold.sublist hnew.sublist, hnew.sublist.subperm, fun h vs' => ?_, hnew.reason⟩
  rw [Sys.out_append]
  exact settled_forever s h vs'

def oneArea : AreaMap where
  getArea := fun _ => 0
  baseLocations := fun _ => []

/-- nothing is seen but the tiles -/
def lookout : View UnitsInfo.skirmish where
  info := {}
  tracked := UnitsInfo.tracked_init
  tileVisible := fun p => p == (8, 8)

theorem startLocations_narrow_lookout :
    let init := initializePossibleEnemyLocations [(8, 8), (64, 8), (8, 64), (64, 64)] (64, 64)
    ((views UnitsInfo.skirmish oneArea).out init [lookout]).candidateEnemyStartLoc
        = [(64, 8), (8, 64)] ∧
      RuledOut oneArea lookout (init.updateUnits UnitsInfo.skirmish oneArea lookout) (8, 8) := by
  intro init
  have hnew : ((views UnitsInfo.skirmish oneArea).out init [lookout]).candidateEnemyStartLoc
      = [(64, 8), (8, 64)] := by decide
  refine ⟨hnew, ?_⟩
  obtain ⟨-, -, -, hreason⟩ := startLocations_narrow UnitsInfo.skirmish oneArea
    [(8, 8), (64, 8), (8, 64), (64, 64)] (by decide) (64, 64) [] lookout
  rcases hreason (8, 8) (by decide) (by decide) with h | ⟨d, -, -, hd, -⟩
  · exact h
  · exact nomatch hnew.symm.trans hd

end AreaInfo
end TorchCraft.Areas
