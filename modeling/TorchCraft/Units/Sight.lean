import TorchCraft.Units.Groups

/-!
# The lists of units in sight and of attackers

The lists of a unit are cleared in a loop over the units *of the frame*, filled by the attack orders
of other units, and completed in a loop over all *live* units.  A live unit about which the frame
says nothing is not cleared, so its lists grow from frame to frame (`lists_not_described`).
-/

set_option linter.unusedSectionVars false

namespace TorchCraft.Units
open Lib Lib.Loops TorchCraft.Units.Unit Option
open List

variable {Ty : Type*} [DecidableEq Ty] {g : Game Ty} {f : Frame Ty}

def TcUnit.Attacks (g : Game Ty) (v : TcUnit Ty) (t : UnitId) : Prop :=
  ∃ o ∈ v.orders, g.tcOrderIsAttack o.type = true ∧ o.targetId = t

namespace UnitsInfo
variable {s : UnitsInfo Ty}

/-! ## the attackers -/

lemma attacks_of_target {v : TcUnit Ty} {t : UnitId} (h : s.attackTarget g v = some t) :
    v.Attacks g t := by
  obtain ⟨o, ho, rfl⟩ := map_eq_some_iff.mp h
  have hattack := find?_some ho
  rw [Bool.and_eq_true] at hattack
  exact ⟨o, mem_of_find?_eq_some ho, hattack.1, rfl⟩

lemma lists_see (p : UnitsInfo Ty × Bool) (v : TcUnit Ty) (t : UnitId) :
    (see g f p v).1.lists t = p.1.lists t ∨ v.Attacks g t ∧
      (see g f p v).1.lists t = { p.1.lists t with
        beingAttackedByEnemies := (p.1.lists t).beingAttackedByEnemies ++ [v.id] } := by
  have hb : (((p.1.touch v.id).revise g
      (fun u => (u.refresh g f v, u.changed (u.refresh g f v))) v.id)).lists = p.1.lists :=
    (beside_revise _ (p.1.touch v.id) v.id).lists
  unfold see attack
  dsimp only
  split
  · exact .inl (congrFun hb t)
  next t' ht =>
    dsimp only
    rw [hb]
    by_cases h : t = t'
    · subst h
      rw [Function.update_self]
      exact .inr ⟨attacks_of_target ht, rfl⟩
    · rw [Function.update_of_ne h]
      exact .inl rfl

lemma lists_sees (l : List (TcUnit Ty)) (p : UnitsInfo Ty × Bool) (t : UnitId) :
    ∃ l' : List (TcUnit Ty), l'.Sublist l ∧ (∀ v ∈ l', v.Attacks g t) ∧
      (l.foldl (see g f) p).1.lists t = { p.1.lists t with
        beingAttackedByEnemies := (p.1.lists t).beingAttackedByEnemies ++ l'.map TcUnit.id } := by
  induction l generalizing p with
  | nil =>
    refine ⟨[], .slnil, nofun, ?_⟩
    rw [map_nil, append_nil]
    rfl
  | cons a l ih =>
    obtain ⟨l', hsub, hattack, he⟩ := ih (see g f p a)
    rw [foldl_cons, he]
    rcases lists_see (g := g) (f := f) p a t with h | ⟨ha, h⟩
    · exact ⟨l', hsub.cons a, hattack, by rw [h]⟩
    · refine ⟨a :: l', hsub.cons_cons a, forall_mem_cons.mpr ⟨ha, hattack⟩, ?_⟩
      rw [h]
      rw [append_assoc]
      rfl

/-- **The lists after the first loops**: the new attackers are units of the frame with an attack
order. -/
theorem attackers_seen (s : UnitsInfo Ty) (t : UnitId) :
    ∃ l' : List (TcUnit Ty), l'.Sublist f.units ∧ (∀ v ∈ l', v.Attacks g t) ∧
      (s.seen g f).1.lists t =
        let l := if t ∈ f.units.map TcUnit.id then {} else s.lists t
        { l with beingAttackedByEnemies := l.beingAttackedByEnemies ++ l'.map TcUnit.id } := by
  obtain ⟨l', hsub, hattack, he⟩ := lists_sees (g := g) (f := f) f.units
    (f.units.foldl clear s, false) t
  refine ⟨l', hsub, hattack, he.trans ?_⟩
  have hclear : (f.units.foldl clear s).lists t =
      if t ∈ f.units.map TcUnit.id then {} else s.lists t := by
    rw [← foldl_mem f.nodup t (fun _ _ => ({} : Lists)), foldl_map]
    refine foldl_view (fun _ => True) (fun s => s.lists t)
      (fun v l => if t = v.id then ({} : Lists) else l) (fun _ _ _ => trivial) (fun s v _ => ?_)
      f.units s trivial
    exact Function.update_apply ..
  rw [hclear]

/-! ## the units in sight -/

lemma lists_setLists (h : UnitId → Lists → Lists) {l : List UnitId} (hl : l.Nodup)
    (s : UnitsInfo Ty) (t : UnitId) :
    (l.foldl (setLists h) s).lists t = if t ∈ l then h t (s.lists t) else s.lists t := by
  rw [← foldl_mem hl t h]
  refine foldl_view (fun _ => True) (fun s => s.lists t) (fun j l => if t = j then h j l else l)
    (fun _ _ _ => trivial) (fun s j _ => ?_) l s trivial
  refine (Function.update_apply ..).trans ?_
  split
  next hj => rw [hj]
  next => rfl

lemma sight_lists (hs : s.Placed) (t : UnitId) :
    (s.sight g f).lists t =
      if t ∈ (s.cont .liveUnits).items then s.split g f t (s.watch g t (s.lists t))
      else s.lists t := by
  have hnodup := (hs .liveUnits).nodup
  have hrest := foldl_setLists (s.watch g) (s.cont .liveUnits).items s
  unfold sight
  dsimp only
  have hcont : ((s.cont .liveUnits).items.foldl (setLists (s.watch g)) s).cont = s.cont := by
    rw [hrest]
  have hsplit : ((s.cont .liveUnits).items.foldl (setLists (s.watch g)) s).split g f =
      s.split g f := by
    rw [hrest]
    rfl
  rw [hcont, lists_setLists _ hnodup, lists_setLists _ hnodup, hsplit]
  split <;> rfl

/-- what holds of the units in sight in every state: nobody twice, and all are known -/
def Watchful (s : UnitsInfo Ty) : Prop :=
  ∀ t, (s.lists t).unitsInSightRange.Nodup ∧
    ∀ o ∈ (s.lists t).unitsInSightRange, (s.unit o).isSome = true

lemma watch_sight (hs : s.Tracked g) {l : Lists} (t : UnitId)
    (h : l.unitsInSightRange.Nodup ∧ ∀ o ∈ l.unitsInSightRange, (s.unit o).isSome) :
    (s.watch g t l).unitsInSightRange.Nodup ∧
      ∀ o ∈ (s.watch g t l).unitsInSightRange, (s.unit o).isSome := by
  unfold watch
  split
  · exact h
  · split
    · exact h
    · refine ⟨(hs.placed .liveUnits).nodup.filter _, fun o ho => ?_⟩
      have hsee := (mem_filter.mp ho).2
      rw [Bool.and_eq_true] at hsee
      cases hu : s.unit o with
      | none =>
        rw [hu] at hsee
        nomatch hsee.2
      | some u => rfl

lemma watch_rest (s : UnitsInfo Ty) (t : UnitId) (l : Lists) :
    s.watch g t l = { l with unitsInSightRange := (s.watch g t l).unitsInSightRange } := by
  unfold watch
  split
  · rfl
  · split <;> rfl

end UnitsInfo

lemma Cell.known_update {c : Cell Ty} (id : UnitId) (h : c.unit.isSome) :
    (c.update g f id).unit.isSome := by
  have hrevise : ∀ (h : Unit Ty → Unit Ty × Bool) (c : Cell Ty), c.unit.isSome →
      (c.revise g h).unit.isSome := by
    intro h c hc
    rw [unit_revise, isSome_map]
    exact hc
  have hread : (c.read g f id).unit.isSome :=
    read_keeps (P := (·.unit.isSome)) h (fun v _ _ => by rw [unit_see]; rfl) fun _ => hrevise _ _
  have hhide : ((c.read g f id).hide g f).unit.isSome := by
    unfold hide
    split
    · exact hrevise _ _ hread
    · exact hread
  have hforget : (((c.read g f id).hide g f).forget g f id).unit.isSome := by
    unfold forget
    split
    · exact hrevise _ _ hhide
    · exact hhide
  exact infer_keeps (P := fun c => c.unit.isSome) hforget fun c pos hc => hrevise _ c hc

lemma Cell.dead_forget {c : Cell Ty} {id : UnitId} {u : Unit Ty}
    (hu : ((c.hide g f).forget g f id).unit = some u) :
    ∃ u₁, c.unit = some u₁ ∧ u₁.dead = u.dead := by
  obtain ⟨u₂, hu₂, hd₂⟩ : ∃ u₂, (c.hide g f).unit = some u₂ ∧ u₂.dead = u.dead := by
    unfold forget at hu
    split at hu
    · rw [unit_revise, map_eq_some_iff] at hu
      obtain ⟨u₂, hu₂, rfl⟩ := hu
      refine ⟨u₂, hu₂, ?_⟩
      rcases fade_cases (g := g) (f := f) u₂ id with ⟨x, y, t, he⟩ | ⟨he, -⟩ | he
      all_goals rw [he]
    · exact ⟨u, hu, rfl⟩
  rcases unit_hide hu₂ with ⟨-, h⟩ | ⟨-, u₁, h, rfl⟩
  · exact ⟨u₂, h, hd₂⟩
  · rw [look_eq] at hd₂
    exact ⟨u₁, h, hd₂⟩

lemma Cell.facts_infer (c : Cell Ty) (id : UnitId) :
    (c.infer g f id).unit.map playerId = c.unit.map playerId ∧
      (c.infer g f id).unit.any (isObstacle g) = c.unit.any (isObstacle g) ∧
      (c.infer g f id).unit.map dead = c.unit.map dead := by
  refine infer_keeps (P := fun c' => c'.unit.map playerId = c.unit.map playerId ∧
    c'.unit.any (isObstacle g) = c.unit.any (isObstacle g) ∧
    c'.unit.map dead = c.unit.map dead) ⟨rfl, rfl, rfl⟩ fun c' pos h => ?_
  obtain ⟨h₁, h₂, h₃⟩ := h
  rw [unit_revise, ← h₁, ← h₂, ← h₃]
  cases c'.unit with
  | none => exact ⟨rfl, rfl, rfl⟩
  | some u =>
    dsimp only [Option.map, Option.any, inferMove]
    split <;> exact ⟨rfl, rfl, rfl⟩

namespace UnitsInfo
variable {s : UnitsInfo Ty}

lemma lists_gathered (s : UnitsInfo Ty) : (s.gathered g f).lists = (s.seen g f).1.lists :=
  (beside_gathered s).lists

lemma tracked_gathered (hs : s.Tracked g) : (s.gathered g f).Tracked g where
  placed := (gathered_spec hs.placed).1
  cells := by
    intro id
    rw [(gathered_spec hs.placed).2]
    exact Cell.tracked_forget (Cell.tracked_hide (Cell.tracked_read (hs.cells id) id)) id

lemma lists_update (s : UnitsInfo Ty) :
    (s.update g f).lists = ((s.gathered g f).sight g f).lists := by
  rw [update_eq, (beside_infer _).lists]
  split <;> rfl

/-- the facts about the units that the lists depend on are the same in two states -/
structure SameFacts (g : Game Ty) (s s' : UnitsInfo Ty) : Prop where
  playerId : ∀ id, (s'.unit id).map playerId = (s.unit id).map playerId
  isObstacle : ∀ id, (s'.unit id).any (isObstacle g) = (s.unit id).any (isObstacle g)
  dead : ∀ id, (s'.unit id).map dead = (s.unit id).map dead

lemma SameFacts.known {s' : UnitsInfo Ty} (h : SameFacts g s s') (id : UnitId) :
    (s'.unit id).isSome = (s.unit id).isSome := by
  rw [← isSome_map, h.playerId, isSome_map]

lemma facts_update (hs : s.Placed) : SameFacts g (s.gathered g f) (s.update g f) := by
  have hunit : ∀ id, (s.update g f).unit id = (((s.gathered g f).cell id).infer g f id).unit := by
    intro id
    have hcell := congrArg Cell.unit ((update_spec (g := g) (f := f) hs).2 id)
    rw [(gathered_spec hs).2]
    exact hcell
  constructor
  · exact fun id => (congrArg _ (hunit id)).trans (Cell.facts_infer _ id).1
  · exact fun id => (congrArg _ (hunit id)).trans (Cell.facts_infer _ id).2.1
  · exact fun id => (congrArg _ (hunit id)).trans (Cell.facts_infer _ id).2.2

section
variable (hs : s.Placed) {id : UnitId} (h : (s.unit id).isSome = true)
include hs h

lemma known_update : ((s.update g f).unit id).isSome := by
  have hunit := congrArg Cell.unit ((update_spec (g := g) (f := f) hs).2 id)
  rw [show (s.update g f).unit id = _ from hunit]
  exact Cell.known_update id h

lemma known_gathered : ((s.gathered g f).unit id).isSome := by
  rw [← (facts_update hs).known]
  exact known_update hs h

end

lemma watchful_gathered (hs : s.Placed) (hw : s.Watchful) (t : UnitId) :
    ((s.gathered g f).lists t).unitsInSightRange.Nodup ∧
      ∀ o ∈ ((s.gathered g f).lists t).unitsInSightRange,
        ((s.gathered g f).unit o).isSome := by
  obtain ⟨l', -, -, he⟩ := attackers_seen (g := g) (f := f) s t
  rw [lists_gathered, he]
  split
  · exact ⟨nodup_nil, nofun⟩
  · exact ⟨(hw t).1, fun o ho => known_gathered hs ((hw t).2 o ho)⟩

lemma watchful_update (hs : s.Tracked g) (hw : s.Watchful) (f : Frame Ty) :
    (s.update g f).Watchful := by
  intro t
  have hgathered := watchful_gathered (g := g) (f := f) hs.placed hw t
  have hknown : ∀ o, ((s.gathered g f).unit o).isSome →
      ((s.update g f).unit o).isSome := by
    intro o ho
    rwa [(facts_update hs.placed).known]
  rw [lists_update, sight_lists (gathered_spec hs.placed).1]
  split
  · have hwatch := watch_sight (tracked_gathered hs) t hgathered
    have hperm := f.sort_perm t ((s.gathered g f).watch g t
      ((s.gathered g f).lists t)).unitsInSightRange
    exact ⟨hperm.nodup_iff.mpr hwatch.1, fun o ho => hknown o (hwatch.2 o (hperm.mem_iff.mp ho))⟩
  · exact ⟨hgathered.1, fun o ho => hknown o (hgathered.2 o ho)⟩

/-! ## the lists describe the frame -/

structure Described (g : Game Ty) (f : Frame Ty) (s : UnitsInfo Ty) (t : UnitId) : Prop where
  sight_once : (s.lists t).unitsInSightRange.Nodup
  obstacles_once : (s.lists t).obstaclesInSightRange.Nodup
  enemies_once : (s.lists t).enemyUnitsInSightRange.Nodup
  allies_once : (s.lists t).allyUnitsInSightRange.Nodup
  attackers_once : (s.lists t).beingAttackedByEnemies.Nodup
  obstacles : ∀ o, o ∈ (s.lists t).obstaclesInSightRange ↔
    o ∈ (s.lists t).unitsInSightRange ∧ ∃ w, s.unit o = some w ∧ w.isObstacle g = true
  enemies : ∀ o, o ∈ (s.lists t).enemyUnitsInSightRange ↔ o ∈ (s.lists t).unitsInSightRange ∧
    ∃ w u, s.unit o = some w ∧ s.unit t = some u ∧ w.playerId ≠ u.playerId
  allies : ∀ o, o ∈ (s.lists t).allyUnitsInSightRange ↔ o ∈ (s.lists t).unitsInSightRange ∧
    ∃ w u, s.unit o = some w ∧ s.unit t = some u ∧ w.playerId = u.playerId
  disjoint : (s.lists t).enemyUnitsInSightRange.Disjoint (s.lists t).allyUnitsInSightRange
  together : ∀ o, o ∈ (s.lists t).unitsInSightRange ↔
    o ∈ (s.lists t).enemyUnitsInSightRange ∨ o ∈ (s.lists t).allyUnitsInSightRange
  attackers : ∀ a ∈ (s.lists t).beingAttackedByEnemies, ∃ v ∈ f.units, v.id = a ∧ v.Attacks g t

/-- the live units about which the frame says nothing have empty lists -/
def ListsReset (s : UnitsInfo Ty) (f : Frame Ty) : Prop :=
  ∀ t u, s.unit t = some u → u.dead = false → (∀ v ∈ f.units, t ≠ v.id) → t ∉ f.deaths →
    (s.lists t).beingAttackedByEnemies = [] ∧ (s.lists t).obstaclesInSightRange = [] ∧
      (s.lists t).enemyUnitsInSightRange = [] ∧ (s.lists t).allyUnitsInSightRange = []

lemma lists_start (hs : s.Placed) (hreset : s.ListsReset f) {t : UnitId} {u : Unit Ty}
    (hu : (s.gathered g f).unit t = some u) (hd : u.dead = false) :
    ∃ l' : List (TcUnit Ty), l'.Sublist f.units ∧ (∀ v ∈ l', v.Attacks g t) ∧
      (s.gathered g f).lists t =
        { unitsInSightRange := ((s.gathered g f).lists t).unitsInSightRange
          beingAttackedByEnemies := l'.map TcUnit.id } := by
  obtain ⟨l', hsub, hattack, he⟩ := attackers_seen (g := g) (f := f) s t
  refine ⟨l', hsub, hattack, ?_⟩
  rw [lists_gathered, he]
  dsimp only
  split
  · rfl
  next habsent =>
    have hcell := (gathered_spec (g := g) (f := f) hs).2 t
    have hu' : (((s.cell t).read g f t).hide g f |>.forget g f t).unit = some u := by
      rw [← hcell]
      exact hu
    obtain ⟨u₁, hu₁, hd₁⟩ := Cell.dead_forget hu'
    obtain ⟨hdeath, ⟨v, hv, rfl, -⟩ | ⟨habsent', hread⟩⟩ := Cell.read_cases hu₁ (hd₁.trans hd)
    · exact absurd (mem_map_of_mem hv) habsent
    · rw [hread] at hu₁
      obtain ⟨h₁, h₂, h₃, h₄⟩ := hreset t u₁ hu₁ (hd₁.trans hd) habsent' hdeath
      rw [h₁, h₂, h₃, h₄]
      rfl

lemma any_eq_true_iff {o : Option (Unit Ty)} {q : Unit Ty → Bool} :
    o.any q ↔ ∃ w, o = some w ∧ q w := by
  cases o with
  | none => exact ⟨nofun, fun ⟨_, h, _⟩ => nomatch h⟩
  | some w => exact ⟨fun h => ⟨w, rfl, h⟩, fun ⟨_, h, hq⟩ => some.inj h ▸ hq⟩

section split
variable {s' : UnitsInfo Ty} {t : UnitId} {u : Unit Ty} {sight : List UnitId}

section
variable (hfacts : SameFacts g s s') (hu : s'.unit t = some u)
include hfacts hu

lemma owner_eq {o : UnitId} (ho : (s.unit o).isSome) :
    ∃ w, s'.unit o = some w ∧
      ((s.unit o).map playerId = (s.unit t).map playerId ↔ w.playerId = u.playerId) := by
  rw [← hfacts.known] at ho
  obtain ⟨w, hw⟩ := isSome_iff_exists.mp ho
  refine ⟨w, hw, ?_⟩
  rw [← hfacts.playerId, ← hfacts.playerId, hw, hu]
  exact some_inj

lemma mem_owned (hknown : ∀ o ∈ sight, (s.unit o).isSome) (P : Prop → Prop) (p : UnitId → Bool)
    (hp : ∀ o, p o ↔ P ((s.unit o).map playerId = (s.unit t).map playerId))
    (o : UnitId) : o ∈ sight.filter p ↔
      o ∈ sight ∧ ∃ w u, s'.unit o = some w ∧ s'.unit t = some u ∧ P (w.playerId = u.playerId) := by
  refine mem_filter.trans (and_congr_right fun ho => ?_)
  obtain ⟨w, hw, he⟩ := owner_eq hfacts hu (hknown o ho)
  rw [hp, he, hw, hu]
  constructor
  · exact fun h => ⟨w, u, rfl, rfl, h⟩
  · rintro ⟨w', u', hw', hu', h⟩
    cases hw'
    cases hu'
    exact h

/-- **The last loop**: what it makes of a list of units in sight and a list of attackers. -/
theorem described_split
    (hsight : sight.Nodup ∧ ∀ o ∈ sight, (s.unit o).isSome) {l : List (TcUnit Ty)}
    (hsub : l.Sublist f.units) (hattack : ∀ v ∈ l, v.Attacks g t)
    (hlists : s'.lists t = s.split g f t
      { unitsInSightRange := sight, beingAttackedByEnemies := l.map TcUnit.id }) :
    s'.Described g f t := by
  have hperm := f.sort_perm t sight
  have hnodup : (f.sortByDistance t sight).Nodup := hperm.nodup_iff.mpr hsight.1
  have hknown : ∀ o ∈ f.sortByDistance t sight, (s.unit o).isSome :=
    fun o ho => hsight.2 o (hperm.mem_iff.mp ho)
  have hattackers := f.sort_perm t (l.map TcUnit.id)
  have henemies := mem_owned hfacts hu hknown Not _ fun _ => bne_iff_ne
  have hallies := mem_owned hfacts hu hknown id _ fun _ => beq_iff_eq
  constructor <;> rw [hlists]
  case sight_once => exact hnodup
  case obstacles_once => exact hnodup.filter _
  case enemies_once => exact hnodup.filter _
  case allies_once => exact hnodup.filter _
  case attackers_once => exact hattackers.nodup_iff.mpr (f.nodup.sublist (hsub.map _))
  case obstacles =>
    intro o
    refine mem_filter.trans (and_congr_right fun _ => ?_)
    rw [← hfacts.isObstacle, any_eq_true_iff]
  case enemies => exact henemies
  case allies => exact hallies
  case disjoint =>
    intro o he ha
    obtain ⟨-, w, u₁, hw, hu₁, h⟩ := (henemies o).mp he
    obtain ⟨-, w', u₂, hw', hu₂, h'⟩ := (hallies o).mp ha
    cases hw.symm.trans hw'
    cases hu₁.symm.trans hu₂
    exact h h'
  case together =>
    intro o
    refine ⟨fun ho => ?_, fun ho => ?_⟩
    · obtain ⟨w, hw, -⟩ := owner_eq hfacts hu (hknown o ho)
      by_cases h : w.playerId = u.playerId
      · exact .inr ((hallies o).mpr ⟨ho, w, u, hw, hu, h⟩)
      · exact .inl ((henemies o).mpr ⟨ho, w, u, hw, hu, h⟩)
    · rcases ho with ho | ho <;> exact (mem_filter.mp ho).1
  case attackers =>
    intro a ha
    obtain ⟨v, hv, rfl⟩ := mem_map.mp (hattackers.mem_iff.mp ha)
    exact ⟨v, hsub.subset hv, rfl, hattack v hv⟩

end

end split

lemma described_update (hs : s.Tracked g) (hw : s.Watchful) (hreset : s.ListsReset f)
    {t : UnitId} {u : Unit Ty} (hu : (s.update g f).unit t = some u) (hd : u.dead = false) :
    (s.update g f).Described g f t := by
  have hfacts := facts_update (g := g) (f := f) hs.placed
  -- the unit is one of those that the loops over the live units meet
  have hdead := hfacts.dead t
  rw [hu] at hdead
  obtain ⟨u₃, hu₃, hd₃⟩ := map_eq_some_iff.mp hdead.symm
  have hlive : t ∈ ((s.gathered g f).cont .liveUnits).items :=
    mem_liveUnits (tracked_gathered hs) hu₃ (hd₃.trans hd)
  obtain ⟨l, hsub, hattack, hstart⟩ := lists_start hs.placed hreset hu₃ (hd₃.trans hd)
  refine described_split hfacts hu
    (watch_sight (tracked_gathered hs) t (watchful_gathered hs.placed hw t)) hsub hattack ?_
  rw [lists_update, sight_lists (gathered_spec hs.placed).1, if_pos hlive, watch_rest, hstart]

/-- **The lists describe the current frame**, after every run and every next frame in which the live
units that are not in its data had empty lists. -/
theorem lists_described (g : Game Ty) (fs : List (Frame Ty)) (f : Frame Ty)
    (h : ((frames g fun _ _ => True).out {} fs).ListsReset f) (t : UnitId) (u : Unit Ty)
    (hu : ((frames g fun _ _ => True).out {} (fs ++ [f])).unit t = some u) (hd : u.dead = false) :
    ((frames g fun _ _ => True).out {} (fs ++ [f])).Described g f t := by
  have hlegal := Sys.legal_of_ok (frames g fun _ _ => True) (fun _ _ => trivial) {} fs
  obtain ⟨hs, hw⟩ := Sys.invariant (frames g fun _ _ => True)
    (fun s : UnitsInfo Ty => s.Tracked g ∧ s.Watchful)
    (fun s f hs _ => ⟨tracked_update hs.1 f, watchful_update hs.1 hs.2 f⟩) {}
    ⟨tracked_init, fun t => ⟨nodup_nil, nofun⟩⟩ fs hlegal
  rw [Sys.out_append] at hu ⊢
  exact described_update hs hw h hu hd

/-! ### two frames -/

/-- a unit of ours and one of the enemy next to each other, the enemy attacking -/
def contact : Frame Bool where
  frame := 1
  units := [⟨1, 8, 8, 0, false, fun b => b == .completed || b == .powered, []⟩,
    ⟨2, 8, 8, 1, false, fun b => b == .completed || b == .powered, [⟨10, 1⟩]⟩]

/-- the enemy is no longer seen -/
def retreat : Frame Bool where
  frame := 2
  units := [⟨1, 8, 8, 0, false, fun b => b == .completed || b == .powered, []⟩]

theorem lists_described_contact :
    ((frames skirmish fun _ _ => True).out {} [scouted, retreat]).Described skirmish retreat 2 := by
  have hu : (((frames skirmish fun _ _ => True).out {} [scouted, retreat]).unit 2).map dead =
      some false := by decide
  obtain ⟨u, hu, hd⟩ := map_eq_some_iff.mp hu
  refine lists_described skirmish [scouted] retreat (fun t v hv hlive _ _ => ?_) 2 u hu hd
  -- nobody was near the building when it was seen
  have hmem := mem_liveUnits (g := skirmish) (tracked_update tracked_init scouted) hv hlive
  rw [show ((({} : UnitsInfo Bool).update skirmish scouted).cont .liveUnits).items = [2] by
    decide] at hmem
  obtain rfl := mem_singleton.mp hmem
  decide

/-- **The lists do not describe the frame in general**: a hidden enemy gets our unit a second time.
-/
theorem lists_not_described :
    (((frames skirmish fun _ _ => True).out {} [contact, retreat]).unit 2).map dead =
      some false ∧
    ¬ ((frames skirmish fun _ _ => True).out {} [contact, retreat]).Described skirmish retreat 2 := by
  refine ⟨by decide, fun h => ?_⟩
  have htwice : (((frames skirmish fun _ _ => True).out {} [contact, retreat]).lists
      2).enemyUnitsInSightRange = [1, 1] := by decide +kernel
  have honce := h.enemies_once
  rw [htwice] at honce
  exact absurd honce (by decide)

end UnitsInfo
end TorchCraft.Units
