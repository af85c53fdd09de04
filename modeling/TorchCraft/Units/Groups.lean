import TorchCraft.Lib.Sys
import TorchCraft.Units.Cells

/-!
# The group containers of `UnitsInfo`

`updateGroups` is called for a unit only if one of several tests fires.  Every field that a
membership predicate reads has to be covered by some test, and two are not:

* the flag `Powered`, read for `myUnits_`: the tests compare `active()`, which does not change with
  `Powered` while the unit is inactive for another reason, for example while it is built;
* the field `gone`, read for `resourceUnits_`: if the position inference is on and finds no place for
  a hidden unit, `gone` is set and `updateGroups` is not called.

`groups_exact` shows that these are the only two.
-/

set_option linter.unusedSectionVars false

namespace TorchCraft.Units
open Lib Bool TorchCraft.Units.Unit Option

variable {Ty : Type*} [DecidableEq Ty] {g : Game Ty} {f : Frame Ty}

/-! ## what the tests cover -/

/-- the marks of a unit follow from its owner -/
structure Unit.Marked (g : Game Ty) (u : Unit Ty) : Prop where
  mine : u.isMine = (u.playerId == g.playerId)
  enemy : u.isEnemy = (u.playerId != g.playerId && u.playerId != g.neutralId)
  neutral : u.isNeutral = (u.playerId == g.neutralId)

variable (v : TcUnit Ty) {u : Unit Ty} {k : Container}

namespace Unit

lemma marked_refresh (u : Unit Ty) : (u.refresh g f v).Marked g := ⟨rfl, rfl, rfl⟩

lemma of_not_changed {u' : Unit Ty} (h : u.changed u' = false) :
    u.type.isSome ∧ u.visible ∧ u'.type = u.type ∧ u'.completed = u.completed ∧
      u'.playerId = u.playerId := by
  unfold changed at h
  simp only [or_eq_false_iff, bne_eq_false_iff_eq, not_eq_false'] at h
  obtain ⟨⟨⟨⟨⟨hnone, hvis⟩, -⟩, htype⟩, hcomp, -⟩, ⟨-, hplayer⟩, -⟩ := h
  rw [← not_isSome, not_eq_false'] at hnone
  exact ⟨hnone, hvis, htype, hcomp, hplayer⟩

/-- **What the tests of the second loop cover**: everything but the flag `Powered` of our units. -/
theorem wants_refresh {v : TcUnit Ty} (hm : u.Marked g) (h : u.changed (u.refresh g f v) = false)
    (k : Container)
    (hpower : k = .myUnits → u.dead = false → u.playerId = g.playerId →
      v.flags .powered = u.flags .powered) : wants g k (u.refresh g f v) = wants g k u := by
  obtain ⟨-, hvis, htype, hcomp, hplayer⟩ := of_not_changed h
  have hvis' : (u.refresh g f v).visible = u.visible := hvis.symm
  have hdead : (u.refresh g f v).dead = u.dead := rfl
  have hgone : (u.refresh g f v).gone = u.gone := rfl
  have his : ∀ a, (u.refresh g f v).is a = u.is a := fun a => congrArg (Option.any a) htype
  have hm' := marked_refresh (g := g) (f := f) v u
  cases k with
  | myUnits =>
    simp only [wants, hdead, hvis', hplayer]
    cases hd : u.dead with
    | true => rfl
    | false =>
      cases hp : u.playerId == g.playerId with
      | false => simp only [Bool.and_false, Bool.false_and]
      | true => exact congrArg _ (hpower rfl hd (eq_of_beq hp))
  | enemyUnits | visibleEnemyUnits => simp only [wants, hdead, hvis', hm'.enemy, hm.enemy, hplayer]
  | neutralUnits => simp only [wants, hdead, hm'.neutral, hm.neutral, hplayer]
  | _ => simp only [wants, hdead, hvis', hgone, his, hplayer, hcomp]

lemma look_eq (u : Unit Ty) :
    u.look f = { u with gone := false, visible := decide (u.lastSeen = f.frame) && u.visible } := by
  obtain ⟨x, y, p, visible, dead, gone, lastSeen, r⟩ := u
  dsimp only [look]
  cases gone with
  | true | false =>
    by_cases h : lastSeen = f.frame <;> simp [h]

lemma look_self (h : u.needUpdateGroups f = 0) : u.look f = u := by
  unfold needUpdateGroups at h
  have hgone : ¬ u.gone := fun hg => by rw [if_pos hg] at h; omega
  have hseen : ¬ u.lastSeen ≠ f.frame := fun hs => by rw [if_pos hs] at h; omega
  unfold look
  rw [if_neg hgone, if_neg hseen]

lemma fade_cases (u : Unit Ty) (id : UnitId) :
    (∃ x y t, u.fade g f id = ({ u with x := x, y := y, goneFrame := t }, false)) ∨
    (u.fade g f id = ({ u with gone := true }, false) ∧ u.gone = false ∧
      f.tryGetTile u.x u.y ≠ some false ∧ f.frame - u.goneFrame < 40 ∧
      20 ≤ f.frame - u.goneFrame ∧ g.inferEnemyPositions ∧ u.is g.isNonUsable = false ∧
      f.inferMovePosition id = (0, 0)) ∨
    u.fade g f id = ({ u with gone := true }, true) := by
  unfold fade
  split
  · exact .inl ⟨u.x, u.y, u.goneFrame, rfl⟩
  next hgone =>
  split
  · exact .inl ⟨u.x, u.y, u.goneFrame, rfl⟩
  next htile =>
  split
  · exact .inl ⟨u.x, u.y, f.frame, rfl⟩
  next h40 =>
  split
  next h20 =>
    split
    next hinfer =>
      rw [and_eq_true, not_eq_true'] at hinfer
      dsimp only
      split
      · exact .inl ⟨_, _, u.goneFrame, rfl⟩
      next hpos =>
        exact .inr (.inl ⟨rfl, eq_false_iff.mpr hgone, htile, Int.not_le.mp h40, h20, hinfer.1,
          hinfer.2, not_not.mp hpos⟩)
    · exact .inr (.inr rfl)
  · exact .inl ⟨u.x, u.y, u.goneFrame, rfl⟩

lemma wants_gone (u : Unit Ty) (hk : k = .resourceUnits → u.is g.isResourceContainer = false) :
    wants g k { u with gone := true } = wants g k u := by
  cases k with
  | resourceUnits =>
    have hres : is g.isResourceContainer { u with gone := true } = false := hk rfl
    simp only [wants, hres, hk rfl, Bool.and_false]
  | _ => rfl

lemma owned_of_wants (h : wants g .myUnits u) :
    u.dead = false ∧ u.visible ∧ u.playerId = g.playerId := by
  simp only [wants, and_eq_true, not_eq_true', beq_iff_eq] at h
  exact ⟨h.1.1.1, h.1.1.2, h.1.2⟩

lemma wants_inferMove (pos : Utils.Position) (u : Unit Ty) (k : Container) :
    wants g k (u.inferMove pos) = wants g k u := by
  unfold inferMove
  split
  · rfl
  · cases k <;> rfl

end Unit

/-! ## one unit -/

namespace Cell

/-- the unit is in the container exactly if the predicate says so -/
def At (g : Game Ty) (k : Container) (c : Cell Ty) : Prop :=
  ∀ u, c.unit = some u → c.has k = wants g k u

/-- what holds of every cell, whatever the frames are -/
structure Tracked (g : Game Ty) (c : Cell Ty) : Prop where
  fresh : c.unit = none → ∀ k, c.has k = false
  marked : ∀ u, c.unit = some u → u.Marked g
  groups : ∀ k, k ≠ .myUnits → k ≠ .resourceUnits → c.At g k
  owned : ∀ u, c.unit = some u → c.has .myUnits = true →
    u.dead = false ∧ u.visible = true ∧ u.playerId = g.playerId

variable {c : Cell Ty}

lemma unit_revise (h : Unit Ty → Unit Ty × Bool) (c : Cell Ty) :
    (c.revise g h).unit = c.unit.map fun u => (h u).1 := by
  unfold revise
  cases hu : c.unit with
  | none => rw [hu]; rfl
  | some u =>
    dsimp only [Option.map]
    split
    · rw [updateGroups_unit]
      rfl
    · rfl

variable {h : Unit Ty → Unit Ty × Bool}

lemma has_revise (hu : c.unit = some u) (k : Container) :
    (c.revise g h).has k = if (h u).2 then wants g k (h u).1 else c.has k := by
  unfold revise
  rw [hu]
  dsimp only
  split <;> rfl

lemma revise_none (hu : c.unit = none) : c.revise g h = c := by
  unfold revise
  rw [hu]

lemma at_revise (hc : c.At g k)
    (hh : ∀ u, c.unit = some u → (h u).2 = false → wants g k (h u).1 = wants g k u) :
    (c.revise g h).At g k := by
  intro u' hu'
  rw [unit_revise, map_eq_some_iff] at hu'
  obtain ⟨u, hu, rfl⟩ := hu'
  rw [has_revise hu]
  cases hb : (h u).2 with
  | true => rfl
  | false =>
    rw [if_neg Bool.false_ne_true, hh u hu hb]
    exact hc u hu

lemma tracked_revise (hc : c.Tracked g) (hmarked : ∀ u, c.unit = some u → (h u).1.Marked g)
    (hwants : ∀ u, c.unit = some u → (h u).2 = false → ∀ k, k ≠ .myUnits → k ≠ .resourceUnits →
      wants g k (h u).1 = wants g k u)
    (howned : ∀ u, c.unit = some u → (h u).2 = false →
      (h u).1.dead = u.dead ∧ (h u).1.visible = u.visible ∧ (h u).1.playerId = u.playerId) :
    (c.revise g h).Tracked g where
  fresh := by
    intro hnone k
    rw [unit_revise, map_eq_none_iff] at hnone
    rw [revise_none hnone]
    exact hc.fresh hnone k
  marked := by
    intro u' hu'
    rw [unit_revise, map_eq_some_iff] at hu'
    obtain ⟨u, hu, rfl⟩ := hu'
    exact hmarked u hu
  groups := fun k h₁ h₂ => at_revise (hc.groups k h₁ h₂) fun u hu hb => hwants u hu hb k h₁ h₂
  owned := by
    intro u' hu' hin
    rw [unit_revise, map_eq_some_iff] at hu'
    obtain ⟨u, hu, rfl⟩ := hu'
    rw [has_revise hu] at hin
    cases hb : (h u).2 with
    | true => exact owned_of_wants ((if_pos hb).symm.trans hin)
    | false =>
      rw [hb, if_neg Bool.false_ne_true] at hin
      obtain ⟨hd, hv, hp⟩ := howned u hu hb
      rw [hd, hv, hp]
      exact hc.owned u hu hin

/-! ### the loops -/

lemma unit_see (c : Cell Ty) :
    (c.see g f v).unit = some ((c.unit.getD {}).refresh g f v) := unit_revise _ _

lemma has_see (c : Cell Ty) (k : Container) : (c.see g f v).has k =
      if (c.unit.getD {}).changed ((c.unit.getD {}).refresh g f v) then
        wants g k ((c.unit.getD {}).refresh g f v)
      else c.has k := has_revise rfl k

lemma known_of_not_changed {u' : Unit Ty} (h : (c.unit.getD {}).changed u' = false) :
    ∃ u, c.unit = some u := by
  cases hu : c.unit with
  | none =>
    rw [hu] at h
    exact absurd (of_not_changed h).1 Bool.false_ne_true
  | some u => exact ⟨u, rfl⟩

lemma at_see {v : TcUnit Ty} (hc : c.Tracked g) (hk : c.At g k)
    (hpower : ∀ u, c.unit = some u → u.changed (u.refresh g f v) = false → k = .myUnits →
      u.dead = false → u.playerId = g.playerId → v.flags .powered = u.flags .powered) :
    (c.see g f v).At g k := by
  intro u' hu'
  cases (unit_see v c).symm.trans hu'
  rw [has_see]
  cases hb : (c.unit.getD {}).changed ((c.unit.getD {}).refresh g f v) with
  | true => rfl
  | false =>
    obtain ⟨u, hu⟩ := known_of_not_changed hb
    rw [hu] at hb ⊢
    rw [if_neg Bool.false_ne_true, hk u hu]
    exact (wants_refresh (hc.marked u hu) hb k (hpower u hu hb)).symm

lemma tracked_see (hc : c.Tracked g) (v : TcUnit Ty) : (c.see g f v).Tracked g where
  fresh := fun h => nomatch (unit_see v c).symm.trans h
  marked := by
    intro u' hu'
    cases (unit_see v c).symm.trans hu'
    exact marked_refresh v _
  groups := fun k h₁ h₂ => at_see hc (hc.groups k h₁ h₂) fun _ _ _ hk => absurd hk h₁
  owned := by
    intro u' hu' hin
    cases (unit_see v c).symm.trans hu'
    rw [has_see] at hin
    cases hb : (c.unit.getD {}).changed ((c.unit.getD {}).refresh g f v) with
    | true => exact owned_of_wants ((if_pos hb).symm.trans hin)
    | false =>
      obtain ⟨u, hu⟩ := known_of_not_changed hb
      rw [hb, if_neg Bool.false_ne_true] at hin
      rw [hu] at hb ⊢
      obtain ⟨hd, -, hp⟩ := hc.owned u hu hin
      exact ⟨hd, rfl, (of_not_changed hb).2.2.2.2.trans hp⟩

lemma at_bury (hk : c.At g k) : (c.bury g f).At g k :=
  at_revise hk fun _ _ h => Bool.noConfusion h

lemma tracked_bury (hc : c.Tracked g) : (c.bury g f).Tracked g :=
  tracked_revise hc (fun u hu => ⟨(hc.marked u hu).1, (hc.marked u hu).2, (hc.marked u hu).3⟩)
    (fun _ _ h => Bool.noConfusion h) fun _ _ h => Bool.noConfusion h

lemma at_hide (hk : c.At g k) : (c.hide g f).At g k := by
  unfold hide
  split
  · refine at_revise hk fun u _ h => ?_
    rw [look_self (not_not.mp (of_decide_eq_false h))]
  · exact hk

lemma tracked_hide (hc : c.Tracked g) : (c.hide g f).Tracked g := by
  have hsame : ∀ u : Unit Ty, decide (u.needUpdateGroups f ≠ 0) = false → u.look f = u :=
    fun u h => look_self (not_not.mp (of_decide_eq_false h))
  unfold hide
  split
  · refine tracked_revise hc (fun u hu => ?_) (fun u _ h k _ _ => ?_) fun u _ h => ?_
    · obtain ⟨h₁, h₂, h₃⟩ := hc.marked u hu
      rw [look_eq]
      exact ⟨h₁, h₂, h₃⟩
    · rw [hsame u h]
    · rw [hsame u h]
      exact ⟨rfl, rfl, rfl⟩
  · exact hc

variable {id : UnitId}

lemma at_forget (hk : c.At g k)
    (hgone : k = .resourceUnits → c.has .hiddenUnits → ∀ u, c.unit = some u →
      u.is g.isResourceContainer → u.gone = false → f.tryGetTile u.x u.y ≠ some false →
      f.frame - u.goneFrame < 40 → 20 ≤ f.frame - u.goneFrame → g.inferEnemyPositions →
      u.is g.isNonUsable = false → f.inferMovePosition id ≠ (0, 0)) : (c.forget g f id).At g k := by
  unfold forget
  split
  next hhid =>
    refine at_revise hk fun u hu h => ?_
    rcases fade_cases (g := g) (f := f) u id with
      ⟨x, y, t, he⟩ | ⟨he, h₁, h₂, h₃, h₄, h₅, h₆, h₇⟩ | he
    · rw [he]
      cases k <;> rfl
    · rw [he]
      refine wants_gone u fun hres => ?_
      by_contra hcont
      exact hgone hres hhid u hu (not_eq_false _ ▸ hcont) h₁ h₂ h₃ h₄ h₅ h₆ h₇
    · rw [he] at h
      nomatch h
  · exact hk

lemma tracked_forget (hc : c.Tracked g) (id : UnitId) : (c.forget g f id).Tracked g := by
  unfold forget
  split
  · refine tracked_revise hc (fun u hu => ?_) (fun u _ h k _ hk => ?_) fun u _ h => ?_
    · obtain ⟨h₁, h₂, h₃⟩ := hc.marked u hu
      rcases fade_cases (g := g) (f := f) u id with ⟨x, y, t, he⟩ | ⟨he, -⟩ | he
      all_goals rw [he]; exact ⟨h₁, h₂, h₃⟩
    · rcases fade_cases (g := g) (f := f) u id with ⟨x, y, t, he⟩ | ⟨he, -⟩ | he
      · rw [he]
        cases k <;> rfl
      · rw [he]
        exact wants_gone u fun h => absurd h hk
      · rw [he] at h
        nomatch h
    · rcases fade_cases (g := g) (f := f) u id with ⟨x, y, t, he⟩ | ⟨he, -⟩ | he
      all_goals rw [he]; exact ⟨rfl, rfl, rfl⟩
  · exact hc

lemma infer_keeps {P : Cell Ty → Prop} (hc : P c)
    (hmove : ∀ c pos, P c → P (c.revise g fun u => (u.inferMove pos, false))) :
    P (c.infer g f id) := by
  unfold infer
  split
  · refine List.foldlRecOn _ _ hc fun c hc m _ => ?_
    split
    · exact hmove c m.2 hc
    · exact hc
  · exact hc

lemma at_infer (hk : c.At g k) : (c.infer g f id).At g k :=
  infer_keeps hk fun _ pos hc => at_revise hc fun u _ _ => wants_inferMove pos u k

lemma tracked_infer (hc : c.Tracked g) (id : UnitId) : (c.infer g f id).Tracked g := by
  refine infer_keeps hc fun c pos hc => tracked_revise hc (fun u hu => ?_)
    (fun u _ _ k _ _ => wants_inferMove pos u k) fun u _ _ => ?_
  · obtain ⟨h₁, h₂, h₃⟩ := hc.marked u hu
    dsimp only [inferMove]
    split_ifs <;> exact ⟨h₁, h₂, h₃⟩
  · dsimp only [inferMove]
    split_ifs <;> exact ⟨rfl, rfl, rfl⟩

lemma read_keeps {P : Cell Ty → Prop} (hc : P c)
    (hsee : ∀ v ∈ f.units, id = v.id → P (c.see g f v)) (hbury : ∀ c, P c → P (c.bury g f)) :
    P (c.read g f id) := by
  have hseen : P ((f.units.find? fun v => id = v.id).elim c fun v => c.see g f v) := by
    cases hfind : f.units.find? fun v => id = v.id with
    | none => exact hc
    | some v =>
      have hid := List.find?_some hfind
      exact hsee v (List.mem_of_find?_eq_some hfind) (of_decide_eq_true hid)
  unfold read
  split
  · exact hbury _ hseen
  · exact hseen

lemma tracked_read (hc : c.Tracked g) (id : UnitId) : (c.read g f id).Tracked g :=
  read_keeps hc (fun v _ _ => tracked_see hc v) fun _ => tracked_bury

lemma tracked_update (hc : c.Tracked g) (id : UnitId) : (c.update g f id).Tracked g :=
  tracked_infer (tracked_forget (tracked_hide (tracked_read hc id)) id) id

lemma unit_bury (c : Cell Ty) : (c.bury g f).unit = c.unit.map (die f) := unit_revise _ _

lemma unit_hide (hu : (c.hide g f).unit = some u) :
    (c.has .visibleUnits = false ∧ c.unit = some u) ∨
      c.has .visibleUnits ∧ ∃ u₁, c.unit = some u₁ ∧ u = u₁.look f := by
  unfold hide at hu
  split at hu
  next hvis =>
    rw [unit_revise, map_eq_some_iff] at hu
    obtain ⟨u₁, hu₁, rfl⟩ := hu
    exact .inr ⟨hvis, u₁, hu₁, rfl⟩
  next hvis => exact .inl ⟨eq_false_iff.mpr hvis, hu⟩

lemma read_cases (hu : (c.read g f id).unit = some u) (hd : u.dead = false) :
    id ∉ f.deaths ∧ ((∃ v ∈ f.units, id = v.id ∧ c.read g f id = c.see g f v) ∨
      (∀ v ∈ f.units, id ≠ v.id) ∧ c.read g f id = c) := by
  have hdeath : id ∉ f.deaths := by
    intro hin
    unfold read at hu
    rw [if_pos hin, unit_bury, map_eq_some_iff] at hu
    obtain ⟨u', -, rfl⟩ := hu
    exact Bool.noConfusion hd
  refine ⟨hdeath, ?_⟩
  have hread : c.read g f id = (f.units.find? fun v => id = v.id).elim c fun v => c.see g f v := by
    unfold read
    rw [if_neg hdeath]
  rw [hread]
  cases hfind : f.units.find? fun v => id = v.id with
  | some v =>
    have hid := List.find?_some hfind
    exact .inl ⟨v, List.mem_of_find?_eq_some hfind, of_decide_eq_true hid, rfl⟩
  | none =>
    refine .inr ⟨fun v hv he => ?_, rfl⟩
    exact absurd (decide_eq_true he) (List.find?_eq_none.mp hfind v hv)

/-- **The units that the loop over the hidden units meets**: the frame says nothing about them. -/
theorem hidden_cases (hc : c.Tracked g) (hu : ((c.read g f id).hide g f).unit = some u)
    (hhid : ((c.read g f id).hide g f).has .hiddenUnits) :
    (∀ v ∈ f.units, id ≠ v.id) ∧ id ∉ f.deaths ∧ ∃ u₀, c.unit = some u₀ ∧ u₀.dead = false ∧
      (u = u₀ ∨ u₀.visible ∧ u = u₀.look f) := by
  have hwants := (tracked_hide (tracked_read (f := f) hc id)).groups .hiddenUnits (by decide)
    (by decide) u hu
  rw [hhid] at hwants
  obtain ⟨hdead, hvis⟩ : u.dead = false ∧ u.visible = false := by
    simpa [wants] using hwants.symm
  obtain ⟨u₁, hu₁, hu₁u⟩ : ∃ u₁, (c.read g f id).unit = some u₁ ∧
      (u = u₁ ∨ (c.read g f id).has .visibleUnits ∧ u = u₁.look f) := by
    rcases unit_hide hu with ⟨-, h⟩ | ⟨hv, u₁, h, he⟩
    · exact ⟨u, h, .inl rfl⟩
    · exact ⟨u₁, h, .inr ⟨hv, he⟩⟩
  have hdead₁ : u₁.dead = false := by
    rcases hu₁u with rfl | ⟨-, rfl⟩
    · exact hdead
    · rwa [look_eq] at hdead
  obtain ⟨hdeath, ⟨v, -, -, hread⟩ | ⟨habsent, hread⟩⟩ := read_cases hu₁ hdead₁
  · -- a unit that is seen is not hidden
    rw [hread, unit_see] at hu₁
    cases hu₁
    rcases hu₁u with rfl | ⟨-, rfl⟩
    · exact Bool.noConfusion hvis
    · rw [look_eq] at hvis
      have hframe : decide (f.frame = f.frame) && true := by rw [decide_eq_true rfl]; rfl
      exact Bool.noConfusion (hframe.symm.trans hvis)
  · rw [hread] at hu₁ hu₁u
    refine ⟨habsent, hdeath, u₁, hu₁, hdead₁, ?_⟩
    rcases hu₁u with h | ⟨hv, h⟩
    · exact .inl h
    · have hvis₁ := hc.groups .visibleUnits (by decide) (by decide) u₁ hu₁
      rw [hv] at hvis₁
      simp only [wants, hdead₁, Bool.not_false, Bool.true_and] at hvis₁
      exact .inr ⟨hvis₁.symm, h⟩

lemma tracked_init : Tracked g (⟨none, fun _ => false⟩ : Cell Ty) :=
  ⟨fun _ _ => rfl, fun _ h => (nomatch h), fun _ _ _ _ h => (nomatch h), fun _ h => (nomatch h)⟩

end Cell

/-! ## all units -/

namespace UnitsInfo

/-- what holds in every state, whatever the frames were -/
structure Tracked (g : Game Ty) (s : UnitsInfo Ty) : Prop where
  placed : s.Placed
  cells : ∀ id, (s.cell id).Tracked g

lemma tracked_init : ({} : UnitsInfo Ty).Tracked g := ⟨placed_init, fun _ => Cell.tracked_init⟩

lemma tracked_update {s : UnitsInfo Ty} (hs : s.Tracked g) (f : Frame Ty) :
    (s.update g f).Tracked g where
  placed := (update_spec hs.placed).1
  cells := by
    intro id
    rw [(update_spec hs.placed).2]
    exact Cell.tracked_update (hs.cells id) id

/-- every container holds the units that its predicate wants -/
def Exact (g : Game Ty) (s : UnitsInfo Ty) : Prop :=
  ∀ c, (s.cont c).items.Nodup ∧
    ∀ id, id ∈ (s.cont c).items ↔ ∃ u, s.unit id = some u ∧ wants g c u = true

lemma exact_of_at {s : UnitsInfo Ty} (hs : s.Tracked g) (h : ∀ c id, (s.cell id).At g c) :
    s.Exact g := by
  intro c
  refine ⟨(hs.placed c).nodup, fun id => ?_⟩
  have hmem : id ∈ (s.cont c).items ↔ (s.cell id).has c := decide_eq_true_iff.symm
  rw [hmem]
  cases hu : s.unit id with
  | none =>
    rw [(hs.cells id).fresh hu c]
    refine ⟨nofun, ?_⟩
    rintro ⟨u, hu', -⟩
    nomatch hu'
  | some u =>
    rw [h c id u hu]
    refine ⟨fun hw => ⟨u, rfl, hw⟩, ?_⟩
    rintro ⟨u', hu', hw⟩
    rwa [some.inj hu']

/-- the flag `Powered` of a live unit of ours changes only together with something that is tested -/
def PowerNoticed (g : Game Ty) (s : UnitsInfo Ty) (f : Frame Ty) : Prop :=
  ∀ v ∈ f.units, ∀ u, s.unit v.id = some u → u.dead = false → u.playerId = g.playerId →
    u.changed (u.refresh g f v) = false → v.flags .powered = u.flags .powered

/-- the inference finds a place for every usable resource container that is to be given up -/
def NoneLost (g : Game Ty) (s : UnitsInfo Ty) (f : Frame Ty) : Prop :=
  g.inferEnemyPositions = true → ∀ id u, s.unit id = some u → u.dead = false →
    u.is g.isResourceContainer = true → u.is g.isNonUsable = false →
    (∀ v ∈ f.units, id ≠ v.id) → id ∉ f.deaths → (u.gone = false ∨ u.visible = true) →
    f.tryGetTile u.x u.y ≠ some false → 20 ≤ f.frame - u.goneFrame → f.frame - u.goneFrame < 40 →
    f.inferMovePosition id ≠ (0, 0)

variable {s : UnitsInfo Ty}

lemma mem_liveUnits (hs : s.Tracked g) {id : UnitId} {u : Unit Ty} (hu : s.unit id = some u)
    (hd : u.dead = false) : id ∈ (s.cont .liveUnits).items := by
  have hat := (hs.cells id).groups .liveUnits (by decide) (by decide) u hu
  have hwants : wants g .liveUnits u := by
    rw [wants, hd]
    rfl
  exact of_decide_eq_true (hat.trans hwants)

lemma at_update (hs : s.Tracked g) (hpower : PowerNoticed g s f) (hlost : NoneLost g s f)
    (h : ∀ c id, (s.cell id).At g c) (c : Container) (id : UnitId) :
    ((s.update g f).cell id).At g c := by
  have hcell := hs.cells id
  rw [(update_spec hs.placed).2]
  have hread : ((s.cell id).read g f id).At g c := by
    refine Cell.read_keeps (P := Cell.At g c) (h c id) ?_ fun _ => Cell.at_bury
    rintro v hv rfl
    exact Cell.at_see hcell (h c v.id) fun u hu hch _ hd hp => hpower v hv u hu hd hp hch
  refine Cell.at_infer (Cell.at_forget (Cell.at_hide hread) ?_)
  intro _ hhid u hu hres hgone htile h40 h20 hinfer husable
  obtain ⟨habsent, hdeath, u₀, hu₀, hdead₀, hlook⟩ := Cell.hidden_cases hcell hu hhid
  rcases hlook with rfl | ⟨hvis, rfl⟩
  · exact hlost hinfer id u hu₀ hdead₀ hres husable habsent hdeath (.inl hgone) htile h20 h40
  · rw [look_eq] at hres htile h40 h20 husable
    exact hlost hinfer id u₀ hu₀ hdead₀ hres husable habsent hdeath (.inr hvis) htile h20 h40

/-- the frames of a game; `ok` restricts them -/
def frames (g : Game Ty) (ok : UnitsInfo Ty → Frame Ty → Prop) : Sys (UnitsInfo Ty) (Frame Ty) where
  run s f := s.update g f
  ok := ok

/-- **The groups are exact**, as long as no change of `Powered` goes unnoticed and no usable resource
is given up while positions are inferred. -/
theorem groups_exact (g : Game Ty) (fs : List (Frame Ty))
    (h : (frames g fun s f => PowerNoticed g s f ∧ NoneLost g s f).Legal {} fs) :
    ((frames g fun s f => PowerNoticed g s f ∧ NoneLost g s f).out {} fs).Exact g := by
  have hinit : ∀ c id, (cell ({} : UnitsInfo Ty) id).At g c := by
    intro c id u hu
    nomatch hu
  obtain ⟨hs, hat⟩ := Sys.invariant (frames g fun s f => PowerNoticed g s f ∧ NoneLost g s f)
    (fun s : UnitsInfo Ty => s.Tracked g ∧ ∀ c id, (s.cell id).At g c)
    (fun s f hs hok => ⟨tracked_update hs.1 f, at_update hs.1 hok.1 hok.2 hs.2⟩) {}
    ⟨tracked_init, hinit⟩ fs h
  exact exact_of_at hs hat

/-! ### two frames -/

/-- a game with two types of units, of which one is a gas building -/
def skirmish : Game Bool where
  playerId := 0
  neutralId := -1
  mapWidth := 512
  mapHeight := 512
  inferEnemyPositions := true
  tcOrderIsAttack := fun t => t == 10
  isBuilding := fun t => t
  isWorker := fun _ => false
  isGas := fun _ => false
  isMinerals := fun _ => false
  isResourceDepot := fun _ => false
  isResourceContainer := fun t => t
  isNonUsable := fun _ => false
  isSpecialBuilding := fun _ => false
  isMorphingBuilding := fun _ => false
  sightUpgrade := fun _ => none
  sightRange := fun _ => 32
  dimensionUp := fun _ => 0
  dimensionDown := fun _ => 0
  dimensionLeft := fun _ => 0
  dimensionRight := fun _ => 0

/-- a building of ours that is not finished, with and without power -/
def site (frame : FrameNum) (powered : Bool) : Frame Bool where
  frame := frame
  units := [⟨1, 8, 8, 0, true, fun b => b == .beingConstructed || (b == .powered && powered), []⟩]
  nodup := List.nodup_singleton _

/-- a gas building of the enemy is seen -/
def scouted : Frame Bool where
  frame := 1
  units := [⟨2, 64, 64, 1, true, fun b => b == .completed || b == .powered, []⟩]

/-- later its tile is visible, and it is not there -/
def revisited : Frame Bool where
  frame := 25
  units := []
  tryGetTile := fun _ _ => some true

/-- the building is taken for moved -/
def moved : Frame Bool := { revisited with inferMovePosition := fun _ => (96, 64) }

theorem groups_exact_site :
    ((frames skirmish fun s f => PowerNoticed skirmish s f ∧ NoneLost skirmish s f).out {}
      [site 1 true, site 2 true]).Exact skirmish ∧
    ((frames skirmish fun s f => PowerNoticed skirmish s f ∧ NoneLost skirmish s f).out {}
      [scouted, moved]).Exact skirmish := by
  have hfirst (f : Frame Bool) : PowerNoticed skirmish {} f ∧ NoneLost skirmish {} f :=
    ⟨fun _ _ _ hu => (nomatch hu), fun _ _ _ hu => nomatch hu⟩
  constructor
  · refine groups_exact skirmish [site 1 true, site 2 true]
      ⟨hfirst _, ⟨fun v hv u hu _ _ _ => ?_, fun _ id u hu hd _ _ hnot => ?_⟩, trivial⟩
    · obtain rfl := List.mem_singleton.mp hv
      have hpower : ((({} : UnitsInfo Bool).update skirmish (site 1 true)).unit 1).map
          (fun u => u.flags .powered) = some true := by decide
      rw [show (({} : UnitsInfo Bool).update skirmish (site 1 true)).unit 1 = some u from hu] at hpower
      exact (Option.some.inj hpower).symm
    · -- every unit that is known is in the second frame
      have hmem := mem_liveUnits (g := skirmish) (tracked_update tracked_init (site 1 true)) hu hd
      rw [show ((({} : UnitsInfo Bool).update skirmish (site 1 true)).cont .liveUnits).items = [1] by
        decide] at hmem
      exact absurd (List.mem_singleton.mp hmem) (hnot _ (List.mem_singleton_self _))
  · refine groups_exact skirmish [scouted, moved]
      ⟨hfirst _, ⟨fun v hv => (nomatch hv), fun _ _ _ _ _ _ _ _ _ _ _ _ _ => ?_⟩, trivial⟩
    exact (by decide : ((96, 64) : Int × Int) ≠ (0, 0))

/-- **The groups are not exact in general**: a building stays in `myUnits_` when it loses power. -/
theorem groups_not_exact :
    ¬ ((frames skirmish fun _ _ => True).out {} [site 1 true, site 2 false]).Exact skirmish ∧
    ¬ ((frames skirmish fun _ _ => True).out {} [scouted, revisited]).Exact skirmish := by
  constructor
  · intro h
    obtain ⟨u, hu, hw⟩ := ((h .myUnits).2 1).mp (by decide)
    have hfalse : (some u).any (wants skirmish .myUnits) = false := by
      rw [← hu]
      decide
    exact Bool.noConfusion (hfalse.symm.trans hw)
  · intro h
    obtain ⟨u, hu, hw⟩ := ((h .resourceUnits).2 2).mp (by decide)
    have hfalse : (some u).any (wants skirmish .resourceUnits) = false := by
      rw [← hu]
      decide
    exact Bool.noConfusion (hfalse.symm.trans hw)

end UnitsInfo

end TorchCraft.Units
