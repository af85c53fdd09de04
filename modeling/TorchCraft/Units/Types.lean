import TorchCraft.Units.Groups

/-!
# The lists of our units by type

`myUnitsOfType_` and `myCompletedUnitsOfType_` are built from `myUnits_` in the frames in which the
flag `updateMyGroups` was raised.  It is raised for a unit of ours that is seen with a change and for
one that dies, but not for one that goes out of sight: the unit leaves `myUnits_` and stays in the
lists (`types_not_exact`).

* `Cell.kind`  what the lists depend on, of one unit.
-/

set_option linter.unusedSectionVars false

namespace TorchCraft.Units
open Lib TorchCraft.Units.Unit Cell
open List

variable {Ty : Type*} [DecidableEq Ty] {g : Game Ty} {f : Frame Ty}

namespace Cell
variable {c : Cell Ty} {id : UnitId}

def kind (c : Cell Ty) : Option (Ty × Bool) :=
  if c.has .myUnits then c.unit.bind fun u => u.type.map (·, u.completed) else none

/-- a live unit that is seen is not gone -/
def Shown (c : Cell Ty) : Prop :=
  ∀ u, c.unit = some u → u.dead = false → u.visible = true → u.gone = false

lemma kind_none (h : c.has .myUnits = false) : c.kind = none := by
  rw [kind, h, if_neg Bool.false_ne_true]

lemma not_wants_myUnits {u : Unit Ty}
    (h : ¬ (u.dead = false ∧ u.visible ∧ u.playerId = g.playerId)) :
    wants g .myUnits u = false := by
  rw [Bool.eq_false_iff]
  intro hw
  simp only [wants, Bool.and_eq_true, Bool.not_eq_true', beq_iff_eq] at hw
  exact h ⟨hw.1.1.1, hw.1.1.2, hw.1.2⟩

lemma Tracked.not_has_myUnits (hc : c.Tracked g)
    (h : ∀ u, c.unit = some u → ¬ (u.dead = false ∧ u.visible ∧ u.playerId = g.playerId)) :
    c.has .myUnits = false := by
  cases hu : c.unit with
  | none => exact hc.fresh hu .myUnits
  | some u =>
    rw [Bool.eq_false_iff]
    exact fun hin => h u hu (hc.owned u hu hin)

def raises (g : Game Ty) (f : Frame Ty) (c : Cell Ty) (v : TcUnit Ty) : Bool :=
  (c.unit.getD {}).changed ((c.unit.getD {}).refresh g f v) &&
    ((c.unit.getD {}).playerId == g.playerId || v.playerId == g.playerId)

/-! ## what happens to the kind if the flag is not raised -/

lemma kind_see {v : TcUnit Ty} (hc : c.Tracked g) (h : c.raises g f v = false) :
    (c.see g f v).kind = c.kind := by
  cases hb : (c.unit.getD {}).changed ((c.unit.getD {}).refresh g f v) with
  | false =>
    obtain ⟨u, hu⟩ := known_of_not_changed hb
    have hhas := has_see (g := g) (f := f) v c .myUnits
    rw [hb, if_neg Bool.false_ne_true] at hhas
    rw [hu] at hb
    obtain ⟨-, -, htype, hcomp, -⟩ := of_not_changed hb
    rw [kind, kind, hhas, unit_see, hu]
    dsimp only [Option.bind, Option.getD] at htype hcomp ⊢
    rw [htype, hcomp]
  | true =>
    rw [raises, hb, Bool.true_and, Bool.or_eq_false_iff, beq_eq_false_iff_ne,
      beq_eq_false_iff_ne] at h
    have hafter : (c.see g f v).has .myUnits = false := by
      rw [has_see, if_pos hb]
      exact not_wants_myUnits fun hu => h.2 hu.2.2
    have hbefore : c.has .myUnits = false := by
      refine hc.not_has_myUnits fun u hu hm => h.1 ?_
      rw [hu]
      exact hm.2.2
    rw [kind_none hafter, kind_none hbefore]

lemma kind_bury (hc : c.Tracked g) (h : c.unit.any isMine = false) :
    (c.bury g f).kind = c.kind := by
  have hafter : (c.bury g f).has .myUnits = false := by
    refine (tracked_bury hc).not_has_myUnits fun u hu hm => ?_
    rw [unit_bury, Option.map_eq_some_iff] at hu
    obtain ⟨u', -, rfl⟩ := hu
    exact Bool.noConfusion hm.1
  have hbefore : c.has .myUnits = false := by
    refine hc.not_has_myUnits fun u hu hm => ?_
    rw [hu] at h
    have hmine : u.isMine = false := h
    rw [(hc.marked u hu).mine, beq_eq_false_iff_ne] at hmine
    exact hmine hm.2.2
  rw [kind_none hafter, kind_none hbefore]

lemma kind_hide (hc : c.Tracked g)
    (h : c.has .visibleUnits → ∀ u, c.unit = some u → u.dead = false →
      u.playerId = g.playerId → u.visible →
      u.gone = false ∧ (u.lastSeen ≠ f.frame → c.has .myUnits = false)) :
    (c.hide g f).kind = c.kind := by
  have htracked := tracked_hide (f := f) hc
  cases hvis : c.has .visibleUnits with
  | false =>
    unfold hide
    rw [hvis, if_neg Bool.false_ne_true]
  | true =>
    cases hu : c.unit with
    | none =>
      unfold hide
      rw [revise_none hu, ite_self]
    | some u =>
      have hlook : (c.hide g f).unit = some (u.look f) := by
        rw [hide, if_pos hvis, unit_revise, hu]
        rfl
      by_cases hcalm : u.gone = false ∧ u.lastSeen = f.frame
      · have hneed : u.needUpdateGroups f = 0 := by
          rw [needUpdateGroups, hcalm.1, if_neg Bool.false_ne_true,
            if_neg (not_not.mpr hcalm.2)]
        have hhas : (c.hide g f).has .myUnits = c.has .myUnits := by
          rw [hide, if_pos hvis, has_revise hu]
          rw [hneed, decide_eq_false (not_not.mpr rfl), if_neg Bool.false_ne_true]
        rw [kind, kind, hhas, hlook, hu, look_self hneed]
      · have hafter : (c.hide g f).has .myUnits = false := by
          refine htracked.not_has_myUnits fun u' hu' hm => ?_
          cases hlook.symm.trans hu'
          rw [look_eq] at hm
          obtain ⟨hd, hv, hp⟩ := hm
          rw [Bool.and_eq_true, decide_eq_true_iff] at hv
          exact hcalm ⟨(h hvis u hu hd hp hv.2).1, hv.1⟩
        have hbefore : c.has .myUnits = false := by
          rw [Bool.eq_false_iff]
          intro hin
          obtain ⟨hd, hv, hp⟩ := hc.owned u hu hin
          obtain ⟨hgone, hhid⟩ := h hvis u hu hd hp hv
          have hseen : u.lastSeen ≠ f.frame := fun he => hcalm ⟨hgone, he⟩
          exact Bool.noConfusion (hin.symm.trans (hhid hseen))
        rw [kind_none hafter, kind_none hbefore]

lemma kind_forget (hc : c.Tracked g) (id : UnitId) : (c.forget g f id).kind = c.kind := by
  cases hhid : c.has .hiddenUnits with
  | false =>
    unfold forget
    rw [hhid, if_neg Bool.false_ne_true]
  | true =>
    -- a hidden unit has no kind, before and after
    have hvis : ∀ u, c.unit = some u → u.visible = false := by
      intro u hu
      have hwants := hc.groups .hiddenUnits (by decide) (by decide) u hu
      rw [hhid] at hwants
      simp only [wants, Eq.comm (a := true), Bool.and_eq_true, Bool.not_eq_true'] at hwants
      exact hwants.2
    have hafter : (c.forget g f id).has .myUnits = false := by
      refine (tracked_forget hc id).not_has_myUnits fun u' hu' hm => ?_
      rw [forget, if_pos hhid, unit_revise, Option.map_eq_some_iff] at hu'
      obtain ⟨u, hu, rfl⟩ := hu'
      have hsame : (u.fade g f id).1.visible = u.visible := by
        rcases fade_cases (g := g) (f := f) u id with ⟨x, y, t, he⟩ | ⟨he, -⟩ | he
        all_goals rw [he]
      rw [hsame, hvis u hu] at hm
      exact Bool.noConfusion hm.2.1
    have hbefore : c.has .myUnits = false := by
      refine hc.not_has_myUnits fun u hu hm => ?_
      rw [hvis u hu] at hm
      exact Bool.noConfusion hm.2.1
    rw [kind_none hafter, kind_none hbefore]

lemma kind_infer (c : Cell Ty) (id : UnitId) : (c.infer g f id).kind = c.kind := by
  refine infer_keeps (P := fun c' => c'.kind = c.kind) rfl fun c' pos h => ?_
  rw [← h]
  cases hu : c'.unit with
  | none => rw [revise_none hu]
  | some u =>
    rw [kind, kind, has_revise hu, unit_revise, hu]
    dsimp only [Option.map, Option.bind]
    have htype : (u.inferMove pos).type = u.type ∧ (u.inferMove pos).completed = u.completed := by
      unfold inferMove
      split <;> exact ⟨rfl, rfl⟩
    rw [htype.1, htype.2, if_neg Bool.false_ne_true]

lemma shown_update (hc : c.Tracked g) (id : UnitId) : (c.update g f id).Shown := by
  have hread := tracked_read (f := f) hc id
  have hhide : ((c.read g f id).hide g f).Shown := by
    intro u hu hd hv
    rcases unit_hide hu with ⟨hvis, h⟩ | ⟨-, u₁, -, rfl⟩
    · have hwants := hread.groups .visibleUnits (by decide) (by decide) u h
      rw [hvis] at hwants
      simp only [wants, hd, hv] at hwants
      exact Bool.noConfusion hwants
    · rw [look_eq]
  have hforget : (((c.read g f id).hide g f).forget g f id).Shown := by
    unfold forget
    split
    next hhid =>
      intro u' hu' hd hv
      rw [unit_revise, Option.map_eq_some_iff] at hu'
      obtain ⟨u, hu, rfl⟩ := hu'
      have hwants := (tracked_hide hread).groups .hiddenUnits (by decide) (by decide) u hu
      rw [hhid] at hwants
      have hsame : (u.fade g f id).1.visible = u.visible := by
        rcases fade_cases (g := g) (f := f) u id with ⟨x, y, t, he⟩ | ⟨he, -⟩ | he
        all_goals rw [he]
      rw [hsame] at hv
      simp only [wants, hv, Bool.not_true, Bool.and_false] at hwants
      exact Bool.noConfusion hwants
    · exact hhide
  refine infer_keeps hforget fun c pos h u' hu' hd hv => ?_
  rw [unit_revise, Option.map_eq_some_iff] at hu'
  obtain ⟨u, hu, rfl⟩ := hu'
  have hsame : (u.inferMove pos).dead = u.dead ∧ (u.inferMove pos).visible = u.visible ∧
      (u.inferMove pos).gone = u.gone := by
    unfold inferMove
    split <;> exact ⟨rfl, rfl, rfl⟩
  rw [hsame.1] at hd
  rw [hsame.2.1] at hv
  rw [hsame.2.2]
  exact h u hu hd hv

end Cell

namespace UnitsInfo
variable {s : UnitsInfo Ty}

/-! ## the flag -/

/-- a frame raises the flag if a unit of ours is seen with a change, or one dies -/
def raised (g : Game Ty) (s : UnitsInfo Ty) (f : Frame Ty) : Bool :=
  (f.units.any fun v => (s.cell v.id).raises g f v) ||
    f.deaths.any fun id => match f.units.find? fun v => id = v.id with
      | some v => v.playerId == g.playerId
      | none => (s.unit id).any isMine

variable {p : UnitsInfo Ty × Bool}

lemma raised_see {l : List (TcUnit Ty)} (hl : (l.map TcUnit.id).Nodup) (hp : p.1.Placed) :
    (l.foldl (see g f) p).2 = (p.2 || l.any fun v => (p.1.cell v.id).raises g f v) := by
  induction l generalizing p with
  | nil => exact (Bool.or_false p.2).symm
  | cons a l ih =>
    obtain ⟨ha, hl⟩ := nodup_cons.mp hl
    have hrest : (l.any fun v => ((see g f p a).1.cell v.id).raises g f v) =
        l.any fun v => (p.1.cell v.id).raises g f v := by
      rw [Bool.eq_iff_iff, any_eq_true, any_eq_true]
      refine exists_congr fun v => and_congr_right fun hv => ?_
      have hne : v.id ≠ a.id := fun he => ha (he ▸ mem_map_of_mem hv)
      rw [(treats_see hp a).cell, if_neg hne]
    rw [foldl_cons, ih hl (treats_see hp a).placed, hrest, any_cons, ← Bool.or_assoc]
    rfl

lemma raised_bury {l : List UnitId} (hp : p.1.Placed) :
    (l.foldl (bury g f) p).2 = (p.2 || l.any fun id => (p.1.unit id).any isMine) := by
  induction l generalizing p with
  | nil => exact (Bool.or_false p.2).symm
  | cons a l ih =>
    have hbury := treats_revise (g := g) hp (fun u => (u.die f, true)) a
    have hrest : ∀ id, ((bury g f p a).1.unit id).any isMine = (p.1.unit id).any isMine := by
      intro id
      have hunit := congrArg Cell.unit (hbury.cell id)
      rw [show (bury g f p a).1.unit id = _ from hunit]
      split
      · rw [unit_revise, Option.any_map]
        rfl
      · rfl
    rw [foldl_cons, ih hbury.placed, any_cons, ← Bool.or_assoc]
    simp only [hrest]
    rfl

lemma raised_read (hs : s.Placed) : (s.read g f).2 = raised g s f := by
  have hsee : (s.seen g f).2 = f.units.any fun v => (s.cell v.id).raises g f v := by
    have hclear : ∀ v, ((f.units.foldl clear s).cell v.id).raises g f v =
        (s.cell v.id).raises g f v := by
      intro v
      rw [(clears_spec hs).2]
      cases f.units.find? fun w => v.id = w.id with
      | none | some => rfl
    rw [seen, raised_see f.nodup (clears_spec hs).1, Bool.false_or]
    simp only [hclear]
  have hmine : ∀ id, ((s.seen g f).1.unit id).any isMine =
      match f.units.find? fun v => id = v.id with
      | some v => v.playerId == g.playerId
      | none => (s.unit id).any isMine := by
    intro id
    have hunit := congrArg Cell.unit ((seen_spec (g := g) (f := f) hs).2 id)
    rw [show (s.seen g f).1.unit id = _ from hunit]
    cases f.units.find? fun v => id = v.id with
    | none => rfl
    | some v =>
      dsimp only [Option.elim]
      rw [unit_see]
      rfl
  have hbury : (s.read g f).2 =
      ((s.seen g f).2 || f.deaths.any fun id => ((s.seen g f).1.unit id).any isMine) :=
    raised_bury (seen_spec hs).1
  rw [hbury, hsee, raised]
  simp only [hmine]

/-! ## the lists -/

def TypesExact (s : UnitsInfo Ty) : Prop :=
  ∀ t, (s.myUnitsOfType t).Nodup ∧ (s.myCompletedUnitsOfType t).Nodup ∧
    (∀ id, id ∈ s.myUnitsOfType t ↔
      id ∈ (s.cont .myUnits).items ∧ ∃ u, s.unit id = some u ∧ u.type = some t) ∧
    ∀ id, id ∈ s.myCompletedUnitsOfType t ↔
      id ∈ (s.cont .myUnits).items ∧ ∃ u, s.unit id = some u ∧ u.type = some t ∧ u.completed = true

lemma foldl_pushOfType (s : UnitsInfo Ty) (l : List UnitId) (m : Ty → List UnitId) (t : Ty) :
    l.foldl (pushOfType s) m t = m t ++ l.filter fun id => (s.unit id).bind type = some t := by
  induction l generalizing m with
  | nil => exact (append_nil _).symm
  | cons a l ih =>
    rw [foldl_cons, ih, pushOfType]
    cases ht : (s.unit a).bind type with
    | none =>
      rw [filter_cons_of_neg]
      rw [ht]
      exact fun h => nomatch of_decide_eq_true h
    | some t' =>
      by_cases h : t' = t
      · subst h
        rw [filter_cons_of_pos (by rw [ht]; exact decide_eq_true rfl)]
        dsimp only
        rw [Function.update_self, append_assoc]
        rfl
      · rw [filter_cons_of_neg]
        · dsimp only
          rw [Function.update_of_ne (Ne.symm h)]
        · rw [ht]
          exact fun he => h (Option.some.inj (of_decide_eq_true he))

variable {s : UnitsInfo Ty} {id : UnitId}

lemma bind_type {t : Ty} :
    (s.unit id).bind type = some t ↔ ∃ u, s.unit id = some u ∧ u.type = some t :=
  Option.bind_eq_some_iff

lemma typesExact_regroup (hs : s.Placed) : s.regroup.TypesExact := by
  have hnodup := (hs .myUnits).nodup
  intro t
  have hall : s.regroup.myUnitsOfType t =
      (s.cont .myUnits).items.filter fun id => (s.unit id).bind type = some t :=
    (foldl_pushOfType s _ _ t).trans (nil_append _)
  have hcomp : s.regroup.myCompletedUnitsOfType t =
      ((s.cont .myUnits).items.filter fun id => (s.unit id).any completed).filter
        fun id => (s.unit id).bind type = some t :=
    (foldl_pushOfType s _ _ t).trans (nil_append _)
  rw [hall, hcomp]
  refine ⟨hnodup.filter _, (hnodup.filter _).filter _, fun id => ?_, fun id => ?_⟩
  · rw [mem_filter, decide_eq_true_iff, bind_type]
    rfl
  · rw [mem_filter, mem_filter, decide_eq_true_iff, bind_type, and_assoc]
    refine and_congr Iff.rfl ?_
    constructor
    · rintro ⟨hc, u, hu, ht⟩
      rw [hu] at hc
      exact ⟨u, hu, ht, hc⟩
    · rintro ⟨u, hu, ht, hc⟩
      have hu' : s.unit id = some u := hu
      rw [hu']
      exact ⟨hc, u, rfl, ht⟩

lemma kind_eq_some {t : Ty} {b : Bool} :
    (s.cell id).kind = some (t, b) ↔ id ∈ (s.cont .myUnits).items ∧
      ∃ u, s.unit id = some u ∧ u.type = some t ∧ u.completed = b := by
  have hhas : (s.cell id).has .myUnits = decide (id ∈ (s.cont .myUnits).items) := rfl
  have hunit : (s.cell id).unit = s.unit id := rfl
  rw [kind, hhas, hunit]
  by_cases hin : id ∈ (s.cont .myUnits).items
  · rw [decide_eq_true hin, if_pos rfl, Option.bind_eq_some_iff]
    simp only [Option.map_eq_some_iff, Prod.mk.injEq, hin, true_and]
    refine exists_congr fun u => and_congr_right fun _ => ?_
    constructor
    · rintro ⟨t', ht, rfl, hb⟩
      exact ⟨ht, hb⟩
    · rintro ⟨ht, hb⟩
      exact ⟨t, ht, rfl, hb⟩
  · rw [decide_eq_false hin, if_neg Bool.false_ne_true]
    exact ⟨nofun, fun h => absurd h.1 hin⟩

lemma mem_of_kind {t : Ty} :
    (id ∈ (s.cont .myUnits).items ∧ ∃ u, s.unit id = some u ∧ u.type = some t) ↔
      ∃ b, (s.cell id).kind = some (t, b) := by
  simp only [kind_eq_some]
  constructor
  · rintro ⟨hin, u, hu, ht⟩
    exact ⟨u.completed, hin, u, hu, ht, rfl⟩
  · rintro ⟨b, hin, u, hu, ht, -⟩
    exact ⟨hin, u, hu, ht⟩

lemma typesExact_of_kind {s s' : UnitsInfo Ty} (hs : s.TypesExact)
    (hall : s'.myUnitsOfType = s.myUnitsOfType)
    (hcomp : s'.myCompletedUnitsOfType = s.myCompletedUnitsOfType)
    (hkind : ∀ id, (s'.cell id).kind = (s.cell id).kind) : s'.TypesExact := by
  intro t
  obtain ⟨h₁, h₂, h₃, h₄⟩ := hs t
  rw [hall, hcomp]
  refine ⟨h₁, h₂, fun id => ?_, fun id => ?_⟩
  · rw [h₃, mem_of_kind, mem_of_kind, hkind]
  · rw [h₄, ← kind_eq_some, ← kind_eq_some, hkind]

/-! ## frames and runs -/

/-- if a unit of `myUnits_` goes out of sight, something else in the frame raises the flag -/
def HidingNoticed (g : Game Ty) (s : UnitsInfo Ty) (f : Frame Ty) : Prop :=
  ∀ id u, s.unit id = some u → id ∈ (s.cont .myUnits).items → (∀ v ∈ f.units, id ≠ v.id) →
    id ∉ f.deaths → u.lastSeen ≠ f.frame → raised g s f = true

lemma kind_read (hs : s.Tracked g) (hnot : raised g s f = false) (id : UnitId) :
    ((s.cell id).read g f id).kind = (s.cell id).kind := by
  have hcell := hs.cells id
  rw [raised, Bool.or_eq_false_iff, any_eq_false, any_eq_false] at hnot
  have hsee : ∀ v ∈ f.units, id = v.id → (s.cell id).raises g f v = false := by
    rintro v hv rfl
    exact Bool.eq_false_iff.mpr (hnot.1 v hv)
  unfold Cell.read
  cases hfind : f.units.find? fun v => id = v.id with
  | none =>
    dsimp only [Option.elim]
    split
    next hd =>
      refine kind_bury hcell ?_
      have := hnot.2 id hd
      rw [hfind] at this
      exact Bool.eq_false_iff.mpr this
    · rfl
  | some v =>
    have hid := find?_some hfind
    have hv := hsee v (mem_of_find?_eq_some hfind) (of_decide_eq_true hid)
    dsimp only [Option.elim]
    split
    next hd =>
      rw [← kind_see hcell hv]
      refine kind_bury (tracked_see hcell v) ?_
      have := hnot.2 id hd
      rw [hfind] at this
      rw [unit_see]
      exact Bool.eq_false_iff.mpr this
    · exact kind_see hcell hv

/-- **A frame that does not raise the flag changes no kind**, if hidden units are noticed. -/
theorem kind_settle (hs : s.Tracked g) (hshown : ∀ id, (s.cell id).Shown)
    (hhiding : HidingNoticed g s f) (hnot : raised g s f = false) (id : UnitId) :
    ((s.settle g f).cell id).kind = (s.cell id).kind := by
  have hcell := hs.cells id
  have hread := tracked_read (f := f) hcell id
  rw [(settle_spec hs.placed).2, kind_forget (tracked_hide hread), kind_hide hread,
    kind_read hs hnot]
  intro _ u hu hd hp hv
  obtain ⟨hdeath, ⟨v, hv', rfl, he⟩ | ⟨habsent, he⟩⟩ := read_cases hu hd
  · rw [he, unit_see] at hu
    cases hu
    refine ⟨?_, fun hseen => absurd rfl hseen⟩
    -- a unit that was gone was hidden, so the flag is raised for it
    by_contra hgone
    rw [raised, Bool.or_eq_false_iff, any_eq_false] at hnot
    refine hnot.1 v hv' ?_
    rw [raises, Bool.and_eq_true, Bool.or_eq_true]
    refine ⟨?_, .inr (beq_iff_eq.mpr hp)⟩
    by_contra hch
    obtain ⟨-, hvis, -⟩ := of_not_changed (Bool.eq_false_iff.mpr hch)
    cases hu₀ : (s.cell v.id).unit with
    | none =>
      rw [hu₀] at hgone
      exact hgone rfl
    | some u₀ =>
      rw [hu₀] at hgone hvis hd
      exact hgone (hshown v.id u₀ hu₀ hd hvis)
  · rw [he] at hu ⊢
    refine ⟨hshown id u hu hd hv, fun hseen => ?_⟩
    rw [Bool.eq_false_iff]
    intro hin
    have hraised := hhiding id u hu (of_decide_eq_true hin) habsent hdeath hseen
    exact Bool.noConfusion (hnot.symm.trans hraised)

lemma settle_ofType (s : UnitsInfo Ty) :
    (s.settle g f).myUnitsOfType = s.myUnitsOfType ∧
      (s.settle g f).myCompletedUnitsOfType = s.myCompletedUnitsOfType := by
  have hseen : (s.seen g f).1.myUnitsOfType = s.myUnitsOfType ∧
      (s.seen g f).1.myCompletedUnitsOfType = s.myCompletedUnitsOfType := by
    refine foldlRecOn (motive := fun p : UnitsInfo Ty × Bool =>
      p.1.myUnitsOfType = s.myUnitsOfType ∧ p.1.myCompletedUnitsOfType = s.myCompletedUnitsOfType)
      _ _ ?_ fun p h v _ => ?_
    · exact foldlRecOn (motive := fun s' : UnitsInfo Ty =>
        s'.myUnitsOfType = s.myUnitsOfType ∧ s'.myCompletedUnitsOfType = s.myCompletedUnitsOfType)
        _ _ ⟨rfl, rfl⟩ fun _ h _ _ => h
    · have htouch : Beside p.1 (p.1.touch v.id) := ⟨rfl, rfl, rfl⟩
      have hb : Beside p.1 ((p.1.touch v.id).revise g
          (fun u => (u.refresh g f v, u.changed (u.refresh g f v))) v.id) :=
        htouch.trans (beside_revise _ _ v.id)
      unfold see attack
      dsimp only
      split <;> exact ⟨hb.ofType.trans h.1, hb.completed.trans h.2⟩
  have hb := beside_gathered (g := g) (f := f) s
  rw [settle, sight_eq]
  exact ⟨hb.ofType.trans hseen.1, hb.completed.trans hseen.2⟩

lemma typesExact_update (hs : s.Tracked g) (hshown : ∀ id, (s.cell id).Shown)
    (hhiding : HidingNoticed g s f) (h : s.TypesExact) : (s.update g f).TypesExact := by
  have hsettle := (settle_spec (g := g) (f := f) hs.placed).1
  rw [update_eq, raised_read hs.placed]
  cases hr : raised g s f with
  | true =>
    rw [if_pos rfl]
    have hb := beside_infer (g := g) (f := f) (s.settle g f).regroup
    refine typesExact_of_kind (typesExact_regroup hsettle) hb.ofType hb.completed fun id => ?_
    rw [(infer_spec (s := (s.settle g f).regroup) hsettle).2, kind_infer]
  | false =>
    rw [if_neg Bool.false_ne_true]
    have hb := beside_infer (g := g) (f := f) (s.settle g f)
    obtain ⟨h₁, h₂⟩ := settle_ofType (g := g) (f := f) s
    refine typesExact_of_kind h (hb.ofType.trans h₁) (hb.completed.trans h₂) fun id => ?_
    rw [(infer_spec hsettle).2, kind_infer, kind_settle hs hshown hhiding hr]

/-- **The lists by type are right**, as long as hiding units are noticed. -/
theorem types_exact (g : Game Ty) (fs : List (Frame Ty))
    (h : (frames g (HidingNoticed g)).Legal {} fs) :
    ((frames g (HidingNoticed g)).out {} fs).TypesExact := by
  have hinit : TypesExact ({} : UnitsInfo Ty) := by
    refine fun t => ⟨nodup_nil, nodup_nil, fun id => ?_, fun id => ?_⟩
    · exact ⟨nofun, fun h => nomatch h.1⟩
    · exact ⟨nofun, fun h => nomatch h.1⟩
  have hshown : ∀ id, (cell ({} : UnitsInfo Ty) id).Shown := fun id u hu => nomatch hu
  refine (Sys.invariant (frames g (HidingNoticed g))
    (fun s : UnitsInfo Ty => s.Tracked g ∧ (∀ id, (s.cell id).Shown) ∧ s.TypesExact)
    (fun s f hs hok => ⟨tracked_update hs.1 f, fun id => ?_, ?_⟩) {}
    ⟨tracked_init, hshown, hinit⟩ fs h).2.2
  · show ((s.update g f).cell id).Shown
    rw [(update_spec hs.1.placed).2]
    exact shown_update (hs.1.cells id) id
  · exact typesExact_update hs.1 hs.2.1 hok hs.2.2

/-- our building is not in the data, but a new unit of ours -/
def relieved : Frame Bool where
  frame := 2
  units := [⟨3, 8, 8, 0, false, fun b => b == .completed || b == .powered, []⟩]

theorem types_exact_site :
    ((frames skirmish (HidingNoticed skirmish)).out {} [site 1 true, relieved]).TypesExact := by
  refine types_exact skirmish [site 1 true, relieved]
    ⟨fun id u hu => (nomatch hu), fun _ _ _ _ _ _ _ => ?_, trivial⟩
  decide

def vanished : Frame Bool where
  frame := 2
  units := []
  nodup := List.nodup_nil

/-- **The lists by type are not right in general**: our building leaves `myUnits_`, but not the list
of its type. -/
theorem types_not_exact :
    ¬ ((frames skirmish fun _ _ => True).out {} [site 1 true, vanished]).TypesExact := by
  intro h
  have hout : (1 : UnitId) ∉
      (((frames skirmish fun _ _ => True).out {} [site 1 true, vanished]).cont .myUnits).items := by
    decide
  exact hout (((h true).2.2.1 1).mp (by decide)).1

end UnitsInfo

end TorchCraft.Units
