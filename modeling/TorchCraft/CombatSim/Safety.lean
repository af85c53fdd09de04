import Mathlib.Algebra.Order.BigOperators.Group.List
import TorchCraft.Lib.Assoc
import TorchCraft.Lib.Effects
import TorchCraft.CombatSim.Model

/-!
# A simulated fight only takes hit points away

* `SimUnit.Sound`, `Sim.Sound`  hit points, shields, damages and ranges are not negative;
* `Turned`  what a turn can do.

The division in a move is safe because a unit that moves is out of range: its distance in walktiles
is more than 4 in one direction, and `disthelper` of such a distance is positive.
-/

namespace TorchCraft.CombatSim
open Lib Utils List SimUnit

/-! ## units -/

structure SimUnit.Sound (u : SimUnit) : Prop where
  hp : 0 ≤ u.hp
  shields : 0 ≤ u.shields
  groundDamage : 0 ≤ u.groundDamage
  airDamage : 0 ≤ u.airDamage
  groundRange : 0 ≤ u.groundRange
  airRange : 0 ≤ u.airRange

/-- what a turn may do to a unit: it loses hit points and shields, and keeps its weapons -/
structure Fades (u u' : SimUnit) : Prop where
  hp : 0 ≤ u'.hp ∧ u'.hp ≤ u.hp
  shields : 0 ≤ u'.shields ∧ u'.shields ≤ u.shields
  groundDamage : u'.groundDamage = u.groundDamage
  airDamage : u'.airDamage = u.airDamage
  groundRange : u'.groundRange = u.groundRange
  airRange : u'.airRange = u.airRange

section units
variable {u u' u'' e : SimUnit}

lemma Fades.refl (h : u.Sound) : Fades u u :=
  ⟨⟨h.hp, le_refl _⟩, ⟨h.shields, le_refl _⟩, rfl, rfl, rfl, rfl⟩

lemma Fades.trans (h : Fades u u') (h' : Fades u' u'') : Fades u u'' where
  hp := ⟨h'.hp.1, h'.hp.2.trans h.hp.2⟩
  shields := ⟨h'.shields.1, h'.shields.2.trans h.shields.2⟩
  groundDamage := h'.groundDamage.trans h.groundDamage
  airDamage := h'.airDamage.trans h.airDamage
  groundRange := h'.groundRange.trans h.groundRange
  airRange := h'.airRange.trans h.airRange

lemma Fades.sound (h : Fades u u') (hu : u.Sound) : u'.Sound where
  hp := h.hp.1
  shields := h.shields.1
  groundDamage := h.groundDamage ▸ hu.groundDamage
  airDamage := h.airDamage ▸ hu.airDamage
  groundRange := h.groundRange ▸ hu.groundRange
  airRange := h.airRange ▸ hu.airRange

namespace SimUnit

lemma Sound.damageTo_nonneg (h : u.Sound) (e : SimUnit) : 0 ≤ u.damageTo e := by
  rw [damageTo]
  split
  · exact h.airDamage
  · exact h.groundDamage

lemma selectTarget_spec {enemies : List SimUnit} {p : Nat × SimUnit}
    (h : u.selectTarget enemies = some p) :
    enemies[p.1]? = some p.2 ∧ 0 < p.2.hp ∧ u.damageTo p.2 ≠ 0 := by
  obtain ⟨hmem, hv⟩ := getBestScorePointer_spec h
  have hsome : u.targetScore p.2 ≠ none := by
    intro hnone
    rw [hnone] at hv
    exact absurd hv (by decide)
  refine ⟨hmem, ?_, fun hzero => hsome ?_⟩
  · by_contra hdead
    apply hsome
    rw [targetScore, if_neg hdead]
    rfl
  · rw [targetScore, hzero, ite_self]
    rfl

/-! ## an attack -/

lemma absorb_spec {damage : ℚ} (he : e.Sound) (hd : 0 ≤ damage) :
    Fades e (e.absorb damage).1 ∧ (e.absorb damage).1.hp = e.hp ∧ 0 ≤ (e.absorb damage).2 := by
  have hs := he.shields
  rw [absorb]
  split
  · split
    next hneg =>
      exact ⟨⟨⟨he.hp, le_refl _⟩, ⟨le_refl _, hs⟩, rfl, rfl, rfl, rfl⟩, rfl, by linarith⟩
    next hpos =>
      exact ⟨⟨⟨he.hp, le_refl _⟩, ⟨not_lt.mp hpos, by linarith⟩, rfl, rfl, rfl, rfl⟩, rfl, le_refl _⟩
  · exact ⟨Fades.refl he, rfl, hd⟩

lemma wound_nonneg (u e : SimUnit) (damage : ℚ) : 0 ≤ u.wound e damage := by
  unfold wound
  dsimp only
  split
  · exact le_refl _
  · split
    · norm_num
    next h => exact le_trans (by norm_num) (not_lt.mp h)

lemma hit_fades (hu : u.Sound) (he : e.Sound) : Fades e (u.hit e) := by
  have hd : (0 : ℚ) ≤ u.damageTo e := by exact_mod_cast hu.damageTo_nonneg e
  obtain ⟨hf, hhp, hrest⟩ := absorb_spec he hd
  unfold hit
  dsimp only
  split
  · have hw := u.wound_nonneg (e.absorb (u.damageTo e)).1 (e.absorb (u.damageTo e)).2
    refine ⟨?_, hf.shields, hf.groundDamage, hf.airDamage, hf.groundRange, hf.airRange⟩
    have hle := hf.hp.2
    split
    · exact ⟨le_refl _, he.hp⟩
    next hpos => exact ⟨not_lt.mp hpos, by linarith⟩
  · exact hf

lemma hit_pos (u e : SimUnit) : (u.hit e).x = e.x ∧ (u.hit e).y = e.y := by
  have habsorb : ∀ damage, (e.absorb damage).1.x = e.x ∧ (e.absorb damage).1.y = e.y := by
    intro damage
    rw [absorb]
    split
    · split <;> exact ⟨rfl, rfl⟩
    · exact ⟨rfl, rfl⟩
  unfold hit
  dsimp only
  split <;> exact habsorb _

lemma fire_fades (frame : Int) (hu : u.Sound) (e : SimUnit) : Fades u (u.fire frame e) := by
  refine ⟨?_, ⟨hu.shields, le_refl _⟩, rfl, rfl, rfl, rfl⟩
  show 0 ≤ (if _ then (0 : ℚ) else u.hp) ∧ (if _ then (0 : ℚ) else u.hp) ≤ u.hp
  split
  · exact ⟨le_refl _, hu.hp⟩
  · exact ⟨hu.hp, le_refl _⟩

/-! ## a move -/

/-- **A unit out of range can divide by its distance.** -/
theorem pxdistance_ne_zero (hr : u.inRange e = false) :
    (pxdistance 0 0 ((e.x - u.x) / 256) ((e.y - u.y) / 256) : Int) ≠ 0 := by
  rw [inRange, decide_eq_false_iff_not] at hr
  have hne : (0 - (e.x - u.x) / 256).natAbs ≠ 0 ∨ (0 - (e.y - u.y) / 256).natAbs ≠ 0 := by
    by_contra hzero
    obtain ⟨hx, hy⟩ := not_or.mp hzero
    have hx : (e.x - u.x) / 256 = 0 := by omega
    have hy : (e.y - u.y) / 256 = 0 := by omega
    apply hr
    rw [hx, hy]
    exact mul_self_nonneg (4 + u.rangeTo e)
  exact_mod_cast Nat.ne_of_gt (disthelper_pos hne)

lemma approach_spec (hr : u.inRange e = false) :
    ∃ x y, u.approach e = .ok { u with x := x, y := y } :=
  ⟨_, _, if_neg (pxdistance_ne_zero hr)⟩

end SimUnit
end units

/-! ## the simulation -/

def Sim.Sound (s : Sim) : Prop := ∀ side, ∀ u ∈ (s.team side).units, u.Sound

structure SimFades (s s' : Sim) : Prop where
  units : ∀ side, List.Forall₂ Fades (s.team side).units (s'.team side).units
  startHp : ∀ side, (s'.team side).startHp = (s.team side).startHp

variable {u e : SimUnit} {s s' : Sim} {side : Side} {frame : Int} {j k : Nat}

lemma arm_sound (h : u.Sound) : (arm u).Sound := by
  have h6 : (0 : Int) ≤ 6 := by decide
  have hrange : ∀ n : Nat, (0 : Int) ≤ 4 * n := fun n => by omega
  rw [arm]
  split
  · exact ⟨h.hp, h.shields, h6, h6, hrange 6, hrange 6⟩
  · exact ⟨h.hp, h.shields, h6, h6, hrange 4, hrange 4⟩
  · exact ⟨h.hp, h.shields, (by decide : (0 : Int) ≤ 100), h.airDamage, hrange 8, h.airRange⟩
  · exact h

lemma setTeam_sound (hs : s.Sound) {t : Team} (ht : ∀ u ∈ t.units, u.Sound)
    (side : Side) : (s.setTeam t side).Sound := by
  intro side' u hu
  cases side <;> cases side'
  · exact ht u hu
  · exact hs .enemy u hu
  · exact hs .mine u hu
  · exact ht u hu

/-- nothing that the game reports of a unit is negative -/
def Unit.Sound (u : Unit) : Prop :=
  (0 ≤ u.health ∧ 0 ≤ u.shield ∧ 0 ≤ u.type.maxHp ∧ 0 ≤ u.type.maxShields) ∧
    0 ≤ u.groundATK ∧ 0 ≤ u.airATK ∧ 0 ≤ u.groundRange ∧ 0 ≤ u.airRange

lemma addUnit_sound (hs : s.Sound) {u : Unit} (hu : u.Sound) : (addUnit s u).2.Sound := by
  obtain ⟨⟨hhealth, hshield, hmax, hmaxs⟩, hground, hair, hgroundRange, hairRange⟩ := hu
  have hunit : (simUnit s.speedMult u).Sound := by
    refine arm_sound ⟨?_, ?_, hground, hair, hgroundRange, hairRange⟩
    · dsimp only
      split <;> exact_mod_cast ‹_›
    · dsimp only
      split <;> exact_mod_cast ‹_›
  rw [addUnit]
  split
  · exact hs
  · split
    · exact hs
    · exact setTeam_sound hs (forall_mem_append.mpr ⟨hs _, forall_mem_singleton.mpr hunit⟩) _

lemma team_setUnit_self (s : Sim) (side : Side) (k : Nat) (u : SimUnit) :
    ((s.setUnit side k u).team side).units = (s.team side).units.set k u := by
  cases side <;> rfl

lemma team_setUnit_other (s : Sim) {side side' : Side} (h : side' ≠ side) (k : Nat)
    (u : SimUnit) : (s.setUnit side k u).team side' = s.team side' := by
  cases side <;> cases side' <;> first | rfl | exact absurd rfl h

lemma unit?_setUnit_self {k : Nat} {u u' : SimUnit}
    (h : s.unit? side k = some u) : (s.setUnit side k u').unit? side k = some u' := by
  rw [Sim.unit?, team_setUnit_self]
  exact getElem?_set_self (List.getElem?_eq_some_iff.mp h).1

lemma unit?_setUnit_ne {side side' : Side} {k k' : Nat}
    (h : (side', k') ≠ (side, k)) : (s.setUnit side k u).unit? side' k' = s.unit? side' k' := by
  by_cases hside : side' = side
  · subst hside
    have hk : k ≠ k' := fun he => h (by rw [he])
    rw [Sim.unit?, team_setUnit_self, getElem?_set_ne hk]
    rfl
  · rw [Sim.unit?, team_setUnit_other s hside]
    rfl

lemma SimFades.refl (h : s.Sound) : SimFades s s where
  units := fun side => List.forall₂_same.mpr fun u hu => Fades.refl (h side u hu)
  startHp := fun _ => rfl

lemma SimFades.trans {s s' s'' : Sim} (h : SimFades s s') (h' : SimFades s' s'') :
    SimFades s s'' where
  units := fun side =>
    Assoc.forall₂_trans (Q := Fades) (fun _ _ _ h h' => h.trans h') (h.units side) (h'.units side)
  startHp := fun side => (h'.startHp side).trans (h.startHp side)

lemma SimFades.sound (h : SimFades s s') (hs : s.Sound) : s'.Sound := by
  intro side u' hu'
  obtain ⟨u, hu, hf⟩ := Assoc.exists_mem_left (h.units side) hu'
  exact hf.sound (hs side u hu)

lemma SimFades.unit (h : SimFades s s') {k : Nat}
    (hu : s.unit? side k = some u) : ∃ u', s'.unit? side k = some u' ∧ Fades u u' := by
  obtain ⟨hlen, hall⟩ := Assoc.forall₂_iff_getElem?.mp (h.units side)
  have hk : k < (s'.team side).units.length := hlen ▸ (List.getElem?_eq_some_iff.mp hu).1
  exact ⟨_, getElem?_eq_getElem hk, hall k u _ hu (getElem?_eq_getElem hk)⟩

lemma simFades_setUnit (hs : s.Sound) {k : Nat} {u u' : SimUnit}
    (hu : s.unit? side k = some u) (h : Fades u u') : SimFades s (s.setUnit side k u') := by
  refine ⟨fun side' => ?_, fun side' => ?_⟩
  · by_cases hside : side' = side
    · subst hside
      rw [team_setUnit_self]
      exact Assoc.forall₂_set (fun v hv => Fades.refl (hs side' v hv)) hu h
    · rw [team_setUnit_other s hside]
      exact (SimFades.refl hs).units side'
  · cases side <;> cases side' <;> rfl

lemma SimFades.hp_le (h : SimFades s s') (side : Side) :
    (s'.team side).hp ≤ (s.team side).hp := by
  refine Forall₂.sum_le_sum ?_
  rw [forall₂_map_left_iff, forall₂_map_right_iff]
  exact (h.units side).flip.imp fun u' u hf => add_le_add hf.hp.2 hf.shields.2

lemma Sim.Sound.hp_nonneg (h : s.Sound) (side : Side) : 0 ≤ (s.team side).hp := by
  refine sum_nonneg fun q hq => ?_
  obtain ⟨u, hu, rfl⟩ := mem_map.mp hq
  exact add_nonneg (h side u hu).hp (h side u hu).shields

/-! ## turns -/

/-- the unit attacks `e` in this frame -/
def SimUnit.Attacks (frame : Int) (u : SimUnit) (enemies : List SimUnit) (k : Nat) (e : SimUnit) :
    Prop :=
  u.selectTarget enemies = some (k, e) ∧ u.inRange e = true ∧ u.cooldownUntil ≤ frame

/-- what the turn of the unit at `j` can do: nothing, a new place and target, or an attack -/
inductive Turned (frame : Int) (side : Side) (j : Nat) (s : Sim) : Sim → Prop
  | idle (h : ∀ u, s.unit? side j = some u → u.hp ≤ 0) : Turned frame side j s s
  | move {u : SimUnit} {x y : Int} {t : Option Nat} {b : Bool} (hu : s.unit? side j = some u)
      (hpos : 0 < u.hp) (ht : ∀ k, t = some k → ∃ e, s.unit? side.other k = some e ∧ 0 < e.hp)
      (hno : ∀ k e, ¬u.Attacks frame (s.team side.other).units k e) :
      Turned frame side j s
        (s.setUnit side j { u with x := x, y := y, target := t, targetInRange := b })
  | attack {u : SimUnit} {k : Nat} {e : SimUnit} {b : Bool} (hu : s.unit? side j = some u)
      (hpos : 0 < u.hp) (he : s.unit? side.other k = some e) (hpos' : 0 < e.hp)
      (ha : u.Attacks frame (s.team side.other).units k e) :
      Turned frame side j s ((s.setUnit side.other k
        (hit { u with target := some k, targetInRange := b } e)).setUnit side j
          (fire frame { u with target := some k, targetInRange := b } e))

lemma engage_cases (frame : Int) {j k : Nat} {u e : SimUnit}
    (hu : s.unit? side j = some u) (hpos : 0 < u.hp)
    (hsel : u.selectTarget (s.team side.other).units = some (k, e)) :
    ∃ s', engage frame side j u k e s = .ok s' ∧ Turned frame side j s s' := by
  obtain ⟨he, hpos', -⟩ := selectTarget_spec hsel
  have haim : ∀ k', some k = some k' → ∃ e, s.unit? side.other k' = some e ∧ 0 < e.hp := by
    intro k' hk
    cases hk
    exact ⟨e, he, hpos'⟩
  rw [engage]
  split
  next hr =>
    split
    next hcool => exact ⟨_, rfl, .attack hu hpos he hpos' ⟨hsel, hr, hcool⟩⟩
    next hcool => exact ⟨_, rfl, .move hu hpos haim fun _ _ ha => hcool ha.2.2⟩
  next hr =>
    obtain ⟨x, y, hxy⟩ := approach_spec (e := e)
      (u := { u with target := some k, targetInRange := u.inRange e }) (Bool.not_eq_true _ ▸ hr)
    refine ⟨_, ?_, .move (x := x) (y := y) (b := u.inRange e) hu hpos haim fun k' e' ha => hr ?_⟩
    · rw [hxy]
      rfl
    · cases hsel.symm.trans ha.1
      exact ha.2.1

lemma turn_cases (frame : Int) (side : Side) (j : Nat) (s : Sim) :
    ∃ r, turn frame side j s = .ok r ∧ Turned frame side j s r.1 := by
  unfold turn
  cases hu : s.unit? side j with
  | none =>
    have hidle : ∀ u, s.unit? side j = some u → u.hp ≤ 0 := fun u h => nomatch hu.symm.trans h
    exact ⟨(s, false), rfl, .idle hidle⟩
  | some u =>
    dsimp only
    by_cases hdead : u.hp ≤ 0
    · rw [if_pos hdead]
      refine ⟨(s, false), rfl, .idle fun v hv => ?_⟩
      cases hu.symm.trans hv
      exact hdead
    · rw [if_neg hdead]
      have hpos := not_le.mp hdead
      cases hsel : u.selectTarget (s.team side.other).units with
      | none => exact ⟨_, rfl, .move hu hpos nofun fun _ _ ha => nomatch hsel.symm.trans ha.1⟩
      | some p =>
        obtain ⟨s', hs', hturned⟩ := engage_cases frame hu hpos hsel
        exact ⟨(s', true), by dsimp only; rw [hs']; rfl, hturned⟩

/-- what a turn may do -/
structure Turn.Safe (t : Turn) : Prop where
  /-- no unit's hit points or shields increase or become negative -/
  fades : ∀ side k u, t.before.unit? side k = some u → ∃ u', t.after.unit? side k = some u' ∧
    0 ≤ u'.hp ∧ u'.hp ≤ u.hp ∧ 0 ≤ u'.shields ∧ u'.shields ≤ u.shields
  /-- nobody but the unit whose turn it is moves -/
  stays : ∀ side k u u', (side, k) ≠ (t.side, t.place) → t.before.unit? side k = some u →
    t.after.unit? side k = some u' → u'.x = u.x ∧ u'.y = u.y
  /-- a unit without hit points does nothing -/
  dead : ∀ u, t.before.unit? t.side t.place = some u → u.hp = 0 → t.after = t.before
  /-- a living unit does not select a target without hit points -/
  target : ∀ u u' k, t.before.unit? t.side t.place = some u → u.hp ≠ 0 →
    t.after.unit? t.side t.place = some u' → u'.target = some k →
    ∃ e, t.before.unit? t.side.other k = some e ∧ 0 < e.hp

lemma Side.other_ne (side : Side) : side.other ≠ side := by cases side <;> decide

section
variable (hs : s.Sound) (hu : s.unit? side j = some u) (halive : u.hp ≠ 0)
include hs hu halive

/-- the turn changes others, which gives `s₁`, and then the unit itself -/
lemma safe_set {s₁ : Sim} (hf₁ : SimFades s s₁) (hu₁ : s₁.unit? side j = some u)
    (hstay : ∀ side k v v', s.unit? side k = some v → s₁.unit? side k = some v' →
      v'.x = v.x ∧ v'.y = v.y) {u' : SimUnit} (hf : Fades u u')
    (ht : ∀ k, u'.target = some k → ∃ e, s.unit? side.other k = some e ∧ 0 < e.hp) :
    SimFades s (s₁.setUnit side j u') ∧ Turn.Safe ⟨frame, side, j, s, s₁.setUnit side j u'⟩ := by
  have hfades := hf₁.trans (simFades_setUnit (hf₁.sound hs) hu₁ hf)
  refine ⟨hfades, ⟨fun side' k v hv => ?_, fun side' k v v' hne hv hv' => ?_, fun v hv h0 => ?_,
    fun v v' k hv _ hv' hk => ?_⟩⟩
  · obtain ⟨v', hv', hvf⟩ := hfades.unit hv
    exact ⟨v', hv', hvf.hp.1, hvf.hp.2, hvf.shields.1, hvf.shields.2⟩
  · exact hstay side' k v v' hv ((unit?_setUnit_ne hne).symm.trans hv')
  · cases hu.symm.trans hv
    exact absurd h0 halive
  · cases (unit?_setUnit_self hu₁).symm.trans hv'
    exact ht k hk

lemma safe_attack
    (he : s.unit? side.other k = some e) (hpos : 0 < e.hp) {u' e' : SimUnit} (hf : Fades u u')
    (hf' : Fades e e') (hpos' : e'.x = e.x ∧ e'.y = e.y) (ht : u'.target = some k) :
    SimFades s ((s.setUnit side.other k e').setUnit side j u') ∧
      Turn.Safe ⟨frame, side, j, s, (s.setUnit side.other k e').setUnit side j u'⟩ := by
  have hne : (side, j) ≠ (side.other, k) := fun h => side.other_ne (congrArg Prod.fst h).symm
  refine safe_set hs hu halive (simFades_setUnit hs he hf') ((unit?_setUnit_ne hne).trans hu)
    (fun side' k' v v' hv hv' => ?_) hf fun k' hk => ?_
  · by_cases hk : (side', k') = (side.other, k)
    · cases hk
      cases he.symm.trans hv
      cases (unit?_setUnit_self he).symm.trans hv'
      exact hpos'
    · cases hv.symm.trans ((unit?_setUnit_ne hk).symm.trans hv')
      exact ⟨rfl, rfl⟩
  · cases ht.symm.trans hk
    exact ⟨e, he, hpos⟩

end

lemma safe_idle (hs : s.Sound) (hu : ∀ u, s.unit? side j = some u → u.hp = 0) :
    Turn.Safe ⟨frame, side, j, s, s⟩ := by
  refine ⟨fun side' k v hv => ?_, fun side' k v v' _ hv hv' => ?_, fun _ _ _ => rfl,
    fun v _ _ hv halive _ _ => absurd (hu v hv) halive⟩
  · have hf := Fades.refl (hs side' v (mem_of_getElem? hv))
    exact ⟨v, hv, hf.hp.1, hf.hp.2, hf.shields.1, hf.shields.2⟩
  · cases hv.symm.trans hv'
    exact ⟨rfl, rfl⟩

lemma turn_spec (frame : Int) (side : Side) (j : Nat) (hs : s.Sound) :
    ∃ r, turn frame side j s = .ok r ∧ SimFades s r.1 ∧ Turn.Safe ⟨frame, side, j, s, r.1⟩ := by
  obtain ⟨⟨s', b⟩, hr, hcases⟩ := turn_cases frame side j s
  refine ⟨(s', b), hr, ?_⟩
  -- the unit with a new place and target is as sound as before
  have hkeep {u : SimUnit} (hu : s.unit? side j = some u) (x y : Int) (t : Option Nat) (b : Bool) :
      Fades u { u with x := x, y := y, target := t, targetInRange := b } := by
    have hsu := hs side u (mem_of_getElem? hu)
    exact ⟨⟨hsu.hp, le_refl _⟩, ⟨hsu.shields, le_refl _⟩, rfl, rfl, rfl, rfl⟩
  cases hcases with
  | idle h =>
    refine ⟨SimFades.refl hs, safe_idle hs fun u hu => ?_⟩
    exact le_antisymm (h u hu) (hs side u (mem_of_getElem? hu)).hp
  | @move u x y t b hu hpos ht _ =>
    refine safe_set hs hu hpos.ne' (SimFades.refl hs) hu (fun _ _ v v' hv hv' => ?_)
      (hkeep hu x y t b) ht
    cases hv.symm.trans hv'
    exact ⟨rfl, rfl⟩
  | @attack u k e b hu hpos he hpos' _ =>
    have hset := (hkeep hu u.x u.y (some k) b).sound (hs side u (mem_of_getElem? hu))
    exact safe_attack hs hu hpos.ne' he hpos'
      ((hkeep hu u.x u.y (some k) b).trans (fire_fades frame hset e))
      (hit_fades hset (hs side.other e (mem_of_getElem? he))) (hit_pos _ e) rfl

/-! ## the run -/

/-- the turns of a log lead from one simulation to another, one after the other -/
def Linked : Sim → List Turn → Sim → Prop
  | s, [], s' => s' = s
  | s, t :: log, s' => t.before = s ∧ Linked t.after log s'

lemma Linked.snoc {s s' : Sim} {log : List Turn} (h : Linked s log s') (frame : Int) (side : Side)
    (j : Nat) (s'' : Sim) : Linked s (log ++ [⟨frame, side, j, s', s''⟩]) s'' := by
  induction log generalizing s with
  | nil => exact ⟨h, rfl⟩
  | cons t log ih => exact ⟨h.1, ih h.2⟩

/-- a simulation on its way, with the log of the turns so far -/
structure Underway (s₀ : Sim) (s : Sim) (log : List Turn) : Prop where
  linked : Linked s₀ log s
  safe : ∀ t ∈ log, t.Safe
  fades : SimFades s₀ s

section run
variable {s₀ s : Sim} {log : List Turn}

lemma takeTurn_spec (hs₀ : s₀.Sound) (frame : Int) {r : Round} (h : Underway s₀ r.sim r.log)
    (p : Side × Nat) : ∃ r', takeTurn frame r p = .ok r' ∧ Underway s₀ r'.sim r'.log := by
  obtain ⟨q, hq, hfades, hsafe⟩ := turn_spec frame p.1 p.2 (h.fades.sound hs₀)
  refine ⟨⟨q.1, r.busy || q.2, r.log ++ [⟨frame, p.1, p.2, r.sim, q.1⟩]⟩, ?_,
    h.linked.snoc frame p.1 p.2 q.1,
    forall_mem_append.mpr ⟨h.safe, forall_mem_singleton.mpr hsafe⟩, h.fades.trans hfades⟩
  rw [takeTurn, hq]
  rfl

section invariant
variable {I : Sim → List Turn → Prop} (hI : ∀ frame (r : Round) p, I r.sim r.log →
  ∃ r', takeTurn frame r p = .ok r' ∧ I r'.sim r'.log)
include hI

lemma pass_spec (frame : Int) (h : I s log) : ∃ r, pass frame s log = .ok r ∧ I r.sim r.log := by
  rw [pass]
  refine Effects.foldlM_ok (fun _ (r : Round) => I r.sim r.log) (fun _ => True) ?_ h
    fun _ _ => trivial
  intro p _ r hr _
  exact hI frame r p hr

lemma loop_spec (frames : Int) (n : Nat) (frame : Int) (hn : frames - frame ≤ n) (h : I s log) :
    ∃ r, Returns (fun m => loop frames m frame s log) r ∧ I r.1 r.2 := by
  induction n generalizing frame s log with
  | zero =>
    have hge : ¬ frame < frames := by omega
    exact ⟨(s, log), returns_of_succ fun m => if_neg hge, h⟩
  | succ n ih =>
    by_cases hlt : frame < frames
    · obtain ⟨r, hr, hu⟩ := pass_spec hI frame h
      have hround : ∀ m, loop frames (m + 1) frame s log =
          if r.busy then loop frames m (frame + resolution) r.sim r.log
          else .ret (r.sim, r.log) := by
        intro m
        rw [loop, if_pos hlt, hr]
      cases hb : r.busy with
      | true =>
        have hn' : frames - (frame + resolution) ≤ n := by
          rw [resolution]
          omega
        obtain ⟨q, hq, hu'⟩ := ih _ hn' hu
        refine ⟨q, hq.round fun m => ?_, hu'⟩
        rw [hround, hb]
        rfl
      | false =>
        refine ⟨(r.sim, r.log), returns_of_succ fun m => ?_, hu⟩
        rw [hround, hb]
        rfl
    · exact ⟨(s, log), returns_of_succ fun m => if_neg hlt, h⟩

lemma run_spec (h : I s.start []) (frames : Int) :
    ∃ r : Sim × List Turn, Returns (run frames s) (r.1.finish, r.2) ∧ I r.1 r.2 := by
  obtain ⟨r, hr, hinv⟩ := loop_spec hI frames (frames - 0).toNat 0 (Int.self_le_toNat _) h
  exact ⟨r, hr.bind (returns_const.mpr rfl), hinv⟩

end invariant

lemma start_sound (h : s.Sound) : s.start.Sound := by
  intro side
  cases side
  · exact h .mine
  · exact h .enemy

/-- **A fight ends, and on its way nobody gains hit points, nobody without hit points acts or is
selected as a target, and no division fails.** -/
theorem run_safe (h : s.Sound) (frames : Int) :
    ∃ s' log, Returns (run frames s) (s', log) ∧
      (∃ s'', Linked s.start log s'' ∧ s' = s''.finish) ∧ (∀ t ∈ log, t.Safe) ∧
      ∀ side, (s'.team side).startHp = (s.team side).hp ∧
        0 ≤ (s'.team side).endHp ∧ (s'.team side).endHp ≤ (s'.team side).startHp := by
  have hstart := start_sound h
  have hfirst : Underway s.start s.start [] :=
    ⟨rfl, fun t ht => absurd ht not_mem_nil, SimFades.refl hstart⟩
  obtain ⟨r, hr, hu⟩ := run_spec (fun frame r p h => takeTurn_spec hstart frame h p) hfirst frames
  refine ⟨r.1.finish, r.2, hr, ⟨r.1, hu.linked, rfl⟩, hu.safe, fun side => ?_⟩
  have hnonneg := (hu.fades.sound hstart).hp_nonneg side
  have hle := hu.fades.hp_le side
  have hsame := hu.fades.startHp side
  cases side <;> exact ⟨hsame, hnonneg, le_of_le_of_eq hle hsame.symm⟩

lemma run_fades (h : s.Sound) (frames : Int) :
    ∃ s' log, Returns (run frames s) (s', log) ∧
      ∀ side, List.Forall₂ Fades (s.team side).units (s'.team side).units := by
  have hstart := start_sound h
  have hfirst : Underway s.start s.start [] :=
    ⟨rfl, fun t ht => absurd ht not_mem_nil, SimFades.refl hstart⟩
  obtain ⟨r, hr, hu⟩ := run_spec (fun frame r p h => takeTurn_spec hstart frame h p) hfirst frames
  refine ⟨r.1.finish, r.2, hr, fun side => ?_⟩
  have hunits := hu.fades.units side
  cases side <;> exact hunits

def addUnits (speedMult : ℚ) (us : List Unit) : Sim :=
  us.foldl (fun s u => (addUnit s u).2) { speedMult }

/-- **A fight of units of the game** ends with all of them, in the order in which they were added:
they have their damages and ranges, and not more hit points and shields than before. -/
theorem fight_keeps_units (speedMult : ℚ) (us : List Unit) (hus : ∀ u ∈ us, u.Sound) (frames : Int) :
    ∃ s' log, Returns (run frames (addUnits speedMult us)) (s', log) ∧ ∀ side,
      List.Forall₂ Fades ((addUnits speedMult us).team side).units (s'.team side).units := by
  have hempty : Sim.Sound { speedMult } := fun side u hu => by cases side <;> cases hu
  exact run_fades (foldlRecOn us _ hempty fun s hs u hu => addUnit_sound hs (hus u hu)) frames

def marines : List Unit :=
  [{ type := {}, isMine := true, health := 40, groundATK := 6, groundRange := 16 },
    { type := {}, isEnemy := true, health := 40, groundATK := 6, groundRange := 16 }]

theorem fight_keeps_units_marines :
    ∃ s' log, Returns (run 40 (addUnits 1 marines)) (s', log) ∧ ∀ side,
      List.Forall₂ Fades ((addUnits 1 marines).team side).units (s'.team side).units :=
  fight_keeps_units 1 marines (by simp [marines, Unit.Sound]) 40

end run

def scourge : SimUnit where
  hp := 25
  airDamage := 110
  airRange := 1
  flying := true
  maxSpeed := 1700
  type := { kind := .Zerg_Scourge, hasAirWeapon := true }

def scout : SimUnit where
  x := 8000
  hp := 150
  shields := 100
  groundDamage := 8
  airDamage := 28
  groundRange := 16
  airRange := 16
  flying := true
  type := { airWeaponCooldown := 22, groundWeaponCooldown := 30 }

def duel : Sim := { mine := { units := [scourge] }, enemy := { units := [scout] } }

lemma duel_sound : duel.Sound := by
  intro side u hu
  cases side with
  | mine =>
    obtain rfl : u = scourge := mem_singleton.mp hu
    constructor <;> decide
  | enemy =>
    obtain rfl : u = scout := mem_singleton.mp hu
    constructor <;> decide

theorem run_safe_duel : duel.Sound ∧ ∃ s' log, Returns (run 40 duel) (s', log) ∧
    (∃ s'', Linked duel.start log s'' ∧ s' = s''.finish) ∧ (∀ t ∈ log, t.Safe) ∧
    ∀ side, (s'.team side).startHp = (duel.team side).hp ∧
      0 ≤ (s'.team side).endHp ∧ (s'.team side).endHp ≤ (s'.team side).startHp :=
  ⟨duel_sound, run_safe duel_sound 40⟩

end TorchCraft.CombatSim
