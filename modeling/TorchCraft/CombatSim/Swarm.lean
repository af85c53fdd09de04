import TorchCraft.CombatSim.Safety

/-!
# Dark swarm

The shields take their part of the damage before the swarm is looked at, so that a dark swarm
protects the hit points of a team and not its shields.

* `Sheltered`  a team under a swarm, against units that the swarm restricts;
* `Turn.Drains`  the attacks that such a team feels;
* `run_sheltered`  what such a team keeps in a fight.
-/

namespace TorchCraft.CombatSim
open Lib List

/-- the team of `side` is under a dark swarm with the hit points `hps`; `bare` if without shields -/
structure Sheltered (side : Side) (startHp : ℚ) (hps : List ℚ) (bare : Prop) (s : Sim) : Prop where
  startHp : (s.team side).startHp = startHp
  hp : (s.team side).units.map SimUnit.hp = hps
  covered : ∀ u ∈ (s.team side).units, u.underDarkSwarm = true ∧ u.type.kind ≠ .Zerg_Scourge
  restricted : ∀ u ∈ (s.team side.other).units, u.type.restrictedByDarkSwarm = true
  shields : bare → ∀ u ∈ (s.team side).units, u.shields = 0

/-- a unit that is as much exposed as before -/
structure Alike (u u' : SimUnit) : Prop where
  underDarkSwarm : u'.underDarkSwarm = u.underDarkSwarm
  type : u'.type = u.type
  shields : u.shields = 0 → u'.shields = 0

section
variable {u e : SimUnit}

lemma absorb_alike (e : SimUnit) (damage : ℚ) :
    Alike e (e.absorb damage).1 ∧ (e.absorb damage).1.hp = e.hp := by
  rw [SimUnit.absorb]
  split
  next hshields =>
    split <;> exact ⟨⟨rfl, rfl, fun h => absurd h hshields⟩, rfl⟩
  · exact ⟨⟨rfl, rfl, id⟩, rfl⟩

lemma hit_alike (u e : SimUnit) : Alike e (u.hit e) := by
  obtain ⟨halike, -⟩ := absorb_alike e (u.damageTo e)
  unfold SimUnit.hit
  dsimp only
  split
  · exact ⟨halike.underDarkSwarm, halike.type, halike.shields⟩
  · exact halike

/-- Shields stay only if there are none: who is selected as a target takes damage. -/
lemma shields_hit_iff (hd : u.damageTo e ≠ 0) : (u.hit e).shields = e.shields ↔ e.shields = 0 := by
  have hd : (u.damageTo e : ℚ) ≠ 0 := by exact_mod_cast hd
  have hshields : (u.hit e).shields = (e.absorb (u.damageTo e)).1.shields := by
    unfold SimUnit.hit
    dsimp only
    split <;> rfl
  rw [hshields, SimUnit.absorb]
  split
  next hne =>
    split
    · exact eq_comm
    · exact iff_of_false (fun h => hd (by simpa using h)) hne
  next hzero => exact iff_of_true rfl (not_not.mp hzero)

lemma hp_hit (hu : u.type.restrictedByDarkSwarm) (he : e.underDarkSwarm)
    (hpos : 0 < e.hp) : (u.hit e).hp = e.hp := by
  obtain ⟨halike, hhp⟩ := absorb_alike e (u.damageTo e)
  have hswarm : (e.absorb (u.damageTo e)).1.underDarkSwarm :=
    halike.underDarkSwarm.trans he
  unfold SimUnit.hit
  dsimp only
  split
  · simp only [SimUnit.wound, hu, hswarm, Bool.or_true, Bool.and_self, if_true, sub_zero, hhp]
    exact if_neg (not_lt.mpr hpos.le)
  · exact hhp

end

section run
variable {side : Side} {startHp : ℚ} {hps : List ℚ} {bare : Prop} {s : Sim}

lemma Side.other_eq {side' : Side} (h : side' ≠ side) : side'.other = side := by
  cases side <;> cases side' <;> first | rfl | exact absurd rfl h

lemma hp_setUnit {k : Nat} {u : SimUnit} (hu : s.unit? side k = some u) (u' : SimUnit) :
    ((s.setUnit side k u').team side).hp =
      (s.team side).hp + (u'.hp + u'.shields - (u.hp + u.shields)) := by
  obtain ⟨hk, rfl⟩ := List.getElem?_eq_some_iff.mp hu
  unfold Team.hp
  rw [team_setUnit_self, map_set, sum_set', dif_pos (by rwa [length_map]), getElem_map]
  ring

lemma Sheltered.setUnit (h : Sheltered side startHp hps bare s) {side' : Side} {k : Nat}
    {u u' : SimUnit} (hu : s.unit? side' k = some u) (halike : Alike u u')
    (hhp : side' = side → u'.hp = u.hp) :
    Sheltered side startHp hps bare (s.setUnit side' k u') := by
  have hmem : u ∈ (s.team side').units := mem_of_getElem? hu
  have hstart : ((s.setUnit side' k u').team side).startHp = startHp := by
    rw [← h.startHp]
    cases side <;> cases side' <;> rfl
  by_cases hside : side' = side
  · subst hside
    have hunits {P : SimUnit → Prop} (hP : ∀ v ∈ (s.team side').units, P v) (hP' : P u') :
        ∀ v ∈ ((s.setUnit side' k u').team side').units, P v := by
      rw [team_setUnit_self]
      intro v hv
      rcases mem_or_eq_of_mem_set hv with hv | rfl
      · exact hP v hv
      · exact hP'
    refine ⟨hstart, ?_, hunits h.covered ?_, ?_, fun hb => hunits (h.shields hb) ?_⟩
    · rw [team_setUnit_self, map_set, hhp rfl, ← h.hp]
      obtain ⟨hk, rfl⟩ := List.getElem?_eq_some_iff.mp hu
      rw [← getElem_map SimUnit.hp (h := by rwa [length_map]), set_getElem_self]
    · rw [halike.underDarkSwarm, halike.type]
      exact h.covered u hmem
    · rw [team_setUnit_other s side'.other_ne]
      exact h.restricted
    · exact halike.shields (h.shields hb u hmem)
  · have hteam := team_setUnit_other s (fun he => hside he.symm) k u'
    refine ⟨hstart, hteam ▸ h.hp, hteam ▸ h.covered, ?_, hteam ▸ h.shields⟩
    obtain rfl : side.other = side' := Side.other_eq (Ne.symm hside)
    rw [team_setUnit_self]
    intro v hv
    rcases mem_or_eq_of_mem_set hv with hv | rfl
    · exact h.restricted v hv
    · rw [halike.type]
      exact h.restricted u hmem

/-- an attack of the other team keeps the hit points -/
lemma Sheltered.hp_attacked {side' : Side} {j k : Nat} {u e : SimUnit} {t : Option Nat} {b : Bool}
    (h : Sheltered side'.other startHp hps bare s) (hu : s.unit? side' j = some u)
    (he : s.unit? side'.other k = some e) (hpos : 0 < e.hp) :
    (SimUnit.hit { u with target := t, targetInRange := b } e).hp = e.hp := by
  have hother : side'.other.other = side' := Side.other_eq side'.other_ne
  have hrestricted : u.type.restrictedByDarkSwarm = true :=
    h.restricted u (mem_of_getElem? (hother.symm ▸ hu))
  exact hp_hit hrestricted (h.covered e (mem_of_getElem? he)).1 hpos

lemma Sheltered.turned (h : Sheltered side startHp hps bare s) {frame : Int} {side' : Side}
    {j : Nat} {s' : Sim} (ht : Turned frame side' j s s') :
    Sheltered side startHp hps bare s' := by
  cases ht with
  | idle _ => exact h
  | move hu _ _ _ => exact h.setUnit hu ⟨rfl, rfl, id⟩ fun _ => rfl
  | @attack u k e b hu hpos he hpos' _ =>
    have hne : (side', j) ≠ (side'.other, k) :=
      fun heq => side'.other_ne (congrArg Prod.fst heq).symm
    have hmem : u ∈ (s.team side').units := mem_of_getElem? hu
    refine (h.setUnit he (hit_alike _ e) fun hside => ?_).setUnit ((unit?_setUnit_ne hne).trans hu)
      ⟨rfl, rfl, id⟩ fun hside => ?_
    · -- the other team attacks
      subst hside
      exact h.hp_attacked hu he hpos'
    · -- the team attacks, and has no scourge
      subst hside
      exact if_neg (h.covered u hmem).2

/-- an attack on a unit of `side` with shields -/
def Turn.Drains (t : Turn) (side : Side) : Prop :=
  t.side ≠ side ∧ ∃ u k e, t.before.unit? t.side t.place = some u ∧ 0 < u.hp ∧
    u.Attacks t.frame (t.before.team side).units k e ∧ e.shields ≠ 0

/-- **One turn**: the sheltered team feels exactly the attacks on shields. -/
lemma Sheltered.hp_turned_iff (h : Sheltered side startHp hps bare s) {frame : Int} {side' : Side}
    {j : Nat} {s' : Sim} (ht : Turned frame side' j s s') :
    (s'.team side).hp = (s.team side).hp ↔ ¬Turn.Drains ⟨frame, side', j, s, s'⟩ side := by
  cases ht with
  | idle hidle =>
    refine iff_of_true rfl fun ⟨_, u, _, _, hu, hpos, _⟩ => ?_
    exact absurd hpos (not_lt.mpr (hidle u hu))
  | @move u x y t b hu hpos _ hno =>
    refine iff_of_true ?_ fun ⟨hne, v, k, e, hv, _, ha, _⟩ => ?_
    · by_cases hside : side' = side
      · subst hside
        rw [hp_setUnit hu]
        ring
      · rw [team_setUnit_other s (Ne.symm hside)]
    · cases hu.symm.trans hv
      exact hno k e (Side.other_eq hne ▸ ha)
  | @attack u k e b hu hpos he hpos' ha =>
    by_cases hside : side' = side
    · -- its own attack
      subst hside
      refine iff_of_true ?_ fun hd => hd.1 rfl
      have hu₁ : (s.setUnit side'.other k
          (SimUnit.hit { u with target := some k, targetInRange := b } e)).unit? side' j = some u :=
        (unit?_setUnit_ne fun heq => side'.other_ne (congrArg Prod.fst heq).symm).trans hu
      have hfire :
          (SimUnit.fire frame { u with target := some k, targetInRange := b } e).hp = u.hp :=
        if_neg (h.covered u (mem_of_getElem? hu)).2
      rw [hp_setUnit hu₁, team_setUnit_other s side'.other_ne.symm, hfire]
      show _ + (u.hp + u.shields - (u.hp + u.shields)) = _
      ring
    · obtain rfl : side'.other = side := Side.other_eq hside
      have hshields := shields_hit_iff (u := { u with target := some k, targetInRange := b })
        (SimUnit.selectTarget_spec ha.1).2.2
      rw [team_setUnit_other _ side'.other_ne, hp_setUnit he, h.hp_attacked hu he hpos', add_eq_left,
        add_sub_add_left_eq_sub, sub_eq_zero, hshields]
      refine ⟨fun hzero ⟨_, v, k', e', hv, _, ha', hne⟩ => hne ?_, fun hno => ?_⟩
      · cases hu.symm.trans hv
        cases ha.1.symm.trans ha'.1
        exact hzero
      · by_contra hne
        exact hno ⟨Ne.symm side'.other_ne, u, k, e, hu, hpos, ha, hne⟩

/-- a sheltered team with the log of the turns: it is as strong as before if no shields were hit -/
structure Besieged (s₀ : Sim) (side : Side) (s : Sim) (log : List Turn) : Prop where
  sheltered : Sheltered side (s₀.team side).hp ((s₀.team side).units.map SimUnit.hp)
    (∀ u ∈ (s₀.team side).units, u.shields = 0) s
  sound : s₀.Sound → s.Sound
  hp_le : s₀.Sound → (s.team side).hp ≤ (s₀.team side).hp
  hp_iff : s₀.Sound → ((s.team side).hp = (s₀.team side).hp ↔ ∀ t ∈ log, ¬t.Drains side)

lemma Besieged.takeTurn {s₀ : Sim} (frame : Int) (r : Round) (p : Side × Nat)
    (h : Besieged s₀ side r.sim r.log) :
    ∃ r', takeTurn frame r p = .ok r' ∧ Besieged s₀ side r'.sim r'.log := by
  obtain ⟨q, hq, hturned⟩ := turn_cases frame p.1 p.2 r.sim
  have hfades (hs : s₀.Sound) : SimFades r.sim q.1 := by
    obtain ⟨q', hq', hfades, -⟩ := turn_spec frame p.1 p.2 (h.sound hs)
    obtain rfl : q = q' := Except.ok.inj (hq.symm.trans hq')
    exact hfades
  have hstep := h.sheltered.hp_turned_iff hturned
  refine ⟨⟨q.1, r.busy || q.2, r.log ++ [⟨frame, p.1, p.2, r.sim, q.1⟩]⟩, ?_,
    h.sheltered.turned hturned, fun hs => (hfades hs).sound (h.sound hs),
    fun hs => ((hfades hs).hp_le side).trans (h.hp_le hs), fun hs => ?_⟩
  · rw [CombatSim.takeTurn, hq]
    rfl
  rw [forall_mem_append, forall_mem_singleton, ← hstep, ← h.hp_iff hs]
  -- what is lost in one turn does not come back
  have hle := (hfades hs).hp_le side
  have hle₀ := h.hp_le hs
  constructor
  · intro heq
    exact ⟨by linarith, by linarith⟩
  · rintro ⟨h₁, h₂⟩
    exact h₂.trans h₁

/-- **A fight under a dark swarm.**  If it covers all units of a team, none of them a scourge, and
restricts all units of the other team, every unit of the team keeps its hit points, and the team is
as strong as before exactly if no attack met shields. -/
theorem run_sheltered (s : Sim) (side : Side) (frames : Int)
    (hother : ∀ u ∈ (s.team side.other).units, u.type.restrictedByDarkSwarm = true)
    (hteam : ∀ u ∈ (s.team side).units, u.underDarkSwarm = true ∧ u.type.kind ≠ .Zerg_Scourge) :
    ∃ s' log, Returns (run frames s) (s', log) ∧
      (s'.team side).units.map SimUnit.hp = (s.team side).units.map SimUnit.hp ∧
      ((∀ u ∈ (s.team side).units, u.shields = 0) →
        (s'.team side).endHp = (s'.team side).startHp) ∧
      (s.Sound →
        ((s'.team side).endHp = (s'.team side).startHp ↔ ∀ t ∈ log, ¬t.Drains side)) := by
  have hstart : Besieged s side s.start [] := by
    refine ⟨?_, start_sound, fun _ => ?_, fun _ => iff_of_true ?_ fun t ht => absurd ht not_mem_nil⟩
    · cases side <;> exact ⟨rfl, rfl, hteam, hother, id⟩
    · cases side <;> exact le_rfl
    · cases side <;> rfl
  obtain ⟨r, hr, hinv⟩ := run_spec (fun frame r p h => h.takeTurn frame r p) hstart frames
  have hbare {t : Team} (ht : ∀ u ∈ t.units, u.shields = 0) :
      t.hp = (t.units.map SimUnit.hp).sum := by
    refine congrArg sum (map_congr_left fun u hu => ?_)
    rw [ht u hu, add_zero]
  have hend : (r.1.finish.team side).endHp = (r.1.team side).hp ∧
      (r.1.finish.team side).units = (r.1.team side).units ∧
      (r.1.finish.team side).startHp = (r.1.team side).startHp := by
    cases side <;> exact ⟨rfl, rfl, rfl⟩
  have hshelter := hinv.sheltered
  refine ⟨r.1.finish, r.2, hr, ?_, fun hshields => ?_, fun hs => ?_⟩
  · rw [hend.2.1, hshelter.hp]
  · rw [hend.1, hend.2.2, hbare (hshelter.shields hshields), hshelter.hp, hshelter.startHp,
      hbare hshields]
  · rw [hend.1, hend.2.2, hshelter.startHp]
    exact hinv.hp_iff hs

end run

/-- a marine against a unit under a swarm, with the given shields -/
def sheltered (shields : ℚ) : Sim where
  mine := { units := [{
    hp := 40, groundDamage := 6, groundRange := 16
    type := { restrictedByDarkSwarm := true, groundWeaponCooldown := 15 } }] }
  enemy := { units := [{ hp := 100, shields := shields, underDarkSwarm := true, type := {} }] }

lemma sheltered_swarm (shields : ℚ) :
    (∀ u ∈ ((sheltered shields).team .mine).units, u.type.restrictedByDarkSwarm) ∧
    ∀ u ∈ ((sheltered shields).team .enemy).units,
      u.underDarkSwarm ∧ u.type.kind ≠ .Zerg_Scourge := by
  refine ⟨fun u hu => ?_, fun u hu => ?_⟩
  · rw [mem_singleton.mp hu]
  · rw [mem_singleton.mp hu]
    exact ⟨rfl, nofun⟩

lemma sheltered_sound : (sheltered 0).Sound := by
  intro side u hu
  cases side <;> rw [mem_singleton.mp hu] <;> constructor <;> decide

theorem run_sheltered_bare : ∃ s' log, Returns (run 10 (sheltered 0)) (s', log) ∧
    s'.enemy.endHp = s'.enemy.startHp ∧ ∀ t ∈ log, ¬t.Drains .enemy := by
  obtain ⟨s', log, hr, -, hbare, hiff⟩ := run_sheltered (sheltered 0) .enemy 10
    (sheltered_swarm 0).1 (sheltered_swarm 0).2
  have hend : s'.enemy.endHp = s'.enemy.startHp := hbare fun u hu => by
    rw [mem_singleton.mp hu]
  exact ⟨s', log, hr, hend, (hiff sheltered_sound).mp hend⟩

/-- The shields of a unit under a swarm are lost. -/
theorem shields_unsheltered : ((run 4 (sheltered 20) 3).toOption.map fun r =>
    (r.1.enemy.startHp, r.1.enemy.endHp)) = some (120, 114) := by
  decide +kernel

end TorchCraft.CombatSim
