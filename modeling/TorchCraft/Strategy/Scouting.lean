import Mathlib.Data.Nat.Count
import TorchCraft.Lib.Fuel

/-!
# Sending scouts

`StrategyModule::stepScouting` posts UPCs until it has as many scouts as it may have.  A UPC that a
filter of the board rejects is posted again in the next round, so that a filter that keeps rejecting
keeps the call from returning.

* `stepScouting`  the code;
* `computes_scout`, `scout_spins`  a loop returns if enough UPCs pass, and spins otherwise;
* `scouts_sent`  when a call returns, and what it has posted then.
-/

namespace TorchCraft.Strategy
open Lib Function

inductive UnitType
  | worker
  | overlord

inductive Duty
  | explorer
  | overlord
  | worker
  deriving DecidableEq

def Duty.type : Duty → UnitType
  | .overlord => .overlord
  | _ => .worker

/-- what a call reads; a limit is `none` if it is not on the blackboard -/
structure Game where
  currentFrame : Int
  foundEnemyStartLocation : Bool := false
  minScoutFrame : Option Int := none
  maxScoutExplorers : Option Int := none
  maxScoutWorkers : Option Int := none
  myUnits : UnitType → Nat
  myCompletedUnits : UnitType → Nat
  completed_le : ∀ t, myCompletedUnits t ≤ myUnits t
  /-- do all filters let the UPC of this call of `postUPC` pass -/
  filters : Nat → Bool

namespace Game
variable (g : Game)

def limit : Duty → Int
  | .explorer => g.maxScoutExplorers.getD 0
  | .overlord => 2
  | .worker => g.maxScoutWorkers.getD 1

def late : Bool :=
  let minScoutFrame := g.minScoutFrame.getD 1560
  g.currentFrame ≥ if minScoutFrame ≤ 0 then 2147483647 else minScoutFrame

def allows : Duty → Bool
  | .explorer => g.foundEnemyStartLocation && g.late
  | .overlord => g.currentFrame ≥ 0
  | .worker => g.late && !g.foundEnemyStartLocation

end Game

structure StrategyModule where
  nbScouting : Duty → Nat := fun _ => 0
  /-- the calls of `postUPC` -/
  calls : Nat := 0
  /-- the UPCs that came to the board -/
  posted : Duty → Nat := fun _ => 0

namespace StrategyModule
variable (g : Game) (d : Duty) (s : StrategyModule)

def wants : Bool :=
  g.allows d && decide (s.nbScouting d < g.limit d ∧ g.myCompletedUnits d.type > s.nbScouting d)

/-- one round: `postUpc`, and a scout more if the id is positive -/
def send : StrategyModule :=
  if g.myUnits d.type = 0 then s
  else if g.filters s.calls then
    { nbScouting := update s.nbScouting d (s.nbScouting d + 1)
      calls := s.calls + 1
      posted := update s.posted d (s.posted d + 1) }
  else { s with calls := s.calls + 1 }

def scout : Nat → Run StrategyModule :=
  loop (fun s _ => .ret (if s.wants g d then .inl (s.send g d) else .inr s)) s

def stepScouting (n : Nat) : Run StrategyModule :=
  (s.scout g .explorer n).bind fun s => (s.scout g .overlord n).bind fun s => s.scout g .worker n

def remaining : Nat :=
  if g.allows d then (min (g.limit d) (g.myCompletedUnits d.type) - s.nbScouting d).toNat else 0

def passed (n : Nat) : Nat := Nat.count (fun k => g.filters (s.calls + k)) n

/-- `k` UPCs for `d` were posted since `s`, in `m` calls -/
structure Sent (k m : Nat) (s' : StrategyModule) : Prop where
  scouts : s'.nbScouting = update s.nbScouting d (s.nbScouting d + k)
  posted : s'.posted = update s.posted d (s.posted d + k)
  calls : s'.calls = s.calls + m
  passed : s.passed g m = k

variable {g d s}

lemma wants_iff : s.wants g d ↔ 0 < s.remaining g d := by
  unfold wants remaining
  cases g.allows d with
  | false => simp
  | true =>
    rw [Bool.true_and, decide_eq_true_eq, if_pos rfl]
    omega

lemma remaining_succ {t : StrategyModule} (h : t.nbScouting d = s.nbScouting d + 1) :
    t.remaining g d = s.remaining g d - 1 := by
  unfold remaining
  rw [h]
  split <;> omega

lemma units_ne_zero (h : s.wants g d) : g.myUnits d.type ≠ 0 := by
  have hle := g.completed_le d.type
  simp only [wants, Bool.and_eq_true, decide_eq_true_eq] at h
  omega

lemma passed_add {s' : StrategyModule} {m : Nat} (h : s'.calls = s.calls + m) (n : Nat) :
    s.passed g (m + n) = s.passed g m + s'.passed g n := by
  unfold passed
  rw [Nat.count_add, h]
  simp only [Nat.add_assoc]

lemma send_eq (h : s.wants g d) : s.send g d =
    if g.filters s.calls then
      ⟨update s.nbScouting d (s.nbScouting d + 1), s.calls + 1, update s.posted d (s.posted d + 1)⟩
    else { s with calls := s.calls + 1 } := if_neg (units_ne_zero h)

/-- **One round**: a scout is sent if the UPC passes. -/
lemma send_spec (h : s.wants g d) :
    s.Sent g d (if g.filters s.calls then 1 else 0) 1 (s.send g d) ∧
      (s.send g d).remaining g d + (if g.filters s.calls then 1 else 0) = s.remaining g d := by
  have hpos := wants_iff.mp h
  have hpassed : s.passed g 1 = if g.filters s.calls then 1 else 0 := Nat.count_one ..
  rw [send_eq h]
  split
  next hf =>
    rw [if_pos hf] at hpassed
    have hless := remaining_succ (g := g) (d := d) (s := s)
      (t := ⟨update s.nbScouting d (s.nbScouting d + 1), s.calls + 1,
        update s.posted d (s.posted d + 1)⟩) (update_self ..)
    exact ⟨⟨rfl, rfl, rfl, hpassed⟩, by omega⟩
  next hf =>
    rw [if_neg hf] at hpassed
    exact ⟨⟨by simp, by simp, rfl, hpassed⟩, rfl⟩

lemma Sent.trans {k m k' m' : Nat} {s' s'' : StrategyModule} (h : s.Sent g d k m s')
    (h' : s'.Sent g d k' m' s'') : s.Sent g d (k + k') (m + m') s'' := by
  refine ⟨?_, ?_, ?_, ?_⟩
  · simp [h'.scouts, h.scouts, Nat.add_assoc]
  · simp [h'.posted, h.posted, Nat.add_assoc]
  · rw [h'.calls, h.calls, Nat.add_assoc]
  · rw [passed_add h.calls, h.passed, h'.passed]

/-- what remains for one duty does not change while another one is served -/
lemma Sent.remaining_other {e : Duty} {s' : StrategyModule} {k m : Nat} (h : s.Sent g d k m s')
    (he : e ≠ d) : s'.remaining g e = s.remaining g e := by
  simp [remaining, h.scouts, he]

/-- **A loop sends the scouts that are missing**, if enough UPCs pass. -/
theorem computes_scout {n : Nat} (hn : s.remaining g d ≤ s.passed g n) :
    Computes (s.scout g d) fun s' => ∃ m, s.Sent g d (s.remaining g d) m s' := by
  refine computes_loop
    (fun s' => ∃ k m, s.Sent g d k m s' ∧ s'.remaining g d + k = s.remaining g d)
    (fun s' => s.calls + n - s'.calls) (fun s' hs' => ?_)
    ⟨0, 0, ⟨by simp, by simp, rfl, Nat.count_zero _⟩, rfl⟩
  obtain ⟨k, m, hsent, hk⟩ := hs'
  refine ⟨_, returns_const.mpr rfl, ?_⟩
  split
  next hw =>
    have hpos := wants_iff.mp hw
    obtain ⟨hone, hless⟩ := send_spec hw
    refine ⟨⟨_, _, hsent.trans hone, by omega⟩, ?_⟩
    -- the UPCs that have passed so far are not enough
    have hm : m < n := by
      refine Nat.lt_of_not_le fun hle => ?_
      have hmono : s.passed g n ≤ s.passed g m := Nat.count_monotone _ hle
      have hpassed := hsent.passed
      omega
    have h1 := hsent.calls
    have h2 := hone.calls
    omega
  next hw =>
    rw [wants_iff] at hw
    obtain rfl : k = s.remaining g d := by omega
    exact ⟨m, hsent⟩

lemma scout_spins (h : ∀ n, s.passed g n < s.remaining g d) (n : Nat) : s.scout g d n = .spin := by
  induction n generalizing s with
  | zero => rfl
  | succ n ih =>
    have hw : s.wants g d := wants_iff.mpr (Nat.zero_lt_of_lt (h 0))
    obtain ⟨hone, hless⟩ := send_spec hw
    have hnext : scout g d (s.send g d) n = .spin := by
      refine ih fun n => ?_
      have hn := h (1 + n)
      rw [passed_add hone.calls, hone.passed] at hn
      omega
    rw [← hnext]
    show Run.bind (.ret (if s.wants g d then Sum.inl (s.send g d) else Sum.inr s)) _ = _
    rw [if_pos hw]
    rfl

lemma Returns.sent {s' : StrategyModule} (h : Returns (s.scout g d) s') :
    ∃ m, s.Sent g d (s.remaining g d) m s' := by
  by_cases hn : ∃ n, s.remaining g d ≤ s.passed g n
  · exact (computes_scout hn.choose_spec).of_returns h
  · push Not at hn
    obtain ⟨n, h⟩ := h
    exact nomatch (scout_spins hn n).symm.trans (h n le_rfl)

lemma stable_scout : Stable (s.scout g d) := stable_loop (fun _ => stable_const _) s

end StrategyModule

open StrategyModule

/-- **`stepScouting` returns exactly if enough UPCs pass**, and has posted those that remained. -/
theorem scouts_sent (g : Game) (s : StrategyModule) :
    ((∃ s', Returns (s.stepScouting g) s') ↔
      ∃ n, s.remaining g .explorer + s.remaining g .overlord + s.remaining g .worker ≤
        Nat.count (fun k => g.filters (s.calls + k)) n) ∧
    ∀ s', Returns (s.stepScouting g) s' → ∀ d, s'.posted d = s.posted d + s.remaining g d ∧
      s'.nbScouting d = s.nbScouting d + s.remaining g d := by
  have hparts {s₃ : StrategyModule} (h : Returns (s.stepScouting g) s₃) :
      ∃ s₁ s₂ m₁ m₂ m₃, s.Sent g .explorer (s.remaining g .explorer) m₁ s₁ ∧
        s₁.Sent g .overlord (s.remaining g .overlord) m₂ s₂ ∧
          s₂.Sent g .worker (s.remaining g .worker) m₃ s₃ := by
    obtain ⟨s₁, h₁, h⟩ := (returns_bind stable_scout).mp h
    obtain ⟨s₂, h₂, h₃⟩ := (returns_bind stable_scout).mp h
    obtain ⟨m₁, h₁⟩ := Returns.sent h₁
    obtain ⟨m₂, h₂⟩ := Returns.sent h₂
    obtain ⟨m₃, h₃⟩ := Returns.sent h₃
    rw [h₂.remaining_other (by decide), h₁.remaining_other (by decide)] at h₃
    rw [h₁.remaining_other (by decide)] at h₂
    exact ⟨s₁, s₂, m₁, m₂, m₃, h₁, h₂, h₃⟩
  refine ⟨⟨fun ⟨s₃, h⟩ => ?_, fun ⟨n, hn⟩ => ?_⟩, fun s₃ h d => ?_⟩
  · obtain ⟨s₁, s₂, m₁, m₂, m₃, h₁, h₂, h₃⟩ := hparts h
    refine ⟨m₁ + (m₂ + m₃), le_of_eq ?_⟩
    show _ = s.passed g _
    rw [passed_add h₁.calls, passed_add h₂.calls, h₁.passed, h₂.passed, h₃.passed, Nat.add_assoc]
  · -- the UPCs that pass after a loop are enough for the loops behind it
    have hrest {t t' : StrategyModule} {d : Duty} {k m r : Nat} (h : t.Sent g d k m t')
        (hr : k + r ≤ t.passed g n) : r ≤ t'.passed g n := by
      have hmono : t.passed g n ≤ t.passed g (m + n) := Nat.count_monotone _ (Nat.le_add_left ..)
      rw [passed_add h.calls, h.passed] at hmono
      omega
    change _ ≤ s.passed g n at hn
    obtain ⟨s₁, hs₁, m₁, h₁⟩ := computes_scout (s := s) (g := g) (d := .explorer) (n := n) (by omega)
    have hn₁ := hrest h₁ (r := s.remaining g .overlord + s.remaining g .worker) (by omega)
    obtain ⟨s₂, hs₂, m₂, h₂⟩ := computes_scout (s := s₁) (g := g) (d := .overlord) (n := n)
      (by rw [h₁.remaining_other (by decide)]; omega)
    rw [h₁.remaining_other (by decide)] at h₂
    have hn₂ := hrest h₂ hn₁
    obtain ⟨s₃, hs₃, -⟩ := computes_scout (s := s₂) (g := g) (d := .worker) (n := n)
      (by rw [h₂.remaining_other (by decide), h₁.remaining_other (by decide)]; exact hn₂)
    exact ⟨s₃, hs₁.bind (hs₂.bind hs₃)⟩
  · obtain ⟨s₁, s₂, m₁, m₂, m₃, h₁, h₂, h₃⟩ := hparts h
    rw [h₃.posted, h₃.scouts, h₂.posted, h₂.scouts, h₁.posted, h₁.scouts]
    cases d <;> simp

def overlords (filters : Nat → Bool) : Game where
  currentFrame := 0
  myUnits := fun _ => 3
  myCompletedUnits := fun _ => 3
  completed_le := fun _ => le_rfl
  filters := filters

/-- Every other UPC passes, and the second loop posts four times for its two scouts. -/
theorem scouts_sent_two : ∃ s', Returns (stepScouting (overlords fun k => k % 2 = 1) {}) s' ∧
    s'.posted .overlord = 2 := by
  obtain ⟨hiff, hposted⟩ := scouts_sent (overlords fun k => k % 2 = 1) {}
  obtain ⟨s', hs'⟩ := hiff.mpr ⟨4, by decide⟩
  exact ⟨s', hs', (hposted s' hs' .overlord).1⟩

/-- A filter that rejects every UPC keeps the call from returning. -/
theorem scouts_rejected : ¬ ∃ s', Returns (stepScouting (overlords fun _ => false) {}) s' := by
  have hspin : ∀ n k, scout (overlords fun _ => false) .overlord { calls := k } n = .spin := by
    intro n
    induction n with
    | zero => exact fun _ => rfl
    | succ n ih => exact fun k => ih (k + 1)
  rintro ⟨s', n, hn⟩
  have hn : Run.bind (scout _ .overlord {} (n + 1)) _ = _ := hn (n + 1) n.le_succ
  rw [hspin] at hn
  cases hn

end TorchCraft.Strategy
