import Mathlib.Data.Nat.Find
import TorchCraft.Lib.Sys

/-!
# `priority_mutex`

The mutex of the batcher and of the trainers.  `lock` counts the thread for its priority, takes
`dataMutex_`, and waits on `queueCV_` until no thread is counted for a higher priority.

The state has the number of threads at each place of the code.  What `lock` does with `dataMutex_`
in its hands is one step: meanwhile others can only be counted and notify.
-/

namespace TorchCraft.Batcher
open Lib

structure PriorityMutex where
  maxPrio : Nat
  -- a user has it
  dataMutex : Bool := false
  queueCount : Nat → Int := fun _ => 0
  -- in `lock`, about to take `dataMutex_`
  ready : Nat → Nat := fun _ => 0
  waiting : Nat → Nat := fun _ => 0
  -- in `unlock`, in front of `notify_all`
  notifying : Nat := 0

namespace PriorityMutex

inductive Op
  | lock (prio : Int)
  -- a thread in `lock` takes `dataMutex_`
  | test (prio : Nat)
  | try_lock (prio : Int)
  | unlock
  | notify_all
  -- a wait may end without a notification
  | wake (prio : Nat)

section steps
variable (s : PriorityMutex)

def canGo (prio : Nat) : Bool :=
  (List.range' (prio + 1) (s.maxPrio - prio)).all fun i => s.queueCount i == 0

/-- a step that cannot be made, or throws, leaves everything as it is -/
def run : Op → PriorityMutex
  | .lock prio =>
    let p := prio.toNat
    if 0 ≤ prio ∧ prio ≤ s.maxPrio then
      { s with
        queueCount := Function.update s.queueCount p (s.queueCount p + 1)
        ready := Function.update s.ready p (s.ready p + 1) }
    else s
  | .test p =>
    if s.dataMutex = false ∧ 0 < s.ready p then
      let s' := { s with ready := Function.update s.ready p (s.ready p - 1) }
      if s.canGo p then
        { s' with
          dataMutex := true
          queueCount := Function.update s.queueCount p (s.queueCount p - 1) }
      else { s' with waiting := Function.update s.waiting p (s.waiting p + 1) }
    else s
  | .try_lock prio =>
    if 0 ≤ prio ∧ prio ≤ s.maxPrio ∧ s.dataMutex = false then { s with dataMutex := true } else s
  | .unlock =>
    if s.dataMutex then { s with dataMutex := false, notifying := s.notifying + 1 } else s
  | .notify_all =>
    if 0 < s.notifying then
      { s with
        notifying := s.notifying - 1
        ready := fun p => s.ready p + s.waiting p
        waiting := fun _ => 0 }
    else s
  | .wake p =>
    if 0 < s.waiting p then
      { s with
        ready := Function.update s.ready p (s.ready p + 1)
        waiting := Function.update s.waiting p (s.waiting p - 1) }
    else s

def mutexSys : Sys PriorityMutex Op := ⟨run, fun _ _ => True⟩

def inLock (p : Nat) : Nat := s.ready p + s.waiting p

end steps

/-! ## the invariant -/

structure Guarded (s : PriorityMutex) : Prop where
  counts : ∀ p, s.queueCount p = s.inLock p
  bound : ∀ p, 0 < s.inLock p → p ≤ s.maxPrio
  -- whoever waits will be notified, or a thread that goes before it is in `lock`
  covered : ∀ p, 0 < s.waiting p → s.dataMutex ∨ 0 < s.notifying ∨ ∃ q > p, 0 < s.inLock q

variable {s : PriorityMutex}

lemma canGo_iff (h : Guarded s) (p : Nat) : s.canGo p ↔ ∀ q, 0 < s.inLock q → q ≤ p := by
  simp only [canGo, List.all_eq_true, List.mem_range'_1, beq_iff_eq, h.counts, Int.natCast_eq_zero]
  refine ⟨fun hgo q hq => ?_, fun hgo q hq => ?_⟩
  · by_contra hlt
    have := h.bound q hq
    have := hgo q ⟨by omega, by omega⟩
    omega
  · have := hgo q
    omega

/-- a step that moves threads within `lock` -/
lemma Guarded.of_inLock {s' : PriorityMutex} (h : Guarded s) (hl : ∀ p, s'.inLock p = s.inLock p)
    (hq : s'.queueCount = s.queueCount) (hm : s'.maxPrio = s.maxPrio)
    (hw : ∀ p, 0 < s'.waiting p → s'.dataMutex ∨ 0 < s'.notifying ∨ ∃ q > p, 0 < s.inLock q) :
    Guarded s' := by
  refine ⟨fun p => ?_, fun p hp => ?_, fun p hp => ?_⟩
  · rw [hq, hl, h.counts]
  · rw [hm]
    exact h.bound p (hl p ▸ hp)
  · simpa only [hl] using hw p hp

lemma guarded_run (h : Guarded s) (o : Op) : Guarded (s.run o) := by
  fun_cases run s o
  -- `lock`
  case case1 prio p hv =>
    refine ⟨fun q => ?_, fun q => ?_, fun q hq => ?_⟩
    · have := h.counts q
      grind [inLock]
    · have := h.bound q
      grind [inLock]
    · obtain huser | hdue | ⟨r, hr, hpos⟩ := h.covered q hq
      · exact .inl huser
      · exact .inr (.inl hdue)
      · exact .inr (.inr ⟨r, hr, by grind [inLock]⟩)
  -- a test that succeeds, and one that fails
  case case3 p hp s' hgo =>
    refine ⟨fun q => ?_, fun q hq => h.bound q ?_, fun _ _ => .inl rfl⟩
    · have := h.counts q
      rcases eq_or_ne q p with rfl | hne
      · simp only [s', inLock, Function.update_self] at this ⊢
        omega
      · simpa [s', inLock, hne] using this
    · grind [inLock]
  case case4 p hp s' hgo =>
    refine h.of_inLock (fun q => ?_) rfl rfl fun q hq => ?_
    · grind [inLock]
    · rcases eq_or_ne q p with rfl | hne
      · rw [canGo_iff h] at hgo
        push Not at hgo
        obtain ⟨r, hpos, hlt⟩ := hgo
        exact .inr (.inr ⟨r, hlt, hpos⟩)
      · exact h.covered q (by simpa [hne] using hq)
  -- `try_lock`, `unlock`, `notify_all`, `wake`
  case case6 => exact h.of_inLock (fun _ => rfl) rfl rfl fun _ _ => .inl rfl
  case case8 => exact h.of_inLock (fun _ => rfl) rfl rfl fun _ _ => .inr (.inl (Nat.succ_pos _))
  case case10 => exact h.of_inLock (fun _ => rfl) rfl rfl nofun
  case case12 p hp =>
    refine h.of_inLock (fun q => ?_) rfl rfl fun q hq => h.covered q ?_
    · grind [inLock]
    · grind
  all_goals exact h

/-- **Threads pass by priority, and no wake-up is lost.**  A thread goes on exactly if no thread in
`lock` has a higher priority.  When nobody has the mutex and no notification is due, one of the
threads in `lock` can take it and goes on. -/
theorem passes_by_priority (maxPrio : Nat) (os : List Op) :
    let s := mutexSys.out { maxPrio } os
    (∀ p, s.canGo p ↔ ∀ q, 0 < s.inLock q → q ≤ p) ∧
    (s.dataMutex = false → s.notifying = 0 → (∃ p, 0 < s.inLock p) →
      ∃ p, 0 < s.ready p ∧ s.canGo p) := by
  intro s
  have hempty : Guarded { maxPrio } := ⟨fun _ => rfl, nofun, nofun⟩
  have h : Guarded s := mutexSys.invariant Guarded (fun _ o h _ => guarded_run h o) _ hempty os
    (mutexSys.legal_of_ok (fun _ _ => trivial) _ os)
  refine ⟨canGo_iff h, fun hfree hdue ⟨p, hp⟩ => ?_⟩
  -- the highest priority in `lock`: its threads wait for nobody
  let top := Nat.findGreatest (fun p => 0 < s.inLock p) s.maxPrio
  have htop : 0 < s.inLock top :=
    Nat.findGreatest_spec (P := fun p => 0 < s.inLock p) (h.bound p hp) hp
  have hmax : ∀ q, 0 < s.inLock q → q ≤ top := fun q hq => Nat.le_findGreatest (h.bound q hq) hq
  refine ⟨top, ?_, (canGo_iff h top).mpr hmax⟩
  by_contra hready
  have hwait : 0 < s.waiting top := by
    rw [inLock] at htop
    omega
  obtain huser | hnote | ⟨q, hlt, hq⟩ := h.covered top hwait
  · exact Bool.false_ne_true (hfree.symm.trans huser)
  · omega
  · exact absurd (hmax q hq) (not_le.mpr hlt)

end PriorityMutex
end TorchCraft.Batcher
