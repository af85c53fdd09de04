import TorchCraft.Tactics.Partition

/-!
# When the assignment is a partition

`assignNecessaryUnits` takes the workers out of a group with `std::remove_if` and keeps what stands
behind the new end of the vector to put it back later.  What stands there are the last units of the
group and not the workers: if a worker comes before another unit, then a unit is put back that is
still in the group.

* `WorkersLast.removeIf`, `exists_fighter_behind`  what stands behind the new end;
* `Traced.visited`  a visit keeps the units as long as the workers of the groups that put something
  back are last, and doubles a unit otherwise.
-/

set_option linter.unusedSectionVars false

namespace TorchCraft.Tactics
open Lib List TacticsGroup

variable {P U : Type} [DecidableEq P] [DecidableEq U] {c : Scene P U} {o : Outcomes U} {l us : List U}
  {s : TacticsState P U} {g : TacticsGroup P U} {w w' : Drive P U} {j : Nat} {enough : Bool}

/-! ## what is put back -/

/-- **The workers of a group are behind the others.** -/
def WorkersLast (c : Scene P U) (l : List U) : Prop :=
  l = (l.filter fun u => !isWorker c u) ++ l.filter (isWorker c)

lemma WorkersLast.removeIf (h : WorkersLast c l) :
    (removeIf (isWorker c) l).2 = l.filter (isWorker c) :=
  (congrArg (List.drop _) h).trans drop_left

lemma exists_fighter_behind (h : ¬WorkersLast c l) :
    ∃ u ∈ (removeIf (isWorker c) l).2, isWorker c u = false := by
  by_contra hall
  push Not at hall
  have hback : ∀ u ∈ l.drop (l.filter fun u => !isWorker c u).length, isWorker c u :=
    fun u hu => Bool.not_eq_false _ ▸ hall u hu
  generalize hk : (l.filter fun u => !isWorker c u).length = k at hback
  -- the fighters are all in front, and there are as many as places
  have hsplit : (l.filter fun u => !isWorker c u) = (l.take k).filter fun u => !isWorker c u := by
    have hnone : ((l.drop k).filter fun u => !isWorker c u) = [] :=
      filter_eq_nil_iff.mpr fun u hu => by simp [hback u hu]
    conv_lhs => rw [← take_append_drop k l]
    rw [filter_append, hnone, append_nil]
  have hlen : (l.take k).length = k := by
    rw [length_take]
    have := length_filter_le (fun u => !isWorker c u) l
    omega
  have hfront : ((l.take k).filter fun u => !isWorker c u) = l.take k := by
    refine (filter_sublist).eq_of_length ?_
    rw [← hsplit, hk, hlen]
  have hworkers : l.filter (isWorker c) = l.drop k := by
    have hnone : (l.take k).filter (isWorker c) = [] :=
      filter_eq_nil_iff.mpr fun u hu => by simpa using filter_eq_self.mp hfront u hu
    conv_lhs => rw [← take_append_drop k l]
    rw [filter_append, filter_eq_self.mpr hback, hnone, nil_append]
  refine h ?_
  rw [WorkersLast, hsplit, hfront, hworkers, take_append_drop]

/-! ## a visit -/

def Doubled (c : Scene P U) (s : TacticsState P U) : Prop :=
  ∃ u, isWorker c u = false ∧ 2 ≤ (held s.groups).count u

lemma Visited.kept_count (g : TacticsGroup P U) {u : U} (hu : isWorker c u = false) :
    (removeIf (isWorker c) g.myUnits).1.count u = g.myUnits.count u :=
  count_filter (by rw [hu]; rfl)

lemma Doubled.visited (h : Doubled c w.state) (hv : Visited c j g us enough w w') :
    Doubled c w'.state := by
  obtain ⟨u, hu, hcount⟩ := h
  obtain ⟨rest, hold, hnew⟩ := hv.perm_held
  refine ⟨u, hu, hcount.trans ?_⟩
  rw [hold.count_eq u, hnew.count_eq u]
  simp only [count_append, Visited.kept_count g hu]
  omega

/-- **A unit is doubled**: it stands behind the new end and is put back. -/
theorem Visited.doubled (hv : Visited c j g us false w w') (honly : g.enemyIsOnlyWorkers)
    (h : ¬WorkersLast c g.myUnits) : Doubled c w'.state := by
  obtain ⟨u, hback, hu⟩ := exists_fighter_behind h
  obtain ⟨rest, -, hnew⟩ := hv.perm_held
  refine ⟨u, hu, ?_⟩
  have h1 : 0 < (putBack c g).count u := by
    rw [putBack, if_pos honly]
    exact count_pos_iff.mpr hback
  have h2 : 0 < g.myUnits.count u := count_pos_iff.mpr (mem_of_mem_drop hback)
  rw [hnew.count_eq u]
  simp only [count_append, Visited.kept_count g hu, Bool.false_eq_true, if_false]
  omega

/-- what the history says about the units -/
structure Traced (c : Scene P U) (w : Drive P U) : Prop where
  length : w.state.groups.length = c.groups.length
  stored : (∀ us ∈ w.history, WorkersLast c us) → c.Stored (content (w.state, w.available))
  doubled : (∃ us ∈ w.history, ¬WorkersLast c us) → Doubled c w.state

lemma Visited.stored (hv : Visited c j g us enough w w')
    (hlast : g.enemyIsOnlyWorkers = true → enough = false → WorkersLast c g.myUnits)
    (h : c.Stored (content (w.state, w.available))) : c.Stored (content (w'.state, w'.available)) := by
  -- the workers all come back, or none of them does
  have hback : (if enough then [] else putBack c g) = [] ∨
      (if enough then [] else putBack c g) = g.myUnits.filter (isWorker c) := by
    cases enough with
    | true => exact .inl rfl
    | false =>
      show putBack c g = [] ∨ putBack c g = _
      unfold putBack
      split
      next honly => exact .inr (hlast honly rfl).removeIf
      · exact .inl rfl
  refine h.of_count (fun u => ?_) (fun u he => ?_)
  · have hc := hv.count u
    rcases hback with hb | hb
    · rw [hb, count_nil] at hc
      omega
    · rw [hb] at hc
      omega
  · have hc := hv.count u
    have hzero : (g.myUnits.filter (isWorker c)).count u = 0 := by
      refine count_eq_zero.mpr fun hu => ?_
      have hw : (c.unit u).isWorker := (mem_filter.mp hu).2
      rw [he.fighter] at hw
      cases hw
    omega

/-- **One visit**: the units are kept or one of them is doubled. -/
theorem Traced.visited (h : Traced c w) (hv : Visited c j g us enough w w') : Traced c w' := by
  have hlen := (HadTurn.length (.inr ⟨g, us, enough, hv⟩)).trans h.length
  by_cases hput : g.enemyIsOnlyWorkers = true ∧ enough = false
  · have hhist : w'.history = g.myUnits :: w.history := by
      rw [hv.history, hput.1, hput.2]
      rfl
    refine ⟨hlen, fun hall => ?_, fun hex => ?_⟩
    · rw [hhist, forall_mem_cons] at hall
      exact hv.stored (fun _ _ => hall.1) (h.stored hall.2)
    · rw [hhist, exists_mem_cons_iff] at hex
      rcases hex with hbad | hbad
      · obtain rfl := hput.2
        exact hv.doubled hput.1 hbad
      · exact (h.doubled hbad).visited hv
  · have hhist : w'.history = w.history := by
      rw [hv.history, if_neg]
      simpa using hput
    refine ⟨hlen, fun hall => ?_, fun hex => ?_⟩
    · rw [hhist] at hall
      exact hv.stored (fun h1 h2 => absurd ⟨h1, h2⟩ hput) (h.stored hall)
    · rw [hhist] at hex
      exact (h.doubled hex).visited hv

lemma Collected.computes_traced {w : Pool P U} (h : Collected c w) :
    Computes (recruiting c o w) (Traced c) := by
  refine computes_recruiting (fun w b hw => ⟨hw.length, hw.stored, hw.doubled⟩) ?_
    ⟨h.length, fun _ => h.stored, nofun⟩
  intro j w w' ht hw
  rcases ht with rfl | ⟨g, us, enough, hv⟩
  · exact hw
  · exact hw.visited hv

/-! ## the last phases -/

lemma Doubled.push (s : TacticsState P U) (i : Nat) (v : U) (h : Doubled c s) :
    Doubled c (s.push i v) := by
  obtain ⟨u, hu, hcount⟩ := h
  refine ⟨u, hu, hcount.trans ?_⟩
  by_cases hi : i < s.groups.length
  · rw [(held_push hi v).count_eq u]
    exact count_le_count_cons
  · have hout : (s.push i v).groups = s.groups :=
      Buckets.modify_of_none (getElem?_eq_none (Nat.not_lt.mp hi)) _
    rw [hout]

lemma Doubled.not_partitioned (h : Doubled c s) : ¬ c.Partitioned s.groups := by
  rintro ⟨hnodup, -⟩
  obtain ⟨u, -, hcount⟩ := h
  have hone := nodup_iff_count_le_one.mp hnodup u
  omega

lemma Traced.partitioned_iff (h : Traced c w) :
    c.Partitioned (assignLeftovers c (assignDetectors c o (w.state, w.available))).groups ↔
      ∀ us ∈ w.history, WorkersLast c us := by
  refine ⟨fun hp => ?_, fun hall => ?_⟩
  · by_contra hbad
    push Not at hbad
    exact (pushes_keep Doubled.push (h.doubled hbad)).not_partitioned hp
  · obtain ⟨hperm, hlen⟩ := content_sendDetectors (c := c) (o := o)
      (o.sort (range w.state.groups.length)) (w.state, w.available)
    have hne : (assignDetectors c o (w.state, w.available)).1.groups ≠ [] := by
      refine ne_nil_of_length_pos ?_
      rw [assignDetectors, hlen, h.length]
      exact length_pos_of_ne_nil c.groups_ne
    exact (stored_assignLeftovers hne ((h.stored hall).perm hperm)).partitioned

/-- **When the assignment is a partition**, for each scene, list of previous tasks and outcome: the
workers of every group that puts something back stand behind its other units before the visit. -/
theorem partition_iff (c : Scene P U) (o : Outcomes U) (tasks : List P) (obj : P → TacticsTask U) :
    ∃ s d r, Returns (assignUnitsBasedOnPreviousAssignments c tasks obj) s ∧
      Returns (recruiting c o (assignScoutingUnits c (collectAvailableUnits c o s.1))) d ∧
      Returns (assignUnits c o tasks obj) r ∧
      (c.Partitioned r.1 ↔ ∀ us ∈ d.history, WorkersLast c us) := by
  have hprevious : Computes (assignUnitsBasedOnPreviousAssignments c tasks obj) _ :=
    computes_previous
  obtain ⟨s, hs, m, hm, rfl⟩ := hprevious
  obtain ⟨d, hd, htraced⟩ :=
    (hm.taken.collected (o := o)).assignScoutingUnits.computes_traced (o := o)
  refine ⟨_, d, _, hs, hd, hs.bind (Returns.bind (hd.bind (returns_const.mpr rfl))
    (returns_const.mpr rfl)), htraced.partitioned_iff⟩

def hopeless : Outcomes U where
  winRatio := fun _ _ _ => false
  score := fun _ _ => none

def raid : Scene ℕ ℕ where
  unit := fun u => if u = 1 then { isWorker := true } else { kind := .Zerg_Zergling }
  myUnits := [1, 2]
  groups := [{ targetPos := (1, 0), isScoutGroup := true }]
  nodup := by decide
  own := by decide
  groups_ne := List.cons_ne_nil _ _
  fresh := fun g hg => by
    rw [List.mem_singleton.mp hg]
    exact ⟨rfl, rfl⟩

/-- the group takes both units from its previous task and ends with the Zergling twice -/
theorem zergling_twice : ∃ r, Returns (assignUnits raid hopeless [0]
      fun _ => { myUnits := [1, 2], targetPos := (1, 0) }) r ∧
    r.1.map myUnits = [[2, 2]] ∧ ¬ raid.Partitioned r.1 := by
  have hrun : (assignUnits raid hopeless [0]
      (fun _ => { myUnits := [1, 2], targetPos := (1, 0) }) 3).bind
      (fun r => .ret (r.1.map myUnits)) = .ret [[2, 2]] := by
    decide +kernel
  obtain ⟨r, hr, hunits⟩ := Run.bind_eq_ret.mp hrun
  have hmap : r.1.map myUnits = [[2, 2]] := Run.ret.inj hunits
  refine ⟨r, stable_assignUnits.returns hr, hmap, fun hpart => ?_⟩
  have hnodup := hpart.1
  rw [held, flatMap_def, hmap] at hnodup
  exact absurd hnodup (by decide)

end TorchCraft.Tactics
