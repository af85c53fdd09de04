import TorchCraft.Lib.Buckets
import TorchCraft.Tactics.Model

/-!
# Matching previous tasks with the new groups

`Matched` is what holds after any number of rounds of the matching.  It has two parts:

* `search_spec`  the pair that a round finds;
* `Taken.take`, `Paired.take`  one round.
-/

set_option linter.unusedSectionVars false

namespace TorchCraft.Tactics
open Lib List Function
open TacticsGroup

variable {P M U : Type} [DecidableEq P] [DecidableEq M] [DecidableEq U]

namespace TacticsGroup

def outline (g : TacticsGroup P U) : TacticsGroup P U := { g with myUnits := [] }

/-- what the matching does not change -/
def flags (g : TacticsGroup P U) : TacticsGroup P U := { g.outline with task := none }

end TacticsGroup

abbrev held (gs : List (TacticsGroup P U)) : List U := gs.flatMap TacticsGroup.myUnits

section
variable {c : Scene P U} {tasks : List P} {obj : P → TacticsTask U}

/-! ## one search -/

/-- the pair may be matched -/
structure Found (obj : P → TacticsTask U) (tasks : List P) (first : Bool) (m : Matching P U)
    (b : Pair P) : Prop where
  mem : b.2.2 ∈ tasks
  freeTask : b.2.2 ∉ m.taskTaken
  freeGroup : b.2.1 ∉ m.groupTaken
  near : ∃ g, m.state.groups[b.2.1]? = some g ∧ b.1 = matchDistance g (obj b.2.2) ∧ b.1 < 4 * 16

variable {m : Matching P U}

lemma search_spec {first : Bool} {b : Pair P} (h : search tasks obj first m = some b) :
    Found obj tasks first m b := by
  have hall : ∀ b, search tasks obj first m = some b → Found obj tasks first m b := by
    refine foldlRecOn (motive := fun best => ∀ b, best = some b → Found obj tasks first m b)
      tasks _ nofun fun best hbest p hp => ?_
    unfold considerTask
    split
    · exact hbest
    next hfree =>
      refine foldlRecOn (motive := fun best => ∀ b, best = some b → Found obj tasks first m b)
        m.state.groups.zipIdx _ hbest fun best hbest e he => ?_
      unfold consider
      split
      · exact hbest
      · split
        · exact hbest
        next hgroup =>
          dsimp only
          split
          next hd =>
            intro b hb
            cases hb
            have hg := mem_zipIdx_iff_getElem?.mp he
            exact ⟨hp, fun e => hfree (contains_iff_mem.mpr e),
              fun e => hgroup (contains_iff_mem.mpr e),
              e.1, hg, rfl, of_decide_eq_true (Bool.and_eq_true_iff.mp hd).1⟩
          · exact hbest
  exact hall b h

/-! ## the invariant -/

/-- the units that the groups have got so far -/
structure Taken (c : Scene P U) (s : TacticsState P U) : Prop where
  flags : s.groups.map flags = c.groups.map flags
  nodup : (held s.groups).Nodup
  hard : ∀ u, s.hardAssignedUnits u = true ↔ u ∈ held s.groups
  soft : ∀ u ∈ held s.groups, (s.softAssignedUnits u).isSome

/-- the tasks that the groups have got so far -/
structure Paired (obj : P → TacticsTask U) (tasks : List P) (m : Matching P U) : Prop where
  nodup : m.groupTaken.Nodup
  lt : ∀ j ∈ m.groupTaken, j < m.state.groups.length
  task : ∀ (j : Nat) (g : TacticsGroup P U) (p : P), m.state.groups[j]? = some g →
    g.task = some p →
      j ∈ m.groupTaken ∧ p ∈ m.taskTaken ∧ p ∈ tasks ∧ matchDistance g (obj p) < 4 * 16
  distinct : ∀ (j k : Nat) (g g' : TacticsGroup P U) (p : P), m.state.groups[j]? = some g →
    m.state.groups[k]? = some g' → g.task = some p → g'.task = some p → j = k

structure Matched (c : Scene P U) (tasks : List P) (obj : P → TacticsTask U) (m : Matching P U) :
    Prop where
  taken : Taken c m.state
  paired : Paired obj tasks m

/-! ## one round -/

lemma held_modify {f : TacticsGroup P U → TacticsGroup P U}
    (hf : ∀ g, (f g).myUnits = g.myUnits) (gs : List (TacticsGroup P U)) (j : Nat) :
    held (gs.modify j f) = held gs := by
  rw [held, held, flatMap_def, flatMap_def, Buckets.map_modify _ hf]

lemma held_grow {gs : List (TacticsGroup P U)} {j : Nat} {g : TacticsGroup P U}
    (f : TacticsGroup P U → TacticsGroup P U) (us : List U) (hg : gs[j]? = some g)
    (hf : (f g).myUnits = g.myUnits ++ us) : (held (gs.modify j f)).Perm (us ++ held gs) := by
  obtain ⟨rest, hold, hnew⟩ := Buckets.perm_modify myUnits hg
  refine (hnew f).trans ?_
  rw [hf, append_assoc]
  exact (perm_append_comm_assoc ..).trans (hold.symm.append_left us)

variable {s : TacticsState P U}

lemma held_push {j : Nat} (hj : j < s.groups.length) (u : U) :
    (held (s.push j u).groups).Perm (u :: held s.groups) :=
  held_grow (fun g => { g with myUnits := g.myUnits ++ [u] }) [u] (List.getElem?_eq_getElem hj) rfl

lemma Taken.length (h : Taken c s) : s.groups.length = c.groups.length := by
  have hl := congrArg List.length h.flags
  rwa [length_map, length_map] at hl

lemma Taken.note (h : Taken c s) (j : Nat) (p : P) :
    Taken c (s.onGroup j fun g => { g with task := some p }) := by
  have hheld : held (s.groups.modify j fun g => { g with task := some p }) = held s.groups :=
    held_modify (by intro g; rfl) _ j
  refine ⟨(Buckets.map_modify _ (by intro g; rfl) _ j).trans h.flags, ?_, ?_, ?_⟩
  · show (held (s.groups.modify j _)).Nodup
    rw [hheld]
    exact h.nodup
  · intro u
    show _ ↔ u ∈ held (s.groups.modify j _)
    rw [hheld]
    exact h.hard u
  · intro u hu
    exact h.soft u (hheld ▸ hu)

lemma Taken.adopt (h : Taken c s) {j : Nat} (hj : j < c.groups.length) (b : Bool) (u : U) :
    Taken c (adopt c j b s u) := by
  unfold Tactics.adopt
  split
  · exact h
  · split
    · exact h
    next hsoft =>
      have hnew : u ∉ held s.groups := fun e => hsoft (h.soft u e)
      dsimp only
      split
      · have hperm := held_push (s := s) (h.length ▸ hj) u
        refine ⟨(Buckets.map_modify _ (by intro g; rfl) _ j).trans h.flags, ?_, ?_, ?_⟩
        · exact hperm.nodup_iff.mpr (nodup_cons.mpr ⟨hnew, h.nodup⟩)
        · intro v
          show update s.hardAssignedUnits u true v ↔ v ∈ held (s.push j u).groups
          rw [hperm.mem_iff, mem_cons, ← h.hard v]
          by_cases hv : v = u
          · rw [hv, update_self]
            exact ⟨fun _ => .inl rfl, fun _ => rfl⟩
          · rw [update_of_ne hv, or_iff_right hv]
        · intro v hv
          show (update s.softAssignedUnits u (some j) v).isSome
          by_cases he : v = u
          · rw [he, update_self]
            rfl
          · rw [update_of_ne he]
            exact h.soft v ((mem_cons.mp (hperm.mem_iff.mp hv)).resolve_left he)
      · refine ⟨h.flags, h.nodup, h.hard, fun v hv => ?_⟩
        show (update s.softAssignedUnits u (some j) v).isSome
        have hne : v ≠ u := by
          rintro rfl
          exact hnew hv
        rw [update_of_ne hne]
        exact h.soft v hv

lemma adopt_outline (j : Nat) (b : Bool) (s : TacticsState P U) (u : U) :
    (adopt c j b s u).groups.map TacticsGroup.outline = s.groups.map TacticsGroup.outline := by
  unfold adopt
  split
  · rfl
  · split
    · rfl
    · dsimp only
      split
      · exact Buckets.map_modify _ (by intro g; rfl) _ j
      · rfl

lemma take_outline (m : Matching P U) (j : Nat) (p : P) :
    (take c obj m j p).state.groups.map TacticsGroup.outline =
      (m.state.groups.modify j fun g => { g with task := some p }).map TacticsGroup.outline := by
  unfold take
  split
  · rfl
  · split
    · rfl
    · exact foldlRecOn
        (motive := fun s : TacticsState P U => s.groups.map outline =
          (m.state.groups.modify j fun g => { g with task := some p }).map outline)
        (obj p).myUnits _ rfl fun s hs u _ => (adopt_outline ..).trans hs

lemma Taken.take (h : Taken c m.state) (j : Nat) (p : P) : Taken c (take c obj m j p).state := by
  unfold Tactics.take
  split
  · exact h.note j p
  next g hg =>
    have hj : j < c.groups.length := h.length ▸ (List.getElem?_eq_some_iff.mp hg).1
    split
    · exact h.note j p
    · exact foldlRecOn (motive := Taken c) (obj p).myUnits _ (h.note j p)
        fun s hs u _ => hs.adopt hj g.isScoutGroup u

lemma getElem?_take {j k : Nat} {p : P} {g' : TacticsGroup P U}
    (h : (take c obj m j p).state.groups[k]? = some g') :
    ∃ g, m.state.groups[k]? = some g ∧ g'.flags = g.flags ∧
      g'.task = if j = k then some p else g.task := by
  have ho : ((take c obj m j p).state.groups.map outline)[k]? = _ :=
    congrArg (fun l => l[k]?) (take_outline m j p)
  simp only [getElem?_map, getElem?_modify, h] at ho
  cases hg : m.state.groups[k]? with
  | none =>
    rw [hg] at ho
    cases ho
  | some g =>
    rw [hg] at ho
    have ho := Option.some.inj ho
    refine ⟨g, rfl, ?_, ?_⟩
    · have hf := congrArg flags ho
      split at hf <;> exact hf
    · have ht := congrArg task ho
      split at ht
      next he => rw [if_pos he]; exact ht
      next he => rw [if_neg he]; exact ht

lemma matchDistance_congr {g g' : TacticsGroup P U} (h : g.flags = g'.flags) (t : TacticsTask U) :
    matchDistance g t = matchDistance g' t := by
  have ht : g.flags.targetPos = g'.flags.targetPos := by rw [h]
  have ha : g.flags.averagePos = g'.flags.averagePos := by rw [h]
  change g.targetPos = g'.targetPos at ht
  change g.averagePos = g'.averagePos at ha
  rw [matchDistance, matchDistance, ht, ha]

lemma Paired.take (h : Paired obj tasks m) {first : Bool} {b : Pair P}
    (hb : Found obj tasks first m b) : Paired obj tasks (take c obj m b.2.1 b.2.2) := by
  obtain ⟨g₁, hg₁, hd, hnear⟩ := hb.near
  have hlen : (Tactics.take c obj m b.2.1 b.2.2).state.groups.length = m.state.groups.length := by
    have ho : ((Tactics.take c obj m b.2.1 b.2.2).state.groups.map outline).length = _ :=
      congrArg List.length (take_outline m b.2.1 b.2.2)
    rwa [length_map, length_map, length_modify] at ho
  refine ⟨nodup_cons.mpr ⟨hb.freeGroup, h.nodup⟩, ?_, ?_, ?_⟩
  · rw [hlen]
    exact forall_mem_cons.mpr ⟨(List.getElem?_eq_some_iff.mp hg₁).1, h.lt⟩
  · intro j g p hg hp
    obtain ⟨g', hg', hflags, htask⟩ := getElem?_take hg
    rw [htask] at hp
    split at hp
    next he =>
      cases hp
      subst he
      cases hg₁.symm.trans hg'
      refine ⟨mem_cons_self .., mem_cons_self .., hb.mem, ?_⟩
      rw [matchDistance_congr hflags, ← hd]
      exact hnear
    · obtain ⟨h1, h2, h3, h4⟩ := h.task j g' p hg' hp
      refine ⟨mem_cons_of_mem _ h1, mem_cons_of_mem _ h2, h3, ?_⟩
      rw [matchDistance_congr hflags]
      exact h4
  · intro j k g g' p hg hg' hp hp'
    obtain ⟨e, he, -, htask⟩ := getElem?_take hg
    obtain ⟨e', he', -, htask'⟩ := getElem?_take hg'
    rw [htask] at hp
    rw [htask'] at hp'
    split at hp
    next hj =>
      split at hp'
      next hk => exact hj.symm.trans hk
      · -- a task that was taken before is not taken again
        have hfree := (h.task k e' p he' hp').2.1
        rw [← Option.some.inj hp] at hfree
        exact absurd hfree hb.freeTask
    · split at hp'
      · have hfree := (h.task j e p he hp).2.1
        rw [← Option.some.inj hp'] at hfree
        exact absurd hfree hb.freeTask
      · exact h.distinct j k e e' p he he' hp hp'

/-! ## both passes -/

lemma Paired.length_le (h : Paired obj tasks m) :
    m.groupTaken.length ≤ m.state.groups.length := by
  have hsub : m.groupTaken ⊆ range m.state.groups.length :=
    fun j hj => mem_range.mpr (h.lt j hj)
  have hle := (h.nodup.subperm hsub).length_le
  rwa [length_range] at hle

lemma computes_matching (first : Bool) (hm : Matched c tasks obj m) :
    Computes (loop (matchOne c tasks obj first) m) (Matched c tasks obj) := by
  refine computes_loop (Matched c tasks obj)
    (fun m => c.groups.length - m.groupTaken.length) (fun m hm => ?_) hm
  refine ⟨_, returns_const.mpr rfl, ?_⟩
  cases hs : search tasks obj first m with
  | none => exact hm
  | some b =>
    have hb := search_spec hs
    have hnext : Matched c tasks obj (take c obj m b.2.1 b.2.2) :=
      ⟨hm.taken.take b.2.1 b.2.2, hm.paired.take hb⟩
    refine ⟨hnext, ?_⟩
    have hlen := hnext.taken.length
    have hle := hnext.paired.length_le
    show c.groups.length - (m.groupTaken.length + 1) < c.groups.length - m.groupTaken.length
    change m.groupTaken.length + 1 ≤ _ at hle
    omega

lemma matched_start : Matched c tasks obj ⟨⟨c.groups, fun _ => none, fun _ => false⟩, [], []⟩ := by
  have hheld : held c.groups = [] := by
    rw [held, flatMap_eq_nil_iff]
    exact fun g hg => (c.fresh g hg).1
  have htask : ∀ (j : Nat) (g : TacticsGroup P U) (p : P), c.groups[j]? = some g → g.task ≠ some p := by
    intro j g p hg hp
    rw [(c.fresh g (mem_of_getElem? hg)).2] at hp
    cases hp
  refine ⟨⟨rfl, ?_, ?_, ?_⟩, ⟨nodup_nil, nofun, ?_, ?_⟩⟩
  · show (held c.groups).Nodup
    rw [hheld]
    exact nodup_nil
  · intro u
    show false ↔ u ∈ held c.groups
    rw [hheld]
    exact ⟨nofun, nofun⟩
  · intro u hu
    change u ∈ held c.groups at hu
    rw [hheld] at hu
    nomatch hu
  · exact fun j g p hg hp => absurd hp (htask j g p hg)
  · exact fun j _ g _ p hg _ hp _ => absurd hp (htask j g p hg)

/-- **The matching terminates**; the tasks that no group has are cancelled. -/
theorem computes_previous :
    Computes (assignUnitsBasedOnPreviousAssignments c tasks obj) fun r =>
      ∃ m, Matched c tasks obj m ∧ r = (m.state, tasks.filter fun p => !m.taskTaken.contains p) := by
  refine (computes_matching true matched_start).bind fun m hm => ?_
  exact (computes_matching false hm).bind fun m' hm' => computes_ret ⟨m', hm', rfl⟩

end
end TorchCraft.Tactics
