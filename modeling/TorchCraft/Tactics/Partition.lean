import TorchCraft.Tactics.Matching

/-!
# What the phases of `assignUnits` do with the units

Between the phases every unit of ours that has to be assigned is in a group or available, and no
unit is there twice (`Stored`).  Each phase moves units from the available ones to a group; only the
recruiting takes units out of a group, the workers, and may put them back.
-/

set_option linter.unusedSectionVars false

namespace TorchCraft.Tactics
open Lib Utils List

variable {P M U : Type} [DecidableEq P] [DecidableEq M] [DecidableEq U] {c : Scene P U}
  {o : Outcomes U} {tasks : List P} {obj : P → TacticsTask U} {g : TacticsGroup P U}
  {us done : List U} {j : Nat} {w w' : Pool P U} {u : U}

namespace TacticsGroup

def core (g : TacticsGroup P U) : TacticsGroup P U := { g with myUnits := [], hasEnoughUnits := false }

end TacticsGroup

namespace Scene
variable (c : Scene P U)

structure Eligible (u : U) : Prop where
  active : (c.unit u).active = true
  mobile : (c.unit u).isBuilding = false
  usable : (c.unit u).isNonUsable = false
  fighter : (c.unit u).isWorker = false
  noOverlord : (c.unit u).kind ≠ .Zerg_Overlord
  free : isReserved c u = false

/-- **No unit is in the groups twice, and every unit that has to be assigned is in exactly one.** -/
def Partitioned (gs : List (TacticsGroup P U)) : Prop :=
  (held gs).Nodup ∧
    ∀ u ∈ c.myUnits, c.Eligible u → ∃! j : Nat, ∃ g, gs[j]? = some g ∧ u ∈ g.myUnits

/-- a list without repetition that has all units that have to be assigned -/
structure Stored (l : List U) : Prop where
  nodup : l.Nodup
  all : ∀ u ∈ c.myUnits, c.Eligible u → u ∈ l

variable {c}

lemma Stored.perm {l l' : List U} (h : c.Stored l) (hp : l'.Perm l) : c.Stored l' :=
  ⟨hp.nodup_iff.mpr h.nodup, fun u hu he => hp.mem_iff.mpr (h.all u hu he)⟩

lemma Stored.of_count {l l' : List U} (h : c.Stored l) (hle : ∀ u, l'.count u ≤ l.count u)
    (hge : ∀ u, c.Eligible u → l.count u ≤ l'.count u) : c.Stored l' := by
  refine ⟨nodup_iff_count_le_one.mpr fun u => ?_, fun u hu he => ?_⟩
  · exact (hle u).trans (nodup_iff_count_le_one.mp h.nodup u)
  · exact count_pos_iff.mp ((count_pos_iff.mpr (h.all u hu he)).trans_le (hge u he))

lemma Stored.partitioned {gs : List (TacticsGroup P U)} (h : c.Stored (held gs)) :
    c.Partitioned gs :=
  ⟨h.nodup, fun u hu he => Buckets.existsUnique_of_nodup h.nodup (h.all u hu he)⟩

end Scene

abbrev content (w : Pool P U) : List U := held w.1.groups ++ w.2

section

/-! ## the units on the ground of the groups -/

/-- the units of `done` had their turn -/
structure Collecting (c : Scene P U) (done : List U) (w : Pool P U) : Prop where
  length : w.1.groups.length = c.groups.length
  nodup : (content w).Nodup
  hard : ∀ u, w.1.hardAssignedUnits u = true → u ∈ content w
  source : ∀ u ∈ content w, w.1.hardAssignedUnits u = true ∨ u ∈ done
  all : ∀ u ∈ done, c.Eligible u → u ∈ content w

namespace Collecting

section
variable (h : Collecting c done w)
include h

lemma skip (hu : c.Eligible u → u ∈ content w) : Collecting c (done ++ [u]) w := by
  refine ⟨h.length, h.nodup, h.hard, fun v hv => ?_,
    forall_mem_append.mpr ⟨h.all, forall_mem_singleton.mpr hu⟩⟩
  exact (h.source v hv).imp_right (mem_append_left _)

section
variable (hdone : u ∉ done)
include hdone

lemma add
    (hfree : w.1.hardAssignedUnits u = false) (hcontent : (content w').Perm (u :: content w))
    (hhard : w'.1.hardAssignedUnits = w.1.hardAssignedUnits)
    (hlength : w'.1.groups.length = c.groups.length) :
    Collecting c (done ++ [u]) w' := by
  have hnew : u ∉ content w := fun hu => by
    rcases h.source u hu with hh | hd
    · rw [hfree] at hh
      cases hh
    · exact hdone hd
  refine ⟨hlength, hcontent.nodup_iff.mpr (nodup_cons.mpr ⟨hnew, h.nodup⟩), ?_, ?_, ?_⟩
  · intro v hv
    rw [hhard] at hv
    exact hcontent.mem_iff.mpr (mem_cons_of_mem _ (h.hard v hv))
  · intro v hv
    rw [hhard]
    rcases mem_cons.mp (hcontent.mem_iff.mp hv) with rfl | hv
    · exact .inr (mem_append_right _ (mem_singleton.mpr rfl))
    · exact (h.source v hv).imp_right (mem_append_left _)
  · intro v hv he
    rw [hcontent.mem_iff]
    rcases mem_append.mp hv with hv | hv
    · exact mem_cons_of_mem _ (h.all v hv he)
    · rw [mem_singleton.mp hv]
      exact mem_cons_self ..

lemma offer (hfree : w.1.hardAssignedUnits u = false) :
    Collecting c (done ++ [u]) (w.1, w.2 ++ [u]) := by
  refine h.add hdone hfree ?_ rfl h.length
  show (held w.1.groups ++ (w.2 ++ [u])).Perm _
  rw [← append_assoc]
  exact perm_append_singleton ..

lemma join (hfree : w.1.hardAssignedUnits u = false) {i : Nat} (hg : w.1.groups[i]? = some g)
    (enough : TacticsGroup P U → Bool) :
    Collecting c (done ++ [u])
      (w.1.onGroup i fun g => { g with myUnits := g.myUnits ++ [u], hasEnoughUnits := enough g },
        w.2) :=
  h.add hdone hfree ((held_grow _ [u] hg rfl).append_right w.2) rfl
    ((length_modify ..).trans h.length)

lemma collect : Collecting c (done ++ [u]) (collect c o w u) := by
  unfold Tactics.collect
  dsimp only
  split
  next hoff =>
    refine h.skip fun he => ?_
    rw [he.active, he.mobile] at hoff
    cases hoff
  · split
    next hoff =>
      refine h.skip fun he => ?_
      rw [he.usable] at hoff
      cases hoff
    · split
      next hhard => exact h.skip fun _ => h.hard u hhard
      next hhard =>
        have hfree : w.1.hardAssignedUnits u = false := Bool.not_eq_true _ ▸ hhard
        split
        next hres =>
          refine h.skip fun he => ?_
          rw [he.free] at hres
          cases hres
        · have hworker : (c.unit u).isWorker → Collecting c (done ++ [u]) w := by
            intro hw
            refine h.skip fun he => ?_
            rw [he.fighter] at hw
            cases hw
          split
          next j g hj =>
            split
            · obtain ⟨i, -, hi⟩ := Option.bind_eq_some_iff.mp hj
              obtain ⟨g', hg, hpair⟩ := Option.map_eq_some_iff.mp hi
              cases hpair
              exact h.join hdone hfree hg fun g => o.winRatio (g.myUnits ++ [u]) g.enemyUnits 4
            · split
              next hw => exact hworker hw
              · exact h.offer hdone hfree
          · split
            next hw => exact hworker hw
            · exact h.offer hdone hfree

end

end

end Collecting

/-- what holds between the phases -/
structure Collected (c : Scene P U) (w : Pool P U) : Prop where
  length : w.1.groups.length = c.groups.length
  stored : c.Stored (content w)

lemma Taken.collected {s : TacticsState P U} (h : Taken c s) :
    Collected c (collectAvailableUnits c o s) := by
  have hstart : Collecting c [] ((s, []) : Pool P U) := by
    refine ⟨h.length, ?_, ?_, ?_, nofun⟩
    · show (held s.groups ++ []).Nodup
      rw [append_nil]
      exact h.nodup
    · exact fun u hu => mem_append_left _ ((h.hard u).mp hu)
    · intro u hu
      exact .inl ((h.hard u).mpr ((mem_append.mp hu).resolve_right not_mem_nil))
  have hall : ∀ l done (w : Pool P U), c.myUnits = done ++ l → Collecting c done w →
      Collecting c c.myUnits (l.foldl (collect c o) w) := by
    intro l
    induction l with
    | nil =>
      intro done w hl hw
      rw [hl, append_nil]
      exact hw
    | cons u l ih =>
      intro done w hl hw
      have hnodup := hl ▸ c.nodup
      have hdone : u ∉ done := fun e =>
        (disjoint_of_nodup_append hnodup) e (mem_cons_self ..)
      exact ih (done ++ [u]) _ (by rw [hl, append_assoc]; rfl) (hw.collect hdone)
  have hend := hall c.myUnits [] (s, []) rfl hstart
  exact ⟨hend.length, hend.nodup, hend.all⟩

/-! ## scouts -/

lemma takeScouts_spec (n : Nat) (us mine : List U) :
    ∃ taken, (takeScouts c n us mine).2 = mine ++ taken ∧
      us.Perm (taken ++ (takeScouts c n us mine).1) := by
  induction us generalizing mine with
  | nil => exact ⟨[], (append_nil mine).symm, List.Perm.refl _⟩
  | cons u us ih =>
    unfold takeScouts
    split
    · split
      · exact ⟨[u], rfl, List.Perm.refl _⟩
      · obtain ⟨taken, h2, hperm⟩ := ih (mine ++ [u])
        exact ⟨u :: taken, by rw [h2, append_assoc]; rfl, hperm.cons u⟩
    · obtain ⟨taken, h2, hperm⟩ := ih mine
      exact ⟨taken, h2, (hperm.cons u).trans perm_middle.symm⟩

lemma Collected.scoutGroup {w : Pool P U} (h : Collected c w) (j : Nat) :
    Collected c (scoutGroup c w j) := by
  unfold Tactics.scoutGroup
  split
  · exact h
  next g hg =>
    split
    · obtain ⟨taken, hmine, hperm⟩ := takeScouts_spec (c := c) (nScouts c) w.2 g.myUnits
      have hgrow := held_grow
        (fun g' => { g' with myUnits := (takeScouts c (nScouts c) w.2 g.myUnits).2 }) taken hg hmine
      refine ⟨(length_modify ..).trans h.length, h.stored.perm ((hgrow.append_right _).trans ?_)⟩
      rw [append_assoc]
      exact (perm_append_comm_assoc ..).trans (hperm.symm.append_left _)
    · exact h

lemma Collected.assignScoutingUnits {w : Pool P U} (h : Collected c w) :
    Collected c (assignScoutingUnits c w) :=
  List.foldlRecOn (motive := Collected c) _ _ h fun _ hw j _ => hw.scoutGroup j

/-! ## recruiting -/

abbrev isWorker (c : Scene P U) (u : U) : Bool := (c.unit u).isWorker

/-- what is put back behind the recruits of a group that is not strong enough -/
def putBack (c : Scene P U) (g : TacticsGroup P U) : List U :=
  if g.enemyIsOnlyWorkers then (removeIf (isWorker c) g.myUnits).2 else []

/-- a visit of the group `g` at `j`, which recruits `us` -/
structure Visited (c : Scene P U) (j : Nat) (g : TacticsGroup P U) (us : List U) (enough : Bool)
    (w w' : Drive P U) : Prop where
  group : w.state.groups[j]? = some g
  state : w'.state = w.state.onGroup j fun g' =>
    { g' with
      myUnits := (removeIf (isWorker c) g.myUnits).1 ++ us ++ if enough then [] else putBack c g
      hasEnoughUnits := enough }
  recruits : w.available.Perm (us ++ w'.available)
  any : w'.assignedAnything = true → w.assignedAnything = true ∨ us ≠ []
  history : w'.history = if g.enemyIsOnlyWorkers && !enough then g.myUnits :: w.history else w.history

structure Recruited (r : Recruiting U) (us : List U) (r' : Recruiting U) : Prop where
  mine : r'.mine = r.mine ++ us
  recruits : r.available.Perm (us ++ r'.available)
  any : r'.assignedAnything = true → r.assignedAnything = true ∨ us ≠ []

lemma Recruited.more {r r' : Recruiting U} (h : Recruited r us r') {p : Nat × U}
    (hp : r'.available[p.1]? = some p.2) (enough : Bool) :
    Recruited r (us ++ [p.2]) ⟨swapPop r'.available p.1, r'.mine ++ [p.2], enough, true⟩ := by
  refine ⟨?_, h.recruits.trans ?_, fun _ => .inr ?_⟩
  · show r'.mine ++ [p.2] = _
    rw [h.mine, append_assoc]
  · rw [append_assoc]
    exact (perm_swapPop hp).append_left us
  · exact append_ne_nil_of_right_ne_nil _ (cons_ne_nil _ _)

lemma computes_recruit (j : Nat) (g : TacticsGroup P U) (r : Recruiting U) :
    Computes (loop (recruitOne o j g) r) fun r' => ∃ us, Recruited r us r' := by
  refine computes_loop (fun r' => ∃ us, Recruited r us r') (fun r' => r'.available.length)
    (fun r' hr' => ?_) ⟨[], (append_nil _).symm, List.Perm.refl _, Or.inl⟩
  refine ⟨_, returns_const.mpr rfl, ?_⟩
  split
  · exact hr'
  · split
    · exact hr'
    next i u hbest =>
      obtain ⟨us, hus⟩ := hr'
      have hmem := (getBestScorePointer_spec hbest).1
      have hlen : (swapPop r'.available i).length < r'.available.length := by
        rw [(perm_swapPop hmem).length_eq]
        exact Nat.lt_succ_self _
      dsimp only
      split
      · exact ⟨_, hus.more hmem true⟩
      · split
        · exact ⟨_, hus.more hmem _⟩
        · exact ⟨⟨_, hus.more hmem _⟩, hlen⟩

def HadTurn (c : Scene P U) (j : Nat) (w w' : Drive P U) : Prop :=
  w' = w ∨ ∃ g us enough, Visited c j g us enough w w'

variable (first : Bool) {w w' : Drive P U} {gs : List (TacticsGroup P U)}

lemma computes_visitGroup (w : Drive P U) (j : Nat) :
    Computes (visitGroup c o first w j) (HadTurn c j w) := by
  rcases Option.eq_none_or_eq_some w.state.groups[j]? with hg | ⟨g, hg⟩
  · have hv : visitGroup c o first w j = fun _ => .ret w := funext fun n => by rw [visitGroup, hg]
    rw [hv]
    exact computes_ret (Or.inl rfl)
  · cases hskip : g.hasEnoughUnits || (first && g.isAggressiveGroup) with
    | true =>
      have hv : visitGroup c o first w j = fun _ => .ret w := funext fun n => by
        rw [visitGroup, hg]
        exact if_pos hskip
      rw [hv]
      exact computes_ret (Or.inl rfl)
    | false =>
      have hv : visitGroup c o first w j = fun n =>
          (loop (recruitOne o j g)
            ⟨w.available, (removeIf (isWorker c) g.myUnits).1, false, w.assignedAnything⟩ n).bind
              fun r => .ret
                { state := w.state.onGroup j fun g' =>
                    { g' with
                      myUnits := if r.hasEnoughUnits then r.mine else r.mine ++ putBack c g
                      hasEnoughUnits := r.hasEnoughUnits }
                  available := r.available
                  assignedAnything := r.assignedAnything
                  history := if g.enemyIsOnlyWorkers && !r.hasEnoughUnits then
                    g.myUnits :: w.history else w.history } := funext fun n => by
        rw [visitGroup, hg]
        exact if_neg (by simp [hskip])
      rw [hv]
      refine (computes_recruit j g _).bind fun r hr => computes_ret (.inr ?_)
      obtain ⟨us, hus⟩ := hr
      refine ⟨g, us, r.hasEnoughUnits, hg, ?_, hus.recruits, hus.any, rfl⟩
      show w.state.onGroup j _ = w.state.onGroup j _
      rw [hus.mine]
      cases r.hasEnoughUnits with
      | true =>
        rw [if_pos rfl, if_pos rfl, append_nil]
      | false => rfl

lemma Visited.perm_held {enough : Bool} (hv : Visited c j g us enough w w') :
    ∃ rest, (held w.state.groups).Perm (g.myUnits ++ rest) ∧ (held w'.state.groups).Perm
      ((removeIf (isWorker c) g.myUnits).1 ++ us ++ (if enough then [] else putBack c g) ++ rest) := by
  obtain ⟨rest, hold, hnew⟩ := Buckets.perm_modify TacticsGroup.myUnits hv.group
  rw [hv.state]
  exact ⟨rest, hold, hnew _⟩

/-- **The balance of a visit**: the workers leave the group, and something is put back. -/
theorem Visited.count {enough : Bool} (hv : Visited c j g us enough w w') (u : U) :
    (content (w'.state, w'.available)).count u + (g.myUnits.filter (isWorker c)).count u =
      (content (w.state, w.available)).count u + (if enough then [] else putBack c g).count u := by
  obtain ⟨rest, hold, hnew⟩ := hv.perm_held
  have hsplit : g.myUnits.count u =
      (g.myUnits.filter (isWorker c)).count u + (removeIf (isWorker c) g.myUnits).1.count u := by
    have hperm : (g.myUnits.filter (isWorker c) ++ g.myUnits.filter fun u => !isWorker c u).Perm
        g.myUnits := filter_append_perm ..
    rw [← hperm.count_eq u, count_append]
    rfl
  have h1 := hnew.count_eq u
  have h2 := hold.count_eq u
  have h3 := hv.recruits.count_eq u
  simp only [count_append] at h1 h2 h3 ⊢
  omega

lemma HadTurn.length (h : HadTurn c j w w') :
    w'.state.groups.length = w.state.groups.length := by
  rcases h with rfl | ⟨g, us, enough, hv⟩
  · rfl
  · rw [hv.state]
    exact length_modify ..

section
variable {K : Drive P U → Prop} (hflag : ∀ w b, K w → K { w with assignedAnything := b })
  (hK : ∀ j (w w' : Drive P U), HadTurn c j w w' → K w → K w')
include hflag hK

/-- **One round of the recruiting**; it goes on only if units were recruited. -/
theorem computes_recruitRound (hw : K w) : Computes (recruitRound c o first w) (Sum.elim
    (fun w' => K w' ∧ w'.available.length < w.available.length) K) := by
  refine (computes_forEach
    (fun _ w' => K w' ∧ w'.available.length ≤ w.available.length ∧
      (w'.assignedAnything → w'.available.length < w.available.length))
    (fun _ j _ w₁ _ h₁ => ?_) ⟨hflag w false hw, Nat.le_refl _, fun h => Bool.noConfusion h⟩).bind
      fun w' hw' => computes_ret ?_
  · obtain ⟨hI, hle, hany⟩ := h₁
    refine (computes_visitGroup first w₁ j).mono fun w₂ h₂ => ?_
    refine ⟨hK j w₁ w₂ h₂ hI, ?_⟩
    rcases h₂ with rfl | ⟨g, us, enough, hv⟩
    · exact ⟨hle, hany⟩
    · have hlen := hv.recruits.length_eq
      rw [length_append] at hlen
      refine ⟨by omega, fun h => ?_⟩
      rcases hv.any h with h | hne
      · have := hany h
        omega
      · have := length_pos_of_ne_nil hne
        omega
  · split
    next h => exact ⟨hw'.1, hw'.2.2 h⟩
    · exact hw'.1

/-- **The recruiting terminates, and what every turn keeps it keeps.** -/
theorem computes_recruiting {w : Pool P U} (hw : K ⟨w.1, w.2, false, []⟩) :
    Computes (recruiting c o w) K := by
  have hloop : ∀ (first : Bool) (w : Drive P U), K w → Computes (loop (recruitRound c o first) w) K :=
    fun first w hw => computes_loop K (fun w' => w'.available.length)
      (fun _ h => computes_recruitRound first hflag hK h) hw
  exact (hloop true _ hw).bind fun w₁ h₁ => hloop false w₁ h₁

end

/-! ## detectors and leftovers -/

lemma length_push (s : TacticsState P U) (j : Nat) (u : U) :
    (s.push j u).groups.length = s.groups.length := length_modify ..

/-- **Detectors move from the available units to a group.** -/
theorem content_sendDetectors (js : List Nat) (w : Pool P U) :
    (content (sendDetectors c o js w)).Perm (content w) ∧
      (sendDetectors c o js w).1.groups.length = w.1.groups.length := by
  induction js generalizing w with
  | nil => exact ⟨List.Perm.refl _, rfl⟩
  | cons j js ih =>
    unfold sendDetectors
    split
    · exact ih w
    next g hg =>
      split
      · exact ih w
      · split
        · exact ih w
        · split
          · exact ⟨List.Perm.refl _, rfl⟩
          next i u hbest =>
            obtain ⟨hperm, hlen⟩ := ih (w.1.push j u, swapPop w.2 i)
            refine ⟨hperm.trans ?_, hlen.trans (length_push ..)⟩
            have hj := (List.getElem?_eq_some_iff.mp hg).1
            refine ((held_push hj u).append_right _).trans (perm_middle.symm.trans ?_)
            exact (perm_swapPop (getBestScorePointer_spec hbest).1).symm.append_left _

lemma firstGroup_lt (p : TacticsGroup P U → Bool) (gs : List (TacticsGroup P U)) {d : Nat}
    (hd : d < gs.length) : firstGroup p gs d < gs.length := by
  unfold firstGroup
  cases hf : gs.findIdx? p with
  | none => exact hd
  | some i => exact (findIdx?_eq_some_iff_getElem.mp hf).1

lemma leftoverGroup_lt (hgs : gs ≠ []) (u : UnitData) : leftoverGroup c gs u < gs.length := by
  have hpos := length_pos_of_ne_nil hgs
  unfold leftoverGroup
  split
  · split <;> exact firstGroup_lt _ gs hpos
  · split <;> exact firstGroup_lt _ gs (Nat.sub_lt hpos Nat.one_pos)

lemma stored_placeLeftover {w : TacticsState P U × Int} (hgs : gs ≠ [])
    (hlen : w.1.groups.length = gs.length) {u : U} (h : c.Stored (held w.1.groups ++ u :: us)) :
    c.Stored (held (placeLeftover c gs w u).1.groups ++ us) ∧
      (placeLeftover c gs w u).1.groups.length = gs.length := by
  have hplaced : ∀ n : Int, c.Stored (held ((w.1.push (leftoverGroup c gs (c.unit u)) u, n) :
        TacticsState P U × Int).1.groups ++ us) ∧
      ((w.1.push (leftoverGroup c gs (c.unit u)) u, n) : TacticsState P U × Int).1.groups.length =
        gs.length := by
    intro n
    have hj := leftoverGroup_lt (c := c) hgs (c.unit u)
    rw [← hlen] at hj
    refine ⟨h.perm ?_, (length_push ..).trans hlen⟩
    exact ((held_push hj u).append_right us).trans perm_middle.symm
  have hdropped : ¬ c.Eligible u → c.Stored (held w.1.groups ++ us) := by
    intro hne
    refine h.of_count (fun v => ?_) (fun v he => ?_)
    · rw [count_append, count_append, count_cons]
      omega
    · have hv : u ≠ v := by
        rintro rfl
        exact hne he
      rw [count_append, count_append, count_cons_of_ne hv]
  unfold placeLeftover
  dsimp only
  split
  next hw =>
    refine ⟨hdropped fun he => ?_, hlen⟩
    rw [he.fighter] at hw
    cases hw
  · split
    · exact hplaced w.2
    next hkind =>
      split
      · exact hplaced (w.2 - 1)
      · exact ⟨hdropped fun he => hkind he.noOverlord, hlen⟩

/-- **In the end all units that have to be assigned are in groups.** -/
theorem stored_assignLeftovers {w : Pool P U} (hne : w.1.groups ≠ []) (h : c.Stored (content w)) :
    c.Stored (held (assignLeftovers c w).groups) := by
  have hall : ∀ (us : List U) (v : TacticsState P U × Int), v.1.groups.length = w.1.groups.length →
      c.Stored (held v.1.groups ++ us) →
        c.Stored (held (us.foldl (placeLeftover c w.1.groups) v).1.groups) := by
    intro us
    induction us with
    | nil =>
      intro v _ hv
      rwa [append_nil] at hv
    | cons u us ih =>
      intro v hlen hv
      obtain ⟨hv', hlen'⟩ := stored_placeLeftover hne hlen hv
      exact ih _ hlen' hv'
  unfold assignLeftovers
  rw [if_neg (fun e => hne (List.isEmpty_iff.mp e))]
  exact hall w.2.reverse _ rfl (h.perm ((reverse_perm w.2).append_left _))

/-- **The last phases only push units into groups.** -/
theorem pushes_keep {I : TacticsState P U → Prop} (hpush : ∀ s i v, I s → I (s.push i v))
    {w : Pool P U} (h : I w.1) : I (assignLeftovers c (assignDetectors c o w)) := by
  have hsend : ∀ js (w : Pool P U), I w.1 → I (sendDetectors c o js w).1 := by
    intro js
    induction js with
    | nil => exact fun _ h => h
    | cons j js ih =>
      intro w h
      unfold sendDetectors
      split
      · exact ih w h
      · split
        · exact ih w h
        · split
          · exact ih w h
          · split
            · exact h
            · exact ih _ (hpush _ j _ h)
  unfold assignLeftovers
  split
  · exact hsend _ w h
  · refine foldlRecOn (motive := fun v : TacticsState P U × Int => I v.1) _ _ (hsend _ w h)
      fun v hv u _ => ?_
    unfold placeLeftover
    dsimp only
    split
    · exact hv
    · split
      · exact hpush _ _ _ hv
      · split
        · exact hpush _ _ _ hv
        · exact hv

/-! ## more fuel -/

lemma stable_visitGroup (w : Drive P U) (j : Nat) : Stable (visitGroup c o first w j) := by
  unfold visitGroup
  split
  · exact stable_const _
  · split
    · exact stable_const _
    · exact (stable_loop (fun _ => stable_const _) _).bind fun _ => stable_const _

lemma stable_assignUnits : Stable (assignUnits c o tasks obj) := by
  have hmatch : ∀ first (m : Matching P U), Stable (loop (matchOne c tasks obj first) m) :=
    fun _ => stable_loop fun _ => stable_const _
  have hround : ∀ first (w : Drive P U), Stable (loop (recruitRound c o first) w) :=
    fun first => stable_loop fun w =>
      (stable_forEach (stable_visitGroup first) _ _).bind fun _ => stable_const _
  refine Stable.bind ((hmatch true _).bind fun m => (hmatch false m).bind fun _ => stable_const _)
    fun r => Stable.bind ?_ fun _ => stable_const _
  exact ((hround true _).bind fun d => hround false d).bind fun _ => stable_const _

end
end TorchCraft.Tactics
