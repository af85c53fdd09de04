import Mathlib.Tactic.Ring
import TorchCraft.AutoBuild.Rounds

/-!
# Merging templars

An Archon is made of two templars.  `advance` takes the first idle one and, as the second, the first
other one, idle or not.  It keeps pointers to both and erases one after the other: when the first one
is gone the second pointer shows the record behind the one that was chosen, or the end of the vector.

With two records and the first one idle the second erase is at the end of the vector, which is
undefined; here it erases nothing.
-/

set_option linter.unusedSectionVars false

namespace TorchCraft.AutoBuild
open List Function

variable {T : Type} [DecidableEq T] {tt : TechTree T}

/-- what the type table says about the two kinds of Archons -/
structure Archons (tt : TechTree T) : Prop where
  race : ∀ t, isArchon tt t = true → (tt.info t).race = .protoss
  noAddon : ∀ t, isArchon tt t = true → (tt.info t).isAddon = false
  single : ∀ t, isArchon tt t = true → (tt.info t).isTwoUnitsInOneEgg = false
  plain : ∀ t, isArchon tt t = true → ∀ q ∈ (tt.info t).prerequisites, (tt.info q).isAddon = false
  templar : ∀ t b, isArchon tt t = true → (tt.info t).builder = some b →
    b ≠ tt.zergLarva ∧ (tt.info b).race = .protoss ∧ (tt.info b).isWorker = false ∧
      (tt.info b).isRefinery = false

/-! ## the records -/

section records
variable {frame : Int} {us us' : List (BuildStateUnit T)} {i j : Nat}

def IdleAt (frame : Int) (us : List (BuildStateUnit T)) (i : Nat) : Prop :=
  ∃ u, us[i]? = some u ∧ u.busyUntil ≤ frame

/-- two idle records are gone, the others are as they were, in their order -/
def MergesTwo (frame : Int) (us us' : List (BuildStateUnit T)) : Prop :=
  ∃ i j, i < j ∧ IdleAt frame us i ∧ IdleAt frame us j ∧ us' = (us.eraseIdx j).eraseIdx i

def idle (frame : Int) (u : BuildStateUnit T) : Bool := decide (u.busyUntil ≤ frame)

lemma idleAt_iff : IdleAt frame us i ↔ (us[i]?).any (idle frame) := by
  unfold IdleAt idle
  cases us[i]? with
  | none | some => simp

lemma countP_eraseIdx (p : BuildStateUnit T → Bool) (us : List (BuildStateUnit T)) (i : Nat) :
    (us.eraseIdx i).countP p + (if (us[i]?).any p then 1 else 0) = us.countP p := by
  by_cases hi : i < us.length
  · rw [← (getElem_cons_eraseIdx_perm hi).countP_eq p, countP_cons,
      getElem?_eq_getElem hi, Option.any_some]
  · rw [eraseIdx_of_length_le (not_lt.mp hi), getElem?_eq_none (not_lt.mp hi)]
    rfl

lemma MergesTwo.countP_eq (h : MergesTwo frame us us') :
    us'.countP (idle frame) + 2 = us.countP (idle frame) := by
  obtain ⟨i, j, hij, hi, hj, rfl⟩ := h
  have hfirst := countP_eraseIdx (idle frame) us j
  have hsecond := countP_eraseIdx (idle frame) (us.eraseIdx j) i
  rw [if_pos (idleAt_iff.mp hj)] at hfirst
  rw [getElem?_eraseIdx, if_pos hij, if_pos (idleAt_iff.mp hi)] at hsecond
  omega

/-- **What the two erases do**: two idle records go exactly if the first and the third one are
idle. -/
theorem mergesTwo_iff (hi : IdleAt frame us i) (hfirst : ∀ k < i, ¬IdleAt frame us k)
    (hj : i = 0 ∧ j = 1 ∨ 0 < i ∧ j = 0) :
    MergesTwo frame us ((us.eraseIdx i).eraseIdx j) ↔ IdleAt frame us 0 ∧ IdleAt frame us 2 := by
  constructor
  · intro h
    have hcount := h.countP_eq
    have hone := countP_eraseIdx (idle frame) us i
    have htwo := countP_eraseIdx (idle frame) (us.eraseIdx i) j
    rw [if_pos (idleAt_iff.mp hi)] at hone
    have hidle : ((us.eraseIdx i)[j]?).any (idle frame) := by
      by_contra hbusy
      rw [if_neg hbusy] at htwo
      omega
    rw [getElem?_eraseIdx] at hidle
    rcases hj with ⟨rfl, rfl⟩ | ⟨hpos, rfl⟩
    · exact ⟨hi, idleAt_iff.mpr hidle⟩
    · rw [if_pos hpos] at hidle
      exact absurd (idleAt_iff.mpr hidle) (hfirst 0 hpos)
  · rintro ⟨h0, h2⟩
    have hzero : i = 0 := by
      by_contra hne
      exact hfirst 0 (Nat.pos_of_ne_zero hne) h0
    have hone : j = 1 := by omega
    subst hzero hone
    refine ⟨0, 2, by decide, h0, h2, ?_⟩
    cases us with
    | nil | cons => rfl

end records

/-! ## the choice -/

lemma entryCheck_plain {st : BuildState T} {build : T} {ps : List T} {p p' : Bool}
    {addon : Option T} (hps : ∀ q ∈ ps, (tt.info q).isAddon = false)
    (h : entryCheck tt st build ps none p = .ok (addon, p')) : addon = none := by
  induction ps generalizing p with
  | nil =>
    cases h
    rfl
  | cons q ps ih =>
    have hrest : ∀ {p}, entryCheck tt st build ps none p = .ok (addon, p') → addon = none :=
      ih fun q' hq' => hps q' (mem_cons_of_mem _ hq')
    have hq : requiresAddon tt build q = false := by
      unfold requiresAddon
      rw [hps q mem_cons_self]
      rfl
    unfold entryCheck at h
    rw [hq] at h
    simp only [if_neg Bool.false_ne_true] at h
    split at h
    · exact hrest h
    · split at h
      · exact hrest h
      · split at h
        · exact hrest h
        · split at h
          · exact hrest h
          · cases h

/-- **The builder is the first idle templar, the second one the first other.** -/
theorem chooseBuilder_archon (ha : Archons tt) {st : BuildState T} {build b : T} {l : Loc T}
    {b₂ : Option Nat} {ex : Bool} (harchon : isArchon tt build)
    (hb : (tt.info build).builder = some b)
    (h : chooseBuilder tt st build b none = ⟨some l, b₂, ex⟩) :
    ∃ i j, l = .unit b i ∧ b₂ = some j ∧ IdleAt st.frame (st.units.list b) i ∧
      (∀ k < i, ¬IdleAt st.frame (st.units.list b) k) ∧ j < (st.units.list b).length ∧
      (i = 0 ∧ j = 1 ∨ 0 < i ∧ j = 0) := by
  have hidle : ∀ k, IdleAt st.frame (st.units.list b) k ↔
      ((st.units.list b)[k]?).any (idleFor tt build none st.frame) := by
    have hfun : idleFor tt build none st.frame = idle st.frame := by
      funext u
      unfold idleFor eligible
      rw [ha.noAddon build harchon]
      rfl
    rw [hfun]
    exact fun k => idleAt_iff
  obtain ⟨i, rfl, hi, hsecond⟩ := chooseBuilder_unit h (ha.templar build b harchon hb).1
  obtain ⟨j, rfl, hj⟩ := hsecond harchon
  obtain ⟨hlt, hthis, hfirst⟩ := findIdx?_eq_some_iff_getElem.mp hi
  obtain ⟨hne, hmem, hbefore⟩ := find?_range_eq_some.mp hj
  rw [decide_eq_true_eq] at hne
  refine ⟨i, j, rfl, rfl, ?_, fun k hk => ?_, mem_range.mp hmem, ?_⟩
  · rw [hidle, getElem?_eq_getElem hlt]
    exact hthis
  · rw [hidle, getElem?_eq_getElem (hk.trans hlt)]
    exact hfirst k hk
  · -- every place before the second one is the builder's
    have hprior : ∀ k < j, k = i := fun k hk => by simpa using hbefore k hk
    by_cases hj0 : j = 0
    · exact .inr ⟨by omega, hj0⟩
    · have hi0 := hprior 0 (Nat.pos_of_ne_zero hj0)
      by_cases hj1 : j = 1
      · exact .inl ⟨hi0.symm, hj1⟩
      · have hi1 := hprior 1 (by omega)
        omega

/-! ## the merge -/

section merge
variable {st : BuildState T} {th : BuildEntry T} {b : T} {i j : Nat}

lemma occupy_eraseIdx (hb : b ≠ tt.zergLarva) (st : BuildState T) (build : T) :
    ((occupy tt st build b (.unit b i)).units.list b).eraseIdx i = (st.units.list b).eraseIdx i := by
  have hmod : ∀ (st : BuildState T) f hf,
      ((modifyAt st (.unit b i) f hf).units.list b).eraseIdx i = (st.units.list b).eraseIdx i := by
    intro st f hf
    show (update st.units.list b _ b).eraseIdx i = _
    rw [update_self, eraseIdx_modify_of_eq]
  unfold occupy
  rw [if_neg hb]
  split
  · rw [hmod, hmod]
  · rw [hmod]

lemma occupy_other {t : T} (ht : t ≠ b) (hb : b ≠ tt.zergLarva) (st : BuildState T) (build : T) :
    (occupy tt st build b (.unit b i)).units.list t = st.units.list t := by
  have hmod : ∀ (st : BuildState T) f hf,
      (modifyAt st (.unit b i) f hf).units.list t = st.units.list t :=
    fun st f hf => update_of_ne ht ..
  unfold occupy
  rw [if_neg hb]
  split
  · rw [hmod, hmod]
  · rw [hmod]

section
variable (ha : Archons tt) (harchon : isArchon tt th.type = true)
  (hb : (tt.info th.type).builder = some b)
include ha harchon hb

lemma start_archon :
    start tt st th b (.unit b i) (some j) =
      removeUnit tt (removeUnit tt (enqueue tt (occupy tt st th.type b (.unit b i)) th) b i) b j := by
  unfold start consumeBuilder noteAddon
  dsimp only
  rw [ha.noAddon _ harchon, (ha.templar _ b harchon hb).2.1]
  simp [harchon]

lemma archon_units :
    (start tt st th b (.unit b i) (some j)).units.list b = ((st.units.list b).eraseIdx i).eraseIdx j ∧
      ∀ t ≠ b, (start tt st th b (.unit b i) (some j)).units.list t = st.units.list t := by
  have hlarva := (ha.templar _ b harchon hb).1
  have hlist : (start tt st th b (.unit b i) (some j)).units
      = (((occupy tt st th.type b (.unit b i)).units.erase b i).erase b j) := by
    rw [start_archon ha harchon hb]
    show ((enqueue tt (occupy tt st th.type b (.unit b i)) th).units.erase b i).erase b j = _
    rw [(enqueue_records ..).1]
  rw [hlist]
  refine ⟨?_, fun t ht => ?_⟩
  · rw [Roster.erase_self, Roster.erase_self, occupy_eraseIdx hlarva]
  · rw [Roster.erase_of_ne _ ht, Roster.erase_of_ne _ ht, occupy_other ht hlarva]

end

lemma archon_supply (ha : Archons tt) (harchon : isArchon tt th.type)
    (hb : (tt.info th.type).builder = some b) (r : Race) :
    (start tt st th b (.unit b i) (some j)).usedSupply r = st.usedSupply r +
      if r = .protoss then (tt.info th.type).supplyRequired - 2 * (tt.info b).supplyRequired
      else 0 := by
  have hocc : (occupy tt st th.type b (.unit b i)).usedSupply = st.usedSupply :=
    occupy_of (I := (·.usedSupply = st.usedSupply)) (fun _ l _ _ h => by cases l <;> exact h) rfl ..
  have henq : ∀ st : BuildState T, (enqueue tt st th).usedSupply
      = bump st.usedSupply .protoss (tt.info th.type).supplyRequired := by
    intro st
    obtain ⟨_, _, _, he⟩ := enqueue_eq tt st th
    rw [he, secondOfEgg, ha.single _ harchon, if_neg Bool.false_ne_true, ← ha.race _ harchon]
    rfl
  rw [start_archon ha harchon hb]
  show bump (bump (enqueue tt (occupy tt st th.type b (.unit b i)) th).usedSupply _ _) _ _ r = _
  rw [henq, hocc, (ha.templar _ b harchon hb).2.1]
  unfold bump
  by_cases hr : r = .protoss
  · rw [hr]
    simp only [update_self, if_pos]
    ring
  · simp only [update_of_ne hr, if_neg hr, add_zero]

end merge

/-- **An Archon takes two idle records, and leaves the others in their order, exactly if the first
and the third record are idle** in the decision that starts it. -/
theorem archon_merge (tt : TechTree T) (ha : Archons tt) (st st' : BuildState T) (th : BuildEntry T)
    (b : T) (endFrame : Int) (harchon : isArchon tt th.type = true)
    (hb : (tt.info th.type).builder = some b)
    (h : advance tt st (some th) endFrame = .ok (.success, st')) :
    ∃ p d, entryCheck tt st th.type (tt.info th.type).prerequisites none false = .ok (none, p) ∧
      Decides tt (some ⟨th, b, none⟩) endFrame (st, p) d ∧
      tryBuild tt d.1 th b none d.2 = some (.success, st') ∧
      (∃ i, IdleAt d.1.frame (d.1.units.list b) i) ∧ 2 ≤ (d.1.units.list b).length ∧
      (∀ r, st'.usedSupply r = d.1.usedSupply r +
        if r = .protoss then (tt.info th.type).supplyRequired - 2 * (tt.info b).supplyRequired
        else 0) ∧
      (∀ t ≠ b, st'.units.list t = d.1.units.list t) ∧
      (MergesTwo d.1.frame (d.1.units.list b) (st'.units.list b) ↔
        IdleAt d.1.frame (d.1.units.list b) 0 ∧ IdleAt d.1.frame (d.1.units.list b) 2) := by
  have hlt : st.frame < endFrame := by
    by_contra hge
    unfold advance at h
    rw [if_pos (not_lt.mp hge)] at h
    cases h
  rcases advance_decides hlt h with ⟨_, _, hr, _⟩ | ⟨b', addon, p, d, hb', hentry, hd, hres⟩
  · cases hr
  · rw [hb] at hb'
    cases hb'
    obtain rfl : addon = none := entryCheck_plain (ha.plain _ harchon) hentry
    have hstart : tryBuild tt d.1 th b none d.2 = some (.success, st') := by
      rcases hres with hstart | ⟨-, htimeout, -⟩
      · exact hstart
      · cases htimeout
    obtain ⟨l, b₂, ex, hchoice, rfl⟩ := tryBuild_success hstart
    obtain ⟨i, j, rfl, rfl, hidle, hfirst, hlen, hplaces⟩ := chooseBuilder_archon ha harchon hb hchoice
    have hunits : (start tt d.1 th b (.unit b i) (some j)).units.list b = _ ∧ _ :=
      archon_units ha harchon hb
    refine ⟨p, d, hentry, hd, hstart, ⟨i, hidle⟩, ?_, archon_supply ha harchon hb, hunits.2, ?_⟩
    · obtain ⟨u, hu, -⟩ := hidle
      have hi := (List.getElem?_eq_some_iff.mp hu).1
      omega
    · rw [hunits.1]
      exact mergesTwo_iff hidle hfirst hplaces

lemma sampleTree_archons : Archons sampleTree where
  race := by decide
  noAddon := by decide
  single := by decide
  plain := by decide
  templar := by decide

def templars (busy₀ busy₁ busy₂ : Int) : BuildState Sample where
  frame := 100
  usedSupply := fun _ => 6
  maxSupply := fun _ => 50
  units := ((Roster.empty.push { type := .highTemplar, busyUntil := busy₀ }).push
    { type := .highTemplar, busyUntil := busy₁ }).push { type := .highTemplar, busyUntil := busy₂ }

/-- three idle templars: the second one is left -/
theorem archon_merge_idle :
    ∃ st' : BuildState Sample,
      advance sampleTree (templars 10 20 30) (some { type := .archon }) 110 = .ok (.success, st') ∧
      (st'.units.list .highTemplar).map BuildStateUnit.busyUntil = [20] ∧
      ∃ p d, Decides sampleTree (some ⟨{ type := .archon }, .highTemplar, none⟩) 110
          (templars 10 20 30, p) d ∧
        tryBuild sampleTree d.1 { type := .archon } .highTemplar none d.2 = some (.success, st') ∧
        (MergesTwo d.1.frame (d.1.units.list .highTemplar) (st'.units.list .highTemplar) ↔
          IdleAt d.1.frame (d.1.units.list .highTemplar) 0 ∧
            IdleAt d.1.frame (d.1.units.list .highTemplar) 2) := by
  have hcall : (advance sampleTree (templars 10 20 30) (some { type := .archon }) 110).toOption.map
      (fun r => (r.1, (r.2.units.list .highTemplar).map BuildStateUnit.busyUntil))
        = some (.success, [20]) := by decide +kernel
  obtain ⟨st', h⟩ := ok_of_fst (a := Advanced.success)
    (x := advance sampleTree (templars 10 20 30) (some { type := .archon }) 110) (by decide +kernel)
  rw [h] at hcall
  obtain ⟨p, d, -, hd, hstart, -, -, -, -, hiff⟩ := archon_merge sampleTree sampleTree_archons
    (templars 10 20 30) st' { type := .archon } .highTemplar 110 rfl rfl h
  exact ⟨st', h, (Prod.mk.inj (Option.some.inj hcall)).2, p, d, hd, hstart, hiff⟩

/-- **A templar that is busy merges, and an idle one is left.**  -/
theorem busy_templar_merges :
    (advance sampleTree (templars 10 20 300) (some { type := .archon }) 110).toOption.map
        (fun r => (r.1, (r.2.units.list .highTemplar).map BuildStateUnit.busyUntil))
      = some (.success, [20]) ∧
    (advance sampleTree (templars 300 20 300) (some { type := .archon }) 110).toOption.map
        (fun r => (r.1, (r.2.units.list .highTemplar).map BuildStateUnit.busyUntil))
      = some (.success, [300]) := by
  constructor
  · decide +kernel
  · decide +kernel

end TorchCraft.AutoBuild
