import Mathlib.Data.Rat.Floor
import TorchCraft.AutoBuild.Chain
import TorchCraft.AutoBuild.Evaluate
import TorchCraft.AutoBuild.Supply

/-!
# How much can start in one frame

A queue that is run again and again has to let time pass.  In one frame a builder is used at most once,
a larva as well, and what is built ahead costs minerals or ends a lack of supply.

* `Roster.weight`  a sum over the records of the roster;
* `Builds.laterOrLess`  a request that is built lets time pass, or nothing is due any more and it lowers
  the potential or else the reserve.
-/

set_option linter.unusedSectionVars false

namespace TorchCraft.AutoBuild
open List Function

variable {T α : Type} [DecidableEq T] {tt : TechTree T} {frame : Int}

/-! ## sums over records -/

lemma sum_map_modify (g : α → Nat) (f : α → α) (l : List α) (i : Nat) :
    ((l.modify i f).map g).sum + l[i]?.elim 0 g = (l.map g).sum + l[i]?.elim 0 (g ∘ f) := by
  induction l generalizing i with
  | nil => rw [modify_nil]; rfl
  | cons b l ih =>
    cases i with
    | zero =>
      show g (f b) + (l.map g).sum + g b = g b + (l.map g).sum + g (f b)
      omega
    | succ i => exact (Nat.add_assoc ..).trans ((congrArg _ (ih i)).trans (Nat.add_assoc ..).symm)

lemma sum_map_eraseIdx (g : α → Nat) {l : List α} {i : Nat} {a : α} (ha : l[i]? = some a) :
    ((l.eraseIdx i).map g).sum + g a = (l.map g).sum := by
  obtain ⟨hi, rfl⟩ := List.getElem?_eq_some_iff.mp ha
  rw [← ((List.getElem_cons_eraseIdx_perm hi).map g).sum_eq, List.map_cons, List.sum_cons, add_comm]

namespace Roster
variable [Fintype T] {r r' : Roster T} {w : T → BuildStateUnit T → Nat} {t : T}

def weight (r : Roster T) (w : T → BuildStateUnit T → Nat) : Nat :=
  ∑ t, ((r.list t).map (w t)).sum

lemma weight_of_update {l : List (BuildStateUnit T)} (h : r'.list = update r.list t l) :
    r'.weight w + ((r.list t).map (w t)).sum = r.weight w + (l.map (w t)).sum := by
  unfold weight
  rw [h]
  exact sum_update_add (fun s l => (l.map (w s)).sum) r.list t l

lemma weight_erase {i : Nat} {u : BuildStateUnit T} (hu : (r.list t)[i]? = some u) :
    (r.erase t i).weight w + w t u = r.weight w := by
  have hupdate := weight_of_update (w := w) (rfl : (r.erase t i).list = _)
  have hsum := sum_map_eraseIdx (w t) hu
  omega

lemma weight_erase_le (i : Nat) : (r.erase t i).weight w ≤ r.weight w := by
  cases hu : (r.list t)[i]? with
  | some u =>
    have h := weight_erase (w := w) hu
    omega
  | none =>
    have hupdate := weight_of_update (w := w) (rfl : (r.erase t i).list = _)
    rw [eraseIdx_of_length_le (List.getElem?_eq_none_iff.mp hu)] at hupdate
    omega

lemma weight_push {u : BuildStateUnit T} : (r.push u).weight w = r.weight w + w u.type u := by
  have hupdate := weight_of_update (w := w) (rfl : (r.push u).list = _)
  rw [List.map_append, List.sum_append, List.map_singleton, List.sum_singleton] at hupdate
  omega

end Roster

/-! ## idle builders and larvae -/

section potential
variable [Fintype T] {st : BuildState T} {l : Loc T} {u : BuildStateUnit T}
  {f : BuildStateUnit T → BuildStateUnit T} {hf : ∀ u, (f u).type = u.type}

def builds (tt : TechTree T) (t : T) : Bool := decide (∃ x, (tt.info x).builder = some t)

/-- how many of the types that give larvae it is -/
def givesLarvae (tt : TechTree T) (t : T) : Nat :=
  [tt.zergHive, tt.zergLair, tt.zergHatchery].count t

def larvaeAt (frame : Int) (u : BuildStateUnit T) : Nat :=
  min ((frame - u.larvaTimer) / 342).toNat 3

/-- a builder that is idle, and larvae -/
def weightAt (tt : TechTree T) (frame : Int) (t : T) (u : BuildStateUnit T) : Nat :=
  (if builds tt t ∧ u.busyUntil ≤ frame then 1 else 0) + givesLarvae tt t * larvaeAt frame u

/-- the idle builders and the larvae of a state -/
def potential (tt : TechTree T) (st : BuildState T) : Nat :=
  st.units.weight (weightAt tt st.frame) + (st.morphingHatcheries.map (larvaeAt st.frame)).sum

def locWeight (tt : TechTree T) (frame : Int) : Loc T → BuildStateUnit T → Nat
  | .unit t _ => weightAt tt frame t
  | .morphing _ => larvaeAt frame

lemma potential_congr {st' : BuildState T} (hf : st'.frame = st.frame) (hu : st'.units = st.units)
    (hm : st'.morphingHatcheries = st.morphingHatcheries) : potential tt st' = potential tt st := by
  unfold potential
  rw [hf, hu, hm]

lemma potential_modifyAt : potential tt (modifyAt st l f hf) +
    (unitAt st l).elim 0 (locWeight tt st.frame l) =
      potential tt st + (unitAt st l).elim 0 (locWeight tt st.frame l ∘ f) := by
  cases l with
  | unit t i =>
    have hupdate := Roster.weight_of_update (w := weightAt tt st.frame)
      (rfl : (st.units.modify t i f hf).list = _)
    have hsum := sum_map_modify (weightAt tt st.frame t) f (st.units.list t) i
    dsimp only [potential, modifyAt, unitAt, locWeight]
    omega
  | morphing i =>
    have hsum := sum_map_modify (larvaeAt st.frame) f st.morphingHatcheries i
    dsimp only [potential, modifyAt, unitAt, locWeight]
    omega

lemma potential_modifyAt_le (h : ∀ u, locWeight tt st.frame l (f u) ≤ locWeight tt st.frame l u) :
    potential tt (modifyAt st l f hf) ≤ potential tt st := by
  refine Nat.le_of_add_le_add_right (potential_modifyAt.trans_le (Nat.add_le_add_left ?_ _))
  cases unitAt st l with
  | none => exact le_rfl
  | some u => exact h u

lemma potential_modifyAt_lt (hu : unitAt st l = some u)
    (h : locWeight tt st.frame l (f u) < locWeight tt st.frame l u) :
    potential tt (modifyAt st l f hf) < potential tt st := by
  refine Nat.lt_of_add_lt_add_right (potential_modifyAt.trans_lt (Nat.add_lt_add_left ?_ _))
  rw [hu]
  exact h

lemma larvaeAt_takeLarva (h : 342 ≤ frame - u.larvaTimer) :
    larvaeAt frame (takeLarva frame u) < larvaeAt frame u := by
  unfold takeLarva larvaeAt
  split <;> dsimp only <;> omega

lemma weightAt_mono {t : T} {v : BuildStateUnit T}
    (hbusy : v.busyUntil ≤ frame → u.busyUntil ≤ frame)
    (hlarva : larvaeAt frame v ≤ larvaeAt frame u) :
    weightAt tt frame t v ≤ weightAt tt frame t u := by
  unfold weightAt
  have hmul := Nat.mul_le_mul_left (givesLarvae tt t) hlarva
  by_cases hv : builds tt t ∧ v.busyUntil ≤ frame
  · rw [if_pos hv, if_pos ⟨hv.1, hbusy hv.2⟩]
    omega
  · rw [if_neg hv]
    omega

lemma locWeight_mono {v : BuildStateUnit T} (hbusy : v.busyUntil ≤ frame → u.busyUntil ≤ frame)
    (hlarva : larvaeAt frame v ≤ larvaeAt frame u) :
    locWeight tt frame l v ≤ locWeight tt frame l u := by
  cases l with
  | unit t i => exact weightAt_mono hbusy hlarva
  | morphing i => exact hlarva

/-! ## the builder -/

lemma bestLarva_place {us : List (BuildStateUnit T)} {i j : Nat} {t : Int}
    {best : Option (Nat × Int)} (h : bestLarva frame us i best = some (j, t)) :
    best = some (j, t) ∨ ∃ m u, j = i + m ∧ us[m]? = some u ∧ 342 ≤ frame - u.larvaTimer := by
  induction us generalizing i best with
  | nil => exact .inl h
  | cons u us ih =>
    have hlater : (∃ m v, j = i + 1 + m ∧ us[m]? = some v ∧ 342 ≤ frame - v.larvaTimer) →
        ∃ m v, j = i + m ∧ (u :: us)[m]? = some v ∧ 342 ≤ frame - v.larvaTimer := by
      rintro ⟨m, v, hj, hv, hlarva⟩
      exact ⟨m + 1, v, by omega, hv, hlarva⟩
    unfold bestLarva at h
    dsimp only at h
    split at h
    next hc =>
      rcases ih h with hbest | hrest
      · cases hbest
        exact .inr ⟨0, u, rfl, rfl, hc.1⟩
      · exact .inr (hlater hrest)
    next => exact (ih h).imp_right hlater

lemma larvaBuilder_place {srcs : List ((Nat → Loc T) × List (BuildStateUnit T))} {ex : Bool}
    (h : (larvaBuilder frame srcs ex).1 = some l) :
    ∃ src ∈ srcs, ∃ i u, l = src.1 i ∧ src.2[i]? = some u ∧ 342 ≤ frame - u.larvaTimer := by
  induction srcs generalizing ex with
  | nil => cases h
  | cons src srcs ih =>
    obtain ⟨loc, us⟩ := src
    unfold larvaBuilder at h
    split at h
    next i t hbest =>
      cases h
      rcases bestLarva_place hbest with hnone | ⟨m, u, hi, hu, hlarva⟩
      · cases hnone
      · rw [Nat.zero_add] at hi
        exact ⟨_, mem_cons_self, i, u, rfl, hi ▸ hu, hlarva⟩
    next =>
      obtain ⟨src, hmem, hrest⟩ := ih h
      exact ⟨src, mem_cons_of_mem _ hmem, hrest⟩

/-- a larva of this record, or this idle unit of the builder type -/
inductive Chosen (tt : TechTree T) (st : BuildState T) (b : T) : Loc T → BuildStateUnit T → Prop where
  | larva {t : T} {i : Nat} {u : BuildStateUnit T} (hb : b = tt.zergLarva) (ht : 0 < givesLarvae tt t)
    (hlarva : 342 ≤ st.frame - u.larvaTimer) : Chosen tt st b (.unit t i) u
  | morphing {i : Nat} {u : BuildStateUnit T} (hb : b = tt.zergLarva)
    (hlarva : 342 ≤ st.frame - u.larvaTimer) : Chosen tt st b (.morphing i) u
  | idle {i : Nat} {u : BuildStateUnit T} (hb : b ≠ tt.zergLarva) (hidle : u.busyUntil ≤ st.frame) :
    Chosen tt st b (.unit b i) u

lemma chooseBuilder_chosen {build b : T} {addon : Option T} {b₂ : Option Nat} {ex : Bool}
    (h : chooseBuilder tt st build b addon = ⟨some l, b₂, ex⟩) :
    ∃ u, unitAt st l = some u ∧ Chosen tt st b l u := by
  by_cases hb : b = tt.zergLarva
  · unfold chooseBuilder at h
    rw [if_pos hb] at h
    obtain ⟨src, hsrc, i, u, rfl, hu, hlarva⟩ := larvaBuilder_place (congrArg BuilderChoice.builder h)
    have hgives : ∀ t, t ∈ [tt.zergHive, tt.zergLair, tt.zergHatchery] → 0 < givesLarvae tt t :=
      fun t ht => count_pos_iff.mpr ht
    simp only [larvaSources, List.mem_cons, List.not_mem_nil, or_false] at hsrc
    rcases hsrc with rfl | rfl | rfl | rfl
    · exact ⟨u, hu, .larva hb (hgives _ (by simp)) hlarva⟩
    · exact ⟨u, hu, .larva hb (hgives _ (by simp)) hlarva⟩
    · exact ⟨u, hu, .larva hb (hgives _ (by simp)) hlarva⟩
    · exact ⟨u, hu, .morphing hb hlarva⟩
  · obtain ⟨i, rfl, hi, -⟩ := chooseBuilder_unit h hb
    obtain ⟨hlt, hidle, -⟩ := findIdx?_eq_some_iff_getElem.mp hi
    rw [idleFor, Bool.and_eq_true, decide_eq_true_eq] at hidle
    exact ⟨_, getElem?_eq_getElem hlt, .idle hb hidle.2⟩

/-! ## a start -/

lemma occupy_potential {build b : T} (hb : (tt.info build).builder = some b)
    (htime : 0 < (tt.info build).buildTime) (hmax : st.frame < intMax) (hu : unitAt st l = some u)
    (hc : Chosen tt st b l u) : potential tt (occupy tt st build b l) < potential tt st := by
  -- the missile of a silo makes it busy for ever
  have hmissile : ∀ st' : BuildState T, st'.frame = st.frame → potential tt st' < potential tt st →
      potential tt (if build = tt.terranNuclearMissile then
        modifyAt st' l (fun u => { u with busyUntil := intMax }) (fun _ => rfl) else st')
          < potential tt st := by
    intro st' hframe hlt
    split
    · refine (potential_modifyAt_le fun v => ?_).trans_lt hlt
      exact locWeight_mono (fun h => absurd h (by dsimp only; omega)) le_rfl
    · exact hlt
  unfold occupy
  by_cases hlarva : b = tt.zergLarva
  · rw [if_pos hlarva]
    refine hmissile _ (Apart.modifyAt _ _ _ (.refl st)).frame (potential_modifyAt_lt hu ?_)
    have hbusy : (takeLarva st.frame u).busyUntil = u.busyUntil := by
      unfold takeLarva
      split <;> rfl
    cases hc with
    | larva _ ht h =>
      have hmul := Nat.mul_lt_mul_of_pos_left (larvaeAt_takeLarva h) ht
      dsimp only [locWeight, weightAt]
      rw [hbusy]
      omega
    | morphing _ h => exact larvaeAt_takeLarva h
    | idle hne _ => exact absurd hlarva hne
  · rw [if_neg hlarva]
    refine hmissile _ (Apart.modifyAt _ _ _ (.refl st)).frame (potential_modifyAt_lt hu ?_)
    cases hc with
    | larva h | morphing h => exact absurd h hlarva
    | idle _ hidle =>
      have hbusy : ¬(builds tt b ∧ st.frame + (tt.info build).buildTime ≤ st.frame) := by
        rintro ⟨-, h⟩
        omega
      dsimp only [locWeight]
      unfold weightAt
      rw [if_neg hbusy, if_pos ⟨decide_eq_true ⟨build, hb⟩, hidle⟩]
      exact Nat.add_lt_add_right Nat.zero_lt_one _

lemma removeUnit_potential (st : BuildState T) (t : T) (i : Nat) :
    potential tt (removeUnit tt st t i) ≤ potential tt st :=
  Nat.add_le_add_right (Roster.weight_erase_le i) _

lemma consumeBuilder_potential (st : BuildState T) (build b : T) (l : Loc T) (b₂ : Option Nat) :
    potential tt (consumeBuilder tt st build b l b₂) ≤ potential tt st := by
  unfold consumeBuilder
  split
  · exact le_rfl
  next t i =>
    split
    · split
      · dsimp only
        split
        next hmorph =>
          cases hu : (st.units.list t)[i]? with
          | none =>
            have hsame : { st with morphingHatcheries :=
                st.morphingHatcheries ++ (unitAt st (.unit t i)).toList } = st := by
              show { st with morphingHatcheries :=
                st.morphingHatcheries ++ (st.units.list t)[i]?.toList } = st
              rw [hu, Option.toList_none, append_nil]
            rw [hsame]
            exact removeUnit_potential st t i
          | some u =>
            have herase := Roster.weight_erase (w := weightAt tt st.frame) hu
            have hgives : 0 < givesLarvae tt t := by
              refine count_pos_iff.mpr ?_
              rcases hmorph with rfl | rfl <;> simp
            have hweight : larvaeAt st.frame u ≤ weightAt tt st.frame t u :=
              (Nat.le_mul_of_pos_left _ hgives).trans (Nat.le_add_left ..)
            show (st.units.erase t i).weight (weightAt tt st.frame) + ((st.morphingHatcheries
              ++ (st.units.list t)[i]?.toList).map (larvaeAt st.frame)).sum
                ≤ st.units.weight (weightAt tt st.frame) + _
            rw [hu, Option.toList_some, List.map_append, List.sum_append, List.map_singleton,
              List.sum_singleton]
            omega
        next => exact removeUnit_potential st t i
      · exact le_rfl
    · split
      · dsimp only
        split
        · exact (removeUnit_potential _ t _).trans (removeUnit_potential st t i)
        · exact removeUnit_potential st t i
      · exact le_rfl

lemma noteAddon_potential (st : BuildState T) (build : T) (l : Loc T) :
    potential tt (noteAddon tt st build l) ≤ potential tt st := by
  unfold noteAddon
  split
  · exact potential_modifyAt_le fun u => locWeight_mono id le_rfl
  · exact le_rfl

lemma start_potential {th : BuildEntry T} {b : T} {addon : Option T} {b₂ : Option Nat} {ex : Bool}
    (hb : (tt.info th.type).builder = some b) (htime : 0 < (tt.info th.type).buildTime)
    (hmax : st.frame < intMax) (hc : chooseBuilder tt st th.type b addon = ⟨some l, b₂, ex⟩) :
    potential tt (start tt st th b l b₂) < potential tt st := by
  obtain ⟨u, hu, hchosen⟩ := chooseBuilder_chosen hc
  have henq : potential tt (enqueue tt (occupy tt st th.type b l) th)
      = potential tt (occupy tt st th.type b l) :=
    potential_congr (enqueue_times ..).1 (enqueue_records ..).1 (enqueue_records ..).2
  calc potential tt (start tt st th b l b₂)
      ≤ potential tt (noteAddon tt (enqueue tt (occupy tt st th.type b l) th) th.type l) :=
        consumeBuilder_potential ..
    _ ≤ potential tt (enqueue tt (occupy tt st th.type b l) th) := noteAddon_potential ..
    _ = potential tt (occupy tt st th.type b l) := henq
    _ < potential tt st := occupy_potential hb htime hmax hu hchosen

end potential

/-! ## what is built ahead -/

def missing (st : BuildState T) (r : Race) : Nat := ⌈200 - (st.maxSupply r + st.inprodSupply r)⌉.toNat

def reserve (st : BuildState T) : Nat :=
  ⌊st.minerals⌋.toNat + (missing st .zerg + missing st .terran + missing st .protoss)

section reserve
variable [Fintype T] {st : BuildState T} {t : T}

def Inert (tt : TechTree T) (t : T) : Prop := builds tt t = false ∧ givesLarvae tt t = 0

/-- it takes time to build the types, and what is built ahead for them costs something and builds
nothing -/
structure Costs (tt : TechTree T) (S : T → Prop) : Prop where
  time : ∀ t, S t → 0 < (tt.info t).buildTime
  minerals : ∀ t, S t → 0 ≤ (tt.info t).mineralCost
  refinery : ∀ t, S t → let x := tt.getRaceRefinery (tt.info t).race
    1 ≤ (tt.info x).mineralCost ∧ 0 ≤ (tt.info x).supplyProvided ∧ Inert tt x
  supply : ∀ t, S t → let x := tt.getRaceSupplyDepot (tt.info t).race
    0 ≤ (tt.info x).mineralCost ∧ 1 ≤ (tt.info x).supplyProvided ∧
      (tt.info x).race = (tt.info t).race ∧ Inert tt x

lemma addBuilt_potential (ht : Inert tt t) (s : Bool) :
    potential tt (addBuilt tt st t s) = potential tt st := by
  have hweight : weightAt tt st.frame t { type := t } = 0 := by
    unfold weightAt
    rw [ht.1, ht.2, if_neg fun h => Bool.false_ne_true h.1, Nat.zero_mul]
  show (st.units.push { type := t }).weight (weightAt tt st.frame) + _ = _
  rw [Roster.weight_push]
  show _ + weightAt tt st.frame t { type := t } + _ = _
  rw [hweight]
  rfl

lemma addBuilt_missing (t : T) (s : Bool) (r : Race) : missing (addBuilt tt st t s) r
    = ⌈200 - (st.maxSupply r + st.inprodSupply r) -
        if (tt.info t).race = r then (tt.info t).supplyProvided else 0⌉.toNat := by
  show ⌈200 - (bump st.maxSupply _ _ r + st.inprodSupply r)⌉.toNat = _
  rw [bump_apply]
  congr 2
  ring

lemma addBuilt_missing_le (h : 0 ≤ (tt.info t).supplyProvided) (s : Bool) (r : Race) :
    missing (addBuilt tt st t s) r ≤ missing st r := by
  rw [addBuilt_missing]
  refine Int.toNat_le_toNat (Int.ceil_le_ceil (sub_le_self _ ?_))
  split
  · exact h
  · exact le_rfl

lemma addBuilt_missing_lt (h : 1 ≤ (tt.info t).supplyProvided)
    (hmissing : st.maxSupply (tt.info t).race + st.inprodSupply (tt.info t).race < 200) (s : Bool) :
    missing (addBuilt tt st t s) (tt.info t).race < missing st (tt.info t).race := by
  have hpos : 0 < ⌈200 - (st.maxSupply (tt.info t).race + st.inprodSupply (tt.info t).race)⌉ :=
    Int.ceil_pos.mpr (sub_pos.mpr hmissing)
  have hless := Int.ceil_le_ceil (sub_le_sub_left h
    (200 - (st.maxSupply (tt.info t).race + st.inprodSupply (tt.info t).race)))
  rw [Int.ceil_sub_one] at hless
  rw [addBuilt_missing, if_pos rfl]
  unfold missing
  omega

lemma prebuildRefinery_reserve (hcost : 1 ≤ (tt.info t).mineralCost)
    (hsupply : 0 ≤ (tt.info t).supplyProvided) (hm : (tt.info t).mineralCost ≤ st.minerals) :
    reserve (prebuildRefinery tt st t) < reserve st := by
  have hmissing : ∀ r, missing (prebuildRefinery tt st t) r ≤ missing st r :=
    addBuilt_missing_le hsupply false
  have hpos : 0 < ⌊st.minerals⌋ := Int.floor_pos.mpr (hcost.trans hm)
  have hless : ⌊(prebuildRefinery tt st t).minerals⌋ ≤ ⌊st.minerals⌋ - 1 := by
    show ⌊st.minerals - (tt.info t).mineralCost⌋ ≤ _
    rw [← Int.floor_sub_one]
    exact Int.floor_le_floor (sub_le_sub_left hcost _)
  have hzerg := hmissing .zerg
  have hterran := hmissing .terran
  have hprotoss := hmissing .protoss
  unfold reserve
  omega

lemma addBuilt_reserve (hcost : 0 ≤ (tt.info t).mineralCost)
    (hsupply : 1 ≤ (tt.info t).supplyProvided)
    (hmissing : st.maxSupply (tt.info t).race + st.inprodSupply (tt.info t).race < 200) (s : Bool) :
    reserve (addBuilt tt st t s) < reserve st := by
  have hless := addBuilt_missing_lt hsupply hmissing s
  have hle : ∀ r, missing (addBuilt tt st t s) r ≤ missing st r :=
    addBuilt_missing_le (zero_le_one.trans hsupply) s
  have hminerals : ⌊(addBuilt tt st t s).minerals⌋.toNat ≤ ⌊st.minerals⌋.toNat :=
    Int.toNat_le_toNat (Int.floor_le_floor (sub_le_self _ hcost))
  have hzerg := hle .zerg
  have hterran := hle .terran
  have hprotoss := hle .protoss
  unfold reserve
  cases hr : (tt.info t).race with
  | zerg | terran | protoss =>
    rw [hr] at hless
    omega

end reserve

/-! ## one step -/

section step
variable [Fintype T] {S : T → Prop} {st st' : BuildState T} {th : BuildEntry T} {b : T}
  {addon : Option T} {p : Bool} {r : Advanced T}

lemma emplaceProd_head {α : Type} {l : List (Int × α)} {t : α} {e : Int × α} {es : List (Int × α)}
    (h : emplaceProd l frame t = e :: es) : e = (frame, t) ∨ ∃ es', l = e :: es' := by
  have hl := rdropWhile_append_rtakeWhile (p := fun e : Int × α => decide (frame < e.1)) (l := l)
  unfold emplaceProd at h
  cases hfront : l.rdropWhile (fun e => decide (frame < e.1)) with
  | nil =>
    rw [hfront] at h
    cases h
    exact .inl rfl
  | cons e' front =>
    rw [hfront] at h hl
    cases h
    exact .inr ⟨_, hl.symm⟩

lemma Settled.start (h : Settled st) (htime : 0 < (tt.info th.type).buildTime) (l : Loc T)
    (b₂ : Option Nat) : Settled (start tt st th b l b₂) := by
  have hone : ∀ production : List (Int × T), (∀ e es, production = e :: es → st.frame < e.1) →
      ∀ e es, emplaceProd production (st.frame + (tt.info th.type).buildTime) th.type = e :: es →
        st.frame < e.1 := by
    intro production hprod e es he
    rcases emplaceProd_head he with rfl | ⟨es', hes'⟩
    · exact lt_add_of_pos_right _ htime
    · exact hprod e es' hes'
  intro e es he
  rw [(start_times ..).2] at he
  rw [(start_times ..).1]
  unfold enlist at he
  split at he
  · exact hone _ (hone _ h) e es he
  · exact hone _ h e es he

lemma supplyCheck_missing {build : T} (h : supplyCheck tt st build = .prebuildSupply) :
    st.maxSupply (tt.info build).race + st.inprodSupply (tt.info build).race < 200 := by
  unfold supplyCheck at h
  dsimp only at h
  split at h
  · split at h
    · split at h
      · cases h
      next hmax =>
        split at h
        next hgt => exact hgt.trans (not_le.mp hmax)
        next => cases h
    · cases h
  · cases h

/-- the state is later, or it is of the same frame, nothing is due and less is left to start -/
def LaterOrLess (tt : TechTree T) (st st' : BuildState T) : Prop :=
  st.frame < st'.frame ∨ st'.frame = st.frame ∧ Settled st' ∧ (Settled st →
    potential tt st' < potential tt st ∨
      potential tt st' = potential tt st ∧ reserve st' < reserve st)

lemma tryBuild_less (hc : Costs tt S) (hS : S th.type) (hb : (tt.info th.type).builder = some b)
    (hmax : st.frame < intMax) (hst : Settled st) (hr : r = .success ∨ r = .builtdep)
    (h : tryBuild tt st th b addon p = some (r, st')) :
    st'.frame = st.frame ∧ Settled st' ∧ (potential tt st' < potential tt st ∨
      potential tt st' = potential tt st ∧ reserve st' < reserve st) := by
  cases tryBuild_decided h with
  | refinery hwants =>
    obtain ⟨hcost, hprovided, hinert⟩ := hc.refinery th.type hS
    have hminerals := hc.minerals th.type hS
    refine ⟨rfl, hst, .inr ⟨addBuilt_potential hinert false, ?_⟩⟩
    refine prebuildRefinery_reserve hcost hprovided ?_
    unfold wantsRefinery at hwants
    simp only [Bool.and_eq_true, decide_eq_true_eq] at hwants
    linarith [hwants.2]
  | prebuilt hsupply =>
    obtain ⟨hcost, hprovided, hrace, hinert⟩ := hc.supply th.type hS
    refine ⟨rfl, hst, .inr ⟨addBuilt_potential hinert true, ?_⟩⟩
    refine addBuilt_reserve hcost hprovided ?_ true
    rw [hrace]
    exact supplyCheck_missing hsupply
  | start hchoice =>
    exact ⟨(start_times ..).1, hst.start (hc.time _ hS) _ _,
      .inl (start_potential hb (hc.time _ hS) hmax hchoice)⟩
  | maxedOut | supply | missing => rcases hr with hr | hr <;> cases hr

lemma tryBuild_frame (h : tryBuild tt st th b addon p = some (r, st')) : st'.frame = st.frame := by
  cases tryBuild_decided h with
  | start => exact (start_times ..).1
  | refinery | prebuilt | maxedOut | supply | missing => rfl

/-- **A call that builds something lets time pass, or uses up some of what is left when everything that
is due has completed.** -/
theorem advance_less {endFrame : Int} (hc : Costs tt S) (hS : S th.type) (hmax : st.frame < intMax)
    (hr : r = .success ∨ r = .builtdep) (h : advance tt st (some th) endFrame = .ok (r, st')) :
    st.frame < st'.frame ∨ st'.frame = st.frame ∧ Settled st' ∧
      (potential tt st' < potential tt (due tt st) ∨
        potential tt st' = potential tt (due tt st) ∧ reserve st' < reserve (due tt st)) := by
  have hne : r ≠ .timeout := by
    rintro rfl
    rcases hr with hr | hr <;> cases hr
  have hlt : st.frame < endFrame := by
    by_contra hge
    unfold advance at h
    rw [if_pos (not_lt.mp hge)] at h
    cases h
    exact hne rfl
  rcases advance_decides hlt h with ⟨_, -, rfl, -⟩ | ⟨b, addon, p, d, hb, -, hd, hres⟩
  · rcases hr with hr | hr <;> cases hr
  · have hbuilt := hres.resolve_right fun hwait => hne hwait.2.1
    rcases hd.due_or_later hlt with hdue | hlater
    · rw [hdue] at hbuilt
      obtain ⟨hframe, hsettled, hless⟩ := tryBuild_less hc hS hb (by rw [due_frame]; exact hmax)
        (due_settled tt st) hr hbuilt
      exact .inr ⟨hframe.trans (due_frame ..), hsettled, hless⟩
    · rw [← tryBuild_frame hbuilt] at hlater
      exact .inl hlater

lemma Builds.laterOrLess {rank : T → Nat} (hr : RankedOn tt rank S) (hc : Costs tt S)
    (hS : S th.type) (hmax : st.frame < intMax) (h : Builds tt st th st') : LaterOrLess tt st st' := by
  obtain ⟨n, hn⟩ := h
  obtain ⟨st₁, th₁, r, hst₁, hS₁, hbuilt, hcall⟩ :=
    depLoop_started hr.closed (.inl rfl) hS (hn n le_rfl)
  have hframe : st₁.frame = st.frame := by
    rcases hst₁ with rfl | rfl
    · rfl
    · exact due_frame ..
  have hdue : due tt st₁ = due tt st := by
    rcases hst₁ with rfl | rfl
    · rfl
    · exact due_due ..
  rcases advance_less hc hS₁ (by rw [hframe]; exact hmax) hbuilt hcall with hlater | ⟨hsame, hs, hless⟩
  · exact .inl (hframe ▸ hlater)
  · refine .inr ⟨hsame.trans hframe, hs, fun hst => ?_⟩
    rw [hdue, hst.due_eq] at hless
    exact hless

end step

end TorchCraft.AutoBuild
