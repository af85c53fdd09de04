import Mathlib.Data.List.Nodup
import Mathlib.Data.Rat.Floor

/-!
# The windows of a position

The defogger counts units in windows of `res` by `res` walktiles, one every `stride` walktiles.
The windows around a position are a range of bins.  The end of the range is cut off at the last bin
and its beginning moves along, so that a position may be counted in bins that end before it.

* `Axis.mem_of_inWindow`, `Axis.forall_mem_iff`  along one axis no window is left out, and when no
  other bin is counted;
* `counted_iff`  the same for both axes.
-/

namespace TorchCraft.Features
open List Function Int

def binRange (nBin res stride x : Int) : Int × Int :=
  let maxb := min (x.tdiv stride) (nBin - 1) + 1
  (max 0 (maxb - (res - x.tmod stride + stride - 1).tdiv stride), maxb)

def upTo (r : Int × Int) : List Int := (List.range (r.2 - r.1).toNat).map fun i : Nat => r.1 + i

structure Bins where
  (nBinY nBinX : Int)
  count : Int × Int → Int → ℚ := fun _ _ => 0

structure DefoggerFeaturizer where
  (resX resY strideX strideY : Int)

/-- `toDefoggerFeature` has the same loops. -/
def incFeature (F : DefoggerFeaturizer) (f : Bins) (c x y : Int) : Bins :=
  let bys := binRange f.nBinY F.resY F.strideY y
  let bxs := binRange f.nBinX F.resX F.strideX x
  { f with
    count := (upTo bys ×ˢ upTo bxs).foldl
      (fun f b => update f b (update (f b) c (f b c + 1))) f.count }

/-- the number of bins; the box is not smaller than a window -/
def nBin (width res stride : Int) : Int := ⌊((width - res : Int) : ℚ) / stride + 1⌋

structure Entry where
  (y x tp : Int)

/-- units to be ignored have the type -1 -/
def addEntry (F : DefoggerFeaturizer) (dest : Bins) (e : Entry) : Bins :=
  if e.tp < 0 then dest else incFeature F dest e.tp e.x e.y

def toDefoggerFeature (width height : Int) (data : List Entry) (res stride : Int) : Bins :=
  data.foldl (addEntry ⟨res, res, stride, stride⟩)
    { nBinY := nBin height res stride, nBinX := nBin width res stride }

/-! ## one axis -/

def inWindow (res stride b x : Int) : Bool := b * stride ≤ x ∧ x < b * stride + res

/-- The position is before the end of the last stride, in a gap between windows or in the first
window. -/
def Inner (width res stride x : Int) : Prop :=
  x / stride ≤ (width - res) / stride ∨ res ≤ x % stride ∨ x < res

/-- the box is not smaller than a window -/
structure Axis (width res stride : Int) : Prop where
  window : 0 ≤ res ∧ 0 < stride
  box : res ≤ width

def IsBin (width res stride b : Int) : Prop := 0 ≤ b ∧ b ≤ (width - res) / stride

lemma mem_upTo {r : Int × Int} {b : Int} : b ∈ upTo r ↔ r.1 ≤ b ∧ b < r.2 := by
  rw [upTo, mem_map]
  constructor
  · rintro ⟨k, hk, rfl⟩
    rw [mem_range] at hk
    omega
  · rintro ⟨hle, hlt⟩
    exact ⟨(b - r.1).toNat, mem_range.mpr (by omega), by omega⟩

lemma nodup_upTo (r : Int × Int) : (upTo r).Nodup := nodup_range.map fun i j h => by simpa using h

lemma nBin_eq {stride : Int} (hs : 0 < stride) (width res : Int) :
    nBin width res stride = (width - res) / stride + 1 := by
  have hcast : (stride.toNat : Int) = stride := toNat_of_nonneg hs.le
  have hdiv := Rat.floor_intCast_div_natCast (width - res) stride.toNat
  rw [← cast_natCast, hcast] at hdiv
  rw [nBin, floor_add_one, hdiv]

section axis
variable {width res stride b x : Int} (h : Axis width res stride) (hx : 0 ≤ x)
include h hx

/-- The range ends behind the last window that starts before the position, or at the last bin; it
has as many bins as windows around the position would have. -/
lemma Axis.mem_binRange : b ∈ upTo (binRange (nBin width res stride) res stride x) ↔
    0 ≤ b ∧ b ≤ min (x / stride) ((width - res) / stride) ∧
      min (x / stride) ((width - res) / stride) + 1 - b ≤ (res - x % stride + stride - 1) / stride := by
  have hmod := Int.emod_lt_of_pos x h.window.2
  have hlen : 0 ≤ res - x % stride + stride - 1 := by
    have := h.window.1
    omega
  rw [mem_upTo, binRange, nBin_eq h.window.2, tdiv_eq_ediv_of_nonneg hx, tmod_eq_emod_of_nonneg hx,
    tdiv_eq_ediv_of_nonneg hlen]
  omega

omit hx in
lemma Axis.inWindow_iff : inWindow res stride b x ↔
    b ≤ x / stride ∧ x / stride + 1 - b ≤ (res - x % stride + stride - 1) / stride := by
  have hdiv := mul_ediv_add_emod x stride
  have hend := Int.le_ediv_iff_mul_le (a := x / stride + 1 - b)
    (b := res - x % stride + stride - 1) h.window.2
  rw [sub_mul, add_mul, mul_comm (x / stride)] at hend
  rw [inWindow, decide_eq_true_eq, hend, Int.le_ediv_iff_mul_le h.window.2]
  omega

lemma Axis.mem_of_inWindow (hb : IsBin width res stride b) (hw : inWindow res stride b x) :
    b ∈ upTo (binRange (nBin width res stride) res stride x) := by
  rw [h.inWindow_iff] at hw
  rw [h.mem_binRange hx]
  unfold IsBin at hb
  omega

/-- **One axis**: exactly the windows around an inner position are counted. -/
lemma Axis.forall_mem_iff : (∀ b, IsBin width res stride b →
    (b ∈ upTo (binRange (nBin width res stride) res stride x) ↔ inWindow res stride b x)) ↔
      Inner width res stride x := by
  have hone := Int.le_ediv_iff_mul_le (a := 1) (b := res - x % stride + stride - 1) h.window.2
  have hlast : 0 ≤ (width - res) / stride :=
    Int.ediv_nonneg (Int.sub_nonneg.mpr h.box) h.window.2.le
  have hfirst : inWindow res stride 0 x ↔ x < res := by
    rw [inWindow, decide_eq_true_eq]
    omega
  rw [h.inWindow_iff] at hfirst
  simp only [h.mem_binRange hx, h.inWindow_iff, IsBin, Inner]
  constructor
  · intro hall
    by_contra hn
    simp only [not_or, not_le, not_lt] at hn
    -- the first bin of the range does not reach the position
    have hbad := hall (max 0 ((width - res) / stride + 1 - (res - x % stride + stride - 1) / stride))
    omega
  · intro hin b hb
    rcases hin with hin | hin | hin
    · omega
    · omega
    · have hreach := hfirst.mpr hin
      omega

lemma Axis.gap_iff : (∀ b, IsBin width res stride b →
    b ∉ upTo (binRange (nBin width res stride) res stride x)) ↔ res ≤ x % stride := by
  have hone := Int.le_ediv_iff_mul_le (a := 1) (b := res - x % stride + stride - 1) h.window.2
  have hlast : 0 ≤ (width - res) / stride :=
    Int.ediv_nonneg (Int.sub_nonneg.mpr h.box) h.window.2.le
  have hpos : 0 ≤ x / stride := Int.ediv_nonneg hx h.window.2.le
  simp only [h.mem_binRange hx, IsBin]
  constructor
  · intro hall
    have hbad := hall (min (x / stride) ((width - res) / stride))
    omega
  · intro hgap b hb
    omega

end axis

/-! ## both axes -/

lemma foldl_inc (c c' : Int) (bs : List (Int × Int)) (f : Int × Int → Int → ℚ) (b : Int × Int) :
    bs.foldl (fun f b => update f b (update (f b) c (f b c + 1))) f b c' =
      f b c' + if c' = c then (bs.count b : ℚ) else 0 := by
  induction bs generalizing f with
  | nil => simp
  | cons a bs ih =>
    rw [foldl_cons, ih, count_cons]
    by_cases ha : b = a
    · subst ha
      by_cases hc : c' = c
      · subst hc
        simp only [update_self, if_pos, beq_self_eq_true, Nat.cast_add, Nat.cast_one]
        ring
      · simp [hc]
    · simp [ha, Ne.symm ha]

def contains (F : DefoggerFeaturizer) (b : Int × Int) (x y : Int) : Bool :=
  inWindow F.resY F.strideY b.1 y && inWindow F.resX F.strideX b.2 x

def Fits (F : DefoggerFeaturizer) (W H : Int) (f : Bins) : Prop :=
  f.nBinY = nBin H F.resY F.strideY ∧ f.nBinX = nBin W F.resX F.strideX

def counted (F : DefoggerFeaturizer) (W H : Int) (b : Int × Int) (x y : Int) : Bool :=
  b.1 ∈ upTo (binRange (nBin H F.resY F.strideY) F.resY F.strideY y) ∧
    b.2 ∈ upTo (binRange (nBin W F.resX F.strideX) F.resX F.strideX x)

def InBox (F : DefoggerFeaturizer) (W H : Int) (b : Int × Int) : Prop :=
  IsBin H F.resY F.strideY b.1 ∧ IsBin W F.resX F.strideX b.2

/-- inner along both axes, or in a gap along one of them -/
def Exact (F : DefoggerFeaturizer) (W H x y : Int) : Prop :=
  Inner W F.resX F.strideX x ∧ Inner H F.resY F.strideY y ∨
    F.resX ≤ x % F.strideX ∨ F.resY ≤ y % F.strideY

section
variable {F : DefoggerFeaturizer} {W H : Int} {b : Int × Int}

lemma count_incFeature {f : Bins} (hf : Fits F W H f) (x y c c' : Int) :
    (incFeature F f c x y).count b c' =
      f.count b c' + if c' = c ∧ counted F W H b x y then 1 else 0 := by
  let ys := upTo (binRange (nBin H F.resY F.strideY) F.resY F.strideY y)
  let xs := upTo (binRange (nBin W F.resX F.strideX) F.resX F.strideX x)
  have hmem : b ∈ ys ×ˢ xs ↔ counted F W H b x y := by
    rw [counted, decide_eq_true_eq]
    exact pair_mem_product
  have hcount : (ys ×ˢ xs).count b = if counted F W H b x y then 1 else 0 :=
    ((nodup_upTo _).product (nodup_upTo _)).count.trans (if_congr hmem rfl rfl)
  have hadd : (incFeature F f c x y).count b c' = _ := foldl_inc c c' _ f.count b
  rw [hf.1, hf.2, show _ = _ from hcount] at hadd
  rw [hadd, ite_and]
  push_cast
  rfl

lemma foldl_addEntry {f : Bins} (hf : Fits F W H f) (data : List Entry) (tp : Int) :
    (data.foldl (addEntry F) f).count b tp = f.count b tp +
      data.countP fun e => 0 ≤ e.tp ∧ tp = e.tp ∧ counted F W H b e.x e.y := by
  induction data generalizing f with
  | nil => simp
  | cons e data ih =>
    rw [foldl_cons, countP_cons, addEntry]
    split
    next htp => simp [ih hf, htp]
    next htp =>
      refine (ih (f := incFeature F f e.tp e.x e.y) hf).trans ?_
      rw [count_incFeature hf]
      simp only [not_lt.mp htp, true_and, decide_eq_true_eq]
      push_cast
      ring

lemma countP_eq_iff {A : Type*} {p q : A → Bool} {l : List A} (h : ∀ a ∈ l, p a → q a) :
    l.countP q = l.countP p ↔ ∀ a ∈ l, q a → p a := by
  induction l with
  | nil => simp
  | cons a l ih =>
    rw [forall_mem_cons] at h ⊢
    have hle := countP_mono_left h.2
    rw [countP_cons, countP_cons, ← ih h.2]
    have ha := h.1
    cases hp : p a <;> cases hq : q a <;> simp_all
    omega

variable (hX : Axis W F.resX F.strideX) (hY : Axis H F.resY F.strideY) {x y : Int}
  (hx : 0 ≤ x) (hy : 0 ≤ y)
include hX hY hx hy

lemma counted_of_contains (hb : InBox F W H b) (h : contains F b x y) : counted F W H b x y := by
  rw [contains, Bool.and_eq_true_iff] at h
  rw [counted, decide_eq_true_eq]
  exact ⟨hY.mem_of_inWindow hy hb.1 h.1, hX.mem_of_inWindow hx hb.2 h.2⟩

/-- **Both axes.**  A position that is not inner along one axis is counted too often, unless it is in
a gap along the other one. -/
theorem counted_iff :
    (∀ b, InBox F W H b → counted F W H b x y → contains F b x y) ↔ Exact F W H x y := by
  simp only [counted, contains, Bool.and_eq_true_iff, decide_eq_true_eq]
  constructor
  · intro hall
    by_contra hn
    simp only [Exact, not_or] at hn
    obtain ⟨hin, hgx, hgy⟩ := hn
    rw [← hX.gap_iff hx] at hgx
    rw [← hY.gap_iff hy] at hgy
    push Not at hgx hgy
    obtain ⟨bx, hbx, hmx⟩ := hgx
    obtain ⟨by', hby, hmy⟩ := hgy
    refine hin ⟨(hX.forall_mem_iff hx).mp fun b hb => ⟨fun hm => ?_, hX.mem_of_inWindow hx hb⟩,
      (hY.forall_mem_iff hy).mp fun b hb => ⟨fun hm => ?_, hY.mem_of_inWindow hy hb⟩⟩
    · exact (hall (by', b) ⟨hby, hb⟩ ⟨hmy, hm⟩).2
    · exact (hall (b, bx) ⟨hb, hbx⟩ ⟨hm, hmx⟩).1
  · rintro (⟨hix, hiy⟩ | hgx | hgy) b hb hc
    · exact ⟨((hY.forall_mem_iff hy).mpr hiy _ hb.1).mp hc.1,
        ((hX.forall_mem_iff hx).mpr hix _ hb.2).mp hc.2⟩
    · exact absurd hc.2 ((hX.gap_iff hx).mpr hgx _ hb.2)
    · exact absurd hc.1 ((hY.gap_iff hy).mpr hgy _ hb.1)

end

/-- **What the bins count.**  All bins count the positions in their windows exactly if the positions
that are counted are `Exact`. -/
theorem windows_exact (F : DefoggerFeaturizer) (W H : Int) (hX : Axis W F.resX F.strideX)
    (hY : Axis H F.resY F.strideY) :
    (∀ f, Fits F W H f → ∀ x y, 0 ≤ x → 0 ≤ y →
      ((∀ b, InBox F W H b → ∀ c c', (incFeature F f c x y).count b c' =
        f.count b c' + if c' = c ∧ contains F b x y then 1 else 0) ↔ Exact F W H x y)) ∧
    ∀ res stride, F = ⟨res, res, stride, stride⟩ → ∀ data : List Entry,
      (∀ e ∈ data, 0 ≤ e.x ∧ 0 ≤ e.y) →
      ((∀ b, InBox F W H b → ∀ tp, (toDefoggerFeature W H data res stride).count b tp =
        data.countP fun e => 0 ≤ e.tp ∧ tp = e.tp ∧ contains F b e.x e.y) ↔
          ∀ e ∈ data, 0 ≤ e.tp → Exact F W H e.x e.y) := by
  refine ⟨fun f hf x y hx hy => ?_, ?_⟩
  · rw [← counted_iff hX hY hx hy]
    refine forall₂_congr fun b hb => ?_
    have hsub := counted_of_contains hX hY hx hy hb
    simp only [count_incFeature hf, add_right_inj]
    constructor
    · intro h hc
      have h00 := h 0 0
      by_contra hn
      simp [hc, hn] at h00
    · intro h c c'
      exact if_congr (and_congr_right fun _ => ⟨h, hsub⟩) rfl rfl
  · rintro res stride rfl data hdata
    have hcount (b : Int × Int) (tp : Int) : (toDefoggerFeature W H data res stride).count b tp = _ :=
      (foldl_addEntry (b := b) ⟨rfl, rfl⟩ data tp).trans (zero_add _)
    have hsub {b : Int × Int} (hb : InBox ⟨res, res, stride, stride⟩ W H b) (tp : Int) (e : Entry)
        (he : e ∈ data) : decide (0 ≤ e.tp ∧ tp = e.tp ∧ contains ⟨res, res, stride, stride⟩ b e.x e.y) →
          decide (0 ≤ e.tp ∧ tp = e.tp ∧ counted ⟨res, res, stride, stride⟩ W H b e.x e.y) := by
      simp only [decide_eq_true_eq]
      intro h
      exact ⟨h.1, h.2.1, counted_of_contains hX hY (hdata e he).1 (hdata e he).2 hb h.2.2⟩
    constructor
    · intro hall e he htp
      refine (counted_iff hX hY (hdata e he).1 (hdata e he).2).mp fun b hb hc => ?_
      have hb' := hall b hb e.tp
      rw [hcount, Nat.cast_inj, countP_eq_iff (hsub hb e.tp)] at hb'
      exact (of_decide_eq_true (hb' e he (decide_eq_true ⟨htp, rfl, hc⟩))).2.2
    · intro hexact b hb tp
      rw [hcount, Nat.cast_inj, countP_eq_iff (hsub hb tp)]
      intro e he hc
      obtain ⟨htp, heq, hc⟩ := of_decide_eq_true hc
      exact decide_eq_true ⟨htp, heq, (counted_iff hX hY (hdata e he).1 (hdata e he).2).mpr
        (hexact e he htp) b hb hc⟩

def windows : DefoggerFeaturizer := ⟨4, 4, 3, 3⟩

theorem windows_exact_first :
    (incFeature windows { nBinY := 3, nBinX := 3 } 0 2 2).count (0, 0) 0 = 1 ∧
      (toDefoggerFeature 10 10 [⟨2, 2, 0⟩] 4 3).count (0, 0) 0 = 1 ∧
      ¬ ∀ b, InBox windows 10 10 b → ∀ tp, (toDefoggerFeature 10 10 [⟨0, 9, 0⟩] 4 3).count b tp =
        countP (fun e : Entry => 0 ≤ e.tp ∧ tp = e.tp ∧ contains windows b e.x e.y) [⟨0, 9, 0⟩] := by
  have h : Axis 10 4 3 := ⟨by decide, by decide⟩
  obtain ⟨hinc, hdata⟩ := windows_exact windows 10 10 h h
  have hbin : InBox windows 10 10 (0, 0) := by
    unfold InBox IsBin
    decide
  have hexact : Exact windows 10 10 2 2 := .inl ⟨.inl (by decide), .inl (by decide)⟩
  refine ⟨((hinc _ ⟨?_, ?_⟩ 2 2 ?_ ?_).mpr hexact _ hbin 0 0).trans ?_,
    ((hdata 4 3 rfl _ ?_).mpr (forall_mem_singleton.mpr fun _ => hexact) _ hbin 0).trans ?_, ?_⟩
  · decide +kernel
  · decide +kernel
  · decide
  · decide
  · decide +kernel
  · exact forall_mem_singleton.mpr ⟨by decide, by decide⟩
  · decide +kernel
  · rw [hdata 4 3 rfl _ (forall_mem_singleton.mpr ⟨by decide, by decide⟩)]
    intro h
    exact absurd (h _ (mem_singleton_self _) (le_refl 0)) (by unfold Exact Inner; decide)

/-- Bin 1 along `x` ends before 7, and is counted for 9. -/
theorem counted_behind : contains windows (0, 1) 9 0 = false ∧
    (incFeature windows { nBinY := nBin 10 4 3, nBinX := nBin 10 4 3 } 0 9 0).count (0, 1) 0 = 1 ∧
      (toDefoggerFeature 10 10 [⟨0, 9, 0⟩] 4 3).count (0, 1) 0 = 1 := by
  decide +kernel

end TorchCraft.Features
