import TorchCraft.Utils.Algorithms

/-!
# Rectangles

* `contains_intersected`, `intersected_comm`  the intersection is the common part;
* `beq_iff`, `intersected_beq`  when the operator `==` answers as the equality does;
* `within_united`, `united_least`  the union contains both, and when it is the least one.
-/

namespace TorchCraft.Utils

structure Rect2T where
  x : Int := 0
  y : Int := 0
  w : Int := 0
  h : Int := 0

namespace Rect2T

/-- the operator `==`; it compares the height with a width -/
def beq (a r : Rect2T) : Bool := a.x == r.x && a.y == r.y && a.w == r.w && a.h == r.w

def empty (a : Rect2T) : Bool := a.w ≤ 0 && a.h ≤ 0

def united (a r : Rect2T) : Rect2T :=
  if a.empty then r
  else if r.empty then a
  else
    let x := min a.x r.x
    let y := min a.y r.y
    ⟨x, y, max (a.x + a.w) (r.x + r.w) - x, max (a.y + a.h) (r.y + r.h) - y⟩

def intersected (a r : Rect2T) : Rect2T :=
  if a.empty || r.empty then {}
  else if a.x ≥ r.x + r.w || r.x ≥ a.x + a.w then {}
  else if a.y ≥ r.y + r.h || r.y ≥ a.y + a.h then {}
  else
    let x := max a.x r.x
    let y := max a.y r.y
    ⟨x, y, min (a.x + a.w) (r.x + r.w) - x, min (a.y + a.h) (r.y + r.h) - y⟩

def contains (a : Rect2T) (p : Position) : Bool :=
  p.1 ≥ a.x && p.1 < a.x + a.w && p.2 ≥ a.y && p.2 < a.y + a.h

def Within (a c : Rect2T) : Prop := ∀ p, a.contains p → c.contains p

def Solid (a : Rect2T) : Prop := 0 < a.w ∧ 0 < a.h

/-- the edges of `a` are not outside of `c`, also if `a` has no points -/
def Inside (a c : Rect2T) : Prop :=
  c.x ≤ a.x ∧ a.x + a.w ≤ c.x + c.w ∧ c.y ≤ a.y ∧ a.y + a.h ≤ c.y + c.h

/-- neither is `empty`, and no edge of one is behind the opposite edge of the other -/
def Meets (a b : Rect2T) : Prop :=
  ¬a.empty ∧ ¬b.empty ∧ a.x < b.x + b.w ∧ b.x < a.x + a.w ∧ a.y < b.y + b.h ∧ b.y < a.y + a.h

/-- what makes the union the least rectangle around both: one of them is `empty`; both have points;
one has and the other does not reach out of it; or the edges around both enclose no point -/
def Tight (a b : Rect2T) : Prop :=
  a.empty ∨ b.empty ∨ a.Solid ∧ (b.Solid ∨ b.Inside a) ∨ b.Solid ∧ a.Inside b ∨
    max (a.x + a.w) (b.x + b.w) ≤ min a.x b.x ∨ max (a.y + a.h) (b.y + b.h) ≤ min a.y b.y

variable {a b c : Rect2T} {p : Position}

@[simp] lemma contains_iff :
    a.contains p ↔ a.x ≤ p.1 ∧ p.1 < a.x + a.w ∧ a.y ≤ p.2 ∧ p.2 < a.y + a.h := by
  simp [contains, and_assoc]

@[simp] lemma empty_iff : a.empty ↔ a.w ≤ 0 ∧ a.h ≤ 0 := by simp [empty]

lemma contains_intersected :
    (a.intersected b).contains p ↔ a.contains p ∧ b.contains p := by
  unfold intersected
  split_ifs
  all_goals
    simp only [Bool.or_eq_true, empty_iff, decide_eq_true_eq, contains_iff] at *
    omega

lemma intersected_comm : a.intersected b = b.intersected a := by
  unfold intersected
  simp only [Bool.or_comm b.empty, Bool.or_comm (decide (b.x ≥ _)), Bool.or_comm (decide (b.y ≥ _)),
    Int.min_comm, Int.max_comm]

lemma within_united : a.Within (a.united b) ∧ b.Within (a.united b) := by
  unfold united
  constructor
  all_goals
    intro p hp
    split_ifs
    all_goals
      simp only [empty_iff, contains_iff] at *
      omega

lemma beq_iff : (a.beq b ↔ a = b) ↔
    ¬(a.x = b.x ∧ a.y = b.y ∧ a.w = b.w ∧ b.w ≠ b.h ∧ (a.h = b.w ∨ a.h = b.h)) := by
  cases a
  cases b
  simp only [beq, Bool.and_eq_true, beq_iff_eq, mk.injEq]
  omega

lemma intersected_eq (h : a.Meets b) :
    a.intersected b = ⟨max a.x b.x, max a.y b.y, min (a.x + a.w) (b.x + b.w) - max a.x b.x,
      min (a.y + a.h) (b.y + b.h) - max a.y b.y⟩ := by
  obtain ⟨ha, hb, hx, hx', hy, hy'⟩ := h
  rw [intersected, if_neg (by simp [ha, hb]), if_neg (by simp; omega), if_neg (by simp; omega)]

lemma intersected_eq_nil (h : ¬a.Meets b) : a.intersected b = {} := by
  unfold intersected
  split_ifs with he hx hy
  · rfl
  · rfl
  · rfl
  · refine absurd ?_ h
    simp only [Bool.or_eq_true, decide_eq_true_eq] at he hx hy
    refine ⟨fun ha => he (.inl ha), fun hb => he (.inr hb), ?_⟩
    omega

/-- The intersection is the same both ways, so the operator compares its height with its width. -/
lemma intersected_beq : (a.intersected b).beq (b.intersected a) ↔ (a.Meets b →
    min (a.x + a.w) (b.x + b.w) - max a.x b.x = min (a.y + a.h) (b.y + b.h) - max a.y b.y) := by
  rw [intersected_comm (a := b)]
  by_cases h : a.Meets b
  · rw [intersected_eq h, beq]
    simp only [h, forall_const, BEq.rfl, Bool.true_and, beq_iff_eq]
    exact eq_comm
  · rw [intersected_eq_nil h]
    exact iff_of_true rfl fun hm => absurd hm h

lemma within_iff (ha : a.Solid) : a.Within c ↔ a.Inside c := by
  simp only [Within, contains_iff, Inside]
  obtain ⟨hw, hh⟩ := ha
  constructor
  · intro h
    have hfirst := h (a.x, a.y) (by simp; omega)
    have hlast := h (a.x + a.w - 1, a.y + a.h - 1) (by simp; omega)
    omega
  · intro h p hp
    omega

lemma solid_of_contains (h : a.contains p) : a.Solid := by
  rw [contains_iff] at h
  unfold Solid
  omega

lemma united_eq (ha : ¬a.empty) (hb : ¬b.empty) :
    a.united b = ⟨min a.x b.x, min a.y b.y, max (a.x + a.w) (b.x + b.w) - min a.x b.x,
      max (a.y + a.h) (b.y + b.h) - min a.y b.y⟩ := by
  rw [united, if_neg ha, if_neg hb]

lemma united_within (h : a.Tight b) (hac : a.Within c) (hbc : b.Within c) :
    (a.united b).Within c := by
  by_cases hae : a.empty
  · rwa [united, if_pos hae]
  by_cases hbe : b.empty
  · rwa [united, if_neg hae, if_pos hbe]
  obtain hs | ⟨hb, hi⟩ | hflat := (h.resolve_left hae).resolve_left hbe
  · rw [within_iff hs.1] at hac
    have hi : b.Inside a ∨ b.Inside c := hs.2.symm.imp_right fun hb => (within_iff hb).mp hbc
    intro p hp
    rw [united_eq hae hbe] at hp
    simp only [contains_iff, Inside] at *
    omega
  · rw [within_iff hb] at hbc
    intro p hp
    rw [united_eq hae hbe] at hp
    simp only [contains_iff, Inside] at *
    omega
  · intro p hp
    rw [united_eq hae hbe, contains_iff] at hp
    dsimp only at hp
    omega

/-- Where the condition fails a flat rectangle counts: one of the two, or a rectangle without points,
contains the points of both and not the union. -/
lemma united_least :
    (∀ c : Rect2T, a.Within c → b.Within c → (a.united b).Within c) ↔ a.Tight b := by
  refine ⟨fun h => ?_, fun h c => united_within h⟩
  by_contra hn
  simp only [Tight, not_or] at hn
  obtain ⟨hae, hbe, ha, hb, hx, hy⟩ := hn
  have hU : (a.united b).Solid := by
    rw [united_eq hae hbe]
    unfold Solid
    dsimp only
    omega
  have hflat {r s : Rect2T} (hr : ¬r.Solid) : r.Within s := fun p hp => absurd (solid_of_contains hp) hr
  by_cases hsa : a.Solid
  · have hsb : ¬b.Solid := fun hsb => ha ⟨hsa, .inl hsb⟩
    have hin := (within_iff hU).mp (h a (fun p hp => hp) (hflat hsb))
    rw [united_eq hae hbe] at hin
    refine ha ⟨hsa, .inr ?_⟩
    unfold Inside at hin ⊢
    dsimp only at hin
    omega
  · by_cases hsb : b.Solid
    · have hin := (within_iff hU).mp (h b (hflat hsa) (fun p hp => hp))
      rw [united_eq hae hbe] at hin
      refine hb ⟨hsb, ?_⟩
      unfold Inside at hin ⊢
      dsimp only at hin
      omega
    · have hin := (within_iff hU).mp (h {} (hflat hsa) (hflat hsb))
      unfold Inside Solid at *
      dsimp only at hin
      omega

/-- **The algebra of rectangles.**  The intersection is the common part and the same both ways, the
union contains both; when `==` tells equality, also of the two intersections, and when the union is
the least rectangle around both. -/
theorem rect_algebra (a b : Rect2T) :
    ((a.beq b ↔ a = b) ↔
      ¬(a.x = b.x ∧ a.y = b.y ∧ a.w = b.w ∧ b.w ≠ b.h ∧ (a.h = b.w ∨ a.h = b.h))) ∧
    (∀ p, (a.intersected b).contains p ↔ a.contains p ∧ b.contains p) ∧
    a.intersected b = b.intersected a ∧
    ((a.intersected b).beq (b.intersected a) ↔ (a.Meets b →
      min (a.x + a.w) (b.x + b.w) - max a.x b.x = min (a.y + a.h) (b.y + b.h) - max a.y b.y)) ∧
    a.Within (a.united b) ∧ b.Within (a.united b) ∧
    ((∀ c : Rect2T, a.Within c → b.Within c → (a.united b).Within c) ↔ a.Tight b) :=
  ⟨beq_iff, fun _ => contains_intersected, intersected_comm, intersected_beq, within_united.1,
    within_united.2, united_least⟩

/-- No rectangle but a square is `==` to itself, and a flat one counts in a union. -/
theorem rect_flaws :
    let r : Rect2T := ⟨0, 0, 1, 2⟩
    let flat : Rect2T := ⟨9, 0, 0, 1⟩
    (r.intersected r).beq (r.intersected r) = false ∧ flat.Within r ∧
      (flat.united r).contains (5, 0) ∧ r.contains (5, 0) = false := by
  refine ⟨by decide, ?_, by decide⟩
  intro p hp
  rw [contains_iff] at hp
  dsimp only at hp
  omega

end Rect2T
end TorchCraft.Utils
