import TorchCraft.Placer.Reservations

/-!
# Reserving an area

`reserveArea` and `unreserveArea` change all tiles of a building or none, and each undoes the other.
The source walks over the tiles with a pointer into an array that is wider than the map.

* `mem_area`, `area_nodup`  the tiles of a building: a rectangle, each once;
* `walk_eq`  the places of the array that the pointer meets;
* `reserveArea_atomic`  the whole statement.
-/

set_option linter.unusedSectionVars false

namespace TorchCraft.Placer
open Lib List

/-! ## the pointer -/

def tilesWidth : Nat := 256

def slot (t : Tile) : Nat := tilesWidth * t.2 + t.1

/-- the inner loop: the places it visits, and the pointer after it -/
def walkRow : Nat → Nat → List Nat × Nat
  | 0, ptr => ([], ptr)
  | ix + 1, ptr => (ptr :: (walkRow ix (ptr + 1)).1, (walkRow ix (ptr + 1)).2)

def walk (width : Nat) : Nat → Nat → List Nat
  | 0, _ => []
  | iy + 1, ptr =>
    (walkRow width ptr).1 ++ walk width iy ((walkRow width ptr).2 + (tilesWidth - width))

lemma walkRow_eq (n ptr : Nat) : walkRow n ptr = ((List.range n).map (ptr + ·), ptr + n) := by
  induction n generalizing ptr with
  | zero => rfl
  | succ n ih =>
    simp only [walkRow, ih, range_succ_eq_map, map_cons, map_map]
    refine Prod.ext (congrArg (ptr :: ·) (map_congr_left fun i _ => ?_)) ?_
    · show ptr + 1 + i = ptr + (i + 1)
      omega
    · show ptr + 1 + n = ptr + (n + 1)
      omega

lemma walk_eq_flatMap {width : Nat} (h : width ≤ tilesWidth) (n ptr : Nat) :
    walk width n ptr = (List.range n).flatMap fun dy =>
      (List.range width).map fun dx => ptr + tilesWidth * dy + dx := by
  induction n generalizing ptr with
  | zero => rfl
  | succ n ih =>
    rw [walk, walkRow_eq, ih, range_succ_eq_map, flatMap_cons, flatMap_map]
    have hrow (dy : Nat) : ptr + width + (tilesWidth - width) + tilesWidth * dy
        = ptr + tilesWidth * (dy + 1) := by
      rw [Nat.mul_add]
      omega
    simp only [hrow, Nat.mul_zero, Nat.add_zero, Nat.succ_eq_add_one]

section areas
variable {B : Type} [DecidableEq B] (T : BuildTypes B)

lemma walk_eq {type : B} (p : Position) (h : T.tileWidth type ≤ tilesWidth) :
    walk (T.tileWidth type) (T.tileHeight type) (slot (beginTile p)) =
      (area T type p).map slot := by
  rw [walk_eq_flatMap h, area, map_flatMap]
  refine congrArg (flatMap · _) (funext fun dy => ?_)
  rw [map_map]
  refine map_congr_left fun dx _ => ?_
  simp only [slot, Function.comp_apply, Nat.mul_add]
  omega

lemma slot_inj {t t' : Tile} (h : t.1 < tilesWidth) (h' : t'.1 < tilesWidth)
    (heq : slot t = slot t') : t = t' := by
  unfold slot tilesWidth at *
  exact Prod.ext (by omega) (by omega)

/-! ## the tiles of a building -/

lemma mem_area (type : B) (p : Position) (t : Tile) : t ∈ area T type p ↔
    ((beginTile p).1 ≤ t.1 ∧ t.1 < (beginTile p).1 + T.tileWidth type) ∧
      (beginTile p).2 ≤ t.2 ∧ t.2 < (beginTile p).2 + T.tileHeight type := by
  simp only [area, mem_flatMap, mem_map, mem_range]
  constructor
  · rintro ⟨dy, hdy, dx, hdx, rfl⟩
    omega
  · rintro ⟨⟨hx, hx'⟩, hy, hy'⟩
    exact ⟨t.2 - (beginTile p).2, by omega, t.1 - (beginTile p).1, by omega,
      Prod.ext (by dsimp only; omega) (by dsimp only; omega)⟩

lemma area_nodup (type : B) (p : Position) : (area T type p).Nodup := by
  refine nodup_flatMap.mpr ⟨fun dy _ => nodup_range.map fun dx dx' h => ?_, ?_⟩
  · exact Nat.add_left_cancel (Prod.mk.inj h).1
  · refine nodup_range.imp fun hne => ?_
    rintro t ht ht'
    obtain ⟨dx, -, rfl⟩ := mem_map.mp ht
    obtain ⟨dx', -, h⟩ := mem_map.mp ht'
    exact hne (Nat.add_left_cancel (Prod.mk.inj h).2.symm)

variable {T} in
lemma settable_area {flags : Tile → Bool} {type : B} {p : Position} {reserve : Bool} :
    Settable flags (area T type p) reserve ↔ ∀ t ∈ area T type p, flags t = !reserve :=
  and_iff_left (area_nodup T type p)

/-! ## both operations -/

def TilesInfo.reserveArea (tt : TilesInfo) (type : B) (p : Position) :
    Except Error Unit × TilesInfo :=
  tt.reserveAreaImpl T true type p

def TilesInfo.unreserveArea (tt : TilesInfo) (type : B) (p : Position) :
    Except Error Unit × TilesInfo :=
  tt.reserveAreaImpl T false type p

lemma set_set (tt : TilesInfo) {l : List Tile} {b : Bool}
    (h : ∀ t ∈ l, tt.reservedAsUnbuildable t = b) (b' : Bool) : (tt.set l b').set l b = tt := by
  have hflags : setAll (setAll tt.reservedAsUnbuildable l b') l b = tt.reservedAsUnbuildable := by
    funext t
    simp only [setAll]
    split
    next ht => exact (h t ht).symm
    next => rfl
  rw [TilesInfo.set, TilesInfo.set, hflags]

/-- what one of the two does: all or nothing, and the other one takes it back -/
structure Atomic (reserve : Bool) (tt : TilesInfo) (type : B) (p : Position)
    (r : Except Error Unit × TilesInfo) : Prop where
  ok_iff : r.1 = .ok () ↔
    inMap T tt type p = true ∧ ∀ t ∈ area T type p, tt.reservedAsUnbuildable t = !reserve
  all : r.1 = .ok () → r.2.mapTileWidth = tt.mapTileWidth ∧ r.2.mapTileHeight = tt.mapTileHeight ∧
    (∀ t ∈ area T type p, r.2.reservedAsUnbuildable t = reserve) ∧
    ∀ t ∉ area T type p, r.2.reservedAsUnbuildable t = tt.reservedAsUnbuildable t
  none : r.1 ≠ .ok () → r.2 = tt
  back : r.1 = .ok () → r.2.reserveAreaImpl T (!reserve) type p = (.ok (), tt)

lemma atomic_reserveAreaImpl (reserve : Bool) (tt : TilesInfo) (type : B) (p : Position) :
    Atomic T reserve tt type p (tt.reserveAreaImpl T reserve type p) := by
  rcases hr : tt.reserveAreaImpl T reserve type p with ⟨e | u, tt'⟩
  · have hsame : tt' = tt := by
      have h := reserveAreaImpl_error T (congrArg Prod.fst hr)
      rwa [hr] at h
    refine ⟨⟨nofun, fun ⟨hin, hall⟩ => ?_⟩, nofun, fun _ => hsame, nofun⟩
    have hok := (reserveAreaImpl_ok_iff T).mpr ⟨hin, settable_area.mpr hall, rfl⟩
    rw [hr] at hok
    cases hok
  · obtain ⟨hin, hset, rfl⟩ := (reserveAreaImpl_ok_iff T).mp hr
    have hall := settable_area.mp hset
    refine ⟨⟨fun _ => ⟨hin, hall⟩, fun _ => rfl⟩,
      fun _ => ⟨rfl, rfl, fun _ ht => if_pos ht, fun _ ht => if_neg ht⟩, fun h => absurd rfl h,
      fun _ => ?_⟩
    -- every tile of the area has the new flag now
    refine (reserveAreaImpl_ok_iff T).mpr ⟨hin, settable_area.mpr fun t ht => ?_, ?_⟩
    · rw [Bool.not_not]
      exact if_pos ht
    · exact (set_set tt hall reserve).symm

/-- **Reserving an area is atomic, and unreserving it is the inverse.**  -/
theorem reserveArea_atomic (tt : TilesInfo) (type : B) (p : Position) :
    Atomic T true tt type p (tt.reserveArea T type p) ∧
    Atomic T false tt type p (tt.unreserveArea T type p) ∧
    (∀ t, t ∈ area T type p ↔
      ((beginTile p).1 ≤ t.1 ∧ t.1 < (beginTile p).1 + T.tileWidth type) ∧
        (beginTile p).2 ≤ t.2 ∧ t.2 < (beginTile p).2 + T.tileHeight type) ∧
    (tt.mapTileWidth ≤ tilesWidth → inMap T tt type p = true →
      walk (T.tileWidth type) (T.tileHeight type) (slot (beginTile p)) = (area T type p).map slot ∧
      ((area T type p).map slot).Nodup) := by
  refine ⟨atomic_reserveAreaImpl T true tt type p, atomic_reserveAreaImpl T false tt type p,
    mem_area T type p, fun hwide hin => ?_⟩
  simp only [inMap, Bool.and_eq_true, decide_eq_true_eq] at hin
  refine ⟨walk_eq T p (by omega), (area_nodup T type p).map_on fun t ht t' ht' => ?_⟩
  have h := (mem_area T type p t).mp ht
  have h' := (mem_area T type p t').mp ht'
  exact slot_inj (by omega) (by omega)

end areas
end TorchCraft.Placer
