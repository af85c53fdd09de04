import TorchCraft.Placer.Layout
import TorchCraft.Utils.Algorithms

/-!
# Where a building goes

* `canPlaceBuildingAtTile`  the test of a tile, for which the tiles of the building are reserved and
  given back;
* `findBuildLocation`  a search for tiles that pass, and the best of them;
* `findBuildLocation_safe`  the search ends, throws nothing, and changes no tile;
* `upcWithPositionForBuilding`, `reservable_iff`  which positions can be reserved.

`positionProb` is defined for every position.  The area of a position, the seeds and the scores are
given.
-/

set_option linter.unusedSectionVars false

namespace TorchCraft.Placer
open Lib Search List Utils

section locations
variable {B : Type} [DecidableEq B] (T : Types B)

/-! ## the test of a tile -/

def checked : Except Error Unit × TilesInfo → Run TilesInfo
  | (.ok _, tt) => .ret tt
  | (.error e, _) => .raise e.text

/-- the calls for the building and for the add-on are those of `fullReserveImpl` -/
def canPlaceBuildingAtTile (positionProb : Position → ℚ) (type : B) (t : Tile) (s : State B)
    (n : Nat) : Run (Bool × State B) :=
  let pos := corner t
  if !canBuildAt T s type pos then .ret (false, s)
  else if positionProb pos = 0 then .ret (false, s)
  else if !(addonOf T.toBuildTypes type).all fun addon =>
      canBuildAt T s addon (addonPosition T.toBuildTypes type addon pos) then .ret (false, s)
  else
    (checked (fullReserveImpl T.toBuildTypes true s.tilesInfo type pos)).bind fun tt =>
    (buildingLayoutValid { s with tilesInfo := tt } pos n).bind fun ok =>
    (checked (fullReserveImpl T.toBuildTypes false tt type pos)).bind fun tt =>
    .ret (ok, { s with tilesInfo := tt })

/-! ## the search -/

def tileAt (index : Nat) : Tile := (index % tilesWidth, index / tilesWidth)

def seedTile (loc : Position) : Option Tile :=
  if loc.x < 0 ∨ loc.y < 0 then none
  else if slot (beginTile loc) < tilesWidth * tilesWidth then some (tileAt (slot (beginTile loc)))
  else none

def near (s : State B) (t : Tile) : List Tile := (beside s t).map fun t => tileAt (slot t)

def walkable (s : State B) (t : Tile) : Bool := (s.tile t).entirelyWalkable

def findLoop (positionProb : Position → ℚ) (type : B) (n : Nat) :
    Nat → Front Tile → List Tile → State B → Run (List Tile × State B)
  | 0, _, valid, s => .ret (valid, s)
  | k + 1, f, valid, s =>
    match f.queue with
    | [] => .ret (valid, s)
    | t :: queue =>
      (canPlaceBuildingAtTile T positionProb type t s n).bind fun r =>
        let valid := if r.1 then valid ++ [t] else valid
        if r.1 && decide (64 ≤ valid.length) then .ret (valid, r.2)
        else findLoop positionProb type n k
          (Front.addAll (walkable r.2) ⟨f.seen, queue⟩ (near r.2 t)) valid r.2

def seeded (seeds : List Position) : Front Tile :=
  ⟨fun t => (seeds.filterMap seedTile).any fun t' => decide (t' = t), seeds.filterMap seedTile⟩

def ordered (K : Type) [LinearOrder K] : Utils.Scoring K where
  lt a b := decide (a < b)
  invalid _ := false

variable {K A : Type} [LinearOrder K] {score : A → K} {l : List A}

def nowhere : Position := ⟨-1, -1⟩

def findBuildLocation (positionProb : Position → ℚ) (score : State B → B → Tile → K) (type : B)
    (seeds : List Position) (s : State B) (n : Nat) : Run (Position × State B) :=
  if s.tilesInfo.mapTileWidth ≤ 1 ∨ s.tilesInfo.mapTileHeight ≤ 1 then .ret (nowhere, s)
  else
    (findLoop T positionProb type n 1024 (seeded seeds) [] s).bind fun r =>
      let best := getBestScoreCopy (ordered K) (score r.2 type) r.1
      .ret ((best.map corner).getD nowhere, r.2)

def visited (s : State B) (seeds : List Position) : List Tile :=
  if s.tilesInfo.mapTileWidth ≤ 1 ∨ s.tilesInfo.mapTileHeight ≤ 1 then []
  else taken (near s) (walkable s) 1024 (seeded seeds)

/-! ## the best score -/

def IsBest (score : A → K) (l : List A) (best : Nat × K) : Prop :=
  ∃ a, l[best.1]? = some a ∧ best.2 = score a ∧ ∀ b ∈ l, score a ≤ score b

lemma IsBest.snoc {best : Nat × K} (h : IsBest score l best) (a : A) :
    IsBest score (l ++ [a]) (if score a < best.2 then (l.length, score a) else best) := by
  obtain ⟨b, hb, hs, hmin⟩ := h
  split
  next hlt =>
    refine ⟨a, by simp, rfl, forall_mem_append.mpr ⟨fun c hc => ?_, forall_mem_singleton.mpr le_rfl⟩⟩
    exact (le_of_lt (hs ▸ hlt)).trans (hmin c hc)
  next hlt =>
    have hlen := (List.getElem?_eq_some_iff.mp hb).1
    exact ⟨b, by rw [getElem?_append_left hlen, hb], hs,
      forall_mem_append.mpr ⟨hmin, forall_mem_singleton.mpr (hs ▸ not_lt.mp hlt)⟩⟩

lemma bestFrom_isBest {best : Nat × K} (h : IsBest score l best) (l' : List A) :
    ∃ best', bestFrom (ordered K) score l.length (some best) l' = some best' ∧
      IsBest score (l ++ l') best' := by
  refine bestFrom_rule (I := fun l best => ∃ b, best = some b ∧ IsBest score l b) ?_
    ⟨best, rfl, h⟩ l'
  rintro l _ a ⟨b, rfl, hb⟩
  refine ⟨_, ?_, hb.snoc a⟩
  by_cases h : score a < b.2 <;> simp [better, ordered, h]

lemma getBestScoreCopy_min (score : A → K) (hl : l ≠ []) :
    ∃ a ∈ l, getBestScoreCopy (ordered K) score l = some a ∧ ∀ b ∈ l, score a ≤ score b := by
  obtain ⟨a, l, rfl⟩ := exists_cons_of_ne_nil hl
  have hfirst : IsBest score [a] (0, score a) := ⟨a, rfl, rfl, by simp⟩
  obtain ⟨best, heq, b, hb, -, hmin⟩ := bestFrom_isBest hfirst l
  have heq : getBestScore (ordered K) score (a :: l) = some best.1 :=
    congrArg (·.map Prod.fst) heq
  have hb : (a :: l)[best.1]? = some b := hb
  exact ⟨b, mem_of_getElem? hb,
    by simp [getBestScoreCopy, getBestScorePointer, heq, hb], hmin⟩

/-! ## the test changes nothing -/

variable {T} {s : State B} {type : B} {positionProb : Position → ℚ} {p : Position}

lemma checked_eq_ret {r : Except Error Unit × TilesInfo} {tt : TilesInfo} :
    checked r = .ret tt ↔ r = (.ok (), tt) := by
  obtain ⟨_ | _, tt'⟩ := r <;> simp [checked]

lemma fullReserveImpl_back {tt tt' tt'' : TilesInfo}
    (h : fullReserveImpl T.toBuildTypes true tt type p = (.ok (), tt')) :
    fullReserveImpl T.toBuildTypes false tt' type p = (.ok (), tt'') ↔ tt'' = tt := by
  obtain ⟨hfits, hset, rfl⟩ := (fullReserveImpl_ok_iff _).mp h
  rw [fullReserveImpl_ok_iff]
  generalize footprint T.toBuildTypes type p = l at hset
  have hset' : Settable (tt.set l true).reservedAsUnbuildable l false :=
    ⟨fun t ht => if_pos ht, hset.2⟩
  have hback : (tt.set l true).set l false = tt := set_set tt hset.1 true
  rw [hback]
  exact ⟨fun h => h.2.2, fun h => ⟨hfits, hset', h⟩⟩

def Reservable (T : Types B) (s : State B) (type : B) (p : Position) : Prop :=
  (fullReserveImpl T.toBuildTypes true s.tilesInfo type p).1 = .ok ()

/-- **A test that returns changes nothing, and where it passes the building can be reserved.** -/
theorem canPlaceBuildingAtTile_inv {t : Tile} {n : Nat} {r : Bool × State B}
    (h : canPlaceBuildingAtTile T positionProb type t s n = .ret r) :
    r.2 = s ∧ (r.1 → Reservable T s type (corner t)) := by
  dsimp only [canPlaceBuildingAtTile] at h
  split at h
  · cases h
    exact ⟨rfl, (absurd · Bool.false_ne_true)⟩
  split at h
  · cases h
    exact ⟨rfl, (absurd · Bool.false_ne_true)⟩
  split at h
  · cases h
    exact ⟨rfl, (absurd · Bool.false_ne_true)⟩
  · obtain ⟨tt, htt, h⟩ := Run.bind_eq_ret.mp h
    obtain ⟨ok, -, h⟩ := Run.bind_eq_ret.mp h
    obtain ⟨tt', htt', h⟩ := Run.bind_eq_ret.mp h
    have htt := checked_eq_ret.mp htt
    obtain rfl := (fullReserveImpl_back htt).mp (checked_eq_ret.mp htt')
    cases h
    exact ⟨rfl, fun _ => congrArg Prod.fst htt⟩

/-! ## the test ends -/

def AddonFree (T : Types B) (s : State B) (type : B) (p : Position) : Prop :=
  ∀ addon, addonOf T.toBuildTypes type = some addon →
    inMap T.toBuildTypes s.tilesInfo addon (addonPosition T.toBuildTypes type addon p) = true ∧
    ∀ t ∈ area T.toBuildTypes addon (addonPosition T.toBuildTypes type addon p),
      s.tilesInfo.reservedAsUnbuildable t = false

lemma area_disjoint_addon (hwide : s.tilesInfo.mapTileWidth ≤ tilesWidth)
    (addon : B) (hin : inMap T.toBuildTypes s.tilesInfo type p) :
    (area T.toBuildTypes type p).Disjoint
      (area T.toBuildTypes addon (addonPosition T.toBuildTypes type addon p)) := by
  intro t ht ht'
  have h := ((mem_area _ type p t).mp ht).1
  have h' := ((mem_area _ addon _ t).mp ht').1
  simp only [inMap, Bool.and_eq_true, decide_eq_true_eq] at hin
  simp only [beginTile, addonPosition, toUnsigned, walktilesPerBuildtile] at h h' hin
  unfold tilesWidth at hwide
  omega

lemma fst_eq_ok_iff {r : Except Error Unit × TilesInfo} : r.1 = .ok () ↔ ∃ tt, r = (.ok (), tt) :=
  ⟨fun h => ⟨r.2, Prod.ext h rfl⟩, fun ⟨_, h⟩ => congrArg Prod.fst h⟩

/-- **A building can be reserved if it is on the map, its tiles are free, and there is room for its
add-on.** -/
theorem reservable_iff_free (hwide : s.tilesInfo.mapTileWidth ≤ tilesWidth) :
    Reservable T s type p ↔
      (inMap T.toBuildTypes s.tilesInfo type p ∧
        ∀ t ∈ area T.toBuildTypes type p, s.tilesInfo.reservedAsUnbuildable t = false) ∧
      AddonFree T s type p := by
  have hnodup := area_nodup T.toBuildTypes
  rw [Reservable, fst_eq_ok_iff]
  simp only [fullReserveImpl_ok_iff, exists_and_left, exists_eq, and_true, fits, footprint,
    AddonFree, Bool.and_eq_true, Settable, Bool.not_true]
  cases addonOf T.toBuildTypes type with
  | none => simp [hnodup]
  | some addon =>
    simp only [Option.all_some, Option.map_some, Option.getD_some, Option.some.injEq, forall_eq',
      mem_append]
    constructor
    · rintro ⟨⟨hin, haddon⟩, hset, -⟩
      exact ⟨⟨hin, fun t ht => hset t (.inl ht)⟩, haddon, fun t ht => hset t (.inr ht)⟩
    · rintro ⟨⟨hin, hfree⟩, haddon, hset⟩
      refine ⟨⟨hin, haddon⟩, fun t ht => ht.elim (hfree t) (hset t), ?_⟩
      exact (hnodup type p).append (hnodup addon _) (area_disjoint_addon hwide addon hin)

lemma onMap_of_inMap (h : inMap T.toBuildTypes s.tilesInfo type p) : OnMap s (beginTile p) := by
  simp only [inMap, Bool.and_eq_true, decide_eq_true_eq] at h
  exact ⟨h.1.1.1, h.1.2⟩

/-- **The test of a tile ends, with an answer that does not depend on the fuel.** -/
theorem canPlaceBuildingAtTile_ret (hwide : s.tilesInfo.mapTileWidth ≤ tilesWidth) (t : Tile) :
    ∃ ok, ∀ n, s.tileCount < n →
      canPlaceBuildingAtTile T positionProb type t s n = .ret (ok, s) := by
  dsimp only [canPlaceBuildingAtTile]
  split
  · exact ⟨false, fun _ _ => rfl⟩
  next hcan =>
  split
  · exact ⟨false, fun _ _ => rfl⟩
  split
  · exact ⟨false, fun _ _ => rfl⟩
  next haddon =>
  have hfree := canBuildAt_reservable T s type (by simpa using hcan)
  have haddon : AddonFree T s type (corner t) := by
    intro addon h
    rw [h, Option.all_some, Bool.not_eq_true', Bool.not_eq_false] at haddon
    exact canBuildAt_reservable T s addon haddon
  obtain ⟨tt, htt⟩ := fst_eq_ok_iff.mp ((reservable_iff_free hwide).mpr ⟨hfree, haddon⟩)
  obtain ⟨-, -, hset⟩ := (fullReserveImpl_ok_iff _).mp htt
  -- the size of the map is still the same
  have hstart : OnMap { s with tilesInfo := tt } (beginTile (corner t)) := by
    rw [hset]
    exact onMap_of_inMap hfree.1
  obtain ⟨ok, -, hok⟩ := layoutValid_eq hstart
  refine ⟨ok, fun n hn => ?_⟩
  rw [checked_eq_ret.mpr htt, Run.ret_bind, buildingLayoutValid, hok _ n (by rwa [hset]),
    Run.ret_bind, checked_eq_ret.mpr ((fullReserveImpl_back htt).mpr rfl), Run.ret_bind]

/-! ## the search is safe -/

lemma tileAt_slot {t : Tile} (h : t.1 < tilesWidth) : tileAt (slot t) = t := by
  unfold tileAt slot tilesWidth at *
  exact Prod.ext (by dsimp only; omega) (by dsimp only; omega)

lemma reach_near_onMap (hwide : s.tilesInfo.mapTileWidth ≤ tilesWidth) {start : List Tile}
    (hstart : ∀ t ∈ start, OnMap s t) {t : Tile} (h : Reach (near s) (walkable s) start t) :
    OnMap s t := by
  induction h with
  | start h => exact hstart _ h
  | step _ hy _ ih =>
    obtain ⟨t', ht', rfl⟩ := mem_map.mp hy
    have hmap := ((mem_beside ih).mp ht').2
    rwa [tileAt_slot (lt_of_lt_of_le hmap.1 hwide)]

lemma findLoop_eq {n : Nat} {ok : Tile → Bool} (k : Nat) (f : Front Tile) (valid : List Tile)
    (hvalid : valid.length < 64) (hok : ∀ t ∈ taken (near s) (walkable s) k f,
      canPlaceBuildingAtTile T positionProb type t s n = .ret (ok t, s)) :
    findLoop T positionProb type n k f valid s = .ret
      (valid ++ ((taken (near s) (walkable s) k f).filter ok).take (64 - valid.length), s) := by
  induction k generalizing f valid with
  | zero => simp [findLoop, taken]
  | succ k ih =>
    obtain ⟨seen, queue⟩ := f
    cases queue with
    | nil => simp [findLoop, taken]
    | cons t queue =>
      have hrest := fun t' ht' => hok t' (mem_cons_of_mem _ ht')
      have htest := hok t (mem_cons_self ..)
      simp only [findLoop, htest, Run.ret_bind]
      dsimp only [taken]
      cases ht : ok t with
      | false =>
        rw [filter_cons_of_neg (by simp [ht]), ← ih _ _ hvalid hrest]
        rfl
      | true =>
        rw [filter_cons_of_pos ht]
        have hlen : 64 - valid.length = (63 - valid.length) + 1 := by omega
        rw [hlen, take_succ_cons]
        by_cases hfull : 64 ≤ (valid ++ [t]).length
        · rw [if_pos (by simpa using hfull)]
          rw [length_append, length_singleton] at hfull
          rw [show 63 - valid.length = 0 by omega]
          rfl
        · rw [if_neg (by simpa using hfull), if_pos rfl, ih _ _ (Nat.lt_of_not_le hfull) hrest]
          simp

section
variable (hwide : s.tilesInfo.mapTileWidth ≤ tilesWidth) {seeds : List Position}
  (hseeds : ∀ loc ∈ seeds, loc.x < 0 ∨ loc.y < 0 ∨ OnMap s (beginTile loc))
include hwide hseeds

lemma onMap_seeds : ∀ t ∈ seeds.filterMap seedTile, OnMap s t := by
  intro t ht
  obtain ⟨loc, hloc, h⟩ := mem_filterMap.mp ht
  unfold seedTile at h
  split at h
  · cases h
  next hneg =>
  split at h
  · cases h
    have hmap := (or_assoc.mpr (hseeds loc hloc)).resolve_left hneg
    rwa [tileAt_slot (lt_of_lt_of_le hmap.1 hwide)]
  · cases h

lemma onMap_visited : ∀ t ∈ visited s seeds, OnMap s t := by
  intro t ht
  unfold visited at ht
  split at ht
  · cases ht
  · have hinit : Search.Inv (near s) (walkable s) (seeds.filterMap seedTile) [] (seeded seeds) :=
      .init fun t => any_eq_iff
    exact reach_near_onMap hwide (onMap_seeds hwide hseeds) (hinit.reach_taken t ht)

end

/-- **The search is safe.**  It stays on the map and leaves the state as it was.  Of the tiles it
visits it collects the first that can hold the building, and returns one with the least score. -/
theorem findBuildLocation_safe (T : Types B) (positionProb : Position → ℚ)
    (score : State B → B → Tile → K) (type : B) (seeds : List Position) (s : State B)
    (hwide : s.tilesInfo.mapTileWidth ≤ tilesWidth)
    (hseeds : ∀ loc ∈ seeds, loc.x < 0 ∨ loc.y < 0 ∨ OnMap s (beginTile loc)) :
    ∃ (ok : Tile → Bool) (pos : Position),
      Returns (findBuildLocation T positionProb score type seeds s) (pos, s) ∧
      (∀ t ∈ visited s seeds, OnMap s t ∧
        Returns (canPlaceBuildingAtTile T positionProb type t s) (ok t, s)) ∧
      (pos = nowhere ∧ (∀ t ∈ visited s seeds, ok t = false) ∨
        ∃ t ∈ ((visited s seeds).filter ok).take 64, pos = corner t ∧
          ∀ t' ∈ ((visited s seeds).filter ok).take 64, score s type t ≤ score s type t') := by
  have htest (t : Tile) : ∃ ok, ∀ n, s.tileCount < n →
      canPlaceBuildingAtTile T positionProb type t s n = .ret (ok, s) :=
    canPlaceBuildingAtTile_ret hwide t
  choose ok hok using htest
  have hvisited (t : Tile) (ht : t ∈ visited s seeds) : OnMap s t ∧
      Returns (canPlaceBuildingAtTile T positionProb type t s) (ok t, s) :=
    ⟨onMap_visited hwide hseeds t ht, _, hok t⟩
  by_cases hsmall : s.tilesInfo.mapTileWidth ≤ 1 ∨ s.tilesInfo.mapTileHeight ≤ 1
  · refine ⟨ok, nowhere, ⟨0, fun n _ => if_pos hsmall⟩, hvisited, .inl ⟨rfl, fun t ht => ?_⟩⟩
    rw [visited, if_pos hsmall] at ht
    cases ht
  · have hloop (n : Nat) (hn : s.tileCount < n) :
        findLoop T positionProb type n 1024 (seeded seeds) [] s =
          .ret (((visited s seeds).filter ok).take 64, s) := by
      rw [visited, if_neg hsmall]
      exact findLoop_eq 1024 (seeded seeds) [] (by decide) fun t _ => hok t n hn
    generalize hc : ((visited s seeds).filter ok).take 64 = collected at hloop
    generalize hbest : getBestScoreCopy (ordered K) (score s type) collected = best
    have hreturns : Returns (findBuildLocation T positionProb score type seeds s)
        ((best.map corner).getD nowhere, s) := by
      refine ⟨s.tileCount + 1, fun n hn => ?_⟩
      rw [findBuildLocation, if_neg hsmall, hloop n hn, Run.ret_bind, hbest]
    refine ⟨ok, _, hreturns, hvisited, ?_⟩
    rw [hc]
    by_cases hnil : collected = []
    · left
      rw [hnil] at hc hbest
      refine ⟨by rw [← hbest]; rfl, fun t ht => ?_⟩
      have hfilter := (take_eq_nil_iff.mp hc).resolve_left (by decide)
      simpa using filter_eq_nil_iff.mp hfilter t ht
    · right
      obtain ⟨t, ht, hfirst, hmin⟩ := getBestScoreCopy_min (score s type) hnil
      exact ⟨t, ht, by rw [← hbest, hfirst]; rfl, hmin⟩

/-! ## which position is chosen -/

structure ResourceUnit (B : Type) where
  type : B
  pixelX : Int
  pixelY : Int

/-- `dimensionLeft` and `dimensionUp`; a geyser fills its tiles -/
structure Dimensions (T : Types B) where
  left : B → Int
  up : B → Int
  geyser_left : left T.resourceVespeneGeyser = 16 * T.tileWidth T.resourceVespeneGeyser
  geyser_up : up T.resourceVespeneGeyser = 16 * T.tileHeight T.resourceVespeneGeyser

/-- what `upcWithPositionForBuilding` meets: the UPC, its copy restricted to the area, the seeds,
the resources -/
structure Request (B : Type) where
  upcPos : Position
  prob : ℚ
  positionProb : Position → ℚ
  areaProb : Position → ℚ
  seeds : List Position
  score : State B → B → Tile → ℚ
  resourceUnits : List (ResourceUnit B)
  /-- the score of a geyser by its nearest depot; `none` is infinite -/
  depotScore : ResourceUnit B → Option ℚ

def ResourceUnit.build (T : Types B) (r : ResourceUnit B) : Position :=
  ⟨(r.pixelX - T.tileWidth r.type * 16).tdiv 8, (r.pixelY - T.tileHeight r.type * 16).tdiv 8⟩

def findGeyserForRefinery (T : Types B) (q : Request B) (type : B) (s : State B) :
    Option (ResourceUnit B) :=
  getBestScoreCopy infty (fun r =>
    if r.type ≠ T.resourceVespeneGeyser then none
    else if !canBuildAt T s type (r.build T) then none
    else if q.positionProb (r.build T) = 0 then none
    else q.depotScore r) q.resourceUnits

variable (D : Dimensions T) (q : Request B)

def findRefineryLocation (type : B) (s : State B) : Position :=
  match findGeyserForRefinery T q type s with
  | some r => ⟨(r.pixelX - D.left r.type).tdiv 8, (r.pixelY - D.up r.type).tdiv 8⟩
  | none => nowhere

def upcWithPositionForBuilding (type : B) (s : State B)
    (n : Nat) : Run (Option Position × State B) :=
  let distance (t : Tile) := distance (corner t).x (corner t).y q.upcPos.x q.upcPos.y
  (if q.prob > 99 / 100 then
    if canBuildAt T s type q.upcPos then .ret (q.upcPos, s)
    else findBuildLocation T q.areaProb (fun _ _ => distance) type [q.upcPos] s n
  else if T.isRefinery type then .ret (findRefineryLocation D q type s, s)
  else findBuildLocation T q.positionProb q.score type q.seeds s n).bind fun r =>
    .ret (if r.1 = nowhere then none else some r.1, r.2)

/-- the position comes from a search -/
def Searched (T : Types B) (q : Request B) (type : B) (s : State B) : Prop :=
  if q.prob > 99 / 100 then canBuildAt T s type q.upcPos = false else T.isRefinery type = false

lemma findLoop_inv {n k : Nat} {f : Front Tile} {valid : List Tile} {r : List Tile × State B}
    (hvalid : ∀ t ∈ valid, Reservable T s type (corner t))
    (h : findLoop T positionProb type n k f valid s = .ret r) :
    r.2 = s ∧ ∀ t ∈ r.1, Reservable T s type (corner t) := by
  induction k generalizing f valid with
  | zero =>
    cases h
    exact ⟨rfl, hvalid⟩
  | succ k ih =>
    rw [findLoop] at h
    split at h
    · cases h
      exact ⟨rfl, hvalid⟩
    next t queue _ =>
    obtain ⟨⟨ok, s'⟩, htest, hnext⟩ := Run.bind_eq_ret.mp h
    obtain ⟨rfl, hreserve⟩ := canPlaceBuildingAtTile_inv htest
    have hvalid' : ∀ t' ∈ if ok then valid ++ [t] else valid, Reservable T s' type (corner t') := by
      cases ok with
      | false => exact hvalid
      | true => exact forall_mem_append.mpr ⟨hvalid, forall_mem_singleton.mpr (hreserve rfl)⟩
    dsimp only at hnext
    generalize (if ok then valid ++ [t] else valid) = valid' at hvalid' hnext
    split at hnext
    · cases hnext
      exact ⟨rfl, hvalid'⟩
    · exact ih hvalid' hnext

lemma findBuildLocation_inv {score : State B → B → Tile → K} {seeds : List Position} {n : Nat}
    {r : Position × State B} (h : findBuildLocation T positionProb score type seeds s n = .ret r) :
    r.2 = s ∧ (r.1 ≠ nowhere → Reservable T s type r.1) := by
  unfold findBuildLocation at h
  split at h
  · cases h
    exact ⟨rfl, fun h => absurd rfl h⟩
  · obtain ⟨⟨valid, s'⟩, hloop, hbest⟩ := Run.bind_eq_ret.mp h
    obtain ⟨rfl, hvalid⟩ := findLoop_inv (forall_mem_nil _) hloop
    cases hbest
    refine ⟨rfl, fun hpos => ?_⟩
    cases hbest : getBestScoreCopy (ordered K) (score s' type) valid with
    | none => simp [hbest] at hpos
    | some t => exact hvalid t (getBestScoreCopy_spec hbest).1

lemma canBuildAt_refinery
    (h : findRefineryLocation D q type s ≠ nowhere) :
    canBuildAt T s type (findRefineryLocation D q type s) := by
  unfold findRefineryLocation at *
  cases hr : findGeyserForRefinery T q type s with
  | none => simp [hr] at h
  | some r =>
    obtain ⟨-, hscore⟩ := getBestScoreCopy_spec hr
    dsimp only
    split at hscore
    · cases hscore
    next hgeyser =>
    split at hscore
    · cases hscore
    next hcan =>
    have hgeyser : r.type = T.resourceVespeneGeyser := not_not.mp hgeyser
    have hbuild : r.build T =
        ⟨(r.pixelX - D.left r.type).tdiv 8, (r.pixelY - D.up r.type).tdiv 8⟩ := by
      simp only [ResourceUnit.build, hgeyser, D.geyser_left, D.geyser_up, Int.mul_comm]
    rw [← hbuild]
    simpa using hcan

/-! ## all or nothing -/

/-- the building can be reserved, or given back, and its add-on then cannot -/
def Torn (T : BuildTypes B) (reserve : Bool) (tt : TilesInfo) (type : B) (p : Position) : Prop :=
  inMap T tt type p = true ∧ area T type p ≠ [] ∧
    (∀ t ∈ area T type p, tt.reservedAsUnbuildable t = !reserve) ∧
    ∃ addon, addonOf T type = some addon ∧ ¬(inMap T tt addon (addonPosition T type addon p) = true ∧
      ∀ t ∈ area T addon (addonPosition T type addon p),
        t ∉ area T type p ∧ tt.reservedAsUnbuildable t = !reserve)

/-- setting tiles that do not have the value yet changes something -/
lemma TilesInfo.set_eq_self_iff {tt : TilesInfo} {l : List Tile} {reserve : Bool}
    (h : ∀ t ∈ l, tt.reservedAsUnbuildable t = !reserve) : tt.set l reserve = tt ↔ l = [] := by
  constructor
  · intro heq
    refine eq_nil_iff_forall_not_mem.mpr fun t ht => ?_
    have hflag : (tt.set l reserve).reservedAsUnbuildable t = reserve := if_pos ht
    rw [heq, h t ht] at hflag
    exact absurd hflag (by simp)
  · rintro rfl
    exact congrArg (fun f => { tt with reservedAsUnbuildable := f }) (setAll_nil _ _)

lemma TilesInfo.set_flag_iff {tt : TilesInfo} {l : List Tile} {reserve : Bool} {t : Tile} :
    (tt.set l reserve).reservedAsUnbuildable t = !reserve ↔
      t ∉ l ∧ tt.reservedAsUnbuildable t = !reserve := by
  by_cases ht : t ∈ l
  · have hnew : (tt.set l reserve).reservedAsUnbuildable t = reserve := if_pos ht
    simp [hnew, ht]
  · rw [and_iff_right ht]
    exact Eq.congr_left (if_neg ht)

lemma fullReserveImpl_torn (T : BuildTypes B) (reserve : Bool) (tt : TilesInfo) (type : B)
    (p : Position) :
    (fullReserveImpl T reserve tt type p).1 = .ok () ∨
      (fullReserveImpl T reserve tt type p).2 = tt ↔ ¬Torn T reserve tt type p := by
  have hfirst := atomic_reserveAreaImpl T reserve tt type p
  unfold fullReserveImpl Torn
  cases addonOf T type with
  | none =>
    simpa using Decidable.or_iff_not_imp_left.mpr hfirst.none
  | some addon =>
    simp only [Option.some.injEq, exists_eq_left']
    rcases hr : tt.reserveAreaImpl T reserve type p with ⟨e | u, tt'⟩
    · rw [hr] at hfirst
      refine iff_of_true (.inr (hfirst.none nofun)) fun ⟨hin, _, hall, _⟩ => ?_
      exact nomatch hfirst.ok_iff.mpr ⟨hin, hall⟩
    · obtain ⟨hin, hset, rfl⟩ := (reserveAreaImpl_ok_iff T).mp hr
      have hsecond := atomic_reserveAreaImpl T reserve (tt.set (area T type p) reserve) addon
        (addonPosition T type addon p)
      have hok := hsecond.ok_iff
      -- the tiles of the building have the new flag when the add-on is tried
      simp only [TilesInfo.set_flag_iff] at hok
      have hsame : inMap T (tt.set (area T type p) reserve) addon (addonPosition T type addon p) =
        inMap T tt addon (addonPosition T type addon p) := rfl
      rw [hsame] at hok
      by_cases hsucc : ((tt.set (area T type p) reserve).reserveAreaImpl T reserve addon
          (addonPosition T type addon p)).1 = .ok ()
      · exact iff_of_true (.inl hsucc) fun h => h.2.2.2 (hok.mp hsucc)
      · rw [hsecond.none hsucc, TilesInfo.set_eq_self_iff hset.1]
        refine ⟨fun h ht => ht.2.1 (h.resolve_left hsucc), fun h => .inr ?_⟩
        by_contra hne
        exact h ⟨hin, hne, hset.1, fun hadd => hsucc (hok.mpr hadd)⟩

/-- **What can be reserved.**  A position that is returned can be reserved unless there is no room
for the add-on; this is possible only for a position that no search has found. -/
theorem reservable_iff (T : Types B) (D : Dimensions T) (q : Request B) (type : B) (s : State B)
    (hwide : s.tilesInfo.mapTileWidth ≤ tilesWidth) :
    (∀ n p s', upcWithPositionForBuilding D q type s n = .ret (some p, s') → s' = s ∧
      (Reservable T s type p ↔ AddonFree T s type p) ∧
      (Searched T q type s → AddonFree T s type p)) ∧
    ∀ reserve tt (type : B) p,
      (fullReserveImpl T.toBuildTypes reserve tt type p).1 = .ok () ∨
        (fullReserveImpl T.toBuildTypes reserve tt type p).2 = tt ↔
      ¬Torn T.toBuildTypes reserve tt type p := by
  refine ⟨fun n p s' h => ?_, fullReserveImpl_torn T.toBuildTypes⟩
  obtain ⟨⟨pos, s''⟩, hchosen, h⟩ := Run.bind_eq_ret.mp h
  have hsome : pos ≠ nowhere ∧ pos = p ∧ s'' = s' := by
    by_cases hpos : pos = nowhere
    · simp [hpos] at h
    · simpa [hpos] using h
  obtain ⟨hpos, rfl, hstate⟩ := hsome
  rw [hstate] at hchosen
  have hsearched {P : Prop} (h : s' = s ∧ (pos ≠ nowhere → Reservable T s type pos)) : s' = s ∧
      (Reservable T s type pos ↔ AddonFree T s type pos) ∧ (P → AddonFree T s type pos) := by
    have hok := h.2 hpos
    have hfree := ((reservable_iff_free hwide).mp hok).2
    exact ⟨h.1, iff_of_true hok hfree, fun _ => hfree⟩
  have hcan (h : canBuildAt T s type pos) :
      Reservable T s type pos ↔ AddonFree T s type pos := by
    rw [reservable_iff_free hwide, and_iff_right (canBuildAt_reservable T s type h)]
  unfold Searched
  split at hchosen
  next hsharp =>
    rw [if_pos hsharp]
    split at hchosen
    next hsite =>
      cases hchosen
      exact ⟨rfl, hcan hsite, fun h => by simp [hsite] at h⟩
    next => exact hsearched (findBuildLocation_inv hchosen)
  next hsharp =>
    rw [if_neg hsharp]
    split at hchosen
    next hrefinery =>
      cases hchosen
      exact ⟨rfl, hcan (canBuildAt_refinery D q hpos), fun h => by simp [hrefinery] at h⟩
    next => exact hsearched (findBuildLocation_inv hchosen)

lemma upcWithPositionForBuilding_sharp {D : Dimensions T} {q : Request B} (n : Nat)
    (hsharp : q.prob > 99 / 100) (hcan : canBuildAt T s type q.upcPos) (hpos : q.upcPos ≠ nowhere) :
    upcWithPositionForBuilding D q type s n = .ret (some q.upcPos, s) := by
  rw [upcWithPositionForBuilding, if_pos hsharp, if_pos hcan, Run.ret_bind, if_neg hpos]

end locations

def commandCenter : Types Bool :=
  { gateway with
    tileWidth := fun addon => if addon then 2 else 4
    tileHeight := fun addon => if addon then 2 else 3
    commandCenter := false
    comsatStation := true
    requiresPsi := fun _ => false }

def commandCenterSize : Dimensions commandCenter := ⟨fun _ => 32, fun _ => 32, rfl, rfl⟩

def sharp (pos : Position) : Request Bool where
  upcPos := pos
  prob := 1
  positionProb _ := 1
  areaProb _ := 1
  seeds := []
  score _ _ _ := 0
  resourceUnits := []
  depotScore _ := none

theorem findBuildLocation_safe_corner :
    ∃ (ok : Tile → Bool) (pos : Position),
      Returns (findBuildLocation commandCenter (fun _ => 1) (fun _ _ t => t.1) false
        [⟨4, 4⟩, ⟨-1, 0⟩] (besidePylon 320)) (pos, besidePylon 320) ∧
      (∀ t ∈ visited (besidePylon 320) [⟨4, 4⟩, ⟨-1, 0⟩], OnMap (besidePylon 320) t ∧
        Returns (canPlaceBuildingAtTile commandCenter (fun _ => 1) false t (besidePylon 320))
          (ok t, besidePylon 320)) ∧
      (pos = nowhere ∧ (∀ t ∈ visited (besidePylon 320) [⟨4, 4⟩, ⟨-1, 0⟩], ok t = false) ∨
        ∃ t ∈ ((visited (besidePylon 320) [⟨4, 4⟩, ⟨-1, 0⟩]).filter ok).take 64, pos = corner t ∧
          ∀ t' ∈ ((visited (besidePylon 320) [⟨4, 4⟩, ⟨-1, 0⟩]).filter ok).take 64, t.1 ≤ t'.1) :=
  findBuildLocation_safe commandCenter (fun _ => 1) (fun _ _ t => t.1) false [⟨4, 4⟩, ⟨-1, 0⟩]
    (besidePylon 320) (by decide) (by unfold OnMap; decide)

theorem reservable_iff_sharp :
    Reservable commandCenter (besidePylon 320) false ⟨40, 8⟩ ↔
      AddonFree commandCenter (besidePylon 320) false ⟨40, 8⟩ :=
  ((reservable_iff commandCenter commandCenterSize (sharp ⟨40, 8⟩) false (besidePylon 320)
    (by decide)).1 0 ⟨40, 8⟩ (besidePylon 320) (upcWithPositionForBuilding_sharp 0
      (by decide +kernel) (by decide +kernel) (by decide))).2.1

/-- A command center at the right edge of the map, where its add-on has no room: the reservation
throws, and the tiles of the building stay reserved. -/
theorem edge_torn :
    upcWithPositionForBuilding commandCenterSize (sharp ⟨56, 8⟩) false (besidePylon 320) 0 =
      .ret (some ⟨56, 8⟩, besidePylon 320) ∧
    (fullReserveImpl commandCenter.toBuildTypes true (besidePylon 320).tilesInfo false ⟨56, 8⟩).1 =
      .error .reserveOutOfBounds ∧
    (besidePylon 320).tilesInfo.reservedAsUnbuildable (14, 2) = false ∧
    (fullReserveImpl commandCenter.toBuildTypes true (besidePylon 320).tilesInfo false
      ⟨56, 8⟩).2.reservedAsUnbuildable (14, 2) = true := by
  refine ⟨upcWithPositionForBuilding_sharp 0 ?_ ?_ ?_, ?_⟩
  all_goals decide +kernel

end TorchCraft.Placer
