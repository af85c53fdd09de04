import TorchCraft.Placer.Model

/-!
# Which building stands on a tile

Every few frames `TilesInfo` goes over the buildings it tracks: the tiles of those that are gone are
released, the others claim those of their tiles that are free.  Then new buildings are tracked.  A
tile of several buildings is released when its own one goes; the others get it only if they are met
later.

* `Occupancy.update`  one update, for any order of the tracked buildings;
* `building_pass`  what the pass over the tracked buildings leaves on a tile;
* `occupied_iff`  when the tiles and the tracked buildings agree after it.
-/

set_option linter.unusedSectionVars false

namespace TorchCraft.Placer
open List

structure Setting (B : Type) extends BuildTypes B where
  dimensionLeft : B → Int
  dimensionUp : B → Int
  mapTileWidth : Nat
  mapTileHeight : Nat

structure Sight (B : Type) where
  lifted : Bool := false
  gone : Bool := false
  dead : Bool := false
  type : B
  pixelX : Int
  pixelY : Int
  buildX : Int
  buildY : Int

structure TileOccupyingBuilding (B : Type) where
  type : B
  pixelX : Int
  pixelY : Int
  tiles : List Tile
  deriving DecidableEq

structure Occupancy (U B : Type) where
  /-- in the order in which the map is iterated -/
  tileOccupyingBuildings : List (U × TileOccupyingBuilding B) := []
  building : Tile → Option U := fun _ => none

structure Update (U B : Type) where
  see : U → Sight B
  visibleBuildings : List U
  /-- the tracked buildings in the order in which they are met -/
  order : List (U × TileOccupyingBuilding B)

section tiles
variable {B : Type} [DecidableEq B] (S : Setting B)

def Setting.tryGetTile (walkX walkY : Int) : Option Tile :=
  let t := beginTile ⟨walkX, walkY⟩
  if t.1 < S.mapTileWidth ∧ t.2 < S.mapTileHeight then some t else none

/-- the tiles of a rectangle, from its upper left corner in walk tiles -/
def Setting.rectangle (left top : Int) (width height : Nat) : List Tile :=
  (List.range height).flatMap fun y => (List.range width).filterMap fun x =>
    S.tryGetTile (left + walktilesPerBuildtile * x) (top + walktilesPerBuildtile * y)

/-- the tiles of a building and of the place for its add-on -/
def Setting.tilesOf (u : Sight B) : List Tile :=
  S.rectangle ((u.pixelX - S.dimensionLeft u.type).tdiv 8)
    ((u.pixelY - S.dimensionUp u.type).tdiv 8)
    (S.tileWidth u.type) (S.tileHeight u.type) ++
  match addonOf S.toBuildTypes u.type with
  | none => []
  | some addon =>
    let p := addonPosition S.toBuildTypes u.type addon ⟨u.buildX, u.buildY⟩
    S.rectangle p.x p.y (S.tileWidth addon) (S.tileHeight addon)

def Setting.occupying (u : Sight B) : TileOccupyingBuilding B :=
  ⟨u.type, u.pixelX, u.pixelY, S.tilesOf u⟩

end tiles

section update
variable {U B : Type} [DecidableEq U] [DecidableEq B]

def vanished (see : U → Sight B) (e : U × TileOccupyingBuilding B) : Bool :=
  (see e.1).lifted || (see e.1).gone || (see e.1).dead || decide ((see e.1).type ≠ e.2.type) ||
    decide ((see e.1).pixelX ≠ e.2.pixelX) || decide ((see e.1).pixelY ≠ e.2.pixelY)

def release (u : U) (tiles : List Tile) (building : Tile → Option U) : Tile → Option U :=
  fun t => if t ∈ tiles ∧ building t = some u then none else building t

def claim (u : U) (tiles : List Tile) (building : Tile → Option U) : Tile → Option U :=
  fun t => if t ∈ tiles ∧ building t = none then some u else building t

/-- the loop over `tileOccupyingBuildings_`; the entries that remain are in `kept` -/
def pass (see : U → Sight B) :
    List (U × TileOccupyingBuilding B) → (Tile → Option U) → Tile → Option U
  | [], building => building
  | e :: es, building =>
    pass see es (if vanished see e then release e.1 e.2.tiles building
      else claim e.1 e.2.tiles building)

def kept (see : U → Sight B) (es : List (U × TileOccupyingBuilding B)) :
    List (U × TileOccupyingBuilding B) :=
  es.filter fun e => !vanished see e

variable (S : Setting B)

/-- a visible building is tracked unless it is already -/
def Occupancy.enroll (see : U → Sight B) (s : Occupancy U B) (u : U) : Occupancy U B :=
  if (see u).lifted || s.tileOccupyingBuildings.any fun e => e.1 = u then s
  else
    { tileOccupyingBuildings := s.tileOccupyingBuildings ++ [(u, S.occupying (see u))]
      building := claim u (S.occupying (see u)).tiles s.building }

variable (s : Occupancy U B) {t : Tile} {see : U → Sight B}
  {es : List (U × TileOccupyingBuilding B)} {building : Tile → Option U}

def Occupancy.update (up : Update U B) : Occupancy U B :=
  up.visibleBuildings.foldl (Occupancy.enroll S up.see)
    { tileOccupyingBuildings := kept up.see up.order, building := pass up.see up.order s.building }

/-! ## what is to hold -/

/-- a tile refers to a tracked building that stands on it -/
def Occupancy.Refers : Prop :=
  ∀ t u, s.building t = some u → ∃ v, (u, v) ∈ s.tileOccupyingBuildings ∧ t ∈ v.tiles

/-- no tracked building stands on a tile without building -/
def Occupancy.Covers : Prop :=
  ∀ t, s.building t = none → ∀ e ∈ s.tileOccupyingBuildings, t ∉ e.2.tiles

/-- the tiles and the tracked buildings agree -/
structure Occupancy.Exact (s : Occupancy U B) : Prop where
  nodup : (s.tileOccupyingBuildings.map Prod.fst).Nodup
  refers : s.Refers
  covers : s.Covers

/-- the entry of a visible building that is not tracked yet -/
def New (see : U → Sight B) (us : List U) (tracked : List (U × TileOccupyingBuilding B))
    (e : U × TileOccupyingBuilding B) : Prop :=
  e.1 ∈ us ∧ (see e.1).lifted = false ∧ (∀ e' ∈ tracked, e'.1 ≠ e.1) ∧ e.2 = S.occupying (see e.1)

/-- The building of the tile is gone, one that stays and stands on it was met before it, and none
that is met after it or is new. -/
def Skipped (up : Update U B) (t : Tile) : Prop :=
  ∃ a l₁ l₂, up.order = l₁ ++ a :: l₂ ∧ vanished up.see a = true ∧ s.building t = some a.1 ∧
    (∃ e ∈ kept up.see l₁, t ∈ e.2.tiles) ∧ (∀ e ∈ kept up.see l₂, t ∉ e.2.tiles) ∧
    ∀ e, New S up.see up.visibleBuildings (kept up.see up.order) e → t ∉ e.2.tiles

/-! ## the pass -/

def first (t : Tile) (es : List (U × TileOccupyingBuilding B)) : Option U :=
  (es.find? fun e => decide (t ∈ e.2.tiles)).map Prod.fst

lemma first_eq_none : first t es = none ↔ ∀ e ∈ es, t ∉ e.2.tiles := by
  simp [first]

lemma mem_of_first {u : U} (h : first t es = some u) : ∃ v, (u, v) ∈ es ∧ t ∈ v.tiles := by
  obtain ⟨e, he, rfl⟩ := Option.map_eq_some_iff.mp h
  have ht := find?_some he
  exact ⟨e.2, mem_of_find?_eq_some he, of_decide_eq_true ht⟩

lemma mem_kept {e : U × TileOccupyingBuilding B} :
    e ∈ kept see es ↔ e ∈ es ∧ vanished see e = false := by
  simp [kept]

lemma mem_kept_append {e a : U × TileOccupyingBuilding B}
    {l₁ l₂ : List (U × TileOccupyingBuilding B)} : e ∈ kept see (l₁ ++ a :: l₂) ↔
      e ∈ kept see l₁ ∨ (e = a ∧ vanished see e = false) ∨ e ∈ kept see l₂ := by
  simp only [mem_kept, mem_append, mem_cons, or_and_right]

lemma pass_append (es es' : List (U × TileOccupyingBuilding B)) (building : Tile → Option U) :
    pass see (es ++ es') building = pass see es' (pass see es building) := by
  induction es generalizing building with
  | nil => rfl
  | cons e es ih => exact ih _

lemma pass_of_some {u : U} (h : building t = some u)
    (hes : ∀ e ∈ es, vanished see e → e.1 ≠ u) : pass see es building t = some u := by
  induction es generalizing building with
  | nil => exact h
  | cons e es ih =>
    refine ih ?_ fun e' he' => hes e' (mem_cons_of_mem _ he')
    split
    next hv =>
      have hne : some u ≠ some e.1 := fun heq =>
        hes e (mem_cons_self ..) hv (Option.some.inj heq).symm
      rw [release, h, if_neg fun hc => hne hc.2]
    next => rw [claim, h, if_neg fun hc => by cases hc.2]

lemma pass_of_none (hn : (es.map Prod.fst).Nodup) (h : building t = none) :
    pass see es building t = first t (kept see es) := by
  induction es generalizing building with
  | nil => exact h
  | cons e es ih =>
    obtain ⟨hnew, hn⟩ := nodup_cons.mp hn
    rw [pass, kept, filter_cons]
    cases hv : vanished see e with
    | true =>
      refine ih hn ?_
      rw [if_pos rfl, release, h, if_neg fun hc => by cases hc.2]
    | false =>
      rw [if_neg Bool.false_ne_true, Bool.not_false, if_pos rfl]
      by_cases ht : t ∈ e.2.tiles
      · have hfirst : first t (e :: kept see es) = some e.1 := by simp [first, ht]
        refine (pass_of_some (u := e.1) ?_ fun e' he' _ heq => ?_).trans hfirst.symm
        · rw [claim, if_pos ⟨ht, h⟩]
        · exact hnew (heq ▸ mem_map_of_mem he')
      · have hfirst : first t (e :: kept see es) = first t (kept see es) := by simp [first, ht]
        refine (ih hn ?_).trans hfirst.symm
        rw [claim, if_neg fun hc => ht hc.1, h]

lemma pass_of_vanished {a : U × TileOccupyingBuilding B}
    {l₁ l₂ : List (U × TileOccupyingBuilding B)}
    (hn : ((l₁ ++ a :: l₂).map Prod.fst).Nodup) (hv : vanished see a)
    (ht : t ∈ a.2.tiles) (h : building t = some a.1) :
    pass see (l₁ ++ a :: l₂) building t = first t (kept see l₂) := by
  rw [map_append, map_cons] at hn
  obtain ⟨-, hn₂, hdis⟩ := nodup_append.mp hn
  have hbefore : pass see l₁ building t = some a.1 :=
    pass_of_some h fun e he _ heq =>
      hdis e.1 (mem_map_of_mem he) a.1 (mem_cons_self ..) heq
  rw [pass_append, pass, if_pos hv]
  refine pass_of_none (nodup_cons.mp hn₂).2 ?_
  rw [release, if_pos ⟨ht, hbefore⟩]

/-! ## new buildings -/

lemma claim_or_first (u : U) (v : TileOccupyingBuilding B) (building : Tile → Option U) (t : Tile)
    (new : List (U × TileOccupyingBuilding B)) :
    (claim u v.tiles building t).or (first t new) = (building t).or (first t ((u, v) :: new)) := by
  unfold claim
  by_cases ht : t ∈ v.tiles
  · cases hb : building t with
    | none => simp [ht, first]
    | some => simp
  · simp [ht, first]

lemma foldl_enroll (see : U → Sight B) (us : List U) (s : Occupancy U B) :
    ∃ new, (us.foldl (Occupancy.enroll S see) s).tileOccupyingBuildings =
        s.tileOccupyingBuildings ++ new ∧
      (∀ t, (us.foldl (Occupancy.enroll S see) s).building t = (s.building t).or (first t new)) ∧
      ((s.tileOccupyingBuildings.map Prod.fst).Nodup →
        ((s.tileOccupyingBuildings ++ new).map Prod.fst).Nodup) ∧
      ∀ e, e ∈ new ↔ New S see us s.tileOccupyingBuildings e := by
  induction us generalizing s with
  | nil => exact ⟨[], by simp, fun t => by simp [first], by simp, fun e => by simp [New]⟩
  | cons u us ih =>
    rw [foldl_cons]
    obtain ⟨new, htr, hb, hn, hmem⟩ := ih (s.enroll S see u)
    by_cases hskip : ((see u).lifted || s.tileOccupyingBuildings.any fun e => e.1 = u)
    · have heq : s.enroll S see u = s := if_pos hskip
      rw [heq] at htr hb hn hmem ⊢
      refine ⟨new, htr, hb, hn, fun e => (hmem e).trans ?_⟩
      refine ⟨fun h => ⟨mem_cons_of_mem _ h.1, h.2⟩, fun ⟨hu, hnew⟩ => ⟨?_, hnew⟩⟩
      refine (mem_cons.mp hu).resolve_left ?_
      rintro rfl
      simp only [hnew.1, Bool.false_or, any_eq_true, decide_eq_true_eq] at hskip
      obtain ⟨e', he', heq⟩ := hskip
      exact hnew.2.1 e' he' heq
    · have heq : s.enroll S see u = ⟨s.tileOccupyingBuildings ++ [(u, S.occupying (see u))],
          claim u (S.occupying (see u)).tiles s.building⟩ := if_neg hskip
      rw [heq] at htr hb hn hmem ⊢
      simp only [Bool.or_eq_true, any_eq_true, not_or, not_exists, Bool.not_eq_true] at hskip
      have hu : ∀ e ∈ s.tileOccupyingBuildings, e.1 ≠ u :=
        fun e he heq => hskip.2 e ⟨he, decide_eq_true heq⟩
      refine ⟨(u, S.occupying (see u)) :: new, ?_, fun t => (hb t).trans (claim_or_first ..),
        fun hnodup => ?_, fun e => ?_⟩
      · rw [htr, append_assoc, singleton_append]
      · have hone := hn (by
          rw [map_append, map_singleton, ← concat_eq_append]
          exact hnodup.concat fun hmem => by
            obtain ⟨e, he, heq⟩ := mem_map.mp hmem
            exact hu e he heq)
        rwa [append_assoc, singleton_append] at hone
      · rw [mem_cons, hmem]
        constructor
        · rintro (rfl | ⟨he, hlift, hfree, hocc⟩)
          · exact ⟨mem_cons_self .., hskip.1, hu, rfl⟩
          · exact ⟨mem_cons_of_mem _ he, hlift, fun e' he' => hfree e' (mem_append_left _ he'), hocc⟩
        · rintro ⟨he, hlift, hfree, hocc⟩
          by_cases heu : e.1 = u
          · exact .inl (Prod.ext heu (heu ▸ hocc))
          · refine .inr ⟨(mem_cons.mp he).resolve_left heu, hlift, fun e' he' => ?_, hocc⟩
            rcases mem_append.mp he' with he' | he'
            · exact hfree e' he'
            · rw [mem_singleton.mp he']
              exact Ne.symm heu

variable {S} {s : Occupancy U B} {up : Update U B}

section
variable (hs : s.Exact) (hperm : up.order.Perm s.tileOccupyingBuildings)
include hs hperm

lemma update_cases :
    ∃ new, (s.update S up).tileOccupyingBuildings = kept up.see up.order ++ new ∧
      ((kept up.see up.order ++ new).map Prod.fst).Nodup ∧
      (∀ t, (s.update S up).building t = (pass up.see up.order s.building t).or (first t new)) ∧
      ∀ e, e ∈ new ↔ New S up.see up.visibleBuildings (kept up.see up.order) e := by
  obtain ⟨new, htr, hb, hn, hmem⟩ := foldl_enroll S up.see up.visibleBuildings
    { tileOccupyingBuildings := kept up.see up.order, building := pass up.see up.order s.building }
  refine ⟨new, htr, hn ?_, hb, hmem⟩
  exact ((hperm.map Prod.fst).nodup_iff.mpr hs.nodup).sublist (filter_sublist.map _)

lemma building_pass (t : Tile) :
    (pass up.see up.order s.building t = none ∧ ∀ e ∈ up.order, t ∉ e.2.tiles) ∨
    (∃ e ∈ kept up.see up.order, t ∈ e.2.tiles ∧
      pass up.see up.order s.building t = some e.1) ∨
    ∃ a l₁ l₂, up.order = l₁ ++ a :: l₂ ∧ vanished up.see a ∧ s.building t = some a.1 ∧
      pass up.see up.order s.building t = first t (kept up.see l₂) := by
  have hn := (hperm.map Prod.fst).nodup_iff.mpr hs.nodup
  cases hb : s.building t with
  | none =>
    have hfree : ∀ e ∈ up.order, t ∉ e.2.tiles := fun e he => hs.covers t hb e (hperm.mem_iff.mp he)
    refine .inl ⟨(pass_of_none hn hb).trans (first_eq_none.mpr fun e he => ?_), hfree⟩
    exact hfree e (mem_kept.mp he).1
  | some u =>
    obtain ⟨v, hmem, ht⟩ := hs.refers t u hb
    have hmem := hperm.mem_iff.mpr hmem
    cases hv : vanished up.see (u, v) with
    | true =>
      obtain ⟨l₁, l₂, hl⟩ := append_of_mem hmem
      refine .inr (.inr ⟨(u, v), l₁, l₂, hl, hv, rfl, ?_⟩)
      rw [hl] at hn ⊢
      exact pass_of_vanished hn hv ht hb
    | false =>
      refine .inr (.inl ⟨(u, v), mem_kept.mpr ⟨hmem, hv⟩, ht,
        pass_of_some hb fun e he hve heq => ?_⟩)
      -- the only entry of `u` is the one that is still there
      obtain rfl : e = (u, v) := inj_on_of_nodup_map hn he hmem heq
      rw [hv] at hve
      cases hve

lemma refers_update : (s.update S up).Refers := by
  obtain ⟨new, htr, -, hb, -⟩ := update_cases (S := S) hs hperm
  intro t u hu
  rw [htr]
  rw [hb, Option.or_eq_some_iff] at hu
  rcases hu with hu | ⟨-, hu⟩
  · have hpass : ∃ v, (u, v) ∈ kept up.see up.order ∧ t ∈ v.tiles := by
      rcases building_pass hs hperm t with ⟨h, -⟩ | ⟨e, he, ht, h⟩ | ⟨a, l₁, l₂, hl, -, -, h⟩
      · rw [h] at hu
        cases hu
      · rw [h] at hu
        cases hu
        exact ⟨e.2, he, ht⟩
      · obtain ⟨v, hv, ht⟩ := mem_of_first (h.symm.trans hu)
        refine ⟨v, ?_, ht⟩
        rw [hl]
        exact mem_kept_append.mpr (.inr (.inr hv))
    obtain ⟨v, hv, ht⟩ := hpass
    exact ⟨v, mem_append_left _ hv, ht⟩
  · obtain ⟨v, hv, ht⟩ := mem_of_first hu
    exact ⟨v, mem_append_right _ hv, ht⟩

lemma covers_of_not_skipped (h : ∀ t, ¬Skipped S s up t) : (s.update S up).Covers := by
  obtain ⟨new, htr, -, hb, hnew⟩ := update_cases (S := S) hs hperm
  intro t hnone e he ht
  rw [hb, Option.or_eq_none_iff, first_eq_none] at hnone
  rw [htr] at he
  have hold : e ∈ kept up.see up.order :=
    (mem_append.mp he).resolve_right fun hnew => hnone.2 e hnew ht
  rcases building_pass hs hperm t with
    ⟨-, hfree⟩ | ⟨e', -, -, hsome⟩ | ⟨a, l₁, l₂, hl, hv, ha, hpass⟩
  · exact hfree e (mem_kept.mp hold).1 ht
  · rw [hnone.1] at hsome
    cases hsome
  · have hafter := first_eq_none.mp (hpass.symm.trans hnone.1)
    refine h t ⟨a, l₁, l₂, hl, hv, ha, ⟨e, ?_, ht⟩, hafter, fun e he => hnone.2 e ((hnew e).mpr he)⟩
    rw [hl, mem_kept_append] at hold
    rcases hold with hmem | ⟨rfl, hstays⟩ | hmem
    · exact hmem
    · rw [hv] at hstays
      cases hstays
    · exact absurd ht (hafter e hmem)

lemma not_covers_of_skipped {t : Tile} (h : Skipped S s up t) : ¬(s.update S up).Covers := by
  obtain ⟨new, htr, -, hb, hnew⟩ := update_cases (S := S) hs hperm
  obtain ⟨a, l₁, l₂, hl, hv, ha, ⟨e, he, ht⟩, hafter, hfresh⟩ := h
  have hn := (hperm.map Prod.fst).nodup_iff.mpr hs.nodup
  have hta : t ∈ a.2.tiles := by
    obtain ⟨v, hmem, ht⟩ := hs.refers t a.1 ha
    have hmem' : a ∈ up.order := hl ▸ mem_append_right _ (mem_cons_self ..)
    rwa [inj_on_of_nodup_map hn hmem' (hperm.mem_iff.mpr hmem) rfl]
  have hpass : pass up.see up.order s.building t = first t (kept up.see l₂) := by
    rw [hl] at hn ⊢
    exact pass_of_vanished hn hv hta ha
  have hfree : (s.update S up).building t = none := by
    rw [hb, hpass, Option.or_eq_none_iff, first_eq_none, first_eq_none]
    exact ⟨hafter, fun e he => hfresh e ((hnew e).mp he)⟩
  have hmem : e ∈ kept up.see up.order := by
    rw [hl]
    exact mem_kept_append.mpr (.inl he)
  exact fun hcovers => hcovers t hfree e (htr ▸ mem_append_left _ hmem) ht

end

/-- the states after updates in which no tile is skipped -/
inductive Reached (S : Setting B) : Occupancy U B → Prop
  | start : Reached S {}
  | update {s : Occupancy U B} {up : Update U B} : Reached S s →
      up.order.Perm s.tileOccupyingBuildings → (∀ t, ¬Skipped S s up t) → Reached S (s.update S up)

lemma exact_update_iff (hs : s.Exact) (hperm : up.order.Perm s.tileOccupyingBuildings) :
    (s.update S up).Exact ↔ ∀ t, ¬Skipped S s up t := by
  obtain ⟨new, htr, hnew, -, -⟩ := update_cases (S := S) hs hperm
  refine ⟨fun h t ht => not_covers_of_skipped hs hperm ht h.covers, fun h => ?_⟩
  exact ⟨htr ▸ hnew, refers_update hs hperm, covers_of_not_skipped hs hperm h⟩

/-- **The tiles and the tracked buildings agree as long as no update skips a tile.**  -/
theorem occupied_iff (S : Setting B) (s : Occupancy U B) (hs : Reached S s) :
    s.Exact ∧ ∀ up : Update U B, up.order.Perm s.tileOccupyingBuildings →
      ((s.update S up).Exact ↔ ∀ t, ¬Skipped S s up t) := by
  have hexact : s.Exact := by
    induction hs with
    | start => exact ⟨nodup_nil, nofun, nofun⟩
    | update _ hperm hskip ih => exact (exact_update_iff ih hperm).mpr hskip
  exact ⟨hexact, fun up hperm => exact_update_iff hexact hperm⟩

end update

def oneTile : Setting Bool where
  tileWidth _ := 1
  tileHeight _ := 1
  isBuilding _ := true
  builtByWorker _ := true
  commandCenter := true
  comsatStation := true
  factory := true
  machineShop := true
  starport := true
  controlTower := true
  scienceFacility := true
  physicsLab := true
  dimensionLeft _ := 0
  dimensionUp _ := 0
  mapTileWidth := 4
  mapTileHeight := 4

/-- two buildings stand on the first tile; later building 1 is gone -/
def stacked (gone : Bool) (order : List (Nat × TileOccupyingBuilding Bool)) : Update Nat Bool where
  see u :=
    { gone := gone && u = 1, type := false, pixelX := 0, pixelY := 0, buildX := 0, buildY := 0 }
  visibleBuildings := [1, 2]
  order := order

/-- a geyser and the refinery on it -/
def afterStacking : Occupancy Nat Bool :=
  ({} : Occupancy Nat Bool).update oneTile (stacked false [])

lemma reached_afterStacking : Reached oneTile afterStacking :=
  .update .start (.refl _) fun t ⟨_, _, _, _, _, h, _⟩ => by cases h

/-- building 1 is gone; the buildings are met in the given order -/
def unstacking (order : List (Nat × TileOccupyingBuilding Bool)) : Update Nat Bool :=
  { stacked true order with visibleBuildings := [2] }

theorem occupied_iff_stacked : afterStacking.Exact ∧
    (afterStacking.update oneTile (unstacking afterStacking.tileOccupyingBuildings)).Exact := by
  obtain ⟨hexact, hupdate⟩ := occupied_iff oneTile afterStacking reached_afterStacking
  refine ⟨hexact, (hupdate _ (.refl _)).mpr ?_⟩
  -- nothing is met before building 1
  rintro t ⟨a, l₁, l₂, hl, hv, -, ⟨e, he, -⟩, -⟩
  have horder : afterStacking.tileOccupyingBuildings =
      [(1, ⟨false, 0, 0, [(0, 0)]⟩), (2, ⟨false, 0, 0, [(0, 0)]⟩)] := by decide
  change afterStacking.tileOccupyingBuildings = _ at hl
  rw [horder] at hl
  rcases l₁ with _ | ⟨x, _ | ⟨y, l⟩⟩
  · cases he
  · cases hl
    exact absurd hv (by decide)
  · simp at hl

/-- Building 2 is met before building 1, which is gone: its tile is left without a building. -/
theorem stacked_skipped :
    let s := afterStacking.update oneTile
      (unstacking afterStacking.tileOccupyingBuildings.reverse)
    s.tileOccupyingBuildings.map (fun e => (e.1, e.2.tiles)) = [(2, [(0, 0)])] ∧
      s.building (0, 0) = none := by
  decide +kernel

end TorchCraft.Placer
