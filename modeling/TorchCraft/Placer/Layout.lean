import Mathlib.Data.List.Perm.Subperm
import Mathlib.Data.List.ProdSigma
import Mathlib.Order.MinMax
import TorchCraft.Lib.Fuel
import TorchCraft.Lib.Search
import TorchCraft.Placer.Sites

/-!
# Layouts that wall nothing in

`buildingLayoutValid` explores the group of occupied tiles around a building, and then the free
tiles next to the group: these have to be connected.

* `groupLoop`, `walkLoop`, `layoutValid`  the two searches, in any order of the tiles;
* `InGroup`, `NextTo`, `Connected`  the same without a search;
* `layout_iff`  the answer, and that there is one.
-/

namespace TorchCraft.Placer
open Lib Search List

/-! ## the searches -/

inductive Mark
  | notVisited
  | occupiedVisited
  | neighboringFreeTileNotVisited
  | neighboringFreeTileVisited
  deriving DecidableEq

/-- the variables of the first search; `xs` and `ys` are the bounds of the group -/
structure Grouping where
  visited : Tile → Mark
  queue : List Tile
  xs : Nat × Nat
  ys : Nat × Nat
  firstEmptyTile : Option Tile := none
  neighboringEmptyTileCount : Nat := 0

structure Walking where
  visited : Tile → Mark
  queue : List Tile
  neighboringEmptyTileCount : Nat

def around (t : Tile) : List Tile :=
  [(t.1 - 1, t.2), (t.1 - 1, t.2 - 1), (t.1, t.2 - 1), (t.1 + 1, t.2 - 1), (t.1 + 1, t.2),
    (t.1 + 1, t.2 + 1), (t.1, t.2 + 1), (t.1 - 1, t.2 + 1)]

/-- the least and the greatest coordinate with another one; `none` if they are too far apart -/
def stretch (r : Nat × Nat) (v : Nat) : Option (Nat × Nat) :=
  (if v < r.1 then if 1 + r.2 - v > 12 then none else some v else some r.1).bind fun lo =>
    if v > r.2 then if 1 + v - lo > 12 then none else some (lo, v) else some (lo, r.2)

section searches
variable {B : Type} (s : State B)

def State.tileCount : Nat := s.tilesInfo.mapTileWidth * s.tilesInfo.mapTileHeight

def free (t : Tile) : Bool :=
  (s.tile t).entirelyWalkable && (s.tile t).building.isNone && !s.tilesInfo.reservedAsUnbuildable t

def onBorder (t : Tile) : Bool :=
  decide (t.1 = 0 ∨ t.1 = s.tilesInfo.mapTileWidth - 1 ∨ t.2 = 0 ∨
    t.2 = s.tilesInfo.mapTileHeight - 1)

def beside (t : Tile) : List Tile :=
  (if t.1 ≠ 0 then [(t.1 - 1, t.2)] else []) ++ (if t.2 ≠ 0 then [(t.1, t.2 - 1)] else []) ++
  (if t.1 ≠ s.tilesInfo.mapTileWidth - 1 then [(t.1 + 1, t.2)] else []) ++
  (if t.2 ≠ s.tilesInfo.mapTileHeight - 1 then [(t.1, t.2 + 1)] else [])

/-- which tile of the queue comes next, and the order of its neighbours -/
structure Order where
  next : List Tile → List Tile
  around : Tile → List Tile
  beside : Tile → List Tile
  next_perm : ∀ q, (next q).Perm q
  around_perm : ∀ t, (around t).Perm (Placer.around t)
  beside_perm : ∀ t, (beside t).Perm (Placer.beside s t)

def Order.source : Order s where
  next := id
  around := Placer.around
  beside := Placer.beside s
  next_perm _ := .refl _
  around_perm _ := .refl _
  beside_perm _ := .refl _

def Grouping.add (g : Grouping) (t : Tile) : Grouping :=
  if g.visited t ≠ .notVisited then g
  else if free s t then
    { g with
      visited := Function.update g.visited t .neighboringFreeTileNotVisited
      firstEmptyTile := g.firstEmptyTile.or (some t)
      neighboringEmptyTileCount := g.neighboringEmptyTileCount + 1 }
  else
    { g with
      visited := Function.update g.visited t .occupiedVisited
      queue := if (s.tile t).buildable then g.queue ++ [t] else g.queue }

variable (o : Order s)

/-- the first search; `none` if the group is too large or reaches the border -/
def groupLoop : Nat → Grouping → Run (Option Grouping)
  | 0, _ => .spin
  | n + 1, g =>
    match o.next g.queue with
    | [] => .ret (some g)
    | t :: queue =>
      match stretch g.xs t.1, stretch g.ys t.2 with
      | some xs, some ys =>
        if onBorder s t then .ret none
        else groupLoop n ((o.around t).foldl (Grouping.add s) { g with queue, xs, ys })
      | _, _ => .ret none

def Walking.add (w : Walking) (t : Tile) : Walking :=
  if w.visited t ≠ .neighboringFreeTileNotVisited then w
  else
    { visited := Function.update w.visited t .neighboringFreeTileVisited
      queue := w.queue ++ [t]
      neighboringEmptyTileCount := w.neighboringEmptyTileCount - 1 }

def walkLoop : Nat → Walking → Run Nat
  | 0, _ => .spin
  | n + 1, w =>
    match o.next w.queue with
    | [] => .ret w.neighboringEmptyTileCount
    | t :: queue => walkLoop n ((o.beside t).foldl Walking.add { w with queue })

def layoutValid (startPos : Position) (n : Nat) : Run Bool :=
  let start := beginTile startPos
  let g : Grouping :=
    { visited := Function.update (fun _ => .notVisited) start .occupiedVisited
      queue := [start], xs := (start.1, start.1), ys := (start.2, start.2) }
  (groupLoop s o n g).bind fun
    | none => .ret false
    | some g =>
      match g.firstEmptyTile with
      | none => .ret true
      | some t =>
        (walkLoop s o n
          { visited := Function.update g.visited t .neighboringFreeTileVisited
            queue := [t]
            neighboringEmptyTileCount := g.neighboringEmptyTileCount - 1 }).bind fun count =>
          .ret (count == 0)

def buildingLayoutValid (startPos : Position) (n : Nat) : Run Bool :=
  layoutValid s (Order.source s) startPos n

/-! ## without a search -/

def OnMap (t : Tile) : Prop := t.1 < s.tilesInfo.mapTileWidth ∧ t.2 < s.tilesInfo.mapTileHeight

def Around (t t' : Tile) : Prop :=
  t ≠ t' ∧ t.1 ≤ t'.1 + 1 ∧ t'.1 ≤ t.1 + 1 ∧ t.2 ≤ t'.2 + 1 ∧ t'.2 ≤ t.2 + 1

def Beside (t t' : Tile) : Prop :=
  (t.2 = t'.2 ∧ (t.1 = t'.1 + 1 ∨ t'.1 = t.1 + 1)) ∨
    (t.1 = t'.1 ∧ (t.2 = t'.2 + 1 ∨ t'.2 = t.2 + 1))

inductive InGroup (start : Tile) : Tile → Prop
  | start : InGroup start start
  | step {t t' : Tile} : InGroup start t → Around t t' → OnMap s t' → free s t' = false →
      (s.tile t').buildable = true → InGroup start t'

def NextTo (start t : Tile) : Prop :=
  OnMap s t ∧ free s t = true ∧ ¬InGroup s start t ∧ ∃ t', InGroup s start t' ∧ Around t' t

/-- any two of the tiles are connected by steps to the tile beside -/
def Connected (N : Tile → Prop) : Prop :=
  ∀ t t', N t → N t' → Relation.ReflTransGen (fun a b => N a ∧ N b ∧ Beside a b) t t'

/-- at most twelve columns and rows, and off the border -/
def Compact (G : Tile → Prop) : Prop :=
  (∀ t t', G t → G t' → t'.1 < t.1 + 12 ∧ t'.2 < t.2 + 12) ∧ ∀ t, G t → onBorder s t = false

def ValidLayout (start : Tile) : Prop :=
  Compact s (InGroup s start) ∧ ((¬∃ t, NextTo s start t) ∨ Connected (NextTo s start))

/-! ## the two ways to say what is near -/

variable {s} {t t' : Tile}

lemma mem_around (ht : onBorder s t = false) : t' ∈ around t ↔ Around t t' := by
  obtain ⟨x, y⟩ := t
  obtain ⟨x', y'⟩ := t'
  simp only [onBorder, decide_eq_false_iff_not] at ht
  simp only [around, Around, mem_cons, not_mem_nil, Prod.mk.injEq, ne_eq, or_false]
  omega

lemma Around.onMap (h : Around t t') (ht : onBorder s t = false)
    (hmap : OnMap s t) : OnMap s t' := by
  simp only [onBorder, decide_eq_false_iff_not] at ht
  unfold Around at h
  unfold OnMap at *
  omega

lemma mem_beside (ht : OnMap s t) : t' ∈ beside s t ↔ Beside t t' ∧ OnMap s t' := by
  obtain ⟨x, y⟩ := t
  obtain ⟨x', y'⟩ := t'
  have hif (p : Prop) [Decidable p] (a : Tile) : (x', y') ∈ (if p then [a] else []) ↔
      p ∧ (x', y') = a := by
    split <;> simp [*]
  simp only [OnMap] at ht
  simp only [beside, Beside, OnMap, mem_append, hif, Prod.mk.injEq]
  omega

/-! ## the first search -/

def nbrs (t : Tile) : List Tile := if onBorder s t then [] else o.around t

def enter (s : State B) (t : Tile) : Bool := !free s t && (s.tile t).buildable

variable {start t first : Tile} {o} {xs ys : Nat × Nat} {g : Grouping} {f : Front Tile}
  {done N : List Tile} {seen : Tile → Bool} {w : Walking}

lemma mem_nbrs : t' ∈ nbrs o t ↔ onBorder s t = false ∧ Around t t' := by
  unfold nbrs
  split
  next h => simp [h]
  next h =>
    have h : onBorder s t = false := by simpa using h
    rw [(o.around_perm t).mem_iff, mem_around h]
    simp [h]

section
variable (hstart : OnMap s start) (h : Reach (nbrs o) (enter s) [start] t)
include hstart h

lemma reach_onMap : OnMap s t := by
  induction h with
  | start h => rwa [mem_singleton.mp h]
  | step _ hy _ ih => exact (mem_nbrs.mp hy).2.onMap (mem_nbrs.mp hy).1 ih

lemma reach_inGroup : InGroup s start t := by
  induction h with
  | start h =>
    rw [mem_singleton.mp h]
    exact .start
  | step hx hy he ih =>
    have hy := mem_nbrs.mp hy
    simp only [enter, Bool.and_eq_true, Bool.not_eq_true'] at he
    exact .step ih hy.2 (hy.2.onMap hy.1 (reach_onMap hstart hx)) he.1 he.2

end

/-- what stays off the border and is closed contains the group -/
lemma InGroup.reach (hborder : ∀ t, Reach (nbrs o) (enter s) [start] t → onBorder s t = false)
    (h : InGroup s start t) : Reach (nbrs o) (enter s) [start] t := by
  induction h with
  | start => exact .start (mem_singleton_self _)
  | step _ ha _ hf hb ih =>
    exact .step ih (mem_nbrs.mpr ⟨hborder _ ih, ha⟩) (by simp [enter, hf, hb])

def marks (s : State B) (start : Tile) (seen : Tile → Bool) (t : Tile) : Mark :=
  if seen t then
    if free s t && decide (t ≠ start) then .neighboringFreeTileNotVisited else .occupiedVisited
  else .notVisited

/-- the variables of the first search in terms of the marked tiles and the queue -/
structure Tracks (s : State B) (start : Tile) (xs ys : Nat × Nat) (g : Grouping) (f : Front Tile) :
    Prop where
  visited : g.visited = marks s start f.seen
  queue : g.queue = f.queue
  xs : g.xs = xs
  ys : g.ys = ys
  started : f.seen start = true
  empties : ∃ empties : List Tile, empties.Nodup ∧ g.firstEmptyTile = empties.head? ∧
    g.neighboringEmptyTileCount = empties.length ∧
    ∀ t, t ∈ empties ↔ f.seen t = true ∧ free s t = true ∧ t ≠ start

lemma marks_update (seen : Tile → Bool) (ht : t ≠ start) :
    marks s start (Function.update seen t true) = Function.update (marks s start seen) t
      (if free s t then .neighboringFreeTileNotVisited else .occupiedVisited) := by
  funext t'
  by_cases h : t' = t
  · subst h
    simp [marks, ht]
  · simp [marks, h]

lemma Tracks.add (h : Tracks s start xs ys g f) (t : Tile) :
    Tracks s start xs ys (g.add s t) (f.add (enter s) t) := by
  cases hs : f.seen t with
  | true =>
    have hg : g.visited t ≠ .notVisited := by
      rw [h.visited, marks, if_pos hs]
      split <;> simp
    rwa [Grouping.add, if_pos hg, Front.add, if_pos hs]
  | false =>
    have ht : t ≠ start := fun e => by simp [e, h.started] at hs
    have hg : ¬g.visited t ≠ .notVisited := by simp [h.visited, marks, hs]
    have hseen (t' : Tile) : (f.add (enter s) t).seen t' ↔ f.seen t' ∨ t' = t :=
      seen_add t t'
    have hstart : (f.add (enter s) t).seen start := (hseen start).mpr (.inl h.started)
    have hmarks := marks_update (s := s) f.seen ht
    obtain ⟨empties, hnodup, hfirst, hcount, hmem⟩ := h.empties
    cases hfree : free s t with
    | true =>
      rw [hfree, if_pos rfl] at hmarks
      have hadd : f.add (enter s) t = ⟨Function.update f.seen t true, f.queue⟩ := by
        simp [Front.add, hs, enter, hfree]
      rw [Grouping.add, if_neg hg, if_pos hfree]
      refine ⟨?_, by rw [hadd]; exact h.queue, h.xs, h.ys, hstart, empties ++ [t], ?_, ?_, ?_, ?_⟩
      · rw [hadd, hmarks, h.visited]
      · have hnot : t ∉ empties := fun ht' => by simp [((hmem t).mp ht').1] at hs
        exact hnodup.append (nodup_singleton t) (by simpa using hnot)
      · rw [hfirst]
        cases empties with
        | nil | cons => rfl
      · simp [hcount]
      · intro t'
        rw [hseen, mem_append, mem_singleton, hmem]
        constructor
        · rintro (h | rfl)
          · exact ⟨.inl h.1, h.2⟩
          · exact ⟨.inr rfl, hfree, ht⟩
        · rintro ⟨h | rfl, h'⟩
          · exact .inl ⟨h, h'⟩
          · exact .inr rfl
    | false =>
      rw [hfree, if_neg Bool.false_ne_true] at hmarks
      have hadd : f.add (enter s) t = ⟨Function.update f.seen t true,
          if (s.tile t).buildable then f.queue ++ [t] else f.queue⟩ := by
        simp [Front.add, hs, enter, hfree]
      rw [Grouping.add, if_neg hg, if_neg (by simp [hfree])]
      refine ⟨?_, ?_, h.xs, h.ys, hstart, empties, hnodup, hfirst, hcount, fun t' => ?_⟩
      · rw [hadd, hmarks, h.visited]
      · rw [hadd, h.queue]
      · rw [hseen, hmem]
        refine ⟨fun h => ⟨.inl h.1, h.2⟩, fun h => ⟨h.1.resolve_right fun e => ?_, h.2⟩⟩
        simp [e, hfree] at h

lemma Tracks.addAll (h : Tracks s start xs ys g f) (ts : List Tile) :
    Tracks s start xs ys (ts.foldl (Grouping.add s) g) (f.addAll (enter s) ts) := by
  induction ts generalizing g f with
  | nil => exact h
  | cons t ts ih => exact ih (h.add t)

/-! ### the bounds of the group -/

/-- the least and the greatest coordinate of some tiles -/
structure Spans (p : Tile → Nat) (r : Nat × Nat) (ts : List Tile) : Prop where
  bounds : ∀ t ∈ ts, r.1 ≤ p t ∧ p t ≤ r.2
  low : ∃ t ∈ ts, p t = r.1
  high : ∃ t ∈ ts, p t = r.2
  near : r.2 < r.1 + 12

lemma stretch_eq {r : Nat × Nat} (hr : r.1 ≤ r.2) (hnear : r.2 < r.1 + 12) (v : Nat) :
    stretch r v = if max r.2 v < min r.1 v + 12 then some (min r.1 v, max r.2 v) else none := by
  unfold stretch
  by_cases hlo : v < r.1
  · have hhi : ¬v > r.2 := by omega
    rw [if_pos hlo, min_eq_right (by omega), max_eq_left (by omega)]
    split
    next h => rw [if_neg (by omega)]; rfl
    next h => rw [if_pos (by omega), Option.bind_some]
  · rw [if_neg hlo, min_eq_left (by omega), Option.bind_some]
    by_cases hhi : v > r.2
    · rw [if_pos hhi, max_eq_right (by omega)]
      split
      next h => rw [if_neg (by omega)]
      next h => rw [if_pos (by omega)]
    · rw [if_neg hhi, max_eq_left (by omega), if_pos hnear]

lemma Spans.pop {p : Tile → Nat} {r : Nat × Nat} {ts : List Tile} (h : Spans p r ts) (t : Tile) :
    (∃ r', stretch r (p t) = some r' ∧ Spans p r' (ts ++ [t])) ∨
      stretch r (p t) = none ∧ ∃ a ∈ ts ++ [t], ∃ b ∈ ts ++ [t], p a + 12 ≤ p b := by
  have hmem {t' : Tile} (ht' : t' ∈ ts) : t' ∈ ts ++ [t] := mem_append_left _ ht'
  have ht : t ∈ ts ++ [t] := mem_append_right _ (mem_singleton_self t)
  obtain ⟨a, ha, hlow⟩ := h.low
  obtain ⟨b, hb, hhigh⟩ := h.high
  have hr : r.1 ≤ r.2 := hlow ▸ (h.bounds a ha).2
  have hlow : ∃ a ∈ ts ++ [t], p a = min r.1 (p t) := by
    rcases min_choice r.1 (p t) with e | e
    · exact ⟨a, hmem ha, hlow.trans e.symm⟩
    · exact ⟨t, ht, e.symm⟩
  have hhigh : ∃ b ∈ ts ++ [t], p b = max r.2 (p t) := by
    rcases max_choice r.2 (p t) with e | e
    · exact ⟨b, hmem hb, hhigh.trans e.symm⟩
    · exact ⟨t, ht, e.symm⟩
  rw [stretch_eq hr h.near]
  split
  next hv =>
    refine .inl ⟨_, rfl, ⟨forall_mem_append.mpr ⟨fun t' ht' => ?_,
      forall_mem_singleton.mpr ⟨min_le_right .., le_max_right ..⟩⟩, hlow, hhigh, hv⟩⟩
    have := h.bounds t' ht'
    exact ⟨by omega, by omega⟩
  next hv =>
    obtain ⟨a, ha, hlow⟩ := hlow
    obtain ⟨b, hb, hhigh⟩ := hhigh
    exact .inr ⟨rfl, a, ha, b, hb, by omega⟩

/-! ### the run of the first search -/

lemma length_le_of_onMap {ts : List Tile} (hnodup : ts.Nodup) (h : ∀ t ∈ ts, OnMap s t) :
    ts.length ≤ s.tileCount := by
  have hsub : ts ⊆ range s.tilesInfo.mapTileWidth ×ˢ
      range s.tilesInfo.mapTileHeight := fun t ht =>
    mem_product.mpr ⟨mem_range.mpr (h t ht).1, mem_range.mpr (h t ht).2⟩
  have hle := (hnodup.subperm hsub).length_le
  rwa [length_product, length_range, length_range] at hle

/-- the tiles `done` have been taken from the queue of the first search -/
structure Explored (o : Order s) (start : Tile) (done : List Tile) (g : Grouping) (f : Front Tile) :
    Prop where
  tracks : Tracks s start g.xs g.ys g f
  search : Search.Inv (nbrs o) (enter s) [start] done f
  nodup : (done ++ f.queue).Nodup
  interior : ∀ t ∈ done, onBorder s t = false
  columns : Spans Prod.fst g.xs (start :: done)
  rows : Spans Prod.snd g.ys (start :: done)

lemma Explored.length_le (h : Explored o start done g f) (hstart : OnMap s start) :
    done.length + f.queue.length ≤ s.tileCount := by
  rw [← length_append]
  exact length_le_of_onMap h.nodup fun t ht => reach_onMap hstart (h.search.reached t ht)

lemma Explored.pop {queue : List Tile}
    (h : Explored o start done g ⟨seen, t :: queue⟩) (hb : onBorder s t = false)
    (hcolumns : Spans Prod.fst xs (start :: (done ++ [t])))
    (hrows : Spans Prod.snd ys (start :: (done ++ [t]))) :
    Explored o start (done ++ [t]) ((o.around t).foldl (Grouping.add s) { g with queue, xs, ys })
      (Front.addAll (enter s) ⟨seen, queue⟩ (o.around t)) := by
  have hnbrs : nbrs o t = o.around t := by simp [nbrs, hb]
  have htracks : Tracks s start xs ys { g with queue, xs, ys } ⟨seen, queue⟩ :=
    ⟨h.tracks.visited, rfl, rfl, rfl, h.tracks.started, h.tracks.empties⟩
  have htracks := htracks.addAll (o.around t)
  refine ⟨?_, hnbrs ▸ h.search.pop, hnbrs ▸ nodup_pop h.search h.nodup,
    forall_mem_append.mpr ⟨h.interior, forall_mem_singleton.mpr hb⟩, ?_, ?_⟩
  · rwa [htracks.xs, htracks.ys]
  · rwa [htracks.xs]
  · rwa [htracks.ys]

lemma groupLoop_ret (hstart : OnMap s start) (n : Nat) (h : Explored o start done g f)
    (hn : s.tileCount < n + done.length) :
    (groupLoop s o n g = .ret none ∧ ¬Compact s (InGroup s start)) ∨
      ∃ g' done' seen, groupLoop s o n g = .ret (some g') ∧
        Explored o start done' g' ⟨seen, []⟩ := by
  induction n generalizing g f done with
  | zero =>
    have := h.length_le hstart
    omega
  | succ n ih =>
    obtain ⟨seen, queue⟩ := f
    have hperm : (o.next g.queue).Perm queue := h.tracks.queue ▸ o.next_perm _
    rw [groupLoop]
    generalize o.next g.queue = q at hperm
    have hsearch := h.search.reorder hperm
    have hnodup : (done ++ q).Nodup := (hperm.append_left done).nodup_iff.mpr h.nodup
    cases q with
    | nil =>
      have hq : queue = [] := hperm.symm.eq_nil
      subst hq
      exact .inr ⟨g, done, seen, rfl, h⟩
    | cons t rest =>
      have hgroup (t' : Tile) (ht' : t' ∈ start :: (done ++ [t])) : InGroup s start t' := by
        rcases mem_cons.mp ht' with rfl | ht'
        · exact .start
        · refine reach_inGroup hstart (hsearch.reached t' ?_)
          simp only [mem_append, mem_cons, not_mem_nil, or_false] at ht' ⊢
          exact ht'.imp_right .inl
      have ht : t ∈ start :: (done ++ [t]) := by simp
      rcases h.columns.pop t with ⟨xs, hxs, hcolumns⟩ | ⟨hxs, a, ha, b, hb, hfar⟩
      · rcases h.rows.pop t with ⟨ys, hys, hrows⟩ | ⟨hys, a, ha, b, hb, hfar⟩
        · simp only [hxs, hys]
          cases hb : onBorder s t with
          | true =>
            refine .inl ⟨rfl, fun hcompact => ?_⟩
            rw [hcompact.2 t (hgroup t ht)] at hb
            cases hb
          | false =>
            have htracks :
                Tracks s start g.xs g.ys { g with queue := t :: rest } ⟨seen, t :: rest⟩ :=
              ⟨h.tracks.visited, rfl, rfl, rfl, h.tracks.started, h.tracks.empties⟩
            have hexp : Explored o start done { g with queue := t :: rest } ⟨seen, t :: rest⟩ :=
              ⟨htracks, hsearch, hnodup, h.interior, h.columns, h.rows⟩
            refine ih (hexp.pop hb hcolumns hrows) ?_
            rw [length_append, length_singleton]
            omega
        · simp only [hxs, hys]
          refine .inl ⟨trivial, fun hcompact => ?_⟩
          exact absurd (hcompact.1 a b (hgroup a ha) (hgroup b hb)).2 (Nat.not_lt.mpr hfar)
      · simp only [hxs]
        refine .inl ⟨trivial, fun hcompact => ?_⟩
        exact absurd (hcompact.1 a b (hgroup a ha) (hgroup b hb)).1 (Nat.not_lt.mpr hfar)

/-- **When the first search succeeds, it has found the group and the free tiles next to it.** -/
theorem Explored.found (h : Explored o start done g ⟨seen, []⟩)
    (hstart : OnMap s start) : Compact s (InGroup s start) ∧
      ∀ t, seen t ∧ free s t ∧ t ≠ start ↔ NextTo s start t := by
  have hdone (t : Tile) : t ∈ done ↔ InGroup s start t := by
    rw [h.search.done_iff]
    refine ⟨reach_inGroup hstart, InGroup.reach fun t' ht' => ?_⟩
    exact h.interior t' ((h.search.done_iff t').mpr ht')
  have hbounds {t : Tile} (ht : InGroup s start t) : t ∈ start :: done :=
    mem_cons_of_mem _ ((hdone t).mpr ht)
  refine ⟨⟨fun t t' ht ht' => ?_, fun t ht => h.interior t ((hdone t).mpr ht)⟩, fun t => ?_⟩
  · have := h.columns.bounds t (hbounds ht)
    have := h.columns.bounds t' (hbounds ht')
    have := h.rows.bounds t (hbounds ht)
    have := h.rows.bounds t' (hbounds ht')
    have := h.columns.near
    have := h.rows.near
    omega
  · have hseen := h.search.seen t
    simp only [mem_singleton, mem_nbrs] at hseen
    rw [hseen]
    constructor
    · rintro ⟨hs, hfree, hne⟩
      obtain ⟨t', ht', hb, ha⟩ := hs.resolve_left hne
      have hmap := reach_onMap hstart ((h.search.done_iff t').mp ht')
      refine ⟨ha.onMap hb hmap, hfree, fun hin => ?_, t', (hdone t').mp ht', ha⟩
      cases hin with
      | start => exact hne rfl
      | step _ _ _ hf => simp [hfree] at hf
    · rintro ⟨-, hfree, hout, t', ht', ha⟩
      have hin := (hdone t').mpr ht'
      exact ⟨.inr ⟨t', hin, h.interior t' hin, ha⟩, hfree, fun e => hout (e ▸ .start)⟩

/-! ## the second search -/

def inside (o : Order s) (N : List Tile) (t : Tile) : List Tile :=
  (o.beside t).filter fun t' => N.any fun t => decide (t = t')

lemma any_eq_iff : (N.any fun t' => decide (t' = t)) ↔ t ∈ N := by simp

/-- the variables of the second search in terms of the marked tiles of `N` and the queue -/
structure Follows (N : List Tile) (w : Walking) (f : Front Tile) : Prop where
  visited : ∀ t, w.visited t = .neighboringFreeTileNotVisited ↔ t ∈ N ∧ f.seen t = false
  queue : w.queue = f.queue
  count : w.neighboringEmptyTileCount = (N.filter fun t => !f.seen t).length

lemma Follows.add (hN : N.Nodup) (h : Follows N w f) (ht : t ∈ N) :
    Follows N (w.add t) (f.add (fun _ => true) t) := by
  cases hs : f.seen t with
  | true =>
    have hw : w.visited t ≠ .neighboringFreeTileNotVisited := fun e => by
      simp [((h.visited t).mp e).2] at hs
    rwa [Walking.add, if_pos hw, Front.add, if_pos hs]
  | false =>
    have hw : ¬w.visited t ≠ .neighboringFreeTileNotVisited :=
      not_not.mpr ((h.visited t).mpr ⟨ht, hs⟩)
    rw [Walking.add, if_neg hw, Front.add, hs, if_neg Bool.false_ne_true, if_pos rfl]
    refine ⟨fun t' => ?_, by rw [h.queue], ?_⟩
    · by_cases e : t' = t
      · simp [e]
      · simpa [e] using h.visited t'
    · have herase : (N.filter fun t' => !Function.update f.seen t true t') =
          (N.filter fun t' => !f.seen t').erase t := by
        rw [(hN.filter _).erase_eq_filter, filter_filter]
        refine filter_congr fun t' _ => ?_
        by_cases e : t' = t
        · simp [e]
        · simp [e]
      change w.neighboringEmptyTileCount - 1 = _
      rw [herase, length_erase_of_mem (by simp [ht, hs]), h.count]

lemma Follows.addAll (hN : N.Nodup) (h : Follows N w f) (ts : List Tile) :
    Follows N (ts.foldl Walking.add w)
      (f.addAll (fun _ => true) (ts.filter fun t' => N.any fun t => decide (t = t'))) := by
  induction ts generalizing w f with
  | nil => exact h
  | cons t ts ih =>
    by_cases ht : t ∈ N
    · rw [filter_cons_of_pos (by simpa using ht)]
      exact ih (h.add hN ht)
    · have hw : w.visited t ≠ .neighboringFreeTileNotVisited := fun e => ht ((h.visited t).mp e).1
      rw [filter_cons_of_neg (by simpa using ht), foldl_cons, Walking.add, if_pos hw]
      exact ih h

lemma reach_mem (hfirst : first ∈ N)
    (h : Reach (inside o N) (fun _ => true) [first] t) : t ∈ N := by
  cases h with
  | start h => rwa [mem_singleton.mp h]
  | step _ hy => exact any_eq_iff.mp (mem_filter.mp hy).2

lemma walkLoop_ret (hN : N.Nodup) (hfirst : first ∈ N) (n : Nat) (h : Follows N w f)
    (hsearch : Search.Inv (inside o N) (fun _ => true) [first] done f)
    (hnodup : (done ++ f.queue).Nodup) (hn : N.length < n + done.length) :
    ∃ count, walkLoop s o n w = .ret count ∧
      (count = 0 ↔ ∀ t ∈ N, Reach (inside o N) (fun _ => true) [first] t) := by
  induction n generalizing w f done with
  | zero =>
    have hlen := (hnodup.subperm fun t ht => reach_mem hfirst (hsearch.reached t ht)).length_le
    rw [length_append] at hlen
    omega
  | succ n ih =>
    obtain ⟨seen, queue⟩ := f
    have hperm : (o.next w.queue).Perm queue := h.queue ▸ o.next_perm _
    rw [walkLoop]
    generalize o.next w.queue = q at hperm
    have hsearch := hsearch.reorder hperm
    have hnodup : (done ++ q).Nodup := (hperm.append_left done).nodup_iff.mpr hnodup
    cases q with
    | nil =>
      refine ⟨_, rfl, ?_⟩
      rw [h.count, length_eq_zero_iff, filter_eq_nil_iff]
      refine forall₂_congr fun t _ => ?_
      rw [← hsearch.done_iff, Bool.not_eq_true', Bool.not_eq_false]
      refine ⟨fun hs => ?_, fun ht => hsearch.marked t (mem_append_left _ ht)⟩
      exact append_nil done ▸ hsearch.entered t hs rfl
    | cons t rest =>
      have hfollows : Follows N { w with queue := rest } ⟨seen, rest⟩ := ⟨h.visited, rfl, h.count⟩
      refine ih (hfollows.addAll hN (o.beside t)) hsearch.pop (nodup_pop hsearch hnodup) ?_
      rw [length_append, length_singleton]
      omega

lemma Beside.symm (h : Beside t t') : Beside t' t := by
  unfold Beside at *
  omega

lemma connected_iff (hmap : ∀ t ∈ N, OnMap s t) (hfirst : first ∈ N) :
    (∀ t ∈ N, Reach (inside o N) (fun _ => true) [first] t) ↔ Connected (· ∈ N) := by
  have hinside {t t' : Tile} (ht : t ∈ N) : t' ∈ inside o N t ↔ t' ∈ N ∧ Beside t t' := by
    rw [inside, mem_filter, (o.beside_perm t).mem_iff, mem_beside (hmap t ht), any_eq_iff]
    exact ⟨fun h => ⟨h.2, h.1.1⟩, fun h => ⟨⟨h.2, hmap t' h.1⟩, h.1⟩⟩
  constructor
  · intro h
    have hpath {t : Tile} (ht : Reach (inside o N) (fun _ => true) [first] t) :
        Relation.ReflTransGen (fun a b => a ∈ N ∧ b ∈ N ∧ Beside a b) first t := by
      induction ht with
      | start ht => rw [mem_singleton.mp ht]
      | step hx hy _ ih =>
        have hx := reach_mem hfirst hx
        exact ih.tail ⟨hx, (hinside hx).mp hy⟩
    have : Std.Symm fun a b : Tile => a ∈ N ∧ b ∈ N ∧ Beside a b :=
      ⟨fun a b h => ⟨h.2.1, h.1, h.2.2.symm⟩⟩
    exact fun t t' ht ht' => (Std.Symm.symm _ _ (hpath (h t ht))).trans (hpath (h t' ht'))
  · intro h t ht
    induction h first t hfirst ht with
    | refl => exact .start (mem_singleton_self _)
    | tail _ hstep ih => exact .step (ih hstep.1) ((hinside hstep.1).mpr hstep.2) rfl

/-! ## the answer -/

lemma explored_init (o : Order s) (start : Tile) :
    Explored o start []
      { visited := Function.update (fun _ => .notVisited) start .occupiedVisited
        queue := [start], xs := (start.1, start.1), ys := (start.2, start.2) }
      ⟨fun t => decide (t = start), [start]⟩ := by
  have hspan (p : Tile → Nat) : Spans p (p start, p start) [start] :=
    ⟨by simp, by simp, by simp, by omega⟩
  refine ⟨⟨?_, rfl, rfl, rfl, by simp, [], nodup_nil, rfl, rfl, by simp⟩, .init (by simp),
    nodup_singleton start, nofun, hspan Prod.fst, hspan Prod.snd⟩
  funext t
  by_cases h : t = start
  · simp [h, marks]
  · simp [h, marks]

lemma Explored.follows (h : Explored o start done g ⟨seen, []⟩) (hN : (first :: N).Nodup)
    (hmem : ∀ t, t ∈ first :: N ↔ seen t ∧ free s t ∧ t ≠ start) :
    Follows (first :: N)
      ⟨Function.update g.visited first .neighboringFreeTileVisited, [first], N.length⟩
      ⟨fun t => decide (t = first), [first]⟩ := by
  refine ⟨fun t => ?_, rfl, ?_⟩
  · by_cases ht : t = first
    · simp [ht]
    · rw [hmem, h.tracks.visited]
      cases hs : seen t with
      | true | false => simp [ht, marks, hs]
  · rw [filter_cons_of_neg (by simp), filter_eq_self.mpr fun t ht => ?_]
    have : t ≠ first := fun e => (nodup_cons.mp hN).1 (e ▸ ht)
    simp [this]

lemma layoutValid_ret (o : Order s) {startPos : Position} (hstart : OnMap s (beginTile startPos))
    {n : Nat} (hn : s.tileCount < n) :
    ∃ valid, layoutValid s o startPos n = .ret valid ∧
      (valid ↔ ValidLayout s (beginTile startPos)) := by
  dsimp only [layoutValid]
  generalize beginTile startPos = start at *
  rcases groupLoop_ret hstart n (explored_init o start) hn with
    ⟨hg, hcompact⟩ | ⟨g, done, seen, hg, h⟩
  · rw [hg]
    exact ⟨false, rfl, nofun, fun h => absurd h.1 hcompact⟩
  · obtain ⟨hcompact, hnext⟩ := h.found hstart
    obtain ⟨N, hN, hfirst, hcount, hmem⟩ := h.tracks.empties
    have hmemN (t : Tile) : t ∈ N ↔ NextTo s start t := (hmem t).trans (hnext t)
    rw [hg, Run.ret_bind]
    cases N with
    | nil =>
      simp only [hfirst, head?_nil]
      exact ⟨true, rfl, fun _ => ⟨hcompact, .inl fun ⟨t, ht⟩ => by simpa using (hmemN t).mpr ht⟩,
        fun _ => rfl⟩
    | cons first N =>
      have hself : first ∈ first :: N := mem_cons_self ..
      have hmap (t : Tile) (ht : t ∈ first :: N) : OnMap s t := ((hmemN t).mp ht).1
      have hlen := length_le_of_onMap hN hmap
      obtain ⟨count, hwalk, hzero⟩ := walkLoop_ret (o := o) hN hself n (h.follows hN hmem)
        (.init (by simp)) (nodup_singleton first) (Nat.lt_of_le_of_lt hlen hn)
      have hN' : (fun t => t ∈ first :: N) = NextTo s start := funext fun t => propext (hmemN t)
      simp only [hfirst, hcount, head?_cons, length_cons, Nat.add_sub_cancel, hwalk, Run.ret_bind]
      refine ⟨_, rfl, ?_⟩
      rw [beq_iff_eq, hzero, connected_iff hmap hself, hN']
      exact ⟨fun h => ⟨hcompact, .inr h⟩,
        fun h => h.2.resolve_left fun h => h ⟨first, (hmemN first).mp hself⟩⟩

lemma layoutValid_eq {startPos : Position} (hstart : OnMap s (beginTile startPos)) :
    ∃ valid, (valid = true ↔ ValidLayout s (beginTile startPos)) ∧ ∀ (o : Order s) (n : Nat),
      s.tileCount < n →
        layoutValid s o startPos n = .ret valid := by
  obtain ⟨valid, -, hiff⟩ := layoutValid_ret (Order.source s) hstart (Nat.lt_succ_self _)
  refine ⟨valid, hiff, fun o n hn => ?_⟩
  obtain ⟨valid', hret, hiff'⟩ := layoutValid_ret o hstart hn
  rw [hret, Bool.eq_iff_iff.mpr (hiff'.trans hiff.symm)]

/-- **A layout is valid if the group of the start tile is compact and the free tiles next to it are
connected.**  -/
theorem layout_iff (s : State B) (startPos : Position) (hstart : OnMap s (beginTile startPos)) :
    ∃ valid, Returns (buildingLayoutValid s startPos) valid ∧
      (∀ o : Order s, Returns (layoutValid s o startPos) valid) ∧
      (valid = true ↔ ValidLayout s (beginTile startPos)) := by
  obtain ⟨valid, hiff, heq⟩ := layoutValid_eq hstart
  have hreturns (o : Order s) : Returns (layoutValid s o startPos) valid := ⟨_, heq o⟩
  exact ⟨valid, hreturns (Order.source s), hreturns, hiff⟩

end searches

theorem layout_iff_pylon :
    ∃ valid, Returns (buildingLayoutValid (besidePylon 320) ⟨40, 8⟩) valid ∧
      (∀ o : Order (besidePylon 320), Returns (layoutValid (besidePylon 320) o ⟨40, 8⟩) valid) ∧
      (valid = true ↔ ValidLayout (besidePylon 320) (10, 2)) :=
  layout_iff (besidePylon 320) ⟨40, 8⟩ (by unfold OnMap; decide)

end TorchCraft.Placer
