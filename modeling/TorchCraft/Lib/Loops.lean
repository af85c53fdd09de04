import Mathlib.Data.List.Nodup

/-!
# Loops over a list, seen at one place of the state

A loop `l.foldl step s` whose steps each concern one place of a large state is, at a given place `k`,
a loop over the elements that concern `k`:
-/

namespace TorchCraft.Lib.Loops
open List

variable {S A C K : Type*}

/-- **The loop, seen through a view.** -/
theorem foldl_view (I : S → Prop) (view : S → C) (act : A → C → C) {step : S → A → S}
    (hI : ∀ s a, I s → I (step s a)) (hview : ∀ s a, I s → view (step s a) = act a (view s))
    (l : List A) (s : S) (hs : I s) :
    view (l.foldl step s) = l.foldl (fun c a => act a c) (view s) := by
  induction l generalizing s with
  | nil => rfl
  | cons a l ih => rw [foldl_cons, foldl_cons, ih _ (hI s a hs), hview s a hs]

variable [DecidableEq K]

lemma unseen_update (view : S → C) {f : K → S} {k : K} {s : S} (h : view s = view (f k)) (j : K) :
    view (Function.update f k s j) = view (f j) := by
  rw [Function.update_apply]
  split
  next hj => rw [hj, h]
  next => rfl

lemma foldl_none (key : A → K) {l : List A} {k : K} (hl : ∀ a ∈ l, k ≠ key a)
    (act : A → C → C) (c : C) : l.foldl (fun c a => if k = key a then act a c else c) c = c := by
  induction l with
  | nil => rfl
  | cons a l ih =>
    rw [foldl_cons, if_neg (hl a mem_cons_self)]
    exact ih fun b hb => hl b (mem_cons_of_mem a hb)

/-- **One element at most concerns the place.** -/
theorem foldl_one {key : A → K} {l : List A} (hl : (l.map key).Nodup) (k : K) (act : A → C → C) (c : C) :
    l.foldl (fun c a => if k = key a then act a c else c) c =
      (l.find? fun a => k = key a).elim c fun a => act a c := by
  induction l generalizing c with
  | nil => rfl
  | cons a l ih =>
    obtain ⟨ha, hl⟩ := nodup_cons.mp hl
    rw [foldl_cons]
    by_cases hk : k = key a
    · rw [if_pos hk, find?_cons_of_pos (by exact decide_eq_true hk)]
      refine foldl_none key (fun b hb he => ha ?_) act _
      rw [← hk, he]
      exact mem_map_of_mem hb
    · rw [if_neg hk, find?_cons_of_neg (by exact fun h => hk (of_decide_eq_true h)), ih hl]

lemma foldl_mem {l : List K} (hl : l.Nodup) (k : K) (act : K → C → C) (c : C) :
    l.foldl (fun c a => if k = a then act a c else c) c = if k ∈ l then act k c else c := by
  refine (foldl_one (show (l.map id).Nodup by rwa [map_id]) k act c).trans ?_
  cases h : l.find? fun a => k = id a with
  | none => rw [if_neg fun hk => find?_eq_none.mp h k hk (decide_eq_true rfl)]; rfl
  | some a =>
    obtain rfl : k = a := by simpa using find?_some h
    rw [if_pos (mem_of_find?_eq_some h)]
    rfl

/-- **A change that may be made several times.** -/
theorem foldl_idem {act : C → C} (hact : ∀ c, act (act c) = act c) (l : List K) (k : K) (c : C) :
    l.foldl (fun c a => if k = a then act c else c) c = if k ∈ l then act c else c := by
  induction l generalizing c with
  | nil => rfl
  | cons a l ih =>
    rw [foldl_cons, ih]
    by_cases hk : k = a
    · subst hk
      rw [if_pos rfl, if_pos mem_cons_self, hact, ite_self]
    · rw [if_neg hk]
      exact if_congr (mem_cons.trans (or_iff_right hk)).symm rfl rfl

lemma foldl_at (view : S → C) (act : C → C) (hact : ∀ c, act (act c) = act c) {step : S → K → S}
    {k : K} (hview : ∀ s a, view (step s a) = if k = a then act (view s) else view s) (l : List K)
    (s : S) : view (l.foldl step s) = if k ∈ l then act (view s) else view s :=
  (foldl_hom view fun s a => (hview s a).symm).symm.trans (foldl_idem hact l k _)

end TorchCraft.Lib.Loops
