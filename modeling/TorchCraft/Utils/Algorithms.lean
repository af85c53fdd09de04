import Mathlib.Algebra.Order.Field.Rat
import Mathlib.Algebra.Order.Field.Basic

/-!
# `utils/algorithms.h` and `utils/gamemechanics.h`

* `getBestScoreCalls`  the loops of `getBestScore` with the calls of `score`;
* `disthelper`, `pxdistance`, `distance`  the distances of the game engine.

Scores are floating point numbers.  `Scoring` says how they compare and which ones are the invalid
score; nothing is assumed of the comparison, so a NaN is covered.
-/

namespace TorchCraft.Utils

abbrev Position := Int × Int

/-- the comparison of scores, and the scores that are equal to `invalidScore` -/
structure Scoring (S : Type*) where
  lt : S → S → Bool
  invalid : S → Bool

def infty : Scoring (Option ℚ) where
  lt
    | some a, some b => decide (a < b)
    | some _, none => true
    | none, _ => false
  invalid := Option.isNone

section best
variable {A S : Type*} (C : Scoring S) (score : A → S)

/-- one round of the loop: `best` is the best place so far, with its score -/
def better (best : Option (Nat × S)) (i : Nat) (a : A) : Option (Nat × S) :=
  if C.invalid (score a) then best
  else
    match best with
    | none => some (i, score a)
    | some b => if C.lt (score a) b.2 then some (i, score a) else best

def bestFrom : Nat → Option (Nat × S) → List A → Option (Nat × S)
  | _, best, [] => best
  | i, best, a :: l => bestFrom (i + 1) (better C score best i a) l

/-- `utils::getBestScore`: the place of the best element; `none` is the end iterator -/
def getBestScore (l : List A) : Option Nat := (bestFrom C score 0 none l).map Prod.fst

def getBestScorePointer (l : List A) : Option (Nat × A) :=
  (getBestScore C score l).bind fun i => l[i]?.map fun a => (i, a)

/-- `utils::getBestScoreCopy`, where `none` stands for a value-initialized result -/
def getBestScoreCopy (l : List A) : Option A := (getBestScorePointer C score l).map Prod.snd

variable {C score} {l : List A}

lemma bestFrom_rule {I : List A → Option (Nat × S) → Prop}
    (step : ∀ l best a, I l best → I (l ++ [a]) (better C score best l.length a))
    {best : Option (Nat × S)} (h : I l best) (l' : List A) :
    I (l ++ l') (bestFrom C score l.length best l') := by
  induction l' generalizing l best with
  | nil => rwa [List.append_nil]
  | cons a l' ih =>
    have hnext := ih (step l best a h)
    rwa [List.append_assoc, List.length_append] at hnext

lemma better_eq_some {best : Option (Nat × S)} {i : Nat} {a : A} {b : Nat × S}
    (h : better C score best i a = some b) :
    best = some b ∨ b = (i, score a) ∧ C.invalid (score a) = false := by
  unfold better at h
  split at h
  · exact .inl h
  next hv =>
    split at h
    · exact .inr ⟨(Option.some.inj h).symm, Bool.not_eq_true _ ▸ hv⟩
    · split at h
      · exact .inr ⟨(Option.some.inj h).symm, Bool.not_eq_true _ ▸ hv⟩
      · exact .inl h

lemma getBestScore_spec {i : Nat} (h : getBestScore C score l = some i) :
    ∃ a, l[i]? = some a ∧ C.invalid (score a) = false := by
  obtain ⟨b, hb, rfl⟩ := Option.map_eq_some_iff.mp h
  refine bestFrom_rule (l := []) (I := fun l best => ∀ b, best = some b →
    ∃ a, l[b.1]? = some a ∧ C.invalid (score a) = false) ?_ (by simp) l b hb
  intro l best a hbest b h
  obtain h | ⟨rfl, hv⟩ := better_eq_some h
  · obtain ⟨a', ha', hv⟩ := hbest b h
    exact ⟨a', by rw [List.getElem?_append_left (List.getElem?_eq_some_iff.mp ha').1, ha'], hv⟩
  · exact ⟨a, by simp, hv⟩

lemma getBestScorePointer_spec {p : Nat × A} (h : getBestScorePointer C score l = some p) :
    l[p.1]? = some p.2 ∧ C.invalid (score p.2) = false := by
  obtain ⟨i, hi, h⟩ := Option.bind_eq_some_iff.mp h
  obtain ⟨a, ha, rfl⟩ := Option.map_eq_some_iff.mp h
  obtain ⟨a', ha', hv⟩ := getBestScore_spec hi
  obtain rfl : a' = a := Option.some.inj (ha'.symm.trans ha)
  exact ⟨ha, hv⟩

lemma getBestScoreCopy_spec {a : A} (h : getBestScoreCopy C score l = some a) :
    a ∈ l ∧ C.invalid (score a) = false := by
  obtain ⟨p, hp, rfl⟩ := Option.map_eq_some_iff.mp h
  obtain ⟨hmem, hv⟩ := getBestScorePointer_spec hp
  exact ⟨List.mem_of_getElem? hmem, hv⟩

/-! ### the loops of the source, with the calls of `score` -/

section calls
variable [LinearOrder S] (score : A → S) (invalidScore bestPossibleScore : Option S)

/-- where `none` is `NoValue` -/
abbrev isEqualButNotNoValue (s : S) (v : Option S) : Prop := v = some s

def ordering : Scoring S := ⟨fun s t => s < t, fun s => isEqualButNotNoValue s invalidScore⟩

def called (i : Nat) (r : List Nat × Option Nat) : List Nat × Option Nat := (i :: r.1, r.2)

/-- the last loop, from the place `i` on: the places where `score` is called, and the result -/
def scan (best : Option Nat) (bestScore : S) (i : Nat) : List A → List Nat × Option Nat
  | [] => ([], best)
  | a :: l => called i <|
    if isEqualButNotNoValue (score a) invalidScore then scan best bestScore (i + 1) l
    else if score a < bestScore then
      if isEqualButNotNoValue (score a) bestPossibleScore then ([], some i)
      else scan (some i) (score a) (i + 1) l
    else scan best bestScore (i + 1) l

/-- the search for a valid score; the last loop begins at the place where it breaks -/
def search (i : Nat) : List A → List Nat × Option Nat
  | [] => ([], none)
  | a :: l => called i <|
    if isEqualButNotNoValue (score a) invalidScore then search (i + 1) l
    else if isEqualButNotNoValue (score a) bestPossibleScore then ([], some i)
    else scan score invalidScore bestPossibleScore (some i) (score a) i (a :: l)

def getBestScoreCalls : List A → List Nat × Option Nat
  | [] => ([], none)
  | a :: l => called 0 <|
    if isEqualButNotNoValue (score a) invalidScore then
      search score invalidScore bestPossibleScore 1 l
    else scan score invalidScore bestPossibleScore (some 0) (score a) 1 l

/-- the first element with a least valid score, by its place and its score, if any score is valid -/
def FirstBest (l : List A) : Option (Nat × S) → Prop
  | none => ∀ x ∈ l, invalidScore = some (score x)
  | some b => ∃ l₁ a l₂, l = l₁ ++ a :: l₂ ∧ b = (l₁.length, score a) ∧
      invalidScore ≠ some (score a) ∧
      (∀ x ∈ l₁, invalidScore ≠ some (score x) → score a < score x) ∧
      ∀ x ∈ l₂, invalidScore ≠ some (score x) → score a ≤ score x

variable {score invalidScore bestPossibleScore} {s : S} {i : Nat}

lemma better_none (a : A) : better (ordering invalidScore) score none i a =
    if invalidScore = some (score a) then none else some (i, score a) := by
  simp [better, ordering]

lemma better_some (b : Nat × S) (a : A) : better (ordering invalidScore) score (some b) i a =
    if invalidScore = some (score a) then some b
    else if score a < b.2 then some (i, score a) else some b := by
  simp [better, ordering]

lemma FirstBest.snoc (l : List A) (best : Option (Nat × S)) (a : A)
    (h : FirstBest score invalidScore l best) :
    FirstBest score invalidScore (l ++ [a])
      (better (ordering invalidScore) score best l.length a) := by
  cases best with
  | none =>
    rw [better_none]
    split
    next hv => exact List.forall_mem_append.mpr ⟨h, List.forall_mem_singleton.mpr hv⟩
    next hv => exact ⟨l, a, [], rfl, rfl, hv, fun x hx hx' => absurd (h x hx) hx', nofun⟩
  | some b =>
    obtain ⟨l₁, c, l₂, rfl, rfl, hc, h₁, h₂⟩ := h
    rw [better_some]
    split_ifs with hv hlt
    · exact ⟨l₁, c, l₂ ++ [a], by simp, rfl, hc, h₁, by grind⟩
    · exact ⟨_, a, [], rfl, rfl, hv, by grind, nofun⟩
    · exact ⟨l₁, c, l₂ ++ [a], by simp, rfl, hc, h₁, by grind⟩

lemma bestFrom_eq_self {b : Nat × S}
    (h : ∀ a ∈ l, invalidScore ≠ some (score a) → b.2 ≤ score a) :
    bestFrom (ordering invalidScore) score i (some b) l = some b := by
  induction l generalizing i with
  | nil => rfl
  | cons a l ih =>
    rw [List.forall_mem_cons] at h
    have hkeep : better (ordering invalidScore) score (some b) i a = some b := by
      rw [better_some]
      grind
    rw [bestFrom, hkeep, ih h.2]

section result
variable (hp : ∀ b ∈ bestPossibleScore, ∀ a ∈ l, invalidScore ≠ some (score a) → b ≤ score a)
include hp

lemma scan_eq (k : Nat) :
    (scan score invalidScore bestPossibleScore (some k) s i l).2 =
      (bestFrom (ordering invalidScore) score i (some (k, s)) l).map Prod.fst := by
  induction l generalizing i k s with
  | nil => rfl
  | cons a l ih =>
    have hp b hb := (List.forall_mem_cons.mp (hp b hb)).2
    rw [bestFrom, better_some]
    unfold scan called
    split_ifs with hv hlt hb
    · exact ih hp k
    · rw [bestFrom_eq_self (hp _ hb)]
      rfl
    · exact ih hp i
    · exact ih hp k

lemma search_eq :
    (search score invalidScore bestPossibleScore i l).2 =
      (bestFrom (ordering invalidScore) score i none l).map Prod.fst := by
  induction l generalizing i with
  | nil => rfl
  | cons a l ih =>
    have hp' b hb := (List.forall_mem_cons.mp (hp b hb)).2
    rw [bestFrom, better_none]
    unfold search called
    split_ifs with hv hb
    · exact ih hp'
    · rw [bestFrom_eq_self (hp' _ hb)]
      rfl
    · rw [scan_eq hp, bestFrom, better_some, if_neg hv, if_neg (lt_irrefl _)]

lemma getBestScoreCalls_eq :
    (getBestScoreCalls score invalidScore bestPossibleScore l).2 =
      getBestScore (ordering invalidScore) score l := by
  cases l with
  | nil => rfl
  | cons a l =>
    have hp b hb := (List.forall_mem_cons.mp (hp b hb)).2
    rw [getBestScore, getBestScoreCalls, bestFrom, better_none]
    split_ifs
    · exact search_eq hp
    · exact scan_eq hp 0

end result

lemma scan_calls (k : Option Nat) :
    (scan score invalidScore bestPossibleScore k s i l).1 <+: List.range' i l.length := by
  induction l generalizing i k s with
  | nil => exact List.nil_prefix
  | cons a l ih =>
    refine (List.prefix_cons_inj i).mpr ?_
    split_ifs
    exacts [ih k, List.nil_prefix, ih _, ih k]

lemma search_calls : (search score invalidScore bestPossibleScore i l).1 <+: List.range' i l.length ↔
    ∀ a ∈ l.find? (fun a => invalidScore ≠ some (score a)), bestPossibleScore = some (score a) := by
  induction l generalizing i with
  | nil => exact ⟨fun _ => nofun, fun _ => List.nil_prefix⟩
  | cons a l ih =>
    refine (List.prefix_cons_inj i).trans ?_
    split_ifs with hv hb
    · rw [ih, List.find?_cons_of_neg (by simpa using hv)]
    · exact ⟨fun _ => by simp [hv, hb], fun _ => List.nil_prefix⟩
    · -- `score` is called at `i` again, where the list goes on with `i + 1`
      refine iff_of_false (fun h => ?_) fun h => hb (h a (by simp [hv]))
      have hi := List.mem_range'.mp (h.subset List.mem_cons_self)
      omega

/-- **`getBestScore` finds the first best element**, and when it scores the elements once. -/
theorem getBestScoreCalls_first (l : List A) :
    ((∀ b ∈ bestPossibleScore, ∀ a ∈ l, invalidScore ≠ some (score a) → b ≤ score a) →
      ∃ best, FirstBest score invalidScore l best ∧
        (getBestScoreCalls score invalidScore bestPossibleScore l).2 = best.map Prod.fst) ∧
    ((getBestScoreCalls score invalidScore bestPossibleScore l).1 <+: List.range l.length ↔
      ∀ a ∈ l.find? (fun a => invalidScore ≠ some (score a)),
        l.head? = some a ∨ bestPossibleScore = some (score a)) := by
  have hnil : FirstBest score invalidScore [] none := nofun
  refine ⟨fun hp => ⟨_, bestFrom_rule FirstBest.snoc hnil l, getBestScoreCalls_eq hp⟩, ?_⟩
  rw [List.range_eq_range']
  cases l with
  | nil => exact ⟨fun _ => nofun, fun _ => List.nil_prefix⟩
  | cons a l =>
    refine (List.prefix_cons_inj 0).trans ?_
    split_ifs with hv
    · rw [search_calls, List.find?_cons_of_neg (by simpa using hv)]
      refine forall₂_congr fun b hb => (or_iff_right ?_).symm
      rintro ⟨⟩
      simpa [hv] using List.find?_some hb
    · exact ⟨fun _ => by simp [hv], fun _ => scan_calls _⟩

/-- the element where the search breaks is scored again -/
theorem getBestScoreCalls_twice :
    getBestScoreCalls (id : Nat → Nat) (some 0) none [0, 1] = ([0, 1, 1], some 1) := by decide

end calls

end best

/-! ## distances -/

def disthelper (dx dy : Nat) : Nat :=
  let a := max dx dy
  let b := min dx dy
  if a / 4 < b then a - a / 16 + b * 3 / 8 - a / 64 + b * 3 / 256 else a

def pxdistance (px1 py1 px2 py2 : Int) : Nat :=
  disthelper (px1 - px2).natAbs (py1 - py2).natAbs

def XYPixelsPerWalktile : Nat := 8

def distance (x1 y1 x2 y2 : Int) : ℚ :=
  disthelper ((x1 - x2).natAbs * XYPixelsPerWalktile) ((y1 - y2).natAbs * XYPixelsPerWalktile) /
    XYPixelsPerWalktile

lemma disthelper_pos {dx dy : Nat} (h : dx ≠ 0 ∨ dy ≠ 0) : 0 < disthelper dx dy := by
  unfold disthelper
  have ha : 1 ≤ max dx dy := by omega
  generalize max dx dy = a at ha
  generalize min dx dy = b
  have hsub : a / 16 + a / 64 < a := by omega
  dsimp only
  split
  · generalize b * 3 / 8 = c, b * 3 / 256 = c'
    omega
  · exact ha

end TorchCraft.Utils
