import Mathlib.Order.Nat
import Mathlib.Order.WellFounded

/-!
# Loops with fuel

A computation that may loop or throw is a function of its fuel: `f n` is what happens within `n`
rounds.

* `Run`  still looping, an exception, or a value;
* `Returns.round`  one round of a loop.
-/

namespace TorchCraft.Lib

inductive Run (α : Type*) where
  | spin
  | raise (e : String)
  | ret (a : α)
  deriving DecidableEq

namespace Run
variable {α β : Type*}

def bind : Run α → (α → Run β) → Run β
  | .spin, _ => .spin
  | .raise e, _ => .raise e
  | .ret a, f => f a

@[simp] lemma ret_bind (a : α) (f : α → Run β) : (Run.ret a).bind f = f a := rfl

lemma bind_eq_ret {x : Run α} {f : α → Run β} {b : β} :
    x.bind f = .ret b ↔ ∃ a, x = .ret a ∧ f a = .ret b := by
  cases x with
  | spin | raise | ret => simp [bind]

def toOption : Run α → Option α
  | .ret a => some a
  | _ => none

lemma toOption_eq_some {x : Run α} {a : α} : x.toOption = some a ↔ x = .ret a := by
  cases x with
  | spin | raise | ret => simp [toOption]

end Run

variable {α β : Type*} {f : ℕ → Run α} {g : α → ℕ → Run β} {a : α} {Q : α → Prop}

/-- the computation returns `a` -/
def Returns (f : ℕ → Run α) (a : α) : Prop := ∃ n, ∀ m, n ≤ m → f m = .ret a

/-- more fuel does not change a value -/
def Stable (f : ℕ → Run α) : Prop := ∀ n m, n ≤ m → ∀ a, f n = .ret a → f m = .ret a

lemma Returns.unique {a b : α} (ha : Returns f a) (hb : Returns f b) : a = b := by
  obtain ⟨n, hn⟩ := ha
  obtain ⟨m, hm⟩ := hb
  have h := (hn (n + m) (Nat.le_add_right ..)).symm.trans (hm (n + m) (Nat.le_add_left ..))
  cases h
  rfl

lemma Stable.returns (hf : Stable f) {n : ℕ} (h : f n = .ret a) : Returns f a :=
  ⟨n, fun m hm => hf n m hm a h⟩

lemma stable_const (x : Run α) : Stable (fun _ => x) := fun _ _ _ _ h => h

lemma returns_const {x : Run α} : Returns (fun _ => x) a ↔ x = .ret a :=
  ⟨fun ⟨n, hn⟩ => hn n le_rfl, fun h => ⟨0, fun _ _ => h⟩⟩

lemma Stable.bind (hf : Stable f) (hg : ∀ a, Stable (g a)) :
    Stable (fun n => (f n).bind fun a => g a n) := by
  intro n m hnm b h
  obtain ⟨a, ha, hb⟩ := Run.bind_eq_ret.mp h
  exact Run.bind_eq_ret.mpr ⟨a, hf n m hnm a ha, hg a n m hnm b hb⟩

lemma Returns.bind {b : β} (hf : Returns f a) (hg : Returns (g a) b) :
    Returns (fun n => (f n).bind fun a => g a n) b := by
  obtain ⟨n, hn⟩ := hf
  obtain ⟨m, hm⟩ := hg
  refine ⟨max n m, fun k hk => Run.bind_eq_ret.mpr ⟨a, hn k ?_, hm k ?_⟩⟩
  · exact le_trans (le_max_left n m) hk
  · exact le_trans (le_max_right n m) hk

lemma Returns.round {f' : ℕ → Run α} (h : Returns f' a) (hf : ∀ n, f (n + 1) = f' n) :
    Returns f a := by
  obtain ⟨n, hn⟩ := h
  refine ⟨n + 1, fun m hm => ?_⟩
  obtain ⟨k, rfl⟩ := Nat.exists_eq_add_of_le' (le_trans (Nat.le_add_left 1 n) hm)
  rw [hf]
  exact hn k (Nat.le_of_succ_le_succ hm)

lemma returns_of_succ (h : ∀ n, f (n + 1) = .ret a) : Returns f a :=
  (returns_const.mpr rfl).round h

/-- **A sequence returns exactly if its parts do.** -/
theorem returns_bind (hf : Stable f) {b : β} :
    Returns (fun n => (f n).bind fun a => g a n) b ↔ ∃ a, Returns f a ∧ Returns (g a) b := by
  constructor
  · rintro ⟨n, hn⟩
    obtain ⟨a, ha, _⟩ := Run.bind_eq_ret.mp (hn n le_rfl)
    refine ⟨a, hf.returns ha, n, fun m hm => ?_⟩
    have h : (f m).bind (fun a => g a m) = .ret b := hn m hm
    rw [hf n m hm a ha, Run.ret_bind] at h
    exact h
  · rintro ⟨a, ha, hb⟩
    exact ha.bind hb

/-! ## total correctness -/

/-- the computation returns a value with `Q` -/
def Computes (f : ℕ → Run α) (Q : α → Prop) : Prop := ∃ a, Returns f a ∧ Q a

lemma computes_ret (h : Q a) : Computes (fun _ => Run.ret a) Q :=
  ⟨a, returns_const.mpr rfl, h⟩

lemma Computes.mono {R : α → Prop} (h : Computes f Q) (hQR : ∀ a, Q a → R a) : Computes f R := by
  obtain ⟨a, ha, hq⟩ := h
  exact ⟨a, ha, hQR a hq⟩

lemma Computes.bind {R : β → Prop} (hf : Computes f Q) (hg : ∀ a, Q a → Computes (g a) R) :
    Computes (fun n => (f n).bind fun a => g a n) R := by
  obtain ⟨a, ha, hq⟩ := hf
  obtain ⟨b, hb, hr⟩ := hg a hq
  exact ⟨b, ha.bind hb, hr⟩

lemma Computes.of_returns (h : Computes f Q) (ha : Returns f a) : Q a := by
  obtain ⟨b, hb, hq⟩ := h
  exact ha.unique hb ▸ hq

section loops
variable {σ : Type*}

/-- the body goes on with a new state or stops with a value -/
def loop (body : σ → ℕ → Run (σ ⊕ α)) : σ → ℕ → Run α
  | _, 0 => .spin
  | s, n + 1 => (body s n).bind (Sum.elim (fun s' => loop body s' n) Run.ret)

/-- a body for every element of a list, in order -/
def forEach (step : σ → β → ℕ → Run σ) : σ → List β → ℕ → Run σ
  | s, [], _ => .ret s
  | s, b :: l, n => (step s b n).bind fun s' => forEach step s' l n

variable {body : σ → ℕ → Run (σ ⊕ α)} {s : σ}

/-- **Total correctness of a loop**: the body keeps `I` and makes `μ` smaller, or stops with `Q`. -/
theorem computes_loop {ω : Type*} [Preorder ω] [WellFoundedLT ω] (I : σ → Prop) (μ : σ → ω)
    (hbody : ∀ s, I s → Computes (body s) (Sum.elim (fun s' => I s' ∧ μ s' < μ s) Q)) (hs : I s) :
    Computes (loop body s) Q := by
  induction hm : μ s using WellFoundedLT.induction generalizing s with
  | ind m ih =>
    subst hm
    have hrest :
        Computes (fun n => (body s n).bind (Sum.elim (fun s' => loop body s' n) Run.ret)) Q := by
      refine (hbody s hs).bind (g := fun r n => Sum.elim (fun s' => loop body s' n) Run.ret r) ?_
      rintro (s' | a) h
      · exact ih _ h.2 h.1 rfl
      · exact computes_ret h
    obtain ⟨a, ha, hq⟩ := hrest
    exact ⟨a, ha.round fun _ => rfl, hq⟩

variable {step : σ → β → ℕ → Run σ}

/-- **Total correctness of a loop over a list.**  -/
theorem computes_forEach (I : List β → σ → Prop) {l : List β}
    (hstep : ∀ done b rest s, l = done ++ b :: rest → I done s → Computes (step s b) (I (done ++ [b])))
    (hs : I [] s) : Computes (forEach step s l) (I l) := by
  have hall : ∀ rest done s, l = done ++ rest → I done s → Computes (forEach step s rest) (I l) := by
    intro rest
    induction rest with
    | nil =>
      intro done s hl h
      rw [hl, List.append_nil]
      exact computes_ret h
    | cons b rest ih =>
      intro done s hl h
      refine (hstep done b rest s hl h).bind fun s' hs' => ?_
      exact ih (done ++ [b]) s' (by rw [hl, List.append_assoc]; rfl) hs'
  exact hall l [] s rfl hs

lemma stable_loop (h : ∀ s, Stable (body s)) (s : σ) : Stable (loop body s) := by
  intro n m hnm
  induction n generalizing s m with
  | zero => exact nofun
  | succ n ih =>
    obtain ⟨m, rfl⟩ : ∃ k, m = k + 1 := ⟨m - 1, by omega⟩
    intro a ha
    obtain ⟨r, hr, ha⟩ := Run.bind_eq_ret.mp ha
    refine Run.bind_eq_ret.mpr ⟨r, h s n m (Nat.le_of_succ_le_succ hnm) r hr, ?_⟩
    cases r with
    | inl s' => exact ih s' m (Nat.le_of_succ_le_succ hnm) a ha
    | inr b => exact ha

lemma stable_forEach (h : ∀ s b, Stable (step s b)) (l : List β) (s : σ) :
    Stable (forEach step s l) := by
  induction l generalizing s with
  | nil => exact stable_const _
  | cons b l ih => exact (h s b).bind fun s' => ih s'

end loops

end TorchCraft.Lib
