import Mathlib.Data.List.Forall2

/-!
# Programs that may throw

* `map_ok`, `bind_ok`  a program that returned, taken apart;
* `foldlM_ok`, `foldlM_inv`  loops that stop at the first error;
* `Leads R s x`  the program `x`, started in `s`, leads to a state related to `s` if it returns;
  for a reflexive and transitive `R` this composes.
-/

namespace TorchCraft.Lib.Effects

variable {A B E : Type*} {f : A → Except E B} {x : Except E A} {l : List A}

lemma map_ok {g : A → B} {b : B} (h : x.map g = .ok b) : ∃ a, x = .ok a ∧ g a = b := by
  cases x with
  | error e => nomatch h
  | ok a => exact ⟨a, rfl, Except.ok.inj h⟩

lemma bind_ok {b : B} (h : x.bind f = .ok b) : ∃ a, x = .ok a ∧ f a = .ok b := by
  cases x with
  | error e => nomatch h
  | ok a => exact ⟨a, rfl, h⟩

section
variable {S : Type*} {step : S → A → Except E S} (I : List A → S → Prop)
include I

/-- a loop with an invariant over what is left of the list; the errors that may come are known -/
lemma foldlM_ok (good : E → Prop)
    (hstep : ∀ a l s, I (a :: l) s → (∀ e, step s a = .error e → good e) →
      ∃ s', step s a = .ok s' ∧ I l s')
    {s : S} (hI : I l s) (he : ∀ e, l.foldlM step s = .error e → good e) :
    ∃ s', l.foldlM step s = .ok s' ∧ I [] s' := by
  induction l generalizing s with
  | nil => exact ⟨s, rfl, hI⟩
  | cons a l ih =>
    obtain ⟨s₁, h₁, hI₁⟩ := hstep a l s hI fun e h => he e (by rw [List.foldlM_cons, h]; rfl)
    have hcons : (a :: l).foldlM step s = l.foldlM step s₁ := by
      rw [List.foldlM_cons, h₁]
      rfl
    rw [hcons] at he ⊢
    exact ih hI₁ he

/-- a loop that returned, with an invariant over what is left of the list -/
lemma foldlM_inv
    (hstep : ∀ a l s s', I (a :: l) s → step s a = .ok s' → I l s') {s s' : S} (hI : I l s)
    (h : l.foldlM step s = .ok s') : I [] s' := by
  induction l generalizing s with
  | nil =>
    rw [← Except.ok.inj h]
    exact hI
  | cons a l ih =>
    rw [List.foldlM_cons] at h
    obtain ⟨s₁, h₁, h₂⟩ := bind_ok h
    exact ih (hstep a l s s₁ hI h₁) h₂

end

/-! ## related states -/

section leads
variable {S : Type*} {R : S → S → Prop} {s s' : S}

def Leads (R : S → S → Prop) (s : S) (x : Except E S) : Prop := ∀ s', x = .ok s' → R s s'

lemma Leads.ok (h : R s s') : Leads R s (.ok s' : Except E S) := by
  intro s₁ h₁
  rw [← Except.ok.inj h₁]
  exact h

variable [IsTrans S R] {x : Except E S}

lemma Leads.map {g : S → S} (hx : Leads R s x) (hg : ∀ s, R s (g s)) : Leads R s (x.map g) := by
  intro s₁ h₁
  obtain ⟨s₂, h₂, rfl⟩ := map_ok h₁
  exact IsTrans.trans _ _ _ (hx s₂ h₂) (hg s₂)

lemma Leads.bind {g : S → Except E S} (hx : Leads R s x)
    (hg : ∀ s, Leads R s (g s)) : Leads R s (x.bind g) := by
  intro s₁ h₁
  obtain ⟨s₂, h₂, h₃⟩ := bind_ok h₁
  exact IsTrans.trans _ _ _ (hx s₂ h₂) (hg s₂ s₁ h₃)

lemma Leads.after (h : R s s') (hx : Leads R s' x) : Leads R s x :=
  fun s₁ h₁ => IsTrans.trans _ _ _ h (hx s₁ h₁)

lemma foldl_related [Std.Refl R] {g : S → A → S} (hg : ∀ s a, R s (g s a)) (l : List A) (s : S) :
    R s (l.foldl g s) := by
  induction l generalizing s with
  | nil => exact Std.Refl.refl s
  | cons a l ih => exact IsTrans.trans _ _ _ (hg s a) (ih (g s a))

end leads

end TorchCraft.Lib.Effects
