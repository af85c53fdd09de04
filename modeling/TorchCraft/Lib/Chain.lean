import TorchCraft.Lib.Fuel

/-!
# Walks along links

A walk follows `next` from key to key while `live` holds of the key.

* `exists_chain`  it ends if a measure decreases along the links.
-/

namespace TorchCraft.Lib

section chains
variable {K : Type*} (live : K → Bool) (next : K → K)

/-- the keys visited from a key on -/
inductive Chain : K → List K → Prop
  | stop {k} (h : live k = false) : Chain k []
  | step {k l} (h : live k = true) (rest : Chain (next k) l) : Chain k (k :: l)

variable {live next}

lemma exists_chain (rank : K → Nat)
    (h : ∀ k, live k → live (next k) → rank (next k) < rank k) (k : K) :
    ∃ l, Chain live next k l := by
  induction hr : rank k using Nat.strong_induction_on generalizing k with
  | _ r ih =>
    cases hk : live k with
    | false => exact ⟨[], .stop hk⟩
    | true =>
      cases hn : live (next k) with
      | false => exact ⟨[k], .step hk (.stop hn)⟩
      | true =>
        obtain ⟨l, hl⟩ := ih (rank (next k)) (hr ▸ h k hk hn) (next k) rfl
        exact ⟨k :: l, .step hk hl⟩

lemma Chain.unique {k : K} {l l' : List K} (h : Chain live next k l)
    (h' : Chain live next k l') : l = l' := by
  induction h generalizing l' with
  | stop hk =>
    cases h' with
    | stop => rfl
    | step hk' _ => exact absurd (hk'.symm.trans hk) (Bool.noConfusion ·)
  | step hk _ ih =>
    cases h' with
    | stop hk' => exact absurd (hk.symm.trans hk') (Bool.noConfusion ·)
    | step _ rest => exact congrArg _ (ih rest)

lemma Chain.length_le {k : K} {l : List K} (rank : K → Nat)
    (h : ∀ k, live k → live (next k) → rank (next k) < rank k)
    (hl : Chain live next k l) : l.length ≤ rank k + 1 := by
  induction hl with
  | stop _ => exact Nat.zero_le _
  | @step k l hk rest ih =>
    cases rest with
    | stop _ => exact Nat.succ_le_succ (Nat.zero_le _)
    | step hn _ => exact Nat.succ_le_succ (Nat.le_trans ih (h k hk hn))

end chains

section loops
variable {K T : Type*} (live : K → Bool) (next : K → K) (f : T → K → Option T)

/-- the loop over the chain; `f` gives `none` where it stops by itself -/
def walk : Nat → K → T → Run T
  | 0, _, _ => .spin
  | n + 1, k, t =>
    if live k = true then
      match f t k with
      | none => .ret t
      | some t' => walk n (next k) t'
    else .ret t

/-- the fold that `f` may stop -/
def foldUntil : List K → T → T
  | [], t => t
  | k :: l, t =>
    match f t k with
    | none => t
    | some t' => foldUntil l t'

variable {live next f}

lemma Chain.walk_eq {k : K} {l : List K} (h : Chain live next k l) {n : Nat} (hn : l.length < n)
    (t : T) : walk live next f n k t = .ret (foldUntil f l t) := by
  induction h generalizing n t with
  | stop hk =>
    obtain ⟨m, rfl⟩ := Nat.exists_eq_succ_of_ne_zero (Nat.ne_of_gt hn)
    rw [walk, if_neg (by simp [hk])]
    rfl
  | step hk _ ih =>
    obtain ⟨m, rfl⟩ := Nat.exists_eq_succ_of_ne_zero (Nat.ne_zero_of_lt hn)
    rw [walk, if_pos hk, foldUntil]
    cases f t _ with
    | none => rfl
    | some t' => exact ih (Nat.lt_of_succ_lt_succ hn) t'

/-- **The loop returns the fold over its chain.** -/
theorem Chain.returns {k : K} {l : List K} (h : Chain live next k l) (t : T) :
    Returns (fun n => walk live next f n k t) (foldUntil f l t) :=
  ⟨l.length + 1, fun _ hm => h.walk_eq hm t⟩

end loops
end TorchCraft.Lib
