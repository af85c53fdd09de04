import TorchCraft.AutoBuild.Loop
import TorchCraft.Lib.Fuel

/-!
# `depbuild`

`depbuild st prevSt thing` tries to build `thing`, or else what `thing` waits for, and so on down
the tech tree, each time from the state `prevSt` if time has passed.  The loop is bounded by the tech
tree only, so it is a computation with fuel, one unit for each call of `advance`.

* `depLoop`, `depbuild`  the function;
* `stable_depbuild`  the fuel does not change the result.
-/

set_option linter.unusedSectionVars false

namespace TorchCraft.AutoBuild
open Lib

variable {T : Type} [DecidableEq T]

/-- `type` and its builder need one another, and the builder is not on its way -/
def cyclic (tt : TechTree T) (st : BuildState T) (type : T) : Bool :=
  match (tt.info type).builder with
  | none => false
  | some b => decide ((tt.info b).builder = some type) && !hasOrInProduction tt st b

def restore (prevSt st : BuildState T) : BuildState T :=
  if st.frame ≠ prevSt.frame then prevSt else st

def depLoop (tt : TechTree T) (prevSt : BuildState T) (endFrame : Int) :
    Nat → BuildState T → BuildEntry T → Run (Bool × BuildState T)
  | 0, _, _ => .spin
  | n + 1, st, thing =>
    match advance tt st (some thing) endFrame with
    | .error e => .raise e
    | .ok (.success, st) => .ret (true, st)
    | .ok (.builtdep, st) => .ret (true, st)
    | .ok (.failed, st) => .ret (false, restore prevSt st)
    | .ok (.timeout, st) => .ret (false, restore prevSt st)
    | .ok (.needs type, st) =>
      let st := restore prevSt st
      if type = thing.type ∨ cyclic tt st type then .ret (false, st)
      else if (tt.info type).isWorker then .ret (false, st)
      else depLoop tt prevSt endFrame n st { type := type }

def depbuild (tt : TechTree T) (st prevSt : BuildState T) (thing : BuildEntry T) (n : Nat) :
    Run (Bool × BuildState T) :=
  depLoop tt prevSt (st.frame + 15 * 60 * 10) n st thing

variable {tt : TechTree T}

lemma depLoop_succ {prevSt : BuildState T} {endFrame : Int} (n : Nat) (st : BuildState T)
    (thing : BuildEntry T) {r : Bool × BuildState T}
    (h : depLoop tt prevSt endFrame n st thing = .ret r) :
    depLoop tt prevSt endFrame (n + 1) st thing = .ret r := by
  induction n generalizing st thing with
  | zero => cases h
  | succ n ih =>
    rw [depLoop] at h ⊢
    cases ha : advance tt st (some thing) endFrame with
    | error e => rw [ha] at h; cases h
    | ok p =>
      obtain ⟨res, st₁⟩ := p
      rw [ha] at h
      cases res with
      | success | builtdep | failed | timeout => exact h
      | needs type =>
        simp only at h ⊢
        split
        next hc => rwa [if_pos hc] at h
        next hc =>
          rw [if_neg hc] at h
          split
          next hw => rwa [if_pos hw] at h
          next hw =>
            rw [if_neg hw] at h
            exact ih _ _ h

lemma stable_depbuild (st prevSt : BuildState T) (thing : BuildEntry T) :
    Stable (depbuild tt st prevSt thing) := by
  intro n m hnm r h
  induction hnm with
  | refl => exact h
  | step _ ih => exact depLoop_succ _ _ _ ih

/-! ## termination -/

/-- a type that may have to be built first has a smaller rank and a builder; `depbuild` stops at
workers -/
structure Ranked (tt : TechTree T) (rank : T → Nat) : Prop where
  lt : ∀ build t, Dep tt build t → (tt.info t).isWorker = false → t ≠ build → rank t < rank build
  built : ∀ build t, Dep tt build t → (tt.info t).isWorker = false →
    (tt.info t).builder.isSome = true

/-- the same for a set of types that is closed under what may have to be built first -/
structure RankedOn (tt : TechTree T) (rank : T → Nat) (S : T → Prop) : Prop where
  lt : ∀ build t, S build → Dep tt build t → (tt.info t).isWorker = false → t ≠ build →
    rank t < rank build
  closed : ∀ build t, S build → Dep tt build t → (tt.info t).isWorker = false → S t
  built : ∀ t, S t → (tt.info t).builder.isSome = true

variable {rank : T → Nat}

lemma Ranked.on (hr : Ranked tt rank) :
    RankedOn tt rank fun t => (tt.info t).builder.isSome = true where
  lt build t _ := hr.lt build t
  closed build t _ := hr.built build t
  built _ h := h

lemma depLoop_returns {S : T → Prop} (hr : RankedOn tt rank S) (prevSt : BuildState T)
    (endFrame : Int) (n : Nat) (st : BuildState T) (thing : BuildEntry T) (hS : S thing.type)
    (hn : rank thing.type < n) : ∃ r, depLoop tt prevSt endFrame n st thing = .ret r := by
  induction n generalizing st thing with
  | zero => omega
  | succ n ih =>
    rw [depLoop]
    obtain ⟨res, st₁, ha⟩ := advance_ok st endFrame (hr.built _ hS)
    rw [ha]
    cases res with
    | success | builtdep | failed | timeout => exact ⟨_, rfl⟩
    | needs type =>
      simp only
      split
      · exact ⟨_, rfl⟩
      next hc =>
        split
        · exact ⟨_, rfl⟩
        next hw =>
          have hd := advance_needs ha
          have hw : (tt.info type).isWorker = false := by simpa using hw
          have hlt := hr.lt _ _ hS hd hw (fun e => hc (Or.inl e))
          exact ih _ { type := type } (hr.closed _ _ hS hd hw)
            (lt_of_lt_of_le hlt (Nat.le_of_lt_succ hn))

/-- **`depbuild` returns in a ranked tech tree, after at most `rank` rounds and one.** -/
theorem depbuild_returns {S : T → Prop} (hr : RankedOn tt rank S) (st prevSt : BuildState T)
    (thing : BuildEntry T) (hS : S thing.type) : ∃ r, Returns (depbuild tt st prevSt thing) r := by
  obtain ⟨r, h⟩ := depLoop_returns hr prevSt (st.frame + 15 * 60 * 10) (rank thing.type + 1) st thing
    hS (Nat.lt_succ_self _)
  exact ⟨r, (stable_depbuild st prevSt thing).returns h⟩

end TorchCraft.AutoBuild
