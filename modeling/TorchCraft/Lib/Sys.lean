import Mathlib.Data.List.Basic

/-!
# Systems of operations and their runs

A `Sys S O` runs operations `o : O` on states `s : S`: `run s o` is the state after `o`, `ok s o`
says when `o` may be issued.  Everything an operation may choose (which client moves, what the
environment answers) is part of `o`, so a system is a function and not a relation.

* `Sys.out s os`  the state after the list `os`, head first;
* `Sys.Legal s os`  every operation of `os` may be issued where it is issued;
* `Sys.invariant`  what one operation keeps, every legal run keeps;
* `Sys.invariant_of`  the same for the runs whose operations all meet a condition;
* `Sys.Reaches`  some legal run leads from one state to another.
-/

namespace TorchCraft.Lib

structure Sys (S O : Type*) where
  run : S → O → S
  ok : S → O → Prop

namespace Sys
variable {S O : Type*} (Y : Sys S O)

/-- the state after a list of operations -/
def out : S → List O → S
  | s, [] => s
  | s, o :: os => out (Y.run s o) os

/-- every operation of the list may be issued where it is issued -/
def Legal : S → List O → Prop
  | _, [] => True
  | s, o :: os => Y.ok s o ∧ Legal (Y.run s o) os

@[simp] lemma out_cons (s : S) (o : O) (os : List O) :
    Y.out s (o :: os) = Y.out (Y.run s o) os := rfl
@[simp] lemma legal_nil (s : S) : Y.Legal s [] := trivial
@[simp] lemma legal_cons (s : S) (o : O) (os : List O) :
    Y.Legal s (o :: os) ↔ Y.ok s o ∧ Y.Legal (Y.run s o) os := Iff.rfl

lemma legal_of_ok (h : ∀ s o, Y.ok s o) (s : S) (os : List O) : Y.Legal s os := by
  induction os generalizing s with
  | nil => trivial
  | cons o os ih => exact ⟨h s o, ih (Y.run s o)⟩

instance decidableLegal [∀ s o, Decidable (Y.ok s o)] : ∀ s os, Decidable (Y.Legal s os)
  | _, [] => isTrue trivial
  | s, o :: os =>
    have := decidableLegal (Y.run s o) os
    inferInstanceAs (Decidable (Y.ok s o ∧ Y.Legal (Y.run s o) os))

lemma out_append (s : S) (os os' : List O) : Y.out s (os ++ os') = Y.out (Y.out s os) os' := by
  induction os generalizing s with
  | nil => rfl
  | cons o os ih => exact ih (Y.run s o)

lemma legal_append (s : S) (os os' : List O) :
    Y.Legal s (os ++ os') ↔ Y.Legal s os ∧ Y.Legal (Y.out s os) os' := by
  induction os generalizing s with
  | nil => exact ⟨fun h => ⟨trivial, h⟩, fun h => h.2⟩
  | cons o os ih =>
    show (Y.ok s o ∧ Y.Legal (Y.run s o) (os ++ os'))
      ↔ (Y.ok s o ∧ Y.Legal (Y.run s o) os) ∧ Y.Legal (Y.out (Y.run s o) os) os'
    rw [ih (Y.run s o), and_assoc]

/-- **What one operation keeps, every legal run of operations with `good` keeps.** -/
theorem invariant_of (good : O → Prop) (I : S → Prop)
    (hstep : ∀ s o, I s → Y.ok s o → good o → I (Y.run s o)) (s : S) (hs : I s) (os : List O)
    (hl : Y.Legal s os) (hg : ∀ o ∈ os, good o) : I (Y.out s os) := by
  induction os generalizing s with
  | nil => exact hs
  | cons o os ih =>
    have ho := hg o (List.mem_cons_self ..)
    exact ih (Y.run s o) (hstep s o hs hl.1 ho) hl.2 (fun o' h' => hg o' (List.mem_cons_of_mem _ h'))

/-- **What one operation keeps, every legal run keeps.** -/
theorem invariant (I : S → Prop) (hstep : ∀ s o, I s → Y.ok s o → I (Y.run s o)) (s : S) (hs : I s)
    (os : List O) (hl : Y.Legal s os) : I (Y.out s os) :=
  Y.invariant_of (fun _ => True) I (fun s o hi ho _ => hstep s o hi ho) s hs os hl
    (fun _ _ => trivial)

/-- some legal run leads from `s` to `s'` -/
def Reaches (s s' : S) : Prop := ∃ os, Y.Legal s os ∧ Y.out s os = s'

variable {Y} {s s' s'' : S}

lemma Reaches.refl (s : S) : Y.Reaches s s := ⟨[], trivial, rfl⟩

lemma Reaches.trans (h : Y.Reaches s s') (h' : Y.Reaches s' s'') : Y.Reaches s s'' := by
  obtain ⟨os, hl, rfl⟩ := h
  obtain ⟨os', hl', rfl⟩ := h'
  exact ⟨os ++ os', (Y.legal_append s os os').mpr ⟨hl, hl'⟩, Y.out_append s os os'⟩

lemma Reaches.head (o : O) (s' : S) (ho : Y.ok s o) (he : Y.run s o = s') (h : Y.Reaches s' s'') :
    Y.Reaches s s'' := by
  obtain ⟨os, hl, rfl⟩ := h
  subst he
  exact ⟨o :: os, ⟨ho, hl⟩, rfl⟩

end Sys
end TorchCraft.Lib
