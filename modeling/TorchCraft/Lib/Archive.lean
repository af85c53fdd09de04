import Mathlib.Data.List.Forall2

/-!
# Archives

An archive holds the values that were written to it, in order.  A `Reader` takes values from the
front of an archive.  Objects are read in place: a reader of an object gets the object as it was
before, so that fields that are not read keep their values.

* `Reads r vs a`  from an archive that starts with `vs`, the reader `r` takes `vs` and returns `a`;
* `Reads.bind`, `Reads.map`  one value after the other.
-/

namespace TorchCraft.Lib.Archive
open List

universe u v

variable {V : Type u} {A B : Type v}

/-- the value read and the rest of the archive; `none` if there is no such value -/
def Reader (V : Type u) (A : Type v) := List V → Option (A × List V)

namespace Reader

protected def pure (a : A) : Reader V A := fun vs => some (a, vs)

protected def bind (r : Reader V A) (f : A → Reader V B) : Reader V B :=
  fun vs => (r vs).bind fun (a, rest) => f a rest

instance : Monad (Reader V) where
  pure := Reader.pure
  bind := Reader.bind

def next (f : V → Option A) : Reader V A
  | [] => none
  | v :: vs => (f v).map fun a => (a, vs)

end Reader

def Reads (r : Reader V A) (vs : List V) (a : A) : Prop := ∀ rest, r (vs ++ rest) = some (a, rest)

lemma Reads.pure (a : A) : Reads (pure a : Reader V A) [] a := fun _ => rfl

variable {vs : List V} {a : A}

lemma Reads.bind {r : Reader V A} {f : A → Reader V B} {vs' : List V} {b : B} (hr : Reads r vs a)
    (hf : Reads (f a) vs' b) : Reads (r >>= f) (vs ++ vs') b := by
  intro rest
  show (r (vs ++ vs' ++ rest)).bind _ = _
  rw [append_assoc, hr]
  exact hf rest

lemma Reads.next {f : V → Option A} {v : V} (h : f v = some a) : Reads (Reader.next f) [v] a := by
  intro rest
  show (f v).map _ = _
  rw [h]
  rfl

lemma Reads.cons {f : V → Option A} {g : A → Reader V B} {v : V} {b : B} (hv : f v = some a)
    (hg : Reads (g a) vs b) : Reads (Reader.next f >>= g) (v :: vs) b :=
  (Reads.next hv).bind hg

lemma Reads.eq_some {r : Reader V A} (h : Reads r vs a) : r vs = some (a, []) := by
  have hr := h []
  rwa [append_nil] at hr

/-- the elements of a container, one after the other -/
def readAll (r : A → Reader V A) : List A → Reader V (List A)
  | [] => pure []
  | a :: as => do
    let b ← r a
    let bs ← readAll r as
    pure (b :: bs)

lemma reads_readAll {r : A → Reader V A} {w : B → List V} {g : B → A} {as : List A} {bs : List B}
    (hlen : as.length = bs.length) (h : ∀ a ∈ as, ∀ b ∈ bs, Reads (r a) (w b) (g b)) :
    Reads (readAll r as) (bs.flatMap w) (bs.map g) := by
  induction as generalizing bs with
  | nil =>
    obtain rfl := length_eq_zero_iff.mp hlen.symm
    exact Reads.pure []
  | cons a as ih =>
    cases bs with
    | nil => cases hlen
    | cons b bs =>
      have hrest := ih (Nat.succ.inj hlen) fun a' ha' b' hb' =>
        h a' (mem_cons_of_mem _ ha') b' (mem_cons_of_mem _ hb')
      have hhead := h a (mem_cons_self ..) b (mem_cons_self ..)
      rw [flatMap_cons, map_cons, ← append_nil (bs.flatMap w)]
      exact hhead.bind (hrest.bind (Reads.pure _))

/-- `std::vector::resize`: elements are dropped at the end, or new ones are appended -/
def resize (new : A) (n : Nat) (l : List A) : List A := l.take n ++ List.replicate (n - l.length) new

lemma length_resize (new : A) (n : Nat) (l : List A) : (resize new n l).length = n := by
  rw [resize, length_append, length_take, length_replicate]
  omega

lemma mem_resize {new : A} {n : Nat} {l : List A} (h : a ∈ resize new n l) : a ∈ l ∨ a = new := by
  rcases mem_append.mp h with h | h
  · exact .inl (mem_of_mem_take h)
  · exact .inr (eq_of_mem_replicate h)

end TorchCraft.Lib.Archive
