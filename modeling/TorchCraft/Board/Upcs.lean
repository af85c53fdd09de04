import TorchCraft.Board.Model

/-!
# The UPC half of the blackboard

A posted UPC gets the next id of the history (`UpcStorage`), which never forgets a post, and stays on
the board until it is consumed or removed.

* `Upcs`  history, board, active UPCs and filters;
* `Upcs.postUPC`  the filters, then the next id;
* `Upcs.upcsFrom`, `Upcs.consumeUPC`  the unconsumed UPCs of a module, and consumption;
* `Upcs.Later`  the history has grown: all that other modules can do to it.

Tuples are an arbitrary type `Q`.  The data attached to a post and the tuples a persistent history
keeps are read by the visualiser only and are left out.
-/

set_option linter.unusedSectionVars false

namespace TorchCraft
open Lib

structure UPCData (M Q : Type) where
  upc : Q
  source : UpcId
  origin : M

structure UpcPost (M : Type) where
  frame : Int
  sourceId : UpcId
  origin : M

structure Upcs (M Q : Type) where
  posts : List (UpcPost M) := []
  upcs : OrdMap UpcId (UPCData M Q) := OrdMap.empty
  activeUpcs : OrdMap UpcId Q := OrdMap.empty
  /-- a filter repairs a tuple or rejects it -/
  upcFilters : List (Q → M → Option Q) := []

namespace Upcs
variable {M Q : Type} [DecidableEq M] (b : Upcs M Q)

def filter (upc : Q) (origin : M) : Option Q :=
  b.upcFilters.foldlM (fun q f => f q origin) upc

def nextId : UpcId := b.posts.length + 1

def postUPC (frame : Int) (upc : Q) (sourceId : UpcId) (origin : M) : UpcId × Upcs M Q :=
  match b.filter upc origin with
  | none => (kFilteredUpcId, b)
  | some upc =>
    (b.nextId, { b with
      posts := b.posts ++ [⟨frame, sourceId, origin⟩]
      activeUpcs := b.activeUpcs.assign b.nextId upc
      upcs := b.upcs.assign b.nextId ⟨upc, sourceId, origin⟩ })

def consumeUPC (id : UpcId) : Upcs M Q := { b with upcs := b.upcs.erase id }

def upcsFrom (origin : M) : List (UpcId × Q) :=
  (b.upcs.entries.filter fun d => decide (d.2.origin = origin)).map fun d => (d.1, d.2.upc)

/-! ## ids are never given twice -/

/-- the history of `b` has grown to that of `b'` -/
def Later (b b' : Upcs M Q) : Prop := b.posts <+: b'.posts

def Given (id : UpcId) : Prop := 0 < id ∧ id < b.nextId

lemma Later.refl : Later b b := List.prefix_rfl

variable {b : Upcs M Q}

lemma Later.trans {b' b'' : Upcs M Q} (h : Later b b') (h' : Later b' b'') : Later b b'' :=
  List.IsPrefix.trans h h'

lemma Later.given {b' : Upcs M Q} (h : Later b b') {id : UpcId} (hid : b.Given id) :
    b'.Given id := by
  have hl : b.posts.length ≤ b'.posts.length := List.IsPrefix.length_le h
  exact ⟨hid.1, lt_of_lt_of_le hid.2 (Int.add_le_add_right (Int.ofNat_le.mpr hl) 1)⟩

lemma later_postUPC (b : Upcs M Q) (frame : Int) (upc : Q) (sourceId : UpcId) (origin : M) :
    Later b (b.postUPC frame upc sourceId origin).2 := by
  unfold postUPC
  split
  · exact Later.refl b
  · exact List.prefix_append _ _

lemma later_consumeUPC (b : Upcs M Q) (id : UpcId) : Later b (b.consumeUPC id) := Later.refl b

lemma postUPC_id {frame : Int} {upc : Q} {sourceId : UpcId} {origin : M}
    (hid : (b.postUPC frame upc sourceId origin).1 ≠ kFilteredUpcId) :
    (b.postUPC frame upc sourceId origin).1 = b.nextId ∧
      (b.postUPC frame upc sourceId origin).2.Given b.nextId := by
  unfold postUPC at hid ⊢
  split at hid
  · exact absurd rfl hid
  · refine ⟨rfl, Int.lt_add_one_of_le (Int.natCast_nonneg _), ?_⟩
    refine Int.add_lt_add_right (Int.ofNat_lt.mpr ?_) 1
    simp

lemma nextId_ne_filtered (b : Upcs M Q) : b.nextId ≠ kFilteredUpcId := by
  have h : (0 : Int) < b.nextId := Int.lt_add_one_of_le (Int.natCast_nonneg _)
  intro he
  rw [he] at h
  exact absurd h (by decide)

lemma not_given_nextId (b : Upcs M Q) : ¬ b.Given b.nextId := fun h => lt_irrefl _ h.2

@[simp] lemma postUPC_upcFilters (b : Upcs M Q) (frame : Int) (upc : Q) (sourceId : UpcId)
    (origin : M) : (b.postUPC frame upc sourceId origin).2.upcFilters = b.upcFilters := by
  unfold postUPC
  split <;> rfl

@[simp] lemma filter_postUPC (b : Upcs M Q) (frame : Int) (upc : Q) (sourceId : UpcId) (origin : M)
    (q : Q) (m : M) : (b.postUPC frame upc sourceId origin).2.filter q m = b.filter q m := by
  unfold filter
  rw [postUPC_upcFilters]

lemma find_postUPC {id : UpcId} (h : b.Given id) (frame : Int) (upc : Q) (sourceId : UpcId)
    (origin : M) : (b.postUPC frame upc sourceId origin).2.upcs.find id = b.upcs.find id := by
  unfold postUPC
  split
  · rfl
  · exact (OrdMap.find_assign ..).trans (if_neg h.2.ne)

def Posted (b : Upcs M Q) : Prop := ∀ id d, b.upcs.find id = some d → b.Given id

lemma Posted.postUPC (h : b.Posted) (frame : Int) (upc : Q) (sourceId : UpcId) (origin : M) :
    (b.postUPC frame upc sourceId origin).2.Posted := by
  intro id d hd
  have hlater : b.Given id → (b.postUPC frame upc sourceId origin).2.Given id :=
    Later.given (later_postUPC b frame upc sourceId origin)
  unfold Upcs.postUPC at hd
  cases hf : b.filter upc origin with
  | none =>
    rw [hf] at hd
    exact hlater (h id d hd)
  | some q =>
    rw [hf] at hd
    by_cases hid : id = b.nextId
    · rw [hid]
      apply (postUPC_id _).2
      unfold Upcs.postUPC
      rw [hf]
      exact nextId_ne_filtered b
    · exact hlater (h id d (((OrdMap.find_assign ..).trans (if_neg hid)).symm.trans hd))

lemma Posted.consumeUPC (h : b.Posted) (id : UpcId) : (b.consumeUPC id).Posted := by
  intro id' d hd
  rw [Upcs.consumeUPC, OrdMap.find_erase] at hd
  split at hd
  · nomatch hd
  · exact h id' d hd

/-- the filters accept the UPC -/
def Accepts (b : Upcs M Q) (origin : M) (upc : Q) : Prop := (b.filter upc origin).isSome = true

lemma Accepts.id_eq {origin : M} {upc : Q} (h : b.Accepts origin upc) (frame : Int)
    (sourceId : UpcId) : (b.postUPC frame upc sourceId origin).1 = b.nextId := by
  obtain ⟨q, hq⟩ := Option.isSome_iff_exists.mp h
  unfold Upcs.postUPC
  rw [hq]

end Upcs
end TorchCraft
