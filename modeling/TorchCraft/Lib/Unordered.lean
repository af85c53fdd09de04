import TorchCraft.Lib.Assoc
import Mathlib.Data.List.Perm.Basic

/-!
# Unordered containers

A container without an order holds each key once, and a loop over it meets its elements in some
order.  Which order that is may differ between two containers that hold the same, so it is a
parameter (`Iteration`), and containers are compared up to a permutation.

* `UnorderedMap`, `UnorderedMap.set`, `setAll`  `m[k] = v`, once and for each element of a list;
* `UnorderedSet`, `UnorderedSet.insert`, `insertAll`  the same for a set;
* `setAll_perm`, `insertAll_perm`  with distinct keys nothing is overwritten.
-/

namespace TorchCraft.Lib.Unordered
open List

open Assoc

/-- the order in which a loop meets the elements -/
structure Iteration where
  order : {A : Type} → List A → List A
  perm : ∀ {A : Type} (l : List A), (order l).Perm l

def Iteration.insertion : Iteration := ⟨fun l => l, fun _ => .refl _⟩

structure UnorderedMap (K V : Type) where
  entries : List (K × V) := []
  nodup : (keys entries).Nodup := by exact List.nodup_nil

structure UnorderedSet (K : Type) where
  elems : List K := []
  nodup : elems.Nodup := by exact List.nodup_nil

/-- each element of a list is put in front of what is there, if its key is new -/
lemma foldl_perm {S A B : Type} {f : A → B} {content : S → List A} {step : S → A → S}
    (hstep : ∀ s a, f a ∉ (content s).map f → content (step s a) = a :: content s) {l : List A}
    {s : S} (h : ((l ++ content s).map f).Nodup) :
    (content (l.foldl step s)).Perm (l ++ content s) := by
  induction l generalizing s with
  | nil => exact .refl _
  | cons a l ih =>
    have hmiddle : ((a :: l) ++ content s).Perm (l ++ a :: content s) := perm_middle.symm
    have hnew : f a ∉ (content s).map f := fun ha =>
      (nodup_cons.mp h).1 ((map_append ..).symm ▸ mem_append_right _ ha)
    rw [← hstep s a hnew] at hmiddle
    exact (ih ((hmiddle.map f).nodup_iff.mp h)).trans hmiddle.symm

variable {K V : Type} [DecidableEq K]

/-! ## maps -/

lemma not_mem_keys_erase (k : K) (m : List (K × V)) : k ∉ keys (erase k m) := by
  intro h
  obtain ⟨e, he, hk⟩ := mem_map.mp h
  have hne : (!(e.1 == k)) := (mem_filter.mp he).2
  rw [hk, beq_self_eq_true] at hne
  exact Bool.false_ne_true hne

def UnorderedMap.set (m : UnorderedMap K V) (k : K) (v : V) : UnorderedMap K V where
  entries := assign k v m.entries
  nodup := List.nodup_cons.mpr
    ⟨not_mem_keys_erase k m.entries, (keys_erase_sublist k m.entries).nodup m.nodup⟩

/-- `for (it : l) m[it.first] = it.second` -/
def UnorderedMap.setAll (m : UnorderedMap K V) (l : List (K × V)) : UnorderedMap K V :=
  l.foldl (fun m e => m.set e.1 e.2) m

/-- **With distinct keys nothing is overwritten.** -/
theorem setAll_perm {l : List (K × V)} {m : UnorderedMap K V}
    (h : (keys (l ++ m.entries)).Nodup) : (m.setAll l).entries.Perm (l ++ m.entries) :=
  foldl_perm (fun _ _ hnew => assign_of_not_mem hnew _) h

lemma setAll_empty_perm {l : List (K × V)} (h : (keys l).Nodup) :
    (UnorderedMap.setAll {} l).entries.Perm l := by
  have hperm : (UnorderedMap.setAll {} l).entries.Perm (l ++ []) :=
    setAll_perm (show (keys (l ++ [])).Nodup by rwa [append_nil])
  rwa [append_nil] at hperm

/-! ## sets -/

def UnorderedSet.insert (s : UnorderedSet K) (k : K) : UnorderedSet K where
  elems := s.elems.insert k
  nodup := s.nodup.insert

/-- `for (it : l) s.insert(it)` -/
def UnorderedSet.insertAll (s : UnorderedSet K) (l : List K) : UnorderedSet K :=
  l.foldl (fun s k => s.insert k) s

lemma insertAll_perm {l : List K} {s : UnorderedSet K} (h : (l ++ s.elems).Nodup) :
    (s.insertAll l).elems.Perm (l ++ s.elems) := by
  refine foldl_perm (f := id) (fun _ _ hnew => insert_of_not_mem ?_) ?_
  · rwa [map_id] at hnew
  · rwa [map_id]

lemma insertAll_empty_perm {l : List K} (h : l.Nodup) :
    (UnorderedSet.insertAll {} l).elems.Perm l := by
  have hperm : (UnorderedSet.insertAll {} l).elems.Perm (l ++ []) :=
    insertAll_perm (show (l ++ []).Nodup by rwa [append_nil])
  rwa [append_nil] at hperm

end TorchCraft.Lib.Unordered
