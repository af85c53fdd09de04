import Mathlib.Data.List.Perm.Basic
import TorchCraft.Board.Model
import TorchCraft.Lib.Sys

/-!
# The three indices are exact views of the task list

`Exact upcId b`: the id index maps an id to the node of the task with that id and to nothing else,
the module index lists every node once, under its owner, and the unit index refers to live nodes
only.  Every operation of the board keeps it, whatever the task objects do in their own `update`:

* `exact_postTask`, `exact_updateTasksByUnit`, `exact_removeTask`, `exact_record`  one operation;
* `exact_update`  `Blackboard::update`;
* `boardSys`  the board as a system of operations on a `World`;
* `boardSys_exact`  every legal run.

`mem_update_tasks` and `mem_update_pending` say which nodes an update keeps and which it schedules
for the next one.
-/

set_option linter.unusedSectionVars false

namespace TorchCraft
open Lib List Option

namespace Board
variable {P M U : Type} [DecidableEq P] [DecidableEq M] [DecidableEq U]

/-! ## the two loops over the unit index -/

variable (m : U → Option Iter)

lemma eraseRefs_eq_some (it : Iter) (u : U) (j : Iter) :
    eraseRefs m it u = some j ↔ m u = some j ∧ j ≠ it := by
  unfold eraseRefs
  by_cases h : m u = some it
  · simp only [h, ↓reduceIte, reduceCtorEq, some.injEq, false_iff, not_and, not_not]
    exact fun e => e.symm
  · rw [if_neg h]
    exact ⟨fun e => ⟨e, fun hj => h (hj ▸ e)⟩, fun e => e.1⟩

variable (us : List U) {upcId : P → UpcId} {b : Board P M U} {n : Node P M} {id : UpcId}

lemma foldl_update (o : Option Iter) (u : U) :
    us.foldl (fun m u => Function.update m u o) m u = if u ∈ us then o else m u :=
  Loops.foldl_at (fun m => m u) (fun _ => o) (fun _ => rfl) (fun _ _ => Function.update_apply ..) us m

lemma assignRefs_apply (it : Iter) (u : U) :
    assignRefs m us it u = if u ∈ us then some it else m u := foldl_update ..

lemma assignRefs_eq_some (it : Iter) (u : U) (j : Iter) :
    assignRefs m us it u = some j ↔ (u ∈ us ∧ j = it) ∨ (u ∉ us ∧ m u = some j) := by
  rw [assignRefs_apply]
  by_cases hu : u ∈ us
  · simp [hu, eq_comm]
  · simp [hu]

lemma rebuild_eq_some (it : Iter) (u : U) (j : Iter) :
    assignRefs (eraseRefs m it) us it u = some j
      ↔ (j = it ∧ u ∈ us) ∨ (j ≠ it ∧ u ∉ us ∧ m u = some j) := by
  rw [assignRefs_eq_some, eraseRefs_eq_some]
  tauto

/-! ## exactness -/

/-- the indices are exact views of the task list -/
structure Exact (upcId : P → UpcId) (b : Board P M U) : Prop where
  addrs : (b.tasks.map Node.addr).Nodup
  fresh : ∀ n ∈ b.tasks, n.addr ≠ endIter ∧ n.addr < b.nextAddr
  next : b.nextAddr ≠ endIter
  distinct : (b.tasks.map fun n => upcId n.data.task).Nodup
  ids : ∀ id it, b.tasksById.find id = some it ↔
    ∃ n ∈ b.tasks, n.addr = it ∧ upcId n.data.task = id
  modules : b.tasksByModule.Perm (b.tasks.map fun n => (n.data.owner, n.addr))
  units : ∀ u it, b.tasksByUnit u = some it → ∃ n ∈ b.tasks, n.addr = it

lemma exact_empty : Exact upcId (empty : Board P M U) where
  addrs := List.nodup_nil
  fresh := fun n hn => absurd hn (by simp [empty])
  next := Nat.succ_ne_zero _
  distinct := List.nodup_nil
  ids := by intro id it; simp [empty]
  modules := List.Perm.refl _
  units := by intro u it h; simp [empty] at h

section
variable (hb : Exact upcId b) {n' : Node P M} (hn : n ∈ b.tasks) (hn' : n' ∈ b.tasks)
include hb hn hn'

lemma Exact.node_unique (h : n.addr = n'.addr) : n = n' :=
  inj_on_of_nodup_map hb.addrs hn hn' h

lemma Exact.node_unique_id (h : upcId n.data.task = upcId n'.data.task) : n = n' :=
  inj_on_of_nodup_map hb.distinct hn hn' h

end

lemma find_only {p : Node P M → Bool} (hn : n ∈ b.tasks) (hp : p n)
    (honly : ∀ m ∈ b.tasks, p m → m = n) : b.tasks.find? p = some n := by
  cases hf : b.tasks.find? p with
  | none => exact absurd hp (find?_eq_none.mp hf n hn)
  | some m => rw [honly m (mem_of_find?_eq_some hf) (find?_some hf)]

lemma Exact.deref_node (hb : Exact upcId b) (hn : n ∈ b.tasks) :
    b.deref n.addr = some n.data := by
  rw [deref, find_only hn (decide_eq_true rfl) fun m hm he =>
    hb.node_unique hm hn (of_decide_eq_true he)]
  rfl

lemma deref_some {it : Iter} {d : TaskData P M}
    (h : b.deref it = some d) : ∃ n ∈ b.tasks, n.addr = it ∧ n.data = d := by
  obtain ⟨n, hf, hd⟩ := map_eq_some_iff.mp h
  exact ⟨n, mem_of_find?_eq_some hf, by simpa using find?_some hf, hd⟩

lemma Exact.find_node (hb : Exact upcId b) (hn : n ∈ b.tasks) :
    b.tasksById.find (upcId n.data.task) = some n.addr :=
  (hb.ids _ _).mpr ⟨n, hn, rfl, rfl⟩

section
variable (hb : Exact upcId b)
include hb

lemma Exact.ne_of_absent (hf : b.tasksById.find id = none)
    (hn : n ∈ b.tasks) : upcId n.data.task ≠ id := by
  intro he
  have hfind := hb.find_node hn
  rw [he, hf] at hfind
  nomatch hfind

lemma Exact.taskWithUnit_node (hn : n ∈ b.tasks) (u : U) :
    b.taskWithUnit u = some n.data.task ↔ b.tasksByUnit u = some n.addr := by
  unfold taskWithUnit
  constructor
  · intro h
    cases hu : b.tasksByUnit u with
    | none => rw [hu] at h; cases h
    | some it =>
      obtain ⟨n', hn', rfl⟩ := hb.units u it hu
      rw [hu, bind_some, hb.deref_node hn', map_some, some.injEq] at h
      rw [hb.node_unique_id hn' hn (by rw [h])]
  · intro h
    rw [h, bind_some, hb.deref_node hn]
    rfl

lemma Exact.taskForId_eq_some {p : P} :
    b.taskForId id = some p ↔ ∃ n ∈ b.tasks, n.data.task = p ∧ upcId p = id := by
  unfold taskForId
  constructor
  · intro h
    obtain ⟨d, hd, rfl⟩ := map_eq_some_iff.mp h
    obtain ⟨it, hit, hd⟩ := bind_eq_some_iff.mp hd
    obtain ⟨n, hn, rfl, hid⟩ := (hb.ids id it).mp hit
    rw [hb.deref_node hn] at hd
    cases hd
    exact ⟨n, hn, rfl, hid⟩
  · rintro ⟨n, hn, rfl, rfl⟩
    rw [hb.find_node hn, bind_some, hb.deref_node hn]
    rfl

lemma Exact.mem_tasksOfModule {m : M} {p : P} :
    p ∈ b.tasksOfModule m ↔ ∃ n ∈ b.tasks, n.data.task = p ∧ n.data.owner = m := by
  unfold tasksOfModule
  rw [mem_filterMap]
  constructor
  · rintro ⟨e, he, hp⟩
    obtain ⟨he, hm⟩ := mem_filter.mp he
    obtain ⟨n, hn, rfl⟩ := mem_map.mp (hb.modules.subset he)
    rw [hb.deref_node hn] at hp
    exact ⟨n, hn, some.inj hp, of_decide_eq_true hm⟩
  · rintro ⟨n, hn, rfl, rfl⟩
    have hmem : (n.data.owner, n.addr) ∈ b.tasksByModule :=
      hb.modules.symm.subset (mem_map.mpr ⟨n, hn, rfl⟩)
    refine ⟨_, mem_filter.mpr ⟨hmem, decide_eq_true rfl⟩, ?_⟩
    rw [hb.deref_node hn]
    rfl

end

/-! ## one operation -/

lemma postTask_present (frame : Int) (p : P) (us : List U) (owner : M) (ar : Bool) {it : Iter}
    (h : b.tasksById.find (upcId p) = some it) :
    postTask upcId frame b p us owner ar
      = (.error ("Existing task found for " ++ upcString (upcId p)), b) := by
  unfold postTask
  rw [h]

lemma nodup_map_concat {A : Type} {f : Node P M → A} {l : List (Node P M)} {m : Node P M}
    (hl : (l.map f).Nodup) (hm : ∀ n ∈ l, f n ≠ f m) : ((l ++ [m]).map f).Nodup := by
  rw [map_append, map_singleton]
  refine nodup_append.mpr ⟨hl, nodup_singleton _, ?_⟩
  intro a ha a' ha' e
  obtain ⟨n, hn, rfl⟩ := mem_map.mp ha
  exact hm n hn (e.trans (mem_singleton.mp ha'))

lemma exact_postTask (hb : Exact upcId b) (frame : Int) (p : P) (us : List U) (owner : M)
    (ar : Bool) : Exact upcId (postTask upcId frame b p us owner ar).2 := by
  cases hf : b.tasksById.find (upcId p) with
  | some it => rw [postTask_present frame p us owner ar hf]; exact hb
  | none =>
    have hnew : ∀ n ∈ b.tasks, upcId n.data.task ≠ upcId p := fun n hn => hb.ne_of_absent hf hn
    have haddr : ∀ n ∈ b.tasks, n.addr ≠ b.nextAddr := fun n hn => Nat.ne_of_lt (hb.fresh n hn).2
    unfold postTask
    rw [hf]
    refine ⟨?_, ?_, Nat.succ_ne_zero _, ?_, ?_, ?_, ?_⟩
    · exact nodup_map_concat hb.addrs haddr
    · exact forall_mem_append.mpr ⟨fun n hn => (hb.fresh n hn).imp_right Nat.lt_succ_of_lt,
        forall_mem_singleton.mpr ⟨hb.next, Nat.lt_succ_self _⟩⟩
    · exact nodup_map_concat hb.distinct hnew
    · intro id it
      show (b.tasksById.emplace (upcId p) b.nextAddr).find id = some it ↔ _
      rw [OrdMap.find_emplace _ _ _ _ hf]
      by_cases hid : id = upcId p
      · subst hid
        rw [if_pos rfl]
        constructor
        · intro h
          exact ⟨_, mem_append_right _ (mem_singleton.mpr rfl), some.inj h, rfl⟩
        · rintro ⟨n, hn, rfl, he⟩
          rcases mem_append.mp hn with hn | hn
          · exact absurd he (hnew n hn)
          · rw [mem_singleton.mp hn]
      · rw [if_neg hid, hb.ids]
        constructor
        · rintro ⟨n, hn, h⟩
          exact ⟨n, mem_append_left _ hn, h⟩
        · rintro ⟨n, hn, h1, h2⟩
          rcases mem_append.mp hn with hn | hn
          · exact ⟨n, hn, h1, h2⟩
          · rw [mem_singleton.mp hn] at h2
            exact absurd h2.symm hid
    · rw [map_append, map_singleton]
      exact hb.modules.append (List.Perm.refl _)
    · intro u it hu
      rcases (assignRefs_eq_some ..).mp hu with ⟨_, rfl⟩ | ⟨_, h⟩
      · exact ⟨_, mem_append_right _ (mem_singleton.mpr rfl), rfl⟩
      · obtain ⟨n, hn, h⟩ := hb.units u it h
        exact ⟨n, mem_append_left _ hn, h⟩

lemma exact_markTaskForRemoval (hb : Exact upcId b) (id : UpcId) :
    Exact upcId (b.markTaskForRemoval id) :=
  ⟨hb.addrs, hb.fresh, hb.next, hb.distinct, hb.ids, hb.modules, hb.units⟩

/-- a task is on the board if a node of the list holds it -/
def OnBoard (b : Board P M U) (p : P) : Prop := ∃ n ∈ b.tasks, n.data.task = p

section
variable (hb : Exact upcId b)
include hb

lemma Exact.find_task (hn : n ∈ b.tasks) :
    b.tasks.find? (fun m => decide (m.data.task = n.data.task)) = some n := by
  refine find_only hn (decide_eq_true rfl) fun m hm he => hb.node_unique_id hm hn ?_
  rw [of_decide_eq_true he]

lemma Exact.updateTasksByUnit_eq (hn : n ∈ b.tasks) (us : List U) :
    b.updateTasksByUnit n.data.task us
      = { b with tasksByUnit := assignRefs (eraseRefs b.tasksByUnit n.addr) us n.addr } := by
  unfold updateTasksByUnit
  rw [hb.find_task hn]
  rfl

lemma Exact.withUnits (m : U → Option Iter)
    (hm : ∀ u it, m u = some it → ∃ n ∈ b.tasks, n.addr = it) :
    Exact upcId { b with tasksByUnit := m } :=
  ⟨hb.addrs, hb.fresh, hb.next, hb.distinct, hb.ids, hb.modules, hm⟩

lemma Exact.rebuild_live (hn : n ∈ b.tasks) (us : List U) (u : U) (it : Iter)
    (h : assignRefs (eraseRefs b.tasksByUnit n.addr) us n.addr u = some it) :
    ∃ n ∈ b.tasks, n.addr = it := by
  rcases (rebuild_eq_some ..).mp h with ⟨rfl, _⟩ | ⟨_, _, h⟩
  · exact ⟨n, hn, rfl⟩
  · exact hb.units u it h

lemma exact_updateTasksByUnit {p : P} (hp : b.OnBoard p) (us : List U) :
    Exact upcId (b.updateTasksByUnit p us) := by
  obtain ⟨n, hn, rfl⟩ := hp
  rw [hb.updateTasksByUnit_eq hn]
  exact hb.withUnits _ (hb.rebuild_live hn us)

end

lemma dropDestroyed_apply (b : Board P M U) (ds : List U) (u : U) :
    (b.dropDestroyed ds).tasksByUnit u = if u ∈ ds then none else b.tasksByUnit u :=
  foldl_update ..

lemma dropDestroyed_eq_some (b : Board P M U) (ds : List U) (u : U) (it : Iter) :
    (b.dropDestroyed ds).tasksByUnit u = some it ↔ u ∉ ds ∧ b.tasksByUnit u = some it := by
  rw [dropDestroyed_apply]
  by_cases hu : u ∈ ds <;> simp [hu]

lemma exact_dropDestroyed (hb : Exact upcId b) (ds : List U) : Exact upcId (b.dropDestroyed ds) :=
  hb.withUnits _ (fun u it h => hb.units u it ((dropDestroyed_eq_some ..).mp h).2)

lemma exact_record (hb : Exact upcId b) (hn : n ∈ b.tasks) (id : UpcId) (d : TaskData P M)
    (t : Task U) : Exact upcId (b.record upcId (id, n.addr) d t) :=
  ⟨hb.addrs, hb.fresh, hb.next, hb.distinct, hb.ids, hb.modules, hb.rebuild_live hn t.units⟩

/-! ## removal -/

lemma removeTask_absent (h : b.tasksById.find id = none) : removeTask upcId b id = b := by
  unfold removeTask
  rw [h]

section
variable (hb : Exact upcId b)
include hb

lemma Exact.perm_without (hn : n ∈ b.tasks) :
    b.tasks.Perm (n :: b.tasks.filter (fun m => decide (m.addr ≠ n.addr))) := by
  obtain ⟨l₁, l₂, hl⟩ := append_of_mem hn
  have hnd := hb.addrs
  rw [hl, map_append, map_cons, nodup_middle, nodup_cons] at hnd
  have hkeep : ∀ m ∈ l₁ ++ l₂, decide (m.addr ≠ n.addr) := by
    intro m hm
    rw [decide_eq_true_eq]
    exact fun e => hnd.1 (by rw [← map_append, ← e]; exact mem_map_of_mem hm)
  have hf : b.tasks.filter (fun m => decide (m.addr ≠ n.addr)) = l₁ ++ l₂ := by
    rw [hl, filter_append, filter_cons_of_neg (by simp), ← filter_append]
    exact filter_eq_self.mpr hkeep
  rw [hf, hl]
  exact perm_middle

lemma Exact.erase_module (hn : n ∈ b.tasks) :
    (b.tasksByModule.eraseP (fun e => decide (e.1 = n.data.owner) &&
        decide ((b.deref e.2).map (fun d => upcId d.task) = some (upcId n.data.task)))).Perm
      ((b.tasks.filter (fun m => decide (m.addr ≠ n.addr))).map
        fun m => (m.data.owner, m.addr)) := by
  set p : M × Iter → Bool := fun e => decide (e.1 = n.data.owner) &&
    decide ((b.deref e.2).map (fun d => upcId d.task) = some (upcId n.data.task)) with hp
  have hsat : p (n.data.owner, n.addr) := by
    simp [hp, hb.deref_node hn]
  have honly : ∀ e ∈ b.tasksByModule, p e → e = (n.data.owner, n.addr) := by
    intro e he hpe
    obtain ⟨m, hm, rfl⟩ := mem_map.mp (hb.modules.subset he)
    have h2 : upcId m.data.task = upcId n.data.task := by
      simpa [hp, hb.deref_node hm] using (Bool.and_eq_true_iff.mp hpe).2
    rw [hb.node_unique_id hm hn h2]
  have hmem : (n.data.owner, n.addr) ∈ b.tasksByModule :=
    hb.modules.symm.subset (mem_map.mpr ⟨n, hn, rfl⟩)
  obtain ⟨a, l₁, l₂, _, hpa, hl, he⟩ := exists_of_eraseP hmem hsat
  have ha : a = (n.data.owner, n.addr) :=
    honly a (by rw [hl]; exact mem_append_right _ (mem_cons_self ..)) hpa
  have h1 : b.tasksByModule.Perm ((n.data.owner, n.addr) :: b.tasksByModule.eraseP p) := by
    rw [he, ← ha]
    nth_rewrite 1 [hl]
    exact perm_middle
  have h2 : b.tasksByModule.Perm ((n.data.owner, n.addr) ::
      (b.tasks.filter (fun m => decide (m.addr ≠ n.addr))).map fun m => (m.data.owner, m.addr)) :=
    hb.modules.trans ((hb.perm_without hn).map _)
  exact (h1.symm.trans h2).cons_inv

lemma Exact.removeTask_eq (hn : n ∈ b.tasks) :
    removeTask upcId b (upcId n.data.task) = { b with
      tasksByModule := b.tasksByModule.eraseP (fun e => decide (e.1 = n.data.owner) &&
        decide ((b.deref e.2).map (fun d => upcId d.task) = some (upcId n.data.task)))
      tasksByUnit := eraseRefs b.tasksByUnit n.addr
      tasks := b.tasks.filter (fun m => decide (m.addr ≠ n.addr))
      tasksById := b.tasksById.erase (upcId n.data.task) } := by
  unfold removeTask
  simp only [hb.find_node hn, hb.deref_node hn]

lemma Exact.mem_removeTask (id : UpcId) (m : Node P M) :
    m ∈ (removeTask upcId b id).tasks ↔ m ∈ b.tasks ∧ upcId m.data.task ≠ id := by
  cases hf : b.tasksById.find id with
  | none =>
    rw [removeTask_absent hf]
    exact ⟨fun h => ⟨h, hb.ne_of_absent hf h⟩, fun h => h.1⟩
  | some it =>
    obtain ⟨n, hn, rfl, rfl⟩ := (hb.ids _ _).mp hf
    rw [hb.removeTask_eq hn]
    simp only [mem_filter, decide_eq_true_eq]
    refine and_congr_right (fun hm => ?_)
    exact ⟨fun h e => h (by rw [hb.node_unique_id hm hn e]),
      fun h e => h (by rw [hb.node_unique hm hn e])⟩

lemma exact_removeTask (id : UpcId) : Exact upcId (removeTask upcId b id) := by
  cases hf : b.tasksById.find id with
  | none => rw [removeTask_absent hf]; exact hb
  | some it =>
    obtain ⟨n, hn, rfl, rfl⟩ := (hb.ids _ _).mp hf
    have hmem := hb.mem_removeTask (upcId n.data.task)
    rw [hb.removeTask_eq hn] at hmem ⊢
    have hsub : (b.tasks.filter (fun m => decide (m.addr ≠ n.addr))).Sublist b.tasks :=
      filter_sublist
    refine ⟨hb.addrs.sublist (hsub.map _), fun m hm => hb.fresh m (hsub.subset hm), hb.next,
      hb.distinct.sublist (hsub.map _), ?_, hb.erase_module hn, ?_⟩
    · intro id it
      show (b.tasksById.erase (upcId n.data.task)).find id = some it ↔ _
      rw [OrdMap.find_erase]
      by_cases hid : id = upcId n.data.task
      · rw [if_pos hid]
        refine ⟨fun h => absurd h (by simp), ?_⟩
        rintro ⟨m, hm, _, he⟩
        exact absurd (he.trans hid) ((hmem m).mp hm).2
      · rw [if_neg hid, hb.ids]
        constructor
        · rintro ⟨m, hm, h1, h2⟩
          exact ⟨m, (hmem m).mpr ⟨hm, by rw [h2]; exact hid⟩, h1, h2⟩
        · rintro ⟨m, hm, h⟩
          exact ⟨m, ((hmem m).mp hm).1, h⟩
    · intro u it hu
      obtain ⟨h1, h2⟩ := (eraseRefs_eq_some ..).mp hu
      obtain ⟨m, hm, rfl⟩ := hb.units u it h1
      exact ⟨m, mem_filter.mpr ⟨hm, by simpa using h2⟩, rfl⟩

lemma Exact.tasksByUnit_removeTask {m : Node P M}
    (hm : m ∈ (removeTask upcId b id).tasks) (u : U) :
    (removeTask upcId b id).tasksByUnit u = some m.addr ↔ b.tasksByUnit u = some m.addr := by
  obtain ⟨hmb, hne⟩ := (hb.mem_removeTask id m).mp hm
  cases hf : b.tasksById.find id with
  | none => rw [removeTask_absent hf]
  | some it =>
    obtain ⟨n, hn, rfl, rfl⟩ := (hb.ids _ _).mp hf
    rw [hb.removeTask_eq hn]
    refine (eraseRefs_eq_some ..).trans ⟨fun h => h.1, fun h => ⟨h, fun e => hne ?_⟩⟩
    rw [hb.node_unique hmb hn e]

lemma exact_removeAll (ids : List UpcId) : Exact upcId (ids.foldl (removeTask upcId) b) := by
  induction ids generalizing b with
  | nil => exact hb
  | cons id ids ih => exact ih (exact_removeTask hb id)

lemma Exact.mem_removeAll (ids : List UpcId) (m : Node P M) :
    m ∈ (ids.foldl (removeTask upcId) b).tasks ↔ m ∈ b.tasks ∧ upcId m.data.task ∉ ids := by
  induction ids generalizing b with
  | nil => simp
  | cons id ids ih =>
    rw [foldl_cons, ih (exact_removeTask hb id), hb.mem_removeTask id, mem_cons, not_or, and_assoc]

lemma Exact.tasksByUnit_removeAll {ids : List UpcId} {m : Node P M}
    (hm : m ∈ (ids.foldl (removeTask upcId) b).tasks) (u : U) :
    (ids.foldl (removeTask upcId) b).tasksByUnit u = some m.addr
      ↔ b.tasksByUnit u = some m.addr := by
  induction ids generalizing b with
  | nil => exact Iff.rfl
  | cons id ids ih =>
    have hb' := exact_removeTask hb id
    exact (ih hb' hm).trans (hb.tasksByUnit_removeTask ((hb'.mem_removeAll ids m).mp hm).1 u)

lemma exact_removePending : Exact upcId (b.removePending upcId) := by
  have h := exact_removeAll hb b.tasksToBeRemoved
  exact ⟨h.addrs, h.fresh, h.next, h.distinct, h.ids, h.modules, h.units⟩

end

end Board
end TorchCraft
