import TorchCraft.Board.Runs
import TorchCraft.Tactics.Partition

/-!
# The tasks of the groups, over many frames

`TacticsModule::process` takes the tasks of the module from the board and matches them with the new
groups.  The tasks that no group took are cancelled, and a group without a task gets a new one.  Then
the groups are handed to their handling, one by one.

A cancelled task stays on the board until an update has seen it and the next one has removed it, and
the matching does not ask whether a task is finished.

* `cancel`, `setUnits`, `giveTask`, `handGroups`, `process`  the code;
* `Play`, `tacticsSys`  updates of the board and calls of `process`, in any order.
-/

set_option linter.unusedSectionVars false

namespace TorchCraft.Tactics
open Lib Board List Function
open TacticsGroup

variable {P M U : Type} [DecidableEq P] [DecidableEq M] [DecidableEq U] {c : Scene P U}
  {o : Outcomes U} {tasks : List P} {obj : P → TacticsTask U} {upcId : P → UpcId} {m : M}

/-! ## the code -/

/-- the objects of the module's tasks; `update` is `removeDeadOrReassignedUnits` -/
abbrev tacticsTasks (P M U : Type) [DecidableEq P] [DecidableEq U] : Objects P M U where
  H := P → TacticsTask U
  get := fun h p => (h p).toTask
  update := fun b h p => update h p
    { h p with units := (h p).units.filter fun u => decide (b.taskWithUnit u = some p) }

def cancel (w : World (tacticsTasks P M U)) (p : P) : World (tacticsTasks P M U) where
  board := w.board.updateTasksByUnit p []
  heap := update w.heap p { w.heap p with units := [], status := .cancelled }

def setUnits (w : World (tacticsTasks P M U)) (p : P) (us : List U) : World (tacticsTasks P M U) where
  board := w.board.updateTasksByUnit p us
  heap := update w.heap p { w.heap p with units := us }

structure Frame (P U : Type) where
  /-- the key `TacticsDisabled` of the board -/
  disabled : Bool := false
  currentFrame : Int := 0
  scene : Scene P U
  outcomes : Outcomes U
  /-- the object that is made for the group `j`, if it needs a task -/
  alloc : Nat → P
  /-- the units of the group `j` that flee -/
  fleeUnits : Nat → List U := fun _ => []
  /-- `tasksOfModule` reads an `unordered_multimap` -/
  order : List P → List P := fun ps => ps
  order_perm : ∀ ps, (order ps).Perm ps := by exact fun _ => .refl _

/-- a group is handed to its handling: its task, and the world at that moment -/
structure Handover (P M U : Type) [DecidableEq P] [DecidableEq U] where
  task : P
  world : World (tacticsTasks P M U)

section process
variable (upcId : P → UpcId) (m : M) (a : Frame P U) (w : World (tacticsTasks P M U))

def giveTask (e : TacticsGroup P U × Nat) : Except String P × World (tacticsTasks P M U) :=
  match e.1.task with
  | some p => (.ok p, w)
  | none =>
    let p := a.alloc e.2
    let r := w.board.postTask upcId a.currentFrame p [] m true
    (r.1.map fun _ => p,
      ⟨r.2, update w.heap p { targetPos := e.1.targetPos, averagePos := e.1.averagePos }⟩)

def describe (g : TacticsGroup P U) (p : P) : World (tacticsTasks P M U) where
  board := w.board
  heap := update w.heap p { w.heap p with myUnits := g.myUnits, targetPos := g.targetPos }

def handledUnits (e : TacticsGroup P U × Nat) : List U :=
  (if e.1.searchAndDestroy || e.1.isScoutGroup then e.1.myUnits else a.fleeUnits e.2).dedup

def handGroups : List (TacticsGroup P U × Nat) → World (tacticsTasks P M U) →
    World (tacticsTasks P M U) × List (Handover P M U)
  | [], w => (w, [])
  | e :: es, w =>
    match giveTask upcId m a w e with
    | (.error _, w) => (w, [])
    | (.ok p, w) =>
      let w := describe w e.1 p
      let r := handGroups es (setUnits w p (handledUnits a e))
      (r.1, ⟨p, w⟩ :: r.2)

def process (n : ℕ) : Run (World (tacticsTasks P M U) × List (Handover P M U)) :=
  let tasks := a.order (w.board.tasksOfModule m)
  if a.disabled then .ret (tasks.foldl cancel w, [])
  else
    (assignUnits a.scene a.outcomes tasks w.heap n).bind fun r =>
      .ret (handGroups upcId m a r.1.zipIdx (r.2.foldl cancel w))

end process

/-! ## runs -/

structure Play (P M U : Type) [DecidableEq P] [DecidableEq U] where
  world : World (tacticsTasks P M U)
  /-- what the calls of `process` handed over -/
  calls : List (List (Handover P M U)) := []
  /-- the updates of the board since the last call -/
  updates : Nat := 0

namespace Play

/-- `fuel` bounds the loops of `process` -/
inductive Op (P U : Type) where
  | update (destroyed : List U)
  | process (a : Frame P U) (fuel : ℕ)

def run (upcId : P → UpcId) (m : M) (s : Play P M U) : Op P U → Play P M U
  | .update destroyed =>
    { s with world := s.world.update upcId destroyed, updates := s.updates + 1 }
  | .process a fuel =>
    match Tactics.process upcId m a s.world fuel with
    | .ret r => ⟨r.1, s.calls ++ [r.2], 0⟩
    | _ => s

def Ok (upcId : P → UpcId) (m : M) (s : Play P M U) : Op P U → Prop
  | .update _ => True
  | .process a fuel => (Tactics.process upcId m a s.world fuel).toOption.isSome = true

instance decidableOk (upcId : P → UpcId) (m : M) (s : Play P M U) :
    ∀ o, Decidable (s.Ok upcId m o)
  | .update _ => isTrue trivial
  | .process a fuel =>
    inferInstanceAs (Decidable ((Tactics.process upcId m a s.world fuel).toOption.isSome = true))

end Play

def tacticsSys (upcId : P → UpcId) (m : M) (good : Play P M U → Play.Op P U → Prop) :
    Sys (Play P M U) (Play.Op P U) where
  run := Play.run upcId m
  ok := fun s o => s.Ok upcId m o ∧ good s o

/-! ## what the phases leave alone -/

section

variable (w : Pool P U)

lemma core_collect (u : U) :
    (collect c o w u).1.groups.map TacticsGroup.core = w.1.groups.map TacticsGroup.core := by
  unfold collect
  dsimp only
  split
  · rfl
  · split
    · rfl
    · split
      · rfl
      · split
        · rfl
        · split
          · split
            · exact Buckets.map_modify _ (by intro g; rfl) _ _
            · split <;> rfl
          · split <;> rfl

lemma core_scoutGroup (j : Nat) :
    (scoutGroup c w j).1.groups.map TacticsGroup.core = w.1.groups.map TacticsGroup.core := by
  unfold scoutGroup
  split
  · rfl
  · split
    · exact Buckets.map_modify _ (by intro g; rfl) _ _
    · rfl

lemma HadTurn.core {j : Nat} {w w' : Drive P U} (h : HadTurn c j w w') :
    w'.state.groups.map TacticsGroup.core = w.state.groups.map TacticsGroup.core := by
  rcases h with rfl | ⟨g, us, enough, hv⟩
  · rfl
  · rw [hv.state]
    exact Buckets.map_modify _ (by intro g; rfl) _ _

/-- the tasks of the groups, and the tasks that are cancelled -/
structure Assigned (c : Scene P U) (tasks : List P) (obj : P → TacticsTask U)
    (r : List (TacticsGroup P U) × List P) : Prop where
  task : ∀ g ∈ r.1, ∀ p, g.task = some p →
    p ∈ tasks ∧ p ∉ r.2 ∧ ∃ g₀ ∈ c.groups, matchDistance g₀ (obj p) < 4 * 16
  nodup : (r.1.filterMap TacticsGroup.task).Nodup
  cancelled : ∀ p ∈ r.2, p ∈ tasks

/-- **The assignment terminates**, and a group has the task that it was matched with. -/
theorem computes_assigned : Computes (assignUnits c o tasks obj) (Assigned c tasks obj) := by
  refine computes_previous.bind fun r hr => ?_
  obtain ⟨m, hm, rfl⟩ := hr
  have hcollect : (collectAvailableUnits c o m.state).1.groups.map core =
      m.state.groups.map core :=
    foldlRecOn (motive := fun w : Pool P U =>
      w.1.groups.map core = m.state.groups.map core) _ _ rfl
      fun w hw u _ => (core_collect w u).trans hw
  have hscout : (assignScoutingUnits c (collectAvailableUnits c o m.state)).1.groups.map
      core = m.state.groups.map core :=
    foldlRecOn (motive := fun w : Pool P U =>
      w.1.groups.map core = m.state.groups.map core) _ _ hcollect
      fun w hw j _ => (core_scoutGroup w j).trans hw
  have hrecruit : Computes (assignNecessaryUnits c o _) fun w : Pool P U =>
      w.1.groups.map core = m.state.groups.map core :=
    (computes_recruiting (K := fun w => w.state.groups.map core = m.state.groups.map core)
      (fun _ _ h => h) (fun j w w' ht hk => ht.core.trans hk) hscout).bind
        fun d hd => computes_ret hd
  refine hrecruit.bind fun w hw => computes_ret ?_
  have hcore : (assignLeftovers c (assignDetectors c o w)).groups.map core =
      m.state.groups.map core :=
    pushes_keep (I := fun s => s.groups.map core = m.state.groups.map core)
      (fun s j _ hs => (Buckets.map_modify _ (by intro g; rfl) _ j).trans hs) hw
  refine ⟨fun g hg p hp => ?_, ?_, fun p hp => (mem_filter.mp hp).1⟩
  · obtain ⟨g₁, hg₁, he⟩ := mem_map.mp (hcore ▸ mem_map_of_mem hg)
    have htask : g₁.core.task = g.core.task := by rw [he]
    obtain ⟨j, hj⟩ := getElem?_of_mem hg₁
    obtain ⟨-, htaken, hmem, hnear⟩ := hm.paired.task j g₁ p hj (htask.trans hp)
    refine ⟨hmem, fun e => ?_, ?_⟩
    · have hfree := (mem_filter.mp e).2
      rw [contains_iff_mem.mpr htaken] at hfree
      cases hfree
    · obtain ⟨g₀, hg₀, hflags⟩ := mem_map.mp (hm.taken.flags ▸ mem_map_of_mem hg₁)
      exact ⟨g₀, hg₀, matchDistance_congr hflags (obj p) ▸ hnear⟩
  · have htasks : (assignLeftovers c (assignDetectors c o w)).groups.filterMap task =
        m.state.groups.filterMap task := by
      have h := congrArg (filterMap task) hcore
      rwa [filterMap_map, filterMap_map] at h
    rw [htasks, Nodup, pairwise_filterMap, pairwise_iff_getElem]
    intro j k hj hk hlt p hp q hq e
    subst e
    have := hm.paired.distinct j k _ _ p (getElem?_eq_getElem hj) (getElem?_eq_getElem hk)
      hp hq
    omega

end

/-! ## handing over -/

section handing
variable {upcId : P → UpcId} {m : M} {a : Frame P U} {w w' : World (tacticsTasks P M U)}

/-- the tasks of the module are removed when they are finished -/
structure Tidy (upcId : P → UpcId) (m : M) (b : Board P M U) : Prop where
  exact : Exact upcId b
  auto : ∀ n ∈ b.tasks, n.data.owner = m → n.data.autoRemove = true

lemma Tidy.updateTasksByUnit {b : Board P M U} (h : Tidy upcId m b) {p : P} (hp : b.OnBoard p)
    (us : List U) : Tidy upcId m (b.updateTasksByUnit p us) :=
  ⟨exact_updateTasksByUnit h.exact hp us, h.auto⟩

lemma Tidy.postTask {b : Board P M U} (h : Tidy upcId m b) (frame : Int) (p : P) (us : List U) :
    Tidy upcId m (b.postTask upcId frame p us m true).2 := by
  refine ⟨exact_postTask h.exact frame p us m true, fun n hn ho => ?_⟩
  cases hf : b.tasksById.find (upcId p) with
  | some it =>
    rw [postTask_present frame p us m true hf] at hn
    exact h.auto n hn ho
  | none =>
    rw [(postTask_fresh upcId b frame p us m true hf).1] at hn
    rcases mem_append.mp hn with hn | hn
    · exact h.auto n hn ho
    · rw [mem_singleton.mp hn]

def Retains (w w' : World (tacticsTasks P M U)) : Prop :=
  ∀ q, w.board.OnBoard q → w'.board.OnBoard q ∧ (w'.heap q).status = (w.heap q).status

lemma status_cancel {p q : P} (hq : q ≠ p) : ((cancel w p).heap q).status = (w.heap q).status :=
  congrArg (fun t : TacticsTask U => t.status) (update_of_ne hq ..)

lemma cancelAll_spec (ps : List P) (h : Tidy upcId m w.board) (hps : ∀ p ∈ ps, w.board.OnBoard p) :
    Tidy upcId m (ps.foldl cancel w).board ∧ ∀ q, q ∉ ps → w.board.OnBoard q →
      (ps.foldl cancel w).board.OnBoard q ∧
        ((ps.foldl cancel w).heap q).status = (w.heap q).status := by
  induction ps generalizing w with
  | nil => exact ⟨h, fun q _ hq => ⟨hq, rfl⟩⟩
  | cons p ps ih =>
    obtain ⟨htidy, hrest⟩ := ih (w := cancel w p) (h.updateTasksByUnit (hps p (mem_cons_self ..)) [])
      fun q hq => hps q (mem_cons_of_mem _ hq)
    refine ⟨htidy, fun q hq hon => ?_⟩
    obtain ⟨hne, hq⟩ := not_or.mp (fun e => hq (mem_cons.mpr e))
    obtain ⟨hon', hstatus⟩ := hrest q hq hon
    exact ⟨hon', hstatus.trans (status_cancel hne)⟩

structure Given (upcId : P → UpcId) (m : M) (w w' : World (tacticsTasks P M U))
    (g : TacticsGroup P U) (p : P) : Prop where
  tidy : Tidy upcId m w'.board
  onBoard : w'.board.OnBoard p
  unfinished : (w'.heap p).status.finished = false
  retains : Retains w w'
  source : g.task = some p ∨ (g.task = none ∧ ¬ w.board.OnBoard p)

lemma tidy_giveTask (h : Tidy upcId m w.board) (e : TacticsGroup P U × Nat) :
    Tidy upcId m (giveTask upcId m a w e).2.board := by
  unfold giveTask
  split
  · exact h
  · exact h.postTask ..

/-- **The task of a group is its own or a new one.** -/
theorem giveTask_ok (h : Tidy upcId m w.board) {e : TacticsGroup P U × Nat} {p : P}
    (htask : ∀ p, e.1.task = some p → w.board.OnBoard p ∧ (w.heap p).status.finished = false)
    (hgive : giveTask upcId m a w e = (.ok p, w')) : Given upcId m w w' e.1 p := by
  have htidy := tidy_giveTask (a := a) h e
  rw [hgive] at htidy
  unfold giveTask at hgive
  split at hgive
  next q hq =>
    obtain ⟨hqp, rfl⟩ := Prod.mk.inj hgive
    obtain rfl := Except.ok.inj hqp
    exact ⟨htidy, (htask q hq).1, (htask q hq).2, fun _ hon => ⟨hon, rfl⟩, .inl hq⟩
  next hnone =>
    obtain ⟨hok, rfl⟩ := Prod.mk.inj hgive
    cases hf : w.board.tasksById.find (upcId (a.alloc e.2)) with
    | some it =>
      rw [postTask_present _ _ _ _ _ hf] at hok
      cases hok
    | none =>
      have hpost := postTask_fresh upcId w.board a.currentFrame (a.alloc e.2) [] m true hf
      obtain rfl : a.alloc e.2 = p := by
        unfold Board.postTask at hok
        rw [hf] at hok
        exact Except.ok.inj hok
      have hnew : ¬ w.board.OnBoard (a.alloc e.2) := by
        rintro ⟨n, hn, he⟩
        exact h.exact.ne_of_absent hf hn (by rw [he])
      refine ⟨htidy, ?_, ?_, fun q hq => ?_, .inr ⟨hnone, hnew⟩⟩
      · refine ⟨⟨w.board.nextAddr, ⟨a.alloc e.2, m, true, a.currentFrame⟩⟩, ?_, rfl⟩
        rw [hpost.1]
        exact mem_append_right _ (mem_singleton.mpr rfl)
      · show (update w.heap (a.alloc e.2) _ (a.alloc e.2)).status.finished = false
        rw [update_self]
        rfl
      · have hne : q ≠ a.alloc e.2 := by
          rintro rfl
          exact hnew hq
        obtain ⟨n, hn, rfl⟩ := hq
        refine ⟨⟨n, mem_postTask hn .., rfl⟩, ?_⟩
        exact congrArg (fun t : TacticsTask U => t.status) (update_of_ne hne ..)

lemma status_describe (g : TacticsGroup P U) (p q : P) :
    ((describe w g p).heap q).status = (w.heap q).status :=
  Loops.unseen_update (fun t : TacticsTask U => t.status) (by rfl) q

lemma status_setUnits (p q : P) (us : List U) :
    ((setUnits w p us).heap q).status = (w.heap q).status :=
  Loops.unseen_update (fun t : TacticsTask U => t.status) (by rfl) q

/-- **The groups are handed over with different tasks that are on the board and not finished.** -/
theorem handGroups_spec (es : List (TacticsGroup P U × Nat)) (h : Tidy upcId m w.board)
    (htask : ∀ e ∈ es, ∀ p, e.1.task = some p →
      w.board.OnBoard p ∧ (w.heap p).status.finished = false)
    (hnodup : (es.filterMap fun e => e.1.task).Nodup) :
    Tidy upcId m (handGroups upcId m a es w).1.board ∧
      (∀ r ∈ (handGroups upcId m a es w).2,
        r.world.board.OnBoard r.task ∧ (r.world.heap r.task).status.finished = false) ∧
      ((handGroups upcId m a es w).2.map Handover.task).Nodup ∧
      ∀ r ∈ (handGroups upcId m a es w).2,
        r.task ∈ (es.filterMap fun e => e.1.task) ∨ ¬ w.board.OnBoard r.task := by
  induction es generalizing w with
  | nil => exact ⟨h, nofun, nodup_nil, nofun⟩
  | cons e es ih =>
    unfold handGroups
    split
    next err w' hgive =>
      have htidy := tidy_giveTask (a := a) h e
      rw [hgive] at htidy
      exact ⟨htidy, nofun, nodup_nil, nofun⟩
    next p w' hgive =>
      have hgiven := giveTask_ok h (htask e (mem_cons_self ..)) hgive
      have hnodup' : (es.filterMap fun e => e.1.task).Nodup := by
        rw [filterMap_cons] at hnodup
        split at hnodup
        · exact hnodup
        · exact (nodup_cons.mp hnodup).2
      obtain ⟨htidy, hlive, hdistinct, hsource⟩ :=
        ih (w := setUnits (describe w' e.1 p) p (handledUnits a e))
          (hgiven.tidy.updateTasksByUnit hgiven.onBoard _)
          (fun e' he' q hq => by
            obtain ⟨hon, hfin⟩ := htask e' (mem_cons_of_mem _ he') q hq
            obtain ⟨hon', hstatus⟩ := hgiven.retains q hon
            refine ⟨hon', ?_⟩
            rw [status_setUnits, status_describe, hstatus]
            exact hfin)
          hnodup'
      refine ⟨htidy, ?_, ?_, ?_⟩
      · refine forall_mem_cons.mpr ⟨⟨hgiven.onBoard, ?_⟩, hlive⟩
        rw [status_describe]
        exact hgiven.unfinished
      · refine nodup_cons.mpr ⟨fun hmem => ?_, hdistinct⟩
        obtain ⟨r, hr, he⟩ := mem_map.mp hmem
        rcases hsource r hr with hin | hout
        · -- the tasks of the other groups were matched with them
          rw [he] at hin
          rcases hgiven.source with hsame | ⟨-, hnew⟩
          · rw [filterMap_cons, hsame] at hnodup
            exact (nodup_cons.mp hnodup).1 hin
          · obtain ⟨e', he', hq⟩ := mem_filterMap.mp hin
            exact hnew (htask e' (mem_cons_of_mem _ he') _ hq).1
        · rw [he] at hout
          exact hout hgiven.onBoard
      · refine forall_mem_cons.mpr ⟨?_, fun r hr => ?_⟩
        · rcases hgiven.source with hsame | ⟨-, hnew⟩
          · exact .inl (mem_filterMap.mpr ⟨e, mem_cons_self .., hsame⟩)
          · exact .inr hnew
        · rcases hsource r hr with hin | hout
          · obtain ⟨e', he', hq⟩ := mem_filterMap.mp hin
            exact .inl (mem_filterMap.mpr ⟨e', mem_cons_of_mem _ he', hq⟩)
          · exact .inr fun hon => hout (hgiven.retains _ hon).1

/-! ## one call -/

/-- a group is handed over with a task of its own that is on the board and not finished -/
def Live (call : List (Handover P M U)) : Prop :=
  (∀ r ∈ call, r.world.board.OnBoard r.task ∧ (r.world.heap r.task).status.finished = false) ∧
    (call.map Handover.task).Nodup

def Frame.Clear (m : M) (a : Frame P U) (w : World (tacticsTasks P M U)) : Prop :=
  ∀ p ∈ w.board.tasksOfModule m, (w.heap p).status.finished = true →
    ∀ g ∈ a.scene.groups, 4 * 16 ≤ matchDistance g (w.heap p)

/-- **One call**: it terminates, and the tasks that it hands over are live. -/
theorem computes_process (h : Tidy upcId m w.board) (hclear : a.Clear m w) :
    Computes (process upcId m a w) fun r => Tidy upcId m r.1.board ∧ Live r.2 := by
  have hlisted := fun p => (a.order_perm (w.board.tasksOfModule m)).mem_iff (a := p)
  have hmodule : ∀ p ∈ a.order (w.board.tasksOfModule m), w.board.OnBoard p := by
    intro p hp
    obtain ⟨n, hn, he, -⟩ := h.exact.mem_tasksOfModule.mp ((hlisted p).mp hp)
    exact ⟨n, hn, he⟩
  unfold process
  split
  · exact computes_ret ⟨(cancelAll_spec _ h hmodule).1, nofun, nodup_nil⟩
  · refine computes_assigned.bind fun r hr => computes_ret ?_
    obtain ⟨htidy, hrest⟩ := cancelAll_spec r.2 h fun p hp => hmodule p (hr.cancelled p hp)
    have hgroups : (r.1.zipIdx.filterMap fun e => e.1.task) = r.1.filterMap task := by
      conv_rhs => rw [← zipIdx_map_fst 0 r.1, filterMap_map]
      rfl
    obtain ⟨htidy', hlive, hdistinct, -⟩ := handGroups_spec (a := a) r.1.zipIdx htidy
      (fun e he p hp => by
        have hmem : e.1 ∈ r.1 := fst_mem_of_mem_zipIdx he
        obtain ⟨hp, hkeep, g₀, hg₀, hnear⟩ := hr.task e.1 hmem p hp
        obtain ⟨hon, hstatus⟩ := hrest p hkeep (hmodule p hp)
        refine ⟨hon, ?_⟩
        rw [hstatus]
        cases hfin : (w.heap p).status.finished with
        | false => rfl
        | true => exact absurd hnear (not_lt.mpr (hclear p ((hlisted p).mp hp) hfin g₀ hg₀)))
      (by rw [hgroups]; exact hr.nodup)
    exact ⟨htidy', hlive, hdistinct⟩

lemma stable_process : Stable (process upcId m a w) := by
  unfold process
  split
  · exact stable_const _
  · exact stable_assignUnits.bind fun _ => stable_const _

end handing

/-! ## whole runs -/

section runs

lemma status_turn (w : World (tacticsTasks P M U)) (p q : P) :
    (w.turn p q).status = (w.heap q).status := by
  unfold World.turn
  split
  · exact Loops.unseen_update (fun t : TacticsTask U => t.status) (by rfl) q
  · rfl

lemma status_update (w : World (tacticsTasks P M U)) (ds : List U) (q : P) :
    ((w.update upcId ds).heap q).status = (w.heap q).status :=
  World.foldl_sweepOne_related
    (R := fun h h' : P → TacticsTask U => ∀ q, (h' q).status = (h q).status)
    (fun _ _ => rfl) (fun _ _ _ h₁ h₂ q => (h₂ q).trans (h₁ q)) (fun w p => status_turn w p) _ _ q

structure Kept (upcId : P → UpcId) (m : M) (s : Play P M U) : Prop where
  tidy : Tidy upcId m s.world.board
  seen : 1 ≤ s.updates → ∀ n ∈ s.world.board.tasks, n.data.owner = m →
    (s.world.heap n.data.task).status.finished = true →
      upcId n.data.task ∈ s.world.board.tasksToBeRemoved
  gone : 2 ≤ s.updates → ∀ n ∈ s.world.board.tasks, n.data.owner = m →
    (s.world.heap n.data.task).status.finished = false
  live : ∀ call ∈ s.calls, Live call

/-- two updates since the last call, or no finished task within reach -/
def Spaced (m : M) (s : Play P M U) : Play.Op P U → Prop
  | .update _ => True
  | .process a _ => 2 ≤ s.updates ∨ a.Clear m s.world

variable {s : Play P M U}

lemma Kept.update (h : Kept upcId m s) (ds : List U) :
    Kept upcId m (s.run upcId m (.update ds)) := by
  have hmem := fun n => World.mem_update_tasks h.tidy.exact ds n
  have hauto : ∀ n ∈ (s.world.update upcId ds).board.tasks, n.data.owner = m →
      n.data.autoRemove := fun n hn => h.tidy.auto n ((hmem n).mp hn).1
  refine ⟨⟨World.exact_update h.tidy.exact ds, hauto⟩, ?_, ?_, h.live⟩
  · intro _ n hn ho hfin
    refine (World.mem_update_pending h.tidy.exact ds hn).mpr ⟨hauto n hn ho, ?_⟩
    rw [World.lastStatusOfTask_update status_turn h.tidy.exact ds hn]
    exact (congrArg TaskStatus.finished (status_update s.world ds n.data.task)).symm.trans hfin
  · intro htwo n hn ho
    obtain ⟨hn', hpending⟩ := (hmem n).mp hn
    have hone : 1 ≤ s.updates := Nat.le_of_succ_le_succ htwo
    refine (congrArg TaskStatus.finished (status_update s.world ds n.data.task)).trans ?_
    cases hfin : (s.world.heap n.data.task).status.finished with
    | false => rfl
    | true => exact absurd (h.seen hone n hn' ho hfin) hpending

lemma Kept.clear (h : Kept upcId m s) (htwo : 2 ≤ s.updates) (a : Frame P U) :
    a.Clear m s.world := by
  intro p hp hfin
  obtain ⟨n, hn, rfl, ho⟩ := h.tidy.exact.mem_tasksOfModule.mp hp
  rw [h.gone htwo n hn ho] at hfin
  cases hfin

lemma Kept.process (h : Kept upcId m s) {a : Frame P U} {fuel : ℕ}
    (hok : s.Ok upcId m (.process a fuel)) (hgood : Spaced m s (.process a fuel)) :
    Kept upcId m (s.run upcId m (.process a fuel)) := by
  have hclear : a.Clear m s.world := hgood.elim (fun htwo => h.clear htwo a) id
  obtain ⟨r, hr⟩ := Option.isSome_iff_exists.mp hok
  have hret := Run.toOption_eq_some.mp hr
  obtain ⟨htidy, hlive⟩ := (computes_process h.tidy hclear).of_returns (stable_process.returns hret)
  have hrun : s.run upcId m (.process a fuel) = ⟨r.1, s.calls ++ [r.2], 0⟩ := by
    rw [Play.run, hret]
  rw [hrun]
  refine ⟨htidy, fun h => absurd h (Nat.not_succ_le_zero 0),
    fun h => absurd h (Nat.not_succ_le_zero 1), ?_⟩
  exact forall_mem_append.mpr ⟨h.live, forall_mem_singleton.mpr hlive⟩

end runs

/-- **Live and unshared tasks.**  Every group is handed over with a task of its own that is on the
board and not finished, if the board is updated twice between two calls of `process` or no finished
task is within reach of a group. -/
theorem tasks_live (upcId : P → UpcId) (m : M) (w : World (tacticsTasks P M U))
    (h : Tidy upcId m w.board) (os : List (Play.Op P U))
    (hl : (tacticsSys upcId m (Spaced m)).Legal ⟨w, [], 0⟩ os) :
    ∀ call ∈ ((tacticsSys upcId m (Spaced m)).out ⟨w, [], 0⟩ os).calls,
      (∀ r ∈ call, r.world.board.OnBoard r.task ∧ (r.world.heap r.task).status.finished = false) ∧
        (call.map Handover.task).Nodup := by
  have hkept := (tacticsSys upcId m (Spaced m)).invariant (Kept upcId m)
    (fun s o hs ho => by
      cases o with
      | update ds => exact hs.update ds
      | process a fuel => exact hs.process ho.1 ho.2)
    ⟨w, [], 0⟩ ⟨h, fun h => absurd h (Nat.not_succ_le_zero 0),
      fun h => absurd h (Nat.not_succ_le_zero 1), nofun⟩ os hl
  exact hkept.live

def frameOf (g : TacticsGroup ℕ ℕ) (h : g.myUnits = [] ∧ g.task = none) (p : ℕ) : Frame ℕ ℕ where
  scene :=
    { unit := fun _ => {}
      myUnits := []
      groups := [g]
      nodup := List.nodup_nil
      own := nofun
      groups_ne := List.cons_ne_nil _ _
      fresh := fun g' hg => by
        rw [List.mem_singleton.mp hg]
        exact h }
  outcomes := { winRatio := fun _ _ _ => false, score := fun _ _ => none }
  alloc := fun _ => p

/-- no enemy is known: the one group searches -/
def searching : ℕ → Frame ℕ ℕ :=
  frameOf { targetPos := (0, 1), searchAndDestroy := true } ⟨rfl, rfl⟩

/-- one enemy is seen -/
def sighting : ℕ → Frame ℕ ℕ :=
  frameOf { enemyUnits := [7], targetPos := (300, 0), averagePos := (300, 0),
            hasEnemyGroundUnits := true, enemyIsOnlyWorkers := false } ⟨rfl, rfl⟩

def newGame : World (tacticsTasks ℕ ℕ ℕ) := ⟨Board.empty, fun _ => {}⟩

lemma tidy_newGame : Tidy Int.ofNat 0 newGame.board := ⟨exact_empty, nofun⟩

def patrol : List (Play.Op ℕ ℕ) :=
  [.process (searching 1) 3, .update [], .update [], .process (sighting 2) 3,
    .update [], .update [], .process (searching 3) 3]

lemma legal_patrol : (tacticsSys Int.ofNat 0 (Spaced 0)).Legal ⟨newGame, [], 0⟩ patrol := by
  refine ⟨⟨?_, .inr nofun⟩, ⟨trivial, trivial⟩, ⟨trivial, trivial⟩, ⟨?_, .inl ?_⟩, ⟨trivial, trivial⟩,
    ⟨trivial, trivial⟩, ⟨?_, .inl ?_⟩, trivial⟩
  all_goals decide +kernel

theorem tasks_live_patrol :
    (tacticsSys Int.ofNat 0 (Spaced 0)).Legal ⟨newGame, [], 0⟩ patrol ∧
      ∀ call ∈ ((tacticsSys Int.ofNat 0 (Spaced 0)).out ⟨newGame, [], 0⟩ patrol).calls,
        (∀ r ∈ call, r.world.board.OnBoard r.task ∧
          (r.world.heap r.task).status.finished = false) ∧ (call.map Handover.task).Nodup :=
  ⟨legal_patrol, tasks_live Int.ofNat 0 newGame tidy_newGame patrol legal_patrol⟩

/-- with one update between the calls the group gets its cancelled task back -/
theorem cancelled_task_handed :
    (tacticsSys (M := ℕ) Int.ofNat 0 fun _ _ => True).Legal ⟨newGame, [], 0⟩
        [.process (searching 1) 3, .update [], .process (sighting 2) 3, .update [],
          .process (searching 3) 3] ∧
      ∃ call ∈ ((tacticsSys (M := ℕ) Int.ofNat 0 fun _ _ => True).out ⟨newGame, [], 0⟩
          [.process (searching 1) 3, .update [], .process (sighting 2) 3,
            .update [], .process (searching 3) 3]).calls,
        ∃ r ∈ call, r.task = 1 ∧ (r.world.heap r.task).status = .cancelled := by
  refine ⟨⟨⟨?_, trivial⟩, ⟨trivial, trivial⟩, ⟨?_, trivial⟩, ⟨trivial, trivial⟩, ⟨?_, trivial⟩,
    trivial⟩, ?_⟩
  all_goals decide +kernel

end TorchCraft.Tactics
