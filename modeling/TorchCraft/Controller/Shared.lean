import TorchCraft.Board.Runs
import TorchCraft.Controller.Model

/-!
# The unit map of a shared controller

`Controlled S b h` is what holds of the board `b` and the heap `h` at every moment, also half way
through the sweep: the controller controls a unit only for a live, ongoing task that lists it
(`only`), and it does control the units a task of it lists if the board gives them to the task
(`given`).  For the tasks in `S`, those that had their turn in this sweep, it controls every unit
they list (`settled`).

* `Controlled.drop`  a task lets go of some of its units (its update, its cancellation);
* `controlled_sweepOne`  one turn of the sweep adds the task to `S`;
* `controlled_run`  every operation of `sharedSys`;
* `sharedController_exact` the whole statement.
-/

set_option linter.unusedSectionVars false

namespace TorchCraft
open Board List Function
open SharedHeap World

variable {P M U Q : Type} [DecidableEq P] [DecidableEq M] [DecidableEq U] {upcId : P → UpcId}
  {shared : P → Bool} {S S' : Node P M → Prop} {b : Board P M U} {h h' : SharedHeap P U Q}
  {m : Node P M} {others : OtherTasks P M U Q} {w : World (sharedTasks upcId shared others)}
  {es : List (UpcId × Iter)} {u : U}

structure Controlled (upcId : P → UpcId) (shared : P → Bool) (S : Node P M → Prop)
    (b : Board P M U) (h : SharedHeap P U Q) : Prop where
  index : Exact upcId b
  only : ∀ u i, h.ctrl.units u = some i → ∃ n ∈ b.tasks, shared n.data.task = true ∧
    (h.tasks n.data.task).status = .ongoing ∧ upcId n.data.task = i ∧
    u ∈ (h.tasks n.data.task).units
  given : ∀ n ∈ b.tasks, shared n.data.task = true → ∀ u ∈ (h.tasks n.data.task).units,
    b.tasksByUnit u = some n.addr → h.ctrl.units u = some (upcId n.data.task)
  cleared : ∀ p, shared p = true → (h.tasks p).status ≠ .ongoing → (h.tasks p).units = []
  posted : ∀ p, shared p = true → (h.tasks p).status = .ongoing → b.OnBoard p
  settled : ∀ n ∈ b.tasks, S n → shared n.data.task = true → ∀ u ∈ (h.tasks n.data.task).units,
    h.ctrl.units u = some (upcId n.data.task)

namespace Controlled

section
variable (hC : Controlled upcId shared S b h)
include hC

section
variable {n : Node P M} (hn : n ∈ b.tasks) (hm : m ∈ b.tasks) (hne : n ≠ m)
include hn hm hne

lemma task_ne : n.data.task ≠ m.data.task :=
  fun e => hne (hC.index.node_unique_id hn hm (by rw [e]))

lemma id_ne : upcId n.data.task ≠ upcId m.data.task :=
  fun e => hne (hC.index.node_unique_id hn hm e)

end

lemma mono (hS : ∀ n, S' n → S n) : Controlled upcId shared S' b h :=
  ⟨hC.index, hC.only, hC.given, hC.cleared, hC.posted, fun n hn hs => hC.settled n hn (hS n hs)⟩

lemma add (hm : shared m.data.task → (h.tasks m.data.task).units = []) :
    Controlled upcId shared (fun n => S n ∨ n = m) b h := by
  refine ⟨hC.index, hC.only, hC.given, hC.cleared, hC.posted, ?_⟩
  rintro n hn (hs | rfl) hsh u hu
  · exact hC.settled n hn hs hsh u hu
  · rw [hm hsh] at hu
    nomatch hu

lemma congr
    (ht : ∀ p, shared p → h'.tasks p = h.tasks p) (hc : h'.ctrl.units = h.ctrl.units) :
    Controlled upcId shared S b h' := by
  refine ⟨hC.index, ?_, ?_, ?_, ?_, ?_⟩
  · intro u i hi
    rw [hc] at hi
    obtain ⟨n, hn, hsh, h1, h2, h3⟩ := hC.only u i hi
    exact ⟨n, hn, hsh, by rw [ht _ hsh]; exact h1, h2, by rw [ht _ hsh]; exact h3⟩
  · intro n hn hsh u hu hb
    rw [ht _ hsh] at hu
    rw [hc]
    exact hC.given n hn hsh u hu hb
  · intro p hp
    rw [ht p hp]
    exact hC.cleared p hp
  · intro p hp
    rw [ht p hp]
    exact hC.posted p hp
  · intro n hn hs hsh u hu
    rw [ht _ hsh] at hu
    rw [hc]
    exact hC.settled n hn hs hsh u hu

/-- **The task of `m` keeps the units of `t` and lets go of the others.**  -/
theorem drop (hm : m ∈ b.tasks) {t : Task U} (ht : h'.tasks = update h.tasks m.data.task t)
    (hst : t.status = .ongoing ↔ t.units ≠ [])
    (hsub : ∀ u ∈ t.units, u ∈ (h.tasks m.data.task).units)
    (hctrl : ∀ u, h'.ctrl.units u =
      if (u ∈ (h.tasks m.data.task).units ∧ u ∉ t.units) ∧
        h.ctrl.units u = some (upcId m.data.task) then none else h.ctrl.units u)
    (hS : ∀ n, S' n → S n ∨ (n = m ∧ ∀ u ∈ t.units, b.tasksByUnit u = some m.addr)) :
    Controlled upcId shared S' b h' := by
  have hself : h'.tasks m.data.task = t := by rw [ht, update_self]
  have hother : ∀ p, p ≠ m.data.task → h'.tasks p = h.tasks p := fun p hp => by
    rw [ht, update_of_ne hp]
  have hkeep : ∀ u, u ∈ t.units → h'.ctrl.units u = h.ctrl.units u := fun u hu => by
    rw [hctrl, if_neg (fun e => e.1.2 hu)]
  have hfar : ∀ n ∈ b.tasks, n ≠ m → ∀ u, h.ctrl.units u = some (upcId n.data.task) →
      h'.ctrl.units u = some (upcId n.data.task) := fun n hn hne u hu => by
    rw [hctrl, if_neg (fun e => hC.id_ne hn hm hne (Option.some.inj (hu.symm.trans e.2)))]
    exact hu
  refine ⟨hC.index, ?_, ?_, ?_, ?_, ?_⟩
  · intro u i hi
    rw [hctrl] at hi
    split at hi
    · cases hi
    next hnot =>
      obtain ⟨n, hn, hsh, h1, h2, h3⟩ := hC.only u i hi
      by_cases hne : n = m
      · subst hne
        have hu : u ∈ t.units := by
          by_contra hu
          exact hnot ⟨⟨h3, hu⟩, by rw [h2]; exact hi⟩
        exact ⟨n, hn, hsh, by rw [hself]; exact hst.mpr (ne_nil_of_mem hu), h2,
          by rw [hself]; exact hu⟩
      · have hp := hother _ (hC.task_ne hn hm hne)
        exact ⟨n, hn, hsh, by rw [hp]; exact h1, h2, by rw [hp]; exact h3⟩
  · intro n hn hsh u hu hb
    by_cases hne : n = m
    · subst hne
      rw [hself] at hu
      rw [hkeep u hu]
      exact hC.given n hn hsh u (hsub u hu) hb
    · rw [hother _ (hC.task_ne hn hm hne)] at hu
      exact hfar n hn hne u (hC.given n hn hsh u hu hb)
  · intro p hp hs
    by_cases hpm : p = m.data.task
    · rw [hpm, hself] at hs ⊢
      exact not_not.mp (fun e => hs (hst.mpr e))
    · rw [hother p hpm] at hs ⊢
      exact hC.cleared p hp hs
  · intro p hp hs
    by_cases hpm : p = m.data.task
    · exact ⟨m, hm, hpm.symm⟩
    · rw [hother p hpm] at hs
      exact hC.posted p hp hs
  · intro n hn hs hsh u hu
    by_cases hne : n = m
    · subst hne
      rw [hself] at hu
      rw [hkeep u hu]
      rcases hS n hs with hs | ⟨_, hb⟩
      · exact hC.settled n hn hs hsh u (hsub u hu)
      · exact hC.given n hn hsh u (hsub u hu) (hb u hu)
    · rw [hother _ (hC.task_ne hn hm hne)] at hu
      rcases hS n hs with hs | ⟨e, _⟩
      · exact hfar n hn hne u (hC.settled n hn hs hsh u hu)
      · exact absurd e hne

end

/-! ## what tasks do -/

section
variable (hC : Controlled upcId shared S b h)
include hC

lemma cancel {p : P} (hp : shared p) : Controlled upcId shared S b (h.cancel upcId p) := by
  unfold SharedHeap.cancel
  split
  · exact hC
  next hs =>
    obtain ⟨m, hm, rfl⟩ := hC.posted p hp (not_not.mp hs)
    refine hC.drop hm (t := ⟨.cancelled, []⟩) rfl (by simp) (by simp) ?_ (fun n => Or.inl)
    intro u
    show ((h.tasks m.data.task).units.foldl _ h.ctrl).units u = _
    rw [ControllerBase.foldl_release_units]
    simp

lemma cancelAll {ps : List P} (hps : ∀ p ∈ ps, shared p) :
    Controlled upcId shared S b (ps.foldl (SharedHeap.cancel upcId) h) := by
  induction ps generalizing h with
  | nil => exact hC
  | cons p ps ih =>
    exact ih (hC.cancel (hps p (mem_cons_self ..)))
      (fun q hq => hps q (mem_cons_of_mem _ hq))

lemma writeOthers (t : P → Task U) : Controlled upcId shared S b (h.writeOthers shared t) :=
  hC.congr (fun p hp => by simp [SharedHeap.writeOthers, hp]) rfl

lemma updateTask (hm : m ∈ b.tasks) (hsh : shared m.data.task) :
    Controlled upcId shared (fun n => S n ∨ n = m) b (h.updateTask upcId b m.data.task) := by
  by_cases hs : (h.tasks m.data.task).status = .ongoing
  · refine hC.drop hm (updateTask_tasks upcId b h hs) ?_ ?_
      (updateTask_ctrl upcId b h hs) ?_
    · by_cases he : h.keptUnits b m.data.task = [] <;> simp [he]
    · exact fun u hu => ((mem_keptUnits ..).mp hu).1
    · rintro n (hn | rfl)
      · exact Or.inl hn
      · refine Or.inr ⟨rfl, fun u hu => ?_⟩
        exact (hC.index.taskWithUnit_node hm u).mp ((mem_keptUnits ..).mp hu).2.1
  · rw [updateTask_finished upcId b h hs]
    exact hC.add (fun _ => hC.cleared _ hsh hs)

end

/-! ## what the board does -/

lemma record (hC : Controlled upcId shared S b h) (hm : m ∈ b.tasks) (hS : S m) :
    Controlled upcId shared S
      (b.record upcId (upcId m.data.task, m.addr) m.data (h.tasks m.data.task)) h := by
  refine ⟨exact_record hC.index hm .., hC.only, ?_, hC.cleared, hC.posted, hC.settled⟩
  intro n hn hsh u hu hb
  rcases (rebuild_eq_some ..).mp hb with ⟨ha, _⟩ | ⟨_, _, hb⟩
  · rw [hC.index.node_unique hn hm ha] at hsh hu ⊢
    exact hC.settled m hm hS hsh u hu
  · exact hC.given n hn hsh u hu hb

lemma withUnits (hC : Controlled upcId shared S b h) {b' : Board P M U} (hb' : Exact upcId b')
    (ht : b'.tasks = b.tasks) (hu : ∀ n ∈ b.tasks, shared n.data.task → ∀ u,
      b'.tasksByUnit u = some n.addr → b.tasksByUnit u = some n.addr) :
    Controlled upcId shared S b' h := by
  refine ⟨hb', ?_, ?_, hC.cleared, ?_, ?_⟩
  · rw [ht]; exact hC.only
  · intro n hn hsh u hun hb
    rw [ht] at hn
    exact hC.given n hn hsh u hun (hu n hn hsh u hb)
  · intro p hp hs
    obtain ⟨n, hn, he⟩ := hC.posted p hp hs
    exact ⟨n, by rwa [ht], he⟩
  · rw [ht]; exact hC.settled

end Controlled

/-! ## the sweep -/

/-- the world is controlled, the tasks in `S` had their turn -/
def WControlled (S : Node P M → Prop) (w : World (sharedTasks upcId shared others)) : Prop :=
  Controlled upcId shared S w.board w.objects

section
variable (hC : WControlled S w) {m : Node P M} (hm : m ∈ w.board.tasks)
include hC hm

lemma controlled_turn :
    Controlled upcId shared (fun n => S n ∨ n = m) w.board
      (show SharedHeap P U Q from w.turn m.data.task) := by
  unfold turn
  split
  next hs =>
    by_cases hsh : shared m.data.task
    · simp only [sharedTasks, hsh, if_true]
      exact hC.updateTask hm hsh
    · simp only [sharedTasks, hsh]
      refine Controlled.cancelAll ?_ (fun p hp => (mem_filter.mp hp).2)
      exact (Controlled.writeOthers hC _).add (fun e => absurd e hsh)
  next hs =>
    refine hC.add (fun hsh => hC.cleared _ hsh ?_)
    rw [show (w.objects.tasks m.data.task).status = .cancelled from
      not_not.mp hs]
    decide

lemma controlled_sweepOne :
    WControlled (fun n => S n ∨ n = m) (World.sweepOne upcId w (upcId m.data.task, m.addr)) := by
  rw [sweepOne_node hC.index hm]
  exact (controlled_turn hC hm).record hm (Or.inr rfl)

end

lemma controlled_foldl_sweepOne (hC : WControlled S w) (hs : World.Stretch upcId w es) :
    WControlled (fun n => S n ∨ (n ∈ w.board.tasks ∧ (upcId n.data.task, n.addr) ∈ es))
      (es.foldl (World.sweepOne upcId) w) := by
  induction es generalizing w S with
  | nil => exact hC.mono (fun n hn => hn.elim id (fun e => absurd e.2 not_mem_nil))
  | cons e es ih =>
    obtain ⟨m, hm, rfl, _⟩ := hs.head
    refine (ih (controlled_sweepOne hC hm) hs.tail).mono ?_
    rintro n (hn | ⟨hn, he⟩)
    · exact Or.inl (Or.inl hn)
    · rw [sweepOne_tasks]
      rcases mem_cons.mp he with he | he
      · exact Or.inl (Or.inr (hC.index.node_unique_id hn hm (congrArg Prod.fst he)))
      · exact Or.inr ⟨hn, he⟩

/-! ## one update -/

/-- only finished tasks of the controller are pending -/
def OnlyFinished (w : World (sharedTasks upcId shared others)) : Prop :=
  ∀ n ∈ w.board.tasks, shared n.data.task = true →
    upcId n.data.task ∈ w.board.tasksToBeRemoved →
    (w.objects.tasks n.data.task).status.finished = true

lemma OnlyFinished.stays (hf : OnlyFinished w) {n : Node P M} (hn : n ∈ w.board.tasks)
    (hsh : shared n.data.task) (ho : (w.objects.tasks n.data.task).status = .ongoing) :
    upcId n.data.task ∉ w.board.tasksToBeRemoved := by
  intro hp
  have h := hf n hn hsh hp
  rw [ho] at h
  cases h

lemma controlled_cleared (hC : WControlled S w) (hf : OnlyFinished w) (ds : List U) :
    WControlled (fun _ => False) (w.cleared upcId ds) := by
  have hmem := mem_cleared_tasks hC.index ds
  refine ⟨exact_cleared hC.index ds, ?_, ?_, hC.cleared, ?_, fun n _ hs => hs.elim⟩
  · intro u i hi
    obtain ⟨n, hn, hsh, h1, h2⟩ := hC.only u i hi
    exact ⟨n, (hmem n).mpr ⟨hn, hf.stays hn hsh h1⟩, hsh, h1, h2⟩
  · intro n hn hsh u hu hb
    exact hC.given n ((hmem n).mp hn).1 hsh u hu
      ((cleared_tasksByUnit hC.index ds hn u).mp hb).2
  · intro p hp ho
    obtain ⟨n, hn, rfl⟩ := hC.posted p hp ho
    exact ⟨n, (hmem n).mpr ⟨hn, hf.stays hn hp ho⟩, rfl⟩

lemma controlled_update (hC : WControlled S w) (hf : OnlyFinished w) (ds : List U) :
    WControlled (fun n => n ∈ (w.update upcId ds).board.tasks) (w.update upcId ds) := by
  have h := controlled_foldl_sweepOne (controlled_cleared hC hf ds)
    (stretch_rentries (exact_cleared hC.index ds))
  refine h.mono (fun n hn => ?_)
  rw [update_eq, foldl_sweepOne_tasks] at hn
  exact Or.inr ⟨hn, mem_rentries_node (exact_cleared hC.index ds) hn⟩

/-! ## a unit that is handed over -/

/-- the ongoing task of `n` lists `u`, the controller keeps `u`, and no task of another kind lists
it -/
structure Lists (shared : P → Bool) (h : SharedHeap P U Q) (n : Node P M) (u : U) : Prop where
  ongoing : (h.tasks n.data.task).status = .ongoing
  lists : u ∈ (h.tasks n.data.task).units
  keep : h.keepUnit u = true
  free : ∀ q, shared q = false → u ∉ (h.tasks q).units

/-- tasks of other kinds neither claim `u` nor cancel `p` -/
structure LeaveAlone (shared : P → Bool) (others : OtherTasks P M U Q) (p : P) (u : U) : Prop where
  write : ∀ b h q q', shared q' = false → u ∉ (others.write b h q q').units
  cancels : ∀ b h q, p ∉ others.cancels b h q

lemma lists_updateTask {b : Board P M U} {h : SharedHeap P U Q}
    (hC : Controlled upcId shared S b h) {n m : Node P M} (hn : n ∈ b.tasks) (hm : m ∈ b.tasks)
    (hsh : shared m.data.task) (hl : Lists shared h n u)
    (hb : b.tasksByUnit u = some n.addr) : Lists shared (h.updateTask upcId b m.data.task) n u ∧
      (n ≠ m → u ∉ ((h.updateTask upcId b m.data.task).tasks m.data.task).units) := by
  have hw : b.taskWithUnit u = some n.data.task := (hC.index.taskWithUnit_node hn u).mpr hb
  by_cases hs : (h.tasks m.data.task).status = .ongoing
  · have hu : u ∈ h.keptUnits b m.data.task ↔ u ∈ (h.tasks m.data.task).units ∧ n = m := by
      rw [mem_keptUnits, hw, Option.some.injEq]
      refine and_congr_right (fun _ => ⟨fun e => ?_, fun e => ⟨by rw [e], hl.keep⟩⟩)
      exact hC.index.node_unique_id hn hm (by rw [e.1])
    have ht := updateTask_tasks upcId b h hs
    have hfree : ∀ q, shared q = false → u ∉ ((h.updateTask upcId b m.data.task).tasks q).units := by
      intro q hq
      have hqm : q ≠ m.data.task := fun e => by rw [e, hsh] at hq; cases hq
      rw [ht, update_of_ne hqm]
      exact hl.free q hq
    by_cases hne : n = m
    · subst hne
      have hin : u ∈ h.keptUnits b n.data.task := hu.mpr ⟨hl.lists, rfl⟩
      refine ⟨⟨?_, ?_, by simpa using hl.keep, hfree⟩, fun e => absurd rfl e⟩
      · rw [ht, update_self]
        simp [ne_nil_of_mem hin]
      · rw [ht, update_self]
        exact hin
    · have hp := hC.task_ne hn hm hne
      refine ⟨⟨?_, ?_, by simpa using hl.keep, hfree⟩, fun _ => ?_⟩
      · rw [ht, update_of_ne hp]; exact hl.ongoing
      · rw [ht, update_of_ne hp]; exact hl.lists
      · rw [ht, update_self]
        exact fun e => hne (hu.mp e).2
  · rw [updateTask_finished upcId b h hs]
    refine ⟨hl, fun _ => ?_⟩
    rw [hC.cleared _ hsh hs]
    exact not_mem_nil

lemma lists_otherTask (upcId : P → UpcId) (others : OtherTasks P M U Q) {h : SharedHeap P U Q}
    {n : Node P M} (b : Board P M U) (q : P) (hl : Lists shared h n u)
    (hsh : shared n.data.task) (ha : LeaveAlone shared others n.data.task u) :
    Lists shared (((others.cancels b h q).filter shared).foldl (SharedHeap.cancel upcId)
      (h.writeOthers shared (others.write b h q))) n u := by
  have hn : n.data.task ∉ (others.cancels b h q).filter shared :=
    fun e => ha.cancels b h q (mem_filter.mp e).1
  have ht := cancelAll_tasks upcId _ (h.writeOthers shared (others.write b h q)) hn
  have hs : (h.writeOthers shared (others.write b h q)).tasks n.data.task = h.tasks n.data.task := by
    simp [writeOthers, hsh]
  refine ⟨by rw [ht, hs]; exact hl.ongoing, by rw [ht, hs]; exact hl.lists, ?_, ?_⟩
  · rw [cancelAll_keepUnit]
    exact hl.keep
  · intro q' hq'
    have hnot : q' ∉ (others.cancels b h q).filter shared := fun e => by
      have := (mem_filter.mp e).2
      rw [hq'] at this
      cases this
    rw [cancelAll_tasks upcId _ _ hnot]
    simp only [writeOthers, hq']
    exact ha.write b h q q' hq'

section
variable (hC : WControlled S w) {n m : Node P M} (hn : n ∈ w.board.tasks) (hm : m ∈ w.board.tasks)
  (hsh : shared n.data.task = true) (ha : LeaveAlone shared others n.data.task u)
  (hl : Lists shared w.objects n u) (hb : w.board.tasksByUnit u = some n.addr)
include hC hn hm hsh ha hl hb

lemma lists_turn :
    Lists shared (show SharedHeap P U Q from w.turn m.data.task) n u ∧ (n ≠ m →
      u ∉ ((show SharedHeap P U Q from w.turn m.data.task).tasks m.data.task).units) := by
  unfold turn
  split
  next hs =>
    by_cases hm' : shared m.data.task
    · simp only [sharedTasks, hm', if_true]
      exact lists_updateTask hC hn hm hm' hl hb
    · simp only [sharedTasks, hm']
      have h := lists_otherTask upcId others w.board m.data.task hl hsh ha
      exact ⟨h, fun _ => h.free _ (by simpa using hm')⟩
  next hs =>
    refine ⟨hl, fun _ => ?_⟩
    cases hm' : shared m.data.task with
    | false => exact hl.free _ hm'
    | true =>
      have hst : (w.objects.tasks m.data.task).status = .cancelled := not_not.mp hs
      have hu := hC.cleared _ hm' (by rw [hst]; decide)
      show u ∉ (w.objects.tasks m.data.task).units
      rw [hu]
      exact not_mem_nil

lemma lists_sweepOne :
    Lists shared (World.sweepOne upcId w (upcId m.data.task, m.addr)).objects n u ∧
      (World.sweepOne upcId w (upcId m.data.task, m.addr)).board.tasksByUnit u = some n.addr := by
  obtain ⟨hl', hnot⟩ := lists_turn hC hn hm hsh ha hl hb
  rw [sweepOne_node hC.index hm]
  refine ⟨hl', (rebuild_eq_some ..).mpr ?_⟩
  by_cases hne : n = m
  · subst hne
    exact Or.inl ⟨rfl, hl'.lists⟩
  · exact Or.inr ⟨fun e => hne (hC.index.node_unique hn hm e), hnot hne, hb⟩

end

lemma lists_foldl_sweepOne (hC : WControlled S w) (hs : World.Stretch upcId w es) {n : Node P M}
    (hn : n ∈ w.board.tasks) (hsh : shared n.data.task)
    (ha : LeaveAlone shared others n.data.task u) (hl : Lists shared w.objects n u)
    (hb : w.board.tasksByUnit u = some n.addr) :
    Lists shared (es.foldl (World.sweepOne upcId) w).objects n u := by
  induction es generalizing w S with
  | nil => exact hl
  | cons e es ih =>
    obtain ⟨m, hm, rfl, _⟩ := hs.head
    obtain ⟨hl', hb'⟩ := lists_sweepOne hC hn hm hsh ha hl hb
    exact ih (controlled_sweepOne hC hm) hs.tail (by rwa [sweepOne_tasks]) hl' hb'

/-- **A unit that the board gives to an ongoing task of the controller is still listed by the task
after an update, unless it dies or is not wanted any more.** -/
theorem lists_update (hC : WControlled S w) (hf : OnlyFinished w) {ds : List U} {n : Node P M}
    (hn : n ∈ w.board.tasks) (hsh : shared n.data.task)
    (ha : LeaveAlone shared others n.data.task u) (hl : Lists shared w.objects n u)
    (hb : w.board.tasksByUnit u = some n.addr) (hu : u ∉ ds) :
    n ∈ (w.update upcId ds).board.tasks ∧ Lists shared (w.update upcId ds).objects n u := by
  have hstay := hf.stays hn hsh hl.ongoing
  have hc : n ∈ (w.cleared upcId ds).board.tasks :=
    (mem_cleared_tasks hC.index ds n).mpr ⟨hn, hstay⟩
  refine ⟨(mem_update_tasks hC.index ds n).mpr ⟨hn, hstay⟩, ?_⟩
  exact lists_foldl_sweepOne (controlled_cleared hC hf ds)
    (stretch_rentries (exact_cleared hC.index ds)) hc hsh ha hl
    ((cleared_tasksByUnit hC.index ds hc u).mpr ⟨hu, hb⟩)

end TorchCraft
