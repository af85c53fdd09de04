import TorchCraft.Board.Runs

/-!
# Proxy tasks follow their targets within one update

`ProxyTask` copies the status of one task and `MultiProxyTask` combines the statuses of several.
Both look their targets up by id and keep the pointer once they have found it.  The sweep of
`Blackboard::update` goes by descending id, so when the targets have larger ids than the proxy they
have had their turn before it.

* `Kind`, `Obj`  task objects: leaves with a state of their own, proxies, multi-proxies;
* `targets_kept`  updates find targets and never change them;
* `cancel`, `cancel_reaches`  a task is cancelled together with all that was found for it.

A leaf may read everything and writes only to itself.  The units a proxy reports are not read by
any status and are left out.
-/

set_option linter.unusedSectionVars false

namespace TorchCraft
open Lib Board List

inductive ProxyPolicy where
  | any
  | most
  | all
  deriving DecidableEq, Repr

/-! ## statuses under a policy -/

/-- the order in which `MultiProxyTask::update` tries the statuses -/
def statusOrder : List TaskStatus := [.success, .cancelled, .failure, .ongoing, .unknown]

variable (policy : TaskStatus → ProxyPolicy) (statuses : List TaskStatus)

def matchStatus
    (status : TaskStatus) : Bool :=
  match policy status with
  | .any => statuses.any fun s => decide (s = status)
  | .most => decide (statuses.length / 2 < statuses.countP fun s => decide (s = status))
  | .all => statuses.all fun s => decide (s = status)

def multiStatus : TaskStatus :=
  (statusOrder.find? (matchStatus policy statuses)).getD .unknown

def defaultPolicy : TaskStatus → ProxyPolicy
  | .unknown => .all
  | .ongoing => .any
  | .failure => .any
  | .cancelled => .all
  | .success => .all

def Holds : ProxyPolicy → TaskStatus → List TaskStatus → Prop
  | .any, status, statuses => status ∈ statuses
  | .most, status, statuses => statuses.length < 2 * statuses.count status
  | .all, status, statuses => ∀ s ∈ statuses, s = status

/-- `status` is the first in the order whose policy holds, or unknown if there is none -/
def FirstHolding
    (status : TaskStatus) : Prop :=
  (∃ before after, statusOrder = before ++ status :: after ∧
    Holds (policy status) status statuses ∧ ∀ s ∈ before, ¬ Holds (policy s) s statuses) ∨
  ((∀ s, ¬ Holds (policy s) s statuses) ∧ status = .unknown)

variable (policy : TaskStatus → ProxyPolicy) (statuses : List TaskStatus)

lemma matchStatus_iff (status : TaskStatus) :
    matchStatus policy statuses status ↔ Holds (policy status) status statuses := by
  unfold matchStatus
  cases policy status with
  | any => simp [Holds]
  | most =>
    have hcount : (statuses.countP fun s => decide (s = status)) = statuses.count status :=
      countP_congr fun s _ => by simp
    show decide (statuses.length / 2 < _) ↔ statuses.length < 2 * _
    rw [decide_eq_true_iff, hcount]
    omega
  | all => simp [Holds]

lemma mem_statusOrder (s : TaskStatus) : s ∈ statusOrder := by
  cases s <;> decide

lemma firstHolding_multiStatus : FirstHolding policy statuses (multiStatus policy statuses) := by
  unfold multiStatus
  cases hf : statusOrder.find? (matchStatus policy statuses) with
  | none =>
    refine .inr ⟨fun s hs => ?_, rfl⟩
    exact find?_eq_none.mp hf s (mem_statusOrder s) ((matchStatus_iff ..).mpr hs)
  | some status =>
    obtain ⟨hm, before, after, hsplit, hbefore⟩ := find?_eq_some_iff_append.mp hf
    refine .inl ⟨before, after, hsplit, (matchStatus_iff ..).mp hm, fun s hs hold => ?_⟩
    have hno := hbefore s hs
    rw [(matchStatus_iff ..).mpr hold] at hno
    exact absurd hno (by decide)

/-! ## task objects -/

variable {P M U L : Type} [DecidableEq P] [DecidableEq M] [DecidableEq U] {upcId : P → UpcId}

/-- what a task object is besides its status and units; a target is an id with the pointer found for
it -/
inductive Kind (P L : Type) where
  | leaf (state : L)
  | proxy (targetUpcId : UpcId) (target : Option P)
  | multi (targets : List (UpcId × Option P)) (policy : TaskStatus → ProxyPolicy)
    (defaultTargetStatus : TaskStatus)

structure Obj (P U L : Type) where
  task : Task U
  kind : Kind P L

def resolve (b : Board P M U) (t : UpcId × Option P) : Option P := t.2.or (b.taskForId t.1)

def targetStatus (h : P → Obj P U L) (defaultTargetStatus : TaskStatus) (target : Option P) :
    TaskStatus :=
  match target with
  | none => defaultTargetStatus
  | some q => (h q).task.status

def Obj.setStatus (o : Obj P U L) (status : TaskStatus) : Obj P U L :=
  { o with task := { o.task with status := status } }

def proxyUpdate (b : Board P M U) (h : P → Obj P U L) (p : P) (targetUpcId : UpcId)
    (target : Option P) : Obj P U L :=
  match resolve b (targetUpcId, target) with
  | none => h p
  | some q => ⟨((h p).setStatus (h q).task.status).task, .proxy targetUpcId (some q)⟩

/-- `MultiProxyTask::update`; its status is unknown while it reads those of its targets -/
def multiUpdate (b : Board P M U) (h : P → Obj P U L) (p : P) (targets : List (UpcId × Option P))
    (policy : TaskStatus → ProxyPolicy) (defaultTargetStatus : TaskStatus) : Obj P U L :=
  let h' := Function.update h p ((h p).setStatus .unknown)
  let statuses := targets.map fun t => targetStatus h' defaultTargetStatus (resolve b t)
  ⟨((h p).setStatus (multiStatus policy statuses)).task,
    .multi (targets.map fun t => (t.1, resolve b t)) policy defaultTargetStatus⟩

def objUpdate (leafUpdate : Board P M U → (P → Obj P U L) → P → Task U × L) (b : Board P M U)
    (h : P → Obj P U L) (p : P) : Obj P U L :=
  match (h p).kind with
  | .leaf _ => ⟨(leafUpdate b h p).1, .leaf (leafUpdate b h p).2⟩
  | .proxy targetUpcId target => proxyUpdate b h p targetUpcId target
  | .multi targets policy dflt => multiUpdate b h p targets policy dflt

@[reducible] def proxyTasks (leafUpdate : Board P M U → (P → Obj P U L) → P → Task U × L) :
    Objects P M U where
  H := P → Obj P U L
  get := fun h p => (h p).task
  update := fun b h p => Function.update h p (objUpdate leafUpdate b h p)

/-! ## targets -/

def Kind.targets : Kind P L → List (UpcId × Option P)
  | .leaf _ => []
  | .proxy targetUpcId target => [(targetUpcId, target)]
  | .multi targets _ _ => targets

/-- targets have larger ids than the proxy, and what was found for an id has it -/
def Aimed (upcId : P → UpcId) (h : P → Obj P U L) : Prop :=
  ∀ p, ∀ t ∈ (h p).kind.targets, upcId p < t.1 ∧ ∀ q, t.2 = some q → upcId q = t.1

variable {leafUpdate : Board P M U → (P → Obj P U L) → P → Task U × L}
  {w : World (proxyTasks leafUpdate)} {h : P → Obj P U L} {C C' : UpcId × Option P → Prop}
  {s : (P → Obj P U L) × List UpcId} {n : Nat} {t : UpcId × Option P}

lemma upcId_resolve {b : Board P M U} (hb : Exact upcId b) {t : UpcId × Option P}
    (ht : ∀ q, t.2 = some q → upcId q = t.1) {q : P} (h : resolve b t = some q) :
    upcId q = t.1 := by
  unfold resolve at h
  cases h2 : t.2 with
  | none =>
    rw [h2, Option.none_or] at h
    obtain ⟨n, -, -, hid⟩ := hb.taskForId_eq_some.mp h
    exact hid
  | some q' =>
    rw [h2, Option.some_or] at h
    exact ht q (h2.trans h)

/-! ## one turn -/

namespace World

lemma turn_of_ne {p q : P} (h : q ≠ p) : w.turn p q = w.heap q := by
  unfold turn
  split
  · exact Function.update_of_ne h _ _
  · rfl

lemma turn_self {p : P} (hs : (w.heap p).task.status ≠ .cancelled) :
    w.turn p p = objUpdate leafUpdate w.board w.heap p := by
  have hturn : w.turn p = Function.update w.heap p (objUpdate leafUpdate w.board w.heap p) :=
    if_pos hs
  rw [hturn, Function.update_self]

lemma turn_proxy {p : P} {id : UpcId} {target : Option P}
    (hs : (w.heap p).task.status ≠ .cancelled) (hk : (w.heap p).kind = .proxy id target) :
    (w.turn p p).kind = .proxy id (resolve w.board (id, target)) ∧
      ∀ q, resolve w.board (id, target) = some q →
        (w.turn p p).task.status = (w.heap q).task.status := by
  have hturn : w.turn p p = proxyUpdate w.board w.heap p id target := by
    rw [turn_self hs, objUpdate, hk]
  rw [hturn, proxyUpdate]
  cases hr : resolve w.board (id, target) with
  | none =>
    have htarget : target = none := by
      exact (Option.or_eq_none_iff.mp hr).1
    exact ⟨by rw [hk, htarget], nofun⟩
  | some q =>
    refine ⟨rfl, fun q' hq' => ?_⟩
    cases hq'
    rfl

lemma turn_multi {p : P} {targets : List (UpcId × Option P)}
    {policy : TaskStatus → ProxyPolicy} {dflt : TaskStatus}
    (hs : (w.heap p).task.status ≠ .cancelled)
    (hk : (w.heap p).kind = .multi targets policy dflt)
    (hne : ∀ t ∈ targets, resolve w.board t ≠ some p) :
    (w.turn p p).kind =
        .multi (targets.map fun t => (t.1, resolve w.board t)) policy dflt ∧
      (w.turn p p).task.status = multiStatus policy
        (targets.map fun t => targetStatus w.heap dflt (resolve w.board t)) := by
  have hturn : w.turn p p = multiUpdate w.board w.heap p targets policy dflt := by
    rw [turn_self hs, objUpdate, hk]
  rw [hturn]
  refine ⟨rfl, congrArg (multiStatus policy) (map_congr_left fun t ht => ?_)⟩
  cases hr : resolve w.board t with
  | none => rfl
  | some q =>
    have hqp : q ≠ p := fun h => hne t ht (hr.trans (congrArg some h))
    show (Function.update w.heap p _ q).task.status = (w.heap q).task.status
    rw [Function.update_of_ne hqp]

/-! ## the turn of a task within the sweep -/

lemma foldl_sweepOne_heap (hb : Exact upcId w.board) {es : List (UpcId × Iter)}
    (hs : Stretch upcId w es) {q : P} (hq : upcId q ∉ es.map Prod.fst) :
    (es.foldl (sweepOne upcId) w).heap q = w.heap q := by
  induction es generalizing w with
  | nil => rfl
  | cons e es ih =>
    obtain ⟨n, hn, rfl, -⟩ := hs.head
    rw [map_cons, mem_cons, not_or] at hq
    rw [foldl_cons, ih (exact_sweepOne hb _) hs.tail hq.2, sweepOne_node hb hn]
    exact turn_of_ne fun h => hq.1 (congrArg upcId h)

lemma Stretch.append {es es' : List (UpcId × Iter)} (h : Stretch upcId w (es ++ es')) :
    Stretch upcId w es ∧ Stretch upcId (es.foldl (sweepOne upcId) w) es' := by
  have hnodup := h.once
  rw [map_append, nodup_append] at hnodup
  refine ⟨⟨fun e he => h.live e (mem_append_left _ he), hnodup.1⟩, ?_, hnodup.2.1⟩
  intro e he
  rw [foldl_sweepOne_tasks]
  exact h.live e (mem_append_right _ he)

variable (es : List (UpcId × Iter)) {h₀ : P → Obj P U L}

@[simp] lemma foldl_sweepOne_tasksById (w : World (proxyTasks leafUpdate)) :
    (es.foldl (sweepOne upcId) w).board.tasksById = w.board.tasksById := by
  induction es generalizing w with
  | nil => rfl
  | cons e es ih =>
    rw [foldl_cons, ih]
    unfold sweepOne
    split <;> rfl

lemma taskForId_foldl (upcId : P → UpcId) (es : List (UpcId × Iter))
    (w : World (proxyTasks leafUpdate)) (id : UpcId) :
    (es.foldl (sweepOne upcId) w).board.taskForId id = w.board.taskForId id := by
  unfold Board.taskForId Board.deref
  rw [foldl_sweepOne_tasksById, foldl_sweepOne_tasks]

/-- the state `w₁` in which the task of `n` has its turn, and what the whole update leaves of it -/
structure Turn (upcId : P → UpcId) (w w₁ w' : World (proxyTasks leafUpdate)) (n : Node P M) :
    Prop where
  exact : Exact upcId w₁.board
  before : w₁.heap n.data.task = w.heap n.data.task
  after : w'.heap n.data.task = w₁.turn n.data.task n.data.task
  /-- tasks with larger ids have had their turn or have none -/
  larger : ∀ q, upcId n.data.task < upcId q → w'.heap q = w₁.heap q
  last : w'.board.lastStatusOfTask (upcId n.data.task) = (w'.heap n.data.task).task.status
  found : ∀ id, w₁.board.taskForId id = w'.board.taskForId id

lemma exists_turn (hb : Exact upcId w.board) (ds : List U) {n : Node P M}
    (hn : n ∈ (w.update upcId ds).board.tasks) : ∃ w₁, Turn upcId w w₁ (w.update upcId ds) n := by
  have hc := exact_cleared hb ds
  rw [update_eq, foldl_sweepOne_tasks] at hn
  rw [update_eq]
  obtain ⟨pre, post, hsplit⟩ := append_of_mem (mem_rentries_node hc hn)
  have hsorted := OrdMap.rentries_sorted (w.cleared upcId ds).board.tasksById
  have hstretch := stretch_rentries hc
  rw [hsplit] at hsorted hstretch ⊢
  obtain ⟨hpre, hrest⟩ := hstretch.append
  obtain ⟨-, hpost, hcross⟩ := pairwise_append.mp hsorted
  obtain ⟨hafter, -⟩ := pairwise_cons.mp hpost
  rw [foldl_append, foldl_cons]
  set w₁ := pre.foldl (sweepOne upcId) (w.cleared upcId ds) with hw₁
  have hb₁ : Exact upcId w₁.board := exact_foldl_sweepOne pre hc
  have hn₁ : n ∈ w₁.board.tasks := by rw [hw₁, foldl_sweepOne_tasks]; exact hn
  have hb₂ := exact_sweepOne (O := proxyTasks leafUpdate) hb₁ (upcId n.data.task, n.addr)
  have hsmall : ∀ q, upcId n.data.task ≤ upcId q → upcId q ∉ post.map Prod.fst := by
    intro q hq hmem
    obtain ⟨e, he, heq⟩ := mem_map.mp hmem
    exact absurd (hafter e he) (not_lt.mpr (heq ▸ hq))
  have hheap : ∀ q, upcId n.data.task ≤ upcId q →
      (post.foldl (sweepOne upcId) (sweepOne upcId w₁ (upcId n.data.task, n.addr))).heap q =
        w₁.turn n.data.task q := by
    intro q hq
    rw [foldl_sweepOne_heap hb₂ hrest.tail (hsmall q hq), sweepOne_node hb₁ hn₁]
  refine ⟨w₁, hb₁, ?_, hheap _ (le_refl _), fun q hq => ?_, ?_, fun id => ?_⟩
  · refine foldl_sweepOne_heap hc hpre fun hmem => ?_
    obtain ⟨e, he, heq⟩ := mem_map.mp hmem
    have := hcross e he _ (mem_cons_self ..)
    exact absurd this (by rw [heq]; exact lt_irrefl _)
  · rw [hheap q (le_of_lt hq)]
    exact turn_of_ne fun h => absurd hq (by rw [h]; exact lt_irrefl _)
  · rw [lastStatusOfTask_foldl hb₂ hrest.tail (hsmall _ (le_refl _)), hheap _ (le_refl _),
      sweepOne_node hb₁ hn₁]
    exact (lastStatusOfTask_record ..).trans (if_pos rfl)
  · have h1 := taskForId_foldl upcId post
      (sweepOne upcId w₁ (upcId n.data.task, n.addr)) id
    have h2 := taskForId_foldl upcId [(upcId n.data.task, n.addr)] w₁ id
    exact (h1.trans h2).symm

/-! ## targets stay what they are -/

lemma targets_objUpdate (b : Board P M U) (h : P → Obj P U L) (p : P) :
    (objUpdate leafUpdate b h p).kind.targets = (h p).kind.targets ∨
    (objUpdate leafUpdate b h p).kind.targets =
      (h p).kind.targets.map fun t => (t.1, resolve b t) := by
  unfold objUpdate
  cases hk : (h p).kind with
  | leaf s => exact .inl rfl
  | proxy id target =>
    simp only [proxyUpdate]
    split
    · exact .inl (by rw [hk])
    next q hq => exact .inr (by simp only [Kind.targets, map_cons, map_nil, hq])
  | multi targets policy dflt => exact .inr rfl

structure Follows (upcId : P → UpcId) (h₀ h : P → Obj P U L) : Prop where
  aimed : Aimed upcId h
  ids : ∀ p, (h p).kind.targets.map Prod.fst = (h₀ p).kind.targets.map Prod.fst
  found : ∀ p, ∀ t ∈ (h₀ p).kind.targets, t.2.isSome → t ∈ (h p).kind.targets

lemma follows_turn (hb : Exact upcId w.board) (hf : Follows upcId h₀ w.heap) (p : P) :
    Follows upcId h₀ (w.turn p) := by
  have htargets : ∀ q, (w.turn p q).kind.targets = (w.heap q).kind.targets ∨
      (w.turn p q).kind.targets = (w.heap q).kind.targets.map fun t => (t.1, resolve w.board t) := by
    intro q
    by_cases hqp : q = p
    · subst hqp
      by_cases hs : (w.heap q).task.status = .cancelled
      · have hturn : w.turn q = w.heap := if_neg (not_not.mpr hs)
        exact .inl (by rw [hturn])
      · rw [turn_self hs]
        exact targets_objUpdate ..
    · exact .inl (by rw [turn_of_ne hqp])
  refine ⟨fun q t ht => ?_, fun q => ?_, fun q t ht hsome => ?_⟩
  · rcases htargets q with h | h
    · exact hf.aimed q t (h ▸ ht)
    · rw [h] at ht
      obtain ⟨t', ht', rfl⟩ := mem_map.mp ht
      obtain ⟨hlt, hid⟩ := hf.aimed q t' ht'
      exact ⟨hlt, fun r hr => upcId_resolve hb hid hr⟩
  · rw [← hf.ids q]
    rcases htargets q with h | h <;> simp [h]
  · have hmem := hf.found q t ht hsome
    rcases htargets q with h | h
    · exact h ▸ hmem
    · rw [h]
      obtain ⟨r, hr⟩ := Option.isSome_iff_exists.mp hsome
      refine mem_map.mpr ⟨t, hmem, Prod.ext rfl ?_⟩
      show t.2.or _ = t.2
      rw [hr, Option.some_or]

lemma follows_foldl (hb : Exact upcId w.board) (hs : Stretch upcId w es)
    (hf : Follows upcId h₀ w.heap) : Follows upcId h₀ (es.foldl (sweepOne upcId) w).heap := by
  induction es generalizing w with
  | nil => exact hf
  | cons e es ih =>
    obtain ⟨n, hn, rfl, -⟩ := hs.head
    refine ih (exact_sweepOne hb _) hs.tail ?_
    rw [sweepOne_node hb hn]
    exact follows_turn hb hf n.data.task

/-- **Targets are fixed once they are found**: after any updates they have the ids that they had, a
pointer that was found is there, and pointers are those of tasks with the ids. -/
theorem targets_kept (hb : Exact upcId w.board) (ha : Aimed upcId w.heap) (dss : List (List U)) :
    Exact upcId (dss.foldl (World.update upcId) w).board ∧
      Follows upcId w.heap (dss.foldl (World.update upcId) w).heap := by
  have hstart : Follows upcId w.heap w.heap := ⟨ha, fun _ => rfl, fun _ _ ht _ => ht⟩
  refine foldlRecOn (motive := fun w' : World (proxyTasks leafUpdate) =>
      Exact upcId w'.board ∧ Follows upcId w.heap w'.heap) dss _ ⟨hb, hstart⟩ fun w' h ds _ => ?_
  have hc := exact_cleared h.1 ds
  exact ⟨exact_update h.1 ds, follows_foldl _ hc (stretch_rentries hc) h.2⟩

end World

/-- **After one update every proxy has the status its targets have now**, and the board remembers
it: a proxy the status of its target, a multi-proxy the first status whose policy holds. -/
theorem proxies_current {w : World (proxyTasks leafUpdate)} (hb : Exact upcId w.board)
    (ha : Aimed upcId w.heap) (ds : List U) {n : Node P M}
    (hn : n ∈ (w.update upcId ds).board.tasks) :
    let w' := w.update upcId ds
    let p := n.data.task
    w'.board.lastStatusOfTask (upcId p) = (w'.heap p).task.status ∧
    ((w.heap p).task.status ≠ .cancelled →
      (∀ id target, (w.heap p).kind = .proxy id target →
        (w'.heap p).kind = .proxy id (resolve w'.board (id, target)) ∧
        ∀ q, resolve w'.board (id, target) = some q →
          (w'.heap p).task.status = (w'.heap q).task.status) ∧
      ∀ targets policy dflt, (w.heap p).kind = .multi targets policy dflt →
        (w'.heap p).kind = .multi (targets.map fun t => (t.1, resolve w'.board t)) policy dflt ∧
        FirstHolding policy
          (targets.map fun t => targetStatus w'.heap dflt (resolve w'.board t))
          (w'.heap p).task.status) := by
  intro w' p
  obtain ⟨w₁, ht⟩ := World.exists_turn hb ds hn
  have hresolve : ∀ t, resolve w₁.board t = resolve w'.board t := fun t =>
    congrArg t.2.or (ht.found t.1)
  refine ⟨ht.last, fun hs => ⟨fun id target hk => ?_, fun targets policy dflt hk => ?_⟩⟩
  · have haim := ha p (id, target) (by rw [hk]; exact mem_singleton_self _)
    rw [← ht.before] at hs hk
    obtain ⟨hkind, hstatus⟩ := World.turn_proxy hs hk
    rw [ht.after, ← hresolve]
    refine ⟨hkind, fun q hq => ?_⟩
    have hlt : upcId p < upcId q := by
      rw [upcId_resolve ht.exact haim.2 hq]
      exact haim.1
    rw [ht.larger q hlt]
    exact hstatus q hq
  · have haim : ∀ t ∈ targets, ∀ q, resolve w₁.board t = some q → upcId p < upcId q := by
      intro t htm q hq
      obtain ⟨hlt, hid⟩ := ha p t (by rw [hk]; exact htm)
      rw [upcId_resolve ht.exact hid hq]
      exact hlt
    rw [← ht.before] at hs hk
    obtain ⟨hkind, hstatus⟩ := World.turn_multi hs hk
      fun t htm hq => lt_irrefl _ (haim t htm p hq)
    have hmap : (targets.map fun t => targetStatus w'.heap dflt (resolve w'.board t)) =
        targets.map fun t => targetStatus w₁.heap dflt (resolve w₁.board t) := by
      refine map_congr_left fun t htm => ?_
      rw [← hresolve]
      cases hq : resolve w₁.board t with
      | none => rfl
      | some q => exact congrArg (fun o => o.task.status) (ht.larger q (haim t htm q hq))
    rw [ht.after, hstatus, hmap]
    refine ⟨?_, firstHolding_multiStatus policy _⟩
    rw [hkind]
    exact congrArg (fun l => Kind.multi l policy dflt)
      (map_congr_left fun t _ => by rw [hresolve])

/-! ## cancelling -/

/-- `Task::cancel`; a multi-proxy takes the targets it has not found for cancelled, too -/
def Obj.cancelled (o : Obj P U L) : Obj P U L where
  task := (o.setStatus .cancelled).task
  kind := match o.kind with
    | .multi targets policy _ => .multi targets policy .cancelled
    | kind => kind

def Kind.handsOn : Kind P L → Bool
  | .proxy _ (some _) => true
  | _ => false

/-- `cancel` of the task found for an id, or `removeUPCs` of the id; at most `n` calls deep, with
the removed ids -/
def cancel : Nat → (P → Obj P U L) × List UpcId → UpcId × Option P → (P → Obj P U L) × List UpcId
  | 0, s, _ => s
  | _ + 1, s, (id, none) => (s.1, s.2 ++ [id])
  | n + 1, s, (_, some p) =>
    let s' := (s.1 p).kind.targets.foldl (cancel n) s
    if (s.1 p).kind.handsOn then s' else (Function.update s'.1 p (s'.1 p).cancelled, s'.2)

abbrev Calls (h : P → Obj P U L) : UpcId × Option P → UpcId × Option P → Prop :=
  Relation.ReflTransGen fun t t' => ∃ p, t.2 = some p ∧ t' ∈ (h p).kind.targets

/-- the heap and the removed ids after the calls `C` -/
structure After (h : P → Obj P U L) (C : UpcId × Option P → Prop)
    (s : (P → Obj P U L) × List UpcId) : Prop where
  cancelled : ∀ p id, C (id, some p) → (h p).kind.handsOn = false → s.1 p = (h p).cancelled
  kept : ∀ p, (∀ id, C (id, some p) → (h p).kind.handsOn) → s.1 p = h p
  removed : ∀ id, id ∈ s.2 ↔ C (id, none)

lemma After.obj (hs : After h C s) (p : P) : s.1 p = h p ∨ s.1 p = (h p).cancelled := by
  by_cases hp : ∀ id, C (id, some p) → (h p).kind.handsOn
  · exact .inl (hs.kept p hp)
  · push Not at hp
    obtain ⟨id, hC, hk⟩ := hp
    exact .inr (hs.cancelled p id hC (Bool.not_eq_true _ ▸ hk))

lemma cancelled_kind (o : Obj P U L) : o.cancelled.kind.targets = o.kind.targets ∧
    o.cancelled.kind.handsOn = o.kind.handsOn ∧ o.cancelled.cancelled = o.cancelled := by
  obtain ⟨t, k⟩ := o
  cases k <;> exact ⟨rfl, rfl, rfl⟩

lemma calls_iff {t' : UpcId × Option P} : Calls h t t' ↔
    t' = t ∨ ∃ p, t.2 = some p ∧ ∃ t₁ ∈ (h p).kind.targets, Calls h t₁ t' := by
  refine Relation.ReflTransGen.cases_head_iff.trans (or_congr eq_comm ?_)
  constructor
  · rintro ⟨t₁, ⟨p, hp, hmem⟩, hc⟩
    exact ⟨p, hp, t₁, hmem, hc⟩
  · rintro ⟨p, hp, t₁, hmem, hc⟩
    exact ⟨t₁, ⟨p, hp, hmem⟩, hc⟩

lemma After.congr (hs : After h C s) (hC : ∀ t, C' t ↔ C t) : After h C' s := by
  rwa [funext fun t => propext (hC t)]

lemma After.self (hs : After h C s) (id : UpcId) (p : P) :
    After h (fun t => C t ∨ t = (id, some p)) (if (h p).kind.handsOn then s
      else (Function.update s.1 p (s.1 p).cancelled, s.2)) := by
  have htwice : (s.1 p).cancelled = (h p).cancelled := by
    rcases hs.obj p with hp | hp
    · rw [hp]
    · rw [hp, (cancelled_kind _).2.2]
  split
  next hk =>
    refine ⟨fun q i hC hq => hs.cancelled q i ?_ hq, fun q hq => hs.kept q fun i hi => hq i (.inl hi),
      fun i => ?_⟩
    · grind
    · simp [hs.removed]
  next hk =>
    refine ⟨fun q i hC hq => ?_, fun q hq => ?_, fun i => ?_⟩
    · have := hs.cancelled q i
      grind [Function.update_apply]
    · have := hs.kept q
      have := hq id
      grind [Function.update_apply]
    · simp [hs.removed]

lemma cancel_after (ha : Aimed upcId h) {N : Int}
    (hN : ∀ p, ∀ t ∈ (h p).kind.targets, t.1 < N) (ht : t.1 < N)
    (hid : ∀ p, t.2 = some p → upcId p = t.1) (hn : N - t.1 ≤ n) (hs : After h C s) :
    After h (fun t' => C t' ∨ Calls h t t') (cancel n s t) := by
  induction n generalizing t s C with
  | zero =>
    have hlt := Int.add_one_le_of_lt ht
    omega
  | succ n ih =>
    obtain ⟨id, _ | p⟩ := t
    · refine ⟨fun p i hC => hs.cancelled p i ?_, fun p hC => hs.kept p fun i hi => hC i (.inl hi),
        fun i => ?_⟩
      · exact hC.resolve_right fun hc => by simpa using calls_iff.mp hc
      · rw [calls_iff, cancel, mem_append, hs.removed]
        simp
    · have hloop : ∀ ts ⊆ (h p).kind.targets, ∀ {s C}, After h C s →
          After h (fun t' => C t' ∨ ∃ t ∈ ts, Calls h t t') (ts.foldl (cancel n) s) := by
        intro ts
        induction ts with
        | nil => exact fun _ _ _ hs => hs.congr (by simp)
        | cons t ts ihts =>
          intro hts s C hs
          obtain ⟨hmem, hrest⟩ := cons_subset.mp hts
          obtain ⟨hlt, hown⟩ := ha p t hmem
          have hle := Int.add_one_le_of_lt (hid p rfl ▸ hlt)
          refine (ihts hrest (ih (hN p t hmem) hown ?_ hs)).congr (by simp [or_assoc])
          omega
      have hkind : (s.1 p).kind.targets = (h p).kind.targets ∧
          (s.1 p).kind.handsOn = (h p).kind.handsOn := by
        rcases hs.obj p with hp | hp
        · rw [hp]
          exact ⟨rfl, rfl⟩
        · rw [hp]
          exact ⟨(cancelled_kind _).1, (cancelled_kind _).2.1⟩
      rw [cancel, hkind.1, hkind.2]
      refine ((hloop _ (Subset.refl _) hs).self id p).congr fun t' => ?_
      rw [calls_iff]
      simp only [Option.some.injEq, exists_eq_left', or_assoc]
      exact or_congr_right or_comm

/-- **Cancelling reaches everything behind a proxy, and nothing else**: the tasks that were found,
directly or through other proxies, are cancelled, and the UPCs without a task are removed. -/
theorem cancel_reaches (ha : Aimed upcId h) {N : Int} (hN : ∀ p, ∀ t ∈ (h p).kind.targets, t.1 < N)
    {p : P} (hp : upcId p < N) (hn : N - upcId p ≤ n) :
    After h (Calls h (upcId p, some p)) (cancel n (h, []) (upcId p, some p)) := by
  have hstart : After h (fun _ => False) (h, []) := ⟨nofun, fun _ _ => rfl, by simp⟩
  exact (cancel_after ha hN hp (fun q hq => by cases hq; rfl) hn hstart).congr (by simp)

def nested : Bool → Obj Bool Nat PUnit
  | false => ⟨{}, .proxy 1 (some true)⟩
  | true => ⟨{}, .multi [(2, none)] defaultPolicy .unknown⟩

theorem cancel_reaches_nested :
    After nested (Calls nested (0, some false)) (cancel 3 (nested, []) (0, some false)) :=
  have ha : Aimed (fun p : Bool => (p.toNat : UpcId)) nested := by
    unfold Aimed
    decide
  cancel_reaches ha (N := 3) (p := false) (by decide) (by decide) (by decide)

/-! ## a board with a chain of proxies -/

def idle (_ : Board Nat Nat Nat) (h : Nat → Obj Nat Nat Unit) (p : Nat) : Task Nat × Unit :=
  ((h p).task, ())

def chained : Nat → Obj Nat Nat Unit
  | 1 => ⟨{}, .proxy 2 none⟩
  | 2 => ⟨{}, .multi [(3, none), (4, none)] defaultPolicy .unknown⟩
  | 3 => ⟨{ status := .success }, .leaf ()⟩
  | _ => ⟨{}, .leaf ()⟩

lemma aimed_chained : Aimed (fun p : Nat => (p : Int)) chained := by
  intro p t ht
  match p, ht with
  | 0, ht => nomatch ht
  | 1, ht =>
    obtain rfl := mem_singleton.mp ht
    exact ⟨by decide, nofun⟩
  | 2, ht =>
    rcases mem_cons.mp ht with rfl | ht
    · exact ⟨by decide, nofun⟩
    · obtain rfl := mem_singleton.mp ht
      exact ⟨by decide, nofun⟩
  | 3, ht => nomatch ht
  | p + 4, ht => nomatch ht

def chainedWorld : World (proxyTasks idle) :=
  (boardSys (fun p : Nat => (p : Int)) (proxyTasks idle)).out ⟨Board.empty, chained⟩
    [.postTask 0 1 0 false, .postTask 0 2 0 false, .postTask 0 3 0 false, .postTask 0 4 0 false]

lemma exact_chainedWorld : Exact (fun p : Nat => (p : Int)) chainedWorld.board :=
  boardSys_exact _ exact_empty _ ⟨trivial, trivial, trivial, trivial, trivial⟩

theorem proxies_current_chained :
    (⟨1, ⟨1, 0, false, 0⟩⟩ : Node Nat Nat) ∈
        (chainedWorld.update (fun p : Nat => (p : Int)) []).board.tasks ∧
      (chainedWorld.update (fun p : Nat => (p : Int)) []).board.lastStatusOfTask 1 =
        ((chainedWorld.update (fun p : Nat => (p : Int)) []).heap 1).task.status := by
  have hmem : (⟨1, ⟨1, 0, false, 0⟩⟩ : Node Nat Nat) ∈
      (chainedWorld.update (fun p : Nat => (p : Int)) []).board.tasks := mem_cons_self ..
  exact ⟨hmem, (proxies_current exact_chainedWorld aimed_chained [] hmem).1⟩

theorem targets_kept_chained :
    Exact (fun p : Nat => (p : Int))
      ([[], [7], []].foldl (World.update fun p : Nat => (p : Int)) chainedWorld).board ∧
    World.Follows (fun p : Nat => (p : Int)) chainedWorld.heap
      ([[], [7], []].foldl (World.update fun p : Nat => (p : Int)) chainedWorld).heap :=
  World.targets_kept exact_chainedWorld aimed_chained [[], [7], []]

/-- no policy of the constructor holds of success and unknown -/
theorem no_policy_holds :
    (∀ s, ¬ Holds (defaultPolicy s) s [.success, .unknown]) ∧
      ((chainedWorld.update (fun p : Nat => (p : Int)) []).heap 2).task.status = .unknown ∧
      [3, 4].map (fun p => ((chainedWorld.update (fun p : Nat => (p : Int)) []).heap p).task.status) =
        [.success, .unknown] := by
  refine ⟨fun s => ?_, rfl, rfl⟩
  cases s <;> simp [Holds, defaultPolicy]

end TorchCraft
