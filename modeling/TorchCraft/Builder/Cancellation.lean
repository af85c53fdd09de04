import TorchCraft.Builder.Runs

/-!
# Cancelling a build task

The controller of a build task is shared by the original task and the tasks of the units it grabbed,
but it asks one task only, the last one made, whether it has been cancelled.  Another task of the
controller that is cancelled does not halt it.
-/

namespace TorchCraft.Builder
open Lib

variable {U B M : Type} [DecidableEq U] [DecidableEq M]

/-- a controller with a task on the board has succeeded, has failed, or the task of its `upcId_` is
on the board and cancelled; and some task of it on the board is finished -/
def Decided (this : M) (c : TaskPtr) (s : State U B M) : Prop :=
  (∃ p ∈ s.board.tasksOfModule this, s.controller p = some c) →
    s.halted c = true ∧ ∃ p ∈ s.board.tasksOfModule this, s.controller p = some c ∧
      s.finished p = true

instance (this : M) (c : TaskPtr) (s : State U B M) : Decidable (Decided this c s) :=
  inferInstanceAs (Decidable (_ → _))

/-- steps of the module after the cancellation of the original task find the controller decided -/
def Op.Clean (this : M) (c : TaskPtr) (s : State U B M) : Op U B M → Prop
  | .step _ => (s.tasks c).status = .cancelled → Decided this c s
  | _ => True

instance (this : M) (c : TaskPtr) (s : State U B M) : (o : Op U B M) → Decidable (o.Clean this c s)
  | .step _ => inferInstanceAs (Decidable (_ → _))
  | .update .. | .cancel _ | .postUPC .. | .consumeUPC _ | .postTask .. | .writeOthers _ =>
    isTrue trivial

/-- the runs that meet the condition for the controller `c` -/
def cancelSys (T : BuildTypes B) (this : M) (others : OtherTasks U B M) (c : TaskPtr) :
    Sys (State U B M) (Op U B M) where
  run := Op.run T this others
  ok := fun s o => o.Ok T this s ∧ o.Clean this c s

instance (T : BuildTypes B) (this : M) (others : OtherTasks U B M) (c : TaskPtr)
    (s : State U B M) (o : Op U B M) : Decidable ((cancelSys T this others c).ok s o) :=
  inferInstanceAs (Decidable (_ ∧ _))

variable {this : M} {c : TaskPtr} {s s' : State U B M} {T : BuildTypes B} {others : OtherTasks U B M}

/-- **A step of the module that finds the controller decided posts nothing for it and leaves all its
tasks finished.** -/
theorem step_decided (hI : Inv this s) (hc : s.controller c = some c) (hdec : Decided this c s)
    {i : StepInput U} (ho : (Op.step i : Op U B M).Ok T this s) :
    Still c s ((Op.step i).run T this others s) ∧
      ∀ p, ((Op.step i).run T this others s).controller p = some c →
        ((Op.step i).run T this others s).finished p := by
  obtain ⟨s₁, h₁, hperm, h₂⟩ := step_ok others ho
  generalize (Op.step i).run T this others s = s' at h₂ ⊢
  obtain ⟨hI₁, hq₁⟩ := takeUpcs_spec hI h₁
  have hq := hq₁ c hc
  -- the tasks of `c` that are visited were on the board before the step
  have hmem : ∀ p, s.controller p = some c →
      (p ∈ i.tasks ↔ p ∈ s.board.tasksOfModule this) := by
    intro p hp
    rw [hperm.mem_iff, hI₁.index.mem_tasksOfModule, hI.index.mem_tasksOfModule]
    constructor
    · rintro ⟨n, hn, rfl, ho⟩
      exact ⟨n, (hq.nodes n hp).mp hn, rfl, ho⟩
    · rintro ⟨n, hn, rfl, ho⟩
      exact ⟨n, (hq.nodes n hp).mpr hn, rfl, ho⟩
  obtain ⟨-, hvisit⟩ := visitAll_spec hI₁ h₂
  obtain ⟨hq₂, hall⟩ := hvisit c ((hq.tasks c).mpr hc) fun v hv hvc => by
    have hvc' := (hq.tasks v).mp hvc
    exact hq.halted hI hI₁ hc (hdec ⟨v, (hmem v hvc').mp hv, hvc'⟩).1
  have hstill := (hq.trans hq₂).toStill
  refine ⟨hstill, fun p hp => ?_⟩
  have hp₀ := (hstill.tasks p).mp hp
  cases hf : s.finished p with
  | true => exact hstill.finished hp₀ hf
  | false =>
    -- an unfinished task is on the board, so the controller is stepped
    obtain ⟨n, hn, hnp, hno⟩ := hI.live p c hp₀ hf
    have hon : p ∈ s.board.tasksOfModule this := hI.index.mem_tasksOfModule.mpr ⟨n, hn, hnp, hno⟩
    obtain ⟨-, v, hv, hvc, hvf⟩ := hdec ⟨p, hon, hp₀⟩
    refine hall ⟨v, (hmem v hvc).mpr hv, (hq.tasks v).mpr hvc, hq.finished hvc hvf⟩ p ?_ hp
    exact (hmem p hp₀).mpr hon

lemma still_out (hI : Inv this s) (hc : s.controller c = some c)
    (hcan : (s.tasks c).status = .cancelled) (os : List (Op U B M))
    (hl : (cancelSys T this others c).Legal s os) :
    Still c s ((cancelSys T this others c).out s os) ∧
      (os.any Op.isStep → ∀ p, ((cancelSys T this others c).out s os).controller p = some c →
        ((cancelSys T this others c).out s os).finished p) := by
  induction os generalizing s with
  | nil => exact ⟨Still.refl c s, nofun⟩
  | cons o os ih =>
    obtain ⟨⟨hok, hclean⟩, hl⟩ := hl
    rw [Sys.out_cons]
    change (cancelSys T this others c).Legal (o.run T this others s) os at hl
    change Still c s ((cancelSys T this others c).out (o.run T this others s) os) ∧
      (_ → ∀ p, ((cancelSys T this others c).out (o.run T this others s) os).controller p = _ →
        ((cancelSys T this others c).out (o.run T this others s) os).finished p)
    obtain ⟨hstill, hfin⟩ : Still c s (o.run T this others s) ∧ (o.isStep →
        ∀ p, (o.run T this others s).controller p = some c →
          (o.run T this others s).finished p) := by
      cases ho : o.isStep with
      | false => exact ⟨still_run hI T ho c, nofun⟩
      | true =>
        cases o with
        | step i =>
          obtain ⟨h₁, h₂⟩ := step_decided hI hc (hclean hcan) hok
          exact ⟨h₁, fun _ => h₂⟩
        | _ => nomatch ho
    have hI₁ : Inv this (o.run T this others s) := inv_run hI o hok
    have hfc : s.finished c := by
      unfold State.finished
      rw [hcan]
      rfl
    obtain ⟨hstill₂, hfin₂⟩ := ih hI₁ ((hstill.tasks c).mpr hc)
      ((hstill.settled c hc hfc).trans hcan) hl
    refine ⟨hstill.trans hstill₂, fun hany p hp => ?_⟩
    rw [List.any_cons, Bool.or_eq_true] at hany
    rcases hany with ho | hos
    · have hp₁ := (hstill₂.tasks p).mp hp
      exact hstill₂.finished hp₁ (hfin ho p hp₁)
    · exact hfin₂ hos p hp

/-- **Once the original task of a controller is cancelled, no step posts anything for the
controller, no task of it is made, and a step of the module finishes all its tasks**, if the steps
after the cancellation find the controller decided. -/
theorem cancelled_stays (T : BuildTypes B) (this : M) (others : OtherTasks U B M)
    (ctrls : TaskPtr → Ctrl U B) (filters : List (UPCTuple U B → M → Option (UPCTuple U B)))
    (hf : ∀ u, ((start ctrls filters).upcs.filter (.grab u) this).isSome = true) (c : TaskPtr)
    (os os' : List (Op U B M))
    (hl : (cancelSys T this others c).Legal (start ctrls filters) (os ++ os')) :
    let s := (cancelSys T this others c).out (start ctrls filters) os
    let s' := (cancelSys T this others c).out (start ctrls filters) (os ++ os')
    s.controller c = some c → (s.tasks c).status = .cancelled →
      s'.postsOf c = s.postsOf c ∧
      (∀ p, s'.controller p = some c ↔ s.controller p = some c) ∧
      (os'.any Op.isStep = true → ∀ p, s'.controller p = some c → s'.finished p = true) := by
  intro s s' hc hcan
  obtain ⟨hl₁, hl₂⟩ := ((cancelSys T this others c).legal_append _ os os').mp hl
  have hI : Inv this s := (cancelSys T this others c).invariant (Inv this)
    (fun _ o hI ho => inv_run hI o ho.1) _ (inv_start ctrls hf) os hl₁
  obtain ⟨hstill, hfin⟩ := still_out hI hc hcan os' hl₂
  have hs' : s' = (cancelSys T this others c).out s os' := Sys.out_append ..
  rw [hs']
  exact ⟨hstill.posts, hstill.tasks, hfin⟩

/-! ## a controller with one grabbed unit -/

def produced : BuildTypes Unit := ⟨fun _ => false, fun _ => true, fun _ => false⟩

def idle : OtherTasks Nat Unit Nat := ⟨fun _ h _ => h.tasks, fun _ _ _ => []⟩

def noController : TaskPtr → Ctrl Nat Unit := fun _ => { type := () }

/-- the module `0` makes task `1` and grabs unit `10` with task `2`; its Create UPC is consumed -/
def grabbed : List (Op Nat Unit Nat) :=
  [.postUPC 1 { command := [(.create, 1)], createType := some ((), 1) } 0 1,
    .step ⟨1, [⟨1, 0⟩], fun _ => { found := some 10 }⟩,
    .consumeUPC 3]

def bothCancelled : List (Op Nat Unit Nat) := grabbed ++ [.cancel ⟨2, 1⟩, .cancel ⟨1, 0⟩]

def builderLost : List (Op Nat Unit Nat) :=
  grabbed ++ [.update [10] (fun u => decide (u = 10)) (fun _ => true), .cancel ⟨1, 0⟩]

def nextStep : Op Nat Unit Nat :=
  .step ⟨10, [⟨1, 0⟩, ⟨2, 1⟩], fun _ => { trackerStatus := .timeout, found := some 11 }⟩

theorem cancelled_stays_both :
    let s := (cancelSys produced 0 idle ⟨1, 0⟩).out (start noController []) bothCancelled
    let s' := (cancelSys produced 0 idle ⟨1, 0⟩).out (start noController [])
      (bothCancelled ++ [nextStep])
    s'.postsOf ⟨1, 0⟩ = s.postsOf ⟨1, 0⟩ ∧ s'.finished ⟨2, 1⟩ = true := by
  obtain ⟨hposts, htasks, hfin⟩ := cancelled_stays produced 0 idle noController [] (fun _ => rfl)
    ⟨1, 0⟩ bothCancelled [nextStep] (by decide +kernel) (by decide +kernel) (by decide +kernel)
  exact ⟨hposts, hfin rfl ⟨2, 1⟩ ((htasks ⟨2, 1⟩).mpr (by decide +kernel))⟩

/-- the controller remembers the task of a unit, grabs another one after the cancellation and posts
its Create UPC -/
theorem posts_after_cancel :
    (builderSys produced 0 idle).Legal (start noController []) (builderLost ++ [nextStep]) ∧
    let s := (builderSys produced 0 idle).out (start noController []) builderLost
    let s' := (builderSys produced 0 idle).out (start noController []) (builderLost ++ [nextStep])
    s.controller ⟨1, 0⟩ = some ⟨1, 0⟩ ∧ (s.tasks ⟨1, 0⟩).status = .cancelled ∧
      s'.postsOf ⟨1, 0⟩ = s.postsOf ⟨1, 0⟩ ++ [.upc ⟨1, 0⟩ (.grab 11), .task ⟨1, 0⟩ ⟨4, 2⟩,
        .upc ⟨1, 0⟩ (.sharpType 11 (0, 0) .create ())] ∧
      s'.controller ⟨4, 2⟩ = some ⟨1, 0⟩ ∧ s'.finished ⟨4, 2⟩ = false := by
  refine ⟨?_, ?_, ?_, ?_, ?_, ?_⟩
  · decide +kernel
  · decide +kernel
  · decide +kernel
  · decide +kernel
  · decide +kernel
  · decide +kernel

end TorchCraft.Builder
