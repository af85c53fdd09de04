import Mathlib.Algebra.GroupWithZero.Nat
import Mathlib.Data.List.Induction
import TorchCraft.Lib.Sys
import TorchCraft.Trainer.Model

/-!
# The evaluator

An evaluator plays batches of `batchSize_` episodes and averages their rewards.  It counts the
episodes it has started by hand.

* `update`  the average of a batch, or one of the two fatal errors;
* `Play`, `evaluatorSys`  the calls, in any order, with the episodes that finished since the last
  evaluation or reset;
* `Even`  the count is right and the finished episodes are stored.
-/

set_option linter.unusedSectionVars false

namespace TorchCraft.Training
open Lib Lib.Nested
open List

/-! ## the evaluator -/

variable (G K R : Type) [LinearOrder G] [LinearOrder K] [Inhabited K] [Zero R] [Add R] [Div R]
  [NatCast R]

/-- a frame is its reward -/
structure Evaluator where
  trainer : Trainer G K R := {}
  gamesStarted_ : Nat := 0
  newGames_ : List (G × K) := []

inductive Evaluation where
  | notReady
  | mean (reward : R)
  | fatal (text : String)
  deriving DecidableEq

variable {G K R}

namespace Evaluator
variable (batchSize_ : Nat) (v : Evaluator G K R)

/-- with `stepEpisode`, which notes the finished episode -/
def step (e : G × K) (reward : R) (isDone : Bool) : Evaluator G K R × Option (List R) :=
  let (trainer, call) := v.trainer.step e.1 e.2 reward isDone
  ({ v with trainer, newGames_ := v.newGames_ ++ call.toList.map fun _ => e }, call)

/-- a call that times out returns an empty handle -/
def startEpisode (uid : G) : Evaluator G K R × Option (G × K) :=
  if v.gamesStarted_ < batchSize_ then
    ({ v with trainer := v.trainer.startEpisode uid, gamesStarted_ := v.gamesStarted_ + 1 },
      some (uid, default))
  else (v, none)

def forceStopEpisode (e : G × K) : Evaluator G K R :=
  { v with
    trainer := v.trainer.forceStopEpisode e.1 e.2
    gamesStarted_ :=
      if v.trainer.isActive e.1 e.2 = true ∧ 0 < v.gamesStarted_ then v.gamesStarted_ - 1
      else v.gamesStarted_ }

def reset (order : List (G × K)) : Evaluator G K R :=
  { v with trainer := v.trainer.reset order, gamesStarted_ := 0 }

def take (sum : R) (v : Evaluator G K R) : R × Evaluator G K R :=
  match v.newGames_.getLast? with
  | none => (sum, v)
  | some e =>
    let (episode, replayer) := v.trainer.replayer_.get e.1 e.2
    (episode.foldl (· + ·) sum,
      { v with
        trainer := { v.trainer with replayer_ := replayer }
        newGames_ := v.newGames_.dropLast })

def takeAll : Nat → R → Evaluator G K R → R × Evaluator G K R
  | 0, sum, v => (sum, v)
  | n + 1, sum, v =>
    let (sum, v) := take sum v
    takeAll n sum v

def update : Evaluation R × Evaluator G K R :=
  if v.newGames_.length < batchSize_ then (.notReady, v)
  else if batchSize_ < v.gamesStarted_ then
    (.fatal ("We have too many games playing/played gamesStarted_ = " ++ toString v.gamesStarted_), v)
  else
    let (sum, v) := takeAll batchSize_ 0 v
    if v.trainer.actives_.entries ≠ [] then
      (.fatal "Somehow we have games at the end of the evaluation!", v)
    else
      (.mean (sum / batchSize_),
        { trainer := { v.trainer with replayer_ := v.trainer.replayer_.clear }
          gamesStarted_ := 0
          newGames_ := [] })

end Evaluator

/-! ## runs -/

variable (G K R)

structure Play where
  evaluator : Evaluator G K R := {}
  crashed : Bool := false
  /-- the ids that `genGameUID` returned -/
  uids : List G := []
  /-- the episodes that finished since the last successful `update` or the last `reset` -/
  finished : List ((G × K) × List R) := []

inductive EvaluatorOp where
  | startEpisode (uid : G)
  | step (e : G × K) (reward : R) (isDone : Bool)
  | forceStopEpisode (e : G × K)
  | update
  | reset (order : List (G × K))

variable {G K R} {batchSize_ : Nat} {p : Play G K R}

def Play.step (p : Play G K R) (e : G × K) (reward : R) (isDone : Bool) : Play G K R :=
  let (evaluator, call) := p.evaluator.step e reward isDone
  { p with evaluator, finished := p.finished ++ call.toList.map (e, ·) }

def Play.update (batchSize_ : Nat) (p : Play G K R) : Play G K R :=
  match p.evaluator.update batchSize_ with
  | (.notReady, evaluator) => { p with evaluator }
  | (.mean _, evaluator) => { p with evaluator, finished := [] }
  | (.fatal _, evaluator) => { p with evaluator, crashed := true }

def EvaluatorOp.run (batchSize_ : Nat) (p : Play G K R) : EvaluatorOp G K R → Play G K R
  | .startEpisode uid =>
    { p with
      evaluator := (p.evaluator.startEpisode batchSize_ uid).1
      uids := uid :: p.uids }
  | .step e reward isDone => p.step e reward isDone
  | .forceStopEpisode e => { p with evaluator := p.evaluator.forceStopEpisode e }
  | .update => p.update batchSize_
  | .reset order => { p with evaluator := p.evaluator.reset order, finished := [] }

/-- ids are new, and the copy of the active episodes is iterated in some order -/
def EvaluatorOp.Ok (p : Play G K R) : EvaluatorOp G K R → Prop
  | .startEpisode uid => uid ∉ p.uids
  | .reset order => order.Perm (pairs p.evaluator.trainer.actives_)
  | _ => True

/-- a reset between two batches: no finished episode waits for its evaluation -/
def EvaluatorOp.Between (p : Play G K R) : EvaluatorOp G K R → Prop
  | .reset _ => p.evaluator.newGames_ = []
  | _ => True

instance EvaluatorOp.decidableOk (p : Play G K R) : ∀ o : EvaluatorOp G K R, Decidable (o.Ok p)
  | .startEpisode _ => inferInstanceAs (Decidable (_ ∉ _))
  | .step _ _ _ | .forceStopEpisode _ | .update => inferInstanceAs (Decidable True)
  | .reset _ => inferInstanceAs (Decidable (List.Perm _ _))

instance EvaluatorOp.decidableBetween (p : Play G K R) :
    ∀ o : EvaluatorOp G K R, Decidable (o.Between p)
  | .startEpisode _ | .step _ _ _ | .forceStopEpisode _ | .update =>
    inferInstanceAs (Decidable True)
  | .reset _ => inferInstanceAs (Decidable (_ = _))

def evaluatorSys (G K R : Type) [LinearOrder G] [LinearOrder K] [Inhabited K] [Zero R] [Add R]
    [Div R] [NatCast R] (batchSize_ : Nat) : Sys (Play G K R) (EvaluatorOp G K R) where
  run p o := o.run batchSize_ p
  ok p o := p.crashed = false ∧ o.Ok p

def betweenSys (G K R : Type) [LinearOrder G] [LinearOrder K] [Inhabited K] [Zero R] [Add R]
    [Div R] [NatCast R] (batchSize_ : Nat) : Sys (Play G K R) (EvaluatorOp G K R) where
  run := (evaluatorSys G K R batchSize_).run
  ok p o := (evaluatorSys G K R batchSize_).ok p o ∧ o.Between p

instance evaluatorSys_decidable (n : Nat) (p : Play G K R) (o : EvaluatorOp G K R) :
    Decidable ((evaluatorSys G K R n).ok p o) := inferInstanceAs (Decidable (_ ∧ _))

instance betweenSys_decidable (n : Nat) (p : Play G K R) (o : EvaluatorOp G K R) :
    Decidable ((betweenSys G K R n).ok p o) := inferInstanceAs (Decidable (_ ∧ _))

/-! ## the count -/

structure Even (batchSize_ : Nat) (p : Play G K R) : Prop where
  running : p.crashed = false
  count : p.evaluator.gamesStarted_
    = (pairs p.evaluator.trainer.actives_).length + p.evaluator.newGames_.length
  bound : p.evaluator.gamesStarted_ ≤ batchSize_
  filled : Filled p.evaluator.trainer.actives_
  games : p.evaluator.newGames_ = p.finished.map Prod.fst
  stored : ∀ c ∈ p.finished,
    find₂ p.evaluator.trainer.replayer_.storage_ c.1.1 c.1.2 = some c.2
  ended : ∀ c ∈ p.finished, p.evaluator.trainer.isActive c.1.1 c.1.2 = false
  active_known : ∀ e ∈ pairs p.evaluator.trainer.actives_, e.1 ∈ p.uids
  finished_known : ∀ c ∈ p.finished, c.1.1 ∈ p.uids

def total (finished : List ((G × K) × List R)) : R :=
  finished.reverse.foldl (fun sum c => c.2.foldl (· + ·) sum) 0

lemma even_new : Even batchSize_ ({} : Play G K R) where
  running := rfl
  count := rfl
  bound := Nat.zero_le _
  filled := filled_empty
  games := rfl
  stored := nofun
  ended := nofun
  active_known := nofun
  finished_known := nofun

lemma Even.ne (h : Even batchSize_ p) {e : G × K}
    (hact : p.evaluator.trainer.isActive e.1 e.2) {c : (G × K) × List R}
    (hc : c ∈ p.finished) : c.1 ≠ e := by
  rintro rfl
  rw [h.ended c hc] at hact
  cases hact

lemma even_start (h : Even batchSize_ p) {uid : G} (hnew : uid ∉ p.uids) :
    Even batchSize_ { p with
      evaluator := (p.evaluator.startEpisode batchSize_ uid).1
      uids := uid :: p.uids } := by
  have hknown : ∀ e ∈ pairs p.evaluator.trainer.actives_, e.1 ∈ uid :: p.uids :=
    fun e he => mem_cons_of_mem _ (h.active_known e he)
  have hfinished : ∀ c ∈ p.finished, c.1.1 ∈ uid :: p.uids :=
    fun c hc => mem_cons_of_mem _ (h.finished_known c hc)
  unfold Evaluator.startEpisode
  split
  next hlt =>
    have hnone : find₂ p.evaluator.trainer.actives_ uid default = none := by
      refine Option.not_isSome_iff_eq_none.mp fun hs => hnew ?_
      exact h.active_known (uid, default) (mem_pairs.mpr hs)
    have hpairs := pairs_put hnone ()
    refine ⟨h.running, ?_, hlt, filled_put h.filled uid default (), h.games, h.stored, ?_, ?_,
      hfinished⟩
    · show p.evaluator.gamesStarted_ + 1
        = (pairs (put _ _ _ _)).length + p.evaluator.newGames_.length
      rw [hpairs.length_eq, length_cons, h.count]
      omega
    · intro c hc
      have hne : ¬(c.1.1 = uid ∧ c.1.2 = default) :=
        fun heq => hnew (heq.1 ▸ h.finished_known c hc)
      show (find₂ (put _ _ _ _) _ _).isSome = false
      rw [find₂_put, if_neg hne]
      exact h.ended c hc
    · intro e he
      rcases mem_cons.mp (hpairs.subset he) with rfl | he
      · exact mem_cons_self ..
      · exact hknown e he
  · exact ⟨h.running, h.count, h.bound, h.filled, h.games, h.stored, h.ended, hknown, hfinished⟩

lemma step_of_not_active {e : G × K} (h : ¬p.evaluator.trainer.isActive e.1 e.2)
    (reward : R) (isDone : Bool) : p.step e reward isDone = p := by
  unfold Play.step Evaluator.step
  rw [Trainer.step_inactive h]
  simp

section
variable (h : Even batchSize_ p)
include h

lemma even_frame (e : G × K) (reward : R) : Even batchSize_ (p.step e reward false) := by
  by_cases hact : p.evaluator.trainer.isActive e.1 e.2
  · have hcall : (p.evaluator.trainer.step e.1 e.2 reward false).2 = none := by
      rw [Trainer.step_frame hact]
    have hactives := actives_frame (t := p.evaluator.trainer) (e := e) reward
    unfold Play.step Evaluator.step
    dsimp only
    rw [hcall, Option.toList_none, map_nil, map_nil, append_nil, append_nil]
    refine ⟨h.running, ?_, h.bound, ?_, h.games, fun c hc => ?_, fun c hc => ?_, ?_,
      h.finished_known⟩
    · rw [hactives]
      exact h.count
    · rw [hactives]
      exact h.filled
    · rw [stored_step (h.ne hact hc)]
      exact h.stored c hc
    · show (find₂ _ _ _).isSome = false
      rw [hactives]
      exact h.ended c hc
    · rw [hactives]
      exact h.active_known
  · rw [step_of_not_active hact]
    exact h

lemma even_last (e : G × K) (reward : R) : Even batchSize_ (p.step e reward true) := by
  by_cases hact : p.evaluator.trainer.isActive e.1 e.2
  · have hpairs := pairs_drop hact
    have hmem : e ∈ pairs p.evaluator.trainer.actives_ := mem_pairs.mpr hact
    unfold Play.step Evaluator.step
    rw [Trainer.step_last hact]
    dsimp only [Option.toList_some, map_cons, map_nil]
    refine ⟨h.running, ?_, h.bound, filled_drop h.filled e.1 e.2, ?_, fun c hc => ?_,
      fun c hc => ?_, fun e' he' => ?_,
      forall_mem_append.mpr ⟨h.finished_known, forall_mem_singleton.mpr (h.active_known e hmem)⟩⟩
    · have hcount := h.count
      rw [hpairs.length_eq, length_cons] at hcount
      show p.evaluator.gamesStarted_ = (pairs (drop _ _ _)).length + (_ ++ [e]).length
      rw [length_append, length_singleton, hcount]
      omega
    · rw [map_append, ← h.games]
      rfl
    · show find₂ (put _ _ _ _) _ _ = _
      rcases mem_append.mp hc with hc | hc
      · rw [find₂_put, if_neg (keys_ne (h.ne hact hc))]
        exact h.stored c hc
      · rw [mem_singleton.mp hc, find₂_put, if_pos ⟨rfl, rfl⟩]
    · show (find₂ (drop _ _ _) _ _).isSome = false
      rw [find₂_drop]
      split
      · rfl
      next hne =>
        rcases mem_append.mp hc with hc | hc
        · exact h.ended c hc
        · rw [mem_singleton.mp hc] at hne
          exact absurd ⟨rfl, rfl⟩ hne
    · exact h.active_known e' (hpairs.symm.subset (mem_cons_of_mem _ he'))
  · rw [step_of_not_active hact]
    exact h

lemma even_stop (e : G × K) :
    Even batchSize_ { p with evaluator := p.evaluator.forceStopEpisode e } := by
  unfold Evaluator.forceStopEpisode
  by_cases hact : p.evaluator.trainer.isActive e.1 e.2
  · have hpairs := pairs_drop hact
    have hcount := h.count
    rw [hpairs.length_eq, length_cons] at hcount
    have hpos : 0 < p.evaluator.gamesStarted_ := by omega
    have hactives := actives_stop hact
    rw [if_pos ⟨hact, hpos⟩]
    refine ⟨h.running, ?_, ?_, ?_, h.games, fun c hc => ?_, fun c hc => ?_, fun e' he' => ?_,
      h.finished_known⟩
    · show p.evaluator.gamesStarted_ - 1 = _
      rw [hactives]
      dsimp only
      omega
    · have hbound := h.bound
      show p.evaluator.gamesStarted_ - 1 ≤ batchSize_
      omega
    · rw [hactives]
      exact filled_drop h.filled e.1 e.2
    · rw [stored_stop (h.ne hact hc)]
      exact h.stored c hc
    · show (find₂ _ _ _).isSome = false
      rw [hactives, find₂_drop, if_neg (keys_ne (h.ne hact hc))]
      exact h.ended c hc
    · rw [hactives] at he'
      exact h.active_known e' (hpairs.symm.subset (mem_cons_of_mem _ he'))
  · rw [if_neg fun hc => hact hc.1, stop_of_inactive hact]
    exact h

lemma even_reset (order : List (G × K)) (hbetween : p.evaluator.newGames_ = []) :
    Even batchSize_ { p with evaluator := p.evaluator.reset order, finished := [] } := by
  refine ⟨h.running, ?_, Nat.zero_le _, filled_empty, ?_, nofun, nofun, nofun, nofun⟩
  · show 0 = 0 + p.evaluator.newGames_.length
    rw [hbetween]
    rfl
  · exact hbetween

end

lemma takeAll_finished {finished : List ((G × K) × List R)} {v : Evaluator G K R} (sum : R)
    (hgames : v.newGames_ = finished.map Prod.fst)
    (hstored : ∀ c ∈ finished, find₂ v.trainer.replayer_.storage_ c.1.1 c.1.2 = some c.2) :
    Evaluator.takeAll finished.length sum v
      = (finished.reverse.foldl (fun sum c => c.2.foldl (· + ·) sum) sum,
          { v with newGames_ := [] }) := by
  induction finished using reverseRecOn generalizing sum v with
  | nil =>
    have hnil : v.newGames_ = [] := hgames
    show (sum, v) = (sum, { v with newGames_ := [] })
    rw [← hnil]
  | append_singleton rest c ih =>
    have htake : Evaluator.take sum v
        = (c.2.foldl (· + ·) sum, { v with newGames_ := rest.map Prod.fst }) := by
      have hc := hstored c (mem_append_right _ (mem_singleton_self c))
      unfold Evaluator.take ReplayBuffer.get
      rw [hgames, map_append, map_singleton, getLast?_concat, dropLast_concat]
      dsimp only
      rw [hc]
    rw [length_append, length_singleton, Evaluator.takeAll, htake]
    have hrest := ih (v := { v with newGames_ := rest.map Prod.fst }) (c.2.foldl (· + ·) sum) rfl
      fun c hc => hstored c (mem_append_left _ hc)
    rw [reverse_append]
    exact hrest

/-- **An evaluation takes the whole batch.** -/
theorem update_even (h : Even batchSize_ p) :
    (p.evaluator.newGames_.length < batchSize_ ∧
      p.evaluator.update batchSize_ = (.notReady, p.evaluator)) ∨
    (p.finished.length = batchSize_ ∧ pairs p.evaluator.trainer.actives_ = [] ∧
      p.evaluator.update batchSize_ = (.mean (total p.finished / batchSize_),
          { trainer := { p.evaluator.trainer with replayer_ := {} } })) := by
  unfold Evaluator.update
  by_cases hlt : p.evaluator.newGames_.length < batchSize_
  · exact .inl ⟨hlt, if_pos hlt⟩
  · right
    have hcount := h.count
    have hbound := h.bound
    have hnone : pairs p.evaluator.trainer.actives_ = [] :=
      length_eq_zero_iff.mp (by omega)
    have hentries := entries_of_pairs h.filled hnone
    have hlen : p.finished.length = batchSize_ := by
      have hgames := congrArg List.length h.games
      rw [length_map] at hgames
      omega
    have htake := takeAll_finished 0 h.games h.stored
    rw [hlen] at htake
    rw [if_neg hlt, if_neg (Nat.not_lt.mpr h.bound), htake]
    dsimp only
    rw [if_neg (not_not.mpr hentries)]
    exact ⟨hlen, hnone, rfl⟩

lemma even_update (h : Even batchSize_ p) : Even batchSize_ (p.update batchSize_) := by
  unfold Play.update
  rcases update_even h with ⟨-, hu⟩ | ⟨-, hnone, hu⟩
  · rw [hu]
    exact h
  · rw [hu]
    refine ⟨h.running, ?_, Nat.zero_le _, h.filled, rfl, nofun, nofun, ?_, nofun⟩
    · show 0 = (pairs p.evaluator.trainer.actives_).length + 0
      rw [hnone]
      rfl
    · show ∀ e ∈ pairs p.evaluator.trainer.actives_, _
      rw [hnone]
      exact nofun

lemma even_step (h : Even batchSize_ p) (o : EvaluatorOp G K R)
    (ho : (betweenSys G K R batchSize_).ok p o) :
    Even batchSize_ ((betweenSys G K R batchSize_).run p o) := by
  cases o with
  | startEpisode uid => exact even_start h ho.1.2
  | step e reward isDone =>
    cases isDone with
    | true => exact even_last h e reward
    | false => exact even_frame h e reward
  | forceStopEpisode e => exact even_stop h e
  | update => exact even_update h
  | reset order => exact even_reset h order ho.2

/-- **Evaluations are exact.**  In a run that resets only between batches an average is that of the
`batchSize_` episodes that finished since the last average or reset. -/
theorem evaluations_exact (batchSize_ : Nat) (os : List (EvaluatorOp G K R))
    (hl : (betweenSys G K R batchSize_).Legal {} os) :
    let p := (betweenSys G K R batchSize_).out {} os
    (∀ text, (p.evaluator.update batchSize_).1 ≠ .fatal text) ∧
    p.evaluator.gamesStarted_
      = (pairs p.evaluator.trainer.actives_).length + p.finished.length ∧
    p.evaluator.newGames_ = p.finished.map Prod.fst ∧
    ∀ reward, (p.evaluator.update batchSize_).1 = .mean reward →
      p.finished.length = batchSize_ ∧ reward = total p.finished / batchSize_ := by
  intro p
  have h : Even batchSize_ p :=
    (betweenSys G K R batchSize_).invariant (Even batchSize_) (fun _ o hp ho => even_step hp o ho) _
      even_new os hl
  have hcount := h.count
  rw [h.games, length_map] at hcount
  rcases update_even h with ⟨-, hu⟩ | ⟨hlen, -, hu⟩
  · rw [hu]
    exact ⟨nofun, hcount, h.games, nofun⟩
  · rw [hu]
    refine ⟨nofun, hcount, h.games, fun reward hr => ⟨hlen, ?_⟩⟩
    cases hr
    rfl

def batchOfTwo : List (EvaluatorOp Nat Nat Nat) :=
  [.reset [], .startEpisode 7, .startEpisode 8, .step (7, 0) 3 false, .forceStopEpisode (8, 0),
    .step (7, 0) 4 true, .startEpisode 9, .step (9, 0) 5 true]

theorem evaluations_exact_two :
    ((betweenSys Nat Nat Nat 2).Legal {} batchOfTwo ∧
      (((betweenSys Nat Nat Nat 2).out {} batchOfTwo).evaluator.update 2).1 = .mean 6) ∧
    ((betweenSys Nat Nat Nat 2).out {} batchOfTwo).finished.length = 2 ∧
      6 = total ((betweenSys Nat Nat Nat 2).out {} batchOfTwo).finished / 2 :=
  ⟨by decide +kernel, (evaluations_exact 2 batchOfTwo (by decide +kernel)).2.2.2 6
    (by decide +kernel)⟩

/-- after a reset the next evaluation takes the old game while the new one is still being played -/
theorem reset_miscounts :
    ((evaluatorSys Nat Nat Nat 1).Legal {}
        [.startEpisode 7, .step (7, 0) 3 true, .reset [], .startEpisode 8] ∧
      ((evaluatorSys Nat Nat Nat 1).out {}
        [.startEpisode 7, .step (7, 0) 3 true, .reset []]).evaluator.gamesStarted_ = 0 ∧
      ((evaluatorSys Nat Nat Nat 1).out {}
        [.startEpisode 7, .step (7, 0) 3 true, .reset []]).evaluator.newGames_ = [(7, 0)]) ∧
    (((evaluatorSys Nat Nat Nat 1).out {}
        [.startEpisode 7, .step (7, 0) 3 true, .reset [], .startEpisode 8]).evaluator.update 1).1
      = .fatal "Somehow we have games at the end of the evaluation!" := by
  decide +kernel

end TorchCraft.Training
