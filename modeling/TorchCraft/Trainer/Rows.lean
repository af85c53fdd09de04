import TorchCraft.Lib.Pool
import TorchCraft.Trainer.Central

/-!
# The rows of the buffer pool

A central trainer that serves continuously keeps the frames of an episode in a row of a pool from
`startEpisode` to `forceStopEpisode`.

* `BufferPool.Ok`  the two maps of the pool are inverse, and there are as many ids as rows in use.
-/

namespace TorchCraft.Training
open Lib Lib.OrdMap Lib.Nested Option
open List
open CentralTrainer

variable {G K F : Type} [LinearOrder G] [LinearOrder K]

/-! ## the pool -/

structure BufferPool.Ok (b : BufferPool G F) : Prop where
  rows : b.pool_.length = b.poolToId_.length
  inverse : ∀ id i, b.idToPool_.find id = some i ↔ b.poolToId_[i]? = some (some id)
  size : b.idToPool_.entries.length = b.poolToId_.countP isSome

section pool
variable {b : BufferPool G F} {id : G}

lemma ok_new : ({} : BufferPool G F).Ok where
  rows := rfl
  inverse id i := ⟨fun h => (by cases h), fun h => (by cases h)⟩
  size := rfl

lemma BufferPool.Ok.size_le (h : b.Ok) : b.idToPool_.entries.length ≤ b.pool_.length := by
  rw [h.size, h.rows]
  exact countP_le_length

lemma inverse_assign {rows : List (Option G)} {i : Nat} (h : b.Ok) (hid : b.idToPool_.find id = none)
    (hi : rows[i]? = some (some id))
    (hrows : ∀ j, j ≠ i → ∀ id', rows[j]? = some (some id') ↔ b.poolToId_[j]? = some (some id'))
    (hfree : ∀ id', b.poolToId_[i]? ≠ some (some id')) (id' : G) (j : Nat) :
    (b.idToPool_.assign id i).find id' = some j ↔ rows[j]? = some (some id') := by
  rw [find_assign]
  by_cases hid' : id' = id
  · subst hid'
    rw [if_pos rfl]
    constructor
    · intro h
      cases h
      exact hi
    · intro hj
      by_contra hne
      have hj' := (hrows j (fun h => hne (congrArg some h.symm)) id').mp hj
      rw [(h.inverse id' j).mpr hj'] at hid
      cases hid
  · rw [if_neg hid', h.inverse id' j]
    by_cases hj : j = i
    · subst hj
      rw [hi]
      exact ⟨fun h => absurd h (hfree id'),
        fun h => absurd (some.inj (some.inj h)).symm hid'⟩
    · exact (hrows j hj id').symm

lemma exists_free (h : b.Ok) (hne : b.idToPool_.entries.length ≠ b.pool_.length) :
    ∃ i, b.poolToId_.findIdx? isNone = some i ∧ b.poolToId_[i]? = some none := by
  cases hfind : b.poolToId_.findIdx? isNone with
  | none =>
    have hall : ∀ r ∈ b.poolToId_, r.isSome := by
      intro r hr
      have hnone := findIdx?_eq_none_iff.mp hfind r hr
      cases r with
      | none => cases hnone
      | some id => rfl
    rw [h.size, h.rows, countP_eq_length.mpr hall] at hne
    exact absurd rfl hne
  | some i =>
    obtain ⟨hi, hnone, -⟩ := findIdx?_eq_some_iff_getElem.mp hfind
    refine ⟨i, rfl, ?_⟩
    rw [getElem?_eq_getElem hi, isNone_iff_eq_none.mp hnone]

lemma ok_add (h : b.Ok) (hid : b.idToPool_.find id = none) :
    ∃ b' i, b.add id = .ok b' ∧ b'.Ok ∧ b'.idToPool_ = b.idToPool_.assign id i := by
  have hlen (i : Nat) : (b.idToPool_.assign id i).entries.length = b.idToPool_.entries.length + 1 :=
    (entries_assign hid i).length_eq
  unfold BufferPool.add
  by_cases hfull : b.idToPool_.entries.length = b.pool_.length
  · rw [if_pos hfull]
    refine ⟨_, _, rfl, ⟨?_, fun id' j => ?_, ?_⟩, rfl⟩
    · show (b.pool_ ++ [[]]).length = (b.poolToId_ ++ [some id]).length
      rw [length_append, length_append, h.rows]
      rfl
    · refine inverse_assign h hid getElem?_concat_length (fun j hj id' => ?_) (fun id' => ?_) id' j
      · rcases Nat.lt_or_gt_of_ne hj with hlt | hgt
        · rw [getElem?_append_left hlt]
        · rw [getElem?_eq_none (l := b.poolToId_ ++ [some id])
            (by rw [length_append, length_singleton]; omega),
            getElem?_eq_none (l := b.poolToId_) hgt.le]
      · rw [getElem?_eq_none (Nat.le_refl _)]
        exact fun h => by cases h
    · show (b.idToPool_.assign id _).entries.length = (b.poolToId_ ++ [some id]).countP isSome
      rw [hlen, h.size, countP_append]
      rfl
  · rw [if_neg hfull]
    obtain ⟨i, hfind, hi⟩ := exists_free h hfull
    rw [hfind]
    refine ⟨_, i, rfl, ⟨?_, fun id' j => ?_, ?_⟩, rfl⟩
    · show b.pool_.length = (b.poolToId_.set i (some id)).length
      rw [length_set, h.rows]
    · refine inverse_assign h hid ?_ (fun j hj id' => ?_) (fun id' => ?_) id' j
      · exact getElem?_set_self (List.getElem?_eq_some_iff.mp hi).1
      · rw [getElem?_set_ne (Ne.symm hj)]
      · rw [hi]
        exact fun h => by cases h
    · show (b.idToPool_.assign id i).entries.length = (b.poolToId_.set i (some id)).countP isSome
      rw [hlen, h.size, Pool.countP_add hi rfl rfl]

lemma ok_free (h : b.Ok) {i : Nat} (hid : b.idToPool_.find id = some i) :
    ∃ b', b.free id = .ok b' ∧ b'.Ok ∧ b'.idToPool_ = b.idToPool_.erase id := by
  have hi := (h.inverse id i).mp hid
  unfold BufferPool.free
  rw [hid]
  refine ⟨_, rfl, ⟨?_, fun id' j => ?_, ?_⟩, rfl⟩
  · show b.pool_.length = (b.poolToId_.set i none).length
    rw [length_set, h.rows]
  · show (b.idToPool_.erase id).find id' = some j ↔ (b.poolToId_.set i none)[j]? = some (some id')
    rw [find_erase]
    by_cases hj : j = i
    · subst hj
      rw [getElem?_set_self (List.getElem?_eq_some_iff.mp hi).1]
      refine ⟨fun hfind => ?_, fun hrow => by cases hrow⟩
      split at hfind
      · cases hfind
      next hne =>
        rw [h.inverse id' j, hi] at hfind
        exact absurd (some.inj (some.inj hfind)).symm hne
    · rw [getElem?_set_ne (Ne.symm hj)]
      by_cases hid' : id' = id
      · subst hid'
        rw [if_pos rfl]
        refine ⟨fun hfind => (by cases hfind), fun hrow => ?_⟩
        rw [(h.inverse id' j).mpr hrow] at hid
        exact absurd (some.inj hid) hj
      · rw [if_neg hid', h.inverse id' j]
  · have hlen := (entries_erase hid).length_eq
    have hcount := Pool.countP_remove (p := isSome) (b := none) hi rfl rfl
    show (b.idToPool_.erase id).entries.length = (b.poolToId_.set i none).countP isSome
    rw [length_cons, h.size, hcount] at hlen
    exact (Nat.succ.inj hlen).symm

lemma free_unknown (hid : b.idToPool_.find id = none) : b.free id = .error .noSuchId := by
  unfold BufferPool.free
  rw [hid]

end pool

/-! ## the trainer -/

variable [Inhabited K] {S : Settings}

section trainer
variable {c : CentralTrainer G K F} (randId : K) (accepted : Bool)

/-- the same ids and rows; only what is in the rows may differ -/
def SameRows (b b' : BufferPool G F) : Prop :=
  b.pool_.length = b'.pool_.length ∧ b.poolToId_ = b'.poolToId_ ∧ b.idToPool_ = b'.idToPool_

lemma SameRows.refl (b : BufferPool G F) : SameRows b b := ⟨rfl, rfl, rfl⟩

lemma SameRows.ok {b b' : BufferPool G F} (h : SameRows b' b) (hb : b.Ok) : b'.Ok := by
  obtain ⟨hpool, hrows, hids⟩ := h
  refine ⟨by rw [hpool, hrows, hb.rows], ?_, by rw [hrows, hids, hb.size]⟩
  rw [hrows, hids]
  exact hb.inverse

lemma send_bufferPool (gameId : G) (key : K) (ep : List F) :
    (c.send gameId key ep accepted).bufferPool_ = c.bufferPool_ ∧
      (c.send gameId key ep accepted).actives_ = c.actives_ := by
  unfold send
  split <;> exact ⟨rfl, rfl⟩

lemma stepFrame_rows (hS : S.serveContinuously) {gameId : G} {i : Nat}
    (hid : c.bufferPool_.idToPool_.find gameId = some i) (k : K) (episode : List F) :
    let r := c.stepFrame S gameId k episode randId accepted
    SameRows r.1.bufferPool_ c.bufferPool_ ∧ r.1.actives_ = c.actives_ ∧
      (r.2 = none ∨ r.2 = some .episodic) := by
  have hwrite (ep : List F) : SameRows { c.bufferPool_ with pool_ := c.bufferPool_.pool_.set i ep }
      c.bufferPool_ := ⟨length_set, rfl, rfl⟩
  have hget : c.bufferPool_.get gameId = .ok i := by
    unfold BufferPool.get
    rw [hid]
  unfold stepFrame
  rw [if_pos hS]
  split
  · exact ⟨.refl _, rfl, .inr rfl⟩
  · rw [hget]
    dsimp only
    split
    · refine ⟨?_, (send_bufferPool ..).2, .inl rfl⟩
      rw [(send_bufferPool ..).1]
      exact hwrite _
    · exact ⟨hwrite _, rfl, .inl rfl⟩

/-- **A frame of an episode with a row changes nothing but what is in the row.** -/
theorem step_rows (hS : S.serveContinuously) {uid : G}
    (hreg : c.isActive uid default → (c.bufferPool_.idToPool_.find uid).isSome) (v : F)
    (isDone : Bool) :
    let r := c.step S uid default v isDone randId accepted
    SameRows r.1.bufferPool_ c.bufferPool_ ∧
      (∀ g, r.1.isActive g default → c.isActive g default) ∧
      (r.2 = none ∨ r.2 = some .episodic) := by
  by_cases hactive : c.isActive uid default
  · obtain ⟨i, hi⟩ := isSome_iff_exists.mp (hreg hactive)
    have hframe := stepFrame_rows randId accepted
      (c := { c with replayer_ := (c.replayer_.append uid default v isDone).2 }) hS hi
        default (c.replayer_.append uid default v isDone).1
    rw [step_of_active hactive]
    generalize stepFrame S
      { c with replayer_ := (c.replayer_.append uid default v isDone).2 } uid default
      (c.replayer_.append uid default v isDone).1 randId accepted = r at hframe ⊢
    obtain ⟨c', fault⟩ := r
    obtain ⟨hrows, hactives, hfault⟩ := hframe
    have hsame : ∀ g, c'.isActive g default → c.isActive g default := by
      intro g hg
      unfold Trainer.isActive at hg ⊢
      rwa [hactives] at hg
    cases fault with
    | some fault => exact ⟨hrows, hsame, hfault⟩
    | none =>
      cases isDone with
      | false => exact ⟨hrows, hsame, .inl rfl⟩
      | true =>
        obtain ⟨hpool, hended⟩ := ended_frame (S := S) (c := c') uid default
        refine ⟨?_, fun g hg => hsame g ?_, .inl rfl⟩
        · show SameRows (c'.ended S uid default).bufferPool_ c.bufferPool_
          rw [hpool]
          exact hrows
        · have hg : (find₂ (c'.ended S uid default).actives_ g default).isSome := hg
          rw [hended, find₂_drop] at hg
          split at hg
          · cases hg
          · exact hg
  · rw [CentralTrainer.step_of_inactive hactive]
    exact ⟨.refl _, fun _ h => h, .inl rfl⟩

end trainer

/-! ## the trainer and its users -/

/-- an episode has a row from its start until it is stopped for the first time -/
structure Pooled (w : CentralWorld G K F) : Prop where
  pool : w.trainer.bufferPool_.Ok
  rows : ∀ g, (w.trainer.bufferPool_.idToPool_.find g).isSome = true ↔
    g ∈ w.uids ∧ (g, default) ∉ w.stops
  active : ∀ g, w.trainer.isActive g default = true →
    (w.trainer.bufferPool_.idToPool_.find g).isSome = true
  handles : ∀ h e, w.handles h = some e → e.1 ∈ w.uids ∧ e.2 = default
  owner : ∀ h h' e, w.handles h = some e → w.handles h' = some e → h = h'
  stopped : ∀ e ∈ w.stops, e.1 ∈ w.uids
  twice : Fault.noSuchId ∈ w.faults ↔ ¬w.stops.Nodup
  others : ∀ fault ∈ w.faults, fault = .noSuchId ∨ fault = .episodic

section pooled
variable {w : CentralWorld G K F}

lemma pooled_new : Pooled ({} : CentralWorld G K F) where
  pool := ok_new
  rows g := ⟨fun h => (by cases h), fun h => absurd h.1 List.not_mem_nil⟩
  active g h := by cases h
  handles h e he := by cases he
  owner h h' e he := by cases he
  stopped e he := absurd he not_mem_nil
  twice := ⟨nofun, fun h => absurd nodup_nil h⟩
  others fault h := absurd h not_mem_nil

lemma Pooled.withHandles (h : Pooled w) {handles : Nat → Option (G × K)} (crashed : Bool)
    (hold : ∀ i e, handles i = some e → ∃ j, w.handles j = some e)
    (howner : ∀ i j e, handles i = some e → handles j = some e → i = j) :
    Pooled { w with handles, crashed } where
  pool := h.pool
  rows := h.rows
  active := h.active
  handles i e he := by
    obtain ⟨j, hj⟩ := hold i e he
    exact h.handles j e hj
  owner := howner
  stopped := h.stopped
  twice := h.twice
  others := h.others

section
variable (hS : S.serveContinuously = true) (h : Pooled w)
include hS h

lemma pooled_step {e : G × K} (he : e.2 = default)
    (v : F) (isDone : Bool) (randId : K) (accepted : Bool) :
    Pooled (w.step S e v isDone randId accepted) := by
  obtain ⟨uid, k⟩ := e
  obtain rfl : k = default := he
  obtain ⟨hrows, hactive, hfault⟩ := step_rows randId accepted hS (h.active uid) v isDone
  have hfaults : ∀ fault ∈ (w.trainer.step S uid default v isDone randId accepted).2.toList,
      fault = .episodic := by
    intro fault hf
    rcases hfault with hnone | hepisodic
    · rw [hnone] at hf
      cases hf
    · rw [hepisodic] at hf
      exact mem_singleton.mp hf
  have hids : (w.step S (uid, default) v isDone randId accepted).trainer.bufferPool_.idToPool_
      = w.trainer.bufferPool_.idToPool_ := hrows.2.2
  refine ⟨hrows.ok h.pool, fun g => ?_, fun g hg => ?_, h.handles, h.owner, h.stopped, ?_, ?_⟩
  · rw [hids]
    exact h.rows g
  · rw [hids]
    exact h.active g (hactive g hg)
  · refine Iff.trans ⟨fun hf => ?_, fun hf => mem_append_right _ hf⟩ h.twice
    rcases mem_append.mp hf with hf | hf
    · cases hfaults _ hf
    · exact hf
  · exact forall_mem_append.mpr ⟨fun fault hf => .inr (hfaults fault hf), h.others⟩

lemma pooled_start {uid : G} (hnew : uid ∉ w.uids)
    (handle : Nat) : Pooled (w.start S uid handle) := by
  have hnone : w.trainer.bufferPool_.idToPool_.find uid = none := by
    rw [← not_isSome_iff_eq_none, h.rows]
    exact fun hu => hnew hu.1
  obtain ⟨pool, i, hadd, hok, hids⟩ := ok_add h.pool hnone
  have hstart : w.trainer.startEpisode S uid =
      ({ w.trainer with toTrainer := w.trainer.toTrainer.startEpisode uid, bufferPool_ := pool },
        none) := by
    unfold startEpisode
    rw [if_pos hS]
    rw [hadd]
  have hfind (g : G) : (pool.idToPool_.find g).isSome ↔
      g = uid ∨ (w.trainer.bufferPool_.idToPool_.find g).isSome := by
    rw [hids, find_assign]
    by_cases hg : g = uid <;> simp [hg]
  have hstops : (uid, default) ∉ w.stops := fun hmem => hnew (h.stopped _ hmem)
  unfold CentralWorld.start
  rw [hstart]
  refine ⟨hok, fun g => ?_, fun g hg => ?_, fun j e he => ?_, fun j j' e he he' => ?_, ?_, h.twice,
    h.others⟩
  · show (pool.idToPool_.find g).isSome ↔ g ∈ uid :: w.uids ∧ (g, default) ∉ w.stops
    rw [hfind, h.rows, mem_cons]
    by_cases hg : g = uid
    · simp [hg, hstops]
    · simp [hg]
  · refine (hfind g).mpr ?_
    by_cases hg' : g = uid
    · exact .inl hg'
    · refine .inr (h.active g ?_)
      have hg : (find₂ (put w.trainer.actives_ uid default ()) g default).isSome := hg
      rw [find₂_put, if_neg fun heq => hg' heq.1] at hg
      exact hg
  · rcases opened_eq_some he with ⟨-, rfl⟩ | ⟨-, he⟩
    · exact ⟨mem_cons_self .., rfl⟩
    · exact ⟨mem_cons_of_mem _ (h.handles j e he).1, (h.handles j e he).2⟩
  · -- the new id is in no other handle
    rcases opened_eq_some he with ⟨hj, rfl⟩ | ⟨hj, he⟩
    · rcases opened_eq_some he' with ⟨hj', -⟩ | ⟨-, he'⟩
      · rw [hj, hj']
      · exact absurd (h.handles j' _ he').1 hnew
    · rcases opened_eq_some he' with ⟨-, rfl⟩ | ⟨-, he'⟩
      · exact absurd (h.handles j _ he).1 hnew
      · exact h.owner j j' e he he'
  · exact fun e he => mem_cons_of_mem _ (h.stopped e he)

/-- **Stopping an episode gives its row back; stopping it again fails.** -/
theorem pooled_stop {e : G × K} (he : e.2 = default)
    (hu : e.1 ∈ w.uids) : Pooled (w.stop S e).1 := by
  obtain ⟨uid, k⟩ := e
  obtain rfl : k = default := he
  have hstopped : ∀ e ∈ (uid, default) :: w.stops, e.1 ∈ w.uids :=
    forall_mem_cons.mpr ⟨hu, h.stopped⟩
  by_cases hbefore : (uid, default) ∈ w.stops
  · have hnone : w.trainer.bufferPool_.idToPool_.find uid = none := by
      rw [← not_isSome_iff_eq_none, h.rows]
      exact fun hrow => hrow.2 hbefore
    have hstop : w.trainer.forceStopEpisode S uid default =
        ({ w.trainer with toTrainer := w.trainer.toTrainer.forceStopEpisode uid default },
          some .noSuchId) := by
      unfold forceStopEpisode
      rw [if_pos hS]
      rw [free_unknown hnone]
    unfold CentralWorld.stop
    rw [hstop]
    refine ⟨h.pool, fun g => ?_, fun g hg => ?_, h.handles, h.owner, hstopped, ?_, ?_⟩
    · refine (h.rows g).trans ?_
      by_cases hg : g = uid
      · simp [hg, hbefore]
      · simp [hg]
    · exact h.active g (active_of_stop (uid, default) (g, default) hg).1
    · exact ⟨fun _ hnodup => (nodup_cons.mp hnodup).1 hbefore, fun _ => mem_cons_self ..⟩
    · exact forall_mem_cons.mpr ⟨.inl rfl, h.others⟩
  · obtain ⟨i, hi⟩ := isSome_iff_exists.mp ((h.rows uid).mpr ⟨hu, hbefore⟩)
    obtain ⟨pool, hfree, hok, hids⟩ := ok_free h.pool hi
    have hstop : w.trainer.forceStopEpisode S uid default =
        ({ w.trainer with
          toTrainer := w.trainer.toTrainer.forceStopEpisode uid default, bufferPool_ := pool },
          none) := by
      unfold forceStopEpisode
      rw [if_pos hS]
      rw [hfree]
    have hfind (g : G) : (pool.idToPool_.find g).isSome ↔
        g ≠ uid ∧ (w.trainer.bufferPool_.idToPool_.find g).isSome := by
      rw [hids, find_erase]
      by_cases hg : g = uid <;> simp [hg]
    unfold CentralWorld.stop
    rw [hstop]
    refine ⟨hok, fun g => ?_, fun g hg => ?_, h.handles, h.owner, hstopped, ?_, h.others⟩
    · rw [hfind, h.rows]
      by_cases hg : g = uid <;> simp [hg]
    · obtain ⟨hactive, hne⟩ := active_of_stop (uid, default) (g, default) hg
      exact (hfind g).mpr ⟨fun heq => hne (by rw [heq]), h.active g hactive⟩
    · refine h.twice.trans (not_congr ?_)
      exact ⟨fun hnodup => nodup_cons.mpr ⟨hbefore, hnodup⟩, fun hnodup => (nodup_cons.mp hnodup).2⟩

lemma pooled_release (handle : Nat) :
    Pooled (w.release S handle).1 ∧ (w.release S handle).1.handles = w.handles := by
  unfold CentralWorld.release
  split
  next e he =>
    obtain ⟨hu, hk⟩ := h.handles handle e he
    exact ⟨pooled_stop hS h hk hu, rfl⟩
  · exact ⟨h, rfl⟩

end

lemma Pooled.moved (h : Pooled w) {w' : CentralWorld G K F} (hw' : Pooled w')
    (hh : w'.handles = w.handles) (this other : Nat) (crashed : Bool) :
    Pooled { w' with
      handles := Function.update (Function.update w.handles this (w.handles other)) other none
      crashed } := by
  refine hw'.withHandles crashed (fun i e he => ?_) fun i j e hi hj => ?_
  · rw [hh]
    obtain ⟨-, ⟨-, he⟩ | ⟨-, he⟩⟩ := moved_eq_some he
    · exact ⟨other, he⟩
    · exact ⟨i, he⟩
  · obtain ⟨hi', ⟨hi, hei⟩ | ⟨hi, hei⟩⟩ := moved_eq_some hi
    · obtain ⟨hj', ⟨hj, -⟩ | ⟨-, hej⟩⟩ := moved_eq_some hj
      · rw [hi, hj]
      · exact absurd (h.owner j other e hej hei) hj'
    · obtain ⟨hj', ⟨-, hej⟩ | ⟨-, hej⟩⟩ := moved_eq_some hj
      · exact absurd (h.owner i other e hei hej) hi'
      · exact h.owner i j e hei hej

lemma pooled_run (hS : S.serveContinuously) (h : Pooled w) (o : CentralOp G K F)
    (ho : (centralSys G K F S).ok w o) : Pooled ((centralSys G K F S).run w o) := by
  cases o with
  | startEpisode uid handle => exact pooled_start hS h ho.2.1 handle
  | step handle v isDone randId accepted =>
    dsimp only [centralSys, CentralOp.run]
    split
    next e he =>
      exact pooled_step hS h (h.handles handle e he).2 v isDone randId accepted
    · exact h
  | forceStopEpisode handle => exact (pooled_release hS h handle).1
  | reset order =>
    refine ⟨h.pool, h.rows, fun g hg => ?_, h.handles, h.owner, h.stopped, h.twice, h.others⟩
    cases hg
  | moveConstruct this other =>
    dsimp only [centralSys, CentralOp.run]
    split
    next e he =>
      have hmoved := h.moved h rfl this other w.crashed
      rw [he] at hmoved
      exact hmoved
    · exact h.withHandles true (fun i e he => ⟨i, he⟩) h.owner
  | moveAssign this other =>
    obtain ⟨hrel, hhandles⟩ := pooled_release hS h this
    show Pooled (if (w.release S this).2.isSome then (w.release S this).1 else _)
    split
    · exact hrel
    · exact h.moved hrel hhandles this other _
  | destroy handle =>
    obtain ⟨hrel, hhandles⟩ := pooled_release hS h handle
    refine hrel.withHandles _ (fun i e he => ⟨i, ?_⟩) fun i j e hi hj => ?_
    · rw [hhandles]
      exact (dropped_eq_some he).2
    · exact h.owner i j e (dropped_eq_some hi).2 (dropped_eq_some hj).2

end pooled

/-- **Rows are not shared, and only a second stop fails.** With `serveContinuously` on, the
assertion of `free` fails exactly if `forceStopEpisode` was called twice for an episode, by the user
or by a handle. -/
theorem rows_distinct (S : Settings) (hS : S.serveContinuously = true) (os : List (CentralOp G K F))
    (hl : (centralSys G K F S).Legal {} os) :
    let w := (centralSys G K F S).out {} os
    let pool := w.trainer.bufferPool_
    (Fault.notRegistered ∉ w.faults ∧ Fault.noFreeRow ∉ w.faults ∧
      (Fault.noSuchId ∉ w.faults ↔ w.stops.Nodup)) ∧
    (∀ id i, pool.idToPool_.find id = some i ↔ pool.poolToId_[i]? = some (some id)) ∧
    pool.idToPool_.entries.length ≤ pool.pool_.length ∧
    (∀ h e, w.handles h = some e → e ∉ w.stops →
      ∃ i, pool.idToPool_.find e.1 = some i ∧ i < pool.pool_.length) ∧
    ∀ h h' e e' i i', h ≠ h' → w.handles h = some e → w.handles h' = some e' →
      pool.idToPool_.find e.1 = some i → pool.idToPool_.find e'.1 = some i' → i ≠ i' := by
  intro w pool
  have h : Pooled w := (centralSys G K F S).invariant Pooled
    (fun _ o hw ho => pooled_run hS hw o ho) _ pooled_new os hl
  refine ⟨⟨fun hf => ?_, fun hf => ?_, (not_congr h.twice).trans not_not⟩, h.pool.inverse,
    h.pool.size_le, fun j e he hs => ?_, fun j j' e e' i i' hne he he' hi hi' heq => ?_⟩
  · rcases h.others _ hf with hf | hf <;> cases hf
  · rcases h.others _ hf with hf | hf <;> cases hf
  · obtain ⟨hu, hk⟩ := h.handles j e he
    have hmem : (e.1, default) ∉ w.stops := by
      rw [← hk]
      exact hs
    obtain ⟨i, hi⟩ := isSome_iff_exists.mp ((h.rows e.1).mpr ⟨hu, hmem⟩)
    refine ⟨i, hi, ?_⟩
    show i < w.trainer.bufferPool_.pool_.length
    rw [h.pool.rows]
    exact (List.getElem?_eq_some_iff.mp ((h.pool.inverse e.1 i).mp hi)).1
  · -- one row has one id, and one episode has one handle
    subst heq
    have hrow := (h.pool.inverse e.1 i).mp hi
    rw [(h.pool.inverse e'.1 i).mp hi'] at hrow
    have hid : e'.1 = e.1 := some.inj (some.inj hrow)
    have hsame : e = e' :=
      Prod.ext hid.symm ((h.handles j e he).2.trans (h.handles j' e' he').2.symm)
    exact hne (h.owner j j' e he (hsame ▸ he'))

/-- two episodes; the second one gets the row of the first one after that has been stopped -/
def twoRows : List (CentralOp Nat Nat Nat) :=
  [.startEpisode 7 0, .step 0 10 false 1 true, .startEpisode 8 1, .moveAssign 0 1,
    .startEpisode 9 2, .step 2 11 true 1 false]

theorem rows_distinct_two :
    (centralSys Nat Nat Nat { maxSz := 3, sendInterval := 2, serveContinuously := true }).Legal {}
      twoRows ∧
    ((centralSys Nat Nat Nat { maxSz := 3, sendInterval := 2, serveContinuously := true }).out {}
      twoRows).stops.Nodup ∧
    Fault.noSuchId ∉ ((centralSys Nat Nat Nat
      { maxSz := 3, sendInterval := 2, serveContinuously := true }).out {} twoRows).faults := by
  refine ⟨by decide +kernel, by decide +kernel, ?_⟩
  have h := rows_distinct { maxSz := 3, sendInterval := 2, serveContinuously := true } rfl twoRows
    (by decide +kernel)
  exact h.1.2.2.mpr (by decide +kernel)

/-- an episode is stopped by its user, then its handle goes away -/
def explicitStop : List (CentralOp Nat Nat Nat) :=
  [.startEpisode 7 0, .step 0 10 false 1 true, .forceStopEpisode 0, .destroy 0]

/-- The destructor calls `forceStopEpisode` again, and `free` throws: no such id. -/
theorem stopped_twice :
    (centralSys Nat Nat Nat { maxSz := 3, sendInterval := 2, serveContinuously := true }).Legal {}
      explicitStop ∧
    ((centralSys Nat Nat Nat { maxSz := 3, sendInterval := 2, serveContinuously := true }).out {}
      explicitStop).faults = [.noSuchId] ∧
    ((centralSys Nat Nat Nat { maxSz := 3, sendInterval := 2, serveContinuously := true }).out {}
      explicitStop).crashed = true := by
  decide +kernel

end TorchCraft.Training
