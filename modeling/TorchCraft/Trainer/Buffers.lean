import TorchCraft.Lib.Buckets
import TorchCraft.Trainer.SyncTrainer

/-!
# The buffers of the synchronous trainer

A buffer is free when its game is over.  The map from games to buffers keeps its old entries, so
what has to be shown is that the entry of a game that is still played leads to a buffer of its own.

* `holder`, `size`  owner and end mark of a buffer, and how many frames it has;
* `Fine`  active games own their buffers, ready buffers are long enough, and the
  windows trained from a buffer follow each other;
* `fine_append`, `fine_discard`, `fine_reset`  the critical sections keep it;
* `forced_stop_spares`  what a forced stop drops.
-/

set_option linter.unusedSectionVars false

namespace TorchCraft.Training
open Lib Lib.OrdMap Lib.Nested Option
open List
open SyncTrainer

variable {G K F : Type} [LinearOrder G] [LinearOrder K] [Inhabited K] {c : Config}
  {s : SyncTrainer G K F} {i j : Nat} {f : Buffer G F → Buffer G F} {uids : List G}
  {disturbed : Bool} {e : G × K} {w : Session G K F}

namespace SyncTrainer

/-- owner and end mark of a buffer -/
def holder (s : SyncTrainer G K F) (i : Nat) : Option (Option G × Bool) :=
  (s.buffers_[i]?).map fun b => (b.currentOwner, b.isDone)

lemma buffers_setBuffer (s : SyncTrainer G K F) (i j : Nat) (f : Buffer G F → Buffer G F) :
    (s.setBuffer i f).buffers_[j]? = if j = i then (s.buffers_[j]?).map f else s.buffers_[j]? := by
  show (s.buffers_.modify i f)[j]? = _
  by_cases hj : j = i
  · subst hj
    rw [if_pos rfl, getElem?_modify_eq]
    rfl
  · rw [if_neg hj, getElem?_modify_ne f _ (Ne.symm hj)]

lemma holder_setBuffer_of_ne (h : j ≠ i) : (s.setBuffer i f).holder j = s.holder j := by
  unfold holder
  rw [buffers_setBuffer, if_neg h]

lemma size_setBuffer_of_ne (h : j ≠ i) : (s.setBuffer i f).size j = s.size j := by
  unfold size
  rw [buffers_setBuffer, if_neg h]

lemma size_setBuffer_of_same (hf : ∀ b, (f b).frames.length = b.frames.length) :
    (s.setBuffer i f).size j = s.size j := by
  unfold size
  rw [buffers_setBuffer]
  split
  · rw [Option.map_map]
    exact congrArg (fun g => (Option.map g s.buffers_[j]?).getD 0) (funext hf)
  · rfl

end SyncTrainer

structure Fine (c : Config) (uids : List G) (disturbed : Bool) (s : SyncTrainer G K F) : Prop where
  keyed : ∀ e ∈ pairs s.trainer.actives_, e.2 = default
  known : ∀ e ∈ pairs s.trainer.actives_, e.1 ∈ uids
  mapped : ∀ key i, s.gamesToBuffers_.find key = some i → key ∈ uids
  owner : ∀ key i, s.trainer.isActive key default = true → s.gamesToBuffers_.find key = some i →
    s.holder i = some (some key, false)
  ready : ∀ i t, s.readyToUpdate_.find i = some t → c.returnsLength_ ≤ s.size i
  slides : c.forceOnPolicy_ = false → disturbed = false →
    ∀ (i : Nat) (b : Buffer G F), s.buffers_[i]? = some b →
      Slide c.toDelete c.returnsLength_ b.appended b.frames b.windows

lemma fine_new : Fine c uids disturbed ({} : SyncTrainer G K F) where
  keyed := nofun
  known := nofun
  mapped := nofun
  owner := nofun
  ready := nofun
  slides := nofun

lemma Fine.fewer (h : Fine c uids disturbed s) {t : Trainer G K F}
    (ht : ∀ e : G × K, t.isActive e.1 e.2 → s.trainer.isActive e.1 e.2) :
    Fine c uids disturbed { s with trainer := t } where
  keyed e he := h.keyed e (mem_pairs.mpr (ht e (mem_pairs.mp he)))
  known e he := h.known e (mem_pairs.mpr (ht e (mem_pairs.mp he)))
  mapped := h.mapped
  owner key i ha := h.owner key i (ht (key, default) ha)
  ready := h.ready
  slides := h.slides

/-! ## getting a buffer -/

lemma bestFree_spec {best : Option (Nat × Nat)} {i : Nat} {buffers : List (Buffer G F)}
    {idx value : Nat} (h : bestFree best i buffers = some (idx, value)) :
    best = some (idx, value) ∨ ∃ j b, idx = i + j ∧ buffers[j]? = some b ∧ b.isDone := by
  induction buffers generalizing best i with
  | nil => exact .inl h
  | cons b buffers ih =>
    -- a later buffer of the rest is a later buffer of the whole
    have later : ∀ {best'}, bestFree best' (i + 1) buffers = some (idx, value) →
        best' = some (idx, value) ∨
          ∃ j b', idx = i + j ∧ (b :: buffers)[j]? = some b' ∧ b'.isDone := by
      intro best' h'
      rcases ih h' with hb | ⟨j, b', hj, hb', hd⟩
      · exact .inl hb
      · exact .inr ⟨j + 1, b', by omega, hb', hd⟩
    unfold bestFree at h
    split at h
    · exact later h
    next hdone =>
      have hfree : b.isDone := Bool.not_eq_false _ ▸ hdone
      have here : ∀ {v}, some (i, v) = some (idx, value) →
          ∃ j b', idx = i + j ∧ (b :: buffers)[j]? = some b' ∧ b'.isDone := by
        intro v hv
        cases hv
        exact ⟨0, b, rfl, rfl, hfree⟩
      split at h
      · rcases later h with hb | hr
        · exact .inr (here hb)
        · exact .inr hr
      · split at h
        · rcases later h with hb | hr
          · exact .inr (here hb)
          · exact .inr hr
        · exact later h

/-- what a game gets: a buffer that it owns, and the rest is as before -/
structure Got (s s' : SyncTrainer G K F) (key : G) (i : Nat) : Prop where
  trainer : s'.trainer = s.trainer
  count : s'.updateCount_ = s.updateCount_
  ready : s'.readyToUpdate_ = s.readyToUpdate_
  train : s'.train_ = s.train_
  holder : s'.holder i = some (some key, false)
  found : s'.gamesToBuffers_.find key = some i

section
variable (h : Fine c uids disturbed s)
include h

lemma fine_own {key : G} {idx : Nat} (hkey : key ∈ uids)
    (hfree : ∀ key', s.holder idx ≠ some (some key', false)) (hlt : idx < s.buffers_.length) :
    Fine c uids disturbed (s.own key idx) ∧ Got s (s.own key idx) key idx := by
  have hsize : ∀ j, (s.own key idx).size j = s.size j :=
    fun j => size_setBuffer_of_same fun _ => rfl
  have hholder : (s.own key idx).holder idx = some (some key, false) := by
    show ((s.setBuffer idx _).buffers_[idx]?).map _ = _
    rw [buffers_setBuffer, if_pos rfl, getElem?_eq_getElem hlt]
    rfl
  have hfind : ∀ key', (s.own key idx).gamesToBuffers_.find key'
      = if key' = key then some idx else s.gamesToBuffers_.find key' :=
    fun key' => find_assign _ key key' idx
  refine ⟨⟨h.keyed, h.known, fun key' i hi => ?_, fun key' i ha hi => ?_, fun i t ht => ?_,
    fun hp hd i b hb => ?_⟩, rfl, rfl, rfl, rfl, hholder, ?_⟩
  · rw [hfind] at hi
    split at hi
    next heq =>
      exact heq ▸ hkey
    · exact h.mapped key' i hi
  · rw [hfind] at hi
    split at hi
    next heq =>
      cases hi
      rw [heq]
      exact hholder
    · have hold := h.owner key' i ha hi
      have hne : i ≠ idx := by
        rintro rfl
        exact hfree key' hold
      show (s.setBuffer idx _).holder i = _
      rw [holder_setBuffer_of_ne hne]
      exact hold
  · rw [hsize]
    exact h.ready i t ht
  · have hb' : (s.setBuffer idx _).buffers_[i]? = some b := hb
    rw [buffers_setBuffer] at hb'
    split at hb'
    · obtain ⟨b', hb'', rfl⟩ := map_eq_some_iff.mp hb'
      exact h.slides hp hd i b' hb''
    · exact h.slides hp hd i b hb'
  · rw [hfind, if_pos rfl]

lemma fine_extend :
    Fine c uids disturbed { s with buffers_ := s.buffers_ ++ [({} : Buffer G F)] } := by
  refine ⟨h.keyed, h.known, h.mapped, fun key i ha hi => ?_, fun i t ht => ?_,
    fun hp hd i b hb => ?_⟩
  · have hold := h.owner key i ha hi
    obtain ⟨b, hb, -⟩ := map_eq_some_iff.mp hold
    have hlt := (List.getElem?_eq_some_iff.mp hb).1
    show ((s.buffers_ ++ [_])[i]?).map _ = _
    rw [getElem?_append_left hlt]
    exact hold
  · have hold := h.ready i t ht
    have hlt : i < s.buffers_.length := by
      by_contra hge
      have hnone : s.buffers_[i]? = none := List.getElem?_eq_none_iff.mpr (Nat.not_lt.mp hge)
      have htwo := c.two_le
      unfold size at hold
      rw [hnone] at hold
      have hzero : c.returnsLength_ ≤ 0 := hold
      omega
    show _ ≤ (((s.buffers_ ++ [_])[i]?).map _).getD 0
    rw [getElem?_append_left hlt]
    exact hold
  · rcases Nat.lt_or_ge i s.buffers_.length with hlt | hge
    · rw [getElem?_append_left hlt] at hb
      exact h.slides hp hd i b hb
    · rw [getElem?_append_right hge] at hb
      rw [mem_singleton.mp (mem_of_getElem? hb)]
      exact Slide.nil _ _

/-- **A game that owns its buffer, or has none yet, gets a buffer.** -/
theorem getBuffer_spec {key : G} (hkey : key ∈ uids)
    (hown : ∀ i, s.gamesToBuffers_.find key = some i → s.holder i = some (some key, false)) :
    ∃ i s', s.getBufferForHandleUNSAFE key = .ok (i, s') ∧ Fine c uids disturbed s' ∧
      Got s s' key i := by
  unfold getBufferForHandleUNSAFE
  cases hfind : s.gamesToBuffers_.find key with
  | some i =>
    have hholder := hown i hfind
    obtain ⟨b, hb, hpair⟩ := map_eq_some_iff.mp hholder
    have howner : (s.buffers_[i]?).bind Buffer.currentOwner = some key := by
      rw [hb]
      exact congrArg Prod.fst hpair
    exact ⟨i, s, if_pos howner, h, rfl, rfl, rfl, rfl, hholder, hfind⟩
  | none =>
    cases hbest : bestFree none 0 s.buffers_ with
    | some best =>
      obtain ⟨idx, value⟩ := best
      obtain ⟨j, b, hj, hb, hdone⟩ := (bestFree_spec hbest).resolve_left nofun
      obtain rfl : idx = j := by omega
      have hfree : ∀ key', s.holder idx ≠ some (some key', false) := by
        intro key' hk
        unfold holder at hk
        rw [hb, map_some, hdone] at hk
        exact absurd (congrArg Prod.snd (some.inj hk)) nofun
      exact ⟨idx, _, rfl, fine_own h hkey hfree (List.getElem?_eq_some_iff.mp hb).1⟩
    | none =>
      have hfree : ∀ key', holder
          { s with buffers_ := s.buffers_ ++ [({} : Buffer G F)] } s.buffers_.length
            ≠ some (some key', false) := by
        intro key' hk
        unfold holder at hk
        rw [getElem?_concat_length] at hk
        cases hk
      have hlt : s.buffers_.length < (s.buffers_ ++ [({} : Buffer G F)]).length := by
        rw [length_append]
        exact Nat.lt_succ_self _
      obtain ⟨hfine, hgot⟩ := fine_own (fine_extend h) hkey hfree hlt
      exact ⟨_, _, rfl, hfine, hgot.trainer, hgot.count, hgot.ready, hgot.train, hgot.holder,
        hgot.found⟩

end

lemma getBuffer_active (h : Fine c uids disturbed s) (hact : s.trainer.isActive e.1 e.2) :
    ∃ i s', s.getBufferForHandleUNSAFE e.1 = .ok (i, s') ∧ Fine c uids disturbed s' ∧
      Got s s' e.1 i := by
  have hmem : e ∈ pairs s.trainer.actives_ := mem_pairs.mpr hact
  have hkey := h.keyed e hmem
  rw [hkey] at hact
  exact getBuffer_spec h (h.known e hmem) fun i hi => h.owner e.1 i hact hi

/-! ## the critical sections -/

lemma Fine.emplace (h : Fine c uids disturbed s) {i : Nat} (hi : c.returnsLength_ ≤ s.size i)
    (now : Nat) :
    Fine c uids disturbed { s with readyToUpdate_ := s.readyToUpdate_.emplace i now } := by
  refine ⟨h.keyed, h.known, h.mapped, h.owner, fun j t ht => ?_, h.slides⟩
  by_cases hj : j = i
  · rw [hj]
    exact hi
  · have hfind : (s.readyToUpdate_.emplace i now).find j = some t := ht
    rw [find_emplace_of_ne _ hj] at hfind
    exact h.ready j t hfind

lemma size_append (i j : Nat) (v : F) (isDone : Bool) :
    s.size j ≤ (s.setBuffer i (Buffer.append v isDone)).size j := by
  by_cases hj : j = i
  · unfold size
    rw [buffers_setBuffer, if_pos hj]
    cases s.buffers_[j]? with
    | none => exact le_refl _
    | some b =>
      show b.frames.length ≤ (b.frames ++ [(v, isDone)]).length
      rw [length_append]
      exact Nat.le_add_right _ _
  · rw [size_setBuffer_of_ne hj]

section
variable (h : Fine c uids disturbed s) {i : Nat} (hkey : e.2 = default)
  (hholder : s.holder i = some (some e.1, false)) (v : F) (isDone : Bool)
include h hkey hholder v isDone

lemma fine_setAppend {t : Trainer G K F}
    (ht : ∀ e' : G × K, t.isActive e'.1 e'.2 →
      s.trainer.isActive e'.1 e'.2 ∧ (isDone → e' ≠ e)) :
    Fine c uids disturbed { s.setBuffer i (Buffer.append v isDone) with trainer := t } := by
  refine ⟨fun e' he' => h.keyed e' (mem_pairs.mpr (ht e' (mem_pairs.mp he')).1),
    fun e' he' => h.known e' (mem_pairs.mpr (ht e' (mem_pairs.mp he')).1), h.mapped,
    fun key j ha hj => ?_, fun j t ht => ?_, fun hp hd j b hb => ?_⟩
  · obtain ⟨hactive, hlast⟩ := ht (key, default) ha
    have hold := h.owner key j hactive hj
    by_cases hij : j = i
    · -- the owner of this buffer goes on playing
      rw [hij, hholder] at hold
      obtain rfl : e.1 = key := some.inj (congrArg Prod.fst (some.inj hold))
      have hnot : isDone = false := by
        refine Bool.not_eq_true _ ▸ fun hd => hlast hd ?_
        rw [← hkey]
      obtain ⟨b, hb, hpair⟩ := map_eq_some_iff.mp hholder
      show ((s.setBuffer i _).buffers_[j]?).map _ = _
      rw [buffers_setBuffer, if_pos hij, hij, hb, hnot]
      show some (b.currentOwner, false) = _
      rw [show b.currentOwner = some e.1 from congrArg Prod.fst hpair]
    · show (s.setBuffer i _).holder j = _
      rw [holder_setBuffer_of_ne hij]
      exact hold
  · exact le_trans (h.ready j t ht) (size_append i j v isDone)
  · have hb' : (s.setBuffer i _).buffers_[j]? = some b := hb
    rw [buffers_setBuffer] at hb'
    split at hb'
    · obtain ⟨b', hb'', rfl⟩ := map_eq_some_iff.mp hb'
      exact (h.slides hp hd j b' hb'').push (v, isDone)
    · exact h.slides hp hd j b hb'

lemma fine_append (now : Nat) : Fine c uids disturbed (s.append c e v isDone now i) := by
  unfold append
  cases isDone with
  | true =>
    have hfine := fine_setAppend h hkey hholder v true
      (t := s.trainer.forceStopEpisode e.1 e.2)
      fun e' ha => ⟨(active_of_stop _ _ ha).1, fun _ => (active_of_stop _ _ ha).2⟩
    dsimp only
    rw [if_pos rfl]
    split
    next hsize =>
      exact hfine.emplace hsize now
    · exact hfine
  | false =>
    have hfine := fine_setAppend h hkey hholder v false (t := s.trainer)
      fun e' ha => ⟨ha, nofun⟩
    dsimp only
    rw [if_neg Bool.false_ne_true]
    split
    next hsize =>
      exact hfine.emplace hsize now
    · exact hfine

end

lemma fine_discard (h : Fine c uids true s) {i : Nat} (hkey : e.2 = default)
    (hstopped : s.trainer.isActive e.1 e.2 = false)
    (hholder : s.holder i = some (some e.1, false)) : Fine c uids true (s.discard i) := by
  refine ⟨h.keyed, h.known, h.mapped, fun key j ha hj => ?_, fun j t ht => ?_, nofun⟩
  · have hold := h.owner key j ha hj
    have hij : j ≠ i := by
      rintro rfl
      rw [hholder] at hold
      obtain rfl : e.1 = key := some.inj (congrArg Prod.fst (some.inj hold))
      have hactive : s.trainer.isActive e.1 default := ha
      rw [hkey, hactive] at hstopped
      cases hstopped
    show (s.setBuffer i _).holder j = _
    rw [holder_setBuffer_of_ne hij]
    exact hold
  · have hfind : (s.readyToUpdate_.erase i).find j = some t := ht
    rw [find_erase] at hfind
    split at hfind
    · cases hfind
    next hij =>
      show _ ≤ (s.setBuffer i _).size j
      rw [size_setBuffer_of_ne hij]
      exact h.ready j t hfind

/-! ## updates -/

lemma map_modifyAll {A B : Type} {f : A → A} {g : A → B} (h : ∀ a, g (f a) = g a)
    (is : List Nat) (l : List A) (j : Nat) : ((modifyAll f is l)[j]?).map g = (l[j]?).map g := by
  have hmap : (modifyAll f is l).map g = l.map g :=
    foldlRecOn (motive := fun l' : List A => l'.map g = l.map g) is _ rfl fun l' hl' i _ =>
      (Buckets.map_modify g h l' i).trans hl'
  rw [← getElem?_map, hmap, getElem?_map]

lemma selected_ready {order : List Nat}
    (horder : order.Perm (s.readyToUpdate_.entries.map Prod.fst)) :
    (SyncTrainer.selectBuffers c order).Nodup ∧
      ∀ g ∈ SyncTrainer.selectBuffers c order, ∃ t, s.readyToUpdate_.find g = some t := by
  have hsub : (selectBuffers c order).Sublist order := by
    unfold selectBuffers
    split
    · exact .refl _
    · exact take_sublist _ _
  have hnodup : (s.readyToUpdate_.entries.map Prod.fst).Nodup :=
    pairwise_map.mpr (s.readyToUpdate_.sorted.imp fun hlt => ne_of_lt hlt)
  refine ⟨(horder.nodup_iff.mpr hnodup).sublist hsub, fun g hg => ?_⟩
  obtain ⟨⟨g', t⟩, he, rfl⟩ := mem_map.mp (horder.subset (hsub.subset hg))
  exact ⟨t, (find_eq_some _ _ _).mpr he⟩

/-- what the clean-up of the selected buffers does -/
structure Trimmed (c : Config) (selected : List Nat) (s s' : SyncTrainer G K F) : Prop where
  trainer : s'.trainer = s.trainer
  games : s'.gamesToBuffers_ = s.gamesToBuffers_
  buffers : s'.buffers_ = modifyAll (Buffer.dropFrames c) selected s.buffers_
  ready : ∀ j t, s'.readyToUpdate_.find j = some t → s.readyToUpdate_.find j = some t ∧
    (j ∈ selected → c.returnsLength_ ≤ s'.size j)

lemma trimmed_trim (c : Config) (s : SyncTrainer G K F) (g : Nat) :
    Trimmed c [g] s (s.trim c g) := by
  unfold trim
  dsimp only
  split
  · refine ⟨rfl, rfl, rfl, fun j t ht => ?_⟩
    have hfind : (s.readyToUpdate_.erase g).find j = some t := ht
    rw [find_erase] at hfind
    split at hfind
    · cases hfind
    next hj =>
      exact ⟨hfind, fun hmem => absurd (mem_singleton.mp hmem) hj⟩
  next hsize =>
    refine ⟨rfl, rfl, rfl, fun j t ht => ⟨ht, fun hmem => ?_⟩⟩
    rw [mem_singleton.mp hmem]
    exact Nat.not_lt.mp hsize

lemma trimmed_trims (c : Config) (s : SyncTrainer G K F) {selected : List Nat}
    (hn : selected.Nodup) : Trimmed c selected s (selected.foldl (SyncTrainer.trim c) s) := by
  induction selected generalizing s with
  | nil => exact ⟨rfl, rfl, rfl, fun _ _ ht => ⟨ht, nofun⟩⟩
  | cons g selected ih =>
    obtain ⟨hg, hrestNodup⟩ := nodup_cons.mp hn
    have hhead := trimmed_trim c s g
    have hrest := ih (s.trim c g) hrestNodup
    refine ⟨hrest.trainer.trans hhead.trainer, hrest.games.trans hhead.games, ?_, fun j t ht => ?_⟩
    · show (selected.foldl (trim c) (s.trim c g)).buffers_ = _
      rw [hrest.buffers, hhead.buffers]
      rfl
    · obtain ⟨hmid, hlong⟩ := hrest.ready j t ht
      obtain ⟨hold, hfirst⟩ := hhead.ready j t hmid
      refine ⟨hold, fun hmem => ?_⟩
      rcases mem_cons.mp hmem with rfl | hmem
      · -- the buffer is not touched again
        have hsame : (selected.foldl (trim c) (s.trim c j)).size j
            = (s.trim c j).size j := by
          unfold size
          rw [hrest.buffers, getElem?_modifyAll hrestNodup, if_neg hg]
        show _ ≤ (selected.foldl (trim c) (s.trim c j)).size j
        rw [hsame]
        exact hfirst (mem_singleton_self j)
      · exact hlong hmem

lemma fine_setUpdateNums (h : Fine c uids disturbed s) (selected : List Nat) :
    Fine c uids disturbed (s.setUpdateNums selected) := by
  have hsame : ∀ {B : Type} (g : Buffer G F → B) (j : Nat),
      (∀ b, g (b.setUpdateNum s.updateCount_) = g b) →
      ((s.setUpdateNums selected).buffers_[j]?).map g = (s.buffers_[j]?).map g :=
    fun g j hg => map_modifyAll hg selected s.buffers_ j
  refine ⟨h.keyed, h.known, h.mapped, fun key i ha hi => ?_, fun i t ht => ?_,
    fun hp hd i b hb => ?_⟩
  · unfold holder
    rw [hsame _ i fun _ => rfl]
    exact h.owner key i ha hi
  · unfold size
    rw [hsame _ i fun _ => rfl]
    exact h.ready i t ht
  · have hframes := hsame (fun b => (b.appended, b.frames, b.windows)) i fun _ => rfl
    rw [hb] at hframes
    obtain ⟨b', hb', heq⟩ := map_eq_some_iff.mp hframes.symm
    have hslide := h.slides hp hd i b' hb'
    rw [Prod.mk.injEq, Prod.mk.injEq] at heq
    rw [← heq.1, ← heq.2.1, ← heq.2.2]
    exact hslide

lemma fine_cleanUp_onPolicy (h : Fine c uids disturbed s) (hp : c.forceOnPolicy_)
    (selected : List Nat) : Fine c uids disturbed ((s.train c selected).cleanUp c selected) := by
  unfold cleanUp
  rw [if_pos hp]
  refine ⟨h.keyed, h.known, h.mapped, fun key i ha hi => ?_, nofun, fun hoff => ?_⟩
  · unfold holder
    rw [getElem?_map, Option.map_map]
    have hsame : ((modifyAll (Buffer.readWindow c) selected s.buffers_)[i]?).map
        (fun b => (b.currentOwner, b.isDone)) = s.holder i :=
      map_modifyAll (f := Buffer.readWindow c) (fun _ => rfl) selected s.buffers_ i
    exact hsame.trans (h.owner key i ha hi)
  · rw [hp] at hoff
    cases hoff

lemma toDelete_le (c : Config) : c.toDelete ≤ c.returnsLength_ := by
  have htwo := c.two_le
  unfold Config.toDelete
  split <;> omega

section
variable (h : Fine c uids disturbed s)
include h

lemma fine_cleanUp_offPolicy (hp : c.forceOnPolicy_ = false)
    {selected : List Nat} (hn : selected.Nodup)
    (hlong : ∀ g ∈ selected, c.returnsLength_ ≤ s.size g) :
    Fine c uids disturbed ((s.train c selected).cleanUp c selected) := by
  have htrim := trimmed_trims c (s.train c selected) hn
  -- the two loops over the selected buffers, at one buffer
  have hat : ∀ j : Nat, (selected.foldl (trim c) (s.train c selected)).buffers_[j]?
      = if j ∈ selected then (s.buffers_[j]?).map fun b => (b.readWindow c).dropFrames c
        else s.buffers_[j]? := by
    intro j
    rw [htrim.buffers, getElem?_modifyAll hn]
    show (if j ∈ selected then
        Option.map _ (modifyAll (Buffer.readWindow c) selected s.buffers_)[j]?
      else (modifyAll (Buffer.readWindow c) selected s.buffers_)[j]?) = _
    rw [getElem?_modifyAll hn]
    by_cases hj : j ∈ selected
    · rw [if_pos hj, if_pos hj, if_pos hj, Option.map_map]
      rfl
    · rw [if_neg hj, if_neg hj, if_neg hj]
  unfold cleanUp
  rw [if_neg (by simp [hp])]
  refine ⟨?_, ?_, ?_, fun key i ha hi => ?_, fun i t ht => ?_, fun _ hd i b hb => ?_⟩
  · rw [htrim.trainer]
    exact h.keyed
  · rw [htrim.trainer]
    exact h.known
  · rw [htrim.games]
    exact h.mapped
  · rw [htrim.trainer] at ha
    rw [htrim.games] at hi
    have hold := h.owner key i ha hi
    unfold holder at hold ⊢
    rw [hat]
    split
    · rw [Option.map_map]
      exact hold
    · exact hold
  · obtain ⟨hold, hnew⟩ := htrim.ready i t ht
    by_cases hi : i ∈ selected
    · exact hnew hi
    · unfold size
      rw [hat, if_neg hi]
      exact h.ready i t hold
  · rw [hat] at hb
    split at hb
    next hi =>
      obtain ⟨b', hb', rfl⟩ := map_eq_some_iff.mp hb
      have hsize := hlong i hi
      unfold size at hsize
      rw [hb'] at hsize
      exact (h.slides hp hd i b' hb').cut hsize (toDelete_le c)
    · exact h.slides hp hd i b hb

lemma update_spec {order : List Nat}
    (horder : order.Perm (s.readyToUpdate_.entries.map Prod.fst)) :
    ∃ b s', s.update c order = .ok (b, s') ∧ Fine c uids disturbed s' := by
  obtain ⟨hn, hready⟩ := selected_ready (c := c) horder
  have hlong : ∀ g ∈ selectBuffers c order, c.returnsLength_ ≤ s.size g := by
    intro g hg
    obtain ⟨t, ht⟩ := hready g hg
    exact h.ready g t ht
  have hok : ¬∃ g ∈ selectBuffers c order, s.size g < c.returnsLength_ := by
    rintro ⟨g, hg, hlt⟩
    exact absurd (hlong g hg) (Nat.not_le_of_lt hlt)
  unfold update
  split
  · exact ⟨false, s, rfl, h⟩
  · dsimp only
    rw [if_neg hok]
    refine ⟨true, _, rfl, fine_setUpdateNums ?_ _⟩
    cases hp : c.forceOnPolicy_ with
    | true => exact fine_cleanUp_onPolicy h hp _
    | false => exact fine_cleanUp_offPolicy h hp hn hlong

lemma fine_reset (order : List (G × K)) : Fine c uids true (s.reset order) where
  keyed := nofun
  known := nofun
  mapped := h.mapped
  owner _ _ ha := by cases ha
  ready := nofun
  slides := nofun

lemma fine_start {uid : G} (hnew : uid ∉ uids) :
    Fine c (uid :: uids) disturbed { s with trainer := s.trainer.startEpisode uid } := by
  have hactive : ∀ e : G × K, (s.trainer.startEpisode uid).isActive e.1 e.2 →
      e = (uid, default) ∨ s.trainer.isActive e.1 e.2 := by
    intro e he
    have hfind : (find₂ (put s.trainer.actives_ uid default ()) e.1 e.2).isSome := he
    rw [find₂_put] at hfind
    split at hfind
    next heq =>
      exact .inl (Prod.ext heq.1 heq.2)
    · exact .inr hfind
  refine ⟨fun e he => ?_, fun e he => ?_, fun key i hi => mem_cons_of_mem _ (h.mapped key i hi),
    fun key i ha hi => ?_, h.ready, h.slides⟩
  · rcases hactive e (mem_pairs.mp he) with rfl | he
    · rfl
    · exact h.keyed e (mem_pairs.mpr he)
  · rcases hactive e (mem_pairs.mp he) with rfl | he
    · exact mem_cons_self ..
    · exact mem_cons_of_mem _ (h.known e (mem_pairs.mpr he))
  · rcases hactive (key, default) ha with heq | ha
    · -- a new id has no buffer yet
      obtain rfl : key = uid := congrArg Prod.fst heq
      exact absurd (h.mapped key i hi) hnew
    · exact h.owner key i ha hi

lemma step_spec (e : G × K) (v : F) (isDone : Bool) (now : Nat) :
    ∃ s', s.step c e v isDone now = .ok s' ∧ Fine c uids disturbed s' := by
  unfold step
  split
  · exact ⟨s, rfl, h⟩
  next hrun =>
    have hact : s.trainer.isActive e.1 e.2 :=
      Bool.not_eq_false _ ▸ fun hf => hrun (.inr hf)
    obtain ⟨i, s', hs', hfine, hgot⟩ := getBuffer_active h hact
    rw [hs']
    exact ⟨_, rfl, fine_append hfine (h.keyed e (mem_pairs.mpr hact)) hgot.holder v isDone now⟩

lemma forward_spec (e : G × K) : ∃ s', s.forward c e = .ok s' ∧ Fine c uids disturbed s' := by
  unfold forward
  split
  · exact ⟨s, rfl, h⟩
  next hrun =>
    have hact : s.trainer.isActive e.1 e.2 :=
      Bool.not_eq_false _ ▸ fun hf => hrun (.inr hf)
    obtain ⟨i, s', hs', hfine, -⟩ := getBuffer_active h hact
    rw [hs']
    exact ⟨s', rfl, hfine⟩

lemma forceStop_spec (e : G × K) :
    ∃ s', s.forceStopEpisode e = .ok s' ∧
      Fine c uids (disturbed || s.trainer.isActive e.1 e.2) s' := by
  unfold forceStopEpisode
  by_cases hact : s.trainer.isActive e.1 e.2
  · have hmem : e ∈ pairs s.trainer.actives_ := mem_pairs.mpr hact
    have hkey := h.keyed e hmem
    have hdisturbed : Fine c uids true s :=
      ⟨h.keyed, h.known, h.mapped, h.owner, h.ready, nofun⟩
    have hfewer := hdisturbed.fewer (t := s.trainer.forceStopEpisode e.1 e.2)
      fun _ he' => (active_of_stop _ _ he').1
    have hdefault : s.trainer.isActive e.1 default := hkey ▸ hact
    obtain ⟨i, s', hs', hfine, hgot⟩ := getBuffer_spec hfewer (h.known e hmem)
      fun i hi => h.owner e.1 i hdefault hi
    have hstopped : s'.trainer.isActive e.1 e.2 = false := by
      rw [hgot.trainer]
      exact Bool.not_eq_true _ ▸ fun ha => (active_of_stop _ _ ha).2 rfl
    rw [if_neg (by simp [hact]), hs', hact, Bool.or_true]
    exact ⟨_, rfl, fine_discard hfine hkey hstopped hgot.holder⟩
  · have hinactive := Bool.not_eq_true _ ▸ hact
    rw [if_pos hinactive, hinactive, Bool.or_false]
    exact ⟨s, rfl, h⟩

end

/-! ## the statement -/

/-- nothing has failed so far -/
def Healthy (c : Config) (w : Session G K F) : Prop :=
  w.failed = none ∧ Fine c w.uids w.disturbed w.sync

lemma Healthy.after (hw : w.failed = none) {r : Except SyncError (SyncTrainer G K F)}
    (h : ∃ s', r = .ok s' ∧ Fine c w.uids w.disturbed s') : Healthy c (w.after r) := by
  obtain ⟨s', rfl, hfine⟩ := h
  exact ⟨hw, hfine⟩

lemma healthy_step (h : Healthy c w) (o : SyncOp G K F) (ho : (syncSys G K F c).ok w o) :
    Healthy c ((syncSys G K F c).run w o) := by
  cases o with
  | startEpisode uid => exact ⟨h.1, fine_start h.2 ho.2⟩
  | step e v isDone now => exact Healthy.after h.1 (step_spec h.2 e v isDone now)
  | forward e => exact Healthy.after h.1 (forward_spec h.2 e)
  | forceStopEpisode e =>
    exact Healthy.after
      (w := { w with disturbed := w.disturbed || w.sync.trainer.isActive e.1 e.2 }) h.1
      (forceStop_spec h.2 e)
  | update now order =>
    obtain ⟨b, s', hs', hfine⟩ := update_spec h.2 ho.2.2
    refine Healthy.after h.1 ⟨s', ?_, hfine⟩
    rw [hs']
    rfl
  | reset order => exact ⟨h.1, fine_reset h.2 order⟩
  | setTrain train =>
    exact ⟨h.1, h.2.keyed, h.2.known, h.2.mapped, h.2.owner, h.2.ready, h.2.slides⟩

/-- **Buffers are exclusive.** No critical section fails, two active games have different buffers,
and off policy, without forced stops and resets, the windows trained from a buffer start at `0`,
`d`, `2 d`, … of its frames. -/
theorem buffers_exclusive (c : Config) (os : List (SyncOp G K F))
    (hl : (syncSys G K F c).Legal {} os) :
    let w := (syncSys G K F c).out {} os
    w.failed = none ∧
    (∀ (e : G × K) i, w.sync.trainer.isActive e.1 e.2 = true →
      w.sync.gamesToBuffers_.find e.1 = some i →
      w.sync.holder i = some (some e.1, false) ∧
        w.sync.getBufferForHandleUNSAFE e.1 = .ok (i, w.sync)) ∧
    (∀ (e e' : G × K) i, w.sync.trainer.isActive e.1 e.2 = true →
      w.sync.trainer.isActive e'.1 e'.2 = true → w.sync.gamesToBuffers_.find e.1 = some i →
      w.sync.gamesToBuffers_.find e'.1 = some i → e = e') ∧
    (∀ i t, w.sync.readyToUpdate_.find i = some t → c.returnsLength_ ≤ w.sync.size i) ∧
    (c.forceOnPolicy_ = false → w.disturbed = false →
      ∀ (i : Nat) (b : Buffer G F), w.sync.buffers_[i]? = some b →
        ∀ j window, b.windows[j]? = some window →
          window = (b.appended.drop (j * c.toDelete)).take c.returnsLength_ ∧
            window.length = c.returnsLength_) := by
  intro w
  have h : Healthy c w :=
    (syncSys G K F c).invariant (Healthy c) (fun _ o hw ho => healthy_step hw o ho) _
      ⟨rfl, fine_new⟩ os hl
  have howner : ∀ (e : G × K) i, w.sync.trainer.isActive e.1 e.2 →
      w.sync.gamesToBuffers_.find e.1 = some i → w.sync.holder i = some (some e.1, false) := by
    intro e i ha hi
    have hkey := h.2.keyed e (mem_pairs.mpr ha)
    rw [hkey] at ha
    exact h.2.owner e.1 i ha hi
  refine ⟨h.1, fun e i ha hi => ⟨howner e i ha hi, ?_⟩, fun e e' i ha ha' hi hi' => ?_, h.2.ready,
    fun hp hd i b hb j window hw => (h.2.slides hp hd i b hb).windows j window hw⟩
  · obtain ⟨b, hb, hpair⟩ := map_eq_some_iff.mp (howner e i ha hi)
    unfold getBufferForHandleUNSAFE
    rw [hi]
    dsimp only
    rw [hb]
    exact if_pos (congrArg Prod.fst hpair)
  · have hsame := (howner e i ha hi).symm.trans (howner e' i ha' hi')
    have huid : e.1 = e'.1 := some.inj (congrArg Prod.fst (some.inj hsame))
    refine Prod.ext huid ?_
    rw [h.2.keyed e (mem_pairs.mpr ha), h.2.keyed e' (mem_pairs.mpr ha')]

/-- windows of two frames, one buffer at a time -/
def pairConfig : Config := ⟨2, 1, false, false, Nat.le_refl 2⟩

/-- the second game goes on in the buffer of the first one -/
def twoGames : List (SyncOp Nat Nat Nat) :=
  [.startEpisode 7, .step (7, 0) 1 false 0, .step (7, 0) 2 true 0, .startEpisode 8,
    .step (8, 0) 3 false 0, .update 0 [0], .update 0 [0], .forceStopEpisode (7, 0)]

theorem buffers_exclusive_two :
    ((syncSys Nat Nat Nat pairConfig).Legal {} twoGames ∧
      ((syncSys Nat Nat Nat pairConfig).out {} twoGames).disturbed = false ∧
      (((syncSys Nat Nat Nat pairConfig).out {} twoGames).sync.buffers_.map Buffer.windows)
        = [[[(1, false), (2, true)], [(2, true), (3, false)]]]) ∧
    ∀ (i : Nat) (b : Buffer Nat Nat),
      ((syncSys Nat Nat Nat pairConfig).out {} twoGames).sync.buffers_[i]? = some b →
        ∀ j window, b.windows[j]? = some window →
          window = (b.appended.drop (j * pairConfig.toDelete)).take pairConfig.returnsLength_ ∧
            window.length = pairConfig.returnsLength_ :=
  ⟨by decide +kernel, (buffers_exclusive pairConfig twoGames (by decide +kernel)).2.2.2.2 rfl
    (by decide +kernel)⟩

/-! ## forced stops -/

section stops
variable {s s' : SyncTrainer G K F} {e : G × K} {i : Nat} {key : G}

def SyncTrainer.frames (s : SyncTrainer G K F) (i : Nat) : List (F × Bool) :=
  (s.buffers_[i]?).elim [] Buffer.frames

lemma frames_own (idx j : Nat) : (s.own key idx).frames j = s.frames j := by
  unfold frames
  rw [own, buffers_setBuffer]
  split
  · cases s.buffers_[j]? <;> rfl
  · rfl

lemma getBuffer_frames (h : s.getBufferForHandleUNSAFE key = .ok (i, s')) :
    (∀ j, s'.frames j = s.frames j) ∧ s'.readyToUpdate_ = s.readyToUpdate_ ∧
      s'.gamesToBuffers_.find key = some i := by
  unfold getBufferForHandleUNSAFE at h
  split at h
  next hi =>
    split at h
    · cases h
      exact ⟨fun _ => rfl, rfl, hi⟩
    · nomatch h
  · split at h
    · cases h
      exact ⟨frames_own _, rfl, (find_assign ..).trans (if_pos rfl)⟩
    · cases h
      refine ⟨fun j => (frames_own _ j).trans ?_, rfl, (find_assign ..).trans (if_pos rfl)⟩
      -- the new buffer has no frames
      unfold frames
      grind

lemma getBuffer_trainer (s : SyncTrainer G K F) (t : Trainer G K F) (key : G) :
    ({ s with trainer := t }.getBufferForHandleUNSAFE key).toOption.map Prod.fst =
      (s.getBufferForHandleUNSAFE key).toOption.map Prod.fst := by
  unfold getBufferForHandleUNSAFE
  dsimp only
  split
  · split <;> rfl
  · split <;> rfl

/-- **A forced stop takes all frames of one buffer**, the one that the game has or would be given;
the frames of other handles are spared exactly if there are none in it. -/
theorem forced_stop_spares (of : F → G × K) (hact : s.trainer.isActive e.1 e.2)
    (h : s.forceStopEpisode e = .ok s') :
    ∃ i, (s.getBufferForHandleUNSAFE e.1).toOption.map Prod.fst = some i ∧
      s'.gamesToBuffers_.find e.1 = some i ∧ s'.frames i = [] ∧
      (∀ j, j ≠ i → s'.frames j = s.frames j ∧
        s'.readyToUpdate_.find j = s.readyToUpdate_.find j) ∧
      ((∀ j, (s'.frames j).filter (of ·.1 ≠ e) = (s.frames j).filter (of ·.1 ≠ e)) ↔
        ∀ x ∈ s.frames i, of x.1 = e) := by
  rw [forceStopEpisode, if_neg (by simp [hact])] at h
  split at h
  · nomatch h
  next i s₁ hget =>
    cases h
    obtain ⟨hframes, hready, hfind⟩ := getBuffer_frames hget
    have hown : (s₁.discard i).frames i = [] := by
      unfold frames
      rw [SyncTrainer.discard, buffers_setBuffer, if_pos rfl]
      cases s₁.buffers_[i]? <;> rfl
    have hrest : ∀ j, j ≠ i → (s₁.discard i).frames j = s.frames j := by
      intro j hj
      refine Eq.trans ?_ (hframes j)
      unfold frames
      rw [SyncTrainer.discard, buffers_setBuffer, if_neg hj]
    have hgiven := getBuffer_trainer s (s.trainer.forceStopEpisode e.1 e.2) e.1
    rw [hget] at hgiven
    refine ⟨i, hgiven.symm, hfind, hown, fun j hj => ⟨hrest j hj, ?_⟩, fun hall => ?_, fun hall j => ?_⟩
    · rw [SyncTrainer.discard, find_erase, if_neg hj, hready]
    · have hnil := hall i
      rw [hown, filter_nil, eq_comm, filter_eq_nil_iff] at hnil
      simpa using hnil
    · by_cases hj : j = i
      · subst hj
        rw [hown, filter_nil, eq_comm, filter_eq_nil_iff]
        simpa using hall
      · rw [hrest j hj]

end stops

/-- a frame is the handle that stepped it; the second game has made no step -/
def stoppedGames (isDone : Bool) : List (SyncOp Nat Nat (Nat × Nat)) :=
  [.startEpisode 7, .step (7, 0) (7, 0) isDone 0, .startEpisode 8]

theorem forced_stop_spares_own :
    let s := ((syncSys Nat Nat (Nat × Nat) pairConfig).out {} (stoppedGames false)).sync
    ∃ s' i, s.forceStopEpisode (7, 0) = .ok s' ∧ s.frames i = [((7, 0), false)] ∧
      s'.frames i = [] := by
  intro s
  obtain ⟨i, -, hi, hnil, -⟩ := forced_stop_spares (s := s) (e := (7, 0)) id (by decide +kernel) rfl
  exact ⟨_, 0, rfl, by decide +kernel, by cases hi; exact hnil⟩

/-- The forced stop of the second game gets the buffer of the first one, and its frame is lost. -/
theorem stop_takes_others :
    let Y := syncSys Nat Nat (Nat × Nat) pairConfig
    let s := (Y.out {} (stoppedGames true)).sync
    Y.Legal {} (stoppedGames true) ∧ s.frames 0 = [((7, 0), true)] ∧
      (s.forceStopEpisode (8, 0)).toOption.map (frames · 0) = some [] := by
  decide +kernel

end TorchCraft.Training
