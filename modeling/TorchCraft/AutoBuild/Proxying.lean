import TorchCraft.AutoBuild.Schedule

/-!
# What an `AutoBuildTask` proxies

The three containers of an `AutoBuildTask` describe one list of (id, target) pairs.

* `Proxying.update`  an update is defined and keeps it;
* `Proxying.schedule`  an evaluation is defined, keeps `Proxying`, and schedules the due entries.
-/

set_option linter.unusedSectionVars false

namespace TorchCraft.AutoBuild
open Lib List

variable {T P M U : Type} [DecidableEq T] [DecidableEq P] [DecidableEq M] [DecidableEq U]
  {tt : TechTree T} {upcId : P → UpcId} {module : M} {b : Upcs M (UPCTuple T)}
  {t : AutoBuildTask T P} {s : Scheduler T P M} {ps : List (UpcId × Option P)} {id : UpcId}
  {ids : List UpcId} {w : Poster M} {m : Matching T M}

/-! ## the invariant -/

/-- the containers of `t` describe the pairs `ps`, and all ids have been given on the board `b` -/
structure Proxying (upcId : P → UpcId) (b : Upcs M (UPCTuple T)) (t : AutoBuildTask T P)
    (ps : List (UpcId × Option P)) : Prop where
  ids : t.targetUpcIds = ps.map Prod.fst
  targets : t.targets = ps.map Prod.snd
  distinct : (ps.map Prod.fst).Nodup
  own : ∀ p ∈ ps, ∀ q, p.2 = some q → upcId q = p.1
  scheduled : ∀ p ∈ ps, (t.scheduledUpcs p.1).isSome = true
  given : ∀ p ∈ ps, b.Given p.1

namespace Proxying
variable (h : Proxying upcId b t ps)
include h

lemma later {b' : Upcs M (UPCTuple T)} (hb : b.Later b') : Proxying upcId b' t ps :=
  { h with given := fun p hp => hb.given (h.given p hp) }

lemma sublist {t' : AutoBuildTask T P}
    {ps' : List (UpcId × Option P)} (hsub : ps'.Sublist ps) (hids : t'.targetUpcIds = ps'.map Prod.fst)
    (htargets : t'.targets = ps'.map Prod.snd)
    (hm : ∀ p ∈ ps', t'.scheduledUpcs p.1 = t.scheduledUpcs p.1) : Proxying upcId b t' ps' where
  ids := hids
  targets := htargets
  distinct := h.distinct.sublist (hsub.map _)
  own p hp := h.own p (hsub.subset hp)
  scheduled p hp := by
    rw [hm p hp]
    exact h.scheduled p (hsub.subset hp)
  given p hp := h.given p (hsub.subset hp)

lemma eraseTarget (i : Nat) : Proxying upcId b (t.eraseTarget i) (ps.eraseIdx i) := by
  refine h.sublist (eraseIdx_sublist ..) ?_ ?_ (fun _ _ => rfl)
  · show t.targetUpcIds.eraseIdx i = _
    rw [h.ids, eraseIdx_map]
  · show t.targets.eraseIdx i = _
    rw [h.targets, eraseIdx_map]

lemma scheduled_ids {id : UpcId} (hid : id ∈ t.targetUpcIds) : (t.scheduledUpcs id).isSome := by
  rw [h.ids] at hid
  obtain ⟨p, hp, rfl⟩ := mem_map.mp hid
  exact h.scheduled p hp

end Proxying

/-! ## update -/

lemma fillTargets_pairs (f : UpcId → Option P) (ps : List (UpcId × Option P)) :
    fillTargets f (ps.map Prod.fst) (ps.map Prod.snd) = some (ps.map fun p => p.2.or (f p.1)) := by
  induction ps with
  | nil => rfl
  | cons p ps ih =>
    show (fillTargets f (ps.map Prod.fst) (ps.map Prod.snd)).map _ = _
    rw [ih]
    rfl

lemma Proxying.fill (h : Proxying upcId b t ps) {board : Board P M U} (hb : board.Exact upcId) :
    ∃ targets ps', fillTargets board.taskForId t.targetUpcIds t.targets = some targets ∧
      Proxying upcId b { t with targets := targets } ps' := by
  have hfst : (ps.map fun p => (p.1, p.2.or (board.taskForId p.1))).map Prod.fst
      = ps.map Prod.fst := by
    rw [map_map]
    rfl
  refine ⟨ps.map fun p => p.2.or (board.taskForId p.1),
    ps.map fun p => (p.1, p.2.or (board.taskForId p.1)), ?_, h.ids.trans hfst.symm, ?_, ?_, ?_, ?_, ?_⟩
  · rw [h.ids, h.targets, fillTargets_pairs]
  · rw [map_map]
    rfl
  · rw [hfst]
    exact h.distinct
  · intro p' hp' q hq
    obtain ⟨p, hp, rfl⟩ := mem_map.mp hp'
    cases ht : p.2 with
    | some q' => exact h.own p hp q (by rw [ht]; simpa [ht] using hq)
    | none =>
      obtain ⟨n, -, -, hid⟩ := hb.taskForId_eq_some.mp (by simpa [ht] using hq)
      exact hid
  · exact forall_mem_map.mpr h.scheduled
  · exact forall_mem_map.mpr h.given

lemma findStarted_spec (m : Scheduled T) (utype : Option T) (ids : List UpcId)
    (hm : ∀ id ∈ ids, (m id).isSome) (i : Nat) :
    ∃ r, findStarted m utype ids i = some r ∧
      ∀ j id e, r = some (j, id, e) → ∃ k, j = i + k ∧ ids[k]? = some id := by
  induction ids generalizing i with
  | nil => exact ⟨none, rfl, fun _ _ _ h => by cases h⟩
  | cons id ids ih =>
    obtain ⟨e, he⟩ := Option.isSome_iff_exists.mp (hm id (mem_cons_self ..))
    unfold findStarted
    rw [he]
    simp only
    split
    · refine ⟨_, rfl, fun j id' e' h => ⟨0, ?_⟩⟩
      cases h
      exact ⟨rfl, rfl⟩
    · obtain ⟨r, hr, hspec⟩ := ih (fun id hid => hm id (mem_cons_of_mem _ hid)) (i + 1)
      refine ⟨r, hr, fun j id' e' h => ?_⟩
      obtain ⟨k, hj, hk⟩ := hspec j id' e' h
      exact ⟨k + 1, by omega, hk⟩

lemma mem_eraseIdx_iff {ids : List UpcId} (hids : ids.Nodup) {i : Nat} {id : UpcId}
    (h : ids[i]? = some id) (c : UpcId) : c ∈ ids.eraseIdx i ↔ c ∈ ids ∧ c ≠ id := by
  obtain ⟨hi, rfl⟩ := List.getElem?_eq_some_iff.mp h
  rw [← hids.erase_getElem i hi, hids.mem_erase_iff, and_comm]

section Update
variable (tt) (h : Proxying upcId b t ps)
include h

lemma Proxying.newUnit (u : NewUnit T) :
    ∃ r ps', newUnit tt t u = some r ∧ Proxying upcId b r.1 ps' := by
  obtain ⟨r, hr, hspec⟩ := findStarted_spec t.scheduledUpcs (u.utype tt) t.targetUpcIds
    (fun id hid => h.scheduled_ids hid) 0
  unfold AutoBuild.newUnit
  rw [hr, Option.bind_some]
  match r with
  | none => exact ⟨_, ps, rfl, h⟩
  | some (i, id, entry) =>
    obtain ⟨k, hk, hid⟩ := hspec i id entry rfl
    rw [Nat.zero_add] at hk
    subst hk
    -- the place of the id is a place of the targets, and the id is gone from the rest
    have hgone : id ∉ (ps.map Prod.fst).eraseIdx i := fun hmem =>
      ((mem_eraseIdx_iff h.distinct (h.ids ▸ hid) id).mp hmem).2 rfl
    obtain ⟨p, hp, hpid⟩ : ∃ p, ps[i]? = some p ∧ p.1 = id := by
      rw [h.ids, getElem?_map] at hid
      exact Option.map_eq_some_iff.mp hid
    have htarget : t.targets[i]? = some p.2 := by
      rw [h.targets, getElem?_map, hp]
      rfl
    have he := h.eraseTarget i
    show ∃ r ps', started t i id entry = some r ∧ _
    unfold started
    rw [htarget, Option.map_some]
    refine ⟨_, ps.eraseIdx i, rfl, ?_⟩
    refine he.sublist (Sublist.refl _) he.ids he.targets (fun p' hp' => ?_)
    have hne : p'.1 ≠ id := by
      rintro rfl
      rw [eraseIdx_map] at hgone
      exact hgone (mem_map_of_mem hp')
    exact Function.update_of_ne hne ..

lemma Proxying.newUnits (us : List (NewUnit T)) :
    ∃ r ps', newUnits tt t us = some r ∧ Proxying upcId b r.1 ps' := by
  induction us generalizing t ps with
  | nil => exact ⟨_, ps, rfl, h⟩
  | cons u us ih =>
    obtain ⟨r, ps₁, hr, h₁⟩ := h.newUnit tt u
    obtain ⟨r', ps₂, hr', h₂⟩ := ih h₁
    refine ⟨(r'.1, r.2 ++ r'.2), ps₂, ?_, h₂⟩
    unfold AutoBuild.newUnits
    rw [hr, Option.bind_some, hr', Option.map_some]

lemma Proxying.update {board : Board P M U} (hb : board.Exact upcId) (us us' : List (NewUnit T)) :
    ∃ r ps', update tt board us us' t = some r ∧ Proxying upcId b r.1 ps' := by
  obtain ⟨targets, ps₁, hf, h₁⟩ := h.fill hb
  obtain ⟨r, ps₂, hr, h₂⟩ := h₁.newUnits tt (us.filter NewUnit.isMine ++
    us'.filter NewUnit.isMine)
  refine ⟨r, ps₂, ?_, h₂⟩
  unfold AutoBuild.update
  rw [hf, Option.bind_some, hr]

end Update

/-! ## the loops that drop targets -/

lemma proxying_takeBack (h : Proxying upcId s.upcs s.task ps) (id : UpcId) :
    ∃ ps', Proxying upcId (takeBack s id).upcs (takeBack s id).task ps' := by
  unfold takeBack
  split
  · exact ⟨ps, h⟩
  next i _ => exact ⟨ps.eraseIdx i, (h.eraseTarget i).later (Upcs.later_consumeUPC ..)⟩

lemma proxying_takeBackAll (h : Proxying upcId s.upcs s.task ps) (module : M) :
    ∃ ps', Proxying upcId (takeBackAll module s).upcs (takeBackAll module s).task ps' := by
  unfold takeBackAll
  generalize (s.upcs.upcsFrom module).map Prod.fst = ids
  induction ids generalizing s ps with
  | nil => exact ⟨ps, h⟩
  | cons id ids ih =>
    obtain ⟨ps₁, h₁⟩ := proxying_takeBack h id
    exact ih h₁

lemma takeBackAll_upcFilters (module : M) (s : Scheduler T P M) :
    (takeBackAll module s).upcs.upcFilters = s.upcs.upcFilters := by
  unfold takeBackAll
  generalize (s.upcs.upcsFrom module).map Prod.fst = ids
  induction ids generalizing s with
  | nil => rfl
  | cons id ids ih =>
    rw [foldl_cons, ih]
    unfold takeBack
    split <;> rfl

def stay (drop : UpcId → Option P → Bool) (ps : List (UpcId × Option P)) :
    List (UpcId × Option P) :=
  ps.filter fun p => !drop p.1 p.2

lemma eraseLoop_pairs (drop : UpcId → Option P → Bool) (ps : List (UpcId × Option P))
    (m : Scheduled T) :
    ∃ m' ds, eraseLoop drop (ps.map Prod.fst) (ps.map Prod.snd) m
        = some ((stay drop ps).map Prod.fst, (stay drop ps).map Prod.snd, m', ds) ∧
      ∀ id, (∀ p ∈ ps, p.1 = id → drop p.1 p.2 = false) → m' id = m id := by
  induction ps generalizing m with
  | nil => exact ⟨m, [], rfl, fun _ _ => rfl⟩
  | cons p ps ih =>
    rw [map_cons, map_cons, eraseLoop]
    cases hd : drop p.1 p.2 with
    | true =>
      obtain ⟨m', ds, hl, hm'⟩ := ih (Function.update m p.1 none)
      have hstay : stay drop (p :: ps) = stay drop ps := by simp [stay, hd]
      rw [if_pos rfl, hl, hstay]
      refine ⟨m', p.2 :: ds, rfl, fun id hid => ?_⟩
      rw [hm' id (fun p' hp' => hid p' (mem_cons_of_mem _ hp'))]
      have hne : id ≠ p.1 := fun e => by
        have := hid p (mem_cons_self ..) e.symm
        rw [hd] at this
        cases this
      exact Function.update_of_ne hne ..
    | false =>
      obtain ⟨m', ds, hl, hm'⟩ := ih m
      have hstay : stay drop (p :: ps) = p :: stay drop ps := by simp [stay, hd]
      rw [if_neg (by simp), hl, hstay]
      exact ⟨m', ds, rfl, fun id hid => hm' id (fun p' hp' => hid p' (mem_cons_of_mem _ hp'))⟩

lemma eq_of_mem_fst {ps : List (UpcId × Option P)} (hps : (ps.map Prod.fst).Nodup)
    {p p' : UpcId × Option P} (hp : p ∈ ps) (hp' : p' ∈ ps) (h : p.1 = p'.1) : p = p' :=
  inj_on_of_nodup_map hps hp hp' h

lemma Proxying.eraseWhere (h : Proxying upcId b t ps) (drop : UpcId → Option P → Bool) :
    ∃ r, eraseWhere drop t = some r ∧ r.1.upcId = t.upcId ∧
      Proxying upcId b r.1 (stay drop ps) ∧
      ∀ id, (∀ p ∈ ps, p.1 = id → drop p.1 p.2 = false) →
        r.1.scheduledUpcs id = t.scheduledUpcs id := by
  obtain ⟨m', ds, hl, hm'⟩ := eraseLoop_pairs drop ps t.scheduledUpcs
  unfold AutoBuild.eraseWhere
  rw [h.ids, h.targets, hl, Option.map_some]
  refine ⟨_, rfl, rfl, ?_, hm'⟩
  refine h.sublist filter_sublist rfl rfl (fun p hp => hm' p.1 (fun p' hp' he => ?_))
  obtain ⟨hp, hd⟩ := mem_filter.mp hp
  rw [eq_of_mem_fst h.distinct hp' hp he]
  simpa using hd

/-! ## the loop over the build order -/

/-- what is attached to an id: the entry, as `operator==` sees it, and the priority -/
def slot (e : BuildEntry T × Nat) : T × Position × Nat := (e.1.type, e.1.pos, e.2)

def attached (m : Scheduled T) (ids : List UpcId) : List (Option (T × Position × Nat)) :=
  ids.map fun id => (m id).map slot

lemma attached_congr {m m' : Scheduled T} {ids : List UpcId} (h : ∀ id ∈ ids, m' id = m id) :
    attached m' ids = attached m ids :=
  map_congr_left fun id hid => by rw [h id hid]

lemma attached_update {m : Scheduled T} {ids : List UpcId} (h : id ∉ ids)
    (e : Option (BuildEntry T × Nat)) : attached (Function.update m id e) ids = attached m ids :=
  attached_congr fun _ hid' => Function.update_of_ne (fun he => h (by rwa [he] at hid')) ..

/-- the targets are matched once, the new ids are new -/
structure Placed (ids : List UpcId) (m : Matching T M) : Prop where
  matched : ∀ id ∈ m.upcMatched, id ∈ ids
  distinct : (m.upcMatched ++ m.newUpcs).Nodup
  scheduled : ∀ id ∈ ids ++ m.newUpcs, (m.scheduledUpcs id).isSome = true
  given : ∀ id ∈ ids ++ m.newUpcs, m.upcs.Given id
  fresh : ∀ id ∈ m.newUpcs, id ∉ ids

/-- from `m` to `m'` the entries `es` have been matched or posted -/
structure Advance (ids : List UpcId) (m m' : Matching T M)
    (es : List (T × Position × Nat)) : Prop where
  placed : Placed ids m'
  later : m.upcs.Later m'.upcs
  filters : m'.upcs.upcFilters = m.upcs.upcFilters
  attached : (attached m'.scheduledUpcs (m'.upcMatched ++ m'.newUpcs)).Perm
    (attached m.scheduledUpcs (m.upcMatched ++ m.newUpcs) ++ es.map some)

lemma accepts_congr {module : M} {b b' : Upcs M (UPCTuple T)}
    (h : b'.upcFilters = b.upcFilters) (upc : UPCTuple T) :
    b'.Accepts module upc ↔ b.Accepts module upc := by
  unfold Upcs.Accepts Upcs.filter
  rw [h]

lemma Advance.trans {m' m'' : Matching T M} {es es' : List (T × Position × Nat)}
    (h : Advance ids m m' es) (h' : Advance ids m' m'' es') : Advance ids m m'' (es ++ es') where
  placed := h'.placed
  later := h.later.trans h'.later
  filters := h'.filters.trans h.filters
  attached := by
    refine h'.attached.trans ?_
    rw [map_append, ← append_assoc]
    exact h.attached.append_right _

lemma advance_sendPriority {m' : Matching T M} {es : List (T × Position × Nat)}
    (h : Advance ids m m' es) (id : UpcId) (priority : Nat) :
    Advance ids m (sendPriority w m' id priority) es := by
  have hl := Upcs.later_postUPC m'.upcs w.frame (priorityUPC T id priority) w.upcId w.module
  exact
    { placed := { h.placed with given := fun id hid => hl.given (h.placed.given id hid) }
      later := h.later.trans hl
      filters := (Upcs.postUPC_upcFilters ..).trans h.filters
      attached := h.attached }

lemma findMatch_spec (hm : ∀ id ∈ ids, (m.scheduledUpcs id).isSome) (thing : BuildEntry T) :
    ∃ r, findMatch m.scheduledUpcs m.upcMatched thing ids = some r ∧
      ∀ id e, r = some (id, e) → id ∈ ids ∧ id ∉ m.upcMatched ∧ m.scheduledUpcs id = some e ∧
        e.1.same thing := by
  induction ids with
  | nil => exact ⟨none, rfl, fun _ _ h => by cases h⟩
  | cons id ids ih =>
    obtain ⟨e, he⟩ := Option.isSome_iff_exists.mp (hm id (mem_cons_self ..))
    unfold findMatch
    rw [he]
    simp only
    split
    next hc =>
      refine ⟨_, rfl, fun id' e' h => ?_⟩
      cases h
      exact ⟨mem_cons_self .., hc.2, he, hc.1⟩
    next =>
      obtain ⟨r, hr, hspec⟩ := ih (fun id hid => hm id (mem_cons_of_mem _ hid))
      exact ⟨r, hr, fun id' e' h => (hspec id' e' h).imp_left (mem_cons_of_mem _)⟩

section
variable (hp : Placed ids m)
include hp

lemma advance_matched (hid : id ∈ ids)
    (hnew : id ∉ m.upcMatched) (e : BuildEntry T) (priority : Nat) :
    Advance ids m { m with
      upcMatched := m.upcMatched ++ [id]
      scheduledUpcs := Function.update m.scheduledUpcs id (some (e, priority)) }
      [(e.type, e.pos, priority)] := by
  have hout : id ∉ m.upcMatched ++ m.newUpcs := fun h => by
    rcases mem_append.mp h with h | h
    · exact hnew h
    · exact hp.fresh id h hid
  have hperm : (m.upcMatched ++ [id] ++ m.newUpcs).Perm (m.upcMatched ++ m.newUpcs ++ [id]) := by
    rw [append_assoc, append_assoc]
    exact perm_append_comm.append_left _
  refine ⟨⟨?_, ?_, ?_, hp.given, hp.fresh⟩, Upcs.Later.refl _, rfl, ?_⟩
  · exact forall_mem_append.mpr ⟨hp.matched, forall_mem_singleton.mpr hid⟩
  · refine hperm.nodup_iff.mpr (nodup_append.mpr ⟨hp.distinct, nodup_singleton _, ?_⟩)
    rintro a ha _ hb rfl
    exact hout (mem_singleton.mp hb ▸ ha)
  · intro id' h
    by_cases he : id' = id
    · simp [he]
    · simpa [he] using hp.scheduled id' h
  · refine (hperm.map _).trans ?_
    rw [map_append]
    refine Perm.of_eq (congrArg₂ _ (attached_update hout _) ?_)
    simp [slot]

lemma advance_rematch (hid : id ∈ ids)
    (hnew : id ∉ m.upcMatched) {e : BuildEntry T × Nat} (he : m.scheduledUpcs id = some e)
    {thing : BuildEntry T} (hsame : e.1.same thing) (priority : Nat) :
    Advance ids m (rematch w m id e priority) [(thing.type, thing.pos, priority)] := by
  have ha := advance_matched hp hid hnew e.1 priority
  have hslot : (e.1.type, e.1.pos, priority) = (thing.type, thing.pos, priority) := by
    obtain ⟨ht, hpos⟩ : e.1.type = thing.type ∧ e.1.pos = thing.pos := by
      simpa [BuildEntry.same] using hsame
    rw [ht, hpos]
  rw [hslot] at ha
  unfold rematch
  split
  · exact advance_sendPriority ha id priority
  next hpr =>
    -- the entry has the priority already
    have hid' : Function.update m.scheduledUpcs id (some (e.1, priority)) = m.scheduledUpcs := by
      rw [← not_not.mp hpr, ← he]
      exact Function.update_eq_self ..
    rwa [hid'] at ha

lemma advance_adopt {b : Upcs M (UPCTuple T)}
    (hout : id ∉ ids ++ m.newUpcs) (hl : m.upcs.Later b) (hgiven : b.Given id)
    (hf : b.upcFilters = m.upcs.upcFilters) (thing : BuildEntry T) (priority : Nat) :
    Advance ids m (adopt m id b thing priority) [(thing.type, thing.pos, priority)] := by
  have hids : id ∉ ids := fun h => hout (mem_append_left _ h)
  have hnew : id ∉ m.newUpcs := fun h => hout (mem_append_right _ h)
  have hboth : id ∉ m.upcMatched ++ m.newUpcs := fun h => by
    rcases mem_append.mp h with h | h
    · exact hids (hp.matched id h)
    · exact hnew h
  refine ⟨⟨hp.matched, ?_, ?_, ?_, ?_⟩, hl, hf, ?_⟩
  · show (m.upcMatched ++ (m.newUpcs ++ [id])).Nodup
    rw [← append_assoc]
    refine nodup_append.mpr ⟨hp.distinct, nodup_singleton _, ?_⟩
    rintro a ha _ hb rfl
    exact hboth (mem_singleton.mp hb ▸ ha)
  · intro id' h
    show (Function.update m.scheduledUpcs id (some (thing, priority)) id').isSome
    by_cases he : id' = id
    · simp [he]
    · rw [Function.update_of_ne he]
      refine hp.scheduled id' ?_
      simpa [adopt, he] using h
  · intro id' h
    by_cases he : id' = id
    · exact he ▸ hgiven
    · exact hl.given (hp.given id' (by simpa [adopt, he] using h))
  · exact forall_mem_append.mpr ⟨hp.fresh, forall_mem_singleton.mpr hids⟩
  · refine Perm.of_eq ?_
    show attached (Function.update m.scheduledUpcs id (some (thing, priority)))
      (m.upcMatched ++ (m.newUpcs ++ [id])) = _
    rw [← append_assoc, attached, map_append]
    refine congrArg₂ _ (attached_update hboth _) ?_
    simp [slot]

lemma advance_spawn (thing : BuildEntry T) (priority : Nat) :
    ∃ es, Advance ids m (spawn w m thing priority) es ∧
      (m.upcs.Accepts w.module (createUPC thing) → es = [(thing.type, thing.pos, priority)]) := by
  have hl : m.upcs.Later (postCreate w m thing).2 := Upcs.later_postUPC ..
  have hf : (postCreate w m thing).2.upcFilters = m.upcs.upcFilters := Upcs.postUPC_upcFilters ..
  unfold spawn
  split
  next hne =>
    have hid : (postCreate w m thing).1 = m.upcs.nextId := (Upcs.postUPC_id hne).1
    have hgiven : (postCreate w m thing).2.Given m.upcs.nextId := (Upcs.postUPC_id hne).2
    have hout : m.upcs.nextId ∉ ids ++ m.newUpcs := fun h =>
      Upcs.not_given_nextId _ (hp.given _ h)
    rw [hid]
    exact ⟨_, advance_sendPriority (advance_adopt hp hout hl hgiven hf thing priority) _ _,
      fun _ => rfl⟩
  next hfil =>
    refine ⟨[], ⟨{ hp with given := fun id hid => hl.given (hp.given id hid) }, hl, hf, ?_⟩, ?_⟩
    · rw [map_nil, append_nil]
    · intro hu
      have hid : (postCreate w m thing).1 = m.upcs.nextId := hu.id_eq ..
      rw [not_not, hid] at hfil
      exact absurd hfil (Upcs.nextId_ne_filtered _)

lemma place_spec (thing : BuildEntry T) (priority : Nat) :
    ∃ m' es, place w ids m thing priority = some m' ∧ Advance ids m m' es ∧
      (m.upcs.Accepts w.module (createUPC thing) → es = [(thing.type, thing.pos, priority)]) := by
  obtain ⟨r, hr, hspec⟩ := findMatch_spec
    (fun id hid => hp.scheduled id (mem_append_left _ hid)) thing
  unfold place
  rw [hr, Option.map_some]
  match r with
  | some (id, e) =>
    obtain ⟨hid, hnew, he, hsame⟩ := hspec id e rfl
    exact ⟨_, _, rfl, advance_rematch hp hid hnew he hsame priority, fun _ => rfl⟩
  | none =>
    obtain ⟨es, ha, hes⟩ := advance_spawn (w := w) hp thing priority
    exact ⟨_, es, rfl, ha, hes⟩

end

/-- the entries up to the first that is not due, numbered from `priority + 1` -/
def numbered (limit : Int) (order : List (Int × BuildEntry T)) (priority : Nat) :
    List (T × Position × Nat) :=
  ((order.takeWhile fun v => decide (v.1 < limit)).zipIdx (priority + 1)).map fun v =>
    (v.1.2.type, v.1.2.pos, v.2)

lemma placeAll_spec (order : List (Int × BuildEntry T)) (priority : Nat) (hp : Placed ids m) :
    ∃ m' es, placeAll w ids order priority m = some m' ∧ Advance ids m m' es ∧
      ((∀ v ∈ order, v.1 < w.frame + 15 * 30 → m.upcs.Accepts w.module (createUPC v.2)) →
        es = numbered (w.frame + 15 * 30) order priority) := by
  induction order generalizing priority m with
  | nil =>
    refine ⟨m, [], rfl, ⟨hp, Upcs.Later.refl _, rfl, ?_⟩, fun _ => rfl⟩
    rw [map_nil, append_nil]
  | cons v vs ih =>
    unfold placeAll
    by_cases hdue : v.1 ≥ w.frame + 15 * 30
    · rw [if_pos hdue]
      refine ⟨m, [], rfl, ⟨hp, Upcs.Later.refl _, rfl, ?_⟩, fun _ => ?_⟩
      · rw [map_nil, append_nil]
      · rw [numbered, takeWhile_cons_of_neg (by simpa using hdue)]
        rfl
    · rw [if_neg hdue]
      obtain ⟨m₁, es₁, h₁, ha₁, hes₁⟩ := place_spec (w := w) hp v.2 (priority + 1)
      obtain ⟨m₂, es₂, h₂, ha₂, hes₂⟩ := ih (priority + 1) ha₁.placed
      refine ⟨m₂, es₁ ++ es₂, by rw [h₁, Option.bind_some, h₂], ha₁.trans ha₂, fun hu => ?_⟩
      have hlater : ∀ v' ∈ vs, v'.1 < w.frame + 15 * 30 →
          m₁.upcs.Accepts w.module (createUPC v'.2) := fun v' hv' hdue' =>
        (accepts_congr ha₁.filters _).mpr (hu v' (mem_cons_of_mem _ hv') hdue')
      rw [hes₁ (hu v mem_cons_self (not_le.mp hdue)), hes₂ hlater, numbered, numbered,
        takeWhile_cons_of_pos (by simpa using hdue), zipIdx_cons]
      rfl

lemma takeWhile_eq_filter_of_ordered {order : List (Int × BuildEntry T)} (h : Ordered order)
    (limit : Int) : (order.takeWhile fun v => decide (v.1 < limit))
      = order.filter fun v => decide (v.1 < limit) := by
  induction order with
  | nil => rfl
  | cons v vs ih =>
    obtain ⟨hv, hvs⟩ := pairwise_cons.mp h
    by_cases hlt : v.1 < limit
    · rw [takeWhile_cons_of_pos (by simpa using hlt),
        filter_cons_of_pos (by simpa using hlt), ih hvs]
    · rw [takeWhile_cons_of_neg (by simpa using hlt),
        filter_cons_of_neg (by simpa using hlt), filter_eq_nil_iff.mpr]
      intro v' hv'
      have := hv v' hv'
      simp only [decide_eq_true_eq]
      omega

/-! ## an evaluation -/

section
variable (h : Proxying upcId b t ps)
include h

lemma Proxying.placed_start : Placed t.targetUpcIds ⟨t.scheduledUpcs, [], [], b⟩ where
  matched _ hid := absurd hid List.not_mem_nil
  distinct := List.nodup_nil
  scheduled id hid := h.scheduled_ids (by simpa using hid)
  given id hid := by
    rw [append_nil, h.ids] at hid
    obtain ⟨p, hp, rfl⟩ := mem_map.mp hid
    exact h.given p hp
  fresh _ hid := absurd hid not_mem_nil

lemma Proxying.placed {m : Matching T M} (hp : Placed t.targetUpcIds m) :
    Proxying upcId m.upcs { t with scheduledUpcs := m.scheduledUpcs } ps := by
  have hids : ∀ p ∈ ps, p.1 ∈ t.targetUpcIds ++ m.newUpcs := fun p hmem => by
    rw [h.ids]
    exact mem_append_left _ (mem_map_of_mem hmem)
  exact
    { ids := h.ids
      targets := h.targets
      distinct := h.distinct
      own := h.own
      scheduled := fun p hmem => hp.scheduled _ (hids p hmem)
      given := fun p hmem => hp.given _ (hids p hmem) }

lemma Proxying.append {new : List UpcId} (hnd : (ps.map Prod.fst ++ new).Nodup)
    (hs : ∀ id ∈ new, (t.scheduledUpcs id).isSome) (hg : ∀ id ∈ new, b.Given id) :
    Proxying upcId b { t with
      targetUpcIds := t.targetUpcIds ++ new
      targets := t.targets ++ new.map fun _ => none } (ps ++ new.map fun id => (id, none)) := by
  have hfst : (ps ++ new.map fun id => (id, (none : Option P))).map Prod.fst
      = ps.map Prod.fst ++ new := by
    rw [map_append, map_map]
    exact congrArg _ (map_id _)
  refine ⟨?_, ?_, by rwa [hfst], ?_, ?_, ?_⟩
  · rw [hfst, h.ids]
  · rw [h.targets, map_append, map_map]
    rfl
  · exact forall_mem_append.mpr ⟨h.own, forall_mem_map.mpr fun _ _ => nofun⟩
  · exact forall_mem_append.mpr ⟨h.scheduled, forall_mem_map.mpr hs⟩
  · exact forall_mem_append.mpr ⟨h.given, forall_mem_map.mpr hg⟩

end

lemma map_fst_stay_matched (hp : Placed ids m)
    (hids : ids = ps.map Prod.fst) (hps : (ps.map Prod.fst).Nodup) :
    ((stay (fun id _ => decide (id ∉ m.upcMatched)) ps).map Prod.fst).Perm m.upcMatched := by
  refine (perm_ext_iff_of_nodup (hps.sublist (filter_sublist.map _))
    (nodup_append.mp hp.distinct).1).mpr (fun id => ?_)
  constructor
  · intro h
    obtain ⟨p, hpm, rfl⟩ := mem_map.mp h
    simpa using (mem_filter.mp hpm).2
  · intro h
    have hid := hp.matched id h
    rw [hids] at hid
    obtain ⟨p, hpm, rfl⟩ := mem_map.mp hid
    exact mem_map_of_mem (mem_filter.mpr ⟨hpm, by simpa using h⟩)

/-- **An evaluation is defined, keeps the invariant, and leaves exactly the due entries scheduled.** -/
theorem Proxying.schedule (h : Proxying upcId s.upcs s.task ps) (module : M) (finished : P → Bool)
    (frame : Int) (order : List (Int × BuildEntry T)) :
    ∃ r ps', schedule module finished frame order s = some r ∧
      Proxying upcId r.1.upcs r.1.task ps' ∧
      ((∀ v ∈ order, v.1 < frame + 15 * 30 → s.upcs.Accepts module (createUPC v.2)) →
        (attached r.1.task.scheduledUpcs r.1.task.targetUpcIds).Perm
          ((numbered (frame + 15 * 30) order 0).map some)) := by
  obtain ⟨ps₁, h₁⟩ := proxying_takeBackAll h module
  obtain ⟨r₁, hr₁, _, h₂, _⟩ := h₁.eraseWhere (fun _ target => target.all finished)
  obtain ⟨m, es, hm, ha, hes⟩ := placeAll_spec (w := ⟨frame, r₁.1.upcId, module⟩) order 0
    h₂.placed_start
  have hp := ha.placed
  obtain ⟨r₂, hr₂, _, h₃, hsame⟩ := (h₂.placed hp).eraseWhere
    (fun id _ => decide (id ∉ m.upcMatched))
  have hperm := map_fst_stay_matched hp h₂.ids h₂.distinct
  have hperm' := hperm.append_right m.newUpcs
  -- neither the matched nor the new ids lose their entry in the last loop
  have hkeep : ∀ id ∈ m.upcMatched ++ m.newUpcs, r₂.1.scheduledUpcs id = m.scheduledUpcs id := by
    intro id hid
    refine hsame id (fun p hpm he => ?_)
    rcases mem_append.mp hid with hid | hid
    · simpa [he] using hid
    · refine absurd ?_ (hp.fresh id hid)
      rw [h₂.ids, ← he]
      exact mem_map_of_mem hpm
  unfold AutoBuild.schedule
  rw [hr₁, Option.bind_some, hm, Option.bind_some, adoptNew, hr₂, Option.map_some]
  refine ⟨_, _, rfl, h₃.append (hperm'.nodup_iff.mpr hp.distinct) ?_ ?_, fun hu => ?_⟩
  · intro id hid
    rw [hkeep id (mem_append_right _ hid)]
    exact hp.scheduled id (mem_append_right _ hid)
  · exact fun id hid => hp.given id (mem_append_right _ hid)
  · rw [← hes fun v hv hdue => (accepts_congr (takeBackAll_upcFilters module s) _).mpr (hu v hv hdue)]
    show (attached r₂.1.scheduledUpcs (r₂.1.targetUpcIds ++ m.newUpcs)).Perm _
    rw [h₃.ids]
    refine (hperm'.map _).trans ?_
    exact (Perm.of_eq (attached_congr hkeep)).trans ha.attached

/-! ## runs -/

inductive ScheduleOp (T P M U : Type) where
  | update (board : Board P M U) (getNewUnits getStartedMorphingUnits : List (NewUnit T))
  | evaluate (bo : BuildOrder T) (g : Game T) (finished : P → Bool) (fuel : Nat)
  | others (upcs : Upcs M (UPCTuple T))

namespace ScheduleOp

/-- one call; `none` is undefined behaviour -/
def step (tt : TechTree T) (module : M) (s : Scheduler T P M) :
    ScheduleOp T P M U → Option (Scheduler T P M)
  | .update board us us' => (AutoBuild.update tt board us us' s.task).map fun r => ⟨r.1, s.upcs⟩
  | .evaluate bo g finished n =>
    (AutoBuild.evaluate tt bo g module finished n s).map Prod.fst
  | .others upcs => some ⟨s.task, upcs⟩

/-- `update` is called on a board whose indices are exact, and others only add to the history -/
def Ok (upcId : P → UpcId) (s : Option (Scheduler T P M)) : ScheduleOp T P M U → Prop
  | .update board _ _ => board.Exact upcId
  | .evaluate _ _ _ _ => True
  | .others upcs => ∀ w, s = some w → w.upcs.Later upcs

end ScheduleOp

/-- the calls of one task, and what other modules do to the UPCs in between -/
def scheduleSys (U : Type) [DecidableEq U] (tt : TechTree T) (upcId : P → UpcId) (module : M) :
    Sys (Option (Scheduler T P M)) (ScheduleOp T P M U) where
  run s o := s.bind fun w => o.step tt module w
  ok := ScheduleOp.Ok upcId

lemma proxying_evaluate (h : Proxying upcId s.upcs s.task ps) (bo : BuildOrder T) (g : Game T)
    (finished : P → Bool) (n : Nat) : ∃ r ps', evaluate tt bo g module finished n s = some r ∧
      Proxying upcId r.1.upcs r.1.task ps' := by
  unfold evaluate
  split
  next st _ =>
    obtain ⟨r, ps', hr, h', _⟩ := h.schedule module finished g.getMyState.frame st.buildOrder
    exact ⟨r, ps', hr, h'⟩
  next => exact ⟨_, ps, rfl, h⟩

lemma proxying_run (s : Option (Scheduler T P M)) (o : ScheduleOp T P M U)
    (hs : ∃ w ps, s = some w ∧ Proxying upcId w.upcs w.task ps)
    (ho : (scheduleSys U tt upcId module).ok s o) :
    ∃ w ps, (scheduleSys U tt upcId module).run s o = some w ∧ Proxying upcId w.upcs w.task ps := by
  obtain ⟨w, ps, rfl, h⟩ := hs
  show ∃ w' ps', o.step tt module w = some w' ∧ Proxying upcId w'.upcs w'.task ps'
  cases o with
  | update board us us' =>
    obtain ⟨r, ps', hr, h'⟩ := h.update tt ho us us'
    exact ⟨⟨r.1, w.upcs⟩, ps', by rw [ScheduleOp.step, hr, Option.map_some], h'⟩
  | evaluate bo g finished n =>
    obtain ⟨r, ps', hr, h'⟩ := proxying_evaluate h bo g finished n
    exact ⟨r.1, ps', by rw [ScheduleOp.step, hr, Option.map_some], h'⟩
  | others upcs => exact ⟨⟨w.task, upcs⟩, ps, rfl, h.later (ho w rfl)⟩

/-- **What an `AutoBuildTask` has scheduled is its build order**: after an evaluation the entries that
are due within 450 frames, the `j`-th of them with priority `j`, if none of their UPCs is filtered
out. -/
theorem scheduled_exact (tt : TechTree T) (upcId : P → UpcId) (module : M) (self : UpcId)
    (upcs : Upcs M (UPCTuple T)) (os : List (ScheduleOp T P M U))
    (hl : (scheduleSys U tt upcId module).Legal (some ⟨{ upcId := self }, upcs⟩) os) :
    ∃ s, (scheduleSys U tt upcId module).out (some ⟨{ upcId := self }, upcs⟩) os = some s ∧
      s.task.targets.length = s.task.targetUpcIds.length ∧
      (∀ (i : Nat) q, s.task.targets[i]? = some (some q) → s.task.targetUpcIds[i]? = some (upcId q)) ∧
      s.task.targetUpcIds.Nodup ∧
      (∀ id ∈ s.task.targetUpcIds, (s.task.scheduledUpcs id).isSome = true) ∧
      ∀ bo g finished n st, simulate tt bo g n = .ret st →
        ∃ s', (scheduleSys U tt upcId module).run (some s) (.evaluate bo g finished n) = some s' ∧
          ((∀ v ∈ st.buildOrder, v.1 < g.getMyState.frame + 450 →
              s.upcs.Accepts module (createUPC v.2)) →
            (attached s'.task.scheduledUpcs s'.task.targetUpcIds).Perm
              (((st.buildOrder.filter fun v => decide (v.1 < g.getMyState.frame + 450)).zipIdx 1).map
                fun v => some (v.1.2.type, v.1.2.pos, v.2))) := by
  have hinit : Proxying upcId upcs ({ upcId := self } : AutoBuildTask T P) [] :=
    ⟨rfl, rfl, nodup_nil, by simp, by simp, by simp⟩
  obtain ⟨s, ps, hs, h⟩ := (scheduleSys U tt upcId module).invariant
    (fun s => ∃ w ps, s = some w ∧ Proxying upcId w.upcs w.task ps) proxying_run _
    ⟨_, [], rfl, hinit⟩ os hl
  refine ⟨s, hs, ?_, ?_, ?_, fun id hid => h.scheduled_ids hid, ?_⟩
  · rw [h.targets, h.ids, length_map, length_map]
  · intro i q hq
    rw [h.targets, getElem?_map] at hq
    obtain ⟨p, hp, hpq⟩ := Option.map_eq_some_iff.mp hq
    rw [h.ids, getElem?_map, hp, Option.map_some, h.own p (mem_of_getElem? hp) q hpq]
  · rw [h.ids]
    exact h.distinct
  · intro bo g finished n st hst
    obtain ⟨r, _, hr, _, hperm⟩ := h.schedule module finished g.getMyState.frame st.buildOrder
    refine ⟨r.1, ?_, fun hu => ?_⟩
    · show (AutoBuild.evaluate tt bo g module finished n s).map Prod.fst = some r.1
      simp only [evaluate, hst, hr, Option.map_some]
    · refine (hperm hu).trans (Perm.of_eq ?_)
      rw [numbered, takeWhile_eq_filter_of_ordered (simulate_ordered bo g hst), map_map]
      rfl

def droneOrder : BuildOrder Toy where
  buildStep st := (st, if countPlusProduction toyTree st .drone < 2 then [.type .drone] else [])

def toyGame : Game Toy where
  getMyState := toyState
  myRace := .zerg

theorem scheduled_exact_drone :
    ∃ s s', (scheduleSys Nat toyTree (fun p : Nat => (p : UpcId)) 0).out (some ⟨{ upcId := 7 }, {}⟩)
        [.evaluate droneOrder toyGame (fun _ => false) 3, .update Board.empty [{ type := .drone }] []]
          = some s ∧
      (scheduleSys Nat toyTree (fun p : Nat => (p : UpcId)) 0).run (some s)
        (.evaluate droneOrder toyGame (fun _ => false) 3) = some s' ∧
      attached s'.task.scheduledUpcs s'.task.targetUpcIds = [some (.drone, {}, 1)] := by
  obtain ⟨s, hs, _, _, _, _, h⟩ := scheduled_exact (P := Nat) (U := Nat) toyTree
    (fun p : Nat => (p : UpcId)) 0 7 {} [.evaluate droneOrder toyGame (fun _ => false) 3,
      .update Board.empty [{ type := .drone }] []] ⟨trivial, Board.exact_empty, trivial⟩
  have hsim : (simulate toyTree droneOrder toyGame 3).toOption.map (fun st =>
      ((st.buildOrder.filter fun v => decide (v.1 < toyGame.getMyState.frame + 450)).zipIdx 1).map
        fun v => some (v.1.2.type, v.1.2.pos, v.2)) = some [some (.drone, {}, 1)] := by
    decide +kernel
  obtain ⟨st, hst, horder⟩ := Option.map_eq_some_iff.mp hsim
  obtain ⟨s', hs', hperm⟩ := h droneOrder toyGame (fun _ => false) 3 st
    (Run.toOption_eq_some.mp hst)
  have hfilters : ((scheduleSys Nat toyTree (fun p : Nat => (p : UpcId)) 0).out
      (some ⟨{ upcId := 7 }, {}⟩) [.evaluate droneOrder toyGame (fun _ => false) 3,
        .update Board.empty [{ type := .drone }] []]).map (fun s => s.upcs.upcFilters.length)
      = some 0 := by decide +kernel
  rw [hs, Option.map_some, Option.some.injEq, length_eq_zero_iff] at hfilters
  refine ⟨s, s', hs, hs', perm_singleton.mp (horder ▸ hperm fun v _ _ => ?_)⟩
  exact (accepts_congr (b := {}) hfilters _).mpr rfl

end TorchCraft.AutoBuild
