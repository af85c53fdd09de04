import TorchCraft.AutoBuild.Proxying

/-!
# What stays in `scheduledUpcs`

`scheduledUpcs` should have an entry for each id in `targetUpcIds_` and no others.  Four of the five
places that drop a target drop its entry as well; `takeBack`, for a UPC that nobody has consumed, does
not.
-/

set_option linter.unusedSectionVars false

namespace TorchCraft.AutoBuild
open Lib List

variable {T P M U : Type} [DecidableEq T] [DecidableEq P] [DecidableEq M] [DecidableEq U]
  {b b' : Upcs M (UPCTuple T)} {ids : List UpcId} {m : Scheduled T} {X : UpcId → Prop}
  {s : Scheduler T P M} {upcId : P → UpcId} {ps : List (UpcId × Option P)}

/-- the keys of `m` are `ids` and `X`, which is apart from `ids` and given on the board -/
structure Leftover (b : Upcs M (UPCTuple T)) (ids : List UpcId) (m : Scheduled T)
    (X : UpcId → Prop) : Prop where
  keys : ∀ id, (m id).isSome = true ↔ id ∈ ids ∨ X id
  apart : ∀ id, X id → id ∉ ids
  given : ∀ id, X id → b.Given id

namespace Leftover

section
variable (h : Leftover b ids m X)
include h

lemma later (hb : b.Later b') : Leftover b' ids m X :=
  { h with given := fun id hid => hb.given (h.given id hid) }

lemma restrict {ids' : List UpcId} {m' : Scheduled T} (drop : UpcId → Prop)
    (hids : ∀ id, id ∈ ids' ↔ id ∈ ids ∧ ¬drop id) (hdrop : ∀ id, drop id → id ∈ ids)
    (hm : ∀ id, (m' id).isSome ↔ (m id).isSome ∧ ¬drop id) : Leftover b ids' m' X where
  keys id := by
    rw [hm, h.keys, hids]
    constructor
    · rintro ⟨hid | hid, hkeep⟩
      · exact .inl ⟨hid, hkeep⟩
      · exact .inr hid
    · rintro (⟨hid, hkeep⟩ | hid)
      · exact ⟨.inl hid, hkeep⟩
      · exact ⟨.inr hid, fun hd => h.apart id hid (hdrop id hd)⟩
  apart id hid hmem := h.apart id hid ((hids id).mp hmem).1
  given := h.given

lemma forget {ids' : List UpcId} {id₀ : UpcId} (hid₀ : id₀ ∈ ids)
    (hgiven : b.Given id₀) (hids : ∀ id, id ∈ ids' ↔ id ∈ ids ∧ id ≠ id₀) :
    Leftover b ids' m (fun id => X id ∨ id = id₀) where
  keys id := by
    rw [h.keys, hids]
    by_cases he : id = id₀
    · simp [he, hid₀]
    · simp [he]
  apart id hid hmem := by
    obtain ⟨hmem, hne⟩ := (hids id).mp hmem
    rcases hid with hid | rfl
    · exact h.apart id hid hmem
    · exact hne rfl
  given id hid := by
    rcases hid with hid | rfl
    · exact h.given id hid
    · exact hgiven

lemma congr {X' : UpcId → Prop} (hX : ∀ id, X id ↔ X' id) : Leftover b ids m X' where
  keys id := (h.keys id).trans (or_congr_right (hX id))
  apart id hid := h.apart id ((hX id).mpr hid)
  given id hid := h.given id ((hX id).mpr hid)

end

lemma split {new : List UpcId} (h : Leftover b (ids ++ new) m X) (hfresh : ∀ id ∈ new, id ∉ ids)
    (hgiven : ∀ id ∈ new, b.Given id) : Leftover b ids m (fun id => X id ∨ id ∈ new) where
  keys id := by
    rw [h.keys, mem_append]
    tauto
  apart id hid := by
    rcases hid with hid | hid
    · exact fun hmem => h.apart id hid (mem_append_left _ hmem)
    · exact hfresh id hid
  given id hid := hid.elim (h.given id) (hgiven id)

lemma join {new : List UpcId} (h : Leftover b ids m (fun id => X id ∨ id ∈ new))
    (hX : ∀ id, X id → id ∉ new) : Leftover b (ids ++ new) m X where
  keys id := by
    rw [h.keys, mem_append]
    tauto
  apart id hid hmem := by
    rcases mem_append.mp hmem with hmem | hmem
    · exact h.apart id (.inl hid) hmem
    · exact hX id hid hmem
  given id hid := h.given id (.inl hid)

end Leftover

/-! ## update -/

section update
variable (tt : TechTree T) {upcId : P → UpcId} {b : Upcs M (UPCTuple T)} {t : AutoBuildTask T P}
  {ps : List (UpcId × Option P)} {X : UpcId → Prop} {r : AutoBuildTask T P × List (Effect P)}

lemma isSome_update_none (m : Scheduled T) (id₀ id : UpcId) :
    (Function.update m id₀ none id).isSome ↔ (m id).isSome ∧ ¬id = id₀ := by
  by_cases h : id = id₀ <;> simp [h]

section
variable (hp : Proxying upcId b t ps) (h : Leftover b t.targetUpcIds t.scheduledUpcs X)
include hp h

lemma leftover_newUnit {u : NewUnit T}
    (hr : newUnit tt t u = some r) : Leftover b r.1.targetUpcIds r.1.scheduledUpcs X := by
  obtain ⟨x, hx, hspec⟩ := findStarted_spec t.scheduledUpcs (u.utype tt) t.targetUpcIds
    (fun id hid => hp.scheduled_ids hid) 0
  unfold newUnit at hr
  rw [hx, Option.bind_some] at hr
  cases x with
  | none =>
    cases hr
    exact h
  | some x =>
    obtain ⟨i, id, entry⟩ := x
    obtain ⟨k, hk, hid⟩ := hspec i id entry rfl
    rw [Nat.zero_add] at hk
    subst hk
    obtain ⟨target, -, rfl⟩ := Option.map_eq_some_iff.mp hr
    have hnodup : t.targetUpcIds.Nodup := hp.ids ▸ hp.distinct
    refine h.restrict (fun id' => id' = id) (mem_eraseIdx_iff hnodup hid) ?_
      (isSome_update_none t.scheduledUpcs id)
    rintro _ rfl
    exact mem_of_getElem? hid

lemma leftover_newUnits {us : List (NewUnit T)}
    (hr : newUnits tt t us = some r) : Leftover b r.1.targetUpcIds r.1.scheduledUpcs X := by
  induction us generalizing t ps r with
  | nil =>
    cases hr
    exact h
  | cons u us ih =>
    obtain ⟨r₁, ps₁, hr₁, hp₁⟩ := hp.newUnit tt u
    unfold newUnits at hr
    rw [hr₁, Option.bind_some] at hr
    obtain ⟨r₂, hr₂, rfl⟩ := Option.map_eq_some_iff.mp hr
    exact ih (r := r₂) hp₁ (leftover_newUnit tt hp h hr₁) hr₂

lemma leftover_update {board : Board P M U} (hb : board.Exact upcId)
    {us us' : List (NewUnit T)} (hr : update tt board us us' t = some r) :
    Leftover b r.1.targetUpcIds r.1.scheduledUpcs X := by
  obtain ⟨targets, ps₁, hf, hp₁⟩ := hp.fill hb
  unfold update at hr
  rw [hf, Option.bind_some] at hr
  exact leftover_newUnits tt hp₁ h hr

end

end update

/-! ## evaluate -/

lemma leftover_takeBack (hp : Proxying upcId s.upcs s.task ps)
    (h : Leftover s.upcs s.task.targetUpcIds s.task.scheduledUpcs X) (id₀ : UpcId) :
    Leftover (takeBack s id₀).upcs (takeBack s id₀).task.targetUpcIds
        (takeBack s id₀).task.scheduledUpcs (fun id => X id ∨ id = id₀ ∧ id ∈ s.task.targetUpcIds) ∧
      ∀ id, id ∈ (takeBack s id₀).task.targetUpcIds ↔ id ∈ s.task.targetUpcIds ∧ id ≠ id₀ := by
  have hnodup : s.task.targetUpcIds.Nodup := hp.ids ▸ hp.distinct
  unfold takeBack
  split
  next hnone =>
    have hout : id₀ ∉ s.task.targetUpcIds := by
      intro hmem
      have hall := findIdx?_eq_none_iff.mp hnone id₀ hmem
      simp at hall
    refine ⟨h.congr fun id => ?_, fun id => ?_⟩
    · constructor
      · exact .inl
      · rintro (hid | ⟨rfl, hid⟩)
        · exact hid
        · exact absurd hid hout
    · constructor
      · intro hid
        exact ⟨hid, fun he => hout (he ▸ hid)⟩
      · exact And.left
  next i hi =>
    have hplace : s.task.targetUpcIds[i]? = some id₀ := by
      obtain ⟨hlt, heq, -⟩ := findIdx?_eq_some_iff_getElem.mp hi
      rw [getElem?_eq_getElem hlt]
      exact congrArg some (of_decide_eq_true heq)
    have hmem : id₀ ∈ s.task.targetUpcIds := mem_of_getElem? hplace
    have hgiven : s.upcs.Given id₀ := by
      rw [hp.ids] at hmem
      obtain ⟨p, hpm, rfl⟩ := mem_map.mp hmem
      exact hp.given p hpm
    have herase := mem_eraseIdx_iff hnodup hplace
    refine ⟨((h.forget hmem hgiven herase).later (Upcs.later_consumeUPC ..)).congr fun id => ?_, herase⟩
    constructor
    · rintro (hid | rfl)
      · exact .inl hid
      · exact .inr ⟨rfl, hmem⟩
    · rintro (hid | ⟨rfl, -⟩)
      · exact .inl hid
      · exact .inr rfl

/-- the UPCs of the task that are on the board, unconsumed -/
def unconsumed (module : M) (s : Scheduler T P M) : List UpcId :=
  ((s.upcs.upcsFrom module).map Prod.fst).filter fun id => decide (id ∈ s.task.targetUpcIds)

lemma leftover_takeBackAll (hp : Proxying upcId s.upcs s.task ps)
    (h : Leftover s.upcs s.task.targetUpcIds s.task.scheduledUpcs X) (module : M) :
    Leftover (takeBackAll module s).upcs (takeBackAll module s).task.targetUpcIds
      (takeBackAll module s).task.scheduledUpcs (fun id => X id ∨ id ∈ unconsumed module s) := by
  unfold takeBackAll unconsumed
  generalize (s.upcs.upcsFrom module).map Prod.fst = ids
  induction ids generalizing s ps X with
  | nil => exact h.congr fun id => by simp
  | cons id₀ ids ih =>
    obtain ⟨ps₁, hp₁⟩ := proxying_takeBack hp id₀
    obtain ⟨h₁, hids⟩ := leftover_takeBack hp h id₀
    refine (ih hp₁ h₁).congr fun id => ?_
    simp only [mem_filter, mem_cons, decide_eq_true_eq, hids]
    by_cases he : id = id₀ <;> simp [he]

lemma eraseLoop_entries (drop : UpcId → Option P → Bool) (ps : List (UpcId × Option P))
    (m : Scheduled T) {r : List UpcId × List (Option P) × Scheduled T × List (Option P)}
    (hr : eraseLoop drop (ps.map Prod.fst) (ps.map Prod.snd) m = some r) (id : UpcId) :
    (r.2.2.1 id).isSome ↔
      (m id).isSome ∧ ¬∃ p ∈ ps, p.1 = id ∧ drop p.1 p.2 := by
  induction ps generalizing m r with
  | nil =>
    cases hr
    simp
  | cons p ps ih =>
    rw [map_cons, map_cons, eraseLoop] at hr
    simp only [exists_mem_cons_iff, not_or]
    split at hr
    next hd =>
      obtain ⟨r', hr', rfl⟩ := Option.map_eq_some_iff.mp hr
      refine (ih _ hr').trans ?_
      rw [isSome_update_none, and_assoc]
      simp only [hd, and_true, eq_comm]
    next hd =>
      obtain ⟨r', hr', rfl⟩ := Option.map_eq_some_iff.mp hr
      refine (ih _ hr').trans ?_
      simp [hd]

lemma leftover_eraseWhere {b : Upcs M (UPCTuple T)} {t : AutoBuildTask T P} (hp : Proxying upcId b t ps)
    (h : Leftover b t.targetUpcIds t.scheduledUpcs X) (drop : UpcId → Option P → Bool)
    {r : AutoBuildTask T P × List (Option P)} (hr : eraseWhere drop t = some r) :
    Leftover b r.1.targetUpcIds r.1.scheduledUpcs X := by
  obtain ⟨r', hr', -, hp', -⟩ := hp.eraseWhere drop
  rw [hr] at hr'
  cases hr'
  have hids := hp'.ids
  obtain ⟨x, hx, rfl⟩ := Option.map_eq_some_iff.mp hr
  rw [hp.ids, hp.targets] at hx
  refine h.restrict (fun id => ∃ p ∈ ps, p.1 = id ∧ drop p.1 p.2) (fun id => ?_) ?_
    (eraseLoop_entries drop ps t.scheduledUpcs hx)
  · rw [hids, hp.ids]
    constructor
    · intro hid
      obtain ⟨p, hpm, rfl⟩ := mem_map.mp hid
      obtain ⟨hpm, hkeep⟩ := mem_filter.mp hpm
      refine ⟨mem_map_of_mem hpm, ?_⟩
      rintro ⟨p', hpm', he, hdrop⟩
      rw [eq_of_mem_fst hp.distinct hpm' hpm he] at hdrop
      simp [hdrop] at hkeep
    · rintro ⟨hid, hkeep⟩
      obtain ⟨p, hpm, rfl⟩ := mem_map.mp hid
      refine mem_map_of_mem (mem_filter.mpr ⟨hpm, ?_⟩)
      cases hd : drop p.1 p.2 with
      | false => rfl
      | true => exact absurd ⟨p, hpm, rfl, hd⟩ hkeep
  · rintro id ⟨p, hpm, rfl, -⟩
    rw [hp.ids]
    exact mem_map_of_mem hpm

lemma leftover_place {w : Poster M} {ids : List UpcId} {m m' : Matching T M} (hp : Placed ids m)
    (h : Leftover m.upcs (ids ++ m.newUpcs) m.scheduledUpcs X) {thing : BuildEntry T} {priority : Nat}
    (hm : place w ids m thing priority = some m') :
    Leftover m'.upcs (ids ++ m'.newUpcs) m'.scheduledUpcs X ∧
      (m'.upcMatched ++ m'.newUpcs).length ≤ (m.upcMatched ++ m.newUpcs).length + 1 := by
  obtain ⟨r, hr, hspec⟩ := findMatch_spec
    (fun id hid => hp.scheduled id (mem_append_left _ hid)) thing
  unfold place at hm
  rw [hr, Option.map_some] at hm
  cases r with
  | some x =>
    obtain ⟨id, e⟩ := x
    cases hm
    obtain ⟨-, -, he, -⟩ := hspec id e rfl
    have hkeys : ∀ v id', (Function.update m.scheduledUpcs id (some v) id').isSome ↔
        (m.scheduledUpcs id').isSome := by
      intro v id'
      by_cases hid : id' = id
      · simp [hid, he]
      · simp [hid]
    have hlen : (m.upcMatched ++ [id] ++ m.newUpcs).length
        ≤ (m.upcMatched ++ m.newUpcs).length + 1 := by
      simp only [length_append, length_singleton]
      omega
    dsimp only
    unfold rematch
    split
    · have hset : Leftover m.upcs (ids ++ m.newUpcs)
          (Function.update m.scheduledUpcs id (some (e.1, priority))) X :=
        { h with keys := fun id' => (hkeys _ id').trans (h.keys id') }
      exact ⟨hset.later (Upcs.later_postUPC ..), hlen⟩
    · exact ⟨h, hlen⟩
  | none =>
    cases hm
    dsimp only
    have hl : m.upcs.Later (postCreate w m thing).2 := Upcs.later_postUPC ..
    unfold spawn
    split
    next hne =>
      have hid : (postCreate w m thing).1 = m.upcs.nextId := (Upcs.postUPC_id hne).1
      rw [hid]
      refine ⟨Leftover.later (b := (postCreate w m thing).2) ?_ (Upcs.later_postUPC ..), ?_⟩
      · show Leftover _ (ids ++ (m.newUpcs ++ [m.upcs.nextId]))
          (Function.update m.scheduledUpcs m.upcs.nextId (some (thing, priority))) X
        have hfresh : ¬X m.upcs.nextId := fun hX => Upcs.not_given_nextId _ (h.given _ hX)
        refine ⟨fun id => ?_, fun id hX hmem => ?_, fun id hX => hl.given (h.given id hX)⟩
        · rw [← append_assoc]
          by_cases he : id = m.upcs.nextId
          · simp [he]
          · rw [Function.update_of_ne he, h.keys]
            simp [he]
        · rw [← append_assoc, mem_append, mem_singleton] at hmem
          rcases hmem with hmem | rfl
          · exact h.apart id hX hmem
          · exact hfresh hX
      · show (m.upcMatched ++ (m.newUpcs ++ [m.upcs.nextId])).length ≤ _
        simp only [length_append, length_singleton]
        omega
    next => exact ⟨h.later hl, Nat.le_add_right ..⟩

lemma leftover_placeAll {w : Poster M} {ids : List UpcId} (order : List (Int × BuildEntry T))
    (priority : Nat) {m m' : Matching T M} (hp : Placed ids m)
    (h : Leftover m.upcs (ids ++ m.newUpcs) m.scheduledUpcs X)
    (hm : placeAll w ids order priority m = some m') :
    Leftover m'.upcs (ids ++ m'.newUpcs) m'.scheduledUpcs X ∧
      (m'.upcMatched ++ m'.newUpcs).length ≤ (m.upcMatched ++ m.newUpcs).length +
        (order.takeWhile fun v => decide (v.1 < w.frame + 15 * 30)).length := by
  induction order generalizing priority m with
  | nil =>
    cases hm
    exact ⟨h, le_rfl⟩
  | cons v vs ih =>
    unfold placeAll at hm
    split at hm
    next hlate =>
      cases hm
      exact ⟨h, Nat.le_add_right ..⟩
    next hdue =>
      obtain ⟨m₁, hm₁, hm⟩ := Option.bind_eq_some_iff.mp hm
      obtain ⟨m₂, _, hm₂, ha, -⟩ := place_spec (w := w) hp v.2 (priority + 1)
      rw [hm₁] at hm₂
      cases hm₂
      obtain ⟨h₁, hlen₁⟩ := leftover_place hp h hm₁
      obtain ⟨h₂, hlen₂⟩ := ih (priority + 1) ha.placed h₁ hm
      refine ⟨h₂, ?_⟩
      rw [takeWhile_cons_of_pos (by simpa using hdue), length_cons]
      omega

/-- **An evaluation leaves behind the entries of what it takes back**, and nothing else. -/
theorem leftover_schedule (hp : Proxying upcId s.upcs s.task ps)
    (h : Leftover s.upcs s.task.targetUpcIds s.task.scheduledUpcs X) {module : M}
    {finished : P → Bool} {frame : Int} {order : List (Int × BuildEntry T)}
    {r : Scheduler T P M × List (Effect P)} (hr : schedule module finished frame order s = some r) :
    Leftover r.1.upcs r.1.task.targetUpcIds r.1.task.scheduledUpcs
        (fun id => X id ∨ id ∈ unconsumed module s) ∧
      r.1.task.targetUpcIds.length ≤
        (order.takeWhile fun v => decide (v.1 < frame + 15 * 30)).length := by
  obtain ⟨ps₁, hp₁⟩ := proxying_takeBackAll hp module
  have h₁ := leftover_takeBackAll hp h module
  obtain ⟨r₁, hr₁, -, hp₂, -⟩ := hp₁.eraseWhere (fun _ target => target.all finished)
  have h₂ := leftover_eraseWhere hp₁ h₁ _ hr₁
  obtain ⟨m, _, hm, ha, -⟩ := placeAll_spec (w := ⟨frame, r₁.1.upcId, module⟩) order 0
    hp₂.placed_start
  have hplaced := ha.placed
  obtain ⟨h₃, hlen⟩ := leftover_placeAll order 0 hp₂.placed_start
    (by rw [append_nil]; exact h₂) hm
  have hp₃ := hp₂.placed hplaced
  obtain ⟨r₂, hr₂, -, hp₄, -⟩ := hp₃.eraseWhere (fun id _ => decide (id ∉ m.upcMatched))
  have h₄ := leftover_eraseWhere hp₃ (h₃.split hplaced.fresh
    fun id hid => hplaced.given id (mem_append_right _ hid)) _ hr₂
  unfold schedule at hr
  rw [hr₁, Option.bind_some, hm, Option.bind_some, adoptNew, hr₂, Option.map_some] at hr
  cases hr
  refine ⟨h₄.join fun id hX hmem => h₃.apart id hX (mem_append_right _ hmem), ?_⟩
  have hperm := map_fst_stay_matched hplaced hp₂.ids hp₂.distinct
  show (r₂.1.targetUpcIds ++ m.newUpcs).length ≤ _
  rw [hp₄.ids, length_append, hperm.length_eq, ← length_append]
  rw [append_nil, length_nil, Nat.zero_add] at hlen
  exact hlen

/-! ## runs -/

section runs
variable {tt : TechTree T} {upcId : P → UpcId} {module : M}

/-- what one call takes back: the UPCs that nobody has consumed -/
def takenBackBy (tt : TechTree T) (module : M) (s : Scheduler T P M) :
    ScheduleOp T P M U → List UpcId
  | .evaluate bo g _ n =>
    match simulate tt bo g n with
    | .ret _ => unconsumed module s
    | _ => []
  | _ => []

/-- what the evaluations of a run take back -/
def takenBack (U : Type) [DecidableEq U] (tt : TechTree T) (upcId : P → UpcId) (module : M) :
    Option (Scheduler T P M) → List (ScheduleOp T P M U) → List UpcId
  | none, _ => []
  | some _, [] => []
  | some s, o :: os =>
    takenBackBy tt module s o ++
      takenBack U tt upcId module ((scheduleSys U tt upcId module).run (some s) o) os

lemma leftover_step {ps : List (UpcId × Option P)} {X : UpcId → Prop}
    (hp : Proxying upcId s.upcs s.task ps)
    (h : Leftover s.upcs s.task.targetUpcIds s.task.scheduledUpcs X) (o : ScheduleOp T P M U)
    (ho : o.Ok upcId (some s)) {s' : Scheduler T P M} (hs' : o.step tt module s = some s') :
    Leftover s'.upcs s'.task.targetUpcIds s'.task.scheduledUpcs
      (fun id => X id ∨ id ∈ takenBackBy tt module s o) := by
  cases o with
  | update board us us' =>
    obtain ⟨r, hr, rfl⟩ := Option.map_eq_some_iff.mp hs'
    exact (leftover_update tt hp h ho hr).congr fun id => by simp [takenBackBy]
  | evaluate bo g finished n =>
    obtain ⟨r, hr, rfl⟩ := Option.map_eq_some_iff.mp hs'
    unfold evaluate at hr
    simp only [takenBackBy]
    cases hst : simulate tt bo g n with
    | ret st =>
      rw [hst] at hr
      exact (leftover_schedule hp h hr).1
    | spin | raise e =>
      rw [hst] at hr
      cases hr
      exact h.congr fun id => by simp
  | others upcs =>
    cases hs'
    exact (h.later (ho s rfl)).congr fun id => by simp [takenBackBy]

lemma leftover_run (os : List (ScheduleOp T P M U)) {ps : List (UpcId × Option P)}
    {X : UpcId → Prop} (hp : Proxying upcId s.upcs s.task ps)
    (h : Leftover s.upcs s.task.targetUpcIds s.task.scheduledUpcs X)
    (hl : (scheduleSys U tt upcId module).Legal (some s) os) :
    ∃ s' ps', (scheduleSys U tt upcId module).out (some s) os = some s' ∧
      Proxying upcId s'.upcs s'.task ps' ∧
      Leftover s'.upcs s'.task.targetUpcIds s'.task.scheduledUpcs
        (fun id => X id ∨ id ∈ takenBack U tt upcId module (some s) os) := by
  induction os generalizing s ps X with
  | nil => exact ⟨s, ps, rfl, hp, h.congr fun id => by simp [takenBack]⟩
  | cons o os ih =>
    obtain ⟨s₁, ps₁, hs₁, hp₁⟩ := proxying_run (some s) o ⟨s, ps, rfl, hp⟩ hl.1
    have h₁ := leftover_step hp h o hl.1 hs₁
    have hrest := hl.2
    rw [hs₁] at hrest
    obtain ⟨s', ps', hs', hp', h'⟩ := ih hp₁ h₁ hrest
    refine ⟨s', ps', ?_, hp', h'.congr fun id => ?_⟩
    · rw [Sys.out_cons, hs₁]
      exact hs'
    · rw [takenBack, hs₁, mem_append, or_assoc]

/-- **The keys of `scheduledUpcs`** are the ids of the targets and the ids that were taken back; so
they are the targets exactly if no UPC was left unconsumed until the next evaluation. -/
theorem scheduled_keys (tt : TechTree T) (upcId : P → UpcId) (module : M) (self : UpcId)
    (upcs : Upcs M (UPCTuple T)) (os : List (ScheduleOp T P M U))
    (hl : (scheduleSys U tt upcId module).Legal (some ⟨{ upcId := self }, upcs⟩) os) :
    ∃ s, (scheduleSys U tt upcId module).out (some ⟨{ upcId := self }, upcs⟩) os = some s ∧
      (∀ id, (s.task.scheduledUpcs id).isSome = true ↔ id ∈ s.task.targetUpcIds ∨
        id ∈ takenBack U tt upcId module (some ⟨{ upcId := self }, upcs⟩) os) ∧
      ((∀ id, (s.task.scheduledUpcs id).isSome = true ↔ id ∈ s.task.targetUpcIds) ↔
        takenBack U tt upcId module (some ⟨{ upcId := self }, upcs⟩) os = []) ∧
      ∀ bo g finished n st, simulate tt bo g n = .ret st → ∀ s',
        (scheduleSys U tt upcId module).run (some s) (.evaluate bo g finished n) = some s' →
          s'.task.targetUpcIds.length ≤
            (st.buildOrder.filter fun v => decide (v.1 < g.getMyState.frame + 450)).length := by
  have hinit : Proxying upcId upcs ({ upcId := self } : AutoBuildTask T P) [] :=
    ⟨rfl, rfl, nodup_nil, by simp, by simp, by simp⟩
  have hnone : Leftover upcs ([] : List UpcId) (fun _ => none : Scheduled T) (fun _ => False) :=
    ⟨by simp, by simp, by simp⟩
  obtain ⟨s, ps, hs, hp, h⟩ := leftover_run os (s := ⟨{ upcId := self }, upcs⟩) hinit hnone hl
  have hkeys := h.keys
  have hapart := h.apart
  simp only [false_or] at hkeys hapart
  refine ⟨s, hs, hkeys, ⟨fun heq => ?_, fun hnil id => ?_⟩, fun bo g finished n st hst s' hs' => ?_⟩
  · refine eq_nil_iff_forall_not_mem.mpr fun id hid => hapart id hid ((heq id).mp ?_)
    exact (hkeys id).mpr (.inr hid)
  · rw [hkeys, hnil]
    simp
  · obtain ⟨r, hr, rfl⟩ := Option.map_eq_some_iff.mp hs'
    simp only [evaluate, hst] at hr
    rw [← takeWhile_eq_filter_of_ordered (simulate_ordered bo g hst)]
    exact (leftover_schedule hp h hr).2

/-- after the first evaluation, which schedules a drone -/
theorem scheduled_keys_drone :
    ∃ s, (scheduleSys Nat toyTree (fun p : Nat => (p : UpcId)) 0).out (some ⟨{ upcId := 7 }, {}⟩)
        [.evaluate droneOrder toyGame (fun _ => false) 3] = some s ∧
      s.task.targetUpcIds = [1] ∧
      ∀ id, (s.task.scheduledUpcs id).isSome = true ↔ id ∈ s.task.targetUpcIds := by
  obtain ⟨s, hs, -, hiff, -⟩ := scheduled_keys (P := Nat) (U := Nat) toyTree
    (fun p : Nat => (p : UpcId)) 0 7 {} [.evaluate droneOrder toyGame (fun _ => false) 3]
    ⟨trivial, trivial⟩
  have hids : ((scheduleSys Nat toyTree (fun p : Nat => (p : UpcId)) 0).out
      (some ⟨{ upcId := 7 }, {}⟩) [.evaluate droneOrder toyGame (fun _ => false) 3]).map
        (fun s => s.task.targetUpcIds) = some [1] := by decide +kernel
  rw [hs] at hids
  exact ⟨s, hs, Option.some.inj hids, hiff.mpr (by decide +kernel)⟩

/-- **A UPC that nobody consumes leaves its entry behind**: after the next evaluation there is one
target, and two entries. -/
theorem entry_left_behind :
    ((scheduleSys Nat toyTree (fun p : Nat => (p : UpcId)) 0).out (some ⟨{ upcId := 7 }, {}⟩)
        [.evaluate droneOrder toyGame (fun _ => false) 3,
          .evaluate droneOrder toyGame (fun _ => false) 3]).map (fun s =>
        (s.task.targetUpcIds, (s.task.scheduledUpcs 1).isSome, (s.task.scheduledUpcs 3).isSome))
      = some ([3], true, true) := by
  decide +kernel

end runs

end TorchCraft.AutoBuild
