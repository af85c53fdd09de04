import TorchCraft.Placer.Model
import TorchCraft.Lib.Effects

/-!
# The reserved tiles are those of the unfinished tasks

As long as no task is cancelled whose target has been found or that waits for another position, as
every retry gets a position and a UPC, and as no task has the invalid id, the reserved tiles are the
disjoint union of the footprints of the unfinished placer tasks.

* `Inv`  the flags, the holdings, and what a task that waits looks like;
* `Inv.put`  one task and its tiles change.
-/

set_option linter.unusedSectionVars false

namespace TorchCraft.Placer
open Lib List Function OrdMap
open PlacerTask

/-! ## setting flags -/

/-- every cell has the other flag, and no cell comes twice -/
def Settable (flags : Tile → Bool) (cells : List Tile) (b : Bool) : Prop :=
  (∀ x ∈ cells, flags x = !b) ∧ cells.Nodup

lemma setAll_append (flags : Tile → Bool) (l m : List Tile) (b : Bool) :
    setAll flags (l ++ m) b = setAll (setAll flags l b) m b := by
  funext x
  simp only [setAll, mem_append]
  by_cases hm : x ∈ m
  · rw [if_pos hm, if_pos (.inr hm)]
  · by_cases hl : x ∈ l
    · rw [if_neg hm, if_pos hl, if_pos (.inl hl)]
    · rw [if_neg hm, if_neg hl, if_neg (not_or.mpr ⟨hl, hm⟩)]

lemma settable_append {flags : Tile → Bool} {l m : List Tile} {b : Bool} :
    Settable flags (l ++ m) b ↔ Settable flags l b ∧ Settable (setAll flags l b) m b := by
  constructor
  · rintro ⟨hall, hn⟩
    obtain ⟨hl, hm, hdis⟩ := nodup_append.mp hn
    refine ⟨⟨fun x hx => hall x (mem_append_left _ hx), hl⟩, fun x hx => ?_, hm⟩
    rw [setAll, if_neg fun hxl => hdis x hxl x hx rfl]
    exact hall x (mem_append_right _ hx)
  · rintro ⟨⟨hall, hl⟩, hall', hm⟩
    -- a cell of the first list has the flag by now
    have hdis : ∀ x ∈ l, x ∉ m := by
      intro x hx hxm
      have := hall' x hxm
      rw [setAll, if_pos hx] at this
      cases b <;> cases this
    refine ⟨fun x hx => ?_, nodup_append.mpr ⟨hl, hm, ?_⟩⟩
    · rcases mem_append.mp hx with hx | hx
      · exact hall x hx
      · have := hall' x hx
        rwa [setAll, if_neg fun hxl => hdis x hxl hx] at this
    · rintro x hx y hy rfl
      exact hdis x hx hy

lemma settable_singleton {flags : Tile → Bool} {x : Tile} {b : Bool} :
    Settable flags [x] b ↔ flags x = !b :=
  ⟨fun h => h.1 x (mem_singleton_self x), fun h =>
    ⟨fun _ hy => mem_singleton.mp hy ▸ h, nodup_singleton x⟩⟩

variable {B : Type} [DecidableEq B] (T : BuildTypes B) {reserve : Bool} {e : Error} {p : Position}
  {t : PlacerTask B}

lemma setLoop_ok_iff {ts changed : List Tile} {flags flags' : Tile → Bool} :
    setLoop reserve ts changed flags = (.ok (), flags') ↔
      Settable flags ts reserve ∧ flags' = setAll flags ts reserve := by
  induction ts generalizing changed flags with
  | nil =>
    rw [setLoop, Prod.mk.injEq, setAll_nil]
    exact ⟨fun h => ⟨⟨nofun, nodup_nil⟩, h.2.symm⟩,
      fun h => ⟨rfl, h.2.symm⟩⟩
  | cons t ts ih =>
    have hcons : t :: ts = [t] ++ ts := rfl
    rw [setLoop, hcons, settable_append, setAll_append, settable_singleton]
    split
    next hne =>
      refine ⟨fun h => ?_, fun h => absurd h.1.1 hne⟩
      nomatch (Prod.mk.inj h).1
    next heq =>
      rw [ih, and_iff_right (not_not.mp heq)]

/-- a loop that stops sets back what it changed -/
lemma setLoop_error {ts changed : List Tile} {flags flags₀ : Tile → Bool}
    (hflags : flags = setAll flags₀ changed reserve) (hchanged : ∀ x ∈ changed, flags₀ x = !reserve)
    (h : (setLoop reserve ts changed flags).1 = .error e) :
    (setLoop reserve ts changed flags).2 = flags₀ := by
  induction ts generalizing changed flags with
  | nil => nomatch h
  | cons t ts ih =>
    rw [setLoop] at h ⊢
    split at h
    next hne =>
      rw [if_pos hne]
      funext x
      show setAll flags changed (!reserve) x = flags₀ x
      rw [hflags, setAll, setAll]
      split
      next hx => exact (hchanged x hx).symm
      · rfl
    next heq =>
      rw [if_neg heq]
      refine ih ?_ (fun x hx => ?_) h
      · rw [setAll_append, hflags]
      · rcases mem_append.mp hx with hx | hx
        · exact hchanged x hx
        · obtain rfl := mem_singleton.mp hx
          have hx' := not_not.mp heq
          rw [hflags, setAll] at hx'
          split at hx'
          next hmem => exact hchanged x hmem
          · exact hx'

/-- **A failed reservation leaves the tiles as they were.** -/
theorem reserveAreaImpl_error {tt : TilesInfo} {type : B}
    (h : (tt.reserveAreaImpl T reserve type p).1 = .error e) :
    (tt.reserveAreaImpl T reserve type p).2 = tt := by
  unfold TilesInfo.reserveAreaImpl at h ⊢
  split at h
  next hin =>
    rw [if_pos hin]
    have hloop := setLoop_error (setAll_nil _ _).symm (nofun) h
    show { tt with reservedAsUnbuildable := _ } = tt
    rw [hloop]
  next hin => rw [if_neg hin]

def TilesInfo.set (tt : TilesInfo) (cells : List Tile) (b : Bool) : TilesInfo :=
  { tt with reservedAsUnbuildable := setAll tt.reservedAsUnbuildable cells b }

lemma reserveAreaImpl_ok_iff {tt tt' : TilesInfo} {type : B} :
    tt.reserveAreaImpl T reserve type p = (.ok (), tt') ↔
      inMap T tt type p ∧
        Settable tt.reservedAsUnbuildable (area T type p) reserve ∧
        tt' = tt.set (area T type p) reserve := by
  unfold TilesInfo.reserveAreaImpl
  split
  next hin =>
    rw [and_iff_right hin, Prod.mk.injEq]
    constructor
    · rintro ⟨h1, rfl⟩
      obtain ⟨hs, hf⟩ := setLoop_ok_iff.mp (Prod.ext h1 rfl)
      exact ⟨hs, congrArg (fun f => { tt with reservedAsUnbuildable := f }) hf⟩
    · rintro ⟨hs, rfl⟩
      rw [setLoop_ok_iff.mpr ⟨hs, rfl⟩]
      exact ⟨rfl, rfl⟩
  next hin =>
    refine ⟨fun h => ?_, fun h => absurd h.1 hin⟩
    nomatch (Prod.mk.inj h).1

/-- the building and its add-on are within the map -/
def fits (tt : TilesInfo) (type : B) (p : Position) : Bool :=
  inMap T tt type p &&
    (addonOf T type).all fun addon => inMap T tt addon (addonPosition T type addon p)

lemma fullReserveImpl_ok_iff {tt tt' : TilesInfo} {type : B} :
    fullReserveImpl T reserve tt type p = (.ok (), tt') ↔
      fits T tt type p ∧
        Settable tt.reservedAsUnbuildable (footprint T type p) reserve ∧
        tt' = tt.set (footprint T type p) reserve := by
  unfold fullReserveImpl fits footprint
  cases addonOf T type with
  | none =>
    show tt.reserveAreaImpl T reserve type p = _ ↔ _
    rw [reserveAreaImpl_ok_iff]
    simp
  | some addon =>
    simp only [Option.all_some, Option.map_some, Option.getD_some]
    rw [settable_append, Bool.and_eq_true]
    cases hr : tt.reserveAreaImpl T reserve type p with
    | mk r tt₁ =>
      cases r with
      | error e =>
        refine ⟨fun h => (nomatch (Prod.mk.inj h).1), fun h => ?_⟩
        have := (reserveAreaImpl_ok_iff T).mpr ⟨h.1.1, h.2.1.1, rfl⟩
        rw [hr] at this
        nomatch (Prod.mk.inj this).1
      | ok u =>
        obtain ⟨hin, hset, rfl⟩ := (reserveAreaImpl_ok_iff T).mp hr
        show (tt.set (area T type p) reserve).reserveAreaImpl T reserve addon _ = _ ↔ _
        rw [reserveAreaImpl_ok_iff, and_iff_right hin, and_iff_right hset]
        refine and_congr Iff.rfl (and_congr Iff.rfl ?_)
        rw [TilesInfo.set, TilesInfo.set, TilesInfo.set, setAll_append]

/-! ## what the tasks hold -/

def PlacerTask.held (t : PlacerTask B) : List Tile :=
  if t.reserved then footprint T t.type t.pos else []

/-- what is true of every task on the board -/
structure PlacerTask.Good (tt : TilesInfo) (t : PlacerTask B) : Prop where
  fits : t.reserved = true → fits T tt t.type t.pos = true
  /-- a task holds its tiles until it is finished -/
  flag : t.reserved = !t.finished
  /-- a task that waits for another position has no target -/
  waiting : t.respawn = true →
    t.finished = false ∧ t.target = false ∧ t.targetUpcId = kInvalidUpcId

lemma PlacerTask.held_reserved (h : t.reserved) :
    t.held T = footprint T t.type t.pos := if_pos h

lemma PlacerTask.held_free (h : t.reserved = false) : t.held T = [] :=
  if_neg (by simp [h])

section holdings
variable {T} {K : Type} [DecidableEq K] {hold : K → List Tile} {k : K} {tt : TilesInfo}

lemma unreserveLocation_ok (hx : Exactly tt.reservedAsUnbuildable hold) (hk : hold k = t.held T)
    (hf : t.reserved → fits T tt t.type t.pos) : ∃ flags, t.unreserveLocation T tt =
        .ok ({ t with reserved := false }, { tt with reservedAsUnbuildable := flags }) ∧
      Exactly flags (Function.update hold k []) := by
  unfold unreserveLocation
  cases hr : t.reserved with
  | false =>
    rw [if_neg Bool.false_ne_true]
    rw [held_free T hr] at hk
    refine ⟨tt.reservedAsUnbuildable, ?_, ?_⟩
    · rw [← hr]
    · rw [← hk, update_eq_self]
      exact hx
  | true =>
    rw [held_reserved T hr] at hk
    have hset : Settable tt.reservedAsUnbuildable (footprint T t.type t.pos) false := by
      refine ⟨fun x hmem => (hx.exact x).mpr ⟨k, hk ▸ hmem⟩, hk ▸ hx.nodup k⟩
    have hok := (fullReserveImpl_ok_iff T).mpr ⟨hf hr, hset, rfl⟩
    rw [if_pos rfl, hok]
    refine ⟨_, rfl, ?_⟩
    rw [← hk]
    exact hx.release k

lemma reserveLocation_ok {r : PlacerTask B × TilesInfo}
    (hx : Exactly tt.reservedAsUnbuildable hold) (hk : hold k = []) (ht : t.reserved = false)
    (h : t.reserveLocation T tt = .ok r) :
    ∃ flags, r = ({ t with reserved := true }, { tt with reservedAsUnbuildable := flags }) ∧
      fits T tt t.type t.pos ∧
      Exactly flags (Function.update hold k (footprint T t.type t.pos)) := by
  unfold reserveLocation at h
  rw [if_neg (by simp [ht])] at h
  cases hr : fullReserveImpl T true tt t.type t.pos with
  | mk u tt' =>
    rw [hr] at h
    cases u with
    | error e => nomatch h
    | ok u =>
      cases h
      obtain ⟨hfits, hset, rfl⟩ := (fullReserveImpl_ok_iff T).mp hr
      exact ⟨_, rfl, hfits, hx.acquire hk hset.2 hset.1⟩

lemma setLoop_reserve_error {ts changed : List Tile} {flags : Tile → Bool}
    (h : (setLoop true ts changed flags).1 = .error e) : e = .reserveReserved := by
  induction ts generalizing changed flags with
  | nil => nomatch h
  | cons t ts ih =>
    rw [setLoop] at h
    split at h
    · exact (Except.error.inj h).symm
    · exact ih h

lemma reserveAreaImpl_reserve_error {type : B}
    (h : (tt.reserveAreaImpl T true type p).1 = .error e) : e.unreserve = false := by
  unfold TilesInfo.reserveAreaImpl at h
  split at h
  · rw [setLoop_reserve_error h]
    rfl
  · rw [← Except.error.inj h]
    rfl

lemma reserveLocation_error (h : t.reserveLocation T tt = .error e) : e.unreserve = false := by
  unfold reserveLocation at h
  split at h
  · nomatch h
  · have hfull : ∀ e', (fullReserveImpl T true tt t.type t.pos).1 = .error e' →
        e'.unreserve = false := by
      intro e' he'
      unfold fullReserveImpl at he'
      cases ha : addonOf T t.type with
      | none =>
        rw [ha] at he'
        exact reserveAreaImpl_reserve_error he'
      | some addon =>
        rw [ha] at he'
        cases hr : tt.reserveAreaImpl T true t.type t.pos with
        | mk u tt₁ =>
          rw [hr] at he'
          cases u with
          | error e'' =>
            cases he'
            exact reserveAreaImpl_reserve_error (congrArg Prod.fst hr)
          | ok u => exact reserveAreaImpl_reserve_error he'
    cases hr : fullReserveImpl T true tt t.type t.pos with
    | mk u tt' =>
      rw [hr] at h
      cases u with
      | error e' =>
        obtain rfl := Except.error.inj h
        exact hfull e' (congrArg Prod.fst hr)
      | ok u => nomatch h

end holdings

/-! ## the invariant -/

def hold (s : Placer B) (id : UpcId) : List Tile :=
  match s.tasks.find id with
  | some t => t.held T
  | none => []

structure Inv (s : Placer B) : Prop where
  exactly : Exactly s.tiles.reservedAsUnbuildable (hold T s)
  good : ∀ id t, s.tasks.find id = some t → t.Good T s.tiles
  pending : ∀ id ∈ s.tasksToBeRemoved, ∃ t, s.tasks.find id = some t ∧ t.finished = true
  /-- a task that an update has seen finished is on the removal list -/
  scheduled : ∀ id t, s.tasks.find id = some t → t.finished = true →
    t.status = .cancelled ∨ id ∈ s.tasksToBeRemoved
  reposts : ∀ e ∈ s.reposts, e.2.finished = false

variable {T} {s : Placer B} {id : UpcId} {i : StepInput B} {found : Bool}

lemma inv_start (width height : Nat) : Inv T (start width height : Placer B) where
  exactly :=
    ⟨fun _ => ⟨nofun, fun ⟨_, hk⟩ => absurd hk List.not_mem_nil⟩,
      nofun, fun _ => List.nodup_nil⟩
  good := nofun
  pending := nofun
  scheduled := nofun
  reposts := nofun

lemma hold_assign (s : Placer B) (id : UpcId) (t : PlacerTask B) (tt : TilesInfo)
    (pending : List UpcId) (reposts : List (UpcId × TaskStatus)) :
    hold T ⟨tt, s.tasks.assign id t, pending, reposts⟩ =
      Function.update (hold T s) id (t.held T) := by
  funext j
  rw [hold, find_assign]
  by_cases hj : j = id
  · rw [if_pos hj, hj, update_self]
  · rw [if_neg hj, update_of_ne hj]
    rfl

lemma Good.withFlags {tt : TilesInfo} (h : t.Good T tt) (flags : Tile → Bool) :
    t.Good T { tt with reservedAsUnbuildable := flags } :=
  ⟨h.fits, h.flag, h.waiting⟩

/-- the removal list after one task has become `t` -/
structure Listed (s : Placer B) (id : UpcId) (t : PlacerTask B) (pending : List UpcId) : Prop where
  keeps : ∀ j ∈ s.tasksToBeRemoved, j ∈ pending
  only : ∀ j ∈ pending, j ∈ s.tasksToBeRemoved ∨ j = id
  finished : id ∈ pending → t.finished = true
  scheduled : t.finished = true → t.status = .cancelled ∨ id ∈ pending

lemma Inv.put (h : Inv T s) {flags : Tile → Bool} {pending : List UpcId}
    {reposts : List (UpcId × TaskStatus)}
    (hx : Exactly flags (Function.update (hold T s) id (t.held T))) (ht : t.Good T s.tiles)
    (hp : Listed s id t pending) (hr : ∀ e ∈ reposts, e.2.finished = false) :
    Inv T ⟨{ s.tiles with reservedAsUnbuildable := flags }, s.tasks.assign id t, pending,
      reposts⟩ where
  exactly := by
    rw [hold_assign]
    exact hx
  good := by
    intro j u hu
    rw [find_assign] at hu
    split at hu
    · cases hu
      exact Good.withFlags ht flags
    · exact Good.withFlags (h.good j u hu) flags
  pending := by
    intro j hj
    show ∃ u, (s.tasks.assign id t).find j = some u ∧ u.finished
    rw [find_assign]
    split
    next hjid => exact ⟨t, rfl, hp.finished (hjid ▸ hj)⟩
    next hjid => exact h.pending j ((hp.only j hj).resolve_right hjid)
  scheduled := by
    intro j u hu hfin
    rw [find_assign] at hu
    split at hu
    next hjid =>
      cases hu
      exact hjid ▸ hp.scheduled hfin
    · exact (h.scheduled j u hu hfin).imp_right (hp.keeps j)
  reposts := hr

lemma hold_of_find (h : s.tasks.find id = some t) : hold T s id = t.held T := by
  rw [hold, h]

/-! ## one task in a step -/

/-- every retry gets a position and a UPC -/
def CleanStep (T : BuildTypes B) (s : Placer B) (i : StepInput B) : Prop :=
  ∀ id t, s.tasks.find id = some t → t.respawn = true →
    (placed T t.type (i.position id)).isSome = true ∧ 0 ≤ i.newUpcId id

lemma CleanStep.assign (hi : CleanStep T s i) (ht : t.respawn = false) (tt : TilesInfo)
    (pending : List UpcId) (reposts : List (UpcId × TaskStatus)) :
    CleanStep T ⟨tt, s.tasks.assign id t, pending, reposts⟩ i := by
  intro j u hu hw
  rw [find_assign] at hu
  split at hu
  · cases hu
    nomatch ht.symm.trans hw
  · exact hi j u hu hw

section
variable (h : Inv T s) (hi : CleanStep T s i)
include h hi

lemma postPlaced_ok {c : Create B} {pos : Position}
    (he : ∀ e, postPlaced T s c pos = .error e → e.unreserve) :
    ∃ s', postPlaced T s c pos = .ok s' ∧ Inv T s' ∧ CleanStep T s' i := by
  unfold postPlaced at he ⊢
  cases hr : reserveLocation T
      { targetUpcId := c.newUpcId, type := c.type, pos := pos } s.tiles with
  | error e =>
    rw [hr] at he
    nomatch (reserveLocation_error hr).symm.trans (he e rfl)
  | ok r =>
    cases hf : s.tasks.find c.upcId with
    | some t =>
      rw [hr, hf] at he
      nomatch he _ rfl
    | none =>
      have hk : hold T s c.upcId = [] := by rw [hold, hf]
      obtain ⟨flags, rfl, hfits, hx⟩ := reserveLocation_ok h.exactly hk rfl hr
      refine ⟨_, rfl, ?_⟩
      rw [emplace_eq_assign _ hf]
      refine ⟨h.put hx ⟨fun _ => hfits, rfl, nofun⟩ ⟨fun _ hj => hj,
        fun _ hj => .inl hj, fun hmem => ?_, nofun⟩ h.reposts,
        hi.assign rfl _ _ _⟩
      -- an id on the removal list has a task
      obtain ⟨t, ht, -⟩ := h.pending _ hmem
      nomatch hf.symm.trans ht

lemma create_ok (c : Create B) (he : ∀ e, create T s c = .error e → e.unreserve) :
    ∃ s', create T s c = .ok s' ∧ Inv T s' ∧ CleanStep T s' i := by
  unfold create at he ⊢
  split at he
  next hc =>
    rw [if_pos hc]
    split at he
    · exact ⟨s, rfl, h, hi⟩
    · split at he
      next hid =>
        simp only [if_pos hid]
        exact postPlaced_ok h hi he
      next hid =>
        simp only [if_neg hid]
        exact ⟨s, rfl, h, hi⟩
  next hc =>
    rw [if_neg hc]
    exact ⟨s, rfl, h, hi⟩

lemma retry_ok (id : UpcId) (he : ∀ e, retry T i s id = .error e → e.unreserve) :
    ∃ s', retry T i s id = .ok s' ∧ Inv T s' ∧ CleanStep T s' i := by
  unfold retry at he ⊢
  cases hf : s.tasks.find id with
  | none => exact ⟨s, rfl, h, hi⟩
  | some t =>
    rw [hf] at he
    simp only at he ⊢
    split
    next hw =>
      obtain ⟨hplaced, hnew⟩ := hi id t hf hw
      obtain ⟨pos, hpos⟩ := Option.isSome_iff_exists.mp hplaced
      have hgood := h.good id t hf
      obtain ⟨hfin, -, -⟩ := hgood.waiting hw
      obtain ⟨flags, hun, hx⟩ := unreserveLocation_ok h.exactly (hold_of_find hf) hgood.fits
      rw [if_pos hw, hun] at he
      rw [hun]
      simp only [Except.bind, hpos, if_pos hnew, repost] at he ⊢
      cases hr : reserveLocation T { t with
          reserved := false, respawn := false, targetUpcId := i.newUpcId id, pos := pos }
          { s.tiles with reservedAsUnbuildable := flags } with
      | error e =>
        rw [hr] at he
        nomatch (reserveLocation_error hr).symm.trans (he e rfl)
      | ok r =>
        obtain ⟨flags', rfl, hfits, hx'⟩ := reserveLocation_ok hx (update_self ..) rfl hr
        rw [update_idem] at hx'
        refine ⟨_, rfl, ?_⟩
        simp only [assign_assign]
        refine ⟨h.put hx' ⟨fun _ => hfits, ?_, nofun⟩ ⟨fun _ hj => hj,
          fun _ hj => .inl hj, fun hmem => ?_, fun hdone => ?_⟩
          (forall_mem_append.mpr ⟨h.reposts, forall_mem_singleton.mpr hfin⟩), hi.assign rfl _ _ _⟩
        · show true = !t.finished
          rw [hfin]
          rfl
        · obtain ⟨u, hu, hufin⟩ := h.pending id hmem
          cases hf.symm.trans hu
          exact hufin
        · nomatch hfin.symm.trans hdone
    · exact ⟨s, rfl, h, hi⟩

lemma step_ok (he : ∀ e, s.step T i = .error e → e.unreserve) :
    ∃ s', s.step T i = .ok s' ∧ Inv T s' := by
  unfold step at he ⊢
  have hcreate : ∀ e, i.creates.foldlM (create T) s = .error e → e.unreserve := fun e h' =>
    he e (by rw [h']; rfl)
  obtain ⟨s₁, h₁, hI₁⟩ := Effects.foldlM_ok (fun _ s => Inv T s ∧ CleanStep T s i)
    (fun e : Error => e.unreserve) (fun c _ _ hs => create_ok hs.1 hs.2 c) ⟨h, hi⟩ hcreate
  rw [h₁] at he ⊢
  obtain ⟨s₂, h₂, hI₂⟩ := Effects.foldlM_ok (fun _ s => Inv T s ∧ CleanStep T s i)
    (fun e : Error => e.unreserve) (fun id _ _ hs => retry_ok hs.1 hs.2 id) hI₁ he
  exact ⟨s₂, h₂, hI₂.1⟩

end

/-! ## one task in an update -/

def CleanUpdate (s : Placer B) (found : UpcId → Bool) : Prop :=
  ∀ id t, s.tasks.find id = some t → t.targetUpcId = kInvalidUpcId → found id = false

lemma find_removePending (s : Placer B) (id : UpcId) :
    s.removePending.tasks.find id = if id ∈ s.tasksToBeRemoved then none else s.tasks.find id :=
  find_foldl_erase ..

lemma inv_removePending (h : Inv T s) : Inv T s.removePending where
  exactly := by
    refine h.exactly.congr fun id => ?_
    unfold hold
    rw [find_removePending]
    by_cases hmem : id ∈ s.tasksToBeRemoved
    · obtain ⟨t, ht, hfin⟩ := h.pending id hmem
      have hfree : t.reserved = false := by rw [(h.good id t ht).flag, hfin]; rfl
      rw [if_pos hmem, ht]
      exact (held_free T hfree).symm
    · rw [if_neg hmem]
  good := by
    intro id t ht
    rw [find_removePending] at ht
    split at ht
    · nomatch ht
    · exact h.good id t ht
  pending := nofun
  scheduled := by
    intro id t ht hfin
    rw [find_removePending] at ht
    split at ht
    · nomatch ht
    next hmem => exact .inl ((h.scheduled id t ht hfin).resolve_right hmem)
  reposts := h.reposts

def PlacerTask.sight (t : PlacerTask B) (seen : TaskStatus) : PlacerTask B :=
  { t with target := true, status := seen }

lemma PlacerTask.update_seen {seen : TaskStatus} {tt : TilesInfo}
    (h : (t.target || found)) : t.update T found seen tt =
      if seen.finished then
        if seen = .failure then .ok ((t.sight seen).scheduleRetry, tt)
        else (t.sight seen).unreserveLocation T tt
      else .ok (t.sight seen, tt) := by
  unfold update proxyUpdate
  rw [if_pos h]
  rfl

lemma PlacerTask.update_unseen {seen : TaskStatus} {tt : TilesInfo}
    (h : ¬ (t.target || found)) (hfin : t.finished = false) :
    t.update T found seen tt = .ok (t, tt) := by
  unfold update proxyUpdate
  rw [if_neg h]
  exact if_neg (by simp [hfin])

lemma update_task_ok (h : Inv T s) (hf : s.tasks.find id = some t) (hfin : t.finished = false)
    (hfound : t.targetUpcId = kInvalidUpcId → found = false) (seen : TaskStatus) :
    ∃ t' flags, t.update T found seen s.tiles =
        .ok (t', { s.tiles with reservedAsUnbuildable := flags }) ∧
      Exactly flags (Function.update (hold T s) id (t'.held T)) ∧ t'.Good T s.tiles := by
  have hgood := h.good id t hf
  have hres : t.reserved := by rw [hgood.flag, hfin]; rfl
  have hkeep : ∀ t' : PlacerTask B, t'.held T = t.held T →
      Exactly s.tiles.reservedAsUnbuildable (Function.update (hold T s) id (t'.held T)) := by
    intro t' ht'
    rw [ht', ← hold_of_find hf, update_eq_self]
    exact h.exactly
  by_cases hseen : (t.target || found)
  · -- a task that waits has no target and finds none
    have hno : t.respawn = false := by
      rw [Bool.eq_false_iff]
      intro hw
      obtain ⟨-, htarget, hid⟩ := hgood.waiting hw
      rw [htarget, hfound hid] at hseen
      exact Bool.false_ne_true hseen
    have hnever : t.respawn → False := fun hw => Bool.false_ne_true (hno.symm.trans hw)
    rw [update_seen hseen]
    by_cases hdone : seen.finished
    · rw [if_pos hdone]
      by_cases hfail : seen = .failure
      · rw [if_pos hfail]
        exact ⟨(t.sight seen).scheduleRetry, _, rfl, hkeep _ rfl, hgood.fits, hres,
          fun _ => ⟨rfl, rfl, rfl⟩⟩
      · have hheld : hold T s id = (t.sight seen).held T := (hold_of_find hf).trans rfl
        obtain ⟨flags, hun, hx⟩ := unreserveLocation_ok h.exactly hheld hgood.fits
        rw [if_neg hfail, hun]
        refine ⟨_, flags, rfl, hx, nofun, ?_, fun hw => (hnever hw).elim⟩
        show false = !seen.finished
        rw [hdone]
        rfl
    · rw [if_neg hdone]
      refine ⟨t.sight seen, _, rfl, hkeep _ rfl, hgood.fits, ?_, fun hw => (hnever hw).elim⟩
      show t.reserved = !seen.finished
      rw [hres, Bool.eq_false_iff.mpr hdone]
      rfl
  · rw [update_unseen hseen hfin]
    exact ⟨t, s.tiles.reservedAsUnbuildable, rfl, hkeep t rfl, hgood⟩

/-- the sweep still has to visit `rest` -/
structure Sweeping (T : BuildTypes B) (found : UpcId → Bool) (rest : List UpcId) (s : Placer B) :
    Prop where
  inv : Inv T s
  nodup : rest.Nodup
  unlisted : ∀ id ∈ rest, id ∉ s.tasksToBeRemoved
  clean : ∀ id ∈ rest, ∀ t, s.tasks.find id = some t → t.targetUpcId = kInvalidUpcId →
    found id = false

lemma sweepOne_ok {found : UpcId → Bool} (seen : UpcId → TaskStatus) {rest : List UpcId}
    (h : Sweeping T found (id :: rest) s) :
    ∃ s', sweepOne T found seen s id = .ok s' ∧ Sweeping T found rest s' := by
  obtain ⟨hnew, hnodup⟩ := nodup_cons.mp h.nodup
  have hid := h.unlisted id (mem_cons_self ..)
  unfold sweepOne
  cases hf : s.tasks.find id with
  | none =>
    exact ⟨s, rfl, h.inv, hnodup, fun j hj => h.unlisted j (mem_cons_of_mem _ hj),
      fun j hj => h.clean j (mem_cons_of_mem _ hj)⟩
  | some t =>
    -- one task becomes `t'`, and is listed if it is finished
    have hput : ∀ t' flags,
        Exactly flags (Function.update (hold T s) id (t'.held T)) → t'.Good T s.tiles →
        Sweeping T found rest ⟨{ s.tiles with reservedAsUnbuildable := flags },
          s.tasks.assign id t',
          if t'.finished then s.tasksToBeRemoved ++ [id] else s.tasksToBeRemoved, s.reposts⟩ := by
      intro t' flags hx hgood
      have hlisted : Listed s id t'
          (if t'.finished then s.tasksToBeRemoved ++ [id] else s.tasksToBeRemoved) := by
        split
        next hfin =>
          refine ⟨fun j hj => mem_append_left _ hj, fun j hj => ?_, fun _ => hfin,
            fun _ => .inr (mem_append_right _ (mem_singleton_self id))⟩
          exact (mem_append.mp hj).imp_right mem_singleton.mp
        next hfin =>
          exact ⟨fun _ hj => hj, fun _ hj => .inl hj, fun hj => absurd hj hid,
            fun h' => absurd h' hfin⟩
      refine ⟨h.inv.put hx hgood hlisted h.inv.reposts, hnodup, fun j hj hmem => ?_,
        fun j hj u hu hinv => ?_⟩
      · rcases hlisted.only j hmem with hmem | rfl
        · exact h.unlisted j (mem_cons_of_mem _ hj) hmem
        · exact hnew hj
      · rw [find_assign, if_neg fun hjid : j = id => hnew (hjid ▸ hj)] at hu
        exact h.clean j (mem_cons_of_mem _ hj) u hu hinv
    simp only
    split
    next hstatus =>
      have hfin : t.finished = false := by
        rw [Bool.eq_false_iff]
        intro hfin
        exact (h.inv.scheduled id t hf hfin).elim hstatus hid
      obtain ⟨t', flags, hup, hx, hgood⟩ := update_task_ok h.inv hf hfin
        (h.clean id (mem_cons_self ..) t hf) (seen id)
      rw [hup]
      exact ⟨_, rfl, hput t' flags hx hgood⟩
    · refine ⟨_, rfl, hput t s.tiles.reservedAsUnbuildable ?_ (h.inv.good id t hf)⟩
      rw [← hold_of_find hf, update_eq_self]
      exact h.inv.exactly

lemma update_ok (h : Inv T s) {found : UpcId → Bool} (hc : CleanUpdate s found)
    (seen : UpcId → TaskStatus) : ∃ s', s.update T found seen = .ok s' ∧ Inv T s' := by
  have hstart : Sweeping T found (s.removePending.tasks.rentries.map Prod.fst) s.removePending := by
    refine ⟨inv_removePending h, ?_, fun _ _ => not_mem_nil, fun id _ t ht => ?_⟩
    · rw [Nodup, pairwise_map]
      exact (rentries_sorted _).imp fun hlt => hlt.ne'
    · rw [find_removePending] at ht
      split at ht
      · nomatch ht
      · exact hc id t ht
  obtain ⟨s', hs', hsw⟩ := Effects.foldlM_ok (Sweeping T found) (fun _ : Error => True)
    (fun _ _ _ hs _ => sweepOne_ok seen hs) hstart fun _ _ => trivial
  exact ⟨s', hs', hsw.inv⟩

/-! ## cancelling -/

/-- the task is finished, or it has neither a target nor a retry to come -/
def CleanCancel (s : Placer B) (id : UpcId) : Prop :=
  ∀ t, s.tasks.find id = some t → t.finished = true ∨ (t.target = false ∧ t.respawn = false)

lemma cancel_ok (h : Inv T s) (hc : CleanCancel s id) :
    ∃ s', s.cancel T id = .ok s' ∧ Inv T s' := by
  unfold cancel
  cases hf : s.tasks.find id with
  | none => exact ⟨s, rfl, h⟩
  | some t =>
    have hgood := h.good id t hf
    have hno : t.respawn → False := by
      intro hw
      rcases hc t hf with hfin | ⟨-, hno⟩
      · nomatch (hgood.waiting hw).1.symm.trans hfin
      · nomatch hno.symm.trans hw
    -- what is left of the task is finished and gives its tiles back
    have hput : ∀ t' : PlacerTask B, t'.reserved = t.reserved → t'.type = t.type →
        t'.pos = t.pos → t'.respawn = t.respawn → t'.finished →
        (t'.status = .cancelled ∨ id ∈ s.tasksToBeRemoved) →
        ∃ s', ((t'.unreserveLocation T s.tiles).bind fun r =>
          .ok { s with tiles := r.2, tasks := s.tasks.assign id r.1 }) = .ok s' ∧ Inv T s' := by
      intro t' h1 h2 h3 h4 hfin hsched
      have hheld : hold T s id = t'.held T := by
        rw [hold_of_find hf, held, held, h1, h2, h3]
      obtain ⟨flags, hun, hx⟩ := unreserveLocation_ok h.exactly hheld
        (by rw [h1, h2, h3]; exact hgood.fits)
      rw [hun]
      refine ⟨_, rfl, h.put hx ⟨nofun, ?_, fun hw => (hno (h4 ▸ hw)).elim⟩
        ⟨fun _ hj => hj, fun _ hj => .inl hj, fun _ => hfin, fun _ => hsched⟩ h.reposts⟩
      show false = !t'.finished
      rw [hfin]
      rfl
    simp only [PlacerTask.cancel]
    split
    next htarget =>
      have hfin : t.finished :=
        (hc t hf).resolve_right fun h' => Bool.false_ne_true (h'.1.symm.trans htarget)
      exact hput t rfl rfl rfl rfl hfin (h.scheduled id t hf hfin)
    · exact hput { t with status := .cancelled } rfl rfl rfl rfl rfl (.inl rfl)

/-! ## runs -/

def Op.Clean (T : BuildTypes B) (s : Placer B) : Op B → Prop
  | .step i => CleanStep T s i
  | .update found _ => CleanUpdate s found
  | .cancel id => CleanCancel s id

def cleanSys (T : BuildTypes B) : Sys (Placer B) (Op B) where
  run := Op.run T
  ok := fun s o => o.Allowed T s ∧ o.Clean T s

lemma exec_ok (h : Inv T s) {o : Op B} (ha : o.Allowed T s) (hc : o.Clean T s) :
    ∃ s', o.exec T s = .ok s' ∧ Inv T s' := by
  cases o with
  | step i => exact step_ok h hc ha
  | update found seen => exact update_ok h hc seen
  | cancel id => exact cancel_ok h hc

lemma inv_run (h : Inv T s) (o : Op B)
    (ho : o.Allowed T s ∧ o.Clean T s) : Inv T (o.run T s) := by
  obtain ⟨s', hexec, hinv⟩ := exec_ok h ho.1 ho.2
  rw [Op.run, hexec]
  exact hinv

/-- **The reserved tiles are the disjoint union of the footprints of the unfinished tasks**, if a
task is cancelled only when it is finished or has neither a target nor a retry to come, and each
retry gets a position and a UPC. -/
theorem reservations_exact {B : Type} [DecidableEq B] (T : BuildTypes B) (width height : Nat)
    (os : List (Op B)) (hl : (cleanSys T).Legal (start width height) os) :
    let s := (cleanSys T).out (start width height) os
    (∀ x, s.tiles.reservedAsUnbuildable x = true ↔ ∃ id t, s.tasks.find id = some t ∧
      t.finished = false ∧ x ∈ footprint T t.type t.pos) ∧
    (∀ x id id' t t', s.tasks.find id = some t → s.tasks.find id' = some t' →
      t.finished = false → t'.finished = false → x ∈ footprint T t.type t.pos →
      x ∈ footprint T t'.type t'.pos → id = id') ∧
    (∀ id t, s.tasks.find id = some t → t.finished = true →
      t.reserved = false ∧ t.respawn = false) ∧
    (∀ e ∈ s.reposts, e.2.finished = false) ∧
    (s.tasks.entries = [] → ∀ x, s.tiles.reservedAsUnbuildable x = false) ∧
    ∀ o, (cleanSys T).ok s o → ∃ s', o.exec T s = .ok s' := by
  intro s
  have h : Inv T s := (cleanSys T).invariant (Inv T) (fun _ o hi ho => inv_run hi o ho) _
    (inv_start width height) os hl
  have hheld : ∀ id t, s.tasks.find id = some t → t.finished = false →
      hold T s id = footprint T t.type t.pos := by
    intro id t ht hfin
    rw [hold_of_find ht]
    exact held_reserved T (by rw [(h.good id t ht).flag, hfin]; rfl)
  have hexact : ∀ x, s.tiles.reservedAsUnbuildable x ↔ ∃ id t,
      s.tasks.find id = some t ∧ t.finished = false ∧ x ∈ footprint T t.type t.pos := by
    intro x
    rw [h.exactly.exact]
    constructor
    · rintro ⟨id, hx⟩
      cases hf : s.tasks.find id with
      | none =>
        rw [hold, hf] at hx
        nomatch hx
      | some t =>
        have hgood := h.good id t hf
        cases hfin : t.finished with
        | true =>
          rw [hold_of_find hf, held_free T (by rw [hgood.flag, hfin]; rfl)] at hx
          nomatch hx
        | false => exact ⟨id, t, hf, hfin, hheld id t hf hfin ▸ hx⟩
    · rintro ⟨id, t, hf, hfin, hx⟩
      exact ⟨id, hheld id t hf hfin ▸ hx⟩
  refine ⟨hexact, fun x id id' t t' ht ht' hfin hfin' hx hx' => ?_, fun id t ht hfin => ?_,
    h.reposts, fun hnone x => ?_, fun o ho => ?_⟩
  · refine h.exactly.disjoint x id id' ?_ ?_
    · exact hheld id t ht hfin ▸ hx
    · exact hheld id' t' ht' hfin' ▸ hx'
  · have hgood := h.good id t ht
    refine ⟨by rw [hgood.flag, hfin]; rfl, Bool.eq_false_iff.mpr fun hw => ?_⟩
    nomatch (hgood.waiting hw).1.symm.trans hfin
  · rw [Bool.eq_false_iff]
    intro hx
    obtain ⟨id, t, hf, -⟩ := (hexact x).mp hx
    rw [find_eq_some, hnone] at hf
    nomatch hf
  · obtain ⟨s', hexec, -⟩ := exec_ok h ho.1 ho.2
    exact ⟨s', hexec⟩

/-! ## runs on a small map -/

def small : BuildTypes Nat where
  tileWidth := fun _ => 1
  tileHeight := fun _ => 1
  isBuilding := fun _ => true
  builtByWorker := fun _ => true
  commandCenter := 1
  comsatStation := 2
  factory := 3
  machineShop := 4
  starport := 5
  controlTower := 6
  scienceFacility := 7
  physicsLab := 8

/-- a task for the UPC `5` at tile `(1, 1)`, with the target `6` -/
def place : Op Nat := .step ⟨[⟨5, true, 0, some ⟨4, 4⟩, 6⟩], [], fun _ => none, fun _ => -2⟩

def seeing (status : TaskStatus) : Op Nat := .update (fun _ => true) fun _ => status

/-- a step in which the retries of task `5` get the position, and the UPC id `7` -/
def retrying (position : Option Position) : Op Nat :=
  .step ⟨[], [5], fun _ => position, fun _ => 7⟩

lemma allowed_of_ok {s s' : Placer Nat} {o : Op Nat} (h : o.exec small s = .ok s') :
    o.Allowed small s :=
  fun _ he => nomatch h.symm.trans he

theorem reservations_exact_placed :
    let os := [place, seeing .failure, retrying (some ⟨8, 8⟩)]
    (cleanSys small).Legal (start 8 8) os ∧
      ((cleanSys small).out (start 8 8) os).tiles.reservedAsUnbuildable (2, 2) = true := by
  intro os
  have hl : (cleanSys small).Legal (start 8 8) os := by
    refine ⟨⟨allowed_of_ok rfl, nofun⟩, ⟨allowed_of_ok rfl, fun id t hf htarget => ?_⟩,
      ⟨allowed_of_ok rfl, fun _ _ _ _ => ⟨rfl, (by decide : (0 : Int) ≤ 7)⟩⟩, trivial⟩
    rw [find_eq_some] at hf
    cases mem_singleton.mp hf
    exact absurd htarget (by decide)
  refine ⟨hl, ((reservations_exact small 8 8 os hl).1 (2, 2)).mpr ?_⟩
  exact ⟨5, _, rfl, rfl, mem_singleton_self _⟩

/-- A task that is cancelled while it waits for another position still gets one, and its tile stays
reserved when the task is gone. -/
theorem reservations_lost :
    ((placerSys small).Legal (start 8 8) [place, seeing .failure, .cancel 5,
        retrying (some ⟨8, 8⟩), seeing .ongoing, seeing .ongoing] ∧
      let s := (placerSys small).out (start 8 8) [place, seeing .failure, .cancel 5,
        retrying (some ⟨8, 8⟩), seeing .ongoing, seeing .ongoing]
      s.tasks.entries = [] ∧ s.tiles.reservedAsUnbuildable (2, 2) = true ∧
        s.reposts = [(5, .cancelled)]) ∧
    ((placerSys small).Legal (start 8 8) [place, seeing .ongoing, .cancel 5] ∧
      let s := (placerSys small).out (start 8 8) [place, seeing .ongoing, .cancel 5]
      (s.tasks.find 5).map PlacerTask.status = some .ongoing ∧
        s.tiles.reservedAsUnbuildable (1, 1) = false) ∧
    ((placerSys small).Legal (start 8 8) [place, seeing .failure, retrying none] ∧
      let s := (placerSys small).out (start 8 8) [place, seeing .failure, retrying none]
      (s.tasks.find 5).map PlacerTask.status = some .unknown ∧
        s.tiles.reservedAsUnbuildable (1, 1) = false) :=
  ⟨⟨⟨allowed_of_ok rfl, allowed_of_ok rfl, allowed_of_ok rfl, allowed_of_ok rfl, allowed_of_ok rfl,
      allowed_of_ok rfl, trivial⟩, rfl, rfl, rfl⟩,
    ⟨⟨allowed_of_ok rfl, allowed_of_ok rfl, allowed_of_ok rfl, trivial⟩, rfl, rfl⟩,
    ⟨⟨allowed_of_ok rfl, allowed_of_ok rfl, allowed_of_ok rfl, trivial⟩, rfl, rfl⟩⟩

end TorchCraft.Placer
