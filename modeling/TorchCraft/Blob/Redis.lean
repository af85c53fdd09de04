import TorchCraft.Blob.Disk
import TorchCraft.Lib.Pool
import TorchCraft.Lib.Sys

/-!
# The Redis store

`BlobStorageRedis::put` sets the key if it is free; otherwise it sends a pipeline of ten renames of
the key to its backup names and tries again.  The server executes the commands of all clients one at
a time in any order.

* `Phase`  where a client is in `put`; the replies of a pipeline are looked at in its end;
* `redisSys`  any number of clients, any interleaving; `calmSys` the same for calm steps;
* `Pending`, `Settled` the key holds the last value that was set, or a client is about to set it.

A failed `ASSERT` ends the put with its text (by default it ends the process).
-/

set_option linter.unusedSectionVars false

namespace TorchCraft.BlobStorage
open Lib List Function
open Function (update_of_ne update_self)

/-! ## the server -/

inductive SetReply where
  | integer (n : Int)
  | status
  deriving DecidableEq

inductive RenameReply where
  | integer (n : Int)
  | error (text : String)
  deriving DecidableEq

/-- the key, and `{key}.old-1` … `{key}.old-10` counted from 0 -/
structure Server (V : Type) where
  key : Option V := none
  old : Nat → Option V := fun _ => none

namespace Server
variable {V : Type} (db : Server V)

def setnx (v : V) : SetReply × Server V :=
  match db.key with
  | some _ => (.integer 0, db)
  | none => (.integer 1, { db with key := some v })

def set (v : V) : SetReply × Server V := (.status, { db with key := some v })

def renamenx (i : Nat) : RenameReply × Server V :=
  match db.key with
  | none => (.error "ERR no such key", db)
  | some v =>
    match db.old i with
    | some _ => (.integer 0, db)
    | none => (.integer 1, ⟨none, update db.old i (some v)⟩)

def contents : List V := db.key.toList ++ (List.range kMaxOldVersions).filterMap db.old

def free : Nat := (List.range kMaxOldVersions).countP fun i => (db.old i).isNone

def Full : Prop := ∀ i < kMaxOldVersions, (db.old i).isSome = true

end Server

/-! ## the clients -/

/-- the reply of the pipeline that decides: the first that is not the integer 0 -/
inductive Seen where
  | nothing
  | renamed
  | error (text : String)
  deriving DecidableEq

inductive Phase (V : Type) where
  | idle
  | setnx (v : V)
  | set (v : V)
  | rename (v : V) (sent : Nat) (seen : Seen)
  deriving DecidableEq

structure Store (C V : Type) where
  db : Server V := {}
  phase : C → Phase V := fun _ => .idle
  /-- the values that were set, in order -/
  stored : List V := []
  /-- the texts of the puts that threw -/
  thrown : List String := []

/-- `BlobStorageRedis::get` of `key`, which is `k` on the server -/
def redisGet {V : Type} (key k : String) (db : Server V) : Except String V :=
  match db.key with
  | none => .error ("No data found for key '" ++ key ++ "' at '" ++ k ++ "'")
  | some v => .ok v

section Exec
variable {C V : Type} [DecidableEq C]

namespace Store

def setPhase (s : Store C V) (c : C) (p : Phase V) : Store C V :=
  { s with phase := update s.phase c p }

def throw (s : Store C V) (c : C) (text : String) : Store C V :=
  { s.setPhase c .idle with thrown := s.thrown ++ [text] }

def noteStored (s : Store C V) (v : V) : Store C V := { s with stored := s.stored ++ [v] }

end Store

/-- `replies[i].integer() == 1`, in the order of the replies, up to the first rename or exception -/
def Seen.next (seen : Seen) (reply : RenameReply) : Seen :=
  match seen, reply with
  | .nothing, .integer n => if n = 1 then .renamed else .nothing
  | .nothing, .error text => .error ("Error: " ++ text)
  | seen, _ => seen

variable (s : Store C V)

def afterPipeline (c : C) (v : V) : Seen → Store C V
  | .renamed => s.setPhase c (.setnx v)
  | .nothing => s.setPhase c (.set v)
  | .error text => s.throw c text

def afterRename (c : C) (v : V) (sent : Nat) (seen : Seen) : Store C V :=
  if sent < kMaxOldVersions then s.setPhase c (.rename v sent seen) else afterPipeline s c v seen

def afterSet (c : C) (v : V) : SetReply → Store C V
  | .integer n =>
    if n = 1 then (s.noteStored v).setPhase c .idle else s.setPhase c (.rename v 0 .nothing)
  | .status => (s.noteStored v).throw c "Assertion \"reply.isInteger()\" "

/-- the server executes the next command of `c` -/
def Store.exec (c : C) : Store C V :=
  match s.phase c with
  | .idle => s
  | .setnx v => afterSet { s with db := (s.db.setnx v).2 } c v (s.db.setnx v).1
  | .set v => afterSet { s with db := (s.db.set v).2 } c v (s.db.set v).1
  | .rename v sent seen =>
    afterRename { s with db := (s.db.renamenx sent).2 } c v (sent + 1)
      (seen.next (s.db.renamenx sent).1)

inductive RedisOp (C V : Type) where
  | put (c : C) (v : V)
  | exec (c : C)
  | get (c : C)

def RedisOp.run : RedisOp C V → Store C V
  | .put c v => s.setPhase c (.setnx v)
  | .exec c => s.exec c
  | .get _ => s

def RedisOp.Ok : RedisOp C V → Prop
  | .put c _ => s.phase c = .idle
  | .exec c => s.phase c ≠ .idle
  | .get c => s.phase c = .idle

/-- the next command is not the fallback `SET`, and if it is a rename before the first successful one
of its pipeline, it finds the key -/
def Phase.Calm (db : Server V) : Phase V → Prop
  | .set _ => False
  | .rename _ _ .nothing => db.key.isSome = true
  | _ => True

def Calm (s : Store C V) : RedisOp C V → Prop
  | .exec c => (s.phase c).Calm s.db
  | _ => True

instance [DecidableEq V] (s : Store C V) (o : RedisOp C V) : Decidable (o.Ok s) :=
  match o with
  | .put c _ => inferInstanceAs (Decidable (s.phase c = .idle))
  | .exec c => inferInstanceAs (Decidable (s.phase c ≠ .idle))
  | .get c => inferInstanceAs (Decidable (s.phase c = .idle))

instance (db : Server V) (p : Phase V) : Decidable (p.Calm db) :=
  match p with
  | .set _ => isFalse id
  | .rename _ _ .nothing => inferInstanceAs (Decidable (db.key.isSome = true))
  | .rename _ _ .renamed | .rename _ _ (.error _) | .idle | .setnx _ => isTrue trivial

instance (s : Store C V) (o : RedisOp C V) : Decidable (Calm s o) :=
  match o with
  | .put _ _ => isTrue trivial
  | .exec c => inferInstanceAs (Decidable ((s.phase c).Calm s.db))
  | .get _ => isTrue trivial

def redisSys (C V : Type) [DecidableEq C] : Sys (Store C V) (RedisOp C V) where
  run := RedisOp.run
  ok := RedisOp.Ok

def calmSys (C V : Type) [DecidableEq C] : Sys (Store C V) (RedisOp C V) where
  run := RedisOp.run
  ok s o := o.Ok s ∧ Calm s o

instance [DecidableEq V] (s : Store C V) (o : RedisOp C V) : Decidable ((redisSys C V).ok s o) :=
  inferInstanceAs (Decidable (o.Ok s))

instance [DecidableEq V] (s : Store C V) (o : RedisOp C V) : Decidable ((calmSys C V).ok s o) :=
  inferInstanceAs (Decidable (o.Ok s ∧ Calm s o))

/-! ## what a command does -/

/-- every change of a run: a put starts, a key is set, found taken or overwritten, or a rename gets
its reply -/
inductive Change (s : Store C V) : Store C V → Prop where
  | same : Change s s
  | begin (c : C) (v : V) (h : s.phase c = .idle) : Change s (s.setPhase c (.setnx v))
  | stored (c : C) (v : V) (h : s.phase c = .setnx v) (hk : s.db.key = none) :
    Change s ((({ s with db := { s.db with key := some v } } : Store C V).noteStored v).setPhase c
      .idle)
  | found (c : C) (v : V) (h : s.phase c = .setnx v) (hk : s.db.key.isSome = true) :
    Change s (s.setPhase c (.rename v 0 .nothing))
  | overwritten (c : C) (v : V) (h : s.phase c = .set v) :
    Change s ((({ s with db := { s.db with key := some v } } : Store C V).noteStored v).throw c
      "Assertion \"reply.isInteger()\" ")
  | missing (c : C) (v : V) (i : Nat) (seen : Seen) (h : s.phase c = .rename v i seen)
    (hk : s.db.key = none) :
    Change s (afterRename s c v (i + 1) (seen.next (.error "ERR no such key")))
  | taken (c : C) (v : V) (i : Nat) (seen : Seen) (h : s.phase c = .rename v i seen)
    (hk : s.db.key.isSome = true) (ho : (s.db.old i).isSome = true) :
    Change s (afterRename s c v (i + 1) seen)
  | moved (c : C) (v : V) (i : Nat) (seen : Seen) (h : s.phase c = .rename v i seen) (w : V)
    (hk : s.db.key = some w) (ho : s.db.old i = none) :
    Change s (afterRename { s with db := ⟨none, update s.db.old i (some w)⟩ } c v (i + 1)
      (seen.next (.integer 1)))

lemma Seen.next_zero (seen : Seen) : seen.next (.integer 0) = seen := by
  cases seen <;> rfl

lemma change_exec (c : C) : Change s (s.exec c) := by
  unfold Store.exec
  cases hp : s.phase c with
  | idle => exact .same
  | setnx v =>
    simp only [Server.setnx]
    cases hk : s.db.key with
    | none => exact .stored c v hp hk
    | some w => exact .found c v hp (by rw [hk]; rfl)
  | set v => exact .overwritten c v hp
  | rename v i seen =>
    simp only [Server.renamenx]
    cases hk : s.db.key with
    | none => exact .missing c v i seen hp hk
    | some w =>
      cases ho : s.db.old i with
      | none => exact .moved c v i seen hp w hk ho
      | some x =>
        simp only [Seen.next_zero]
        exact .taken c v i seen hp (by rw [hk]; rfl) (by rw [ho]; rfl)

variable {o : RedisOp C V} {db db' : Server V} {p : Phase V} {i n : Nat} {f : Nat → Option V}
  {s s' : Store C V} {os : List (RedisOp C V)}

lemma change_run {s : Store C V} (ho : o.Ok s) : Change s (o.run s) := by
  cases o with
  | put c v => exact .begin c v ho
  | exec c => exact change_exec s c
  | get c => exact .same

def Phase.next (v : V) (sent : Nat) (seen : Seen) : Phase V :=
  if sent < kMaxOldVersions then .rename v sent seen
  else match seen with
    | .renamed => .setnx v
    | .nothing => .set v
    | .error _ => .idle

section AfterRename
variable (s : Store C V) (c : C) (v : V) (sent : Nat) (seen : Seen)

@[simp] lemma afterRename_db : (afterRename s c v sent seen).db = s.db := by
  unfold afterRename
  split
  · rfl
  · cases seen <;> rfl

@[simp] lemma afterRename_stored : (afterRename s c v sent seen).stored = s.stored := by
  unfold afterRename
  split
  · rfl
  · cases seen <;> rfl

@[simp] lemma afterRename_phase : (afterRename s c v sent seen).phase
    = update s.phase c (Phase.next v sent seen) := by
  unfold afterRename Phase.next
  split
  · rfl
  · cases seen <;> rfl

end AfterRename

/-! ## nothing is lost -/

def Server.Grows (db db' : Server V) : Prop :=
  ∀ i, (db.old i).isSome = true → (db'.old i).isSome = true

lemma Server.Full.grows (h : db.Full) (hg : db.Grows db') : db'.Full :=
  fun i hi => hg i (h i hi)

lemma Server.grows_update (db : Server V) (i : Nat) (w : V) :
    db.Grows ⟨none, update db.old i (some w)⟩ := by
  intro j hj
  by_cases h : j = i
  · simp [h]
  · simpa [h] using hj

/-- what a client knows of the backup names -/
def PhaseOk (db : Server V) : Phase V → Prop
  | .rename _ sent seen => sent < kMaxOldVersions ∧
      (seen = .nothing → ∀ i < sent, (db.old i).isSome = true)
  | .set _ => db.Full
  | _ => True

lemma PhaseOk.grows (hg : db.Grows db') (h : PhaseOk db p) : PhaseOk db' p := by
  cases p with
  | idle | setnx => trivial
  | set v => exact Server.Full.grows h hg
  | rename v sent seen => exact ⟨h.1, fun hs i hi => hg i (h.2 hs i hi)⟩

lemma phaseOk_next {db : Server V} (v : V) {sent : Nat} {seen : Seen}
    (h : seen = .nothing → ∀ i < sent, (db.old i).isSome) :
    PhaseOk db (Phase.next v sent seen) := by
  unfold Phase.next
  split
  next hlt => exact ⟨hlt, h⟩
  next hge =>
    cases seen with
    | renamed | error => trivial
    | nothing => exact fun i hi => h rfl i (by omega)

section backups

lemma map_update_range (o : Option V) :
    (range n).map (update f i o) = ((range n).map f).set i o := by
  refine ext_getElem (by simp) fun j _ _ => ?_
  by_cases hj : j = i
  · simp [hj]
  · simp [hj, Ne.symm hj]

variable (hi : i < n) (hf : f i = none) (w : V)
include hi hf

lemma filterMap_update_perm :
    ((range n).filterMap (update f i (some w))).Perm (w :: (range n).filterMap f) := by
  have h := Pool.filterMap_add (l := (range n).map f) (i := i) (f := id) (b := some w) (a := none)
    (by simp [hi, hf]) rfl rfl
  rwa [← map_update_range, filterMap_map, filterMap_map] at h

lemma countP_isNone_update : ((range n).countP fun j => (update f i (some w) j).isNone) + 1
    = (range n).countP fun j => (f j).isNone := by
  have h := Pool.countP_remove (l := (range n).map f) (i := i) (p := Option.isNone) (b := some w)
    (a := none) (by simp [hi, hf]) rfl rfl
  rw [← map_update_range, countP_map, countP_map] at h
  exact h.symm

end backups

structure Kept (s : Store C V) : Prop where
  phases : ∀ c, PhaseOk s.db (s.phase c)
  key : ∀ v, s.db.key = some v → s.stored.getLast? = some v
  stored : s.stored.Perm s.db.contents ∨ s.db.Full

lemma phases_update {ph : C → Phase V} (h : ∀ c, PhaseOk db (ph c))
    (hg : db.Grows db') (c : C) (hp : PhaseOk db' p) : ∀ c', PhaseOk db' (update ph c p c') :=
  (forall_update_iff ph fun _ => PhaseOk db').mpr ⟨hp, fun c' _ => (h c').grows hg⟩

lemma Server.Grows.refl (db : Server V) : db.Grows db := fun _ h => h

lemma kept_change (hk : Kept s) (h : Change s s') : Kept s' := by
  cases h with
  | same => exact hk
  | begin c v h =>
    exact ⟨phases_update hk.phases (.refl _) c trivial, hk.key, hk.stored⟩
  | stored c v h hkey =>
    refine ⟨phases_update hk.phases (fun _ h => h) c trivial, fun w hw => ?_, ?_⟩
    · cases hw
      exact getLast?_concat
    · refine hk.stored.imp (fun hp => ?_) (fun hf => hf)
      have hc : s.db.contents = (range kMaxOldVersions).filterMap s.db.old := by
        unfold Server.contents
        rw [hkey]
        rfl
      rw [hc] at hp
      exact (perm_append_singleton v s.stored).trans (hp.cons v)
  | found c v h hkey =>
    refine ⟨phases_update hk.phases (.refl _) c ⟨by decide, fun _ i hi => ?_⟩, hk.key, hk.stored⟩
    exact absurd hi (Nat.not_lt_zero i)
  | overwritten c v h =>
    have hfull : s.db.Full := by
      have := hk.phases c
      rwa [h] at this
    refine ⟨phases_update hk.phases (fun _ h => h) c trivial, fun w hw => ?_, Or.inr hfull⟩
    cases hw
    exact getLast?_concat
  | missing c v i seen h hkey =>
    refine ⟨?_, by simpa using hk.key, by simpa using hk.stored⟩
    rw [afterRename_phase, afterRename_db]
    refine phases_update hk.phases (.refl _) c (phaseOk_next v fun hs => ?_)
    cases seen <;> cases hs
  | taken c v i seen h hkey ho =>
    refine ⟨?_, by simpa using hk.key, by simpa using hk.stored⟩
    rw [afterRename_phase, afterRename_db]
    refine phases_update hk.phases (.refl _) c (phaseOk_next v fun hs j hj => ?_)
    have hph := hk.phases c
    rw [h] at hph
    by_cases hji : j = i
    · rw [hji]
      exact ho
    · exact hph.2 hs j (by omega)
  | moved c v i seen h w hkey ho =>
    have hph := hk.phases c
    rw [h] at hph
    refine ⟨?_, ?_, ?_⟩
    · rw [afterRename_phase, afterRename_db]
      refine phases_update hk.phases (Server.grows_update s.db i w) c (phaseOk_next v fun hs => ?_)
      cases seen <;> cases hs
    · intro x hx
      rw [afterRename_db] at hx
      cases hx
    · rw [afterRename_stored, afterRename_db]
      refine hk.stored.imp (fun hp => hp.trans ?_) (fun hf => hf.grows (Server.grows_update s.db i w))
      unfold Server.contents
      rw [hkey]
      exact (filterMap_update_perm hph.1 ho w).symm

/-! ## puts that throw -/

def Seen.isError : Seen → Bool
  | .error _ => true
  | _ => false

/-- the client has an exception in its pipeline -/
def Phase.doomed : Phase V → Bool
  | .rename _ _ seen => seen.isError
  | _ => false

/-- no put has thrown, and none is going to -/
def Unharmed (s : Store C V) : Prop := s.thrown = [] ∧ ∀ c, (s.phase c).doomed = false

def OthersUnharmed (s : Store C V) (c : C) : Prop :=
  s.thrown = [] ∧ ∀ d, d ≠ c → (s.phase d).doomed = false

lemma unharmed_iff (s : Store C V) (c : C) :
    Unharmed s ↔ OthersUnharmed s c ∧ (s.phase c).doomed = false := by
  constructor
  · rintro ⟨ht, hd⟩
    exact ⟨⟨ht, fun d _ => hd d⟩, hd c⟩
  · rintro ⟨⟨ht, hd⟩, hc⟩
    refine ⟨ht, fun d => ?_⟩
    by_cases h : d = c
    · rw [h]
      exact hc
    · exact hd d h

lemma unharmed_setPhase (s : Store C V) (c : C) (p : Phase V) :
    Unharmed (s.setPhase c p) ↔ OthersUnharmed s c ∧ p.doomed = false := by
  rw [unharmed_iff _ c]
  unfold OthersUnharmed Store.setPhase
  simp only [update_self]
  refine and_congr_left fun _ => and_congr_right fun _ => forall_congr' fun d => ?_
  refine imp_congr_right fun hd => ?_
  rw [update_of_ne hd]

lemma not_unharmed_throw (s : Store C V) (c : C) (text : String) : ¬ Unharmed (s.throw c text) :=
  fun h => by simpa [Store.throw] using h.1

lemma unharmed_afterRename (s : Store C V) (c : C) (v : V) (sent : Nat) (seen : Seen) :
    Unharmed (afterRename s c v sent seen) ↔ OthersUnharmed s c ∧ seen.isError = false := by
  unfold afterRename
  split
  · exact unharmed_setPhase s c _
  · cases seen with
    | nothing | renamed => exact unharmed_setPhase s c _
    | error text =>
      constructor
      · exact fun h => absurd h (not_unharmed_throw s c text)
      · rintro ⟨-, h⟩
        cases h

lemma seen_next_isError (seen : Seen) (reply : RenameReply) :
    (seen.next reply).isError = false ↔
      seen.isError = false ∧ (seen = .nothing → ∃ n, reply = .integer n) := by
  cases seen with
  | renamed | error => simp [Seen.next, Seen.isError]
  | nothing =>
    cases reply with
    | error text => simp [Seen.next, Seen.isError]
    | integer n =>
      by_cases hn : n = 1 <;> simp [Seen.next, Seen.isError, hn]

lemma renamenx_integer (db : Server V) (i : Nat) :
    (∃ n, (db.renamenx i).1 = .integer n) ↔ db.key.isSome := by
  unfold Server.renamenx
  cases db.key with
  | none => simp
  | some v => cases db.old i <;> simp

/-- **A step harms a put exactly if it is not calm.** -/
theorem unharmed_run (ho : o.Ok s) : Unharmed (o.run s) ↔ Unharmed s ∧ Calm s o := by
  cases o with
  | get c => exact (and_iff_left trivial).symm
  | put c v =>
    have hp : s.phase c = .idle := ho
    show Unharmed (s.setPhase c (.setnx v)) ↔ _
    rw [unharmed_setPhase, unharmed_iff s c, hp]
    exact (and_iff_left trivial).symm
  | exec c =>
    show Unharmed (s.exec c) ↔ Unharmed s ∧ (s.phase c).Calm s.db
    rw [unharmed_iff s c]
    unfold Store.exec
    cases hp : s.phase c with
    | idle => exact absurd hp ho
    | setnx v =>
      simp only [Phase.doomed, Phase.Calm, and_true, Server.setnx]
      cases s.db.key with
      | none | some => exact (unharmed_setPhase _ c _).trans (and_iff_left rfl)
    | set v =>
      simp only [Phase.Calm, and_false, iff_false]
      exact not_unharmed_throw _ c _
    | rename v i seen =>
      simp only [unharmed_afterRename, seen_next_isError, renamenx_integer, Phase.doomed]
      refine (and_assoc (b := seen.isError = false)).symm.trans (and_congr_right fun _ => ?_)
      cases seen <;> simp [Phase.Calm]

lemma unharmed_out (hl : (redisSys C V).Legal s os) :
    Unharmed ((redisSys C V).out s os) ↔ Unharmed s ∧ (calmSys C V).Legal s os := by
  induction os generalizing s with
  | nil => exact (and_iff_left trivial).symm
  | cons o os ih =>
    rw [Sys.out_cons, ih hl.2]
    show Unharmed (o.run s) ∧ _ ↔ Unharmed s ∧ (o.Ok s ∧ Calm s o) ∧ _
    rw [unharmed_run hl.1]
    constructor
    · rintro ⟨⟨hu, hc⟩, h⟩
      exact ⟨hu, ⟨hl.1, hc⟩, h⟩
    · rintro ⟨hu, ⟨-, hc⟩, h⟩
      exact ⟨⟨hu, hc⟩, h⟩

/-! ## the key holds the last value -/

/-- the client is going to set the key, or finds it set -/
def Phase.pending : Phase V → Bool
  | .setnx _ => true
  | .rename _ _ .renamed => true
  | _ => false

/-- the key is free at first, and else only while a client is about to set it -/
def Settled (s : Store C V) : Prop :=
  s.db.key = none → s.stored = [] ∨ ∃ c, (s.phase c).pending = true

lemma pending_next (v : V) (sent : Nat) : (Phase.next v sent .renamed).pending := by
  unfold Phase.next
  split <;> rfl

lemma pending_update {ph : C → Phase V} {d : C} (hd : (ph d).pending) (c : C)
    (hp : d = c → p.pending) : ∃ c', (update ph c p c').pending := by
  by_cases h : d = c
  · exact ⟨c, by rw [update_self]; exact hp h⟩
  · exact ⟨d, by rw [update_of_ne h]; exact hd⟩

lemma settled_change (hu : Unharmed s) (hs : Settled s) (h : Change s s') : Settled s' := by
  cases h with
  | same => exact hs
  | begin c v h =>
    intro hk
    exact (hs hk).imp_right fun ⟨d, hd⟩ => pending_update hd c fun _ => rfl
  | stored c v h hkey => exact fun hk => by cases hk
  | found c v h hkey =>
    intro hk
    have hk : s.db.key = none := hk
    rw [hk] at hkey
    cases hkey
  | overwritten c v h => exact fun hk => by cases hk
  | missing c v i seen h hkey =>
    intro _
    rw [afterRename_stored, afterRename_phase]
    refine (hs hkey).imp_right fun ⟨d, hd⟩ => pending_update hd c fun hdc => ?_
    rw [hdc, h] at hd
    cases seen with
    | nothing | error => cases hd
    | renamed => exact pending_next v (i + 1)
  | taken c v i seen h hkey ho =>
    intro hk
    rw [afterRename_db] at hk
    rw [hk] at hkey
    cases hkey
  | moved c v i seen h w hkey ho =>
    intro _
    right
    refine ⟨c, ?_⟩
    rw [afterRename_phase, update_self]
    have hdoomed := hu.2 c
    rw [h] at hdoomed
    cases seen with
    | error text => cases hdoomed
    | nothing | renamed => exact pending_next v (i + 1)

/-! ## a put returns -/

lemma Server.free_moved {db : Server V} (hi : i < kMaxOldVersions) (ho : db.old i = none)
    (w : V) : (Server.mk none (update db.old i (some w))).free + 1 = db.free :=
  countP_isNone_update hi ho w

/-- a bound for the commands a put still sends; each pipeline takes a free name -/
def remaining (db : Server V) : Phase V → Nat
  | .idle => 0
  | .setnx _ => 11 * db.free + 12
  | .set _ => 1
  | .rename _ sent .nothing => 11 * db.free + 11 - sent
  | .rename _ sent _ => 11 * db.free + 22 - sent

lemma remaining_mono (h : db'.free ≤ db.free) (p : Phase V) :
    remaining db' p ≤ remaining db p := by
  cases p with
  | idle | set => exact le_rfl
  | setnx v => simp only [remaining]; omega
  | rename v sent seen => cases seen <;> simp only [remaining] <;> omega

lemma remaining_le (db : Server V) (p : Phase V) : remaining db p ≤ 132 := by
  have hfree : db.free ≤ 10 := countP_le_length
  cases p with
  | idle | set | setnx => simp only [remaining]; omega
  | rename v sent seen => cases seen <;> simp only [remaining] <;> omega

lemma free_change (hk : Kept s) (h : Change s s') : s'.db.free ≤ s.db.free := by
  cases h with
  | moved c v i seen h w hkey ho =>
    have hph := hk.phases c
    rw [h] at hph
    rw [afterRename_db, ← Server.free_moved hph.1 ho w]
    exact Nat.le_succ _
  | missing | taken => rw [afterRename_db]
  | _ => exact le_rfl

lemma exec_phase_of_ne (s : Store C V) {c d : C} (h : d ≠ c) : (s.exec c).phase d = s.phase d := by
  unfold Store.exec
  cases s.phase c with
  | idle => rfl
  | setnx v =>
    simp only [Server.setnx]
    cases s.db.key <;> exact update_of_ne h ..
  | set v => exact update_of_ne h ..
  | rename v i seen =>
    simp only [afterRename_phase]
    exact update_of_ne h ..

lemma Server.free_renamenx_le (db : Server V) (hi : i < kMaxOldVersions) :
    (db.renamenx i).2.free ≤ db.free := by
  unfold Server.renamenx
  cases db.key with
  | none => exact le_rfl
  | some w =>
    cases ho : db.old i with
    | some x => exact le_rfl
    | none => exact le_trans (Nat.le_succ _) (Server.free_moved hi ho w).le

lemma remaining_rename {db : Server V} {v : V} {seen : Seen} (hi : i < kMaxOldVersions)
    (hc : (Phase.rename v i seen).Calm db) :
    remaining (db.renamenx i).2 (Phase.next v (i + 1) (seen.next (db.renamenx i).1))
      < remaining db (.rename v i seen) := by
  have h10 : kMaxOldVersions = 10 := rfl
  have hfree := db.free_renamenx_le hi
  cases seen with
  | renamed =>
    show remaining (db.renamenx i).2 (Phase.next v (i + 1) .renamed) < _
    unfold Phase.next
    split <;> simp only [remaining] <;> omega
  | error text =>
    show remaining (db.renamenx i).2 (Phase.next v (i + 1) (.error text)) < _
    unfold Phase.next
    split <;> simp only [remaining] <;> omega
  | nothing =>
    obtain ⟨w, hw⟩ := Option.isSome_iff_exists.mp hc
    unfold Server.renamenx
    rw [hw]
    cases ho : db.old i with
    | some x =>
      show remaining db (Phase.next v (i + 1) .nothing) < _
      unfold Phase.next
      split <;> simp only [remaining] <;> omega
    | none =>
      -- the name is taken from now on, which pays for the next try
      have hmoved := Server.free_moved hi ho w
      show remaining ⟨none, update db.old i (some w)⟩ (Phase.next v (i + 1) .renamed) < _
      unfold Phase.next
      split <;> simp only [remaining] <;> omega

lemma remaining_exec (hk : Kept s) {c : C} (hb : s.phase c ≠ .idle) (hc : (s.phase c).Calm s.db) :
    remaining (s.exec c).db ((s.exec c).phase c) < remaining s.db (s.phase c) := by
  have hph := hk.phases c
  unfold Store.exec
  cases hp : s.phase c with
  | idle => exact absurd hp hb
  | set v =>
    rw [hp] at hc
    exact absurd hc id
  | setnx v =>
    simp only [Server.setnx]
    cases s.db.key with
    | none =>
      show remaining _ (update s.phase c .idle c) < _
      rw [update_self]
      simp only [remaining]
      omega
    | some w =>
      show remaining s.db (update s.phase c (.rename v 0 .nothing) c) < _
      rw [update_self]
      simp only [remaining]
      omega
  | rename v i seen =>
    rw [hp] at hph hc
    simp only [afterRename_phase, afterRename_db, update_self]
    exact remaining_rename hph.1 hc

def RedisOp.isExec (c : C) : RedisOp C V → Bool
  | .exec d => decide (d = c)
  | _ => false

def commands (c : C) (os : List (RedisOp C V)) : Nat := os.countP (RedisOp.isExec c)

/-- the put of `c` has not returned yet, from `s` on through all of `os` -/
def Busy (c : C) : Store C V → List (RedisOp C V) → Prop
  | s, [] => s.phase c ≠ .idle
  | s, o :: os => s.phase c ≠ .idle ∧ Busy c (o.run s) os

lemma remaining_run (hk : Kept s) (ho : o.Ok s) (hc : Calm s o) {c : C} (hb : s.phase c ≠ .idle) :
    remaining (o.run s).db ((o.run s).phase c) + (if o.isExec c then 1 else 0)
      ≤ remaining s.db (s.phase c) := by
  have hfree := free_change hk (change_run ho)
  have hother : (o.run s).phase c = s.phase c → o.isExec c = false →
      remaining (o.run s).db ((o.run s).phase c) + (if o.isExec c then 1 else 0)
        ≤ remaining s.db (s.phase c) := by
    intro hp he
    rw [hp, he]
    exact remaining_mono hfree _
  cases o with
  | get d => exact hother rfl rfl
  | put d v =>
    have hd : c ≠ d := fun e => hb (e ▸ ho)
    exact hother (update_of_ne hd ..) rfl
  | exec d =>
    by_cases hd : c = d
    · subst hd
      have := remaining_exec hk hb hc
      simp only [RedisOp.isExec, decide_true, if_true]
      exact this
    · exact hother (exec_phase_of_ne s hd) (by simp [RedisOp.isExec, Ne.symm hd])

lemma commands_le (os : List (RedisOp C V)) (hk : Kept s)
    (hl : (calmSys C V).Legal s os) {c : C} (hb : Busy c s os) :
    commands c os ≤ remaining s.db (s.phase c) := by
  induction os generalizing s with
  | nil => exact Nat.zero_le _
  | cons o os ih =>
    obtain ⟨⟨ho, hc⟩, hl⟩ := hl
    have hrec := ih (kept_change hk (change_run ho)) hl hb.2
    have hstep := remaining_run hk ho hc hb.1
    unfold commands at hrec ⊢
    rw [countP_cons]
    omega

/-! ## runs -/

lemma calmSys_out (s : Store C V) (os : List (RedisOp C V)) :
    (calmSys C V).out s os = (redisSys C V).out s os := by
  induction os generalizing s with
  | nil => rfl
  | cons o os ih => exact ih (o.run s)

lemma kept_init : Kept ({} : Store C V) where
  phases _ := trivial
  key _ h := by cases h
  stored := Or.inl (by
    show Perm [] _
    simp [Server.contents])

lemma kept_out (hl : (redisSys C V).Legal {} os) : Kept ((redisSys C V).out {} os) :=
  (redisSys C V).invariant Kept (fun _ _ hk ho => kept_change hk (change_run ho)) {} kept_init os hl

lemma unharmed_init : Unharmed ({} : Store C V) := ⟨rfl, fun _ => rfl⟩

lemma settled_out (hl : (calmSys C V).Legal {} os) : Settled ((redisSys C V).out {} os) := by
  rw [← calmSys_out]
  refine ((calmSys C V).invariant (fun s => Unharmed s ∧ Settled s) ?_ {}
    ⟨unharmed_init, fun _ => Or.inl rfl⟩ os hl).2
  rintro s o ⟨hu, hs⟩ ⟨ho, hc⟩
  exact ⟨(unharmed_run ho).mpr ⟨hu, hc⟩, settled_change hu hs (change_run ho)⟩

/-- **When the Redis store works.**  No put throws exactly if the fallback `SET` is never sent, and
a rename before the first successful one of its pipeline finds the key. -/
theorem redis_put_iff (os : List (RedisOp C V)) (hl : (redisSys C V).Legal {} os) :
    let s := (redisSys C V).out {} os
    (s.stored.Perm s.db.contents ∨ s.db.Full) ∧
    (Unharmed s ↔ (calmSys C V).Legal {} os) ∧
    ((calmSys C V).Legal {} os →
      (∀ c os₁ os₂, os = os₁ ++ os₂ → Busy c ((redisSys C V).out {} os₁) os₂ →
        commands c os₂ ≤ 132) ∧
      ((∀ c, s.phase c = .idle) → ∀ v, s.stored.getLast? = some v →
        ∀ key k, redisGet key k s.db = .ok v)) := by
  intro s
  have hk : Kept s := kept_out hl
  refine ⟨hk.stored, (unharmed_out hl).trans (and_iff_right unharmed_init), fun hc => ⟨?_, ?_⟩⟩
  · rintro c os₁ os₂ rfl hb
    have hl₁ := ((redisSys C V).legal_append _ _ _).mp hl
    have hc₂ := (((calmSys C V).legal_append _ _ _).mp hc).2
    rw [calmSys_out] at hc₂
    exact le_trans (commands_le os₂ (kept_out hl₁.1) hc₂ hb) (remaining_le _ _)
  · intro hidle v hv key k
    cases hkey : s.db.key with
    | none =>
      rcases settled_out hc hkey with hs | ⟨c, hp⟩
      · have hs : s.stored = [] := hs
        rw [hs] at hv
        cases hv
      · have hp : (s.phase c).pending := hp
        rw [hidle c] at hp
        cases hp
    | some w =>
      have hw := hk.key w hkey
      rw [hv] at hw
      unfold redisGet
      rw [hkey, Option.some.inj hw]

end Exec

def putAlone (c : Bool) (v n : Nat) : List (RedisOp Bool Nat) :=
  .put c v :: List.replicate n (.exec c)

/-- both clients find the key taken; one moves it away, and the renames of the other one fail -/
def crossing : List (RedisOp Bool Nat) :=
  putAlone false 1 1 ++ putAlone false 2 1 ++ putAlone true 3 1 ++ List.replicate 10 (.exec false) ++
    List.replicate 10 (.exec true)

def twelve : List (RedisOp Bool Nat) :=
  putAlone false 1 1 ++ (List.range 11).flatMap fun v => putAlone false (v + 2) 12

theorem redis_put_throws :
    (redisSys Bool Nat).Legal {} crossing ∧
      ((redisSys Bool Nat).out {} crossing).thrown = ["Error: ERR no such key"] ∧
      (redisSys Bool Nat).Legal {} twelve ∧
      ((redisSys Bool Nat).out {} twelve).thrown = ["Assertion \"reply.isInteger()\" "] := by
  decide +kernel

/-- one client after the other -/
theorem redis_put_in_turn :
    Unharmed ((redisSys Bool Nat).out {} (putAlone false 1 1 ++ putAlone true 2 12)) ∧
      redisGet "k" "blob:k" ((redisSys Bool Nat).out {} (putAlone false 1 1 ++ putAlone true 2 12)).db
        = .ok 2 := by
  obtain ⟨-, hiff, hcalm⟩ := redis_put_iff (putAlone false 1 1 ++ putAlone true 2 12)
    (by decide +kernel)
  have hc : (calmSys Bool Nat).Legal {} (putAlone false 1 1 ++ putAlone true 2 12) := by
    decide +kernel
  exact ⟨hiff.mpr hc, (hcalm hc).2 (by decide +kernel) 2 (by decide +kernel) "k" "blob:k"⟩

end TorchCraft.BlobStorage
