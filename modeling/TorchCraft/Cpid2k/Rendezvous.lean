import Mathlib.Data.String.Basic
import TorchCraft.Cpid2k.Freshness
import TorchCraft.Lib.Ranks

/-!
# The rendez-vous of a role

`dcontext` takes the peers of a role, sorts their ids and meets the others under a key that is made
from the ids; the rank of a worker is the position of its id.

* `Worker`, `dcontext`  the worker, with its contexts cached by role.
-/

namespace TorchCraft.Cpid2k
open Lib Ranks List Function
open Function (update_of_ne update_self)

/-! ## the worker -/

structure Context where
  rdvuKey : String
  rank : Nat
  size : Nat
  deriving DecidableEq

structure Worker where
  info_ : WorkerInfo
  prefix_ : String
  gs_ : GlobalState
  dcontexts_ : String → Option Context := fun _ => none
  dcontextIds_ : String → List String := fun _ => []

/-- what the environment chooses in a call of `dcontext` -/
structure Call where
  client : Option String := none
  attempts : List Attempt
  rendezvous : Option String := none

inductive Joined where
  | context (c : Context)
  /-- the rendez-vous failed -/
  | failed (c : Context) (what : String)
  | thrown (what : String)
  | waiting
  deriving DecidableEq

/-- the context of a rendez-vous, also of one that fails -/
def Joined.uses : Joined → Option Context
  | .context c => some c
  | .failed c _ => some c
  | .thrown _ => none
  | .waiting => none

def joinVector (v : List String) (sep : Char) : String := String.intercalate (String.singleton sep) v

def rankOf (id : String) (peerIds : List String) : Except String Nat :=
  match rank? peerIds id with
  | some rank => .ok rank
  | none => .error ("Can't construct a context that I'm not part of (I'm '" ++ id ++ "')")

section
variable (parse : String → Except String WorkerInfo) (digest : String → String)

def rendezvousKey (jobPrefix : String) (peerIds : List String) : String :=
  jobPrefix ++ ":c10d:" ++ digest (joinVector peerIds '|')

namespace Worker
variable (w : Worker) (role : String)

/-- a new context is built -/
def rebuild (peerIds : List String) (rendezvous : Option String) : Worker × Joined :=
  let w := { w with dcontexts_ := update w.dcontexts_ role none }
  match rankOf w.info_.id peerIds with
  | .error what => (w, .thrown what)
  | .ok rank =>
    let c : Context := ⟨rendezvousKey digest w.prefix_ peerIds, rank, peerIds.length⟩
    match rendezvous with
    | some what => (w, .failed c what)
    | none =>
      ({ w with
          dcontexts_ := update w.dcontexts_ role (some c)
          dcontextIds_ := update w.dcontextIds_ role peerIds }, .context c)

/-- the cached context is used when only other peers changed -/
def join (peerIds : List String) (rendezvous : Option String) : Worker × Joined :=
  match w.dcontexts_ role with
  | some c =>
    if w.dcontextIds_ role = peerIds then (w, .context c)
    else w.rebuild digest role peerIds rendezvous
  | none => w.rebuild digest role peerIds rendezvous

def dcontext (call : Call) : Worker × Joined :=
  match call.client with
  | some what => (w, .thrown what)
  | none =>
    match w.gs_.update parse call.attempts with
    | (gs, .waiting) => ({ w with gs_ := gs }, .waiting)
    | (gs, .thrown f) => ({ w with gs_ := gs }, .thrown f.what)
    | (gs, .returned) =>
      let w := { w with gs_ := gs }
      let peerIds := (gs.peers role).map WorkerInfo.id
      if peerIds = [] then
        (w, .thrown ("No peers found matching role '" ++ role ++ "' (pattern '" ++
          rolePattern role ++ "')"))
      else w.join digest role (sorted peerIds) call.rendezvous

def discardDContext : Worker :=
  { w with
    dcontexts_ := update w.dcontexts_ role none
    dcontextIds_ := update w.dcontextIds_ role [] }

end Worker

/-- the calls of a worker; the others only update the global state -/
inductive WorkerOp where
  | dcontext (role : String) (call : Call)
  | discardDContext (role : String)
  | update (attempts : List Attempt)

def workerSys : Sys Worker WorkerOp where
  run w
    | .dcontext role call => (w.dcontext parse digest role call).1
    | .discardDContext role => w.discardDContext role
    | .update attempts => { w with gs_ := (w.gs_.update parse attempts).1 }
  ok w
    | .dcontext role call => (w.dcontext parse digest role call).2 ≠ .waiting
    | .discardDContext _ => True
    | .update attempts => (w.gs_.update parse attempts).2 ≠ .waiting

end

/-! ## cached contexts -/

variable {parse : String → Except String WorkerInfo} {digest : String → String} {w w' : Worker}
  {role : String}

def contextOf (digest : String → String) (w : Worker) (ids : List String) (c : Context) : Prop :=
  rankOf w.info_.id ids = .ok c.rank ∧ c.rdvuKey = rendezvousKey digest w.prefix_ ids ∧
    c.size = ids.length

def Cached (digest : String → String) (w : Worker) : Prop :=
  ∀ role c, w.dcontexts_ role = some c → contextOf digest w (w.dcontextIds_ role) c

lemma Cached.set (h : Cached digest w) (role : String) {o : Option Context} {ids : List String}
    (ho : ∀ c, o = some c → contextOf digest w ids c) :
    Cached digest { w with
      dcontexts_ := update w.dcontexts_ role o, dcontextIds_ := update w.dcontextIds_ role ids } := by
  intro role' c hc
  dsimp only at hc ⊢
  by_cases hr : role' = role
  · rw [hr, update_self] at hc ⊢
    exact ho c hc
  · rw [update_of_ne hr] at hc ⊢
    exact h role' c hc

lemma Cached.erase (h : Cached digest w) (role : String) :
    Cached digest { w with dcontexts_ := update w.dcontexts_ role none } := by
  simpa using h.set role
    (show ∀ c, none = some c → contextOf digest w (w.dcontextIds_ role) c from nofun)

/-- a call of `w` keeps the cache right; it uses the context that the ids give -/
def Joins (digest : String → String) (w : Worker) (ids : List String) (r : Worker × Joined) : Prop :=
  Cached digest r.1 ∧ r.1.info_ = w.info_ ∧ r.1.prefix_ = w.prefix_ ∧
    ∀ c, r.2.uses = some c → contextOf digest w ids c

lemma rebuild_spec (h : Cached digest w) (role : String) (ids : List String)
    (rendezvous : Option String) :
    Joins digest w ids (w.rebuild digest role ids rendezvous) ∧
      (∀ rank, rankOf w.info_.id ids = .ok rank →
        (w.rebuild digest role ids rendezvous).2.uses ≠ none) := by
  unfold Worker.rebuild
  dsimp only
  cases hrank : rankOf w.info_.id ids with
  | error what => exact ⟨⟨h.erase role, rfl, rfl, nofun⟩, nofun⟩
  | ok rank =>
    cases rendezvous with
    | some what =>
      refine ⟨⟨h.erase role, rfl, rfl, fun c hc => ?_⟩, fun _ _ => nofun⟩
      cases hc
      exact ⟨hrank, rfl, rfl⟩
    | none =>
      refine ⟨⟨(h.erase role).set role fun c hc => ?_, rfl, rfl, fun c hc => ?_⟩, fun _ _ => nofun⟩
      all_goals
        cases hc
        exact ⟨hrank, rfl, rfl⟩

lemma join_spec (h : Cached digest w) (role : String) (ids : List String)
    (rendezvous : Option String) :
    Joins digest w ids (w.join digest role ids rendezvous) ∧
      (∀ rank, rankOf w.info_.id ids = .ok rank →
        (w.join digest role ids rendezvous).2.uses ≠ none) := by
  unfold Worker.join
  split
  next c hcached =>
    split
    next hids =>
      refine ⟨⟨h, rfl, rfl, fun c' hc' => ?_⟩, fun _ _ => nofun⟩
      cases hc'
      rw [← hids]
      exact h role c hcached
    · exact rebuild_spec h role ids rendezvous
  · exact rebuild_spec h role ids rendezvous

def idsAfter (parse : String → Except String WorkerInfo) (w : Worker) (role : String) (call : Call) :
    List String :=
  (((w.gs_.update parse call.attempts).1).peers role).map WorkerInfo.id

lemma dcontext_spec (parse : String → Except String WorkerInfo) (h : Cached digest w)
    (role : String) (call : Call) :
    Joins digest w (sorted (idsAfter parse w role call)) (w.dcontext parse digest role call) ∧
      (call.client = none → (w.gs_.update parse call.attempts).2 = .returned →
        w.info_.id ∈ idsAfter parse w role call →
        ∃ c, (w.dcontext parse digest role call).2.uses = some c) := by
  unfold Worker.dcontext idsAfter
  cases hclient : call.client with
  | some what => exact ⟨⟨h, rfl, rfl, nofun⟩, nofun⟩
  | none =>
    generalize w.gs_.update parse call.attempts = res
    obtain ⟨gs, outcome⟩ := res
    cases outcome with
    | waiting | thrown => exact ⟨⟨h, rfl, rfl, nofun⟩, nofun⟩
    | returned =>
      dsimp only
      split
      next hempty =>
        exact ⟨⟨h, rfl, rfl, nofun⟩, fun _ _ hmem => absurd (hempty ▸ hmem) not_mem_nil⟩
      · have hcached : Cached digest { w with gs_ := gs } := h
        obtain ⟨hjoins, hsome⟩ := join_spec hcached role
          (sorted ((gs.peers role).map WorkerInfo.id)) call.rendezvous
        refine ⟨hjoins, fun _ _ hmem => ?_⟩
        have hmem' := (sorted_perm ((gs.peers role).map WorkerInfo.id)).mem_iff.mpr hmem
        obtain ⟨rank, hrank⟩ := exists_rank (sorted_pairwise _) hmem'
        refine Option.ne_none_iff_exists'.mp (hsome rank ?_)
        show rankOf w.info_.id _ = _
        unfold rankOf
        rw [hrank]

def Worker.new (info : WorkerInfo) (jobPrefix : String) (interval : Int) : Worker :=
  { info_ := info, prefix_ := jobPrefix, gs_ := { pcInterval_ := interval } }

lemma cached_out (info : WorkerInfo) (jobPrefix : String) (interval : Int) (os : List WorkerOp)
    (hl : (workerSys parse digest).Legal (Worker.new info jobPrefix interval) os) :
    let w := (workerSys parse digest).out (Worker.new info jobPrefix interval) os
    Cached digest w ∧ w.info_ = info ∧ w.prefix_ = jobPrefix := by
  refine (workerSys parse digest).invariant
    (fun w => Cached digest w ∧ w.info_ = info ∧ w.prefix_ = jobPrefix) (fun w o hw _ => ?_) _
    ⟨(fun _ _ hc => by cases hc), rfl, rfl⟩ os hl
  obtain ⟨hc, hinfo, hprefix⟩ := hw
  cases o with
  | dcontext role call =>
    obtain ⟨⟨hc', hinfo', hprefix', -⟩, -⟩ := dcontext_spec parse hc role call
    exact ⟨hc', hinfo'.trans hinfo, hprefix'.trans hprefix⟩
  | discardDContext role => exact ⟨hc.set role nofun, hinfo, hprefix⟩
  | update attempts => exact ⟨hc, hinfo, hprefix⟩

/-! ## documented scans -/

def heartbeatKey (jobPrefix id : String) : String := jobPrefix ++ ":heartbeat:" ++ id

/-- a scan returns the key of each live worker at least once, and `MGET` their heartbeats -/
structure Documented (parse : String → Except String WorkerInfo) (jobPrefix : String)
    (live : List WorkerInfo) (a : Attempt) (keys : List String) : Prop where
  scanned : Scanned a.scans keys
  all : ∀ info ∈ live, heartbeatKey jobPrefix info.id ∈ keys
  mget : ∃ texts : List String, a.mget = .ok (.array (texts.map .string)) ∧
    List.Forall₂ (fun key text => ∃ info ∈ live, key = heartbeatKey jobPrefix info.id ∧
      parse text = .ok info) keys texts

section documented
variable {jobPrefix : String} {live peers : List WorkerInfo} {a : Attempt}
  {keys texts : List String} {g : GlobalState} {as : List Attempt}

lemma readPeers_texts (h : List.Forall₂ (fun key text => ∃ info ∈ live,
      key = heartbeatKey jobPrefix info.id ∧ parse text = .ok info) keys texts) :
    ∃ peers, readPeers parse (texts.map .string) = .ok peers ∧ peers ⊆ live ∧
      keys = peers.map fun info => heartbeatKey jobPrefix info.id := by
  induction h with
  | nil => exact ⟨[], rfl, nil_subset _, rfl⟩
  | @cons key text keys texts hhead _ ih =>
    obtain ⟨info, hinfo, hkey, htext⟩ := hhead
    obtain ⟨peers, hpeers, hsub, hkeys⟩ := ih
    refine ⟨info :: peers, ?_, cons_subset.mpr ⟨hinfo, hsub⟩, by rw [hkey, hkeys]; rfl⟩
    show (do
      let info ← parse text
      return info :: (← readPeers parse (texts.map .string))) = _
    rw [htext, hpeers]
    rfl

lemma heartbeatKey_inj {id id' : String}
    (h : heartbeatKey jobPrefix id = heartbeatKey jobPrefix id') : id = id' := by
  have hlist := congrArg String.toList h
  unfold heartbeatKey at hlist
  simp only [String.toList_append] at hlist
  exact String.toList_inj.mp (append_cancel_left hlist)

/-- **The fetched list has every live worker exactly once if and only if the scan returned no key
twice.** -/
theorem fetch_exact (hlive : (live.map WorkerInfo.id).Nodup)
    (h : Documented parse jobPrefix live a keys) :
    ∃ peers, fetch parse a = some (.ok peers) ∧ (peers.Perm live ↔ keys.Nodup) := by
  obtain ⟨texts, hmget, htexts⟩ := h.mget
  obtain ⟨peers, hpeers, hsub, hkeys⟩ := readPeers_texts htexts
  have hinj : ∀ i ∈ live, ∀ j ∈ live, heartbeatKey jobPrefix i.id = heartbeatKey jobPrefix j.id →
      i = j := fun i hi j hj heq => inj_on_of_nodup_map hlive hi hj (heartbeatKey_inj heq)
  have hmem : ∀ info, info ∈ peers ↔ info ∈ live := by
    refine fun info => ⟨fun hi => hsub hi, fun hi => ?_⟩
    have hkey := h.all info hi
    rw [hkeys] at hkey
    obtain ⟨info', hi', heq⟩ := mem_map.mp hkey
    rwa [hinj info' (hsub hi') info hi heq] at hi'
  have hnodup : keys.Nodup ↔ peers.Nodup := by
    rw [hkeys]
    exact ⟨fun hn => hn.of_map _, fun hn => hn.map_on fun i hi j hj heq =>
      hinj i (hsub hi) j (hsub hj) heq⟩
  refine ⟨peers, ?_, (perm_iff_nodup (hlive.of_map _) hmem).trans hnodup.symm⟩
  have hscan : scan [] a.scans = some (.ok keys) := scan_of_scanned h.scanned []
  unfold fetch
  rw [hscan]
  cases keys with
  | nil =>
    have hnil : peers = [] := map_eq_nil_iff.mp hkeys.symm
    rw [hnil]
  | cons k keys =>
    rw [hmget]
    show some ((readPeers parse (texts.map .string)).mapError raise) = _
    rw [hpeers]
    rfl

lemma tryUpdate_news (hnews : News g a) (hfetch : fetch parse a = some (.ok peers)) :
    (g.tryUpdate parse a).1.peers_ = peers ∧ (g.tryUpdate parse a).2 = .returned := by
  obtain ⟨hdue, r₀, r₁, peerv, hfirst, hpeerv, hne⟩ := hnews
  have heq : g.tryUpdate parse a =
      GlobalState.refetch parse a
        { g with attempts := g.attempts + 1, isDone_ := isTrue r₀, lastPeersCheck_ := a.checked }
        peerv := by
    unfold GlobalState.tryUpdate
    rw [if_neg hdue, hfirst]
    dsimp only
    rw [hpeerv]
    dsimp only
    rw [if_neg hne]
  rw [heq, refetch_of_fetch hfetch]
  exact ⟨rfl, rfl⟩

/-- the `GET`s fail and the client reconnects -/
def GetFails (g : GlobalState) (a : Attempt) : Prop :=
  ¬a.now - g.lastPeersCheck_ < g.pcInterval_ ∧
    ∃ f, a.first = .error f ∧ f.connected = false ∧ a.reconnect = none

/-- the first attempt of a call whose `GET`s are answered reads another version -/
def Due (g : GlobalState) (as : List Attempt) : Prop :=
  ∃ before a after, as = before ++ a :: after ∧ (∀ b ∈ before, GetFails g b) ∧ News g a

/-- scans are as documented, with no key twice; and the call fetches the list, or the list is right
already -/
def Sees (parse : String → Except String WorkerInfo) (jobPrefix : String) (live : List WorkerInfo)
    (g : GlobalState) (as : List Attempt) : Prop :=
  (∀ a ∈ as, ∃ keys, Documented parse jobPrefix live a keys ∧ keys.Nodup) ∧
    (g.peers_.Perm live ∨ Due g as)

section
variable (hlive : (live.map WorkerInfo.id).Nodup)
include hlive

lemma documented_fetch (h : ∃ keys, Documented parse jobPrefix live a keys ∧ keys.Nodup) :
    ∃ peers, fetch parse a = some (.ok peers) ∧ peers.Perm live := by
  obtain ⟨keys, hdoc, hnodup⟩ := h
  obtain ⟨peers, hfetch, hiff⟩ := fetch_exact hlive hdoc
  exact ⟨peers, hfetch, hiff.mpr hnodup⟩

lemma update_right (as : List Attempt)
    (hdoc : ∀ a ∈ as, ∃ keys, Documented parse jobPrefix live a keys ∧ keys.Nodup)
    (g : GlobalState) (h : g.peers_.Perm live) : (g.update parse as).1.peers_.Perm live := by
  induction as generalizing g with
  | nil => exact h
  | cons a as ih =>
    have hone : (g.tryUpdate parse a).1.peers_.Perm live := by
      rcases tryUpdate_cases parse g a with ⟨hsame, -⟩ | ⟨-, g', peerv, -, heq⟩
      · rw [hsame.2.1]
        exact h
      · obtain ⟨peers, hfetch, hperm⟩ := documented_fetch hlive (hdoc a (mem_cons_self ..))
        rw [heq, refetch_of_fetch hfetch]
        exact hperm
    have hrest := ih fun a' ha' => hdoc a' (mem_cons_of_mem _ ha')
    unfold GlobalState.update
    generalize g.tryUpdate parse a = res at hone
    obtain ⟨g', outcome⟩ := res
    cases outcome with
    | returned | waiting => exact hone
    | thrown f =>
      dsimp only
      split
      · exact hone
      · split
        · exact hone
        · exact hrest g' hone

lemma update_due (before : List Attempt) (a : Attempt)
    (after : List Attempt) (hdoc : ∃ keys, Documented parse jobPrefix live a keys ∧ keys.Nodup)
    (g : GlobalState) (hbefore : ∀ b ∈ before, GetFails g b) (hnews : News g a) :
    (g.update parse (before ++ a :: after)).1.peers_.Perm live := by
  induction before generalizing g with
  | nil =>
    obtain ⟨peers, hfetch, hperm⟩ := documented_fetch hlive hdoc
    obtain ⟨hpeers, hret⟩ := tryUpdate_news hnews hfetch
    show (g.update parse (a :: after)).1.peers_.Perm live
    unfold GlobalState.update
    generalize g.tryUpdate parse a = res at hpeers hret
    obtain ⟨g', outcome⟩ := res
    cases hret
    rw [← hpeers] at hperm
    exact hperm
  | cons b before ih =>
    obtain ⟨hdue, f, hfirst, hdown, hreconnect⟩ := hbefore b (mem_cons_self ..)
    have hfail : g.tryUpdate parse b = ({ g with attempts := g.attempts + 1 }, .thrown f) := by
      unfold GlobalState.tryUpdate
      rw [if_neg hdue, hfirst]
    show (g.update parse (b :: (before ++ a :: after))).1.peers_.Perm live
    unfold GlobalState.update
    rw [hfail]
    dsimp only
    rw [if_neg (by simp [hdown]), hreconnect]
    exact ih _ (fun b' hb' => hbefore b' (mem_cons_of_mem _ hb')) hnews

lemma update_sees (h : Sees parse jobPrefix live g as) :
    (g.update parse as).1.peers_.Perm live := by
  obtain ⟨hdoc, hright | ⟨before, a, after, rfl, hbefore, hnews⟩⟩ := h
  · exact update_right hlive as hdoc g hright
  · exact update_due hlive before a after (hdoc a (by simp)) g hbefore hnews

end

end documented

/-! ## the rendez-vous -/

def roleIds (live : List WorkerInfo) (role : String) : List String :=
  (live.filter fun info => gmatch info.id (rolePattern role)).map WorkerInfo.id

lemma idsAfter_perm {live : List WorkerInfo} {call : Call} (role : String)
    (h : ((w.gs_.update parse call.attempts).1.peers_).Perm live) :
    (idsAfter parse w role call).Perm (roleIds live role) :=
  (h.filter _).map _

lemma rank_of_rankOf {id : String} {ids : List String} {rank : Nat}
    (h : rankOf id ids = .ok rank) : rank? ids id = some rank := by
  unfold rankOf at h
  split at h
  next hrank =>
    cases h
    exact hrank
  · cases h

/-- **The rendez-vous is consistent when no key is scanned twice**: two workers of a role that see
the live workers use the same key and size, and different ranks below it. -/
theorem rendezvous_consistent (parse : String → Except String WorkerInfo)
    (digest : String → String) (jobPrefix : String) (live : List WorkerInfo)
    (hlive : (live.map WorkerInfo.id).Nodup) :
    (∀ g a keys, Documented parse jobPrefix live a keys →
      (News g a → ((g.tryUpdate parse a).1.peers_.Perm live ↔ keys.Nodup)) ∧
      (¬News g a → ((g.tryUpdate parse a).1.peers_.Perm live ↔ g.peers_.Perm live))) ∧
    (∀ (info info' : WorkerInfo) (interval interval' : Int) (os os' : List WorkerOp)
      (role : String) (call call' : Call), info ∈ live → info' ∈ live → info.id ≠ info'.id →
      gmatch info.id (rolePattern role) = true → gmatch info'.id (rolePattern role) = true →
      (workerSys parse digest).Legal (Worker.new info jobPrefix interval) os →
      (workerSys parse digest).Legal (Worker.new info' jobPrefix interval') os' →
      let w := (workerSys parse digest).out (Worker.new info jobPrefix interval) os
      let w' := (workerSys parse digest).out (Worker.new info' jobPrefix interval') os'
      Sees parse jobPrefix live w.gs_ call.attempts →
      Sees parse jobPrefix live w'.gs_ call'.attempts →
      (call.client = none → (w.gs_.update parse call.attempts).2 = .returned →
        ∃ c, (w.dcontext parse digest role call).2.uses = some c) ∧
      ∀ c c', (w.dcontext parse digest role call).2.uses = some c →
        (w'.dcontext parse digest role call').2.uses = some c' →
        c.rdvuKey = c'.rdvuKey ∧ c.size = c'.size ∧ c.size = (roleIds live role).length ∧
          c.rank ≠ c'.rank ∧ c.rank < c.size ∧ c'.rank < c.size) := by
  refine ⟨fun g a keys hdoc => ⟨fun hnews => ?_, fun hno => ?_⟩, ?_⟩
  · obtain ⟨peers, hfetch, hiff⟩ := fetch_exact hlive hdoc
    rw [(tryUpdate_news hnews hfetch).1]
    exact hiff
  · rcases tryUpdate_cases parse g a with ⟨hsame, -⟩ | ⟨hnews, -⟩
    · rw [hsame.2.1]
    · exact absurd hnews hno
  · intro info info' interval interval' os os' role call call' hinfo hinfo' hne hrole hrole' hl hl'
      w w' hsees hsees'
    obtain ⟨hcached, hi, hp⟩ := cached_out info jobPrefix interval os hl
    obtain ⟨hcached', hi', hp'⟩ := cached_out info' jobPrefix interval' os' hl'
    obtain ⟨⟨-, -, -, huses⟩, hsome⟩ := dcontext_spec parse hcached role call
    obtain ⟨⟨-, -, -, huses'⟩, -⟩ := dcontext_spec parse hcached' role call'
    have hperm := idsAfter_perm role (update_sees hlive hsees)
    have hids := sorted_eq_of_perm hperm
    have hids' := sorted_eq_of_perm (idsAfter_perm role (update_sees hlive hsees'))
    refine ⟨fun hclient hret => hsome hclient hret ?_, fun c c' hc hc' => ?_⟩
    · rw [hi]
      exact hperm.mem_iff.mpr (mem_map_of_mem (mem_filter.mpr ⟨hinfo, hrole⟩))
    · obtain ⟨hrank, hkey, hsize⟩ := huses c hc
      obtain ⟨hrank', hkey', hsize'⟩ := huses' c' hc'
      rw [hids] at hrank hkey hsize
      rw [hids'] at hrank' hkey' hsize'
      rw [hi] at hrank
      rw [hi'] at hrank'
      rw [hp] at hkey
      rw [hp'] at hkey'
      have hlt := rank_lt (rank_of_rankOf hrank)
      have hlt' := rank_lt (rank_of_rankOf hrank')
      refine ⟨hkey.trans hkey'.symm, hsize.trans hsize'.symm, hsize.trans (sorted_perm _).length_eq,
        fun heq => hne ?_, by rw [hsize]; exact hlt, by rw [hsize]; exact hlt'⟩
      rw [← heq] at hrank'
      exact rank_inj (rank_of_rankOf hrank) (rank_of_rankOf hrank')

/-! ## two workers -/

def pair : List WorkerInfo := [{ id := "0a_0" }, { id := "0a_1" }]

/-- heartbeats that hold an id only -/
def plain (text : String) : Except String WorkerInfo := .ok { id := text }

/-- a scan of both workers in one page -/
def scanOnce : Attempt :=
  { now := 10, checked := 10, first := .ok (.nil, .string "1"),
    scans := [.ok (.array [.string "0",
      .array (["p:heartbeat:0a_0", "p:heartbeat:0a_1"].map .string)])],
    mget := .ok (.array (["0a_0", "0a_1"].map .string)) }

/-- a scan that returns the first key in both of its pages -/
def scanTwice : Attempt :=
  { scanOnce with
    scans := [.ok (.array [.string "7", .array (["p:heartbeat:0a_0"].map .string)]),
      .ok (.array [.string "0", .array (["p:heartbeat:0a_0", "p:heartbeat:0a_1"].map .string)])]
    mget := .ok (.array (["0a_0", "0a_0", "0a_1"].map .string)) }

/-- a scan while only the first worker is live -/
def scanAlone : Attempt :=
  { scanOnce with
    scans := [.ok (.array [.string "0", .array (["p:heartbeat:0a_0"].map .string)])]
    mget := .ok (.array (["0a_0"].map .string)) }

lemma scanOnce_documented :
    Documented plain "p" pair scanOnce ["p:heartbeat:0a_0", "p:heartbeat:0a_1"] where
  scanned := .last _ _
  all := by decide +kernel
  mget := by
    refine ⟨["0a_0", "0a_1"], rfl, .cons ?_ (.cons ?_ .nil)⟩
    · exact ⟨{ id := "0a_0" }, by decide, rfl, rfl⟩
    · exact ⟨{ id := "0a_1" }, by decide, rfl, rfl⟩

lemma scanTwice_documented :
    Documented plain "p" pair scanTwice
      ["p:heartbeat:0a_0", "p:heartbeat:0a_0", "p:heartbeat:0a_1"] where
  scanned := .more "7" (by decide) ["p:heartbeat:0a_0"] _ _ (.last _ _)
  all := by decide +kernel
  mget := by
    refine ⟨["0a_0", "0a_0", "0a_1"], rfl, .cons ?_ (.cons ?_ (.cons ?_ .nil))⟩
    · exact ⟨{ id := "0a_0" }, by decide, rfl, rfl⟩
    · exact ⟨{ id := "0a_0" }, by decide, rfl, rfl⟩
    · exact ⟨{ id := "0a_1" }, by decide, rfl, rfl⟩

lemma scanOnce_news (interval : Int) (h : interval ≤ 10) :
    News { pcInterval_ := interval } scanOnce :=
  ⟨by show ¬((10 : Int) - 0 < interval); omega, .nil, .string "1", 1, rfl, rfl,
    by show (1 : Int) ≠ -1; decide⟩

theorem rendezvous_consistent_pair :
    ((pair.map WorkerInfo.id).Nodup ∧
      (({ pcInterval_ := 1 } : GlobalState).tryUpdate plain scanOnce).1.peers_.Perm pair) ∧
    ∀ c c', ((Worker.new { id := "0a_0" } "p" 1).dcontext plain (fun s => s) "a"
        { attempts := [scanOnce] }).2.uses = some c →
      ((Worker.new { id := "0a_1" } "p" 1).dcontext plain (fun s => s) "a"
        { attempts := [scanOnce] }).2.uses = some c' →
      c.rdvuKey = c'.rdvuKey ∧ c.size = c'.size ∧ c.size = (roleIds pair "a").length ∧
        c.rank ≠ c'.rank ∧ c.rank < c.size ∧ c'.rank < c.size :=
  have hboth := rendezvous_consistent plain (fun s => s) "p" pair (by decide +kernel)
  have hsees : Sees plain "p" pair { pcInterval_ := 1 } [scanOnce] :=
    ⟨by
      intro a ha
      rw [List.mem_singleton.mp ha]
      exact ⟨_, scanOnce_documented, by decide +kernel⟩,
      .inr ⟨[], scanOnce, [], rfl, nofun, scanOnce_news 1 (by decide)⟩⟩
  ⟨⟨by decide +kernel, ((hboth.1 _ scanOnce _ scanOnce_documented).1 (scanOnce_news 1 (by decide))).mpr
      (by decide +kernel)⟩,
    (hboth.2 { id := "0a_0" } { id := "0a_1" } 1 1 [] [] "a" { attempts := [scanOnce] }
      { attempts := [scanOnce] } (by decide) (by decide) (by decide) (by decide +kernel)
      (by decide +kernel) trivial trivial hsees hsees).2⟩

theorem rendezvous_differs :
    Documented plain "p" pair scanTwice
      ["p:heartbeat:0a_0", "p:heartbeat:0a_0", "p:heartbeat:0a_1"] ∧
    ¬(({ pcInterval_ := 1 } : GlobalState).tryUpdate plain scanTwice).1.peers_.Perm pair ∧
    ((Worker.new { id := "0a_0" } "p" 1).dcontext plain (fun s => s) "a"
      { attempts := [scanOnce] }).2 = .context ⟨"p:c10d:0a_0|0a_1", 0, 2⟩ ∧
    ((Worker.new { id := "0a_1" } "p" 1).dcontext plain (fun s => s) "a"
      { attempts := [scanTwice] }).2 = .context ⟨"p:c10d:0a_0|0a_0|0a_1", 2, 3⟩ ∧
    ((((Worker.new { id := "0a_0" } "p" 1).dcontext plain (fun s => s) "a"
      { attempts := [scanAlone] }).1).dcontext plain (fun s => s) "a"
      { attempts := [scanOnce] }).2 = .context ⟨"p:c10d:0a_0", 0, 1⟩ :=
  ⟨scanTwice_documented, by decide +kernel, by decide +kernel, by decide +kernel, by decide +kernel⟩

end TorchCraft.Cpid2k
