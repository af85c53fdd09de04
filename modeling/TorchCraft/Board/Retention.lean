import TorchCraft.Lib.Chain
import TorchCraft.Board.Upcs
import TorchCraft.Board.Runs

/-!
# Which UPCs stay active

Every post names a source, so the ids form chains that end at the root.  `Blackboard::update` walks
the chains of the UPCs on the board and of the tasks, and forgets the active UPCs on none of them;
`postCommand` walks the chain of one id and collects the commands of the active UPCs on it, up to
the first that has been forgotten.

* `Upcs.sourceId`, `Upcs.sourceIds`  the links, and the walk of `UpcStorage`;
* `Blackboard.update`, `Upcs.postCommand`  the two walks over active UPCs;
* `Log.Inv`  the active UPCs are exactly the accepted ones that stayed on a chain.

A task whose `update` posts UPCs is a history with these posts behind the update.  The drawing and
the counters of `postCommand` and the commands themselves are left out.
-/

set_option linter.unusedSectionVars false

namespace TorchCraft
open Lib List Function

/-- a command posted to the game: whether it is a unit command, and its arguments -/
structure Command where
  commandUnit : Bool
  args : List Int

/-- what a unit remembers of the UPCs that led to its last command -/
structure UnitUpcs where
  lastUpcId : UpcId := kInvalidUpcId
  lastUpcCommands : BitVec 32 := 0#32
deriving DecidableEq

def kLastUpcCommandThreshold : Rat := 1 / 2

variable {P M U Q : Type} [DecidableEq P] [DecidableEq M] [DecidableEq U] {O : Objects P M U}

namespace Upcs
variable (b : Upcs M Q) (command : Q → List (BitVec 32 × Rat))

/-! ## source links -/

def post (id : UpcId) : Option (UpcPost M) :=
  if 0 < id ∧ id ≤ b.posts.length then b.posts[(id - 1).toNat]? else none

def sourceId (b : Upcs M Q) (id : UpcId) : UpcId :=
  match b.post id with
  | some p => p.sourceId
  | none => kInvalidUpcId

def sourceIds (id : UpcId) (upTo : Option M) (n : Nat) : Run (List UpcId) :=
  walk (fun curId : UpcId => decide (0 < curId ∧ curId ≤ b.posts.length)) b.sourceId
    (fun sources curId => match b.post curId with
      | none => none
      | some p => if curId ≠ id ∧ upTo = some p.origin then none else some (sources ++ [p.sourceId]))
    n id []

/-! ## the active UPCs in `update` -/

def markFrom (n : Nat) (id : UpcId) (activeUpcIds : List UpcId) : Run (List UpcId) :=
  walk (fun curId => decide (kRootUpcId ≤ curId)) b.sourceId (fun ids curId => some (curId :: ids))
    n id activeUpcIds

def markAll (b : Upcs M Q) (n : Nat) : List UpcId → List UpcId → Run (List UpcId)
  | [], activeUpcIds => .ret activeUpcIds
  | id :: ids, activeUpcIds => (b.markFrom n id activeUpcIds).bind (b.markAll n ids)

/-- the chains of the board and of the tasks are marked, the rest of `activeUpcs_` is erased -/
def updateActive (n : Nat) (taskIds : List UpcId) : Run (Upcs M Q) :=
  (b.markAll n (b.upcs.entries.map Prod.fst) []).bind fun marked =>
    (b.markAll n taskIds marked).bind fun activeUpcIds =>
      .ret { b with activeUpcs := b.activeUpcs.restrict fun id => decide (id ∈ activeUpcIds) }

/-- `consumeUPCs` and `removeUPCs`, which differ in what they log -/
def eraseUPCs (ids : List UpcId) : Upcs M Q := ids.foldl consumeUPC b

/-! ## `postCommand` -/

def addCommands (upc : Q) (cmds : BitVec 32) : BitVec 32 :=
  (command upc).foldl (fun c cit => if kLastUpcCommandThreshold ≤ cit.2 then c ||| cit.1 else c) cmds

def lastUpcCommands (b : Upcs M Q) (sourceId : UpcId) (n : Nat) : Run (BitVec 32) :=
  walk (fun curId => decide (kRootUpcId < curId)) b.sourceId
    (fun cmds curId => (b.activeUpcs.find curId).map fun upc => addCommands command upc cmds)
    n sourceId 0#32

def postCommand (b : Upcs M Q) (units : Int → Option UnitUpcs) (cmd : Command) (sourceId : UpcId)
    (n : Nat) : Run (Int → Option UnitUpcs) :=
  match cmd.commandUnit, cmd.args with
  | true, unitId :: _ =>
    match units unitId with
    | none => .ret units
    | some _ => (b.lastUpcCommands command sourceId n).bind fun cmds =>
        .ret (update units unitId (some ⟨sourceId, cmds⟩))
  | _, _ => .ret units

end Upcs

/-! ## the whole board -/

structure Blackboard {P M U : Type} (O : Objects P M U) (Q : Type) where
  upcs : Upcs M Q
  world : World O

namespace Blackboard
variable (upcId : P → UpcId) (b : Blackboard O Q)

def taskIds : List UpcId :=
  (b.world.board.removePending upcId).tasksById.entries.map Prod.fst

/-- `Blackboard::update`; the removals are those that `World.update` starts with -/
def update (n : Nat) (destroyed : List U) : Run (Blackboard O Q) :=
  (b.upcs.updateActive n (b.taskIds upcId)).bind fun upcs =>
    .ret ⟨upcs, b.world.update upcId destroyed⟩

inductive Op (O : Objects P M U) (Q : Type) where
  | postUPC (frame : Int) (upc : Q) (sourceId : UpcId) (origin : M)
  | consumeUPCs (ids : List UpcId)
  | removeUPCs (ids : List UpcId)
  | tasks (o : TorchCraft.Op O)
  | update (destroyed : List U)

namespace Op

def rounds (b : Blackboard O Q) : Nat := b.upcs.posts.length + 3

def run (upcId : P → UpcId) (b : Blackboard O Q) : Op O Q → Blackboard O Q
  | .postUPC frame upc sourceId origin =>
    { b with upcs := (b.upcs.postUPC frame upc sourceId origin).2 }
  | .consumeUPCs ids => { b with upcs := b.upcs.eraseUPCs ids }
  | .removeUPCs ids => { b with upcs := b.upcs.eraseUPCs ids }
  | .tasks o => { b with world := o.run upcId b.world }
  | .update destroyed => ((b.update upcId (rounds b) destroyed).toOption).getD b

/-- a source is an id given before or one of the constants -/
def Ok (b : Blackboard O Q) : Op O Q → Prop
  | .postUPC _ _ sourceId _ => sourceId = kRootUpcId ∨ sourceId = kInvalidUpcId ∨
      sourceId = kFilteredUpcId ∨ b.upcs.Given sourceId
  | .tasks o => o.isUpdate = false ∧ o.Ok b.world
  | _ => True

end Op

/-- `id` lies on the source chain of a UPC on the board or of the id of a task -/
def OnChain (id : UpcId) : Prop :=
  ∃ r ∈ b.upcs.upcs.entries.map Prod.fst ++ b.taskIds upcId, ∃ l,
    Chain (fun curId => decide (kRootUpcId ≤ curId)) b.upcs.sourceId r l ∧ id ∈ l

end Blackboard

structure Log {P M U : Type} (O : Objects P M U) (Q : Type) where
  board : Blackboard O Q
  /-- the accepted tuples by id -/
  tuples : List Q
  /-- the id was on a chain at every update since it was given -/
  stayed : UpcId → Prop

namespace Log
open Blackboard (OnChain)

def tuple (g : Log O Q) (id : UpcId) : Option Q :=
  if 0 < id ∧ id ≤ g.tuples.length then g.tuples[(id - 1).toNat]? else none

def start (filters : List (Q → M → Option Q)) (h₀ : O.H) : Log O Q where
  board := ⟨{ upcFilters := filters }, ⟨Board.empty, h₀⟩⟩
  tuples := []
  stayed := fun _ => True

def run (upcId : P → UpcId) (g : Log O Q) (o : Blackboard.Op O Q) : Log O Q where
  board := o.run upcId g.board
  tuples := match o with
    | .postUPC _ upc _ origin => g.tuples ++ (g.board.upcs.filter upc origin).toList
    | _ => g.tuples
  stayed := match o with
    | .update _ => fun id => g.stayed id ∧ (g.board.upcs.Given id → g.board.OnChain upcId id)
    | _ => g.stayed

end Log

def logSys (upcId : P → UpcId) (O : Objects P M U) : Sys (Log O Q) (Blackboard.Op O Q) where
  run := Log.run upcId
  ok := fun g o => o.Ok g.board

/-! ## the walks end -/

namespace Upcs
variable {b : Upcs M Q} {id : UpcId} {l : List UpcId}

/-- sources come before the ids they are the source of -/
def Linked (b : Upcs M Q) : Prop := ∀ id p, b.post id = some p → p.sourceId < id

lemma Linked.sourceId_lt (h : b.Linked) (hid : 0 ≤ id) : b.sourceId id < id := by
  rw [sourceId]
  cases hp : b.post id with
  | none =>
    show kInvalidUpcId < id
    exact lt_of_lt_of_le (by decide) hid
  | some p => exact h id p hp

lemma Linked.toNat_lt (h : b.Linked) (hid : 0 ≤ id) :
    0 ≤ b.sourceId id → (b.sourceId id).toNat < id.toNat := by
  intro h0
  exact (Int.toNat_lt_toNat (lt_of_le_of_lt h0 (h.sourceId_lt hid))).mpr (h.sourceId_lt hid)

lemma Linked.exists_chain (h : b.Linked) (live : UpcId → Bool)
    (hlive : ∀ id, live id → 0 ≤ id) (id : UpcId) : ∃ l, Chain live b.sourceId id l :=
  Lib.exists_chain Int.toNat (fun k hk hn => h.toNat_lt (hlive k hk) (hlive _ hn)) id

lemma sourceId_of_gt (h : (b.posts.length : Int) < id) : b.sourceId id = kInvalidUpcId := by
  rw [sourceId, post, if_neg fun hc => absurd hc.2 (not_le.mpr h)]

lemma Linked.chain_length (h : b.Linked)
    (hl : Chain (fun curId => decide (kRootUpcId ≤ curId)) b.sourceId id l) :
    l.length < b.posts.length + 3 := by
  by_cases hid : (b.posts.length : Int) < id
  · -- the chain of an id that was never given is the id alone
    cases hl with
    | stop _ => exact Nat.succ_pos _
    | step _ rest =>
      rw [sourceId_of_gt hid] at rest
      cases rest with
      | stop _ => exact Nat.succ_lt_succ (Nat.succ_pos _)
      | step hneg _ => exact absurd (of_decide_eq_true hneg) (by decide)
  · have hle := hl.length_le Int.toNat fun k hk hn =>
      h.toNat_lt (of_decide_eq_true hk) (of_decide_eq_true hn)
    omega

lemma foldUntil_cons (l ids : List UpcId) :
    foldUntil (fun ids curId => some (curId :: ids)) l ids = l.reverse ++ ids := by
  induction l generalizing ids with
  | nil => rfl
  | cons a l ih =>
    show foldUntil _ l (a :: ids) = _
    rw [ih, reverse_cons, append_assoc]
    rfl

lemma Linked.markAll_eq (h : b.Linked) (ids marked : List UpcId) :
    ∃ marked', (∀ n, b.posts.length + 3 ≤ n → b.markAll n ids marked = .ret marked') ∧
      ∀ x, x ∈ marked' ↔ x ∈ marked ∨ ∃ r ∈ ids, ∃ l,
        Chain (fun curId => decide (kRootUpcId ≤ curId)) b.sourceId r l ∧ x ∈ l := by
  induction ids generalizing marked with
  | nil => exact ⟨marked, fun _ _ => rfl, fun x => by simp⟩
  | cons r ids ih =>
    obtain ⟨l, hl⟩ := h.exists_chain (fun c => decide (kRootUpcId ≤ c))
      (fun _ hc => of_decide_eq_true hc) r
    obtain ⟨marked', heq, hmem⟩ := ih (l.reverse ++ marked)
    refine ⟨marked', fun n hn => ?_, fun x => ?_⟩
    · rw [markAll, markFrom, hl.walk_eq (lt_of_lt_of_le (h.chain_length hl) hn), Run.ret_bind,
        foldUntil_cons]
      exact heq n hn
    · rw [hmem, mem_append, mem_reverse]
      constructor
      · rintro ((hx | hx) | ⟨r', hr', hx⟩)
        · exact .inr ⟨r, mem_cons_self .., l, hl, hx⟩
        · exact .inl hx
        · exact .inr ⟨r', mem_cons_of_mem _ hr', hx⟩
      · rintro (hx | ⟨r', hr', l', hl', hx⟩)
        · exact .inl (.inr hx)
        · rcases mem_cons.mp hr' with rfl | hr'
          · exact .inl (.inl (hl.unique hl' ▸ hx))
          · exact .inr ⟨r', hr', l', hl', hx⟩

lemma Linked.updateActive_eq (h : b.Linked) (taskIds : List UpcId) : ∃ active : OrdMap UpcId Q,
      (∀ n, b.posts.length + 3 ≤ n →
        b.updateActive n taskIds = .ret { b with activeUpcs := active }) ∧
      ∀ id q, active.find id = some q ↔ b.activeUpcs.find id = some q ∧
        ∃ r ∈ b.upcs.entries.map Prod.fst ++ taskIds, ∃ l,
          Chain (fun curId => decide (kRootUpcId ≤ curId)) b.sourceId r l ∧ id ∈ l := by
  obtain ⟨marked, hm, hmem⟩ := h.markAll_eq (b.upcs.entries.map Prod.fst) []
  obtain ⟨marked', hm', hmem'⟩ := h.markAll_eq taskIds marked
  refine ⟨b.activeUpcs.restrict fun id => decide (id ∈ marked'), fun n hn => ?_, fun id q => ?_⟩
  · rw [updateActive, hm n hn, Run.ret_bind, hm' n hn]
    rfl
  · rw [OrdMap.find_restrict, decide_eq_true_iff, hmem', hmem]
    refine and_congr_right fun _ => ?_
    constructor
    · rintro ((hx | ⟨r, hr, hx⟩) | ⟨r, hr, hx⟩)
      · nomatch hx
      · exact ⟨r, mem_append_left _ hr, hx⟩
      · exact ⟨r, mem_append_right _ hr, hx⟩
    · rintro ⟨r, hr, hx⟩
      rcases mem_append.mp hr with hr | hr
      · exact .inl (.inr ⟨r, hr, hx⟩)
      · exact .inr ⟨r, hr, hx⟩

/-! ## the union of commands -/

lemma mem_addCommands (command : Q → List (BitVec 32 × Rat)) (upc : Q) (cmds : BitVec 32)
    (i : Nat) : (addCommands command upc cmds).getLsbD i ↔
      cmds.getLsbD i ∨
        ∃ cit ∈ command upc, kLastUpcCommandThreshold ≤ cit.2 ∧ cit.1.getLsbD i := by
  rw [addCommands]
  induction command upc generalizing cmds with
  | nil => simp
  | cons c cs ih =>
    rw [foldl_cons, ih, exists_mem_cons_iff, ← or_assoc]
    refine or_congr ?_ Iff.rfl
    split
    next hc => rw [BitVec.getLsbD_or, Bool.or_eq_true, and_iff_right hc]
    next hc => simp [hc]

lemma mem_foldUntil (command : Q → List (BitVec 32 × Rat)) (active : UpcId → Option Q)
    (hl : l.Pairwise (fun a b => b < a)) (cmds : BitVec 32) (i : Nat) :
    (foldUntil (fun cmds curId => (active curId).map fun upc => addCommands command upc cmds) l
        cmds).getLsbD i ↔
      cmds.getLsbD i ∨ ∃ a ∈ l, (∀ c ∈ l, a ≤ c → (active c).isSome) ∧
        ∃ upc, active a = some upc ∧
          ∃ cit ∈ command upc, kLastUpcCommandThreshold ≤ cit.2 ∧ cit.1.getLsbD i := by
  induction l generalizing cmds with
  | nil => simp [foldUntil]
  | cons a l ih =>
    obtain ⟨ha, hl'⟩ := pairwise_cons.mp hl
    rw [foldUntil]
    cases hact : active a with
    | none =>
      show cmds.getLsbD i ↔ _
      refine ⟨.inl, ?_⟩
      rintro (h | ⟨b, hb, hall, -⟩)
      · exact h
      · -- the head is above every id of the list and has been forgotten
        have hba : b ≤ a := by
          rcases mem_cons.mp hb with rfl | hb
          · exact le_refl b
          · exact le_of_lt (ha b hb)
        have := hall a (mem_cons_self ..) hba
        rw [hact] at this
        exact absurd this Bool.false_ne_true
    | some q =>
      show (foldUntil _ l (addCommands command q cmds)).getLsbD i ↔ _
      rw [ih hl', mem_addCommands, or_assoc]
      refine or_congr_right ?_
      constructor
      · rintro (hq | ⟨b, hb, hall, hbits⟩)
        · exact ⟨a, mem_cons_self .., forall_mem_cons.mpr
            ⟨fun _ => hact ▸ rfl, fun c hc hac => absurd (ha c hc) (not_lt.mpr hac)⟩, q, hact, hq⟩
        · exact ⟨b, mem_cons_of_mem _ hb, forall_mem_cons.mpr ⟨fun _ => hact ▸ rfl, hall⟩, hbits⟩
      · rintro ⟨b, hb, hall, upc, hupc, hbits⟩
        rcases mem_cons.mp hb with rfl | hb
        · cases hact.symm.trans hupc
          exact .inl hbits
        · exact .inr ⟨b, hb, fun c hc => hall c (mem_cons_of_mem _ hc), upc, hupc, hbits⟩

lemma Linked.chain_sorted (h : b.Linked) {live : UpcId → Bool} (hlive : ∀ id, live id → 0 ≤ id)
    (hl : Chain live b.sourceId id l) : l.Pairwise (fun a c => c < a) ∧ ∀ a ∈ l, a ≤ id := by
  induction hl with
  | stop _ => exact ⟨.nil, nofun⟩
  | @step k l hk _ ih =>
    have hlt := h.sourceId_lt (hlive k hk)
    have hbelow : ∀ a ∈ l, a < k := fun a ha => lt_of_le_of_lt (ih.2 a ha) hlt
    exact ⟨pairwise_cons.mpr ⟨hbelow, ih.1⟩,
      forall_mem_cons.mpr ⟨le_refl k, fun a ha => le_of_lt (hbelow a ha)⟩⟩

end Upcs

/-! ## what every operation keeps -/

lemma byId_append {A : Type} (l : List A) (x : A) (id : Int) :
    (if 0 < id ∧ id ≤ (l ++ [x]).length then (l ++ [x])[(id - 1).toNat]? else none) =
      if id = l.length + 1 then some x
      else if 0 < id ∧ id ≤ l.length then l[(id - 1).toNat]? else none := by
  rw [length_append, length_singleton]
  by_cases hid : id = l.length + 1
  · rw [if_pos hid, if_pos (by omega), getElem?_append_right (by omega)]
    have h0 : (id - 1).toNat - l.length = 0 := by omega
    rw [h0]
    rfl
  · rw [if_neg hid]
    by_cases hin : 0 < id ∧ id ≤ l.length
    · rw [if_pos hin, if_pos (by omega), getElem?_append_left (by omega)]
    · rw [if_neg hin, if_neg (by omega)]

namespace Upcs

lemma eraseUPCs_eq (b : Upcs M Q) (ids : List UpcId) :
    b.eraseUPCs ids = { b with upcs := ids.foldl OrdMap.erase b.upcs } := by
  induction ids generalizing b with
  | nil => rfl
  | cons id ids ih => exact ih (b.consumeUPC id)

end Upcs

namespace Log
variable {upcId : P → UpcId} {g : Log O Q}

lemma update_eq (upcId : P → UpcId) {b : Blackboard O Q} (h : b.upcs.Linked) (destroyed : List U) :
    ∃ active : OrdMap UpcId Q,
      (∀ n, Blackboard.Op.rounds b ≤ n → b.update upcId n destroyed =
        .ret ⟨{ b.upcs with activeUpcs := active }, b.world.update upcId destroyed⟩) ∧
      ∀ id q, active.find id = some q ↔
        b.upcs.activeUpcs.find id = some q ∧ b.OnChain upcId id := by
  obtain ⟨active, heq, hfind⟩ := h.updateActive_eq (b.taskIds upcId)
  refine ⟨active, fun n hn => ?_, hfind⟩
  rw [Blackboard.update, heq n hn]
  rfl

structure Inv (g : Log O Q) : Prop where
  linked : g.board.upcs.Linked
  length : g.tuples.length = g.board.upcs.posts.length
  /-- nothing is said about ids that have not been given -/
  fresh : ∀ id, ¬ g.board.upcs.Given id → g.stayed id
  active : ∀ id q, g.board.upcs.activeUpcs.find id = some q ↔ g.tuple id = some q ∧ g.stayed id

lemma inv_start (filters : List (Q → M → Option Q)) (h₀ : O.H) :
    Inv (start filters h₀ : Log O Q) where
  linked := by
    intro id p hp
    rw [Upcs.post, if_neg fun hc => absurd (lt_of_lt_of_le hc.1 hc.2) (lt_irrefl _)] at hp
    nomatch hp
  length := rfl
  fresh := fun _ _ => trivial
  active := by
    intro id q
    have hnone : (start filters h₀ : Log O Q).tuple id = none := by
      rw [tuple]
      split <;> rfl
    rw [hnone]
    exact ⟨nofun, (nomatch ·.1)⟩

lemma Inv.given (h : Inv g) {id : UpcId} {q : Q} (hq : g.tuple id = some q) :
    g.board.upcs.Given id := by
  rw [tuple] at hq
  split at hq
  next hid =>
    rw [h.length] at hid
    exact ⟨hid.1, Int.lt_add_one_iff.mpr hid.2⟩
  · nomatch hq

lemma Inv.post (h : Inv g) {sourceId : UpcId} (hs : sourceId < g.board.upcs.nextId) (frame : Int)
    (origin : M) (q : Q) : Inv (O := O) ⟨⟨{ g.board.upcs with
        posts := g.board.upcs.posts ++ [⟨frame, sourceId, origin⟩]
        activeUpcs := g.board.upcs.activeUpcs.assign g.board.upcs.nextId q
        upcs := g.board.upcs.upcs.assign g.board.upcs.nextId ⟨q, sourceId, origin⟩ },
      g.board.world⟩, g.tuples ++ [q], g.stayed⟩ where
  linked := by
    intro id p hp
    rw [Upcs.post, byId_append] at hp
    split at hp
    next hid =>
      cases hp
      exact hid ▸ hs
    · exact h.linked id p hp
  length := by
    show (g.tuples ++ [q]).length = (g.board.upcs.posts ++ [_]).length
    rw [length_append, length_append, h.length]
    rfl
  fresh := by
    intro id hid
    refine h.fresh id fun hg => hid ⟨hg.1, lt_of_lt_of_le hg.2 ?_⟩
    show (g.board.upcs.posts.length : Int) + 1 ≤ ((g.board.upcs.posts ++ [_]).length : Int) + 1
    rw [length_append]
    omega
  active := by
    intro id q'
    show (g.board.upcs.activeUpcs.assign g.board.upcs.nextId q).find id = some q' ↔ _
    rw [OrdMap.find_assign, tuple, byId_append, h.length]
    by_cases hid : id = g.board.upcs.nextId
    · rw [if_pos hid, if_pos (show id = (g.board.upcs.posts.length : Int) + 1 from hid)]
      refine ⟨fun hq => ⟨hq, h.fresh id ?_⟩, fun hq => hq.1⟩
      rw [hid]
      exact Upcs.not_given_nextId _
    · rw [if_neg hid, if_neg (show ¬ id = (g.board.upcs.posts.length : Int) + 1 from hid), h.active,
        tuple, h.length]

lemma inv_run (h : Inv g) (o : Blackboard.Op O Q) (ho : o.Ok g.board) : Inv (g.run upcId o) := by
  cases o with
  | postUPC frame upc sourceId origin =>
    have hpos : (0 : Int) < g.board.upcs.nextId := Int.lt_add_one_of_le (Int.natCast_nonneg _)
    have hs : sourceId < g.board.upcs.nextId := by
      rcases ho with rfl | rfl | rfl | hgiven
      · exact hpos
      · exact lt_trans (by decide) hpos
      · exact lt_trans (by decide) hpos
      · exact hgiven.2
    have hrun : g.run upcId (.postUPC frame upc sourceId origin) =
        ⟨⟨(g.board.upcs.postUPC frame upc sourceId origin).2, g.board.world⟩,
          g.tuples ++ (g.board.upcs.filter upc origin).toList, g.stayed⟩ := rfl
    rw [hrun, Upcs.postUPC]
    cases g.board.upcs.filter upc origin with
    | none =>
      rw [Option.toList_none, append_nil]
      exact h
    | some q => exact h.post hs frame origin q
  | consumeUPCs ids | removeUPCs ids =>
    show Inv ⟨⟨g.board.upcs.eraseUPCs ids, g.board.world⟩, g.tuples, g.stayed⟩
    rw [Upcs.eraseUPCs_eq]
    exact ⟨h.linked, h.length, h.fresh, h.active⟩
  | tasks o => exact ⟨h.linked, h.length, h.fresh, h.active⟩
  | update destroyed =>
    obtain ⟨active, heq, hfind⟩ := update_eq upcId h.linked destroyed
    have hrun : g.run upcId (.update destroyed) =
        ⟨⟨{ g.board.upcs with activeUpcs := active }, g.board.world.update upcId destroyed⟩,
          g.tuples, fun id => g.stayed id ∧
            (g.board.upcs.Given id → g.board.OnChain upcId id)⟩ := by
      rw [run, Blackboard.Op.run, heq _ (Nat.le_refl _)]
      rfl
    rw [hrun]
    refine ⟨h.linked, h.length, fun id hid => ⟨h.fresh id hid, fun hg => absurd hg hid⟩,
      fun id q => ?_⟩
    show active.find id = some q ↔ g.tuple id = some q ∧ g.stayed id ∧ _
    rw [hfind, h.active, and_assoc]
    refine and_congr_right fun hq => and_congr_right fun _ => ?_
    exact ⟨fun hc _ => hc, fun hc => hc (h.given hq)⟩

lemma inv_out (h : Inv g) (os : List (Blackboard.Op O Q)) (hl : (logSys upcId O).Legal g os) :
    Inv ((logSys upcId O).out g os) :=
  (logSys upcId O).invariant Inv (fun _ o hi ho => inv_run hi o ho) g h os hl

/-- the id was accepted and was on a chain at every update since -/
def Kept (g : Log O Q) (id : UpcId) : Prop := (g.tuple id).isSome = true ∧ g.stayed id

def Sets (g : Log O Q) (command : Q → List (BitVec 32 × Rat)) (id : UpcId) (i : Nat) : Prop :=
  ∃ upc, g.tuple id = some upc ∧
    ∃ cit ∈ command upc, kLastUpcCommandThreshold ≤ cit.2 ∧ cit.1.getLsbD i = true

lemma Inv.kept_iff (h : Inv g) (id : UpcId) :
    (g.board.upcs.activeUpcs.find id).isSome ↔ g.Kept id := by
  rw [Option.isSome_iff_exists, Kept, Option.isSome_iff_exists]
  constructor
  · rintro ⟨q, hq⟩
    obtain ⟨ht, hs⟩ := (h.active id q).mp hq
    exact ⟨⟨q, ht⟩, hs⟩
  · rintro ⟨⟨q, ht⟩, hs⟩
    exact ⟨q, (h.active id q).mpr ⟨ht, hs⟩⟩

lemma Inv.lastUpcCommands (h : Inv g) (command : Q → List (BitVec 32 × Rat)) (id : UpcId) :
    ∃ chain cmds, Chain (fun curId => decide (kRootUpcId < curId)) g.board.upcs.sourceId id chain ∧
      Returns (g.board.upcs.lastUpcCommands command id) cmds ∧
      ∀ i, cmds.getLsbD i ↔
        ∃ a ∈ chain, (∀ c ∈ chain, a ≤ c → g.Kept c) ∧ g.Sets command a i := by
  have hlive : ∀ c : UpcId, decide (kRootUpcId < c) → 0 ≤ c := fun c hc =>
    le_of_lt (of_decide_eq_true hc)
  obtain ⟨chain, hchain⟩ := h.linked.exists_chain (fun c => decide (kRootUpcId < c)) hlive id
  refine ⟨chain, _, hchain, hchain.returns 0#32, fun i => ?_⟩
  rw [Upcs.mem_foldUntil command g.board.upcs.activeUpcs.find
    (h.linked.chain_sorted hlive hchain).1]
  have hzero : ¬ (0#32).getLsbD i := by simp
  rw [or_iff_right hzero]
  refine exists_congr fun a => and_congr_right fun ha => ?_
  constructor
  · rintro ⟨hall, q, hq, hset⟩
    refine ⟨fun c hc hac => (h.kept_iff c).mp (hall c hc hac), q, ?_, hset⟩
    exact ((h.active a q).mp hq).1
  · rintro ⟨hall, q, hq, hset⟩
    refine ⟨fun c hc hac => (h.kept_iff c).mpr (hall c hc hac), q, ?_, hset⟩
    exact (h.active a q).mpr ⟨hq, (hall a ha (le_refl a)).2⟩

end Log

/-- **The active UPCs are the accepted ones that stayed on a chain**, and `postCommand` collects the
commands of the ancestors down to the first that left the chains. -/
theorem active_iff_stayed {P M U Q : Type} [DecidableEq P] [DecidableEq M] [DecidableEq U]
    (upcId : P → UpcId) (O : Objects P M U) (command : Q → List (BitVec 32 × Rat))
    (filters : List (Q → M → Option Q)) (h₀ : O.H) (os : List (Blackboard.Op O Q))
    (hl : (logSys upcId O).Legal (Log.start filters h₀) os) :
    let g := (logSys upcId O).out (Log.start filters h₀) os
    (∀ id, ∃ ids, Returns (fun n => g.board.upcs.markFrom n id []) ids) ∧
    (∀ id upTo, ∃ ids, Returns (g.board.upcs.sourceIds id upTo) ids) ∧
    (∀ destroyed, Returns (fun n => g.board.update upcId n destroyed)
        ((Blackboard.Op.update destroyed).run upcId g.board) ∧
      ∀ id q, ((Blackboard.Op.update destroyed).run upcId g.board).upcs.activeUpcs.find id = some q ↔
        g.board.upcs.activeUpcs.find id = some q ∧ g.board.OnChain upcId id) ∧
    (∀ id q, g.board.upcs.activeUpcs.find id = some q ↔ g.tuple id = some q ∧ g.stayed id) ∧
    ∀ units unitId args, (units unitId).isSome = true → ∀ id, ∃ chain cmds,
      Chain (fun curId => decide (kRootUpcId < curId)) g.board.upcs.sourceId id chain ∧
      Returns (g.board.upcs.postCommand command units ⟨true, unitId :: args⟩ id)
        (update units unitId (some ⟨id, cmds⟩)) ∧
      (∀ i, cmds.getLsbD i = true ↔
        ∃ a ∈ chain, (∀ c ∈ chain, a ≤ c → g.Kept c) ∧ g.Sets command a i) ∧
      ((∀ c ∈ chain, g.Kept c) →
        ∀ i, cmds.getLsbD i = true ↔ ∃ a ∈ chain, g.Sets command a i) := by
  intro g
  have h : Log.Inv g := Log.inv_out (Log.inv_start filters h₀) os hl
  refine ⟨fun id => ?_, fun id upTo => ?_, fun destroyed => ?_, h.active,
    fun units unitId args hu id => ?_⟩
  · obtain ⟨l, hchain⟩ := h.linked.exists_chain (fun c => decide (kRootUpcId ≤ c))
      (fun _ hc => of_decide_eq_true hc) id
    exact ⟨_, hchain.returns []⟩
  · obtain ⟨l, hchain⟩ := h.linked.exists_chain
      (fun c : UpcId => decide (0 < c ∧ c ≤ g.board.upcs.posts.length))
      (fun _ hc => le_of_lt (of_decide_eq_true hc).1) id
    exact ⟨_, hchain.returns []⟩
  · obtain ⟨active, heq, hfind⟩ := Log.update_eq upcId h.linked destroyed
    have hrun : (Blackboard.Op.update destroyed).run upcId g.board =
        ⟨{ g.board.upcs with activeUpcs := active }, g.board.world.update upcId destroyed⟩ := by
      rw [Blackboard.Op.run, heq _ (Nat.le_refl _)]
      rfl
    rw [hrun]
    exact ⟨⟨_, heq⟩, hfind⟩
  · obtain ⟨chain, cmds, hchain, hret, hbits⟩ := h.lastUpcCommands command id
    obtain ⟨u, hu⟩ := Option.isSome_iff_exists.mp hu
    refine ⟨chain, cmds, hchain, ?_, hbits, fun hall i => ?_⟩
    · have hpost : g.board.upcs.postCommand command units ⟨true, unitId :: args⟩ id =
          fun n => (g.board.upcs.lastUpcCommands command id n).bind fun cmds =>
            .ret (update units unitId (some ⟨id, cmds⟩)) := by
        funext n
        simp only [Upcs.postCommand, hu]
      rw [hpost]
      exact hret.bind (returns_const.mpr rfl)
    · rw [hbits]
      refine exists_congr fun a => and_congr_right fun _ => ?_
      exact and_iff_right fun c hc _ => hall c hc

def sure (c : BitVec 32) : List (BitVec 32 × Rat) := [(c, 1)]

theorem active_iff_stayed_consumed :
    let g := (logSys (fun p : Nat => (p : Int)) mockStatusTasks).out
      (Log.start [] fun _ => ⟨.ongoing, []⟩)
      [.postUPC 0 (1#32) kRootUpcId 0, .postUPC 0 (2#32) 1 0, .consumeUPCs [1], .update []]
    g.board.upcs.activeUpcs.find 1 = some (1#32) ↔ g.tuple 1 = some (1#32) ∧ g.stayed 1 := by
  refine (active_iff_stayed (fun p : Nat => (p : Int)) mockStatusTasks sure [] _
    [.postUPC 0 (1#32) kRootUpcId 0, .postUPC 0 (2#32) 1 0, .consumeUPCs [1], .update []]
    ⟨.inl rfl, .inr (.inr (.inr ⟨by decide, by decide⟩)), trivial, trivial, trivial⟩).2.2.2.1 1 _

def lostLink : List (Blackboard.Op mockStatusTasks (BitVec 32)) :=
  [.postUPC 0 (1#32) kRootUpcId 0, .postUPC 0 (2#32) 1 0, .consumeUPCs [2], .update [],
    .postUPC 0 (4#32) 2 0]

/-- the walk from `3` ends at `2` and misses the command of `1` -/
theorem forgotten_link :
    (logSys (fun p : Nat => (p : Int)) mockStatusTasks).Legal
        (Log.start [] fun _ => ⟨.ongoing, []⟩) lostLink ∧
      let g := (logSys (fun p : Nat => (p : Int)) mockStatusTasks).out
        (Log.start [] fun _ => ⟨.ongoing, []⟩) lostLink
      g.Kept 1 ∧ (g.board.upcs.upcs.find 3).isSome = true ∧
        Chain (fun curId => decide (kRootUpcId < curId)) g.board.upcs.sourceId 3 [3, 2, 1] ∧
        g.Sets sure 1 0 ∧
        Returns (g.board.upcs.postCommand sure (fun _ => some {}) ⟨true, [7]⟩ 3)
          (update (fun _ => some {}) 7 (some ⟨3, 4#32⟩)) := by
  have hle : kLastUpcCommandThreshold ≤ 1 := by decide +kernel
  refine ⟨⟨.inl rfl, .inr (.inr (.inr ⟨by decide, by decide⟩)), trivial, trivial,
    .inr (.inr (.inr ⟨by decide, by decide⟩)), trivial⟩, ⟨rfl, trivial, fun _ => ?_⟩, rfl, ?_,
    ⟨1#32, rfl, (1#32, 1), mem_singleton_self _, hle, rfl⟩, ?_⟩
  · exact ⟨1, mem_cons_self .., [1, 0], .step rfl (.step rfl (.stop rfl)), mem_cons_self ..⟩
  · exact .step rfl (.step rfl (.step rfl (.stop rfl)))
  · refine ⟨2, fun m hm => ?_⟩
    obtain ⟨k, rfl⟩ := Nat.exists_eq_add_of_le' hm
    -- `3` is active and `2` is not
    show Run.ret (update (fun _ => some ({} : UnitUpcs)) 7
      (some ⟨3, if kLastUpcCommandThreshold ≤ 1 then 0#32 ||| 4#32 else 0#32⟩)) = _
    rw [if_pos hle]
    rfl

end TorchCraft
