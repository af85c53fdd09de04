import TorchCraft.Lib.Sys

/-!
# The global state of a job

A worker keeps a list of its peers.  `tryUpdate` reads the version of the list from the database and,
when it changed, scans the database for heartbeats and reads them.

* `RedisReply`  a reply, with the accessors of the client and the texts they throw;
* `Attempt`  what the environment answers in one `tryUpdate`;
* `scan`, `fetch`  the cursor loop and the list of peers; `none` while replies are missing;
* `tryUpdate`, `update`  an exception keeps what was stored before it;
* `gmatch`, `peers`  the peers of a role.

The version counts as read in the attempt that stored it (`storedAt`), and the list as fetched in the
attempt that assigned it (`fetchedAt`).
-/

namespace TorchCraft.Cpid2k

/-! ## replies -/

inductive RedisReply where
  | status (text : String)
  | string (text : String)
  | integer (n : Int)
  | nil
  | error (text : String)
  | array (elements : List RedisReply)

namespace RedisReply

def typeName : RedisReply → String
  | status _ => "STATUS"
  | string _ => "STRING"
  | integer _ => "INTEGER"
  | nil => "NIL"
  | error _ => "ERROR"
  | array _ => "ARRAY"

def mismatch (type : String) : RedisReply → String
  | error text => "Error: " ++ text
  | reply => "Expected reply of type " ++ type ++ ", got " ++ reply.typeName

def stringOf : RedisReply → Except String String
  | string text => .ok text
  | reply => .error (reply.mismatch "STRING")

def elements : RedisReply → Except String (List RedisReply)
  | array rs => .ok rs
  | reply => .error (reply.mismatch "ARRAY")

end RedisReply

def stol (text : String) : Except String Int :=
  let chars := text.toList.dropWhile fun c => c = ' ' ∨ 9 ≤ c.toNat ∧ c.toNat ≤ 13
  let negative := chars.head? = some '-'
  let digits := (if negative ∨ chars.head? = some '+' then chars.tail else chars).takeWhile
    Char.isDigit
  let n : Int := digits.foldl (fun n c => 10 * n + (c.toNat - '0'.toNat)) 0
  let n := if negative then -n else n
  if digits = [] ∨ n < -9223372036854775808 ∨ 9223372036854775807 < n then .error "stol" else .ok n

/-! ## peers -/

structure WorkerInfo where
  id : String
  host : String := ""
  services : List (String × Int) := []
  deriving DecidableEq

/-- an exception, and whether the client is connected after it -/
structure Failure where
  what : String
  connected : Bool
  deriving DecidableEq

def raise (what : String) : Failure := ⟨what, true⟩

structure Attempt where
  /-- the two times at which the clock is read -/
  now : Int
  checked : Int
  /-- the replies to both `GET`s, to the `SCAN`s and to `MGET` -/
  first : Except Failure (RedisReply × RedisReply)
  scans : List (Except Failure RedisReply) := []
  mget : Except Failure RedisReply := .ok (.array [])
  /-- the text of the exception when the client cannot reconnect -/
  reconnect : Option String := none

def page (reply : RedisReply) : Except String (String × List String) := do
  match ← reply.elements with
  | [r₀, r₁] =>
    let cursor ← r₀.stringOf
    let keys ← (← r₁.elements).mapM RedisReply.stringOf
    return (cursor, keys)
  | _ => throw "Can't scan heartbeat table"

def scan (keys : List String) :
    List (Except Failure RedisReply) → Option (Except Failure (List String))
  | [] => none
  | .error f :: _ => some (.error f)
  | .ok reply :: rest =>
    match page reply with
    | .error what => some (.error (raise what))
    | .ok (cursor, more) =>
      if cursor ≠ "0" then scan (keys ++ more) rest else some (.ok (keys ++ more))

section
variable (parse : String → Except String WorkerInfo)

def readPeers : List RedisReply → Except String (List WorkerInfo)
  | [] => .ok []
  | .nil :: rs => readPeers rs
  | r :: rs => do
    let info ← parse (← r.stringOf)
    return info :: (← readPeers rs)

def fetch (a : Attempt) : Option (Except Failure (List WorkerInfo)) :=
  match scan [] a.scans with
  | none => none
  | some (.error f) => some (.error f)
  | some (.ok []) => some (.ok [])
  | some (.ok (_ :: _)) =>
    match a.mget with
    | .error f => some (.error f)
    | .ok reply => some ((reply.elements >>= readPeers parse).mapError raise)

structure GlobalState where
  pcInterval_ : Int
  peerv_ : Int := -1
  lastPeersCheck_ : Int := 0
  peers_ : List WorkerInfo := []
  isDone_ : Bool := false
  attempts : Nat := 0
  storedAt : Option Nat := none
  fetchedAt : Option Nat := none
  deriving DecidableEq

inductive Outcome where
  | returned
  | thrown (f : Failure)
  | waiting
  deriving DecidableEq

def newPeerv : RedisReply → Except String Int
  | .string text => stol text
  | _ => .ok (-1)

def isTrue : RedisReply → Bool
  | .string text => text = "true"
  | _ => false

namespace GlobalState

def refetch (a : Attempt) (g : GlobalState) (peerv : Int) : GlobalState × Outcome :=
  let g := { g with peerv_ := peerv, storedAt := some g.attempts }
  match fetch parse a with
  | none => (g, .waiting)
  | some (.error f) => (g, .thrown f)
  | some (.ok peers) => ({ g with peers_ := peers, fetchedAt := some g.attempts }, .returned)

def tryUpdate (g : GlobalState) (a : Attempt) : GlobalState × Outcome :=
  let g := { g with attempts := g.attempts + 1 }
  if a.now - g.lastPeersCheck_ < g.pcInterval_ then (g, .returned)
  else
    match a.first with
    | .error f => (g, .thrown f)
    | .ok (r₀, r₁) =>
      let g := { g with isDone_ := isTrue r₀ }
      match newPeerv r₁ with
      | .error what => (g, .thrown (raise what))
      | .ok peerv =>
        let g := { g with lastPeersCheck_ := a.checked }
        if peerv = g.peerv_ then (g, .returned) else refetch parse a g peerv

def update (g : GlobalState) : List Attempt → GlobalState × Outcome
  | [] => (g, .waiting)
  | a :: as =>
    match g.tryUpdate parse a with
    | (g', .returned) => (g', .returned)
    | (g', .waiting) => (g', .waiting)
    | (g', .thrown f) =>
      if f.connected then (g', .thrown f)
      else
        match a.reconnect with
        | some what => (g', .thrown ⟨what, false⟩)
        | none => update g' as

end GlobalState

end

/-! ## roles -/

/-- a character class: whether `c` is in it, and the pattern behind it -/
def charClass (c : Char) (found : Bool) : List Char → Bool × List Char
  | '\\' :: x :: rest => charClass c (found || x = c) rest
  | ']' :: rest => (found, rest)
  | a :: '-' :: z :: rest => charClass c (found || a ≤ c ∧ c ≤ z || z ≤ c ∧ c ≤ a) rest
  | a :: rest => charClass c (found || a = c) rest
  | [] => (found, [])

/-- every call consumes a character of the pattern, so its length is enough fuel -/
def stringmatchlen : Nat → List Char → List Char → Bool
  | _, [], string => string.isEmpty
  | _, _ :: _, [] => false
  | 0, _ :: _, _ :: _ => false
  | fuel + 1, p :: pattern, c :: string =>
    -- the end of the loop's body
    let next (pattern : List Char) : Bool :=
      if string.isEmpty then (pattern.dropWhile (· = '*')).isEmpty
      else stringmatchlen fuel pattern string
    if p = '*' then
      let rest := pattern.dropWhile (· = '*')
      rest.isEmpty || ((c :: string).tails.dropLast.any (stringmatchlen fuel rest))
    else if p = '?' then next pattern
    else if p = '[' then
      let negated := pattern.head? = some '^'
      let found := charClass c false (if negated then pattern.tail else pattern)
      found.1 != decide negated && next found.2
    else if p = '\\' then
      match pattern with
      | [] => c = '\\' && next []
      | x :: rest => x = c && next rest
    else p = c && next pattern

def gmatch (str pattern : String) : Bool :=
  stringmatchlen pattern.length pattern.toList str.toList

def rolePattern (role : String) : String := "?" ++ role ++ "_*"

def GlobalState.peers (g : GlobalState) (role : String) : List WorkerInfo :=
  g.peers_.filter fun info => gmatch info.id (rolePattern role)

example : gmatch "0train_12" (rolePattern "train") = true := by decide +kernel
example : gmatch "0eval_3" (rolePattern "train") = false := by decide +kernel

/-! ## complete scans -/

/-- the replies to a scan that returns the keys of the second list, page by page -/
inductive Scanned : List (Except Failure RedisReply) → List String → Prop
  | last (keys : List String) (rest : List (Except Failure RedisReply)) :
      Scanned (.ok (.array [.string "0", .array (keys.map .string)]) :: rest) keys
  | more (cursor : String) (hcursor : cursor ≠ "0") (keys keys' : List String)
      (rest : List (Except Failure RedisReply)) (h : Scanned rest keys') :
      Scanned (.ok (.array [.string cursor, .array (keys.map .string)]) :: rest) (keys ++ keys')

lemma mapM_stringOf (keys : List String) :
    (keys.map RedisReply.string).mapM RedisReply.stringOf = .ok keys := by
  induction keys with
  | nil => rfl
  | cons k keys ih =>
    rw [List.map_cons, List.mapM_cons, ih]
    rfl

lemma page_array (cursor : String) (keys : List String) :
    page (.array [.string cursor, .array (keys.map .string)]) = .ok (cursor, keys) := by
  show (do
    let keys ← (keys.map RedisReply.string).mapM RedisReply.stringOf
    return (cursor, keys)) = _
  rw [mapM_stringOf]
  rfl

lemma scan_of_scanned {scans : List (Except Failure RedisReply)} {keys : List String}
    (h : Scanned scans keys) (keys₀ : List String) :
    scan keys₀ scans = some (.ok (keys₀ ++ keys)) := by
  induction h generalizing keys₀ with
  | last keys rest =>
    unfold scan
    rw [page_array]
    rfl
  | more cursor hcursor keys keys' rest h ih =>
    unfold scan
    rw [page_array]
    dsimp only
    rw [if_pos hcursor, ih, List.append_assoc]

end TorchCraft.Cpid2k
