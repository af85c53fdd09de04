import TorchCraft.Snapshot.Scenario

/-!
# `MicroScenarioProvider`

* `startNewScenario`  the next scenario, in the old game or a new one;
* `next_game`  which of them it is: that the last scenario had creep does not count.

Commands and statistics are left out; `log` records the calls that matter.
-/

namespace TorchCraft.Scenarios
open Snapshotter

structure UnitTypes where
  producesCreep : Int → Bool
  isAddon : Int → Bool

inductive Call where
  | killAllUnits
  | createNewGame (map : String)
  | setupScenario
deriving DecidableEq

/-- `game_` and the two players are there or not -/
structure Provider where
  replay_ : String := ""
  forcedMap_ : String := ""
  scenarioNow_ : FixedScenario := { map := "" }
  lastMap_ : String := ""
  unitsThisGame_ : Nat := 0
  needNewGame_ : Bool := false
  game_ : Bool := false
  players_ : Bool := false
  log : List Call := []

def kMaxUnits : Nat := 9000

namespace Provider
variable (s : Provider) (T : UnitTypes)

def launchedWithReplay : Bool := s.replay_ != ""

def mapNow : String := if s.forcedMap_ = "" then s.scenarioNow_.map else s.forcedMap_

def call (c : Call) : Provider := { s with log := s.log ++ [c] }

def endScenario : Provider :=
  if !s.players_ then s
  else if s.launchedWithReplay then { s with players_ := false }
  else if !s.needNewGame_ then { s.call .killAllUnits with players_ := false }
  else { s with players_ := false }

def endGame : Provider := { s.endScenario with unitsThisGame_ := 0, game_ := false }

def createNewGame : Provider :=
  { s.endGame.call (.createNewGame s.mapNow) with lastMap_ := s.mapNow, game_ := true }

def createNewPlayers : Provider := { s.endScenario with players_ := true }

/-- the units of `players[0]` and `players[1]`, which have to be there -/
def units : List SpawnPosition := (s.scenarioNow_.players.take 2).flatMap (·.units)

/-- creep producers are set aside and add-ons dropped; the order of the units is left out -/
def setupScenario : Provider :=
  let spawned := s.units.filter fun u => T.producesCreep u.type || !T.isAddon u.type
  { s.call .setupScenario with
    unitsThisGame_ := s.unitsThisGame_ + spawned.length
    needNewGame_ := if s.units.any (T.producesCreep ·.type) then true else s.needNewGame_ }

def newGame : Bool :=
  s.launchedWithReplay || !s.game_ || s.lastMap_ != s.mapNow || kMaxUnits < s.unitsThisGame_

def startNewScenario (scenario : FixedScenario) : Provider :=
  let s := { s with scenarioNow_ := scenario }
  let s := { s with needNewGame_ := s.newGame }
  let s := if s.needNewGame_ then s.endGame.createNewGame else s.endScenario
  s.createNewPlayers.setupScenario T

variable {s T}

lemma endScenario_eq : s.endScenario = { s with
    players_ := false
    log := s.log ++ if s.players_ && !s.launchedWithReplay && !s.needNewGame_ then [.killAllUnits]
      else [] } := by
  obtain ⟨_, _, _, _, _, need, _, players, _⟩ := s
  unfold endScenario
  cases players with
  | false => simp
  | true =>
    cases need with
    | false => simp only [call, launchedWithReplay]; grind
    | true => simp

lemma started (s : Provider) (scenario : FixedScenario) :
    (s.startNewScenario T scenario).game_ ∧ (s.startNewScenario T scenario).players_ := by
  refine ⟨?_, rfl⟩
  simp only [startNewScenario, setupScenario, call, createNewPlayers, endScenario_eq]
  split
  · rfl
  next hneed => simp_all [newGame]

/-- **The next call starts a new game exactly if there is a replay, the map changes or too many
units were spawned**; otherwise it kills the units in the old game. -/
theorem next_game (T : UnitTypes) (replay forcedMap : String) (scenarios : List FixedScenario)
    (last next : FixedScenario) :
    let s := (scenarios.foldl (startNewScenario · T)
      { replay_ := replay, forcedMap_ := forcedMap }).startNewScenario T last
    let map := { s with scenarioNow_ := next }.mapNow
    (s.startNewScenario T next).log = s.log ++
      if s.launchedWithReplay ∨ s.lastMap_ ≠ map ∨ kMaxUnits < s.unitsThisGame_ then
        [.createNewGame map, .setupScenario]
      else [.killAllUnits, .setupScenario] := by
  intro s map
  obtain ⟨hgame, hplayers⟩ : s.game_ ∧ s.players_ := started _ last
  have hnew : { s with scenarioNow_ := next }.newGame = true ↔
      s.launchedWithReplay ∨ s.lastMap_ ≠ map ∨ kMaxUnits < s.unitsThisGame_ := by
    simp [newGame, hgame, map, launchedWithReplay, or_assoc]
  rw [← if_congr hnew rfl rfl]
  simp only [startNewScenario, setupScenario, call, createNewPlayers, endScenario_eq]
  split
  next h => simp [h, createNewGame, endGame, endScenario_eq, call, map, mapNow]
  next h =>
    have hreplay : s.replay_ = "" := by simp_all [launchedWithReplay]
    simp only [h, launchedWithReplay]
    simp [hplayers, hreplay]

def colony : FixedScenario where
  map := ""
  players := [{ units := [{ count := 1, type := 131, x := 0, y := 0 }] }, {}]

/-- After a scenario with creep the next one is played in the same game. -/
theorem creep_same_game :
    let T : UnitTypes := { producesCreep := (· == 131), isAddon := fun _ => false }
    let s := ({} : Provider).startNewScenario T colony
    s.needNewGame_ ∧ (s.startNewScenario T colony).log =
      [.createNewGame "", .setupScenario, .killAllUnits, .setupScenario] := by
  decide +kernel

end Provider
end TorchCraft.Scenarios
