import Mathlib.Data.Rat.Floor
import TorchCraft.Lib.Fuel
import TorchCraft.Utils.Algorithms

/-!
# `CombatSim`

Two teams fight frame by frame.  In a frame every unit of the first team has its turn, then every
unit of the second: it selects a target among the living enemies, and attacks it if it is in range
or moves towards it.

* `SimUnit`, `Team`, `Sim`  units, teams and the simulation;
* `addUnit`  `CombatSim::addUnit`;
* `SimUnit.hit`, `SimUnit.fire`, `SimUnit.approach`  an attack, seen from both sides, and a move;
* `turn`, `pass`, `loop`, `run`  the loops of `CombatSim::run`.

A target is the place of a unit in the other team.  The turns of a run are kept in a log.  Integers
do not overflow and floating point numbers are rational; a division by 0 is an error.
-/

namespace TorchCraft.CombatSim
open Lib Utils

/-- the build types that the simulation treats on their own -/
inductive Kind
  | Terran_Bunker
  | Protoss_Interceptor
  | Protoss_Reaver
  | Zerg_Scourge
  | other
deriving DecidableEq, Repr

structure BuildType where
  kind : Kind := .other
  isNonUsable : Bool := false
  isBuilding : Bool := false
  hasAirWeapon : Bool := false
  hasGroundWeapon : Bool := true
  maxHp : Int := 0
  maxShields : Int := 0
  size : Int := 1
  restrictedByDarkSwarm : Bool := false
  airWeaponCooldown : Int := 0
  groundWeaponCooldown : Int := 0
deriving DecidableEq

structure SimUnit where
  x : Int := 0
  y : Int := 0
  hp : ℚ := 0
  shields : ℚ := 0
  armor : Int := 0
  maxSpeed : Int := 0
  flying : Bool := false
  underDarkSwarm : Bool := false
  type : BuildType
  target : Option Nat := none
  targetInRange : Bool := false
  cooldownUntil : Int := 0
  groundDamage : Int := 0
  airDamage : Int := 0
  groundDamageType : Int := 0
  airDamageType : Int := 0
  groundRange : Int := 0
  airRange : Int := 0
deriving DecidableEq

structure Team where
  startHp : ℚ := 0
  endHp : ℚ := 0
  units : List SimUnit := []
deriving DecidableEq

inductive Side
  | mine
  | enemy
deriving DecidableEq, Repr

def Side.other : Side → Side
  | .mine => .enemy
  | .enemy => .mine

structure Sim where
  speedMult : ℚ := 1
  mine : Team := {}
  enemy : Team := {}
deriving DecidableEq

namespace Sim

def team (s : Sim) : Side → Team
  | .mine => s.mine
  | .enemy => s.enemy

def setTeam (s : Sim) (t : Team) : Side → Sim
  | .mine => { s with mine := t }
  | .enemy => { s with enemy := t }

def unit? (s : Sim) (side : Side) (k : Nat) : Option SimUnit := (s.team side).units[k]?

def setUnit (s : Sim) (side : Side) (k : Nat) (u : SimUnit) : Sim :=
  s.setTeam { s.team side with units := (s.team side).units.set k u } side

end Sim

/-! ## `addUnit` -/

/-- a unit of the game, as far as `addUnit` reads it -/
structure Unit where
  type : BuildType
  active : Bool := true
  isMine : Bool := false
  isEnemy : Bool := false
  visible : Bool := true
  detected : Bool := true
  x : Int := 0
  y : Int := 0
  health : Int := 0
  shield : Int := 0
  armor : Int := 0
  topSpeed : ℚ := 0
  flying : Bool := false
  underDarkSwarm : Bool := false
  groundCD : Int := 0
  airCD : Int := 0
  groundATK : Int := 0
  airATK : Int := 0
  groundDmgType : Int := 0
  airDmgType : Int := 0
  groundRange : Int := 0
  airRange : Int := 0

def truncate (q : ℚ) : Int := if 0 ≤ q then ⌊q⌋ else ⌈q⌉

/-- the weapons that the game does not report -/
def arm (su : SimUnit) : SimUnit :=
  match su.type.kind with
  | .Terran_Bunker => { su with
      groundDamage := 6, groundDamageType := 3, groundRange := 4 * 6
      airDamage := 6, airDamageType := 3, airRange := 4 * 6 }
  | .Protoss_Interceptor => { su with
      groundDamage := 6, groundDamageType := 0, groundRange := 4 * 4
      airDamage := 6, airDamageType := 0, airRange := 4 * 4 }
  | .Protoss_Reaver => { su with
      groundDamage := 100, groundDamageType := 0, groundRange := 4 * 8 }
  | _ => su

def simUnit (speedMult : ℚ) (u : Unit) : SimUnit :=
  let hidden := u.isEnemy && u.visible && !u.detected
  arm
    { x := u.x * 256
      y := u.y * 256
      hp := if hidden then u.type.maxHp else u.health
      shields := if hidden then u.type.maxShields else u.shield
      armor := u.armor
      maxSpeed := truncate (u.topSpeed * 256 * speedMult)
      flying := u.flying
      underDarkSwarm := u.underDarkSwarm
      type := u.type
      cooldownUntil := max u.groundCD u.airCD
      groundDamage := u.groundATK
      airDamage := u.airATK
      groundDamageType := u.groundDmgType
      airDamageType := u.airDmgType
      groundRange := u.groundRange
      airRange := u.airRange }

def addUnit (s : Sim) (u : Unit) : Bool × Sim :=
  if u.type.isNonUsable || !u.active then (false, s)
  else if u.type.isBuilding && !u.type.hasAirWeapon && !u.type.hasGroundWeapon &&
      decide (u.type.kind ≠ .Terran_Bunker) then (false, s)
  else
    let side := if u.isMine then .mine else .enemy
    let team := s.team side
    (true, s.setTeam { team with units := team.units ++ [simUnit s.speedMult u] } side)

/-! ## a turn -/

def damageTypeModifier (damageType unitSize : Int) : ℚ :=
  if damageType = 1 ∧ unitSize = 1 then 1 / 2
  else if damageType = 1 ∧ unitSize = 2 then 3 / 4
  else if damageType = 1 ∧ unitSize = 3 then 1
  else if damageType = 2 ∧ unitSize = 1 then 1
  else if damageType = 2 ∧ unitSize = 2 then 1 / 2
  else if damageType = 2 ∧ unitSize = 3 then 1 / 4
  else 1

namespace SimUnit

variable (u e : SimUnit)

def damageTo : Int := if e.flying then u.airDamage else u.groundDamage
def rangeTo : Int := if e.flying then u.airRange else u.groundRange
def damageTypeTo : Int := if e.flying then u.airDamageType else u.groundDamageType

/-- the score by which a target is selected; `none` is `kdInfty` -/
def targetScore : Option ℚ :=
  let damage := if 0 < e.hp then u.damageTo e else 0
  if damage = 0 then none
  else some (max (distance u.x u.y e.x e.y - u.rangeTo e * 256) 0 * 100 +
    (e.shields + e.hp - damage))

def selectTarget (u : SimUnit) (enemies : List SimUnit) : Option (Nat × SimUnit) :=
  getBestScorePointer infty u.targetScore enemies

def inRange : Bool :=
  let dxi := (e.x - u.x) / 256
  let dyi := (e.y - u.y) / 256
  let range := 4 + u.rangeTo e
  decide (dxi * dxi + dyi * dyi ≤ range * range)

def absorb (e : SimUnit) (damage : ℚ) : SimUnit × ℚ :=
  if e.shields ≠ 0 then
    if e.shields - damage < 0 then ({ e with shields := 0 }, -(e.shields - damage))
    else ({ e with shields := e.shields - damage }, 0)
  else (e, damage)

/-- the damage to the hit points: at least one half, and none to or from under a dark swarm -/
def wound (damage : ℚ) : ℚ :=
  let damage := damage * damageTypeModifier (u.damageTypeTo e) e.type.size - e.armor
  let damage := if damage < 1 / 2 then 1 / 2 else damage
  if u.type.restrictedByDarkSwarm && (u.underDarkSwarm || e.underDarkSwarm) then 0 else damage

def hit : SimUnit :=
  let r := e.absorb (u.damageTo e)
  if r.2 ≠ 0 then
    let hp := r.1.hp - u.wound r.1 r.2
    { r.1 with hp := if hp < 0 then 0 else hp }
  else r.1

def cooldown : Int :=
  match u.type.kind with
  | .Terran_Bunker => 4
  | .Protoss_Interceptor => 45
  | .Protoss_Reaver => 60
  | _ => if e.flying then u.type.airWeaponCooldown else u.type.groundWeaponCooldown

/-- the attacker `u` after its attack on `e`; a scourge dies -/
def fire (frame : Int) (u e : SimUnit) : SimUnit :=
  let cooldownUntil := u.cooldownUntil + u.cooldown e
  { u with
    hp := if u.type.kind = .Zerg_Scourge then 0 else u.hp
    cooldownUntil := if cooldownUntil ≤ frame then frame + 1 else cooldownUntil }

def resolution : Int := 2

def approach : Except String SimUnit :=
  let dx := e.x - u.x
  let dy := e.y - u.y
  let d : Int := pxdistance 0 0 (dx / 256) (dy / 256)
  if d = 0 then .error "division by 0"
  else .ok { u with
    x := u.x + (dx * u.maxSpeed / 256).tdiv d * resolution
    y := u.y + (dy * u.maxSpeed / 256).tdiv d * resolution }

end SimUnit

/-- the turn of a living unit with a target: the simulation after it -/
def engage (frame : Int) (side : Side) (j : Nat) (u : SimUnit) (k : Nat) (e : SimUnit) (s : Sim) :
    Except String Sim :=
  let u := { u with target := some k, targetInRange := u.inRange e }
  if u.targetInRange then
    if u.cooldownUntil ≤ frame then
      .ok ((s.setUnit side.other k (u.hit e)).setUnit side j (u.fire frame e))
    else .ok (s.setUnit side j u)
  else (u.approach e).map (s.setUnit side j)

/-- the turn of the unit at `j`; with the simulation comes whether it did anything -/
def turn (frame : Int) (side : Side) (j : Nat) (s : Sim) : Except String (Sim × Bool) :=
  match s.unit? side j with
  | none => .ok (s, false)
  | some u =>
    if u.hp ≤ 0 then .ok (s, false)
    else
      match u.selectTarget (s.team side.other).units with
      | none => .ok (s.setUnit side j { u with target := none, targetInRange := false }, false)
      | some (k, e) => (engage frame side j u k e s).map fun s => (s, true)

/-! ## the run -/

structure Turn where
  frame : Int
  side : Side
  place : Nat
  before : Sim
  after : Sim

/-- the simulation inside a frame, whether any unit of the frame did something, and the log -/
structure Round where
  sim : Sim
  busy : Bool := false
  log : List Turn := []

def takeTurn (frame : Int) (r : Round) (p : Side × Nat) : Except String Round :=
  (turn frame p.1 p.2 r.sim).map fun q =>
    { sim := q.1, busy := r.busy || q.2, log := r.log ++ [⟨frame, p.1, p.2, r.sim, q.1⟩] }

def order (s : Sim) : List (Side × Nat) :=
  (List.range s.mine.units.length).map (Side.mine, ·) ++
    (List.range s.enemy.units.length).map (Side.enemy, ·)

def pass (frame : Int) (s : Sim) (log : List Turn) : Except String Round :=
  (order s).foldlM (takeTurn frame) { sim := s, log := log }

def loop (frames : Int) : Nat → Int → Sim → List Turn → Run (Sim × List Turn)
  | 0, _, _, _ => .spin
  | n + 1, frame, s, log =>
    if frame < frames then
      match pass frame s log with
      | .error e => .raise e
      | .ok r =>
        if r.busy then loop frames n (frame + SimUnit.resolution) r.sim r.log
        else .ret (r.sim, r.log)
    else .ret (s, log)

def Team.hp (t : Team) : ℚ := (t.units.map fun u => u.hp + u.shields).sum

def Sim.start (s : Sim) : Sim :=
  { s with
    mine := { s.mine with startHp := s.mine.hp }
    enemy := { s.enemy with startHp := s.enemy.hp } }

def Sim.finish (s : Sim) : Sim :=
  { s with
    mine := { s.mine with endHp := s.mine.hp }
    enemy := { s.enemy with endHp := s.enemy.hp } }

def run (frames : Int) (s : Sim) (n : Nat) : Run (Sim × List Turn) :=
  (loop frames n 0 s.start []).bind fun r => .ret (r.1.finish, r.2)

end TorchCraft.CombatSim
