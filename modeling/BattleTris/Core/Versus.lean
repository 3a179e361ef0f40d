import BattleTris.Core.Game

/-!
The head-to-head match: both games, ticked in lockstep, with the relay between
them.

The two halves of the relay are one definition over the side whose events it
drains.
-/

namespace BattleTris

inductive Side where
  | a
  | b
  deriving DecidableEq, Repr

namespace Side

def other : Side → Side
  | a => b
  | b => a

@[simp] theorem other_other (s : Side) : s.other.other = s := by
  cases s <;> rfl

@[simp] theorem other_ne (s : Side) : s.other ≠ s := by
  cases s <;> decide

@[simp] theorem ne_other (s : Side) : s ≠ s.other := by
  cases s <;> decide

theorem eq_or_eq_other (s t : Side) : s = t ∨ s = t.other := by
  cases s <;> cases t <;> decide

end Side

/-- Ames, Ace and Condor reveal the opponent to their launcher. -/
def isSpy (token : WeaponToken) : Bool :=
  token = .ames ∨ token = .ace ∨ token = .condor

/-- What a Mirror makes fizzle instead of backfire. -/
def mirrorNullifies (token : WeaponToken) : Bool :=
  token ∈ [.swap, .mondale, .keating, .ames, .ace, .condor, .niceDay, .susan, .mirror]

/-- What a delivery did to the attacker and the victim. -/
structure Delivery where
  queuedOnVictim : Option WeaponToken
  queuedOnAttacker : Option WeaponToken
  attackerCredit : Option Int
  needsKeyframe : Bool
  deriving DecidableEq

def Delivery.none : Delivery := ⟨.none, .none, .none, false⟩

/-- A cross-player effect as the host forwards it to one side's client. -/
inductive RelayEvent where
  | receiveWeapon (token : WeaponToken)
  | receiveOpScore (score lines : Int)
  | addFunds (amount : Int)
  deriving DecidableEq

inductive Recipient where
  | attacker
  | victim
  deriving DecidableEq

/-- Apply a weapon once Mirror is resolved.  Swap and Susan act on both sides and
ignore the recipient; Keating credits its launch snapshot at once. -/
def applyWeapon (attacker victim : Game) (token : WeaponToken) (recipient : Recipient) :
    Game × Game × Delivery :=
  match token with
  | .swap =>
    let aCells := attacker.exportBoard
    let vCells := victim.exportBoard
    (attacker.queueBoardSwap vCells, victim.queueBoardSwap aCells,
      { Delivery.none with needsKeyframe := true })
  | .susan =>
    let (attacker, victim) := attacker.swapArsenalWith victim
    (attacker, victim, { Delivery.none with needsKeyframe := true })
  | .keating =>
    let credit := victim.score.funds
    (attacker.addFunds credit, victim.receiveWeapon token,
      { Delivery.none with queuedOnVictim := some token, attackerCredit := some credit })
  | _ =>
    match recipient with
    | .attacker =>
      (attacker.receiveWeapon token, victim,
        { Delivery.none with queuedOnAttacker := some token })
    | .victim =>
      (attacker, victim.receiveWeapon token,
        { Delivery.none with queuedOnVictim := some token })

/-- Route a launched weapon, honouring the launcher's Mirror curse. -/
def deliverWeapon (attacker victim : Game) (token : WeaponToken) : Game × Game × Delivery :=
  if attacker.weaponActive .mirror then
    if mirrorNullifies token then (attacker, victim, .none)
    else applyWeapon attacker victim token .attacker
  else applyWeapon attacker victim token .victim

/-- Both games, the latched result (0 ongoing, 1 for A, 2 for B), the keyframe
flag, and what the last tick produced for the host: spies and relay events. -/
structure Versus where
  a : Game
  b : Game
  result : Int
  dirty : Bool
  spyLaunch : Side → List WeaponToken
  outbox : Side → List RelayEvent

namespace Versus

def new (seedA seedB : Nat) : Versus :=
  { a := .new seedA, b := .new seedB, result := 0, dirty := false
    spyLaunch := fun _ => [], outbox := fun _ => [] }

def game (v : Versus) : Side → Game
  | .a => v.a
  | .b => v.b

def setGame (v : Versus) (s : Side) (g : Game) : Versus :=
  match s with
  | .a => { v with a := g }
  | .b => { v with b := g }

/-- Drive one side's game. -/
def modify (v : Versus) (s : Side) (f : Game → Game) : Versus :=
  v.setGame s (f (v.game s))

def isOver (v : Versus) : Bool := v.result ≠ 0

def pushOutbox (v : Versus) (s : Side) (e : RelayEvent) : Versus :=
  { v with outbox := Function.update v.outbox s (v.outbox s ++ [e]) }

def takeOutbox (v : Versus) (s : Side) : List RelayEvent × Versus :=
  (v.outbox s, { v with outbox := Function.update v.outbox s [] })

def takeDirty (v : Versus) : Bool × Versus := (v.dirty, { v with dirty := false })

def takeSpyLaunches (v : Versus) (s : Side) : List WeaponToken × Versus :=
  (v.spyLaunch s, { v with spyLaunch := Function.update v.spyLaunch s [] })

/-- The relay events of one delivery, for the attacker's and the victim's client. -/
def recordDelivery (v : Versus) (d : Delivery) (attacker victim : Side) : Versus :=
  let v := match d.queuedOnVictim with
    | some t => v.pushOutbox victim (.receiveWeapon t)
    | none => v
  let v := match d.queuedOnAttacker with
    | some t => v.pushOutbox attacker (.receiveWeapon t)
    | none => v
  match d.attackerCredit with
  | some amount => v.pushOutbox attacker (.addFunds amount)
  | none => v

/-- A launch of side `s`: a spy is peeled off for the host, anything else is
delivered and recorded. -/
def relayLaunch (v : Versus) (s : Side) (t : WeaponToken) : Versus :=
  if isSpy t then
    if (v.game s).weaponActive .mirror then v
    else { v with spyLaunch := Function.update v.spyLaunch s (v.spyLaunch s ++ [t]) }
  else
    let (attacker, victim, d) := deliverWeapon (v.game s) (v.game s.other) t
    let v := ((v.setGame s attacker).setGame s.other victim).recordDelivery d s s.other
    if d.needsKeyframe then { v with dirty := true } else v

/-- The result when side `s` tops out first. -/
def lossOf : Side → Int
  | .a => 2
  | .b => 1

/-- Resolve one event of side `s`. -/
def relayEvent (s : Side) (v : Versus) (e : GameEvent) : Versus :=
  match e with
  | .weaponLaunched t => v.relayLaunch s t
  | .scored score lines funds =>
    (v.modify s.other fun g => g.receiveOpScore score lines funds).pushOutbox s.other
      (.receiveOpScore score lines)
  | .fundsStolen amount =>
    (v.modify s.other fun g => g.addFunds amount).pushOutbox s.other (.addFunds amount)
  | .enterBazaar => { v with dirty := true }
  | .gameOver => if v.result = 0 then { v with result := lossOf s } else v
  | _ => v

/-- One half of the relay: drain side `s` and resolve its events in order. -/
def relayFrom (v : Versus) (s : Side) : Versus :=
  let (events, g) := (v.game s).takeEvents
  events.foldl (relayEvent s) (v.setGame s g)

def relay (v : Versus) : Versus := (v.relayFrom .a).relayFrom .b

/-- Some side is shopping. -/
def barrier (v : Versus) : Bool := v.a.inBazaar || v.b.inBazaar

/-- Under the bazaar barrier neither game ticks. -/
def advance (v : Versus) (dtMs : Int) : Versus :=
  if v.barrier then v else { v with a := v.a.tick dtMs, b := v.b.tick dtMs }

/-- Advance the match; the relay runs under the barrier too. -/
def tick (v : Versus) (dtMs : Int) : Versus :=
  if v.result ≠ 0 then v else (v.advance dtMs).relay

/-- `tick` ticks the two games. -/
def ticks (v : Versus) : Bool := v.result = 0 ∧ ¬v.barrier

end Versus

end BattleTris
