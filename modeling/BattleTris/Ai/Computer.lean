import BattleTris.Ai.Strategy
import BattleTris.Match.VsComputer

/-!
The computer at the controls of its game, and the match against it.
-/

namespace BattleTris

open Loop

structure Computer where
  strategy : Strategy

namespace Computer

def new (seed : Nat) : Computer := ⟨.new seed⟩

def shop (c : Computer) (g : Game) : Computer × Game :=
  let (s, g) := c.strategy.goShopping g
  (⟨s⟩, g)

/-- Turn the piece until it faces `orientation`.  The turn is over, and the flag false, once there
is no piece. -/
def rotateTo (orientation : Int) : Nat → Game → Bool × Game
  | 0, g => (true, g)
  | n + 1, g =>
    match g.current with
    | none => (false, g)
    | some p =>
      if p.orientation = orientation then (true, g) else rotateTo orientation n g.rotate

/-- Shift the piece until it stands in column `x`. -/
def slideTo (x : Int) : Nat → Game → Bool × Game
  | 0, g => (true, g)
  | n + 1, g =>
    match g.current with
    | none => (false, g)
    | some p =>
      if p.x = x then (true, g)
      else slideTo x n (if p.x < x then g.moveRight else g.moveLeft)

/-- Steer the piece in play to a placement, and drop it there. -/
def steerTo (g : Game) (piece : Piece) (placement : Placement) : Game :=
  match rotateTo placement.orientation (max piece.orientations 1).toNat g with
  | (false, g) => g
  | (true, g) =>
    match slideTo placement.x (g.board.width * 2).toNat g with
    | (false, g) => g
    | (true, g) => g.aiBeginDrop

/-- Fire the orders that are due, then place the piece in play. -/
def takeTurn (c : Computer) (g : Game) : Computer × Game :=
  if g.isGameOver then (c, g)
  else
    let (s, g) := c.strategy.activateCommando g
    match g.current with
    | none => (⟨s⟩, g)
    | some piece =>
      (⟨s⟩, steerTo g piece (bestPlacementTuned g.board piece (.forActiveWeapons g)))

end Computer

/-- The milliseconds between placements, by difficulty. -/
def aiLevels : List Int :=
  [4000, 3000, 2000, 1500, 1250, 1000, 750, 550, 400, 350, 300, 225, 100, 10, 0]

/-- The match: its games and its relay, the driver of the computer's game and its delay. -/
structure ComputerMatch extends VsComputer where
  computer : Computer
  placePeriod : Int

namespace ComputerMatch

/-- The level is clamped to the table.  The source takes seeds of 64 bits. -/
def new (seed level : Nat) : ComputerMatch where
  player := .new seed
  ai := .new (seed ^^^ 0x9E3779B97F4A7C15)
  placeAccum := 0
  aiCommitted := false
  result := 0
  events := []
  computer := .new seed
  placePeriod := aiLevels.getD (min level (aiLevels.length - 1)) 0

def setAi (m : ComputerMatch) (computer : Computer) (ai : Game) : ComputerMatch :=
  { m with computer := computer, ai := ai }

def tickPlayer (m : ComputerMatch) (dt : Int) : ComputerMatch :=
  { m with player := m.player.tick dt }

/-- The computer shops once, then leaves; the match stands still until the player leaves too. -/
def visitBazaar (m : ComputerMatch) : ComputerMatch :=
  if m.ai.inBazaar then
    let (computer, ai) := m.computer.shop m.ai
    m.setAi computer ai.leaveBazaar
  else m

/-- One placement for each piece, and not before the delay has passed. -/
def place (m : ComputerMatch) : ComputerMatch :=
  if ¬m.aiCommitted ∧ m.placeAccum ≥ m.placePeriod then
    let m := { m with placeAccum := 0 }
    if ¬m.ai.isGameOver ∧ m.ai.current.isSome then
      let (computer, ai) := m.computer.takeTurn m.ai
      { m.setAi computer ai with aiCommitted := true }
    else m
  else m

def aiLogic (m : ComputerMatch) (dt : Int) : ComputerMatch :=
  { m with ai := m.ai.tick dt, placeAccum := m.placeAccum + dt }.place

def relay (m : ComputerMatch) : ComputerMatch :=
  { m with toVsComputer := m.toVsComputer.relay }

def tick (m : ComputerMatch) (dt : Int) : ComputerMatch :=
  if m.result ≠ 0 then m
  else if m.player.inBazaar ∨ m.ai.inBazaar then m.visitBazaar.relay
  else ((m.tickPlayer dt).aiLogic dt).relay

/-- Drain the player's events for the host. -/
def drainEvents (m : ComputerMatch) : List GameEvent × ComputerMatch :=
  (m.events, { m with events := [] })

/-- Apply an input to the player's game. -/
def apply (m : ComputerMatch) (i : Input) : ComputerMatch :=
  { m with player := i.applyToGame m.player }

/-! ## The events for the host -/

/-- The match with earlier events waiting for the host. -/
def trailing (es : List GameEvent) (m : ComputerMatch) : ComputerMatch :=
  { m with events := es ++ m.events }

/-- The match with no event waiting for the host. -/
def drained (m : ComputerMatch) : ComputerMatch := { m with events := [] }

theorem trailing_drained (m : ComputerMatch) : m.drained.trailing m.events = m := by
  unfold trailing drained
  rw [List.append_nil]

theorem drained_trailing (es : List GameEvent) (m : ComputerMatch) :
    (m.trailing es).drained = m.drained := rfl

end ComputerMatch

namespace VsComputer

/-- The match with earlier events waiting for the host. -/
def trailing (es : List GameEvent) (vs : VsComputer) : VsComputer :=
  { vs with events := es ++ vs.events }

variable (es : List GameEvent) (vs : VsComputer)

theorem relayPlayer_trailing (e : GameEvent) :
    (vs.trailing es).relayPlayer e = (vs.relayPlayer e).trailing es := by
  have append (gs hs : List GameEvent) : es ++ gs ++ hs = es ++ (gs ++ hs) := List.append_assoc ..
  cases e with
  | weaponLaunched t =>
    exact congrArg (fun es => { vs.deliver t .a with events := es }) (append _ _)
  | _ =>
    unfold relayPlayer trailing
    dsimp only
    rw [append]

theorem relayAi_trailing (e : GameEvent) :
    (vs.trailing es).relayAi e = (vs.relayAi e).trailing es := by
  cases e <;> rfl

/-- The relay adds to the events for the host, and never reads them. -/
theorem relay_trailing : (vs.trailing es).relay = vs.relay.trailing es := by
  have players : (vs.trailing es).relayFromPlayer = vs.relayFromPlayer.trailing es :=
    foldl_map_comm (f := relayPlayer) (trailing es) (fun e _ vs => relayPlayer_trailing es vs e)
      { vs with player := vs.player.takeEvents.2 }
  unfold relay
  rw [players]
  exact foldl_map_comm (f := relayAi) (trailing es) (fun e _ vs => relayAi_trailing es vs e)
    { vs.relayFromPlayer with ai := vs.relayFromPlayer.ai.takeEvents.2 }

end VsComputer

namespace ComputerMatch

variable (es : List GameEvent) (m : ComputerMatch)

theorem relay_trailing : (m.trailing es).relay = m.relay.trailing es := by
  have relayed := VsComputer.relay_trailing es m.toVsComputer
  exact congrArg (fun vs => { m with toVsComputer := vs }) relayed

theorem visitBazaar_trailing : (m.trailing es).visitBazaar = m.visitBazaar.trailing es := by
  unfold visitBazaar
  change (if m.ai.inBazaar then _ else _) = _
  split <;> rfl

theorem place_trailing : (m.trailing es).place = m.place.trailing es := by
  unfold place
  change (if ¬m.aiCommitted ∧ m.placeAccum ≥ m.placePeriod then _ else _) = _
  split
  · change (if ¬m.ai.isGameOver ∧ m.ai.current.isSome then _ else _) = _
    dsimp only
    split <;> rfl
  · rfl

theorem aiLogic_trailing (dt : Int) : (m.trailing es).aiLogic dt = (m.aiLogic dt).trailing es :=
  place_trailing es { m with ai := m.ai.tick dt, placeAccum := m.placeAccum + dt }

/-- A tick adds to the events for the host, and never reads them. -/
theorem tick_trailing (dt : Int) : (m.trailing es).tick dt = (m.tick dt).trailing es := by
  unfold tick
  change (if m.result ≠ 0 then _ else if m.player.inBazaar ∨ m.ai.inBazaar then _ else _) = _
  split
  · rfl
  · split
    · rw [visitBazaar_trailing, relay_trailing]
    · have ticked : (m.trailing es).tickPlayer dt = (m.tickPlayer dt).trailing es := rfl
      rw [ticked, aiLogic_trailing, relay_trailing]

end ComputerMatch

end BattleTris
