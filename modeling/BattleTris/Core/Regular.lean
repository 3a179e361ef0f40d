import BattleTris.Core.BoardSpec
import BattleTris.Core.Game

/-!
What play never changes about a game: the size of its board, the values its keep
probabilities take, the rotation state of its piece, and the length of a board
that waits to be swapped in.
-/

namespace BattleTris

open Loop

namespace Board

/-- A human player's board between two landings. -/
def Standard (b : Board) : Prop :=
  b.width = btBoardWth ∧ b.height = btBoardHgt ∧ b.computer = false ∧ b.newFill = []

theorem Standard.width {b : Board} (standard : b.Standard) : b.width = btBoardWth := standard.1

theorem Standard.height {b : Board} (standard : b.Standard) : b.height = btBoardHgt :=
  standard.2.1

theorem Standard.computer {b : Board} (standard : b.Standard) : b.computer = false :=
  standard.2.2.1

theorem Standard.newFill {b : Board} (standard : b.Standard) : b.newFill = [] :=
  standard.2.2.2

theorem Standard.keeps {b b' : Board} (standard : b.Standard) (keeps : Keeps b b') :
    b'.Standard :=
  ⟨keeps.width.trans standard.width, keeps.height.trans standard.height,
    keeps.computer.trans standard.computer, keeps.newFill.trans standard.newFill⟩

theorem Standard.setActive {b : Board} (standard : b.Standard) (t : WeaponToken) (on : Bool) :
    (b.setActive t on).Standard := standard

theorem Standard.setUpside {b : Board} (standard : b.Standard) (upside : Bool) :
    (b.setUpside upside).Standard := standard

end Board

namespace Piece

/-- The rotation state of a piece is one the restore accepts. -/
def Regular (p : Piece) : Prop :=
  (p.rot = 0 ∨ p.rot = 3 ∨ p.rot = 4 ∨ p.rot = 8) ∧
    0 ≤ p.orientation ∧ p.orientation < p.orientations

theorem Regular.rot {p : Piece} (regular : p.Regular) :
    p.rot = 0 ∨ p.rot = 3 ∨ p.rot = 4 ∨ p.rot = 8 := regular.1

theorem Regular.low {p : Piece} (regular : p.Regular) : 0 ≤ p.orientation := regular.2.1

theorem Regular.high {p : Piece} (regular : p.Regular) : p.orientation < p.orientations :=
  regular.2.2

theorem regular_construct (kind : PieceKind) (x y : Int) (dieValue : UInt8) :
    (construct kind x y dieValue).Regular := by
  have shaped : ((shape dieValue kind).rot = 0 ∨ (shape dieValue kind).rot = 3 ∨
      (shape dieValue kind).rot = 4 ∨ (shape dieValue kind).rot = 8) ∧
        0 < (shape dieValue kind).orientations := by
    cases kind <;> simp [shape]
  exact ⟨shaped.1, le_rfl, shaped.2⟩

/-- Turning keeps the orientation in range. -/
theorem Regular.turned {p : Piece} (regular : p.Regular) (reverse : Bool) :
    0 ≤ p.nextOrientation reverse ∧ p.nextOrientation reverse < p.orientations := by
  have low := regular.low
  have high := regular.high
  have range (v : Int) (nonneg : 0 ≤ v) :
      0 ≤ v.tmod p.orientations ∧ v.tmod p.orientations < p.orientations :=
    ⟨Int.tmod_nonneg _ nonneg, Int.tmod_lt_of_pos v (by omega)⟩
  cases reverse
  · exact range _ (by omega)
  · exact range _ (by omega)

theorem Regular.rotate {p : Piece} (regular : p.Regular) (b : Board) (reverse : Bool) :
    (p.rotate b reverse).2.Regular := by
  have generic : (p.rotateGeneric b reverse).2.Regular := by
    unfold rotateGeneric
    split
    · exact regular
    · split
      · exact regular
      · exact ⟨regular.rot, regular.turned reverse⟩
  unfold Piece.rotate
  split
  · unfold rotateWall
    dsimp only
    split
    · exact regular
    · exact ⟨regular.rot, regular.turned reverse⟩
  · unfold rotateStar
    dsimp only
    split
    · exact regular
    · exact regular
  · unfold rotateWeirding
    dsimp only
    split
    · exact regular
    · exact ⟨regular.rot, regular.turned reverse⟩
  · exact generic

/-- Landing drains the fill list and keeps the rest of the board's frame. -/
theorem keeps_land (p : Piece) (b : Board) :
    Board.Keeps { b with newFill := [] } (p.land b) := by
  have square (c : Board) (i j : Fin btPieceWidth) :
      Board.Keeps { c with newFill := [] } { p.landSquare c i j with newFill := [] } := by
    unfold landSquare
    split
    · unfold Board.fill
      split
      · exact ⟨Board.set_width _ _ _ _, Board.set_height _ _ _ _, rfl, rfl, rfl, rfl⟩
      · exact Board.Keeps.refl _
    · exact Board.Keeps.refl _
  have squares : Board.Keeps { b with newFill := [] }
      { (List.finRange btPieceWidth).foldl (fun b i =>
        (List.finRange btPieceWidth).foldl (fun b j => p.landSquare b i j) b) b with
          newFill := [] } := by
    refine foldl_invariant
      (P := fun c : Board => Board.Keeps { b with newFill := [] } { c with newFill := [] })
      (fun i _ c keeps => ?_) (Board.Keeps.refl _)
    exact foldl_invariant
      (P := fun c : Board => Board.Keeps { b with newFill := [] } { c with newFill := [] })
      (fun j _ c keeps => keeps.trans (square c i j)) keeps
  exact squares.trans (Board.keeps_landed _ p.x p.y)

end Piece

/-- The four values a keep probability ever takes. -/
def keepValues : List Float := [0.0, btDefaultKeepProb, btExoticKeepProb, btDieKeepProb]

namespace PieceManager

def Regular (pm : PieceManager) : Prop := ∀ i, pm.keepProb i ∈ keepValues

theorem Regular.setKeep {pm : PieceManager} (regular : pm.Regular) (lo hi : Nat) {v : Float}
    (value : v ∈ keepValues) : (pm.setKeep lo hi v).Regular := by
  intro i
  unfold PieceManager.setKeep
  dsimp only
  split
  · exact value
  · exact regular i

theorem zero_mem : (0.0 : Float) ∈ keepValues := .head _

theorem default_mem : btDefaultKeepProb ∈ keepValues := .tail _ (.head _)

theorem exotic_mem : btExoticKeepProb ∈ keepValues := .tail _ (.tail _ (.head _))

theorem die_mem : btDieKeepProb ∈ keepValues := .tail _ (.tail _ (.tail _ (.head _)))

theorem regular_new : new.Regular := by
  have blank : Regular ⟨fun _ => 0.0, 0, false, 0⟩ := fun _ => zero_mem
  exact (((blank.setKeep 1 7 default_mem).setKeep 8 8 die_mem).setKeep 9 9
    exotic_mem).setKeep 18 18 exotic_mem

theorem Regular.weaponOn {pm : PieceManager} (regular : pm.Regular) (t : WeaponToken) :
    (pm.weaponOn t).Regular := by
  cases t with
  | fearedWeird => exact (regular.setKeep 1 7 zero_mem).setKeep 10 16 default_mem
  | fourByFour => exact (regular.setKeep 7 7 zero_mem).setKeep 17 17 default_mem
  | noDice => exact regular.setKeep 8 8 zero_mem
  | soLong => exact regular.setKeep 5 5 zero_mem
  | _ => exact regular

theorem Regular.weaponOff {pm : PieceManager} (regular : pm.Regular) (t : WeaponToken) :
    (pm.weaponOff t).Regular := by
  cases t with
  | fearedWeird => exact (regular.setKeep 1 7 default_mem).setKeep 10 16 zero_mem
  | fourByFour => exact (regular.setKeep 7 7 default_mem).setKeep 17 17 zero_mem
  | noDice => exact regular.setKeep 8 8 die_mem
  | soLong => exact regular.setKeep 5 5 default_mem
  | _ => exact regular

theorem Regular.choose {pm : PieceManager} (regular : pm.Regular) (rng : Rng) :
    (pm.choose rng).2.1.Regular := by
  unfold PieceManager.choose
  split
  · split
    · dsimp only
      split <;> exact regular
    · exact regular
  · exact regular

theorem create_regular {pm : PieceManager} (regular : pm.Regular) (rng : Rng) (x y : Int) :
    (pm.create rng x y).1.Regular ∧ (pm.create rng x y).2.1.Regular := by
  have chosen := regular.choose rng
  unfold create
  dsimp only
  split
  · exact ⟨Piece.regular_construct _ _ _ _, chosen⟩
  · exact ⟨Piece.regular_construct _ _ _ _, chosen⟩

end PieceManager

namespace Game

/-- What play keeps of the fields a keyframe relies on. -/
def Regular (g : Game) : Prop :=
  g.board.Standard ∧ g.pieces.Regular ∧ (∀ p, g.current = some p → p.Regular) ∧
    (∀ cells, g.pendingBoard = some cells → cells.length = 1120)

namespace Regular

variable {g : Game}

theorem board (regular : g.Regular) : g.board.Standard := regular.1

theorem pieces (regular : g.Regular) : g.pieces.Regular := regular.2.1

theorem current (regular : g.Regular) : ∀ p, g.current = some p → p.Regular := regular.2.2.1

theorem pendingBoard (regular : g.Regular) :
    ∀ cells, g.pendingBoard = some cells → cells.length = 1120 := regular.2.2.2

/-! ### Scores and the bazaar -/

theorem stealTax (regular : g.Regular) (tax : Int) : (g.stealTax tax).Regular := by
  unfold Game.stealTax
  split <;> exact regular

theorem creditClearFunds (regular : g.Regular) (funds : Int) :
    (g.creditClearFunds funds).Regular := by
  unfold Game.creditClearFunds
  split
  · exact regular.stealTax _
  · exact regular

theorem updateBazaar (regular : g.Regular) : g.updateBazaar.Regular := by
  unfold Game.updateBazaar
  dsimp only
  split <;> exact regular

/-! ### Weapons -/

theorem switchOff (regular : g.Regular) (t : WeaponToken) : (g.switchOff t).Regular := by
  have reverted := (regular.board.setUpside _).keeps (Board.keeps_revertWeapon g.board t)
  exact ⟨reverted, regular.pieces.weaponOff t, regular.current, regular.pendingBoard⟩

theorem weaponUnframe (regular : g.Regular) (t : WeaponToken) : (g.weaponUnframe t).Regular := by
  cases t <;> exact regular

theorem applyWeaponOff (regular : g.Regular) (t : WeaponToken) : (g.applyWeaponOff t).Regular :=
  (regular.switchOff t).weaponUnframe t

theorem tickDuration (regular : g.Regular) (lines : Int) (t : WeaponToken) :
    (tickDuration lines g t).Regular := by
  have counted (left : Int) : (g.setRemaining t left).Regular := regular
  unfold Game.tickDuration
  dsimp only
  split
  · exact regular
  · split
    · exact (counted _).applyWeaponOff t
    · exact counted _

theorem lineTick (regular : g.Regular) (lines : Int) : (g.lineTick lines).Regular :=
  foldl_invariant (P := Regular) (fun t _ _ regular => regular.tickDuration lines t)
    regular.updateBazaar

theorem emit (regular : g.Regular) (e : GameEvent) : (g.emit e).Regular := regular

theorem emitScored (regular : g.Regular) : g.emitScored.Regular := regular.emit _

theorem creditWeaponClear (regular : g.Regular) (clear : LineClear) :
    (g.creditWeaponClear clear).Regular := by
  have credited : (g.addLines clear.lines).Regular := regular
  unfold Game.creditWeaponClear
  split
  · exact ((credited.creditClearFunds _).lineTick _).emitScored
  · exact regular

theorem switchOn (regular : g.Regular) (t : WeaponToken) : (g.switchOn t).2.Regular :=
  ⟨((regular.board.setActive t true).setUpside _).keeps
      (Board.keeps_applyWeapon (g.board.setActive t true) t g.rng),
    regular.pieces, regular.current, regular.pendingBoard⟩

theorem streamOn (regular : g.Regular) (t : WeaponToken) : (g.streamOn t).Regular :=
  ⟨regular.board, regular.pieces.weaponOn t, regular.current, regular.pendingBoard⟩

theorem weaponFrame (regular : g.Regular) (t : WeaponToken) (wasActive : Bool) :
    (g.weaponFrame t wasActive).Regular := by
  cases t <;> cases wasActive <;> exact regular

theorem applyWeaponOn (regular : g.Regular) (t : WeaponToken) : (g.applyWeaponOn t).Regular :=
  (((regular.switchOn t).creditWeaponClear _).streamOn t).weaponFrame t _

theorem forceWeaponOff (regular : g.Regular) (t : WeaponToken) :
    (g.forceWeaponOff t).Regular := by
  unfold Game.forceWeaponOff
  split
  · exact regular.applyWeaponOff t
  · exact regular

theorem importBoard (regular : g.Regular) (data : List Int) : (g.importBoard data).Regular := by
  unfold Game.importBoard
  dsimp only
  split
  · exact regular
  · refine ⟨regular.board.keeps ?_, regular.pieces, regular.current, regular.pendingBoard⟩
    dsimp only
    exact Board.keeps_forRange (fun y b =>
      Board.keeps_forRange (fun x b => Board.keeps_set b x y _) b) g.board

theorem flushWeapons (regular : g.Regular) : g.flushWeapons.Regular :=
  foldl_invariant (P := Regular) (fun t _ _ regular => regular.applyWeaponOn t) regular

theorem installBoard (regular : g.Regular) : g.installBoard.Regular := by
  have cleared : Regular { g with pendingBoard := none } :=
    ⟨regular.board, regular.pieces, regular.current, fun _ same => by cases same⟩
  unfold Game.installBoard
  split
  · exact ((cleared.importBoard _).forceWeaponOff _).forceWeaponOff _
  · exact regular

theorem flushPending (regular : g.Regular) : g.flushPending.Regular :=
  regular.flushWeapons.installBoard

/-! ### Locking and spawning -/

theorem withPiece (regular : g.Regular) {p : Piece} (piece : p.Regular) :
    Regular { g with current := some p } :=
  ⟨regular.board, regular.pieces, fun _ same => (by cases same; exact piece),
    regular.pendingBoard⟩

theorem withoutPiece (regular : g.Regular) : Regular { g with current := none } :=
  ⟨regular.board, regular.pieces, fun _ same => (by cases same),
    regular.pendingBoard⟩

theorem enterPiece (regular : g.Regular) {p : Piece} (piece : p.Regular) :
    (g.enterPiece p).Regular := by
  unfold Game.enterPiece
  dsimp only
  split
  · exact regular.withPiece (p := { p with x := _, y := g.defY }) piece
  · exact regular.withoutPiece

theorem spawn (regular : g.Regular) : g.spawn.Regular := by
  obtain ⟨piece, pieces⟩ := PieceManager.create_regular regular.pieces g.rng g.defX g.defY
  have streamed : (g.setStream (g.pieces.create g.rng g.defX g.defY).2.1
      (g.pieces.create g.rng g.defX g.defY).2.2).Regular :=
    ⟨regular.board, pieces, regular.current, regular.pendingBoard⟩
  exact streamed.enterPiece piece

theorem landPiece (regular : g.Regular) (p : Piece) : (g.landPiece p).2.Regular := by
  have drained : Board.Standard { g.board with newFill := [] } :=
    ⟨regular.board.width, regular.board.height, regular.board.computer, rfl⟩
  have landed := (drained.keeps (p.keeps_land g.board)).keeps
    (Board.keeps_checkLines (p.land g.board))
  unfold Game.landPiece
  dsimp only
  generalize (p.land g.board).checkLines = r at landed
  exact ⟨landed, regular.pieces, regular.current, regular.pendingBoard⟩

theorem signalAirslide (regular : g.Regular) (p : Piece) : (g.signalAirslide p).Regular := by
  unfold Game.signalAirslide
  split <;> exact regular

theorem signalIdiot (regular : g.Regular) : g.signalIdiot.Regular := by
  have drained : Regular (g.setBoard g.board.flushIdiot.2) := regular
  unfold Game.signalIdiot
  dsimp only
  split
  · exact drained
  · exact drained

theorem lockPiece (regular : g.Regular) (p : Piece) : (g.lockPiece p).Regular := by
  have landed := (regular.signalAirslide p).landPiece p
  unfold Game.lockPiece
  dsimp only
  generalize (g.signalAirslide p).landPiece p = r at landed
  have credited : ((r.2.addLines r.1.lines).creditClearFunds r.1.funds).Regular :=
    creditClearFunds (g := r.2.addLines r.1.lines) landed _
  generalize (r.2.addLines r.1.lines).creditClearFunds r.1.funds = c at credited
  have signalled := (credited.emit (.locked r.1.lines r.1.value r.1.funds)).signalIdiot
  refine emitScored ?_
  split
  · exact signalled.lineTick r.1.lines
  · exact signalled

theorem markLock (regular : g.Regular) : g.markLock.Regular := regular

theorem lockAndSpawn (regular : g.Regular) (p : Piece) : (g.lockAndSpawn p).Regular :=
  (regular.lockPiece p).flushPending.spawn.markLock

theorem setSliding (regular : g.Regular) (sliding : Int) : (g.setSliding sliding).Regular :=
  regular

theorem resumeFall (regular : g.Regular) {p : Piece} (piece : p.Regular) :
    (g.resumeFall p).Regular :=
  regular.withPiece (p := { p with x := _, y := _ }) piece

theorem carry (regular : g.Regular) {p : Piece} (piece : p.Regular) (dx dy : Int) :
    (g.carry p dx dy).Regular :=
  regular.withPiece (p := { p with x := _, y := _ }) piece

theorem place (regular : g.Regular) (force : Bool) : (g.place force).Regular := by
  unfold Game.place
  cases current : g.current with
  | none => exact regular
  | some p =>
    dsimp only
    split
    · exact (regular.withoutPiece.lockAndSpawn p).setSliding 0
    · exact (regular.resumeFall (regular.current p current)).setSliding 0

/-! ### The clock -/

theorem dropStep (regular : g.Regular) : g.dropStep.Regular := by
  unfold Game.dropStep
  cases current : g.current with
  | none => exact regular
  | some p =>
    dsimp only
    split
    · exact regular.carry (regular.current p current) 0 g.deltaY
    · exact regular

theorem rotateInternal (regular : g.Regular) : g.rotateInternal.Regular := by
  refine ⟨regular.board, regular.pieces, fun q turned => ?_, regular.pendingBoard⟩
  obtain ⟨p, current, rfl⟩ := Option.map_eq_some_iff.mp turned
  exact (regular.current p current).rotate g.board false

theorem slickStep (regular : g.Regular) : g.slickStep.Regular := by
  unfold Game.slickStep
  cases current : g.current with
  | none => exact regular
  | some p =>
    dsimp only
    split
    · exact regular.carry (regular.current p current) g.slickDx 0
    · exact regular

theorem tickHatter (regular : g.Regular) (dt : Int) : (g.tickHatter dt).Regular := by
  unfold Game.tickHatter
  split
  · refine whileN_invariant (P := Regular) (fun s _ regular => ?_) _ regular
    exact rotateInternal (g := { s with hatterAccum := s.hatterAccum - 20 }) regular
  · exact regular

theorem tickSlick (regular : g.Regular) (dt : Int) : (g.tickSlick dt).Regular := by
  unfold Game.tickSlick
  split
  · refine whileN_invariant (P := Regular) (fun s _ regular => ?_) _ regular
    exact slickStep (g := { s with slickAccum := s.slickAccum - 20 }) regular
  · exact regular

theorem tickWeapons (regular : g.Regular) (dt : Int) : (g.tickWeapons dt).Regular :=
  (regular.tickHatter dt).tickSlick dt

theorem tickFalling (regular : g.Regular) (dt : Int) : (g.tickFalling dt).Regular := by
  unfold Game.tickFalling
  refine whileN_invariant (P := Regular) (fun s _ regular => ?_) _ regular
  exact dropStep (g := { s with dropAccum := s.dropAccum - _ }) regular

theorem tickSliding (regular : g.Regular) (dt : Int) : (g.tickSliding dt).Regular := by
  unfold Game.tickSliding
  dsimp only
  split
  · exact place (g := { g with slideAccum := g.slideAccum + dt }) regular false
  · refine whileN_invariant (P := Regular) (fun s _ regular => ?_) _ regular
    exact place (g := { s with slideAccum := s.slideAccum - _ }) regular false

theorem tick (regular : g.Regular) (dt : Int) : (g.tick dt).Regular := by
  have timed := regular.tickWeapons dt
  unfold Game.tick
  split
  · exact regular
  · dsimp only
    rcases (g.tickWeapons dt).phase with _ | _ | _
    · exact timed.tickFalling dt
    · exact timed.tickSliding dt
    · exact timed

/-! ### Inputs -/

theorem shift (regular : g.Regular) (dx : Int) : (g.shift dx).Regular := by
  unfold Game.shift
  split
  · exact regular
  · cases current : g.current with
    | none => exact regular
    | some p =>
      dsimp only
      split
      · exact carry (g := g.steer) regular (regular.current p current) dx 0
      · exact regular

theorem rotate (regular : g.Regular) : g.rotate.Regular := by
  unfold Game.rotate
  split
  · exact regular
  · exact regular.rotateInternal

theorem dropFor (regular : g.Regular) (bonus : Int) : (g.dropFor bonus).Regular := by
  have engaged : g.engageFastDrop.2.Regular := by
    unfold Game.engageFastDrop
    split
    · exact regular
    · dsimp only
      split <;> exact regular
  unfold Game.dropFor
  dsimp only
  split
  · exact engaged
  · exact engaged

theorem softDrop (regular : g.Regular) : g.softDrop.Regular := by
  unfold Game.softDrop
  split
  · exact regular
  · exact regular.dropStep

theorem launchWeapon (regular : g.Regular) (slot : Nat) : (g.launchWeapon slot).Regular := by
  unfold Game.launchWeapon
  split
  · exact regular
  · split <;> exact regular

theorem receiveWeapon (regular : g.Regular) (t : WeaponToken) : (g.receiveWeapon t).Regular :=
  regular

theorem raiseStack (regular : g.Regular) (lines : Int) : (g.raiseStack lines).Regular := by
  unfold Game.raiseStack
  split
  · refine forRange_invariant (P := Regular) (fun _ s _ _ regular => ?_) regular
    exact ⟨regular.board.keeps (Board.keeps_insertLine s.board s.rng), regular.pieces,
      regular.current, regular.pendingBoard⟩
  · exact regular

theorem receiveOpScore (regular : g.Regular) (opScore opLines opFunds : Int) :
    (g.receiveOpScore opScore opLines opFunds).Regular :=
  updateBazaar (g := Game.setOpLines _ _)
    (raiseStack (g := g.mirrorScore opScore opFunds) regular _)

theorem addFunds (regular : g.Regular) (amount : Int) : (g.addFunds amount).Regular := by
  unfold Game.addFunds
  split <;> exact regular

theorem buyWeapon (regular : g.Regular) (t : WeaponToken) : (g.buyWeapon t).2.Regular := by
  unfold Game.buyWeapon
  split
  · exact regular
  · dsimp only
    split
    · exact regular
    · split <;> exact regular

theorem sellWeapon (regular : g.Regular) (t : WeaponToken) : (g.sellWeapon t).2.Regular := by
  unfold Game.sellWeapon
  split
  · exact regular
  · dsimp only
    split <;> exact regular

theorem queueBoardSwap (regular : g.Regular) {cells : List Int} (length : cells.length = 1120) :
    (g.queueBoardSwap cells).Regular :=
  ⟨regular.board, regular.pieces, regular.current, fun _ same => by cases same; exact length⟩

end Regular

theorem regular_new (seed : Nat) : (new seed).Regular := by
  have blank : (blank seed).Regular := by
    refine ⟨⟨rfl, rfl, rfl, rfl⟩, PieceManager.regular_new, ?_, ?_⟩
    · intro p same
      cases same
    · intro cells same
      cases same
  exact blank.spawn

end Game

end BattleTris
