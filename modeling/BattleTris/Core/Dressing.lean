import BattleTris.Core.Game

/-!
What most operations of a game do not look at: the events it has queued, its funds
and the mirror of the opponent's funds.

A `Dress` changes these three.  An operation that neither spends, earns nor publishes
funds commutes with every dress that lets the other events pass.
-/

namespace BattleTris

open Loop

/-- The event publishes the score, and the funds with it. -/
def GameEvent.isScored : GameEvent → Bool
  | .scored _ _ _ => true
  | _ => false

namespace Game

/-- A change of the queued events, the funds and the funds mirror.  An event that is
no score is queued alike before and after it. -/
structure Dress where
  events : List GameEvent → List GameEvent
  funds : Int → Int
  opFunds : Int → Int
  passes : ∀ es e, e.isScored = false → events (es ++ [e]) = events es ++ [e]

def dressed (φ : Dress) (g : Game) : Game :=
  { g with
    events := φ.events g.events
    score := { g.score with
      funds := φ.funds g.score.funds
      opFunds := φ.opFunds g.score.opFunds } }

section Dressed

variable (φ : Dress) (g : Game)

@[simp] theorem dressed_board : (g.dressed φ).board = g.board := rfl
@[simp] theorem dressed_pieces : (g.dressed φ).pieces = g.pieces := rfl
@[simp] theorem dressed_rng : (g.dressed φ).rng = g.rng := rfl
@[simp] theorem dressed_current : (g.dressed φ).current = g.current := rfl
@[simp] theorem dressed_x : (g.dressed φ).x = g.x := rfl
@[simp] theorem dressed_y : (g.dressed φ).y = g.y := rfl
@[simp] theorem dressed_defX : (g.dressed φ).defX = g.defX := rfl
@[simp] theorem dressed_defY : (g.dressed φ).defY = g.defY := rfl
@[simp] theorem dressed_deltaY : (g.dressed φ).deltaY = g.deltaY := rfl
@[simp] theorem dressed_leftX : (g.dressed φ).leftX = g.leftX := rfl
@[simp] theorem dressed_rightX : (g.dressed φ).rightX = g.rightX := rfl
@[simp] theorem dressed_baseDropTime : (g.dressed φ).baseDropTime = g.baseDropTime := rfl
@[simp] theorem dressed_dropTime : (g.dressed φ).dropTime = g.dropTime := rfl
@[simp] theorem dressed_fastDropTime : (g.dressed φ).fastDropTime = g.fastDropTime := rfl
@[simp] theorem dressed_slideTime : (g.dressed φ).slideTime = g.slideTime := rfl
@[simp] theorem dressed_dropping : (g.dressed φ).dropping = g.dropping := rfl
@[simp] theorem dressed_sliding : (g.dressed φ).sliding = g.sliding := rfl
@[simp] theorem dressed_phase : (g.dressed φ).phase = g.phase := rfl
@[simp] theorem dressed_paused : (g.dressed φ).paused = g.paused := rfl
@[simp] theorem dressed_weapons : (g.dressed φ).weapons = g.weapons := rfl
@[simp] theorem dressed_remaining : (g.dressed φ).remaining = g.remaining := rfl
@[simp] theorem dressed_arsenal : (g.dressed φ).arsenal = g.arsenal := rfl
@[simp] theorem dressed_pendingBoard : (g.dressed φ).pendingBoard = g.pendingBoard := rfl
@[simp] theorem dressed_slickDir : (g.dressed φ).slickDir = g.slickDir := rfl
@[simp] theorem dressed_inBazaar : (g.dressed φ).inBazaar = g.inBazaar := rfl
@[simp] theorem dressed_linesTilBaz : (g.dressed φ).linesTilBaz = g.linesTilBaz := rfl

/-! ### Scores, events and the bazaar -/

/-- An event that is no score passes. -/
theorem emit_dressed {e : GameEvent} (plain : e.isScored = false) :
    (g.dressed φ).emit e = (g.emit e).dressed φ := by
  unfold emit dressed
  dsimp only
  rw [φ.passes g.events e plain]

@[simp] theorem addLines_dressed (k : Int) :
    (g.dressed φ).addLines k = (g.addLines k).dressed φ := rfl

@[simp] theorem setRemaining_dressed (t : WeaponToken) (k : Int) :
    (g.dressed φ).setRemaining t k = (g.setRemaining t k).dressed φ := rfl

@[simp] theorem stealTax_dressed (tax : Int) :
    (g.dressed φ).stealTax tax = (g.stealTax tax).dressed φ := by
  unfold stealTax
  split
  · exact emit_dressed φ g rfl
  · rfl

@[simp] theorem openBazaar_dressed : (g.dressed φ).openBazaar = g.openBazaar.dressed φ :=
  emit_dressed φ { g with inBazaar := true } rfl

@[simp] theorem setTil_dressed (til : Int) :
    (g.dressed φ).setTil til = (g.setTil til).dressed φ := rfl

@[simp] theorem updateBazaar_dressed :
    (g.dressed φ).updateBazaar = g.updateBazaar.dressed φ := by
  have countdown : (g.dressed φ).bazaarCountdown = g.bazaarCountdown := rfl
  have til : (g.dressed φ).linesTilBaz = g.linesTilBaz := rfl
  unfold updateBazaar
  rw [countdown, til]
  dsimp only
  split
  · rw [openBazaar_dressed, setTil_dressed]
  · rfl

/-! ### Weapons -/

@[simp] theorem weaponUnframe_dressed (t : WeaponToken) :
    (g.dressed φ).weaponUnframe t = (g.weaponUnframe t).dressed φ := by
  cases t <;> rfl

@[simp] theorem applyWeaponOff_dressed (t : WeaponToken) :
    (g.dressed φ).applyWeaponOff t = (g.applyWeaponOff t).dressed φ :=
  weaponUnframe_dressed φ (g.switchOff t) t

@[simp] theorem tickDuration_dressed (lines : Int) (t : WeaponToken) :
    tickDuration lines (g.dressed φ) t = (tickDuration lines g t).dressed φ := by
  unfold tickDuration
  rw [dressed_remaining]
  split
  · rfl
  · dsimp only
    split
    · rw [setRemaining_dressed, applyWeaponOff_dressed]
    · rfl

@[simp] theorem tickDurations_dressed (lines : Int) :
    (g.dressed φ).tickDurations lines = (g.tickDurations lines).dressed φ :=
  foldl_map_comm (dressed φ) (fun t _ g => tickDuration_dressed φ g lines t) g

@[simp] theorem lineTick_dressed (lines : Int) :
    (g.dressed φ).lineTick lines = (g.lineTick lines).dressed φ := by
  unfold lineTick
  rw [updateBazaar_dressed, tickDurations_dressed]

theorem setBoardRng_dressed (b : Board) (rng : Rng) :
    (g.dressed φ).setBoardRng b rng = (g.setBoardRng b rng).dressed φ := rfl

theorem markActive_dressed (t : WeaponToken) :
    (g.dressed φ).markActive t = (g.markActive t).dressed φ := rfl

theorem switchOn_dressed (t : WeaponToken) :
    (g.dressed φ).switchOn t = ((g.switchOn t).1, (g.switchOn t).2.dressed φ) := by
  have board : (g.dressed φ).boardWeapon t = g.boardWeapon t := rfl
  unfold switchOn
  rw [board]
  rfl

theorem streamOn_dressed (t : WeaponToken) :
    (g.dressed φ).streamOn t = (g.streamOn t).dressed φ := rfl

@[simp] theorem forceWeaponOff_dressed (t : WeaponToken) :
    (g.dressed φ).forceWeaponOff t = (g.forceWeaponOff t).dressed φ := by
  unfold forceWeaponOff
  rw [dressed_weapons]
  split
  · rw [applyWeaponOff_dressed, setRemaining_dressed]
  · rfl

@[simp] theorem importBoard_dressed (data : List Int) :
    (g.dressed φ).importBoard data = (g.importBoard data).dressed φ := by
  unfold importBoard
  rw [dressed_board]
  dsimp only
  split <;> rfl

@[simp] theorem installBoard_dressed :
    (g.dressed φ).installBoard = g.installBoard.dressed φ := by
  unfold installBoard
  rw [dressed_pendingBoard]
  cases g.pendingBoard with
  | none => rfl
  | some cells =>
    dsimp only
    exact (congrArg (fun g => (forceWeaponOff g .bottle).forceWeaponOff .upbyside)
      (importBoard_dressed φ { g with pendingBoard := none } cells)).trans (by
        simp only [forceWeaponOff_dressed])

/-! ### Locking and spawning -/

@[simp] theorem enterPiece_dressed (p : Piece) :
    (g.dressed φ).enterPiece p = (g.enterPiece p).dressed φ := by
  unfold enterPiece
  change (if p.canMoveTo g.board (g.defX - (p.rot : Int) / 2) g.defY then _ else _) = _
  dsimp only
  split
  · rfl
  · exact emit_dressed φ { g with x := _, y := _, current := none, phase := .over } rfl

theorem setStream_dressed (pieces : PieceManager) (rng : Rng) :
    (g.dressed φ).setStream pieces rng = (g.setStream pieces rng).dressed φ := rfl

@[simp] theorem spawn_dressed : (g.dressed φ).spawn = g.spawn.dressed φ := by
  have created : (g.dressed φ).pieces.create g.rng g.defX g.defY =
    g.pieces.create g.rng g.defX g.defY := rfl
  unfold spawn
  rw [dressed_rng, dressed_defX, dressed_defY, created]
  exact enterPiece_dressed φ (g.setStream _ _) _

@[simp] theorem signalAirslide_dressed (p : Piece) :
    (g.dressed φ).signalAirslide p = (g.signalAirslide p).dressed φ := by
  unfold signalAirslide
  change (if g.dropping ∧ g.sliding ≤ 1 ∧ ¬p.canMoveTo g.board g.x (g.y - g.deltaY)
    then _ else _) = _
  split
  · exact emit_dressed φ g rfl
  · rfl

theorem setBoard_dressed (b : Board) :
    (g.dressed φ).setBoard b = (g.setBoard b).dressed φ := rfl

theorem landPiece_dressed (p : Piece) :
    (g.dressed φ).landPiece p = ((g.landPiece p).1, (g.landPiece p).2.dressed φ) := by
  unfold landPiece
  rw [dressed_board]
  dsimp only
  rw [setBoard_dressed]

@[simp] theorem signalIdiot_dressed : (g.dressed φ).signalIdiot = g.signalIdiot.dressed φ := by
  unfold signalIdiot
  rw [dressed_board]
  dsimp only
  rw [setBoard_dressed]
  cases g.board.flushIdiot.1 with
  | none => rfl
  | some r => exact emit_dressed φ (g.setBoard _) rfl

@[simp] theorem markLock_dressed : (g.dressed φ).markLock = g.markLock.dressed φ := rfl

@[simp] theorem resumeFall_dressed (p : Piece) :
    (g.dressed φ).resumeFall p = (g.resumeFall p).dressed φ := rfl

@[simp] theorem setSliding_dressed (k : Int) :
    (g.dressed φ).setSliding k = (g.setSliding k).dressed φ := rfl

/-! ### The clock -/

@[simp] theorem startSlide_dressed : (g.dressed φ).startSlide = g.startSlide.dressed φ := rfl

@[simp] theorem carry_dressed (p : Piece) (dx dy : Int) :
    (g.dressed φ).carry p dx dy = (g.carry p dx dy).dressed φ := rfl

@[simp] theorem dropStep_dressed : (g.dressed φ).dropStep = g.dropStep.dressed φ := by
  unfold dropStep
  rw [dressed_current]
  cases g.current with
  | none => rfl
  | some p =>
    change (if p.canMoveTo g.board g.x (g.y + g.deltaY) then _ else _) = _
    dsimp only
    split <;> rfl

@[simp] theorem rotateInternal_dressed :
    (g.dressed φ).rotateInternal = g.rotateInternal.dressed φ := rfl

@[simp] theorem slickStep_dressed : (g.dressed φ).slickStep = g.slickStep.dressed φ := by
  unfold slickStep
  rw [dressed_current]
  cases g.current with
  | none => rfl
  | some p =>
    change (if p.canMoveTo g.board (g.x + g.slickDx) g.y then _ else _) = _
    dsimp only
    split <;> rfl

theorem hatterStep_dressed : (g.dressed φ).hatterStep = g.hatterStep.dressed φ := rfl

theorem slickTimerStep_dressed :
    (g.dressed φ).slickTimerStep = g.slickTimerStep.dressed φ :=
  slickStep_dressed φ { g with slickAccum := g.slickAccum - 20 }

theorem fallStep_dressed (step : Int) :
    (g.dressed φ).fallStep step = (g.fallStep step).dressed φ :=
  dropStep_dressed φ { g with dropAccum := g.dropAccum - step }

theorem tickHatter_dressed (dt : Int) :
    (g.dressed φ).tickHatter dt = (g.tickHatter dt).dressed φ := by
  unfold tickHatter
  rw [dressed_weapons]
  split
  · refine whileN_comm (dressed φ) ?_ (hatterStep_dressed φ) _
      { g with hatterAccum := g.hatterAccum + dt }
    intro g
    rfl
  · rfl

theorem tickSlick_dressed (dt : Int) :
    (g.dressed φ).tickSlick dt = (g.tickSlick dt).dressed φ := by
  unfold tickSlick
  change (if g.weapons.isActive .slick ∧ g.phase = .falling ∧ ¬g.dropping then _ else _) = _
  split
  · refine whileN_comm (dressed φ) ?_ (slickTimerStep_dressed φ) _
      { g with slickAccum := g.slickAccum + dt }
    intro g
    rfl
  · rfl

theorem tickFalling_dressed (dt : Int) :
    (g.dressed φ).tickFalling dt = (g.tickFalling dt).dressed φ := by
  unfold tickFalling
  refine whileN_comm (dressed φ) ?_ (fun g => fallStep_dressed φ g _) _
    { g with dropAccum := g.dropAccum + dt }
  intro g
  rfl

/-! ### Inputs -/

@[simp] theorem shift_dressed (dx : Int) :
    (g.dressed φ).shift dx = (g.shift dx).dressed φ := by
  unfold shift
  change (if g.paused ∨ g.phase = .over then _ else _) = _
  split
  · rfl
  · rw [dressed_current]
    cases g.current with
    | none => rfl
    | some p =>
      change (if p.canMoveTo g.board (g.x + dx) g.y then _ else _) = _
      dsimp only
      split <;> rfl

@[simp] theorem moveLeft_dressed : (g.dressed φ).moveLeft = g.moveLeft.dressed φ :=
  shift_dressed φ g g.leftX

@[simp] theorem moveRight_dressed : (g.dressed φ).moveRight = g.moveRight.dressed φ :=
  shift_dressed φ g g.rightX

@[simp] theorem rotate_dressed : (g.dressed φ).rotate = g.rotate.dressed φ := by
  unfold rotate
  change (if g.paused ∨ g.phase = .over then _ else _) = _
  split <;> rfl

theorem engageFastDrop_dressed :
    (g.dressed φ).engageFastDrop =
      (g.engageFastDrop.1, g.engageFastDrop.2.dressed φ) := by
  unfold engageFastDrop
  change (if g.paused ∨ g.inBazaar ∨ g.phase = .over then _ else _) = _
  split
  · rfl
  · change (if g.dropTime = g.fastDropTime then _ else _) = _
    dsimp only
    split <;> rfl

@[simp] theorem dropFor_dressed (bonus : Int) :
    (g.dressed φ).dropFor bonus = (g.dropFor bonus).dressed φ := by
  unfold dropFor
  rw [engageFastDrop_dressed]
  dsimp only
  split <;> rfl

@[simp] theorem softDrop_dressed : (g.dressed φ).softDrop = g.softDrop.dressed φ := by
  unfold softDrop
  rw [dropStep_dressed]
  change (if g.paused ∨ g.inBazaar ∨ g.phase ≠ .falling then _ else _) = _
  split <;> rfl

@[simp] theorem launchWeapon_dressed (slot : Nat) :
    (g.dressed φ).launchWeapon slot = (g.launchWeapon slot).dressed φ := by
  unfold launchWeapon
  change (if g.inBazaar ∨ g.phase = .over then _ else _) = _
  split
  · rfl
  · rw [dressed_arsenal]
    cases g.arsenal.token slot with
    | none => rfl
    | some tok => exact emit_dressed φ { g with arsenal := g.arsenal.useSlot slot } rfl

theorem grantWeapon_dressed (t : WeaponToken) :
    ((g.dressed φ).grantWeapon t).2 = (g.grantWeapon t).2.dressed φ := rfl

theorem raiseStack_dressed (lines : Int) :
    (g.dressed φ).raiseStack lines = (g.raiseStack lines).dressed φ := by
  unfold raiseStack
  rw [dressed_weapons]
  split
  · refine forRange_comm (dressed φ) (fun _ g => ?_) g
    exact setBoardRng_dressed φ g _ _
  · rfl

theorem setOpLines_dressed (lines : Int) :
    (g.dressed φ).setOpLines lines = (g.setOpLines lines).dressed φ := rfl

end Dressed

end Game

end BattleTris
