import BattleTris.Core.Tiling
import BattleTris.Match.Gears
import BattleTris.Match.Obstruction

/-!
What play keeps of the squares of the board and of the piece in play.
-/

namespace BattleTris

open Loop

namespace Game

theorem creditClearFunds_board (g : Game) (funds : Int) :
    (g.creditClearFunds funds).board = g.board := by
  have taxed (tax : Int) : (g.stealTax tax).board = g.board := by
    unfold stealTax
    split <;> rfl
  unfold creditClearFunds
  split
  · exact taxed _
  · rfl

theorem updateBazaar_board (g : Game) : g.updateBazaar.board = g.board := by
  unfold updateBazaar
  dsimp only
  split <;> rfl

theorem installBoard_pendingBoard (g : Game) : g.installBoard.pendingBoard = none :=
  congrArg (·.2.1) g.installBoard_held

/-- A lock takes the board that waits. -/
theorem place_pendingBoard {g : Game} {p : Piece} (locks : g.Locks p) :
    (g.place false).pendingBoard = none := by
  have taken := (g.installing p).installBoard_pendingBoard
  have entered (h : Game) (q : Piece) : (h.enterPiece q).pendingBoard = h.pendingBoard := by
    unfold enterPiece
    dsimp only
    split <;> rfl
  rw [place_of_locks locks]
  unfold lockAndSpawn flushPending
  unfold installing at taken
  generalize (lockPiece { g with current := none } p).flushWeapons.installBoard = h at taken ⊢
  have spawned : h.spawn.pendingBoard = none := (entered (h.setStream _ _) _).trans taken
  generalize h.spawn = k at spawned ⊢
  exact spawned

/-- Between two locks the board changes under Lawyers only. -/
theorem applyToGame_squares (i : Input) (g : Game) :
    ((i.applyToGame g).board, (i.applyToGame g).pendingBoard) = (g.board, g.pendingBoard) ∨
      ∃ score lines funds, i = .receiveOpScore score lines funds := by
  let read (g : Game) : Board × Option (List Int) := (g.board, g.pendingBoard)
  have still {h : Game} (same : h.still = g.still) : read h = read g :=
    of_still read (fun _ => rfl) same
  cases i with
  | moveLeft => exact .inl (still (g.shift_still g.leftX))
  | moveRight => exact .inl (still (g.shift_still g.rightX))
  | rotate => exact .inl (still g.rotate_still)
  | beginDrop => exact .inl (still (g.dropFor_still _))
  | aiDrop => exact .inl (still (g.dropFor_still _))
  | softDrop => exact .inl (still g.softDrop_still)
  | launchWeapon slot =>
    left
    change read (g.launchWeapon slot) = read g
    unfold launchWeapon
    split
    · rfl
    · cases g.arsenal.token slot <;> rfl
  | buyWeapon t =>
    refine .inl (Input.onToken_kept read (fun t g => ?_) t g)
    unfold buyWeapon
    split
    · rfl
    · dsimp only
      split
      · rfl
      · split <;> rfl
  | sellWeapon t =>
    refine .inl (Input.onToken_kept read (fun t g => ?_) t g)
    unfold sellWeapon
    split
    · rfl
    · dsimp only
      split <;> rfl
  | leaveBazaar => exact .inl rfl
  | setPaused p => exact .inl rfl
  | receiveWeapon t =>
    exact .inl (Input.onToken_kept (f := fun t g => g.receiveWeapon t) read (fun _ _ => rfl) t g)
  | receiveOpScore score lines funds => exact .inr ⟨score, lines, funds, rfl⟩
  | addFunds amount =>
    left
    change read (g.addFunds amount) = read g
    unfold addFunds
    split <;> rfl
  | grantWeapon t =>
    exact .inl (Input.onToken_kept (f := fun t g => (g.grantWeapon t).2) read (fun _ _ => rfl) t g)

end Game

namespace Tiling

variable {I : Bool → Int → Int → Option Cell → Prop} {H : Option Cell → Prop} {Q : Cell → Prop}
  {g : Game}

/-! ## Weapons -/

theorem applyWeaponOff (tiling : Tiling I H Q) (tiled : g.board.Tiled I) (t : WeaponToken) :
    (g.applyWeaponOff t).board.Tiled I := by
  unfold Game.applyWeaponOff
  rw [(Game.weaponUnframe_kept (g.switchOff t) t).1]
  exact tiling.tiled_revertWeapon tiled t

theorem tickDurations (tiling : Tiling I H Q) (tiled : g.board.Tiled I) (lines : Int) :
    (g.tickDurations lines).board.Tiled I := by
  refine foldl_invariant (P := fun g : Game => g.board.Tiled I) (fun t _ h tiled => ?_) tiled
  unfold Game.tickDuration
  split
  · exact tiled
  dsimp only
  split
  · exact tiling.applyWeaponOff (g := h.setRemaining t _) tiled t
  · exact tiled

theorem lineTick (tiling : Tiling I H Q) (tiled : g.board.Tiled I) (lines : Int) :
    (g.lineTick lines).board.Tiled I := by
  rw [← g.updateBazaar_board] at tiled
  exact tiling.tickDurations tiled lines

theorem creditWeaponClear (tiling : Tiling I H Q) (tiled : g.board.Tiled I) (clear : LineClear) :
    (g.creditWeaponClear clear).board.Tiled I := by
  unfold Game.creditWeaponClear
  split
  · have credited : ((g.addLines clear.lines).creditClearFunds clear.funds).board.Tiled I := by
      rw [Game.creditClearFunds_board]
      exact tiled
    exact tiling.lineTick credited clear.lines
  · exact tiled

theorem applyWeaponOn (tiling : Tiling I H Q) (tiled : g.board.Tiled I) (t : WeaponToken) :
    (g.applyWeaponOn t).board.Tiled I := by
  have on : (g.switchOn t).2.board.Tiled I := tiling.tiled_applyWeapon tiled t g.rng
  unfold Game.applyWeaponOn
  dsimp only
  generalize g.switchOn t = r at on ⊢
  rw [(Game.weaponFrame_kept _ t _).1]
  exact tiling.creditWeaponClear on r.1

theorem forceWeaponOff (tiling : Tiling I H Q) (tiled : g.board.Tiled I) (t : WeaponToken) :
    (g.forceWeaponOff t).board.Tiled I := by
  unfold Game.forceWeaponOff
  split
  · exact tiling.applyWeaponOff tiled t
  · exact tiled

theorem flushWeapons (tiling : Tiling I H Q) (tiled : g.board.Tiled I) :
    g.flushWeapons.board.Tiled I :=
  foldl_invariant (P := fun g : Game => g.board.Tiled I)
    (fun t _ _ tiled => tiling.applyWeaponOn tiled t) tiled

/-! ## Locks -/

theorem lockPiece (tiling : Tiling I H Q) (tiled : g.board.Tiled I) {p : Piece}
    (cells : ∀ i j c, p.cells i j = some c → Q c ∧ ¬H (g.board.get (p.x + i) (p.y + j))) :
    (g.lockPiece p).board.Tiled I := by
  have landed : ((g.signalAirslide p).landPiece p).2.board.Tiled I := by
    have board : (g.signalAirslide p).board = g.board := by
      unfold Game.signalAirslide
      split <;> rfl
    have landed := tiling.tiled_checkLines (tiling.tiled_land tiled cells)
    rw [← board] at landed
    unfold Game.landPiece
    generalize (p.land (g.signalAirslide p).board).checkLines = r at landed
    exact landed
  unfold Game.lockPiece
  dsimp only
  generalize (g.signalAirslide p).landPiece p = r at landed ⊢
  have credited : (((r.2.addLines r.1.lines).creditClearFunds r.1.funds).emit
      (.locked r.1.lines r.1.value r.1.funds)).board.Tiled I := by
    change ((r.2.addLines r.1.lines).creditClearFunds r.1.funds).board.Tiled I
    rw [Game.creditClearFunds_board]
    exact landed
  generalize ((r.2.addLines r.1.lines).creditClearFunds r.1.funds).emit
    (.locked r.1.lines r.1.value r.1.funds) = h at credited ⊢
  have signalled : h.signalIdiot.board.Tiled I := by
    unfold Game.signalIdiot
    dsimp only
    split <;> exact ⟨credited.standard, credited.squares⟩
  split
  · exact tiling.lineTick signalled _
  · exact signalled

end Tiling

namespace Game

/-- The board and the piece in play stand in the tiling, and `D` holds of a board that
waits. -/
structure Tiled (I : Bool → Int → Int → Option Cell → Prop) (H : Option Cell → Prop)
    (Q : Cell → Prop) (D : List Int → Prop) (g : Game) : Prop where
  board : g.board.Tiled I
  stands : g.Stands Q fun b x y => H (b.get x y)
  waiting : ∀ cells, g.pendingBoard = some cells → D cells

namespace Tiled

variable {I : Bool → Int → Int → Option Cell → Prop} {H : Option Cell → Prop} {Q : Cell → Prop}
  {D : List Int → Prop} {g : Game}

theorem of_still {h : Game} (tiled : g.Tiled I H Q D) (still : h.still = g.still)
    (stands : h.Stands Q fun b x y => H (b.get x y)) : h.Tiled I H Q D := by
  have board : h.board = g.board := Game.of_still Game.board (fun _ => rfl) still
  have waiting : h.pendingBoard = g.pendingBoard :=
    Game.of_still Game.pendingBoard (fun _ => rfl) still
  refine ⟨?_, stands, ?_⟩
  · rw [board]
    exact tiled.board
  · rw [waiting]
    exact tiled.waiting

/-- A waiting board that `D` allows fits the tiling. -/
def Imports (I : Bool → Int → Int → Option Cell → Prop) (D : List Int → Prop) : Prop :=
  ∀ {g : Game} {cells : List Int}, D cells → g.board.Tiled I → (g.importBoard cells).board.Tiled I

theorem installBoard (tiling : Tiling I H Q) (imports : Imports I D) (tiled : g.board.Tiled I)
    (waiting : ∀ cells, g.pendingBoard = some cells → D cells) :
    g.installBoard.board.Tiled I := by
  unfold Game.installBoard
  split
  · next cells queued =>
    have imported := imports (g := { g with pendingBoard := none }) (waiting cells queued) tiled
    exact tiling.forceWeaponOff (tiling.forceWeaponOff imported .bottle) .upbyside
  · exact tiled

/-- A lock keeps the board in the tiling: the landing, what expires, and what turns on. -/
theorem place (tiling : Tiling I H Q) (imports : Imports I D) (tiled : g.Tiled I H Q D)
    {p : Piece} (locks : g.Locks p) : (g.place false).Tiled I H Q D := by
  have cells := (tiled.stands p locks.1).2.2
  have flushed : (g.installing p).board.Tiled I :=
    tiling.flushWeapons (tiling.lockPiece (g := { g with current := none }) tiled.board cells)
  have installed := installBoard tiling imports flushed
    (by rw [(g.installing_held p).2]; exact tiled.waiting)
  rw [← (place_installs locks).1] at installed
  refine ⟨installed, tiled.stands.place tiling.footing, fun cells queued => ?_⟩
  rw [place_pendingBoard locks] at queued
  cases queued

theorem tick (tiling : Tiling I H Q) (imports : Imports I D) (tiled : g.Tiled I H Q D)
    (dtMs : Int) : (g.tick dtMs).Tiled I H Q D := by
  have stands := tiled.stands.tick tiling.footing dtMs
  rcases g.tick_cases dtMs with glides | ⟨acc, p, locks, placed⟩
  · exact tiled.of_still glides stands
  · -- the weapon timers move the piece before it locks
    have moved := tiled.of_still (h := (g.tickWeapons dtMs).slideAt acc)
      (g.tickWeapons_still dtMs) (tiled.stands.tickWeapons tiling.footing dtMs)
    rw [placed]
    exact moved.place tiling imports locks

/-- A row of garbage moves no square that a piece may not cover. -/
theorem lawyersRow (tiling : Tiling I H Q) (tiled : g.Tiled I H Q D) :
    g.lawyersRow.Tiled I H Q D := by
  have inserted := tiling.tiled_insertLine tiled.board g.rng
  have keeps := Board.keeps_insertLine g.board g.rng
  refine ⟨inserted, fun p playing => ?_, tiled.waiting⟩
  obtain ⟨x, y, cells⟩ := tiled.stands p playing
  refine ⟨x, y, fun i j c found => ⟨(cells i j c found).1, ?_⟩⟩
  have soft := (cells i j c found).2
  change ¬H ((g.board.insertLine g.rng).1.get (p.x + i) (p.y + j))
  by_cases inside : g.board.inBounds (p.x + i) (p.y + j) = true
  · have after := inserted.squares _ _ (by rw [keeps.inBounds]; exact inside)
    rw [keeps.isActive] at after
    exact tiling.settles (tiled.board.squares _ _ inside) after soft
  · rw [Board.get_of_not_inBounds (by rw [keeps.inBounds]; exact inside)]
    exact tiling.soft_none

theorem raiseStack (tiling : Tiling I H Q) (tiled : g.Tiled I H Q D) (lines : Int) :
    (g.raiseStack lines).Tiled I H Q D := by
  unfold Game.raiseStack
  split
  · exact forRange_invariant (P := Tiled I H Q D) (fun _ _ _ _ tiled => tiled.lawyersRow tiling)
      tiled
  · exact tiled

theorem act (tiling : Tiling I H Q) (imports : Imports I D) (tiled : g.Tiled I H Q D) {a : Action}
    (swaps : ∀ cells, a = .queueBoardSwap cells → D cells) : (g.act a).Tiled I H Q D := by
  have raised (score lines funds : Int) :
      ((g.mirrorScore score funds).raiseStack (lines - g.score.opLines)).Tiled I H Q D :=
    raiseStack (g := g.mirrorScore score funds) tiling
      ⟨tiled.board, tiled.stands, tiled.waiting⟩ _
  have stands : (g.act a).Stands Q fun b x y => H (b.get x y) :=
    tiled.stands.act tiling.footing fun score lines funds _ => (raised score lines funds).stands
  rcases a with i | dtMs | cells | arsenal | _
  · rcases applyToGame_squares i g with same | ⟨score, lines, funds, rfl⟩
    · obtain ⟨board, waiting⟩ := Prod.mk.inj same
      refine ⟨?_, stands, ?_⟩
      · change (i.applyToGame g).board.Tiled I
        rw [board]
        exact tiled.board
      · change ∀ cells, (i.applyToGame g).pendingBoard = some cells → D cells
        rw [waiting]
        exact tiled.waiting
    · have risen := raised score lines funds
      have waiting := pendingBoard_of_held (g.receiveOpScore_held score lines funds)
      refine ⟨?_, stands, ?_⟩
      · change (g.receiveOpScore score lines funds).board.Tiled I
        unfold Game.receiveOpScore
        dsimp only
        rw [updateBazaar_board]
        exact risen.board
      · change ∀ cells, (g.receiveOpScore score lines funds).pendingBoard = some cells → D cells
        rw [waiting]
        exact tiled.waiting
  · exact tiled.tick tiling imports dtMs
  · exact ⟨tiled.board, stands, fun waiting same => by cases same; exact swaps cells rfl⟩
  · exact ⟨tiled.board, stands, tiled.waiting⟩
  · exact ⟨tiled.board, stands, tiled.waiting⟩

theorem new (tiling : Tiling I H Q) (seed : Nat) : (new seed).Tiled I H Q D := by
  have empty : (Board.standard false).Tiled I := by
    refine ⟨⟨rfl, rfl, rfl, rfl⟩, fun x y _ => ?_⟩
    rw [show (Board.standard false).get x y = none from Grid.get_empty ..,
      show (Board.standard false).isActive .bottle = false from ActiveFlags.isActive_new _]
    exact tiling.empties fun wall => Bool.false_ne_true wall.1
  have board : (Game.new seed).board = Board.standard false :=
    enterPiece_board ((blank seed).setStream _ _) _
  refine ⟨by rw [board]; exact empty, Stands.spawn tiling.footing (blank seed), ?_⟩
  intro cells waiting
  have none : (Game.new seed).pendingBoard = none := by
    unfold Game.new spawn enterPiece
    dsimp only
    split <;> rfl
  rw [none] at waiting
  cases waiting

end Tiled

end Game

end BattleTris
