import BattleTris.Core.KeyframeRoundTrip
import BattleTris.Match.Play

/-!
A game resumed from a keyframe plays on as the one it was taken from.
-/

namespace BattleTris

open Loop Machine

/-! ## A fresh game fits its types -/

namespace Rng

/-- The random state is a 48-bit number. -/
def Fits (r : Rng) : Prop := r.state < 2 ^ 48

theorem fits_new (seed : Nat) : (new seed).Fits := by
  have high : (seed % 2 ^ 32) <<< 16 < 2 ^ 48 := by
    rw [Nat.shiftLeft_eq]
    omega
  exact Nat.or_lt_two_pow high (by decide)

theorem fits_nextState (r : Rng) : r.nextState.Fits :=
  Nat.mod_lt _ (by decide)

theorem fits_randBelow (r : Rng) (n : Nat) : (r.randBelow n).2.Fits := r.fits_nextState

end Rng

namespace PieceManager

/-- What a draw returns: an id of the table, and a state in range. -/
theorem draw_spec (pm : PieceManager) {rng : Rng} (fits : rng.Fits) :
    (1 ≤ (pm.draw rng).1 ∧ (pm.draw rng).1 ≤ 18) ∧ (pm.draw rng).2.Fits := by
  have search := tryPow_invariant (f := pm.roll) (P := Rng.Fits)
    (Q := fun a : Int × Rng => (1 ≤ a.1 ∧ a.1 ≤ 18) ∧ a.2.Fits) ?_ ?_ 48 fits
  · unfold draw
    cases found : tryPow pm.roll 48 rng with
    | inl a => exact search.1 a found
    | inr rng' => exact ⟨⟨le_rfl, (by decide : (1 : Int) ≤ 18)⟩, search.2 rng' found⟩
  · intro r a _ rolled
    have small : (r.randBelow btMaxPieces).1 < 18 := r.randBelow_lt (by decide)
    unfold roll at rolled
    dsimp only at rolled
    split at rolled
    · cases rolled
      exact ⟨⟨by omega, by omega⟩, Rng.fits_nextState _⟩
    · cases rolled
  · intro r r' _ rolled
    unfold roll at rolled
    dsimp only at rolled
    split at rolled
    · cases rolled
    · cases rolled
      exact Rng.fits_nextState _

/-- The first piece of a game is a fresh one of some kind. -/
theorem create_new (rng : Rng) (fits : rng.Fits) (x y : Int) :
    (∃ kind dieValue, (new.create rng x y).1 = Piece.construct kind x y dieValue) ∧
      FitsI32 (new.create rng x y).2.1.hapOn ∧ FitsI32 (new.create rng x y).2.1.oldPiece ∧
        (new.create rng x y).2.2.Fits := by
  obtain ⟨⟨low, high⟩, moved⟩ := new.draw_spec fits
  have chosen : new.choose rng = ((new.draw rng).1, new, (new.draw rng).2) := rfl
  have old : FitsI32 (new.draw rng).1 := fitsI32_small (by omega) (by omega)
  have hap : FitsI32 new.hapOn := fitsI32_small (by decide) (by decide)
  unfold create
  rw [chosen]
  dsimp only
  split
  · exact ⟨⟨_, _, rfl⟩, hap, old, Rng.fits_nextState _⟩
  · exact ⟨⟨_, 1, rfl⟩, hap, old, moved⟩

end PieceManager

namespace Piece

/-- A fresh piece fits wherever it is put on the board. -/
theorem fits_construct (kind : PieceKind) {x y : Int} (px py : Int) (dieValue : UInt8)
    (xfits : FitsI32 x) (yfits : FitsI32 y) :
    Fits { construct kind px py dieValue with x := x, y := y } := by
  have color : FitsI32 (shape dieValue kind).color ∧
      FitsI32 (shape dieValue kind).orientations ∧ (shape dieValue kind).cell.Fits := by
    cases kind <;> refine ⟨fitsI32_small ?_ ?_, fitsI32_small ?_ ?_, ?_⟩ <;>
      simp only [shape, Cell.Fits, Cell.color, Cell.die, Cell.happy, Cell.new] <;>
      first
        | decide
        | exact fitsI32_small (by decide) (by decide)
  obtain ⟨tint, orientations, cell⟩ := color
  have zero : FitsI32 0 := fitsI32_small (by decide) (by decide)
  refine ⟨?_, ?_⟩
  · simp only [construct, List.mem_cons, List.not_mem_nil, or_false, forall_eq_or_imp, forall_eq]
    exact ⟨xfits, yfits, tint, zero, orientations, zero⟩
  · intro i j c filled
    simp only [construct] at filled
    split at filled
    · cases filled
      exact cell
    · cases filled

end Piece

namespace Game

theorem fits_blank (seed : Nat) : (blank seed).Fits := by
  have zero : FitsI32 0 := fitsI32_small (by decide) (by decide)
  have empty (x y : Int) : (blank seed).board.get x y = none := Grid.get_empty _ _ x y
  refine ⟨?_, ?_, fun _ => zero, fun _ => zero, fun _ => Nat.two_pow_pos 16, ?_, ?_, ?_,
    fun _ => zero, ?_, ?_, Nat.two_pow_pos 64, Nat.two_pow_pos 32⟩
  · simp only [blank, PieceManager.new, PieceManager.setKeep, List.mem_cons, List.not_mem_nil,
      or_false, forall_eq_or_imp, forall_eq]
    norm_num [FitsI32]
  · exact (Rng.fits_new seed).trans (by decide)
  · intro p same
    cases same
  · intro cells same
    cases same
  · intro x y c filled
    rw [empty] at filled
    cases filled
  · norm_num [FitsI16, blank, Board.standard, Board.new]
  · norm_num [FitsI64, blank]

/-- Putting a piece in play keeps a game within its types. -/
theorem Fits.enterPiece {g : Game} (fits : g.Fits) {p : Piece}
    (column : FitsI32 (g.defX - (p.rot : Int) / 2))
    (piece : ∀ x y, FitsI32 x → FitsI32 y → Piece.Fits { p with x := x, y := y }) :
    (g.enterPiece p).Fits := by
  have zero : FitsI32 0 := fitsI32_small (by decide) (by decide)
  have word (v : Int) (mem : v ∈ _) : FitsI32 v := fits.words v mem
  simp only [List.mem_cons, List.not_mem_nil, or_false, forall_eq_or_imp, forall_eq] at word
  unfold Game.enterPiece
  dsimp only
  split
  · refine ⟨?_, fits.rng, fits.weapons, fits.remaining, fits.quantities, ?_, fits.pendingBoard,
      fits.squares, fits.active, fits.reason, fits.totals, fits.lockSeq, fits.lockHash⟩
    · simp only [List.mem_cons, List.not_mem_nil, or_false, forall_eq_or_imp, forall_eq, word,
        column, zero, and_self]
    · intro q same
      cases same
      exact piece _ _ column word.2.2.2.1
  · refine ⟨?_, fits.rng, fits.weapons, fits.remaining, fits.quantities, ?_, fits.pendingBoard,
      fits.squares, fits.active, fits.reason, fits.totals, fits.lockSeq, fits.lockHash⟩
    · simp only [emit, List.mem_cons, List.not_mem_nil, or_false, forall_eq_or_imp, forall_eq,
        word, column, and_self]
    · intro q same
      cases same

theorem fits_new (seed : Nat) : (new seed).Fits := by
  have fits := fits_blank seed
  obtain ⟨⟨kind, dieValue, created⟩, hapOn, oldPiece, moved⟩ :=
    PieceManager.create_new (Rng.new seed) (Rng.fits_new seed) btDefaultX btDefaultY
  have rot : (Piece.construct kind btDefaultX btDefaultY dieValue).rot ≤ 8 := by
    rcases (Piece.regular_construct kind btDefaultX btDefaultY dieValue).rot with
      rot | rot | rot | rot <;> omega
  have spawned : new seed = ((blank seed).setStream
      (PieceManager.new.create (Rng.new seed) btDefaultX btDefaultY).2.1
      (PieceManager.new.create (Rng.new seed) btDefaultX btDefaultY).2.2).enterPiece
        (PieceManager.new.create (Rng.new seed) btDefaultX btDefaultY).1 := rfl
  rw [spawned]
  generalize PieceManager.new.create (Rng.new seed) btDefaultX btDefaultY = r at *
  have streamed : ((blank seed).setStream r.2.1 r.2.2).Fits := by
    have word (v : Int) (mem : v ∈ _) : FitsI32 v := fits.words v mem
    simp only [List.mem_cons, List.not_mem_nil, or_false, forall_eq_or_imp, forall_eq] at word
    refine ⟨?_, moved.trans (by decide), fits.weapons, fits.remaining, fits.quantities,
      fits.current, fits.pendingBoard, fits.squares, fits.active, fits.reason, fits.totals,
      fits.lockSeq, fits.lockHash⟩
    simp only [setStream, List.mem_cons, List.not_mem_nil, or_false, forall_eq_or_imp, forall_eq,
      word, hapOn, oldPiece, and_self]
  rw [created]
  refine streamed.enterPiece ?_ fun x y => Piece.fits_construct kind _ _ dieValue
  change FitsI32 (5 - _)
  exact fitsI32_small (by omega) (by omega)

/-! ## The round trip -/

/-- Restoring a keyframe of a game that play has reached, over any game that play
has reached, gives that game back; only the event queue is gone.  From there both
take the same course under every continuation, and a client keyframe differs in
the opponent's funds alone. -/
theorem keyframe_round_trip {g h : Game} (reached : Reached StandardSwap g)
    (other : Reached StandardSwap h) (fits : g.Fits) (few : g.pending.length ≤ 1024) :
    (h.restore g.snapshot = (true, { g with events := [] }) ∧
      h.restoreBytes g.snapshotBytes = (true, { g with events := [] })) ∧
    (∀ actions : List Action,
      (actions.foldl act (h.restore g.snapshot).2).SameButEvents (actions.foldl act g) ∧
      (actions.foldl act (h.restoreBytes g.snapshotBytes).2).SameButEvents
        (actions.foldl act g)) ∧
    h.restoreBytes g.clientKeyframeBytes =
      (true, { g with events := [], score := { g.score with opFunds := 0 } }) := by
  have regular := reached.regular
  have standard := other.regular
  have words := restore_snapshot regular standard fits few
  have bytes := restoreBytes_snapshotBytes regular standard fits few
  have resumed : SameButEvents { g with events := [] } g := rfl
  refine ⟨⟨words, bytes⟩, fun actions => ?_,
    restoreBytes_clientKeyframeBytes regular standard fits few⟩
  rw [words, bytes]
  exact ⟨resumed.run actions, resumed.run actions⟩

/-- The keyframe of one fresh game, restored over another. -/
theorem keyframe_round_trip_fresh :
    ((new 3).restore (new 7).snapshot = (true, { new 7 with events := [] }) ∧
      (new 3).restoreBytes (new 7).snapshotBytes = (true, { new 7 with events := [] })) ∧
    (∀ actions : List Action,
      (actions.foldl act ((new 3).restore (new 7).snapshot).2).SameButEvents
        (actions.foldl act (new 7)) ∧
      (actions.foldl act ((new 3).restoreBytes (new 7).snapshotBytes).2).SameButEvents
        (actions.foldl act (new 7))) ∧
    (new 3).restoreBytes (new 7).clientKeyframeBytes =
      (true, { new 7 with events := [], score := { (new 7).score with opFunds := 0 } }) := by
  have idle : (new 7).pending.length ≤ 1024 := by
    have pending : (new 7).pending = [] := by decide +kernel
    rw [pending]
    decide
  exact keyframe_round_trip (reached_new StandardSwap 7) (reached_new StandardSwap 3) (fits_new 7)
    idle

end Game

end BattleTris
