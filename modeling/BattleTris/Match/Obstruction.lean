import BattleTris.Core.Garbage
import BattleTris.Match.Play

/-!
Whether anything ever stands under the piece in play, over whole runs of a game.
-/

namespace BattleTris

namespace Game

/-- No score of the opponent arrives while Lawyers is active. -/
def Spared (g : Game) (a : Action) : Prop :=
  ∀ score lines funds, a = .input (.receiveOpScore score lines funds) →
    g.weaponActive .lawyers = false

namespace Stands

variable {Q : Cell → Prop} {S : Board → Int → Int → Prop} {g : Game}

theorem onToken {f : WeaponToken → Game → Game}
    (keep : ∀ t g, Stands Q S g → Stands Q S (f t g)) (stands : g.Stands Q S) (index : Int) :
    (Input.onToken index f g).Stands Q S := by
  unfold Input.onToken
  cases WeaponToken.fromIndex index with
  | none => exact stands
  | some t => exact keep t g stands

/-- Nothing but the garbage of Lawyers can reach the piece between two locks. -/
theorem act (footing : Footing Q S) (stands : g.Stands Q S) {a : Action}
    (raised : ∀ score lines funds, a = .input (.receiveOpScore score lines funds) →
      ((g.mirrorScore score funds).raiseStack (lines - g.score.opLines)).Stands Q S) :
    (g.act a).Stands Q S := by
  rcases a with i | dtMs | cells | arsenal | _
  · cases i with
    | moveLeft => exact stands.shift footing g.leftX
    | moveRight => exact stands.shift footing g.rightX
    | rotate => exact stands.rotate footing
    | beginDrop => exact stands.dropFor _
    | aiDrop => exact stands.dropFor _
    | softDrop => exact stands.softDrop footing
    | launchWeapon slot => exact stands.launchWeapon slot
    | buyWeapon t => exact onToken (fun t g stands => stands.buyWeapon t) stands t
    | sellWeapon t => exact onToken (fun t g stands => stands.sellWeapon t) stands t
    | leaveBazaar => exact stands
    | setPaused p => exact stands
    | receiveWeapon t =>
      exact onToken (f := fun t g => g.receiveWeapon t) (fun t g stands => stands) stands t
    | receiveOpScore score lines funds => exact receiveOpScore (raised score lines funds rfl)
    | addFunds amount => exact stands.addFunds amount
    | grantWeapon t =>
      exact onToken (f := fun t g => (g.grantWeapon t).2) (fun t g stands => stands) stands t
  · exact stands.tick footing dtMs
  · exact stands
  · exact stands
  · exact stands

end Stands

theorem unobstructed_of_reached {g : Game} (reached : g.Reached Spared) : g.Unobstructed := by
  rw [unobstructed_iff]
  refine reached.invariant (fun seed => Stands.spawn footing_blocked (blank seed))
    fun h a stands spared => stands.act footing_blocked fun score lines funds same => ?_
  exact stands.raiseStack_idle (spared score lines funds same) score funds _

/-- Whatever the weapons, the inputs and the waiting boards of a run, the piece in play is
over free squares, and a tick that lands it overwrites no cell: as long as no score of the
opponent arrives under Lawyers. -/
theorem piece_never_overlaps {g : Game} (reached : g.Reached Spared) :
    (∀ p, g.current = some p → p.x = g.x ∧ p.y = g.y ∧
      ∀ i j, (p.cells i j).isSome = true → g.board.occupied (p.x + i) (p.y + j) = false) ∧
    ∀ dt, (g.tick dt).still = g.still ∨
      ∃ acc p, ((g.tickWeapons dt).slideAt acc).Locks p ∧
        g.tick dt = ((g.tickWeapons dt).slideAt acc).place false ∧
        p.LandsClean ((g.tickWeapons dt).slideAt acc).board := by
  have clear := unobstructed_of_reached reached
  refine ⟨clear, fun dt => ?_⟩
  have timed := unobstructed_iff.mpr
    ((unobstructed_iff.mp clear).tickWeapons footing_blocked dt)
  rcases g.tick_cases dt with glides | ⟨acc, p, locks, placed⟩
  · exact .inl glides
  · -- the weapon timers moved the piece, over free squares still
    obtain ⟨-, -, free⟩ := timed p locks.1
    exact .inr ⟨acc, p, locks, placed, free.landsClean⟩

theorem piece_never_overlaps_fresh : (new 7).Unobstructed :=
  (piece_never_overlaps (reached_new Spared 7)).1

/-! ## Under Lawyers -/

/-- A piece in play under Lawyers stays on free squares exactly when the squares that the
opponent's new lines lift into its place are empty. -/
theorem lawyers_spare_piece_iff {g : Game} (reached : g.Reached StandardSwap) {p : Piece}
    (playing : g.current = some p) (lawyers : g.weaponActive .lawyers = true)
    (opScore opLines opFunds : Int) :
    (g.receiveOpScore opScore opLines opFunds).current = some p ∧
      ((∀ i j, (p.cells i j).isSome = true →
          (g.receiveOpScore opScore opLines opFunds).board.occupied (p.x + i) (p.y + j) = false) ↔
        ∀ i j, (p.cells i j).isSome = true →
          g.FreeAfter (opLines - g.score.opLines).toNat (p.x + i) (p.y + j)) := by
  have raised := raised_receiveOpScore reached.regular.board lawyers opScore opLines opFunds
  refine ⟨raised.current.trans playing, ?_⟩
  constructor
  · intro spared i j filled
    exact (raised.free_iff _ _).mp (spared i j filled)
  · intro vacant i j filled
    exact (raised.free_iff _ _).mpr (vacant i j filled)

/-- The piece in play rests on the stack, upright and outside the bottle, under Lawyers. -/
def restsUnderLawyers (g : Game) : Bool :=
  g.weaponActive .lawyers && !g.board.isActive .upbyside && !g.board.isActive .bottle &&
    g.current.any fun p =>
      (List.finRange btPieceWidth).any fun i => (List.finRange btPieceWidth).any fun j =>
        (p.cells i j).isSome && g.board.inBounds (p.x + i) (p.y + j)
          && (g.board.get (p.x + i) (p.y + j + 1)).isSome

/-- The second piece of a game, dropped onto the first under Lawyers. -/
def droppedUnderLawyers : Game :=
  ((((new 7).act (.input (.receiveWeapon 6))).act (.tick 20000)).act (.tick 150)).act
    (.tick 20000)

theorem reached_droppedUnderLawyers : droppedUnderLawyers.Reached StandardSwap := by
  have plain {g : Game} {a : Action} (other : ∀ cells, a ≠ .queueBoardSwap cells) :
      g.StandardSwap a := fun cells same => absurd same (other cells)
  have fresh := reached_new StandardSwap 7
  have armed := fresh.act (plain (a := .input (.receiveWeapon 6)) fun _ => by simp)
  have landed := armed.act (plain (a := .tick 20000) fun _ => by simp)
  have locked := landed.act (plain (a := .tick 150) fun _ => by simp)
  exact locked.act (plain (a := .tick 20000) fun _ => by simp)

set_option maxRecDepth 100000 in
theorem rests_droppedUnderLawyers : droppedUnderLawyers.restsUnderLawyers = true := by
  decide +kernel

/-- A piece that rests on the stack has a square above a cell. -/
theorem touches_of_rests {g : Game} (rests : g.restsUnderLawyers = true) :
    g.weaponActive .lawyers = true ∧ g.board.isActive .upbyside = false ∧
      g.board.isActive .bottle = false ∧ ∃ p, g.current = some p ∧ ∃ i j,
        (p.cells i j).isSome = true ∧ g.board.inBounds (p.x + i) (p.y + j) = true ∧
          (g.board.get (p.x + i) (p.y + j + 1)).isSome = true := by
  unfold restsUnderLawyers at rests
  simp only [Bool.and_eq_true, Bool.not_eq_true'] at rests
  obtain ⟨⟨⟨lawyers, upright⟩, open_⟩, resting⟩ := rests
  refine ⟨lawyers, upright, open_, ?_⟩
  cases playing : g.current with
  | none =>
    rw [playing] at resting
    cases resting
  | some p =>
    rw [playing] at resting
    obtain ⟨i, -, column⟩ := List.any_eq_true.mp resting
    obtain ⟨j, -, square⟩ := List.any_eq_true.mp column
    simp only [Bool.and_eq_true] at square
    exact ⟨p, rfl, i, j, square.1.1, square.1.2, square.2⟩

theorem lawyers_spare_piece_iff_dropped :
    ∃ p, droppedUnderLawyers.current = some p ∧
      (droppedUnderLawyers.receiveOpScore 0 1 0).current = some p ∧
        ((∀ i j, (p.cells i j).isSome = true →
            (droppedUnderLawyers.receiveOpScore 0 1 0).board.occupied (p.x + i) (p.y + j) = false) ↔
          ∀ i j, (p.cells i j).isSome = true →
            droppedUnderLawyers.FreeAfter (1 - droppedUnderLawyers.score.opLines).toNat
              (p.x + i) (p.y + j)) := by
  obtain ⟨lawyers, -, -, p, playing, -⟩ := touches_of_rests rests_droppedUnderLawyers
  exact ⟨p, playing, lawyers_spare_piece_iff reached_droppedUnderLawyers playing lawyers 0 1 0⟩

/-- One line of the opponent lifts the stack into the piece that rests on it. -/
theorem lawyers_raise_into_piece :
    ¬∀ (g : Game) (p : Piece), g.Reached StandardSwap → g.current = some p →
      g.weaponActive .lawyers = true → ∀ opScore opLines opFunds i j,
        (p.cells i j).isSome = true →
          (g.receiveOpScore opScore opLines opFunds).board.occupied (p.x + i) (p.y + j) =
            false := by
  intro claim
  have reached := reached_droppedUnderLawyers
  have rests := rests_droppedUnderLawyers
  generalize droppedUnderLawyers = g at reached rests
  obtain ⟨lawyers, upright, open_, p, playing, i, j, filled, inside, below⟩ :=
    touches_of_rests rests
  have spared := claim g p reached playing lawyers 0 (g.score.opLines + 1) 0 i j filled
  rw [lifts_cell reached.regular.board lawyers upright open_ inside below 0 0] at spared
  cases spared

end Game

end BattleTris
