import BattleTris.Match.Tiles

/-!
The walls of a Bottle over whole runs of a game.

`bottled` is the tiling in which the structure cells are the walls of an active Bottle,
and nothing else.
-/

namespace BattleTris

namespace Board

/-- The square holds a structure cell exactly if it is a wall. -/
def bottled (bottle : Bool) (x y : Int) (c : Option Cell) : Prop :=
  IsStruct c ↔ Walled bottle x y

theorem isWall_turned {x y : Int} : IsWall x (btBoardHgt - 1 - y) ↔ IsWall x y := by
  have tall : btBoardHgt = 28 := rfl
  unfold IsWall
  omega

theorem isWall_mirrored {x y : Int} : IsWall (btBoardWth - 1 - x) y ↔ IsWall x y := by
  have wide : btBoardWth = 10 := rfl
  unfold IsWall
  omega

theorem worn_struct {c c' : Cell} (worn : Worn c c') : IsStruct (some c') ↔ IsStruct (some c) := by
  rw [isStruct_some, isStruct_some]
  cases worn with
  | landed =>
    unfold Cell.landed
    split
    · next happy =>
      rw [happy]
      constructor <;> rintro ⟨⟩
    · exact Iff.rfl
  | gimped =>
    unfold gimpCell
    split
    · next loose =>
      constructor
      · rintro ⟨⟩
      · intro hard
        unfold Cell.isRemovable at loose
        rw [hard] at loose
        cases loose
    · exact Iff.rfl
  | hidden => exact Iff.rfl

theorem tiling_bottled : Tiling bottled IsStruct fun c => c.kind ≠ .struct where
  hard := id
  plain plain hard := plain (isStruct_some.mp hard)
  coloured _ := by rintro ⟨⟩
  shaped pips kind := by cases kind <;> rintro ⟨⟩
  empties free := iff_of_false not_isStruct_none free
  carries free free' fits := iff_of_false (fun hard => free (fits.mp hard)) free'
  grows free plain := iff_of_false (fun hard => plain (isStruct_some.mp hard)) free
  lands fits soft plain := iff_of_false (fun hard => plain (isStruct_some.mp hard))
    fun wall => soft (fits.mpr wall)
  takes fits soft := iff_of_false not_isStruct_none fun wall => soft (fits.mpr wall)
  wears worn fits := (worn_struct worn).trans fits
  turns fits := fits.trans (and_congr_right fun _ => isWall_turned.symm)
  mirrors fits := fits.trans (and_congr_right fun _ => isWall_mirrored.symm)
  frees free fits := fits.trans (iff_of_false (fun wall => free wall.2) fun wall => free wall.2)
  walls wall := iff_of_true (isStruct_some.mpr rfl) ⟨rfl, wall⟩
  settles before after soft hard := soft (before.mpr (after.mp hard))

end Board

namespace Game

/-- The action puts no board in waiting. -/
def NoSwap (_ : Game) (a : Action) : Prop := ∀ cells, a ≠ .queueBoardSwap cells

/-- Only the walls of an active Bottle are structure cells. -/
def Bottled (g : Game) : Prop :=
  g.Tiled Board.bottled IsStruct (fun c => c.kind ≠ .struct) fun _ => False

/-- Whatever weapons come and go in a run without board swaps, in either direction of
gravity: the 48 wall squares of a Bottle hold structure cells while it is active, and no
square does otherwise. -/
theorem bottle_walls {seed : Nat} {actions : List Action} {g : Game}
    (run : Run NoSwap act (new seed) actions g) :
    g.board.width = btBoardWth ∧ g.board.height = btBoardHgt ∧
      ∀ x y, 0 ≤ x → x < btBoardWth → 0 ≤ y → y < btBoardHgt →
        (IsStruct (g.board.get x y) ↔ g.weaponActive .bottle = true ∧ Board.IsWall x y) := by
  have bottled : g.Bottled := by
    refine run.invariant (fun h a bottled plain => ?_) (.new Board.tiling_bottled seed)
    exact bottled.act Board.tiling_bottled (fun none => none.elim) plain
  have geared : g.Geared := run.invariant (fun h a geared _ => geared.act a) (geared_new seed)
  refine ⟨bottled.board.standard.width, bottled.board.standard.height, ?_⟩
  intro x y x0 xw y0 yh
  have square := bottled.board.squares x y ?_
  · rw [Board.isActive, geared.active] at square
    exact square
  · rw [Grid.inBounds_iff, bottled.board.standard.width, bottled.board.standard.height]
    exact ⟨x0, xw, y0, yh⟩

theorem bottle_walls_planted :
    let g := (((new 7).act (.input (.receiveWeapon 24))).act (.tick 20000)).act (.tick 150)
    g.board.width = btBoardWth ∧ g.board.height = btBoardHgt ∧
      ∀ x y, 0 ≤ x → x < btBoardWth → 0 ≤ y → y < btBoardHgt →
        (IsStruct (g.board.get x y) ↔ g.weaponActive .bottle = true ∧ Board.IsWall x y) := by
  have run : Run NoSwap act (new 7) [.input (.receiveWeapon 24), .tick 20000, .tick 150]
      ((((new 7).act (.input (.receiveWeapon 24))).act (.tick 20000)).act (.tick 150)) :=
    ((Run.nil.snoc nofun).snoc nofun).snoc nofun
  exact bottle_walls run

/-- There are 48 wall squares. -/
example : ((List.range 280).filter fun k : Nat =>
    Board.IsWall (k % 10 : Nat) (k / 10 : Nat)).length = 48 := by decide

end Game

end BattleTris
