import BattleTris.Core.LineClears
import BattleTris.Core.Overlap

/-!
Landings and the lines they complete.  The idiot flag and its reason change nothing about them,
so boards with the same squares are checked alike; an empty column clears nothing.
-/

namespace BattleTris

open Loop

namespace Board

theorem Keeps.symm {b c : Board} (keeps : Keeps b c) : Keeps c b :=
  ⟨keeps.width.symm, keeps.height.symm, keeps.active.symm, keeps.upside.symm,
    keeps.computer.symm, keeps.newFill.symm⟩

/-- The same frame, and the same squares. -/
structure Alike (b c : Board) : Prop where
  keeps : Keeps b c
  get : ∀ x y, c.get x y = b.get x y

variable {b c : Board}

theorem Alike.occupied (alike : Alike b c) (x y : Int) : c.occupied x y = b.occupied x y := by
  unfold Board.occupied isActive
  rw [alike.keeps.active, alike.keeps.width, alike.keeps.height, alike.get]

theorem Alike.canMoveTo (alike : Alike b c) (p : Piece) (x y : Int) :
    p.canMoveTo c x y = p.canMoveTo b x y := by
  unfold Piece.canMoveTo
  simp only [alike.occupied]

theorem Alike.rows (alike : Alike b c) : c.rows = b.rows := by
  unfold Board.rows
  rw [alike.keeps.height]
  exact List.map_congr_left fun y _ => row_congr alike.keeps.width fun x _ _ => alike.get x y

theorem Alike.fill (alike : Alike b c) (x y : Int) (cell : Cell) :
    Alike (b.fill x y cell) (c.fill x y cell) := by
  have inside := alike.keeps.inBounds x y
  have place : c.index x y = b.index x y := by
    change (y * c.width + x).toNat = (y * b.width + x).toNat
    rw [alike.keeps.width]
  unfold Board.fill
  rw [inside]
  split
  · have filled : c.newFill ++ [c.index x y] = b.newFill ++ [b.index x y] := by
      rw [alike.keeps.newFill, place]
    refine ⟨⟨?_, ?_, alike.keeps.active, alike.keeps.upside, alike.keeps.computer, filled⟩,
      fun x' y' => ?_⟩
    · exact (set_width c x y _).trans (alike.keeps.width.trans (set_width b x y _).symm)
    · exact (set_height c x y _).trans (alike.keeps.height.trans (set_height b x y _).symm)
    · change (c.set x y (some cell)).get x' y' = (b.set x y (some cell)).get x' y'
      rw [get_set, get_set, inside, alike.get]
  · exact alike

theorem Alike.land (alike : Alike b c) (p : Piece) : Alike (p.land b) (p.land c) := by
  have square (i j : Fin btPieceWidth) (d e : Board) (same : Alike d e) :
      Alike (p.landSquare d i j) (p.landSquare e i j) := by
    unfold Piece.landSquare
    cases p.cells i j with
    | none => exact same
    | some cell => exact same.fill _ _ cell
  have squares : Alike
      ((List.finRange btPieceWidth).foldl (fun b i =>
        (List.finRange btPieceWidth).foldl (fun b j => p.landSquare b i j) b) b)
      ((List.finRange btPieceWidth).foldl (fun b i =>
        (List.finRange btPieceWidth).foldl (fun b j => p.landSquare b i j) b) c) := by
    refine foldl_rel (R := Alike) (fun i _ d e same => ?_) alike
    exact foldl_rel (R := Alike) (fun j _ d e same => square i j d e same) same
  have drained : Keeps { b with newFill := [] } { c with newFill := [] } :=
    ⟨alike.keeps.width, alike.keeps.height, alike.keeps.active, alike.keeps.upside,
      alike.keeps.computer, rfl⟩
  refine ⟨(Piece.keeps_land p b).symm.trans (drained.trans (Piece.keeps_land p c)), fun x y => ?_⟩
  unfold Piece.land
  rw [landed_get, landed_get]
  exact squares.get x y

/-- Boards alike are checked alike. -/
theorem Alike.checkLines (alike : Alike b c) (plain : b.Plain) :
    c.checkLines.1 = b.checkLines.1 ∧ Alike b.checkLines.2 c.checkLines.2 := by
  obtain ⟨d, result, -, final⟩ := checkRows_board plain
  obtain ⟨e, result', -, final'⟩ := checkRows_board (plain.keeps alike.keeps)
  obtain ⟨paid, rows⟩ := checkLines_eq b result
  obtain ⟨paid', rows'⟩ := checkLines_eq c result'
  rw [alike.rows] at paid' final'
  have frame := keeps_checkLines b
  have frame' := alike.keeps.trans (keeps_checkLines c)
  have same : c.checkLines.2.rows = b.checkLines.2.rows := by
    rw [rows', rows, final', final, alike.keeps.packed]
  have keeps : Keeps b.checkLines.2 c.checkLines.2 := frame.symm.trans frame'
  exact ⟨paid'.trans paid.symm, keeps, get_of_rows keeps.width keeps.height same⟩

/-- No line is complete while a column is empty. -/
theorem checkLines_column (plain : b.Plain) {x : Int} (left : 0 ≤ x) (right : x < b.width)
    (empty : ∀ y, b.get x y = none) : b.checkLines.1 = .none := by
  obtain ⟨d, result, -, -⟩ := checkRows_board plain
  have gaps : b.rows.countP Row.full = 0 := by
    refine List.countP_eq_zero.mpr fun r member whole => ?_
    obtain ⟨y, -, rfl⟩ := List.mem_map.mp member
    have filled := full_row.mp whole x left right
    rw [empty] at filled
    cases filled
  rw [(checkLines_eq b result).1, gaps]
  exact if_pos rfl

/-- A piece that lands beside an empty column leaves it empty. -/
theorem land_column {p : Piece} {x : Int} (empty : ∀ y, b.get x y = none)
    (beside : ∀ i j, (p.cells i j).isSome = true → x ≠ p.x + i) (y : Int) :
    (p.land b).get x y = none := by
  by_contra filled
  rw [← empty y] at filled
  obtain ⟨-, i, j, covered, column, -⟩ := Piece.land_writes filled
  exact beside i j covered column

end Board

end BattleTris
