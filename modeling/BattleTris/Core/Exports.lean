import BattleTris.Core.BoardSpec
import BattleTris.Core.Game
import BattleTris.Lib.Codec

/-!
The exports of the board and the arsenal read back as what was written.
-/

namespace BattleTris

open Loop Codec

namespace Game

/-! ## Boards -/

/-- The four words of a square. -/
def squareWords (g : Game) (x y : Nat) : List Int :=
  let q := Cell.encodeSquare (g.board.get x y)
  [q.1, q.2.1, q.2.2.1, q.2.2.2]

/-- One row of the export. -/
def rowWords (g : Game) (y : Nat) : List Int :=
  (List.range g.board.width.toNat).flatMap fun x => g.squareWords x y

theorem exportBoard_eq (g : Game) :
    g.exportBoard = (List.range g.board.height.toNat).flatMap g.rowWords := rfl

theorem length_squareWords (g : Game) (x y : Nat) : (g.squareWords x y).length = 4 := rfl

theorem length_rowWords (g : Game) (y : Nat) :
    (g.rowWords y).length = g.board.width.toNat * 4 := by
  rw [rowWords, length_flatMap_const fun x => g.length_squareWords x y, List.length_range]

theorem length_exportBoard (g : Game) :
    g.exportBoard.length = g.board.height.toNat * (g.board.width.toNat * 4) := by
  rw [exportBoard_eq, length_flatMap_const g.length_rowWords, List.length_range]

theorem length_standardExport {g : Game} (width : g.board.width = btBoardWth)
    (height : g.board.height = btBoardHgt) : g.exportBoard.length = 1120 := by
  rw [length_exportBoard, width, height]
  rfl

/-- Word `k` of the square at `(x, y)`. -/
theorem getElem?_exportBoard (g : Game) {x y k : Nat} (col : x < g.board.width.toNat)
    (row : y < g.board.height.toNat) (word : k < 4) :
    g.exportBoard[4 * (y * g.board.width.toNat + x) + k]? = (g.squareWords x y)[k]? := by
  have position : 4 * (y * g.board.width.toNat + x) + k =
      y * (g.board.width.toNat * 4) + (x * 4 + k) := by ring
  rw [position, exportBoard_eq,
    getElem?_flatMap_const g.length_rowWords (by simpa using row) (by omega),
    List.getElem_range, rowWords,
    getElem?_flatMap_const (fun x => g.length_squareWords x y) (by simpa using col) word,
    List.getElem_range]

/-- Importing a board touches nothing else. -/
theorem importBoard_eq (g : Game) (data : List Int) :
    g.importBoard data = { g with board := (g.importBoard data).board } := by
  unfold importBoard
  dsimp only
  split <;> rfl

/-- Well-sized data is decoded square by square. -/
theorem importBoard_board {g : Game} {data : List Int} (wpos : 0 ≤ g.board.width)
    (hpos : 0 ≤ g.board.height)
    (length : data.length = (g.board.width * g.board.height * 4).toNat) :
    Board.Keeps g.board (g.importBoard data).board ∧
      ∀ x y, (g.importBoard data).board.get x y =
        if g.board.inBounds x y then
          let i := (4 * (y * g.board.width + x)).toNat
          Cell.decode
            (data.getD i 0, data.getD (i + 1) 0, data.getD (i + 2) 0, data.getD (i + 3) 0)
        else none := by
  have board : (g.importBoard data).board = forRange 0 g.board.height (fun y b =>
      forRange 0 g.board.width (fun x b =>
        let i := (4 * (y * g.board.width + x)).toNat
        b.set x y (Cell.decode
          (data.getD i 0, data.getD (i + 1) 0, data.getD (i + 2) 0, data.getD (i + 3) 0))) b)
      g.board := by
    unfold importBoard
    dsimp only
    rw [if_neg (not_not.mpr length)]
  rw [board]
  exact Board.sweep_spec (fun x y _ =>
    let i := (4 * (y * g.board.width + x)).toNat
    Cell.decode
      (data.getD i 0, data.getD (i + 1) 0, data.getD (i + 2) 0, data.getD (i + 3) 0)) wpos hpos

/-- An exported board comes back square by square on a board of its size. -/
theorem importBoard_exportBoard {g h : Game} (wpos : 0 ≤ g.board.width)
    (hpos : 0 ≤ g.board.height) (width : h.board.width = g.board.width)
    (height : h.board.height = g.board.height) :
    Board.Keeps h.board (h.importBoard g.exportBoard).board ∧
      (h.importBoard g.exportBoard).board.toGrid = g.board.toGrid := by
  have length : g.exportBoard.length = (h.board.width * h.board.height * 4).toNat := by
    rw [length_exportBoard, width, height, Int.toNat_mul (mul_nonneg wpos hpos) (by norm_num),
      Int.toNat_mul wpos hpos, mul_left_comm, mul_assoc]
    rfl
  obtain ⟨keeps, squares⟩ := importBoard_board (by omega) (by omega) length
  refine ⟨keeps, Grid.ext_get ?_ (keeps.width.trans width) (keeps.height.trans height) ?_⟩
  · exact keeps.width ▸ width ▸ wpos
  intro x y inside
  have here : h.board.inBounds x y = true := by rw [← keeps.inBounds]; exact inside
  obtain ⟨x0, xw, y0, yh⟩ := Grid.inBounds_iff.mp here
  obtain ⟨x, rfl⟩ := Int.eq_ofNat_of_zero_le x0
  obtain ⟨y, rfl⟩ := Int.eq_ofNat_of_zero_le y0
  have read (k : Nat) (word : k < 4) := getElem?_exportBoard g (x := x) (y := y) (k := k)
    (by omega) (by omega) word
  have position : (4 * ((y : Int) * h.board.width + x)).toNat =
      4 * (y * g.board.width.toNat + x) := by
    rw [width]
    zify
    rw [Int.toNat_of_nonneg (by positivity), Int.toNat_of_nonneg wpos]
  have same := squares x y
  rw [if_pos here] at same
  refine same.trans ?_
  rw [position]
  simp only [List.getD_eq_getElem?_getD]
  have zero := read 0 (by omega)
  rw [Nat.add_zero] at zero
  rw [zero, read 1 (by omega), read 2 (by omega), read 3 (by omega)]
  exact Cell.decode_encodeSquare _

end Game

/-! ## Arsenals -/

theorem Arsenal.put_rep_quantities (a : Arsenal) (i : Fin btArsenalSize)
    {token : Option WeaponToken} {qty : Nat} (filled : token = none ↔ qty = 0) :
    (a.put i token qty).rep = Function.update a.rep i token ∧
      (a.put i token qty).quantities = Function.update a.quantities i qty := by
  cases token with
  | none =>
    obtain rfl : qty = 0 := filled.mp rfl
    exact ⟨rfl, rfl⟩
  | some w =>
    cases qty with
    | zero => cases filled.mpr rfl
    | succ n => exact ⟨rfl, rfl⟩

namespace Game

/-- The two words of a slot. -/
def slotWords (g : Game) (i : Nat) : List Int :=
  [((g.arsenal.token i).map fun t => (t.index : Int)).getD (-1), (g.arsenal.quantity i : Int)]

theorem length_slotWords (g : Game) (i : Nat) : (g.slotWords i).length = 2 := rfl

theorem exportArsenal_eq (g : Game) :
    g.exportArsenal = (List.range btArsenalSize).flatMap g.slotWords := rfl

theorem length_exportArsenal (g : Game) : g.exportArsenal.length = 20 := by
  exact length_flatMap_const g.length_slotWords (List.range btArsenalSize)

/-- Importing an arsenal touches nothing else. -/
theorem importArsenal_exportArsenal {g : Game} (h : Game)
    (small : ∀ i, g.arsenal.quantities i < 2 ^ 16) :
    h.importArsenal g.exportArsenal = { h with arsenal := g.arsenal } := by
  have word (slot : Fin btArsenalSize) {j : Nat} (col : j < 2) :
      g.exportArsenal[slot * 2 + j]? = (g.slotWords slot)[j]? := by
    rw [exportArsenal_eq, getElem?_flatMap_const g.length_slotWords (by simp) col,
      List.getElem_range]
  have token (slot : Fin btArsenalSize) :
      WeaponToken.fromIndex (g.exportArsenal.getD (slot * 2) 0) = g.arsenal.rep slot := by
    have read := word slot (j := 0) (by omega)
    rw [List.getD_eq_getElem?_getD]
    refine (congrArg (fun o => WeaponToken.fromIndex (Option.getD o 0)) read).trans ?_
    change WeaponToken.fromIndex (((g.arsenal.token slot).map fun t =>
      (t.index : Int)).getD (-1)) = _
    rw [Arsenal.token, dif_pos slot.isLt]
    cases g.arsenal.rep slot with
    | none => rfl
    | some t => exact WeaponToken.fromIndex_index t
  have quantity (slot : Fin btArsenalSize) :
      (max 0 (min (g.exportArsenal.getD (slot * 2 + 1) 0) 65535)).toNat =
        g.arsenal.quantities slot := by
    have read := word slot (j := 1) (by omega)
    have bound := small slot
    rw [List.getD_eq_getElem?_getD]
    refine (congrArg (fun o => (max 0 (min (Option.getD o 0) 65535)).toNat) read).trans ?_
    change (max 0 (min (g.arsenal.quantity slot : Int) 65535)).toNat = _
    rw [Arsenal.quantity, dif_pos slot.isLt]
    change (max 0 (min (g.arsenal.quantities slot : Int) 65535)).toNat = _
    omega
  let fill (a : Arsenal) (slot : Nat) : Arsenal :=
    a.setSlot slot (WeaponToken.fromIndex (g.exportArsenal.getD (slot * 2) 0))
      (max 0 (min (g.exportArsenal.getD (slot * 2 + 1) 0) 65535)).toNat
  -- the slots below `n` are filled
  have upTo (n : Nat) (le : n ≤ btArsenalSize) (i : Fin btArsenalSize) (low : i.val < n) :
      ((List.range n).foldl fill Arsenal.new).rep i = g.arsenal.rep i ∧
        ((List.range n).foldl fill Arsenal.new).quantities i = g.arsenal.quantities i := by
    induction n with
    | zero => omega
    | succ n ih =>
      have stored : fill ((List.range n).foldl fill Arsenal.new) n =
          ((List.range n).foldl fill Arsenal.new).put ⟨n, le⟩ (g.arsenal.rep ⟨n, le⟩)
            (g.arsenal.quantities ⟨n, le⟩) := by
        rw [← token ⟨n, le⟩, ← quantity ⟨n, le⟩]
        exact dif_pos le
      obtain ⟨rep, quantities⟩ := Arsenal.put_rep_quantities
        ((List.range n).foldl fill Arsenal.new) ⟨n, le⟩ (g.arsenal.filled ⟨n, le⟩)
      rw [List.range_succ, List.foldl_append, List.foldl_cons, List.foldl_nil, stored, rep,
        quantities]
      rcases eq_or_ne i ⟨n, le⟩ with rfl | apart
      · rw [Function.update_self, Function.update_self]
        exact ⟨rfl, rfl⟩
      · rw [Function.update_of_ne apart, Function.update_of_ne apart]
        have other : i.val ≠ n := Fin.val_ne_of_ne apart
        exact ih (by omega) (by omega)
  unfold importArsenal
  rw [if_neg (not_not.mpr (length_exportArsenal g))]
  dsimp only
  congr 1
  refine Arsenal.ext (funext fun i => (upTo btArsenalSize le_rfl i i.isLt).1)
    (funext fun i => (upTo btArsenalSize le_rfl i i.isLt).2)

end Game

end BattleTris
