import BattleTris.Core.Removal

/-!
Garbage rows on a board of either player, the computer's included.

The computer's board fills from the bottom even under Upbyside.  A board behaves like the
`upright` one of a human player that fills from the same side, so what a row lifts and what it
leaves is known from there.
-/

namespace BattleTris

open Loop

namespace Board

variable {b : Board}

/-- The board of a human player that fills from the same side. -/
def upright (b : Board) : Board :=
  { b with
    active := b.active.set .upbyside (decide ¬b.Falls), computer := false, newFill := [] }

/-- Give a board the flags of an upright one. -/
def withFlags (active : ActiveFlags) (c : Board) : Board :=
  { c with active := active, computer := false, newFill := [] }

theorem isActive_upright (t : WeaponToken) :
    b.upright.isActive t = if t = .upbyside then decide (¬b.Falls) else b.isActive t :=
  ActiveFlags.isActive_set b.active .upbyside t (decide ¬b.Falls)

theorem falls_upright : b.upright.Falls ↔ b.Falls := by
  unfold Falls
  rw [isActive_upright, if_pos rfl, decide_eq_true_eq]
  constructor
  · rintro (falls | computer)
    · exact not_not.mp falls
    · cases computer
  · exact fun falls => .inl (not_not.mpr falls)

theorem shiftRow_withFlags (active : ActiveFlags) (i src x1 x2 : Int)
    (c : Board) :
    shiftRow i src x1 x2 (withFlags active c) =
      withFlags active (shiftRow i src x1 x2 c) := by
  refine forRange_comm (withFlags active) (fun j c => ?_) c
  rfl

theorem garbageRow_withFlags (active : ActiveFlags) (hole y x1 x2 : Int)
    (c : Board) :
    garbageRow hole y x1 x2 (withFlags active c) =
      withFlags active (garbageRow hole y x1 x2 c) := by
  refine forRange_comm (withFlags active) (fun i c => ?_) c
  split <;> rfl

/-- The rounds of an insertion read no flag. -/
theorem insertRound_withFlags (active : ActiveFlags) (i src : Int)
    (narrow : Bool) (s : Board × Int × Int) :
    insertRound i src narrow (withFlags active s.1, s.2) =
      (withFlags active (insertRound i src narrow s).1, (insertRound i src narrow s).2) := by
  unfold insertRound
  dsimp only
  rw [shiftRow_withFlags]
  rfl

/-- A garbage row does the same to the upright board. -/
theorem insertLine_upright (b : Board) (rng : Rng) :
    b.upright.insertLine rng =
      (withFlags b.upright.active (b.insertLine rng).1, (b.insertLine rng).2) := by
  have bottle : b.upright.isActive .bottle = b.isActive .bottle := by
    rw [isActive_upright, if_neg (by decide)]
  have rounds (f : Board × Int × Int → Nat → Board × Int × Int) (n : Nat)
      (step : ∀ s k, f (withFlags b.upright.active s.1, s.2) k =
        (withFlags b.upright.active (f s k).1, (f s k).2)) (columns : Int × Int) :
      (List.range n).foldl f (b.upright, columns) =
        (withFlags b.upright.active ((List.range n).foldl f (b, columns)).1,
          ((List.range n).foldl f (b, columns)).2) :=
    foldl_map_comm (fun s => (withFlags b.upright.active s.1, s.2))
      (fun k _ s => step s k) (b, columns)
  have same : (b.upright.width, b.upright.height) = (b.width, b.height) := rfl
  unfold insertLine
  rw [bottle]
  dsimp only
  by_cases falls : b.Falls
  · have falls' := falls_upright.mpr falls
    rw [if_pos (show ¬b.upright.isActive .upbyside = true ∨ b.upright.computer = true from falls'),
      if_pos (show ¬b.isActive .upbyside = true ∨ b.computer = true from falls)]
    unfold forRange
    dsimp only
    rw [rounds _ _ fun s k => insertRound_withFlags _ _ _ _ s]
    exact Prod.ext (garbageRow_withFlags _ _ _ _ _ _) rfl
  · have rises' : ¬b.upright.Falls := fun h => falls (falls_upright.mp h)
    rw [if_neg (show ¬(¬b.upright.isActive .upbyside = true ∨ b.upright.computer = true) from
        rises'), if_neg (show ¬(¬b.isActive .upbyside = true ∨ b.computer = true) from falls)]
    unfold forDown
    dsimp only
    rw [rounds _ _ fun s k => insertRound_withFlags _ _ _ _ s]
    exact Prod.ext (garbageRow_withFlags _ _ _ _ _ _) rfl

/-! ## One row -/

/-- The direction that leads away from the gravity side. -/
def away (b : Board) : Int := if b.Falls then -1 else 1

/-- The bottle's walls and the outer columns past them. -/
def Held (b : Board) (x y : Int) : Prop :=
  b.isActive .bottle = true ∧ (x < btBottleX ∨ btBoardWth - btBottleX ≤ x) ∧
    if b.Falls then y < btBoardHgt / 2 + btBottleY else btBoardHgt / 2 - btBottleY ≤ y

instance (b : Board) (x y : Int) : Decidable (b.Held x y) := by
  unfold Held
  infer_instance

/-- The squares of the outer columns next to a wall, on the gravity side of it. -/
def Pressed (b : Board) (x y : Int) : Prop :=
  b.isActive .bottle = true ∧ (x < btBottleX ∨ btBoardWth - btBottleX ≤ x) ∧
    y = if b.Falls then btBoardHgt / 2 + btBottleY else btBoardHgt / 2 - btBottleY - 1

theorem held_of_isWall {x y : Int} (bottle : b.isActive .bottle = true) (wall : IsWall x y) :
    b.Held x y := by
  obtain ⟨side, low, high⟩ := wall
  refine ⟨bottle, side, ?_⟩
  split
  · exact high
  · exact low

theorem sheltered_upright (x y : Int) : b.upright.Sheltered x y ↔ b.Held x y := by
  unfold Sheltered Held
  rw [isActive_upright, isActive_upright, if_neg (by decide), if_pos rfl]
  by_cases falls : b.Falls <;> simp [falls]

theorem riseOf_upright : b.upright.riseOf = -b.away := by
  unfold riseOf away
  rw [isActive_upright, if_pos rfl]
  by_cases falls : b.Falls <;> simp [falls]

theorem away_cases (b : Board) : (b.Falls ∧ b.away = -1 ∧ b.nearEdge = b.height - 1 ∧
    b.farEdge = 0) ∨ (¬b.Falls ∧ b.away = 1 ∧ b.nearEdge = 0 ∧ b.farEdge = b.height - 1) := by
  unfold away nearEdge farEdge
  by_cases falls : b.Falls
  · rw [if_pos falls, if_pos falls, if_pos falls]
    exact .inl ⟨falls, rfl, rfl, rfl⟩
  · rw [if_neg falls, if_neg falls, if_neg falls]
    exact .inr ⟨falls, rfl, rfl, rfl⟩

theorem standard_upright (width : b.width = btBoardWth) (height : b.height = btBoardHgt) :
    b.upright.Standard := ⟨width, height, rfl, rfl⟩

theorem holeOf_bounds (rng : Rng) : 0 ≤ holeOf rng ∧ holeOf rng < btBoardWth := by
  have below := rng.randBelow_lt (n := btBoardWth.toNat) (by decide)
  have ten : btBoardWth.toNat = 10 := rfl
  unfold holeOf
  rw [ten] at below ⊢
  omega

/-- The board after one garbage row, square by square. -/
theorem insertLine_square (width : b.width = btBoardWth) (height : b.height = btBoardHgt)
    (rng : Rng) {x y : Int} (inside : b.inBounds x y = true) :
    (b.insertLine rng).1.get x y =
      if b.Held x y then b.get x y
      else if 0 ≤ y - b.away ∧ y - b.away < btBoardHgt then b.get x (y - b.away)
      else if x = holeOf rng then none else some (Cell.color btGreen) := by
  have upright := insertLine_get (standard_upright width height) rng (x := x) (y := y) inside
  rw [insertLine_upright, riseOf_upright] at upright
  refine upright.trans ?_
  rw [← sub_eq_add_neg]
  exact if_congr (sheltered_upright x y) rfl rfl

/-- Where nothing holds or presses a square, nothing holds the next one. -/
theorem not_held_away {x y : Int} (free : ¬b.Held x y) (loose : ¬b.Pressed x y) :
    ¬b.Held x (y + b.away) := by
  rintro ⟨bottle, side, past⟩
  rcases b.away_cases with ⟨falls, away, -⟩ | ⟨rises, away, -⟩
  · rw [if_pos falls, away] at past
    by_cases here : y < btBoardHgt / 2 + btBottleY
    · exact free ⟨bottle, side, by rwa [if_pos falls]⟩
    · exact loose ⟨bottle, side, by rw [if_pos falls]; omega⟩
  · rw [if_neg rises, away] at past
    by_cases here : btBoardHgt / 2 - btBottleY ≤ y
    · exact free ⟨bottle, side, by rwa [if_neg rises]⟩
    · exact loose ⟨bottle, side, by rw [if_neg rises]; omega⟩

theorem not_held_nearEdge (height : b.height = btBoardHgt) (x : Int) : ¬b.Held x b.nearEdge := by
  rintro ⟨-, -, past⟩
  have tall : btBoardHgt = 28 := rfl
  have four : btBottleY = 4 := rfl
  rcases b.away_cases with ⟨falls, -, near, -⟩ | ⟨rises, -, near, -⟩
  · rw [if_pos falls, near] at past
    omega
  · rw [if_neg rises, near] at past
    omega

/-! ## Rows one after another -/

/-- The board and the generator after `n` garbage rows. -/
def insertLines (b : Board) (rng : Rng) : Nat → Board × Rng
  | 0 => (b, rng)
  | n + 1 => (insertLines b rng n).1.insertLine (insertLines b rng n).2

theorem keeps_insertLines (b : Board) (rng : Rng) (n : Nat) : Keeps b (insertLines b rng n).1 := by
  induction n with
  | zero => exact Keeps.refl b
  | succ n ih => exact ih.trans (keeps_insertLine _ _)

/-- The square that `n` garbage rows move to `(x, y)`, if it is not one of theirs. -/
def origin (b : Board) (n : Nat) (x y : Int) : Option (Int × Int) :=
  if b.Held x y then some (x, y)
  else if 0 ≤ y - n * b.away ∧ y - n * b.away < btBoardHgt then some (x, y - n * b.away)
  else none

theorem Keeps.held {c : Board} (keeps : Keeps b c) (x y : Int) : c.Held x y ↔ b.Held x y := by
  unfold Board.Held isActive
  rw [keeps.active]
  simp only [keeps.falls]

theorem Keeps.away {c : Board} (keeps : Keeps b c) : c.away = b.away := by
  unfold Board.away
  exact if_congr keeps.falls rfl rfl

/-- What is not held comes from what is not held. -/
theorem not_held_back {x y : Int} (free : ¬b.Held x y) : ¬b.Held x (y - b.away) := by
  rintro ⟨bottle, side, past⟩
  apply free
  refine ⟨bottle, side, ?_⟩
  rcases b.away_cases with ⟨falls, away, -⟩ | ⟨rises, away, -⟩
  · rw [if_pos falls, away] at past
    rw [if_pos falls]
    omega
  · rw [if_neg rises, away] at past
    rw [if_neg rises]
    omega

theorem not_held_source {x y : Int} (free : ¬b.Held x y) (n : Nat) :
    ¬b.Held x (y - n * b.away) := by
  induction n with
  | zero =>
    rw [Nat.cast_zero, zero_mul, sub_zero]
    exact free
  | succ n ih =>
    have next := not_held_back ih
    rwa [sub_sub, ← add_one_mul, ← Nat.cast_succ] at next

theorem origin_succ (n : Nat) {x y : Int} (row : 0 ≤ y ∧ y < btBoardHgt) :
    b.origin (n + 1) x y =
      if b.Held x y then b.origin n x y
      else if 0 ≤ y - b.away ∧ y - b.away < btBoardHgt then b.origin n x (y - b.away)
      else none := by
  have source : y - ((n + 1 : Nat) : Int) * b.away = y - b.away - n * b.away := by
    push_cast
    ring
  unfold origin
  rw [source]
  by_cases held : b.Held x y
  · rw [if_pos held, if_pos held, if_pos held]
  rw [if_neg held, if_neg held, if_neg (not_held_back held)]
  by_cases inside : 0 ≤ y - b.away ∧ y - b.away < btBoardHgt
  · rw [if_pos inside]
  · -- what starts past the edge starts even further off before
    rw [if_neg inside, if_neg]
    rcases b.away_cases with ⟨-, away, -⟩ | ⟨-, away, -⟩ <;> rw [away] at inside ⊢ <;> omega

/-- Every square after `n` rows is an old one or garbage. -/
theorem insertLines_get (width : b.width = btBoardWth) (height : b.height = btBoardHgt)
    (rng : Rng) (n : Nat) {x y : Int} (inside : b.inBounds x y = true) :
    (∀ p, b.origin n x y = some p → (insertLines b rng n).1.get x y = b.get p.1 p.2) ∧
      (b.origin n x y = none → (insertLines b rng n).1.get x y = none ∨
        (insertLines b rng n).1.get x y = some (Cell.color btGreen)) := by
  induction n generalizing y with
  | zero =>
    obtain ⟨-, -, row⟩ := Grid.inBounds_iff.mp inside
    rw [height] at row
    have itself : b.origin 0 x y = some (x, y) := by
      unfold origin
      rw [Nat.cast_zero, zero_mul, sub_zero, if_pos row]
      split <;> rfl
    rw [itself]
    refine ⟨fun p same => ?_, nofun⟩
    cases same
    rfl
  | succ n ih =>
    have keeps := keeps_insertLines b rng n
    have row := (Grid.inBounds_iff.mp inside).2.2
    rw [height] at row
    have one := insertLine_square (keeps.width.trans width) (keeps.height.trans height)
      (insertLines b rng n).2 (x := x) (y := y) (by rwa [keeps.inBounds])
    rw [keeps.away] at one
    rw [origin_succ n row]
    unfold insertLines
    rw [one]
    by_cases held : b.Held x y
    · rw [if_pos held, if_pos ((keeps.held x y).mpr held)]
      exact ih inside
    rw [if_neg held, if_neg fun h => held ((keeps.held x y).mp h)]
    by_cases within : 0 ≤ y - b.away ∧ y - b.away < btBoardHgt
    · rw [if_pos within, if_pos within]
      apply ih
      rw [Grid.inBounds_iff] at inside ⊢
      rw [height]
      exact ⟨inside.1, inside.2.1, within⟩
    · rw [if_neg within, if_neg within]
      refine ⟨nofun, fun _ => ?_⟩
      split
      · exact .inl rfl
      · exact .inr rfl

/-- No square goes to two places. -/
theorem origin_injective (n : Nat) {x y x' y' : Int} {p : Int × Int}
    (here : b.origin n x y = some p) (there : b.origin n x' y' = some p) : x = x' ∧ y = y' := by
  have moved {x y : Int} (here : b.origin n x y = some p) :
      (b.Held x y ∧ p = (x, y)) ∨ (¬b.Held p.1 p.2 ∧ p = (x, y - n * b.away)) := by
    unfold origin at here
    by_cases held : b.Held x y
    · rw [if_pos held] at here
      exact .inl ⟨held, (Option.some.inj here).symm⟩
    · rw [if_neg held] at here
      split at here
      · cases here
        exact .inr ⟨not_held_source held n, rfl⟩
      · cases here
  rcases moved here with ⟨held, rfl⟩ | ⟨free, rfl⟩
  · rcases moved there with ⟨-, same⟩ | ⟨free, -⟩
    · cases same
      exact ⟨rfl, rfl⟩
    · exact absurd held free
  · rcases moved there with ⟨held, same⟩ | ⟨-, same⟩
    · rw [same] at free
      exact absurd held free
    · obtain ⟨rfl, rows⟩ := Prod.mk.inj same
      exact ⟨rfl, sub_left_injective rows⟩

/-- A garbage row comes in at the gravity side, whole but for the drawn hole and worth
nothing; the walls and what is past them stay, all else moves one row away, and only the far
edge and the squares pressed against a wall are lost.  So after any number of rows the edge
has one hole, and every other square is garbage or comes from a square of its own. -/
theorem insertLine_exact (width : b.width = btBoardWth) (height : b.height = btBoardHgt)
    (rng : Rng) :
    ((∀ x, 0 ≤ x ∧ x < btBoardWth → (b.insertLine rng).1.get x b.nearEdge =
        if x = holeOf rng then none else some (Cell.color btGreen)) ∧
      (Cell.color btGreen).value = 0 ∧ (0 ≤ holeOf rng ∧ holeOf rng < btBoardWth) ∧
      (∀ x y, b.inBounds x y = true → b.Held x y →
        (b.insertLine rng).1.get x y = b.get x y) ∧
      ∀ x y, b.inBounds x y = true → ¬b.Held x y → y ≠ b.farEdge → ¬b.Pressed x y →
        (b.insertLine rng).1.get x (y + b.away) = b.get x y) ∧
    ∀ n, (0 < n → ∃ x, (0 ≤ x ∧ x < btBoardWth) ∧
        (insertLines b rng n).1.get x b.nearEdge = none) ∧
      (∀ x y, b.inBounds x y = true →
        (∀ p, b.origin n x y = some p → (insertLines b rng n).1.get x y = b.get p.1 p.2) ∧
        (b.origin n x y = none → (insertLines b rng n).1.get x y = none ∨
          (insertLines b rng n).1.get x y = some (Cell.color btGreen))) ∧
      ∀ x y x' y' p, b.origin n x y = some p → b.origin n x' y' = some p → x = x' ∧ y = y' := by
  have tall : btBoardHgt = 28 := rfl
  have edge {c : Board} (width : c.width = btBoardWth) (height : c.height = btBoardHgt) (rng : Rng)
      {x : Int} (column : 0 ≤ x ∧ x < btBoardWth) : (c.insertLine rng).1.get x c.nearEdge =
        if x = holeOf rng then none else some (Cell.color btGreen) := by
    have inside : c.inBounds x c.nearEdge = true := by
      rw [Grid.inBounds_iff, width, height]
      rcases c.away_cases with ⟨-, -, near, -⟩ | ⟨-, -, near, -⟩ <;> rw [near] <;> omega
    rw [insertLine_square width height rng inside, if_neg (not_held_nearEdge height x), if_neg]
    rcases c.away_cases with ⟨-, away, near, -⟩ | ⟨-, away, near, -⟩ <;> rw [away, near] <;> omega
  refine ⟨⟨fun x => edge width height rng, rfl, holeOf_bounds rng, fun x y inside held => ?_,
    fun x y inside free inner loose => ?_⟩, fun n => ⟨fun positive => ?_,
      fun x y => insertLines_get width height rng n,
      fun x y x' y' p here there => origin_injective n here there⟩⟩
  · rw [insertLine_square width height rng inside, if_pos held]
  · obtain ⟨x0, xw, row⟩ := Grid.inBounds_iff.mp inside
    have next : 0 ≤ y + b.away ∧ y + b.away < b.height := by
      rcases b.away_cases with ⟨-, away, -, far⟩ | ⟨-, away, -, far⟩ <;> rw [away] <;> omega
    rw [insertLine_square width height rng (Grid.inBounds_iff.mpr ⟨x0, xw, next⟩),
      if_neg (not_held_away free loose), add_sub_cancel_right, if_pos (by omega)]
  · obtain ⟨n, rfl⟩ : ∃ m, n = m + 1 := ⟨n - 1, by omega⟩
    have keeps := keeps_insertLines b rng n
    have near : (insertLines b rng n).1.nearEdge = b.nearEdge := by
      unfold nearEdge
      rw [keeps.height]
      exact if_congr keeps.falls rfl rfl
    have last := edge (keeps.width.trans width) (keeps.height.trans height) (insertLines b rng n).2
      (holeOf_bounds (insertLines b rng n).2)
    rw [near, if_pos rfl] at last
    exact ⟨holeOf (insertLines b rng n).2, holeOf_bounds _, last⟩

theorem insertLine_exact_standard :
    ((standard true).insertLine (Rng.new 1)).1.get 3 (standard true).nearEdge =
      if 3 = holeOf (Rng.new 1) then none else some (Cell.color btGreen) :=
  (insertLine_exact (by decide) (by decide) (Rng.new 1)).1.1 3 (by decide)

end Board

end BattleTris
