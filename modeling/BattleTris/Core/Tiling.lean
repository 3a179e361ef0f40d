import BattleTris.Core.Overlap
import BattleTris.Core.Regular

/-!
Invariants of the squares of a board.

A `Tiling` is a relation between a square and what it may hold, with and without the
walls of a Bottle, that every movement of squares respects.  The mechanics of the board
keep a board whose squares all stand in it.
-/

namespace BattleTris

open Loop

/-- The square is one of the walls of a Bottle that stands. -/
def Walled (bottle : Bool) (x y : Int) : Prop := bottle = true ∧ Board.IsWall x y

/-- The content of a square is a structure cell. -/
def IsStruct (c : Option Cell) : Prop := c.map Cell.kind = some .struct

instance (c : Option Cell) : Decidable (IsStruct c) := by
  unfold IsStruct
  infer_instance

theorem isStruct_some {c : Cell} : IsStruct (some c) ↔ c.kind = .struct := by
  unfold IsStruct
  rw [Option.map_some, Option.some.injEq]

theorem not_isStruct_none : ¬IsStruct none := by
  rintro ⟨⟩

/-- `c'` is what a landing, Gimp or Twilight makes of `c`. -/
inductive Worn (c : Cell) : Cell → Prop where
  | landed : Worn c c.landed
  | gimped : Worn c (Board.gimpCell c)
  | hidden : Worn c c.hide

/-- `I bottle x y c`: the square may hold `c`.  `H` is the content that no piece may
cover, `Q` are the cells that pieces are made of and that weapons plant. -/
structure Tiling (I : Bool → Int → Int → Option Cell → Prop) (H : Option Cell → Prop)
    (Q : Cell → Prop) : Prop where
  hard : ∀ {c}, H c → IsStruct c
  plain : ∀ {c}, Q c → ¬H (some c)
  coloured : ∀ k, Q (Cell.color k)
  shaped : ∀ pips kind, Q (Piece.shape pips kind).cell
  empties : ∀ {f x y}, ¬Walled f x y → I f x y none
  carries : ∀ {f x y x' y' c}, ¬Walled f x y → ¬Walled f x' y' → I f x y c → I f x' y' c
  grows : ∀ {f x y c}, ¬Walled f x y → Q c → I f x y (some c)
  lands : ∀ {f x y c d}, I f x y d → ¬H d → Q c → I f x y (some c)
  takes : ∀ {f x y c}, I f x y c → ¬IsStruct c → I f x y none
  wears : ∀ {f x y c c'}, Worn c c' → I f x y (some c) → I f x y (some c')
  turns : ∀ {f x y c}, I f x y c → I f x (btBoardHgt - 1 - y) c
  mirrors : ∀ {f x y c}, I f x y c → I f (btBoardWth - 1 - x) y c
  frees : ∀ {f f' x y c}, ¬Board.IsWall x y → I f x y c → I f' x y c
  walls : ∀ {x y}, Board.IsWall x y → I true x y (some Cell.struct)
  settles : ∀ {f x y c d}, I f x y c → I f x y d → ¬H c → ¬H d

namespace Board

/-- Every square of the board holds what `I` allows. -/
def Holds (I : Bool → Int → Int → Option Cell → Prop) (bottle : Bool) (b : Board) : Prop :=
  ∀ x y, b.inBounds x y = true → I bottle x y (b.get x y)

/-- A standard board that holds what `I` allows under its own flags. -/
structure Tiled (I : Bool → Int → Int → Option Cell → Prop) (b : Board) : Prop where
  standard : b.Standard
  squares : b.Holds I (b.isActive .bottle)

variable {I : Bool → Int → Int → Option Cell → Prop} {f : Bool} {b : Board}

theorem Holds.congr {c : Board} (holds : b.Holds I f)
    (inside : ∀ x y, c.inBounds x y = true → b.inBounds x y = true)
    (same : ∀ x y, c.get x y = b.get x y) : c.Holds I f := by
  intro x y within
  rw [same]
  exact holds x y (inside x y within)

theorem Keeps.isActive {b b' : Board} (keeps : Keeps b b') (t : WeaponToken) :
    b'.isActive t = b.isActive t :=
  congrArg (·.isActive t) keeps.active

theorem Tiled.of_keeps {c : Board} (tiled : b.Tiled I) (keeps : Keeps b c)
    (holds : c.Holds I (b.isActive .bottle)) : c.Tiled I := by
  refine ⟨tiled.standard.keeps keeps, ?_⟩
  rw [keeps.isActive]
  exact holds

theorem Holds.set (holds : b.Holds I f) {x y : Int} {c : Option Cell}
    (fits : b.inBounds x y = true → I f x y c) : (b.set x y c).Holds I f := by
  intro x' y' inside
  rw [(keeps_set b x y c).inBounds] at inside
  rw [get_set]
  split
  · next hit =>
    obtain ⟨within, rfl, rfl⟩ := hit
    exact fits within
  · exact holds x' y' inside

end Board

open Board

namespace Tiling

variable {I : Bool → Int → Int → Option Cell → Prop} {H : Option Cell → Prop} {Q : Cell → Prop}
  {f : Bool} {b : Board}

theorem soft_none (tiling : Tiling I H Q) : ¬H none := fun hard =>
  not_isStruct_none (tiling.hard hard)

/-! ## Lines -/

theorem holds_clearRow (tiling : Tiling I H Q) (holds : b.Holds I f) {line x1 x2 : Int}
    (free : ∀ x, x1 ≤ x → x < x2 → ¬Walled f x line) : (clearRow line x1 x2 b).Holds I f := by
  refine forRange_invariant (P := Holds I f) (fun j c low high holds => ?_) holds
  split
  · exact holds.set fun _ => tiling.empties (free j low high)
  · exact holds

theorem holds_emptyRow (tiling : Tiling I H Q) (holds : b.Holds I f) {y x1 x2 : Int}
    (free : ∀ x, x1 ≤ x → x < x2 → ¬Walled f x y) : (emptyRow y x1 x2 b).Holds I f := by
  refine forRange_invariant (P := Holds I f) (fun j c low high holds => ?_) holds
  exact holds.set fun _ => tiling.empties (free j low high)

theorem holds_shiftRow (tiling : Tiling I H Q) (holds : b.Holds I f) {i src x1 x2 : Int}
    (free : ∀ x, x1 ≤ x → x < x2 → ¬Walled f x i ∧ ¬Walled f x src) :
    (shiftRow i src x1 x2 b).Holds I f := by
  refine forRange_invariant (P := Holds I f) (fun j c low high holds => ?_) holds
  obtain ⟨here, there⟩ := free j low high
  have moved : (c.set j i (c.get j src)).Holds I f := by
    refine holds.set fun _ => ?_
    by_cases inside : c.inBounds j src = true
    · exact tiling.carries there here (holds j src inside)
    · rw [get_of_not_inBounds inside]
      exact tiling.empties here
  exact moved.set fun _ => tiling.empties there

/-- The columns that a pass over the rows `i` and `src` moves hold no wall. -/
def Clear (f narrow : Bool) (i src : Int) : Prop :=
  f = true → narrow = true ∨ ∀ x, ¬IsWall x i ∧ ¬IsWall x src

theorem Clear.free {narrow : Bool} {i src : Int} (clear : Clear f narrow i src) {x x1 x2 : Int}
    (low : (if narrow = true then btBottleX else x1) ≤ x)
    (high : x < if narrow = true then btBoardWth - btBottleX else x2) :
    ¬Walled f x i ∧ ¬Walled f x src := by
  by_cases stands : f = true
  · rcases clear stands with within | beside
    · rw [if_pos within] at low high
      have neck (y : Int) : ¬Walled f x y := by
        rintro ⟨-, columns, -, -⟩
        rcases columns with left | right
        · exact absurd low (not_le.mpr left)
        · exact absurd high (not_lt.mpr right)
      exact ⟨neck i, neck src⟩
    · exact ⟨fun wall => (beside x).1 wall.2, fun wall => (beside x).2 wall.2⟩
  · exact ⟨fun wall => stands wall.1, fun wall => stands wall.1⟩

theorem holds_removeRound (tiling : Tiling I H Q) {force narrow : Bool} {line i src x1 x2 : Int}
    (holds : b.Holds I f) (width : b.width = btBoardWth) (clear : Clear f narrow i src) :
    (removeRound force line i src narrow (b, x1, x2)).1.Holds I f := by
  unfold removeRound
  dsimp only
  rw [width]
  split
  · split
    · next here =>
      subst here
      exact tiling.holds_clearRow holds fun x low high => (clear.free low high).1
    · exact holds
  · exact tiling.holds_shiftRow holds fun x low high => clear.free low high

/-- The neck takes up the rows that a pass narrows for. -/
theorem clear_of_rows {narrow : Bool} {i src : Int}
    (rows : f = true → narrow = false →
      (i < btBoardHgt / 2 - btBottleY ∨ btBoardHgt / 2 + btBottleY ≤ i) ∧
      (src < btBoardHgt / 2 - btBottleY ∨ btBoardHgt / 2 + btBottleY ≤ src)) :
    Clear f narrow i src := by
  intro stands
  rcases narrow with _ | _
  · right
    intro x
    obtain ⟨here, there⟩ := rows stands rfl
    unfold IsWall
    omega
  · exact .inl rfl

theorem not_walled_edge {x y : Int} (edge : y ≤ 0 ∨ btBoardHgt - 1 ≤ y) : ¬Walled f x y := by
  rintro ⟨-, -, low, high⟩
  have top : btBoardHgt / 2 - btBottleY = 10 := rfl
  have bottom : btBoardHgt / 2 + btBottleY = 18 := rfl
  have tall : btBoardHgt = 28 := rfl
  omega

theorem holds_removeLine (tiling : Tiling I H Q) (standard : b.Standard)
    (holds : b.Holds I (b.isActive .bottle)) (line x1 x2 : Int) :
    (b.removeLine line x1 x2).Holds I (b.isActive .bottle) := by
  have half : btBoardHgt / 2 = 14 := rfl
  unfold removeLine
  dsimp only
  split
  · have rounds := forDown_invariant (n := line) (m := 0)
      (f := fun i => removeRound (b.isActive .force) line i (i - 1)
        (b.isActive .bottle && i ≤ btBoardHgt / 2 + btBottleY &&
          i ≥ btBoardHgt / 2 - btBottleY))
      (P := fun s : Board × Int × Int => Keeps b s.1 ∧ s.1.Holds I (b.isActive .bottle))
      (fun i s low high kept => ?_) (s := (b, x1, if x2 < 0 then b.width else x2))
      ⟨Keeps.refl b, holds⟩
    · split
      · exact rounds.2
      · exact tiling.holds_emptyRow rounds.2 fun x _ _ => not_walled_edge (.inl le_rfl)
    · obtain ⟨keeps, kept⟩ := kept
      refine ⟨keeps.trans (keeps_removeRound _ _ _ _ _ s), ?_⟩
      refine tiling.holds_removeRound kept (keeps.width.trans standard.width) ?_
      refine clear_of_rows fun stands wide => ?_
      simp only [stands, Bool.true_and, Bool.and_eq_false_iff, decide_eq_false_iff_not] at wide
      omega
  · have rounds := forRange_invariant (m := line) (n := b.height - 1)
      (f := fun i => removeRound (b.isActive .force) line i (i + 1)
        (b.isActive .bottle && i ≤ btBoardHgt / 2 + btBottleY &&
          i ≥ btBoardHgt / 2 - btBottleY - 1))
      (P := fun s : Board × Int × Int => Keeps b s.1 ∧ s.1.Holds I (b.isActive .bottle))
      (fun i s low high kept => ?_) (s := (b, x1, if x2 < 0 then b.width else x2))
      ⟨Keeps.refl b, holds⟩
    · split
      · exact rounds.2
      · refine tiling.holds_emptyRow rounds.2 fun x _ _ => not_walled_edge (.inr ?_)
        rw [rounds.1.height, standard.height]
    · obtain ⟨keeps, kept⟩ := kept
      refine ⟨keeps.trans (keeps_removeRound _ _ _ _ _ s), ?_⟩
      refine tiling.holds_removeRound kept (keeps.width.trans standard.width) ?_
      refine clear_of_rows fun stands wide => ?_
      simp only [stands, Bool.true_and, Bool.and_eq_false_iff, decide_eq_false_iff_not] at wide
      omega

theorem holds_frownRow (tiling : Tiling I H Q) (holds : b.Holds I f) (j : Int) :
    (b.frownRow j).Holds I f := by
  refine forRange_invariant (P := Holds I f) (fun i c _ _ holds => ?_) holds
  split
  · next d found =>
    split
    · refine Holds.congr (b := c.set i j (some d.landed)) ?_ (fun _ _ inside => inside)
        fun _ _ => rfl
      refine holds.set fun inside => tiling.wears .landed ?_
      rw [← found]
      exact holds i j inside
    · exact holds
  · exact holds

theorem holds_checkRows (tiling : Tiling I H Q) (fuel : Nat) (j value lines : Int)
    (standard : b.Standard) (holds : b.Holds I (b.isActive .bottle)) :
    (checkRows fuel j b value lines).1.Holds I (b.isActive .bottle) := by
  induction fuel generalizing j b value lines with
  | zero => exact holds
  | succ fuel ih =>
    unfold checkRows
    dsimp only
    split
    · split
      · have keeps := keeps_removeLine b j 0 b.width
        rw [← keeps.isActive]
        apply ih _ _ _ (standard.keeps keeps)
        rw [keeps.isActive]
        exact tiling.holds_removeLine standard holds j 0 b.width
      · have keeps := keeps_frownRow b j
        rw [← keeps.isActive]
        apply ih _ _ _ (standard.keeps keeps)
        rw [keeps.isActive]
        exact tiling.holds_frownRow holds j
    · exact holds

theorem tiled_removeLine (tiling : Tiling I H Q) (tiled : b.Tiled I) (line x1 x2 : Int) :
    (b.removeLine line x1 x2).Tiled I :=
  tiled.of_keeps (keeps_removeLine b line x1 x2)
    (tiling.holds_removeLine tiled.standard tiled.squares line x1 x2)

theorem tiled_checkLines (tiling : Tiling I H Q) (tiled : b.Tiled I) : b.checkLines.2.Tiled I := by
  have rows := tiling.holds_checkRows b.checkFuel (b.height - 1) 0 0 tiled.standard tiled.squares
  refine tiled.of_keeps (keeps_checkLines b) ?_
  unfold checkLines
  dsimp only
  generalize checkRows b.checkFuel (b.height - 1) b 0 0 = checked at rows ⊢
  split <;> split <;> exact rows

/-! ## Garbage -/

theorem holds_garbageRow (tiling : Tiling I H Q) (holds : b.Holds I f) {hole y x1 x2 : Int}
    (edge : y ≤ 0 ∨ btBoardHgt - 1 ≤ y) : (garbageRow hole y x1 x2 b).Holds I f := by
  refine forRange_invariant (P := Holds I f) (fun i c _ _ holds => ?_) holds
  split
  · exact holds.set fun _ => tiling.grows (not_walled_edge edge) (tiling.coloured _)
  · exact holds

theorem holds_insertRound (tiling : Tiling I H Q) {narrow : Bool} {i src : Int}
    {s : Board × Int × Int} (holds : s.1.Holds I f) (width : s.1.width = btBoardWth)
    (clear : Clear f narrow i src) : (insertRound i src narrow s).1.Holds I f := by
  unfold insertRound
  dsimp only
  rw [width]
  exact tiling.holds_shiftRow holds fun x low high => clear.free low high

theorem tiled_insertLine (tiling : Tiling I H Q) (tiled : b.Tiled I) (rng : Rng) :
    (b.insertLine rng).1.Tiled I := by
  have half : btBoardHgt / 2 = 14 := rfl
  refine tiled.of_keeps (keeps_insertLine b rng) ?_
  unfold insertLine
  dsimp only
  split
  · have rounds := forRange_invariant (m := 0) (n := b.height - 1)
      (f := fun i => insertRound i (i + 1)
        (b.isActive .bottle && i < btBoardHgt / 2 + btBottleY))
      (P := fun s : Board × Int × Int => Keeps b s.1 ∧ s.1.Holds I (b.isActive .bottle))
      (fun i s low high kept => ?_) (s := (b, 0, b.width)) ⟨Keeps.refl b, tiled.squares⟩
    · refine tiling.holds_garbageRow rounds.2 (.inr ?_)
      rw [rounds.1.height, tiled.standard.height]
    · obtain ⟨keeps, kept⟩ := kept
      refine ⟨keeps.trans (keeps_insertRound _ _ _ s), ?_⟩
      refine tiling.holds_insertRound kept (keeps.width.trans tiled.standard.width) ?_
      refine clear_of_rows fun stands wide => ?_
      simp only [stands, Bool.true_and, decide_eq_false_iff_not] at wide
      omega
  · have rounds := forDown_invariant (n := b.height - 1) (m := 0)
      (f := fun i => insertRound i (i - 1)
        (b.isActive .bottle && i ≥ btBoardHgt / 2 - btBottleY))
      (P := fun s : Board × Int × Int => Keeps b s.1 ∧ s.1.Holds I (b.isActive .bottle))
      (fun i s low high kept => ?_) (s := (b, 0, b.width)) ⟨Keeps.refl b, tiled.squares⟩
    · exact tiling.holds_garbageRow rounds.2 (.inl le_rfl)
    · obtain ⟨keeps, kept⟩ := kept
      refine ⟨keeps.trans (keeps_insertRound _ _ _ s), ?_⟩
      refine tiling.holds_insertRound kept (keeps.width.trans tiled.standard.width) ?_
      refine clear_of_rows fun stands wide => ?_
      simp only [stands, Bool.true_and, decide_eq_false_iff_not] at wide
      omega

/-! ## Weapons -/

theorem holds_swap (holds : b.Holds I f) {x y x' y' : Int}
    (there : b.inBounds x y = true → I f x y (b.get x' y'))
    (back : b.inBounds x' y' = true → I f x' y' (b.get x y)) : (b.swap x y x' y').Holds I f := by
  refine (holds.set there).set fun inside => ?_
  rw [(keeps_set b x y _).inBounds] at inside
  exact back inside

theorem tiled_flipHoriz (tiling : Tiling I H Q) (tiled : b.Tiled I) : b.flipHoriz.Tiled I := by
  have keeps := keeps_flipHoriz b
  refine tiled.of_keeps keeps fun x y inside => ?_
  rw [keeps.inBounds, Grid.inBounds_iff, tiled.standard.height] at inside
  rw [flipHoriz_get tiled.standard.width tiled.standard.height]
  have turned := tiling.turns (tiled.squares x (btBoardHgt - 1 - y) ?_)
  · rwa [sub_sub_cancel] at turned
  · rw [Grid.inBounds_iff, tiled.standard.height]
    omega

theorem tiled_flipVert (tiling : Tiling I H Q) (tiled : b.Tiled I) : b.flipVert.Tiled I := by
  refine tiled.of_keeps (keeps_flipVert b) ?_
  have sweep := forRange_invariant (m := 0) (n := b.width / 2)
    (f := fun i b => forRange 0 b.height (fun j b => b.swap (b.width - 1 - i) j i j) b)
    (P := fun c => Keeps b c ∧ c.Holds I (b.isActive .bottle)) (fun i c low high kept => ?_)
    ⟨Keeps.refl b, tiled.squares⟩
  · exact sweep.2
  · refine forRange_invariant (P := fun c => Keeps b c ∧ c.Holds I (b.isActive .bottle))
      (fun j d jlow jhigh kept => ?_) kept
    obtain ⟨still, holds⟩ := kept
    have wide : d.width = btBoardWth := still.width.trans tiled.standard.width
    have tall : c.height = d.height := kept.1.height.trans still.height.symm
    rw [tiled.standard.width] at high
    refine ⟨still.trans (keeps_swap d _ j i j), holds_swap holds (fun _ => ?_) fun _ => ?_⟩
    · rw [wide]
      refine tiling.mirrors (holds i j ?_)
      rw [Grid.inBounds_iff]
      omega
    · have mirrored := tiling.mirrors (holds (btBoardWth - 1 - i) j ?_)
      · rw [sub_sub_cancel] at mirrored
        rwa [wide]
      · rw [Grid.inBounds_iff]
        omega

theorem holds_mapSquares (holds : b.Holds I f) {φ : Option Cell → Option Cell}
    (fits : ∀ x y c, I f x y c → I f x y (φ c)) : (b.mapSquares φ).Holds I f := by
  refine forRange_invariant (P := Holds I f) (fun y c _ _ holds => ?_) holds
  refine forRange_invariant (P := Holds I f) (fun x d _ _ holds => ?_) holds
  exact holds.set fun inside => fits x y _ (holds x y inside)

theorem holds_plant (tiling : Tiling I H Q) (holds : b.Holds I f) (t : WeaponToken) (rng : Rng) :
    (b.plant t rng).1.Holds I f := by
  have drawn : b.occupied (b.drawFree rng).1.1 (b.drawFree rng).1.2 = false ∨
      (b.drawFree rng).1 = (0, 0) := by
    unfold drawFree
    cases found : tryPow b.drawSquare 48 rng with
    | inr rng => exact .inr rfl
    | inl a =>
      left
      refine (tryPow_invariant (P := fun _ => True)
        (Q := fun a : (Int × Int) × Rng => b.occupied a.1.1 a.1.2 = false)
        (fun s a _ step => ?_) (fun _ _ _ _ => trivial) 48 trivial).1 a found
      unfold drawSquare at step
      dsimp only at step
      split at step
      · cases step
      · next vacant =>
        cases step
        exact eq_false_of_ne_true vacant
  have square (k : Int) : (b.set (b.drawFree rng).1.1 (b.drawFree rng).1.2
      (some (Cell.color k))).Holds I f := by
    refine holds.set fun inside => ?_
    rcases drawn with vacant | origin
    · rcases free_cases vacant with ⟨-, empty⟩ | ⟨outside, -⟩
      · refine tiling.lands ?_ tiling.soft_none (tiling.coloured k)
        rw [← empty]
        exact holds _ _ inside
      · rw [inside] at outside
        cases outside
    · rw [origin]
      exact tiling.grows (not_walled_edge (.inl le_rfl)) (tiling.coloured k)
  unfold plant
  split
  · dsimp only
    split
    · exact square _
    · exact square _
  · exact holds

theorem holds_take (tiling : Tiling I H Q) (holds : b.Holds I f) {x y : Int}
    (loose : (b.get x y).any Cell.isRemovable = true) : (b.set x y none).Holds I f := by
  refine holds.set fun inside => tiling.takes (holds x y inside) ?_
  obtain ⟨c, found, loose⟩ := (Option.any_eq_true _ _).mp loose
  rw [found, isStruct_some]
  intro hard
  unfold Cell.isRemovable at loose
  rw [hard] at loose
  cases loose

theorem holds_takeOne (tiling : Tiling I H Q) (holds : b.Holds I f) (rng : Rng) :
    (b.takeOne rng).1.Holds I f := by
  unfold takeOne
  dsimp only
  split
  · next x y found =>
    refine tiling.holds_take holds ?_
    simpa only using List.find?_some found
  · exact holds

theorem holds_blindAll (tiling : Tiling I H Q) (holds : b.Holds I f) (rng : Rng) :
    (b.blindAll rng).1.Holds I f := by
  refine forRange_invariant (P := fun s : Board × Rng => s.1.Holds I f)
    (fun y s _ _ holds => ?_) holds
  refine forRange_invariant (P := fun s : Board × Rng => s.1.Holds I f)
    (fun x s _ _ holds => ?_) holds
  unfold blindSquare
  split
  · next loose =>
    dsimp only
    split
    · exact tiling.holds_take holds loose
    · exact holds
  · exact holds

theorem tiled_dropMiddle (tiling : Tiling I H Q) (tiled : b.Tiled I) : b.dropMiddle.Tiled I := by
  unfold dropMiddle
  exact forRange_invariant (P := Tiled I) (fun _ c _ _ tiled => tiling.tiled_removeLine tiled _ _ _)
    tiled

/-- The walls go up, or come down. -/
theorem holds_setWalls (tiling : Tiling I H Q) (standard : b.Standard) (holds : b.Holds I f)
    {on : Bool} {c : Option Cell} (fits : ∀ x y, IsWall x y → I on x y c) :
    (b.setWalls c).Holds I on := by
  have result := overwrites_setWalls c standard.width
  intro x y inside
  rw [result.keeps.inBounds] at inside
  by_cases wall : IsWall x y
  · rw [result.hit x y inside wall]
    exact fits x y wall
  · rw [result.miss x y wall]
    exact tiling.frees wall (holds x y inside)

theorem applyWeapon_bottle (b : Board) (rng : Rng) :
    (b.applyWeapon .bottle rng).1 = (b.setWalls (some Cell.struct)).checkLines.1 ∧
      (b.applyWeapon .bottle rng).2.1 = (b.setWalls (some Cell.struct)).checkLines.2 := by
  simp only [applyWeapon, and_self]

/-- The walls are planted under the flag of the Bottle. -/
theorem tiled_walls (tiling : Tiling I H Q) (tiled : b.Tiled I) :
    ((b.setActive .bottle true).setWalls (some Cell.struct)).Tiled I := by
  have on : (b.setActive .bottle true).isActive .bottle = true :=
    (ActiveFlags.isActive_set ..).trans (if_pos rfl)
  have standard : (b.setActive .bottle true).Standard := tiled.standard
  have squares : (b.setActive .bottle true).Holds I (b.isActive .bottle) := tiled.squares
  generalize b.setActive .bottle true = c at on standard squares ⊢
  have raised := keeps_setWalls (some Cell.struct) c
  refine ⟨standard.keeps raised, ?_⟩
  rw [raised.isActive, on]
  exact tiling.holds_setWalls standard squares fun x y wall => tiling.walls wall

theorem tiled_applyWeapon (tiling : Tiling I H Q) (tiled : b.Tiled I) (t : WeaponToken)
    (rng : Rng) :
    ((b.setActive t true).applyWeapon t rng).2.1.Tiled I := by
  rcases eq_or_ne t .bottle with rfl | other
  · rw [(applyWeapon_bottle (b.setActive .bottle true) rng).2]
    exact tiling.tiled_checkLines (tiling.tiled_walls tiled)
  have armed : (b.setActive t true).Tiled I := by
    refine ⟨tiled.standard, ?_⟩
    rw [show (b.setActive t true).isActive .bottle = b.isActive .bottle from
      (ActiveFlags.isActive_set ..).trans (if_neg other.symm)]
    exact tiled.squares
  generalize b.setActive t true = c at armed ⊢
  cases t with
  | upbyside =>
    change ((if ¬c.upside ∧ ¬c.computer then c.flipHoriz else c).setUpside true).Tiled I
    split
    · obtain ⟨standard, squares⟩ := tiling.tiled_flipHoriz armed
      exact ⟨standard, squares⟩
    · exact ⟨armed.standard, armed.squares⟩
  | pieceIt => exact armed.of_keeps (keeps_plant ..) (tiling.holds_plant armed.squares _ _)
  | bug => exact armed.of_keeps (keeps_plant ..) (tiling.holds_plant armed.squares _ _)
  | missing => exact armed.of_keeps (keeps_takeOne ..) (tiling.holds_takeOne armed.squares _)
  | blind => exact armed.of_keeps (keeps_blindAll ..) (tiling.holds_blindAll armed.squares _)
  | gimp =>
    refine armed.of_keeps (keeps_mapSquares ..)
      (holds_mapSquares armed.squares fun x y d fits => ?_)
    rcases d with _ | d
    · exact fits
    · exact tiling.wears .gimped fits
  | twilight =>
    refine armed.of_keeps (keeps_mapSquares ..)
      (holds_mapSquares armed.squares fun x y d fits => ?_)
    rcases d with _ | d
    · exact fits
    · exact tiling.wears .hidden fits
  | flipOut => exact tiling.tiled_flipVert armed
  | fallOut => exact tiling.tiled_dropMiddle armed
  | bottle => exact absurd rfl other
  | riseUp => exact tiling.tiled_insertLine armed rng
  | _ => exact armed

theorem tiled_revertWeapon (tiling : Tiling I H Q) (tiled : b.Tiled I) (t : WeaponToken) :
    ((b.revertWeapon t).setActive t false).Tiled I := by
  rcases eq_or_ne t .bottle with rfl | other
  · have opened (x y : Int) (_ : IsWall x y) : I false x y none :=
      tiling.empties fun wall => Bool.false_ne_true wall.1
    have standard := tiled.standard.keeps (keeps_setWalls none b)
    have squares := tiling.holds_setWalls tiled.standard tiled.squares opened
    rw [revertWeapon_bottle]
    generalize b.setWalls none = c at standard squares ⊢
    have off : (c.setActive .bottle false).isActive .bottle = false :=
      (ActiveFlags.isActive_set ..).trans (if_pos rfl)
    refine ⟨standard, ?_⟩
    rw [off]
    exact squares
  have flag : ((b.revertWeapon t).setActive t false).isActive .bottle =
      (b.revertWeapon t).isActive .bottle :=
    (ActiveFlags.isActive_set ..).trans (if_neg other.symm)
  have reverted : (b.revertWeapon t).Tiled I := by
    cases t with
    | upbyside =>
      change (if ¬(b.setUpside false).computer then (b.setUpside false).flipHoriz
        else b.setUpside false).Tiled I
      have upright : (b.setUpside false).Tiled I := ⟨tiled.standard, tiled.squares⟩
      split
      · exact tiling.tiled_flipHoriz upright
      · exact upright
    | bottle => exact absurd rfl other
    | _ => exact tiled
  refine ⟨reverted.standard, ?_⟩
  rw [flag]
  exact reverted.squares

/-! ## Landing -/

/-- Squares that a piece may cover take its cells. -/
theorem holds_fill (tiling : Tiling I H Q) {c : Cell} (plain : Q c) {x y : Int}
    (holds : b.Holds I f) (soft : ¬H (b.get x y)) : (b.fill x y c).Holds I f := by
  unfold fill
  split
  · next inside =>
    refine Holds.congr (b := b.set x y (some c)) ?_ (fun _ _ inside => inside) fun _ _ => rfl
    exact holds.set fun inside => tiling.lands (holds x y inside) soft plain
  · exact holds

theorem soft_fill (tiling : Tiling I H Q) {c : Cell} (plain : Q c) {x y x' y' : Int}
    (soft : ¬H (b.get x' y')) : ¬H ((b.fill x y c).get x' y') := by
  unfold fill
  split
  · change ¬H ((b.set x y (some c)).get x' y')
    rw [get_set]
    split
    · exact tiling.plain plain
    · exact soft
  · exact soft

theorem holds_land (tiling : Tiling I H Q) {p : Piece} (holds : b.Holds I f)
    (cells : ∀ i j c, p.cells i j = some c → Q c ∧ ¬H (b.get (p.x + i) (p.y + j))) :
    (p.land b).Holds I f := by
  let P (c : Board) : Prop := c.Holds I f ∧
    (∀ x y, ¬H (b.get x y) → ¬H (c.get x y)) ∧ ∀ x y, c.inBounds x y = b.inBounds x y
  have square (c : Board) (i j : Fin btPieceWidth) (kept : P c) : P (p.landSquare c i j) := by
    obtain ⟨holds, soft, bounds⟩ := kept
    unfold Piece.landSquare
    cases filled : p.cells i j with
    | none => exact ⟨holds, soft, bounds⟩
    | some d =>
      obtain ⟨plain, free⟩ := cells i j d filled
      refine ⟨tiling.holds_fill plain holds (soft _ _ free),
        fun x y loose => tiling.soft_fill plain (soft x y loose), fun x y => ?_⟩
      refine Eq.trans ?_ (bounds x y)
      dsimp only
      unfold fill
      split
      · exact (keeps_set c _ _ _).inBounds x y
      · rfl
  have filled : P ((List.finRange btPieceWidth).foldl (fun b i =>
      (List.finRange btPieceWidth).foldl (fun b j => p.landSquare b i j) b) b) := by
    refine foldl_invariant (P := P) (fun i _ c kept => ?_) ⟨holds, fun _ _ => id, fun _ _ => rfl⟩
    exact foldl_invariant (P := P) (fun j _ c kept => square c i j kept) kept
  obtain ⟨landed, -, bounds⟩ := filled
  refine landed.congr (fun x y inside => ?_) fun x y => landed_get _ _ _ _ _
  rw [bounds, ← inside]
  exact ((p.keeps_land b).inBounds x y).symm

theorem tiled_land (tiling : Tiling I H Q) {p : Piece} (tiled : b.Tiled I)
    (cells : ∀ i j c, p.cells i j = some c → Q c ∧ ¬H (b.get (p.x + i) (p.y + j))) :
    (p.land b).Tiled I := by
  have drained : Tiled I { b with newFill := [] } :=
    ⟨⟨tiled.standard.width, tiled.standard.height, tiled.standard.computer, rfl⟩, tiled.squares⟩
  exact drained.of_keeps (p.keeps_land b) (tiling.holds_land tiled.squares cells)

/-- A square that a piece may not cover is blocked. -/
theorem footing (tiling : Tiling I H Q) : Footing Q fun b x y => H (b.get x y) where
  shaped := tiling.shaped
  blocked {b x y} taken := by
    obtain ⟨c, found, -⟩ := Option.map_eq_some_iff.mp (tiling.hard taken)
    by_contra free
    rcases free_cases (eq_false_of_ne_true free) with ⟨-, empty⟩ | ⟨outside, -⟩
    · rw [empty] at found
      cases found
    · rw [get_of_not_inBounds (b := b) (by rw [outside]; exact Bool.false_ne_true)] at found
      cases found

end Tiling

end BattleTris
