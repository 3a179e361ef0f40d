import BattleTris.Core.Gliding

/-!
The piece in play and the squares under it.

`Stands` is the invariant of play: the game and its piece agree on the origin, and the
piece fills no square of a kind that is never free.  Moves and turns test the squares they
enter; the weapons change the board between two pieces only.
-/

namespace BattleTris

open Loop

namespace Board

/-- A free square is empty, or lies off the board under Fall Out. -/
theorem free_cases {b : Board} {x y : Int} (free : b.occupied x y = false) :
    (b.inBounds x y = true ∧ b.get x y = none) ∨
      (b.inBounds x y = false ∧ b.isActive .fallOut = true) := by
  unfold occupied at free
  by_cases inside : b.inBounds x y = true
  · refine .inl ⟨inside, ?_⟩
    obtain ⟨x0, xw, y0, yh⟩ := Grid.inBounds_iff.mp inside
    split at free
    · rw [if_neg (by omega)] at free
      simpa using free
    · rw [if_neg (by omega)] at free
      by_cases filled : (b.get x y).isSome = true
      · rw [if_pos ⟨yh, y0, filled⟩] at free
        cases free
      · simpa using filled
  · refine .inr ⟨by simpa using inside, ?_⟩
    rw [Grid.inBounds_iff] at inside
    by_contra shut
    rw [if_pos shut, if_pos (by omega)] at free
    cases free

/-- The landing bookkeeping moves no square. -/
theorem landed_get (b : Board) (x y x' y' : Int) : (b.landed x y).get x' y' = b.get x' y' := by
  have marked (c : Board) (cx cy : Int) : (c.landedAt cx cy).get x' y' = c.get x' y' := by
    unfold landedAt
    dsimp only
    generalize (if c.isActive .upbyside then cy + 1 else cy - 1) = top
    split <;> rfl
  have swept : (forRange 0 btPieceWidth (fun i b =>
      forRange 0 btPieceWidth (fun j b => b.landedAt (x + i) (y + j)) b) b).get x' y' =
        b.get x' y' := by
    refine forRange_invariant (P := fun c : Board => c.get x' y' = b.get x' y')
      (fun i c _ _ kept => ?_) rfl
    exact forRange_invariant (P := fun c : Board => c.get x' y' = b.get x' y')
      (fun j c _ _ kept => (marked c _ _).trans kept) kept
  unfold landed
  generalize forRange 0 btPieceWidth (fun i b =>
    forRange 0 btPieceWidth (fun j b => b.landedAt (x + i) (y + j)) b) b = c at swept
  exact swept

end Board

namespace Piece

/-- The squares the piece fills are free on the board. -/
def Free (p : Piece) (b : Board) : Prop :=
  ∀ i j, (p.cells i j).isSome = true → b.occupied (p.x + i) (p.y + j) = false

/-! ### Turning -/

/-- A piece turned over the same origin, into squares that were its own or free. -/
def Turned (p q : Piece) (b : Board) : Prop :=
  q.x = p.x ∧ q.y = p.y ∧ ∀ i j, (q.cells i j).isSome = true →
    (p.cells i j).isSome = true ∨ b.occupied (p.x + i) (p.y + j) = false

theorem Turned.free {p q : Piece} {b : Board} (turned : Turned p q b) (free : p.Free b) :
    q.Free b := by
  obtain ⟨x, y, squares⟩ := turned
  intro i j filled
  rw [x, y]
  rcases squares i j filled with mine | entered
  · exact free i j mine
  · exact entered

theorem turned_refl (p : Piece) (b : Board) : Turned p p b :=
  ⟨rfl, rfl, fun _ _ filled => .inl filled⟩

theorem turned_generic (p : Piece) (b : Board) (reverse : Bool) :
    Turned p (p.rotateGeneric b reverse).2 b := by
  unfold rotateGeneric
  split
  · exact turned_refl p b
  split
  · exact turned_refl p b
  next untouched =>
    refine ⟨rfl, rfl, fun i j filled => ?_⟩
    by_cases inner : i < p.rot ∧ j < p.rot
    · -- the test covers the whole sub-square that turns
      right
      by_contra blocked
      apply untouched
      apply List.any_eq_true.mpr
      refine ⟨i, List.mem_finRange i, List.any_eq_true.mpr ⟨j, List.mem_finRange j, ?_⟩⟩
      have shown : (p.turned reverse i j).isSome = true := filled
      simp [inner.1, inner.2, shown, eq_true_of_ne_false blocked]
    · left
      have still : p.turned reverse i j = p.cells i j := by
        unfold turned
        exact if_neg inner
      rwa [← still]

/-- Moved arms fill their old squares and the squares they enter. -/
theorem moveArms_filled {cells : Fin btPieceWidth → Fin btPieceWidth → Option Cell}
    {arms : List Arm} {i j : Fin btPieceWidth}
    (filled : (moveArms cells arms i j).isSome = true) :
    (cells i j).isSome = true ∨ ∃ arm ∈ arms, arm.2 = (i, j) := by
  induction arms generalizing cells with
  | nil => exact .inl filled
  | cons arm arms ih =>
    obtain ⟨src, dst⟩ := arm
    rcases ih filled with carried | ⟨arm, mem, enters⟩
    · dsimp only at carried
      split at carried
      · cases carried
      · split at carried
        · next hit => exact .inr ⟨(src, dst), List.mem_cons_self, hit.symm⟩
        · exact .inl carried
    · exact .inr ⟨arm, List.mem_cons_of_mem _ mem, enters⟩

/-- A bespoke rotation tested the squares its arms enter. -/
theorem turned_arms {p : Piece} {b : Board} {arms : List Arm} (state orientation : Int)
    (room : ¬p.armsBlocked b arms = true) :
    Turned p { p with
      cells := moveArms p.cells arms, state := state, orientation := orientation } b := by
  refine ⟨rfl, rfl, fun i j filled => ?_⟩
  rcases moveArms_filled filled with mine | ⟨arm, mem, enters⟩
  · exact .inl mine
  · right
    by_contra blocked
    apply room
    apply List.any_eq_true.mpr
    refine ⟨arm, mem, ?_⟩
    rw [enters]
    exact eq_true_of_ne_false blocked

theorem turned_rotate (p : Piece) (b : Board) (reverse : Bool) :
    Turned p (p.rotate b reverse).2 b := by
  unfold rotate
  split
  · unfold rotateWall
    dsimp only
    split
    · exact turned_refl p b
    · next room => exact turned_arms _ _ room
  · unfold rotateStar
    dsimp only
    split
    · exact turned_refl p b
    · next room => exact turned_arms _ p.orientation room
  · unfold rotateWeirding
    dsimp only
    split
    · exact turned_refl p b
    · next room => exact turned_arms _ _ room
  · exact turned_generic p b reverse

/-- Moved arms carry cells of the piece. -/
theorem moveArms_cells {cells : Fin btPieceWidth → Fin btPieceWidth → Option Cell}
    {arms : List Arm} {i j : Fin btPieceWidth} {c : Cell}
    (found : moveArms cells arms i j = some c) : ∃ i' j', cells i' j' = some c := by
  induction arms generalizing cells with
  | nil => exact ⟨i, j, found⟩
  | cons arm arms ih =>
    obtain ⟨src, dst⟩ := arm
    obtain ⟨i', j', carried⟩ := ih found
    dsimp only at carried
    split at carried
    · cases carried
    · split at carried
      · exact ⟨src.1, src.2, carried⟩
      · exact ⟨i', j', carried⟩

/-- A turned piece is made of its own cells. -/
theorem rotate_cells {p : Piece} {b : Board} {reverse : Bool} {i j : Fin btPieceWidth} {c : Cell}
    (found : (p.rotate b reverse).2.cells i j = some c) : ∃ i' j', p.cells i' j' = some c := by
  unfold rotate at found
  split at found
  · unfold rotateWall at found
    dsimp only at found
    split at found
    · exact ⟨i, j, found⟩
    · exact moveArms_cells found
  · unfold rotateStar at found
    dsimp only at found
    split at found
    · exact ⟨i, j, found⟩
    · exact moveArms_cells found
  · unfold rotateWeirding at found
    dsimp only at found
    split at found
    · exact ⟨i, j, found⟩
    · exact moveArms_cells found
  · unfold rotateGeneric at found
    split at found
    · exact ⟨i, j, found⟩
    split at found
    · exact ⟨i, j, found⟩
    · change p.turned reverse i j = some c at found
      unfold turned at found
      split at found
      · split at found
        · exact ⟨_, _, found⟩
        · exact ⟨_, _, found⟩
      · exact ⟨i, j, found⟩

/-! ### Landing -/

/-- A landing that writes to empty squares of the board only, and leaves every cell that
was there. -/
structure LandsClean (p : Piece) (b : Board) : Prop where
  /-- Each square of the piece is empty, or off the board under Fall Out. -/
  squares : ∀ i j, (p.cells i j).isSome = true →
    (b.inBounds (p.x + i) (p.y + j) = true ∧ b.get (p.x + i) (p.y + j) = none) ∨
      (b.inBounds (p.x + i) (p.y + j) = false ∧ b.isActive .fallOut = true)
  /-- A square that changes was empty, and the piece fills it. -/
  writes : ∀ x y, (p.land b).get x y ≠ b.get x y → b.get x y = none ∧
    ∃ i j, (p.cells i j).isSome = true ∧ x = p.x + i ∧ y = p.y + j
  kept : ∀ x y c, b.get x y = some c → (p.land b).get x y = some c

/-- What landing a piece changes lies under the piece and on the board. -/
theorem land_writes {p : Piece} {b : Board} {x y : Int}
    (changed : (p.land b).get x y ≠ b.get x y) :
    b.inBounds x y = true ∧
      ∃ i j, (p.cells i j).isSome = true ∧ x = p.x + i ∧ y = p.y + j := by
  let P (c : Board) : Prop := (c.inBounds x y = b.inBounds x y) ∧
    (c.get x y ≠ b.get x y → b.inBounds x y = true ∧
      ∃ i j, (p.cells i j).isSome = true ∧ x = p.x + i ∧ y = p.y + j)
  have square (c : Board) (i j : Fin btPieceWidth) (kept : P c) : P (p.landSquare c i j) := by
    unfold landSquare
    cases filled : p.cells i j with
    | none => exact kept
    | some cell =>
      dsimp only
      unfold Board.fill
      split
      · next inside =>
        refine ⟨?_, fun differs => ?_⟩
        · rw [← kept.1]
          exact (Board.keeps_set c _ _ _).inBounds x y
        · by_cases hit : x = p.x + i ∧ y = p.y + j
          · refine ⟨?_, i, j, by rw [filled]; rfl, hit⟩
            rw [← kept.1, hit.1, hit.2]
            exact inside
          · apply kept.2
            intro same
            apply differs
            exact (Board.get_set_ne hit (some cell)).trans same
      · exact kept
  have filled : P ((List.finRange btPieceWidth).foldl (fun b i =>
      (List.finRange btPieceWidth).foldl (fun b j => p.landSquare b i j) b) b) := by
    refine foldl_invariant (P := P) (fun i _ c kept => ?_) ⟨rfl, fun differs => absurd rfl differs⟩
    exact foldl_invariant (P := P) (fun j _ c kept => square c i j kept) kept
  apply filled.2
  intro same
  apply changed
  unfold land
  dsimp only
  rw [Board.landed_get]
  exact same

/-- A piece over free squares overwrites nothing. -/
theorem Free.landsClean {p : Piece} {b : Board} (free : p.Free b) : p.LandsClean b := by
  have empty (x y : Int) (changed : (p.land b).get x y ≠ b.get x y) : b.get x y = none := by
    obtain ⟨inside, i, j, filled, rfl, rfl⟩ := land_writes changed
    rcases Board.free_cases (free i j filled) with ⟨-, none⟩ | ⟨out, -⟩
    · exact none
    · rw [inside] at out
      cases out
  constructor
  · exact fun i j filled => Board.free_cases (free i j filled)
  · exact fun x y changed => ⟨empty x y changed, (land_writes changed).2⟩
  · intro x y c there
    by_contra gone
    have none := empty x y fun same => gone (same.trans there)
    rw [there] at none
    cases none

end Piece

/-- `Q` holds of the cells that fresh pieces are made of, and a square of `S` is never
free. -/
structure Footing (Q : Cell → Prop) (S : Board → Int → Int → Prop) : Prop where
  shaped : ∀ pips kind, Q (Piece.shape pips kind).cell
  blocked : ∀ {b x y}, S b x y → b.occupied x y = true

namespace Game

/-- The piece in play sits where the game says, over free squares only. -/
def Unobstructed (g : Game) : Prop :=
  ∀ p, g.current = some p → p.x = g.x ∧ p.y = g.y ∧ p.Free g.board

/-- The piece in play sits where the game says; its cells are in `Q`, and none of its
squares is in `S`. -/
def Stands (Q : Cell → Prop) (S : Board → Int → Int → Prop) (g : Game) : Prop :=
  ∀ p, g.current = some p → p.x = g.x ∧ p.y = g.y ∧
    ∀ i j c, p.cells i j = some c → Q c ∧ ¬S g.board (p.x + i) (p.y + j)

/-- Blocked squares are never free. -/
theorem footing_blocked : Footing (fun _ => True) fun b x y => b.occupied x y = true where
  shaped _ _ := trivial
  blocked := id

theorem unobstructed_iff {g : Game} :
    g.Unobstructed ↔ g.Stands (fun _ => True) fun b x y => b.occupied x y = true := by
  refine forall₂_congr fun p _ => and_congr_right fun _ => and_congr_right fun _ => ?_
  constructor
  · intro free i j c found
    have vacant := free i j (by rw [found]; rfl)
    exact ⟨trivial, ne_true_of_eq_false vacant⟩
  · intro stands i j filled
    obtain ⟨c, found⟩ := Option.isSome_iff_exists.mp filled
    exact eq_false_of_ne_true (stands i j c found).2

namespace Stands

variable {Q : Cell → Prop} {S : Board → Int → Int → Prop} {g : Game}

/-- The invariant reads the board, the piece and the origin. -/
theorem congr {h : Game} (stands : g.Stands Q S) (board : h.board = g.board)
    (current : h.current = g.current) (x : h.x = g.x) (y : h.y = g.y) : h.Stands Q S := by
  intro p playing
  rw [current] at playing
  rw [board, x, y]
  exact stands p playing

theorem of_none (none : g.current = none) : g.Stands Q S := by
  intro p playing
  rw [none] at playing
  cases playing

/-- A piece that fits avoids the squares that are never free. -/
theorem of_room (footing : Footing Q S) {p : Piece} {b : Board} {x y : Int}
    (made : ∀ i j c, p.cells i j = some c → Q c) (room : p.canMoveTo b x y = true) :
    ∀ i j c, p.cells i j = some c → Q c ∧ ¬S b (x + i) (y + j) := by
  intro i j c found
  refine ⟨made i j c found, fun taken => ?_⟩
  have free := Piece.canMoveTo_iff.mp room i j (by rw [found]; rfl)
  rw [footing.blocked taken] at free
  cases free

theorem carry (footing : Footing Q S) (stands : g.Stands Q S) {p : Piece}
    (playing : g.current = some p) {dx dy : Int}
    (room : p.canMoveTo g.board (g.x + dx) (g.y + dy) = true) : (g.carry p dx dy).Stands Q S := by
  obtain ⟨-, -, cells⟩ := stands p playing
  intro q moved
  cases moved
  exact ⟨rfl, rfl, of_room footing (fun i j c found => (cells i j c found).1) room⟩

theorem spawn (footing : Footing Q S) (g : Game) : g.spawn.Stands Q S := by
  have fresh (i j : Fin btPieceWidth) (c : Cell)
      (found : (g.pieces.create g.rng g.defX g.defY).1.cells i j = some c) : Q c := by
    obtain ⟨kind, x, y, pips, made⟩ : ∃ kind x y pips,
        (g.pieces.create g.rng g.defX g.defY).1 = Piece.construct kind x y pips := by
      unfold PieceManager.create
      dsimp only
      split <;> exact ⟨_, _, _, _, rfl⟩
    rw [made] at found
    unfold Piece.construct at found
    dsimp only at found
    split at found
    · cases found
      exact footing.shaped pips kind
    · cases found
  unfold Game.spawn Game.enterPiece
  dsimp only
  split
  · next room =>
    intro q playing
    cases playing
    exact ⟨rfl, rfl, of_room footing fresh room⟩
  · exact of_none rfl

theorem lockAndSpawn (footing : Footing Q S) (g : Game) (p : Piece) :
    (g.lockAndSpawn p).Stands Q S := by
  have spawned := spawn footing (g.lockPiece p).flushPending
  unfold Game.lockAndSpawn
  generalize (g.lockPiece p).flushPending.spawn = h at spawned
  exact spawned

theorem rotateInternal (footing : Footing Q S) (stands : g.Stands Q S) :
    g.rotateInternal.Stands Q S := by
  intro q playing
  obtain ⟨p, current, rfl⟩ := Option.map_eq_some_iff.mp playing
  obtain ⟨x, y, cells⟩ := stands p current
  have turned := p.turned_rotate g.board false
  refine ⟨turned.1.trans x, turned.2.1.trans y, fun i j c found => ?_⟩
  obtain ⟨i', j', mine⟩ := Piece.rotate_cells found
  refine ⟨(cells i' j' c mine).1, ?_⟩
  rw [turned.1, turned.2.1]
  rcases turned.2.2 i j (by rw [found]; rfl) with held | entered
  · obtain ⟨d, before⟩ := Option.isSome_iff_exists.mp held
    exact (cells i j d before).2
  · intro taken
    have shut : g.board.occupied (p.x + i) (p.y + j) = true := footing.blocked taken
    rw [entered] at shut
    cases shut

theorem dropStep (footing : Footing Q S) (stands : g.Stands Q S) : g.dropStep.Stands Q S := by
  unfold Game.dropStep
  cases current : g.current with
  | none => exact stands
  | some p =>
    dsimp only
    split
    · next room =>
      apply carry footing stands current
      rwa [add_zero]
    · exact stands

theorem slickStep (footing : Footing Q S) (stands : g.Stands Q S) : g.slickStep.Stands Q S := by
  unfold Game.slickStep
  cases current : g.current with
  | none => exact stands
  | some p =>
    dsimp only
    split
    · next room =>
      apply carry footing stands current
      rwa [add_zero]
    · exact stands

theorem place (footing : Footing Q S) (stands : g.Stands Q S) : (g.place false).Stands Q S := by
  cases current : g.current with
  | none =>
    have idle : g.place false = g := by
      unfold Game.place
      rw [current]
    rwa [idle]
  | some p =>
    unfold Game.place
    rw [current]
    dsimp only
    split
    · have spawned := lockAndSpawn footing { g with current := none } p
      generalize Game.lockAndSpawn { g with current := none } p = h at spawned
      exact spawned
    · next room =>
      have falls : p.canMoveTo g.board (g.x + 0) (g.y + g.deltaY) = true := by
        rw [add_zero]
        by_contra shut
        exact room (.inl shut)
      exact carry footing stands current falls

/-! ### The clock -/

theorem tickHatter (footing : Footing Q S) (stands : g.Stands Q S) (dt : Int) :
    (g.tickHatter dt).Stands Q S := by
  unfold Game.tickHatter
  split
  · refine whileN_invariant (P := Stands Q S) (fun s _ stands => ?_) _ stands
    exact rotateInternal (g := { s with hatterAccum := s.hatterAccum - 20 }) footing stands
  · exact stands

theorem tickSlick (footing : Footing Q S) (stands : g.Stands Q S) (dt : Int) :
    (g.tickSlick dt).Stands Q S := by
  unfold Game.tickSlick
  split
  · refine whileN_invariant (P := Stands Q S) (fun s _ stands => ?_) _ stands
    exact slickStep (g := { s with slickAccum := s.slickAccum - 20 }) footing stands
  · exact stands

theorem tickWeapons (footing : Footing Q S) (stands : g.Stands Q S) (dt : Int) :
    (g.tickWeapons dt).Stands Q S :=
  (stands.tickHatter footing dt).tickSlick footing dt

theorem tickFalling (footing : Footing Q S) (stands : g.Stands Q S) (dt : Int) :
    (g.tickFalling dt).Stands Q S := by
  unfold Game.tickFalling
  refine whileN_invariant (P := Stands Q S) (fun s _ stands => ?_) _ stands
  exact dropStep (g := { s with dropAccum := s.dropAccum - _ }) footing stands

theorem tickSliding (footing : Footing Q S) (stands : g.Stands Q S) (dt : Int) :
    (g.tickSliding dt).Stands Q S := by
  unfold Game.tickSliding
  dsimp only
  split
  · exact place (g := { g with slideAccum := g.slideAccum + dt }) footing stands
  · refine whileN_invariant (P := Stands Q S) (fun s _ stands => ?_) _ stands
    exact place (g := { s with slideAccum := s.slideAccum - _ }) footing stands

theorem tick (footing : Footing Q S) (stands : g.Stands Q S) (dt : Int) :
    (g.tick dt).Stands Q S := by
  have timed := stands.tickWeapons footing dt
  unfold Game.tick
  split
  · exact stands
  dsimp only
  rcases (g.tickWeapons dt).phase with _ | _ | _
  · exact timed.tickFalling footing dt
  · exact timed.tickSliding footing dt
  · exact timed

/-! ### Inputs -/

theorem shift (footing : Footing Q S) (stands : g.Stands Q S) (dx : Int) :
    (g.shift dx).Stands Q S := by
  unfold Game.shift
  split
  · exact stands
  cases current : g.current with
  | none => exact stands
  | some p =>
    dsimp only
    split
    · next room =>
      apply carry (g := g.steer) footing stands current
      rw [add_zero]
      exact room
    · exact stands

theorem rotate (footing : Footing Q S) (stands : g.Stands Q S) : g.rotate.Stands Q S := by
  unfold Game.rotate
  split
  · exact stands
  · exact stands.rotateInternal footing

theorem dropFor (stands : g.Stands Q S) (bonus : Int) : (g.dropFor bonus).Stands Q S := by
  have engaged : g.engageFastDrop.2.Stands Q S := by
    unfold Game.engageFastDrop
    split
    · exact stands
    dsimp only
    split <;> exact stands
  unfold Game.dropFor
  dsimp only
  split <;> exact engaged

theorem softDrop (footing : Footing Q S) (stands : g.Stands Q S) : g.softDrop.Stands Q S := by
  unfold Game.softDrop
  split
  · exact stands
  · exact stands.dropStep footing

theorem launchWeapon (stands : g.Stands Q S) (slot : Nat) : (g.launchWeapon slot).Stands Q S := by
  unfold Game.launchWeapon
  split
  · exact stands
  split <;> exact stands

theorem updateBazaar (stands : g.Stands Q S) : g.updateBazaar.Stands Q S := by
  unfold Game.updateBazaar
  dsimp only
  split <;> exact stands

/-- The opponent's score reaches the board through Lawyers alone. -/
theorem receiveOpScore {opScore opLines opFunds : Int}
    (raised : ((g.mirrorScore opScore opFunds).raiseStack (opLines - g.score.opLines)).Stands Q S) :
    (g.receiveOpScore opScore opLines opFunds).Stands Q S := by
  unfold Game.receiveOpScore
  dsimp only
  generalize (g.mirrorScore opScore opFunds).raiseStack (opLines - g.score.opLines) = h at raised
  exact updateBazaar (g := h.setOpLines opLines) raised

theorem raiseStack_idle (stands : g.Stands Q S) (spared : g.weaponActive .lawyers = false)
    (opScore opFunds lines : Int) :
    ((g.mirrorScore opScore opFunds).raiseStack lines).Stands Q S := by
  unfold raiseStack
  have flag : (g.mirrorScore opScore opFunds).weapons.isActive .lawyers = false := spared
  rw [flag]
  exact stands

theorem addFunds (stands : g.Stands Q S) (amount : Int) : (g.addFunds amount).Stands Q S := by
  unfold Game.addFunds
  split <;> exact stands

theorem buyWeapon (stands : g.Stands Q S) (t : WeaponToken) : (g.buyWeapon t).2.Stands Q S := by
  unfold Game.buyWeapon
  split
  · exact stands
  dsimp only
  split
  · exact stands
  split <;> exact stands

theorem sellWeapon (stands : g.Stands Q S) (t : WeaponToken) : (g.sellWeapon t).2.Stands Q S := by
  unfold Game.sellWeapon
  split
  · exact stands
  dsimp only
  split <;> exact stands

end Stands

end Game

end BattleTris
