import BattleTris.Core.Board

/-!
What the board operations do, square by square, and what they leave alone.
-/

namespace BattleTris

open Loop

namespace Board

/-! ## Squares -/

@[simp] theorem set_width (b : Board) (x y : Int) (c : Option Cell) :
    (b.set x y c).width = b.width :=
  Grid.set_width b.toGrid x y c

@[simp] theorem set_height (b : Board) (x y : Int) (c : Option Cell) :
    (b.set x y c).height = b.height :=
  Grid.set_height b.toGrid x y c

theorem get_set (b : Board) (x y : Int) (c : Option Cell) (x' y' : Int) :
    (b.set x y c).get x' y' =
      if b.inBounds x y ∧ x' = x ∧ y' = y then c else b.get x' y' :=
  Grid.get_set b.toGrid x y c x' y'

theorem get_set_self {b : Board} {x y : Int} (inside : b.inBounds x y = true)
    (c : Option Cell) : (b.set x y c).get x y = c :=
  Grid.get_set_self inside c

theorem get_set_ne {b : Board} {x y x' y' : Int} (apart : ¬(x' = x ∧ y' = y))
    (c : Option Cell) : (b.set x y c).get x' y' = b.get x' y' :=
  Grid.get_set_ne apart c

theorem get_of_not_inBounds {b : Board} {x y : Int} (out : ¬b.inBounds x y = true) :
    b.get x y = none :=
  Grid.get_of_not_inBounds out

theorem get_setActive (b : Board) (t : WeaponToken) (on : Bool) (x y : Int) :
    (b.setActive t on).get x y = b.get x y := rfl

theorem revertWeapon_bottle (b : Board) : b.revertWeapon .bottle = b.setWalls none := rfl

/-! ## What stays -/

/-- `b'` differs from `b` at most in its squares and its idiot state. -/
structure Keeps (b b' : Board) : Prop where
  width : b'.width = b.width
  height : b'.height = b.height
  active : b'.active = b.active
  upside : b'.upside = b.upside
  computer : b'.computer = b.computer
  newFill : b'.newFill = b.newFill

theorem Keeps.refl (b : Board) : Keeps b b := ⟨rfl, rfl, rfl, rfl, rfl, rfl⟩

theorem Keeps.trans {b b' b'' : Board} (left : Keeps b b') (right : Keeps b' b'') :
    Keeps b b'' :=
  ⟨right.width.trans left.width, right.height.trans left.height,
    right.active.trans left.active, right.upside.trans left.upside,
    right.computer.trans left.computer, right.newFill.trans left.newFill⟩

/-- The idiot state is no part of it. -/
theorem Keeps.marked {b b' : Board} (keeps : Keeps b b') (idiot : Bool) (reason : Int) :
    Keeps b { b' with idiot := idiot, reason := reason } :=
  ⟨keeps.width, keeps.height, keeps.active, keeps.upside, keeps.computer, keeps.newFill⟩

theorem Keeps.inBounds {b b' : Board} (keeps : Keeps b b') (x y : Int) :
    b'.inBounds x y = b.inBounds x y := by
  simp only [Grid.inBounds, keeps.width, keeps.height]

theorem keeps_set (b : Board) (x y : Int) (c : Option Cell) : Keeps b (b.set x y c) :=
  ⟨set_width b x y c, set_height b x y c, rfl, rfl, rfl, rfl⟩

theorem Keeps.set {b b' : Board} (keeps : Keeps b b') (x y : Int) (c : Option Cell) :
    Keeps b (b'.set x y c) :=
  keeps.trans (keeps_set b' x y c)

/-- A loop whose body keeps the frame keeps it. -/
theorem keeps_forRange {lo hi : Int} {body : Int → Board → Board}
    (step : ∀ i b, Keeps b (body i b)) (b : Board) : Keeps b (forRange lo hi body b) :=
  forRange_invariant (fun i b' _ _ keeps => keeps.trans (step i b')) (Keeps.refl b)

theorem keeps_swap (b : Board) (x1 y1 x2 y2 : Int) : Keeps b (b.swap x1 y1 x2 y2) :=
  (keeps_set b x1 y1 _).set x2 y2 _

theorem keeps_clearRow (line x1 x2 : Int) (b : Board) : Keeps b (clearRow line x1 x2 b) := by
  refine keeps_forRange (fun j b => ?_) b
  split
  · exact keeps_set b j line none
  · exact Keeps.refl b

theorem keeps_shiftRow (i src x1 x2 : Int) (b : Board) : Keeps b (shiftRow i src x1 x2 b) :=
  keeps_forRange (fun j b => (keeps_set b j i _).set j src none) b

theorem keeps_emptyRow (y x1 x2 : Int) (b : Board) : Keeps b (emptyRow y x1 x2 b) :=
  keeps_forRange (fun j b => keeps_set b j y none) b

theorem keeps_removeRound (force : Bool) (line i src : Int) (narrow : Bool)
    (s : Board × Int × Int) : Keeps s.1 (removeRound force line i src narrow s).1 := by
  obtain ⟨b, x1, x2⟩ := s
  unfold removeRound
  dsimp only
  split
  · split
    · exact keeps_clearRow line _ _ b
    · exact Keeps.refl b
  · exact keeps_shiftRow i src _ _ b

theorem keeps_removeLine (b : Board) (line x1 x2 : Int) : Keeps b (b.removeLine line x1 x2) := by
  unfold removeLine
  dsimp only
  split
  · have rounds := forDown_invariant (n := line) (m := 0)
      (P := fun s : Board × Int × Int => Keeps b s.1)
      (fun i s _ _ keeps => keeps.trans (keeps_removeRound (b.isActive .force) line i (i - 1)
        (b.isActive .bottle && i ≤ btBoardHgt / 2 + btBottleY &&
          i ≥ btBoardHgt / 2 - btBottleY) s))
      (s := (b, x1, if x2 < 0 then b.width else x2)) (Keeps.refl b)
    split
    · exact rounds
    · exact rounds.trans (keeps_emptyRow _ _ _ _)
  · have rounds := forRange_invariant (m := line) (n := b.height - 1)
      (P := fun s : Board × Int × Int => Keeps b s.1)
      (fun i s _ _ keeps => keeps.trans (keeps_removeRound (b.isActive .force) line i (i + 1)
        (b.isActive .bottle && i ≤ btBoardHgt / 2 + btBottleY &&
          i ≥ btBoardHgt / 2 - btBottleY - 1) s))
      (s := (b, x1, if x2 < 0 then b.width else x2)) (Keeps.refl b)
    split
    · exact rounds
    · exact rounds.trans (keeps_emptyRow _ _ _ _)

theorem keeps_frownRow (b : Board) (j : Int) : Keeps b (b.frownRow j) := by
  refine keeps_forRange (fun i b => ?_) b
  split
  · split
    · exact (keeps_set b i j _).marked true _
    · exact Keeps.refl b
  · exact Keeps.refl b

theorem keeps_checkRows (fuel : Nat) (j : Int) (b : Board) (value lines : Int) :
    Keeps b (checkRows fuel j b value lines).1 := by
  induction fuel generalizing j b value lines with
  | zero => exact Keeps.refl b
  | succ fuel ih =>
    unfold checkRows
    dsimp only
    split
    · split
      · exact (keeps_removeLine b j 0 b.width).trans (ih _ _ _ _)
      · exact (keeps_frownRow b j).trans (ih _ _ _ _)
    · exact Keeps.refl b

theorem keeps_checkLines (b : Board) : Keeps b b.checkLines.2 := by
  have rows := keeps_checkRows b.checkFuel (b.height - 1) b 0 0
  unfold checkLines
  dsimp only
  generalize checkRows b.checkFuel (b.height - 1) b 0 0 = checked at rows ⊢
  have gauged (near : Prop) [Decidable near] : Keeps b
      (if near then { checked.1 with idiot := true, reason := btNearDeath } else checked.1) := by
    split
    · exact rows.marked true _
    · exact rows
  split
  · exact gauged _
  · exact (gauged _).marked false _

theorem keeps_garbageRow (hole y x1 x2 : Int) (b : Board) :
    Keeps b (garbageRow hole y x1 x2 b) := by
  refine keeps_forRange (fun i b => ?_) b
  split
  · exact keeps_set b i y _
  · exact Keeps.refl b

theorem keeps_insertRound (i src : Int) (narrow : Bool) (s : Board × Int × Int) :
    Keeps s.1 (insertRound i src narrow s).1 :=
  keeps_shiftRow i src _ _ s.1

theorem keeps_insertLine (b : Board) (rng : Rng) : Keeps b (b.insertLine rng).1 := by
  unfold insertLine
  dsimp only
  split
  · refine Keeps.trans ?_ (keeps_garbageRow _ _ _ _ _)
    exact forRange_invariant (P := fun s : Board × Int × Int => Keeps b s.1)
      (fun i s _ _ keeps => keeps.trans (keeps_insertRound i (i + 1) _ s)) (Keeps.refl b)
  · refine Keeps.trans ?_ (keeps_garbageRow _ _ _ _ _)
    exact forDown_invariant (P := fun s : Board × Int × Int => Keeps b s.1)
      (fun i s _ _ keeps => keeps.trans (keeps_insertRound i (i - 1) _ s)) (Keeps.refl b)

theorem keeps_setWalls (c : Option Cell) (b : Board) : Keeps b (b.setWalls c) :=
  keeps_forRange (fun x b =>
    keeps_forRange (fun y b => (keeps_set b x y c).set (b.width - x - 1) y c) b) b

theorem keeps_flipHoriz (b : Board) : Keeps b b.flipHoriz :=
  keeps_forRange (fun i b => keeps_forRange (fun j b => keeps_swap b j i j _) b) b

theorem keeps_flipVert (b : Board) : Keeps b b.flipVert :=
  keeps_forRange (fun i b => keeps_forRange (fun j b => keeps_swap b _ j i j) b) b

theorem keeps_mapSquares (f : Option Cell → Option Cell) (b : Board) :
    Keeps b (b.mapSquares f) :=
  keeps_forRange (fun y b => keeps_forRange (fun x b => keeps_set b x y _) b) b

theorem Keeps.setUpside {b b' : Board} (keeps : Keeps b b') (upside : Bool) :
    Keeps (b.setUpside upside) (b'.setUpside upside) :=
  ⟨keeps.width, keeps.height, keeps.active, rfl, keeps.computer, keeps.newFill⟩

theorem keeps_plant (b : Board) (t : WeaponToken) (rng : Rng) : Keeps b (b.plant t rng).1 := by
  unfold plant
  split
  · dsimp only
    split <;> exact keeps_set b _ _ _
  · exact Keeps.refl b

theorem keeps_takeOne (b : Board) (rng : Rng) : Keeps b (b.takeOne rng).1 := by
  unfold takeOne
  dsimp only
  split
  · exact keeps_set b _ _ none
  · exact Keeps.refl b

theorem keeps_blindSquare (y x : Int) (s : Board × Rng) : Keeps s.1 (blindSquare y x s).1 := by
  unfold blindSquare
  split
  · dsimp only
    split
    · exact keeps_set s.1 x y none
    · exact Keeps.refl s.1
  · exact Keeps.refl s.1

theorem keeps_blindAll (b : Board) (rng : Rng) : Keeps b (b.blindAll rng).1 := by
  refine forRange_invariant (P := fun s : Board × Rng => Keeps b s.1) (fun y s _ _ keeps => ?_)
    (Keeps.refl b)
  exact forRange_invariant (P := fun s : Board × Rng => Keeps b s.1)
    (fun x s _ _ keeps => keeps.trans (keeps_blindSquare y x s)) keeps

theorem keeps_dropMiddle (b : Board) : Keeps b b.dropMiddle := by
  unfold dropMiddle
  exact keeps_forRange (fun _ c => keeps_removeLine c _ _ _) b

/-- Upbyside alone turns the board's mark. -/
theorem keeps_applyWeapon (b : Board) (t : WeaponToken) (rng : Rng) :
    Keeps (b.setUpside (b.upside || t = .upbyside)) (b.applyWeapon t rng).2.1 := by
  have other {c : Board} (keeps : Keeps b c) : Keeps (b.setUpside (b.upside || false)) c := by
    rw [Bool.or_false]
    exact keeps
  cases t with
  | upbyside =>
    rw [decide_eq_true rfl, Bool.or_true]
    refine Keeps.setUpside (b := b) ?_ true
    split
    · exact keeps_flipHoriz b
    · exact Keeps.refl b
  | pieceIt => exact other (keeps_plant b .pieceIt rng)
  | bug => exact other (keeps_plant b .bug rng)
  | missing => exact other (keeps_takeOne b rng)
  | blind => exact other (keeps_blindAll b rng)
  | gimp => exact other (keeps_mapSquares _ b)
  | twilight => exact other (keeps_mapSquares _ b)
  | flipOut => exact other (keeps_flipVert b)
  | fallOut => exact other (keeps_dropMiddle b)
  | bottle =>
    simp only [applyWeapon]
    exact other ((keeps_setWalls (some Cell.struct) b).trans
      (keeps_checkLines (b.setWalls (some Cell.struct))))
  | riseUp => exact other (keeps_insertLine b rng)
  | _ => exact other (Keeps.refl b)

theorem keeps_revertWeapon (b : Board) (t : WeaponToken) :
    Keeps (b.setUpside (b.upside && t ≠ .upbyside)) (b.revertWeapon t) := by
  have other {c : Board} (keeps : Keeps b c) : Keeps (b.setUpside (b.upside && true)) c := by
    rw [Bool.and_true]
    exact keeps
  cases t with
  | upbyside =>
    have turned : Keeps (b.setUpside false) (b.revertWeapon .upbyside) := by
      unfold revertWeapon
      dsimp only
      split
      · exact keeps_flipHoriz _
      · exact Keeps.refl _
    simpa using turned
  | bottle => exact other (keeps_setWalls none b)
  | _ => exact other (Keeps.refl b)

theorem keeps_landedAt (b : Board) (x y : Int) : Keeps b (b.landedAt x y) := by
  unfold landedAt
  dsimp only
  by_cases upbyside : b.isActive .upbyside = true
  · rw [if_pos upbyside]
    split
    · exact (Keeps.refl b).marked true _
    · exact Keeps.refl b
  · rw [if_neg upbyside]
    split
    · exact (Keeps.refl b).marked true _
    · exact Keeps.refl b

/-- Landing drains the fill list and keeps the rest of the frame. -/
theorem keeps_landed (b : Board) (x y : Int) :
    Keeps { b with newFill := [] } (b.landed x y) := by
  have keeps : Keeps b (forRange 0 btPieceWidth (fun i b =>
      forRange 0 btPieceWidth (fun j b => b.landedAt (x + i) (y + j)) b) b) :=
    keeps_forRange (fun i b => keeps_forRange (fun j b => keeps_landedAt b _ _) b) b
  generalize swept : forRange 0 btPieceWidth (fun i b =>
    forRange 0 btPieceWidth (fun j b => b.landedAt (x + i) (y + j)) b) b = c at keeps
  have drained : b.landed x y = { c with newFill := [] } := by
    unfold landed
    rw [swept]
  rw [drained]
  exact ⟨keeps.width, keeps.height, keeps.active, keeps.upside, keeps.computer, rfl⟩

/-! ## Overwriting squares -/

/-- `b'` holds `F` on the squares `S` of the board and is `b` elsewhere. -/
structure Overwrites (S : Int → Int → Prop) (F : Int → Int → Option Cell) (b b' : Board) :
    Prop where
  keeps : Keeps b b'
  hit : ∀ x y, b.inBounds x y = true → S x y → b'.get x y = F x y
  miss : ∀ x y, ¬S x y → b'.get x y = b.get x y

/-- Each round of a loop overwrites its own squares; it may rely on what the rounds
before it did. -/
theorem overwrites_forRange {m n : Int} {f : Int → Board → Board}
    {S : Int → Int → Int → Prop} {F : Int → Int → Option Cell} {b : Board} (le : m ≤ n)
    (step : ∀ i c, m ≤ i → i < n →
      Overwrites (fun x y => ∃ k, m ≤ k ∧ k < i ∧ S k x y) F b c →
      Overwrites (S i) F c (f i c)) :
    Overwrites (fun x y => ∃ k, m ≤ k ∧ k < n ∧ S k x y) F b (forRange m n f b) := by
  refine forRange_induct (P := fun i c =>
    Overwrites (fun x y => ∃ k, m ≤ k ∧ k < i ∧ S k x y) F b c) le ?_ ?_
  · intro i c low high before
    obtain ⟨keeps, hit, miss⟩ := step i c low high before
    refine ⟨before.keeps.trans keeps, fun x y inside written => ?_, fun x y fresh => ?_⟩
    · have here : c.inBounds x y = true := by rw [before.keeps.inBounds]; exact inside
      obtain ⟨k, klow, khigh, square⟩ := written
      by_cases now : S i x y
      · exact hit x y here now
      · have earlier : k < i := by
          rcases eq_or_ne k i with rfl | apart
          · exact absurd square now
          · omega
        rw [miss x y now]
        exact before.hit x y inside ⟨k, klow, earlier, square⟩
    · rw [miss x y fun now => fresh ⟨i, low, by omega, now⟩]
      exact before.miss x y fun ⟨k, klow, khigh, square⟩ => fresh ⟨k, klow, by omega, square⟩
  · refine ⟨Keeps.refl b, ?_, fun _ _ _ => rfl⟩
    rintro x y - ⟨k, low, high, -⟩
    omega

theorem overwrites_set (b : Board) (x y : Int) (F : Int → Int → Option Cell) :
    Overwrites (fun x' y' => x' = x ∧ y' = y) F b (b.set x y (F x y)) := by
  refine ⟨keeps_set b x y _, ?_, fun x' y' apart => get_set_ne apart _⟩
  rintro x' y' inside ⟨rfl, rfl⟩
  exact get_set_self inside _

theorem Overwrites.congr {S S' : Int → Int → Prop} {F F' : Int → Int → Option Cell}
    {b b' : Board} (result : Overwrites S F b b')
    (squares : ∀ x y, b.inBounds x y = true → (S' x y ↔ S x y))
    (values : ∀ x y, b.inBounds x y = true → S x y → F' x y = F x y) :
    Overwrites S' F' b b' := by
  refine ⟨result.keeps, fun x y inside written => ?_, fun x y fresh => ?_⟩
  · have square := (squares x y inside).mp written
    rw [result.hit x y inside square, values x y inside square]
  · by_cases inside : b.inBounds x y = true
    · exact result.miss x y fun square => fresh ((squares x y inside).mpr square)
    · have outside : ¬b'.inBounds x y = true := by rw [result.keeps.inBounds]; exact inside
      rw [get_of_not_inBounds inside, get_of_not_inBounds outside]

/-- One overwrite after another. -/
theorem Overwrites.trans {S S' : Int → Int → Prop} {F : Int → Int → Option Cell}
    {b c d : Board} (first : Overwrites S F b c) (second : Overwrites S' F c d) :
    Overwrites (fun x y => S x y ∨ S' x y) F b d := by
  refine ⟨first.keeps.trans second.keeps, fun x y inside written => ?_, fun x y fresh => ?_⟩
  · by_cases now : S' x y
    · exact second.hit x y (by rw [first.keeps.inBounds]; exact inside) now
    · rw [second.miss x y now]
      exact first.hit x y inside (written.resolve_right now)
  · rw [second.miss x y fun now => fresh (.inr now), first.miss x y fun now => fresh (.inl now)]

/-- A row-by-row rewrite visits every square once. -/
theorem sweep_spec (F : Int → Int → Option Cell → Option Cell) {b : Board}
    (wpos : 0 ≤ b.width) (hpos : 0 ≤ b.height) :
    let swept := forRange 0 b.height (fun y d =>
      forRange 0 b.width (fun x d => d.set x y (F x y (d.get x y))) d) b
    Keeps b swept ∧ ∀ x y, swept.get x y = if b.inBounds x y then F x y (b.get x y) else none := by
  intro swept
  have result : Overwrites (fun x y => ∃ j, 0 ≤ j ∧ j < b.height ∧ y = j)
      (fun x y => F x y (b.get x y)) b swept := by
    refine overwrites_forRange hpos fun j c low high before => ?_
    have row := overwrites_forRange (m := 0) (n := b.width) (b := c)
      (f := fun x d => d.set x j (F x j (d.get x j)))
      (S := fun i x y => x = i ∧ y = j) (F := fun x y => F x y (b.get x y)) wpos ?_
    · refine row.congr (fun x y inside => ?_) fun _ _ _ _ => rfl
      rw [before.keeps.inBounds, Grid.inBounds_iff] at inside
      constructor
      · rintro rfl
        exact ⟨x, inside.1, inside.2.1, rfl, rfl⟩
      · rintro ⟨i, -, -, -, rfl⟩
        rfl
    · intro i d ilow ihigh columns
      -- the square about to be rewritten still holds its first value
      have fresh : d.get i j = b.get i j := by
        rw [columns.miss i j (by rintro ⟨k, -, less, rfl, -⟩; omega),
          before.miss i j (by rintro ⟨k, -, less, rfl⟩; omega)]
      rw [fresh]
      exact overwrites_set d i j fun x y => F x y (b.get x y)
  refine ⟨result.keeps, fun x y => ?_⟩
  by_cases inside : b.inBounds x y = true
  · obtain ⟨-, -, y0, yh⟩ := Grid.inBounds_iff.mp inside
    rw [if_pos inside, result.hit x y inside ⟨y, y0, yh, rfl⟩]
  · have outside : ¬swept.inBounds x y = true := by rw [result.keeps.inBounds]; exact inside
    rw [if_neg inside, get_of_not_inBounds outside]

/-! ## Walls and mirrors -/

/-- The squares of a standard board that the Bottle's walls take. -/
def IsWall (x y : Int) : Prop :=
  (x < btBottleX ∨ btBoardWth - btBottleX ≤ x) ∧
    btBoardHgt / 2 - btBottleY ≤ y ∧ y < btBoardHgt / 2 + btBottleY

instance (x y : Int) : Decidable (IsWall x y) := by
  unfold IsWall
  infer_instance

theorem overwrites_setWalls (c : Option Cell) {b : Board} (width : b.width = btBoardWth) :
    Overwrites IsWall (fun _ _ => c) b (b.setWalls c) := by
  have whole := overwrites_forRange (m := 0) (n := btBottleX) (b := b)
    (f := fun x b => forRange (btBoardHgt / 2 - btBottleY) (btBoardHgt / 2 + btBottleY)
      (fun y b => (b.set x y c).set (b.width - x - 1) y c) b)
    (S := fun i x y => ∃ k, btBoardHgt / 2 - btBottleY ≤ k ∧ k < btBoardHgt / 2 + btBottleY ∧
      ((x = i ∧ y = k) ∨ (x = btBoardWth - i - 1 ∧ y = k)))
    (F := fun _ _ => c) (by decide) ?_
  · refine whole.congr (fun x y inside => ?_) fun _ _ _ _ => rfl
    rw [Grid.inBounds_iff, width] at inside
    unfold IsWall
    constructor
    · rintro ⟨columns, low, high⟩
      rcases columns with left | right
      · exact ⟨x, inside.1, left, y, low, high, .inl ⟨rfl, rfl⟩⟩
      · exact ⟨btBoardWth - 1 - x, by omega, by omega, y, low, high, .inr ⟨by omega, rfl⟩⟩
    · rintro ⟨i, ilow, ihigh, k, klow, khigh, ⟨rfl, rfl⟩ | ⟨rfl, rfl⟩⟩
      · exact ⟨.inl ihigh, klow, khigh⟩
      · exact ⟨.inr (by omega), klow, khigh⟩
  · intro i d _ _ before
    refine overwrites_forRange (by decide) fun k e _ _ above => ?_
    have wide : e.width = btBoardWth := (before.keeps.trans above.keeps).width.trans width
    rw [wide]
    exact (overwrites_set e i k fun _ _ => c).trans
      (overwrites_set (e.set i k c) (btBoardWth - i - 1) k fun _ _ => c)

/-- Exchanging two squares. -/
theorem overwrites_swap {b : Board} {x y y' : Int} (inside : b.inBounds x y = true)
    (inside' : b.inBounds x y' = true) :
    Overwrites (fun u v => u = x ∧ (v = y ∨ v = y'))
      (fun u v => b.get u (y + y' - v)) b (b.swap x y x y') := by
  refine ⟨keeps_swap b x y x y', ?_, ?_⟩
  · rintro u v - ⟨rfl, rfl | rfl⟩
    · unfold swap
      rw [get_set, get_set]
      by_cases same : v = y'
      · subst same
        rw [if_pos ⟨by rwa [(keeps_set b u v _).inBounds], rfl, rfl⟩]
        congr 1
        omega
      · rw [if_neg (fun h => same h.2.2), if_pos ⟨inside, rfl, rfl⟩]
        congr 1
        omega
    · unfold swap
      rw [get_set_self (by rwa [(keeps_set b u y _).inBounds])]
      congr 1
      omega
  · intro u v apart
    unfold swap
    rw [get_set_ne (fun h => apart ⟨h.1, .inr h.2⟩), get_set_ne (fun h => apart ⟨h.1, .inl h.2⟩)]

/-- Flipping a standard board turns it upside down. -/
theorem flipHoriz_get {b : Board} (width : b.width = btBoardWth)
    (height : b.height = btBoardHgt) (x y : Int) :
    b.flipHoriz.get x y = b.get x (btBoardHgt - 1 - y) := by
  have result := overwrites_forRange (m := 0) (n := b.height / 2) (b := b)
    (f := fun i b => forRange 0 b.width (fun j b => b.swap j i j (b.height - 1 - i)) b)
    (S := fun i _ y => y = i ∨ y = btBoardHgt - 1 - i)
    (F := fun x y => b.get x (btBoardHgt - 1 - y)) (by rw [height]; decide) ?_
  · by_cases inside : b.inBounds x y = true
    · obtain ⟨-, -, y0, yh⟩ := Grid.inBounds_iff.mp inside
      rw [height] at yh
      refine result.hit x y inside ?_
      rw [height]
      have half : btBoardHgt / 2 = 14 := rfl
      have whole : btBoardHgt = 28 := rfl
      rcases lt_or_ge y 14 with top | bottom
      · exact ⟨y, y0, by omega, .inl rfl⟩
      · exact ⟨btBoardHgt - 1 - y, by omega, by omega, .inr (by omega)⟩
    · have outside : ¬b.flipHoriz.inBounds x y = true := by
        rw [(keeps_flipHoriz b).inBounds]
        exact inside
      have beyond : ¬b.inBounds x (btBoardHgt - 1 - y) = true := by
        rw [Grid.inBounds_iff, height] at inside ⊢
        omega
      rw [get_of_not_inBounds outside, get_of_not_inBounds beyond]
  · intro i c low high before
    rw [height] at high
    have row := overwrites_forRange (m := 0) (n := c.width) (b := c)
      (f := fun j b => b.swap j i j (b.height - 1 - i))
      (S := fun j x y => x = j ∧ (y = i ∨ y = btBoardHgt - 1 - i))
      (F := fun x y => b.get x (btBoardHgt - 1 - y))
      (by rw [before.keeps.width, width]; decide) ?_
    · refine row.congr (fun x y inside => ?_) fun _ _ _ _ => rfl
      obtain ⟨x0, xw, -, -⟩ := Grid.inBounds_iff.mp inside
      constructor
      · intro rows
        exact ⟨x, x0, xw, rfl, rows⟩
      · rintro ⟨j, -, -, rfl, rows⟩
        exact rows
    · intro j d jlow jhigh columns
      have keeps := before.keeps.trans columns.keeps
      have tall : d.height = btBoardHgt := keeps.height.trans height
      rw [before.keeps.width, width] at jhigh
      have fresh (v : Int) (pair : v = i ∨ v = btBoardHgt - 1 - i) : d.get j v = b.get j v := by
        rw [columns.miss j v (by rintro ⟨k, -, less, rfl, -⟩; omega),
          before.miss j v (by rintro ⟨k, -, less, same⟩; omega)]
      have square (v : Int) (pair : v = i ∨ v = btBoardHgt - 1 - i) : d.inBounds j v = true := by
        rw [keeps.inBounds, Grid.inBounds_iff, width, height]
        omega
      rw [tall]
      refine (overwrites_swap (square i (.inl rfl)) (square _ (.inr rfl))).congr
        (fun _ _ _ => Iff.rfl) ?_
      rintro u v - ⟨rfl, pair⟩
      rw [fresh (i + (btBoardHgt - 1 - i) - v) (by omega)]
      congr 1
      omega

end Board

end BattleTris
