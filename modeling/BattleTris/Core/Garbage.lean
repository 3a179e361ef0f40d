import BattleTris.Core.Overlap

/-!
What garbage rows make of a board, square by square, and which squares they leave free.

A row lifts the stack by one (`riseOf`), except in the columns beside the bottle's neck and
all the way past it (`Sheltered`), which stay.
-/

namespace BattleTris

open Loop

namespace Board

/-! ## One row after another -/

/-- The squares a row moves: all the columns, or those of the neck. -/
def Moves (narrow : Bool) (x : Int) : Prop :=
  narrow = true → btBottleX ≤ x ∧ x < btBoardWth - btBottleX

instance (narrow : Bool) (x : Int) : Decidable (Moves narrow x) := by
  unfold Moves
  infer_instance

theorem overwrites_shiftRow {b : Board} {i src x1 x2 : Int} (apart : i ≠ src) (le : x1 ≤ x2)
    (inside : ∀ x, x1 ≤ x → x < x2 → b.inBounds x i = true ∧ b.inBounds x src = true) :
    Overwrites (fun x y => x1 ≤ x ∧ x < x2 ∧ (y = i ∨ y = src))
      (fun x y => if y = i then b.get x src else none) b (shiftRow i src x1 x2 b) := by
  have whole := overwrites_forRange (m := x1) (n := x2) (b := b)
    (f := fun j b => (b.set j i (b.get j src)).set j src none)
    (S := fun j x y => x = j ∧ (y = i ∨ y = src))
    (F := fun x y => if y = i then b.get x src else none) le ?_
  · refine whole.congr (fun x y _ => ?_) fun _ _ _ _ => rfl
    constructor
    · rintro ⟨low, high, rows⟩
      exact ⟨x, low, high, rfl, rows⟩
    · rintro ⟨j, low, high, rfl, rows⟩
      exact ⟨low, high, rows⟩
  · intro j c low high before
    have fresh : c.get j src = b.get j src :=
      before.miss j src (by rintro ⟨k, -, less, rfl, -⟩; omega)
    obtain ⟨top, bottom⟩ := inside j low high
    rw [← before.keeps.inBounds] at top bottom
    refine ⟨(keeps_set c j i _).set j src none, ?_, ?_⟩
    · rintro x y - ⟨rfl, rfl | rfl⟩
      · rw [get_set_ne (fun h => apart h.2), get_set_self top, if_pos rfl, fresh]
      · rw [get_set_self (by rwa [(keeps_set c x i _).inBounds]), if_neg (Ne.symm apart)]
    · intro x y miss
      rw [get_set_ne (fun h => miss ⟨h.1, .inr h.2⟩), get_set_ne (fun h => miss ⟨h.1, .inl h.2⟩)]

/-- One round carries row `src` into row `i`, over the columns it takes. -/
theorem overwrites_insertRound {b : Board} {i src : Int} (standard : b.Standard)
    (apart : i ≠ src) (here : 0 ≤ i ∧ i < btBoardHgt) (there : 0 ≤ src ∧ src < btBoardHgt)
    (narrow : Bool) (columns : Int × Int) :
    Overwrites (fun x y => Moves narrow x ∧ (y = i ∨ y = src))
      (fun x y => if y = i then b.get x src else none) b
      (insertRound i src narrow (b, columns)).1 := by
  have bounds (x y : Int) (row : 0 ≤ y ∧ y < btBoardHgt) (x0 : 0 ≤ x) (xw : x < btBoardWth) :
      b.inBounds x y = true := by
    rw [Grid.inBounds_iff, standard.width, standard.height]
    exact ⟨x0, xw, row⟩
  have neck : btBottleX = 3 := rfl
  have wide : btBoardWth = 10 := rfl
  cases narrow with
  | true =>
    have round := overwrites_shiftRow (b := b) apart
      (by decide : btBottleX ≤ btBoardWth - btBottleX)
      fun x low high => ⟨bounds x i here (by omega) (by omega),
        bounds x src there (by omega) (by omega)⟩
    unfold insertRound
    dsimp only
    rw [standard.width]
    refine round.congr (fun x y _ => ?_) fun _ _ _ _ => rfl
    unfold Moves
    constructor
    · rintro ⟨moves, rows⟩
      exact ⟨(moves rfl).1, (moves rfl).2, rows⟩
    · rintro ⟨low, high, rows⟩
      exact ⟨fun _ => ⟨low, high⟩, rows⟩
  | false =>
    have round := overwrites_shiftRow (b := b) apart (by decide : (0 : Int) ≤ btBoardWth)
      fun x low high => ⟨bounds x i here low high, bounds x src there low high⟩
    unfold insertRound
    dsimp only
    rw [standard.width]
    refine round.congr (fun x y inside => ?_) fun _ _ _ _ => rfl
    rw [Grid.inBounds_iff, standard.width] at inside
    constructor
    · rintro ⟨-, rows⟩
      exact ⟨inside.1, inside.2.1, rows⟩
    · rintro ⟨-, -, rows⟩
      exact ⟨fun neck => absurd neck Bool.false_ne_true, rows⟩

/-- The board part of a pass of rounds over the rows `row 0`, `row 1`, and so on. -/
def liftRows (row : Nat → Int) (narrow : Nat → Bool) (n : Nat) (s : Board × Int × Int) :
    Board × Int × Int :=
  (List.range n).foldl (fun s k => insertRound (row k) (row (k + 1)) (narrow k) s) s

theorem liftRows_succ (row : Nat → Int) (narrow : Nat → Bool) (n : Nat)
    (s : Board × Int × Int) :
    liftRows row narrow (n + 1) s =
      insertRound (row n) (row (n + 1)) (narrow n) (liftRows row narrow n s) := by
  unfold liftRows
  rw [List.range_succ, List.foldl_append, List.foldl_cons, List.foldl_nil]

/-- The rows below `m` have moved, row `m` is empty where the last round took it, and the
rows past it are still to come. -/
structure Lifted (row : Nat → Int) (narrow : Nat → Bool) (b : Board) (m : Nat)
    (s : Board × Int × Int) : Prop where
  keeps : Keeps b s.1
  moved : ∀ k x, k < m → 0 ≤ x → x < btBoardWth →
    s.1.get x (row k) = if Moves (narrow k) x then b.get x (row (k + 1)) else b.get x (row k)
  taken : ∀ x, 0 ≤ x → x < btBoardWth →
    s.1.get x (row m) = if 0 < m ∧ Moves (narrow (m - 1)) x then none else b.get x (row m)
  untouched : ∀ k x, m < k → k < 28 → s.1.get x (row k) = b.get x (row k)
  columns : 0 < m → narrow (m - 1) = false → s.2 = (0, btBoardWth)

theorem lifted_liftRows {row : Nat → Int} {narrow : Nat → Bool} {b : Board}
    (standard : b.Standard) (rows : ∀ k < 28, 0 ≤ row k ∧ row k < btBoardHgt)
    (apart : ∀ j k, j < 28 → k < 28 → row j = row k → j = k)
    (widening : ∀ k, narrow (k + 1) = true → narrow k = true) (m : Nat) (short : m < 28)
    (s : Board × Int × Int) (start : s.1 = b) :
    Lifted row narrow b m (liftRows row narrow m s) := by
  induction m with
  | zero =>
    have same : (liftRows row narrow 0 s).1 = b := start
    constructor
    · rw [same]
      exact Keeps.refl b
    · intro k x below
      omega
    · intro x _ _
      rw [same, if_neg (by omega)]
    · intro k x _ _
      rw [same]
    · omega
  | succ m ih =>
    have before := ih (by omega)
    rw [liftRows_succ]
    generalize liftRows row narrow m s = t at before
    obtain ⟨c, columns⟩ := t
    have after : c.Standard := standard.keeps before.keeps
    have differ {j k : Nat} (jless : j < 28) (kless : k < 28) (ne : j ≠ k) : row j ≠ row k :=
      fun same => ne (apart j k jless kless same)
    have round := overwrites_insertRound after (differ (by omega) short (by omega))
      (rows m (by omega)) (rows (m + 1) short) (narrow m) columns
    have wide : (insertRound (row m) (row (m + 1)) (narrow m) (c, columns)).2 =
        if narrow m then (btBottleX, btBoardWth - btBottleX) else (0, btBoardWth) := by
      unfold insertRound
      dsimp only
      rw [after.width]
      cases narrow m <;> rfl
    generalize insertRound (row m) (row (m + 1)) (narrow m) (c, columns) = t at round wide
    have inside (x : Int) (k : Nat) (x0 : 0 ≤ x) (xw : x < btBoardWth) (less : k < 28) :
        c.inBounds x (row k) = true := by
      rw [Grid.inBounds_iff, after.width, after.height]
      exact ⟨x0, xw, rows k less⟩
    constructor
    · exact before.keeps.trans round.keeps
    · intro k x below x0 xw
      rcases Nat.lt_succ_iff_lt_or_eq.mp below with earlier | rfl
      · -- a row of an earlier round
        have missed := round.miss x (row k) (by
          rintro ⟨-, same | same⟩
          · exact differ (by omega) (by omega) (by omega) same
          · exact differ (by omega) short (by omega) same)
        rw [missed]
        exact before.moved k x earlier x0 xw
      · by_cases moves : Moves (narrow k) x
        · rw [if_pos moves, round.hit x (row k) (inside x k x0 xw (by omega)) ⟨moves, .inl rfl⟩,
            if_pos rfl]
          exact before.untouched (k + 1) x (by omega) short
        · have missed := round.miss x (row k) fun h => moves h.1
          rw [if_neg moves, missed, before.taken x x0 xw]
          -- the rounds only widen, so the last one left this column too
          rw [if_neg]
          rintro ⟨positive, took⟩
          apply moves
          intro neck
          refine took (widening (k - 1) ?_)
          rwa [show k - 1 + 1 = k by omega]
    · intro x x0 xw
      rw [Nat.add_sub_cancel]
      by_cases moves : Moves (narrow m) x
      · have emptied := round.hit x (row (m + 1)) (inside x (m + 1) x0 xw short) ⟨moves, .inr rfl⟩
        rw [if_neg (differ short (by omega) (by omega))] at emptied
        have took : 0 < m + 1 ∧ Moves (narrow m) x := ⟨by omega, moves⟩
        rw [if_pos took]
        exact emptied
      · have missed := round.miss x (row (m + 1)) fun h => moves h.1
        have left : ¬(0 < m + 1 ∧ Moves (narrow m) x) := fun took => moves took.2
        rw [if_neg left]
        exact missed.trans (before.untouched (m + 1) x (by omega) short)
    · intro k x past less
      have missed := round.miss x (row k) (by
        rintro ⟨-, same | same⟩
        · exact differ less (by omega) (by omega) same
        · exact differ less short (by omega) same)
      rw [missed]
      exact before.untouched k x (by omega) less
    · intro _ broad
      rw [Nat.add_sub_cancel] at broad
      rw [wide, broad]
      rfl

theorem overwrites_garbageRow {b : Board} (hole y : Int) (standard : b.Standard) :
    Overwrites (fun x y' => x ≠ hole ∧ y' = y) (fun _ _ => some (Cell.color btGreen)) b
      (garbageRow hole y 0 btBoardWth b) := by
  have whole := overwrites_forRange (m := 0) (n := btBoardWth) (b := b)
    (f := fun i b => if i ≠ hole then b.set i y (some (Cell.color btGreen)) else b)
    (S := fun i x y' => x = i ∧ x ≠ hole ∧ y' = y) (F := fun _ _ => some (Cell.color btGreen))
    (by decide) ?_
  · refine whole.congr (fun x y' square => ?_) fun _ _ _ _ => rfl
    rw [Grid.inBounds_iff, standard.width] at square
    constructor
    · rintro ⟨filled, row⟩
      exact ⟨x, square.1, square.2.1, rfl, filled, row⟩
    · rintro ⟨i, -, -, rfl, filled, row⟩
      exact ⟨filled, row⟩
  · intro i c low high before
    split
    · next filled =>
      refine (overwrites_set c i y fun _ _ => some (Cell.color btGreen)).congr
        (fun x y' _ => ?_) fun _ _ _ _ => rfl
      constructor
      · rintro ⟨rfl, -, row⟩
        exact ⟨rfl, row⟩
      · rintro ⟨rfl, row⟩
        exact ⟨rfl, filled, row⟩
    · next hole =>
      refine ⟨Keeps.refl c, ?_, fun _ _ _ => rfl⟩
      rintro x y' - ⟨rfl, filled, -⟩
      exact absurd filled hole

/-- A pass over all the rows, and the garbage behind it. -/
theorem garbage_get {row : Nat → Int} {narrow : Nat → Bool} {b : Board}
    (standard : b.Standard) (rows : ∀ k < 28, 0 ≤ row k ∧ row k < btBoardHgt)
    (apart : ∀ j k, j < 28 → k < 28 → row j = row k → j = k)
    (widening : ∀ k, narrow (k + 1) = true → narrow k = true) (last : narrow 26 = false)
    (hole : Int) {t : Board × Int × Int} (pass : t = liftRows row narrow 27 (b, 0, b.width))
    {k : Nat} (less : k < 28) {x : Int} (x0 : 0 ≤ x) (xw : x < btBoardWth) :
    (garbageRow hole (row 27) t.2.1 t.2.2 t.1).get x (row k) =
      if k < 27 then if Moves (narrow k) x then b.get x (row (k + 1)) else b.get x (row k)
      else if x = hole then none else some (Cell.color btGreen) := by
  have lifted := lifted_liftRows standard rows apart widening 27 (by decide) (b, 0, b.width) rfl
  rw [← pass] at lifted
  have after := standard.keeps lifted.keeps
  have garbage := overwrites_garbageRow hole (row 27) after
  rw [lifted.columns (by decide) last]
  dsimp only
  generalize garbageRow hole (row 27) 0 btBoardWth t.1 = d at garbage
  by_cases higher : k < 27
  · rw [if_pos higher, ← lifted.moved k x higher x0 xw]
    apply garbage.miss
    rintro ⟨-, same⟩
    have := apart k 27 less (by decide) same
    omega
  · obtain rfl : k = 27 := by omega
    rw [if_neg higher]
    by_cases open_ : x = hole
    · rw [if_pos open_, garbage.miss x (row 27) fun filled => filled.1 open_,
        lifted.taken x x0 xw, if_pos]
      refine ⟨by decide, fun neck => ?_⟩
      rw [last] at neck
      cases neck
    · rw [if_neg open_]
      refine garbage.hit x (row 27) (Grid.inBounds_iff.mpr ⟨x0, ?_, (rows 27 (by decide)).1, ?_⟩)
        ⟨open_, rfl⟩
      · rwa [after.width]
      · rw [after.height]
        exact (rows 27 (by decide)).2

/-! ## The stack rises -/

/-- Where a garbage row lifts the stack from: the row below, or above under Upbyside. -/
def riseOf (b : Board) : Int := if b.isActive .upbyside then -1 else 1

/-- The columns beside the bottle's neck, there and all the way past it, are not lifted. -/
def Sheltered (b : Board) (x y : Int) : Prop :=
  b.isActive .bottle = true ∧ (x < btBottleX ∨ btBoardWth - btBottleX ≤ x) ∧
    if b.isActive .upbyside then btBoardHgt / 2 - btBottleY ≤ y
    else y < btBoardHgt / 2 + btBottleY

instance (b : Board) (x y : Int) : Decidable (b.Sheltered x y) := by
  unfold Sheltered
  infer_instance

/-- The drawn hole of the next garbage row. -/
def holeOf (rng : Rng) : Int := (rng.randBelow btBoardWth.toNat).1

/-- The board after one garbage row. -/
theorem insertLine_get {b : Board} (standard : b.Standard) (rng : Rng) {x y : Int}
    (inside : b.inBounds x y = true) :
    (b.insertLine rng).1.get x y =
      if b.Sheltered x y then b.get x y
      else if 0 ≤ y + b.riseOf ∧ y + b.riseOf < btBoardHgt then b.get x (y + b.riseOf)
      else if x = holeOf rng then none else some (Cell.color btGreen) := by
  obtain ⟨x0, xw, y0, yh⟩ := Grid.inBounds_iff.mp inside
  rw [standard.width] at xw
  rw [standard.height] at yh
  have hgt : btBoardHgt = 28 := rfl
  have neck : btBottleY = 4 := rfl
  have foldl_congr {f g : Board × Int × Int → Nat → Board × Int × Int} (same : f = g) (n : Nat)
      (s : Board × Int × Int) : (List.range n).foldl f s = (List.range n).foldl g s := by rw [same]
  have moves_iff {P : Prop} [Decidable P] (zone : P ↔
      if b.isActive .upbyside then btBoardHgt / 2 - btBottleY ≤ y
      else y < btBoardHgt / 2 + btBottleY) :
      Moves (b.isActive .bottle && decide P) x ↔ ¬b.Sheltered x y := by
    unfold Moves Sheltered
    rw [← zone, Bool.and_eq_true, decide_eq_true_eq]
    constructor
    · rintro moves ⟨bottle, side, there⟩
      have := moves ⟨bottle, there⟩
      omega
    · rintro open_ ⟨bottle, there⟩
      by_contra side
      exact open_ ⟨bottle, by omega, there⟩
  have widening {P : Nat → Prop} [DecidablePred P] (mono : ∀ k, P (k + 1) → P k)
      (k : Nat) (wide : (b.isActive .bottle && decide (P (k + 1))) = true) :
      (b.isActive .bottle && decide (P k)) = true := by
    rw [Bool.and_eq_true, decide_eq_true_eq] at wide ⊢
    exact ⟨wide.1, mono k wide.2⟩
  unfold insertLine holeOf riseOf
  rw [standard.width, standard.height]
  dsimp only
  by_cases upbyside : b.isActive .upbyside = true
  · rw [if_neg (by simp [upbyside, standard.computer]), if_pos upbyside]
    generalize pass : forDown (btBoardHgt - 1) 0 (fun i => insertRound i (i - 1)
      (b.isActive .bottle && decide (i ≥ btBoardHgt / 2 - btBottleY))) (b, 0, btBoardWth) = t
    have rounds : t = liftRows (fun k => 27 - (k : Int))
        (fun k => b.isActive .bottle && decide (27 - (k : Int) ≥ btBoardHgt / 2 - btBottleY)) 27
        (b, 0, b.width) := by
      rw [← pass, standard.width]
      refine foldl_congr ?_ 27 (b, 0, btBoardWth)
      funext s k
      have src : (27 : Int) - ((k + 1 : Nat) : Int) = 27 - (k : Int) - 1 := by omega
      dsimp only
      rw [src]
      rfl
    have after := garbage_get standard (fun k less => ⟨by omega, by omega⟩)
      (fun j k _ _ same => by omega)
      (widening (P := fun k : Nat => 27 - (k : Int) ≥ btBoardHgt / 2 - btBottleY) fun k => by omega)
      (Bool.and_eq_false_imp.mpr fun _ => rfl)
      (rng.randBelow btBoardWth.toNat).1 rounds (k := (27 - y).toNat) (by omega) x0 xw
    have row : 27 - ((27 - y).toNat : Int) = y := by omega
    have edge : (27 : Int) - ((27 : Nat) : Int) = 0 := rfl
    have src : 27 - (((27 - y).toNat + 1 : Nat) : Int) = y + -1 := by omega
    rw [row, edge, src] at after
    have moves := moves_iff (P := y ≥ btBoardHgt / 2 - btBottleY) (by rw [if_pos upbyside])
    rw [after]
    by_cases sheltered : b.Sheltered x y
    · have stays : ¬Moves (b.isActive .bottle && decide (y ≥ btBoardHgt / 2 - btBottleY)) x :=
        fun m => moves.mp m sheltered
      have low : 10 ≤ y := by
        have zone := sheltered.2.2
        rw [if_pos upbyside] at zone
        omega
      rw [if_pos sheltered, if_pos (by omega), if_neg stays]
    · rw [if_neg sheltered]
      by_cases higher : 0 < y
      · rw [if_pos (by omega), if_pos (moves.mpr sheltered), if_pos (by omega)]
      · have edge : ¬(0 ≤ y + -1 ∧ y + -1 < btBoardHgt) := by omega
        rw [if_neg (by omega), if_neg edge]
  · rw [if_pos (.inl upbyside), if_neg upbyside]
    generalize pass : forRange 0 (btBoardHgt - 1) (fun i => insertRound i (i + 1)
      (b.isActive .bottle && decide (i < btBoardHgt / 2 + btBottleY))) (b, 0, btBoardWth) = t
    have rounds : t = liftRows (fun k => (k : Int))
        (fun k => b.isActive .bottle && decide ((k : Int) < btBoardHgt / 2 + btBottleY)) 27
        (b, 0, b.width) := by
      rw [← pass, standard.width]
      refine foldl_congr ?_ 27 (b, 0, btBoardWth)
      funext s k
      rw [zero_add]
      rfl
    have last : (b.isActive .bottle && decide (((26 : Nat) : Int) < btBoardHgt / 2 + btBottleY)) =
        false := Bool.and_eq_false_imp.mpr fun _ => rfl
    have tall : t.1.height = btBoardHgt := by
      rw [rounds]
      exact (lifted_liftRows standard (fun k less => ⟨by omega, by omega⟩)
        (fun j k _ _ same => by exact_mod_cast same)
        (widening (P := fun k : Nat => (k : Int) < btBoardHgt / 2 + btBottleY) fun k => by omega)
        27 (by decide) (b, 0, b.width) rfl).keeps.height.trans standard.height
    rw [tall]
    have after := garbage_get standard (fun k less => ⟨by omega, by omega⟩)
      (fun j k _ _ same => by exact_mod_cast same)
      (widening (P := fun k : Nat => (k : Int) < btBoardHgt / 2 + btBottleY) fun k => by omega) last
      (rng.randBelow btBoardWth.toNat).1 rounds (k := y.toNat) (by omega) x0 xw
    have row : (y.toNat : Int) = y := by omega
    have edge : ((27 : Nat) : Int) = btBoardHgt - 1 := rfl
    have src : ((y.toNat + 1 : Nat) : Int) = y + 1 := by omega
    rw [row, edge, src] at after
    have moves := moves_iff (P := y < btBoardHgt / 2 + btBottleY) (by rw [if_neg upbyside])
    rw [after]
    by_cases sheltered : b.Sheltered x y
    · have stays : ¬Moves (b.isActive .bottle && decide (y < btBoardHgt / 2 + btBottleY)) x :=
        fun m => moves.mp m sheltered
      have high : y < 18 := by
        have zone := sheltered.2.2
        rw [if_neg upbyside] at zone
        omega
      rw [if_pos sheltered, if_pos (by omega), if_neg stays]
    · rw [if_neg sheltered]
      by_cases higher : y < 27
      · rw [if_pos (by omega), if_pos (moves.mpr sheltered), if_pos (by omega)]
      · have edge : ¬(0 ≤ y + 1 ∧ y + 1 < btBoardHgt) := by omega
        rw [if_neg (by omega), if_neg edge]

/-- The generator after `n` garbage rows. -/
def rngAfter (rng : Rng) : Nat → Rng
  | 0 => rng
  | n + 1 => ((rngAfter rng n).randBelow btBoardWth.toNat).2

/-- Of `n` garbage rows, the number of the one that ends at `y`. -/
def rowAt (b : Board) (n : Nat) (y : Int) : Nat :=
  (if b.isActive .upbyside then n - 1 - y else n + y - btBoardHgt).toNat

/-- The square that `n` garbage rows put at `(x, y)`. -/
def squareAfter (b : Board) (rng : Rng) (n : Nat) (x y : Int) : Option Cell :=
  if b.Sheltered x y then b.get x y
  else if 0 ≤ y + n * b.riseOf ∧ y + n * b.riseOf < btBoardHgt then b.get x (y + n * b.riseOf)
  else if x = holeOf (rngAfter rng (b.rowAt n y)) then none else some (Cell.color btGreen)

theorem riseOf_cases (b : Board) :
    (b.isActive .upbyside = true ∧ b.riseOf = -1) ∨
      (b.isActive .upbyside = false ∧ b.riseOf = 1) := by
  unfold riseOf
  cases b.isActive .upbyside
  · exact .inr ⟨rfl, rfl⟩
  · exact .inl ⟨rfl, rfl⟩

/-- A column that rises at `y` rises where it comes from. -/
theorem not_sheltered_rise {b : Board} {x y : Int} (rises : ¬b.Sheltered x y) :
    ¬b.Sheltered x (y + b.riseOf) := by
  rintro ⟨bottle, side, past⟩
  apply rises
  refine ⟨bottle, side, ?_⟩
  rcases b.riseOf_cases with ⟨upbyside, rise⟩ | ⟨upright, rise⟩
  · rw [upbyside, if_pos rfl, rise] at past
    rw [upbyside, if_pos rfl]
    omega
  · rw [upright, if_neg Bool.false_ne_true, rise] at past
    rw [upright, if_neg Bool.false_ne_true]
    omega

/-- One more row moves every square up by one, and adds its garbage at the edge. -/
theorem squareAfter_succ (b : Board) (rng : Rng) (n : Nat) {x y : Int} (y0 : 0 ≤ y)
    (yh : y < btBoardHgt) :
    b.squareAfter rng (n + 1) x y =
      if b.Sheltered x y then b.squareAfter rng n x y
      else if 0 ≤ y + b.riseOf ∧ y + b.riseOf < btBoardHgt then b.squareAfter rng n x (y + b.riseOf)
      else if x = holeOf (rngAfter rng n) then none else some (Cell.color btGreen) := by
  have hgt : btBoardHgt = 28 := rfl
  by_cases sheltered : b.Sheltered x y
  · unfold squareAfter
    rw [if_pos sheltered, if_pos sheltered, if_pos sheltered]
  · have source : y + ((n + 1 : Nat) : Int) * b.riseOf = y + b.riseOf + n * b.riseOf := by
      push_cast
      ring
    rw [if_neg sheltered]
    unfold squareAfter
    rw [if_neg sheltered, source]
    by_cases lower : 0 ≤ y + b.riseOf ∧ y + b.riseOf < btBoardHgt
    · rw [if_pos lower, if_neg (not_sheltered_rise sheltered)]
      have same : b.rowAt (n + 1) y = b.rowAt n (y + b.riseOf) := by
        unfold rowAt
        rcases b.riseOf_cases with ⟨upbyside, rise⟩ | ⟨upright, rise⟩
        · rw [upbyside, if_pos rfl, if_pos rfl, rise]
          congr 1
          omega
        · rw [upright, if_neg Bool.false_ne_true, if_neg Bool.false_ne_true, rise]
          congr 1
          omega
      rw [same]
    · have last : b.rowAt (n + 1) y = n := by
        unfold rowAt
        rcases b.riseOf_cases with ⟨upbyside, rise⟩ | ⟨upright, rise⟩
        · rw [upbyside, if_pos rfl]
          omega
        · rw [upright, if_neg Bool.false_ne_true]
          omega
      have beyond :
          ¬(0 ≤ y + b.riseOf + n * b.riseOf ∧ y + b.riseOf + n * b.riseOf < btBoardHgt) := by
        rcases b.riseOf_cases with ⟨-, rise⟩ | ⟨-, rise⟩ <;> rw [rise] at lower ⊢ <;> omega
      rw [if_neg lower, if_neg beyond, last]

end Board

namespace Game

/-- The game after `n` garbage rows. -/
def rows (g : Game) (n : Nat) : Game := (List.range n).foldl (fun g _ => g.lawyersRow) g

theorem rows_succ (g : Game) (n : Nat) : g.rows (n + 1) = (g.rows n).lawyersRow := by
  unfold rows
  rw [List.range_succ, List.foldl_append, List.foldl_cons, List.foldl_nil]

/-- What `n` garbage rows leave of the board, the generator and the piece. -/
structure Raised (g : Game) (n : Nat) (h : Game) : Prop where
  keeps : Board.Keeps g.board h.board
  current : h.current = g.current
  rng : h.rng = Board.rngAfter g.rng n
  squares : ∀ x y, g.board.inBounds x y = true →
    h.board.get x y = g.board.squareAfter g.rng n x y

theorem raised_rows {g : Game} (standard : g.board.Standard) (n : Nat) : g.Raised n (g.rows n) := by
  induction n with
  | zero =>
    refine ⟨Board.Keeps.refl _, rfl, rfl, fun x y inside => ?_⟩
    obtain ⟨-, -, y0, yh⟩ := Grid.inBounds_iff.mp inside
    rw [standard.height] at yh
    unfold Board.squareAfter
    split
    · rfl
    · rw [Nat.cast_zero, zero_mul, add_zero, if_pos ⟨y0, yh⟩]
      rfl
  | succ n ih =>
    rw [rows_succ]
    generalize g.rows n = h at ih
    have line := Board.keeps_insertLine h.board h.rng
    have after := standard.keeps ih.keeps
    refine ⟨ih.keeps.trans line, ih.current, ?_, fun x y inside => ?_⟩
    · have drawn : h.lawyersRow.rng = (h.rng.randBelow h.board.width.toNat).2 := by
        unfold lawyersRow Board.insertLine
        dsimp only
        split <;> rfl
      rw [drawn, after.width, ih.rng]
      rfl
    · obtain ⟨-, -, y0, yh⟩ := Grid.inBounds_iff.mp inside
      rw [standard.height] at yh
      have there : h.board.inBounds x y = true := by rw [ih.keeps.inBounds]; exact inside
      have sheltered : h.board.Sheltered x y ↔ g.board.Sheltered x y := by
        unfold Board.Sheltered Board.isActive
        rw [ih.keeps.active]
      have rise : h.board.riseOf = g.board.riseOf := by
        unfold Board.riseOf Board.isActive
        rw [ih.keeps.active]
      have one := Board.insertLine_get after h.rng there
      rw [Board.squareAfter_succ g.board g.rng n y0 yh]
      rw [rise, ih.squares x y inside] at one
      have row : h.lawyersRow.board.get x y = (h.board.insertLine h.rng).1.get x y := rfl
      rw [row, one, ← ih.rng]
      by_cases stays : g.board.Sheltered x y
      · rw [if_pos (sheltered.mpr stays), if_pos stays]
      · rw [if_neg (fun s => stays (sheltered.mp s)), if_neg stays]
        by_cases lower : 0 ≤ y + g.board.riseOf ∧ y + g.board.riseOf < btBoardHgt
        · rw [if_pos lower, if_pos lower]
          apply ih.squares
          rw [Grid.inBounds_iff] at inside ⊢
          rw [standard.height]
          exact ⟨inside.1, inside.2.1, lower⟩
        · rw [if_neg lower, if_neg lower]

/-- The square at `(x, y)` will be free once `n` garbage rows have come in. -/
def FreeAfter (g : Game) (n : Nat) (x y : Int) : Prop :=
  if g.board.inBounds x y then g.board.squareAfter g.rng n x y = none
  else g.board.occupied x y = false

/-- Whether a square is free, of two boards of one frame, is a matter of that square. -/
theorem occupied_iff {b : Board} {x y : Int} : b.occupied x y = false ↔
    if b.inBounds x y then b.get x y = none else b.occupied x y = false := by
  split
  · next inside =>
    constructor
    · intro free
      rcases Board.free_cases free with ⟨-, none⟩ | ⟨out, -⟩
      · exact none
      · rw [inside] at out
        cases out
    · intro none
      obtain ⟨x0, xw, y0, yh⟩ := Grid.inBounds_iff.mp inside
      unfold Board.occupied
      split
      · rw [if_neg (by omega), none]
        rfl
      · rw [if_neg (by omega), if_neg (by simp [none]), if_neg (by omega)]
  · rfl

/-- Off the board a square is as free as the frame says. -/
theorem occupied_out {b b' : Board} (keeps : Board.Keeps b b') {x y : Int}
    (out : ¬b.inBounds x y = true) : b'.occupied x y = b.occupied x y := by
  have out' : ¬b'.inBounds x y = true := by rw [keeps.inBounds]; exact out
  have empty := Board.get_of_not_inBounds out
  have empty' := Board.get_of_not_inBounds out'
  unfold Board.occupied Board.isActive
  rw [keeps.active, keeps.width, keeps.height, empty, empty']

theorem Raised.free_iff {g h : Game} {n : Nat} (raised : g.Raised n h) (x y : Int) :
    h.board.occupied x y = false ↔ g.FreeAfter n x y := by
  rw [occupied_iff, raised.keeps.inBounds]
  unfold FreeAfter
  by_cases inside : g.board.inBounds x y = true
  · rw [if_pos inside, if_pos inside, raised.squares x y inside]
  · rw [if_neg inside, if_neg inside, occupied_out raised.keeps inside]

/-- The opponent's score under Lawyers: as many garbage rows as it has new lines. -/
theorem raised_receiveOpScore {g : Game} (standard : g.board.Standard)
    (lawyers : g.weaponActive .lawyers = true) (opScore opLines opFunds : Int) :
    g.Raised (opLines - g.score.opLines).toNat (g.receiveOpScore opScore opLines opFunds) := by
  have bazaar (h : Game) : h.updateBazaar.board = h.board ∧ h.updateBazaar.current = h.current ∧
      h.updateBazaar.rng = h.rng := by
    unfold updateBazaar
    dsimp only
    split <;> exact ⟨rfl, rfl, rfl⟩
  have active : (g.mirrorScore opScore opFunds).weapons.isActive .lawyers = true := lawyers
  have stacked : (g.mirrorScore opScore opFunds).raiseStack (opLines - g.score.opLines) =
      (g.mirrorScore opScore opFunds).rows (opLines - g.score.opLines).toNat := by
    unfold raiseStack rows forRange
    rw [if_pos active]
    congr 2
    omega
  have raised := raised_rows (g := g.mirrorScore opScore opFunds) standard
    (opLines - g.score.opLines).toNat
  unfold receiveOpScore
  dsimp only
  rw [stacked]
  generalize (g.mirrorScore opScore opFunds).rows (opLines - g.score.opLines).toNat = h at raised
  obtain ⟨board, current, rng⟩ := bazaar (h.setOpLines opLines)
  refine ⟨?_, current.trans raised.current, rng.trans raised.rng, fun x y inside => ?_⟩
  · rw [board]
    exact raised.keeps
  · rw [board]
    exact raised.squares x y inside

/-- One new line under Lawyers fills the square above a cell. -/
theorem lifts_cell {g : Game} (standard : g.board.Standard)
    (lawyers : g.weaponActive .lawyers = true) (upright : g.board.isActive .upbyside = false)
    (open_ : g.board.isActive .bottle = false) {x y : Int} (inside : g.board.inBounds x y = true)
    (filled : (g.board.get x (y + 1)).isSome = true) (opScore opFunds : Int) :
    (g.receiveOpScore opScore (g.score.opLines + 1) opFunds).board.occupied x y = true := by
  have raised := raised_receiveOpScore standard lawyers opScore (g.score.opLines + 1) opFunds
  have one : (g.score.opLines + 1 - g.score.opLines).toNat = 1 := by omega
  rw [one] at raised
  by_contra spared
  have vacant := (raised.free_iff x y).mp (eq_false_of_ne_true spared)
  unfold FreeAfter at vacant
  rw [if_pos inside] at vacant
  have below := Grid.inBounds_iff.mp (Grid.inBounds_of_get_isSome filled)
  rw [standard.height] at below
  have rise : g.board.riseOf = 1 := by
    unfold Board.riseOf
    rw [upright]
    rfl
  have rises : ¬g.board.Sheltered x y := by
    rintro ⟨bottle, -⟩
    rw [open_] at bottle
    cases bottle
  unfold Board.squareAfter at vacant
  rw [if_neg rises, rise, Nat.cast_one, one_mul, if_pos below.2.2] at vacant
  rw [vacant] at filled
  cases filled

end Game

end BattleTris
