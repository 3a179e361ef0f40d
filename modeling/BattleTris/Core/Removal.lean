import BattleTris.Core.Garbage

/-!
What `removeLine` does to a board, square by square.

The rows on the far side of the line move one row towards it.  In a Bottle the columns
narrow where the pass reaches the neck and stay narrow from there on (`Necked`), so the
squares beside the last wide row are left empty.
-/

namespace BattleTris

open Loop

namespace Board

variable {b : Board}

/-! ## A pass of carries -/

/-- Carry row `row 1` into `row 0`, `row 2` into `row 1`, and so on, each over its columns. -/
def carryRows (row : Nat → Int) (cols : Nat → Int × Int) (n : Nat) (b : Board) : Board :=
  (List.range n).foldl (fun b k => shiftRow (row k) (row (k + 1)) (cols k).1 (cols k).2 b) b

theorem carryRows_succ (row : Nat → Int) (cols : Nat → Int × Int) (n : Nat) (b : Board) :
    carryRows row cols (n + 1) b =
      shiftRow (row n) (row (n + 1)) (cols n).1 (cols n).2 (carryRows row cols n b) := by
  unfold carryRows
  rw [List.range_succ, List.foldl_append, List.foldl_cons, List.foldl_nil]

/-- The columns of a round. -/
def Within (cols : Int × Int) (x : Int) : Prop := cols.1 ≤ x ∧ x < cols.2

instance (cols : Int × Int) (x : Int) : Decidable (Within cols x) := by
  unfold Within
  infer_instance

/-- The rows before `n` have been carried into, row `n` is empty where the last round took
it, and all the other rows are as they were. -/
structure Carried (row : Nat → Int) (cols : Nat → Int × Int) (b : Board) (n : Nat)
    (c : Board) : Prop where
  keeps : Keeps b c
  moved : ∀ k x, k < n → c.get x (row k) =
    if Within (cols k) x then b.get x (row (k + 1))
    else if 0 < k ∧ Within (cols (k - 1)) x then none else b.get x (row k)
  taken : ∀ x, c.get x (row n) =
    if 0 < n ∧ Within (cols (n - 1)) x then none else b.get x (row n)
  others : ∀ x y, (∀ k, k ≤ n → y ≠ row k) → c.get x y = b.get x y

theorem carried_carryRows {row : Nat → Int} {cols : Nat → Int × Int} {n : Nat}
    (rows : ∀ k, k ≤ n → 0 ≤ row k ∧ row k < b.height)
    (apart : ∀ j k, j ≤ n → k ≤ n → row j = row k → j = k)
    (inside : ∀ k, 0 ≤ (cols k).1 ∧ (cols k).1 ≤ (cols k).2 ∧ (cols k).2 ≤ b.width) :
    ∀ m, m ≤ n → Carried row cols b m (carryRows row cols m b) := by
  intro m
  induction m with
  | zero =>
    intro _
    refine ⟨Keeps.refl b, fun k x below => absurd below (Nat.not_lt_zero k), fun x => ?_,
      fun _ _ _ => rfl⟩
    rw [if_neg fun h => absurd h.1 (lt_irrefl 0)]
    rfl
  | succ m ih =>
    intro le
    have before := ih (by omega)
    rw [carryRows_succ]
    generalize carryRows row cols m b = c at before
    have differ {j k : Nat} (jle : j ≤ n) (kle : k ≤ n) (ne : j ≠ k) : row j ≠ row k :=
      fun same => ne (apart j k jle kle same)
    obtain ⟨left, narrow, right⟩ := inside m
    have square (x : Int) (k : Nat) (kle : k ≤ n) (low : (cols m).1 ≤ x) (high : x < (cols m).2) :
        c.inBounds x (row k) = true := by
      rw [before.keeps.inBounds, Grid.inBounds_iff]
      exact ⟨by omega, by omega, rows k kle⟩
    have round := overwrites_shiftRow (b := c) (i := row m) (differ (by omega) le (by omega))
      narrow fun x low high =>
        ⟨square x m (by omega) low high, square x (m + 1) le low high⟩
    generalize shiftRow (row m) (row (m + 1)) (cols m).1 (cols m).2 c = d at round
    refine ⟨before.keeps.trans round.keeps, fun k x below => ?_, fun x => ?_, fun x y other => ?_⟩
    · rcases Nat.lt_succ_iff_lt_or_eq.mp below with earlier | rfl
      · -- a row of an earlier round
        rw [← before.moved k x earlier]
        apply round.miss
        rintro ⟨-, -, same | same⟩
        · exact differ (by omega) (by omega) (by omega) same
        · exact differ (by omega) le (by omega) same
      · by_cases moves : Within (cols k) x
        · rw [if_pos moves, round.hit x (row k) (square x k (by omega) moves.1 moves.2)
            ⟨moves.1, moves.2, .inl rfl⟩, if_pos rfl]
          have later := before.others x (row (k + 1)) fun j jle =>
            differ le (by omega) (by omega)
          exact later
        · rw [if_neg moves, ← before.taken x]
          exact round.miss x (row k) fun h => moves ⟨h.1, h.2.1⟩
    · rw [Nat.add_sub_cancel]
      by_cases moves : Within (cols m) x
      · rw [if_pos ⟨Nat.succ_pos m, moves⟩, round.hit x (row (m + 1))
          (square x (m + 1) le moves.1 moves.2) ⟨moves.1, moves.2, .inr rfl⟩,
          if_neg (differ le (by omega) (by omega))]
      · rw [if_neg fun h => moves h.2]
        rw [round.miss x (row (m + 1)) fun h => moves ⟨h.1, h.2.1⟩]
        exact before.others x (row (m + 1)) fun j jle => differ le (by omega) (by omega)
    · rw [round.miss x y, before.others x y fun k kle => other k (by omega)]
      rintro ⟨-, -, same | same⟩
      · exact other m (by omega) same
      · exact other (m + 1) le_rfl same

theorem overwrites_emptyRow (b : Board) {y x1 x2 : Int} (le : x1 ≤ x2) :
    Overwrites (fun x y' => Within (x1, x2) x ∧ y' = y) (fun _ _ => none) b
      (emptyRow y x1 x2 b) := by
  have whole := overwrites_forRange (m := x1) (n := x2) (b := b) (f := fun j b => b.set j y none)
    (S := fun j x y' => x = j ∧ y' = y) (F := fun _ _ => none) le
    fun j c _ _ _ => overwrites_set c j y fun _ _ => none
  refine whole.congr (fun x y' _ => ?_) fun _ _ _ _ => rfl
  constructor
  · rintro ⟨within, row⟩
    exact ⟨x, within.1, within.2, rfl, row⟩
  · rintro ⟨j, low, high, rfl, row⟩
    exact ⟨⟨low, high⟩, row⟩

/-- The squares that a carry pass leaves, its last row emptied behind it. -/
theorem carryRows_get {row : Nat → Int} {cols : Nat → Int × Int} {n : Nat}
    (rows : ∀ k, k ≤ n → 0 ≤ row k ∧ row k < b.height)
    (apart : ∀ j k, j ≤ n → k ≤ n → row j = row k → j = k)
    (inside : ∀ k, 0 ≤ (cols k).1 ∧ (cols k).1 ≤ (cols k).2 ∧ (cols k).2 ≤ b.width)
    {c : Board}
    (pass : c = emptyRow (row n) (cols n).1 (cols n).2 (carryRows row cols n b)) :
    (∀ k x, k ≤ n → c.get x (row k) =
      if Within (cols k) x then if k < n then b.get x (row (k + 1)) else none
      else if 0 < k ∧ Within (cols (k - 1)) x then none else b.get x (row k)) ∧
    ∀ x y, (∀ k, k ≤ n → y ≠ row k) → c.get x y = b.get x y := by
  have carried := carried_carryRows rows apart inside n le_rfl
  obtain ⟨left, narrow, right⟩ := inside n
  have emptied := overwrites_emptyRow (carryRows row cols n b) (y := row n) narrow
  rw [← pass] at emptied
  refine ⟨fun k x le => ?_, fun x y other => ?_⟩
  · rcases le.lt_or_eq with less | rfl
    · rw [emptied.miss x (row k) fun h => less.ne (apart k n le le_rfl h.2), carried.moved k x less,
        if_pos less]
    · rw [if_neg (lt_irrefl k)]
      by_cases within : Within (cols k) x
      · have square : (carryRows row cols k b).inBounds x (row k) = true := by
          rw [carried.keeps.inBounds, Grid.inBounds_iff]
          exact ⟨left.trans within.1, within.2.trans_le right, rows k le_rfl⟩
        rw [if_pos within, emptied.hit x (row k) square ⟨within, rfl⟩]
      · rw [if_neg within, emptied.miss x (row k) fun h => within h.1, carried.taken x]
  · rw [emptied.miss x y fun h => other n le_rfl h.2]
    exact carried.others x y other

/-! ## The columns of a pass -/

/-- The columns of the neck. -/
def neck (b : Board) : Int × Int := (btBottleX, b.width - btBottleX)

/-- The rounds of a pass, with the columns of the next one: those of the neck once a round
has been in it. -/
theorem removePass_eq {row : Nat → Int} {nar : Nat → Bool} {N : Nat → Prop} [DecidablePred N]
    {start : Int × Int} (line : Int) (first : N 0 ↔ nar 0 = true)
    (next : ∀ k, N (k + 1) ↔ nar (k + 1) = true ∨ N k) (n : Nat) :
    (List.range n).foldl (fun s k => removeRound false line (row k) (row (k + 1)) (nar k) s)
        (b, start.1, start.2) =
      (carryRows row (fun k => if N k then b.neck else start) n b,
        if 0 < n ∧ N (n - 1) then b.neck else start) := by
  induction n with
  | zero => rfl
  | succ n ih =>
    rw [List.range_succ, List.foldl_append, List.foldl_cons, List.foldl_nil, ih, carryRows_succ,
      Nat.add_sub_cancel]
    have wide : (carryRows row (fun k => if N k then b.neck else start) n b).width = b.width := by
      have keeps : Keeps b (carryRows row (fun k => if N k then b.neck else start) n b) :=
        foldl_invariant (fun k _ c keeps => keeps.trans (keeps_shiftRow _ _ _ _ c)) (Keeps.refl b)
      exact keeps.width
    have before : (0 < n ∧ N (n - 1)) ∨ nar n = true ↔ N n := by
      cases n with
      | zero =>
        rw [first]
        exact or_iff_right fun h => absurd h.1 (lt_irrefl 0)
      | succ n =>
        rw [next, Nat.add_sub_cancel]
        exact (or_comm.trans (or_congr_right (and_iff_right (Nat.succ_pos n))))
    unfold removeRound
    dsimp only
    rw [wide, if_neg Bool.false_ne_true]
    by_cases now : nar n = true
    · have necked : N n := before.mp (.inr now)
      rw [if_pos now, if_pos now, if_pos necked, if_pos ⟨Nat.succ_pos n, necked⟩]
      rfl
    · rw [if_neg now, if_neg now]
      by_cases already : 0 < n ∧ N (n - 1)
      · have necked : N n := before.mp (.inl already)
        rw [if_pos already, if_pos necked, if_pos ⟨Nat.succ_pos n, necked⟩]
      · have wide : ¬N n := fun necked => (before.mpr necked).elim already now
        rw [if_neg already, if_neg wide, if_neg fun h => wide h.2]

/-- The squares that the rounds of a removal leave, the last row emptied behind them. -/
theorem removePass_get {row : Nat → Int} {nar : Nat → Bool} {N : Nat → Prop} [DecidablePred N]
    {start : Int × Int} {n : Nat} (line : Int) (first : N 0 ↔ nar 0 = true)
    (next : ∀ k, N (k + 1) ↔ nar (k + 1) = true ∨ N k) (last : N n ↔ 0 < n ∧ N (n - 1))
    (rows : ∀ k, k ≤ n → 0 ≤ row k ∧ row k < b.height)
    (apart : ∀ j k, j ≤ n → k ≤ n → row j = row k → j = k)
    (inside : ∀ k, 0 ≤ (if N k then b.neck else start).1 ∧
      (if N k then b.neck else start).1 ≤ (if N k then b.neck else start).2 ∧
        (if N k then b.neck else start).2 ≤ b.width)
    {s : Board × Int × Int} (pass : s = (List.range n).foldl
      (fun s k => removeRound false line (row k) (row (k + 1)) (nar k) s) (b, start.1, start.2)) :
    (∀ k x, k ≤ n → (emptyRow (row n) s.2.1 s.2.2 s.1).get x (row k) =
      if Within (if N k then b.neck else start) x then if k < n then b.get x (row (k + 1)) else none
      else if 0 < k ∧ Within (if N (k - 1) then b.neck else start) x then none
      else b.get x (row k)) ∧
    ∀ x y, (∀ k, k ≤ n → y ≠ row k) →
      (emptyRow (row n) s.2.1 s.2.2 s.1).get x y = b.get x y := by
  rw [removePass_eq line first next n] at pass
  subst pass
  refine @carryRows_get b row (fun k => if N k then b.neck else start) n rows apart inside _ ?_
  dsimp only
  by_cases necked : N n
  · rw [if_pos necked, if_pos (last.mp necked)]
  · rw [if_neg necked, if_neg fun h => necked (last.mpr h)]

/-- The board fills from the bottom. -/
def Falls (b : Board) : Prop := ¬b.isActive .upbyside ∨ b.computer

instance (b : Board) : Decidable b.Falls := by
  unfold Falls
  infer_instance

/-- The pass that removes `line` has been in the neck when it comes to row `i`. -/
def Necked (b : Board) (line i : Int) : Prop :=
  b.isActive .bottle = true ∧
    if b.Falls then btBoardHgt / 2 - btBottleY ≤ line ∧ i ≤ btBoardHgt / 2 + btBottleY
    else line ≤ btBoardHgt / 2 + btBottleY ∧ btBoardHgt / 2 - btBottleY - 1 ≤ i

instance (b : Board) (line i : Int) : Decidable (b.Necked line i) := by
  unfold Necked
  infer_instance

/-- The columns over which row `i` is moved when `line` goes. -/
def cleared (b : Board) (line x1 x2 i : Int) : Int × Int :=
  if b.Necked line i then b.neck else (x1, x2)

/-! ## Removing a line -/

/-- A line of the board, columns of it, and a neck that is inside it. -/
structure Clearable (b : Board) (line x1 x2 : Int) : Prop where
  line : 0 ≤ line ∧ line < b.height
  columns : 0 ≤ x1 ∧ x1 ≤ x2 ∧ x2 ≤ b.width
  neck : b.isActive .bottle = true → 2 * btBottleX ≤ b.width ∧ b.height = btBoardHgt

variable {line x1 x2 : Int}

theorem Clearable.inside (clearable : b.Clearable line x1 x2) (i : Int) :
    0 ≤ (b.cleared line x1 x2 i).1 ∧
      (b.cleared line x1 x2 i).1 ≤ (b.cleared line x1 x2 i).2 ∧
      (b.cleared line x1 x2 i).2 ≤ b.width := by
  have three : btBottleX = 3 := rfl
  unfold cleared
  split
  · next necked =>
    have wide := (clearable.neck necked.1).1
    unfold Board.neck
    dsimp only
    omega
  · exact clearable.columns

theorem cleared_congr {i j : Int} (same : b.Necked line i ↔ b.Necked line j) :
    b.cleared line x1 x2 i = b.cleared line x1 x2 j := by
  unfold cleared
  by_cases necked : b.Necked line i
  · rw [if_pos necked, if_pos (same.mp necked)]
  · rw [if_neg necked, if_neg fun h => necked (same.mpr h)]

/-- The squares after the rounds of a pass that goes from `line` in steps of `d` to the edge
of the board, the last row emptied behind them. -/
theorem Clearable.pass_get (clearable : b.Clearable line x1 x2) {d : Int} {n : Nat}
    {nar : Int → Bool} (unit : d = 1 ∨ d = -1) (reach : 0 ≤ line + d * n ∧ line + d * n < b.height)
    (edge : ¬(0 ≤ line + d * (n + 1) ∧ line + d * (n + 1) < b.height))
    (first : b.Necked line line ↔ nar line = true)
    (next : ∀ k : Nat, b.Necked line (line + d * (k + 1)) ↔
      nar (line + d * (k + 1)) = true ∨ b.Necked line (line + d * k))
    (last : b.Necked line (line + d * n) ↔ 0 < n ∧ b.Necked line (line + d * (n - 1)))
    {s : Board × Int × Int} (rounds : s = (List.range n).foldl (fun s (k : Nat) =>
      removeRound false line (line + d * k) (line + d * (k + 1)) (nar (line + d * k)) s)
        (b, x1, x2)) (x y : Int) :
    (emptyRow (line + d * n) s.2.1 s.2.2 s.1).get x y =
      if d * (y - line) < 0 then b.get x y
      else if Within (b.cleared line x1 x2 y) x then b.get x (y + d)
      else if 0 < d * (y - line) ∧ Within (b.cleared line x1 x2 (y - d)) x then none
      else b.get x y := by
  obtain ⟨l0, lh⟩ := clearable.line
  have square (i : Int) (beyond : ¬(0 ≤ i ∧ i < b.height)) : b.get x i = none :=
    get_of_not_inBounds fun h => beyond (Grid.inBounds_iff.mp h).2.2
  have pass := @removePass_get b (fun k => line + d * k) (fun k => nar (line + d * k))
    (fun k => b.Necked line (line + d * k)) _ (x1, x2) n line ?_ ?_ ?_ ?_ ?_
    (fun k => clearable.inside _) s ?_
  · obtain ⟨rows, others⟩ := pass
    by_cases before : d * (y - line) < 0
    · rw [if_pos before]
      refine others x y fun k _ same => ?_
      rcases unit with rfl | rfl <;> omega
    rw [if_neg before]
    by_cases inside : d * (y - line) ≤ n
    · obtain ⟨k, rfl⟩ : ∃ k : Nat, y = line + d * k := by
        refine ⟨(d * (y - line)).toNat, ?_⟩
        rcases unit with rfl | rfl <;> omega
      have far : d * (line + d * k - line) = k := by
        rcases unit with rfl | rfl <;> omega
      rw [far] at inside ⊢
      refine (rows k x (by omega)).trans ?_
      have source : line + d * ((k + 1 : Nat) : Int) = line + d * k + d := by
        push_cast
        ring
      change (if Within (b.cleared line x1 x2 (line + d * k)) x then
          if k < n then b.get x (line + d * ((k + 1 : Nat) : Int)) else none
        else if 0 < k ∧ Within (b.cleared line x1 x2 (line + d * ((k - 1 : Nat) : Int))) x then none
        else b.get x (line + d * k)) = _
      rw [source]
      by_cases within : Within (b.cleared line x1 x2 (line + d * k)) x
      · rw [if_pos within, if_pos within]
        by_cases inner : k < n
        · rw [if_pos inner]
        · obtain rfl : k = n := by omega
          rw [if_neg inner, square (line + d * k + d)]
          intro h
          apply edge
          rwa [mul_add, mul_one, ← add_assoc]
      · rw [if_neg within, if_neg within]
        by_cases positive : 0 < k
        · have prior : line + d * ((k - 1 : Nat) : Int) = line + d * k - d := by
            rw [Nat.cast_sub positive]
            push_cast
            ring
          rw [prior]
          by_cases took : Within (b.cleared line x1 x2 (line + d * k - d)) x
          · rw [if_pos ⟨positive, took⟩, if_pos ⟨by exact_mod_cast positive, took⟩]
          · rw [if_neg fun h => took h.2, if_neg fun h => took h.2]
        · rw [if_neg fun h => positive h.1, if_neg fun h => positive (by exact_mod_cast h.1)]
    · -- past the edge every square is empty
      have out (v : Int) (far : (n : Int) < d * (v - line)) : b.get x v = none := by
        refine square v fun h => ?_
        rcases unit with rfl | rfl <;> omega
      refine (others x y fun k le same => ?_).trans ?_
      · rcases unit with rfl | rfl <;> omega
      · rw [out y (by omega), out (y + d) (by rcases unit with rfl | rfl <;> omega)]
        split
        · rfl
        · split <;> rfl
  · simpa using first
  · intro k
    simpa using next k
  · rw [last]
    refine and_congr_right fun positive => ?_
    rw [Nat.cast_sub positive, Nat.cast_one]
  · intro k le
    rcases unit with rfl | rfl <;> omega
  · intro j k _ _ same
    rcases unit with rfl | rfl <;> omega
  · rw [rounds]
    simp only [Nat.cast_add, Nat.cast_one]

/-- Under normal gravity the rows above the line come down by one. -/
theorem removeLine_get_falls (clearable : b.Clearable line x1 x2)
    (unforced : b.isActive .force = false) (falls : b.Falls) (x y : Int) :
    (b.removeLine line x1 x2).get x y =
      if line < y then b.get x y
      else if Within (b.cleared line x1 x2 y) x then b.get x (y - 1)
      else if y < line ∧ Within (b.cleared line x1 x2 (y + 1)) x then none else b.get x y := by
  obtain ⟨l0, lh⟩ := clearable.line
  have necked (i : Int) : b.Necked line i ↔ b.isActive .bottle = true ∧ 10 ≤ line ∧ i ≤ 18 := by
    unfold Necked
    rw [if_pos falls]
    exact Iff.rfl
  obtain ⟨s, rounds, removed⟩ : ∃ s, s = (List.range line.toNat).foldl (fun s (k : Nat) =>
        removeRound false line (line + -1 * k) (line + -1 * (k + 1))
          (b.isActive .bottle && decide (line + -1 * (k : Int) ≤ 18) &&
            decide (line + -1 * (k : Int) ≥ 10)) s) (b, x1, x2) ∧
      b.removeLine line x1 x2 = emptyRow (line + -1 * line.toNat) s.2.1 s.2.2 s.1 := by
    refine ⟨forDown line 0 (fun i => removeRound false line i (i - 1)
      (b.isActive .bottle && decide (i ≤ 18) && decide (i ≥ 10))) (b, x1, x2), ?_, ?_⟩
    · unfold forDown
      rw [sub_zero]
      congr 1
      funext s k
      have here : line + -1 * (k : Int) = line - k := by omega
      have source : line + -1 * ((k : Int) + 1) = line - k - 1 := by omega
      rw [here, source]
    · have edge : line + -1 * (line.toNat : Int) = 0 := by omega
      unfold removeLine
      dsimp only
      rw [if_neg (not_lt.mpr (clearable.columns.1.trans clearable.columns.2.1)), unforced, edge]
      exact if_pos falls
  rw [removed, @Clearable.pass_get b line x1 x2 clearable (-1) line.toNat
    (fun i => b.isActive .bottle && decide (i ≤ 18) && decide (i ≥ 10)) (.inr rfl) (by omega)
    (by omega) ?_ ?_ ?_ s rounds]
  · have back : y + -1 = y - 1 := rfl
    have ahead : y - -1 = y + 1 := by omega
    rw [back, ahead]
    have order : -1 * (y - line) < 0 ↔ line < y := by omega
    have order' : 0 < -1 * (y - line) ↔ y < line := by omega
    simp only [order, order']
  · rw [necked]
    cases b.isActive .bottle <;> simp
    omega
  · intro k
    rw [necked, necked]
    cases b.isActive .bottle <;> simp
    omega
  · rw [necked, necked]
    cases b.isActive .bottle <;> simp
    omega

/-- Turned over, the rows below the line come up by one. -/
theorem removeLine_get_rises (clearable : b.Clearable line x1 x2)
    (unforced : b.isActive .force = false) (rises : ¬b.Falls) (x y : Int) :
    (b.removeLine line x1 x2).get x y =
      if y < line then b.get x y
      else if Within (b.cleared line x1 x2 y) x then b.get x (y + 1)
      else if line < y ∧ Within (b.cleared line x1 x2 (y - 1)) x then none else b.get x y := by
  obtain ⟨l0, lh⟩ := clearable.line
  have hgt : btBoardHgt = 28 := rfl
  have necked (i : Int) : b.Necked line i ↔ b.isActive .bottle = true ∧ line ≤ 18 ∧ 9 ≤ i := by
    unfold Necked
    rw [if_neg rises]
    exact Iff.rfl
  obtain ⟨s, rounds, removed⟩ : ∃ s, s =
        (List.range (b.height - 1 - line).toNat).foldl (fun s (k : Nat) =>
          removeRound false line (line + 1 * k) (line + 1 * (k + 1))
            (b.isActive .bottle && decide (line + 1 * (k : Int) ≤ 18) &&
              decide (line + 1 * (k : Int) ≥ 9)) s) (b, x1, x2) ∧
      b.removeLine line x1 x2 =
        emptyRow (line + 1 * (b.height - 1 - line).toNat) s.2.1 s.2.2 s.1 := by
    refine ⟨forRange line (b.height - 1) (fun i => removeRound false line i (i + 1)
      (b.isActive .bottle && decide (i ≤ 18) && decide (i ≥ 9))) (b, x1, x2), ?_, ?_⟩
    · unfold forRange
      congr 1
      funext s k
      rw [one_mul, one_mul, ← add_assoc]
    · have tall := (forRange_invariant (m := line) (n := b.height - 1)
        (P := fun s : Board × Int × Int => Keeps b s.1)
        (fun i s _ _ keeps => keeps.trans (keeps_removeRound false line i (i + 1)
          (b.isActive .bottle && decide (i ≤ 18) && decide (i ≥ 9)) s))
        (s := (b, x1, x2)) (Keeps.refl b)).height
      have edge : line + 1 * ((b.height - 1 - line).toNat : Int) = b.height - 1 := by omega
      generalize pass : forRange line (b.height - 1) (fun i => removeRound false line i (i + 1)
        (b.isActive .bottle && decide (i ≤ 18) && decide (i ≥ 9))) (b, x1, x2) = s at tall
      have last : b.removeLine line x1 x2 = emptyRow (s.1.height - 1) s.2.1 s.2.2 s.1 := by
        rw [← pass]
        unfold removeLine
        dsimp only
        rw [if_neg (not_lt.mpr (clearable.columns.1.trans clearable.columns.2.1)), unforced]
        exact if_neg rises
      rw [last, tall, edge]
  rw [removed, @Clearable.pass_get b line x1 x2 clearable 1 (b.height - 1 - line).toNat
    (fun i => b.isActive .bottle && decide (i ≤ 18) && decide (i ≥ 9)) (.inl rfl) (by omega)
    (by omega) ?_ ?_ ?_ s rounds]
  · have order : 1 * (y - line) < 0 ↔ y < line := by omega
    have order' : 0 < 1 * (y - line) ↔ line < y := by omega
    simp only [order, order']
  · rw [necked]
    cases b.isActive .bottle <;> simp
  · intro k
    rw [necked, necked]
    cases b.isActive .bottle <;> simp
    omega
  · rw [necked, necked]
    cases bottle : b.isActive .bottle
    · simp
    · have tall := (clearable.neck bottle).2
      simp only [true_and]
      omega

/-! ## Removing a line under The Force -/

theorem overwrites_clearRow (b : Board) {line x1 x2 : Int} (le : x1 ≤ x2) :
    Overwrites (fun x y => Within (x1, x2) x ∧ y = line) (fun _ _ => none) b
      (clearRow line x1 x2 b) := by
  have whole := overwrites_forRange (m := x1) (n := x2) (b := b)
    (f := fun j b => if (b.get j line).isSome then b.set j line none else b)
    (S := fun j x y => x = j ∧ y = line) (F := fun _ _ => none) le ?_
  · refine whole.congr (fun x y _ => ?_) fun _ _ _ _ => rfl
    constructor
    · rintro ⟨within, row⟩
      exact ⟨x, within.1, within.2, rfl, row⟩
    · rintro ⟨j, low, high, rfl, row⟩
      exact ⟨⟨low, high⟩, row⟩
  · intro j c _ _ _
    split
    · exact overwrites_set c j line fun _ _ => none
    · next empty =>
      refine ⟨Keeps.refl c, ?_, fun _ _ _ => rfl⟩
      rintro x y - ⟨rfl, rfl⟩
      exact Option.not_isSome_iff_eq_none.mp empty

/-- The row on the far edge, which no round of a removal starts from. -/
def farEdge (b : Board) : Int := if b.Falls then 0 else b.height - 1

/-- A round under The Force empties the line when it starts from it. -/
theorem removeRound_force (line i src : Int) (c : Board) (x1 x2 : Int) :
    removeRound true line i src false (c, x1, x2) =
      (if i = line then clearRow line x1 x2 c else c, x1, x2) := by
  unfold removeRound
  dsimp only
  rw [if_neg Bool.false_ne_true, if_neg Bool.false_ne_true, if_pos rfl]

theorem removeLine_force {line x1 x2 : Int} (clearable : b.Clearable line x1 x2)
    (corked : b.isActive .bottle = false) (forced : b.isActive .force = true) :
    b.removeLine line x1 x2 = if line = b.farEdge then b else clearRow line x1 x2 b := by
  obtain ⟨l0, lh⟩ := clearable.line
  have columns : ¬x2 < 0 := not_lt.mpr (clearable.columns.1.trans clearable.columns.2.1)
  unfold removeLine farEdge
  dsimp only
  rw [if_neg columns, forced, corked]
  simp only [Bool.false_and, if_true]
  by_cases falls : b.Falls
  · rw [if_pos falls, if_pos (show ¬b.isActive .upbyside = true ∨ b.computer = true from falls)]
    have rounds := @forDown_induct _ 0 line (fun i => removeRound true line i (i - 1) false)
      (fun i s => s = (if i = line then b else clearRow line x1 x2 b, x1, x2)) l0
      (fun i s low high before => by
        rw [before, removeRound_force]
        have next : i - 1 ≠ line := by omega
        rcases high.lt_or_eq with lower | rfl
        · rw [if_neg lower.ne, if_neg lower.ne, if_neg next]
        · rw [if_pos rfl, if_pos rfl, if_neg next])
      (s := (b, x1, x2)) (by rw [if_pos rfl])
    rw [rounds]
    exact if_congr eq_comm rfl rfl
  · rw [if_neg falls, if_neg (show ¬(¬b.isActive .upbyside = true ∨ b.computer = true) from falls)]
    have rounds := @forRange_induct _ line (b.height - 1)
      (fun i => removeRound true line i (i + 1) false)
      (fun i s => s = (if i = line then b else clearRow line x1 x2 b, x1, x2)) (by omega)
      (fun i s low high before => by
        rw [before, removeRound_force]
        have next : i + 1 ≠ line := by omega
        rcases low.lt_or_eq with later | rfl
        · rw [if_neg later.ne', if_neg later.ne', if_neg next]
        · rw [if_pos rfl, if_pos rfl, if_neg next])
      (s := (b, x1, x2)) (by rw [if_pos rfl])
    rw [rounds]
    exact if_congr eq_comm rfl rfl

/-- Under The Force only the line goes, unless it is the one on the far edge. -/
theorem removeLine_get_force {line x1 x2 : Int} (clearable : b.Clearable line x1 x2)
    (corked : b.isActive .bottle = false) (forced : b.isActive .force = true) (x y : Int) :
    (b.removeLine line x1 x2).get x y =
      if line ≠ b.farEdge ∧ Within (x1, x2) x ∧ y = line then none else b.get x y := by
  rw [removeLine_force clearable corked forced]
  by_cases far : line = b.farEdge
  · rw [if_pos far, if_neg fun h => h.1 far]
  rw [if_neg far]
  have emptied := @overwrites_clearRow b line _ _ clearable.columns.2.1
  by_cases hit : Within (x1, x2) x ∧ y = line
  · rw [if_pos ⟨far, hit⟩]
    refine emptied.hit x y (Grid.inBounds_iff.mpr ?_) hit
    obtain ⟨⟨low, high⟩, rfl⟩ := hit
    exact ⟨clearable.columns.1.trans low, high.trans_le clearable.columns.2.2, clearable.line⟩
  · rw [if_neg fun h => hit h.2]
    exact emptied.miss x y hit

/-! ## Fall Out -/

/-- The columns between the two ledges. -/
def middle : Int × Int := (btFallOutLedge, btBoardWth - btFallOutLedge)

/-- The row at the gravity side. -/
def nearEdge (b : Board) : Int := if b.Falls then b.height - 1 else 0

theorem Keeps.falls {c : Board} (keeps : Keeps b c) : c.Falls ↔ b.Falls := by
  unfold Falls isActive
  rw [keeps.active, keeps.computer]

theorem clearable_middle {c : Board} (width : b.width = btBoardWth) (height : b.height = btBoardHgt)
    (keeps : Keeps b c) : c.Clearable b.nearEdge middle.1 middle.2 := by
  have ten : btBoardWth = 10 := rfl
  have tall : btBoardHgt = 28 := rfl
  have two : btFallOutLedge = 2 := rfl
  have three : btBottleX = 3 := rfl
  refine ⟨?_, ?_, fun _ => ?_⟩
  · rw [keeps.height, height]
    unfold nearEdge
    split <;> omega
  · rw [keeps.width, width]
    unfold middle
    dsimp only
    omega
  · rw [keeps.width, keeps.height, width, height]
    omega

theorem dropMiddle_eq (width : b.width = btBoardWth) :
    b.dropMiddle =
      forRange 0 b.height (fun _ c => c.removeLine b.nearEdge middle.1 middle.2) b := by
  have step (n : Nat) : Keeps b ((List.range n).foldl
        (fun c _ => c.removeLine b.nearEdge middle.1 middle.2) b) ∧
      (List.range n).foldl (fun c _ =>
          c.removeLine b.nearEdge btFallOutLedge (c.width - btFallOutLedge)) b =
        (List.range n).foldl (fun c _ => c.removeLine b.nearEdge middle.1 middle.2) b := by
    induction n with
    | zero => exact ⟨Keeps.refl b, rfl⟩
    | succ n ih =>
      obtain ⟨keeps, same⟩ := ih
      rw [List.range_succ, List.foldl_append, List.foldl_append, List.foldl_cons,
        List.foldl_cons, same]
      refine ⟨keeps.trans (keeps_removeLine _ _ _ _), ?_⟩
      rw [keeps.width, width]
      rfl
  unfold dropMiddle forRange
  exact (step _).2

/-- Without a Bottle every row of a pass is moved over the same columns. -/
theorem cleared_corked (corked : b.isActive .bottle = false) (line x1 x2 i : Int) :
    b.cleared line x1 x2 i = (x1, x2) := by
  unfold cleared
  refine if_neg fun necked => ?_
  rw [necked.1] at corked
  cases corked

theorem get_of_row_out {y : Int} (out : ¬(0 ≤ y ∧ y < b.height)) (x : Int) : b.get x y = none :=
  get_of_not_inBounds fun h => out (Grid.inBounds_iff.mp h).2.2

/-- One drop moves the middle towards the gravity side by one. -/
theorem drop_get {c : Board} (width : b.width = btBoardWth) (height : b.height = btBoardHgt)
    (corked : b.isActive .bottle = false) (unforced : b.isActive .force = false)
    (keeps : Keeps b c) (x : Int) {y : Int} (row : 0 ≤ y ∧ y < btBoardHgt) :
    (c.removeLine b.nearEdge middle.1 middle.2).get x y =
      if Within middle x then c.get x (if b.Falls then y - 1 else y + 1) else c.get x y := by
  have tall : btBoardHgt = 28 := rfl
  have clearable := clearable_middle width height keeps
  have columns : c.cleared b.nearEdge middle.1 middle.2 = fun _ => middle := by
    funext i
    refine cleared_corked ?_ _ _ _ _
    unfold isActive
    rw [keeps.active]
    exact corked
  have unforced' : c.isActive .force = false := by
    unfold isActive
    rw [keeps.active]
    exact unforced
  by_cases falls : b.Falls
  · have edge : b.nearEdge = btBoardHgt - 1 := by
      unfold nearEdge
      rw [if_pos falls, height]
    have above : ¬b.nearEdge < y := by omega
    rw [removeLine_get_falls clearable unforced' (keeps.falls.mpr falls), if_neg above, columns,
      if_pos falls]
    by_cases within : Within middle x
    · rw [if_pos within, if_pos within]
    · rw [if_neg within, if_neg within, if_neg fun h => within h.2]
  · have edge : b.nearEdge = 0 := by
      unfold nearEdge
      rw [if_neg falls]
    have below : ¬y < b.nearEdge := by omega
    rw [removeLine_get_rises clearable unforced' (fun h => falls (keeps.falls.mp h)),
      if_neg below, columns, if_neg falls]
    by_cases within : Within middle x
    · rw [if_pos within, if_pos within]
    · rw [if_neg within, if_neg within, if_neg fun h => within h.2]

/-- One drop after another empties the middle. -/
theorem dropMiddle_get_unforced (width : b.width = btBoardWth) (height : b.height = btBoardHgt)
    (corked : b.isActive .bottle = false) (unforced : b.isActive .force = false) (x : Int) {y : Int}
    (row : 0 ≤ y ∧ y < btBoardHgt) :
    b.dropMiddle.get x y = if Within middle x then none else b.get x y := by
  let source (n y : Int) : Int := if b.Falls then y - n else y + n
  have passed := @forRange_induct _ 0 b.height
    (fun _ c => c.removeLine b.nearEdge middle.1 middle.2)
    (fun n c => Keeps b c ∧ ∀ y, 0 ≤ y ∧ y < btBoardHgt →
      c.get x y = if Within middle x then b.get x (source n y) else b.get x y)
    (by rw [height]; decide) ?_ (s := b) ?_
  · rw [dropMiddle_eq width, passed.2 y row]
    by_cases within : Within middle x
    · rw [if_pos within, if_pos within]
      refine get_of_row_out ?_ x
      simp only [source]
      split <;> omega
    · rw [if_neg within, if_neg within]
  · rintro n c low - ⟨keeps, before⟩
    refine ⟨keeps.trans (keeps_removeLine _ _ _ _), fun y row => ?_⟩
    rw [drop_get width height corked unforced keeps x row]
    by_cases within : Within middle x
    · rw [if_pos within, if_pos within]
      have next : source (n + 1) y = source n (if b.Falls then y - 1 else y + 1) := by
        simp only [source]
        split <;> omega
      rw [next]
      by_cases inside : 0 ≤ (if b.Falls then y - 1 else y + 1) ∧
          (if b.Falls then y - 1 else y + 1) < btBoardHgt
      · rw [before _ inside, if_pos within]
      · have beyond : ¬(0 ≤ source n (if b.Falls then y - 1 else y + 1) ∧
            source n (if b.Falls then y - 1 else y + 1) < b.height) := by
          simp only [source]
          split at inside <;> rename_i falls <;> simp only [falls] <;> simp <;> omega
        rw [get_of_row_out beyond, get_of_row_out]
        rwa [keeps.height, height]
    · rw [if_neg within, if_neg within, before y row, if_neg within]
  · refine ⟨Keeps.refl b, fun y _ => ?_⟩
    have start : source 0 y = y := by
      simp only [source]
      split <;> omega
    rw [start]
    split <;> rfl

/-- Under The Force every drop empties the one row at the gravity side. -/
theorem dropMiddle_get_forced (width : b.width = btBoardWth) (height : b.height = btBoardHgt)
    (corked : b.isActive .bottle = false) (forced : b.isActive .force = true) (x y : Int) :
    b.dropMiddle.get x y = if Within middle x ∧ y = b.nearEdge then none else b.get x y := by
  have tall : btBoardHgt = 28 := rfl
  have apart : b.nearEdge ≠ b.farEdge := by
    unfold nearEdge farEdge
    split <;> omega
  have drop {c : Board} (keeps : Keeps b c) (x y : Int) :
      (c.removeLine b.nearEdge middle.1 middle.2).get x y =
        if Within middle x ∧ y = b.nearEdge then none else c.get x y := by
    have corked' : c.isActive .bottle = false := by
      unfold isActive
      rw [keeps.active]
      exact corked
    have forced' : c.isActive .force = true := by
      unfold isActive
      rw [keeps.active]
      exact forced
    have far : c.farEdge = b.farEdge := by
      unfold farEdge
      rw [keeps.height]
      exact if_congr keeps.falls rfl rfl
    rw [removeLine_get_force (clearable_middle width height keeps) corked' forced', far]
    exact if_congr (and_iff_right apart) rfl rfl
  have passed := @forRange_induct _ 0 b.height
    (fun _ c => c.removeLine b.nearEdge middle.1 middle.2)
    (fun n c => Keeps b c ∧ ∀ x y, c.get x y =
      if 0 < n ∧ Within middle x ∧ y = b.nearEdge then none else b.get x y)
    (by rw [height]; decide) ?_ (s := b) ?_
  · rw [dropMiddle_eq width, passed.2 x y]
    exact if_congr (and_iff_right (by rw [height]; decide)) rfl rfl
  · rintro n c low - ⟨keeps, before⟩
    refine ⟨keeps.trans (keeps_removeLine _ _ _ _), fun x y => ?_⟩
    have positive : 0 < n + 1 := by omega
    rw [drop keeps, before x y]
    by_cases hit : Within middle x ∧ y = b.nearEdge
    · rw [if_pos hit, if_pos ⟨positive, hit⟩]
    · rw [if_neg hit, if_neg fun h => hit h.2, if_neg fun h => hit h.2]
  · refine ⟨Keeps.refl b, fun x y => ?_⟩
    rw [if_neg fun h => absurd h.1 (lt_irrefl 0)]

theorem applyWeapon_fallOut (b : Board) (rng : Rng) :
    (b.applyWeapon .fallOut rng).2.1 = b.dropMiddle := rfl

/-- Fall Out empties the middle and leaves the ledges alone exactly if The Force is not
active, or the middle holds nothing outside the row at the gravity side. -/
theorem fallOut_drops_iff (width : b.width = btBoardWth) (height : b.height = btBoardHgt)
    (corked : b.isActive .bottle = false) (rng : Rng) :
    (∀ x y, 0 ≤ y ∧ y < btBoardHgt → (b.applyWeapon .fallOut rng).2.1.get x y =
      if btFallOutLedge ≤ x ∧ x < btBoardWth - btFallOutLedge then none else b.get x y) ↔
    (b.isActive .force = true → ∀ x y, btFallOutLedge ≤ x ∧ x < btBoardWth - btFallOutLedge →
      y ≠ b.nearEdge → b.get x y = none) := by
  rw [applyWeapon_fallOut]
  cases forced : b.isActive .force with
  | false =>
    refine iff_of_true (fun x y row => ?_) nofun
    exact dropMiddle_get_unforced width height corked forced x row
  | true =>
    constructor
    · intro empties _ x y within apart
      by_cases row : 0 ≤ y ∧ y < btBoardHgt
      · have kept := dropMiddle_get_forced width height corked forced x y
        rw [empties x y row, if_pos within, if_neg fun h => apart h.2] at kept
        exact kept.symm
      · exact get_of_row_out (by rwa [height]) x
    · intro bare x y row
      rw [dropMiddle_get_forced width height corked forced]
      by_cases within : btFallOutLedge ≤ x ∧ x < btBoardWth - btFallOutLedge
      · rw [if_pos within]
        by_cases near : y = b.nearEdge
        · exact if_pos ⟨within, near⟩
        · rw [if_neg fun h => near h.2]
          exact bare rfl x y within near
      · rw [if_neg within, if_neg fun h => within h.1]

/-- One green box in the middle, and The Force active. -/
def boxed : Board :=
  ((standard false).set 5 20 (some (Cell.color btGreen))).setActive .force true

theorem fallOut_drops_iff_boxed :
    (∀ x y, 0 ≤ y ∧ y < btBoardHgt → (boxed.applyWeapon .fallOut (Rng.new 0)).2.1.get x y =
      if btFallOutLedge ≤ x ∧ x < btBoardWth - btFallOutLedge then none else boxed.get x y) ↔
    (boxed.isActive .force = true → ∀ x y, btFallOutLedge ≤ x ∧ x < btBoardWth - btFallOutLedge →
      y ≠ boxed.nearEdge → boxed.get x y = none) :=
  fallOut_drops_iff (by decide) (by decide) (by decide) (Rng.new 0)

/-- The box is still there after Fall Out. -/
theorem fallOut_leaves_box :
    (boxed.applyWeapon .fallOut (Rng.new 0)).2.1.get 5 20 = some (Cell.color btGreen) := by
  have edge : boxed.nearEdge = 27 := by decide
  have planted : boxed.get 5 20 = some (Cell.color btGreen) :=
    get_set_self (b := standard false) (by decide) (some (Cell.color btGreen))
  rw [applyWeapon_fallOut, dropMiddle_get_forced (by decide) (by decide) (by decide) (by decide),
    if_neg fun near => absurd near.2 (by rw [edge]; decide)]
  exact planted

end Board

end BattleTris
