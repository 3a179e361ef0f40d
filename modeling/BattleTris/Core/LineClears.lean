import BattleTris.Core.Removal

/-!
What a line check makes of a board, seen as a list of rows.

Without The Force the rows that are not full end up packed at the gravity side, in their
order, and every smiley in them is a frown.  Under The Force the full rows are emptied where
they are, all but the one on the far edge.
-/

namespace BattleTris

open Loop

/-! ## Rows -/

/-- The squares of a row, from the left. -/
abbrev Row := List (Option Cell)

namespace Row

def full (r : Row) : Bool := r.all Option.isSome

/-- The sum of the values of a row's cells. -/
def worth (r : Row) : Int := (r.map fun square => square.elim 0 Cell.value).sum

/-- The row with its smileys landed. -/
def landed (r : Row) : Row := r.map (Option.map Cell.landed)

/-- What is left of a list of rows when the full ones go. -/
def kept (rows : List Row) : List Row := (rows.filter fun r => !r.full).map landed

/-- The value of the full rows of a list. -/
def value (rows : List Row) : Int := ((rows.filter full).map worth).sum

@[simp] theorem full_landed (r : Row) : r.landed.full = r.full := by
  unfold full landed
  rw [List.all_map]
  congr 1
  funext square
  cases square <;> rfl

@[simp] theorem landed_landed (r : Row) : r.landed.landed = r.landed := by
  unfold landed
  rw [List.map_map]
  congr 1
  funext square
  rcases square with _ | ⟨kind, hidden⟩
  · rfl
  · cases kind <;> rfl

/-- A row that was not full and has been checked. -/
def Settled (r : Row) : Prop := r.full = false ∧ r.landed = r

theorem settled_landed {r : Row} (gap : r.full = false) : r.landed.Settled :=
  ⟨(full_landed r).trans gap, landed_landed r⟩

theorem kept_append (rows rows' : List Row) : kept (rows ++ rows') = kept rows ++ kept rows' := by
  unfold kept
  rw [List.filter_append, List.map_append]

theorem value_append (rows rows' : List Row) :
    value (rows ++ rows') = value rows + value rows' := by
  unfold value
  rw [List.filter_append, List.map_append, List.sum_append]

theorem kept_cons_full {r : Row} (whole : r.full = true) (rows : List Row) :
    kept (r :: rows) = kept rows := by
  unfold kept
  rw [List.filter_cons_of_neg (by simp [whole])]

theorem kept_cons_gap {r : Row} (gap : r.full = false) (rows : List Row) :
    kept (r :: rows) = r.landed :: kept rows := by
  unfold kept
  rw [List.filter_cons_of_pos (by simp [gap]), List.map_cons]

theorem value_cons_full {r : Row} (whole : r.full = true) (rows : List Row) :
    value (r :: rows) = r.worth + value rows := by
  unfold value
  rw [List.filter_cons_of_pos whole, List.map_cons, List.sum_cons]

theorem value_cons_gap {r : Row} (gap : r.full = false) (rows : List Row) :
    value (r :: rows) = value rows := by
  unfold value
  rw [List.filter_cons_of_neg (by simp [gap])]

end Row

namespace Board

variable {b : Board}

/-- Row `y` of the board. -/
def row (b : Board) (y : Int) : Row := (List.range b.width.toNat).map fun (x : Nat) => b.get x y

/-- The rows of the board, from the top. -/
def rows (b : Board) : List Row := (List.range b.height.toNat).map fun (y : Nat) => b.row y

/-- An empty row. -/
def blank (b : Board) : Row := List.replicate b.width.toNat none

@[simp] theorem length_rows (b : Board) : b.rows.length = b.height.toNat := by
  unfold rows
  rw [List.length_map, List.length_range]

@[simp] theorem length_row (b : Board) (y : Int) : (b.row y).length = b.width.toNat := by
  unfold row
  rw [List.length_map, List.length_range]

theorem getElem_rows {y : Nat} (below : y < b.rows.length) : b.rows[y] = b.row y := by
  simp [rows]

theorem row_congr {c : Board} {y y' : Int} (width : c.width = b.width)
    (same : ∀ x, 0 ≤ x → x < b.width → c.get x y = b.get x y') : c.row y = b.row y' := by
  unfold row
  rw [width]
  refine List.map_congr_left fun x below => ?_
  have := List.mem_range.mp below
  exact same x (by omega) (by omega)

theorem row_eq_blank {c : Board} {y : Int} (width : c.width = b.width)
    (empty : ∀ x, 0 ≤ x → x < b.width → c.get x y = none) : c.row y = b.blank := by
  unfold row blank
  rw [width]
  refine List.eq_replicate_iff.mpr ⟨by simp, fun square member => ?_⟩
  obtain ⟨x, below, rfl⟩ := List.mem_map.mp member
  have := List.mem_range.mp below
  exact empty x (by omega) (by omega)

theorem full_row {y : Int} :
    (b.row y).full = true ↔ ∀ x, 0 ≤ x → x < b.width → (b.get x y).isSome = true := by
  unfold Row.full row
  rw [List.all_map, List.all_eq_true]
  constructor
  · intro filled x low high
    have square := filled x.toNat (List.mem_range.mpr (by omega))
    rwa [Function.comp_apply, Int.toNat_of_nonneg low] at square
  · intro filled x below
    have := List.mem_range.mp below
    exact filled x (by omega) (by omega)

/-- Two boards of one size with the same rows have the same squares. -/
theorem get_of_rows {c : Board} (width : c.width = b.width) (height : c.height = b.height)
    (same : c.rows = b.rows) (x y : Int) : c.get x y = b.get x y := by
  by_cases inside : b.inBounds x y = true
  · obtain ⟨x0, xw, y0, yh⟩ := Grid.inBounds_iff.mp inside
    have below : y.toNat < b.rows.length := by
      rw [length_rows]
      omega
    have at_y : c.row y = b.row y := by
      have rows := getElem_rows (b := c) (y := y.toNat) (by rwa [same])
      have rows' := getElem_rows below
      rw [Int.toNat_of_nonneg y0] at rows rows'
      rw [← rows, ← rows']
      congr 1
    have left : x.toNat < (c.row y).length := by
      rw [length_row, width]
      omega
    have squares : (c.row y)[x.toNat]? = (b.row y)[x.toNat]? := by rw [at_y]
    unfold row at squares
    have across : x.toNat < b.width.toNat := by omega
    simpa [width, across, Int.toNat_of_nonneg x0] using squares
  · have outside : ¬c.inBounds x y = true := by
      rw [Grid.inBounds_iff] at inside ⊢
      rwa [width, height]
    rw [get_of_not_inBounds inside, get_of_not_inBounds outside]

theorem blank_settled (wide : 0 < b.width) : b.blank.Settled := by
  obtain ⟨n, size⟩ : ∃ n, b.width.toNat = n + 1 := ⟨b.width.toNat - 1, by omega⟩
  unfold blank
  rw [size]
  constructor
  · rfl
  · unfold Row.landed
    rw [List.map_replicate]
    rfl

/-! ## The rounds of a line check -/

/-- The run of a row ends at its right end exactly if the row is full, with what it is worth. -/
theorem rowRun_full (b : Board) (j : Int) :
    (b.rowRun j b.width.toNat 0 0).1 = b.width.toNat ↔ (b.row j).full = true := by
  have run (n : Nat) (i value : Int) : (b.rowRun j n i value).1 ≤ i + n ∧
      ((b.rowRun j n i value).1 = i + n ↔ ∀ k : Nat, k < n → (b.get (i + k) j).isSome = true) := by
    induction n generalizing i value with
    | zero =>
      unfold rowRun
      simp
    | succ n ih =>
      unfold rowRun
      cases found : b.get i j with
      | none =>
        dsimp only
        refine ⟨by omega, iff_of_false (by omega) fun filled => ?_⟩
        have first := filled 0 (Nat.succ_pos n)
        rw [Nat.cast_zero, add_zero, found] at first
        cases first
      | some c =>
        obtain ⟨least, whole⟩ := ih (i + 1) (value + c.value)
        dsimp only
        rw [show i + ((n + 1 : Nat) : Int) = i + 1 + n by omega]
        refine ⟨least, whole.trans ⟨fun filled k below => ?_, fun filled k below => ?_⟩⟩
        · cases k with
          | zero =>
            rw [Nat.cast_zero, add_zero, found]
            rfl
          | succ k =>
            rw [show i + ((k + 1 : Nat) : Int) = i + 1 + k by omega]
            exact filled k (by omega)
        · rw [show i + 1 + (k : Int) = i + ((k + 1 : Nat) : Int) by omega]
          exact filled (k + 1) (by omega)
  have whole := (run b.width.toNat 0 0).2
  rw [zero_add] at whole
  rw [whole]
  unfold Row.full row
  rw [List.all_map, List.all_eq_true]
  simp only [List.mem_range, zero_add, Function.comp_apply]

theorem rowRun_worth {j : Int} (whole : (b.row j).full = true) :
    (b.rowRun j b.width.toNat 0 0).2 = (b.row j).worth := by
  have run (n : Nat) (i value : Int) (filled : ∀ k : Nat, k < n → (b.get (i + k) j).isSome = true) :
      (b.rowRun j n i value).2 =
        value + ((List.range n).map fun (k : Nat) => (b.get (i + k) j).elim 0 Cell.value).sum := by
    induction n generalizing i value with
    | zero =>
      unfold rowRun
      simp
    | succ n ih =>
      have first := filled 0 (Nat.succ_pos n)
      rw [Nat.cast_zero, add_zero] at first
      obtain ⟨c, found⟩ := Option.isSome_iff_exists.mp first
      unfold rowRun
      rw [found]
      dsimp only
      rw [ih (i + 1) (value + c.value) fun k below => by
        rw [show i + 1 + (k : Int) = i + ((k + 1 : Nat) : Int) by omega]
        exact filled (k + 1) (by omega)]
      rw [List.range_succ_eq_map, List.map_cons, List.sum_cons, Nat.cast_zero, add_zero, found,
        List.map_map, add_assoc]
      congr 3
      refine List.map_congr_left fun k _ => ?_
      rw [Function.comp_apply, show i + ((k.succ : Nat) : Int) = i + 1 + k by omega]
  rw [run _ 0 0 fun k below => full_row.mp whole _ (by omega) (by omega), zero_add]
  unfold Row.worth row
  rw [List.map_map]
  simp only [zero_add, Function.comp_def]

theorem Cell.landed_of_value {c : Cell} (plain : c.value ≠ btHappyVal) : c.landed = c := by
  obtain ⟨kind, hidden⟩ := c
  cases kind with
  | happy landed =>
    cases landed with
    | false => exact absurd rfl plain
    | true => rfl
  | _ => rfl

theorem frownRow_get (wide : 0 ≤ b.width) (j x y : Int) :
    (b.frownRow j).get x y = if y = j then (b.get x y).map Cell.landed else b.get x y := by
  have whole : Overwrites (fun x y => ∃ i, 0 ≤ i ∧ i < b.width ∧ x = i ∧ y = j)
      (fun x y => (b.get x y).map Cell.landed) b (b.frownRow j) := by
    refine overwrites_forRange (S := fun i x y => x = i ∧ y = j) wide ?_
    intro i c low high before
    have fresh : c.get i j = b.get i j :=
      before.miss i j (by rintro ⟨k, -, less, rfl, -⟩; omega)
    cases found : c.get i j with
    | none =>
      refine ⟨Keeps.refl c, ?_, fun _ _ _ => rfl⟩
      rintro x y - ⟨rfl, rfl⟩
      rw [← fresh, found]
      rfl
    | some cell =>
      dsimp only
      by_cases smiley : cell.value = btHappyVal
      · rw [if_pos smiley]
        have written := overwrites_set c i j fun x y => (b.get x y).map Cell.landed
        rw [← fresh, found] at written
        exact ⟨written.keeps.marked _ _, written.hit, written.miss⟩
      · rw [if_neg smiley]
        refine ⟨Keeps.refl c, ?_, fun _ _ _ => rfl⟩
        rintro x y - ⟨rfl, rfl⟩
        rw [← fresh, found, Option.map_some, Cell.landed_of_value smiley]
  by_cases hit : y = j
  · rw [if_pos hit]
    by_cases inside : b.inBounds x y = true
    · have bounds := Grid.inBounds_iff.mp inside
      exact whole.hit x y inside ⟨x, bounds.1, bounds.2.1, rfl, hit⟩
    · have out := get_of_not_inBounds (b := b.frownRow j) (x := x) (y := y) (by
        rwa [(keeps_frownRow b j).inBounds])
      rw [out, get_of_not_inBounds inside]
      rfl
  · rw [if_neg hit]
    refine whole.miss x y ?_
    rintro ⟨_, _, _, _, same⟩
    exact hit same

theorem rows_frownRow (wide : 0 ≤ b.width) (j : Nat) :
    (b.frownRow j).rows = b.rows.modify j Row.landed := by
  refine List.ext_getElem (by simp [(keeps_frownRow b j).height]) fun y below below' => ?_
  rw [getElem_rows, List.getElem_modify, getElem_rows]
  split
  · next same =>
    subst same
    unfold row Row.landed
    rw [List.map_map, (keeps_frownRow b j).width]
    refine List.map_congr_left fun x _ => ?_
    rw [frownRow_get wide, if_pos rfl]
    rfl
  · next other =>
    refine row_congr (keeps_frownRow b j).width fun x _ _ => ?_
    rw [frownRow_get wide, if_neg (by omega)]

/-- The whole width of a row can go. -/
theorem clearable_whole (wide : 0 ≤ b.width) (corked : b.isActive .bottle = false) {j : Nat}
    (below : j < b.height.toNat) : b.Clearable j 0 b.width := by
  refine ⟨⟨by omega, by omega⟩, ⟨le_rfl, wide, le_rfl⟩, fun bottle => ?_⟩
  rw [corked] at bottle
  cases bottle

/-- Under normal gravity a removed row goes, and an empty one comes in at the top. -/
theorem rows_removeLine_falls (wide : 0 ≤ b.width) (corked : b.isActive .bottle = false)
    (unforced : b.isActive .force = false) (falls : b.Falls) {j : Nat}
    (below : j < b.height.toNat) :
    (b.removeLine j 0 b.width).rows = b.blank :: b.rows.eraseIdx j := by
  have keeps := keeps_removeLine b j 0 b.width
  have clearable := clearable_whole wide corked below
  refine List.ext_getElem ?_ fun y low _ => ?_
  · rw [length_rows, keeps.height, List.length_cons, List.length_eraseIdx, length_rows,
      if_pos below]
    omega
  rw [length_rows, keeps.height] at low
  rw [getElem_rows]
  have square (x : Int) (x0 : 0 ≤ x) (xw : x < b.width) :
      (b.removeLine j 0 b.width).get x y =
        if (j : Int) < y then b.get x y else b.get x (y - 1) := by
    rw [removeLine_get_falls clearable unforced falls, cleared_corked corked]
    rw [if_pos (show Within (0, b.width) x from ⟨x0, xw⟩)]
  cases y with
  | zero =>
    rw [List.getElem_cons_zero]
    have blank : b.row (-1) = b.blank := row_eq_blank rfl fun x _ _ => get_of_row_out (by omega) x
    rw [← blank]
    refine row_congr keeps.width fun x x0 xw => ?_
    rw [square x x0 xw, if_neg (by omega)]
    rfl
  | succ y =>
    rw [List.getElem_cons_succ, List.getElem_eraseIdx]
    split
    · next above =>
      rw [getElem_rows]
      refine row_congr keeps.width fun x x0 xw => ?_
      rw [square x x0 xw, if_neg (by omega)]
      congr 1
      omega
    · next past =>
      rw [getElem_rows]
      refine row_congr keeps.width fun x x0 xw => ?_
      rw [square x x0 xw, if_pos (by omega)]

/-- Turned over, the empty row comes in at the bottom. -/
theorem rows_removeLine_rises (wide : 0 ≤ b.width) (corked : b.isActive .bottle = false)
    (unforced : b.isActive .force = false) (rises : ¬b.Falls) {j : Nat}
    (below : j < b.height.toNat) :
    (b.removeLine j 0 b.width).rows = b.rows.eraseIdx j ++ [b.blank] := by
  have keeps := keeps_removeLine b j 0 b.width
  have clearable := clearable_whole wide corked below
  have short : (b.rows.eraseIdx j).length = b.height.toNat - 1 := by
    rw [List.length_eraseIdx, length_rows, if_pos below]
  refine List.ext_getElem ?_ fun y low _ => ?_
  · rw [length_rows, keeps.height, List.length_append, short, List.length_singleton]
    omega
  rw [length_rows, keeps.height] at low
  rw [getElem_rows]
  have square (x : Int) (x0 : 0 ≤ x) (xw : x < b.width) :
      (b.removeLine j 0 b.width).get x y =
        if (y : Int) < j then b.get x y else b.get x (y + 1) := by
    rw [removeLine_get_rises clearable unforced rises, cleared_corked corked]
    rw [if_pos (show Within (0, b.width) x from ⟨x0, xw⟩)]
  by_cases last : y < b.height.toNat - 1
  · rw [List.getElem_append_left (by rwa [short]), List.getElem_eraseIdx]
    split
    · next before =>
      rw [getElem_rows]
      refine row_congr keeps.width fun x x0 xw => ?_
      rw [square x x0 xw, if_pos (by omega)]
    · next past =>
      rw [getElem_rows]
      refine row_congr keeps.width fun x x0 xw => ?_
      rw [square x x0 xw, if_neg (by omega)]
      rfl
  · rw [List.getElem_append_right (by rw [short]; omega), List.getElem_singleton]
    have blank : b.row (y + 1) = b.blank :=
      row_eq_blank rfl fun x _ _ => get_of_row_out (by omega) x
    rw [← blank]
    refine row_congr keeps.width fun x x0 xw => ?_
    rw [square x x0 xw, if_neg (by omega)]

/-- Under The Force the row is emptied where it is, unless it is the one on the far edge. -/
theorem rows_removeLine_force (wide : 0 ≤ b.width) (corked : b.isActive .bottle = false)
    (forced : b.isActive .force = true) {j : Nat} (below : j < b.height.toNat) :
    (b.removeLine j 0 b.width).rows =
      if (j : Int) = b.farEdge then b.rows else b.rows.set j b.blank := by
  have keeps := keeps_removeLine b j 0 b.width
  have clearable := clearable_whole wide corked below
  by_cases far : (j : Int) = b.farEdge
  · rw [if_pos far, removeLine_force clearable corked forced, if_pos far]
  rw [if_neg far]
  refine List.ext_getElem (by simp [keeps.height]) fun y low _ => ?_
  rw [getElem_rows, List.getElem_set]
  split
  · next same =>
    subst same
    refine row_eq_blank keeps.width fun x x0 xw => ?_
    rw [removeLine_get_force clearable corked forced, if_pos ⟨far, ⟨x0, xw⟩, rfl⟩]
  · next other =>
    rw [getElem_rows]
    refine row_congr keeps.width fun x x0 xw => ?_
    rw [removeLine_get_force clearable corked forced, if_neg]
    rintro ⟨-, -, same⟩
    exact other (by omega)

/-! ## The main pass -/

/-- The main pass from row `j`, with the value and the lines so far, comes to its end, and
these are the board, the value and the lines it ends with. -/
inductive Checked : Int → Board → Int → Int → Board × Int × Int → Prop
  | done {j b value lines} : ¬0 ≤ j → Checked j b value lines (b, value, lines)
  | line {j b value lines nvalue r} : 0 ≤ j →
      b.rowRun j b.width.toNat 0 0 = (b.width, nvalue) →
      Checked (if b.isActive .force then j - 1 else j) (b.removeLine j 0 b.width)
        (value + nvalue) (lines + 1) r →
      Checked j b value lines r
  | noLine {j b value lines r} : 0 ≤ j → (b.rowRun j b.width.toNat 0 0).1 ≠ b.width →
      Checked (j - 1) (b.frownRow j) value lines r →
      Checked j b value lines r

/-- A round at a full row. -/
theorem checkRows_full {j : Int} (low : 0 ≤ j) (wide : 0 ≤ b.width)
    (whole : (b.row j).full = true) (fuel : Nat) (value lines : Int) :
    checkRows (fuel + 1) j b value lines =
      checkRows fuel (if b.isActive .force then j - 1 else j) (b.removeLine j 0 b.width)
        (value + (b.row j).worth) (lines + 1) := by
  have run := (rowRun_full b j).mpr whole
  rw [Int.toNat_of_nonneg wide] at run
  rw [checkRows, if_pos low]
  dsimp only
  rw [if_pos run, rowRun_worth whole]

/-- A round at a row that is not. -/
theorem checkRows_gap {j : Int} (low : 0 ≤ j) (wide : 0 ≤ b.width)
    (gap : (b.row j).full = false) (fuel : Nat) (value lines : Int) :
    checkRows (fuel + 1) j b value lines = checkRows fuel (j - 1) (b.frownRow j) value lines := by
  have run : (b.rowRun j b.width.toNat 0 0).1 ≠ b.width := fun run => by
    have whole := (rowRun_full b j).mp (run.trans (Int.toNat_of_nonneg wide).symm)
    rw [whole] at gap
    cases gap
  rw [checkRows, if_pos low]
  dsimp only
  rw [if_neg run]

theorem Checked.full {j value lines : Int} {r : Board × Int × Int} (low : 0 ≤ j)
    (wide : 0 ≤ b.width) (whole : (b.row j).full = true)
    (rest : Checked (if b.isActive .force then j - 1 else j) (b.removeLine j 0 b.width)
      (value + (b.row j).worth) (lines + 1) r) : Checked j b value lines r := by
  refine .line low ?_ rest
  have run := (rowRun_full b j).mpr whole
  rw [Int.toNat_of_nonneg wide] at run
  exact Prod.ext run (rowRun_worth whole)

theorem Checked.gap {j value lines : Int} {r : Board × Int × Int} (low : 0 ≤ j)
    (wide : 0 ≤ b.width) (gap : (b.row j).full = false)
    (rest : Checked (j - 1) (b.frownRow j) value lines r) : Checked j b value lines r := by
  refine .noLine low (fun run => ?_) rest
  have whole := (rowRun_full b j).mp (run.trans (Int.toNat_of_nonneg wide).symm)
  rw [whole] at gap
  cases gap

/-- Where the full rows' places go: empty rows on the far side of what is kept. -/
def packed (b : Board) (gone : Nat) (rows : List Row) : List Row :=
  if b.Falls then List.replicate gone b.blank ++ rows else rows ++ List.replicate gone b.blank

/-- Neither a Bottle nor The Force, and at least one column. -/
structure Plain (b : Board) : Prop where
  wide : 0 < b.width
  corked : b.isActive .bottle = false
  unforced : b.isActive .force = false

theorem Plain.keeps {c : Board} (plain : b.Plain) (keeps : Keeps b c) : c.Plain := by
  refine ⟨by rw [keeps.width]; exact plain.wide, ?_, ?_⟩
  · unfold isActive
    rw [keeps.active]
    exact plain.corked
  · unfold isActive
    rw [keeps.active]
    exact plain.unforced

theorem Keeps.blank {c : Board} (keeps : Keeps b c) : c.blank = b.blank := by
  unfold Board.blank
  rw [keeps.width]

theorem Keeps.packed {c : Board} (keeps : Keeps b c) (gone : Nat) (rows : List Row) :
    c.packed gone rows = b.packed gone rows := by
  unfold Board.packed
  rw [keeps.blank]
  exact if_congr keeps.falls rfl rfl

/-- One more empty row on the far side. -/
theorem packed_succ (gone : Nat) (rows : List Row) :
    b.packed (gone + 1) rows = b.packed gone (b.packed 1 rows) := by
  unfold packed
  by_cases falls : b.Falls
  · rw [if_pos falls, if_pos falls, if_pos falls, List.replicate_succ']
    simp
  · rw [if_neg falls, if_neg falls, if_neg falls, List.replicate_succ]
    simp

/-- A removed row goes, and an empty one comes in on the far side. -/
theorem rows_removeLine (plain : b.Plain) {before after : List Row} {r : Row}
    (rows : b.rows = before ++ r :: after) :
    (b.removeLine before.length 0 b.width).rows = b.packed 1 (before ++ after) := by
  have below : before.length < b.height.toNat := by
    rw [← length_rows, rows, List.length_append, List.length_cons]
    omega
  have gone : b.rows.eraseIdx before.length = before ++ after := by
    rw [rows, List.eraseIdx_append_of_length_le le_rfl, Nat.sub_self, List.eraseIdx_cons_zero]
  unfold packed
  by_cases falls : b.Falls
  · rw [if_pos falls, rows_removeLine_falls plain.wide.le plain.corked plain.unforced falls below,
      gone]
    rfl
  · rw [if_neg falls, rows_removeLine_rises plain.wide.le plain.corked plain.unforced falls below,
      gone]
    rfl

/-- The row on which a round of the main pass stands. -/
theorem row_length {before after : List Row} {r : Row} (rows : b.rows = before ++ r :: after) :
    b.row before.length = r := by
  have below : before.length < b.rows.length := by
    rw [rows, List.length_append, List.length_cons]
    omega
  rw [← getElem_rows below]
  simp [rows]

theorem rows_frownRow_length (wide : 0 ≤ b.width) {before after : List Row} {r : Row}
    (rows : b.rows = before ++ r :: after) :
    (b.frownRow before.length).rows = before ++ r.landed :: after := by
  rw [rows_frownRow wide, rows, List.modify_eq_take_cons_drop (by simp)]
  simp

/-- Seen from the place of the removed row, it is as if one more row had been settled, or had
never been full. -/
theorem packed_one_split (plain : b.Plain) (before : List Row) {past : List Row}
    (settled : ∀ r ∈ past, r.Settled) :
    ∃ todo past', b.packed 1 (before ++ past) = todo ++ past' ∧
      todo.length = before.length + 1 ∧ todo.countP Row.full = before.countP Row.full ∧
      Row.value todo = Row.value before ∧ (∀ s ∈ past', s.Settled) ∧
      Row.kept todo ++ past' = b.packed 1 (Row.kept before ++ past) := by
  have blank := blank_settled plain.wide
  unfold packed
  by_cases falls : b.Falls
  · rw [if_pos falls, if_pos falls]
    refine ⟨b.blank :: before, past, rfl, by simp, by simp [blank.1], ?_, settled, ?_⟩
    · exact Row.value_cons_gap blank.1 before
    · rw [Row.kept_cons_gap blank.1, blank.2]
      rfl
  · rw [if_neg falls, if_neg falls]
    have allSettled : ∀ s ∈ past ++ List.replicate 1 b.blank, s.Settled := fun s member => by
      rcases List.mem_append.mp member with member | member
      · exact settled s member
      · rw [List.eq_of_mem_replicate member]
        exact blank
    obtain ⟨first, others, split⟩ :
        ∃ first others, past ++ List.replicate 1 b.blank = first :: others :=
      List.exists_cons_of_ne_nil (by simp)
    rw [split] at allSettled
    have firstSettled := allSettled first List.mem_cons_self
    refine ⟨before ++ [first], others, ?_, by simp, by simp [firstSettled.1], ?_,
      fun s member => allSettled s (List.mem_cons_of_mem first member), ?_⟩
    · rw [List.append_assoc, List.append_assoc, split]
      rfl
    · rw [Row.value_append, Row.value_cons_gap firstSettled.1]
      exact add_zero _
    · rw [Row.kept_append, Row.kept_cons_gap firstSettled.1, firstSettled.2, List.append_assoc,
        List.append_assoc, split]
      rfl

/-- What the main pass does from a row on, when the rows past it are settled. -/
theorem checkRows_packs (fuel : Nat) (todo past : List Row) (plain : b.Plain)
    (rows : b.rows = todo ++ past) (settled : ∀ r ∈ past, r.Settled)
    (enough : todo.length + todo.countP Row.full < fuel) (value lines : Int) :
    ∃ c, checkRows fuel (todo.length - 1) b value lines =
        (c, value + Row.value todo, lines + todo.countP Row.full) ∧
      Checked (todo.length - 1) b value lines
        (c, value + Row.value todo, lines + todo.countP Row.full) ∧
      c.rows = b.packed (todo.countP Row.full) (Row.kept todo ++ past) := by
  induction fuel generalizing b todo past value lines with
  | zero => omega
  | succ fuel ih =>
    rcases List.eq_nil_or_concat todo with rfl | ⟨before, r, rfl⟩
    · -- no row is left
      refine ⟨b, ?_⟩
      have none : Row.value [] = 0 := rfl
      have ended : ¬0 ≤ (([] : List Row).length : Int) - 1 := by simp
      rw [none, List.countP_nil, Nat.cast_zero, add_zero, add_zero]
      refine ⟨?_, .done ended, ?_⟩
      · rw [checkRows, if_neg ended]
      · unfold packed
        rw [rows]
        split <;> simp [Row.kept]
    · rw [List.concat_eq_append] at rows enough ⊢
      rw [List.append_assoc, List.singleton_append] at rows
      have here : ((before ++ [r]).length : Int) - 1 = before.length := by simp
      have low : (0 : Int) ≤ before.length := by omega
      have row := row_length rows
      rw [here]
      cases whole : r.full with
      | false =>
        -- no line: its smileys land, and the pass moves on
        have frowned := rows_frownRow_length plain.wide.le rows
        have keeps := keeps_frownRow b before.length
        have count : (before ++ [r]).countP Row.full = before.countP Row.full := by
          simp [whole]
        have worth : Row.value (before ++ [r]) = Row.value before := by
          rw [Row.value_append, Row.value_cons_gap whole]
          exact add_zero _
        have left : Row.kept (before ++ [r]) ++ past = Row.kept before ++ r.landed :: past := by
          rw [Row.kept_append, Row.kept_cons_gap whole]
          simp [Row.kept]
        rw [count] at enough ⊢
        rw [List.length_append, List.length_singleton] at enough
        rw [worth, left]
        obtain ⟨c, result, checked, final⟩ := ih before (r.landed :: past) (plain.keeps keeps)
          frowned (fun s member => by
            rcases List.mem_cons.mp member with rfl | member
            · exact Row.settled_landed whole
            · exact settled s member) (by omega) value lines
        refine ⟨c, ?_, ?_, ?_⟩
        · rw [checkRows_gap low plain.wide.le (by rw [row, whole]), result]
        · exact .gap low plain.wide.le (by rw [row, whole]) checked
        · rw [final, keeps.packed]
      | true =>
        -- a line: the pass stays at the row that takes its place
        have removed := rows_removeLine plain rows
        have keeps := keeps_removeLine b before.length 0 b.width
        have blank := blank_settled plain.wide
        have count : (before ++ [r]).countP Row.full = before.countP Row.full + 1 := by
          simp [whole]
        have worth : Row.value (before ++ [r]) = Row.value before + r.worth := by
          rw [Row.value_append, Row.value_cons_full whole]
          exact congrArg _ (add_zero _)
        have left : Row.kept (before ++ [r]) = Row.kept before := by
          rw [Row.kept_append, Row.kept_cons_full whole]
          exact List.append_nil _
        rw [count] at enough ⊢
        rw [List.length_append, List.length_singleton] at enough
        rw [worth, left]
        have stays : (if b.isActive .force then (before.length : Int) - 1 else before.length) =
            before.length := by
          rw [plain.unforced]
          rfl
        obtain ⟨todo', past', rows', size, gone, worth', settled', kept'⟩ :=
          packed_one_split plain before settled
        rw [← removed] at rows'
        obtain ⟨c, result, checked, final⟩ := ih todo' past' (plain.keeps keeps) rows' settled'
          (by omega) (value + r.worth) (lines + 1)
        have at_row : (todo'.length : Int) - 1 = before.length := by omega
        have sum : value + (Row.value before + r.worth) = value + r.worth + Row.value before := by
          ring
        have lines' : lines + ((before.countP Row.full + 1 : Nat) : Int) =
            lines + 1 + before.countP Row.full := by
          push_cast
          ring
        rw [at_row, worth', gone] at result checked
        rw [sum, lines']
        refine ⟨c, ?_, ?_, ?_⟩
        · rw [checkRows_full low plain.wide.le (by rw [row, whole]), row, stays, result]
        · refine .full low plain.wide.le (by rw [row, whole]) ?_
          rw [row, stays]
          exact checked
        · rw [final, gone, keeps.packed, kept', ← packed_succ]

/-! ## The line check -/

theorem checkFuel_enough (wide : 0 < b.width) :
    b.rows.length + b.rows.countP Row.full < b.checkFuel := by
  have count := List.countP_le_length (p := Row.full) (l := b.rows)
  rw [length_rows] at count ⊢
  unfold checkFuel
  have cells : b.height.toNat ≤ b.cells.length := by
    rw [b.size]
    rcases le_or_gt b.height 0 with low | high
    · omega
    · have : b.height ≤ b.width * b.height := by nlinarith
      omega
  omega

/-- The main pass from the last row. -/
theorem checkLines_eq (b : Board) {c : Board} {value lines : Int}
    (pass : checkRows b.checkFuel (b.height - 1) b 0 0 = (c, value, lines)) :
    b.checkLines.1 = (if lines = 0 then .none else ⟨lines, value, value * lines⟩) ∧
      b.checkLines.2.rows = c.rows := by
  unfold checkLines
  rw [pass]
  dsimp only
  split
  · refine ⟨rfl, ?_⟩
    split <;> rfl
  · refine ⟨rfl, ?_⟩
    split <;> rfl

/-- The main pass of a line check. -/
theorem checkRows_board (plain : b.Plain) :
    ∃ c, checkRows b.checkFuel (b.height - 1) b 0 0 =
        (c, Row.value b.rows, ((b.rows.countP Row.full : Nat) : Int)) ∧
      Checked (b.height - 1) b 0 0 (c, Row.value b.rows, ((b.rows.countP Row.full : Nat) : Int)) ∧
      c.rows = b.packed (b.rows.countP Row.full) (Row.kept b.rows) := by
  rcases lt_or_ge b.height 0 with under | nonneg
  · -- a board without rows
    have none : b.rows = [] := List.length_eq_zero_iff.mp (by rw [length_rows]; omega)
    refine ⟨b, ?_, ?_, ?_⟩
    · rw [none, checkFuel, checkRows, if_neg (by omega)]
      rfl
    · rw [none]
      exact .done (by omega)
    · rw [none]
      unfold packed
      split <;> rfl
  · have last : (b.rows.length : Int) - 1 = b.height - 1 := by
      rw [length_rows]
      omega
    obtain ⟨c, result, checked, final⟩ := checkRows_packs b.checkFuel b.rows [] plain
      (List.append_nil _).symm (fun r member => absurd member List.not_mem_nil)
      (checkFuel_enough plain.wide) 0 0
    rw [last, zero_add, zero_add] at result checked
    rw [List.append_nil] at final
    exact ⟨c, result, checked, final⟩

/-- What The Force makes of row `y`: a full one is emptied unless it is on the far edge. -/
def forced (b : Board) (y : Nat) (r : Row) : Row :=
  if r.full then if (y : Int) = b.farEdge then r else b.blank else r.landed

theorem Keeps.forced {c : Board} (keeps : Keeps b c) : c.forced = b.forced := by
  funext y r
  unfold Board.forced farEdge
  rw [keeps.blank, keeps.height]
  simp only [keeps.falls]

/-- The main pass under The Force leaves every row at its place. -/
theorem checkRows_force (fuel : Nat) (todo past : List Row) (wide : 0 < b.width)
    (corked : b.isActive .bottle = false) (force : b.isActive .force = true)
    (rows : b.rows = todo ++ past) (enough : todo.length < fuel) (value lines : Int) :
    ∃ c, checkRows fuel (todo.length - 1) b value lines =
        (c, value + Row.value todo, lines + todo.countP Row.full) ∧
      c.rows = todo.mapIdx b.forced ++ past := by
  induction fuel generalizing b todo past value lines with
  | zero => omega
  | succ fuel ih =>
    rcases List.eq_nil_or_concat todo with rfl | ⟨before, r, rfl⟩
    · refine ⟨b, ?_, rows⟩
      have ended : ¬0 ≤ (([] : List Row).length : Int) - 1 := by simp
      rw [checkRows, if_neg ended]
      have none : Row.value [] = 0 := rfl
      rw [none, List.countP_nil, Nat.cast_zero, add_zero, add_zero]
    · rw [List.concat_eq_append] at rows enough ⊢
      rw [List.append_assoc, List.singleton_append] at rows
      rw [List.length_append, List.length_singleton] at enough
      have here : ((before ++ [r]).length : Int) - 1 = before.length := by simp
      have low : (0 : Int) ≤ before.length := by omega
      have row := row_length rows
      have last : (before ++ [r]).mapIdx b.forced ++ past =
          before.mapIdx b.forced ++ b.forced before.length r :: past := by
        rw [List.mapIdx_concat, List.append_assoc, List.singleton_append]
      rw [here, last, Row.value_append, List.countP_append]
      -- both kinds of round leave one more row behind
      have next {d : Board} (keeps : Keeps b d)
          (rows' : d.rows = before ++ b.forced before.length r :: past) (value lines : Int) :
          ∃ c, checkRows fuel (before.length - 1) d value lines =
              (c, value + Row.value before, lines + before.countP Row.full) ∧
            c.rows = before.mapIdx b.forced ++ b.forced before.length r :: past := by
        have corked' : d.isActive .bottle = false := by
          unfold isActive
          rw [keeps.active]
          exact corked
        have force' : d.isActive .force = true := by
          unfold isActive
          rw [keeps.active]
          exact force
        have rest := ih before (b.forced before.length r :: past) (by rwa [keeps.width]) corked'
          force' rows' (by omega) value lines
        rwa [keeps.forced] at rest
      cases whole : r.full with
      | false =>
        have frowned := rows_frownRow_length wide.le rows
        have kept : b.forced before.length r = r.landed := by
          unfold forced
          rw [whole]
          rfl
        rw [← kept] at frowned
        obtain ⟨c, result, final⟩ := next (keeps_frownRow b before.length) frowned value lines
        refine ⟨c, ?_, final⟩
        rw [checkRows_gap low wide.le (by rw [row, whole]), result, Row.value_cons_gap whole]
        simp [whole, Row.value]
      | true =>
        have below : before.length < b.height.toNat := by
          rw [← length_rows, rows, List.length_append, List.length_cons]
          omega
        have removed := rows_removeLine_force wide.le corked force below
        have emptied : (b.removeLine before.length 0 b.width).rows =
            before ++ b.forced before.length r :: past := by
          unfold forced
          rw [removed, if_pos whole]
          split
          · rw [rows]
          · rw [rows, List.set_append_right _ _ le_rfl, Nat.sub_self, List.set_cons_zero]
        obtain ⟨c, result, final⟩ := next (keeps_removeLine b before.length 0 b.width) emptied
          (value + r.worth) (lines + 1)
        refine ⟨c, ?_, final⟩
        rw [checkRows_full low wide.le (by rw [row, whole]), row, if_pos force, result,
          Row.value_cons_full whole]
        have none : Row.value [] = 0 := rfl
        have one : [r].countP Row.full = 1 := by simp [whole]
        refine Prod.ext rfl (Prod.ext ?_ ?_)
        · dsimp only
          rw [none]
          ring
        · dsimp only
          rw [one]
          push_cast
          ring

/-- The main pass of a line check under The Force. -/
theorem checkRows_board_force (wide : 0 < b.width) (corked : b.isActive .bottle = false)
    (force : b.isActive .force = true) :
    ∃ c, checkRows b.checkFuel (b.height - 1) b 0 0 =
        (c, Row.value b.rows, ((b.rows.countP Row.full : Nat) : Int)) ∧
      c.rows = b.rows.mapIdx b.forced := by
  rcases lt_or_ge b.height 0 with under | nonneg
  · -- a board without rows
    have none : b.rows = [] := List.length_eq_zero_iff.mp (by rw [length_rows]; omega)
    refine ⟨b, ?_, ?_⟩
    · rw [none, checkFuel, checkRows, if_neg (by omega)]
      rfl
    · rw [none]
      rfl
  · have last : (b.rows.length : Int) - 1 = b.height - 1 := by
      rw [length_rows]
      omega
    obtain ⟨c, result, final⟩ := checkRows_force b.checkFuel b.rows [] wide corked force
      (List.append_nil _).symm (by have := checkFuel_enough wide; omega) 0 0
    rw [last, zero_add, zero_add] at result
    rw [List.append_nil] at final
    exact ⟨c, result, final⟩

/-- Under The Force, and without a Bottle, a line check empties exactly the full rows, leaves
none, and the next check finds nothing, if and only if the row on the far edge is not full. -/
theorem force_clears_iff (wide : 0 < b.width) (corked : b.isActive .bottle = false)
    (force : b.isActive .force = true) :
    (b.checkLines.2.rows = b.rows.map (fun r => if r.full then b.blank else r.landed) ∧
      (∀ r ∈ b.checkLines.2.rows, r.full = false) ∧
      b.checkLines.2.checkLines.1 = .none) ↔
    (b.row b.farEdge).full = false := by
  obtain ⟨c, result, final⟩ := checkRows_board_force wide corked force
  obtain ⟨-, rows⟩ := checkLines_eq b result
  have after := rows.trans final
  have keeps := keeps_checkLines b
  constructor
  · rintro ⟨-, gaps, -⟩
    by_contra whole
    have whole : (b.row b.farEdge).full = true := by simpa using whole
    -- the row on the far edge is a row of the board, and it is still there
    have edge : 0 ≤ b.farEdge ∧ b.farEdge < b.height := by
      by_contra out
      have square := full_row.mp whole 0 le_rfl wide
      rw [get_of_row_out out] at square
      cases square
    have here : b.farEdge.toNat < b.rows.length := by
      rw [length_rows]
      omega
    have same : ((b.farEdge.toNat : Nat) : Int) = b.farEdge := Int.toNat_of_nonneg edge.1
    have stays : b.row b.farEdge ∈ b.checkLines.2.rows := by
      rw [after]
      refine List.mem_iff_getElem.mpr ⟨b.farEdge.toNat, by simpa using here, ?_⟩
      rw [List.getElem_mapIdx, getElem_rows here, same]
      unfold forced
      rw [if_pos whole, if_pos same]
    rw [gaps _ stays] at whole
    cases whole
  · intro gap
    have emptied : b.rows.mapIdx b.forced =
        b.rows.map fun r => if r.full then b.blank else r.landed := by
      refine List.ext_getElem (by simp) fun y below below' => ?_
      have low : y < b.rows.length := by simpa using below
      rw [List.getElem_mapIdx, List.getElem_map, getElem_rows low]
      unfold forced
      by_cases edge : (y : Int) = b.farEdge
      · rw [edge, gap]
        rfl
      · rw [if_neg edge]
    rw [emptied] at after
    have gaps : ∀ r ∈ b.checkLines.2.rows, r.full = false := by
      intro r member
      rw [after] at member
      obtain ⟨s, -, rfl⟩ := List.mem_map.mp member
      split
      · exact (blank_settled wide).1
      · next gap =>
        rw [Row.full_landed]
        exact eq_false_of_ne_true gap
    refine ⟨after, gaps, ?_⟩
    have corked' : b.checkLines.2.isActive .bottle = false := by
      unfold isActive
      rw [keeps.active]
      exact corked
    have force' : b.checkLines.2.isActive .force = true := by
      unfold isActive
      rw [keeps.active]
      exact force
    obtain ⟨d, again, -⟩ := checkRows_board_force (by rwa [keeps.width]) corked' force'
    have none : b.checkLines.2.rows.countP Row.full = 0 :=
      List.countP_eq_zero.mpr fun r member => by simp [gaps r member]
    rw [(checkLines_eq _ again).1, none]
    exact if_pos rfl

/-- A top row of sixes, and The Force active. -/
def lidded : Board :=
  (forRange 0 btBoardWth (fun x b => b.set x 0 (some (Cell.die 6))) (standard false)).setActive
    .force true

theorem force_clears_iff_lidded :
    (lidded.checkLines.2.rows =
        lidded.rows.map (fun r => if r.full then lidded.blank else r.landed) ∧
      (∀ r ∈ lidded.checkLines.2.rows, r.full = false) ∧
      lidded.checkLines.2.checkLines.1 = .none) ↔
    (lidded.row lidded.farEdge).full = false :=
  force_clears_iff (by decide +kernel) (by decide +kernel) (by decide +kernel)

/-- The top row pays, stays, and pays again. -/
theorem force_keeps_lid :
    lidded.checkLines.1 = ⟨1, 60, 60⟩ ∧ lidded.checkLines.2.row 0 = lidded.row 0 ∧
      (lidded.row 0).full = true ∧ lidded.checkLines.2.checkLines.1 = ⟨1, 60, 60⟩ := by
  decide +kernel

end Board

end BattleTris
