import BattleTris.Lib.Loop

/-!
A rectangular grid of optional values, stored row by row.

Reads outside the rectangle give `none` and writes outside it do nothing.  Two
grids of one size are equal as soon as they agree on every square
(`Grid.ext_get`), which is how every reshuffling of a grid below is specified.
-/

/-- A `width × height` grid; square `(x, y)` is entry `y * width + x`. -/
structure Grid (α : Type _) where
  width : Int
  height : Int
  cells : List (Option α)
  size : cells.length = (width * height).toNat
  deriving DecidableEq

namespace Grid

variable {α : Type _}

/-- The grid with every square empty. -/
def empty (width height : Int) : Grid α :=
  ⟨width, height, List.replicate (width * height).toNat none, by simp⟩

def inBounds (g : Grid α) (x y : Int) : Bool :=
  0 ≤ x ∧ x < g.width ∧ 0 ≤ y ∧ y < g.height

def index (g : Grid α) (x y : Int) : Nat :=
  (y * g.width + x).toNat

def get (g : Grid α) (x y : Int) : Option α :=
  if g.inBounds x y then g.cells.getD (g.index x y) none else none

def set (g : Grid α) (x y : Int) (c : Option α) : Grid α :=
  if g.inBounds x y then
    { g with cells := g.cells.set (g.index x y) c, size := by simp [g.size] }
  else g

@[simp] theorem set_width (g : Grid α) (x y : Int) (c : Option α) :
    (g.set x y c).width = g.width := by
  unfold set
  split <;> rfl

@[simp] theorem set_height (g : Grid α) (x y : Int) (c : Option α) :
    (g.set x y c).height = g.height := by
  unfold set
  split <;> rfl

theorem inBounds_iff {g : Grid α} {x y : Int} :
    g.inBounds x y = true ↔ 0 ≤ x ∧ x < g.width ∧ 0 ≤ y ∧ y < g.height := by
  simp [inBounds]

theorem get_of_not_inBounds {g : Grid α} {x y : Int} (out : ¬g.inBounds x y = true) :
    g.get x y = none :=
  if_neg out

theorem inBounds_of_get_isSome {g : Grid α} {x y : Int} (filled : (g.get x y).isSome) :
    g.inBounds x y = true := by
  by_contra out
  rw [get_of_not_inBounds out] at filled
  cases filled

theorem get_empty (w h x y : Int) : (empty w h : Grid α).get x y = none := by
  unfold get empty
  split
  · simp [List.getD_eq_getElem?_getD, List.getElem?_replicate]
    split <;> rfl
  · rfl

/-- Row-major positions of a rectangle stay inside the storage. -/
theorem index_lt {g : Grid α} {x y : Int} (inside : g.inBounds x y = true) :
    g.index x y < g.cells.length := by
  obtain ⟨x0, xw, y0, yh⟩ := inBounds_iff.mp inside
  have below : y * g.width + x < g.width * g.height := by nlinarith
  have nonneg : 0 ≤ y * g.width := by nlinarith
  rw [g.size, index]
  omega

/-- Distinct squares of a rectangle have distinct positions. -/
theorem index_inj {g : Grid α} {x y x' y' : Int} (inside : g.inBounds x y = true)
    (inside' : g.inBounds x' y' = true) (same : g.index x y = g.index x' y') :
    x = x' ∧ y = y' := by
  obtain ⟨x0, xw, y0, yh⟩ := inBounds_iff.mp inside
  obtain ⟨x0', xw', y0', yh'⟩ := inBounds_iff.mp inside'
  have nonneg : 0 ≤ y * g.width := by nlinarith
  have nonneg' : 0 ≤ y' * g.width := by nlinarith
  have flat : y * g.width + x = y' * g.width + x' := by
    unfold index at same
    omega
  have rows : y = y' := by
    rcases lt_trichotomy y y' with lower | rfl | upper
    · nlinarith
    · rfl
    · nlinarith
  subst rows
  exact ⟨by omega, rfl⟩

theorem set_inBounds (g : Grid α) (x y : Int) (c : Option α) (x' y' : Int) :
    (g.set x y c).inBounds x' y' = g.inBounds x' y' := by
  simp [inBounds]

/-- Reading back: a write is seen at its own square and nowhere else. -/
theorem get_set (g : Grid α) (x y : Int) (c : Option α) (x' y' : Int) :
    (g.set x y c).get x' y' =
      if g.inBounds x y ∧ x' = x ∧ y' = y then c else g.get x' y' := by
  by_cases inside : g.inBounds x y = true
  · have stored : g.set x y c =
        { g with cells := g.cells.set (g.index x y) c, size := by simp [g.size] } :=
      if_pos inside
    by_cases hit : x' = x ∧ y' = y
    · obtain ⟨rfl, rfl⟩ := hit
      rw [if_pos ⟨inside, rfl, rfl⟩, get, set_inBounds, if_pos inside, stored]
      have small := index_lt inside
      simp only [index] at small ⊢
      simp [List.getD_eq_getElem?_getD, small]
    · rw [if_neg (fun h => hit h.2)]
      by_cases inside' : g.inBounds x' y' = true
      · have apart : g.index x y ≠ g.index x' y' := fun same =>
          hit (by obtain ⟨hx, hy⟩ := index_inj inside inside' same; exact ⟨hx.symm, hy.symm⟩)
        rw [get, set_inBounds, if_pos inside', get, if_pos inside', stored]
        simp only [index] at apart ⊢
        simp [List.getD_eq_getElem?_getD, List.getElem?_set_ne apart]
      · rw [get_of_not_inBounds inside',
          get_of_not_inBounds (by rw [set_inBounds]; exact inside')]
  · rw [if_neg (fun h => inside h.1)]
    unfold set
    rw [if_neg inside]

theorem get_set_self {g : Grid α} {x y : Int} (inside : g.inBounds x y = true)
    (c : Option α) : (g.set x y c).get x y = c := by
  rw [get_set, if_pos ⟨inside, rfl, rfl⟩]

theorem get_set_ne {g : Grid α} {x y x' y' : Int} (apart : ¬(x' = x ∧ y' = y))
    (c : Option α) : (g.set x y c).get x' y' = g.get x' y' := by
  rw [get_set, if_neg (fun h => apart h.2)]

/-- Two grids of one size that agree on every square are equal. -/
theorem ext_get {g h : Grid α} (nonneg : 0 ≤ g.width) (width : g.width = h.width)
    (height : g.height = h.height)
    (agree : ∀ x y, g.inBounds x y = true → g.get x y = h.get x y) : g = h := by
  obtain ⟨w, ht, cs, size⟩ := g
  obtain ⟨w', ht', cs', size'⟩ := h
  obtain rfl : w = w' := width
  obtain rfl : ht = ht' := height
  suffices cs = cs' by subst this; rfl
  refine List.ext_getElem (by rw [size, size']) fun i hi hi' => ?_
  -- entry `i` is the square `(i % width, i / width)`
  have positive : (0 : Int) < w * ht := by omega
  have wpos : 0 < w := by
    rcases nonneg.eq_or_lt with zero | pos
    · have : w = 0 := zero.symm
      simp [this] at positive
    · exact pos
  have row : (i : Int) / w < ht := Int.ediv_lt_of_lt_mul wpos (by rw [mul_comm]; omega)
  have inside : (⟨w, ht, cs, size⟩ : Grid α).inBounds (i % w) (i / w) = true :=
    inBounds_iff.mpr ⟨Int.emod_nonneg _ (by omega), Int.emod_lt_of_pos _ wpos,
      Int.ediv_nonneg (by omega) (by omega), row⟩
  have inside' : (⟨w, ht, cs', size'⟩ : Grid α).inBounds (i % w) (i / w) = true := inside
  have at_i : ((i : Int) / w * w + i % w).toNat = i := by
    rw [Int.ediv_mul_add_emod]
    rfl
  have read := agree _ _ inside
  rw [get, get, if_pos inside, if_pos inside'] at read
  simp only [index, at_i] at read
  simpa [List.getD_eq_getElem?_getD, hi, hi'] using read

end Grid
