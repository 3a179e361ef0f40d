import Mathlib

/-!
What a `WHERE` clause selects: tests with the third value NULL, and `LIKE`.
-/

namespace Sql

/-! ## Three values -/

/-- A test of a column: NULL is neither true nor false. -/
abbrev Test := Option Bool

def either : Test → Test → Test
  | some true, _ => some true
  | _, some true => some true
  | some false, some false => some false
  | _, _ => none

def both : Test → Test → Test
  | some false, _ => some false
  | _, some false => some false
  | some true, some true => some true
  | _, _ => none

/-- A row is selected when its test is true. -/
def selects (t : Test) : Bool := t == some true

@[simp] theorem selects_some (b : Bool) : selects (some b) = b := by
  cases b <;> rfl

@[simp] theorem selects_none : selects none = false := rfl

@[simp] theorem selects_either (t u : Test) : selects (either t u) = (selects t || selects u) := by
  rcases t with _ | _ | _ <;> rcases u with _ | _ | _ <;> rfl

@[simp] theorem selects_both (t u : Test) : selects (both t u) = (selects t && selects u) := by
  rcases t with _ | _ | _ <;> rcases u with _ | _ | _ <;> rfl

/-! ## Patterns -/

/-- `%`, `_`, or a character that stands for itself. -/
inductive Wild where
  | many
  | one
  | lit (c : Char)
  deriving DecidableEq

def Wild.ofChar (c : Char) : Wild :=
  if c = '%' then many else if c = '_' then one else lit c

def pattern (s : String) : List Wild := s.toList.map Wild.ofChar

/-- The text fits the pattern, characters compared after `fold`. -/
def fits (fold : Char → Char) : List Wild → List Char → Bool
  | [], text => text.isEmpty
  | .many :: ws, text => text.tails.any (fits fold ws)
  | .one :: ws, _ :: text => fits fold ws text
  | .lit c :: ws, d :: text => fold c == fold d && fits fold ws text
  | .one :: _, [] => false
  | .lit _ :: _, [] => false

variable {fold : Char → Char}

/-- A pattern of literals fits its own text alone. -/
theorem fits_lits (lits text : List Char) :
    fits fold (lits.map .lit) text = true ↔ lits.map fold = text.map fold := by
  induction lits generalizing text with
  | nil => cases text <;> simp [fits]
  | cons c lits ih =>
    cases text with
    | nil => simp [fits]
    | cons d text =>
      rw [List.map_cons, fits, Bool.and_eq_true, ih text, beq_iff_eq, List.map_cons, List.map_cons,
        List.cons.injEq]

/-- After a `%`, a pattern of literals fits the texts that end in it. -/
theorem fits_suffix (lits text : List Char) :
    fits fold (.many :: lits.map .lit) text = true ↔ lits.map fold <:+ text.map fold := by
  rw [fits, List.any_eq_true]
  constructor
  · rintro ⟨tail, member, fit⟩
    obtain ⟨stem, split⟩ := (List.mem_tails tail text).mp member
    rw [(fits_lits lits tail).mp fit, ← split, List.map_append]
    exact List.suffix_append _ _
  · rintro ⟨stem, split⟩
    obtain ⟨left, right, parts, -, tail⟩ := List.map_eq_append_iff.mp split.symm
    refine ⟨right, (List.mem_tails right text).mpr ?_, (fits_lits lits right).mpr tail.symm⟩
    rw [parts]
    exact List.suffix_append left right

/-- `column LIKE pattern`, ASCII letters compared without their case. -/
def like (column : Option String) (s : String) : Test :=
  column.map fun name => fits Char.toLower (pattern s) name.toList

/-- `column = text`. -/
def equals (column : Option String) (text : String) : Test := column.map (· == text)

@[simp] theorem selects_equals (name text : String) :
    selects (equals (some name) text) = (name == text) :=
  selects_some _

end Sql
