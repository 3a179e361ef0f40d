import BattleTris.Core.Primitives

/-!
Weapon tokens, the active flags, the price and duration table, and the arsenal.
-/

namespace BattleTris

/-- The 34 weapons, in the order of their discriminants. -/
inductive WeaponToken where
  | fearedWeird | fourByFour | hatter | upbyside | fallOut | swap | lawyers
  | riseUp | flipOut | speedy | missing | pieceIt | blind | mondale | keating
  | carter | reagan | ames | ace | condor | niceDay | soLong | noDice | bug
  | bottle | noSlide | susan | meadow | mirror | twilight | slick | broken
  | force | gimp
  deriving DecidableEq, Repr

namespace WeaponToken

/-- Every token in discriminant order. -/
def all : List WeaponToken :=
  [fearedWeird, fourByFour, hatter, upbyside, fallOut, swap, lawyers,
    riseUp, flipOut, speedy, missing, pieceIt, blind, mondale, keating,
    carter, reagan, ames, ace, condor, niceDay, soLong, noDice, bug,
    bottle, noSlide, susan, meadow, mirror, twilight, slick, broken,
    force, gimp]

/-- The discriminant. -/
def index (t : WeaponToken) : Nat := t.ctorIdx

/-- The guard that turns an untrusted integer into a token. -/
def fromIndex (i : Int) : Option WeaponToken :=
  if 0 ≤ i ∧ i < 34 then all[i.toNat]? else none

theorem fromIndex_index (t : WeaponToken) : fromIndex t.index = some t := by
  cases t <;> rfl

theorem mem_all (t : WeaponToken) : t ∈ all := by
  cases t <;> decide

theorem index_lt (t : WeaponToken) : t.index < 34 := by
  cases t <;> decide

end WeaponToken

/-- The economy columns of one row of the weapon table. -/
structure WeaponInfo where
  price : Int
  duration : Int

/-- Price in funds and lifetime in lines (0 for a one-shot weapon). -/
def weaponTable : WeaponToken → WeaponInfo
  | .fearedWeird => ⟨400, 3⟩
  | .fourByFour => ⟨425, 10⟩
  | .hatter => ⟨375, 5⟩
  | .upbyside => ⟨125, 10⟩
  | .fallOut => ⟨250, 10⟩
  | .swap => ⟨1200, 0⟩
  | .lawyers => ⟨350, 5⟩
  | .riseUp => ⟨75, 0⟩
  | .flipOut => ⟨15, 0⟩
  | .speedy => ⟨275, 10⟩
  | .missing => ⟨50, 0⟩
  | .pieceIt => ⟨100, 0⟩
  | .blind => ⟨400, 0⟩
  | .mondale => ⟨150, 50⟩
  | .keating => ⟨425, 0⟩
  | .carter => ⟨250, 20⟩
  | .reagan => ⟨425, 0⟩
  | .ames => ⟨50, 20⟩
  | .ace => ⟨100, 30⟩
  | .condor => ⟨225, 40⟩
  | .niceDay => ⟨50, 0⟩
  | .soLong => ⟨100, 10⟩
  | .noDice => ⟨600, 35⟩
  | .bug => ⟨320, 0⟩
  | .bottle => ⟨150, 10⟩
  | .noSlide => ⟨125, 10⟩
  | .susan => ⟨600, 0⟩
  | .meadow => ⟨475, 10⟩
  | .mirror => ⟨500, 10⟩
  | .twilight => ⟨450, 0⟩
  | .slick => ⟨650, 3⟩
  | .broken => ⟨325, 5⟩
  | .force => ⟨325, 5⟩
  | .gimp => ⟨25, 0⟩

/-! ## Active flags -/

/-- `BTActive[]`: a token is in force while its count is nonzero. -/
structure ActiveFlags where
  counts : WeaponToken → Int

namespace ActiveFlags

def new : ActiveFlags := ⟨fun _ => 0⟩

def isActive (f : ActiveFlags) (t : WeaponToken) : Bool := f.counts t ≠ 0

def set (f : ActiveFlags) (t : WeaponToken) (on : Bool) : ActiveFlags :=
  ⟨Function.update f.counts t (if on then 1 else 0)⟩

@[simp] theorem isActive_new (t : WeaponToken) : new.isActive t = false := by
  simp [new, isActive]

@[simp] theorem isActive_set (f : ActiveFlags) (t u : WeaponToken) (on : Bool) :
    (f.set t on).isActive u = if u = t then on else f.isActive u := by
  unfold set isActive
  rcases eq_or_ne u t with rfl | apart
  · cases on <;> simp
  · simp [apart]

end ActiveFlags

/-! ## Arsenal -/

/-- Ten slots; a slot names a weapon exactly while it holds some of it. -/
structure Arsenal where
  rep : Fin btArsenalSize → Option WeaponToken
  quantities : Fin btArsenalSize → Nat
  filled : ∀ i, (rep i = none ↔ quantities i = 0)

namespace Arsenal

@[ext] theorem ext {a b : Arsenal} (rep : a.rep = b.rep)
    (quantities : a.quantities = b.quantities) : a = b := by
  cases a
  cases b
  simp_all

def new : Arsenal := ⟨fun _ => none, fun _ => 0, by simp⟩

/-- Store a weapon and its count in slot `i`; a missing half empties the slot. -/
def put (a : Arsenal) (i : Fin btArsenalSize) : Option WeaponToken → Nat → Arsenal
  | some w, n + 1 =>
    { rep := Function.update a.rep i (some w)
      quantities := Function.update a.quantities i (n + 1)
      filled := by
        intro j
        rcases eq_or_ne j i with rfl | apart
        · simp
        · simpa [Function.update_of_ne apart] using a.filled j }
  | _, _ =>
    { rep := Function.update a.rep i none
      quantities := Function.update a.quantities i 0
      filled := by
        intro j
        rcases eq_or_ne j i with rfl | apart
        · simp
        · simpa [Function.update_of_ne apart] using a.filled j }

/-- Stack onto the first slot that holds `w` or is empty. -/
def buy (a : Arsenal) (w : WeaponToken) : Bool × Arsenal :=
  match (List.finRange btArsenalSize).find? fun i => a.rep i = some w ∨ a.rep i = none with
  | some i => (true, a.put i (some w) (a.quantities i + 1))
  | none => (false, a)

/-- A purchase goes into the first slot that holds the weapon or nothing, or is refused. -/
theorem buy_cases (a : Arsenal) (w : WeaponToken) :
    a.buy w = (false, a) ∨ ∃ i, (a.rep i = some w ∨ a.rep i = none) ∧
      a.buy w = (true, a.put i (some w) (a.quantities i + 1)) := by
  unfold buy
  cases found : (List.finRange btArsenalSize).find? fun i => a.rep i = some w ∨ a.rep i = none with
  | none => exact .inl rfl
  | some i =>
    have slot := List.find?_some found
    exact .inr ⟨i, by simpa using slot, rfl⟩

/-- Consume one from slot `index`; the slot empties with its last weapon. -/
def useSlot (a : Arsenal) (index : Nat) : Arsenal :=
  if inside : index < btArsenalSize then
    if a.quantities ⟨index, inside⟩ = 0 then a
    else a.put ⟨index, inside⟩ (a.rep ⟨index, inside⟩) (a.quantities ⟨index, inside⟩ - 1)
  else a

def sell (a : Arsenal) (w : WeaponToken) : Bool × Arsenal :=
  match (List.finRange btArsenalSize).find? fun i =>
      a.rep i = some w ∧ 0 < a.quantities i with
  | some i => (true, a.useSlot i)
  | none => (false, a)

def setSlot (a : Arsenal) (index : Nat) (token : Option WeaponToken) (qty : Nat) : Arsenal :=
  if inside : index < btArsenalSize then a.put ⟨index, inside⟩ token qty else a

/-- Out-of-range slots read as empty. -/
def token (a : Arsenal) (index : Nat) : Option WeaponToken :=
  if inside : index < btArsenalSize then a.rep ⟨index, inside⟩ else none

def quantity (a : Arsenal) (index : Nat) : Nat :=
  if inside : index < btArsenalSize then a.quantities ⟨index, inside⟩ else 0

end Arsenal

end BattleTris
