import BattleTris.Lib.Lcg
import BattleTris.Lib.Search
import BattleTris.Match.Resume

/-!
Rejection loops over the random stream, and the first of them: the square that Piece It and Bug
fill.

A round takes two draws.  Two steps at a time the stream goes through every state of one parity, so
an answer that comes up from some state of each parity comes up from all.
-/

namespace BattleTris

open Loop Function

namespace Rng

/-- The state after one rejected round. -/
def twice (r : Rng) : Rng := r.nextState.nextState

theorem iterate_twice (r : Rng) (n : Nat) :
    (twice^[n] r).state = ((Lcg.next 0x5DEECE66D 0xB 48)^[2])^[n] r.state := by
  induction n generalizing r with
  | zero => rfl
  | succ n ih =>
    rw [iterate_succ_apply, iterate_succ_apply, ih]
    rfl

/-- Every state of the same parity comes up. -/
theorem reaches_twice {r t : Rng} (start : r.Fits) (goal : t.Fits)
    (same : r.state % 2 = t.state % 2) : ∃ n < 2 ^ 47, twice^[n] r = t := by
  obtain ⟨n, less, found⟩ := Lcg.reaches_twice (a := 0x5DEECE66D) (c := 0xB) (k := 47)
    (by norm_num) (by norm_num) start goal same
  rw [← iterate_twice] at found
  exact ⟨n, less, congrArg Rng.mk found⟩

/-- A loop of two draws a round that ends from some state of each parity ends from all. -/
theorem finds_of_parities {α : Type} {f : Rng → α ⊕ Rng}
    (moves : ∀ r t, f r = .inr t → t = r.twice)
    (ends : ∀ p < 2, ∃ t : Rng, t.Fits ∧ t.state % 2 = p ∧ (f t).isLeft = true) {r : Rng}
    (fits : r.Fits) : ∃ n < 2 ^ 47, ∃ a, Finds f n r a := by
  obtain ⟨t, within, parity, answer⟩ := ends (r.state % 2) (Nat.mod_lt _ two_pos)
  obtain ⟨a, found⟩ := Sum.isLeft_iff.mp answer
  obtain ⟨n, less, reached⟩ := reaches_twice fits within parity.symm
  rw [← reached] at found
  obtain ⟨m, before, b, finds⟩ := finds_of_iterate moves found
  exact ⟨m, lt_of_le_of_lt before less, b, finds⟩

theorem fits_twice (r : Rng) : r.twice.Fits := fits_nextState _

theorem twice_parity (r : Rng) : r.twice.state % 2 = r.state % 2 := by
  have once (r : Rng) : r.nextState.state % 2 = (r.state + 1) % 2 :=
    Lcg.next_parity (a := 0x5DEECE66D) (c := 0xB) (by norm_num) (by norm_num) 47 r.state
  rw [twice, once, Nat.add_mod, once]
  omega

end Rng

/-! ## The square of Piece It and Bug -/

namespace Board

variable {b : Board} {rng : Rng} {t : WeaponToken}

/-- The squares among which Piece It and Bug draw. -/
def InBand (x y : Int) : Prop := 0 ≤ x ∧ x < 10 ∧ 7 ≤ y ∧ y < 21

/-- A state whose next two draws are the coordinates `i` and `j`. -/
def drawnAt (i j : Nat) (r : Rng) : Rng ⊕ Rng :=
  if r.nextState.state >>> 17 % 10 = i ∧ r.twice.state >>> 17 % 14 = j then .inl r
  else .inr r.twice

theorem drawnAt_soon :
    ∀ p < 2, ∀ i < 10, ∀ j < 14, (tryPow (drawnAt i j) 10 ⟨p⟩).isLeft = true := by
  decide +kernel

/-- From each parity every pair of coordinates comes up. -/
theorem exists_drawnAt {p i j : Nat} (parity : p < 2) (left : i < 10) (top : j < 14) :
    ∃ r : Rng, r.Fits ∧ r.state % 2 = p ∧ (r.randBelow 10).1 = i ∧
      (r.randBelow 10).2.randBelow 14 = (j, r.twice) := by
  obtain ⟨r, found⟩ := Sum.isLeft_iff.mp (drawnAt_soon p parity i left j top)
  have search := tryPow_invariant (f := drawnAt i j) (P := fun r : Rng => r.Fits ∧ r.state % 2 = p)
    (Q := fun r : Rng => r.Fits ∧ r.state % 2 = p ∧ (r.randBelow 10).1 = i ∧
      (r.randBelow 10).2.randBelow 14 = (j, r.twice)) ?_ ?_ 10
    (s := ⟨p⟩) ⟨lt_trans parity (by norm_num), Nat.mod_eq_of_lt parity⟩
  · exact ⟨r, search.1 r found⟩
  · intro s a ok hit
    unfold drawnAt at hit
    split at hit
    · next same =>
      cases hit
      exact ⟨ok.1, ok.2, same.1, congrArg (·, s.twice) same.2⟩
    · cases hit
  · intro s a ok missed
    unfold drawnAt at missed
    split at missed
    · cases missed
    · cases missed
      exact ⟨s.fits_twice, s.twice_parity.trans ok.2⟩

/-- On a standard board a square of the band is occupied when it is filled, whatever is active. -/
theorem occupied_band (width : b.width = 10) (height : b.height = 28) {x y : Int}
    (inside : InBand x y) : b.occupied x y = (b.get x y).isSome := by
  obtain ⟨left, right, top, bottom⟩ := inside
  unfold occupied
  rw [width, height]
  split
  · rw [if_neg (by omega)]
  · rw [if_neg (by omega), if_neg (show ¬(y < 0 - ((8 : Nat) : Int) ∨ y > 28 + ((8 : Nat) : Int)) by
      omega)]
    cases b.get x y with
    | none => simp
    | some c => simp [show 0 ≤ y by omega, show y < 28 by omega]

theorem bandHasEmpty_iff (width : b.width = 10) (height : b.height = 28) :
    b.bandHasEmpty = true ↔ ∃ x y, InBand x y ∧ b.get x y = none := by
  unfold bandHasEmpty
  rw [width, height]
  simp only [List.any_eq_true, List.mem_range, Bool.not_eq_true']
  constructor
  · rintro ⟨j, top, i, left, free⟩
    have inside : InBand i (28 / 4 + j) := ⟨by omega, by omega, by omega, by omega⟩
    rw [occupied_band width height inside] at free
    exact ⟨_, _, inside, by simpa using free⟩
  · rintro ⟨x, y, inside, empty⟩
    have free := occupied_band width height inside
    obtain ⟨left, right, top, bottom⟩ := inside
    rw [empty] at free
    refine ⟨(y - 7).toNat, by omega, x.toNat, by omega, ?_⟩
    rw [show ((x.toNat : Nat) : Int) = x by omega,
      show 28 / 4 + ((y - 7).toNat : Int) = y by omega, free]
    rfl

/-- A round that moves on has taken its two draws. -/
theorem drawSquare_moves (b : Board) (r s : Rng) (moved : b.drawSquare r = .inr s) :
    s = r.twice := by
  unfold drawSquare at moved
  dsimp only at moved
  split at moved
  · cases moved
    rfl
  · cases moved

/-- A round that ends has found an empty square of the band. -/
theorem drawSquare_found (width : b.width = 10) (height : b.height = 28) (r : Rng)
    (a : (Int × Int) × Rng) (found : b.drawSquare r = .inl a) :
    InBand a.1.1 a.1.2 ∧ b.get a.1.1 a.1.2 = none := by
  have left := r.randBelow_lt (n := 10) (by norm_num)
  have top := (r.randBelow 10).2.randBelow_lt (n := 14) (by norm_num)
  unfold drawSquare at found
  rw [width, height] at found
  dsimp only at found
  split at found
  · cases found
  · next free =>
    cases found
    have inside : InBand (r.randBelow 10).1
        (((r.randBelow 10).2.randBelow 14).1 + 28 / 4) :=
      ⟨by omega, by omega, by omega, by omega⟩
    refine ⟨inside, ?_⟩
    have vacant := occupied_band width height inside
    change ¬b.occupied (r.randBelow 10).1 (((r.randBelow 10).2.randBelow 14).1 + 28 / 4) = true
      at free
    rw [eq_false_of_ne_true free] at vacant
    change b.get (r.randBelow 10).1 (((r.randBelow 10).2.randBelow 14).1 + 28 / 4) = none
    simpa using vacant.symm

/-- With an empty square in the band the loop ends, from every state of the stream. -/
theorem drawSquare_finds (width : b.width = 10) (height : b.height = 28)
    (fits : rng.Fits) {x y : Int} (inside : InBand x y) (empty : b.get x y = none) :
    ∃ n < 2 ^ 47, ∃ a, Finds b.drawSquare n rng a := by
  refine Rng.finds_of_parities (b.drawSquare_moves) (fun p parity => ?_) fits
  have free := occupied_band width height inside
  obtain ⟨left, right, top, bottom⟩ := inside
  rw [empty] at free
  obtain ⟨t, within, same, column, row⟩ := exists_drawnAt (i := x.toNat) (j := (y - 7).toNat)
    parity (by omega) (by omega)
  refine ⟨t, within, same, ?_⟩
  unfold drawSquare
  rw [width, height]
  change (if b.occupied (t.randBelow 10).1 (((t.randBelow 10).2.randBelow 14).1 + 7) = true then
    Sum.inr _ else Sum.inl _).isLeft = true
  rw [column, row, show ((x.toNat : Nat) : Int) = x by omega,
    show ((y - 7).toNat : Int) + 7 = y by omega, free]
  rfl

/-- Piece It and Bug end: with an empty square in the band they fill one such square and change
nothing else, and with none they change nothing and draw nothing. -/
theorem plant_terminates (b : Board) (width : b.width = 10)
    (height : b.height = 28) (planted : t = .pieceIt ∨ t = .bug) (fits : rng.Fits) :
    ((∃ x y, InBand x y ∧ b.get x y = none) →
      ∃ n < 2 ^ 47, ∃ x y after c, Finds b.drawSquare n rng ((x, y), after) ∧
        InBand x y ∧ b.get x y = none ∧
        (b.applyWeapon t rng).2.1 = b.set x y (some c) ∧
        ∀ x' y', (b.applyWeapon t rng).2.1.get x' y' =
          if x' = x ∧ y' = y then some c else b.get x' y') ∧
      ((∀ x y, InBand x y → b.get x y ≠ none) → b.applyWeapon t rng = (.none, b, rng)) := by
  have applied : b.applyWeapon t rng = (.none, b.plant t rng) := by
    rcases planted with rfl | rfl <;> rfl
  rw [applied]
  constructor
  · intro room
    obtain ⟨x, y, inside, empty⟩ := room
    obtain ⟨n, less, ⟨⟨i, j⟩, after⟩, finds⟩ := drawSquare_finds width height fits inside empty
    have found := finds.property (drawSquare_found width height)
    dsimp only at found
    have drawn : b.drawFree rng = ((i, j), after) := by
      unfold drawFree
      rw [tryPow_of_finds finds (less.trans (by norm_num))]
    have open_ := (bandHasEmpty_iff width height).mpr ⟨x, y, inside, empty⟩
    have set : ∃ c, (b.plant t rng).1 = b.set i j (some c) := by
      unfold plant
      rw [if_pos open_, drawn]
      dsimp only
      split
      · exact ⟨_, rfl⟩
      · exact ⟨_, rfl⟩
    obtain ⟨c, set⟩ := set
    refine ⟨n, less, i, j, after, c, finds, found.1, found.2, set, fun x' y' => ?_⟩
    have held : b.inBounds i j = true := by
      obtain ⟨⟨left, right, top, bottom⟩, -⟩ := found
      rw [Grid.inBounds_iff, width, height]
      omega
    dsimp only
    rw [set, get_set, held]
    simp
  · intro full
    have closed : ¬b.bandHasEmpty = true := by
      rw [bandHasEmpty_iff width height]
      rintro ⟨x, y, inside, empty⟩
      exact full x y inside empty
    unfold plant
    rw [if_neg closed]

theorem plant_terminates_standard :
    ∃ n < 2 ^ 47, ∃ x y after c, Finds (standard false).drawSquare n (.new 7) ((x, y), after) ∧
      InBand x y ∧ (standard false).get x y = none ∧
      ((standard false).applyWeapon .pieceIt (.new 7)).2.1 = (standard false).set x y (some c) ∧
      ∀ x' y', ((standard false).applyWeapon .pieceIt (.new 7)).2.1.get x' y' =
        if x' = x ∧ y' = y then some c else (standard false).get x' y' :=
  (plant_terminates (t := .pieceIt) (standard false) rfl rfl (.inl rfl) (Rng.fits_new 7)).1
    ⟨0, 7, ⟨by decide, by decide, by decide, by decide⟩, Grid.get_empty 10 28 0 7⟩

end Board

end BattleTris
