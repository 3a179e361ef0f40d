import BattleTris.Core.Rotation
import BattleTris.Match.Gears
import BattleTris.Match.Tally

/-!
The flight of the piece in play, from its spawn to its lock.

`Aloft` is what holds of every piece in play, and `potential` is a bound, in
milliseconds, on the time it can stay there: `Descends` relates a game to a
later one in which the same piece has used some of it up.  So a piece cannot be
stalled (`piece_not_stalled`).
-/

namespace BattleTris

open Loop

namespace PieceKind

open Piece

theorem form_filled_all : ∀ kind ∈ all, ∀ k < kind.period, ∃ i j, kind.form k i j = true := by
  decide +kernel

end PieceKind

namespace Piece

/-- A piece covers a square, however it was turned. -/
theorem Spun.filled {p : Piece} (spun : Spun p) : ∃ i j, (p.cells i j).isSome = true := by
  obtain ⟨kind, x, y, pips, k, phase, rfl⟩ := spun.posed
  obtain ⟨i, j, covered⟩ := PieceKind.form_filled_all kind kind.mem_all k phase
  refine ⟨i, j, ?_⟩
  change (Pattern.paint _ _ i j).isSome = true
  rwa [Pattern.paint_isSome]

end Piece

namespace Game

/-! ## What the flight rests on -/

/-- The board is of the standard size, gravity is one row a step, and the clock is one of
those that the weapons leave. -/
structure Grounded (g : Game) : Prop where
  width : g.board.width = 10
  height : g.board.height = 28
  active : g.board.active = g.weapons
  gravity : g.deltaY = 1 ∧ g.defY = 0 ∨ g.deltaY = -1 ∧ g.defY = 24
  base : 0 < g.baseDropTime ∧ g.baseDropTime ≤ 1024
  fast : 0 < g.fastDropTime ∧ g.fastDropTime ≤ 1024

theorem Grounded.of_still {g h : Game} (grounded : g.Grounded) (same : h.still = g.still) :
    h.Grounded where
  width := (Game.of_still (·.board.width) (fun _ => rfl) same).trans grounded.width
  height := (Game.of_still (·.board.height) (fun _ => rfl) same).trans grounded.height
  active := by
    have board := Game.of_still (·.board.active) (fun _ => rfl) same
    have weapons := Game.of_still (·.weapons) (fun _ => rfl) same
    rw [show h.board.active = g.board.active from board,
      show h.weapons = g.weapons from weapons]
    exact grounded.active
  gravity := by
    have frame := Game.of_still (fun g => (g.deltaY, g.defY)) (fun _ => rfl) same
    rw [show h.deltaY = g.deltaY from congrArg Prod.fst frame,
      show h.defY = g.defY from congrArg Prod.snd frame]
    exact grounded.gravity
  base := by
    rw [show h.baseDropTime = g.baseDropTime from
      Game.of_still (·.baseDropTime) (fun _ => rfl) same]
    exact grounded.base
  fast := by
    rw [show h.fastDropTime = g.fastDropTime from
      Game.of_still (·.fastDropTime) (fun _ => rfl) same]
    exact grounded.fast

theorem Geared.grounded {g : Game} (geared : g.Geared) (regular : g.Regular) : g.Grounded where
  width := regular.board.width
  height := regular.board.height
  active := geared.active
  gravity := by
    have frame := geared.frame
    generalize g.weapons.isActive .upbyside = upbyside at frame
    cases upbyside with
    | false => exact .inl ⟨congrArg (·.2.2.1) frame, congrArg (·.2.1) frame⟩
    | true => exact .inr ⟨congrArg (·.2.2.1) frame, congrArg (·.2.1) frame⟩
  base := by
    have clock := congrArg Prod.fst geared.clock
    generalize g.weapons.isActive .speedy = speedy at clock
    generalize g.weapons.isActive .meadow = meadow at clock
    rw [show g.baseDropTime = _ from clock]
    cases speedy <;> cases meadow <;> decide
  fast := by
    have clock := congrArg Prod.snd geared.clock
    generalize g.weapons.isActive .speedy = speedy at clock
    generalize g.weapons.isActive .meadow = meadow at clock
    rw [show g.fastDropTime = _ from clock]
    cases speedy <;> cases meadow <;> decide

/-- The rows where a piece that covers some square can be placed. -/
theorem rows_of_fits {g : Game} (grounded : g.Grounded) {p : Piece} (spun : p.Spun) {x y : Int}
    (fits : p.canMoveTo g.board x y = true) :
    -16 ≤ y ∧ y ≤ 36 ∧ (g.weapons.isActive .fallOut = false → y ≤ 27) := by
  obtain ⟨i, j, covered⟩ := spun.filled
  have free := Piece.canMoveTo_iff.mp fits i j covered
  have column : j.val < 8 := j.isLt
  unfold Board.occupied Board.isActive at free
  rw [grounded.active, grounded.width, grounded.height] at free
  cases open_ : g.weapons.isActive .fallOut with
  | false =>
    rw [open_] at free
    simp only [Bool.false_eq_true, not_false_eq_true, if_true] at free
    split at free
    · cases free
    · omega
  | true =>
    rw [open_] at free
    simp only [not_true_eq_false, if_false] at free
    split at free
    · cases free
    · split at free
      · cases free
      · split at free
        · cases free
        · have wide : ((btPieceWidth : Nat) : Int) = 8 := rfl
          exact ⟨by omega, by omega, fun shut => by cases shut⟩

/-! ## The piece in play -/

/-- What holds of a piece in play. -/
structure Aloft (g : Game) : Prop where
  piece : ∃ p, g.current = some p ∧ p.Spun
  alive : g.phase ≠ .over
  pace : g.dropTime = g.baseDropTime ∨ g.dropTime = g.fastDropTime
  fall : g.phase = .falling → 0 ≤ g.dropAccum
  slide : g.phase = .sliding → g.slideTime ≤ btSlideTime ∧ 0 ≤ g.slideAccum
  rows : -16 ≤ g.y ∧ g.y ≤ 36
  level : g.deltaY = 1 → 0 ≤ g.y
  floor : g.weapons.isActive .fallOut = false → g.y ≤ 27

/-- What the clock it falls or slides by leaves the piece in play. -/
def clockLeft (g : Game) : Int :=
  (if g.dropTime = g.fastDropTime then 0 else 2048) +
    match g.phase with
    | .falling => 512 + max 0 (g.dropTime - g.dropAccum)
    | .sliding => max 0 (g.slideTime - g.slideAccum)
    | .over => 0

/-- A bound on the time that the piece in play has left: four seconds a row, and the clock. -/
def potential (g : Game) : Int := (g.deltaY * (14 - g.y) + 31) * 4096 + g.clockLeft

/-- What `Aloft` and `potential` read. -/
def flight (g : Game) :
    (Option Piece × Int × Phase) × (Int × Int × Int) × (Int × Int × Int × Int) × ActiveFlags :=
  ((g.current, g.y, g.phase), (g.deltaY, g.baseDropTime, g.fastDropTime),
    (g.dropTime, g.dropAccum, g.slideTime, g.slideAccum), g.weapons)

/-- From `g` to `h` the same piece is in play; it has used up `spent` of its potential and
earned `bonus`. -/
structure Descends (spent bonus : Int) (g h : Game) : Prop where
  still : h.still = g.still
  aloft : h.Aloft
  score : h.score.score = g.score.score + bonus
  engaged : g.dropTime = g.fastDropTime → h.dropTime = h.fastDropTime
  potential : h.potential + spent ≤ g.potential

section flight

variable {g h k : Game}

theorem Aloft.of_flight (aloft : g.Aloft) (same : h.flight = g.flight) : h.Aloft := by
  obtain ⟨⟨current, y, phase⟩, ⟨deltaY, base, fast⟩, ⟨dropTime, dropAccum, slideTime, slideAccum⟩,
      weapons⟩ :
      (h.current = g.current ∧ h.y = g.y ∧ h.phase = g.phase) ∧
        (h.deltaY = g.deltaY ∧ h.baseDropTime = g.baseDropTime ∧
          h.fastDropTime = g.fastDropTime) ∧
        (h.dropTime = g.dropTime ∧ h.dropAccum = g.dropAccum ∧ h.slideTime = g.slideTime ∧
          h.slideAccum = g.slideAccum) ∧ h.weapons = g.weapons := by
    simpa only [flight, Prod.mk.injEq] using same
  refine ⟨?_, ?_, ?_, ?_, ?_, ?_, ?_, ?_⟩
  · rw [current]
    exact aloft.piece
  · rw [phase]
    exact aloft.alive
  · rw [dropTime, base, fast]
    exact aloft.pace
  · rw [phase, dropAccum]
    exact aloft.fall
  · rw [phase, slideTime, slideAccum]
    exact aloft.slide
  · rw [y]
    exact aloft.rows
  · rw [deltaY, y]
    exact aloft.level
  · rw [weapons, y]
    exact aloft.floor

/-- The potential as a function of the flight. -/
theorem potential_of_flight (same : h.flight = g.flight) : h.potential = g.potential :=
  congrArg (fun f => (f.2.1.1 * (14 - f.1.2.1) + 31) * 4096 +
    ((if f.2.2.1.1 = f.2.1.2.2 then (0 : Int) else 2048) +
      match f.1.2.2 with
      | .falling => 512 + max 0 (f.2.2.1.1 - f.2.2.1.2.1)
      | .sliding => max 0 (f.2.2.1.2.2.1 - f.2.2.1.2.2.2)
      | .over => 0)) same

theorem Descends.of_flight (aloft : g.Aloft) (still : h.still = g.still)
    (score : h.score.score = g.score.score) (same : h.flight = g.flight) : Descends 0 0 g h where
  still := still
  aloft := aloft.of_flight same
  score := score.trans (add_zero _).symm
  engaged engaged := by
    rw [show h.dropTime = g.dropTime from congrArg (·.2.2.1.1) same,
      show h.fastDropTime = g.fastDropTime from congrArg (·.2.1.2.2) same]
    exact engaged
  potential := ((add_zero _).trans (potential_of_flight same)).le

theorem Descends.refl (aloft : g.Aloft) : Descends 0 0 g g := .of_flight aloft rfl rfl rfl

theorem Descends.trans {m n a b : Int} (first : Descends m a g h) (second : Descends n b h k) :
    Descends (m + n) (a + b) g k where
  still := second.still.trans first.still
  aloft := second.aloft
  score := by rw [second.score, first.score, add_assoc]
  engaged engaged := second.engaged (first.engaged engaged)
  potential := by
    have earlier := first.potential
    have later := second.potential
    omega

theorem Descends.mono {m n a : Int} (descends : Descends m a g h) (less : n ≤ m) :
    Descends n a g h :=
  ⟨descends.still, descends.aloft, descends.score, descends.engaged,
    (Int.add_le_add_left less _).trans descends.potential⟩

end flight

/-! ## One step of the piece -/

section step

variable {g : Game} {p : Piece}

theorem descends_rotateInternal (aloft : g.Aloft) : Descends 0 0 g g.rotateInternal where
  still := rfl
  aloft := by
    obtain ⟨p, playing, spun⟩ := aloft.piece
    have turned : g.rotateInternal.current = some (p.rotate g.board false).2 := by
      unfold rotateInternal
      rw [playing]
      rfl
    exact ⟨⟨_, turned, spun.rotate g.board false⟩, aloft.alive, aloft.pace, aloft.fall,
      aloft.slide, aloft.rows, aloft.level, aloft.floor⟩
  score := (add_zero _).symm
  engaged := id
  potential := (add_zero g.potential).le

/-- A shift costs nothing. -/
theorem descends_shifted (aloft : g.Aloft) (playing : g.current = some p) (dx : Int) :
    Descends 0 0 g (g.carry p dx 0) where
  still := rfl
  aloft := by
    obtain ⟨q, same, spun⟩ := aloft.piece
    rw [playing] at same
    cases same
    have y : (g.carry p dx 0).y = g.y := add_zero _
    refine ⟨⟨_, rfl, spun.place _ _⟩, aloft.alive, aloft.pace, aloft.fall, aloft.slide,
      ?_, ?_, ?_⟩
    · rw [y]
      exact aloft.rows
    · rw [y]
      exact aloft.level
    · rw [y]
      exact aloft.floor
  score := (add_zero _).symm
  engaged := id
  potential := by
    have y : (g.carry p dx 0).y = g.y := add_zero _
    unfold potential
    rw [y, add_zero]
    rfl

/-- A row costs its four seconds. -/
theorem descends_row (grounded : g.Grounded) (aloft : g.Aloft) (playing : g.current = some p)
    (fits : p.canMoveTo g.board g.x (g.y + g.deltaY) = true) :
    Descends 4096 0 g (g.carry p 0 g.deltaY) where
  still := rfl
  aloft := by
    obtain ⟨q, same, spun⟩ := aloft.piece
    rw [playing] at same
    cases same
    obtain ⟨high, low, floor⟩ := rows_of_fits grounded spun fits
    refine ⟨⟨_, rfl, spun.place _ _⟩, aloft.alive, aloft.pace, aloft.fall, aloft.slide,
      ⟨high, low⟩, fun down => ?_, floor⟩
    have before := aloft.level down
    change g.deltaY = 1 at down
    change 0 ≤ g.y + g.deltaY
    omega
  score := (add_zero _).symm
  engaged := id
  potential := by
    have row : (g.carry p 0 g.deltaY).deltaY * (14 - (g.carry p 0 g.deltaY).y) =
        g.deltaY * (14 - g.y) - 1 := by
      change g.deltaY * (14 - (g.y + g.deltaY)) = _
      rcases grounded.gravity with ⟨down, -⟩ | ⟨up, -⟩
      · rw [down]
        omega
      · rw [up]
        omega
    have clock : (g.carry p 0 g.deltaY).clockLeft = g.clockLeft := rfl
    unfold potential
    rw [row, clock]
    omega

theorem dropTime_bounds (grounded : g.Grounded) (aloft : g.Aloft) :
    0 < g.dropTime ∧ g.dropTime ≤ 1024 := by
  rcases aloft.pace with base | fast
  · rw [base]
    exact grounded.base
  · rw [fast]
    exact grounded.fast

/-- A clock that is set back gives back no more than an interval. -/
theorem descends_reset (grounded : g.Grounded) (aloft : g.Aloft) {acc : Int} (set : 0 ≤ acc) :
    Descends (-1024) 0 g { g with dropAccum := acc } where
  still := rfl
  aloft := ⟨aloft.piece, aloft.alive, aloft.pace, fun _ => set, aloft.slide, aloft.rows,
    aloft.level, aloft.floor⟩
  score := (add_zero _).symm
  engaged := id
  potential := by
    have interval := dropTime_bounds grounded aloft
    have clock : ({ g with dropAccum := acc } : Game).clockLeft ≤ g.clockLeft + 1024 := by
      unfold clockLeft
      dsimp only
      rcases g.phase with _ | _ | _ <;> (dsimp only; omega)
    unfold potential
    dsimp only
    omega

/-- The start of a slide, whatever the clock of the fall says. -/
theorem descends_startSlide (aloft : g.Aloft) (falls : g.phase = .falling) (acc : Int) :
    Descends 362 0 g { g.startSlide with dropAccum := acc } where
  still := rfl
  aloft := by
    refine ⟨aloft.piece, fun ended => (by cases ended), aloft.pace,
      fun falling => (by cases falling), fun _ => ⟨?_, le_rfl⟩, aloft.rows, aloft.level,
      aloft.floor⟩
    unfold startSlide
    dsimp only
    split <;> decide
  score := (add_zero _).symm
  engaged := id
  potential := by
    have time : g.startSlide.slideTime ≤ 150 := by
      unfold startSlide
      dsimp only
      split <;> decide
    have slid : g.startSlide.clockLeft = (if g.dropTime = g.fastDropTime then 0 else 2048) +
        max 0 (g.startSlide.slideTime - 0) := rfl
    have fell : g.clockLeft = (if g.dropTime = g.fastDropTime then 0 else 2048) +
        (512 + max 0 (g.dropTime - g.dropAccum)) := by
      unfold clockLeft
      rw [falls]
    have rows : g.startSlide.potential - g.startSlide.clockLeft = g.potential - g.clockLeft := by
      unfold potential
      rw [add_sub_cancel_right, add_sub_cancel_right]
      rfl
    have kept : ({ g.startSlide with dropAccum := acc } : Game).potential =
        g.startSlide.potential := rfl
    omega

/-- A step of the fall, with the clock set behind it: a row, or the start of a slide. -/
theorem descends_dropStep (grounded : g.Grounded) (aloft : g.Aloft) (falls : g.phase = .falling)
    {acc : Int} (set : 0 ≤ acc) : Descends 362 0 g { g.dropStep with dropAccum := acc } := by
  obtain ⟨p, playing, -⟩ := aloft.piece
  unfold dropStep
  rw [playing]
  dsimp only
  split
  · next fits =>
    have fallen := descends_row grounded aloft playing fits
    have reset := descends_reset (grounded.of_still fallen.still) fallen.aloft set
    exact (fallen.trans reset).mono (by decide)
  · exact descends_startSlide aloft falls acc

/-- The time a piece has left is bounded. -/
theorem potential_le (grounded : g.Grounded) (aloft : g.Aloft) :
    0 ≤ g.potential ∧ g.potential ≤ 256000 := by
  have interval := dropTime_bounds grounded aloft
  have rows := aloft.rows
  have left : 0 ≤ (g.deltaY * (14 - g.y) + 31) * 4096 ∧
      (g.deltaY * (14 - g.y) + 31) * 4096 ≤ 249856 := by
    rcases grounded.gravity with ⟨down, -⟩ | ⟨up, -⟩
    · rw [down]
      omega
    · rw [up]
      omega
  have clock : 0 ≤ g.clockLeft ∧ g.clockLeft ≤ 3584 := by
    have fall := aloft.fall
    have slide := aloft.slide
    unfold clockLeft
    cases phase : g.phase with
    | falling =>
      have accum := fall phase
      dsimp only
      split <;> omega
    | sliding =>
      have accum := slide phase
      have most : btSlideTime = 150 := rfl
      dsimp only
      split <;> omega
    | _ => exact absurd phase aloft.alive
  unfold potential
  omega

/-! ### Inputs -/

theorem descends_shift (aloft : g.Aloft) (dx : Int) : Descends 0 0 g (g.shift dx) := by
  obtain ⟨p, playing, -⟩ := aloft.piece
  unfold shift
  split
  · exact .refl aloft
  · rw [playing]
    dsimp only
    split
    · have steered : Descends 0 0 g g.steer := .of_flight aloft rfl rfl rfl
      exact steered.trans (descends_shifted steered.aloft playing dx)
    · exact .refl aloft

theorem descends_rotate (aloft : g.Aloft) : Descends 0 0 g g.rotate := by
  unfold rotate
  split
  · exact .refl aloft
  · exact descends_rotateInternal aloft

theorem descends_softDrop (grounded : g.Grounded) (aloft : g.Aloft) :
    Descends 0 0 g g.softDrop := by
  unfold softDrop
  split
  · exact .refl aloft
  · next live =>
    simp only [not_or, not_not] at live
    exact (descends_dropStep grounded aloft live.2.2 le_rfl).mono (by decide)

/-- The fast drop can be newly engaged. -/
def CanEngage (g : Game) : Prop :=
  ¬(g.paused = true ∨ g.inBazaar = true ∨ g.phase = .over) ∧ g.dropTime ≠ g.fastDropTime

instance (g : Game) : Decidable g.CanEngage := inferInstanceAs (Decidable (_ ∧ _))

/-- Only a newly engaged fast drop earns its bonus, and it engages the piece for good. -/
theorem dropFor_cases (g : Game) (bonus : Int) :
    g.CanEngage ∧ g.dropFor bonus = { g with
        dropping := true, dropTime := g.fastDropTime, dropAccum := 0
        score := { g.score with score := g.score.score + bonus } } ∨
      ¬g.CanEngage ∧ (g.dropFor bonus = g ∨ g.dropFor bonus = { g with dropping := true }) := by
  unfold dropFor engageFastDrop CanEngage
  by_cases idle : g.paused = true ∨ g.inBazaar = true ∨ g.phase = .over
  · rw [if_pos idle]
    exact .inr ⟨fun can => can.1 idle, .inl rfl⟩
  · rw [if_neg idle]
    dsimp only
    by_cases fast : g.dropTime = g.fastDropTime
    · rw [if_pos fast]
      exact .inr ⟨fun can => can.2 fast, .inr rfl⟩
    · rw [if_neg fast]
      exact .inl ⟨⟨idle, fast⟩, rfl⟩

theorem descends_dropFor (grounded : g.Grounded) (aloft : g.Aloft) (bonus : Int) :
    Descends 0 (if g.CanEngage then bonus else 0) g (g.dropFor bonus) := by
  rcases g.dropFor_cases bonus with ⟨can, dropped⟩ | ⟨cannot, same | marked⟩
  · rw [if_pos can, dropped]
    refine ⟨rfl, ⟨aloft.piece, aloft.alive, .inr rfl, fun _ => le_rfl, aloft.slide, aloft.rows,
      aloft.level, aloft.floor⟩, rfl, fun _ => rfl, ?_⟩
    have fast := grounded.fast
    have slow : g.clockLeft = 2048 + (match g.phase with
        | .falling => 512 + max 0 (g.dropTime - g.dropAccum)
        | .sliding => max 0 (g.slideTime - g.slideAccum)
        | .over => 0) := by
      unfold clockLeft
      rw [if_neg can.2]
    unfold potential
    rw [slow]
    unfold clockLeft
    dsimp only
    rw [if_pos rfl]
    rcases g.phase with _ | _ | _ <;> (dsimp only; omega)
  · rw [if_neg cannot, same]
    exact .refl aloft
  · rw [if_neg cannot, marked]
    exact .of_flight aloft rfl rfl rfl

/-! ## A tick -/

theorem descends_tickHatter (aloft : g.Aloft) (dt : Int) : Descends 0 0 g (g.tickHatter dt) := by
  unfold tickHatter
  split
  · refine whileN_invariant (P := Descends 0 0 g) (fun h _ descends => ?_) _
      (.of_flight aloft rfl rfl rfl)
    have timed : Descends 0 0 h { h with hatterAccum := h.hatterAccum - 20 } :=
      .of_flight descends.aloft rfl rfl rfl
    exact descends.trans (timed.trans (descends_rotateInternal timed.aloft))
  · exact .refl aloft

theorem descends_slickStep (aloft : g.Aloft) : Descends 0 0 g g.slickStep := by
  obtain ⟨p, playing, -⟩ := aloft.piece
  unfold slickStep
  rw [playing]
  dsimp only
  split
  · exact descends_shifted aloft playing _
  · exact .of_flight aloft rfl rfl rfl

theorem descends_tickSlick (aloft : g.Aloft) (dt : Int) : Descends 0 0 g (g.tickSlick dt) := by
  unfold tickSlick
  split
  · refine whileN_invariant (P := Descends 0 0 g) (fun h _ descends => ?_) _
      (.of_flight aloft rfl rfl rfl)
    have timed : Descends 0 0 h { h with slickAccum := h.slickAccum - 20 } :=
      .of_flight descends.aloft rfl rfl rfl
    exact descends.trans (timed.trans (descends_slickStep timed.aloft))
  · exact .refl aloft

theorem descends_tickWeapons (aloft : g.Aloft) (dt : Int) :
    Descends 0 0 g (g.tickWeapons dt) := by
  have turned := descends_tickHatter aloft dt
  exact turned.trans (descends_tickSlick turned.aloft dt)

/-- The clock only times the step. -/
theorem fallStep_eq (step : Int) (h : Game) :
    fallStep step h = { h.dropStep with dropAccum := h.dropAccum - step } := by
  unfold fallStep dropStep
  dsimp only
  split
  · next p playing =>
    by_cases fits : p.canMoveTo h.board h.x (h.y + h.deltaY) = true
    · rw [if_pos fits, if_pos fits]
      rfl
    · rw [if_neg fits, if_neg fits]
      rfl
  · rfl

/-- A tick of the fall brings the next row closer, or takes it. -/
theorem descends_tickFalling (grounded : g.Grounded) (aloft : g.Aloft)
    (falls : g.phase = .falling) {dt : Int} (runs : 0 < dt) :
    Descends 1 0 g (g.tickFalling dt) := by
  have interval := dropTime_bounds grounded aloft
  have later : ({ g with dropAccum := g.dropAccum + dt } : Game).potential +
      (if g.dropAccum + dt < g.dropTime then 1 else 0) ≤ g.potential := by
    unfold potential clockLeft
    dsimp only
    rw [falls]
    dsimp only
    split <;> omega
  have clocked : Descends (if g.dropAccum + dt < g.dropTime then 1 else 0) 0 g
      { g with dropAccum := g.dropAccum + dt } :=
    ⟨rfl, ⟨aloft.piece, aloft.alive, aloft.pace,
      fun falling => add_nonneg (aloft.fall falling) runs.le, aloft.slide, aloft.rows,
      aloft.level, aloft.floor⟩, (add_zero _).symm, id, later⟩
  have step : max g.dropTime 1 = g.dropTime := max_eq_left interval.1
  unfold tickFalling
  dsimp only
  rw [step]
  -- every round is a step of the fall
  have round (h : Game) (descends : Descends 0 0 g h)
      (due : decide (h.phase = .falling ∧ h.dropAccum ≥ g.dropTime) = true) :
      Descends 1 0 g (fallStep g.dropTime h) := by
    obtain ⟨falling, accum⟩ := of_decide_eq_true due
    have positive : 0 ≤ h.dropAccum - g.dropTime := by omega
    have stepped := descends_dropStep (grounded.of_still descends.still) descends.aloft falling
      positive
    rw [fallStep_eq]
    exact (descends.trans stepped).mono (by decide)
  by_cases early : g.dropAccum + dt < g.dropTime
  · rw [if_pos early] at clocked
    have idle (fuel : Nat) : whileN fuel
        (fun g' => decide (g'.phase = .falling ∧ g'.dropAccum ≥ g.dropTime)) (fallStep g.dropTime)
        { g with dropAccum := g.dropAccum + dt } = { g with dropAccum := g.dropAccum + dt } := by
      cases fuel with
      | zero => rfl
      | succ fuel =>
        unfold whileN
        rw [if_neg]
        simp only [decide_eq_true_eq, not_and]
        intro _
        exact not_le.mpr early
    rw [idle]
    exact clocked
  · rw [if_neg early] at clocked
    obtain ⟨fuel, fuelled⟩ : ∃ fuel, (g.dropAccum + dt).toNat = fuel + 1 :=
      ⟨(g.dropAccum + dt).toNat - 1, by omega⟩
    rw [fuelled]
    unfold whileN
    have due : decide (({ g with dropAccum := g.dropAccum + dt } : Game).phase = .falling ∧
        ({ g with dropAccum := g.dropAccum + dt } : Game).dropAccum ≥ g.dropTime) = true :=
      decide_eq_true ⟨falls, not_lt.mp early⟩
    rw [if_pos due]
    refine whileN_invariant (P := Descends 1 0 g) (fun h due descends => ?_) fuel
      (round _ clocked due)
    exact round h (descends.mono (by decide)) due

/-- A slide that expires over a hole falls on, one row further. -/
theorem descends_resumeFall (grounded : g.Grounded) (aloft : g.Aloft)
    (playing : g.current = some p)
    (fits : p.canMoveTo g.board g.x (g.y + g.deltaY) = true) (acc : Int) :
    Descends 1 0 g (((g.slideAt acc).resumeFall p).setSliding 0) := by
  have fallen := descends_row grounded aloft playing fits
  have interval := dropTime_bounds grounded aloft
  refine ⟨rfl, ⟨fallen.aloft.piece, fun ended => (by cases ended), fallen.aloft.pace,
    fun _ => le_rfl, fun slides => (by cases slides), fallen.aloft.rows, fallen.aloft.level,
    fallen.aloft.floor⟩,
    (add_zero _).symm, id, ?_⟩
  have row := fallen.potential
  have clock : (((g.slideAt acc).resumeFall p).setSliding 0).clockLeft =
      (if g.dropTime = g.fastDropTime then 0 else 2048) + (512 + max 0 (g.dropTime - 0)) := rfl
  have before : (if g.dropTime = g.fastDropTime then 0 else 2048) ≤
      (g.carry p 0 g.deltaY).clockLeft := by
    change _ ≤ g.clockLeft
    unfold clockLeft
    rcases g.phase with _ | _ | _ <;> (dsimp only; omega)
  have rows : (((g.slideAt acc).resumeFall p).setSliding 0).potential -
      (((g.slideAt acc).resumeFall p).setSliding 0).clockLeft =
        (g.carry p 0 g.deltaY).potential - (g.carry p 0 g.deltaY).clockLeft := by
    unfold potential
    rw [add_sub_cancel_right, add_sub_cancel_right]
    rfl
  omega

/-- A tick of the slide uses it up, falls on, or locks the piece. -/
theorem descends_tickSliding (grounded : g.Grounded) (aloft : g.Aloft)
    (slides : g.phase = .sliding) {dt : Int} (runs : 0 < dt) :
    Descends 1 0 g (g.tickSliding dt) ∨
      ∃ acc p, (g.slideAt acc).Locks p ∧ g.tickSliding dt = (g.slideAt acc).place false := by
  obtain ⟨p, playing, -⟩ := aloft.piece
  have once (acc : Int) : Descends 1 0 g ((g.slideAt acc).place false) ∨
      ∃ acc' p, (g.slideAt acc').Locks p ∧
        (g.slideAt acc).place false = (g.slideAt acc').place false := by
    by_cases room : p.canMoveTo g.board g.x (g.y + g.deltaY) = true
    · have resumed : (g.slideAt acc).place false =
          ((g.slideAt acc).resumeFall p).setSliding 0 := by
        have current : (g.slideAt acc).current = some p := playing
        have roomy : p.canMoveTo (g.slideAt acc).board (g.slideAt acc).x
            ((g.slideAt acc).y + (g.slideAt acc).deltaY) = true := room
        unfold place
        rw [current]
        dsimp only
        rw [if_neg (by simp [roomy])]
      rw [resumed]
      exact .inl (descends_resumeFall grounded aloft playing room acc)
    · exact .inr ⟨acc, p, ⟨playing, room⟩, rfl⟩
  have ended (acc : Int) : ((g.slideAt acc).place false).phase ≠ .sliding := by
    rcases place_cases (g.slideAt acc) with ⟨gone, -⟩ | ⟨ended, -⟩
    · change g.current = none at gone
      rw [playing] at gone
      cases gone
    · exact ended
  unfold tickSliding
  dsimp only
  change Descends 1 0 g (if max g.slideTime 0 = 0 then _ else whileN _ _ _
      (g.slideAt (g.slideAccum + dt))) ∨ ∃ acc p, _ ∧
    (if max g.slideTime 0 = 0 then _ else whileN _ _ _ (g.slideAt (g.slideAccum + dt))) = _
  by_cases instant : max g.slideTime 0 = 0
  · rw [if_pos instant]
    exact once _
  rw [if_neg instant]
  have delay : max g.slideTime 0 = g.slideTime := by omega
  rw [delay]
  by_cases early : g.slideAccum + dt < g.slideTime
  · have idle (fuel : Nat) : whileN fuel
        (fun g' => decide (g'.phase = .sliding ∧ g'.slideAccum ≥ g.slideTime))
        (slideStep g.slideTime) (g.slideAt (g.slideAccum + dt)) =
          g.slideAt (g.slideAccum + dt) := by
      cases fuel with
      | zero => rfl
      | succ fuel =>
        unfold whileN
        rw [if_neg]
        simp only [decide_eq_true_eq, not_and]
        intro _
        exact not_le.mpr early
    rw [idle]
    left
    have slide := aloft.slide slides
    refine ⟨rfl, ⟨aloft.piece, aloft.alive, aloft.pace, aloft.fall,
      fun _ => ⟨slide.1, add_nonneg slide.2 runs.le⟩, aloft.rows, aloft.level, aloft.floor⟩,
      (add_zero _).symm, id, ?_⟩
    unfold slideAt potential clockLeft
    dsimp only
    rw [slides]
    dsimp only
    omega
  · obtain ⟨fuel, fuelled⟩ : ∃ fuel, (g.slideAccum + dt).toNat = fuel + 1 :=
      ⟨(g.slideAccum + dt).toNat - 1, by omega⟩
    rw [fuelled]
    unfold whileN
    have due : decide ((g.slideAt (g.slideAccum + dt)).phase = .sliding ∧
        (g.slideAt (g.slideAccum + dt)).slideAccum ≥ g.slideTime) = true :=
      decide_eq_true ⟨slides, not_lt.mp early⟩
    rw [if_pos due]
    change Descends 1 0 g (whileN fuel _ _
        ((g.slideAt (g.slideAccum + dt - g.slideTime)).place false)) ∨ ∃ acc p, _ ∧
      whileN fuel _ _ ((g.slideAt (g.slideAccum + dt - g.slideTime)).place false) = _
    have stopped : whileN fuel
        (fun g' => decide (g'.phase = .sliding ∧ g'.slideAccum ≥ g.slideTime))
        (slideStep g.slideTime) ((g.slideAt (g.slideAccum + dt - g.slideTime)).place false) =
          (g.slideAt (g.slideAccum + dt - g.slideTime)).place false := by
      cases fuel with
      | zero => rfl
      | succ fuel =>
        unfold whileN
        rw [if_neg]
        simp only [decide_eq_true_eq, not_and]
        exact fun still => absurd still (ended _)
    rw [stopped]
    exact once _

/-- The clock runs. -/
def Ticking (g : Game) : Prop := g.paused = false ∧ g.inBazaar = false

/-- A tick leaves the same piece in play with less time left, or locks it. -/
theorem descends_tick (grounded : g.Grounded) (aloft : g.Aloft) {dt : Int} (runs : 0 < dt)
    (ticking : g.Ticking) :
    Descends 1 0 g (g.tick dt) ∨
      ∃ acc p, ((g.tickWeapons dt).slideAt acc).Locks p ∧
        g.tick dt = ((g.tickWeapons dt).slideAt acc).place false := by
  have timed := descends_tickWeapons aloft dt
  have grounded' := grounded.of_still timed.still
  unfold tick
  rw [if_neg (by simp [ticking.1, ticking.2, aloft.alive, runs])]
  dsimp only
  generalize g.tickWeapons dt = k at timed grounded' ⊢
  have alive := timed.aloft.alive
  cases phase : k.phase with
  | falling =>
    exact .inl (timed.trans (descends_tickFalling grounded' timed.aloft phase runs))
  | sliding =>
    rcases descends_tickSliding grounded' timed.aloft phase runs with
      falls | ⟨acc, p, locks, placed⟩
    · exact .inl (timed.trans falls)
    · exact .inr ⟨acc, p, locks, placed⟩
  | _ => exact absurd phase alive

end step

/-! ## The next piece -/

theorem spun_create (pm : PieceManager) (rng : Rng) (x y : Int) :
    (pm.create rng x y).1.Spun := by
  unfold PieceManager.create
  dsimp only
  split <;> exact .construct ..

/-- A piece that spawns is in play, or the game ends. -/
theorem aloft_spawn (g : Game) (grounded : g.spawn.Grounded) :
    g.spawn.phase = .over ∨ g.spawn.Aloft := by
  have drawn := spun_create g.pieces g.rng g.defX g.defY
  unfold spawn at grounded ⊢
  generalize g.pieces.create g.rng g.defX g.defY = r at drawn grounded ⊢
  unfold enterPiece at grounded ⊢
  dsimp only at grounded ⊢
  split
  · next fits =>
    rw [if_pos fits] at grounded
    have gravity := grounded.gravity
    dsimp only [setStream] at gravity
    right
    refine ⟨⟨_, rfl, drawn.place _ _⟩, fun ended => (by cases ended), .inl rfl, fun _ => le_rfl,
      fun slides => (by cases slides), ?_, fun down => ?_, fun _ => ?_⟩
    · change -16 ≤ g.defY ∧ g.defY ≤ 36
      omega
    · change g.deltaY = 1 at down
      change 0 ≤ g.defY
      omega
    · change g.defY ≤ 27
      omega
  · exact .inl rfl

/-- A lock puts the next piece in play, or ends the game. -/
theorem aloft_locked {h : Game} {p : Piece} (locks : h.Locks p)
    (grounded : (h.place false).Grounded) :
    (h.place false).phase = .over ∨ (h.place false).Aloft := by
  rw [place_of_locks locks] at grounded ⊢
  unfold lockAndSpawn at grounded ⊢
  generalize (lockPiece { h with current := none } p).flushPending = k at grounded ⊢
  have next := aloft_spawn k
  generalize k.spawn = j at grounded next ⊢
  have spawned : j.Grounded :=
    ⟨grounded.width, grounded.height, grounded.active, grounded.gravity, grounded.base,
      grounded.fast⟩
  rcases next spawned with ended | aloft
  · exact .inl ended
  · exact .inr (aloft.of_flight rfl)

theorem place_score {h : Game} {p : Piece} (locks : h.Locks p) :
    (h.place false).score.score = h.score.score := by
  have locked := scores_lockAndSpawn { h with current := none } p
  rw [place_of_locks locks]
  generalize lockAndSpawn _ p = k at locked
  exact locked.score

end Game

/-! ## What reaches the game from outside -/

/-- The inputs that move the piece in play. -/
def Input.steers : Input → Bool
  | .moveLeft | .moveRight | .rotate | .beginDrop | .aiDrop | .softDrop => true
  | _ => false

namespace Game

/-- The flight and the points. -/
def aloftView (g : Game) :
    ((Option Piece × Int × Phase) × (Int × Int × Int) × (Int × Int × Int × Int) × ActiveFlags) ×
      Int :=
  (g.flight, g.score.score)

theorem updateBazaar_aloftView (g : Game) : g.updateBazaar.aloftView = g.aloftView := by
  unfold updateBazaar
  dsimp only
  split <;> rfl

theorem receiveOpScore_aloftView (g : Game) (score lines funds : Int) :
    (g.receiveOpScore score lines funds).aloftView = g.aloftView := by
  have raised : ((g.mirrorScore score funds).raiseStack (lines - g.score.opLines)).aloftView =
      g.aloftView := by
    unfold raiseStack
    split
    · refine forRange_invariant (P := fun h : Game => h.aloftView = g.aloftView)
        (fun _ h _ _ kept => ?_) rfl
      exact kept
    · rfl
  unfold receiveOpScore
  dsimp only
  generalize (g.mirrorScore score funds).raiseStack (lines - g.score.opLines) = h at raised
  exact (updateBazaar_aloftView _).trans raised

end Game

/-- Nothing else of a host touches the flight or the points. -/
theorem Input.applyToGame_aloftView {i : Input} (aside : i.steers = false) (g : Game) :
    (i.applyToGame g).aloftView = g.aloftView := by
  cases i with
  | launchWeapon slot =>
    change (g.launchWeapon slot).aloftView = _
    unfold Game.launchWeapon
    split
    · rfl
    · cases g.arsenal.token slot <;> rfl
  | buyWeapon index =>
    refine onToken_kept Game.aloftView (fun t g => ?_) index g
    rcases g.buyWeapon_cases t with refused | ⟨-, -, a, -, paid⟩
    · rw [refused]
    · rw [paid]
      rfl
  | sellWeapon index =>
    refine onToken_kept Game.aloftView (fun t g => ?_) index g
    rcases g.sellWeapon_cases t with refused | ⟨a, -, paid⟩
    · rw [refused]
    · rw [paid]
      rfl
  | leaveBazaar => rfl
  | setPaused p => rfl
  | receiveWeapon index =>
    exact onToken_kept (f := fun t g => g.receiveWeapon t) Game.aloftView (fun _ _ => rfl) index g
  | receiveOpScore score lines funds => exact g.receiveOpScore_aloftView score lines funds
  | addFunds amount =>
    change (g.addFunds amount).aloftView = _
    unfold Game.addFunds
    split <;> rfl
  | grantWeapon index =>
    exact onToken_kept (f := fun t g => (g.grantWeapon t).2) Game.aloftView (fun _ _ => rfl)
      index g
  | _ => cases aside

namespace Game

/-! ## An action -/

/-- What an action adds to the score. -/
def bonusOf (g : Game) : Action → Int
  | .input .beginDrop => if g.CanEngage then btBoardHgt - g.y else 0
  | .input .aiDrop => if g.CanEngage then btBoardHgt / 2 else 0
  | _ => 0

/-- What an action takes from the time the piece has left: a tick of a running clock, one
millisecond at least. -/
def spentBy (g : Game) : Action → Int
  | .tick dtMs => if 0 < dtMs ∧ g.paused = false ∧ g.inBazaar = false then 1 else 0
  | _ => 0

/-- After an action the same piece is in play. -/
structure Follows (g : Game) (a : Action) (h : Game) : Prop where
  aloft : h.Aloft
  lockSeq : h.lockSeq = g.lockSeq
  score : h.score.score = g.score.score + g.bonusOf a
  engaged : g.dropTime = g.fastDropTime → h.dropTime = h.fastDropTime
  potential : h.potential + g.spentBy a ≤ g.potential

theorem Descends.follows {g h : Game} {a : Action}
    (descends : Descends (g.spentBy a) (g.bonusOf a) g h) : Follows g a h where
  aloft := descends.aloft
  lockSeq := of_still lockSeq (fun _ => rfl) descends.still
  score := descends.score
  engaged := descends.engaged
  potential := descends.potential

/-- The piece moves, or it locks and the next one comes, or the game ends. -/
theorem act_follows {g : Game} (grounded : g.Grounded) (aloft : g.Aloft) (a : Action)
    (grounded' : (g.act a).Grounded) :
    Follows g a (g.act a) ∨
      (g.act a).lockSeq = g.lockSeq + 1 ∧ (g.act a).score.score = g.score.score ∧
        ((g.act a).phase = .over ∨ (g.act a).Aloft) := by
  have aside {h : Game} (bonus : g.bonusOf a = 0) (spent : g.spentBy a = 0)
      (lockSeq : h.lockSeq = g.lockSeq) (same : h.aloftView = g.aloftView) : Follows g a h := by
    have flight : h.flight = g.flight := congrArg Prod.fst same
    refine ⟨aloft.of_flight flight, lockSeq, ?_, fun engaged => ?_, ?_⟩
    · rw [bonus, add_zero]
      exact congrArg Prod.snd same
    · rw [show h.dropTime = g.dropTime from congrArg (·.2.2.1.1) flight,
        show h.fastDropTime = g.fastDropTime from congrArg (·.2.1.2.2) flight]
      exact engaged
    · rw [spent, add_zero, potential_of_flight flight]
  cases a with
  | input i =>
    left
    cases steers : i.steers with
    | false =>
      refine aside ?_ rfl (i.applyToGame_lockSeq g) (Input.applyToGame_aloftView steers g)
      cases i with
      | beginDrop | aiDrop => cases steers
      | _ => rfl
    | true =>
      refine Descends.follows ?_
      cases i with
      | moveLeft => exact descends_shift aloft g.leftX
      | moveRight => exact descends_shift aloft g.rightX
      | rotate => exact descends_rotate aloft
      | beginDrop => exact descends_dropFor grounded aloft _
      | aiDrop => exact descends_dropFor grounded aloft _
      | softDrop => exact descends_softDrop grounded aloft
      | _ => cases steers
  | tick dtMs =>
    by_cases runs : 0 < dtMs ∧ g.paused = false ∧ g.inBazaar = false
    · have spent : g.spentBy (.tick dtMs) = 1 := if_pos runs
      rcases descends_tick grounded aloft runs.1 runs.2 with falls | ⟨acc, p, locks, placed⟩
      · left
        rw [← spent] at falls
        exact falls.follows
      · right
        have timed := descends_tickWeapons aloft dtMs
        change (g.tick dtMs).Grounded at grounded'
        change (g.tick dtMs).lockSeq = _ ∧ (g.tick dtMs).score.score = _ ∧
          ((g.tick dtMs).phase = .over ∨ (g.tick dtMs).Aloft)
        rw [placed] at grounded' ⊢
        refine ⟨?_, ?_, aloft_locked locks grounded'⟩
        · rw [place_lockSeq locks]
          exact congrArg (· + 1) (of_still lockSeq (fun _ => rfl) timed.still)
        · rw [place_score locks]
          exact timed.score.trans (add_zero _)
    · left
      have spent : g.spentBy (.tick dtMs) = 0 := if_neg runs
      have idle : g.tick dtMs = g := by
        unfold tick
        refine if_pos ?_
        by_contra busy
        simp only [not_or, Bool.not_eq_true, not_le] at busy
        exact runs ⟨busy.2.2.2, busy.1, busy.2.1⟩
      change Follows g _ (g.tick dtMs)
      rw [idle]
      exact aside rfl spent rfl rfl
  | queueBoardSwap cells => exact .inl (aside rfl rfl rfl rfl)
  | setArsenal arsenal => exact .inl (aside rfl rfl rfl rfl)
  | takeEvents => exact .inl (aside rfl rfl rfl rfl)

/-- Once the game is over no action moves anything. -/
theorem act_over {g : Game} (ended : g.phase = .over) (a : Action) :
    (g.act a).phase = .over ∧ (g.act a).score.score = g.score.score ∧
      (g.act a).lockSeq = g.lockSeq := by
  have aside {h : Game} (lockSeq : h.lockSeq = g.lockSeq) (same : h.aloftView = g.aloftView) :
      h.phase = .over ∧ h.score.score = g.score.score ∧ h.lockSeq = g.lockSeq :=
    ⟨(congrArg (·.1.1.2.2) same).trans ended, congrArg Prod.snd same, lockSeq⟩
  have engages : ¬g.CanEngage := fun can => can.1 (.inr (.inr ended))
  have dropped (bonus : Int) : (g.dropFor bonus).aloftView = g.aloftView := by
    rcases g.dropFor_cases bonus with ⟨can, -⟩ | ⟨-, same | marked⟩
    · exact absurd can engages
    · rw [same]
    · rw [marked]
      rfl
  cases a with
  | input i =>
    refine aside (i.applyToGame_lockSeq g) ?_
    cases steers : i.steers with
    | false => exact Input.applyToGame_aloftView steers g
    | true =>
      have shifted (dx : Int) : g.shift dx = g := if_pos (.inr ended)
      cases i with
      | moveLeft => exact congrArg aloftView (shifted g.leftX)
      | moveRight => exact congrArg aloftView (shifted g.rightX)
      | rotate => exact congrArg aloftView (if_pos (.inr ended) : g.rotate = g)
      | beginDrop => exact dropped _
      | aiDrop => exact dropped _
      | softDrop =>
        have idle : g.softDrop = g := if_pos (.inr (.inr (by rw [ended]; decide)))
        exact congrArg aloftView idle
      | _ => cases steers
  | tick dtMs =>
    have idle : g.tick dtMs = g := if_pos (.inr (.inr (.inl ended)))
    change (g.tick dtMs).phase = .over ∧ _
    exact aside (congrArg lockSeq idle) (congrArg aloftView idle)
  | queueBoardSwap cells => exact aside rfl rfl
  | setArsenal arsenal => exact aside rfl rfl
  | takeEvents => exact aside rfl rfl

/-! ## Reachable games -/

/-- What every action of a reachable game starts from. -/
structure Flown (g : Game) : Prop where
  geared : g.Geared
  regular : g.Regular
  inPlay : g.phase = .over ∨ g.Aloft

theorem Flown.grounded {g : Game} (flown : g.Flown) : g.Grounded :=
  flown.geared.grounded flown.regular

theorem flown_new (seed : Nat) : (new seed).Flown :=
  ⟨geared_new seed, regular_new seed,
    aloft_spawn _ ((geared_new seed).grounded (regular_new seed))⟩

theorem Flown.act {g : Game} (flown : g.Flown) {a : Action} (swap : g.StandardSwap a) :
    (g.act a).Flown := by
  have geared := flown.geared.act a
  have regular := flown.regular.act swap
  refine ⟨geared, regular, ?_⟩
  rcases flown.inPlay with ended | aloft
  · exact .inl (act_over ended a).1
  · rcases act_follows flown.grounded aloft a (geared.grounded regular) with
      follows | ⟨-, -, inPlay⟩
    · exact .inr follows.aloft
    · exact inPlay

theorem Reached.flown {g : Game} (reached : Reached StandardSwap g) : g.Flown :=
  reached.invariant flown_new fun _ _ flown swap => flown.act swap

/-! ## Runs -/

/-- The ticks among the actions of a run that find the clock running. -/
def runningTicks : Game → List Action → Int
  | _, [] => 0
  | g, a :: actions => g.spentBy a + (g.act a).runningTicks actions

theorem runningTicks_snoc (g : Game) (actions : List Action) (a : Action) :
    g.runningTicks (actions ++ [a]) =
      g.runningTicks actions + (actions.foldl act g).spentBy a := by
  induction actions generalizing g with
  | nil => exact add_comm _ _
  | cons b actions ih =>
    change g.spentBy b + (g.act b).runningTicks (actions ++ [a]) = _
    rw [ih, ← add_assoc]
    rfl

theorem lockSeq_act_le (g : Game) (a : Action) : g.lockSeq ≤ (g.act a).lockSeq := by
  cases a with
  | input i => exact (i.applyToGame_lockSeq g).ge
  | tick dtMs =>
    rcases g.tick_lockSeq dtMs with same | locked
    · exact same.ge
    · exact (Nat.le_succ _).trans locked.ge
  | queueBoardSwap cells => exact le_rfl
  | setArsenal arsenal => exact le_rfl
  | takeEvents => exact le_rfl

/-- Along a run the piece locks, or it is still in play: engaged if it was, and with the ticks
of the run taken from its potential. -/
theorem descends_run {g h : Game} {actions : List Action} (flown : g.Flown)
    (alive : g.phase ≠ .over) (run : Run StandardSwap act g actions h) :
    h.Flown ∧ (g.lockSeq < h.lockSeq ∨
      h.Aloft ∧ h.lockSeq = g.lockSeq ∧
        (g.dropTime = g.fastDropTime → h.dropTime = h.fastDropTime) ∧
        h.potential + g.runningTicks actions ≤ g.potential) := by
  have aloft : g.Aloft := flown.inPlay.resolve_left alive
  induction run with
  | nil => exact ⟨flown, .inr ⟨aloft, rfl, id, (add_zero _).le⟩⟩
  | @snoc actions h a run swap ih =>
    obtain ⟨flown', before⟩ := ih
    have after := flown'.act swap
    refine ⟨after, ?_⟩
    rcases before with locked | ⟨aloft', same, engaged, left⟩
    · exact .inl (locked.trans_le (h.lockSeq_act_le a))
    rcases act_follows flown'.grounded aloft' a after.grounded with follows | ⟨locked, -, -⟩
    · right
      refine ⟨follows.aloft, follows.lockSeq.trans same, follows.engaged ∘ engaged, ?_⟩
      have spent := follows.potential
      rw [runningTicks_snoc, ← run.eq_foldl]
      omega
    · left
      rw [locked, same]
      exact Nat.lt_succ_self _

/-- There is a number of ticks in which every piece locks or the game ends, whatever is played
and relayed between them and whatever weapons are active: of the ticks of any positive length
that find the game neither paused nor in its bazaar. -/
theorem piece_not_stalled :
    ∃ bound : Int, ∀ (g h : Game) (actions : List Action), g.Reached StandardSwap →
      g.phase ≠ .over → Run StandardSwap act g actions h → bound ≤ g.runningTicks actions →
        g.lockSeq < h.lockSeq ∨ h.phase = .over := by
  refine ⟨256001, fun g h actions reached alive run ticks => .inl ?_⟩
  obtain ⟨flown, locked | ⟨aloft, -, -, left⟩⟩ := descends_run reached.flown alive run
  · exact locked
  · -- the potential of the start does not last that long
    have most := (potential_le reached.flown.grounded (reached.flown.inPlay.resolve_left alive)).2
    have least := (potential_le flown.grounded aloft).1
    omega

end Game

end BattleTris
