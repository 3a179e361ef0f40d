import BattleTris.Ai.Orders
import BattleTris.Ai.Steering
import BattleTris.Match.Flight

/-!
# The way to the chosen placement

The search turns and shifts a copy of the piece; the driver steers the piece in
play by its orientation and its column.  `Piece.turnedTo_construct` says what
the search looks at, `Seated` where the driver has got to, and `reaches_iff`
when the two meet.
-/

namespace BattleTris

open Loop

/-! ## What the search looks at -/

namespace PieceKind

open Piece

theorem form_turned_all : ∀ kind ∈ all, kind.rot ≠ 0 → ∀ k < kind.period, k ≠ 0 →
    ∃ i j, kind.form k i j ≠ kind.form 0 i j := by
  decide +kernel

theorem form_still_all : ∀ kind ∈ all, kind.rot = 0 → ∀ k < kind.period, ∀ i j,
    kind.form k i j = kind.form 0 i j := by
  decide +kernel

/-- No turn of a cycle leaves a piece as it was. -/
theorem paint_turned {kind : PieceKind} {o : Nat} (turns : kind.rot ≠ 0) (phase : o < kind.period)
    (turned : o ≠ 0) (c : Cell) : (kind.form 0).paint c ≠ (kind.form o).paint c := by
  obtain ⟨i, j, differ⟩ := form_turned_all kind kind.mem_all turns o phase turned
  intro same
  have square := congrArg Option.isSome (congrFun (congrFun same i) j)
  rw [Pattern.paint_isSome, Pattern.paint_isSome] at square
  exact differ square.symm

theorem paint_still {kind : PieceKind} {o : Nat} (fixed : kind.rot = 0) (phase : o < kind.period)
    (c : Cell) : (kind.form 0).paint c = (kind.form o).paint c := by
  have forms : kind.form o = kind.form 0 :=
    funext fun i => funext fun j => form_still_all kind kind.mem_all fixed o phase i j
  rw [forms]

end PieceKind

theorem Board.new_free {width height x y : Int} (computer : Bool) (column : 0 ≤ x ∧ x < width)
    (row : 0 ≤ y ∧ y < height) : (Board.new width height computer).occupied x y = false := by
  have empty : (Board.new width height computer).get x y = none := Grid.get_empty ..
  have shut : (Board.new width height computer).isActive .fallOut = false := rfl
  unfold occupied
  rw [shut, empty, if_pos (by decide)]
  refine if_neg ?_
  change ¬(x < 0 ∨ x ≥ width ∨ y ≥ height ∨ y < 0)
  omega

namespace Piece

variable {kind : PieceKind} {pips : UInt8} {b : Board}

/-- On the scratch board there is always room to turn. -/
theorem posed_scratch (kind : PieceKind) (pips : UInt8) (width : b.width = 10)
    (height : b.height = 28) (k : Nat) :
    (posed kind 10 10 pips k).canMoveTo (Board.new (b.width + 20) (b.height + 20) true) 10 10 =
      true := by
  rw [posed_free, width, height]
  intro i j _
  have column := i.isLt
  have row := j.isLt
  have wide : btPieceWidth = 8 := rfl
  exact Board.new_free true (by omega) (by omega)

theorem rotateTimes_posed (turns : kind.rot ≠ 0) (width : b.width = 10) (height : b.height = 28)
    (n : Nat) {k : Nat} (phase : k + n < kind.period) :
    rotateTimes (Board.new (b.width + 20) (b.height + 20) true) n (posed kind 10 10 pips k) =
      posed kind 10 10 pips (k + n) := by
  induction n generalizing k with
  | zero => rfl
  | succ n ih =>
    have next : kind.turn k false = k + 1 := Nat.mod_eq_of_lt (by omega)
    have turned := rotate_posed turns (by omega) (posed_scratch kind pips width height k) false
    rw [next, if_pos (posed_scratch kind pips width height (k + 1))] at turned
    unfold rotateTimes
    rw [turned]
    dsimp only
    rw [ih (by omega), Nat.add_right_comm, Nat.add_assoc]

/-- The piece the search tries is the fresh piece in phase `o`. -/
theorem turnedTo_cells (width : b.width = 10) (height : b.height = 28) {x y : Int} {o : Nat}
    (phase : o < kind.period) :
    ((construct kind x y pips).turnedTo b o).cells = (posed kind x y pips o).cells := by
  have moved : ((construct kind x y pips).moveTo (Board.new (b.width + 20) (b.height + 20) true)
      10 10).2 = posed kind 10 10 pips 0 := by
    have fits := posed_scratch kind pips width height 0
    rw [posed_zero] at fits ⊢
    unfold moveTo
    rw [if_pos (show (construct kind x y pips).canMoveTo _ 10 10 = true from fits)]
    rfl
  unfold turnedTo
  dsimp only
  rw [moved]
  by_cases turns : kind.rot = 0
  · have stays (n : Nat) : rotateTimes (Board.new (b.width + 20) (b.height + 20) true) n
        (posed kind 10 10 pips 0) = posed kind 10 10 pips 0 := by
      cases n with
      | zero => rfl
      | succ n =>
        unfold rotateTimes
        rw [rotate_still turns]
    rw [stays]
    exact PieceKind.paint_still turns phase _
  · rw [rotateTimes_posed turns width height o (by omega), Nat.zero_add]
    rfl

/-- Where a piece fits is up to the squares it covers. -/
theorem canMoveTo_congr {p q : Piece} (same : p.cells = q.cells) (b : Board) (x y : Int) :
    p.canMoveTo b x y = q.canMoveTo b x y := by
  unfold canMoveTo
  rw [same]

/-- The columns where a piece that covers some square can be placed. -/
theorem columns_of_fits {p : Piece} (spun : p.Spun) (width : b.width = 10) {x y : Int}
    (fits : p.canMoveTo b x y = true) : -7 ≤ x ∧ x ≤ 9 := by
  obtain ⟨i, j, covered⟩ := spun.filled
  have free := Piece.canMoveTo_iff.mp fits i j covered
  have low : i.val < 8 := i.isLt
  have inside : 0 ≤ x + i ∧ x + i < b.width := by
    by_contra outside
    have blocked : b.occupied (x + i) (y + j) = true := by
      unfold Board.occupied
      split
      · exact if_pos (by omega)
      · exact if_pos (by omega)
    rw [blocked] at free
    cases free
  rw [width] at inside
  omega

end Piece

/-! ## The chosen placement -/

/-- The placement the computer chooses for a piece of a game. -/
def chosen (g : Game) (p : Piece) : Placement :=
  bestPlacementTuned g.board p (.forActiveWeapons g)

theorem candidates_mem {b : Board} (width : b.width = 10) {x : Int} (tried : x ∈ candidates b) :
    -7 ≤ x ∧ x ≤ 9 := by
  have wide : ((btPieceWidth : Nat) : Int) = 8 := rfl
  simp only [candidates, width, wide, List.mem_cons, List.mem_flatMap, List.mem_filter,
    decide_eq_true_eq] at tried
  rcases tried with centre | ⟨_, -, -, range⟩
  · omega
  · omega

theorem landings_mem {b : Board} {p : Piece} {target : Placement} {landed : Board}
    (found : (target, landed) ∈ landings b p) :
    target.x ∈ candidates b ∧
      ∃ o : Nat, target.orientation = o ∧ o < p.orientations.toNat ∧
        (p.turnedTo b o).canMoveTo b target.x 0 = true := by
  simp only [landings, List.mem_flatMap, List.mem_range, List.mem_filterMap, Option.map_eq_some_iff,
    Prod.mk.injEq] at found
  obtain ⟨o, range, x, tried, _, drops, rfl, -⟩ := found
  refine ⟨tried, o, rfl, range, ?_⟩
  -- a landing starts from the first row
  by_contra blocked
  unfold Piece.landing Piece.moveTo at drops
  rw [if_neg blocked] at drops
  cases drops

/-- One landing of the search, against the best so far. -/
def weigh (pen : Penalties) (best : Float × Placement) (landing : Placement × Board) :
    Float × Placement :=
  let score := landing.2.evalWith pen
  if score < best.1 then (score, landing.1) else best

section search

variable {b : Board} {p : Piece} {pen : Penalties}

theorem bestPlacementTuned_eq : bestPlacementTuned b p pen =
    ((landings b p).foldl (weigh pen) (1.7976931348623157e308, ⟨p.x, 0⟩)).2 := rfl

theorem weigh_found {best : Float × Placement} {landing : Placement × Board}
    (mem : landing ∈ landings b p) (found : ∃ landed, (best.2, landed) ∈ landings b p) :
    ∃ landed, ((weigh pen best landing).2, landed) ∈ landings b p := by
  unfold weigh
  dsimp only
  split
  · exact ⟨landing.2, mem⟩
  · exact found

/-- What the search has after some of its landings: one of them, or what it started with. -/
theorem weigh_all (pen : Penalties) {tried : List (Placement × Board)}
    (within : tried ⊆ landings b p) (start : Float × Placement) :
    tried.foldl (weigh pen) start = start ∨
      ∃ landed, ((tried.foldl (weigh pen) start).2, landed) ∈ landings b p := by
  refine foldl_invariant (P := fun best => best = start ∨
    ∃ landed, (best.2, landed) ∈ landings b p) (fun landing mem best kept => ?_) (.inl rfl)
  rcases kept with rfl | found
  · unfold weigh
    dsimp only
    split
    · exact .inr ⟨landing.2, within mem⟩
    · exact .inl rfl
  · exact .inr (weigh_found (within mem) found)

/-- A placement is a landing of the search, or the piece as it is. -/
theorem bestPlacementTuned_mem (b : Board) (p : Piece) (pen : Penalties) :
    bestPlacementTuned b p pen = ⟨p.x, 0⟩ ∨
      ∃ landed, (bestPlacementTuned b p pen, landed) ∈ landings b p := by
  rw [bestPlacementTuned_eq]
  rcases weigh_all pen (List.Subset.refl (landings b p)) (1.7976931348623157e308, ⟨p.x, 0⟩)
    with none | found
  · rw [none]
    exact .inl rfl
  · exact .inr found

/-- Once a landing scores below the highest number, a landing is chosen. -/
theorem bestPlacementTuned_found {landing : Placement × Board} (mem : landing ∈ landings b p)
    (scores : landing.2.evalWith pen < 1.7976931348623157e308) :
    ∃ landed, (bestPlacementTuned b p pen, landed) ∈ landings b p := by
  obtain ⟨before, after, split⟩ := List.append_of_mem mem
  have earlier : before ⊆ landings b p := by
    rw [split]
    exact List.subset_append_left before _
  have later : after ⊆ landings b p := by
    rw [split]
    exact fun _ listed => List.mem_append_right _ (List.mem_cons_of_mem _ listed)
  have reached : ∃ landed, ((weigh pen (before.foldl (weigh pen)
      (1.7976931348623157e308, ⟨p.x, 0⟩)) landing).2, landed) ∈ landings b p := by
    rcases weigh_all pen earlier (1.7976931348623157e308, ⟨p.x, 0⟩) with none | found
    · rw [none]
      unfold weigh
      rw [if_pos scores]
      exact ⟨landing.2, mem⟩
    · exact weigh_found mem found
  have whole (start : Float × Placement) : (landings b p).foldl (weigh pen) start =
      after.foldl (weigh pen) (weigh pen (before.foldl (weigh pen) start) landing) := by
    rw [split, List.foldl_append, List.foldl_cons]
  rw [bestPlacementTuned_eq, whole]
  exact foldl_invariant (f := weigh pen)
    (P := fun best => ∃ landed, (best.2, landed) ∈ landings b p)
    (fun _ listed _ found => weigh_found (later listed) found) reached

end search

theorem chosen_bounds {g : Game} {x : Int} (kind : PieceKind) (y : Int) (pips : UInt8)
    (width : g.board.width = 10) (column : -7 ≤ x ∧ x ≤ 9) :
    (-7 ≤ (chosen g (.construct kind x y pips)).x ∧ (chosen g (.construct kind x y pips)).x ≤ 9) ∧
      ∃ o : Nat, (chosen g (.construct kind x y pips)).orientation = o ∧ o < kind.period := by
  have period : (Piece.construct kind x y pips).orientations = kind.period := by
    rw [← Piece.posed_zero]
    exact Piece.posed_orientations
  rcases bestPlacementTuned_mem g.board (.construct kind x y pips) (.forActiveWeapons g) with
    none | ⟨landed, found⟩
  · change chosen g (.construct kind x y pips) = ⟨x, 0⟩ at none
    rw [none]
    exact ⟨column, 0, rfl, kind.period_pos⟩
  · obtain ⟨tried, o, faces, phase, -⟩ := landings_mem found
    rw [period, Int.toNat_natCast] at phase
    exact ⟨candidates_mem width tried, o, faces, phase⟩

/-! ## What the driver does -/

namespace Game

/-- `h` is `g` with its piece steered to column `x` and phase `k`. -/
structure Seated (g h : Game) (kind : PieceKind) (pips : UInt8) (k : Nat) (x : Int) : Prop where
  still : h.still = g.still
  alive : h.phase ≠ .over
  row : h.y = g.y
  column : h.x = x
  current : h.current = some (.posed kind x g.y pips k)

namespace Seated

variable {g h : Game} {kind : PieceKind} {pips : UInt8} {k : Nat} {x : Int}

theorem paused (seated : Seated g h kind pips k x) : h.paused = g.paused :=
  of_still Game.paused (fun _ => rfl) seated.still

theorem board (seated : Seated g h kind pips k x) : h.board = g.board :=
  of_still Game.board (fun _ => rfl) seated.still

theorem weapons (seated : Seated g h kind pips k x) : h.weapons = g.weapons :=
  of_still Game.weapons (fun _ => rfl) seated.still

/-- The turn of a game that runs. -/
theorem rotate_eq (seated : Seated g h kind pips k x) (running : g.paused = false) :
    h.rotate =
      { h with current := some ((Piece.posed kind x g.y pips k).rotate g.board false).2 } := by
  have moves : ¬(h.paused = true ∨ h.phase = .over) := by
    rw [seated.paused, running]
    simp [seated.alive]
  unfold Game.rotate rotateInternal
  rw [if_neg moves, seated.current, seated.board]
  rfl

theorem rotate_idle (seated : Seated g h kind pips k x)
    (idle : g.paused = true ∨ kind.rot = 0) : Seated g h.rotate kind pips k x := by
  cases running : g.paused with
  | true =>
    have same : h.rotate = h := if_pos (.inl (seated.paused.trans running))
    rw [same]
    exact seated
  | false =>
    have fixed := idle.resolve_left (by simp [running])
    rw [seated.rotate_eq running, Piece.rotate_still fixed]
    exact ⟨seated.still, seated.alive, seated.row, seated.column, rfl⟩

theorem rotate (seated : Seated g h kind pips k x) (running : g.paused = false)
    (turns : kind.rot ≠ 0) (phase : k < kind.period)
    (free : (Piece.posed kind x g.y pips k).canMoveTo g.board x g.y = true)
    (room : (Piece.posed kind x g.y pips (kind.turn k false)).canMoveTo g.board x g.y = true) :
    Seated g h.rotate kind pips (kind.turn k false) x := by
  rw [seated.rotate_eq running, Piece.rotate_posed turns phase free, if_pos room]
  exact ⟨seated.still, seated.alive, seated.row, seated.column, rfl⟩

/-- A shift of a piece that may not move. -/
theorem shift_idle (seated : Seated g h kind pips k x) (idle : g.paused = true) (dx : Int) :
    Seated g (h.shift dx) kind pips k x := by
  have same : h.shift dx = h := if_pos (.inl (seated.paused.trans idle))
  rw [same]
  exact seated

/-- A shift of a game that runs moves the piece if it fits. -/
theorem shift (seated : Seated g h kind pips k x) (running : g.paused = false) (dx : Int) :
    Seated g (h.shift dx) kind pips k
      (if (Piece.posed kind x g.y pips k).canMoveTo g.board (x + dx) g.y then x + dx else x) := by
  have moves : ¬(h.paused = true ∨ h.phase = .over) := by
    rw [seated.paused, running]
    simp [seated.alive]
  have fits : h.shift dx =
      if (Piece.posed kind x g.y pips k).canMoveTo g.board (x + dx) g.y then
        h.steer.carry (.posed kind x g.y pips k) dx 0 else h := by
    unfold Game.shift
    rw [if_neg moves, seated.current]
    dsimp only
    rw [seated.board, seated.column, seated.row]
  rw [fits]
  split
  · refine ⟨seated.still, seated.alive, ?_, ?_, ?_⟩
    · exact (add_zero h.y).trans seated.row
    · exact congrArg (· + dx) seated.column
    · change some ({ Piece.posed kind x g.y pips k with x := h.x + dx, y := h.y + 0 } : Piece) = _
      rw [seated.column, add_zero, seated.row]
      rfl
  · exact seated

/-! ### Turning -/

section rotateTo

open Computer

variable {o : Int} {n : Nat}

/-- A piece that stays as it is when turned. -/
theorem rotateTo_idle (seated : Seated g h kind pips k x) (idle : g.paused = true ∨ kind.rot = 0)
    (n : Nat) : ∃ h', rotateTo o n h = (true, h') ∧ Seated g h' kind pips k x := by
  induction n generalizing h with
  | zero => exact ⟨h, rfl, seated⟩
  | succ n ih =>
    unfold rotateTo
    rw [seated.current]
    dsimp only
    split
    · exact ⟨h, rfl, seated⟩
    · exact ih (seated.rotate_idle idle)

/-- The counter of a piece other than the Star leads the driver through the phases. -/
theorem rotateTo (seated : Seated g h kind pips k x) (running : g.paused = false)
    (turns : kind.rot ≠ 0) (plain : kind ≠ .star) {o : Nat} (phase : o < kind.period)
    (before : k ≤ o) (fuel : o ≤ k + n)
    (free : ∀ k ≤ o, (Piece.posed kind x g.y pips k).canMoveTo g.board x g.y = true) :
    ∃ h', Computer.rotateTo o n h = (true, h') ∧ Seated g h' kind pips o x := by
  induction n generalizing h k with
  | zero =>
    obtain rfl : k = o := by omega
    exact ⟨h, rfl, seated⟩
  | succ n ih =>
    have faces : (Piece.posed kind x g.y pips k).orientation = k := if_neg plain
    unfold Computer.rotateTo
    rw [seated.current]
    dsimp only
    rw [faces]
    by_cases there : k = o
    · rw [if_pos (by rw [there]), ← there]
      exact ⟨h, rfl, seated⟩
    · have next : kind.turn k false = k + 1 := Nat.mod_eq_of_lt (by omega)
      have turned := seated.rotate running turns (by omega) (free k before)
        (by rw [next]; exact free (k + 1) (by omega))
      rw [next] at turned
      rw [if_neg (by omega)]
      exact ih turned (by omega) (by omega)

/-- The Star's counter stands still, so the driver turns it back. -/
theorem rotateTo_star (seated : Seated g h .star pips 0 x) (running : g.paused = false)
    (free : ∀ k ≤ 1, (Piece.posed .star x g.y pips k).canMoveTo g.board x g.y = true) :
    ∃ h', Computer.rotateTo 1 2 h = (true, h') ∧ Seated g h' .star pips 0 x := by
  have once := seated.rotate running (by decide) (by decide) (free 0 (by decide)) (free 1 le_rfl)
  have twice := once.rotate running (by decide) (by decide) (free 1 le_rfl) (free 0 (by decide))
  have faces (k : Nat) : (Piece.posed .star x g.y pips k).orientation ≠ 1 := by
    change (0 : Int) ≠ 1
    decide
  refine ⟨h.rotate.rotate, ?_, twice⟩
  unfold Computer.rotateTo
  rw [seated.current]
  dsimp only
  rw [if_neg (faces 0)]
  unfold Computer.rotateTo
  rw [once.current]
  dsimp only
  rw [if_neg (faces _)]
  rfl

end rotateTo

/-! ### Sliding -/

section slideTo

open Computer

variable {target : Int} {n : Nat}

/-- What a shift does to a property of the column, sliding does. -/
theorem slideTo_column {P : Int → Prop} (seated : Seated g h kind pips k x) (target : Int)
    (here : P x)
    (step : ∀ h x, Seated g h kind pips k x → P x → x ≠ target →
      ∃ x', Seated g (if x < target then h.moveRight else h.moveLeft) kind pips k x' ∧ P x')
    (n : Nat) : ∃ h' x', slideTo target n h = (true, h') ∧ Seated g h' kind pips k x' ∧ P x' := by
  induction n generalizing h x with
  | zero => exact ⟨h, x, rfl, seated, here⟩
  | succ n ih =>
    have column : (Piece.posed kind x g.y pips k).x = x := rfl
    unfold slideTo
    rw [seated.current]
    dsimp only
    rw [column]
    by_cases there : x = target
    · rw [if_pos there]
      exact ⟨h, x, rfl, seated, here⟩
    · obtain ⟨x', shifted, kept⟩ := step h x seated here there
      rw [if_neg there]
      exact ih shifted kept

/-- Whatever is in the way, the piece only changes its column. -/
theorem slideTo_seated (seated : Seated g h kind pips k x) (n : Nat) :
    ∃ h' x', slideTo target n h = (true, h') ∧ Seated g h' kind pips k x' := by
  have shifted (dx : Int) (h : Game) (x : Int) (seated : Seated g h kind pips k x) :
      ∃ x', Seated g (h.shift dx) kind pips k x' := by
    cases running : g.paused with
    | true => exact ⟨x, seated.shift_idle running dx⟩
    | false => exact ⟨_, seated.shift running dx⟩
  obtain ⟨h', x', done, sits, -⟩ := seated.slideTo_column (P := fun _ => True) target trivial
    (fun h x seated _ _ => by
      split
      · obtain ⟨x', sits⟩ := shifted h.rightX h x seated
        exact ⟨x', sits, trivial⟩
      · obtain ⟨x', sits⟩ := shifted h.leftX h x seated
        exact ⟨x', sits, trivial⟩) n
  exact ⟨h', x', done, sits⟩

/-- A pause keeps the piece where it is. -/
theorem slideTo_idle (seated : Seated g h kind pips k x) (idle : g.paused = true) (n : Nat) :
    ∃ h', slideTo target n h = (true, h') ∧ Seated g h' kind pips k x := by
  obtain ⟨h', x', done, sits, rfl⟩ := seated.slideTo_column (P := fun x' => x' = x) target rfl
    (fun h x' seated same _ => by
      split
      · exact ⟨x', seated.shift_idle idle _, same⟩
      · exact ⟨x', seated.shift_idle idle _, same⟩) n
  exact ⟨h', done, sits⟩

/-- In the usual frame the driver goes through the columns up to its target. -/
theorem slideTo (seated : Seated g h kind pips k x) (running : g.paused = false)
    (left : g.leftX = -1) (right : g.rightX = 1) (fuel : (target - x).natAbs ≤ n)
    (free : ∀ x', min x target ≤ x' → x' ≤ max x target →
      (Piece.posed kind x' g.y pips k).canMoveTo g.board x' g.y = true) :
    ∃ h', Computer.slideTo target n h = (true, h') ∧ Seated g h' kind pips k target := by
  induction n generalizing h x with
  | zero =>
    obtain rfl : x = target := by omega
    exact ⟨h, rfl, seated⟩
  | succ n ih =>
    have leftX : h.leftX = -1 := (of_still Game.leftX (fun _ => rfl) seated.still).trans left
    have rightX : h.rightX = 1 := (of_still Game.rightX (fun _ => rfl) seated.still).trans right
    have column : (Piece.posed kind x g.y pips k).x = x := rfl
    unfold Computer.slideTo
    rw [seated.current]
    dsimp only
    rw [column]
    by_cases there : x = target
    · rw [if_pos there, ← there]
      exact ⟨h, rfl, seated⟩
    rw [if_neg there]
    by_cases below : x < target
    · have room : (Piece.posed kind x g.y pips k).canMoveTo g.board (x + 1) g.y = true :=
        free (x + 1) (by omega) (by omega)
      have shifted := seated.shift running 1
      rw [if_pos room] at shifted
      rw [if_pos below, moveRight, rightX]
      exact ih shifted (by omega) fun x' low high => free x' (by omega) (by omega)
    · have room : (Piece.posed kind x g.y pips k).canMoveTo g.board (x + -1) g.y = true :=
        free (x + -1) (by omega) (by omega)
      have shifted := seated.shift running (-1)
      rw [if_pos room] at shifted
      rw [if_neg below, moveLeft, leftX]
      exact ih shifted (by omega) fun x' low high => free x' (by omega) (by omega)

/-- Turned over, the driver goes the other way and never meets its target. -/
theorem slideTo_away (seated : Seated g h kind pips k x) (left : g.leftX = 1)
    (right : g.rightX = -1) (running : g.paused = false) (elsewhere : x ≠ target) (n : Nat) :
    ∃ h' x', Computer.slideTo target n h = (true, h') ∧ Seated g h' kind pips k x' ∧
      x' ≠ target := by
  refine seated.slideTo_column target elsewhere (fun h x seated elsewhere _ => ?_) n
  have leftX : h.leftX = 1 := (of_still Game.leftX (fun _ => rfl) seated.still).trans left
  have rightX : h.rightX = -1 := (of_still Game.rightX (fun _ => rfl) seated.still).trans right
  by_cases below : x < target
  · rw [if_pos below, moveRight, rightX]
    refine ⟨_, seated.shift running (-1), ?_⟩
    split <;> omega
  · rw [if_neg below, moveLeft, leftX]
    refine ⟨_, seated.shift running 1, ?_⟩
    split <;> omega

end slideTo

theorem dropFor (seated : Seated g h kind pips k x) (bonus : Int) :
    Seated g (h.dropFor bonus) kind pips k x := by
  have still := (h.dropFor_still bonus).trans seated.still
  rcases h.dropFor_cases bonus with ⟨-, dropped⟩ | ⟨-, same | marked⟩
  · rw [dropped] at still ⊢
    exact ⟨still, seated.alive, seated.row, seated.column, seated.current⟩
  · rw [same]
    exact seated
  · rw [marked]
    exact ⟨seated.still, seated.alive, seated.row, seated.column, seated.current⟩

/-- Where the turning ends: with the chosen squares, unless a counter or a pause is in the way. -/
theorem turned (seated : Seated g h kind pips 0 x) {o : Nat} (phase : o < kind.period)
    (free : ∀ k ≤ o, (Piece.posed kind x g.y pips k).canMoveTo g.board x g.y = true) :
    ∃ h' k, Computer.rotateTo o (max (kind.period : Int) 1).toNat h = (true, h') ∧
      Seated g h' kind pips k x ∧
      ((Piece.posed kind x g.y pips k).cells = (Piece.posed kind x g.y pips o).cells ↔
        o = 0 ∨ kind.rot = 0 ∨ kind ≠ .star ∧ g.paused = false) := by
  have rounds : o ≤ 0 + (max (kind.period : Int) 1).toNat := by omega
  by_cases none : o = 0
  · subst none
    refine ⟨h, 0, ?_, seated, by simp⟩
    have faces : (Piece.posed kind x g.y pips 0).orientation = ((0 : Nat) : Int) := ite_self _
    have positive : ∃ n, (max (kind.period : Int) 1).toNat = n + 1 :=
      ⟨(max (kind.period : Int) 1).toNat - 1, by omega⟩
    obtain ⟨n, fuel⟩ := positive
    rw [fuel]
    unfold Computer.rotateTo
    rw [seated.current]
    exact if_pos faces
  by_cases turns : kind.rot = 0
  · obtain ⟨h', done, sits⟩ := seated.rotateTo_idle (.inr turns) (max (kind.period : Int) 1).toNat
    exact ⟨h', 0, done, sits, iff_of_true (PieceKind.paint_still turns phase _) (.inr (.inl turns))⟩
  have differ : (Piece.posed kind x g.y pips 0).cells ≠ (Piece.posed kind x g.y pips o).cells :=
    PieceKind.paint_turned turns phase none _
  cases running : g.paused with
  | true =>
    obtain ⟨h', done, sits⟩ := seated.rotateTo_idle (.inl running) (max (kind.period : Int) 1).toNat
    exact ⟨h', 0, done, sits, iff_of_false differ (by simp [none, turns])⟩
  | false =>
    by_cases star : kind = .star
    · subst star
      obtain rfl : o = 1 := by
        have two : PieceKind.period .star = 2 := rfl
        omega
      obtain ⟨h', done, sits⟩ := seated.rotateTo_star running free
      exact ⟨h', 0, done, sits, iff_of_false differ (by simp [turns])⟩
    · obtain ⟨h', done, sits⟩ :=
        seated.rotateTo running turns star phase (Nat.zero_le o) rounds free
      exact ⟨h', o, done, sits, iff_of_true rfl (.inr (.inr ⟨star, rfl⟩))⟩

/-- Where the sliding ends: in the chosen column, unless gravity is turned over or a pause is in
the way. -/
theorem slid (seated : Seated g h kind pips k x) (geared : g.Geared) (width : g.board.width = 10)
    {target : Int} (near : -7 ≤ target ∧ target ≤ 9) (start : -7 ≤ x ∧ x ≤ 9) :
    ∃ h' x', Computer.slideTo target (h.board.width * 2).toNat h = (true, h') ∧
      Seated g h' kind pips k x' ∧
      ((∀ x', min x target ≤ x' → x' ≤ max x target →
          (Piece.posed kind x' g.y pips k).canMoveTo g.board x' g.y = true) →
        (x' = target ↔ target = x ∨ g.weaponActive .upbyside = false ∧ g.paused = false)) := by
  have fuel : (h.board.width * 2).toNat = 20 := by rw [seated.board, width]; rfl
  have frame := geared.frame
  rw [fuel]
  by_cases free : ∀ x', min x target ≤ x' → x' ≤ max x target →
      (Piece.posed kind x' g.y pips k).canMoveTo g.board x' g.y = true
  case neg =>
    obtain ⟨h', x', done, sits⟩ := seated.slideTo_seated 20
    exact ⟨h', x', done, sits, fun all => absurd all free⟩
  by_cases there : target = x
  · subst there
    refine ⟨h, target, ?_, seated, fun _ => iff_of_true rfl (.inl rfl)⟩
    unfold Computer.slideTo
    rw [seated.current]
    exact if_pos rfl
  cases running : g.paused with
  | true =>
    obtain ⟨h', done, sits⟩ := seated.slideTo_idle running 20
    exact ⟨h', x, done, sits, fun _ => iff_of_false (fun same => there same.symm) (by simp [there])⟩
  | false =>
    cases upbyside : g.weapons.isActive .upbyside with
    | true =>
      rw [upbyside] at frame
      obtain ⟨h', x', done, sits, missed⟩ := seated.slideTo_away (congrArg (·.2.2.2.1) frame)
        (congrArg (·.2.2.2.2) frame) running (fun same => there same.symm) 20
      exact ⟨h', x', done, sits,
        fun _ => iff_of_false missed (by simp [there, weaponActive, upbyside])⟩
    | false =>
      rw [upbyside] at frame
      obtain ⟨h', done, sits⟩ := seated.slideTo running (congrArg (·.2.2.2.1) frame)
        (congrArg (·.2.2.2.2) frame) (by omega : (target - x).natAbs ≤ 20) free
      exact ⟨h', target, done, sits, fun _ => iff_of_true rfl (.inr ⟨upbyside, rfl⟩)⟩

/-- Where a turn leaves the piece. -/
theorem steered (seated : Seated g g kind pips 0 x) (geared : g.Geared)
    (width : g.board.width = 10) {target : Placement} {o : Nat}
    (near : -7 ≤ target.x ∧ target.x ≤ 9) (faces : target.orientation = o) (phase : o < kind.period)
    (turns : ∀ k ≤ o, (Piece.posed kind x g.y pips k).canMoveTo g.board x g.y = true)
    (columns : ∀ x', min x target.x ≤ x' → x' ≤ max x target.x →
      (Piece.posed kind x' g.y pips o).canMoveTo g.board x' g.y = true) :
    ∃ k x', Seated g (Computer.steerTo g (.construct kind x g.y pips) target) kind pips k x' ∧
      ((Piece.posed kind x' g.y pips k).cells = (Piece.posed kind x' g.y pips o).cells ∧
          x' = target.x ↔
        (o = 0 ∨ kind.rot = 0 ∨ kind ≠ .star ∧ g.paused = false) ∧
          (target.x = x ∨ g.weaponActive .upbyside = false ∧ g.paused = false)) := by
  have start := Piece.columns_of_fits (.construct kind x g.y pips) width
    (by rw [← Piece.posed_zero]; exact turns 0 (Nat.zero_le o))
  have period : (Piece.construct kind x g.y pips).orientations = kind.period := by
    rw [← Piece.posed_zero]
    exact Piece.posed_orientations
  obtain ⟨h, k, facing, turned, squares⟩ := seated.turned phase turns
  obtain ⟨h', x', moved, sits, column⟩ := turned.slid geared width near start
  have driven : Computer.steerTo g (.construct kind x g.y pips) target = h'.aiBeginDrop := by
    unfold Computer.steerTo
    rw [period, faces, facing]
    dsimp only
    rw [moved]
  rw [driven]
  refine ⟨k, x', sits.dropFor _, and_congr_right_iff.mpr ?_ |>.trans (and_congr_left' squares)⟩
  -- the columns of the path are those of the squares that were reached
  intro same
  refine column fun x'' low high => ?_
  have footprint : (Piece.posed kind x'' g.y pips k).cells =
      (Piece.posed kind x'' g.y pips o).cells := same
  rw [Piece.canMoveTo_congr footprint]
  exact columns x'' low high

end Seated

/-! ## A turn -/

/-- The piece has just spawned: it is unturned, and where the game has it. -/
structure JustSpawned (g : Game) (p : Piece) : Prop where
  reached : g.Reached StandardSwap
  alive : g.isGameOver = false
  playing : g.current = some p
  unturned : ∃ kind pips, p = .construct kind g.x g.y pips

/-- The straight path to a placement: the turns at the spawn, then the columns of its row. -/
structure PathFree (g : Game) (p : Piece) (target : Placement) : Prop where
  turns : ∀ k ≤ target.orientation.toNat, (p.turnedTo g.board k).canMoveTo g.board g.x g.y = true
  columns : ∀ x, min g.x target.x ≤ x → x ≤ max g.x target.x →
    (p.turnedTo g.board target.orientation.toNat).canMoveTo g.board x g.y = true

/-- The orders fired before a turn change the arsenal and the events only. -/
theorem activateCommando_frame (s : Strategy) (g : Game) :
    ∃ arsenal events,
      (s.activateCommando g).2 = { g with arsenal := arsenal, events := events } := by
  rw [Strategy.activateCommando_eq]
  refine Strategy.visits_invariant (P := fun p => ∃ arsenal events,
    p.game = { g with arsenal := arsenal, events := events }) (fun p q o os kept _ step => ?_) _
    ⟨g.arsenal, g.events, rfl⟩
  cases step with
  | stays => exact kept
  | unlocks => exact kept
  | launches =>
    obtain ⟨arsenal, events, same⟩ := kept
    dsimp only
    unfold Strategy.launchWeapon
    split
    · exact ⟨arsenal, events, same⟩
    · split
      · dsimp only
        unfold Game.launchWeapon
        rw [same]
        split
        · exact ⟨arsenal, events, rfl⟩
        · dsimp only
          split
          · exact ⟨_, _, rfl⟩
          · exact ⟨arsenal, events, rfl⟩
      · exact ⟨arsenal, events, same⟩

end Game

namespace Computer

/-- After the turn the piece has the squares and the column of the landing that was chosen. -/
def Reaches (c : Computer) (g : Game) (p : Piece) : Prop :=
  ∃ q, (c.takeTurn g).2.current = some q ∧
    q.cells = (p.turnedTo g.board (chosen g p).orientation.toNat).cells ∧ q.x = (chosen g p).x

/-- Where the driver's counter and its two moves lead to a placement. -/
def Steerable (g : Game) (p : Piece) (target : Placement) : Prop :=
  (target.orientation = 0 ∨ p.rot = 0 ∨ p.kind ≠ .star ∧ g.paused = false) ∧
    (target.x = g.x ∨ g.weaponActive .upbyside = false ∧ g.paused = false)

/-- A turn leaves a piece in play, steered as far as it can be. -/
theorem takeTurn_piece (c : Computer) {g : Game} {p : Piece} (fresh : g.JustSpawned p)
    (free : g.PathFree p (chosen g p)) : ∃ q, (c.takeTurn g).2.current = some q ∧
      (q.cells = (p.turnedTo g.board (chosen g p).orientation.toNat).cells ∧
        q.x = (chosen g p).x ↔ Steerable g p (chosen g p)) := by
  obtain ⟨reached, alive, playing, kind, pips, rfl⟩ := fresh
  have flown := reached.flown
  have width := flown.grounded.width
  have height := flown.grounded.height
  have posed : Piece.construct kind g.x g.y pips = .posed kind g.x g.y pips 0 :=
    (Piece.posed_zero kind g.x g.y pips).symm
  have lies := free.turns 0 (Nat.zero_le _)
  rw [Piece.canMoveTo_congr (Piece.turnedTo_cells width height kind.period_pos),
    Piece.posed_zero] at lies
  obtain ⟨near, o, faces, phase⟩ := chosen_bounds kind g.y pips width
    (Piece.columns_of_fits (.construct kind g.x g.y pips) width lies)
  obtain ⟨arsenal, events, ordered⟩ := Game.activateCommando_frame c.strategy g
  have turn : (c.takeTurn g).2 = steerTo { g with arsenal := arsenal, events := events }
      (.construct kind g.x g.y pips) (chosen g (.construct kind g.x g.y pips)) := by
    unfold takeTurn
    rw [if_neg (by simp [alive])]
    dsimp only
    rw [ordered]
    dsimp only
    rw [playing]
    rfl
  unfold Steerable
  rw [turn]
  generalize chosen g (.construct kind g.x g.y pips) = target at free near faces
  have turned : target.orientation.toNat = o := by omega
  have turns (k : Nat) (upTo : k ≤ o) :
      (Piece.posed kind g.x g.y pips k).canMoveTo g.board g.x g.y = true := by
    have room := free.turns k (turned.symm ▸ upTo)
    rwa [Piece.canMoveTo_congr (Piece.turnedTo_cells width height (by omega))] at room
  have columns (x : Int) (low : min g.x target.x ≤ x) (high : x ≤ max g.x target.x) :
      (Piece.posed kind x g.y pips o).canMoveTo g.board x g.y = true := by
    have room := free.columns x low high
    rwa [turned, Piece.canMoveTo_congr (Piece.turnedTo_cells width height phase)] at room
  obtain ⟨k, x, sits, reaches⟩ := Game.Seated.steered
    (g := { g with arsenal := arsenal, events := events })
    ⟨rfl, by simpa [Game.isGameOver] using alive, rfl, rfl, by rw [← posed]; exact playing⟩
    (flown.geared.of_gears rfl) width near faces phase turns columns
  have unturned : target.orientation = 0 ↔ o = 0 := by omega
  have rot : (Piece.construct kind g.x g.y pips).rot = kind.rot := by
    rw [posed]
    exact Piece.posed_rot
  rw [turned, Piece.turnedTo_cells width height phase, unturned, rot]
  exact ⟨_, sits.current, reaches⟩

/-- Along a free path the piece gets to the chosen placement exactly when the placement asks for
no turn of a Star and no move of a piece that is turned over, and for nothing during a pause. -/
theorem reaches_iff (c : Computer) {g : Game} {p : Piece} (fresh : g.JustSpawned p)
    (free : g.PathFree p (chosen g p)) : c.Reaches g p ↔ Steerable g p (chosen g p) := by
  obtain ⟨q, playing, steered⟩ := c.takeTurn_piece fresh free
  rw [← steered]
  constructor
  · rintro ⟨q', arrived, cells, column⟩
    rw [playing] at arrived
    cases arrived
    exact ⟨cells, column⟩
  · intro reached
    exact ⟨q, playing, reached⟩

end Computer

/-! ## A piece that does not turn -/

namespace Game

variable {g : Game} {p : Piece}

/-- A square piece as it spawned. -/
def Square (g : Game) (p : Piece) : Prop :=
  (p.rot = 0 ∧ p.kind ≠ .star) ∧ p.orientation = 0 ∧ p.x = g.x ∧ p.y = g.y

/-- The piece can be moved along its row to wherever it can be dropped. -/
def ClearRow (g : Game) (p : Piece) : Prop :=
  p.canMoveTo g.board g.x g.y = true ∧
    ∀ x ∈ candidates g.board, p.canMoveTo g.board x 0 = true → ∀ k : Nat, k < 17 →
      min g.x x ≤ (k : Int) - 7 → (k : Int) - 7 ≤ max g.x x →
        p.canMoveTo g.board ((k : Int) - 7) g.y = true

instance : Decidable (g.Square p) := inferInstanceAs (Decidable (_ ∧ _))

instance : Decidable (g.ClearRow p) := inferInstanceAs (Decidable (_ ∧ _))

theorem Square.fresh (square : g.Square p) (reached : g.Reached StandardSwap)
    (alive : g.phase ≠ .over) (playing : g.current = some p) : g.JustSpawned p := by
  obtain ⟨⟨-, plain⟩, faces, column, row⟩ := square
  refine ⟨reached, by simpa [isGameOver] using alive, playing, ?_⟩
  obtain ⟨q, same, spun⟩ := (reached.flown.inPlay.resolve_left alive).piece
  rw [playing] at same
  cases same
  obtain ⟨kind, x, y, pips, k, -, rfl⟩ := spun.posed
  have counted : (Piece.posed kind x y pips k).orientation = k := if_neg plain
  obtain rfl : k = 0 := by omega
  change x = g.x at column
  change y = g.y at row
  exact ⟨kind, pips, by rw [Piece.posed_zero, column, row]⟩

theorem JustSpawned.orientations_pos (fresh : g.JustSpawned p) :
    0 < p.orientations.toNat := by
  obtain ⟨-, -, -, kind, pips, rfl⟩ := fresh
  rw [← Piece.posed_zero, Piece.posed_orientations]
  exact kind.period_pos

/-- However the search turns it, a piece that does not turn fits where it did. -/
theorem JustSpawned.turnedTo_still (fresh : g.JustSpawned p) (fixed : p.rot = 0) {o : Nat}
    (phase : o < p.orientations.toNat) (x y : Int) :
    (p.turnedTo g.board o).canMoveTo g.board x y = p.canMoveTo g.board x y := by
  obtain ⟨reached, alive, playing, kind, pips, rfl⟩ := fresh
  have grounded := reached.flown.grounded
  rw [← Piece.posed_zero, Piece.posed_rot] at fixed
  rw [← Piece.posed_zero, Piece.posed_orientations, Int.toNat_natCast] at phase
  refine Piece.canMoveTo_congr ?_ _ _ _
  rw [Piece.turnedTo_cells grounded.width grounded.height phase, ← Piece.posed_zero]
  exact (PieceKind.paint_still fixed phase _).symm

/-- The placement of a piece that does not turn: as it is, or where it fits in the first row. -/
theorem JustSpawned.chosen_still (fresh : g.JustSpawned p) (fixed : p.rot = 0)
    {landed : Board} (found : (chosen g p, landed) ∈ landings g.board p) :
    (chosen g p).x ∈ candidates g.board ∧ p.canMoveTo g.board (chosen g p).x 0 = true := by
  obtain ⟨tried, o, -, phase, drops⟩ := landings_mem found
  rw [fresh.turnedTo_still fixed phase] at drops
  exact ⟨tried, drops⟩

/-- For a piece that does not turn only the columns of its row matter. -/
theorem ClearRow.pathFree (clear : g.ClearRow p) (fresh : g.JustSpawned p)
    (fixed : p.rot = 0) :
    g.PathFree p (chosen g p) := by
  obtain ⟨lies, row⟩ := clear
  have started : p.x = g.x := by
    obtain ⟨-, -, -, kind, pips, rfl⟩ := fresh
    rfl
  have width := fresh.reached.flown.grounded.width
  have fits : (-7 ≤ g.x ∧ g.x ≤ 9) ∧
      (chosen g p).orientation.toNat < p.orientations.toNat := by
    obtain ⟨-, -, -, kind, pips, rfl⟩ := fresh
    have start := Piece.columns_of_fits (.construct ..) width lies
    obtain ⟨-, o, faces, phase⟩ := chosen_bounds kind g.y pips width start
    rw [faces, ← Piece.posed_zero, Piece.posed_orientations]
    exact ⟨start, by omega⟩
  obtain ⟨start, phase⟩ := fits
  constructor
  · intro k upTo
    rw [fresh.turnedTo_still fixed (by omega)]
    exact lies
  · intro x low high
    rw [fresh.turnedTo_still fixed phase]
    rcases bestPlacementTuned_mem g.board p (.forActiveWeapons g) with none | ⟨landed, found⟩
    · have stays : (chosen g p).x = g.x := (congrArg Placement.x none).trans started
      obtain rfl : x = g.x := by omega
      exact lies
    · obtain ⟨tried, drops⟩ := fresh.chosen_still fixed found
      have near := candidates_mem width tried
      have index : (((x + 7).toNat : Nat) : Int) - 7 = x := by omega
      have column := row _ tried drops (x + 7).toNat (by omega)
      rw [index] at column
      exact column low high

/-- A game that was turned over before its second piece, a die. -/
def overturned : Game :=
  (((new 3).act (.input (.receiveWeapon 3))).act (.tick 20000)).act (.tick 150)

set_option maxRecDepth 100000 in
/-- The die may go to any column but its own, where the first row is taken. -/
theorem overturned_die : (overturned.phase = .falling ∧ overturned.weaponActive .upbyside = true) ∧
    overturned.current.any fun p => decide
      ((overturned.Square p ∧ overturned.ClearRow p) ∧
        p.canMoveTo overturned.board overturned.x 0 = false ∧
        ((p.turnedTo overturned.board 0).landing overturned.board (-1)).any fun b =>
          b.evalWith (.forActiveWeapons overturned) < 1.7976931348623157e308) := by
  decide +kernel

end Game

namespace Computer

theorem reaches_iff_first : ∃ p, (Game.new 3).current = some p ∧
    (Computer.new 3).Reaches (Game.new 3) p := by
  have first : (Game.new 3).current.any (fun p =>
      decide ((Game.new 3).Square p ∧ (Game.new 3).ClearRow p)) = true := by
    decide +kernel
  have running : (Game.new 3).phase ≠ .over ∧ (Game.new 3).paused = false ∧
      (Game.new 3).weaponActive .upbyside = false := by
    decide +kernel
  obtain ⟨p, playing, facts⟩ := (Option.any_eq_true _ _).mp first
  obtain ⟨square, clear⟩ := of_decide_eq_true facts
  have fresh := square.fresh (Game.reached_new _ 3) running.1 playing
  refine ⟨p, playing, (reaches_iff _ fresh (clear.pathFree fresh square.1.1)).mpr ?_⟩
  exact ⟨.inr (.inl square.1.1), .inr ⟨running.2.2, running.2.1⟩⟩

/-- Turned over, the die is driven away from the column that was chosen for it. -/
theorem overturned_astray : ¬∀ (c : Computer) (g : Game) (p : Piece), g.JustSpawned p →
    g.PathFree p (chosen g p) → c.Reaches g p := by
  intro all
  obtain ⟨⟨falling, upbyside⟩, die⟩ := Game.overturned_die
  obtain ⟨p, playing, facts⟩ := (Option.any_eq_true _ _).mp die
  obtain ⟨⟨square, clear⟩, blocked, scored⟩ := of_decide_eq_true facts
  obtain ⟨landed, drops, scores⟩ := (Option.any_eq_true _ _).mp scored
  have reached : Game.overturned.Reached Game.StandardSwap :=
    (((Game.reached_new _ 3).act (by nofun)).act (by nofun)).act (by nofun)
  have fresh := square.fresh reached (by rw [falling]; decide) playing
  have free := clear.pathFree fresh square.1.1
  obtain ⟨q, arrived, steered⟩ := (Computer.new 0).takeTurn_piece fresh free
  obtain ⟨q', arrived', target⟩ := all (.new 0) _ p fresh free
  rw [arrived] at arrived'
  cases arrived'
  rcases (steered.mp target).2 with here | ⟨upright, -⟩
  · have some : ((⟨-1, (0 : Nat)⟩, landed) : Placement × Board) ∈
        landings Game.overturned.board p := by
      have tried : (-1 : Int) ∈ candidates Game.overturned.board := by
        unfold candidates
        rw [reached.flown.grounded.width]
        decide
      exact List.mem_flatMap.mpr ⟨0, List.mem_range.mpr fresh.orientations_pos,
        List.mem_filterMap.mpr ⟨-1, tried, by rw [drops]; rfl⟩⟩
    obtain ⟨_, found⟩ := bestPlacementTuned_found some (of_decide_eq_true scores)
    have room := (fresh.chosen_still square.1.1 found).2
    rw [here, blocked] at room
    cases room
  · rw [upbyside] at upright
    cases upright

end Computer

end BattleTris
