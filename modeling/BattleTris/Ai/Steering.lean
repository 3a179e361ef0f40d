import BattleTris.Ai.Computer
import BattleTris.Core.Gliding

/-!
Where the computer steers the piece in play.
-/

namespace BattleTris

/-! ## A die -/

/-- The game `h` once the resting piece `p` of `g` was steered: only its column has changed. -/
structure Game.Steered (g h : Game) (p : Piece) : Prop where
  still : h.still = g.still
  phase : h.phase = g.phase
  slideAccum : h.slideAccum = g.slideAccum
  slideTime : h.slideTime = g.slideTime
  y : h.y = g.y
  current : h.current = some { p with x := h.x, y := h.y }

namespace Game.Steered

variable {g h k : Game} {p : Piece}

theorem shift (steered : Steered g h p) (dx : Int) : Steered g (h.shift dx) p := by
  have still := (h.shift_still dx).trans steered.still
  unfold Game.shift at still ⊢
  split
  · exact steered
  · next moves =>
    rw [if_neg moves] at still
    rw [steered.current] at still ⊢
    dsimp only at still ⊢
    split
    · next room =>
      rw [if_pos room] at still
      refine ⟨still, steered.phase, steered.slideAccum, steered.slideTime, ?_, rfl⟩
      exact (add_zero h.y).trans steered.y
    · exact steered

theorem rotate (steered : Steered g h p) (die : p.kind = .die) (square : p.rot = 0) :
    Steered g h.rotate p := by
  have round (b : Board) : ({ p with x := h.x, y := h.y } : Piece).rotate b false =
      (false, { p with x := h.x, y := h.y }) := by
    unfold Piece.rotate Piece.rotateGeneric
    dsimp only
    rw [die, square]
    rfl
  have same : h.rotate = h := by
    have turned : (h.current.map fun q => (q.rotate h.board false).2) = h.current := by
      rw [steered.current, Option.map_some, round]
    unfold Game.rotate rotateInternal
    rw [turned]
    exact ite_self h
  rw [same]
  exact steered

theorem rotateTo (steered : Steered g h p) (die : p.kind = .die) (square : p.rot = 0)
    (orientation : Int) (n : Nat) :
    ∃ k, Computer.rotateTo orientation n h = (true, k) ∧ Steered g k p := by
  induction n generalizing h with
  | zero => exact ⟨h, rfl, steered⟩
  | succ n ih =>
    unfold Computer.rotateTo
    rw [steered.current]
    dsimp only
    split
    · exact ⟨h, rfl, steered⟩
    · exact ih (steered.rotate die square)

theorem slideTo (steered : Steered g h p) (x : Int) (n : Nat) :
    ∃ k, Computer.slideTo x n h = (true, k) ∧ Steered g k p := by
  induction n generalizing h with
  | zero => exact ⟨h, rfl, steered⟩
  | succ n ih =>
    unfold Computer.slideTo
    rw [steered.current]
    dsimp only
    split
    · exact ⟨h, rfl, steered⟩
    · split
      · exact ih (steered.shift _)
      · exact ih (steered.shift _)

theorem dropFor (steered : Steered g h p) (bonus : Int) : Steered g (h.dropFor bonus) p := by
  have still := (h.dropFor_still bonus).trans steered.still
  let seat (g : Game) := (g.phase, g.slideAccum, g.slideTime, g.x, g.y, g.current)
  have engaged : seat h.engageFastDrop.2 = seat h := by
    unfold Game.engageFastDrop
    split
    · rfl
    · dsimp only
      split <;> rfl
  have kept : seat (h.dropFor bonus) = seat h := by
    unfold Game.dropFor
    dsimp only
    split
    · exact engaged
    · exact engaged
  simp only [seat, Prod.mk.injEq] at kept
  obtain ⟨phase, slideAccum, slideTime, x, y, current⟩ := kept
  refine ⟨still, phase.trans steered.phase, slideAccum.trans steered.slideAccum,
    slideTime.trans steered.slideTime, y.trans steered.y, ?_⟩
  rw [current, x, y]
  exact steered.current

/-- Wherever the computer wants it, a resting die only changes its column. -/
theorem steerTo (steered : Steered g h p) (die : p.kind = .die) (square : p.rot = 0)
    (piece : Piece) (placement : Placement) :
    Steered g (Computer.steerTo h piece placement) p := by
  obtain ⟨k, turned, aligned⟩ := steered.rotateTo die square placement.orientation
    (max piece.orientations 1).toNat
  obtain ⟨l, slid, arrived⟩ := aligned.slideTo placement.x (k.board.width * 2).toNat
  unfold Computer.steerTo
  rw [turned]
  dsimp only
  rw [slid]
  exact arrived.dropFor _

end Game.Steered

end BattleTris
