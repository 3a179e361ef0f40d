import BattleTris.Core.Regular

/-!
Between two locks only the piece in play, its timers and the drop bonus change.

`g.still` forgets those; a tick either leaves it alone or ends in a lock
(`tick_cases`).
-/

namespace BattleTris

open Loop

namespace Game

/-- The game without its piece in play, the clock of that piece, and the points. -/
def still (g : Game) : Game :=
  { g with
    current := none, x := 0, y := 0, dropTime := 0, slideTime := 0, dropping := false
    sliding := 0, phase := .falling, dropAccum := 0, slideAccum := 0, hatterAccum := 0
    slickAccum := 0, slickDir := 0, score := { g.score with score := 0 } }

/-- What `still` keeps, games that are still the same share. -/
theorem of_still {α : Type} (f : Game → α) (kept : ∀ g, f (still g) = f g) {g h : Game}
    (same : h.still = g.still) : f h = f g := by
  rw [← kept h, same, kept g]

/-! ## The piece moves -/

theorem carry_still (g : Game) (p : Piece) (dx dy : Int) : (g.carry p dx dy).still = g.still := rfl

theorem dropStep_still (g : Game) : g.dropStep.still = g.still := by
  unfold dropStep
  cases g.current with
  | none => rfl
  | some p =>
    dsimp only
    split <;> rfl

theorem slickStep_still (g : Game) : g.slickStep.still = g.still := by
  unfold slickStep
  cases g.current with
  | none => rfl
  | some p =>
    dsimp only
    split <;> rfl

theorem tickHatter_still (g : Game) (dt : Int) : (g.tickHatter dt).still = g.still := by
  unfold tickHatter
  split
  · refine whileN_invariant (P := fun h : Game => h.still = g.still) (fun h _ kept => ?_) _ rfl
    exact kept
  · rfl

theorem tickSlick_still (g : Game) (dt : Int) : (g.tickSlick dt).still = g.still := by
  unfold tickSlick
  split
  · refine whileN_invariant (P := fun h : Game => h.still = g.still) (fun h _ kept => ?_) _ rfl
    exact (slickStep_still { h with slickAccum := h.slickAccum - 20 }).trans kept
  · rfl

theorem tickFalling_still (g : Game) (dt : Int) : (g.tickFalling dt).still = g.still := by
  unfold tickFalling
  refine whileN_invariant (P := fun h : Game => h.still = g.still) (fun h _ kept => ?_) _ rfl
  exact (dropStep_still { h with dropAccum := h.dropAccum - _ }).trans kept

theorem shift_still (g : Game) (dx : Int) : (g.shift dx).still = g.still := by
  unfold shift
  split
  · rfl
  · cases g.current with
    | none => rfl
    | some p =>
      dsimp only
      split <;> rfl

theorem rotate_still (g : Game) : g.rotate.still = g.still := by
  unfold rotate
  split <;> rfl

theorem dropFor_still (g : Game) (bonus : Int) : (g.dropFor bonus).still = g.still := by
  have engaged : g.engageFastDrop.2.still = g.still := by
    unfold engageFastDrop
    split
    · rfl
    · dsimp only
      split <;> rfl
  unfold dropFor
  dsimp only
  split
  · exact engaged
  · exact engaged

theorem softDrop_still (g : Game) : g.softDrop.still = g.still := by
  unfold softDrop
  split
  · rfl
  · exact g.dropStep_still

/-! ## A tick -/

/-- The piece `p` of `h` locks in `h.place false`. -/
def Locks (h : Game) (p : Piece) : Prop :=
  h.current = some p ∧ ¬p.canMoveTo h.board h.x (h.y + h.deltaY) = true

/-- What a lock makes of the game. -/
theorem place_of_locks {h : Game} {p : Piece} (locks : h.Locks p) :
    h.place false = ({ h with current := none }.lockAndSpawn p).setSliding 0 := by
  unfold place
  rw [locks.1]
  dsimp only
  rw [if_pos (.inl locks.2)]

theorem enterPiece_phase (g : Game) (p : Piece) : (g.enterPiece p).phase ≠ .sliding := by
  unfold enterPiece
  dsimp only
  split <;> (intro same; cases same)

theorem spawn_phase (g : Game) : g.spawn.phase ≠ .sliding := by
  unfold spawn
  exact enterPiece_phase _ _

theorem lockAndSpawn_phase (g : Game) (p : Piece) : (g.lockAndSpawn p).phase ≠ .sliding := by
  have spawned := spawn_phase (g.lockPiece p).flushPending
  unfold lockAndSpawn
  generalize (g.lockPiece p).flushPending.spawn = h at spawned
  exact spawned

theorem setSliding_phase (g : Game) (sliding : Int) : (g.setSliding sliding).phase = g.phase :=
  rfl

/-- Slide expiry ends the slide, unless no piece is in play. -/
theorem place_cases (g : Game) :
    (g.current = none ∧ g.place false = g) ∨
      (g.place false).phase ≠ .sliding ∧
        ((g.place false).still = g.still ∨ ∃ p, g.Locks p) := by
  cases current : g.current with
  | none =>
    left
    refine ⟨rfl, ?_⟩
    unfold place
    rw [current]
  | some p =>
    right
    by_cases room : p.canMoveTo g.board g.x (g.y + g.deltaY) = true
    · have resumed : g.place false = (g.resumeFall p).setSliding 0 := by
        unfold place
        rw [current]
        dsimp only
        rw [if_neg (by simp [room])]
      rw [resumed]
      exact ⟨fun same => (by cases same), .inl rfl⟩
    · have locks : g.Locks p := ⟨current, room⟩
      refine ⟨?_, .inr ⟨p, locks⟩⟩
      rw [place_of_locks locks, setSliding_phase]
      exact lockAndSpawn_phase _ p

/-- The game with its slide clock at `acc`. -/
def slideAt (g : Game) (acc : Int) : Game := { g with slideAccum := acc }

/-- A tick of the slide clock moves nothing, or ends in the one lock it contains. -/
theorem tickSliding_cases (g : Game) (dt : Int) :
    (g.tickSliding dt).still = g.still ∨
      ∃ acc p, (g.slideAt acc).Locks p ∧ g.tickSliding dt = (g.slideAt acc).place false := by
  have once (acc : Int) : ((g.slideAt acc).place false).still = g.still ∨
      ∃ acc' p, (g.slideAt acc').Locks p ∧
        (g.slideAt acc).place false = (g.slideAt acc').place false := by
    rcases place_cases (g.slideAt acc) with ⟨-, same⟩ | ⟨-, glides | ⟨p, locks⟩⟩
    · rw [same]
      exact .inl rfl
    · exact .inl glides
    · exact .inr ⟨acc, p, locks, rfl⟩
  -- after one round the slide has ended, unless there is nothing to place
  have rounds (step : Int) (fuel : Nat) (acc : Int) :
      (whileN fuel (fun g => g.phase = .sliding ∧ g.slideAccum ≥ step) (slideStep step)
          (g.slideAt acc)).still = g.still ∨
        ∃ acc' p, (g.slideAt acc').Locks p ∧
          whileN fuel (fun g => g.phase = .sliding ∧ g.slideAccum ≥ step) (slideStep step)
            (g.slideAt acc) = (g.slideAt acc').place false := by
    induction fuel generalizing acc with
    | zero => exact .inl rfl
    | succ fuel ih =>
      unfold whileN
      split
      · have round : slideStep step (g.slideAt acc) = (g.slideAt (acc - step)).place false := rfl
        rw [round]
        rcases place_cases (g.slideAt (acc - step)) with ⟨-, same⟩ | ⟨ended, -⟩
        · rw [same]
          exact ih (acc - step)
        · have stopped : whileN fuel (fun g => g.phase = .sliding ∧ g.slideAccum ≥ step)
              (slideStep step) ((g.slideAt (acc - step)).place false) =
                (g.slideAt (acc - step)).place false := by
            cases fuel with
            | zero => rfl
            | succ fuel =>
              unfold whileN
              rw [if_neg]
              simp [ended]
          rw [stopped]
          exact once (acc - step)
      · exact .inl rfl
  unfold tickSliding
  dsimp only
  split
  · exact once (g.slideAccum + dt)
  · exact rounds _ _ (g.slideAccum + dt)

theorem tickWeapons_still (g : Game) (dt : Int) : (g.tickWeapons dt).still = g.still :=
  (tickSlick_still _ dt).trans (g.tickHatter_still dt)

/-- A tick leaves all but the piece in play alone, or ends in a lock once the weapon
timers have moved that piece. -/
theorem tick_cases (g : Game) (dt : Int) :
    (g.tick dt).still = g.still ∨
      ∃ acc p, ((g.tickWeapons dt).slideAt acc).Locks p ∧
        g.tick dt = ((g.tickWeapons dt).slideAt acc).place false := by
  have timed := g.tickWeapons_still dt
  unfold tick
  split
  · exact .inl rfl
  dsimp only
  generalize g.tickWeapons dt = k at timed
  rcases k.phase with _ | _ | _
  · exact .inl ((k.tickFalling_still dt).trans timed)
  · rcases k.tickSliding_cases dt with glides | ⟨acc, p, locks, placed⟩
    · exact .inl (glides.trans timed)
    · exact .inr ⟨acc, p, locks, placed⟩
  · exact .inl timed

theorem slideAt_still (g : Game) (acc : Int) : (g.slideAt acc).still = g.still := rfl

/-! ## A lock -/

/-- What a lock holds on to until it installs a board and spawns: the piece, the waiting
board, and the count and hash of the last lock. -/
def held (g : Game) : Option Piece × Option (List Int) × Nat × Nat :=
  (g.current, g.pendingBoard, g.lockSeq, g.lockHash)

theorem current_of_held {g h : Game} (same : h.held = g.held) : h.current = g.current :=
  congrArg Prod.fst same

theorem pendingBoard_of_held {g h : Game} (same : h.held = g.held) :
    h.pendingBoard = g.pendingBoard :=
  congrArg (·.2.1) same

theorem lockSeq_of_held {g h : Game} (same : h.held = g.held) : h.lockSeq = g.lockSeq :=
  congrArg (·.2.2.1) same

theorem stealTax_held (g : Game) (tax : Int) : (g.stealTax tax).held = g.held := by
  unfold stealTax
  split <;> rfl

theorem creditClearFunds_held (g : Game) (funds : Int) :
    (g.creditClearFunds funds).held = g.held := by
  unfold creditClearFunds
  split
  · exact g.stealTax_held _
  · rfl

theorem updateBazaar_held (g : Game) : g.updateBazaar.held = g.held := by
  unfold updateBazaar
  dsimp only
  split <;> rfl

theorem weaponUnframe_held (g : Game) (t : WeaponToken) : (g.weaponUnframe t).held = g.held := by
  cases t <;> rfl

theorem applyWeaponOff_held (g : Game) (t : WeaponToken) : (g.applyWeaponOff t).held = g.held :=
  weaponUnframe_held (g.switchOff t) t

theorem tickDuration_held (lines : Int) (g : Game) (t : WeaponToken) :
    (tickDuration lines g t).held = g.held := by
  unfold tickDuration
  dsimp only
  split
  · rfl
  · split
    · exact applyWeaponOff_held _ t
    · rfl

theorem lineTick_held (g : Game) (lines : Int) : (g.lineTick lines).held = g.held :=
  foldl_invariant (P := fun h : Game => h.held = g.held)
    (fun t _ h kept => (tickDuration_held lines h t).trans kept) g.updateBazaar_held

theorem emit_held (g : Game) (e : GameEvent) : (g.emit e).held = g.held := rfl

theorem emitScored_held (g : Game) : g.emitScored.held = g.held := g.emit_held _

theorem creditWeaponClear_held (g : Game) (clear : LineClear) :
    (g.creditWeaponClear clear).held = g.held := by
  have credited := creditClearFunds_held (g.addLines clear.lines) clear.funds
  unfold creditWeaponClear
  split
  · exact (emitScored_held _).trans ((lineTick_held _ clear.lines).trans credited)
  · rfl

theorem weaponFrame_held (g : Game) (t : WeaponToken) (wasActive : Bool) :
    (g.weaponFrame t wasActive).held = g.held := by
  cases t <;> cases wasActive <;> rfl

theorem applyWeaponOn_held (g : Game) (t : WeaponToken) : (g.applyWeaponOn t).held = g.held := by
  have switched : (g.switchOn t).2.held = g.held := by
    unfold switchOn
    generalize g.boardWeapon t = r
    rfl
  have credited := creditWeaponClear_held (g.switchOn t).2 (g.switchOn t).1
  exact (weaponFrame_held _ t _).trans (credited.trans switched)

theorem flushWeapons_held (g : Game) : g.flushWeapons.held = g.held :=
  foldl_invariant (P := fun h : Game => h.held = g.held)
    (fun t _ h kept => (applyWeaponOn_held h t).trans kept) rfl

theorem forceWeaponOff_held (g : Game) (t : WeaponToken) : (g.forceWeaponOff t).held = g.held := by
  unfold forceWeaponOff
  split
  · exact applyWeaponOff_held g t
  · rfl

theorem importBoard_held (g : Game) (data : List Int) : (g.importBoard data).held = g.held := by
  unfold importBoard
  dsimp only
  split <;> rfl

/-- An install takes the waiting board and holds on to the rest. -/
theorem installBoard_held (g : Game) :
    g.installBoard.held = (g.current, none, g.lockSeq, g.lockHash) := by
  unfold installBoard
  cases waiting : g.pendingBoard with
  | none =>
    unfold held
    rw [waiting]
  | some cells =>
    have released := (forceWeaponOff_held _ .upbyside).trans
      ((forceWeaponOff_held _ .bottle).trans
        (importBoard_held { g with pendingBoard := none } cells))
    exact released

theorem landPiece_held (g : Game) (p : Piece) : (g.landPiece p).2.held = g.held := by
  unfold landPiece
  generalize (p.land g.board).checkLines = r
  rfl

theorem signalAirslide_held (g : Game) (p : Piece) : (g.signalAirslide p).held = g.held := by
  unfold signalAirslide
  split <;> rfl

theorem signalIdiot_held (g : Game) : g.signalIdiot.held = g.held := by
  unfold signalIdiot
  dsimp only
  split <;> rfl

theorem lockPiece_held (g : Game) (p : Piece) : (g.lockPiece p).held = g.held := by
  have landed := (landPiece_held (g.signalAirslide p) p).trans (g.signalAirslide_held p)
  unfold lockPiece
  dsimp only
  generalize (g.signalAirslide p).landPiece p = r at landed
  have credited : ((r.2.addLines r.1.lines).creditClearFunds r.1.funds).held = g.held :=
    (creditClearFunds_held (r.2.addLines r.1.lines) _).trans landed
  generalize (r.2.addLines r.1.lines).creditClearFunds r.1.funds = c at credited
  have signalled := (signalIdiot_held (c.emit (.locked r.1.lines r.1.value r.1.funds))).trans
    ((c.emit_held _).trans credited)
  refine (emitScored_held _).trans ?_
  split
  · exact (lineTick_held _ r.1.lines).trans signalled
  · exact signalled

theorem enterPiece_board (g : Game) (p : Piece) : (g.enterPiece p).board = g.board := by
  unfold enterPiece
  dsimp only
  split <;> rfl

theorem enterPiece_weapons (g : Game) (p : Piece) : (g.enterPiece p).weapons = g.weapons := by
  unfold enterPiece
  dsimp only
  split <;> rfl

/-- The next piece leaves the board and the flags alone. -/
theorem respawn_parts (h : Game) :
    (h.spawn.markLock.setSliding 0).board = h.board ∧
      (h.spawn.markLock.setSliding 0).weapons = h.weapons := by
  have board : h.spawn.board = h.board := enterPiece_board (h.setStream _ _) _
  have weapons : h.spawn.weapons = h.weapons := enterPiece_weapons (h.setStream _ _) _
  generalize h.spawn = k at board weapons
  exact ⟨board, weapons⟩

/-- The receiver of a waiting board in the lock of `p`, up to the install. -/
def installing (g : Game) (p : Piece) : Game :=
  ({ g with current := none }.lockPiece p).flushWeapons

/-- The board and the flags that a lock leaves are those it installed. -/
theorem place_installs {g : Game} {p : Piece} (locks : g.Locks p) :
    (g.place false).board = (g.installing p).installBoard.board ∧
      (g.place false).weapons = (g.installing p).installBoard.weapons := by
  rw [place_of_locks locks]
  exact respawn_parts _

theorem installing_held (g : Game) (p : Piece) :
    (g.installing p).current = none ∧ (g.installing p).pendingBoard = g.pendingBoard := by
  have kept := (flushWeapons_held (lockPiece { g with current := none } p)).trans
    (lockPiece_held { g with current := none } p)
  have current := current_of_held kept
  have pendingBoard := pendingBoard_of_held kept
  exact ⟨current, pendingBoard⟩

theorem Regular.installing {g : Game} (regular : g.Regular) (p : Piece) :
    (g.installing p).Regular := by
  unfold Game.installing
  exact (regular.withoutPiece.lockPiece p).flushWeapons

end Game

end BattleTris
