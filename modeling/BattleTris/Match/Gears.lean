import BattleTris.Match.Locks
import BattleTris.Match.Play

/-!
The gears of a game: the movement frame, the clock and the flags, which follow the
active weapons, and the piece stream.

A property that only the gears decide is kept by all play once the few steps that
turn them keep it (`GearSteps`).
-/

namespace BattleTris

open Loop

namespace Game

/-! ## What follows the weapons -/

/-- The spawn origin, the gravity and the two directions of a shift. -/
def frameOf (upbyside : Bool) : Int × Int × Int × Int × Int :=
  if upbyside then (btDefaultX, btBoardHgt - 4, -1, 1, -1) else (btDefaultX, btDefaultY, 1, -1, 1)

/-- The drop interval, and that of a fast drop. -/
def clockOf (speedy meadow : Bool) : Int × Int :=
  (if speedy then if meadow then btDropTime else btDropTime / 2
    else if meadow then btDropTime * 2 else btDropTime,
    if meadow then btFastDropTime * 2 else btFastDropTime)

def spawnFrame (g : Game) : Int × Int × Int × Int × Int :=
  (g.defX, g.defY, g.deltaY, g.leftX, g.rightX)

def dropClock (g : Game) : Int × Int := (g.baseDropTime, g.fastDropTime)

/-- The frame, the clock and the flags are those of the active weapons, and a weapon
that lasts is active. -/
structure Geared (g : Game) : Prop where
  active : g.board.active = g.weapons
  upside : g.board.upside = g.weapons.isActive .upbyside
  broken : g.pieces.broken = g.weapons.isActive .broken
  frame : g.spawnFrame = frameOf (g.weapons.isActive .upbyside)
  clock : g.dropClock = clockOf (g.weapons.isActive .speedy) (g.weapons.isActive .meadow)
  lasting : ∀ t, g.remaining t ≠ 0 → g.weapons.isActive t = true
  human : g.board.computer = false

/-- What a step must leave alone to keep a game geared, the stream included. -/
def gears (g : Game) :
    ((PieceManager × Rng) × ActiveFlags × (WeaponToken → Int) × List WeaponToken) ×
      (Int × Int × Int × Int × Int) × (Int × Int) × ActiveFlags × Bool × Bool :=
  (((g.pieces, g.rng), g.weapons, g.remaining, g.pending),
    g.spawnFrame, g.dropClock, g.board.active, g.board.upside, g.board.computer)

section gears

variable {g h : Game}

theorem pieces_of_gears (same : h.gears = g.gears) : h.pieces = g.pieces :=
  congrArg (·.1.1.1) same

theorem rng_of_gears (same : h.gears = g.gears) : h.rng = g.rng := congrArg (·.1.1.2) same

theorem weapons_of_gears (same : h.gears = g.gears) : h.weapons = g.weapons :=
  congrArg (·.1.2.1) same

theorem remaining_of_gears (same : h.gears = g.gears) : h.remaining = g.remaining :=
  congrArg (·.1.2.2.1) same

theorem pending_of_gears (same : h.gears = g.gears) : h.pending = g.pending :=
  congrArg (·.1.2.2.2) same

theorem Geared.of_gears (geared : g.Geared) (same : h.gears = g.gears) : h.Geared := by
  have pieces := pieces_of_gears same
  have weapons := weapons_of_gears same
  have remaining := remaining_of_gears same
  refine ⟨?_, ?_, ?_, ?_, ?_, ?_, ?_⟩
  · rw [show h.board.active = g.board.active from congrArg (·.2.2.2.1) same, weapons]
    exact geared.active
  · rw [show h.board.upside = g.board.upside from congrArg (·.2.2.2.2.1) same, weapons]
    exact geared.upside
  · rw [pieces, weapons]
    exact geared.broken
  · rw [weapons, ← geared.frame]
    exact congrArg (·.2.1) same
  · rw [weapons, ← geared.clock]
    exact congrArg (·.2.2.1) same
  · rw [weapons, remaining]
    exact geared.lasting
  · rw [show h.board.computer = g.board.computer from congrArg (·.2.2.2.2.2) same]
    exact geared.human

/-! ### What leaves the gears alone -/

theorem gears_of_still (same : h.still = g.still) : h.gears = g.gears :=
  of_still gears (fun _ => rfl) same

theorem creditClearFunds_gears (g : Game) (funds : Int) :
    (g.creditClearFunds funds).gears = g.gears := by
  have taxed (tax : Int) : (g.stealTax tax).gears = g.gears := by
    unfold stealTax
    split <;> rfl
  unfold creditClearFunds
  split
  · exact taxed _
  · rfl

theorem updateBazaar_gears (g : Game) : g.updateBazaar.gears = g.gears := by
  unfold updateBazaar
  dsimp only
  split <;> rfl

theorem setBoard_gears {b : Board} (active : b.active = g.board.active)
    (upside : b.upside = g.board.upside) (computer : b.computer = g.board.computer) :
    (g.setBoard b).gears = g.gears := by
  unfold setBoard gears
  dsimp only
  rw [active, upside, computer]
  rfl

theorem landPiece_gears (g : Game) (p : Piece) : (g.landPiece p).2.gears = g.gears := by
  have landed := (p.keeps_land g.board).trans (Board.keeps_checkLines _)
  exact setBoard_gears landed.active landed.upside landed.computer

theorem signalAirslide_gears (g : Game) (p : Piece) : (g.signalAirslide p).gears = g.gears := by
  unfold signalAirslide
  split <;> rfl

theorem signalIdiot_gears (g : Game) : g.signalIdiot.gears = g.gears := by
  unfold signalIdiot
  dsimp only
  split <;> rfl

theorem importBoard_gears (g : Game) (data : List Int) :
    (g.importBoard data).gears = g.gears := by
  unfold importBoard
  dsimp only
  split
  · rfl
  · have kept {b : Board} (keeps : g.board.Keeps b) : (g.setBoard b).gears = g.gears :=
      setBoard_gears keeps.active keeps.upside keeps.computer
    refine kept ?_
    exact Board.keeps_forRange (fun y b =>
      Board.keeps_forRange (fun x b => Board.keeps_set b x y _) b) g.board

theorem markLock_gears (g : Game) (sliding : Int) :
    (g.markLock.setSliding sliding).gears = g.gears := rfl

theorem enterPiece_gears (g : Game) (p : Piece) : (g.enterPiece p).gears = g.gears := by
  unfold enterPiece
  dsimp only
  split <;> rfl

end gears

/-! ### A lock, up to its weapons -/

section walk

variable {P : Game → Prop} (respects : ∀ {g h : Game}, P g → h.gears = g.gears → P h)

include respects

theorem creditWeaponClear_walk {g : Game} (held : P g) (clear : LineClear)
    (counts : 0 < clear.lines → ∀ h : Game, h.gears = g.gears → P (h.tickDurations clear.lines)) :
    P (g.creditWeaponClear clear) := by
  have credited : ((g.addLines clear.lines).creditClearFunds clear.funds).gears = g.gears :=
    creditClearFunds_gears (g.addLines clear.lines) clear.funds
  unfold creditWeaponClear
  split
  · next some =>
    have counted := counts some _ ((updateBazaar_gears _).trans credited)
    exact respects counted rfl
  · exact held

/-- The lines that landing `p` completes. -/
def lockLines (g : Game) (p : Piece) : Int := ((g.signalAirslide p).landPiece p).1.lines

theorem lockPiece_walk {g : Game} (held : P g) (p : Piece)
    (counts : 0 < g.lockLines p → ∀ h : Game, h.gears = g.gears →
      P (h.tickDurations (g.lockLines p))) :
    P (g.lockPiece p) := by
  have landed := (landPiece_gears _ p).trans (g.signalAirslide_gears p)
  unfold lockLines at counts
  unfold lockPiece
  dsimp only
  generalize (g.signalAirslide p).landPiece p = r at landed counts
  have credited : ((r.2.addLines r.1.lines).creditClearFunds r.1.funds).gears = g.gears :=
    (creditClearFunds_gears (r.2.addLines r.1.lines) _).trans landed
  generalize (r.2.addLines r.1.lines).creditClearFunds r.1.funds = c at credited
  have signalled : (c.emit (.locked r.1.lines r.1.value r.1.funds)).signalIdiot.gears = g.gears :=
    (signalIdiot_gears (c.emit _)).trans credited
  have counted : P (if r.1.lines > 0 then
      (c.emit (.locked r.1.lines r.1.value r.1.funds)).signalIdiot.lineTick r.1.lines
      else (c.emit (.locked r.1.lines r.1.value r.1.funds)).signalIdiot) := by
    split
    · next some => exact counts some _ ((updateBazaar_gears _).trans signalled)
    · exact respects held signalled
  exact respects counted rfl

end walk

/-- What the countdown of each weapon keeps, a count of lines keeps. -/
theorem tickDurations_walk {P : Game → Prop}
    (counts : ∀ {g : Game} (lines : Int) (t : WeaponToken), P g → P (tickDuration lines g t))
    {g : Game} (held : P g) (lines : Int) : P (g.tickDurations lines) :=
  foldl_invariant (P := P) (fun t _ _ held => counts lines t held) held

/-! ### The weapons -/

theorem weaponUnframe_kept (g : Game) (t : WeaponToken) :
    (g.weaponUnframe t).board = g.board ∧ (g.weaponUnframe t).weapons = g.weapons ∧
      (g.weaponUnframe t).pieces = g.pieces ∧ (g.weaponUnframe t).remaining = g.remaining ∧
        (g.weaponUnframe t).rng = g.rng ∧ (g.weaponUnframe t).pending = g.pending := by
  cases t <;> exact ⟨rfl, rfl, rfl, rfl, rfl, rfl⟩

theorem weaponUnframe_spawnFrame (g : Game) (t : WeaponToken) :
    (g.weaponUnframe t).spawnFrame = if t = .upbyside then frameOf false else g.spawnFrame := by
  cases t <;> rfl

theorem weaponUnframe_dropClock (g : Game) (t : WeaponToken) :
    (g.weaponUnframe t).dropClock =
      if t = .speedy then (g.dropClock.1 * 2, g.dropClock.2)
      else if t = .meadow then (g.dropClock.1 / 2, g.dropClock.2 / 2) else g.dropClock := by
  cases t <;> rfl

theorem weaponUnframe_setRemaining (g : Game) (t : WeaponToken) (lines : Int) :
    (g.weaponUnframe t).setRemaining t lines = (g.setRemaining t lines).weaponUnframe t := by
  cases t <;> rfl

theorem weaponFrame_kept (g : Game) (t : WeaponToken) (wasActive : Bool) :
    (g.weaponFrame t wasActive).board = g.board ∧
      (g.weaponFrame t wasActive).weapons = g.weapons ∧
      (g.weaponFrame t wasActive).pieces = g.pieces ∧
      (g.weaponFrame t wasActive).remaining = g.remaining ∧
      (g.weaponFrame t wasActive).rng = g.rng ∧
      (g.weaponFrame t wasActive).pending = g.pending := by
  cases t <;> cases wasActive <;> exact ⟨rfl, rfl, rfl, rfl, rfl, rfl⟩

theorem weaponFrame_spawnFrame (g : Game) (t : WeaponToken) (wasActive : Bool) :
    (g.weaponFrame t wasActive).spawnFrame =
      if t = .upbyside then (g.defX, (frameOf true).2) else g.spawnFrame := by
  cases t <;> cases wasActive <;> rfl

theorem weaponFrame_dropClock (g : Game) (t : WeaponToken) (wasActive : Bool) :
    (g.weaponFrame t wasActive).dropClock =
      if wasActive then g.dropClock
      else if t = .speedy then (g.dropClock.1 / 2, g.dropClock.2)
      else if t = .meadow then (g.dropClock.1 * 2, g.dropClock.2 * 2) else g.dropClock := by
  cases t <;> cases wasActive <;> rfl

theorem switchOn_kept (g : Game) (t : WeaponToken) :
    (g.switchOn t).2.pieces = g.pieces ∧ (g.switchOn t).2.spawnFrame = g.spawnFrame ∧
      (g.switchOn t).2.dropClock = g.dropClock ∧ (g.switchOn t).2.pending = g.pending ∧
      (g.switchOn t).2.weapons = g.weapons.set t true := ⟨rfl, rfl, rfl, rfl, rfl⟩

/-- Only the walls of a Bottle can complete lines, and they are all it does. -/
theorem applyWeaponOn_bottle (g : Game) :
    g.applyWeaponOn .bottle = (g.switchOn .bottle).2.creditWeaponClear (g.switchOn .bottle).1 := by
  have whole (s : Game) (wasActive : Bool) :
      (s.streamOn .bottle).weaponFrame .bottle wasActive = s := by
    cases wasActive <;> rfl
  unfold applyWeaponOn
  dsimp only
  rw [whole]

theorem applyWeaponOn_other {t : WeaponToken} (other : t ≠ .bottle) (g : Game) :
    g.applyWeaponOn t =
      ((g.switchOn t).2.streamOn t).weaponFrame t (g.weapons.isActive t) := by
  have silent (b : Board) (rng : Rng) : (b.applyWeapon t rng).1 = LineClear.none := by
    cases t with
    | bottle => exact absurd rfl other
    | _ => rfl
  have cleared : (g.switchOn t).1 = LineClear.none := silent _ _
  unfold applyWeaponOn
  dsimp only
  rw [cleared]
  rfl

theorem clockOf_speedy (meadow : Bool) :
    clockOf false meadow = ((clockOf true meadow).1 * 2, (clockOf true meadow).2) ∧
      clockOf true meadow = ((clockOf false meadow).1 / 2, (clockOf false meadow).2) := by
  cases meadow <;> decide

theorem clockOf_meadow (speedy : Bool) :
    clockOf speedy false = ((clockOf speedy true).1 / 2, (clockOf speedy true).2 / 2) ∧
      clockOf speedy true = ((clockOf speedy false).1 * 2, (clockOf speedy false).2 * 2) := by
  cases speedy <;> decide

theorem weaponOff_broken (pm : PieceManager) (t : WeaponToken) :
    (pm.weaponOff t).broken = if t = .broken then false else pm.broken := by
  cases t <;> rfl

theorem weaponOn_broken (pm : PieceManager) (t : WeaponToken) :
    (pm.weaponOn t).broken = if t = .broken then true else pm.broken := by
  cases t <;> rfl

namespace Geared

variable {g : Game}

/-- A weapon that was active turns off, with all that follows it. -/
theorem applyWeaponOff (geared : g.Geared) {t : WeaponToken} (active : g.weapons.isActive t = true)
    (spent : g.remaining t = 0) : (g.applyWeaponOff t).Geared := by
  have reverted := Board.keeps_revertWeapon g.board t
  obtain ⟨board, weapons, pieces, remaining, -, -⟩ := weaponUnframe_kept (g.switchOff t) t
  have frame := weaponUnframe_spawnFrame (g.switchOff t) t
  have clock := weaponUnframe_dropClock (g.switchOff t) t
  have weapons' : (g.applyWeaponOff t).weapons = g.weapons.set t false := weapons
  refine ⟨?_, ?_, ?_, ?_, ?_, fun u left => ?_, ?_⟩
  · rw [weapons']
    unfold Game.applyWeaponOff
    rw [board]
    change (g.board.revertWeapon t).active.set t false = _
    rw [reverted.active]
    exact congrArg (·.set t false) geared.active
  · rw [weapons', ActiveFlags.isActive_set, ← geared.upside]
    unfold Game.applyWeaponOff
    rw [board]
    change (g.board.revertWeapon t).upside = _
    rw [reverted.upside]
    change (g.board.upside && _) = _
    cases t <;> simp
  · rw [weapons', ActiveFlags.isActive_set, ← geared.broken]
    unfold Game.applyWeaponOff
    rw [pieces]
    refine (weaponOff_broken g.pieces t).trans ?_
    cases t <;> rfl
  · rw [weapons', ActiveFlags.isActive_set]
    refine frame.trans ?_
    change (if t = .upbyside then frameOf false else g.spawnFrame) = _
    rw [geared.frame]
    cases t <;> rfl
  · rw [weapons', ActiveFlags.isActive_set, ActiveFlags.isActive_set]
    refine clock.trans ?_
    change (if t = .speedy then (g.dropClock.1 * 2, g.dropClock.2)
      else if t = .meadow then (g.dropClock.1 / 2, g.dropClock.2 / 2) else g.dropClock) = _
    rw [geared.clock]
    rcases eq_or_ne t .speedy with rfl | notSpeedy
    · rw [active]
      exact (clockOf_speedy _).1.symm
    rcases eq_or_ne t .meadow with rfl | notMeadow
    · rw [active]
      exact (clockOf_meadow _).1.symm
    · rw [if_neg notSpeedy, if_neg notMeadow, if_neg notSpeedy.symm, if_neg notMeadow.symm]
  · rw [weapons', ActiveFlags.isActive_set]
    unfold Game.applyWeaponOff at left
    rw [remaining] at left
    rcases eq_or_ne u t with rfl | apart
    · exact absurd spent left
    · rw [if_neg apart]
      exact geared.lasting u left
  · unfold Game.applyWeaponOff
    rw [board]
    exact reverted.computer.trans geared.human

theorem setRemaining (geared : g.Geared) {t : WeaponToken} (active : g.weapons.isActive t = true)
    (lines : Int) : (g.setRemaining t lines).Geared := by
  refine ⟨geared.active, geared.upside, geared.broken, geared.frame, geared.clock,
    fun u left => ?_, geared.human⟩
  rcases eq_or_ne u t with rfl | apart
  · exact active
  · refine geared.lasting u ?_
    change Function.update g.remaining t lines u ≠ 0 at left
    rwa [Function.update_of_ne apart] at left

theorem tickDuration {g : Game} (lines : Int) (t : WeaponToken) (geared : g.Geared) :
    (tickDuration lines g t).Geared := by
  unfold Game.tickDuration
  split
  · exact geared
  next left =>
  dsimp only
  have active := geared.lasting t left
  have counted (n : Int) := geared.setRemaining active n
  split
  · next spent =>
    refine (counted _).applyWeaponOff active ?_
    exact (Function.update_self ..).trans spent
  · exact counted _

/-- What turning a weapon on does to the flags. -/
theorem switchOn_flags (geared : g.Geared) (t : WeaponToken) :
    (g.switchOn t).2.board.active = (g.switchOn t).2.weapons ∧
      (g.switchOn t).2.board.upside = (g.switchOn t).2.weapons.isActive .upbyside ∧
      (g.switchOn t).2.weapons = g.weapons.set t true ∧
      (∀ u, (g.switchOn t).2.remaining u ≠ 0 → (g.switchOn t).2.weapons.isActive u = true) ∧
      (g.switchOn t).2.board.computer = false := by
  have applied := Board.keeps_applyWeapon (g.board.setActive t true) t g.rng
  have active : (g.switchOn t).2.board.active = g.weapons.set t true := by
    refine applied.active.trans ?_
    exact congrArg (·.set t true) geared.active
  have weapons : (g.switchOn t).2.weapons = g.weapons.set t true := rfl
  refine ⟨active, ?_, weapons, fun u left => ?_, applied.computer.trans geared.human⟩
  · refine applied.upside.trans ?_
    rw [weapons, ActiveFlags.isActive_set, ← geared.upside]
    change (g.board.upside || _) = _
    cases t <;> simp
  · rw [weapons, ActiveFlags.isActive_set]
    rcases eq_or_ne u t with rfl | apart
    · rw [if_pos rfl]
    · rw [if_neg apart]
      refine geared.lasting u ?_
      change Function.update g.remaining t _ u ≠ 0 at left
      rwa [Function.update_of_ne apart] at left

/-- The walls of a Bottle are all it does to the gears. -/
theorem switchOn_bottle (geared : g.Geared) : (g.switchOn .bottle).2.Geared := by
  obtain ⟨active, upside, weapons, lasting, human⟩ := geared.switchOn_flags .bottle
  obtain ⟨stream, frame, clock, -, -⟩ := switchOn_kept g .bottle
  generalize g.switchOn .bottle = r at *
  refine ⟨active, upside, ?_, ?_, ?_, lasting, human⟩
  · rw [stream, weapons, ActiveFlags.isActive_set]
    exact geared.broken
  · rw [frame, weapons, ActiveFlags.isActive_set]
    exact geared.frame
  · rw [clock, weapons, ActiveFlags.isActive_set, ActiveFlags.isActive_set]
    exact geared.clock

theorem applyWeaponOn (geared : g.Geared) (t : WeaponToken) : (g.applyWeaponOn t).Geared := by
  rcases eq_or_ne t .bottle with rfl | other
  · rw [applyWeaponOn_bottle]
    have walled := geared.switchOn_bottle
    exact creditWeaponClear_walk of_gears walled _ fun _ _ same =>
      tickDurations_walk tickDuration (walled.of_gears same) _
  rw [applyWeaponOn_other other]
  obtain ⟨active, upside, weapons, lasting, human⟩ := geared.switchOn_flags t
  obtain ⟨board, weapons', pieces, remaining, -, -⟩ := weaponFrame_kept
    ((g.switchOn t).2.streamOn t) t (g.weapons.isActive t)
  have flags : (((g.switchOn t).2.streamOn t).weaponFrame t (g.weapons.isActive t)).weapons =
      g.weapons.set t true := weapons'
  refine ⟨?_, ?_, ?_, ?_, ?_, ?_, ?_⟩
  · rw [board, weapons']
    exact active
  · rw [board, weapons']
    exact upside
  · rw [flags, pieces, ActiveFlags.isActive_set, ← geared.broken]
    refine (weaponOn_broken g.pieces t).trans ?_
    cases t <;> rfl
  · rw [flags, weaponFrame_spawnFrame, ActiveFlags.isActive_set]
    change (if t = .upbyside then (g.defX, (frameOf true).2) else g.spawnFrame) = _
    have defX : g.defX = btDefaultX := by
      have before : g.defX = _ := congrArg Prod.fst geared.frame
      rw [before]
      cases g.weapons.isActive .upbyside <;> rfl
    rw [defX, geared.frame]
    cases t <;> rfl
  · rw [flags, weaponFrame_dropClock, ActiveFlags.isActive_set, ActiveFlags.isActive_set]
    change (if g.weapons.isActive t then g.dropClock
      else if t = .speedy then (g.dropClock.1 / 2, g.dropClock.2)
      else if t = .meadow then (g.dropClock.1 * 2, g.dropClock.2 * 2) else g.dropClock) = _
    rw [geared.clock]
    rcases eq_or_ne t .speedy with rfl | notSpeedy
    · cases was : g.weapons.isActive .speedy
      · exact (clockOf_speedy _).2.symm
      · rfl
    rcases eq_or_ne t .meadow with rfl | notMeadow
    · cases was : g.weapons.isActive .meadow
      · exact (clockOf_meadow _).2.symm
      · rfl
    · rw [if_neg notSpeedy, if_neg notMeadow, if_neg notSpeedy.symm, if_neg notMeadow.symm,
        ite_self]
  · rw [remaining, weapons']
    exact lasting
  · rw [board]
    exact human

/-- A weapon that is forced off does not last. -/
theorem forceWeaponOff (geared : g.Geared) (t : WeaponToken) : (g.forceWeaponOff t).Geared := by
  have spent (h : Game) (geared : h.Geared) : (h.setRemaining t 0).Geared := by
    refine ⟨geared.active, geared.upside, geared.broken, geared.frame, geared.clock,
      fun u left => ?_, geared.human⟩
    rcases eq_or_ne u t with rfl | apart
    · exact absurd (Function.update_self ..) left
    · refine geared.lasting u ?_
      change Function.update h.remaining t 0 u ≠ 0 at left
      rwa [Function.update_of_ne apart] at left
  unfold Game.forceWeaponOff
  split
  · next active =>
    have first : (g.applyWeaponOff t).setRemaining t 0 =
        (g.setRemaining t 0).applyWeaponOff t := weaponUnframe_setRemaining (g.switchOff t) t 0
    rw [first]
    exact (spent g geared).applyWeaponOff active (Function.update_self ..)
  · exact spent g geared

theorem setStream (geared : g.Geared) {pieces : PieceManager} (rng : Rng)
    (broken : pieces.broken = g.pieces.broken) : (g.setStream pieces rng).Geared :=
  ⟨geared.active, geared.upside, broken.trans geared.broken, geared.frame, geared.clock,
    geared.lasting, geared.human⟩

theorem lawyersRow (geared : g.Geared) : g.lawyersRow.Geared := by
  have inserted := Board.keeps_insertLine g.board g.rng
  exact ⟨inserted.active.trans geared.active, inserted.upside.trans geared.upside,
    geared.broken, geared.frame, geared.clock, geared.lasting,
    inserted.computer.trans geared.human⟩

end Geared

theorem addFunds_gears (g : Game) (amount : Int) : (g.addFunds amount).gears = g.gears := by
  unfold addFunds
  split <;> rfl

theorem launchWeapon_gears (g : Game) (slot : Nat) : (g.launchWeapon slot).gears = g.gears := by
  unfold launchWeapon
  split
  · rfl
  · cases g.arsenal.token slot <;> rfl

theorem buyWeapon_gears (g : Game) (t : WeaponToken) : (g.buyWeapon t).2.gears = g.gears := by
  unfold buyWeapon
  split
  · rfl
  · dsimp only
    split
    · rfl
    · split <;> rfl

theorem sellWeapon_gears (g : Game) (t : WeaponToken) : (g.sellWeapon t).2.gears = g.gears := by
  unfold sellWeapon
  split
  · rfl
  · dsimp only
    split <;> rfl

/-- The inputs that reach the gears: a weapon is queued, or Lawyers raise the stack. -/
theorem applyToGame_gears (i : Input) (g : Game) :
    (i.applyToGame g).gears = g.gears ∨
      (∃ index t, i = .receiveWeapon index ∧ WeaponToken.fromIndex index = some t ∧
        i.applyToGame g = g.receiveWeapon t) ∨
      ∃ score lines funds, i = .receiveOpScore score lines funds := by
  have token {f : WeaponToken → Game → Game} (kept : ∀ t g, (f t g).gears = g.gears)
      (index : Int) : (Input.onToken index f g).gears = g.gears :=
    Input.onToken_kept gears kept index g
  cases i with
  | moveLeft => exact .inl (gears_of_still (g.shift_still g.leftX))
  | moveRight => exact .inl (gears_of_still (g.shift_still g.rightX))
  | rotate => exact .inl (gears_of_still g.rotate_still)
  | beginDrop => exact .inl (gears_of_still (g.dropFor_still _))
  | aiDrop => exact .inl (gears_of_still (g.dropFor_still _))
  | softDrop => exact .inl (gears_of_still g.softDrop_still)
  | launchWeapon slot => exact .inl (g.launchWeapon_gears slot)
  | buyWeapon t => exact .inl (token (fun t g => g.buyWeapon_gears t) t)
  | sellWeapon t => exact .inl (token (fun t g => g.sellWeapon_gears t) t)
  | leaveBazaar => exact .inl rfl
  | setPaused p => exact .inl rfl
  | receiveWeapon index =>
    rcases found : WeaponToken.fromIndex index with _ | t
    · left
      change (Input.onToken index (fun t g => g.receiveWeapon t) g).gears = g.gears
      unfold Input.onToken
      rw [found]
    · refine .inr (.inl ⟨index, t, rfl, found, ?_⟩)
      change Input.onToken index (fun t g => g.receiveWeapon t) g = _
      unfold Input.onToken
      rw [found]
  | receiveOpScore score lines funds => exact .inr (.inr ⟨score, lines, funds, rfl⟩)
  | addFunds amount => exact .inl (g.addFunds_gears amount)
  | grantWeapon t => exact .inl (token (f := fun t g => (g.grantWeapon t).2) (fun t g => rfl) t)

/-- A draw from the stream leaves the table and the flag alone. -/
theorem create_kept (pm : PieceManager) (rng : Rng) (x y : Int) :
    (pm.create rng x y).2.1.broken = pm.broken ∧
      (pm.create rng x y).2.1.keepProb = pm.keepProb := by
  have chosen : (pm.choose rng).2.1.broken = pm.broken ∧
      (pm.choose rng).2.1.keepProb = pm.keepProb := by
    unfold PieceManager.choose
    split
    · split
      · dsimp only
        split <;> exact ⟨rfl, rfl⟩
      · exact ⟨rfl, rfl⟩
    · exact ⟨rfl, rfl⟩
  unfold PieceManager.create
  dsimp only
  split <;> exact chosen

/-! ## What all play keeps -/

/-- In the course of an action the durations of `h` are counted down by `n` lines: those
of a lock, or those that the walls of a Bottle complete. -/
inductive Counts (g : Game) : Action → Int → Game → Prop where
  | lock {dtMs acc : Int} {p : Piece} (locks : ((g.tickWeapons dtMs).slideAt acc).Locks p)
    (placed : g.tick dtMs = ((g.tickWeapons dtMs).slideAt acc).place false)
    (some : 0 < lockLines { (g.tickWeapons dtMs).slideAt acc with current := none } p) :
    Counts g (.tick dtMs) (lockLines { (g.tickWeapons dtMs).slideAt acc with current := none } p)
      { (g.tickWeapons dtMs).slideAt acc with current := none }
  | walls {dtMs acc : Int} {p : Piece} {h k : Game} {ts : List WeaponToken}
    (locks : ((g.tickWeapons dtMs).slideAt acc).Locks p)
    (placed : g.tick dtMs = ((g.tickWeapons dtMs).slideAt acc).place false)
    (locked : h = lockPiece { (g.tickWeapons dtMs).slideAt acc with current := none } p)
    (queued : ts ++ [.bottle] <+: h.pending)
    (applied : k = ts.foldl applyWeaponOn { h with pending := [] })
    (some : 0 < (k.switchOn .bottle).1.lines) :
    Counts g (.tick dtMs) (k.switchOn .bottle).1.lines (k.switchOn .bottle).2

/-- The steps of play that turn the gears, kept by `P`: a line that `guard` allows counts
the weapons down, a weapon turns on or is forced off by a swap, the stream is drawn from,
a row of garbage rises. -/
structure GearSteps (P : Game → Prop) (guard : Game → Int → Prop) : Prop where
  respects : ∀ {g h : Game}, P g → h.gears = g.gears → P h
  guarded : ∀ {g h : Game} {n : Int}, guard g n → h.gears = g.gears → guard h n
  queues : ∀ {g : Game} (ts : List WeaponToken), P g → P { g with pending := ts }
  counts : ∀ {g : Game} {n : Int}, 0 < n → guard g n → P g → P (g.tickDurations n)
  arms : ∀ {g : Game} {t : WeaponToken}, t ≠ .bottle → P g → P (g.applyWeaponOn t)
  walls : ∀ {g : Game}, P g → P (g.switchOn .bottle).2
  disarms : ∀ {g : Game} {t : WeaponToken}, t = .bottle ∨ t = .upbyside → P g →
    P (g.forceWeaponOff t)
  draws : ∀ {g : Game}, P g → P (g.setStream (g.pieces.create g.rng g.defX g.defY).2.1
    (g.pieces.create g.rng g.defX g.defY).2.2)
  raises : ∀ {g : Game}, P g → P g.lawyersRow

namespace GearSteps

variable {P : Game → Prop} {guard : Game → Int → Prop} {g : Game}

theorem bottle (steps : GearSteps P guard) (held : P g)
    (allowed : 0 < (g.switchOn .bottle).1.lines →
      guard (g.switchOn .bottle).2 (g.switchOn .bottle).1.lines) :
    P (g.applyWeaponOn .bottle) := by
  rw [applyWeaponOn_bottle]
  have walled := steps.walls held
  exact creditWeaponClear_walk steps.respects walled _ fun some _ same =>
    steps.counts some (steps.guarded (allowed some) same) (steps.respects walled same)

theorem flushWeapons (steps : GearSteps P guard) (held : P g)
    (allowed : ∀ ts k, ts ++ [.bottle] <+: g.pending →
      k = ts.foldl Game.applyWeaponOn { g with pending := [] } →
      0 < (k.switchOn .bottle).1.lines →
        guard (k.switchOn .bottle).2 (k.switchOn .bottle).1.lines) :
    P g.flushWeapons := by
  refine foldl_prefix_invariant (P := P) (fun ts t queued held => ?_) (steps.queues [] held)
  rcases eq_or_ne t .bottle with rfl | other
  · exact steps.bottle held (allowed ts _ queued rfl)
  · exact steps.arms other held

theorem installBoard (steps : GearSteps P guard) (held : P g) : P g.installBoard := by
  unfold Game.installBoard
  split
  · next cells _ =>
    have cleared : P { g with pendingBoard := none } := steps.respects held rfl
    have installed := steps.respects cleared (importBoard_gears _ cells)
    exact steps.disarms (.inr rfl) (steps.disarms (.inl rfl) installed)
  · exact held

theorem spawn (steps : GearSteps P guard) (held : P g) : P g.spawn :=
  steps.respects (steps.draws held) (enterPiece_gears _ _)

theorem tick (steps : GearSteps P guard) (held : P g) (dtMs : Int)
    (allowed : ∀ n h, Counts g (.tick dtMs) n h → guard h n) : P (g.tick dtMs) := by
  rcases g.tick_cases dtMs with glides | ⟨acc, p, locks, placed⟩
  · exact steps.respects held (gears_of_still glides)
  · have moved : P ((g.tickWeapons dtMs).slideAt acc) :=
      steps.respects held (gears_of_still (g.tickWeapons_still dtMs))
    have lock := fun some => allowed _ _ (.lock locks placed some)
    have walls := fun ts k queued applied some =>
      allowed _ _ (@Counts.walls g _ _ _ _ k ts locks placed rfl queued applied some)
    rw [placed, place_of_locks locks]
    have cleared : P { (g.tickWeapons dtMs).slideAt acc with current := none } :=
      steps.respects moved rfl
    have locked := lockPiece_walk steps.respects cleared p fun some _ same =>
      steps.counts some (steps.guarded (lock some) same) (steps.respects cleared same)
    have flushed := steps.installBoard (steps.flushWeapons locked walls)
    exact steps.respects (steps.spawn flushed) (markLock_gears _ 0)

theorem raiseStack (steps : GearSteps P guard) (held : P g) (lines : Int) :
    P (g.raiseStack lines) := by
  unfold Game.raiseStack
  split
  · exact forRange_invariant (P := P) (fun _ h _ _ held => steps.raises held) held
  · exact held

/-- What the turning steps keep, every action with allowed counts keeps. -/
theorem act (steps : GearSteps P guard) (held : P g) (a : Action)
    (allowed : ∀ n h, Counts g a n h → guard h n) : P (g.act a) := by
  cases a with
  | input i =>
    change P (i.applyToGame g)
    rcases applyToGame_gears i g with same | ⟨_, t, -, -, received⟩ | ⟨score, lines, funds, rfl⟩
    · exact steps.respects held same
    · rw [received]
      exact steps.queues _ held
    · have mirrored : P (g.mirrorScore score funds) := steps.respects held rfl
      exact steps.respects (steps.raiseStack mirrored _)
        (updateBazaar_gears (Game.setOpLines _ _))
  | tick dtMs => exact steps.tick held dtMs allowed
  | queueBoardSwap cells => exact steps.respects held rfl
  | setArsenal arsenal => exact steps.respects held rfl
  | takeEvents => exact steps.respects held rfl

end GearSteps

/-- Every count is allowed. -/
abbrev Unguarded (_ : Game) (_ : Int) : Prop := True

theorem gearSteps_geared : GearSteps Geared Unguarded where
  respects := Geared.of_gears
  guarded _ _ := trivial
  queues _ geared := ⟨geared.active, geared.upside, geared.broken, geared.frame, geared.clock,
    geared.lasting, geared.human⟩
  counts _ _ geared := tickDurations_walk Geared.tickDuration geared _
  arms _ geared := geared.applyWeaponOn _
  walls geared := geared.switchOn_bottle
  disarms _ geared := geared.forceWeaponOff _
  draws geared := geared.setStream _ (create_kept ..).1
  raises geared := geared.lawyersRow

theorem Geared.act {g : Game} (geared : g.Geared) (a : Action) : (g.act a).Geared :=
  gearSteps_geared.act geared a fun _ _ _ => trivial

theorem geared_blank (seed : Nat) : (blank seed).Geared :=
  ⟨rfl, rfl, rfl, rfl, rfl, fun _ left => absurd rfl left, rfl⟩

theorem geared_new (seed : Nat) : (new seed).Geared :=
  gearSteps_geared.spawn (geared_blank seed)

end Game

end BattleTris
