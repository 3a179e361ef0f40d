import BattleTris.Core.Gliding

/-!
No tick and no relay message touches the arsenal of a game.
-/

namespace BattleTris

open Loop

namespace Game

/-- What leaves all but the piece in play alone leaves the arsenal alone. -/
theorem arsenal_of_still {g h : Game} (same : h.still = g.still) : h.arsenal = g.arsenal :=
  of_still Game.arsenal (fun _ => rfl) same

/-! ## Scores and the bazaar -/

theorem stealTax_arsenal (g : Game) (tax : Int) : (g.stealTax tax).arsenal = g.arsenal := by
  unfold stealTax
  split <;> rfl

theorem creditClearFunds_arsenal (g : Game) (funds : Int) :
    (g.creditClearFunds funds).arsenal = g.arsenal := by
  unfold creditClearFunds
  split
  · exact g.stealTax_arsenal _
  · rfl

theorem updateBazaar_arsenal (g : Game) : g.updateBazaar.arsenal = g.arsenal := by
  unfold updateBazaar
  dsimp only
  split <;> rfl

theorem weaponUnframe_arsenal (g : Game) (t : WeaponToken) :
    (g.weaponUnframe t).arsenal = g.arsenal := by
  cases t <;> rfl

theorem applyWeaponOff_arsenal (g : Game) (t : WeaponToken) :
    (g.applyWeaponOff t).arsenal = g.arsenal :=
  weaponUnframe_arsenal (g.switchOff t) t

theorem tickDuration_arsenal (lines : Int) (g : Game) (t : WeaponToken) :
    (tickDuration lines g t).arsenal = g.arsenal := by
  unfold tickDuration
  dsimp only
  split
  · rfl
  · split
    · exact applyWeaponOff_arsenal _ t
    · rfl

theorem lineTick_arsenal (g : Game) (lines : Int) : (g.lineTick lines).arsenal = g.arsenal :=
  foldl_invariant (P := fun h : Game => h.arsenal = g.arsenal)
    (fun t _ h kept => (tickDuration_arsenal lines h t).trans kept) g.updateBazaar_arsenal

theorem addFunds_arsenal (g : Game) (amount : Int) : (g.addFunds amount).arsenal = g.arsenal := by
  unfold addFunds
  split <;> rfl

theorem raiseStack_arsenal (g : Game) (lines : Int) :
    (g.raiseStack lines).arsenal = g.arsenal := by
  unfold raiseStack
  split
  · refine forRange_invariant (P := fun h : Game => h.arsenal = g.arsenal)
      (fun _ h _ _ kept => ?_) rfl
    exact kept
  · rfl

theorem receiveOpScore_arsenal (g : Game) (score lines funds : Int) :
    (g.receiveOpScore score lines funds).arsenal = g.arsenal := by
  have raised := (g.mirrorScore score funds).raiseStack_arsenal (lines - g.score.opLines)
  unfold receiveOpScore
  exact (updateBazaar_arsenal _).trans raised

/-! ## Weapons -/

theorem creditWeaponClear_arsenal (g : Game) (clear : LineClear) :
    (g.creditWeaponClear clear).arsenal = g.arsenal := by
  have credited := creditClearFunds_arsenal (g.addLines clear.lines) clear.funds
  unfold creditWeaponClear
  split
  · exact (lineTick_arsenal _ clear.lines).trans credited
  · rfl

theorem applyWeaponOn_arsenal (g : Game) (t : WeaponToken) :
    (g.applyWeaponOn t).arsenal = g.arsenal := by
  have switched : (g.switchOn t).2.arsenal = g.arsenal := by
    unfold switchOn
    generalize g.boardWeapon t = r
    rfl
  have credited := creditWeaponClear_arsenal (g.switchOn t).2 (g.switchOn t).1
  have framed (h : Game) (wasActive : Bool) : (h.weaponFrame t wasActive).arsenal = h.arsenal := by
    cases t <;> cases wasActive <;> rfl
  exact (framed _ _).trans (credited.trans switched)

theorem flushWeapons_arsenal (g : Game) : g.flushWeapons.arsenal = g.arsenal :=
  foldl_invariant (P := fun h : Game => h.arsenal = g.arsenal)
    (fun t _ h kept => (applyWeaponOn_arsenal h t).trans kept) rfl

theorem forceWeaponOff_arsenal (g : Game) (t : WeaponToken) :
    (g.forceWeaponOff t).arsenal = g.arsenal := by
  unfold forceWeaponOff
  split
  · exact applyWeaponOff_arsenal g t
  · rfl

theorem importBoard_arsenal (g : Game) (data : List Int) :
    (g.importBoard data).arsenal = g.arsenal := by
  unfold importBoard
  dsimp only
  split <;> rfl

theorem installBoard_arsenal (g : Game) : g.installBoard.arsenal = g.arsenal := by
  unfold installBoard
  split
  · next cells _ =>
    exact (forceWeaponOff_arsenal _ .upbyside).trans
      ((forceWeaponOff_arsenal _ .bottle).trans
        (importBoard_arsenal { g with pendingBoard := none } cells))
  · rfl

theorem flushPending_arsenal (g : Game) : g.flushPending.arsenal = g.arsenal :=
  (installBoard_arsenal _).trans g.flushWeapons_arsenal

/-! ## Locks and ticks -/

theorem landPiece_arsenal (g : Game) (p : Piece) : (g.landPiece p).2.arsenal = g.arsenal := by
  unfold landPiece
  generalize (p.land g.board).checkLines = r
  rfl

theorem signalAirslide_arsenal (g : Game) (p : Piece) :
    (g.signalAirslide p).arsenal = g.arsenal := by
  unfold signalAirslide
  split <;> rfl

theorem signalIdiot_arsenal (g : Game) : g.signalIdiot.arsenal = g.arsenal := by
  unfold signalIdiot
  dsimp only
  split <;> rfl

theorem lockPiece_arsenal (g : Game) (p : Piece) : (g.lockPiece p).arsenal = g.arsenal := by
  have landed := (landPiece_arsenal (g.signalAirslide p) p).trans (g.signalAirslide_arsenal p)
  unfold lockPiece
  dsimp only
  generalize (g.signalAirslide p).landPiece p = r at landed
  have credited := (creditClearFunds_arsenal (r.2.addLines r.1.lines) r.1.funds).trans landed
  generalize (r.2.addLines r.1.lines).creditClearFunds r.1.funds = c at credited
  have signalled :=
    (signalIdiot_arsenal (c.emit (.locked r.1.lines r.1.value r.1.funds))).trans credited
  generalize (c.emit (.locked r.1.lines r.1.value r.1.funds)).signalIdiot = d at signalled
  split
  · exact (lineTick_arsenal d r.1.lines).trans signalled
  · exact signalled

theorem enterPiece_arsenal (g : Game) (p : Piece) : (g.enterPiece p).arsenal = g.arsenal := by
  unfold enterPiece
  dsimp only
  split <;> rfl

theorem spawn_arsenal (g : Game) : g.spawn.arsenal = g.arsenal :=
  enterPiece_arsenal (g.setStream _ _) _

theorem lockAndSpawn_arsenal (g : Game) (p : Piece) : (g.lockAndSpawn p).arsenal = g.arsenal := by
  have flushed := (flushPending_arsenal (g.lockPiece p)).trans (g.lockPiece_arsenal p)
  have spawned := (spawn_arsenal (g.lockPiece p).flushPending).trans flushed
  unfold lockAndSpawn
  generalize (g.lockPiece p).flushPending.spawn = h at spawned
  exact spawned

theorem tick_arsenal (g : Game) (dt : Int) : (g.tick dt).arsenal = g.arsenal := by
  rcases g.tick_cases dt with glides | ⟨acc, p, locks, placed⟩
  · exact arsenal_of_still glides
  · have timed := arsenal_of_still (g.tickWeapons_still dt)
    have locked := lockAndSpawn_arsenal { (g.tickWeapons dt).slideAt acc with current := none } p
    rw [placed, place_of_locks locks]
    generalize lockAndSpawn _ p = h at locked
    exact locked.trans timed

end Game

end BattleTris
