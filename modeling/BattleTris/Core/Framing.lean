import BattleTris.Core.Dressing

/-!
What no operation of a game looks at: the events it has already queued, and the
mirror of the opponent's funds.

`g.framed es n` is `g` with `es` in front of its queue and `n` in that mirror.
Every operation commutes with it, so two games that agree elsewhere go on
agreeing elsewhere (`Game.SameCore`).  `receiveOpScore` is the one operation that
writes the mirror.
-/

namespace BattleTris

open Loop

namespace Game

/-- Earlier events and another funds mirror. -/
def frame (es : List GameEvent) (n : Int) : Dress where
  events := (es ++ ·)
  funds := id
  opFunds := fun _ => n
  passes := fun _ _ _ => (List.append_assoc ..).symm

/-- `g` with earlier events and another funds mirror. -/
abbrev framed (es : List GameEvent) (n : Int) (g : Game) : Game := g.dressed (frame es n)

section Framed

variable (es : List GameEvent) (n : Int) (g : Game)

/-! ### Scores, events and the bazaar -/

@[simp] theorem emit_framed (e : GameEvent) :
    (g.framed es n).emit e = (g.emit e).framed es n := by
  simp only [emit, framed, dressed, frame, List.append_assoc]

@[simp] theorem setFunds_framed (k : Int) :
    (g.framed es n).setFunds k = (g.setFunds k).framed es n := rfl

@[simp] theorem emitScored_framed : (g.framed es n).emitScored = g.emitScored.framed es n :=
  emit_framed es n g _

@[simp] theorem creditClearFunds_framed (funds : Int) :
    (g.framed es n).creditClearFunds funds = (g.creditClearFunds funds).framed es n := by
  unfold creditClearFunds
  rw [dressed_weapons]
  split
  · dsimp only
    rw [stealTax_dressed]
    rfl
  · rfl

/-! ### Weapons -/

@[simp] theorem creditWeaponClear_framed (clear : LineClear) :
    (g.framed es n).creditWeaponClear clear = (g.creditWeaponClear clear).framed es n := by
  unfold creditWeaponClear
  split
  · simp only [addLines_dressed, creditClearFunds_framed, lineTick_dressed, emitScored_framed]
  · rfl

@[simp] theorem weaponFrame_framed (t : WeaponToken) (wasActive : Bool) :
    (g.framed es n).weaponFrame t wasActive = (g.weaponFrame t wasActive).framed es n := by
  cases t <;> cases wasActive <;> rfl

@[simp] theorem applyWeaponOn_framed (t : WeaponToken) :
    (g.framed es n).applyWeaponOn t = (g.applyWeaponOn t).framed es n := by
  unfold applyWeaponOn
  rw [switchOn_dressed]
  dsimp only
  rw [creditWeaponClear_framed, streamOn_dressed, dressed_weapons, weaponFrame_framed]

@[simp] theorem flushWeapons_framed :
    (g.framed es n).flushWeapons = g.flushWeapons.framed es n :=
  foldl_map_comm (framed es n) (fun t _ g => applyWeaponOn_framed es n g t)
    { g with pending := [] }

@[simp] theorem flushPending_framed :
    (g.framed es n).flushPending = g.flushPending.framed es n := by
  unfold flushPending
  rw [flushWeapons_framed, installBoard_dressed]

/-! ### Locking and spawning -/

@[simp] theorem lockPiece_framed (p : Piece) :
    (g.framed es n).lockPiece p = (g.lockPiece p).framed es n := by
  unfold lockPiece
  rw [signalAirslide_dressed, landPiece_dressed]
  dsimp only
  rw [addLines_dressed, creditClearFunds_framed, emit_framed, signalIdiot_dressed]
  split
  · rw [lineTick_dressed, emitScored_framed]
  · rw [emitScored_framed]

@[simp] theorem lockAndSpawn_framed (p : Piece) :
    (g.framed es n).lockAndSpawn p = (g.lockAndSpawn p).framed es n := by
  unfold lockAndSpawn
  rw [lockPiece_framed, flushPending_framed, spawn_dressed, markLock_dressed]

@[simp] theorem place_framed (force : Bool) :
    (g.framed es n).place force = (g.place force).framed es n := by
  unfold place
  rw [dressed_current]
  cases g.current with
  | none => rfl
  | some p =>
    change setSliding (if ¬p.canMoveTo g.board g.x (g.y + g.deltaY) ∨ force then
      lockAndSpawn (framed es n { g with current := none }) p else _) 0 = _
    dsimp only
    split
    · rw [lockAndSpawn_framed, setSliding_dressed]
    · rw [resumeFall_dressed, setSliding_dressed]

/-! ### The clock -/

theorem slideStep_framed (step : Int) :
    (g.framed es n).slideStep step = (g.slideStep step).framed es n :=
  place_framed es n { g with slideAccum := g.slideAccum - step } false

theorem tickSliding_framed (dt : Int) :
    (g.framed es n).tickSliding dt = (g.tickSliding dt).framed es n := by
  unfold tickSliding
  change (if max g.slideTime 0 = 0 then _ else _) = _
  dsimp only
  split
  · exact place_framed es n { g with slideAccum := g.slideAccum + dt } false
  · refine whileN_comm (framed es n) ?_ (fun g => slideStep_framed es n g _) _
      { g with slideAccum := g.slideAccum + dt }
    intro g
    rfl

@[simp] theorem tick_framed (dt : Int) : (g.framed es n).tick dt = (g.tick dt).framed es n := by
  unfold tick tickWeapons
  change (if g.paused ∨ g.inBazaar ∨ g.phase = .over ∨ dt ≤ 0 then _ else _) = _
  split
  · rfl
  · rw [tickHatter_dressed, tickSlick_dressed]
    dsimp only
    rw [dressed_phase]
    rcases ((g.tickHatter dt).tickSlick dt).phase with _ | _ | _
    · exact tickFalling_dressed (frame es n) _ dt
    · exact tickSliding_framed es n _ dt
    · rfl

/-! ### Inputs -/

@[simp] theorem addFunds_framed (amount : Int) :
    (g.framed es n).addFunds amount = (g.addFunds amount).framed es n := by
  unfold addFunds
  split
  · rfl
  · exact emitScored_framed es n (g.setFunds (g.score.funds + amount))

theorem buyWeapon_framed (t : WeaponToken) :
    ((g.framed es n).buyWeapon t).2 = (g.buyWeapon t).2.framed es n := by
  unfold buyWeapon
  rw [dressed_inBazaar, dressed_arsenal]
  split
  · rfl
  · change (if g.score.funds < g.bazaarPrice t then _ else _ : Bool × Game).2 = _
    dsimp only
    split
    · rfl
    · cases (g.arsenal.buy t).1 <;> rfl

theorem sellWeapon_framed (t : WeaponToken) :
    ((g.framed es n).sellWeapon t).2 = (g.sellWeapon t).2.framed es n := by
  unfold sellWeapon
  rw [dressed_inBazaar, dressed_arsenal]
  split
  · rfl
  · dsimp only
    cases (g.arsenal.sell t).1 <;> rfl

/-- The score message overwrites the funds mirror, so it forgets the old one. -/
theorem receiveOpScore_framed (score lines funds : Int) :
    (g.framed es n).receiveOpScore score lines funds =
      (g.receiveOpScore score lines funds).framed es funds := by
  have mirror : (g.framed es n).mirrorScore score funds =
    (g.mirrorScore score funds).framed es funds := rfl
  unfold receiveOpScore
  dsimp only
  rw [mirror, raiseStack_dressed, setOpLines_dressed, updateBazaar_dressed]
  rfl

/-- The funds of a score message reach the mirror and nothing else. -/
theorem receiveOpScore_funds (score lines funds funds' : Int) :
    g.receiveOpScore score lines funds =
      (g.receiveOpScore score lines funds').framed [] funds := by
  have mirror : g.mirrorScore score funds =
    (g.mirrorScore score funds').framed [] funds := rfl
  unfold receiveOpScore
  dsimp only
  rw [mirror, raiseStack_dressed, setOpLines_dressed, updateBazaar_dressed]

end Framed

/-! ## Games that agree up to the frame -/

/-- The game without its queued events and its funds mirror. -/
def core (g : Game) : Game := { g with events := [], score := { g.score with opFunds := 0 } }

/-- Equal in every field but the event queue and the mirror of the opponent's
funds. -/
def SameCore (g h : Game) : Prop := g.core = h.core

theorem core_framed (es : List GameEvent) (n : Int) (g : Game) : (g.framed es n).core = g.core :=
  rfl

theorem framed_core (g : Game) : g.core.framed g.events g.score.opFunds = g := by
  simp [core, framed, dressed, frame]

@[refl] theorem SameCore.refl (g : Game) : SameCore g g := rfl

theorem SameCore.symm {g h : Game} (same : SameCore g h) : SameCore h g :=
  Eq.symm same

theorem SameCore.trans {g h k : Game} (left : SameCore g h) (right : SameCore h k) :
    SameCore g k :=
  Eq.trans left right

theorem sameCore_framed (es : List GameEvent) (n : Int) (g : Game) :
    SameCore (g.framed es n) g :=
  core_framed es n g

/-- An operation that commutes with every frame respects `SameCore`. -/
theorem SameCore.map {f : Game → Game}
    (comm : ∀ es n g, f (framed es n g) = framed es n (f g)) {g h : Game}
    (same : SameCore g h) : SameCore (f g) (f h) := by
  have reduce (g : Game) : (f g).core = (f g.core).core := by
    have step := comm g.events g.score.opFunds g.core
    rw [framed_core] at step
    rw [step, core_framed]
  calc (f g).core = (f g.core).core := reduce g
    _ = (f h.core).core := by rw [show g.core = h.core from same]
    _ = (f h).core := (reduce h).symm

/-- Two score messages that differ in their funds leave the same core. -/
theorem SameCore.receiveOpScore {g h : Game} (same : SameCore g h)
    (score lines funds funds' : Int) :
    SameCore (g.receiveOpScore score lines funds) (h.receiveOpScore score lines funds') := by
  have reduce (g : Game) (k : Int) : (g.receiveOpScore score lines k).core =
      (g.core.receiveOpScore score lines 0).core := by
    have step := receiveOpScore_framed g.events g.score.opFunds g.core score lines k
    rw [framed_core] at step
    rw [step, core_framed, receiveOpScore_funds g.core score lines k 0, core_framed]
  calc (g.receiveOpScore score lines funds).core
      = (g.core.receiveOpScore score lines 0).core := reduce g funds
    _ = (h.core.receiveOpScore score lines 0).core := by rw [show g.core = h.core from same]
    _ = (h.receiveOpScore score lines funds').core := (reduce h funds').symm

end Game

end BattleTris
