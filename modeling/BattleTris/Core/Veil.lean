import BattleTris.Core.Dressing

/-!
Games that differ in their funds alone.

Funds are hidden in the purse and in the queued score events.  Operations keep two
such games alike as long as their purchases turn out alike; nothing else a game does
depends on its funds.
-/

namespace BattleTris

open Loop

/-- A score event without its funds. -/
def GameEvent.veiled : GameEvent → GameEvent
  | .scored score lines _ => .scored score lines 0
  | e => e

theorem GameEvent.veiled_of_plain {e : GameEvent} (plain : e.isScored = false) :
    e.veiled = e := by
  cases e <;> first | rfl | cases plain

namespace Game

/-- Hide the funds. -/
def veil : Dress where
  events := List.map GameEvent.veiled
  funds := fun _ => 0
  opFunds := id
  passes := fun es e plain => by
    rw [List.map_append, List.map_singleton, GameEvent.veiled_of_plain plain]

/-- Equal but for the funds, in the purse and in the queued scores. -/
def SameButFunds (g h : Game) : Prop := g.dressed veil = h.dressed veil

namespace SameButFunds

variable {g h : Game}

theorem refl (g : Game) : SameButFunds g g := rfl

/-- What commutes with the veil respects it. -/
theorem map {f : Game → Game} (comm : ∀ g, f (g.dressed veil) = (f g).dressed veil)
    (same : SameButFunds g h) : SameButFunds (f g) (f h) := by
  unfold SameButFunds at *
  rw [← comm, ← comm, same]

/-- What reads nothing of the veiled fields reads the same. -/
theorem read {α : Type _} {f : Game → α} (blind : ∀ g, f (g.dressed veil) = f g)
    (same : SameButFunds g h) : f g = f h := by
  rw [← blind g, ← blind h, show g.dressed veil = h.dressed veil from same]

theorem weapons (same : SameButFunds g h) : g.weapons = h.weapons :=
  same.read (f := Game.weapons) fun _ => rfl

theorem inBazaar (same : SameButFunds g h) : g.inBazaar = h.inBazaar :=
  same.read (f := Game.inBazaar) fun _ => rfl

theorem events (same : SameButFunds g h) :
    g.events.map GameEvent.veiled = h.events.map GameEvent.veiled :=
  congrArg Game.events same

theorem takeEvents (same : SameButFunds g h) : SameButFunds g.takeEvents.2 h.takeEvents.2 :=
  same.map (f := fun g => g.takeEvents.2) fun _ => rfl

/-! ### The purse -/

theorem setFunds (same : SameButFunds g h) (m n : Int) :
    SameButFunds (g.setFunds m) (h.setFunds n) :=
  same

theorem emitScored (same : SameButFunds g h) : SameButFunds g.emitScored h.emitScored := by
  have published (g : Game) : g.emitScored.dressed veil =
      (g.dressed veil).emit (.scored g.score.score g.score.lines 0) := by
    unfold Game.emitScored emit dressed veil
    dsimp only
    rw [List.map_append]
    rfl
  have score : g.score.score = h.score.score := same.read (f := (·.score.score)) fun _ => rfl
  have lines : g.score.lines = h.score.lines := same.read (f := (·.score.lines)) fun _ => rfl
  unfold SameButFunds at *
  rw [published, published, same, score, lines]

theorem addFunds (same : SameButFunds g h) (amount : Int) :
    SameButFunds (g.addFunds amount) (h.addFunds amount) := by
  unfold Game.addFunds
  split
  · exact same
  · exact (same.setFunds _ _).emitScored

theorem creditClearFunds (same : SameButFunds g h) (funds : Int) :
    SameButFunds (g.creditClearFunds funds) (h.creditClearFunds funds) := by
  have taxed := same.map (f := (·.stealTax (funds - mondaleKept funds)))
    fun g => stealTax_dressed veil g _
  unfold Game.creditClearFunds
  rw [same.weapons]
  split
  · exact taxed.setFunds _ _
  · exact same.setFunds _ _

/-! ### Weapons -/

theorem lineTick (same : SameButFunds g h) (lines : Int) :
    SameButFunds (g.lineTick lines) (h.lineTick lines) :=
  same.map (f := (·.lineTick lines)) fun g => lineTick_dressed veil g lines

theorem addLines (same : SameButFunds g h) (lines : Int) :
    SameButFunds (g.addLines lines) (h.addLines lines) :=
  same.map (f := (·.addLines lines)) fun _ => rfl

theorem creditWeaponClear (same : SameButFunds g h) (clear : LineClear) :
    SameButFunds (g.creditWeaponClear clear) (h.creditWeaponClear clear) := by
  unfold Game.creditWeaponClear
  split
  · exact (((same.addLines clear.lines).creditClearFunds clear.funds).lineTick
      clear.lines).emitScored
  · exact same

theorem weaponFrame (same : SameButFunds g h) (t : WeaponToken) (wasActive : Bool) :
    SameButFunds (g.weaponFrame t wasActive) (h.weaponFrame t wasActive) := by
  by_cases keating : t = .keating
  · subst keating
    exact same.setFunds 0 0
  by_cases reagan : t = .reagan
  · subst reagan
    exact same.setFunds _ _
  · refine same.map (f := (·.weaponFrame t wasActive)) fun g => ?_
    cases t <;> first | contradiction | (cases wasActive <;> rfl)

theorem applyWeaponOn (same : SameButFunds g h) (t : WeaponToken) :
    SameButFunds (g.applyWeaponOn t) (h.applyWeaponOn t) := by
  have clear : (g.switchOn t).1 = (h.switchOn t).1 :=
    same.read (f := fun g => (g.switchOn t).1) fun g => by rw [switchOn_dressed]
  have switched : SameButFunds (g.switchOn t).2 (h.switchOn t).2 :=
    same.map (f := fun g => (g.switchOn t).2) fun g => by rw [switchOn_dressed]
  have streamed := (switched.creditWeaponClear (g.switchOn t).1).map (f := (·.streamOn t))
    fun g => streamOn_dressed veil g t
  unfold Game.applyWeaponOn
  rw [same.weapons]
  rw [clear] at streamed
  dsimp only
  rw [clear]
  exact streamed.weaponFrame t _

theorem flushPending (same : SameButFunds g h) :
    SameButFunds g.flushPending h.flushPending := by
  have pending : g.pending = h.pending := same.read (f := Game.pending) fun _ => rfl
  have emptied := same.map (f := fun g => { g with pending := [] }) fun _ => rfl
  have flushed : SameButFunds g.flushWeapons h.flushWeapons := by
    unfold flushWeapons
    rw [pending]
    exact foldl_rel (R := SameButFunds) (fun t _ _ _ same => same.applyWeaponOn t) emptied
  exact flushed.map (f := installBoard) fun g => installBoard_dressed veil g

/-! ### Locks and the clock -/

theorem lockPiece (same : SameButFunds g h) (p : Piece) :
    SameButFunds (g.lockPiece p) (h.lockPiece p) := by
  have slid := same.map (f := (·.signalAirslide p)) fun g => signalAirslide_dressed veil g p
  have clear : ((g.signalAirslide p).landPiece p).1 = ((h.signalAirslide p).landPiece p).1 :=
    slid.read (f := fun g => (g.landPiece p).1) fun g => by rw [landPiece_dressed]
  have landed : SameButFunds ((g.signalAirslide p).landPiece p).2
      ((h.signalAirslide p).landPiece p).2 :=
    slid.map (f := fun g => (g.landPiece p).2) fun g => by rw [landPiece_dressed]
  unfold Game.lockPiece
  dsimp only
  rw [clear]
  generalize ((h.signalAirslide p).landPiece p).1 = c
  have credited := (landed.addLines c.lines).creditClearFunds c.funds
  have told := credited.map (f := (·.emit (.locked c.lines c.value c.funds))) fun g =>
    emit_dressed veil g rfl
  have judged := told.map (f := signalIdiot) fun g => signalIdiot_dressed veil g
  split
  · exact (judged.lineTick c.lines).emitScored
  · exact judged.emitScored

theorem place (same : SameButFunds g h) (force : Bool) :
    SameButFunds (g.place force) (h.place force) := by
  have piece : g.current = h.current := same.read (f := Game.current) fun _ => rfl
  unfold Game.place
  rw [piece]
  cases h.current with
  | none => exact same
  | some p =>
    have room : p.canMoveTo g.board g.x (g.y + g.deltaY) =
        p.canMoveTo h.board h.x (h.y + h.deltaY) :=
      same.read (f := fun g => p.canMoveTo g.board g.x (g.y + g.deltaY)) fun _ => rfl
    dsimp only
    rw [room]
    split
    · have lifted := same.map (f := fun g => { g with current := none }) fun _ => rfl
      have spawned := (lifted.lockPiece p).flushPending.map (f := spawn) fun g =>
        spawn_dressed veil g
      exact spawned.map (f := fun g => g.markLock.setSliding 0) fun _ => rfl
    · exact same.map (f := fun g => (g.resumeFall p).setSliding 0) fun _ => rfl

theorem tickSliding (same : SameButFunds g h) (dt : Int) :
    SameButFunds (g.tickSliding dt) (h.tickSliding dt) := by
  have added := same.map (f := fun g => { g with slideAccum := g.slideAccum + dt }) fun _ => rfl
  have delay : max g.slideTime 0 = max h.slideTime 0 :=
    same.read (f := fun g => max g.slideTime 0) fun _ => rfl
  have fuel : (g.slideAccum + dt).toNat = (h.slideAccum + dt).toNat :=
    same.read (f := fun g => (g.slideAccum + dt).toNat) fun _ => rfl
  unfold Game.tickSliding
  dsimp only
  rw [delay, fuel]
  split
  · exact added.place false
  · refine whileN_rel (R := SameButFunds) (fun g h same => ?_) (fun g h same => ?_) _ added
    · exact same.read (f := fun g => decide (g.phase = .sliding ∧ _ ≤ g.slideAccum)) fun _ => rfl
    · exact (same.map (f := fun g => { g with slideAccum := g.slideAccum - _ }) fun _ =>
        rfl).place false

theorem tick (same : SameButFunds g h) (dt : Int) :
    SameButFunds (g.tick dt) (h.tick dt) := by
  have stopped : (g.paused ∨ g.inBazaar ∨ g.phase = .over ∨ dt ≤ 0) =
      (h.paused ∨ h.inBazaar ∨ h.phase = .over ∨ dt ≤ 0) :=
    same.read (f := fun g => (g.paused = true ∨ g.inBazaar = true ∨ g.phase = .over ∨ dt ≤ 0))
      fun _ => rfl
  have armed : SameButFunds (g.tickWeapons dt) (h.tickWeapons dt) :=
    same.map (f := (·.tickWeapons dt)) fun g => by
      unfold tickWeapons
      rw [tickHatter_dressed, tickSlick_dressed]
  have phase : (g.tickWeapons dt).phase = (h.tickWeapons dt).phase :=
    armed.read (f := Game.phase) fun _ => rfl
  unfold Game.tick
  simp only [stopped]
  split
  · exact same
  · rw [phase]
    rcases (h.tickWeapons dt).phase with _ | _ | _
    · exact armed.map (f := (·.tickFalling dt)) fun g => tickFalling_dressed veil g dt
    · exact armed.tickSliding dt
    · exact armed

/-! ### The relay and the inputs -/

theorem receiveOpScore (same : SameButFunds g h) (score lines funds : Int) :
    SameButFunds (g.receiveOpScore score lines funds) (h.receiveOpScore score lines funds) := by
  refine same.map (f := (·.receiveOpScore score lines funds)) fun g => ?_
  have mirror : (g.dressed veil).mirrorScore score funds =
    (g.mirrorScore score funds).dressed veil := rfl
  unfold Game.receiveOpScore
  dsimp only
  rw [mirror, raiseStack_dressed, setOpLines_dressed, updateBazaar_dressed]
  rfl

/-- A purchase is refused, or paid for. -/
theorem buyWeapon_cases (g : Game) (t : WeaponToken) :
    g.buyWeapon t = (false, g) ∨ g.buyWeapon t = (true,
      { g with
        arsenal := (g.arsenal.buy t).2
        score := { g.score with funds := g.score.funds - g.bazaarPrice t } }) := by
  unfold Game.buyWeapon
  split
  · exact .inl rfl
  · dsimp only
    split
    · exact .inl rfl
    · cases (g.arsenal.buy t).1
      · exact .inl rfl
      · exact .inr rfl

/-- Purchases that turn out alike. -/
theorem buyWeapon (same : SameButFunds g h) (t : WeaponToken)
    (outcome : (g.buyWeapon t).1 = (h.buyWeapon t).1) :
    SameButFunds (g.buyWeapon t).2 (h.buyWeapon t).2 := by
  have paid := same.map (f := fun g => { g with arsenal := (g.arsenal.buy t).2 }) fun _ => rfl
  rcases buyWeapon_cases g t with left | left <;> rcases buyWeapon_cases h t with right | right <;>
    rw [left, right] at outcome ⊢
  · exact same
  · cases outcome
  · cases outcome
  · exact paid

/-- A sale is refused, or paid out. -/
theorem sellWeapon_cases (g : Game) (t : WeaponToken) :
    g.sellWeapon t = (false, g) ∨ g.sellWeapon t = (true,
      { g with
        arsenal := (g.arsenal.sell t).2
        score := { g.score with funds := g.score.funds + g.bazaarPrice t } }) := by
  unfold Game.sellWeapon
  split
  · exact .inl rfl
  · dsimp only
    cases (g.arsenal.sell t).1
    · exact .inl rfl
    · exact .inr rfl

/-- Whether a sale is refused does not depend on the funds. -/
theorem sellWeapon (same : SameButFunds g h) (t : WeaponToken) :
    SameButFunds (g.sellWeapon t).2 (h.sellWeapon t).2 := by
  have outcome : (g.sellWeapon t).1 = (h.sellWeapon t).1 := by
    refine same.read (f := fun g => (g.sellWeapon t).1) fun g => ?_
    unfold Game.sellWeapon
    rw [dressed_inBazaar, dressed_arsenal]
    split
    · rfl
    · cases sold : (g.arsenal.sell t).1 <;> simp only [sold] <;> rfl
  have sold := same.map (f := fun g => { g with arsenal := (g.arsenal.sell t).2 }) fun _ => rfl
  rcases sellWeapon_cases g t with left | left <;>
    rcases sellWeapon_cases h t with right | right <;> rw [left, right] at outcome ⊢
  · exact same
  · cases outcome
  · cases outcome
  · exact sold

end SameButFunds

end Game

end BattleTris
