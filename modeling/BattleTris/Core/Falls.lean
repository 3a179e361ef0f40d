import BattleTris.Core.Exports
import BattleTris.Core.Gliding

/-!
One tick of an undisturbed piece: how far it falls, and when its slide ends in a lock.
-/

namespace BattleTris

open Loop

namespace Game

/-- Hatter and Slick leave the piece alone. -/
def Undriven (g : Game) : Prop :=
  g.weapons.isActive .hatter = false ∧ g.weapons.isActive .slick = false

/-- The clock reaches the game. -/
def Runs (g : Game) (dt : Int) : Prop :=
  g.paused = false ∧ g.inBazaar = false ∧ g.phase ≠ .over ∧ 0 < dt

theorem tickWeapons_undriven {g : Game} (undriven : g.Undriven) (dt : Int) :
    g.tickWeapons dt = g := by
  unfold tickWeapons tickHatter
  rw [if_neg (by simp [undriven.1])]
  unfold tickSlick
  rw [if_neg (by simp [undriven.2])]

theorem tick_undriven {g : Game} {dt : Int} (runs : g.Runs dt) (undriven : g.Undriven) :
    g.tick dt = match g.phase with
      | .falling => g.tickFalling dt
      | .sliding => g.tickSliding dt
      | .over => g := by
  obtain ⟨unpaused, outside, playing, later⟩ := runs
  unfold tick
  rw [if_neg (by simp [unpaused, outside, playing, later])]
  dsimp only
  have still := tickWeapons_undriven undriven dt
  generalize g.tickWeapons dt = h at still ⊢
  subst still
  cases h.phase <;> rfl

/-- The piece `p` of a game, `i` rows on, with `acc` left on the drop clock. -/
def fallen (g : Game) (p : Piece) (i : Nat) (acc : Int) : Game :=
  { g with
    y := g.y + i * g.deltaY
    current := some { p with x := g.x, y := g.y + i * g.deltaY }
    dropAccum := acc }

variable {g : Game} {p : Piece} {k : Nat}

/-- One step of the drop clock with room below. -/
theorem fallStep_fallen {i : Nat} {acc : Int}
    (room : p.canMoveTo g.board g.x (g.y + (i + 1 : Nat) * g.deltaY) = true) :
    fallStep g.dropTime (g.fallen p i acc) = g.fallen p (i + 1) (acc - g.dropTime) := by
  have next : g.y + i * g.deltaY + g.deltaY = g.y + (i + 1 : Nat) * g.deltaY := by
    push_cast
    ring
  have moved : fallStep g.dropTime (g.fallen p i acc) =
      if p.canMoveTo g.board g.x (g.y + i * g.deltaY + g.deltaY) then
        { g.fallen p i (acc - g.dropTime) with
          x := g.x + 0, y := g.y + i * g.deltaY + g.deltaY
          current := some { p with x := g.x + 0, y := g.y + i * g.deltaY + g.deltaY } }
      else (g.fallen p i (acc - g.dropTime)).startSlide := rfl
  rw [moved, next, if_pos room, add_zero]
  rfl

/-- The step that finds no room below. -/
theorem fallStep_rests {i : Nat} {acc : Int}
    (floor : p.canMoveTo g.board g.x (g.y + (i + 1 : Nat) * g.deltaY) = false) :
    fallStep g.dropTime (g.fallen p i acc) = (g.fallen p i (acc - g.dropTime)).startSlide := by
  have next : g.y + i * g.deltaY + g.deltaY = g.y + (i + 1 : Nat) * g.deltaY := by
    push_cast
    ring
  have moved : fallStep g.dropTime (g.fallen p i acc) =
      if p.canMoveTo g.board g.x (g.y + i * g.deltaY + g.deltaY) then
        (g.fallen p i (acc - g.dropTime)).carry p 0 g.deltaY
      else (g.fallen p i (acc - g.dropTime)).startSlide := rfl
  rw [moved, next, if_neg (ne_true_of_eq_false floor)]

/-- A piece with `k` free rows below it comes to rest there, given the time for them and for the
step that finds the floor. -/
theorem tick_lands {dt : Int} (runs : g.Runs dt) (undriven : g.Undriven)
    (falls : g.phase = .falling) (fresh : g.dropAccum = 0)
    (current : g.current = some { p with x := g.x, y := g.y }) (pace : 0 < g.dropTime)
    (room : ∀ i < k, p.canMoveTo g.board g.x (g.y + (i + 1 : Nat) * g.deltaY) = true)
    (floor : p.canMoveTo g.board g.x (g.y + (k + 1 : Nat) * g.deltaY) = false)
    (time : (k + 1 : Nat) * g.dropTime ≤ dt) :
    g.tick dt = (g.fallen p k (dt - (k + 1 : Nat) * g.dropTime)).startSlide := by
  have step : max g.dropTime 1 = g.dropTime := max_eq_left pace
  let state (i : Nat) : Game :=
    if i ≤ k then g.fallen p i (dt - i * g.dropTime)
    else (g.fallen p k (dt - (k + 1 : Nat) * g.dropTime)).startSlide
  have moving {i : Nat} (less : i ≤ k) : state i = g.fallen p i (dt - i * g.dropTime) :=
    if_pos less
  have rested : state (k + 1) = (g.fallen p k (dt - (k + 1 : Nat) * g.dropTime)).startSlide :=
    if_neg (by omega)
  have start : { g with dropAccum := g.dropAccum + dt } = state 0 := by
    rw [moving (Nat.zero_le k), fresh]
    unfold fallen
    simp only [Nat.cast_zero, zero_mul, add_zero, sub_zero, zero_add]
    rw [← current]
  have spent (i : Nat) : dt - i * g.dropTime - g.dropTime = dt - (i + 1 : Nat) * g.dropTime := by
    push_cast
    ring
  rw [tick_undriven runs undriven, falls]
  unfold tickFalling
  dsimp only
  simp only [step]
  rw [start, ← rested]
  refine whileN_chain _ (fun i less => ?_) ?_ ?_
  · have left : (i + 1 : Nat) * g.dropTime ≤ (k + 1 : Nat) * g.dropTime :=
      mul_le_mul_of_nonneg_right (by exact_mod_cast less) pace.le
    rw [moving (Nat.le_of_lt_succ less)]
    refine ⟨decide_eq_true ⟨falls, ?_⟩, ?_⟩
    · have enough := spent i
      change dt - i * g.dropTime ≥ g.dropTime
      omega
    · rcases Nat.lt_succ_iff_lt_or_eq.mp less with inside | last
      · rw [fallStep_fallen (room i inside), spent, moving inside]
      · subst last
        rw [fallStep_rests floor, spent, rested]
  · rw [rested]
    rfl
  · rw [fresh]
    have slow : ((k + 1 : Nat) : Int) * 1 ≤ (k + 1 : Nat) * g.dropTime :=
      mul_le_mul_of_nonneg_left pace (by omega)
    omega

/-! ## The end of a slide -/

/-- A slide whose delay has passed ends in a lock over a floor. -/
theorem tick_locks {dt : Int} (runs : g.Runs dt) (undriven : g.Undriven)
    (slides : g.phase = .sliding) (delay : 0 < g.slideTime) (time : g.slideTime ≤ g.slideAccum + dt)
    (locks : g.Locks p) :
    g.tick dt = (g.slideAt (g.slideAccum + dt - g.slideTime)).place false := by
  have step : max g.slideTime 0 = g.slideTime := max_eq_left delay.le
  obtain ⟨n, fuel⟩ : ∃ n, (g.slideAccum + dt).toNat = n + 1 :=
    ⟨(g.slideAccum + dt).toNat - 1, by omega⟩
  have round : slideStep g.slideTime { g with slideAccum := g.slideAccum + dt } =
      (g.slideAt (g.slideAccum + dt - g.slideTime)).place false := rfl
  have ended : ((g.slideAt (g.slideAccum + dt - g.slideTime)).place false).phase ≠ .sliding := by
    have locks' : (g.slideAt (g.slideAccum + dt - g.slideTime)).Locks p := locks
    rw [place_of_locks locks', setSliding_phase]
    exact lockAndSpawn_phase _ p
  rw [tick_undriven runs undriven, slides]
  unfold tickSliding
  dsimp only
  simp only [step]
  rw [if_neg delay.ne', fuel]
  unfold whileN
  rw [if_pos (decide_eq_true ⟨slides, time⟩), round]
  cases n with
  | zero => rfl
  | succ n =>
    unfold whileN
    rw [if_neg (by simp [ended])]

/-! ## A lock without weapons -/

/-- No weapon is active, counts lines, or waits. -/
structure Bare (g : Game) : Prop where
  weapons : g.weapons = .new
  remaining : ∀ t, g.remaining t = 0
  pending : g.pending = []

/-- The events a game queues when no weapon is launched and the game goes on. -/
def quiet : GameEvent → Bool
  | .weaponLaunched _ => false
  | .gameOver => false
  | _ => true

/-- The queue only grew, by quiet events. -/
def Murmurs (old new : List GameEvent) : Prop :=
  old ⊆ new ∧ ∀ e ∈ new, e ∈ old ∨ quiet e = true

theorem Murmurs.refl (es : List GameEvent) : Murmurs es es :=
  ⟨List.Subset.refl es, fun _ mem => .inl mem⟩

theorem Murmurs.snoc {old new : List GameEvent} (murmurs : Murmurs old new) {e : GameEvent}
    (plain : quiet e = true) : Murmurs old (new ++ [e]) := by
  refine ⟨fun f mem => List.mem_append_left _ (murmurs.1 mem), fun f mem => ?_⟩
  rcases List.mem_append.mp mem with before | last
  · exact murmurs.2 f before
  · rw [List.mem_singleton.mp last]
    exact .inr plain

theorem Murmurs.trans {es fs gs : List GameEvent} (left : Murmurs es fs) (right : Murmurs fs gs) :
    Murmurs es gs := by
  refine ⟨fun e mem => right.1 (left.1 mem), fun e mem => ?_⟩
  rcases right.2 e mem with before | plain
  · exact left.2 e before
  · exact .inr plain

def withEvents (g : Game) (es : List GameEvent) : Game := { g with events := es }

theorem signalAirslide_events (g : Game) (p : Piece) :
    ∃ es, Murmurs g.events es ∧ g.signalAirslide p = g.withEvents es := by
  unfold signalAirslide
  split
  · exact ⟨_, (Murmurs.refl _).snoc rfl, rfl⟩
  · exact ⟨_, .refl _, rfl⟩

theorem signalIdiot_events (g : Game) :
    ∃ es, Murmurs g.events es ∧
      g.signalIdiot = (g.setBoard g.board.flushIdiot.2).withEvents es := by
  unfold signalIdiot
  dsimp only
  split
  · exact ⟨_, (Murmurs.refl _).snoc rfl, rfl⟩
  · exact ⟨_, .refl _, rfl⟩

theorem tickDurations_idle {g : Game} (idle : ∀ t, g.remaining t = 0) (lines : Int) :
    g.tickDurations lines = g := by
  refine foldl_invariant (P := fun h => h = g) (fun t _ h same => ?_) rfl
  subst same
  unfold tickDuration
  rw [if_pos (idle t)]

/-- The game with its countdown, and the bazaar open if that ran out. -/
def opened (g : Game) (til : Int) (es : List GameEvent) : Game :=
  { g with
    events := es, linesTilBaz := til, inBazaar := g.inBazaar || decide (til > g.linesTilBaz) }

theorem updateBazaar_events (g : Game) :
    ∃ es, Murmurs g.events es ∧ g.updateBazaar = g.opened g.bazaarCountdown es := by
  unfold updateBazaar opened
  dsimp only
  split
  · next crossed =>
    rw [decide_eq_true crossed, Bool.or_true]
    exact ⟨_, (Murmurs.refl _).snoc rfl, rfl⟩
  · next short =>
    rw [decide_eq_false short, Bool.or_false]
    exact ⟨_, .refl _, rfl⟩

/-- The countdown to the bazaar after a lock with these lines. -/
def countdownAfter (g : Game) (lines : Int) : Int :=
  if lines > 0 then g.bazaarCountdown else g.linesTilBaz

/-- The end of a lock, with no weapon to count down. -/
theorem publish_bare {g : Game} (idle : ∀ t, g.remaining t = 0) (lines : Int) :
    ∃ es, Murmurs g.events es ∧
      (if lines > 0 then g.lineTick lines else g).emitScored =
        g.opened (g.countdownAfter lines) es := by
  unfold countdownAfter
  by_cases cleared : lines > 0
  · rw [if_pos cleared, if_pos cleared]
    obtain ⟨es, rang, crossed⟩ := g.updateBazaar_events
    have ticked : g.lineTick lines = g.opened g.bazaarCountdown es := by
      unfold lineTick
      rw [crossed]
      exact tickDurations_idle (g := g.opened g.bazaarCountdown es) idle lines
    rw [ticked]
    exact ⟨_, rang.snoc rfl, rfl⟩
  · rw [if_neg cleared, if_neg cleared]
    have quiet : g.opened g.linesTilBaz (g.events ++
        [.scored g.score.score g.score.lines g.score.funds]) = g.emitScored := by
      unfold opened
      rw [decide_eq_false (lt_irrefl _), Bool.or_false]
      rfl
    exact ⟨_, (Murmurs.refl _).snoc rfl, quiet.symm⟩

/-- The game once a lock left this board and banked the clear. -/
def banked (g : Game) (board : Board) (clear : LineClear) : Game :=
  (g.setBoard board).addLines clear.lines |>.setFunds (g.score.funds + clear.funds)

/-- A lock of a bare game: its board, its lines, and the bazaar it may open. -/
theorem lockPiece_bare {g : Game} (bare : g.Bare) (p : Piece) :
    let r := (p.land g.board).checkLines
    ∃ es, Murmurs g.events es ∧ (∃ l v f, .locked l v f ∈ es) ∧
      g.lockPiece p = (g.banked r.2.flushIdiot.2 r.1).opened
        ((g.banked r.2.flushIdiot.2 r.1).countdownAfter r.1.lines) es := by
  intro r
  obtain ⟨slid, murmured, airslid⟩ := g.signalAirslide_events p
  have lands : (g.withEvents slid).landPiece p = (r.1, (g.withEvents slid).setBoard r.2) := rfl
  clear_value r
  have credited : (((g.withEvents slid).setBoard r.2).addLines r.1.lines).creditClearFunds
      r.1.funds = (g.banked r.2 r.1).withEvents slid := by
    have taxless : g.weapons.isActive .mondale = false := by
      rw [bare.weapons]
      rfl
    unfold creditClearFunds
    exact if_neg (ne_true_of_eq_false taxless)
  obtain ⟨said, heard, idiot⟩ := ((g.banked r.2 r.1).withEvents
    (slid ++ [.locked r.1.lines r.1.value r.1.funds])).signalIdiot_events
  have told : .locked r.1.lines r.1.value r.1.funds ∈ said :=
    heard.1 (List.mem_append_right _ List.mem_cons_self)
  obtain ⟨es, rang, published⟩ := publish_bare
    (g := (g.banked r.2.flushIdiot.2 r.1).withEvents said) bare.remaining r.1.lines
  refine ⟨es, ((murmured.snoc rfl).trans heard).trans rang, ⟨_, _, _, rang.1 told⟩, ?_⟩
  refine Eq.trans ?_ published
  unfold lockPiece
  rw [airslid, lands]
  dsimp only
  rw [credited]
  have locked : ((g.banked r.2 r.1).withEvents slid).emit
      (.locked r.1.lines r.1.value r.1.funds) = (g.banked r.2 r.1).withEvents
        (slid ++ [.locked r.1.lines r.1.value r.1.funds]) := rfl
  rw [locked, idiot]
  rfl

theorem flushWeapons_bare {g : Game} (bare : g.Bare) : g.flushWeapons = g := by
  unfold flushWeapons
  rw [bare.pending]
  exact congrArg (fun ts => { g with pending := ts }) bare.pending.symm

theorem forceWeaponOff_bare {g : Game} (bare : g.Bare) (t : WeaponToken) :
    g.forceWeaponOff t = g := by
  have idle : Function.update g.remaining t 0 = g.remaining := by
    rw [← bare.remaining t]
    exact Function.update_eq_self t g.remaining
  unfold forceWeaponOff
  rw [if_neg (by rw [bare.weapons]; exact Bool.false_ne_true)]
  exact congrArg (fun r => { g with remaining := r }) idle

/-- A bare game installs the squares of a waiting board, and nothing else. -/
theorem installBoard_bare {g o : Game} (bare : g.Bare)
    (waiting : g.pendingBoard = some o.exportBoard) (wide : 0 ≤ o.board.width)
    (tall : 0 ≤ o.board.height) (width : g.board.width = o.board.width)
    (height : g.board.height = o.board.height) :
    ∃ board, Board.Keeps g.board board ∧ board.toGrid = o.board.toGrid ∧
      g.installBoard = { g with board := board, pendingBoard := none } := by
  let freed : Game := { g with pendingBoard := none }
  obtain ⟨keeps, grid⟩ := importBoard_exportBoard (h := freed) wide tall width height
  refine ⟨_, keeps, grid, ?_⟩
  have imported := freed.importBoard_eq o.exportBoard
  generalize (freed.importBoard o.exportBoard).board = board at imported
  have bare' : Bare { freed with board := board } := ⟨bare.weapons, bare.remaining, bare.pending⟩
  unfold installBoard
  rw [waiting]
  dsimp only
  rw [imported, forceWeaponOff_bare bare', forceWeaponOff_bare bare']

/-- The game with the piece `p` at the spawn. -/
def entered (g : Game) (p : Piece) : Game :=
  { g with
    x := g.defX - (p.rot : Int) / 2, y := g.defY
    current := some { p with x := g.defX - (p.rot : Int) / 2, y := g.defY }
    dropping := false, dropTime := g.baseDropTime, phase := .falling, dropAccum := 0 }

/-- The game with the next piece of its stream at the spawn, if there is room for it. -/
theorem spawn_room {g : Game} {r : Piece × PieceManager × Rng}
    (drawn : g.pieces.create g.rng g.defX g.defY = r)
    (room : r.1.canMoveTo g.board (g.defX - (r.1.rot : Int) / 2) g.defY = true) :
    g.spawn = (g.setStream r.2.1 r.2.2).entered r.1 := by
  unfold spawn
  rw [drawn]
  exact if_pos room

end Game

end BattleTris
