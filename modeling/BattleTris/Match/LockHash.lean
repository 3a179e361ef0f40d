import BattleTris.Match.Gears

/-!
What the hash of a lock tells about the game.

The movement frame, the clock and the flags follow the active weapons, which are
hashed.  The piece stream and the piece in play do not: they are told by the hash only
while no weapon touches the stream or draws a random number.
-/

namespace BattleTris

open Loop

namespace Game

/-! ## The stream while nothing stirs it -/

/-- A weapon that touches the piece stream, or draws a random number. -/
def stirs (t : WeaponToken) : Bool :=
  t ∈ [.fearedWeird, .fourByFour, .noDice, .soLong, .broken, .niceDay, .riseUp, .pieceIt, .bug,
    .missing, .blind, .lawyers]

/-- No weapon that stirs the stream is received. -/
def Calm (a : Action) : Prop :=
  ∀ index t, a = .input (.receiveWeapon index) → WeaponToken.fromIndex index = some t →
    stirs t = false

/-- The stream of a geared game that nothing has stirred. -/
structure Undisturbed (s : PieceManager × Rng) (g : Game) : Prop where
  geared : g.Geared
  stream : (g.pieces, g.rng) = s
  pending : ∀ t ∈ g.pending, stirs t = false
  inactive : ∀ t, stirs t = true → g.weapons.isActive t = false

namespace Undisturbed

variable {s : PieceManager × Rng} {g h : Game}

theorem of_gears (calm : Undisturbed s g) (same : h.gears = g.gears) : Undisturbed s h := by
  refine ⟨calm.geared.of_gears same, ?_, ?_, ?_⟩
  · rw [pieces_of_gears same, rng_of_gears same]
    exact calm.stream
  · rw [pending_of_gears same]
    exact calm.pending
  · rw [weapons_of_gears same]
    exact calm.inactive

theorem weaponOff_calm {t : WeaponToken} (calm : stirs t = false) (pm : PieceManager) :
    pm.weaponOff t = pm := by
  cases t <;> first | rfl | cases calm

theorem weaponOn_calm {t : WeaponToken} (calm : stirs t = false) (pm : PieceManager) :
    pm.weaponOn t = pm := by
  cases t <;> first | rfl | cases calm

theorem boardWeapon_calm {t : WeaponToken} (calm : stirs t = false) (b : Board) (rng : Rng) :
    (b.applyWeapon t rng).2.2 = rng := by
  cases t <;> first | rfl | cases calm

/-- What turns off was active, so it does not stir. -/
theorem applyWeaponOff (calm : Undisturbed s g) {t : WeaponToken}
    (active : g.weapons.isActive t = true) (spent : g.remaining t = 0) :
    Undisturbed s (g.applyWeaponOff t) := by
  have quiet : stirs t = false := by
    by_contra stirring
    rw [calm.inactive t (by simpa using stirring)] at active
    cases active
  obtain ⟨-, weapons, pieces, -, rng, pending⟩ := weaponUnframe_kept (g.switchOff t) t
  refine ⟨calm.geared.applyWeaponOff active spent, ?_, ?_, fun u stirring => ?_⟩
  · unfold Game.applyWeaponOff
    rw [pieces, rng, ← calm.stream]
    exact congrArg (·, g.rng) (weaponOff_calm quiet g.pieces)
  · unfold Game.applyWeaponOff
    rw [pending]
    exact calm.pending
  · unfold Game.applyWeaponOff
    rw [weapons]
    change (g.weapons.set t false).isActive u = false
    rw [ActiveFlags.isActive_set]
    split
    · rfl
    · exact calm.inactive u stirring

theorem tickDuration {g : Game} (lines : Int) (t : WeaponToken) (calm : Undisturbed s g) :
    Undisturbed s (tickDuration lines g t) := by
  unfold Game.tickDuration
  split
  · exact calm
  next left =>
  dsimp only
  have active := calm.geared.lasting t left
  have counted (n : Int) : Undisturbed s (g.setRemaining t n) :=
    ⟨calm.geared.setRemaining active n, calm.stream, calm.pending, calm.inactive⟩
  split
  · next spent =>
    refine (counted _).applyWeaponOff active ?_
    exact (Function.update_self ..).trans spent
  · exact counted _

theorem applyWeaponOn (calm : Undisturbed s g) {t : WeaponToken} (quiet : stirs t = false) :
    Undisturbed s (g.applyWeaponOn t) := by
  obtain ⟨pieces, -, -, pending, weapons⟩ := switchOn_kept g t
  have rng : (g.switchOn t).2.rng = g.rng := boardWeapon_calm quiet _ _
  have inactive (u : WeaponToken) (stirring : stirs u = true) :
      (g.weapons.set t true).isActive u = false := by
    rw [ActiveFlags.isActive_set, if_neg]
    · exact calm.inactive u stirring
    · rintro rfl
      rw [quiet] at stirring
      cases stirring
  rcases eq_or_ne t .bottle with rfl | other
  · rw [applyWeaponOn_bottle]
    have walled := calm.geared.switchOn_bottle
    generalize g.switchOn .bottle = r at *
    have walled' : Undisturbed s r.2 := by
      refine ⟨walled, ?_, ?_, ?_⟩
      · rw [pieces, rng]
        exact calm.stream
      · rw [pending]
        exact calm.pending
      · rw [weapons]
        exact inactive
    exact creditWeaponClear_walk of_gears walled' r.1 fun _ _ same =>
      tickDurations_walk tickDuration (walled'.of_gears same) _
  have geared := calm.geared.applyWeaponOn t
  rw [applyWeaponOn_other other] at *
  obtain ⟨-, weapons', pieces', -, rng', pending'⟩ := weaponFrame_kept
    ((g.switchOn t).2.streamOn t) t (g.weapons.isActive t)
  refine ⟨geared, ?_, ?_, ?_⟩
  · rw [pieces', rng', ← calm.stream]
    exact Prod.ext ((weaponOn_calm quiet _).trans pieces) rng
  · rw [pending']
    exact calm.pending
  · rw [weapons']
    exact inactive

theorem flushWeapons (calm : Undisturbed s g) : Undisturbed s g.flushWeapons := by
  refine foldl_invariant (P := Undisturbed s)
    (fun t mem _ applied => applied.applyWeaponOn (calm.pending t mem)) ?_
  exact ⟨⟨calm.geared.active, calm.geared.upside, calm.geared.broken, calm.geared.frame,
    calm.geared.clock, calm.geared.lasting, calm.geared.human⟩, calm.stream,
    fun t mem => absurd mem List.not_mem_nil, calm.inactive⟩

theorem forceWeaponOff (calm : Undisturbed s g) {t : WeaponToken} (quiet : stirs t = false) :
    Undisturbed s (g.forceWeaponOff t) := by
  have geared := calm.geared.forceWeaponOff t
  obtain ⟨-, weapons, pieces, -, rng, pending⟩ := weaponUnframe_kept (g.switchOff t) t
  unfold Game.forceWeaponOff at *
  split at geared
  · next active =>
    rw [if_pos active]
    refine ⟨geared, ?_, ?_, fun u stirring => ?_⟩
    · refine Eq.trans ?_ calm.stream
      exact Prod.ext (pieces.trans (weaponOff_calm quiet g.pieces)) rng
    · change ∀ u ∈ (g.applyWeaponOff t).pending, _
      unfold Game.applyWeaponOff
      rw [pending]
      exact calm.pending
    · change (g.applyWeaponOff t).weapons.isActive u = false
      unfold Game.applyWeaponOff
      rw [weapons]
      change (g.weapons.set t false).isActive u = false
      rw [ActiveFlags.isActive_set]
      split
      · rfl
      · exact calm.inactive u stirring
  · next idle =>
    rw [if_neg idle]
    exact ⟨geared, calm.stream, calm.pending, calm.inactive⟩

theorem installBoard (calm : Undisturbed s g) : Undisturbed s g.installBoard := by
  have cleared : Undisturbed s { g with pendingBoard := none } := calm.of_gears rfl
  unfold Game.installBoard
  split
  · exact ((cleared.of_gears (importBoard_gears _ _)).forceWeaponOff rfl).forceWeaponOff rfl
  · exact calm


end Undisturbed

end Game

namespace PieceManager

/-- Where a piece is put changes nothing about it, or about the stream. -/
theorem create_anywhere (pm : PieceManager) (rng : Rng) (x y x' y' : Int) :
    (pm.create rng x y).2 = (pm.create rng x' y').2 ∧
      (pm.create rng x y).1.kind = (pm.create rng x' y').1.kind ∧
      (pm.create rng x y).1.cells = (pm.create rng x' y').1.cells := by
  unfold create
  dsimp only
  split <;> exact ⟨rfl, rfl, rfl⟩

end PieceManager

namespace Game

/-- One draw of a stream: the piece, and the stream after it. -/
def drawFrom (s : PieceManager × Rng) : Piece × PieceManager × Rng :=
  s.1.create s.2 btDefaultX btDefaultY

/-- The stream of a seed once `n` pieces are drawn from it. -/
def streamAt (seed : Nat) : Nat → PieceManager × Rng
  | 0 => (.new, .new seed)
  | n + 1 => (drawFrom (streamAt seed n)).2

/-- The piece in play is the one drawn from `s`, at the slow cadence. -/
def Fresh (s : PieceManager × Rng) (g : Game) : Prop :=
  g.phase ≠ .over → g.dropTime = g.baseDropTime ∧
    ∃ p, g.current = some p ∧ p.kind = (drawFrom s).1.kind ∧ p.cells = (drawFrom s).1.cells

theorem enterPiece_fresh (g : Game) (p : Piece) (alive : (g.enterPiece p).phase ≠ .over) :
    (g.enterPiece p).dropTime = (g.enterPiece p).baseDropTime ∧
      ∃ q, (g.enterPiece p).current = some q ∧ q.kind = p.kind ∧ q.cells = p.cells := by
  unfold enterPiece at *
  dsimp only at *
  split at alive
  · next room =>
    rw [if_pos room]
    exact ⟨rfl, _, rfl, rfl, rfl⟩
  · exact absurd rfl alive

theorem spawn_fresh (g : Game) : Fresh (g.pieces, g.rng) g.spawn := by
  intro alive
  obtain ⟨slow, q, current, kind, cells⟩ := enterPiece_fresh _ _ alive
  obtain ⟨-, kind', cells'⟩ := g.pieces.create_anywhere g.rng g.defX g.defY btDefaultX btDefaultY
  exact ⟨slow, q, current, kind.trans kind', cells.trans cells'⟩

namespace Undisturbed

variable {s : PieceManager × Rng} {g : Game}

theorem spawn (calm : Undisturbed s g) : Undisturbed (drawFrom s).2 g.spawn := by
  obtain ⟨same, -, -⟩ := g.pieces.create_anywhere g.rng g.defX g.defY btDefaultX btDefaultY
  have drawn : Undisturbed (drawFrom s).2 (g.setStream (g.pieces.create g.rng g.defX g.defY).2.1
      (g.pieces.create g.rng g.defX g.defY).2.2) := by
    refine ⟨?_, ?_, calm.pending, calm.inactive⟩
    · exact calm.geared.setStream _ (create_kept ..).1
    · rw [← calm.stream]
      exact same
  exact drawn.of_gears (enterPiece_gears _ _)

theorem flushPending (calm : Undisturbed s g) : Undisturbed s g.flushPending :=
  calm.flushWeapons.installBoard

/-- A lock draws the next piece of the stream. -/
theorem place {p : Piece} (calm : Undisturbed s g) (locks : g.Locks p) :
    Undisturbed (drawFrom s).2 (g.place false) ∧ Fresh s (g.place false) := by
  have cleared : Undisturbed s { g with current := none } := calm.of_gears rfl
  have flushed : Undisturbed s ({ g with current := none }.lockPiece p).flushPending :=
    (lockPiece_walk of_gears cleared p fun _ _ same =>
      tickDurations_walk tickDuration (cleared.of_gears same) _).flushPending
  rw [place_of_locks locks]
  unfold lockAndSpawn
  generalize ({ g with current := none }.lockPiece p).flushPending = h at *
  have spawned := flushed.spawn
  have fresh := h.spawn_fresh
  rw [flushed.stream] at fresh
  generalize h.spawn = k at spawned fresh
  exact ⟨spawned.of_gears (markLock_gears k 0), fresh⟩

theorem tick {seed n : Nat} (calm : Undisturbed (streamAt seed (n + 1)) g) (count : g.lockSeq = n)
    (dt : Int) :
    Undisturbed (streamAt seed ((g.tick dt).lockSeq + 1)) (g.tick dt) ∧
      ((g.tick dt).lockSeq = n + 1 → Fresh (streamAt seed (n + 1)) (g.tick dt)) := by
  rcases g.tick_cases dt with glides | ⟨acc, p, locks, placed⟩
  · have still : (g.tick dt).lockSeq = n := (of_still lockSeq (fun _ => rfl) glides).trans count
    rw [still]
    refine ⟨calm.of_gears (gears_of_still glides), fun locked => ?_⟩
    omega
  · have moved : Undisturbed (streamAt seed (n + 1)) ((g.tickWeapons dt).slideAt acc) :=
      calm.of_gears (gears_of_still (g.tickWeapons_still dt))
    have counted : ((g.tickWeapons dt).slideAt acc).lockSeq = n :=
      (of_still lockSeq (fun _ => rfl) (g.tickWeapons_still dt)).trans count
    obtain ⟨placed', fresh⟩ := moved.place locks
    rw [placed, place_lockSeq locks, counted]
    exact ⟨placed', fun _ => fresh⟩

theorem act {seed : Nat} (calm : Undisturbed (streamAt seed (g.lockSeq + 1)) g) {a : Action}
    (quiet : Calm a) : Undisturbed (streamAt seed ((g.act a).lockSeq + 1)) (g.act a) := by
  cases a with
  | input i =>
    change Undisturbed (streamAt seed ((i.applyToGame g).lockSeq + 1)) (i.applyToGame g)
    rw [i.applyToGame_lockSeq]
    rcases applyToGame_gears i g with same | ⟨index, t, rfl, found, received⟩ |
      ⟨score, lines, funds, rfl⟩
    · exact calm.of_gears same
    · rw [received]
      refine ⟨?_, calm.stream, fun u mem => ?_, calm.inactive⟩
      · exact received ▸ calm.geared.act (.input (.receiveWeapon index))
      · rcases List.mem_append.mp mem with old | new
        · exact calm.pending u old
        · obtain rfl := List.mem_singleton.mp new
          exact quiet index u rfl found
    · -- Lawyers are not active
      have idle : g.weapons.isActive .lawyers = false := calm.inactive .lawyers rfl
      have unraised : (g.mirrorScore score funds).raiseStack (lines - g.score.opLines) =
          g.mirrorScore score funds := if_neg (by rw [show
            (g.mirrorScore score funds).weapons = g.weapons from rfl, idle]; decide)
      change Undisturbed _ (g.receiveOpScore score lines funds)
      unfold receiveOpScore
      dsimp only
      rw [unraised]
      have mirrored : Undisturbed (streamAt seed (g.lockSeq + 1))
          ((g.mirrorScore score funds).setOpLines lines) := calm.of_gears rfl
      exact mirrored.of_gears (updateBazaar_gears _)
  | tick dtMs => exact (calm.tick rfl dtMs).1
  | queueBoardSwap cells => exact calm.of_gears rfl
  | setArsenal arsenal => exact calm.of_gears rfl
  | takeEvents => exact calm.of_gears rfl

theorem new (seed : Nat) : Undisturbed (streamAt seed 1) (Game.new seed) := by
  have blank : Undisturbed (streamAt seed 0) (blank seed) :=
    ⟨geared_blank seed, rfl, fun t mem => absurd mem List.not_mem_nil, fun _ _ => rfl⟩
  exact blank.spawn

theorem run {seed : Nat} {actions : List Action} (quiet : ∀ a ∈ actions, Calm a) :
    Undisturbed (streamAt seed ((actions.foldl Game.act (Game.new seed)).lockSeq + 1))
      (actions.foldl Game.act (Game.new seed)) := by
  have fresh : (Game.new seed).lockSeq = 0 := (blank seed).spawn_lockSeq
  refine foldl_invariant (P := fun g : Game => Undisturbed (streamAt seed (g.lockSeq + 1)) g)
    (fun a mem g calm => calm.act (quiet a mem)) ?_
  rw [fresh]
  exact new seed

end Undisturbed

/-! ## The hash of a lock -/

/-- The fields that `lockHashOf` feeds, in its order. -/
def hashedFields (g : Game) : List Int × (Int × Int) × List Int × List Int × List Int × List Int ×
    Option (List Int) × Nat :=
  (g.exportBoard, (g.score.score, g.score.lines), g.exportArsenal,
    WeaponToken.all.map g.weapons.counts, WeaponToken.all.map g.remaining,
    g.pending.map fun t => (t.index : Int), g.pendingBoard, g.rng.state)

/-- The hash is one of these fields alone. -/
theorem lockHashOf_congr {g h : Game} (same : g.hashedFields = h.hashedFields) :
    g.lockHashOf = h.lockHashOf := by
  unfold hashedFields at same
  simp only [Prod.mk.injEq] at same
  obtain ⟨board, ⟨score, lines⟩, arsenal, counts, remaining, pending, pendingBoard, rng⟩ := same
  unfold lockHashOf
  dsimp only
  rw [board, score, lines, arsenal, counts, remaining, pending, pendingBoard, rng]

theorem weapons_of_hashedFields {g h : Game} (same : g.hashedFields = h.hashedFields) :
    g.weapons = h.weapons := by
  have counts : WeaponToken.all.map g.weapons.counts = WeaponToken.all.map h.weapons.counts :=
    congrArg (·.2.2.2.1) same
  have pointwise (t : WeaponToken) : g.weapons.counts t = h.weapons.counts t :=
    List.map_inj_left.mp counts t t.mem_all
  exact congrArg ActiveFlags.mk (funext pointwise)

/-- `g` is a game right after a lock: the last tick of a run of its seed locked. -/
structure AtLock (seed : Nat) (actions : List Action) (dtMs : Int) (g : Game) : Prop where
  played : g = (actions.foldl act (new seed)).tick dtMs
  locked : g.lockSeq = (actions.foldl act (new seed)).lockSeq + 1

/-- The two games agree on what follows the weapons. -/
structure SameGears (g h : Game) : Prop where
  spawnFrame : g.spawnFrame = h.spawnFrame
  dropClock : g.dropClock = h.dropClock
  dropTime : g.dropTime = h.dropTime
  broken : g.pieces.broken = h.pieces.broken
  flags : (g.board.active, g.board.upside, g.board.computer) =
    (h.board.active, h.board.upside, h.board.computer)

/-- The two games agree on the piece stream and on the piece drawn from it. -/
structure SameStream (g h : Game) : Prop where
  pieces : g.pieces = h.pieces
  piece : (g.current.map fun p => (p.kind, p.cells)) = h.current.map fun p => (p.kind, p.cells)

namespace AtLock

variable {seed : Nat} {actions actions' : List Action} {dt dt' : Int} {g h : Game}

theorem geared (lock : AtLock seed actions dt g) : g.Geared := by
  have played : (actions.foldl act (new seed)).Geared :=
    foldl_invariant (P := Geared) (fun a _ _ geared => geared.act a) (geared_new seed)
  rw [lock.played]
  exact played.act (.tick dt)

/-- A lock leaves a piece at the slow cadence, and its own hash. -/
theorem fresh (lock : AtLock seed actions dt g) :
    (g.phase ≠ .over → g.dropTime = g.baseDropTime) ∧ g.lockHash = g.lockHashOf := by
  have locked := lock.locked
  rw [lock.played] at *
  rcases (actions.foldl act (new seed)).tick_cases dt with glides | ⟨acc, p, locks, placed⟩
  · have still := of_still lockSeq (fun _ => rfl) glides
    omega
  · rw [placed, place_of_locks locks]
    unfold lockAndSpawn
    generalize (lockPiece _ p).flushPending = k
    have drawn := k.spawn_fresh
    generalize k.spawn = m at drawn
    exact ⟨fun alive => (drawn alive).1, rfl⟩

/-- What follows the weapons, the hash tells after any run. -/
theorem sameGears (first : AtLock seed actions dt g) (second : AtLock seed actions' dt' h)
    (same : g.hashedFields = h.hashedFields) (alive : g.phase ≠ .over)
    (alive' : h.phase ≠ .over) : SameGears g h := by
  have geared := first.geared
  have geared' := second.geared
  have weapons := weapons_of_hashedFields same
  have clock : g.dropClock = h.dropClock := by rw [geared.clock, geared'.clock, weapons]
  refine ⟨?_, clock, ?_, ?_, ?_⟩
  · rw [geared.frame, geared'.frame, weapons]
  · rw [first.fresh.1 alive, second.fresh.1 alive']
    exact congrArg Prod.fst clock
  · rw [geared.broken, geared'.broken, weapons]
  · rw [geared.active, geared'.active, geared.upside, geared'.upside, geared.human,
      geared'.human, weapons]

/-- An unstirred stream is where the count of locks says. -/
theorem undisturbed (lock : AtLock seed actions dt g) (quiet : ∀ a ∈ actions, Calm a) :
    Undisturbed (streamAt seed (g.lockSeq + 1)) g ∧ Fresh (streamAt seed g.lockSeq) g := by
  obtain ⟨stream, fresh⟩ := (@Undisturbed.run seed actions quiet).tick rfl dt
  have locked := lock.locked
  rw [← lock.played] at stream fresh
  exact ⟨stream, locked ▸ fresh locked⟩

/-- Two games of one seed, right after a lock, with the same hashed fields, agree on all
that follows the weapons; and as long as no weapon stirred the stream of either, at the
same count of locks they agree on the stream and on the piece in play. -/
theorem lock_hash_covers (first : AtLock seed actions dt g) (second : AtLock seed actions' dt' h)
    (same : g.hashedFields = h.hashedFields) (alive : g.phase ≠ .over)
    (alive' : h.phase ≠ .over) :
    SameGears g h ∧ ((∀ a ∈ actions, Calm a) → (∀ a ∈ actions', Calm a) →
      g.lockSeq = h.lockSeq → SameStream g h) := by
  refine ⟨first.sameGears second same alive alive', fun quiet quiet' count => ?_⟩
  obtain ⟨stream, fresh⟩ := first.undisturbed quiet
  obtain ⟨stream', fresh'⟩ := second.undisturbed quiet'
  rw [← count] at stream' fresh'
  obtain ⟨-, p, current, kind, cells⟩ := fresh alive
  obtain ⟨-, p', current', kind', cells'⟩ := fresh' alive'
  refine ⟨congrArg Prod.fst (stream.stream.trans stream'.stream.symm), ?_⟩
  rw [current, current', Option.map_some, Option.map_some, kind, kind', cells, cells']

end AtLock

/-- Some inputs, and a tick that carries the first piece down. -/
def toGround (inputs : List Input) : List Action := inputs.map .input ++ [.tick 20000]

/-- The first lock of seed 7, after some inputs. -/
def firstLock (inputs : List Input) : Game := ((toGround inputs).foldl act (new 7)).tick 150

/-- A step to the left and back leaves all as it was. -/
theorem lock_hash_covers_there_and_back :
    SameGears (firstLock []) (firstLock [.moveLeft, .moveRight]) ∧
      SameStream (firstLock []) (firstLock [.moveLeft, .moveRight]) := by
  have facts : ((((firstLock []).lockSeq = ((toGround []).foldl act (new 7)).lockSeq + 1 ∧
      (firstLock [.moveLeft, .moveRight]).lockSeq =
        ((toGround [.moveLeft, .moveRight]).foldl act (new 7)).lockSeq + 1) ∧
      (firstLock []).hashedFields = (firstLock [.moveLeft, .moveRight]).hashedFields) ∧
      ((firstLock []).phase ≠ .over ∧ (firstLock [.moveLeft, .moveRight]).phase ≠ .over)) ∧
      (firstLock []).lockSeq = (firstLock [.moveLeft, .moveRight]).lockSeq := by
    unfold hashedFields
    rw [Prod.mk.injEq, Prod.mk.injEq, Prod.mk.injEq, Prod.mk.injEq, Prod.mk.injEq, Prod.mk.injEq,
      Prod.mk.injEq, Prod.mk.injEq]
    decide +kernel
  have calm (inputs : List Input) (moves : ∀ i ∈ inputs, ∀ index, i ≠ .receiveWeapon index) :
      ∀ a ∈ toGround inputs, Calm a := by
    intro a mem index t same _
    subst same
    rcases List.mem_append.mp mem with input | last
    · obtain ⟨i, here, same⟩ := List.mem_map.mp input
      cases same
      exact absurd rfl (moves _ here index)
    · cases List.mem_singleton.mp last
  obtain ⟨gears, stream⟩ := AtLock.lock_hash_covers ⟨rfl, facts.1.1.1.1⟩ ⟨rfl, facts.1.1.1.2⟩
    facts.1.1.2 facts.1.2.1 facts.1.2.2
  exact ⟨gears, stream (calm _ (by simp)) (calm _ (by simp)) facts.2⟩

/-- NiceDay met once and met twice by the first lock: the second smile is not hashed. -/
theorem second_smile_unhashed :
    AtLock 7 (toGround [.receiveWeapon 20]) 150 (firstLock [.receiveWeapon 20]) ∧
      AtLock 7 (toGround [.receiveWeapon 20, .receiveWeapon 20]) 150
        (firstLock [.receiveWeapon 20, .receiveWeapon 20]) ∧
      (firstLock [.receiveWeapon 20]).hashedFields =
        (firstLock [.receiveWeapon 20, .receiveWeapon 20]).hashedFields ∧
      (firstLock [.receiveWeapon 20]).pieces.hapOn ≠
        (firstLock [.receiveWeapon 20, .receiveWeapon 20]).pieces.hapOn := by
  have facts : (((firstLock [.receiveWeapon 20]).lockSeq =
        ((toGround [.receiveWeapon 20]).foldl act (new 7)).lockSeq + 1 ∧
      (firstLock [.receiveWeapon 20, .receiveWeapon 20]).lockSeq =
        ((toGround [.receiveWeapon 20, .receiveWeapon 20]).foldl act (new 7)).lockSeq + 1) ∧
      (firstLock [.receiveWeapon 20]).hashedFields =
        (firstLock [.receiveWeapon 20, .receiveWeapon 20]).hashedFields) ∧
      (firstLock [.receiveWeapon 20]).pieces.hapOn ≠
        (firstLock [.receiveWeapon 20, .receiveWeapon 20]).pieces.hapOn := by
    unfold hashedFields
    rw [Prod.mk.injEq, Prod.mk.injEq, Prod.mk.injEq, Prod.mk.injEq, Prod.mk.injEq, Prod.mk.injEq,
      Prod.mk.injEq, Prod.mk.injEq]
    decide +kernel
  exact ⟨⟨rfl, facts.1.1.1⟩, ⟨rfl, facts.1.1.2⟩, facts.1.2, facts.2⟩

end Game

end BattleTris
