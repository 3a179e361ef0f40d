import BattleTris.Lib.Binary64
import BattleTris.Match.Tiles

/-!
The funds that cleared lines pay, to the player and, under Mondale, to the opponent.

The ledger functions follow a tick and sum what it credits.  A tick moves that sum into
the player's funds and the thefts that wait in its queue, and neither side of the split
is ever negative.
-/

namespace BattleTris

open Loop

/-! ## Values -/

namespace Board

/-- The value of the cell fits a byte. -/
def Modest (c : Cell) : Prop := 0 ≤ c.value ∧ c.value ≤ 255

theorem modest_of_zero {c : Cell} (worthless : c.value = 0) : Modest c := by
  unfold Modest
  rw [worthless]
  decide

/-- The squares hold modest cells. -/
def valued (_ : Bool) (_ _ : Int) (c : Option Cell) : Prop := ∀ d, c = some d → Modest d

theorem worn_modest {c c' : Cell} (worn : Worn c c') (value : Modest c) : Modest c' := by
  cases worn with
  | landed =>
    unfold Cell.landed
    split
    · exact modest_of_zero rfl
    · exact value
  | gimped =>
    unfold gimpCell
    split
    · exact value
    · exact value
  | hidden => exact value

theorem tiling_valued : Tiling valued (fun _ => False) Modest where
  hard := False.elim
  plain _ := id
  coloured _ := modest_of_zero rfl
  shaped pips kind := by
    have byte := pips.toNat_lt
    cases kind with
    | die =>
      change 0 ≤ (pips.toNat : Int) ∧ (pips.toNat : Int) ≤ 255
      omega
    | happy =>
      have smile : Modest Cell.happy := by
        unfold Modest
        decide
      exact smile
    | _ => exact modest_of_zero rfl
  empties _ _ same := by cases same
  carries _ _ fits := fits
  grows _ fits _ same := by
    cases same
    exact fits
  lands _ _ fits _ same := by
    cases same
    exact fits
  takes _ _ _ same := by cases same
  wears worn fits _ same := by
    cases same
    exact worn_modest worn (fits _ rfl)
  turns fits := fits
  mirrors fits := fits
  frees _ fits := fits
  walls _ _ same := by
    cases same
    exact modest_of_zero rfl
  settles _ _ _ := id

variable {b : Board}

/-- A row of the board is worth no more than ten bytes. -/
theorem rowRun_bounds (holds : ∀ x y c, b.get x y = some c → Modest c)
    (j : Int) (n : Nat) (i value : Int) :
    value ≤ (b.rowRun j n i value).2 ∧ (b.rowRun j n i value).2 ≤ value + n * 255 := by
  induction n generalizing i value with
  | zero =>
    unfold rowRun
    dsimp only
    omega
  | succ n ih =>
    unfold rowRun
    cases found : b.get i j with
    | none =>
      dsimp only
      omega
    | some c =>
      dsimp only
      obtain ⟨low, high⟩ := holds i j c found
      obtain ⟨least, most⟩ := ih (i + 1) (value + c.value)
      push_cast
      omega

theorem Tiled.modest (tiled : b.Tiled valued) {x y : Int} {c : Cell}
    (found : b.get x y = some c) : Modest c := by
  refine tiled.squares x y ?_ c found
  exact Grid.inBounds_of_get_isSome (by
    change (b.get x y).isSome = true
    rw [found]
    rfl)

theorem checkRows_bounds (fuel : Nat) (j : Int) (b : Board) (tiled : b.Tiled valued)
    (value lines : Int) :
    (value ≤ (checkRows fuel j b value lines).2.1 ∧
      (checkRows fuel j b value lines).2.1 ≤ value + fuel * 2550) ∧
      lines ≤ (checkRows fuel j b value lines).2.2 ∧
        (checkRows fuel j b value lines).2.2 ≤ lines + fuel := by
  induction fuel generalizing j b value lines with
  | zero =>
    unfold checkRows
    dsimp only
    omega
  | succ fuel ih =>
    have row := rowRun_bounds (fun x y c => tiled.modest) j b.width.toNat 0 0
    have wide : b.width.toNat = 10 := by
      rw [tiled.standard.width]
      rfl
    rw [wide] at row
    unfold checkRows
    dsimp only
    rw [wide]
    split
    · split
      · have removed := tiling_valued.tiled_removeLine tiled j 0 b.width
        have rest := ih (if b.isActive .force then j - 1 else j) _ removed
          (value + (b.rowRun j 10 0 0).2) (lines + 1)
        push_cast
        omega
      · have frowned := tiled.of_keeps (keeps_frownRow b j)
          (tiling_valued.holds_frownRow tiled.squares j)
        have rest := ih (j - 1) _ frowned value lines
        push_cast
        omega
    · dsimp only
      omega

/-- What one check of the lines pays is no negative amount, and small. -/
theorem checkLines_funds (tiled : b.Tiled valued) :
    0 ≤ b.checkLines.1.funds ∧ b.checkLines.1.funds < 2 ^ 53 := by
  have fuel : b.checkFuel = 309 := by
    unfold checkFuel
    rw [b.size, tiled.standard.width, tiled.standard.height]
    rfl
  have rows := checkRows_bounds b.checkFuel (b.height - 1) b tiled 0 0
  rw [fuel] at rows
  unfold checkLines
  dsimp only
  rw [fuel]
  generalize checkRows 309 (b.height - 1) b 0 0 = r at rows ⊢
  obtain ⟨c, value, lines⟩ := r
  dsimp only at rows ⊢
  split
  · exact ⟨le_rfl, (by norm_num : (0 : Int) < 2 ^ 53)⟩
  · dsimp only
    constructor
    · exact mul_nonneg (by omega) (by omega)
    · calc value * lines ≤ 787950 * 309 := mul_le_mul (by omega) (by omega) (by omega) (by omega)
        _ < 2 ^ 53 := by norm_num

end Board

namespace Game

/-- What Mondale keeps of a clear is no more than the clear. -/
theorem mondaleKept_bounds {n : Int} (pos : 0 ≤ n) (small : n < 2 ^ 53) :
    0 ≤ mondaleKept n ∧ mondaleKept n ≤ n := by
  obtain ⟨k, rfl⟩ := Int.eq_ofNat_of_zero_le pos
  have rate : Binary64.Normal (1.0 - btMondaleRate) 6305039478318694 (-53) :=
    ⟨⟨by decide, rfl⟩, by decide, by decide⟩
  refine Binary64.share_bounds rate (by decide) (by decide) ?_ (by exact_mod_cast small)
  unfold Binary64.valueOf Binary64.unitError
  norm_num

/-! ## The ledger of a tick -/

variable (g : Game)

/-- The funds of the lines that a weapon turning on completes. -/
def wallFunds (t : WeaponToken) : Int :=
  if (g.switchOn t).1.lines > 0 then (g.switchOn t).1.funds else 0

/-- `flushWeapons`, with the funds it credits. -/
def flushLedger : Game × Int :=
  g.pending.foldl (fun s t => (s.1.applyWeaponOn t, s.2 + s.1.wallFunds t))
    ({ g with pending := [] }, 0)

/-- The funds of the lines that a lock clears, in the landing and in the flush. -/
def lockFunds (p : Piece) : Int :=
  ((g.signalAirslide p).landPiece p).1.funds + (g.lockPiece p).flushLedger.2

def placeFunds : Int :=
  match g.current with
  | none => 0
  | some p =>
    if ¬p.canMoveTo g.board g.x (g.y + g.deltaY) then
      lockFunds { g with current := none } p
    else 0

/-- `slideStep`, with the funds it credits. -/
def slideLedger (step : Int) (s : Game × Int) : Game × Int :=
  (slideStep step s.1, s.2 + placeFunds { s.1 with slideAccum := s.1.slideAccum - step })

def slidingFunds (dt : Int) : Int :=
  let g := { g with slideAccum := g.slideAccum + dt }
  let step := max g.slideTime 0
  if step = 0 then g.placeFunds
  else
    (whileN g.slideAccum.toNat (fun s => s.1.phase = .sliding ∧ s.1.slideAccum ≥ step)
      (slideLedger step) (g, 0)).2

/-- The clear funds that `tick` credits. -/
def tickFunds (dtMs : Int) : Int :=
  if g.paused ∨ g.inBazaar ∨ g.phase = .over ∨ dtMs ≤ 0 then 0
  else
    let g := g.tickWeapons dtMs
    match g.phase with
    | .falling => 0
    | .sliding => g.slidingFunds dtMs
    | .over => 0

/-! ## Purses -/

/-- What an event takes from its sender's clear for the opponent. -/
def theft : GameEvent → Option Int
  | .fundsStolen amount => some amount
  | _ => none

/-- The funds of a player, the thefts that wait to be relayed, and the weapons that wait
to turn on. -/
def purse (g : Game) : Int × List Int × List WeaponToken :=
  (g.score.funds, g.events.filterMap theft, g.pending)

variable {g}

theorem emit_purse {e : GameEvent} (plain : theft e = none) (g : Game) :
    (g.emit e).purse = g.purse := by
  unfold purse emit
  rw [List.filterMap_append, List.filterMap_cons_none plain, List.filterMap_nil, List.append_nil]

theorem updateBazaar_purse (g : Game) : g.updateBazaar.purse = g.purse := by
  unfold updateBazaar
  dsimp only
  split
  · exact emit_purse (e := .enterBazaar) rfl { g with inBazaar := true }
  · rfl

theorem weaponUnframe_purse (g : Game) (t : WeaponToken) : (g.weaponUnframe t).purse = g.purse := by
  cases t <;> rfl

theorem applyWeaponOff_purse (g : Game) (t : WeaponToken) :
    (g.applyWeaponOff t).purse = g.purse :=
  weaponUnframe_purse (g.switchOff t) t

theorem tickDuration_purse (lines : Int) (g : Game) (t : WeaponToken) :
    (tickDuration lines g t).purse = g.purse := by
  unfold tickDuration
  split
  · rfl
  · dsimp only
    split
    · exact applyWeaponOff_purse (g.setRemaining t _) t
    · rfl

theorem lineTick_purse (g : Game) (lines : Int) : (g.lineTick lines).purse = g.purse := by
  have ticked : (g.updateBazaar.tickDurations lines).purse = g.updateBazaar.purse :=
    foldl_invariant (P := fun h : Game => h.purse = g.updateBazaar.purse)
      (fun t _ h kept => (tickDuration_purse lines h t).trans kept) rfl
  exact ticked.trans g.updateBazaar_purse

theorem forceWeaponOff_purse (g : Game) (t : WeaponToken) :
    (g.forceWeaponOff t).purse = g.purse := by
  unfold forceWeaponOff
  split
  · exact g.applyWeaponOff_purse t
  · rfl

theorem installBoard_purse (g : Game) : g.installBoard.purse = g.purse := by
  have imported (h : Game) (cells : List Int) : (h.importBoard cells).purse = h.purse := by
    unfold importBoard
    dsimp only
    split <;> rfl
  unfold installBoard
  split
  · exact (forceWeaponOff_purse _ _).trans ((forceWeaponOff_purse _ _).trans (imported _ _))
  · rfl

theorem spawn_purse (g : Game) : g.spawn.purse = g.purse := by
  unfold spawn enterPiece
  dsimp only
  split
  · rfl
  · exact emit_purse (e := .gameOver) rfl _

theorem weaponFrame_purse {t : WeaponToken} (keating : t ≠ .keating) (reagan : t ≠ .reagan)
    (g : Game) (wasActive : Bool) : (g.weaponFrame t wasActive).purse = g.purse := by
  cases t with
  | keating => exact absurd rfl keating
  | reagan => exact absurd rfl reagan
  | _ => cases wasActive <;> rfl

theorem signalAirslide_purse (g : Game) (p : Piece) : (g.signalAirslide p).purse = g.purse := by
  unfold signalAirslide
  split
  · exact emit_purse rfl g
  · rfl

theorem landPiece_purse (g : Game) (p : Piece) : (g.landPiece p).2.purse = g.purse := by
  unfold landPiece
  generalize (p.land g.board).checkLines = r
  rfl

theorem signalIdiot_purse (g : Game) : g.signalIdiot.purse = g.purse := by
  unfold signalIdiot
  dsimp only
  split
  · exact emit_purse rfl _
  · rfl

/-! ## Paying -/

/-- The funds of a player with the thefts on their way from it. -/
def holdings (g : Game) : Int := g.purse.1 + g.purse.2.1.sum

/-- Neither the funds nor a theft is negative. -/
def Solvent (g : Game) : Prop := 0 ≤ g.purse.1 ∧ ∀ n ∈ g.purse.2.1, 0 ≤ n

/-- From `g` to `h`, `n` is credited; no new weapon waits. -/
structure Pays (n : Int) (g h : Game) : Prop where
  holdings : h.holdings = g.holdings + n
  solvent : g.Solvent → h.Solvent
  pending : ∀ t ∈ h.purse.2.2, t ∈ g.purse.2.2

theorem Pays.of_purse {h : Game} (same : h.purse = g.purse) : Pays 0 g h := by
  refine ⟨?_, ?_, ?_⟩
  · unfold Game.holdings
    rw [same, add_zero]
  · unfold Solvent
    rw [same]
    exact id
  · rw [same]
    exact fun _ => id

theorem Pays.trans {h k : Game} {m n : Int} (first : Pays m g h) (second : Pays n h k) :
    Pays (m + n) g k where
  holdings := by rw [second.holdings, first.holdings, add_assoc]
  solvent solvent := second.solvent (first.solvent solvent)
  pending t mem := first.pending t (second.pending t mem)

theorem Pays.keep {h k : Game} {n : Int} (first : Pays n g h) (same : k.purse = h.purse) :
    Pays n g k := by
  have whole := first.trans (.of_purse same)
  rwa [add_zero] at whole

/-- Whatever Mondale takes, the player's share and the theft make up the clear. -/
theorem pays_creditClearFunds {n : Int} (pos : 0 ≤ n) (small : n < 2 ^ 53) (g : Game) :
    Pays n g (g.creditClearFunds n) := by
  obtain ⟨low, high⟩ := mondaleKept_bounds pos small
  unfold creditClearFunds
  split
  · generalize mondaleKept n = kept at low high
    dsimp only
    have purse : ((g.stealTax (n - kept)).setFunds (g.score.funds + kept)).purse =
        (g.score.funds + kept, g.events.filterMap theft ++
          (if n - kept ≠ 0 then [n - kept] else []), g.pending) := by
      unfold stealTax
      split
      · unfold purse setFunds emit
        dsimp only
        rw [List.filterMap_append]
        rfl
      · rw [List.append_nil]
        rfl
    refine ⟨?_, fun solvent => ?_, ?_⟩
    · unfold holdings
      rw [purse]
      dsimp only
      rw [List.sum_append]
      change _ = g.score.funds + (g.events.filterMap theft).sum + n
      split
      · rw [List.sum_singleton]
        omega
      · rw [List.sum_nil]
        omega
    · unfold Solvent
      rw [purse]
      refine ⟨Int.add_nonneg solvent.1 low, fun m mem => ?_⟩
      rcases List.mem_append.mp mem with before | taken
      · exact solvent.2 m before
      · split at taken
        · rw [List.mem_singleton.mp taken]
          omega
        · cases taken
    · rw [purse]
      exact fun _ => id
  · refine ⟨?_, fun solvent => ⟨Int.add_nonneg solvent.1 pos, solvent.2⟩, fun _ => id⟩
    change g.score.funds + n + (g.events.filterMap theft).sum =
      g.score.funds + (g.events.filterMap theft).sum + n
    omega

/-- What a weapon turning on completes is no negative amount, and small. -/
theorem switchOn_funds (tiled : g.board.Tiled Board.valued) (t : WeaponToken) :
    0 ≤ (g.switchOn t).1.funds ∧ (g.switchOn t).1.funds < 2 ^ 53 := by
  have idle : (0 : Int) ≤ LineClear.none.funds ∧ LineClear.none.funds < 2 ^ 53 := by decide
  have walled := Board.checkLines_funds (Board.tiling_valued.tiled_walls tiled)
  change 0 ≤ ((g.board.setActive t true).applyWeapon t g.rng).1.funds ∧
    ((g.board.setActive t true).applyWeapon t g.rng).1.funds < 2 ^ 53
  cases t with
  | bottle =>
    rw [(Tiling.applyWeapon_bottle (g.board.setActive .bottle true) g.rng).1]
    exact walled
  | _ => exact idle

theorem pays_applyWeaponOn (tiled : g.board.Tiled Board.valued) {t : WeaponToken}
    (keating : t ≠ .keating) (reagan : t ≠ .reagan) :
    Pays (g.wallFunds t) g (g.applyWeaponOn t) := by
  obtain ⟨low, high⟩ := switchOn_funds tiled t
  have on : (g.switchOn t).2.purse = g.purse := rfl
  unfold applyWeaponOn wallFunds
  dsimp only
  generalize g.switchOn t = r at low high on ⊢
  have credited : Pays (if r.1.lines > 0 then r.1.funds else 0) g (r.2.creditWeaponClear r.1) := by
    unfold creditWeaponClear
    split
    · have paid := (Pays.of_purse (h := r.2.addLines r.1.lines) on).trans
        (pays_creditClearFunds low high (r.2.addLines r.1.lines))
      rw [zero_add] at paid
      exact (paid.keep (lineTick_purse _ _)).keep (emit_purse rfl _)
    · exact .of_purse on
  exact credited.keep (weaponFrame_purse keating reagan _ _)

/-- Neither Keating nor Reagan waits to turn on. -/
def Untouched (g : Game) : Prop := .keating ∉ g.pending ∧ .reagan ∉ g.pending

theorem Pays.untouched {h : Game} {n : Int} (pays : Pays n g h) (untouched : g.Untouched) :
    h.Untouched :=
  ⟨fun mem => untouched.1 (pays.pending _ mem), fun mem => untouched.2 (pays.pending _ mem)⟩

theorem pays_flush (tiled : g.board.Tiled Board.valued) (untouched : g.Untouched) :
    Pays g.flushLedger.2 g g.flushWeapons := by
  have same : g.flushLedger.1 = g.flushWeapons := by
    unfold flushLedger flushWeapons
    exact (foldl_map_comm (f := fun s t => (s.1.applyWeaponOn t, s.2 + s.1.wallFunds t))
      (g := applyWeaponOn) Prod.fst (fun _ _ _ => rfl) ({ g with pending := [] }, 0)).symm
  have drained : Pays 0 g { g with pending := [] } := by
    refine ⟨(add_zero _).symm, id, ?_⟩
    rintro t ⟨⟩
  have paid := @foldl_invariant _ _
    (fun s : Game × Int => s.1.board.Tiled Board.valued ∧ Pays s.2 g s.1)
    (fun s t => (s.1.applyWeaponOn t, s.2 + s.1.wallFunds t)) g.pending
    (fun t mem s held => ?_) ({ g with pending := [] }, 0) ⟨tiled, drained⟩
  · rw [← same]
    exact paid.2
  · obtain ⟨tiled, pays⟩ := held
    refine ⟨Board.tiling_valued.applyWeaponOn tiled t, pays.trans (pays_applyWeaponOn tiled ?_ ?_)⟩
    · rintro rfl
      exact untouched.1 mem
    · rintro rfl
      exact untouched.2 mem

theorem pays_lockPiece (tiled : g.board.Tiled Board.valued) {p : Piece}
    (cells : ∀ i j c, p.cells i j = some c → Board.Modest c) :
    Pays ((g.signalAirslide p).landPiece p).1.funds g (g.lockPiece p) := by
  have board : (g.signalAirslide p).board = g.board := by
    unfold signalAirslide
    split <;> rfl
  have landed := Board.checkLines_funds (Board.tiling_valued.tiled_land tiled
    fun i j c found => ⟨cells i j c found, id⟩)
  rw [← board] at landed
  have bounds : 0 ≤ ((g.signalAirslide p).landPiece p).1.funds ∧
      ((g.signalAirslide p).landPiece p).1.funds < 2 ^ 53 := by
    unfold landPiece
    generalize (p.land (g.signalAirslide p).board).checkLines = r at landed ⊢
    exact landed
  have purse := (landPiece_purse (g.signalAirslide p) p).trans (g.signalAirslide_purse p)
  unfold lockPiece
  dsimp only
  generalize (g.signalAirslide p).landPiece p = r at bounds purse ⊢
  have paid := (Pays.of_purse (h := r.2.addLines r.1.lines) purse).trans
    (pays_creditClearFunds bounds.1 bounds.2 (r.2.addLines r.1.lines))
  rw [zero_add] at paid
  have signalled := (paid.keep (emit_purse (e := .locked r.1.lines r.1.value r.1.funds) rfl _)).keep
    (signalIdiot_purse _)
  refine Pays.keep ?_ (emit_purse rfl _)
  split
  · exact signalled.keep (lineTick_purse _ _)
  · exact signalled

theorem pays_lockAndSpawn (tiled : g.board.Tiled Board.valued) (untouched : g.Untouched)
    {p : Piece} (cells : ∀ i j c, p.cells i j = some c → Board.Modest c) :
    Pays (g.lockFunds p) g (g.lockAndSpawn p) := by
  have locked := pays_lockPiece tiled cells
  have board : (g.lockPiece p).board.Tiled Board.valued :=
    Board.tiling_valued.lockPiece tiled fun i j c found => ⟨cells i j c found, id⟩
  have flushed := locked.trans (pays_flush board (locked.untouched untouched))
  have spawned := (flushed.keep (installBoard_purse _)).keep (spawn_purse _)
  unfold lockAndSpawn flushPending lockFunds
  generalize (g.lockPiece p).flushWeapons.installBoard.spawn = k at spawned ⊢
  exact spawned.keep rfl

/-- A game whose squares and piece hold modest cells, and so does a waiting board. -/
def Valued (g : Game) : Prop :=
  g.Tiled Board.valued (fun _ => False) Board.Modest fun cells =>
    ∃ h : Game, h.board.Tiled Board.valued ∧ cells = h.exportBoard

theorem pays_place (valued : g.Valued) (untouched : g.Untouched) :
    Pays g.placeFunds g (g.place false) := by
  unfold placeFunds
  cases current : g.current with
  | none =>
    have idle : g.place false = g := by
      unfold place
      rw [current]
    rw [idle]
    exact .of_purse rfl
  | some p =>
    dsimp only
    split
    · next stuck =>
      have cells := (valued.stands p current).2.2
      have paid := pays_lockAndSpawn (g := { g with current := none }) valued.board untouched
        fun i j c found => (cells i j c found).1
      have whole := (Pays.of_purse (g := g) (h := { g with current := none }) rfl).trans paid
      rw [zero_add] at whole
      rw [place_of_locks ⟨current, stuck⟩]
      generalize lockAndSpawn { g with current := none } p = k at whole ⊢
      exact whole.keep rfl
    · next room =>
      have resumed : g.place false = (g.resumeFall p).setSliding 0 := by
        unfold place
        rw [current]
        dsimp only
        rw [if_neg (by simpa using room)]
      rw [resumed]
      exact .of_purse rfl

/-! ## A tick -/

theorem imports_valued : Tiled.Imports Board.valued fun cells =>
    ∃ h : Game, h.board.Tiled Board.valued ∧ cells = h.exportBoard := by
  rintro g cells ⟨h, sent, rfl⟩ tiled
  have wide : 0 ≤ h.board.width := by
    rw [sent.standard.width]
    decide
  have tall : 0 ≤ h.board.height := by
    rw [sent.standard.height]
    decide
  obtain ⟨keeps, squares⟩ := importBoard_exportBoard (g := h) (h := g) wide tall
    (tiled.standard.width.trans sent.standard.width.symm)
    (tiled.standard.height.trans sent.standard.height.symm)
  refine tiled.of_keeps keeps fun x y _ c found => ?_
  have there : h.board.get x y = some c := by
    rw [← found]
    exact congrArg (·.get x y) squares.symm
  exact sent.modest there

theorem Valued.place (valued : g.Valued) : (g.place false).Valued := by
  rcases g.place_cases with ⟨-, same⟩ | ⟨-, glides | ⟨p, locks⟩⟩
  · rw [same]
    exact valued
  · exact valued.of_still glides (valued.stands.place Board.tiling_valued.footing)
  · exact Tiled.place Board.tiling_valued imports_valued valued locks

theorem Untouched.of_purse {h : Game} (untouched : g.Untouched) (same : h.purse = g.purse) :
    h.Untouched :=
  (Pays.of_purse same).untouched untouched

/-- The loop of the lock delay runs beside its ledger. -/
theorem slideLedger_fst (step : Int) (fuel : Nat) (s : Game × Int) :
    whileN fuel (fun g => g.phase = .sliding ∧ g.slideAccum ≥ step) (slideStep step) s.1 =
      (whileN fuel (fun s : Game × Int => s.1.phase = .sliding ∧ s.1.slideAccum ≥ step)
        (slideLedger step) s).1 :=
  whileN_comm Prod.fst (fun _ => rfl) (fun _ => rfl) fuel s

theorem pays_tickSliding (valued : g.Valued) (untouched : g.Untouched) (dt : Int) :
    Pays (g.slidingFunds dt) g (g.tickSliding dt) := by
  have delayed : (g.slideAt (g.slideAccum + dt)).Valued :=
    valued.of_still rfl fun p playing => valued.stands p playing
  have begun : Pays 0 g (g.slideAt (g.slideAccum + dt)) := .of_purse rfl
  unfold slidingFunds tickSliding
  dsimp only
  split
  · have paid := begun.trans (pays_place delayed (begun.untouched untouched))
    rwa [zero_add] at paid
  · have along := slideLedger_fst (max g.slideTime 0) (g.slideAccum + dt).toNat
      ({ g with slideAccum := g.slideAccum + dt }, 0)
    rw [along]
    refine (whileN_invariant
      (P := fun s : Game × Int => s.1.Valued ∧ s.1.Untouched ∧ Pays s.2 g s.1) ?_ _
      ⟨delayed, begun.untouched untouched, begun⟩).2.2
    rintro ⟨h, n⟩ _ ⟨valued, untouched, pays⟩
    -- one round takes its step off the clock and places the piece
    have ready : (h.slideAt (h.slideAccum - max g.slideTime 0)).Valued :=
      valued.of_still rfl fun p playing => valued.stands p playing
    have placed := pays_place ready (untouched.of_purse rfl)
    have paid := (pays.keep (k := h.slideAt (h.slideAccum - max g.slideTime 0)) rfl).trans placed
    exact ⟨ready.place, placed.untouched (untouched.of_purse rfl), paid⟩

theorem of_still_purse {h : Game} (still : h.still = g.still) : h.purse = g.purse :=
  of_still Game.purse (fun _ => rfl) still

/-- A tick credits the clear funds of its locks, to the player or to a theft. -/
theorem pays_tick (valued : g.Valued) (untouched : g.Untouched) (dtMs : Int) :
    Pays (g.tickFunds dtMs) g (g.tick dtMs) := by
  have timed := of_still_purse (g.tickWeapons_still dtMs)
  have moved : (g.tickWeapons dtMs).Valued :=
    valued.of_still (g.tickWeapons_still dtMs)
      (valued.stands.tickWeapons Board.tiling_valued.footing dtMs)
  unfold tickFunds tick
  split
  · exact .of_purse rfl
  · dsimp only
    generalize g.tickWeapons dtMs = k at timed moved
    rcases k.phase with _ | _ | _
    · exact .of_purse ((of_still_purse (k.tickFalling_still dtMs)).trans timed)
    · have paid := (Pays.of_purse timed).trans
        (pays_tickSliding moved (untouched.of_purse timed) dtMs)
      rwa [zero_add] at paid
    · exact .of_purse timed

theorem Valued.tick (valued : g.Valued) (dtMs : Int) : (g.tick dtMs).Valued :=
  Tiled.tick Board.tiling_valued imports_valued valued dtMs

end Game

end BattleTris
