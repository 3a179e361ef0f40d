import BattleTris.Core.Bazaar
import BattleTris.Match.Locks

/-!
What moves the score and the lines: no tick moves the score, and the lines only grow.
-/

namespace BattleTris

open Loop

/-! ## Lines of a check -/

namespace Board

theorem le_checkRows (fuel : Nat) (j : Int) (b : Board) (value lines : Int) :
    lines ≤ (checkRows fuel j b value lines).2.2 := by
  induction fuel generalizing j b value lines with
  | zero => exact le_rfl
  | succ fuel ih =>
    unfold checkRows
    dsimp only
    split
    · split
      · exact (Int.le_add_of_nonneg_right one_pos.le).trans (ih _ _ _ _)
      · exact ih _ _ _ _
    · exact le_rfl

theorem checkLines_nonneg (b : Board) : 0 ≤ b.checkLines.1.lines := by
  have rows := le_checkRows b.checkFuel (b.height - 1) b 0 0
  unfold checkLines
  dsimp only
  generalize checkRows b.checkFuel (b.height - 1) b 0 0 = r at rows ⊢
  obtain ⟨c, value, lines⟩ := r
  dsimp only at rows ⊢
  split
  · exact le_rfl
  · exact rows

end Board

namespace Game

/-- The score and the lines. -/
def tally (g : Game) : Int × Int := (g.score.score, g.score.lines)

/-- From `g` to `h` the score stays, and the lines have not gone down. -/
structure Scores (g h : Game) : Prop where
  score : h.score.score = g.score.score
  lines : g.score.lines ≤ h.score.lines

namespace Scores

variable {g h k : Game}

theorem of_tally (same : h.tally = g.tally) : Scores g h where
  score := congrArg Prod.fst same
  lines := (congrArg Prod.snd same).ge

theorem trans (first : Scores g h) (second : Scores h k) : Scores g k where
  score := second.score.trans first.score
  lines := first.lines.trans second.lines

theorem addLines (g : Game) {lines : Int} (some : 0 ≤ lines) : Scores g (g.addLines lines) where
  score := rfl
  lines := Int.le_add_of_nonneg_right some

end Scores

/-- What leaves all but the piece in play and the points alone leaves the lines alone. -/
theorem lines_of_still {g h : Game} (same : h.still = g.still) : h.score.lines = g.score.lines :=
  of_still (·.score.lines) (fun _ => rfl) same

/-! ## Credits and durations -/

theorem creditClearFunds_tally (g : Game) (funds : Int) :
    (g.creditClearFunds funds).tally = g.tally := by
  have stolen (tax : Int) : (g.stealTax tax).tally = g.tally := by
    unfold stealTax
    split <;> rfl
  unfold creditClearFunds
  split
  · exact stolen _
  · rfl

theorem updateBazaar_tally (g : Game) : g.updateBazaar.tally = g.tally := by
  unfold updateBazaar
  dsimp only
  split <;> rfl

theorem applyWeaponOff_tally (g : Game) (t : WeaponToken) :
    (g.applyWeaponOff t).tally = g.tally := by
  have unframed (h : Game) : (h.weaponUnframe t).tally = h.tally := by
    cases t <;> rfl
  exact unframed (g.switchOff t)

theorem tickDuration_tally (lines : Int) (g : Game) (t : WeaponToken) :
    (tickDuration lines g t).tally = g.tally := by
  unfold tickDuration
  dsimp only
  split
  · rfl
  · split
    · exact applyWeaponOff_tally _ t
    · rfl

theorem lineTick_tally (g : Game) (lines : Int) : (g.lineTick lines).tally = g.tally :=
  foldl_invariant (P := fun h : Game => h.tally = g.tally)
    (fun t _ h kept => (tickDuration_tally lines h t).trans kept) g.updateBazaar_tally

/-! ## Weapons -/

theorem scores_creditWeaponClear (g : Game) (clear : LineClear) :
    Scores g (g.creditWeaponClear clear) := by
  unfold creditWeaponClear
  split
  · next some =>
    have credited := creditClearFunds_tally (g.addLines clear.lines) clear.funds
    have counted := (lineTick_tally _ clear.lines).trans credited
    exact (Scores.addLines g some.le).trans (Scores.of_tally counted)
  · exact .of_tally rfl

theorem scores_applyWeaponOn (g : Game) (t : WeaponToken) : Scores g (g.applyWeaponOn t) := by
  have switched : (g.switchOn t).2.tally = g.tally := by
    unfold switchOn
    generalize g.boardWeapon t = r
    rfl
  have credited := scores_creditWeaponClear (g.switchOn t).2 (g.switchOn t).1
  have framed (h : Game) (wasActive : Bool) : (h.weaponFrame t wasActive).tally = h.tally := by
    cases t <;> cases wasActive <;> rfl
  exact ((Scores.of_tally switched).trans credited).trans (.of_tally (framed _ _))

theorem scores_flushWeapons (g : Game) : Scores g g.flushWeapons :=
  foldl_invariant (P := Scores g) (fun t _ h kept => kept.trans (scores_applyWeaponOn h t))
    (.of_tally rfl)

theorem installBoard_tally (g : Game) : g.installBoard.tally = g.tally := by
  have forced (h : Game) (t : WeaponToken) : (h.forceWeaponOff t).tally = h.tally := by
    unfold forceWeaponOff
    split
    · exact applyWeaponOff_tally h t
    · rfl
  have imported (h : Game) (data : List Int) : (h.importBoard data).tally = h.tally := by
    unfold importBoard
    dsimp only
    split <;> rfl
  unfold installBoard
  split
  · next cells _ =>
    exact (forced _ .upbyside).trans
      ((forced _ .bottle).trans (imported { g with pendingBoard := none } cells))
  · rfl

/-! ## Locks and ticks -/

theorem signalAirslide_tally (g : Game) (p : Piece) : (g.signalAirslide p).tally = g.tally := by
  unfold signalAirslide
  split <;> rfl

theorem signalIdiot_tally (g : Game) : g.signalIdiot.tally = g.tally := by
  unfold signalIdiot
  dsimp only
  split <;> rfl

theorem landPiece_tally (g : Game) (p : Piece) :
    (g.landPiece p).2.tally = g.tally ∧ 0 ≤ (g.landPiece p).1.lines := by
  have some := Board.checkLines_nonneg (p.land g.board)
  unfold landPiece
  generalize (p.land g.board).checkLines = r at some
  exact ⟨rfl, some⟩

theorem scores_lockPiece (g : Game) (p : Piece) : Scores g (g.lockPiece p) := by
  obtain ⟨landed, some⟩ := landPiece_tally (g.signalAirslide p) p
  rw [signalAirslide_tally] at landed
  unfold lockPiece
  dsimp only
  generalize (g.signalAirslide p).landPiece p = r at landed some
  have added := (Scores.of_tally landed).trans (.addLines r.2 some)
  have credited := creditClearFunds_tally (r.2.addLines r.1.lines) r.1.funds
  generalize (r.2.addLines r.1.lines).creditClearFunds r.1.funds = c at credited
  have signalled :=
    (signalIdiot_tally (c.emit (.locked r.1.lines r.1.value r.1.funds))).trans credited
  generalize (c.emit (.locked r.1.lines r.1.value r.1.funds)).signalIdiot = d at signalled
  have ticked : (if r.1.lines > 0 then d.lineTick r.1.lines else d).tally =
      (r.2.addLines r.1.lines).tally := by
    split
    · exact (lineTick_tally d r.1.lines).trans signalled
    · exact signalled
  exact added.trans (.of_tally ticked)

theorem spawn_tally (g : Game) : g.spawn.tally = g.tally := by
  have entered (h : Game) (p : Piece) : (h.enterPiece p).tally = h.tally := by
    unfold enterPiece
    dsimp only
    split <;> rfl
  exact entered (g.setStream _ _) _

theorem scores_lockAndSpawn (g : Game) (p : Piece) : Scores g (g.lockAndSpawn p) := by
  have flushed := (scores_lockPiece g p).trans (scores_flushWeapons (g.lockPiece p))
  have installed := flushed.trans (.of_tally (installBoard_tally _))
  have spawned := installed.trans (.of_tally (spawn_tally (g.lockPiece p).flushPending))
  unfold lockAndSpawn
  generalize (g.lockPiece p).flushPending.spawn = h at spawned
  exact spawned.trans (.of_tally rfl)

/-- A tick moves neither: the lines grow at its lock, if it has one. -/
theorem tick_lines (g : Game) (dt : Int) : g.score.lines ≤ (g.tick dt).score.lines := by
  rcases g.tick_cases dt with glides | ⟨acc, p, locks, placed⟩
  · exact (lines_of_still glides).ge
  · have timed := lines_of_still (g.tickWeapons_still dt)
    have locked := scores_lockAndSpawn { (g.tickWeapons dt).slideAt acc with current := none } p
    rw [placed, place_of_locks locks]
    generalize lockAndSpawn _ p = h at locked
    exact timed.ge.trans locked.lines

/-! ## Messages and inputs -/

theorem addFunds_lines (g : Game) (amount : Int) :
    (g.addFunds amount).score.lines = g.score.lines := by
  unfold addFunds
  split <;> rfl

theorem receiveOpScore_lines (g : Game) (score lines funds : Int) :
    (g.receiveOpScore score lines funds).score.lines = g.score.lines := by
  have raised : ((g.mirrorScore score funds).raiseStack (lines - g.score.opLines)).score.lines =
      g.score.lines := by
    unfold raiseStack
    split
    · refine forRange_invariant (P := fun h : Game => h.score.lines = g.score.lines)
        (fun _ h _ _ kept => ?_) rfl
      exact kept
    · rfl
  unfold receiveOpScore
  exact (congrArg Prod.snd (updateBazaar_tally _)).trans raised

theorem launchWeapon_lines (g : Game) (slot : Nat) :
    (g.launchWeapon slot).score.lines = g.score.lines := by
  unfold launchWeapon
  split
  · rfl
  · cases g.arsenal.token slot <;> rfl

end Game

/-- No input touches the lines. -/
theorem Input.applyToGame_lines (i : Input) (g : Game) :
    (i.applyToGame g).score.lines = g.score.lines := by
  have bought (t : WeaponToken) (g : Game) : (g.buyWeapon t).2.score.lines = g.score.lines := by
    rcases g.buyWeapon_cases t with refused | ⟨-, -, a, -, paid⟩
    · rw [refused]
    · rw [paid]
      rfl
  have sold (t : WeaponToken) (g : Game) : (g.sellWeapon t).2.score.lines = g.score.lines := by
    rcases g.sellWeapon_cases t with refused | ⟨a, -, paid⟩
    · rw [refused]
    · rw [paid]
      rfl
  have token {f : WeaponToken → Game → Game}
      (kept : ∀ t g, (f t g).score.lines = g.score.lines) (index : Int) :
      (onToken index f g).score.lines = g.score.lines :=
    onToken_kept (·.score.lines) kept index g
  cases i with
  | moveLeft => exact Game.lines_of_still (g.shift_still g.leftX)
  | moveRight => exact Game.lines_of_still (g.shift_still g.rightX)
  | rotate => exact Game.lines_of_still g.rotate_still
  | beginDrop => exact Game.lines_of_still (g.dropFor_still _)
  | aiDrop => exact Game.lines_of_still (g.dropFor_still _)
  | softDrop => exact Game.lines_of_still g.softDrop_still
  | launchWeapon slot => exact g.launchWeapon_lines slot
  | buyWeapon t => exact token bought t
  | sellWeapon t => exact token sold t
  | leaveBazaar => rfl
  | setPaused p => rfl
  | receiveWeapon t => exact token (f := fun t g => g.receiveWeapon t) (fun _ _ => rfl) t
  | receiveOpScore score lines funds => exact g.receiveOpScore_lines score lines funds
  | addFunds amount => exact g.addFunds_lines amount
  | grantWeapon t => exact token (f := fun t g => (g.grantWeapon t).2) (fun _ _ => rfl) t

end BattleTris
