import BattleTris.Core.Gliding
import BattleTris.Replay.Input

/-!
The count of locks: a tick adds one at most, and nothing else moves it.
-/

namespace BattleTris

open Loop

namespace Game

theorem spawn_lockSeq (g : Game) : g.spawn.lockSeq = g.lockSeq := by
  have entered (h : Game) (p : Piece) : (h.enterPiece p).lockSeq = h.lockSeq := by
    unfold enterPiece
    dsimp only
    split <;> rfl
  exact entered (g.setStream _ _) _

/-- The next piece counts the lock. -/
theorem markedSpawn_lockSeq (g : Game) :
    (g.spawn.markLock.setSliding 0).lockSeq = g.lockSeq + 1 := by
  have spawned := g.spawn_lockSeq
  generalize g.spawn = h at spawned
  rw [← spawned]
  rfl

theorem installBoard_lockSeq (g : Game) : g.installBoard.lockSeq = g.lockSeq :=
  congrArg (·.2.2.1) g.installBoard_held

theorem place_lockSeq {g : Game} {p : Piece} (locks : g.Locks p) :
    (g.place false).lockSeq = g.lockSeq + 1 := by
  have landed := (g.installing p).installBoard_lockSeq
  have kept := lockSeq_of_held ((flushWeapons_held _).trans
    (lockPiece_held { g with current := none } p))
  rw [place_of_locks locks]
  unfold lockAndSpawn flushPending
  rw [markedSpawn_lockSeq]
  exact congrArg (· + 1) (landed.trans kept)

/-- A tick locks once at most. -/
theorem tick_lockSeq (g : Game) (dt : Int) :
    (g.tick dt).lockSeq = g.lockSeq ∨ (g.tick dt).lockSeq = g.lockSeq + 1 := by
  rcases g.tick_cases dt with glides | ⟨acc, p, locks, placed⟩
  · exact .inl (of_still lockSeq (fun _ => rfl) glides)
  · right
    have moved : ((g.tickWeapons dt).slideAt acc).lockSeq = g.lockSeq :=
      of_still lockSeq (fun _ => rfl) (g.tickWeapons_still dt)
    rw [placed, place_lockSeq locks, moved]

/-! ## Inputs -/

theorem raiseStack_held (g : Game) (lines : Int) : (g.raiseStack lines).held = g.held := by
  unfold raiseStack
  split
  · refine forRange_invariant (P := fun h : Game => h.held = g.held) (fun _ h _ _ kept => ?_) rfl
    exact kept
  · rfl

theorem receiveOpScore_held (g : Game) (score lines funds : Int) :
    (g.receiveOpScore score lines funds).held = g.held := by
  have raised := (g.mirrorScore score funds).raiseStack_held (lines - g.score.opLines)
  unfold receiveOpScore
  exact (updateBazaar_held _).trans raised

theorem launchWeapon_held (g : Game) (slot : Nat) : (g.launchWeapon slot).held = g.held := by
  unfold launchWeapon
  split
  · rfl
  · cases g.arsenal.token slot <;> rfl

theorem addFunds_held (g : Game) (amount : Int) : (g.addFunds amount).held = g.held := by
  unfold addFunds
  split <;> rfl

theorem buyWeapon_held (g : Game) (t : WeaponToken) : (g.buyWeapon t).2.held = g.held := by
  unfold buyWeapon
  split
  · rfl
  · dsimp only
    split
    · rfl
    · split <;> rfl

theorem sellWeapon_held (g : Game) (t : WeaponToken) : (g.sellWeapon t).2.held = g.held := by
  unfold sellWeapon
  split
  · rfl
  · dsimp only
    split <;> rfl

end Game

namespace Input

theorem onToken_kept {α : Type} (read : Game → α) {f : WeaponToken → Game → Game}
    (kept : ∀ t g, read (f t g) = read g) (index : Int) (g : Game) :
    read (onToken index f g) = read g := by
  unfold onToken
  cases WeaponToken.fromIndex index with
  | none => rfl
  | some t => exact kept t g

/-- No input locks a piece. -/
theorem applyToGame_lockSeq (i : Input) (g : Game) : (i.applyToGame g).lockSeq = g.lockSeq := by
  have still {h : Game} (same : h.still = g.still) : h.lockSeq = g.lockSeq :=
    Game.of_still Game.lockSeq (fun _ => rfl) same
  cases i with
  | moveLeft => exact still (g.shift_still g.leftX)
  | moveRight => exact still (g.shift_still g.rightX)
  | rotate => exact still g.rotate_still
  | beginDrop => exact still (g.dropFor_still _)
  | aiDrop => exact still (g.dropFor_still _)
  | softDrop => exact still g.softDrop_still
  | launchWeapon slot => exact Game.lockSeq_of_held (g.launchWeapon_held slot)
  | buyWeapon t =>
    exact onToken_kept Game.lockSeq (fun t g => Game.lockSeq_of_held (g.buyWeapon_held t)) t g
  | sellWeapon t =>
    exact onToken_kept Game.lockSeq (fun t g => Game.lockSeq_of_held (g.sellWeapon_held t)) t g
  | leaveBazaar => rfl
  | setPaused p => rfl
  | receiveWeapon t =>
    exact onToken_kept (f := fun t g => g.receiveWeapon t) Game.lockSeq (fun _ _ => rfl) t g
  | receiveOpScore score lines funds =>
    exact Game.lockSeq_of_held (g.receiveOpScore_held score lines funds)
  | addFunds amount => exact Game.lockSeq_of_held (g.addFunds_held amount)
  | grantWeapon t =>
    exact onToken_kept (f := fun t g => (g.grantWeapon t).2) Game.lockSeq (fun _ _ => rfl) t g

end Input

end BattleTris
