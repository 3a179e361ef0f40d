import BattleTris.Core.Framing
import BattleTris.Core.Versus

/-!
The inputs a host applies to one player's game.
-/

namespace BattleTris

/-- One state-changing action on a game.  The last five but one arrive from
outside the board; `grantWeapon` is the recorded form of an admin grant. -/
inductive Input where
  | moveLeft
  | moveRight
  | rotate
  | beginDrop
  | aiDrop
  | softDrop
  | launchWeapon (slot : Nat)
  | buyWeapon (index : Int)
  | sellWeapon (index : Int)
  | leaveBazaar
  | setPaused (paused : Bool)
  | receiveWeapon (index : Int)
  | receiveOpScore (score lines funds : Int)
  | addFunds (amount : Int)
  | grantWeapon (index : Int)
  deriving DecidableEq

namespace Input

/-- Act on the token of an index; an index outside the table does nothing. -/
def onToken (index : Int) (f : WeaponToken → Game → Game) (g : Game) : Game :=
  match WeaponToken.fromIndex index with
  | some tok => f tok g
  | none => g

/-- The one decoding of an input. -/
def applyToGame (i : Input) (g : Game) : Game :=
  match i with
  | .moveLeft => g.moveLeft
  | .moveRight => g.moveRight
  | .rotate => g.rotate
  | .beginDrop => g.beginDrop
  | .aiDrop => g.aiBeginDrop
  | .softDrop => g.softDrop
  | .launchWeapon slot => g.launchWeapon slot
  | .buyWeapon t => onToken t (fun tok g => (g.buyWeapon tok).2) g
  | .sellWeapon t => onToken t (fun tok g => (g.sellWeapon tok).2) g
  | .leaveBazaar => g.leaveBazaar
  | .setPaused p => g.setPaused p
  | .receiveWeapon t => onToken t (fun tok g => g.receiveWeapon tok) g
  | .receiveOpScore score lines funds => g.receiveOpScore score lines funds
  | .addFunds amount => g.addFunds amount
  | .grantWeapon t => onToken t (fun tok g => (g.grantWeapon tok).2) g

/-- The input a client gets for a relay event; the opponent's funds stay out. -/
def ofRelayEvent : RelayEvent → Input
  | .receiveWeapon t => .receiveWeapon t.index
  | .receiveOpScore score lines => .receiveOpScore score lines 0
  | .addFunds amount => .addFunds amount

@[simp] theorem applyToGame_receiveWeapon_index (t : WeaponToken) (g : Game) :
    (receiveWeapon t.index).applyToGame g = g.receiveWeapon t := by
  simp only [applyToGame, onToken, WeaponToken.fromIndex_index]

theorem onToken_sameCore {f : WeaponToken → Game → Game}
    (comm : ∀ t es n g, f t (Game.framed es n g) = (f t g).framed es n)
    (index : Int) {g h : Game} (same : g.SameCore h) :
    (onToken index f g).SameCore (onToken index f h) := by
  unfold onToken
  cases WeaponToken.fromIndex index with
  | none => exact same
  | some tok => exact same.map (comm tok)

/-- Inputs respect games that differ in the event queue and the funds mirror. -/
theorem applyToGame_sameCore (i : Input) {g h : Game} (same : g.SameCore h) :
    (i.applyToGame g).SameCore (i.applyToGame h) := by
  cases i with
  | moveLeft => exact same.map fun es n => Game.moveLeft_dressed (Game.frame es n)
  | moveRight => exact same.map fun es n => Game.moveRight_dressed (Game.frame es n)
  | rotate => exact same.map fun es n => Game.rotate_dressed (Game.frame es n)
  | beginDrop => exact same.map fun es n g => Game.dropFor_dressed (Game.frame es n) g _
  | aiDrop => exact same.map fun es n g => Game.dropFor_dressed (Game.frame es n) g _
  | softDrop => exact same.map fun es n => Game.softDrop_dressed (Game.frame es n)
  | launchWeapon slot =>
    exact same.map fun es n g => Game.launchWeapon_dressed (Game.frame es n) g slot
  | buyWeapon t =>
    exact onToken_sameCore (fun tok es n g => Game.buyWeapon_framed es n g tok) t same
  | sellWeapon t =>
    exact onToken_sameCore (fun tok es n g => Game.sellWeapon_framed es n g tok) t same
  | leaveBazaar => exact same.map fun _ _ _ => rfl
  | setPaused p => exact same.map fun _ _ _ => rfl
  | receiveWeapon t => exact onToken_sameCore (fun _ _ _ _ => rfl) t same
  | receiveOpScore score lines funds => exact same.receiveOpScore score lines funds funds
  | addFunds amount => exact same.map fun es n g => Game.addFunds_framed es n g amount
  | grantWeapon t =>
    exact onToken_sameCore
      (fun tok es n g => Game.grantWeapon_dressed (Game.frame es n) g tok) t same

end Input

end BattleTris
