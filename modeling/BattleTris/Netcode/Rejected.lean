import BattleTris.Core.KeyframeReject
import BattleTris.Netcode.Predictor

/-!
A snapshot whose keyframe does not restore.

`on_snapshot` does not look at the result of the restore: it replays the unacked
inputs over the game it has, and starts the detection afresh.
-/

namespace BattleTris

namespace Predictor

theorem noteLock_of_seen {p : Predictor} (seen : p.lastSeenLockSeq = p.game.lockSeq) :
    p.noteLock = p := by
  unfold noteLock
  rw [if_neg (by rw [seen]; exact fun apart => apart rfl)]

/-- After a snapshot with a keyframe the detection starts from the local game. -/
theorem onSnapshot_keyframe (p : Predictor) (ack : Nat) (you opp : Bool) (bytes : List UInt8) :
    p.onSnapshot ack you opp (some bytes) = (p.prune ack you opp).reconcile bytes :=
  noteLock_of_seen rfl

end Predictor

end BattleTris
