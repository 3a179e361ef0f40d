import BattleTris.Netcode.Wire

/-!
A keyframe and the unacked inputs over it.

The server gates an input by both sides' bazaars, the client replays it by its own game alone.
That they agree is no fact about the two gates: it is what the handshake says of the inputs that
can still be unacked when the snapshot arrives.
-/

namespace BattleTris

open Numbered

/-- Nothing is bought or sold behind a request to leave. -/
def Tidy (inputs : List (Nat × Input)) : Prop :=
  inputs.Pairwise fun e f => e.2 = .leaveBazaar → isShopping f.2 = false

/-- Numbered upwards from past the ack, and legal. -/
structure Unserved (ack : Nat) (inputs : List (Nat × Input)) : Prop where
  rising : Rising inputs
  past : ∀ e ∈ inputs, ack < e.1
  legal : ∀ e ∈ inputs, isLegalClientInput e.2 = true

namespace Bout

variable {x : Side} {b : Bout} {g : Game} {i : Input} {n : Nat} {e : Nat × Input}
  {inputs : List (Nat × Input)}

end Bout

namespace Wire

variable {x : Side} {w : Wire}

theorem Inv.unserved (inv : Inv x w) : Unserved (w.bout.ack x) w.upstream := by
  rw [inv.upstream]
  exact ⟨inv.rising.beyond _, fun e mem => (mem_beyond.mp mem).2,
    fun e mem => inv.legal e (mem_beyond.mp mem).1⟩

end Wire

end BattleTris
