import BattleTris.Match.Barrier
import BattleTris.Netcode.Handshake
import BattleTris.Server.Effects
import BattleTris.Server.Reading

/-!
A predictor and its side of a bout, joined by two channels that keep the order and lose nothing.

The client predicts, and reads the server's snapshots as they arrive; the server takes the
client's inputs as they arrive, and builds a snapshot whenever it likes.  Both ends seen together
are a `Handshake`, so what holds of every handshake holds here.
-/

namespace BattleTris

open Numbered

/-! ## Where the server stands -/

/-- What an input is to the barrier. -/
def Input.kind : Input → InputKind
  | .leaveBazaar => .leave
  | .buyWeapon _ | .sellWeapon _ => .shop
  | _ => .play

theorem Input.kind_leave {i : Input} : i.kind = .leave ↔ i = .leaveBazaar := by
  cases i <;> simp [kind]

theorem Input.kind_shop {i : Input} : i.kind = .shop ↔ isShopping i = true := by
  cases i <;> simp [kind, isShopping]

theorem Input.kind_play {i : Input} : i.kind = .play ↔ isBazaarInput i = false := by
  cases i <;> simp [kind, isBazaarInput]

theorem Input.plays_of_legal {i : Input} (legal : isLegalClientInput i = true) : i.Plays := by
  rintro score lines funds rfl
  cases legal

/-- A legal input leaves the bazaar, or leaves it alone. -/
theorem Input.inBazaar_applyToGame {i : Input} (legal : isLegalClientInput i = true) (g : Game) :
    (i.applyToGame g).inBazaar = (g.inBazaar && decide (i.kind ≠ .leave)) := by
  by_cases leaves : i = .leaveBazaar
  · rw [leaves]
    exact (Bool.and_false _).symm
  · have other : i.kind ≠ .leave := fun same => leaves (kind_leave.mp same)
    rw [decide_eq_true other, Bool.and_true]
    obtain same | talks := Game.talks_applyToGame (plays_of_legal legal) g
    · exact absurd same leaves
    · exact congrArg (·.opened) talks.party

namespace Bout

/-- What a snapshot for side `x` says of the acks and of the barrier. -/
def mark (b : Bout) (x : Side) : Mark :=
  ⟨b.ack x, (b.versus.game x).inBazaar, (b.versus.game x.other).inBazaar⟩

/-- A step of the server that the mark of side `x` does not show. -/
structure Still (x : Side) (b b' : Bout) : Prop where
  settled : b.versus.Settled → b'.versus.Settled
  regular : (∀ s, (b.versus.game s).Regular) → ∀ s, (b'.versus.game s).Regular
  mark : b'.mark x = b.mark x

variable {x : Side} {b b' b'' : Bout}

theorem Still.trans (first : Still x b b') (second : Still x b' b'') : Still x b b'' :=
  ⟨fun settled => second.settled (first.settled settled),
    fun regular => second.regular (first.regular regular), second.mark.trans first.mark⟩

theorem Still.of_games (games : ∀ s, b'.versus.game s = b.versus.game s)
    (ack : b'.ack x = b.ack x) : Still x b b' := by
  refine ⟨fun settled => ⟨fun s => ?_, fun s => ?_, fun s => ?_⟩, fun regular s => ?_, ?_⟩
  · rw [games, games]
    exact settled.mirror s
  · rw [games]
    exact settled.counting s
  · rw [games]
    exact settled.news s
  · rw [games]
    exact regular s
  · unfold Bout.mark
    rw [games, games, ack]

/-- The inputs of either side that do not leave the bazaar. -/
theorem Still.modify (b : Bout) (x y : Side) {i : Input} (plays : i.Plays)
    (stays : i ≠ .leaveBazaar) :
    Still x b { b with versus := b.versus.modify y i.applyToGame } := by
  have game (s : Side) : (b.versus.modify y i.applyToGame).game s =
      if s = y then i.applyToGame (b.versus.game s) else b.versus.game s :=
    Versus.game_modify ..
  have kept (s : Side) :
      ((b.versus.modify y i.applyToGame).game s).inBazaar = (b.versus.game s).inBazaar := by
    rw [game]
    split
    · obtain leaves | talks := Game.talks_applyToGame plays (b.versus.game s)
      · exact absurd leaves stays
      · exact congrArg (·.opened) talks.party
    · rfl
  refine ⟨fun settled => settled.input y plays, fun regular s => ?_, ?_⟩
  · change ((b.versus.modify y i.applyToGame).game s).Regular
    rw [game]
    split
    · exact (regular s).applyToGame i
    · exact regular s
  · unfold Bout.mark
    dsimp only
    rw [kept, kept]

theorem still_debugGrant (b : Bout) (x side : Side) (weapon : Option WeaponToken)
    (funds : Option Int) : Still x b (b.debugGrant side weapon funds).2 := by
  have armed (b : Bout) : Still x b (b.grantWeapon side weapon).2 := by
    cases weapon with
    | none => exact .of_games (fun _ => rfl) rfl
    | some t =>
      have granted := Still.modify b x side (i := .grantWeapon t.index)
        (fun _ _ _ same => by cases same) (fun same => by cases same)
      have same : (Input.grantWeapon t.index).applyToGame = fun g => (g.grantWeapon t).2 := by
        funext g
        simp only [Input.applyToGame, Input.onToken, WeaponToken.fromIndex_index]
      rw [same] at granted
      exact granted
  have funded (b : Bout) : Still x b (b.grantFunds side funds).2 := by
    cases funds with
    | none => exact .of_games (fun _ => rfl) rfl
    | some amount =>
      unfold grantFunds
      dsimp only
      split
      · exact Still.modify b x side (i := .addFunds amount)
          (fun _ _ _ same => by cases same) (fun same => by cases same)
      · exact .of_games (fun _ => rfl) rfl
  have recorded (b : Bout) (landed : Bool) (input : Option Input) :
      Still x b (b.recordGrant side landed input) := by
    obtain ⟨frames, same⟩ := b.recordGrant_eq side landed input
    rw [same]
    exact .of_games (fun _ => rfl) rfl
  exact ((armed b).trans (funded _)).trans ((recorded _ _ _).trans (recorded _ _ _))

theorem still_takeEventsFor (b : Bout) (x side : Side) : Still x b (b.takeEventsFor side).2 :=
  .of_games (b.game_takeEventsFor side) rfl

theorem still_takeDirty (b : Bout) (x : Side) : Still x b b.takeDirty.2 :=
  .of_games b.game_takeDirty rfl

/-- What the server does apart from taking the inputs of side `x`: it leaves the mark of the side
alone, opens both bazaars, or lets the other side out of its own. -/
structure Onward (x : Side) (b b' : Bout) : Prop where
  settled : b.versus.Settled → b'.versus.Settled
  regular : (∀ s, (b.versus.game s).Regular) → ∀ s, (b'.versus.game s).Regular
  mark : b.versus.Settled → b'.mark x = b.mark x ∨
    (b'.mark x = ⟨b.ack x, true, true⟩ ∧ (b.mark x).you = false ∧ (b.mark x).opp = false) ∨
    b'.mark x = ⟨b.ack x, (b.mark x).you, false⟩

theorem Still.onward (still : Still x b b') : Onward x b b' :=
  ⟨still.settled, still.regular, fun _ => .inl still.mark⟩

theorem onward_opponent (b : Bout) (x : Side) (i : Input) (seq : Nat) :
    Onward x b (b.applyInput x.other i seq).2 := by
  have judged := b.judged_applyInput x.other i seq
  generalize b.applyInput x.other i seq = r at judged
  have acked : Still x b (b.setAck x.other seq) :=
    .of_games (fun _ => rfl) (Function.update_of_ne x.ne_other ..)
  cases judged with
  | illegal => exact (Still.of_games (fun _ => rfl) rfl).onward
  | stale => exact (Still.of_games (fun _ => rfl) rfl).onward
  | blocked => exact acked.onward
  | applied legal =>
    by_cases leaves : i = .leaveBazaar
    · rw [leaves]
      have left (s : Side) : (b.versus.modify x.other Input.leaveBazaar.applyToGame).game s =
          if s = x.other then (b.versus.game s).leaveBazaar else b.versus.game s :=
        Versus.game_modify ..
      have plays : Input.leaveBazaar.Plays := nofun
      refine ⟨fun settled => settled.input x.other plays, fun regular s => ?_,
        fun _ => .inr (.inr ?_)⟩
      · change ((b.versus.modify x.other Input.leaveBazaar.applyToGame).game s).Regular
        rw [left]
        split
        · exact regular s
        · exact regular s
      · change (⟨Function.update b.ack x.other seq x, _, _⟩ : Mark) = ⟨b.ack x, _, false⟩
        rw [Function.update_of_ne x.ne_other]
        change Mark.mk _ ((b.versus.modify x.other Input.leaveBazaar.applyToGame).game x).inBazaar
          ((b.versus.modify x.other Input.leaveBazaar.applyToGame).game x.other).inBazaar = _
        rw [left, left, if_neg x.ne_other, if_pos rfl]
        rfl
    · have driven := Still.modify (b.setAck x.other seq) x x.other (Input.plays_of_legal legal)
        leaves
      have recorded : Still x ((b.setAck x.other seq).drive x.other i)
          (((b.setAck x.other seq).drive x.other i).record x.other i) :=
        .of_games (fun _ => rfl) rfl
      exact ((acked.trans driven).trans recorded).onward

theorem barrier_of_mark (b : Bout) (x : Side) :
    b.versus.barrier = ((b.mark x).you || (b.mark x).opp) := by
  cases x
  · rfl
  · exact Bool.or_comm _ _

theorem onward_tickMs (b : Bout) (x : Side) (dtMs : Int) : Onward x b (b.tickMs dtMs) := by
  obtain ⟨-, games⟩ := b.versus_tickMs dtMs
  have ticked : Still x { b with versus := b.versus.tick dtMs } (b.tickMs dtMs) :=
    .of_games games (congrFun (b.ack_tickMs dtMs) x)
  refine ⟨fun settled => ticked.settled (settled.opens dtMs).1,
    fun regular => ticked.regular (Versus.regular_tick regular dtMs), fun settled => ?_⟩
  obtain ⟨-, opened, opens, shut⟩ := settled.opens dtMs
  rw [ticked.mark]
  have moved : Bout.mark { b with versus := b.versus.tick dtMs } x =
      ⟨b.ack x, (b.mark x).you || opened, (b.mark x).opp || opened⟩ := by
    unfold Bout.mark
    dsimp only
    rw [opens, opens]
  rw [moved]
  cases opened with
  | false =>
    rw [Bool.or_false, Bool.or_false]
    exact .inl rfl
  | true =>
    have free : ((b.mark x).you || (b.mark x).opp) = false := by
      by_contra barred
      rw [← barrier_of_mark] at barred
      cases shut (eq_true_of_ne_false barred)
    rw [Bool.or_true, Bool.or_true]
    exact .inr (.inl ⟨rfl, Bool.or_eq_false_iff.mp free⟩)

/-- What the server makes of the next input of side `x`. -/
theorem mark_applyInput {i : Input} (legal : isLegalClientInput i = true) {n : Nat}
    (fresh : b.ack x < n) :
    (b.applyInput x i n).2.mark x =
      ⟨n, (b.mark x).you && decide (i.kind ≠ .leave), (b.mark x).opp⟩ := by
  have judged := b.judged_applyInput x i n
  generalize b.applyInput x i n = r at judged
  cases judged with
  | illegal gate => exact absurd (gate.symm.trans legal) Bool.false_ne_true
  | stale _ old => exact absurd fresh (Nat.not_lt_of_le old)
  | blocked _ _ _ gate =>
    have stays : i.kind ≠ .leave := by
      rw [Input.kind_play.mpr gate]
      nofun
    unfold Bout.mark setAck
    dsimp only
    rw [Function.update_self, decide_eq_true stays, Bool.and_true]
  | applied =>
    have game (s : Side) : (b.versus.modify x i.applyToGame).game s =
        if s = x then i.applyToGame (b.versus.game s) else b.versus.game s :=
      Versus.game_modify ..
    change (⟨Function.update b.ack x n x, ((b.versus.modify x i.applyToGame).game x).inBazaar,
      ((b.versus.modify x i.applyToGame).game x.other).inBazaar⟩ : Mark) = _
    rw [Function.update_self, game, game, if_pos rfl, if_neg x.other_ne,
      Input.inBazaar_applyToGame legal]
    rfl

/-- Taking an input of side `x` keeps the games regular and the count settled. -/
theorem settled_applyInput (settled : b.versus.Settled) (y : Side) (i : Input) (n : Nat) :
    (b.applyInput y i n).2.versus.Settled := by
  have judged := b.judged_applyInput y i n
  generalize b.applyInput y i n = r at judged
  cases judged with
  | illegal => exact settled
  | stale => exact settled
  | blocked => exact settled
  | applied legal => exact settled.input y (Input.plays_of_legal legal)

end Bout

/-! ## The link -/

/-- A snapshot under way, with the bout it was built from. -/
structure Letter where
  origin : Bout
  keyframe : Bool
  spy : Bool

namespace Letter

def snapshot (x : Side) (l : Letter) : Snapshot := l.origin.buildSnapshot x l.keyframe l.spy

/-- What the server owes a client that is to restore the letter's keyframe. -/
def Readable (x : Side) (l : Letter) : Prop :=
  (l.origin.versus.game x).Regular ∧ (l.keyframe = true →
    (l.origin.versus.game x).Fits ∧ (l.origin.versus.game x).pending.length ≤ 1024)

end Letter

/-- The two ends and the two channels.  The last two fields are the history: the inputs issued,
and the ack of the last snapshot processed. -/
structure Wire where
  bout : Bout
  predictor : Predictor
  upstream : List (Nat × Input)
  downstream : List Letter
  issued : List (Nat × Input)
  seen : Nat

/-- The first five are the client's, the others the server's. -/
inductive WireAct where
  | predict (i : Input)
  | tick (dtMs : Int)
  | event (i : Input)
  | judge (lockSeq lockHash : Nat)
  | receive
  | take
  | opponent (i : Input) (seq : Nat)
  | grant (side : Side) (weapon : Option WeaponToken) (funds : Option Int)
  | advance (dtMs : Int)
  | drain (side : Side)
  | takeDirty
  | report (keyframe spy : Bool)

namespace Wire

/-- A match, and a client of its side `x` seeded with the same value. -/
def start (x : Side) (seedA seedB : Nat) : Wire where
  bout := .new seedA seedB
  predictor := match x with
    | .a => .new seedA
    | .b => .new seedB
  upstream := []
  downstream := []
  issued := []
  seen := 0

def act (x : Side) (w : Wire) : WireAct → Wire
  | .predict i =>
    let (sent, p) := w.predictor.predict i
    { w with
      predictor := p, upstream := w.upstream ++ sent.toList, issued := w.issued ++ sent.toList }
  | .tick dtMs => { w with predictor := w.predictor.tick dtMs }
  | .event i => { w with predictor := w.predictor.applyEvent i }
  | .judge lockSeq lockHash => { w with predictor := (w.predictor.onLockHash lockSeq lockHash).2 }
  | .receive =>
    match w.downstream with
    | [] => w
    | l :: rest =>
      let s := l.snapshot x
      { w with
        predictor := w.predictor.onSnapshot s.ack s.you.inBazaar s.opp.inBazaar s.keyframe
        downstream := rest, seen := s.ack }
  | .take =>
    match w.upstream with
    | [] => w
    | (n, i) :: rest => { w with bout := (w.bout.applyInput x i n).2, upstream := rest }
  | .opponent i seq => { w with bout := (w.bout.applyInput x.other i seq).2 }
  | .grant side weapon funds => { w with bout := (w.bout.debugGrant side weapon funds).2 }
  | .advance dtMs => { w with bout := w.bout.tickMs dtMs }
  | .drain side => { w with bout := (w.bout.takeEventsFor side).2 }
  | .takeDirty => { w with bout := w.bout.takeDirty.2 }
  | .report keyframe spy => { w with downstream := w.downstream ++ [⟨w.bout, keyframe, spy⟩] }

variable (x : Side) (w : Wire) (i : Input)

theorem downstream_predict : (w.act x (.predict i)).downstream = w.downstream := rfl

/-- The client sends legal inputs; it asks to leave while its last snapshot shows it shopping, and
not before an earlier such request is acked.  A keyframe is sent of a game whose numbers fit their
types and whose queue of weapons is within the format's bound. -/
def Disciplined (x : Side) (w : Wire) : WireAct → Prop
  | .predict i => isLegalClientInput i = true ∧ (i = .leaveBazaar →
      w.predictor.youBazaar = true ∧ ∀ e ∈ w.predictor.unacked, e.2 ≠ .leaveBazaar)
  | .report keyframe _ => keyframe = true →
      (w.bout.versus.game x).Fits ∧ (w.bout.versus.game x).pending.length ≤ 1024
  | _ => True

/-! ## The link as a handshake -/

/-- What the two ends know of the acks and of the barrier. -/
def handshake (x : Side) (w : Wire) : Handshake where
  issued := w.issued.map (Prod.map id Input.kind)
  sent := w.predictor.inputSeq
  view := ⟨w.seen, w.predictor.youBazaar, w.predictor.oppBazaar⟩
  reports := w.downstream.map fun l => l.origin.mark x
  now := w.bout.mark x

/-- The handshake stands still, or makes a move it allows that issues nothing. -/
def Moves (h h' : Handshake) : Prop :=
  h' = h ∨ ∃ a, (∀ k, a ≠ .issue k) ∧ h.Allowed a ∧ h' = h.act a

structure Inv (x : Side) (w : Wire) : Prop where
  handshake : (w.handshake x).Inv
  upstream : w.upstream = beyond (w.bout.ack x) w.issued
  unacked : w.predictor.unacked = beyond w.seen w.issued
  legal : ∀ e ∈ w.issued, isLegalClientInput e.2 = true
  settled : w.bout.versus.Settled
  server : ∀ s, (w.bout.versus.game s).Regular
  client : w.predictor.game.Regular
  letters : ∀ l ∈ w.downstream, l.Readable x

variable {x : Side} {w : Wire} {h h' : Handshake}

theorem Moves.inv (moves : Moves h h') (inv : h.Inv) : h'.Inv := by
  rcases moves with rfl | ⟨a, -, allowed, rfl⟩
  · exact inv
  · exact inv.act allowed

theorem mark_new (seedA seedB : Nat) (x : Side) :
    (Bout.new seedA seedB).mark x = ⟨0, false, false⟩ := by
  have away (s : Side) : ((Versus.new seedA seedB).game s).inBazaar = false := by
    cases s
    · exact congrArg (·.1.opened) (Game.count_new seedA)
    · exact congrArg (·.1.opened) (Game.count_new seedB)
  change (⟨0, ((Versus.new seedA seedB).game x).inBazaar,
    ((Versus.new seedA seedB).game x.other).inBazaar⟩ : Mark) = _
  rw [away, away]

theorem predictor_start (x : Side) (seedA seedB : Nat) :
    ∃ seed, (start x seedA seedB).predictor = .new seed := by
  cases x
  · exact ⟨seedA, rfl⟩
  · exact ⟨seedB, rfl⟩

theorem handshake_start (x : Side) (seedA seedB : Nat) :
    (start x seedA seedB).handshake x = .start := by
  obtain ⟨seed, fresh⟩ := predictor_start x seedA seedB
  unfold Wire.handshake
  rw [fresh]
  change Handshake.mk [] 0 ⟨0, false, false⟩ [] ((Bout.new seedA seedB).mark x) = _
  rw [mark_new]
  rfl

theorem inv_start (x : Side) (seedA seedB : Nat) : Inv x (start x seedA seedB) := by
  obtain ⟨seed, fresh⟩ := predictor_start x seedA seedB
  have handshake := handshake_start x seedA seedB
  have regular (s : Side) : ((Versus.new seedA seedB).game s).Regular := by
    cases s
    · exact Game.regular_new seedA
    · exact Game.regular_new seedB
  refine ⟨handshake ▸ Handshake.inv_start, rfl, ?_, fun _ mem => absurd mem List.not_mem_nil,
    Versus.settled_new seedA seedB, regular, ?_, fun _ mem => absurd mem List.not_mem_nil⟩
  · rw [fresh]
    rfl
  · rw [fresh, Predictor.new_game]
    exact Game.regular_new seed

/-! ## The server's steps -/

/-- A step of the server that takes none of the side's inputs. -/
theorem Inv.moves_onward (inv : Inv x w) {b : Bout} (onward : w.bout.Onward x b) :
    Moves (w.handshake x) (Wire.handshake x { w with bout := b }) := by
  rcases onward.mark inv.settled with still | ⟨entered, free⟩ | left
  · exact .inl (congrArg (fun m => { w.handshake x with now := m }) still)
  · have opened := congrArg (fun m => { w.handshake x with now := m }) entered
    exact .inr ⟨.enter, nofun, free, opened⟩
  · have alone := congrArg (fun m => { w.handshake x with now := m }) left
    exact .inr ⟨.oppLeaves, nofun, trivial, alone⟩

theorem Inv.onward (inv : Inv x w) {b : Bout} (onward : w.bout.Onward x b) :
    Inv x { w with bout := b } := by
  have ack : b.ack x = w.bout.ack x := by
    rcases onward.mark inv.settled with mark | ⟨mark, -⟩ | mark
    · exact congrArg Mark.ack mark
    · exact congrArg Mark.ack mark
    · exact congrArg Mark.ack mark
  have moves := inv.moves_onward onward
  exact ⟨moves.inv inv.handshake, inv.upstream.trans (by rw [ack]), inv.unacked, inv.legal,
    onward.settled inv.settled, onward.regular inv.server, inv.client, inv.letters⟩

theorem Inv.rising (inv : Inv x w) : Rising w.issued :=
  (rising_map Input.kind).mp inv.handshake.rising

/-- The inputs under way are what the handshake has pending. -/
theorem Inv.pending (inv : Inv x w) :
    (w.handshake x).pending = w.upstream.map (Prod.map id Input.kind) := by
  rw [inv.upstream]
  exact beyond_map Input.kind _ _

/-- The inputs the client keeps are what the handshake has unacked. -/
theorem Inv.waiting (inv : Inv x w) :
    (w.handshake x).unacked = w.predictor.unacked.map (Prod.map id Input.kind) := by
  rw [inv.unacked]
  exact beyond_map Input.kind _ _

/-- The next input of side `x` is legal and past the ack. -/
theorem Inv.next (inv : Inv x w) {n : Nat} {i : Input} {rest : List (Nat × Input)}
    (front : w.upstream = (n, i) :: rest) :
    w.bout.ack x < n ∧ isLegalClientInput i = true ∧ beyond n w.issued = rest := by
  have left : beyond (w.bout.ack x) w.issued = (n, i) :: rest := inv.upstream.symm.trans front
  obtain ⟨past, mem, after⟩ := inv.rising.beyond_head left
  exact ⟨past, inv.legal _ mem, after⟩

theorem Inv.handshake_take (inv : Inv x w) :
    (w.act x .take).handshake x = (w.handshake x).act .take := by
  have pending := inv.pending
  unfold Wire.act Handshake.act
  dsimp only
  split
  · next none =>
    rw [none] at pending
    rw [pending]
    rfl
  · next n i rest front =>
    obtain ⟨past, legal, -⟩ := inv.next front
    have stands := congrArg (fun m => { w.handshake x with now := m })
      (Bout.mark_applyInput legal past)
    rw [front] at pending
    rw [pending]
    exact stands

/-- The server takes the next input of side `x`. -/
theorem Inv.take (inv : Inv x w) : Inv x (w.act x .take) := by
  have taken := inv.handshake_take
  unfold act at taken ⊢
  dsimp only at taken ⊢
  split
  · exact inv
  · next n i rest front =>
    obtain ⟨past, legal, after⟩ := inv.next front
    have acked : (w.bout.applyInput x i n).2.ack x = n :=
      congrArg Mark.ack (Bout.mark_applyInput legal past)
    have keeps := (Bout.Keeps.applyInput w.bout x i n).regular inv.server
    rw [front] at taken
    refine ⟨taken ▸ inv.handshake.act trivial, ?_, inv.unacked, inv.legal,
      Bout.settled_applyInput inv.settled x i n, keeps, inv.client, inv.letters⟩
    rw [acked]
    exact after.symm

theorem handshake_report (w : Wire) (keyframe spy : Bool) :
    (w.act x (.report keyframe spy)).handshake x = (w.handshake x).act .report := by
  unfold Wire.handshake act Handshake.act
  dsimp only
  rw [List.map_append]
  rfl

theorem Inv.report (inv : Inv x w) {keyframe spy : Bool}
    (allowed : w.Disciplined x (.report keyframe spy)) :
    Inv x (w.act x (.report keyframe spy)) := by
  have reported := handshake_report (x := x) w keyframe spy
  refine ⟨reported ▸ inv.handshake.act trivial, inv.upstream, inv.unacked, inv.legal, inv.settled,
    inv.server, inv.client, fun l mem => ?_⟩
  rcases List.mem_append.mp mem with old | new
  · exact inv.letters l old
  · rw [List.mem_singleton.mp new]
    exact ⟨inv.server x, allowed⟩

end Wire

/-! ## The client's steps -/

namespace Predictor

/-- What the predictor keeps of its inputs and of the barrier. -/
def books (p : Predictor) : Nat × List (Nat × Input) × Bool × Bool :=
  (p.inputSeq, p.unacked, p.youBazaar, p.oppBazaar)

theorem noteLock_books (p : Predictor) : p.noteLock.books = p.books := by
  unfold noteLock
  split <;> rfl

theorem onLockHash_books (p : Predictor) (lockSeq lockHash : Nat) :
    (p.onLockHash lockSeq lockHash).2.books = p.books := by
  unfold onLockHash
  split
  · rfl
  · split
    · rfl
    · dsimp only
      split
      · rfl
      · split <;> rfl

/-- The input is numbered, queued and sent. -/
def Sends (p : Predictor) (i : Input) (r : Option (Nat × Input) × Predictor) : Prop :=
  r.1 = some (p.inputSeq + 1, i) ∧
    r.2.books = (p.inputSeq + 1, p.unacked ++ [(p.inputSeq + 1, i)], p.youBazaar, p.oppBazaar)

/-- A prediction is held back, or sent; play is sent outside the barrier alone. -/
theorem predict_cases (p : Predictor) (i : Input) :
    ((p.predict i).1 = none ∧ (p.predict i).2.books = p.books) ∨
      (p.Sends i (p.predict i) ∧
        (i.kind = .play → p.youBazaar = false ∧ p.oppBazaar = false)) := by
  have enqueued (i : Input) (f : Game → Game) : p.Sends i ((p.drive f).enqueue i) :=
    ⟨rfl, noteLock_books _⟩
  unfold predict
  split
  · exact .inl ⟨rfl, rfl⟩
  · next gate =>
    have free : i.kind = .play → p.youBazaar = false ∧ p.oppBazaar = false := by
      intro play
      refine Bool.or_eq_false_iff.mp (eq_false_of_ne_true fun barrier => gate ⟨barrier, ?_, ?_⟩)
      · rw [← Input.kind_shop, play]
        nofun
      · rw [ne_eq, ← Input.kind_leave, play]
        nofun
    split
    · exact .inr ⟨enqueued _ id, free⟩
    · dsimp only
      split
      · exact .inr ⟨enqueued _ fun _ => _, free⟩
      · exact .inl ⟨rfl, rfl⟩
    · dsimp only
      split
      · exact .inr ⟨enqueued _ fun _ => _, free⟩
      · exact .inl ⟨rfl, rfl⟩
    · exact .inr ⟨enqueued _ _, free⟩

theorem onSnapshot_books (p : Predictor) (ack : Nat) (you opp : Bool)
    (keyframe : Option (List UInt8)) :
    (p.onSnapshot ack you opp keyframe).books =
      (p.inputSeq, beyond ack p.unacked, you, opp) := by
  unfold onSnapshot
  dsimp only
  rw [noteLock_books]
  split
  · rfl
  · split <;> rfl

end Predictor

theorem regular_replayInput {g : Game} (regular : g.Regular) (i : Input) :
    (replayInput g i).Regular := by
  unfold replayInput
  split
  · exact regular
  · split
    · exact regular
    · exact regular.applyToGame _

namespace Letter

/-- The game a client restores from a letter with a keyframe. -/
def restored (x : Side) (l : Letter) : Game :=
  { (l.origin.versus.game x).concealed with events := [] }

variable {x : Side} {l : Letter} {p : Predictor}

theorem snapshot_keyframe (framed : l.keyframe = true) :
    (l.snapshot x).keyframe = some (l.origin.versus.game x).clientKeyframeBytes := if_pos framed

/-- A keyframe is restored, and the unacked inputs are replayed over it. -/
theorem game_onSnapshot (readable : l.Readable x) (framed : l.keyframe = true)
    (regular : p.game.Regular) (ack : Nat) (you opp : Bool) :
    (p.onSnapshot ack you opp (l.snapshot x).keyframe).game =
      (beyond ack p.unacked).foldl (fun g e => replayInput g e.2) (l.restored x) := by
  obtain ⟨fits, few⟩ := readable.2 framed
  have bytes := Game.restoreBytes_clientKeyframeBytes readable.1 regular fits few
  rw [snapshot_keyframe framed]
  unfold Predictor.onSnapshot
  dsimp only
  rw [Client.noteLock_game]
  change (beyond ack p.unacked).foldl _ (p.game.restoreBytes _).2 = _
  rw [bytes]
  rfl

theorem regular_onSnapshot (readable : l.Readable x) (regular : p.game.Regular) (ack : Nat)
    (you opp : Bool) :
    (p.onSnapshot ack you opp (l.snapshot x).keyframe).game.Regular := by
  by_cases framed : l.keyframe = true
  · rw [game_onSnapshot readable framed regular]
    refine Loop.foldl_invariant (P := Game.Regular) (fun e _ g kept => ?_) readable.1
    exact regular_replayInput kept e.2
  · have plain : (l.snapshot x).keyframe = none := if_neg framed
    rw [plain]
    unfold Predictor.onSnapshot
    dsimp only
    rw [Client.noteLock_game]
    split
    · exact regular
    · exact regular

end Letter

namespace Wire

variable {x : Side} {w : Wire}

theorem handshake_local {p : Predictor} (books : p.books = w.predictor.books) :
    Wire.handshake x { w with predictor := p } = w.handshake x := by
  obtain ⟨sent, rest⟩ := Prod.mk.inj books
  obtain ⟨-, rest⟩ := Prod.mk.inj rest
  obtain ⟨you, opp⟩ := Prod.mk.inj rest
  unfold Wire.handshake
  dsimp only
  rw [sent, you, opp]

/-- A step of the client that the books do not show. -/
theorem Inv.local_step (inv : Inv x w) {p : Predictor} (books : p.books = w.predictor.books)
    (regular : p.game.Regular) : Inv x { w with predictor := p } := by
  obtain ⟨-, rest⟩ := Prod.mk.inj books
  obtain ⟨unacked, -⟩ := Prod.mk.inj rest
  have still := handshake_local (x := x) books
  exact ⟨still ▸ inv.handshake, inv.upstream, unacked.trans inv.unacked, inv.legal, inv.settled,
    inv.server, regular, inv.letters⟩

theorem Inv.allowed_issue (inv : Inv x w) {i : Input} (allowed : w.Disciplined x (.predict i))
    (free : i.kind = .play → w.predictor.youBazaar = false ∧ w.predictor.oppBazaar = false) :
    (w.handshake x).Allowed (.issue i.kind) := by
  cases kind : i.kind with
  | play => exact free kind
  | shop => trivial
  | leave =>
    obtain ⟨inside, none⟩ := allowed.2 (Input.kind_leave.mp kind)
    refine ⟨inside, fun e mem => ?_⟩
    rw [inv.waiting] at mem
    obtain ⟨f, queued, rfl⟩ := List.mem_map.mp mem
    exact fun leaves => none f queued (Input.kind_leave.mp leaves)

theorem handshake_issue (upstream : List (Nat × Input)) {i : Input} {p : Predictor}
    {unacked : List (Nat × Input)}
    (books : p.books = (w.predictor.inputSeq + 1, unacked, w.predictor.youBazaar,
      w.predictor.oppBazaar)) :
    Wire.handshake x { w with
      predictor := p
      upstream := upstream
      issued := w.issued ++ [(w.predictor.inputSeq + 1, i)] } =
        (w.handshake x).act (.issue i.kind) := by
  obtain ⟨seq, rest⟩ := Prod.mk.inj books
  obtain ⟨-, rest⟩ := Prod.mk.inj rest
  obtain ⟨you, opp⟩ := Prod.mk.inj rest
  unfold Wire.handshake Handshake.act
  dsimp only at seq you opp ⊢
  rw [List.map_append, seq, you, opp]
  rfl

theorem Inv.handshake_predict (inv : Inv x w) {i : Input}
    (allowed : w.Disciplined x (.predict i)) :
    (w.act x (.predict i)).handshake x = w.handshake x ∨
      (w.handshake x).Allowed (.issue i.kind) ∧
        (w.act x (.predict i)).handshake x = (w.handshake x).act (.issue i.kind) := by
  have cases := w.predictor.predict_cases i
  unfold Wire.act
  dsimp only
  generalize w.predictor.predict i = r at cases
  obtain ⟨sent, p⟩ := r
  rcases cases with ⟨held, books⟩ | ⟨⟨sends, books⟩, free⟩
  · dsimp only at held
    rw [held, Option.toList_none, List.append_nil, List.append_nil]
    exact .inl (handshake_local books)
  · dsimp only at sends
    rw [sends, Option.toList_some]
    exact .inr ⟨inv.allowed_issue allowed free, handshake_issue _ books⟩

theorem Inv.predict (inv : Inv x w) {i : Input} (allowed : w.Disciplined x (.predict i)) :
    Inv x (w.act x (.predict i)) := by
  have cases := w.predictor.predict_cases i
  have regular := Client.regular_predict inv.client i
  unfold act
  dsimp only
  generalize w.predictor.predict i = r at cases regular
  obtain ⟨sent, p⟩ := r
  rcases cases with ⟨held, books⟩ | ⟨⟨sends, books⟩, free⟩
  · dsimp only at held
    rw [held, Option.toList_none, List.append_nil, List.append_nil]
    exact inv.local_step books regular
  · dsimp only at sends
    rw [sends, Option.toList_some]
    obtain ⟨-, rest⟩ := Prod.mk.inj books
    obtain ⟨unacked, -⟩ := Prod.mk.inj rest
    dsimp only at unacked
    have view := inv.handshake.view_ack
    have acked := inv.handshake.acked
    change w.seen ≤ w.bout.ack x at view
    change w.bout.ack x ≤ w.predictor.inputSeq at acked
    have issue := inv.allowed_issue allowed free
    have issued := handshake_issue (x := x) (i := i)
      (w.upstream ++ [(w.predictor.inputSeq + 1, i)]) books
    refine ⟨issued ▸ inv.handshake.act issue, ?_, ?_, fun e mem => ?_, inv.settled, inv.server,
      regular, inv.letters⟩
    · dsimp only
      rw [beyond_snoc (Nat.lt_succ_of_le acked), inv.upstream]
    · dsimp only
      rw [unacked, beyond_snoc (Nat.lt_succ_of_le (view.trans acked)), inv.unacked]
    · rcases List.mem_append.mp mem with old | new
      · exact inv.legal e old
      · rw [List.mem_singleton.mp new]
        exact allowed.1

theorem handshake_receive (w : Wire) :
    (w.act x .receive).handshake x = (w.handshake x).act .read := by
  have reports : (w.handshake x).reports = w.downstream.map fun l => l.origin.mark x := rfl
  unfold Wire.act Handshake.act
  dsimp only
  split
  · next none =>
    rw [none] at reports
    rw [reports]
    rfl
  · next l rest arrives =>
    have books := w.predictor.onSnapshot_books (l.snapshot x).ack (l.snapshot x).you.inBazaar
      (l.snapshot x).opp.inBazaar (l.snapshot x).keyframe
    generalize w.predictor.onSnapshot (l.snapshot x).ack (l.snapshot x).you.inBazaar
      (l.snapshot x).opp.inBazaar (l.snapshot x).keyframe = p at books
    obtain ⟨seq, books⟩ := Prod.mk.inj books
    obtain ⟨-, books⟩ := Prod.mk.inj books
    obtain ⟨you, opp⟩ := Prod.mk.inj books
    rw [arrives, List.map_cons] at reports
    rw [reports]
    unfold Wire.handshake
    dsimp only
    rw [seq, you, opp]
    rfl

theorem Inv.receive (inv : Inv x w) : Inv x (w.act x .receive) := by
  have read := handshake_receive (x := x) w
  unfold act at read ⊢
  dsimp only at read ⊢
  split
  · exact inv
  · next l rest arrives =>
    have letters := inv.letters
    rw [arrives] at letters
    have readable := letters l List.mem_cons_self
    have books := w.predictor.onSnapshot_books (l.snapshot x).ack (l.snapshot x).you.inBazaar
      (l.snapshot x).opp.inBazaar (l.snapshot x).keyframe
    have regular := Letter.regular_onSnapshot readable inv.client (l.snapshot x).ack
      (l.snapshot x).you.inBazaar (l.snapshot x).opp.inBazaar
    rw [arrives] at read
    dsimp only at read
    generalize w.predictor.onSnapshot (l.snapshot x).ack (l.snapshot x).you.inBazaar
      (l.snapshot x).opp.inBazaar (l.snapshot x).keyframe = p at books regular read
    obtain ⟨-, rest'⟩ := Prod.mk.inj books
    obtain ⟨unacked, -⟩ := Prod.mk.inj rest'
    have reports : (w.handshake x).reports =
        l.origin.mark x :: rest.map fun l => l.origin.mark x := by
      change w.downstream.map _ = _
      rw [arrives]
      rfl
    have later : w.seen ≤ (l.snapshot x).ack := by
      have order := inv.handshake.order
      unfold Handshake.seen at order
      rw [reports] at order
      exact ((List.pairwise_cons.mp order).1 _ List.mem_cons_self).ack
    refine ⟨read ▸ inv.handshake.act trivial, inv.upstream, ?_, inv.legal, inv.settled, inv.server,
      regular, fun l mem => letters l (List.mem_cons_of_mem _ mem)⟩
    dsimp only
    rw [unacked, inv.unacked, beyond_beyond later]

/-- A client that has read a letter knows what the letter says. -/
theorem view_receive {l : Letter} {rest : List Letter} (arrives : w.downstream = l :: rest) :
    ((w.act x .receive).handshake x).view = l.origin.mark x := by
  have books := w.predictor.onSnapshot_books (l.snapshot x).ack (l.snapshot x).you.inBazaar
    (l.snapshot x).opp.inBazaar (l.snapshot x).keyframe
  obtain ⟨-, rest'⟩ := Prod.mk.inj books
  obtain ⟨-, rest'⟩ := Prod.mk.inj rest'
  obtain ⟨you, opp⟩ := Prod.mk.inj rest'
  unfold Wire.handshake Wire.act
  dsimp only
  rw [arrives]
  dsimp only
  rw [you, opp]
  rfl

theorem view_judge (lockSeq lockHash : Nat) :
    ((w.act x (.judge lockSeq lockHash)).handshake x).view = (w.handshake x).view := by
  have books := w.predictor.onLockHash_books lockSeq lockHash
  exact congrArg (fun books => Mark.mk w.seen books.2.2.1 books.2.2.2) books

theorem Inv.act (inv : Inv x w) {a : WireAct} (allowed : w.Disciplined x a) :
    Inv x (w.act x a) := by
  cases a with
  | predict i => exact inv.predict allowed
  | tick dtMs =>
    refine inv.local_step (Predictor.noteLock_books _) ?_
    change (w.predictor.drive (·.tick dtMs)).noteLock.game.Regular
    rw [Client.noteLock_game]
    exact inv.client.tick dtMs
  | event i =>
    refine inv.local_step (Predictor.noteLock_books _) ?_
    change (w.predictor.drive i.applyToGame).noteLock.game.Regular
    rw [Client.noteLock_game]
    exact inv.client.applyToGame i
  | judge lockSeq lockHash =>
    refine inv.local_step (w.predictor.onLockHash_books lockSeq lockHash) ?_
    rw [Client.onLockHash_game]
    exact inv.client
  | receive => exact inv.receive
  | take => exact inv.take
  | opponent i seq => exact inv.onward (w.bout.onward_opponent x i seq)
  | grant side weapon funds => exact inv.onward (w.bout.still_debugGrant x side weapon funds).onward
  | advance dtMs => exact inv.onward (w.bout.onward_tickMs x dtMs)
  | drain side => exact inv.onward (w.bout.still_takeEventsFor x side).onward
  | takeDirty => exact inv.onward (w.bout.still_takeDirty x).onward
  | report keyframe spy => exact inv.report allowed

theorem inv_of_run {seedA seedB : Nat} {acts : List WireAct}
    (run : Run (Disciplined x) (Wire.act x) (start x seedA seedB) acts w) : Inv x w :=
  run.invariant (fun _ _ inv allowed => inv.act allowed) (inv_start x seedA seedB)

/-! ## Acks -/

/-- With every number acked that was issued, nothing is kept and nothing is under way. -/
theorem Inv.caught_up (inv : Inv x w) (acked : w.predictor.inputSeq ≤ w.seen) :
    w.predictor.unacked = [] ∧ w.upstream = [] := by
  have bounded (e : Nat × Input) (mem : e ∈ w.issued) : e.1 ≤ w.seen :=
    (inv.handshake.bounded _ (List.mem_map_of_mem (f := Prod.map id Input.kind) mem)).trans acked
  have view : w.seen ≤ w.bout.ack x := inv.handshake.view_ack
  rw [inv.unacked, inv.upstream]
  exact ⟨beyond_eq_nil bounded, beyond_eq_nil fun e mem => (bounded e mem).trans view⟩

/-- The acks under way rise, from the one the client saw last, past the server's own, to the last
number issued. -/
theorem Inv.acks (inv : Inv x w) :
    (w.seen :: (w.downstream.map fun l => (l.snapshot x).ack) ++
      [w.bout.ack x, w.predictor.inputSeq]).Pairwise (· ≤ ·) := by
  have marks : ((w.handshake x).seen ++ [(w.handshake x).now]).map Mark.ack =
      w.seen :: (w.downstream.map fun l => (l.snapshot x).ack) ++ [w.bout.ack x] := by
    rw [List.map_append, Handshake.seen, List.map_cons, Wire.handshake]
    dsimp only
    rw [List.map_map]
    rfl
  have order := inv.handshake.order.map Mark.ack fun _ _ follows => follows.ack
  rw [marks] at order
  have ends := (List.pairwise_append.mp order).2.2
  rw [List.append_cons]
  refine List.pairwise_append.mpr ⟨order, List.pairwise_singleton _ _, fun a mem b last => ?_⟩
  rw [List.mem_singleton.mp last]
  refine Nat.le_trans ?_ inv.handshake.acked
  rcases List.mem_append.mp mem with before | server
  · exact ends a before _ List.mem_cons_self
  · rw [List.mem_singleton.mp server]
    exact Nat.le_refl _

/-- Once nothing is under way to it, the server has acked the last number issued. -/
theorem Inv.drained (inv : Inv x w) (drained : w.upstream = []) :
    w.bout.ack x = w.predictor.inputSeq :=
  inv.handshake.drained (inv.pending.trans (congrArg _ drained))

/-- In every run the client keeps the inputs beyond the last ack it saw, and the inputs under way
are those the server has not acked; the acks rise up to the number of the last input.  Once both
channels are empty but for a snapshot built since, reading it leaves no input to be acked. -/
theorem buffer_exact {seedA seedB : Nat} {acts : List WireAct}
    (run : Run (Disciplined x) (Wire.act x) (start x seedA seedB) acts w) :
    (Rising w.issued ∧ w.predictor.unacked = beyond w.seen w.issued ∧
      w.upstream = beyond (w.bout.ack x) w.issued) ∧
    (w.seen :: (w.downstream.map fun l => (l.snapshot x).ack) ++
      [w.bout.ack x, w.predictor.inputSeq]).Pairwise (· ≤ ·) ∧
    ∀ l, w.upstream = [] → w.downstream = [l] → (l.snapshot x).ack = w.bout.ack x →
      (w.act x .receive).predictor.unacked = [] ∧
        (w.act x .receive).seen = w.predictor.inputSeq := by
  have inv := inv_of_run run
  refine ⟨⟨inv.rising, inv.unacked, inv.upstream⟩, inv.acks, fun l drained last acked => ?_⟩
  have received := inv.receive
  have seen : (w.act x .receive).seen = w.bout.ack x := by
    unfold Wire.act
    dsimp only
    rw [last]
    exact acked
  have issued : (w.act x .receive).issued = w.issued := by
    unfold Wire.act
    dsimp only
    rw [last]
  rw [received.unacked, seen, issued, ← inv.upstream, drained]
  exact ⟨rfl, inv.drained drained⟩

/-- A client that has shifted its piece. -/
theorem buffer_exact_shift :
    let w := (start .a 7 3).act .a (.predict .moveLeft)
    w.predictor.unacked = beyond w.seen w.issued := by
  have run : Run (Disciplined .a) (Wire.act .a) (start .a 7 3) ([] ++ [.predict .moveLeft]) _ :=
    Run.nil.snoc ⟨rfl, nofun⟩
  exact (buffer_exact run).1.2.1

/-! ## Leaving -/

/-- A request to leave that is under way finds its side shopping. -/
theorem Inv.leave_finds (inv : Inv x w) {e : Nat × Input} (sent : e ∈ w.upstream)
    (leaves : e.2 = .leaveBazaar) : (w.bout.versus.game x).inBazaar = true := by
  refine inv.handshake.leave_finds (n := e.1) ?_
  rw [inv.pending, ← Input.kind_leave.mpr leaves]
  exact List.mem_map_of_mem (f := Prod.map id Input.kind) sent

end Wire

end BattleTris
