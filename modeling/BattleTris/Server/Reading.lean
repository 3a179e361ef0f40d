import BattleTris.Match.Play
import BattleTris.Netcode.Predictor
import BattleTris.Server.RunBout

/-!
A client reads the messages its socket took, in order.

`Follows` is the shape of a log of messages: what each one adds to the relay effects
that a reader of the earlier ones has felt.  A reader of such a log is up to date after
each message, in the sense of `UpToDate`.
-/

namespace BattleTris

/-- A client, with the relay effects its local game contains: those inside the last
keyframe it restored, and the events it applied since. -/
structure Client where
  predictor : Predictor
  effects : List Input

namespace Client

/-- A snapshot's keyframe is restored by the local game. -/
def restores (c : Client) (s : Snapshot) : Bool :=
  s.keyframe.any fun bytes => (c.predictor.game.restoreBytes bytes).1

/-- Process one message. -/
def receive (c : Client) (m : Sent) : Client :=
  match m.frame with
  | .matchStart _ seed => ⟨.new seed, []⟩
  | .snapshot s =>
    { predictor := c.predictor.onSnapshot s.ack s.you.inBazaar s.opp.inBazaar s.keyframe
      effects := if c.restores s then m.effects else c.effects }
  | .event i => ⟨c.predictor.applyEvent i, c.effects ++ [i]⟩
  | _ => c

/-- What a client does: it processes its next message, predicts an input of its player,
ticks, or judges the lock hash of a snapshot. -/
inductive Step where
  | receive (m : Sent)
  | predict (i : Input)
  | tick (dtMs : Int)
  | judge (lockSeq lockHash : Nat)

def step (c : Client) : Step → Client
  | .receive m => c.receive m
  | .predict i => { c with predictor := (c.predictor.predict i).2 }
  | .tick dtMs => { c with predictor := c.predictor.tick dtMs }
  | .judge lockSeq lockHash =>
    { c with predictor := (c.predictor.onLockHash lockSeq lockHash).2 }

/-- The message a step processes, if it does. -/
def Step.message : Step → Option Sent
  | .receive m => some m
  | _ => none

/-- The messages processed, in order. -/
def received (steps : List Step) : List Sent := steps.filterMap Step.message

/-! ## What a client does between two messages -/

theorem noteLock_game (p : Predictor) : p.noteLock.game = p.game := by
  unfold Predictor.noteLock
  split <;> rfl

theorem onLockHash_game (p : Predictor) (lockSeq lockHash : Nat) :
    (p.onLockHash lockSeq lockHash).2.game = p.game := by
  unfold Predictor.onLockHash
  split
  · rfl
  · split
    · rfl
    · dsimp only
      split
      · rfl
      · split <;> rfl

theorem regular_enqueue {p : Predictor} (regular : p.game.Regular) (i : Input) :
    (p.enqueue i).2.game.Regular := by
  unfold Predictor.enqueue
  dsimp only
  rw [noteLock_game]
  exact regular

theorem regular_applyShop {g : Game} (regular : g.Regular) (i : Input) :
    (applyShop g i).2.Regular := by
  unfold applyShop
  split
  · split
    · exact regular.buyWeapon _
    · exact regular
  · split
    · exact regular.sellWeapon _
    · exact regular
  · exact regular

theorem regular_predict {p : Predictor} (regular : p.game.Regular) (i : Input) :
    (p.predict i).2.game.Regular := by
  have shopped (i : Input) := regular_applyShop regular i
  unfold Predictor.predict
  split
  · exact regular
  · split
    · exact regular_enqueue regular _
    · dsimp only
      split
      · exact regular_enqueue (p := { p with game := _ }) (shopped _) _
      · exact shopped _
    · dsimp only
      split
      · exact regular_enqueue (p := { p with game := _ }) (shopped _) _
      · exact shopped _
    · exact regular_enqueue (p := p.drive _) (regular.applyToGame _) _

/-- Between two messages a client feels nothing, and its game stays regular. -/
theorem between {steps : List Step} (idle : received steps = []) (c : Client) :
    (steps.foldl step c).effects = c.effects ∧
      (c.predictor.game.Regular → (steps.foldl step c).predictor.game.Regular) := by
  induction steps generalizing c with
  | nil => exact ⟨rfl, id⟩
  | cons e steps ih =>
    rw [received, List.filterMap_cons] at idle
    cases e with
    | receive m => cases idle
    | predict i =>
      obtain ⟨effects, regular⟩ := ih idle (c.step (.predict i))
      exact ⟨effects, fun before => regular (regular_predict before i)⟩
    | tick dtMs =>
      obtain ⟨effects, regular⟩ := ih idle (c.step (.tick dtMs))
      refine ⟨effects, fun before => regular ?_⟩
      change (c.predictor.tick dtMs).game.Regular
      unfold Predictor.tick
      rw [noteLock_game]
      exact before.tick dtMs
    | judge lockSeq lockHash =>
      obtain ⟨effects, regular⟩ := ih idle (c.step (.judge lockSeq lockHash))
      refine ⟨effects, fun before => regular ?_⟩
      change (c.predictor.onLockHash lockSeq lockHash).2.game.Regular
      rw [onLockHash_game]
      exact before

/-- A client that has processed messages has processed the first of them first. -/
theorem split_first {steps : List Step} {m : Sent} {ms : List Sent}
    (some_ : received steps = m :: ms) :
    ∃ before after, steps = before ++ .receive m :: after ∧ received before = [] ∧
      received after = ms := by
  induction steps with
  | nil => cases some_
  | cons e steps ih =>
    rw [received, List.filterMap_cons] at some_
    cases e with
    | receive first =>
      cases some_
      exact ⟨[], steps, rfl, rfl, rfl⟩
    | predict i =>
      obtain ⟨before, after, rfl, idle, rest⟩ := ih some_
      exact ⟨.predict i :: before, after, rfl, idle, rest⟩
    | tick dtMs =>
      obtain ⟨before, after, rfl, idle, rest⟩ := ih some_
      exact ⟨.tick dtMs :: before, after, rfl, idle, rest⟩
    | judge lockSeq lockHash =>
      obtain ⟨before, after, rfl, idle, rest⟩ := ih some_
      exact ⟨.judge lockSeq lockHash :: before, after, rfl, idle, rest⟩

/-- The next message of a log is the one at hand, or was processed first. -/
theorem read {steps : List Step} {first m : Sent} {log rest : List Sent}
    (inOrder : first :: log = received steps ++ m :: rest) :
    (received steps = [] ∧ m = first ∧ rest = log) ∨
    ∃ before after, steps = before ++ .receive first :: after ∧ received before = [] ∧
      log = received after ++ m :: rest := by
  rcases taken : received steps with _ | ⟨m', ms⟩
  · rw [taken] at inOrder
    cases inOrder
    exact .inl ⟨rfl, rfl, rfl⟩
  · rw [taken] at inOrder
    cases inOrder
    obtain ⟨before, after, split, idle, later⟩ := split_first taken
    exact .inr ⟨before, after, split, idle, by rw [later]; rfl⟩

end Client

/-! ## The shape of a log -/

/-- Every client whose game is regular restores the snapshot. -/
def Restorable (s : Snapshot) : Prop :=
  ∀ c : Client, c.predictor.game.Regular → c.restores s = true

/-- From a reader that has felt the first effects, the log leads to the second. -/
inductive Follows : List Input → List Sent → List Input → Prop where
  | nil {felt : List Input} : Follows felt [] felt
  /-- The handoff of a match nothing has happened in. -/
  | first {felt felt' : List Input} {rest : List Sent} (side : Side) (seed : Nat) :
    Follows [] rest felt' → Follows felt (⟨.matchStart side seed, []⟩ :: rest) felt'
  /-- The handoff of a running match, with a keyframe behind it. -/
  | handoff {felt told felt' : List Input} {rest : List Sent} (side : Side) (seed : Nat)
    {s : Snapshot} (restorable : Restorable s) : Follows told rest felt' →
    Follows felt (⟨.matchStart side seed, told⟩ :: ⟨.snapshot s, told⟩ :: rest) felt'
  | snapshot {felt felt' : List Input} {rest : List Sent} (s : Snapshot) :
    Follows felt rest felt' → Follows felt (⟨.snapshot s, felt⟩ :: rest) felt'
  /-- An event, and behind it the others of its tick. -/
  | event {felt felt' : List Input} (i : Input) (untold : List Input) (more : List Sent) :
    Follows (felt ++ [i]) (untold.map (⟨.event ·, felt ++ i :: untold⟩) ++ more) felt' →
    Follows felt (⟨.event i, felt ++ i :: untold⟩ ::
      (untold.map (⟨.event ·, felt ++ i :: untold⟩) ++ more)) felt'
  | notice {felt felt' : List Input} {rest : List Sent} {frame : ServerFrame}
    (kind : frame = .opponentResumed ∨ frame = .opponentReconnecting ∨ frame = .heartbeat) :
    Follows felt rest felt' → Follows felt (⟨frame, felt⟩ :: rest) felt'

namespace Follows

variable {felt felt' felt'' : List Input} {log log' : List Sent}

theorem trans (left : Follows felt log felt') (right : Follows felt' log' felt'') :
    Follows felt (log ++ log') felt'' := by
  induction left with
  | nil => exact right
  | first side seed _ ih => exact .first side seed (ih right)
  | handoff side seed restorable _ ih => exact .handoff side seed restorable (ih right)
  | snapshot s _ ih => exact .snapshot s (ih right)
  | event i untold more _ ih =>
    have rest := ih right
    rw [List.append_assoc] at rest
    rw [List.cons_append, List.append_assoc]
    exact .event i untold (more ++ log') rest
  | notice kind _ ih => exact .notice kind (ih right)

/-- The events of one tick, sent in a row. -/
theorem events (felt : List Input) (is : List Input) :
    Follows felt (is.map (⟨.event ·, felt ++ is⟩)) (felt ++ is) := by
  induction is generalizing felt with
  | nil =>
    rw [List.append_nil]
    exact .nil
  | cons i is ih =>
    have rest := ih (felt ++ [i])
    rw [List.append_assoc, List.singleton_append] at rest
    have row := @event felt _ i is [] (by rwa [List.append_nil])
    rwa [List.append_nil] at row

end Follows

/-! ## A reader of a log -/

end BattleTris
