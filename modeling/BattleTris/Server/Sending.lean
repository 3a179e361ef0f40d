import BattleTris.Lib.Loop
import BattleTris.Server.RunBout

/-!
What the loop sends, and what sending leaves alone.

Most of a round only sends: `Posts` says that the ledger (the bout, the sockets, the
channels and the history) changed by notices and snapshots alone.
-/

namespace BattleTris

namespace BoutLoop

/-! ## One message -/

section post

variable (l : BoutLoop) (side : Side) (frame : ServerFrame)

@[simp] theorem bout_post : (l.post side frame).bout = l.bout := by
  unfold post
  split <;> rfl

@[simp] theorem tx_post : (l.post side frame).tx = l.tx := by
  unfold post
  split <;> rfl

@[simp] theorem closed_post : (l.post side frame).closed = l.closed := by
  unfold post
  split <;> rfl

@[simp] theorem effects_post : (l.post side frame).effects = l.effects := by
  unfold post
  split <;> rfl

@[simp] theorem connected_post : (l.post side frame).connected = l.connected := by
  unfold post
  split <;> rfl

@[simp] theorem stage_post : (l.post side frame).stage = l.stage := by
  unfold post
  split <;> rfl

/-- Only an open socket attached to the side takes the message. -/
theorem sent_post (conn : ConnId) :
    (l.post side frame).sent conn =
      if l.tx side = conn ∧ l.closed conn = false then l.sent conn ++ [⟨frame, l.effects side⟩]
      else l.sent conn := by
  unfold post reaches
  rcases eq_or_ne (l.tx side) conn with rfl | apart
  · rcases shut : l.closed (l.tx side) with _ | _
    · simp
    · simp
  · rw [if_neg (c := l.tx side = conn ∧ l.closed conn = false) fun both => apart both.1]
    split
    · exact Function.update_of_ne apart.symm _ _
    · rfl

end post

/-- The messages of one kind, sent in a row. -/
theorem sent_posts (l : BoutLoop) (side : Side) (is : List Input) :
    let l' := is.foldl (fun l i => l.post side (.event i)) l
    (l'.bout = l.bout ∧ l'.tx = l.tx ∧ l'.closed = l.closed ∧ l'.effects = l.effects ∧
      l'.connected = l.connected ∧ l'.stage = l.stage) ∧
    ∀ conn, l'.sent conn =
      if l.tx side = conn ∧ l.closed conn = false then
        l.sent conn ++ is.map (⟨.event ·, l.effects side⟩)
      else l.sent conn := by
  induction is generalizing l with
  | nil => exact ⟨⟨rfl, rfl, rfl, rfl, rfl, rfl⟩, fun conn => by simp⟩
  | cons i is ih =>
    obtain ⟨⟨bout, tx, closed, effects, connected, stage⟩, sent⟩ := ih (l.post side (.event i))
    rw [List.foldl_cons]
    refine ⟨⟨bout.trans (bout_post ..), tx.trans (tx_post ..), closed.trans (closed_post ..),
      effects.trans (effects_post ..), connected.trans (connected_post ..),
      stage.trans (stage_post ..)⟩, fun conn => ?_⟩
    rw [sent conn, tx_post, closed_post, effects_post, sent_post]
    split
    · rw [List.map_cons, List.append_assoc, List.singleton_append]
    · rfl

/-- A message, and a snapshot behind it. -/
theorem sent_handoff (l : BoutLoop) (side : Side) (frame : ServerFrame) (keyframe spy : Bool)
    (conn : ConnId) :
    ((l.post side frame).sendSnapshot side keyframe spy).sent conn =
      if l.tx side = conn ∧ l.closed conn = false then
        l.sent conn ++ [⟨frame, l.effects side⟩,
          ⟨.snapshot (l.bout.buildSnapshot side keyframe spy), l.effects side⟩]
      else l.sent conn := by
  unfold sendSnapshot
  rw [sent_post, sent_post, tx_post, closed_post, effects_post, bout_post]
  split
  · rw [List.append_assoc]
    rfl
  · rfl

/-! ## Sending alone -/

/-- What sending and the loop's own bookkeeping leave alone, but for the messages. -/
def ledger (l : BoutLoop) :
    (Bout × (Side → ConnId) × (ConnId → Bool) × (Side → List Input)) ×
      (ConnId → List Sent) × List BoutInput × List BoutInput × List BoutInput × (Side → Nat) :=
  ((l.bout, l.tx, l.closed, l.effects), l.sent, l.inputRx, l.handed, l.offered, l.lastSeq)

/-- A notice, or a snapshot of the bout as it stands. -/
def Plain (l : BoutLoop) (side : Side) (frame : ServerFrame) : Prop :=
  (frame = .opponentResumed ∨ frame = .opponentReconnecting ∨ frame = .heartbeat) ∨
    ∃ keyframe spy, frame = .snapshot (l.bout.buildSnapshot side keyframe spy)

/-- From `l` on, only notices and snapshots are sent. -/
inductive Posts (l : BoutLoop) : BoutLoop → Prop where
  | refl : Posts l l
  | post {l' : BoutLoop} {side : Side} {frame : ServerFrame} :
    Posts l l' → Plain l' side frame → Posts l (l'.post side frame)
  /-- The loop's own fields change. -/
  | settle {l' l'' : BoutLoop} : Posts l l' → l''.ledger = l'.ledger → Posts l l''

namespace Posts

variable {l l' l'' : BoutLoop}

/-- Nothing is sent. -/
theorem quiet (ledger : l'.ledger = l.ledger) : Posts l l' := .settle .refl ledger

theorem trans (first : Posts l l') (second : Posts l' l'') : Posts l l'' := by
  induction second with
  | refl => exact first
  | post _ plain ih => exact ih.post plain
  | settle _ ledger ih => exact ih.settle ledger

theorem sendSnapshot (posts : Posts l l') (side : Side) (keyframe spy : Bool) :
    Posts l (l'.sendSnapshot side keyframe spy) :=
  posts.post (.inr ⟨keyframe, spy, rfl⟩)

theorem resume (l : BoutLoop) : Posts l l.resume := by
  have lifted : Posts l { l with graceUntil := none } := .quiet rfl
  have resumed (l : BoutLoop) (side : Side) : Plain l side .opponentResumed := .inl (.inl rfl)
  have first := (lifted.sendSnapshot .a true true).post (resumed _ .a)
  have second := (first.sendSnapshot .b true true).post (resumed _ .b)
  exact second.settle rfl

theorem probe (l : BoutLoop) (side : Side) : Posts l (l.probe side) := by
  unfold BoutLoop.probe
  split
  · have beat : Posts l (l.post side .heartbeat) := .post .refl (.inl (.inr (.inr rfl)))
    exact beat.settle rfl
  · exact .refl

theorem freeze (l : BoutLoop) (now : Nat) : Posts l (l.freeze now) := by
  unfold BoutLoop.freeze
  split
  · exact .quiet rfl
  · dsimp only
    split
    · exact ((probe l .a).trans (probe _ .b)).settle rfl
    · exact .quiet rfl

theorem afterControls (l : BoutLoop) (now : Nat) : Posts l (l.afterControls now) := by
  unfold BoutLoop.afterControls
  split
  · exact .quiet rfl
  · split
    · exact .quiet rfl
    · exact freeze l now

theorem dropped (l : BoutLoop) (now : Nat) : Posts l (l.dropped now) := by
  have tell (l : BoutLoop) (ok : Bool) (side : Side) :
      Posts l (if ok then l.post side .opponentReconnecting else l) := by
    split
    · exact .post .refl (.inl (.inr (.inl rfl)))
    · exact .refl
  unfold BoutLoop.dropped
  dsimp only
  split
  · have waiting : Posts l
        { l with graceUntil := some (l.graceUntil.getD (now + rejoinGrace)) } := .quiet rfl
    exact waiting.trans ((tell _ _ .a).trans (tell _ _ .b))
  · exact .quiet rfl

theorem broadcast (l : BoutLoop) (now : Nat) : Posts l (l.broadcast now) := by
  have cleared : Posts l { l with wantKeyframe := fun _ => false } := .quiet rfl
  have posts := (cleared.sendSnapshot .a (l.wantKeyframe .a) (l.frame % 8 = 0)).sendSnapshot .b
    (l.wantKeyframe .b) (l.frame % 8 = 0)
  unfold BoutLoop.broadcast
  dsimp only
  split
  · exact posts.settle rfl
  · refine .trans ?_ (dropped _ now)
    exact posts.settle rfl

/-- Once the events are forwarded, a round only sends. -/
theorem play (l : BoutLoop) (now : Nat) :
    Posts (((l.tickBout.markDirty).forwardEvents .a).forwardEvents .b) (l.play now) := by
  have next (l : BoutLoop) : Posts l l.nextRound := by
    unfold BoutLoop.nextRound
    split
    · exact .refl
    · exact .quiet rfl
  unfold BoutLoop.play
  dsimp only
  generalize ((l.tickBout.markDirty).forwardEvents .a).forwardEvents .b = played
  split
  · have final : Posts played _ :=
      (Posts.refl.sendSnapshot .a true true).sendSnapshot .b true true
    exact final.settle rfl
  · refine .trans ?_ (next _)
    split
    · exact broadcast played now
    · exact .refl

end Posts

/-! ## Where the loop stands -/

theorem stage_resume (l : BoutLoop) : l.resume.stage = l.stage := by
  unfold resume sendSnapshot
  simp only [stage_post]

theorem stage_freeze {l : BoutLoop} (stage : l.stage = .control) (now : Nat) :
    (l.freeze now).stage ≠ .input := by
  have probed (l : BoutLoop) (side : Side) : (l.probe side).stage = l.stage := by
    unfold probe
    split
    · exact stage_post ..
    · rfl
  unfold freeze
  split
  · intro same
    cases same
  · dsimp only
    split
    · rw [probed, probed, stage]
      decide
    · rw [stage]
      decide

/-- The inputs are drained only when both sides are attached. -/
theorem connected_of_afterControls {l : BoutLoop} (stage : l.stage = .control) {now : Nat}
    (next : (l.afterControls now).stage = .input) (s : Side) :
    (l.afterControls now).connected s = true := by
  unfold afterControls at *
  split at next
  · cases next
  · split at next
    · next both =>
      rw [if_pos both]
      cases s
      · exact both.1
      · exact both.2
    · exact absurd next (stage_freeze stage now)

theorem stage_play (l : BoutLoop) (now : Nat) : (l.play now).stage ≠ .input := by
  have next (l : BoutLoop) : l.nextRound.stage ≠ .input := by
    unfold nextRound
    split
    · next done => rw [done]; intro same; cases same
    · intro same
      cases same
  unfold play
  dsimp only
  split
  · intro same
    cases same
  · exact next _

/-! ## The turns of the loop -/

section turn

variable {l : BoutLoop}

theorem turn_control {c : BoutControl} {rest : List BoutControl} (stage : l.stage = .control)
    (queue : l.controlRx = c :: rest) (now : Nat) :
    l.turn now = { l with controlRx := rest }.obey now c := by
  unfold turn
  rw [stage]
  dsimp only
  rw [queue]

theorem turn_controls_done (stage : l.stage = .control) (queue : l.controlRx = []) (now : Nat) :
    l.turn now = l.afterControls now := by
  unfold turn
  rw [stage]
  dsimp only
  rw [queue]

/-- The loop is about to hand `i` to the bout. -/
def Takes (l : BoutLoop) (i : BoutInput) (rest : List BoutInput) : Prop :=
  l.stage = .input ∧ l.inputRx = i :: rest

theorem turn_input {i : BoutInput} {rest : List BoutInput} (takes : l.Takes i rest) (now : Nat) :
    l.turn now = { l with inputRx := rest }.applyQueued i := by
  unfold turn
  rw [takes.1]
  dsimp only
  rw [takes.2]

theorem turn_inputs_done (stage : l.stage = .input) (queue : l.inputRx = []) (now : Nat) :
    l.turn now = l.play now := by
  unfold turn
  rw [stage]
  dsimp only
  rw [queue]

theorem turn_done {aWon : Option Bool} (stage : l.stage = .done aWon) (now : Nat) :
    l.turn now = l := by
  unfold turn
  rw [stage]

end turn

/-- The loop is about to attach `newId` to `side`. -/
def Reattaches (l : BoutLoop) (side : Side) (newId : ConnId) : Prop :=
  l.stage = .control ∧ ∃ rest, l.controlRx = .reattach side newId :: rest

theorem not_reattaches {l : BoutLoop} (idle : l.controlRx.isEmpty = true) (side : Side)
    (newId : ConnId) : ¬l.Reattaches side newId := by
  rintro ⟨-, rest, queue⟩
  rw [queue] at idle
  cases idle

/-- A turn of the loop attaches a socket, obeys another control, ends the controls,
takes the oldest input, plays, or does nothing. -/
inductive Turned (l : BoutLoop) (now : Nat) : BoutLoop → Prop where
  | reattach (side : Side) (newId : ConnId) (rest : List BoutControl)
    (reattaches : l.Reattaches side newId) :
    Turned l now ({ l with controlRx := rest }.reattach side newId)
  | obey (c : BoutControl) (rest : List BoutControl) (stage : l.stage = .control)
    (other : ∀ side newId, c ≠ .reattach side newId) :
    Turned l now ({ l with controlRx := rest }.obey now c)
  | settled (stage : l.stage = .control) : Turned l now (l.afterControls now)
  | take (i : BoutInput) (rest : List BoutInput) (takes : l.Takes i rest) :
    Turned l now ({ l with inputRx := rest }.applyQueued i)
  | play (stage : l.stage = .input) (drained : l.inputRx = []) : Turned l now (l.play now)
  | done : Turned l now l

theorem turned (l : BoutLoop) (now : Nat) : Turned l now (l.turn now) := by
  rcases stage : l.stage with _ | _ | aWon
  · rcases queue : l.controlRx with _ | ⟨c, rest⟩
    · rw [turn_controls_done stage queue]
      exact .settled stage
    rw [turn_control stage queue]
    rcases c with ⟨side, newId⟩ | side | _ | ⟨side, weapon, funds⟩ | side
    · exact .reattach side newId rest ⟨stage, rest, queue⟩
    all_goals exact .obey _ rest stage fun _ _ same => by cases same
  · rcases queue : l.inputRx with _ | ⟨i, rest⟩
    · rw [turn_inputs_done stage queue]
      exact .play stage queue
    · rw [turn_input ⟨stage, queue⟩]
      exact .take i rest ⟨stage, queue⟩
  · rw [turn_done stage]
    exact .done

end BoutLoop

end BattleTris
