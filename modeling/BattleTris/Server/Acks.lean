import BattleTris.Server.Discipline
import BattleTris.Server.Sending

/-!
What an acknowledgement on the wire says about the inputs a socket has sent, and what
a reattached socket starts from.

Both hold as long as the input channel never overflows and no input of an earlier
socket is left behind; the counterexamples are a flood, and an input caught by the
freeze.
-/

namespace BattleTris

namespace BoutLoop

/-! ## What sending leaves alone -/

/-- The inputs and the acknowledgements. -/
def intake (l : BoutLoop) :
    (Side → Nat) × (Side → ConnId) × (Side → Nat) × List BoutInput × List BoutInput ×
      List BoutInput :=
  (l.bout.ack, l.tx, l.lastSeq, l.inputRx, l.handed, l.offered)

/-- From `l` to `l'` only messages are sent, each snapshot with the acknowledgement
of the side it goes to. -/
structure Sends (l l' : BoutLoop) : Prop where
  intake : l'.intake = l.intake
  sent : ∀ conn, ∀ m ∈ l'.sent conn, m ∈ l.sent conn ∨
    ∃ side, l.tx side = conn ∧ ∀ s, m.frame = .snapshot s → s.ack = l.bout.ack side

namespace Sends

variable {l l' l'' : BoutLoop}

theorem ack (sends : Sends l l') : l'.bout.ack = l.bout.ack := congrArg (·.1) sends.intake

theorem tx (sends : Sends l l') : l'.tx = l.tx := congrArg (·.2.1) sends.intake

theorem lastSeq (sends : Sends l l') : l'.lastSeq = l.lastSeq :=
  congrArg (·.2.2.1) sends.intake

theorem inputRx (sends : Sends l l') : l'.inputRx = l.inputRx :=
  congrArg (·.2.2.2.1) sends.intake

theorem handed (sends : Sends l l') : l'.handed = l.handed :=
  congrArg (·.2.2.2.2.1) sends.intake

theorem offered (sends : Sends l l') : l'.offered = l.offered :=
  congrArg (·.2.2.2.2.2) sends.intake

/-- Nothing is sent. -/
theorem quiet (intake : l'.intake = l.intake) (sent : l'.sent = l.sent) : Sends l l' :=
  ⟨intake, fun _ _ mem => .inl (sent ▸ mem)⟩

theorem refl (l : BoutLoop) : Sends l l := quiet rfl rfl

theorem trans (first : Sends l l') (second : Sends l' l'') : Sends l l'' := by
  refine ⟨second.intake.trans first.intake, fun conn m mem => ?_⟩
  rcases second.sent conn m mem with old | ⟨side, tx, acks⟩
  · exact first.sent conn m old
  · rw [first.tx] at tx
    rw [first.ack] at acks
    exact .inr ⟨side, tx, acks⟩

/-- Then the loop's own fields change. -/
theorem settle (sends : Sends l l') (intake : l''.intake = l'.intake)
    (sent : l''.sent = l'.sent) : Sends l l'' :=
  sends.trans (quiet intake sent)

/-- A message that is no snapshot, or one of the present bout. -/
theorem post (l : BoutLoop) (side : Side) (frame : ServerFrame)
    (acks : ∀ s, frame = .snapshot s → s.ack = l.bout.ack side) : Sends l (l.post side frame) := by
  refine ⟨?_, fun conn m mem => ?_⟩
  · unfold BoutLoop.post
    split <;> rfl
  · rw [sent_post] at mem
    split at mem
    · next taken =>
      rcases List.mem_append.mp mem with old | new
      · exact .inl old
      · obtain rfl := List.mem_singleton.mp new
        exact .inr ⟨side, taken.1, acks⟩
    · exact .inl mem

theorem of_posts (posts : Posts l l') : Sends l l' := by
  induction posts with
  | refl => exact .refl l
  | post _ plain ih =>
    refine ih.trans (post _ _ _ fun s same => ?_)
    subst same
    rcases plain with notice | ⟨keyframe, spy, built⟩
    · rcases notice with same | same | same <;> cases same
    · cases built
      rfl
  | settle _ ledger ih =>
    have intake := congrArg (fun r => (r.1.1.ack, r.1.2.1, r.2.2.2.2.2, r.2.2.1, r.2.2.2.1,
      r.2.2.2.2.1)) ledger
    exact ih.settle intake (congrArg (·.2.1) ledger)

theorem forwardEvents (l : BoutLoop) (side : Side) : Sends l (l.forwardEvents side) := by
  unfold BoutLoop.forwardEvents
  split
  · refine Loop.foldl_invariant (P := Sends l) (fun e _ l' sends => sends.trans ?_)
      (quiet rfl rfl)
    exact post l' side (.event e) fun _ same => by cases same
  · exact .refl l

theorem tickBout (l : BoutLoop) : Sends l l.tickBout := by
  refine quiet ?_ rfl
  exact congrArg (fun ack => (ack, l.tx, l.lastSeq, l.inputRx, l.handed, l.offered))
    (l.bout.ack_tickMs tickMillis)

theorem play (l : BoutLoop) (now : Nat) : Sends l (l.play now) := by
  have marked (l : BoutLoop) : Sends l l.markDirty := quiet rfl rfl
  have forwarded := ((tickBout l).trans (marked _)).trans
    ((forwardEvents _ .a).trans (forwardEvents _ .b))
  exact forwarded.trans (of_posts (Posts.play l now))

end Sends

/-! ## One step of the loop -/

/-- A newly attached socket, from a clean baseline. -/
def attach (l : BoutLoop) (side : Side) (newId : ConnId) : BoutLoop :=
  { l with
    tx := Function.update l.tx side newId
    bout := l.bout.resetAck side
    lastSeq := Function.update l.lastSeq side 0 }

/-- Once it is attached, a new socket is only sent to. -/
theorem Sends.reattach (l : BoutLoop) (rest : List BoutControl) (side : Side) (newId : ConnId) :
    Sends (l.attach side newId) ({ l with controlRx := rest }.reattach side newId) := by
  have attached : Sends (l.attach side newId)
      { l with
        controlRx := rest
        tx := Function.update l.tx side newId
        connected := Function.update l.connected side true
        bout := l.bout.resetAck side
        lastSeq := Function.update l.lastSeq side 0 } := quiet rfl rfl
  have handoff := (attached.trans (post _ side (.matchStart side (l.seedOf side))
    fun _ same => by cases same)).trans (of_posts (Posts.refl.sendSnapshot side true true))
  unfold BoutLoop.reattach
  dsimp only
  split
  · exact handoff.trans (of_posts (Posts.resume _))
  · exact handoff

/-- A step of the loop sends, attaches a socket, or takes the oldest input. -/
theorem turn_cases (l : BoutLoop) (now : Nat) :
    Sends l (l.turn now) ∨
    (∃ side newId, l.Reattaches side newId ∧ Sends (l.attach side newId) (l.turn now)) ∨
    ∃ i rest, l.Takes i rest ∧ l.turn now = { l with inputRx := rest }.applyQueued i := by
  have turned := l.turned now
  generalize l.turn now = l' at turned
  cases turned with
  | reattach side newId rest reattaches =>
    exact .inr (.inl ⟨side, newId, reattaches, Sends.reattach l rest side newId⟩)
  | obey c rest stage other =>
    cases c with
    | reattach side newId => exact absurd rfl (other side newId)
    | forfeit => exact .inl (.quiet rfl rfl)
    | addSpectator => exact .inl (.quiet rfl rfl)
    | debugGrant side weapon funds =>
      obtain ⟨_, _, granted⟩ := l.bout.debugGrant_eq side weapon funds
      refine .inl (.quiet ?_ rfl)
      exact congrArg (fun b => (b.ack, l.tx, l.lastSeq, l.inputRx, l.handed, l.offered)) granted
    | resync => exact .inl (.quiet rfl rfl)
  | settled => exact .inl (.of_posts (Posts.afterControls l now))
  | take i rest takes => exact .inr (.inr ⟨i, rest, takes, rfl⟩)
  | play => exact .inl (Sends.play l now)
  | done => exact .inl (.refl l)

/-- What the handlers do to the inputs: one takes a bound socket's input. -/
theorem step_cases (l : BoutLoop) (e : Step) :
    Sends l (l.step e) ∨
    (∃ conn i seq side, e = .input conn i seq ∧ l.binding conn = some side) ∨
    ∃ now, e = .turn now := by
  have told (l : BoutLoop) (c : BoutControl) : Sends l (l.control c) := by
    unfold BoutLoop.control
    split
    · exact .quiet rfl rfl
    · exact .refl l
  have asked (conn : ConnId) (c : Side → BoutControl) : Sends l (l.request conn c) := by
    unfold BoutLoop.request
    split
    · exact told l _
    · exact .refl l
  cases e with
  | input conn i seq =>
    rcases bound : l.binding conn with _ | side
    · refine .inl ?_
      change Sends l (l.input conn i seq)
      unfold BoutLoop.input
      rw [bound]
      exact .refl l
    · exact .inr (.inl ⟨conn, i, seq, side, rfl, bound⟩)
  | rejoin conn side =>
    refine .inl ?_
    change Sends l (l.rejoin conn side)
    unfold BoutLoop.rejoin
    split
    · exact (told l _).settle rfl rfl
    · exact .refl l
  | resync conn => exact .inl (asked conn _)
  | leaveMatch conn => exact .inl (asked conn _)
  | spectate => exact .inl (told l _)
  | grant => exact .inl (told l _)
  | close => exact .inl (.quiet rfl rfl)
  | remove => exact .inl (.quiet rfl rfl)
  | turn now => exact .inr (.inr ⟨now, rfl⟩)

/-- An input that finds room is queued. -/
theorem input_eq {l : BoutLoop} {conn : ConnId} {side : Side} (bound : l.binding conn = some side)
    (room : l.inputRx.length < boutInputCap) (i : Input) (seq : Nat) :
    l.input conn i seq =
      { l with
        inputRx := l.inputRx ++ [⟨side, i, seq, conn⟩]
        offered := l.offered ++ [⟨side, i, seq, conn⟩]
        lastSeq := Function.update l.lastSeq side seq } := by
  unfold input
  rw [bound]
  dsimp only
  rw [if_pos room]

/-- An acknowledgement moves to the number of the input taken, or stays. -/
theorem ack_applyQueued (l : BoutLoop) (i : BoutInput) :
    (l.applyQueued i).bout.ack = l.bout.ack ∨
      (l.applyQueued i).bout.ack = Function.update l.bout.ack i.side i.seq := by
  have judged := l.bout.judged_applyInput i.side i.input i.seq
  unfold applyQueued
  dsimp only
  generalize l.bout.applyInput i.side i.input i.seq = r at judged
  cases judged with
  | illegal => exact .inl rfl
  | stale => exact .inl rfl
  | blocked => exact .inr rfl
  | applied => exact .inr rfl

/-! ## Cumulative acknowledgements -/

/-- The inputs of a bound socket find room, are numbered upwards from 1 and come from
the socket that is attached; a new socket is attached when no other has an input for
its side in the channel. -/
def Orderly (l : BoutLoop) : Step → Prop
  | .input conn _ seq =>
    ∀ side, l.binding conn = some side →
      l.inputRx.length < boutInputCap ∧ l.tx side = conn ∧ 0 < seq ∧
        ∀ i ∈ l.offered, i.sender = conn → i.seq < seq
  | .turn _ =>
    ∀ side newId, l.Reattaches side newId →
      ∀ i ∈ l.inputRx, i.side = side → i.sender = newId
  | _ => True

/-- What holds between the steps of an orderly run. -/
structure Cumulative (l : BoutLoop) : Prop where
  kept : l.offered = l.handed ++ l.inputRx
  rising : l.offered.Pairwise fun i j => i.sender = j.sender → i.seq < j.seq
  positive : ∀ i ∈ l.offered, 0 < i.seq
  own : ∀ i ∈ l.inputRx, l.tx i.side = i.sender
  acked : ∀ side, l.bout.ack side = 0 ∨
    ∃ i ∈ l.handed, i.sender = l.tx side ∧ i.seq = l.bout.ack side
  sent : ∀ conn, ∀ m ∈ l.sent conn, ∀ s, m.frame = .snapshot s →
    s.ack = 0 ∨ ∃ i ∈ l.handed, i.sender = conn ∧ i.seq = s.ack

theorem Cumulative.sends {l l' : BoutLoop} (held : Cumulative l) (sends : Sends l l') :
    Cumulative l' := by
  refine ⟨?_, ?_, ?_, ?_, ?_, ?_⟩
  · rw [sends.offered, sends.handed, sends.inputRx]
    exact held.kept
  · rw [sends.offered]
    exact held.rising
  · rw [sends.offered]
    exact held.positive
  · rw [sends.inputRx, sends.tx]
    exact held.own
  · rw [sends.ack, sends.handed, sends.tx]
    exact held.acked
  · rw [sends.handed]
    intro conn m mem s snapshot
    rcases sends.sent conn m mem with old | ⟨side, rfl, acks⟩
    · exact held.sent conn m old s snapshot
    · rw [acks s snapshot]
      exact held.acked side

theorem Cumulative.attach {l : BoutLoop} (held : Cumulative l) {side : Side} {newId : ConnId}
    (drained : ∀ i ∈ l.inputRx, i.side = side → i.sender = newId) :
    Cumulative (l.attach side newId) := by
  refine ⟨held.kept, held.rising, held.positive, fun i mem => ?_, fun s => ?_, held.sent⟩
  · change Function.update l.tx side newId i.side = i.sender
    rcases eq_or_ne i.side side with here | apart
    · rw [here, Function.update_self]
      exact (drained i mem here).symm
    · rw [Function.update_of_ne apart]
      exact held.own i mem
  · change Function.update l.bout.ack side 0 s = 0 ∨ ∃ i ∈ l.handed,
      i.sender = Function.update l.tx side newId s ∧ i.seq = Function.update l.bout.ack side 0 s
    rcases eq_or_ne s side with rfl | apart
    · exact .inl (Function.update_self ..)
    · rw [Function.update_of_ne apart, Function.update_of_ne apart]
      exact held.acked s

theorem Cumulative.take {l : BoutLoop} (held : Cumulative l) {i : BoutInput}
    {rest : List BoutInput} (queue : l.inputRx = i :: rest) :
    Cumulative ({ l with inputRx := rest }.applyQueued i) := by
  have later {P : BoutInput → Prop} (found : ∃ j ∈ l.handed, P j) :
      ∃ j ∈ l.handed ++ [i], P j := by
    obtain ⟨j, mem, holds⟩ := found
    exact ⟨j, List.mem_append_left _ mem, holds⟩
  refine ⟨?_, held.rising, held.positive, fun j mem => ?_, fun side => ?_,
    fun conn m mem s snapshot => ?_⟩
  · change l.offered = (l.handed ++ [i]) ++ rest
    rw [held.kept, queue, List.append_assoc]
    rfl
  · exact held.own j (queue ▸ List.mem_cons_of_mem i mem)
  · have mine := held.own i (queue ▸ List.mem_cons_self)
    change _ ∨ ∃ j ∈ l.handed ++ [i], j.sender = l.tx side ∧ _
    rcases ack_applyQueued { l with inputRx := rest } i with same | moved
    · rw [same]
      exact (held.acked side).imp_right later
    · rw [moved]
      rcases eq_or_ne side i.side with rfl | apart
      · rw [Function.update_self]
        exact .inr ⟨i, List.mem_append_right _ List.mem_cons_self, mine.symm, rfl⟩
      · rw [Function.update_of_ne apart]
        exact (held.acked side).imp_right later
  · exact (held.sent conn m mem s snapshot).imp_right later

theorem Cumulative.offer {l : BoutLoop} (held : Cumulative l) {conn : ConnId} {side : Side}
    {seq : Nat} (i : Input) (bound : l.binding conn = some side)
    (orderly : l.Orderly (.input conn i seq)) : Cumulative (l.input conn i seq) := by
  obtain ⟨room, attached, positive, above⟩ := orderly side bound
  rw [input_eq bound room]
  refine ⟨?_, ?_, fun j mem => ?_, fun j mem => ?_, held.acked, held.sent⟩
  · change l.offered ++ _ = l.handed ++ (l.inputRx ++ _)
    rw [held.kept, List.append_assoc]
  · rw [List.pairwise_append]
    refine ⟨held.rising, List.pairwise_singleton _ _, fun j mem k last sender => ?_⟩
    obtain rfl := List.mem_singleton.mp last
    exact above j mem sender
  · rcases List.mem_append.mp mem with old | new
    · exact held.positive j old
    · obtain rfl := List.mem_singleton.mp new
      exact positive
  · rcases List.mem_append.mp mem with old | new
    · exact held.own j old
    · obtain rfl := List.mem_singleton.mp new
      exact attached

theorem Cumulative.step {l : BoutLoop} (held : Cumulative l) (e : Step) (orderly : l.Orderly e) :
    Cumulative (l.step e) := by
  rcases l.step_cases e with sends | ⟨conn, i, seq, side, rfl, bound⟩ | ⟨now, rfl⟩
  · exact held.sends sends
  · exact held.offer i bound orderly
  · change Cumulative (l.turn now)
    rcases l.turn_cases now with sends | ⟨side, newId, reattaches, sends⟩ | ⟨i, rest, takes, took⟩
    · exact held.sends sends
    · exact (held.attach (orderly side newId reattaches)).sends sends
    · rw [took]
      exact held.take takes.2

theorem cumulative_start (seedA seedB : Nat) (human : Side → Bool) (connA connB : ConnId) :
    Cumulative (start seedA seedB human connA connB) := by
  refine ⟨rfl, .nil, fun i mem => absurd mem List.not_mem_nil,
    fun i mem => absurd mem List.not_mem_nil, fun _ => .inl rfl, fun conn m mem s snapshot => ?_⟩
  have handoff : ∃ side seed, m.frame = .matchStart side seed := by
    unfold start at mem
    dsimp only at mem
    rcases eq_or_ne conn connB with rfl | other
    · rw [Function.update_self] at mem
      obtain rfl := List.mem_singleton.mp mem
      exact ⟨.b, seedB, rfl⟩
    rw [Function.update_of_ne other] at mem
    rcases eq_or_ne conn connA with rfl | other
    · rw [Function.update_self] at mem
      obtain rfl := List.mem_singleton.mp mem
      exact ⟨.a, seedA, rfl⟩
    · rw [Function.update_of_ne other] at mem
      exact absurd mem List.not_mem_nil
  obtain ⟨side, seed, handoff⟩ := handoff
  rw [handoff] at snapshot
  cases snapshot

/-- In an orderly run, whatever a snapshot acknowledges has been handed to the bout:
every input its socket has sent up to that number. -/
theorem acks_cumulative {seedA seedB : Nat} {human : Side → Bool} {connA connB : ConnId}
    {steps : List Step} {l : BoutLoop}
    (run : Run Orderly step (start seedA seedB human connA connB) steps l) {conn : ConnId}
    {m : Sent} (sent : m ∈ l.sent conn) {s : Snapshot} (snapshot : m.frame = .snapshot s)
    {i : BoutInput} (offered : i ∈ l.offered) (sender : i.sender = conn) (acked : i.seq ≤ s.ack) :
    i ∈ l.handed := by
  have held : Cumulative l :=
    run.invariant (fun _ e held orderly => held.step e orderly) (cumulative_start ..)
  rcases held.sent conn m sent s snapshot with zero | ⟨j, handed, same, number⟩
  · have positive := held.positive i offered
    omega
  rw [held.kept] at offered
  rcases List.mem_append.mp offered with done | waiting
  · exact done
  · -- what waits is numbered above everything handed
    have rising := held.rising
    rw [held.kept, List.pairwise_append] at rising
    have below := rising.2.2 j handed i waiting (same.trans sender.symm)
    omega

/-- Some snapshot a socket was sent acknowledges `n` or more. -/
def acksUpTo (l : BoutLoop) (conn : ConnId) (n : Nat) : Bool :=
  (l.sent conn).any fun m =>
    match m.frame with
    | .snapshot s => n ≤ s.ack
    | _ => false

theorem exists_snapshot_of_acksUpTo {l : BoutLoop} {conn : ConnId} {n : Nat}
    (acked : l.acksUpTo conn n = true) :
    ∃ m ∈ l.sent conn, ∃ s, m.frame = .snapshot s ∧ n ≤ s.ack := by
  obtain ⟨m, mem, acks⟩ := List.any_eq_true.mp acked
  refine ⟨m, mem, ?_⟩
  rcases frame : m.frame with _ | s | _ | _ | _ | _
  · rw [frame] at acks; cases acks
  · rw [frame] at acks
    exact ⟨s, rfl, of_decide_eq_true acks⟩
  all_goals rw [frame] at acks; cases acks

/-- The match with one input of side A, up to the first snapshots. -/
def firstRound : Nat → BoutLoop
  | 0 => (start 7 3 (fun _ => true) 1 2).step (.input 1 .leaveBazaar 1)
  | n + 1 => (firstRound n).step (.turn 0)

/-- One input of side A, acknowledged by the first snapshot. -/
theorem acks_cumulative_first : ⟨.a, .leaveBazaar, 1, 1⟩ ∈ (firstRound 3).handed := by
  have turns (n : Nat) (idle : (firstRound n).controlRx.isEmpty = true) :
      (firstRound n).Orderly (.turn 0) := fun side newId reattaches =>
    absurd reattaches (not_reattaches idle side newId)
  have offer : (start 7 3 (fun _ => true) 1 2).Orderly (.input 1 .leaveBazaar 1) := by
    intro side bound
    obtain rfl : side = .a := by
      cases side with
      | a => rfl
      | b => cases bound
    exact ⟨by decide, rfl, Nat.one_pos, fun i mem => absurd mem List.not_mem_nil⟩
  have run : Run Orderly step (start 7 3 (fun _ => true) 1 2) _ (firstRound 3) :=
    (((Run.nil.snoc offer).snoc (turns 0 (by decide +kernel))).snoc
      (turns 1 (by decide +kernel))).snoc (turns 2 (by decide +kernel))
  have acked : (firstRound 3).acksUpTo 1 1 = true := by decide +kernel
  obtain ⟨m, sent, s, snapshot, acks⟩ := exists_snapshot_of_acksUpTo acked
  have offered : ⟨.a, .leaveBazaar, 1, 1⟩ ∈ (firstRound 3).offered := by decide +kernel
  exact acks_cumulative run sent snapshot offered rfl acks

/-- 257 inputs before the first drain, one more after it, and the rounds that
acknowledge it. -/
def flood : List Step :=
  (List.range 257).map (fun k => .input 1 .leaveBazaar (k + 1)) ++
    List.replicate 258 (.turn 0) ++ [.input 1 .leaveBazaar 258] ++ List.replicate 5 (.turn 0)

/-- A flood of inputs: number 257 finds the channel full, and is acknowledged by 258. -/
theorem flood_acked_over_hole :
    let l := flood.foldl step (start 7 3 (fun _ => true) 1 2)
    l.acksUpTo 1 258 = true ∧ ⟨.a, .leaveBazaar, 257, 1⟩ ∈ l.offered ∧
      ⟨.a, .leaveBazaar, 257, 1⟩ ∉ l.handed := by
  decide +kernel

/-! ## A clean slate -/

/-- The inputs of a bound socket find room, come from the socket that is attached and
are numbered upwards since it was; a socket is attached when no input for its side is
in the channel. -/
def Settled (l : BoutLoop) : Step → Prop
  | .input conn _ seq =>
    ∀ side, l.binding conn = some side →
      l.inputRx.length < boutInputCap ∧ l.tx side = conn ∧ l.lastSeq side < seq
  | .turn _ => ∀ side newId, l.Reattaches side newId → ∀ i ∈ l.inputRx, i.side ≠ side
  | _ => True

/-- What holds between the steps of a settled run. -/
structure Slate (l : BoutLoop) : Prop where
  kept : l.offered = l.handed ++ l.inputRx
  own : ∀ i ∈ l.inputRx, l.tx i.side = i.sender
  fresh : ∀ i ∈ l.inputRx, l.bout.ack i.side < i.seq ∧ i.seq ≤ l.lastSeq i.side
  rising : l.inputRx.Pairwise fun i j => i.side = j.side → i.seq < j.seq
  counted : ∀ side, l.bout.ack side ≤ l.lastSeq side

theorem Slate.sends {l l' : BoutLoop} (held : Slate l) (sends : Sends l l') : Slate l' := by
  refine ⟨?_, ?_, ?_, ?_, ?_⟩
  · rw [sends.offered, sends.handed, sends.inputRx]
    exact held.kept
  · rw [sends.inputRx, sends.tx]
    exact held.own
  · rw [sends.inputRx, sends.ack, sends.lastSeq]
    exact held.fresh
  · rw [sends.inputRx]
    exact held.rising
  · rw [sends.ack, sends.lastSeq]
    exact held.counted

theorem Slate.attach {l : BoutLoop} (held : Slate l) {side : Side} {newId : ConnId}
    (drained : ∀ i ∈ l.inputRx, i.side ≠ side) : Slate (l.attach side newId) := by
  refine ⟨held.kept, fun i mem => ?_, fun i mem => ?_, held.rising, fun s => ?_⟩
  · change Function.update l.tx side newId i.side = i.sender
    rw [Function.update_of_ne (drained i mem)]
    exact held.own i mem
  · change Function.update l.bout.ack side 0 i.side < i.seq ∧
      i.seq ≤ Function.update l.lastSeq side 0 i.side
    rw [Function.update_of_ne (drained i mem), Function.update_of_ne (drained i mem)]
    exact held.fresh i mem
  · change Function.update l.bout.ack side 0 s ≤ Function.update l.lastSeq side 0 s
    rcases eq_or_ne s side with rfl | apart
    · rw [Function.update_self, Function.update_self]
    · rw [Function.update_of_ne apart, Function.update_of_ne apart]
      exact held.counted s

theorem Slate.take {l : BoutLoop} (held : Slate l) {i : BoutInput} {rest : List BoutInput}
    (queue : l.inputRx = i :: rest) : Slate ({ l with inputRx := rest }.applyQueued i) := by
  have waits (j : BoutInput) (mem : j ∈ rest) : j ∈ l.inputRx :=
    queue ▸ List.mem_cons_of_mem i mem
  have rising := held.rising
  rw [queue, List.pairwise_cons] at rising
  have mine := held.fresh i (queue ▸ List.mem_cons_self)
  refine ⟨?_, fun j mem => held.own j (waits j mem), fun j mem => ?_, rising.2, fun s => ?_⟩
  · change l.offered = (l.handed ++ [i]) ++ rest
    rw [held.kept, queue, List.append_assoc]
    rfl
  · have old := held.fresh j (waits j mem)
    refine ⟨?_, old.2⟩
    rcases ack_applyQueued { l with inputRx := rest } i with same | moved
    · rw [same]
      exact old.1
    · rw [moved]
      rcases eq_or_ne j.side i.side with here | apart
      · rw [here, Function.update_self]
        exact rising.1 j mem here.symm
      · rw [Function.update_of_ne apart]
        exact old.1
  · change _ ≤ l.lastSeq s
    rcases ack_applyQueued { l with inputRx := rest } i with same | moved
    · rw [same]
      exact held.counted s
    · rw [moved]
      rcases eq_or_ne s i.side with rfl | apart
      · rw [Function.update_self]
        exact mine.2
      · rw [Function.update_of_ne apart]
        exact held.counted s

theorem Slate.offer {l : BoutLoop} (held : Slate l) {conn : ConnId} {side : Side} {seq : Nat}
    (i : Input) (bound : l.binding conn = some side) (settled : l.Settled (.input conn i seq)) :
    Slate (l.input conn i seq) := by
  obtain ⟨room, attached, above⟩ := settled side bound
  have counted := held.counted side
  have raised (s : Side) : l.lastSeq s ≤ Function.update l.lastSeq side seq s := by
    rcases eq_or_ne s side with rfl | apart
    · rw [Function.update_self]
      exact above.le
    · rw [Function.update_of_ne apart]
  rw [input_eq bound room]
  refine ⟨?_, fun j mem => ?_, fun j mem => ?_, ?_, fun s => (held.counted s).trans (raised s)⟩
  · change l.offered ++ _ = l.handed ++ (l.inputRx ++ _)
    rw [held.kept, List.append_assoc]
  · rcases List.mem_append.mp mem with old | new
    · exact held.own j old
    · obtain rfl := List.mem_singleton.mp new
      exact attached
  · rcases List.mem_append.mp mem with old | new
    · exact (held.fresh j old).imp_right fun below => below.trans (raised j.side)
    · obtain rfl := List.mem_singleton.mp new
      refine ⟨Nat.lt_of_le_of_lt counted above, ?_⟩
      change seq ≤ Function.update l.lastSeq side seq side
      rw [Function.update_self]
  · rw [List.pairwise_append]
    refine ⟨held.rising, List.pairwise_singleton _ _, fun j mem k last here => ?_⟩
    obtain rfl := List.mem_singleton.mp last
    have below := (held.fresh j mem).2
    rw [show j.side = side from here] at below
    exact Nat.lt_of_le_of_lt below above

theorem Slate.step {l : BoutLoop} (held : Slate l) (e : Step) (settled : l.Settled e) :
    Slate (l.step e) := by
  rcases l.step_cases e with sends | ⟨conn, i, seq, side, rfl, bound⟩ | ⟨now, rfl⟩
  · exact held.sends sends
  · exact held.offer i bound settled
  · change Slate (l.turn now)
    rcases l.turn_cases now with sends | ⟨side, newId, reattaches, sends⟩ | ⟨i, rest, takes, took⟩
    · exact held.sends sends
    · exact (held.attach (settled side newId reattaches)).sends sends
    · rw [took]
      exact held.take takes.2

theorem slate_start (seedA seedB : Nat) (human : Side → Bool) (connA connB : ConnId) :
    Slate (start seedA seedB human connA connB) :=
  ⟨rfl, fun _ mem => absurd mem List.not_mem_nil, fun _ mem => absurd mem List.not_mem_nil, .nil,
    fun _ => le_rfl⟩

/-- In a settled run nothing offered is lost; the acknowledgement of a side moves only
when its socket is attached, to 0, or when an input of the attached socket is taken;
and every legal input taken is fresh. -/
theorem reattach_clean_slate {seedA seedB : Nat} {human : Side → Bool} {connA connB : ConnId}
    {steps : List Step} {l : BoutLoop}
    (run : Run Settled step (start seedA seedB human connA connB) steps l) :
    l.offered = l.handed ++ l.inputRx ∧
    (∀ now side, (l.turn now).bout.ack side = l.bout.ack side ∨
      (∃ newId, l.Reattaches side newId ∧ (l.turn now).bout.ack side = 0) ∨
      ∃ i rest, l.Takes i rest ∧ i.side = side ∧ i.sender = l.tx side) ∧
    (∀ now i rest, l.Takes i rest → i.sender = l.tx i.side ∧
      (isLegalClientInput i.input = true →
        (l.turn now).bout.ack = Function.update l.bout.ack i.side i.seq)) := by
  have held : Slate l :=
    run.invariant (fun _ e held settled => held.step e settled) (slate_start ..)
  refine ⟨held.kept, fun now side => ?_, fun now i rest takes => ⟨?_, fun legal => ?_⟩⟩
  · rcases l.turn_cases now with sends | ⟨s, newId, reattaches, sends⟩ | ⟨i, rest, takes, took⟩
    · exact .inl (congrFun sends.ack side)
    · rcases eq_or_ne side s with rfl | apart
      · refine .inr (.inl ⟨newId, reattaches, ?_⟩)
        rw [sends.ack]
        exact Function.update_self ..
      · left
        rw [sends.ack]
        exact Function.update_of_ne apart ..
    · rw [took]
      rcases eq_or_ne side i.side with rfl | apart
      · exact .inr (.inr ⟨i, rest, takes, rfl, (held.own i (takes.2 ▸ List.mem_cons_self)).symm⟩)
      · left
        rcases ack_applyQueued { l with inputRx := rest } i with same | moved
        · rw [same]
        · rw [moved, Function.update_of_ne apart]
  · exact (held.own i (takes.2 ▸ List.mem_cons_self)).symm
  · have fresh := (held.fresh i (takes.2 ▸ List.mem_cons_self)).1
    rw [turn_input takes]
    have judged := l.bout.judged_applyInput i.side i.input i.seq
    unfold applyQueued
    dsimp only
    generalize l.bout.applyInput i.side i.input i.seq = r at judged
    cases judged with
    | illegal gate => exact absurd (gate.symm.trans legal) Bool.false_ne_true
    | stale _ old => exact absurd old (Nat.not_le_of_lt fresh)
    | blocked => rfl
    | applied => rfl

/-- One input of side A, taken as the first of its socket. -/
theorem reattach_clean_slate_first :
    (firstRound 1).offered = (firstRound 1).handed ++ (firstRound 1).inputRx ∧
      ((firstRound 1).turn 0).bout.ack = Function.update (firstRound 1).bout.ack .a 1 := by
  have offer : (start 7 3 (fun _ => true) 1 2).Settled (.input 1 .leaveBazaar 1) := by
    intro side bound
    obtain rfl : side = .a := by
      cases side with
      | a => rfl
      | b => cases bound
    exact ⟨by decide, rfl, Nat.one_pos⟩
  have turned : (firstRound 0).Settled (.turn 0) := fun side newId reattaches =>
    absurd reattaches (not_reattaches (by decide +kernel) side newId)
  have run : Run Settled step (start 7 3 (fun _ => true) 1 2) _ (firstRound 1) :=
    (Run.nil.snoc offer).snoc turned
  obtain ⟨kept, -, taken⟩ := reattach_clean_slate run
  have takes : (firstRound 1).Takes ⟨.a, .leaveBazaar, 1, 1⟩ [] :=
    ⟨by decide +kernel, by decide +kernel⟩
  exact ⟨kept, (taken 0 _ _ takes).2 rfl⟩

/-- Side A's socket closes; its last input arrives when the freeze has begun; a new
socket rejoins, and sends its first input. -/
def frozenInput : List Step :=
  [.close 1, .turn 0, .turn 0, .input 1 .moveLeft 57, .remove 1, .turn 0, .rejoin 3 .a,
    .turn 0, .turn 0, .turn 0, .turn 0, .input 3 .moveLeft 1, .turn 0]

/-- An input caught by the freeze is applied as the new socket's, whose own first input
is then stale. -/
theorem frozen_input_rejects_new :
    let l := frozenInput.foldl step (start 7 3 (fun _ => true) 1 2)
    l.tx .a = 3 ∧ l.stage = .input ∧ l.inputRx = [⟨.a, .moveLeft, 1, 3⟩] ∧
      l.handed = [⟨.a, .moveLeft, 57, 1⟩] ∧ l.bout.frames = [⟨1, 0, .moveLeft⟩] ∧
      (l.turn 0).bout.ack .a = 57 ∧ (l.turn 0).bout.frames = [⟨1, 0, .moveLeft⟩] := by
  decide +kernel

end BoutLoop

end BattleTris
