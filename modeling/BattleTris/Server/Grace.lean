import BattleTris.Lib.Run
import BattleTris.Server.Discipline
import BattleTris.Server.Sending

/-!
The freeze of a match whose player is away, and its deadline.

`Guarded` lists what a turn of the loop does to the seats: who is attached, and until
when the match waits.  `Watch` keeps beside the loop when each side was found gone.
-/

namespace BattleTris

namespace BoutLoop

/-! ## What sending leaves alone -/

/-- Who is attached, the deadline of a freeze, and who is human. -/
def seats (l : BoutLoop) : (Side → Bool) × Option Nat × (Side → Bool) :=
  (l.connected, l.graceUntil, l.human)

/-- What the match was fed: its ticks, and the inputs handed to it. -/
def fed (l : BoutLoop) : Nat × List BoutInput := (l.bout.tick, l.handed)

theorem of_seats {l : BoutLoop} {connected human : Side → Bool} {grace : Option Nat}
    (seats : l.seats = (connected, grace, human)) :
    l.connected = connected ∧ l.graceUntil = grace ∧ l.human = human := by
  obtain ⟨connected, rest⟩ := Prod.mk.inj seats
  exact ⟨connected, Prod.mk.inj rest⟩

theorem seats_post (l : BoutLoop) (side : Side) (frame : ServerFrame) :
    (l.post side frame).seats = l.seats := by
  unfold post
  split <;> rfl

theorem fed_post (l : BoutLoop) (side : Side) (frame : ServerFrame) :
    (l.post side frame).fed = l.fed := by
  unfold post
  split <;> rfl

theorem seats_sendSnapshot (l : BoutLoop) (side : Side) (keyframe spy : Bool) :
    (l.sendSnapshot side keyframe spy).seats = l.seats :=
  seats_post l side _

theorem stage_sendSnapshot (l : BoutLoop) (side : Side) (keyframe spy : Bool) :
    (l.sendSnapshot side keyframe spy).stage = l.stage :=
  stage_post l side _

theorem Posts.fed {l l' : BoutLoop} (posts : Posts l l') : l'.fed = l.fed := by
  induction posts with
  | refl => rfl
  | post _ _ ih => exact (fed_post _ _ _).trans ih
  | settle _ ledger ih =>
    have bout := congrArg (·.1.1.tick) ledger
    have handed := congrArg (·.2.2.2.1) ledger
    exact (Prod.ext bout handed).trans ih

/-! ## The seats after a turn -/

/-- Both sides have a socket. -/
def Attached (l : BoutLoop) : Prop := l.connected .a = true ∧ l.connected .b = true

instance (l : BoutLoop) : Decidable l.Attached := by
  unfold Attached
  infer_instance

theorem attached_iff {l : BoutLoop} : l.Attached ↔ ∀ x, l.connected x = true :=
  ⟨fun both x => by cases x; exacts [both.1, both.2], fun both => ⟨both .a, both .b⟩⟩

theorem attached_of_side {l : BoutLoop} {x : Side} (here : l.connected x = true)
    (there : l.connected x.other = true) : l.Attached := by
  cases x
  · exact ⟨here, there⟩
  · exact ⟨there, here⟩

/-- What the turn at `now` makes of the seats. -/
inductive Guarded (l : BoutLoop) (now : Nat) (l' : BoutLoop) : Prop where
  /-- Nobody comes or goes. -/
  | still (seats : l'.seats = l.seats)
    (stage : l'.stage = l.stage ∨ l.Attached ∨ ∃ aWon, l'.stage = .done aWon)
  /-- A socket is attached to a side. -/
  | returns (side : Side) (newId : ConnId) (reattaches : l.Reattaches side newId)
    (seats : l'.seats = (Function.update l.connected side true,
      if l'.Attached then none else l.graceUntil, l.human))
    (stage : l'.stage = .control)
  /-- A probe finds who left during the freeze. -/
  | probed (frozen : l.stage = .control ∧ ¬l.Attached)
    (fewer : ∀ x, l'.connected x = true → l.connected x = true)
    (seats : l'.seats = (l'.connected, l.graceUntil, l.human)) (stage : l'.stage = .control)
  /-- A human is found gone: the freeze begins. -/
  | breaks (attached : l.Attached) (gone : ¬l'.Attached)
    (seats : l'.seats = (l'.connected, some (l.graceUntil.getD (now + rejoinGrace)), l.human))
    (stage : l'.stage = .control)
  /-- Only a bot is found gone: it forfeits. -/
  | forfeits (attached : l.Attached) (gone : ¬l'.Attached) (aWon : Option Bool)
    (seats : l'.seats = (l'.connected, l.graceUntil, l.human)) (stage : l'.stage = .done aWon)

section turn

variable {l : BoutLoop}

/-- A side's new socket, with its handoff and keyframe. -/
def greeted (l : BoutLoop) (side : Side) (newId : ConnId) : BoutLoop :=
  let l := { l with
    tx := Function.update l.tx side newId
    connected := Function.update l.connected side true
    bout := l.bout.resetAck side
    lastSeq := Function.update l.lastSeq side 0 }
  (l.post side (.matchStart side (l.seedOf side))).sendSnapshot side true true

theorem reattach_eq (l : BoutLoop) (side : Side) (newId : ConnId) :
    l.reattach side newId =
      if (l.greeted side newId).Attached then (l.greeted side newId).resume
      else l.greeted side newId := rfl

theorem seats_greeted (l : BoutLoop) (side : Side) (newId : ConnId) :
    (l.greeted side newId).seats = (Function.update l.connected side true, l.graceUntil, l.human) ∧
      (l.greeted side newId).stage = l.stage := by
  unfold greeted
  dsimp only
  exact ⟨(seats_sendSnapshot _ _ _ _).trans (seats_post _ _ _),
    (stage_sendSnapshot _ _ _ _).trans (stage_post _ _ _)⟩

theorem seats_resume (l : BoutLoop) : l.resume.seats = (l.connected, none, l.human) := by
  have lifted : l.resume.seats = { l with graceUntil := none }.seats := by
    unfold resume
    dsimp only
    refine (seats_post _ _ _).trans ((seats_sendSnapshot _ _ _ _).trans ?_)
    exact (seats_post _ _ _).trans (seats_sendSnapshot _ _ _ _)
  exact lifted

theorem seats_reattach (l : BoutLoop) (side : Side) (newId : ConnId) :
    (l.reattach side newId).seats = (Function.update l.connected side true,
      if (l.reattach side newId).Attached then none else l.graceUntil, l.human) ∧
      (l.reattach side newId).stage = l.stage := by
  obtain ⟨taken, standing⟩ := l.seats_greeted side newId
  rw [reattach_eq]
  generalize l.greeted side newId = k at taken standing ⊢
  obtain ⟨connected, rest⟩ := Prod.mk.inj taken
  obtain ⟨grace, human⟩ := Prod.mk.inj rest
  by_cases both : k.Attached
  · rw [if_pos both]
    have attached : k.resume.Attached := by
      have same : k.resume.connected = k.connected := congrArg (·.1) k.seats_resume
      unfold Attached
      rw [same]
      exact both
    rw [if_pos attached, seats_resume, connected, human]
    exact ⟨rfl, (stage_resume k).trans standing⟩
  · rw [if_neg both, if_neg both, taken]
    exact ⟨rfl, standing⟩

theorem seats_probe (l : BoutLoop) (side : Side) :
    (l.probe side).seats = ((l.probe side).connected, l.graceUntil, l.human) ∧
      (l.probe side).stage = l.stage ∧
      ∀ x, (l.probe side).connected x = true → l.connected x = true := by
  unfold probe
  split
  · next here =>
    have same := seats_post l side .heartbeat
    obtain ⟨connected, rest⟩ := Prod.mk.inj same
    obtain ⟨grace, human⟩ := Prod.mk.inj rest
    refine ⟨?_, stage_post l side .heartbeat, fun x attached => ?_⟩
    · unfold seats
      dsimp only
      rw [grace, human]
    · rcases eq_or_ne x side with rfl | apart
      · exact here
      · dsimp only at attached
        rwa [Function.update_of_ne apart] at attached
  · exact ⟨rfl, rfl, fun _ => id⟩

theorem guarded_freeze (frozen : ¬l.Attached) (stage : l.stage = .control) (now : Nat) :
    l.Guarded now (l.freeze now) := by
  unfold freeze
  split
  · exact .still rfl (.inr (.inr ⟨_, rfl⟩))
  · dsimp only
    split
    · obtain ⟨first, staged, fewer⟩ := l.seats_probe .a
      obtain ⟨second, staged', fewer'⟩ := (l.probe .a).seats_probe .b
      obtain ⟨grace, human⟩ := Prod.mk.inj (Prod.mk.inj first).2
      refine .probed ⟨stage, frozen⟩ (fun x here => fewer x (fewer' x here)) ?_
        (staged'.trans (staged.trans stage))
      refine second.trans ?_
      rw [grace, human]
    · exact .probed ⟨stage, frozen⟩ (fun _ => id) rfl stage

theorem guarded_afterControls (stage : l.stage = .control) (now : Nat) :
    l.Guarded now (l.afterControls now) := by
  unfold afterControls
  split
  · exact .still rfl (.inr (.inr ⟨_, rfl⟩))
  · split
    · next both => exact .still rfl (.inr (.inl both))
    · next away => exact guarded_freeze away stage now

/-- A broadcast finds the sockets that are gone. -/
theorem guarded_broadcast (attached : l.Attached) (stage : l.stage = .input) (now : Nat) :
    l.Guarded now (l.broadcast now).nextRound := by
  have sent := (seats_sendSnapshot ({ l with wantKeyframe := fun _ => false }.sendSnapshot .a
    (l.wantKeyframe .a) (l.frame % 8 = 0)) .b (l.wantKeyframe .b) (l.frame % 8 = 0)).trans
    (seats_sendSnapshot { l with wantKeyframe := fun _ => false } .a (l.wantKeyframe .a)
      (l.frame % 8 = 0))
  have staged := (stage_sendSnapshot ({ l with wantKeyframe := fun _ => false }.sendSnapshot .a
    (l.wantKeyframe .a) (l.frame % 8 = 0)) .b (l.wantKeyframe .b) (l.frame % 8 = 0)).trans
    (stage_sendSnapshot { l with wantKeyframe := fun _ => false } .a (l.wantKeyframe .a)
      (l.frame % 8 = 0))
  unfold broadcast
  dsimp only
  generalize ({ l with wantKeyframe := fun _ => false }.sendSnapshot .a
    (l.wantKeyframe .a) (l.frame % 8 = 0)).sendSnapshot .b (l.wantKeyframe .b)
    (l.frame % 8 = 0) = k at sent staged ⊢
  obtain ⟨-, grace, human⟩ : k.connected = l.connected ∧ k.graceUntil = l.graceUntil ∧
    k.human = l.human := by simpa [seats] using sent
  have playing : k.stage = .input := staged.trans stage
  split
  · next both =>
    -- both sockets still take messages
    have whole : k.reaches = l.connected := by
      funext x
      rw [attached_iff.mp attached x]
      cases x
      · exact both.1
      · exact both.2
    refine .still ?_ (.inr (.inl attached))
    unfold nextRound
    rw [playing]
    unfold seats
    dsimp only
    rw [whole, grace, human]
  · next away =>
    unfold dropped
    dsimp only
    split
    · have told (h : BoutLoop) (ok : Bool) (side : Side) :
          (if ok then h.post side .opponentReconnecting else h).seats = h.seats ∧
            (if ok then h.post side .opponentReconnecting else h).stage = h.stage := by
        split
        · exact ⟨seats_post _ _ _, stage_post _ _ _⟩
        · exact ⟨rfl, rfl⟩
      obtain ⟨first, staged⟩ := told { k with
        connected := k.reaches
        graceUntil := some (k.graceUntil.getD (now + rejoinGrace)) } (k.reaches .a) .a
      generalize (if k.reaches .a = true then BoutLoop.post { k with
        connected := k.reaches
        graceUntil := some (k.graceUntil.getD (now + rejoinGrace)) } .a .opponentReconnecting
        else { k with
          connected := k.reaches
          graceUntil := some (k.graceUntil.getD (now + rejoinGrace)) }) = h at first staged ⊢
      obtain ⟨second, staged'⟩ := told h (k.reaches .b) .b
      generalize (if k.reaches .b = true then h.post .b .opponentReconnecting else h) = h'
        at second staged' ⊢
      have seated := second.trans first
      have connected : h'.connected = k.reaches := congrArg (·.1) seated
      have round : h'.nextRound.seats = h'.seats ∧ h'.nextRound.stage = .control := by
        unfold nextRound
        rw [staged', staged, playing]
        exact ⟨rfl, rfl⟩
      have same : h'.nextRound.connected = h'.connected := congrArg (·.1) round.1
      refine .breaks attached (fun both => ?_) ?_ round.2
      · unfold Attached at both
        rw [same, connected] at both
        exact away both
      · rw [round.1, seated, same, connected, ← grace, ← human]
        rfl
    · refine .forfeits attached away (some (k.reaches .a)) ?_ rfl
      unfold nextRound finish seats
      dsimp only
      rw [grace, human]

theorem guarded_play (attached : l.Attached) (stage : l.stage = .input) (now : Nat) :
    l.Guarded now (l.play now) := by
  have forwarded (k : BoutLoop) (side : Side) :
      (k.forwardEvents side).seats = k.seats ∧ (k.forwardEvents side).stage = k.stage := by
    unfold forwardEvents
    split
    · dsimp only
      exact Loop.foldl_invariant
        (P := fun h : BoutLoop => h.seats = k.seats ∧ h.stage = k.stage)
        (fun e _ h kept => ⟨(seats_post h _ _).trans kept.1, (stage_post h _ _).trans kept.2⟩)
        ⟨rfl, rfl⟩
    · exact ⟨rfl, rfl⟩
  have first := forwarded l.tickBout.markDirty .a
  have second := forwarded (l.tickBout.markDirty.forwardEvents .a) .b
  have seated := second.1.trans first.1
  have staged := second.2.trans first.2
  unfold play
  dsimp only
  generalize (l.tickBout.markDirty.forwardEvents .a).forwardEvents .b = k at seated staged ⊢
  have same : k.seats = l.seats := seated
  have playing : k.stage = .input := (show k.stage = l.stage from staged).trans stage
  have here : k.Attached := by
    have connected : k.connected = l.connected := congrArg (·.1) same
    unfold Attached
    rw [connected]
    exact attached
  obtain ⟨connected, rest⟩ := Prod.mk.inj same
  obtain ⟨grace, human⟩ := Prod.mk.inj rest
  split
  · refine .still ?_ (.inr (.inl attached))
    refine Eq.trans ?_ same
    exact (seats_sendSnapshot _ _ _ _).trans (seats_sendSnapshot _ _ _ _)
  · split
    · have found := guarded_broadcast here playing now
      generalize (k.broadcast now).nextRound = h at found ⊢
      rcases found with ⟨seats, -⟩ | ⟨_, _, reattaches, -, -⟩ | ⟨away, -, -, -⟩ |
        ⟨-, gone, seats, stage⟩ | ⟨-, gone, aWon, seats, stage⟩
      · exact .still (seats.trans same) (.inr (.inl attached))
      · cases playing.symm.trans reattaches.1
      · exact absurd here away.2
      · exact .breaks attached gone (by rw [seats, grace, human]) stage
      · exact .forfeits attached gone aWon (by rw [seats, grace, human]) stage
    · refine .still ?_ (.inr (.inl attached))
      unfold nextRound
      rw [playing]
      exact same

theorem guarded (playing : l.stage = .input → l.Attached) (now : Nat) :
    l.Guarded now (l.turn now) := by
  have turned := l.turned now
  generalize l.turn now = l' at turned
  cases turned with
  | reattach side newId rest reattaches =>
    obtain ⟨seats, stage⟩ := seats_reattach { l with controlRx := rest } side newId
    exact .returns side newId reattaches seats (stage.trans reattaches.1)
  | obey c rest stage other =>
    cases c with
    | reattach side newId => exact absurd rfl (other side newId)
    | forfeit => exact .still rfl (.inl rfl)
    | addSpectator => exact .still rfl (.inl rfl)
    | debugGrant => exact .still rfl (.inl rfl)
    | resync => exact .still rfl (.inl rfl)
  | settled stage => exact guarded_afterControls stage now
  | take i rest takes => exact .still rfl (.inl rfl)
  | play stage => exact guarded_play (playing stage) stage now
  | done => exact .still rfl (.inl rfl)

/-- A turn feeds the match while both sides are attached only. -/
theorem fed_turn (away : ¬l.Attached) (playing : l.stage = .input → l.Attached) (now : Nat) :
    (l.turn now).fed = l.fed := by
  have turned := l.turned now
  generalize l.turn now = l' at turned
  cases turned with
  | reattach side newId rest reattaches =>
    have greeted : ({ l with controlRx := rest }.greeted side newId).fed = l.fed := by
      unfold BoutLoop.greeted sendSnapshot
      dsimp only
      rw [fed_post, fed_post]
      rfl
    rw [reattach_eq]
    split
    · exact (Posts.resume _).fed.trans greeted
    · exact greeted
  | obey c rest stage other =>
    cases c with
    | reattach side newId => exact absurd rfl (other side newId)
    | forfeit => rfl
    | addSpectator => rfl
    | debugGrant side weapon funds =>
      obtain ⟨_, _, granted⟩ := l.bout.debugGrant_eq side weapon funds
      have ticked : (l.bout.debugGrant side weapon funds).2.tick = l.bout.tick := by
        rw [granted]
      exact Prod.ext ticked rfl
    | resync => rfl
  | settled => exact (Posts.afterControls l now).fed
  | take i rest takes => exact absurd (playing takes.1) away
  | play stage => exact absurd (playing stage) away
  | done => rfl

/-- No handler touches the seats, the stage, or what the match was fed. -/
theorem step_handled (l : BoutLoop) {e : Step} (handled : ∀ now, e ≠ .turn now) :
    (l.step e).seats = l.seats ∧ (l.step e).stage = l.stage ∧ (l.step e).fed = l.fed := by
  have told (l : BoutLoop) (c : BoutControl) :
      (l.control c).seats = l.seats ∧ (l.control c).stage = l.stage ∧
        (l.control c).fed = l.fed := by
    unfold BoutLoop.control
    split <;> exact ⟨rfl, rfl, rfl⟩
  have asked (conn : ConnId) (c : Side → BoutControl) :
      (l.request conn c).seats = l.seats ∧ (l.request conn c).stage = l.stage ∧
        (l.request conn c).fed = l.fed := by
    unfold BoutLoop.request
    split
    · exact told l _
    · exact ⟨rfl, rfl, rfl⟩
  cases e with
  | input conn i seq =>
    change (l.input conn i seq).seats = l.seats ∧ (l.input conn i seq).stage = l.stage ∧
      (l.input conn i seq).fed = l.fed
    unfold BoutLoop.input
    split <;> exact ⟨rfl, rfl, rfl⟩
  | rejoin conn side =>
    change (l.rejoin conn side).seats = l.seats ∧ (l.rejoin conn side).stage = l.stage ∧
      (l.rejoin conn side).fed = l.fed
    unfold BoutLoop.rejoin
    split
    · exact told l _
    · exact ⟨rfl, rfl, rfl⟩
  | resync conn => exact asked conn _
  | leaveMatch conn => exact asked conn _
  | spectate => exact told l _
  | grant => exact told l _
  | close => exact ⟨rfl, rfl, rfl⟩
  | remove => exact ⟨rfl, rfl, rfl⟩
  | turn now => exact absurd rfl (handled now)

end turn

/-! ## The deadline -/

/-- The match waits exactly while a side is away. -/
structure Attended (l : BoutLoop) : Prop where
  playing : l.stage = .input → l.Attached
  lifted : l.Attached → l.graceUntil = none
  frozen : (∀ aWon, l.stage ≠ .done aWon) → ¬l.Attached → l.graceUntil.isSome = true

theorem Attended.turn {l l' : BoutLoop} {now : Nat} (attended : l.Attended)
    (guarded : l.Guarded now l') : l'.Attended := by
  cases guarded with
  | still seats stage =>
    obtain ⟨connected, grace, -⟩ := of_seats seats
    have same : l'.Attached ↔ l.Attached := by
      unfold Attached
      rw [connected]
    refine ⟨fun playing => ?_, fun both => ?_, fun running away => ?_⟩
    · rw [same]
      rcases stage with stays | both | ⟨aWon, done⟩
      · exact attended.playing (stays.symm.trans playing)
      · exact both
      · cases playing.symm.trans done
    · rw [grace]
      exact attended.lifted (same.mp both)
    · rw [same] at away
      rw [grace]
      refine attended.frozen (fun aWon done => ?_) away
      rcases stage with stays | both | ⟨aWon', done'⟩
      · exact running aWon (stays.trans done)
      · exact away both
      · exact running aWon' done'
  | returns side newId reattaches seats stage =>
    obtain ⟨connected, grace, -⟩ := of_seats seats
    refine ⟨fun playing => ?_, fun both => ?_, fun _ away => ?_⟩
    · cases stage.symm.trans playing
    · rw [grace, if_pos both]
    · rw [grace, if_neg away]
      refine attended.frozen (fun aWon done => ?_) fun both => away ?_
      · cases reattaches.1.symm.trans done
      · rw [attached_iff] at both ⊢
        intro x
        rw [connected]
        rcases eq_or_ne x side with rfl | apart
        · exact Function.update_self ..
        · rw [Function.update_of_ne apart]
          exact both x
  | probed frozen fewer seats stage =>
    obtain ⟨-, grace, -⟩ := of_seats seats
    refine ⟨fun playing => ?_, fun both => ?_, fun _ _ => ?_⟩
    · cases stage.symm.trans playing
    · exact absurd ⟨fewer _ both.1, fewer _ both.2⟩ frozen.2
    · rw [grace]
      refine attended.frozen (fun aWon done => ?_) frozen.2
      cases frozen.1.symm.trans done
  | breaks _ gone seats stage =>
    obtain ⟨-, grace, -⟩ := of_seats seats
    refine ⟨fun playing => ?_, fun both => absurd both gone, fun _ _ => ?_⟩
    · cases stage.symm.trans playing
    · rw [grace]
      rfl
  | forfeits _ gone aWon seats stage =>
    refine ⟨fun playing => ?_, fun both => absurd both gone, fun running _ => ?_⟩
    · cases stage.symm.trans playing
    · exact absurd stage (running aWon)

/-- The deadline of a freeze passes at `now`, and `loser` loses for it. -/
def Expires (l : BoutLoop) (now : Nat) (loser : Side) : Prop :=
  l.stage = .control ∧ l.controlRx = [] ∧ l.forfeitBy = none ∧ ¬l.Attached ∧
    l.graceUntil.any (· ≤ now) = true ∧ (l.turn now).stage = .done (some (loser = .b))

instance (l : BoutLoop) (now : Nat) (loser : Side) : Decidable (l.Expires now loser) := by
  unfold Expires
  infer_instance

/-- Whoever loses a freeze is away, and the other side is not. -/
theorem Expires.away {l : BoutLoop} {now : Nat} {loser : Side} (expires : l.Expires now loser) :
    l.connected loser = false ∧ l.connected loser.other = true := by
  obtain ⟨stage, drained, stays, away, passed, lost⟩ := expires
  rw [turn_controls_done stage drained] at lost
  unfold afterControls at lost
  rw [stays] at lost
  dsimp only at lost
  rw [if_neg (show ¬(l.connected .a = true ∧ l.connected .b = true) from away)] at lost
  unfold freeze at lost
  rw [if_pos passed] at lost
  have verdict := Stage.done.inj lost
  cases a : l.connected .a with
  | false =>
    rw [a] at verdict
    cases b : l.connected .b with
    | false =>
      rw [b] at verdict
      cases verdict
    | true =>
      rw [b] at verdict
      cases loser with
      | a => exact ⟨a, b⟩
      | b => cases verdict
  | true =>
    rw [a] at verdict
    cases b : l.connected .b with
    | false =>
      rw [b] at verdict
      cases loser with
      | a => cases verdict
      | b => exact ⟨b, a⟩
    | true => exact absurd ⟨a, b⟩ away

end BoutLoop

/-- A match with the clock at which each side was last found gone, and the clock at
which the last freeze began. -/
structure Watch where
  loop : BoutLoop
  since : Side → Nat
  frozenAt : Nat

namespace Watch

open BoutLoop

def step (w : Watch) (e : Step) : Watch :=
  let l := w.loop.step e
  match e with
  | .turn now =>
    { loop := l
      since := fun x => if w.loop.connected x = true ∧ l.connected x = false then now else w.since x
      frozenAt := if w.loop.graceUntil = none ∧ l.graceUntil ≠ none then now else w.frozenAt }
  | _ => { w with loop := l }

def start (seedA seedB : Nat) (human : Side → Bool) (connA connB : ConnId) : Watch :=
  ⟨.start seedA seedB human connA connB, fun _ => 0, 0⟩

/-- Whoever stays away when the other side comes back was gone when the freeze began. -/
def FirstAway (w : Watch) (e : Step) : Prop :=
  ∀ now side newId, e = .turn now → w.loop.Reattaches side newId →
    w.loop.human side.other = true → w.loop.connected side.other = false →
    w.since side.other ≤ w.frozenAt

/-- The deadline counts from the start of the freeze, and the one side that is away, if it
is a human, was gone then. -/
structure Timed (w : Watch) : Prop where
  attended : w.loop.Attended
  deadline : ∀ d, w.loop.graceUntil = some d → d = w.frozenAt + rejoinGrace
  owed : ∀ x, w.loop.human x = true → w.loop.connected x = false →
    w.loop.connected x.other = true → w.loop.graceUntil.isSome = true → w.since x ≤ w.frozenAt

theorem Timed.turn {w : Watch} (timed : w.Timed) (now : Nat) (first : w.FirstAway (.turn now)) :
    (w.step (.turn now)).Timed := by
  obtain ⟨attended, deadline, owed⟩ := timed
  have guarded := guarded attended.playing now
  have fair := first now
  refine ⟨attended.turn guarded, ?_, ?_⟩
  · -- the deadline is set when the freeze begins, and only then
    intro d waiting
    change d = (if w.loop.graceUntil = none ∧ (w.loop.turn now).graceUntil ≠ none then now
      else w.frozenAt) + rejoinGrace
    change (w.loop.turn now).graceUntil = some d at waiting
    generalize w.loop.turn now = l at guarded waiting
    have kept (grace : l.graceUntil = w.loop.graceUntil) :
        d = (if w.loop.graceUntil = none ∧ l.graceUntil ≠ none then now else w.frozenAt) +
          rejoinGrace := by
      rw [if_neg (by rw [grace]; tauto)]
      exact deadline d (grace.symm.trans waiting)
    cases guarded with
    | still seats => exact kept (of_seats seats).2.1
    | returns _ _ _ seats =>
      have grace := (of_seats seats).2.1
      by_cases both : l.Attached
      · rw [if_pos both] at grace
        cases grace.symm.trans waiting
      · rw [if_neg both] at grace
        exact kept grace
    | probed _ _ seats => exact kept (of_seats seats).2.1
    | breaks both _ seats =>
      have grace := (of_seats seats).2.1
      rw [attended.lifted both, Option.getD_none] at grace
      rw [if_pos ⟨attended.lifted both, by rw [grace]; nofun⟩]
      exact Option.some.inj (waiting.symm.trans grace)
    | forfeits _ _ _ seats => exact kept (of_seats seats).2.1
  · intro x person gone here waiting
    change (if w.loop.connected x = true ∧ (w.loop.turn now).connected x = false then now
      else w.since x) ≤ if w.loop.graceUntil = none ∧ (w.loop.turn now).graceUntil ≠ none then now
        else w.frozenAt
    change (w.loop.turn now).human x = true at person
    change (w.loop.turn now).connected x = false at gone
    change (w.loop.turn now).connected x.other = true at here
    change (w.loop.turn now).graceUntil.isSome = true at waiting
    generalize w.loop.turn now = l at guarded person gone here waiting
    cases guarded with
    | still seats =>
      obtain ⟨connected, grace, human⟩ := of_seats seats
      rw [connected] at gone here
      rw [human] at person
      rw [grace] at waiting
      rw [if_neg (by rw [gone]; tauto), if_neg (by rw [grace]; tauto)]
      exact owed x person gone here waiting
    | returns side newId reattaches seats =>
      obtain ⟨connected, grace, human⟩ := of_seats seats
      rw [connected] at gone here
      rw [human] at person
      -- the side that came back is the other one
      have apart : x ≠ side := by
        rintro rfl
        rw [Function.update_self] at gone
        cases gone
      have away : ¬l.Attached := by
        rw [attached_iff, connected]
        intro both
        rw [both x] at gone
        cases gone
      rw [if_neg away] at grace
      rw [Function.update_of_ne apart] at gone
      have other : side.other = x := by
        rcases Side.eq_or_eq_other x side with same | same
        · exact absurd same apart
        · exact same.symm
      subst other
      rw [if_neg (by rw [gone]; tauto), if_neg (by rw [grace]; tauto)]
      exact fair side newId rfl reattaches person gone
    | probed frozen fewer seats =>
      obtain ⟨-, grace, human⟩ := of_seats seats
      rw [human] at person
      rw [grace] at waiting
      have before := fewer _ here
      have gone : w.loop.connected x = false := by
        by_contra stays
        rw [Bool.not_eq_false] at stays
        exact frozen.2 (attached_of_side stays before)
      rw [if_neg (by rw [gone]; tauto), if_neg (by rw [grace]; tauto)]
      exact owed x person gone before waiting
    | breaks both _ seats =>
      have grace := (of_seats seats).2.1
      rw [if_pos ⟨attached_iff.mp both x, gone⟩,
        if_pos ⟨attended.lifted both, by rw [grace]; nofun⟩]
    | forfeits both _ _ seats =>
      have grace := (of_seats seats).2.1
      rw [grace, attended.lifted both] at waiting
      cases waiting

theorem Timed.step {w : Watch} (timed : w.Timed) {e : Step} (first : w.FirstAway e) :
    (w.step e).Timed := by
  by_cases turns : ∃ now, e = .turn now
  · obtain ⟨now, rfl⟩ := turns
    exact timed.turn now first
  · have handled : ∀ now, e ≠ .turn now := fun now same => turns ⟨now, same⟩
    obtain ⟨seats, stage, -⟩ := w.loop.step_handled handled
    obtain ⟨connected, grace, human⟩ := of_seats seats
    have same : w.step e = { w with loop := w.loop.step e } := by
      cases e with
      | turn now => exact absurd rfl (handled now)
      | _ => rfl
    have attached : (w.loop.step e).Attached ↔ w.loop.Attached := by
      unfold Attached
      rw [connected]
    rw [same]
    refine ⟨⟨?_, ?_, ?_⟩, ?_, ?_⟩
    · dsimp only
      rw [stage, attached]
      exact timed.attended.playing
    · dsimp only
      rw [attached, grace]
      exact timed.attended.lifted
    · dsimp only
      rw [stage, attached, grace]
      exact timed.attended.frozen
    · dsimp only
      rw [grace]
      exact timed.deadline
    · dsimp only
      rw [human, connected, grace]
      exact timed.owed

theorem timed_start (seedA seedB : Nat) (human : Side → Bool) (connA connB : ConnId) :
    (start seedA seedB human connA connB).Timed where
  attended := {
    playing := nofun
    lifted := fun _ => rfl
    frozen := fun _ away => absurd ⟨rfl, rfl⟩ away }
  deadline := nofun
  owed := nofun

/-- In runs where a side that stays away was always the first to go: a human loses a freeze
after the whole grace only, the match stands still while a side is away, and it waits for a
deadline exactly then. -/
theorem full_grace {seedA seedB : Nat} {human : Side → Bool} {connA connB : ConnId}
    {steps : List Step} {w : Watch}
    (run : Run FirstAway step (start seedA seedB human connA connB) steps w) :
    (∀ now loser, w.loop.Expires now loser → w.loop.human loser = true →
      w.loop.connected loser = false ∧ w.since loser + rejoinGrace ≤ now) ∧
    (¬w.loop.Attached → ∀ e, (w.loop.step e).fed = w.loop.fed) ∧
    ((∀ aWon, w.loop.stage ≠ .done aWon) → ¬w.loop.Attached → w.loop.graceUntil.isSome = true) ∧
    (w.loop.Attached → w.loop.graceUntil = none) := by
  have timed : w.Timed := run.invariant (fun w e timed first => timed.step first)
    (timed_start seedA seedB human connA connB)
  refine ⟨fun now loser expires person => ?_, fun away e => ?_, timed.attended.frozen,
    timed.attended.lifted⟩
  · obtain ⟨gone, here⟩ := expires.away
    have passed := expires.2.2.2.2.1
    cases waiting : w.loop.graceUntil with
    | none =>
      rw [waiting] at passed
      cases passed
    | some d =>
      rw [waiting] at passed
      have since := timed.owed loser person gone here (by rw [waiting]; rfl)
      have deadline := timed.deadline d waiting
      have reached : d ≤ now := of_decide_eq_true passed
      exact ⟨gone, by omega⟩
  · by_cases turns : ∃ now, e = .turn now
    · obtain ⟨now, rfl⟩ := turns
      exact fed_turn away timed.attended.playing now
    · exact (w.loop.step_handled fun now same => turns ⟨now, same⟩).2.2

/-- A drops at 0 and B at 6000; A is back at 10000. -/
def doubleDrop : List Step :=
  [.close 1, .turn 0, .turn 0] ++ List.replicate 31 (.turn 3000) ++
    [.close 2, .turn 6000, .rejoin 3 .a, .turn 10000]

/-- B loses when the grace of A is over, 6 s after it was found gone. -/
theorem grace_cut_short :
    let w := doubleDrop.foldl step (start 7 3 (fun _ => true) 1 2)
    w.loop.Expires 12000 .b ∧ w.loop.human .b = true ∧ w.since .b + rejoinGrace = 18000 := by
  decide +kernel

theorem full_grace_single_drop :
    let w := (((start 7 3 (fun _ => true) 1 2).step (.close 1)).step (.turn 0)).step (.turn 0)
    (∀ now loser, w.loop.Expires now loser → w.loop.human loser = true →
      w.loop.connected loser = false ∧ w.since loser + rejoinGrace ≤ now) ∧
    (¬w.loop.Attached → ∀ e, (w.loop.step e).fed = w.loop.fed) ∧
    ((∀ aWon, w.loop.stage ≠ .done aWon) → ¬w.loop.Attached → w.loop.graceUntil.isSome = true) ∧
    (w.loop.Attached → w.loop.graceUntil = none) := by
  have quiet {w : Watch} {now : Nat} (idle : w.loop.controlRx.isEmpty = true) :
      w.FirstAway (.turn now) := fun _ side newId _ reattaches =>
    absurd reattaches (not_reattaches idle side newId)
  have drained : ((start 7 3 (fun _ => true) 1 2).step (.close 1)).loop.controlRx.isEmpty = true ∧
      (((start 7 3 (fun _ => true) 1 2).step (.close 1)).step
        (.turn 0)).loop.controlRx.isEmpty = true := by
    decide +kernel
  have run : Run FirstAway step (start 7 3 (fun _ => true) 1 2) [.close 1, .turn 0, .turn 0]
      ((((start 7 3 (fun _ => true) 1 2).step (.close 1)).step (.turn 0)).step (.turn 0)) :=
    ((Run.nil.snoc nofun).snoc (quiet drained.1)).snoc (quiet drained.2)
  exact full_grace run

end Watch

end BattleTris
