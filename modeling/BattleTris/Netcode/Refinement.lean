import BattleTris.Netcode.BotDriver
import BattleTris.Netcode.Design

/-!
The code refines its own design model.

A run of the handshake is matched step by step by a run of `Netcode.tla`.  The design has no
purchases, so what the source numbers is counted anew without them: a purchase is a stutter.
What the design asks of a leave beyond the handshake, that everything sent is acked, the bot
waits for.
-/

namespace BattleTris

open Numbered

/-- What the design calls an input that it has. -/
def InputKind.net : InputKind → NetKind
  | .leave => .leave
  | _ => .gameplay

namespace Handshake

/-- The design numbers every input but the purchases. -/
def counts (k : InputKind) : Bool := decide (k ≠ .shop)

/-- What the design numbers by the time the source numbers `n`. -/
def recount (h : Handshake) (n : Nat) : Nat := countUpTo counts n h.issued

/-- The handshake, seen as a state of the design. -/
structure Designed (h : Handshake) (s : Net) : Prop where
  up : s.connected = true
  sent : s.clientSeq = h.recount h.sent
  viewAck : s.clientViewAck = h.recount h.view.ack
  view : s.clientViewBazaar = h.view.you
  shown : s.clientLocalBazaar = h.view.you
  ack : s.serverAck = h.recount h.now.ack
  inside : s.serverBazaar = h.now.you
  inputs : s.inputChan =
    (h.pending.filter fun e => counts e.2).map fun e => ⟨h.recount e.1, e.2.net⟩
  snaps : s.snapChan.map (fun r => (r.ack, r.baz)) =
    h.reports.map fun m => (h.recount m.ack, m.you)

/-- A client that asks to leave only when nothing but purchases waits for its ack. -/
def Waits (h : Handshake) (a : Act) : Prop :=
  h.Allowed a ∧ (a = .issue .leave → ∀ e ∈ h.unacked, e.2 = .shop)

variable {h : Handshake} {s : Net} {c : NetConfig} {k : InputKind} {a : Act}

theorem designed_start : start.Designed .init :=
  ⟨rfl, rfl, rfl, rfl, rfl, rfl, rfl, rfl, rfl⟩

/-! ## The client issues an input -/

theorem pending_issue (inv : h.Inv) (k : InputKind) :
    (h.act (.issue k)).pending = h.pending ++ [(h.sent + 1, k)] :=
  beyond_snoc (Nat.lt_succ_of_le inv.acked)

/-- Numbers already given out keep their count. -/
theorem recount_issue {n : Nat} (given : n ≤ h.sent) (k : InputKind) :
    (h.act (.issue k)).recount n = h.recount n :=
  countUpTo_snoc (Nat.lt_succ_of_le given)

theorem recount_issued (inv : h.Inv) (k : InputKind) :
    (h.act (.issue k)).recount (h.sent + 1) = h.recount h.sent + if counts k then 1 else 0 :=
  countUpTo_last (e := (h.sent + 1, k)) inv.bounded (Nat.le_succ _)

theorem Inv.reported (inv : h.Inv) {m : Mark} (mem : m ∈ h.seen) : m.ack ≤ h.sent :=
  (inv.follows mem).ack.trans inv.acked

theorem snaps_issue (inv : h.Inv) (k : InputKind) :
    ((h.act (.issue k)).reports.map fun m => ((h.act (.issue k)).recount m.ack, m.you)) =
      h.reports.map fun m => (h.recount m.ack, m.you) := by
  refine List.map_congr_left fun m mem => ?_
  rw [recount_issue (inv.reported (List.mem_cons_of_mem _ mem))]

theorem inputs_issue (inv : h.Inv) (k : InputKind) :
    ((h.pending.filter fun e => counts e.2).map fun e =>
      (⟨(h.act (.issue k)).recount e.1, e.2.net⟩ : NetInput)) =
    (h.pending.filter fun e => counts e.2).map fun e => ⟨h.recount e.1, e.2.net⟩ := by
  refine List.map_congr_left fun e mem => ?_
  have among := (mem_beyond.mp (List.mem_filter.mp mem).1).1
  rw [recount_issue (inv.bounded e among)]

/-- A purchase is no step of the design. -/
theorem Designed.issue_shop (designed : h.Designed s) (inv : h.Inv) :
    (h.act (.issue .shop)).Designed s := by
  have view := inv.reported (m := h.view) List.mem_cons_self
  refine ⟨designed.up, ?_, ?_, designed.view, designed.shown, ?_, designed.inside, ?_, ?_⟩
  · exact designed.sent.trans (recount_issued inv .shop).symm
  · exact designed.viewAck.trans (recount_issue view .shop).symm
  · exact designed.ack.trans (recount_issue inv.acked .shop).symm
  · rw [pending_issue inv, List.filter_append, List.map_append, inputs_issue inv, designed.inputs]
    exact (List.append_nil _).symm
  · rw [snaps_issue inv]
    exact designed.snaps

/-- Anything else the client issues the design sends. -/
theorem Designed.issue (designed : h.Designed s) (inv : h.Inv) (counted : counts k = true)
    (bought : Bool) : (h.act (.issue k)).Designed { s.send k.net with clientBought := bought } := by
  have view := inv.reported (m := h.view) List.mem_cons_self
  have last : (h.act (.issue k)).recount (h.sent + 1) = s.clientSeq + 1 := by
    rw [recount_issued inv, if_pos counted, designed.sent]
  refine ⟨designed.up, last.symm, ?_, designed.view, designed.shown, ?_, designed.inside, ?_, ?_⟩
  · exact designed.viewAck.trans (recount_issue view k).symm
  · exact designed.ack.trans (recount_issue inv.acked k).symm
  · rw [pending_issue inv, List.filter_append, List.map_append, inputs_issue inv,
      ← designed.inputs, List.filter_singleton, counted]
    change s.inputChan ++ [⟨s.clientSeq + 1, k.net⟩] =
      s.inputChan ++ [⟨(h.act (.issue k)).recount (h.sent + 1), k.net⟩]
    rw [last]
  · rw [snaps_issue inv]
    exact designed.snaps

/-! ## The server moves -/

theorem deliver_play (acks : c.ackOnBarrierReject = true) {i : NetInput}
    (fresh : s.serverAck < i.seq) (play : i.kind = .gameplay) :
    s.deliver c i = { s with serverAck := i.seq } := by
  unfold Net.deliver
  rw [if_neg (Nat.not_le_of_lt fresh), play, acks]
  cases s.serverBazaar
  · rfl
  · rfl

theorem deliver_leave {i : NetInput} (fresh : s.serverAck < i.seq) (leaves : i.kind = .leave) :
    s.deliver c i = { s with serverAck := i.seq, serverBazaar := false } := by
  unfold Net.deliver
  rw [if_neg (Nat.not_le_of_lt fresh), leaves]
  rfl

/-- Refused or applied, a fresh input is acked, and only a leave gets the server out. -/
theorem act_deliverInput (acks : c.ackOnBarrierReject = true) {n : Nat} {rest : List NetInput}
    (front : s.inputChan = ⟨n, k.net⟩ :: rest) (fresh : s.serverAck < n) :
    s.act c .serverDeliverInput =
      { s with
        inputChan := rest
        serverAck := n
        serverBazaar := s.serverBazaar && decide (k ≠ .leave) } := by
  unfold Net.act
  dsimp only
  rw [front]
  dsimp only
  by_cases leaves : k = .leave
  · rw [deliver_leave fresh (congrArg InputKind.net leaves), leaves]
    dsimp only
    rw [decide_eq_false (not_not_intro rfl), Bool.and_false]
  · have play : k.net = .gameplay := by
      cases k with
      | leave => exact absurd rfl leaves
      | _ => rfl
    rw [deliver_play acks fresh play]
    dsimp only
    rw [decide_eq_true leaves, Bool.and_true]

/-- The server takes the next input. -/
theorem Designed.take (designed : h.Designed s) (inv : h.Inv)
    (acks : c.ackOnBarrierReject = true) :
    ∃ t, (t = s ∨ s.Enabled c .serverDeliverInput ∧ t = s.act c .serverDeliverInput) ∧
      (h.act .take).Designed t := by
  unfold Handshake.act
  dsimp only
  split
  · exact ⟨s, .inl rfl, designed⟩
  · next n k rest front =>
    obtain ⟨past, mem, after⟩ := inv.rising.beyond_head front
    have counted : h.recount n = h.recount h.now.ack + if counts k then 1 else 0 :=
      inv.rising.countUpTo_head front
    have inputs := designed.inputs
    rw [front, List.filter_cons] at inputs
    dsimp only at past after inputs
    by_cases shop : k = .shop
    · -- a purchase: the design has nothing to deliver
      rw [shop] at inputs counted ⊢
      refine ⟨s, .inl rfl, designed.up, designed.sent, designed.viewAck, designed.view,
        designed.shown, ?_, ?_, ?_, designed.snaps⟩
      · exact designed.ack.trans counted.symm
      · exact designed.inside.trans (Bool.and_true _).symm
      · refine inputs.trans ?_
        rw [show Handshake.pending { h with now := _ } = beyond n h.issued from rfl, after]
        rfl
    · have kept : counts k = true := decide_eq_true shop
      rw [kept] at inputs counted
      rw [if_pos rfl, List.map_cons] at inputs
      have fresh : s.serverAck < h.recount n := by
        rw [designed.ack, counted]
        exact Nat.lt_succ_self _
      refine ⟨_, .inr ⟨⟨designed.up, ?_⟩, rfl⟩, ?_⟩
      · rw [inputs]
        exact Nat.succ_pos _
      rw [act_deliverInput acks inputs fresh]
      refine ⟨designed.up, designed.sent, designed.viewAck, designed.view, designed.shown, rfl,
        ?_, ?_, designed.snaps⟩
      · exact congrArg (fun baz => baz && decide (k ≠ .leave)) designed.inside
      · rw [show Handshake.pending { h with now := _ } = beyond n h.issued from rfl, after]
        rfl

theorem Designed.enter (designed : h.Designed s) :
    (h.act .enter).Designed (s.act c .serverEnterBazaar) :=
  ⟨designed.up, designed.sent, designed.viewAck, designed.view, designed.shown, designed.ack, rfl,
    designed.inputs, designed.snaps⟩

theorem Designed.oppLeaves (designed : h.Designed s) : (h.act .oppLeaves).Designed s :=
  ⟨designed.up, designed.sent, designed.viewAck, designed.view, designed.shown, designed.ack,
    designed.inside, designed.inputs, designed.snaps⟩

theorem Designed.report (designed : h.Designed s) :
    (h.act .report).Designed (s.act c .serverSendSnapshot) := by
  refine ⟨designed.up, designed.sent, designed.viewAck, designed.view, designed.shown,
    designed.ack, designed.inside, designed.inputs, ?_⟩
  change (s.snapChan ++ [_]).map _ = (h.reports ++ [h.now]).map _
  rw [List.map_append, List.map_append, List.map_singleton, List.map_singleton, designed.ack,
    designed.inside]
  exact congrArg (· ++ [(h.recount h.now.ack, h.now.you)]) designed.snaps

/-- The client reads what the server reported first. -/
theorem Designed.read (designed : h.Designed s) :
    ∃ t, (t = s ∨ s.Enabled c .clientDeliverSnapshot ∧ t = s.act c .clientDeliverSnapshot) ∧
      (h.act .read).Designed t := by
  have snaps := designed.snaps
  unfold Handshake.act
  dsimp only
  split
  · exact ⟨s, .inl rfl, designed⟩
  · next m ms arrives =>
    rw [arrives, List.map_cons] at snaps
    obtain ⟨r, rs, front, first, later⟩ := List.map_eq_cons_iff.mp snaps
    obtain ⟨ack, baz⟩ := Prod.mk.inj first
    have enabled : s.Enabled c .clientDeliverSnapshot := by
      refine ⟨designed.up, ?_⟩
      rw [front]
      exact Nat.succ_pos _
    refine ⟨_, .inr ⟨enabled, rfl⟩, ?_⟩
    have seen : s.act c .clientDeliverSnapshot = Net.see c { s with snapChan := rs } r := by
      unfold Net.act
      dsimp only
      rw [front]
    rw [seen]
    exact ⟨designed.up, designed.sent, ack, baz, baz, designed.ack, designed.inside,
      designed.inputs, later⟩

/-! ## A run of the design for every run -/

theorem Designed.sent_le (designed : h.Designed s) : s.clientSeq ≤ h.issued.length := by
  rw [designed.sent]
  exact countUpTo_le _ _ _

theorem Designed.inputs_le (designed : h.Designed s) : s.inputChan.length ≤ h.issued.length := by
  rw [designed.inputs, List.length_map]
  exact (List.length_filter_le _ _).trans (List.length_filter_le _ _)

theorem Designed.snaps_length (designed : h.Designed s) : s.snapChan.length = h.reports.length := by
  have lengths := congrArg List.length designed.snaps
  rwa [List.length_map, List.length_map] at lengths

/-- A leave that waits its turn finds the design's client caught up. -/
theorem Designed.caught_up (designed : h.Designed s) (inv : h.Inv)
    (idle : ∀ e ∈ h.unacked, e.2 = .shop) : s.clientSeq ≤ s.clientViewAck := by
  rw [designed.sent, designed.viewAck]
  refine (countUpTo_all inv.bounded fun e mem => ?_).ge
  rw [idle e mem]
  rfl

/-- Every step is one of the design, or none. -/
theorem Designed.step (designed : h.Designed s) (inv : h.Inv) (waits : h.Waits a)
    (acks : c.ackOnBarrierReject = true) (releaves : c.defensiveReLeave = true)
    (roomSeq : h.issued.length < c.maxSeq) (roomInput : h.issued.length < c.maxChan)
    (roomSnap : h.reports.length < c.maxChan) :
    ∃ t, (t = s ∨ ∃ b, s.Enabled c b ∧ t = s.act c b) ∧ (h.act a).Designed t := by
  have sendable : s.Sendable c :=
    ⟨designed.sent_le.trans_lt roomSeq, designed.inputs_le.trans_lt roomInput⟩
  cases a with
  | issue k =>
    cases k with
    | shop => exact ⟨s, .inl rfl, designed.issue_shop inv⟩
    | play =>
      have away : s.clientLocalBazaar = false ∧ s.clientViewBazaar = false :=
        ⟨designed.shown.trans waits.1.1, designed.view.trans waits.1.1⟩
      exact ⟨_, .inr ⟨.clientSendGameplay, ⟨designed.up, away.1, away.2, sendable⟩, rfl⟩,
        designed.issue inv rfl s.clientBought⟩
    | leave =>
      have inside : s.clientViewBazaar = true := designed.view.trans waits.1.1
      have caught := designed.caught_up inv (waits.2 rfl)
      cases bought : s.clientBought with
      | false =>
        have sees :
            (if c.leaveNeedsAuth then s.clientViewBazaar else s.clientLocalBazaar) = true := by
          rw [designed.shown, ← designed.view, inside]
          exact ite_self _
        refine ⟨_, .inr ⟨.clientShop, ⟨designed.up, sees, caught, bought, sendable⟩, rfl⟩, ?_⟩
        have left : s.act c .clientShop = { s.send .leave with clientBought := true } := by
          unfold Net.act
          rw [inside]
          rfl
        rw [left]
        exact designed.issue inv rfl true
      | true =>
        exact ⟨_, .inr ⟨.clientReLeave,
          ⟨releaves, designed.up, inside, bought, caught, sendable⟩, rfl⟩,
          designed.issue inv rfl s.clientBought⟩
  | take =>
    obtain ⟨t, moved, taken⟩ := designed.take inv acks
    exact ⟨t, moved.imp_right fun moved => ⟨_, moved⟩, taken⟩
  | enter =>
    have away : s.serverBazaar = false := designed.inside.trans waits.1.1
    exact ⟨_, .inr ⟨.serverEnterBazaar, ⟨designed.up, away⟩, rfl⟩, designed.enter⟩
  | oppLeaves => exact ⟨s, .inl rfl, designed.oppLeaves⟩
  | report =>
    have room : s.snapChan.length < c.maxChan := designed.snaps_length ▸ roomSnap
    exact ⟨_, .inr ⟨.serverSendSnapshot, ⟨designed.up, room⟩, rfl⟩, designed.report⟩
  | read =>
    obtain ⟨t, moved, seen⟩ := designed.read
    exact ⟨t, moved.imp_right fun moved => ⟨_, moved⟩, seen⟩

/-- What a run of some length has issued and reported at most. -/
theorem length_act (h : Handshake) (a : Act) :
    (h.act a).issued.length ≤ h.issued.length + 1 ∧
      (h.act a).reports.length ≤ h.reports.length + 1 := by
  cases a with
  | issue k => exact ⟨(List.length_append ..).le, Nat.le_succ _⟩
  | take =>
    unfold Handshake.act
    dsimp only
    split
    · exact ⟨Nat.le_succ _, Nat.le_succ _⟩
    · exact ⟨Nat.le_succ _, Nat.le_succ _⟩
  | enter => exact ⟨Nat.le_succ _, Nat.le_succ _⟩
  | oppLeaves => exact ⟨Nat.le_succ _, Nat.le_succ _⟩
  | report => exact ⟨Nat.le_succ _, (List.length_append ..).le⟩
  | read =>
    unfold Handshake.act
    dsimp only
    split
    · exact ⟨Nat.le_succ _, Nat.le_succ _⟩
    · next m ms arrives =>
      refine ⟨Nat.le_succ _, ?_⟩
      change ms.length ≤ h.reports.length + 1
      rw [arrives, List.length_cons]
      omega

/-- A run of the handshake is matched by one of the design whose bounds it does not reach. -/
theorem designed_of_run {acts : List Act} (run : Run Waits act start acts h)
    (acks : c.ackOnBarrierReject = true) (releaves : c.defensiveReLeave = true)
    (roomSeq : acts.length ≤ c.maxSeq) (roomChan : acts.length ≤ c.maxChan) :
    ∃ s, Net.Reachable c s ∧ h.Designed s := by
  have all : h.Inv ∧ h.issued.length ≤ acts.length ∧ h.reports.length ≤ acts.length ∧
      (acts.length ≤ c.maxSeq → acts.length ≤ c.maxChan →
        ∃ s, Net.Reachable c s ∧ h.Designed s) := by
    refine run.history_invariant (P := fun es h => h.Inv ∧ h.issued.length ≤ es.length ∧
      h.reports.length ≤ es.length ∧ (es.length ≤ c.maxSeq → es.length ≤ c.maxChan →
        ∃ s, Net.Reachable c s ∧ h.Designed s)) ?_ ⟨inv_start, le_rfl, le_rfl, fun _ _ =>
          ⟨.init, Net.reachable_init, designed_start⟩⟩
    rintro es h a ⟨inv, issued, reports, matched⟩ waits
    obtain ⟨more, more'⟩ := h.length_act a
    rw [List.length_append, List.length_singleton]
    refine ⟨inv.act waits.1, by omega, by omega, fun roomSeq roomChan => ?_⟩
    obtain ⟨s, reachable, designed⟩ := matched (by omega) (by omega)
    obtain ⟨t, moved, next⟩ :=
      designed.step inv waits acks releaves (by omega) (by omega) (by omega)
    rcases moved with rfl | ⟨b, enabled, rfl⟩
    · exact ⟨t, reachable, next⟩
    · exact ⟨_, reachable.act enabled, next⟩
  exact all.2.2.2 roomSeq roomChan

end Handshake

/-! ## The bot keeps to the design -/

namespace Wire

variable {x : Side} {w : Wire} {a : WireAct}

/-- A step of the link is one of the handshake, or none. -/
theorem Inv.handshake_gated (inv : Inv x w) (gated : Bot.Gated x w a) :
    (w.act x a).handshake x = w.handshake x ∨
      ∃ e, (w.handshake x).Waits e ∧ (w.act x a).handshake x = (w.handshake x).act e := by
  have quiet {b : Bout} (onward : w.bout.Onward x b) :
      Wire.handshake x { w with bout := b } = w.handshake x ∨ ∃ e, (w.handshake x).Waits e ∧
        Wire.handshake x { w with bout := b } = (w.handshake x).act e := by
    rcases inv.moves_onward onward with still | ⟨e, issues, allowed, moved⟩
    · exact .inl still
    · exact .inr ⟨e, ⟨allowed, fun same => absurd same (issues _)⟩, moved⟩
  cases a with
  | predict i =>
    rcases inv.handshake_predict gated.1 with held | ⟨allowed, sent⟩
    · exact .inl held
    · refine .inr ⟨.issue i.kind, ⟨allowed, fun leaves e mem => ?_⟩, sent⟩
      have same : i = .leaveBazaar := Input.kind_leave.mp (Handshake.Act.issue.inj leaves)
      rw [inv.waiting] at mem
      obtain ⟨f, queued, rfl⟩ := List.mem_map.mp mem
      exact Input.kind_shop.mpr (gated.2 (congrArg _ same) f queued)
  | tick dtMs => exact .inl (handshake_local (Predictor.noteLock_books _))
  | event i => exact .inl (handshake_local (Predictor.noteLock_books _))
  | judge lockSeq lockHash =>
    exact .inl (handshake_local (w.predictor.onLockHash_books lockSeq lockHash))
  | receive => exact .inr ⟨.read, ⟨trivial, nofun⟩, handshake_receive w⟩
  | take => exact .inr ⟨.take, ⟨trivial, nofun⟩, inv.handshake_take⟩
  | opponent i seq => exact quiet (w.bout.onward_opponent x i seq)
  | grant side weapon funds => exact quiet (w.bout.still_debugGrant x side weapon funds).onward
  | advance dtMs => exact quiet (w.bout.onward_tickMs x dtMs)
  | drain side => exact quiet (w.bout.still_takeEventsFor x side).onward
  | takeDirty => exact quiet (w.bout.still_takeDirty x).onward
  | report keyframe spy => exact .inr ⟨.report, ⟨trivial, nofun⟩, handshake_report w keyframe spy⟩

theorem handshake_of_run {seedA seedB : Nat} {acts : List WireAct}
    (run : Run (Bot.Gated x) (Wire.act x) (.start x seedA seedB) acts w) :
    ∃ es, Run Handshake.Waits Handshake.act .start es (w.handshake x) := by
  have both : Inv x w ∧ ∃ es, Run Handshake.Waits Handshake.act .start es (w.handshake x) := by
    refine run.invariant (P := fun w => Inv x w ∧
      ∃ es, Run Handshake.Waits Handshake.act .start es (w.handshake x)) ?_
      ⟨inv_start x seedA seedB, [], ?_⟩
    · rintro w a ⟨inv, es, run⟩ gated
      refine ⟨inv.act gated.1, ?_⟩
      rcases inv.handshake_gated gated with still | ⟨e, waits, moved⟩
      · rw [still]
        exact ⟨es, run⟩
      · rw [moved]
        exact ⟨es ++ [e], run.snoc waits⟩
    · rw [handshake_start]
      exact .nil
  exact both.2

end Wire

namespace Bot

variable {x : Side} {seedA seedB : Nat} {b : Bot}

/-- In every run, where the bot and its server stand is a state that the design reaches, whatever
its other toggles: refused input is acked and a leave that was lost is sent again. -/
theorem refines_design {placeInterval : Int} {weaponsOn : Bool} {acts : List Act}
    (run : Run (Allowed x) (act x) (start x seedA seedB placeInterval weaponsOn) acts b) :
    ∃ bound, ∀ c : NetConfig, bound ≤ c.maxSeq → bound ≤ c.maxChan →
      c.ackOnBarrierReject = true → c.defensiveReLeave = true →
      ∃ s, Net.Reachable c s ∧ (b.wire.handshake x).Designed s := by
  obtain ⟨wireActs, wireRun⟩ := (inv_of_run run).run
  obtain ⟨es, handshakeRun⟩ := Wire.handshake_of_run wireRun
  exact ⟨es.length, fun c roomSeq roomChan acks releaves =>
    Handshake.designed_of_run handshakeRun acks releaves roomSeq roomChan⟩

theorem refines_design_first :
    let b := (start .a 7 3 26 true).act .a (.tick fun _ _ => ⟨0, 0⟩)
    ∃ c s, Net.Reachable c s ∧ (b.wire.handshake .a).Designed s := by
  have run : Run (Allowed .a) (act .a) (start .a 7 3 26 true)
      ([] ++ [.tick fun _ _ => ⟨0, 0⟩]) _ := Run.nil.snoc trivial
  obtain ⟨bound, reached⟩ := refines_design run
  exact ⟨{ Net.shipped with maxSeq := bound, maxChan := bound },
    reached _ le_rfl le_rfl rfl rfl⟩

end Bot

end BattleTris
