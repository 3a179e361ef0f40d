import BattleTris.Lib.Run
import BattleTris.Server.Bout

/-!
Which inputs a bout applies, acknowledges and records.
-/

namespace BattleTris

namespace Bout

/-! ## What the operations touch -/

/-- The spy bookkeeping changes the books of the spies alone. -/
theorem tickSpy_eq (b : Bout) (side : Side) :
    ∃ spy seen tetris launches, b.tickSpy side =
      { b with
        versus := { b.versus with spyLaunch := launches }
        spy := spy, oppLinesSeen := seen, lastOppTetrisTick := tetris } := by
  have launch (ts : List WeaponToken) (b : Bout) :
      ∃ spy, ts.foldl (launchSpy side) b = { b with spy := spy } := by
    refine Loop.foldl_invariant (P := fun c : Bout => ∃ spy, c = { b with spy := spy })
      (fun t _ c kept => ?_) ⟨b.spy, rfl⟩
    obtain ⟨spy, rfl⟩ := kept
    exact ⟨_, rfl⟩
  have charged (b : Bout) (delta : Int) :
      ∃ spy, b.chargeSpy side delta = { b with spy := spy } := by
    unfold chargeSpy
    cases b.spy side with
    | none => exact ⟨b.spy, rfl⟩
    | some s => exact ⟨_, rfl⟩
  have noted (delta : Int) :
      ∃ tetris, b.noteTetris side delta = { b with lastOppTetrisTick := tetris } := by
    unfold noteTetris
    split
    · exact ⟨_, rfl⟩
    · exact ⟨b.lastOppTetrisTick, rfl⟩
  obtain ⟨tetris, note⟩ := noted (b.oppDelta side)
  obtain ⟨spy, charge⟩ := charged { b with lastOppTetrisTick := tetris } (b.oppDelta side)
  unfold tickSpy
  dsimp only
  rw [note, charge]
  obtain ⟨spy', launched⟩ := launch (b.versus.spyLaunch side)
    { b with
      versus := (b.versus.takeSpyLaunches side).2
      spy := spy
      oppLinesSeen := Function.update b.oppLinesSeen side (b.versus.game side.other).score.lines
      lastOppTetrisTick := tetris }
  exact ⟨_, _, _, _, launched⟩

/-- A tick runs the match, counts itself and keeps the books of the spies. -/
theorem tickMs_eq (b : Bout) (dtMs : Int) :
    ∃ spy seen tetris launches, b.tickMs dtMs =
      { b with
        versus := { b.versus.tick dtMs with spyLaunch := launches }
        tick := b.tick + 1
        spy := spy, oppLinesSeen := seen, lastOppTetrisTick := tetris } := by
  obtain ⟨_, _, _, _, first⟩ := (b.advance dtMs).tickSpy_eq .a
  obtain ⟨_, _, _, _, second⟩ := ((b.advance dtMs).tickSpy .a).tickSpy_eq .b
  unfold tickMs
  rw [second, first]
  exact ⟨_, _, _, _, rfl⟩

@[simp] theorem frames_tickMs (b : Bout) (dtMs : Int) : (b.tickMs dtMs).frames = b.frames := by
  obtain ⟨_, _, _, _, ticked⟩ := b.tickMs_eq dtMs
  rw [ticked]

@[simp] theorem ack_tickMs (b : Bout) (dtMs : Int) : (b.tickMs dtMs).ack = b.ack := by
  obtain ⟨_, _, _, _, ticked⟩ := b.tickMs_eq dtMs
  rw [ticked]

@[simp] theorem tick_tickMs (b : Bout) (dtMs : Int) : (b.tickMs dtMs).tick = b.tick + 1 := by
  obtain ⟨_, _, _, _, ticked⟩ := b.tickMs_eq dtMs
  rw [ticked]

theorem recordGrant_eq (b : Bout) (side : Side) (landed : Bool) (input : Option Input) :
    ∃ frames, b.recordGrant side landed input = { b with frames := frames } := by
  cases landed with
  | false => exact ⟨b.frames, rfl⟩
  | true =>
    cases input with
    | none => exact ⟨b.frames, rfl⟩
    | some input => exact ⟨_, rfl⟩

theorem grantWeapon_eq (b : Bout) (side : Side) (weapon : Option WeaponToken) :
    ∃ versus, (b.grantWeapon side weapon).2 = { b with versus := versus } := by
  cases weapon with
  | none => exact ⟨b.versus, rfl⟩
  | some t => exact ⟨_, rfl⟩

theorem grantFunds_eq (b : Bout) (side : Side) (funds : Option Int) :
    ∃ versus, (b.grantFunds side funds).2 = { b with versus := versus } := by
  cases funds with
  | none => exact ⟨b.versus, rfl⟩
  | some amount =>
    unfold grantFunds
    dsimp only
    split
    · exact ⟨_, rfl⟩
    · exact ⟨b.versus, rfl⟩

/-- A grant touches the match and its recording. -/
theorem debugGrant_eq (b : Bout) (side : Side) (weapon : Option WeaponToken)
    (funds : Option Int) :
    ∃ versus frames, (b.debugGrant side weapon funds).2 =
      { b with versus := versus, frames := frames } := by
  obtain ⟨armed, granted⟩ := b.grantWeapon_eq side weapon
  obtain ⟨funded, credited⟩ := ({ b with versus := armed } : Bout).grantFunds_eq side funds
  unfold debugGrant
  dsimp only
  rw [granted, credited]
  obtain ⟨frames, first⟩ := ({ b with versus := funded } : Bout).recordGrant_eq side
    (b.grantWeapon side weapon).1 (weapon.map fun t : WeaponToken => Input.grantWeapon t.index)
  obtain ⟨frames', second⟩ :=
    ({ b with versus := funded, frames := frames } : Bout).recordGrant_eq side
    (({ b with versus := armed } : Bout).grantFunds side funds).1 (funds.map Input.addFunds)
  rw [first, second]
  exact ⟨funded, frames', rfl⟩

/-! ## The outcomes of one input -/

/-- The outcomes of an input, each with the gate that decided it. -/
inductive Judged (b : Bout) (side : Side) (input : Input) (seq : Nat) : Bool × Bout → Prop where
  | illegal (gate : isLegalClientInput input = false) : Judged b side input seq (false, b)
  | stale (legal : isLegalClientInput input = true) (gate : seq ≤ b.ack side) :
    Judged b side input seq (false, b)
  | blocked (legal : isLegalClientInput input = true) (fresh : b.ack side < seq)
    (barrier : b.versus.barrier = true) (gate : isBazaarInput input = false) :
    Judged b side input seq (false, b.setAck side seq)
  | applied (legal : isLegalClientInput input = true) (fresh : b.ack side < seq)
    (shop : b.versus.barrier = true → isBazaarInput input = true) :
    Judged b side input seq
      (true, ((b.setAck side seq).drive side input).record side input)

theorem judged_applyInput (b : Bout) (side : Side) (input : Input) (seq : Nat) :
    Judged b side input seq (b.applyInput side input seq) := by
  unfold applyInput
  cases legal : isLegalClientInput input with
  | false => rw [if_pos (by simp)]; exact .illegal legal
  | true =>
    by_cases old : seq ≤ b.ack side
    · rw [if_pos (.inr old)]
      exact .stale legal old
    have fresh : b.ack side < seq := Nat.lt_of_not_le old
    rw [if_neg (by simp [old])]
    dsimp only
    by_cases gated : (b.setAck side seq).versus.barrier ∧ ¬isBazaarInput input
    · rw [if_pos gated]
      exact .blocked legal fresh gated.1 (by simpa using gated.2)
    · rw [if_neg gated]
      refine .applied legal fresh fun barrier => ?_
      by_contra other
      exact gated ⟨barrier, other⟩

/-! ## Runs of a bout -/

/-- What a host calls on a bout. -/
inductive Call where
  | applyInput (side : Side) (input : Input) (seq : Nat)
  | tick (dtMs : Int)
  | buildSnapshot (side : Side) (includeKeyframe includeSpy : Bool)

/-- An applied input, with the ticks run before it. -/
structure Applied where
  side : Side
  input : Input
  seq : Nat
  ticks : Nat

/-- How it is recorded: the stamp is a `u32`. -/
def Applied.frame (a : Applied) : VersusFrame := ⟨a.ticks % 2 ^ 32, sideIdx a.side, a.input⟩

/-- A bout beside what an observer of its calls writes down. -/
structure Audited where
  bout : Bout
  ticks : Nat
  applied : List Applied

namespace Audited

def start (seedA seedB : Nat) : Audited := ⟨.new seedA seedB, 0, []⟩

def call (a : Audited) : Call → Audited
  | .applyInput side input seq =>
    let (done, b) := a.bout.applyInput side input seq
    { a with
      bout := b
      applied := if done then a.applied ++ [⟨side, input, seq, a.ticks⟩] else a.applied }
  | .tick dtMs => { a with bout := a.bout.tickMs dtMs, ticks := a.ticks + 1 }
  | .buildSnapshot _ _ _ => a

/-- The sequence numbers applied to one side, in order. -/
def seqs (a : Audited) (side : Side) : List Nat :=
  (a.applied.filter (·.side = side)).map (·.seq)

/-- What holds between the calls. -/
structure Kept (a : Audited) : Prop where
  ticks : a.bout.tick = a.ticks
  frames : a.bout.frames = a.applied.map Applied.frame
  increasing : ∀ side, (a.seqs side).Pairwise (· < ·)
  acked : ∀ side, ∀ seq ∈ a.seqs side, seq ≤ a.bout.ack side

theorem kept_start (seedA seedB : Nat) : Kept (start seedA seedB) :=
  ⟨rfl, rfl, fun _ => .nil, fun _ _ mem => absurd mem List.not_mem_nil⟩

theorem seqs_append (a : Audited) (b : Bout) (x : Applied) (side : Side) :
    seqs { a with bout := b, applied := a.applied ++ [x] } side =
      if x.side = side then a.seqs side ++ [x.seq] else a.seqs side := by
  unfold seqs
  rw [List.filter_append, List.map_append]
  split
  · next same => simp [same]
  · next apart => simp [apart]

theorem Kept.call {a : Audited} (kept : Kept a) (c : Call) : Kept (a.call c) := by
  cases c with
  | tick dtMs =>
    have acks := a.bout.ack_tickMs dtMs
    refine ⟨?_, ?_, kept.increasing, fun side seq mem => ?_⟩
    · exact (a.bout.tick_tickMs dtMs).trans (congrArg (· + 1) kept.ticks)
    · exact (a.bout.frames_tickMs dtMs).trans kept.frames
    · exact (kept.acked side seq mem).trans_eq (congrFun acks side).symm
  | buildSnapshot => exact kept
  | applyInput side input seq =>
    have judged := a.bout.judged_applyInput side input seq
    unfold Audited.call
    dsimp only
    generalize a.bout.applyInput side input seq = r at judged
    -- an acknowledged number is above every applied one
    have above (s : Side) (fresh : a.bout.ack side < seq) (q : Nat) (mem : q ∈ a.seqs s) :
        q ≤ Function.update a.bout.ack side seq s := by
      have old := kept.acked s q mem
      rcases eq_or_ne s side with rfl | apart
      · rw [Function.update_self]
        omega
      · rwa [Function.update_of_ne apart]
    cases judged with
    | illegal gate => exact kept
    | stale legal gate => exact kept
    | blocked legal fresh barrier gate =>
      exact ⟨kept.ticks, kept.frames, kept.increasing, fun s q mem => above s fresh q mem⟩
    | applied legal fresh shop =>
      have listed (s : Side) := seqs_append a
        (((a.bout.setAck side seq).drive side input).record side input)
        ⟨side, input, seq, a.ticks⟩ s
      refine ⟨kept.ticks, ?_, fun s => ?_, fun s q mem => ?_⟩
      · change a.bout.frames ++ _ = _
        rw [kept.frames, if_pos rfl, List.map_append]
        exact congrArg (fun n => _ ++ [VersusFrame.mk (n % 2 ^ 32) _ _]) kept.ticks
      · dsimp only
        rw [if_pos rfl, listed]
        split
        · next here =>
          rw [List.pairwise_append]
          refine ⟨kept.increasing s, List.pairwise_singleton _ _, fun q mem q' last => ?_⟩
          obtain rfl := List.mem_singleton.mp last
          have old := kept.acked s q mem
          obtain rfl : side = s := here
          exact Nat.lt_of_le_of_lt old fresh
        · exact kept.increasing s
      · dsimp only at mem
        rw [if_pos rfl, listed] at mem
        change q ≤ Function.update a.bout.ack side seq s
        split at mem
        · next here =>
          rcases List.mem_append.mp mem with old | last
          · exact above s fresh q old
          · obtain rfl := List.mem_singleton.mp last
            obtain rfl : side = s := here
            rw [Function.update_self]
        · exact above s fresh q mem

theorem kept_of_run {seedA seedB : Nat} {calls : List Call} {a : Audited}
    (run : Run (fun _ _ => True) call (start seedA seedB) calls a) : Kept a :=
  run.invariant (fun _ c kept _ => kept.call c) (kept_start seedA seedB)

/-- Whatever has been called on a bout, the gates of its next input are these, the
applied inputs of a side have increasing numbers, and the frames are the applied
inputs in order, stamped with the low 32 bits of the ticks before them. -/
theorem input_discipline {seedA seedB : Nat} {calls : List Call} {a : Audited}
    (run : Run (fun _ _ => True) call (start seedA seedB) calls a) (side : Side)
    (input : Input) (seq : Nat) :
    (isLegalClientInput input = false →
      a.bout.applyInput side input seq = (false, a.bout)) ∧
    (isLegalClientInput input = true → seq ≤ a.bout.ack side →
      a.bout.applyInput side input seq = (false, a.bout)) ∧
    (isLegalClientInput input = true → a.bout.ack side < seq →
      (a.bout.applyInput side input seq).2.ack = Function.update a.bout.ack side seq) ∧
    ((a.bout.applyInput side input seq).1 = true →
      (a.bout.applyInput side input seq).2.versus =
        a.bout.versus.modify side input.applyToGame ∧
      (a.bout.versus.barrier = true → isBazaarInput input = true)) ∧
    ((a.bout.applyInput side input seq).1 = false →
      (a.bout.applyInput side input seq).2.versus = a.bout.versus ∧
      (a.bout.applyInput side input seq).2.frames = a.bout.frames) ∧
    (∀ s, (a.seqs s).Pairwise (· < ·)) ∧
    a.bout.frames = a.applied.map Applied.frame := by
  have kept := kept_of_run run
  have judged := a.bout.judged_applyInput side input seq
  generalize a.bout.applyInput side input seq = r at judged
  refine ⟨fun illegal => ?_, fun legal old => ?_, fun legal fresh => ?_, fun done => ?_,
    fun refused => ?_, kept.increasing, kept.frames⟩
  · cases judged with
    | illegal => rfl
    | stale legal => exact absurd (illegal.symm.trans legal) Bool.false_ne_true
    | blocked legal => exact absurd (illegal.symm.trans legal) Bool.false_ne_true
    | applied legal => exact absurd (illegal.symm.trans legal) Bool.false_ne_true
  · cases judged with
    | illegal => rfl
    | stale => rfl
    | blocked _ fresh => exact absurd old (Nat.not_le_of_lt fresh)
    | applied _ fresh => exact absurd old (Nat.not_le_of_lt fresh)
  · cases judged with
    | illegal gate => exact absurd (gate.symm.trans legal) Bool.false_ne_true
    | stale _ old => exact absurd old (Nat.not_le_of_lt fresh)
    | blocked => rfl
    | applied => rfl
  · cases judged with
    | illegal => cases done
    | stale => cases done
    | blocked => cases done
    | applied _ _ shop => exact ⟨rfl, shop⟩
  · cases judged with
    | illegal => exact ⟨rfl, rfl⟩
    | stale => exact ⟨rfl, rfl⟩
    | blocked => exact ⟨rfl, rfl⟩
    | applied => cases refused

/-- A fresh bout rejects the drop of the computer player. -/
theorem input_discipline_illegal :
    (start 7 3).bout.applyInput .a .aiDrop 1 = (false, (start 7 3).bout) := by
  have run : Run (fun _ _ => True) call (start 7 3) [] (start 7 3) := .nil
  exact (input_discipline run .a .aiDrop 1).1 rfl

/-! ## The stamp is a `u32` -/

theorem ticks_foldl (n : Nat) (a : Audited) :
    ((List.replicate n (Call.tick 16)).foldl call a).ticks = a.ticks + n ∧
      ((List.replicate n (Call.tick 16)).foldl call a).bout.ack = a.bout.ack ∧
      ((List.replicate n (Call.tick 16)).foldl call a).applied = a.applied := by
  induction n generalizing a with
  | zero => exact ⟨rfl, rfl, rfl⟩
  | succ n ih =>
    rw [List.replicate_succ, List.foldl_cons]
    obtain ⟨ticks, ack, applied⟩ := ih (a.call (.tick 16))
    refine ⟨?_, ?_, applied⟩
    · rw [ticks]
      change a.ticks + 1 + n = a.ticks + (n + 1)
      omega
    · rw [ack]
      exact a.bout.ack_tickMs 16

/-- A departure from the bazaar after `n` ticks, as it is applied and recorded. -/
theorem leave_after_ticks (n : Nat) :
    ∃ a, Run (fun _ _ => True) call (start 7 3)
        (List.replicate n (.tick 16) ++ [.applyInput .a .leaveBazaar 1]) a ∧
      a.applied = [⟨.a, .leaveBazaar, 1, n⟩] ∧
      a.bout.frames = [⟨n % 2 ^ 32, 0, .leaveBazaar⟩] := by
  have ticked (n : Nat) : Run (fun _ _ => True) call (start 7 3) (List.replicate n (.tick 16))
      ((List.replicate n (Call.tick 16)).foldl call (start 7 3)) := by
    induction n with
    | zero => exact .nil
    | succ n ih =>
      rw [List.replicate_succ', List.foldl_append]
      exact ih.snoc trivial
  obtain ⟨ticks, ack, applied⟩ := ticks_foldl n (start 7 3)
  have before := ticked n
  generalize (List.replicate n (Call.tick 16)).foldl call (start 7 3) = a at *
  have after := before.snoc (e := .applyInput .a .leaveBazaar 1) trivial
  have fresh : a.bout.ack .a < 1 := by rw [ack]; exact Nat.one_pos
  have listed : (a.call (.applyInput .a .leaveBazaar 1)).applied =
      [⟨.a, .leaveBazaar, 1, n⟩] := by
    have judged := a.bout.judged_applyInput .a .leaveBazaar 1
    unfold call
    dsimp only
    generalize a.bout.applyInput .a .leaveBazaar 1 = r at judged
    have counted : a.ticks = n := ticks.trans (Nat.zero_add n)
    cases judged with
    | illegal gate => cases gate
    | stale _ old => omega
    | blocked _ _ _ gate => cases gate
    | applied =>
      rw [if_pos rfl, applied, counted]
      rfl
  have frames := (kept_of_run after).frames
  rw [listed] at frames
  exact ⟨_, after, listed, frames⟩

/-- After `2 ^ 32` ticks a departure from the bazaar is recorded at tick 0. -/
theorem stamp_wraps :
    ∃ a, Run (fun _ _ => True) call (start 7 3)
        (List.replicate (2 ^ 32) (.tick 16) ++ [.applyInput .a .leaveBazaar 1]) a ∧
      a.applied = [⟨.a, .leaveBazaar, 1, 2 ^ 32⟩] ∧
      a.bout.frames ≠ a.applied.map fun x => ⟨x.ticks, sideIdx x.side, x.input⟩ := by
  obtain ⟨a, run, applied, frames⟩ := leave_after_ticks (2 ^ 32)
  refine ⟨a, run, applied, fun same => ?_⟩
  rw [frames, applied, Nat.mod_self] at same
  injection same with head
  injection head with stamp
  cases stamp

end Audited

end Bout

end BattleTris
