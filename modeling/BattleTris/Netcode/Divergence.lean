import BattleTris.Netcode.Detector

/-!
How long a divergence can stay unreported.

Without keyframes the history holds the last eight locks of the local game, and a
delivered lock is judged exactly when it is one of them.
-/

namespace BattleTris

open Predictor

namespace Predictor

/-- The local game has reached the lock and is less than a history past it. -/
def InRange (p : Predictor) (lockSeq : Nat) : Prop :=
  0 < lockSeq ∧ lockSeq ≤ p.game.lockSeq ∧ p.game.lockSeq < lockSeq + lockHistoryCap

/-- The history holds the last locks of the game, in order. -/
structure Full (p : Predictor) : Prop where
  length : p.lockHistory.length = min lockHistoryCap p.game.lockSeq
  locks : p.lockHistory.map Prod.fst =
    List.range' (p.game.lockSeq + 1 - p.lockHistory.length) p.lockHistory.length

theorem Full.advance {p p' : Predictor} (full : p.Full) (advances : Advances p p') : p'.Full := by
  rcases advances.locks with ⟨stays, same⟩ | ⟨moves, pushed⟩
  · exact ⟨by rw [same, stays]; exact full.length, by rw [same, stays]; exact full.locks⟩
  · have length := full.length
    by_cases whole : p.lockHistory.length = lockHistoryCap
    · -- the oldest lock makes room
      rw [if_pos whole] at pushed
      have length' : p'.lockHistory.length = lockHistoryCap := by
        rw [pushed, List.length_append, List.length_tail, whole]
        rfl
      have low : lockHistoryCap ≤ p.game.lockSeq := by omega
      refine ⟨by omega, ?_⟩
      rw [length', pushed, List.map_append, List.map_tail, full.locks, whole, List.tail_range',
        List.map_singleton, moves]
      have split : List.range' (p.game.lockSeq + 1 - lockHistoryCap + 1) lockHistoryCap =
          List.range' (p.game.lockSeq + 1 - lockHistoryCap + 1) (lockHistoryCap - 1) ++
            [p.game.lockSeq + 1 - lockHistoryCap + 1 + 1 * (lockHistoryCap - 1)] :=
        List.range'_concat
      have start : p.game.lockSeq + 1 + 1 - lockHistoryCap =
          p.game.lockSeq + 1 - lockHistoryCap + 1 := by omega
      have newest : p.game.lockSeq + 1 - lockHistoryCap + 1 + 1 * (lockHistoryCap - 1) =
          p.game.lockSeq + 1 := by
        unfold lockHistoryCap at *
        omega
      rw [start, split, newest]
    · rw [if_neg whole] at pushed
      have length' : p'.lockHistory.length = p.lockHistory.length + 1 := by
        rw [pushed, List.length_append]
        rfl
      have short : p.lockHistory.length = p.game.lockSeq := by omega
      refine ⟨by unfold lockHistoryCap at *; omega, ?_⟩
      rw [length', pushed, List.map_append, full.locks, List.map_singleton, moves,
        List.range'_concat]
      congr 2 <;> omega

/-- What the history holds is what is in range. -/
theorem Full.recorded_iff {p : Predictor} (full : p.Full) (lockSeq : Nat) :
    (p.recorded lockSeq).isSome ↔ p.InRange lockSeq := by
  have length := full.length
  have mem : lockSeq ∈ p.lockHistory.map Prod.fst ↔ p.InRange lockSeq := by
    rw [full.locks, List.mem_range'_1]
    unfold InRange
    omega
  rw [← mem]
  unfold recorded
  rw [Option.isSome_map, List.find?_isSome]
  simp

end Predictor

namespace Watched

/-- The run has no keyframe, locks are delivered in order, and from lock `n` on no
delivered hash is the one the local game has computed. -/
def Lasting (n : Nat) (w : Watched) (c : Call) : Prop :=
  c.restores = false ∧ ∀ lockSeq lockHash, c = .onLockHash lockSeq lockHash →
    (∀ d ∈ w.delivered, d.1 ≤ lockSeq) ∧
      (n ≤ lockSeq → ∀ l ∈ w.computed, l.1 = lockSeq → l.2 ≠ lockHash)

/-- Sound, with a full history, and the last judged lock was delivered. -/
structure Steady (w : Watched) : Prop where
  sound : w.Sound
  full : w.client.Full
  last : ∀ t, w.client.lastJudged = some t → ∃ d ∈ w.delivered, d.1 = t

theorem steady_start (seed : Nat) : Steady (start seed) := by
  have lockSeq : (Game.new seed).lockSeq = 0 := (Game.blank seed).spawn_lockSeq
  refine ⟨sound_start seed, ⟨?_, ?_⟩, fun t last => ?_⟩
  · change 0 = min lockHistoryCap (Game.new seed).lockSeq
    rw [lockSeq]
    rfl
  · rfl
  · cases last

/-- A delivery changes no more than the verdict. -/
theorem client_deliver (w : Watched) (lockSeq lockHash : Nat) :
    ((w.watch (.onLockHash lockSeq lockHash)).client.game = w.client.game ∧
      (w.watch (.onLockHash lockSeq lockHash)).client.lockHistory = w.client.lockHistory) ∧
    ((w.watch (.onLockHash lockSeq lockHash)).client.lastJudged = w.client.lastJudged ∨
      (w.watch (.onLockHash lockSeq lockHash)).client.lastJudged = some lockSeq) := by
  change (((w.client.onLockHash lockSeq lockHash).2.game = _ ∧ _) ∧ _)
  cases judges : w.client.judges lockSeq with
  | none =>
    have client : (w.watch (.onLockHash lockSeq lockHash)).client = w.client :=
      congrArg Prod.snd (onLockHash_of_skipped judges lockHash)
    rw [onLockHash_of_skipped judges, client]
    exact ⟨⟨rfl, rfl⟩, .inl rfl⟩
  | some localHash =>
    have client : (w.watch (.onLockHash lockSeq lockHash)).client =
        (w.client.onLockHash lockSeq lockHash).2 := rfl
    rw [client, onLockHash_of_judged judges]
    dsimp only
    split
    · exact ⟨⟨rfl, rfl⟩, .inr rfl⟩
    · split
      · exact ⟨⟨rfl, rfl⟩, .inr rfl⟩
      · exact ⟨⟨rfl, rfl⟩, .inr rfl⟩

theorem Steady.watch {n : Nat} {w : Watched} (steady : w.Steady) {c : Call}
    (lasting : w.Lasting n c) : Steady (w.watch c) := by
  refine ⟨steady.sound.watch c, ?_, ?_⟩
  · by_cases quiet : ∀ lockSeq lockHash, c ≠ .onLockHash lockSeq lockHash
    · rw [watch_of_plain lasting.1 quiet]
      exact steady.full.advance (advances_call steady.sound.seen lasting.1 quiet)
    · push Not at quiet
      obtain ⟨lockSeq, lockHash, rfl⟩ := quiet
      obtain ⟨⟨game, history⟩, -⟩ := w.client_deliver lockSeq lockHash
      exact ⟨by rw [history, game]; exact steady.full.length,
        by rw [history, game]; exact steady.full.locks⟩
  · intro t last
    by_cases quiet : ∀ lockSeq lockHash, c ≠ .onLockHash lockSeq lockHash
    · rw [watch_of_plain lasting.1 quiet] at last ⊢
      have advances := advances_call steady.sound.seen lasting.1 quiet
      exact steady.last t (advances.lastJudged.symm.trans last)
    · push Not at quiet
      obtain ⟨lockSeq, lockHash, rfl⟩ := quiet
      rcases (w.client_deliver lockSeq lockHash).2 with same | now
      · obtain ⟨d, mem, rfl⟩ := steady.last t (same.symm.trans last)
        exact ⟨d, List.mem_append_left _ mem, rfl⟩
      · rw [now] at last
        cases last
        exact ⟨(t, lockHash), List.mem_append_right _ List.mem_cons_self, rfl⟩

theorem steady_run {n : Nat} {w w' : Watched} {calls : List Call}
    (run : Run (Lasting n) watch w calls w') (steady : w.Steady) : w'.Steady :=
  run.invariant (P := Steady) (fun _ _ steady lasting => steady.watch lasting) steady

/-! ## The streak -/

/-- A call that delivers nothing leaves the streak alone. -/
theorem streak_of_plain {w : Watched} (sound : w.Sound) {c : Call} (plain : c.restores = false)
    (quiet : ∀ lockSeq lockHash, c ≠ .onLockHash lockSeq lockHash) :
    (w.watch c).alarms = w.alarms ∧ (w.watch c).client.lastJudged = w.client.lastJudged ∧
      (w.watch c).client.mismatches = w.client.mismatches := by
  have advances := advances_call sound.seen plain quiet
  rw [watch_of_plain plain quiet]
  exact ⟨rfl, advances.lastJudged, advances.mismatches⟩

/-- A delivery that is skipped leaves everything alone. -/
theorem streak_of_skipped {w : Watched} {lockSeq : Nat}
    (skipped : w.client.judges lockSeq = none) (lockHash : Nat) :
    (w.watch (.onLockHash lockSeq lockHash)).alarms = w.alarms ∧
      (w.watch (.onLockHash lockSeq lockHash)).client = w.client := by
  have outcome := onLockHash_of_skipped skipped lockHash
  refine ⟨?_, congrArg Prod.snd outcome⟩
  change (if (w.client.onLockHash lockSeq lockHash).1 then w.alarms + 1 else w.alarms) = _
  rw [outcome]
  rfl

/-- A judged lock is the last judged one afterwards. -/
theorem lastJudged_of_judged {w : Watched} {lockSeq localHash : Nat}
    (judges : w.client.judges lockSeq = some localHash) (lockHash : Nat) :
    (w.watch (.onLockHash lockSeq lockHash)).client.lastJudged = some lockSeq := by
  change (w.client.onLockHash lockSeq lockHash).2.lastJudged = _
  rw [onLockHash_of_judged judges]
  dsimp only
  split
  · rfl
  · split <;> rfl

theorem alarms_le_deliver (w : Watched) (lockSeq lockHash : Nat) :
    w.alarms ≤ (w.watch (.onLockHash lockSeq lockHash)).alarms := by
  change _ ≤ if (w.client.onLockHash lockSeq lockHash).1 then w.alarms + 1 else w.alarms
  split <;> omega

/-- From lock `n` on, what is judged mismatches: the detector reports, or this is the
first mismatch of a streak. -/
theorem Steady.mismatch {n : Nat} {w : Watched} (steady : w.Steady)
    {lockSeq lockHash localHash : Nat} (lasting : w.Lasting n (.onLockHash lockSeq lockHash))
    (late : n ≤ lockSeq) (judges : w.client.judges lockSeq = some localHash) :
    w.alarms < (w.watch (.onLockHash lockSeq lockHash)).alarms ∨
      w.client.mismatches = 0 ∧
        (w.watch (.onLockHash lockSeq lockHash)).client.mismatches = 1 := by
  have computed := steady.sound.computed _ (steady.sound.history _ (mem_of_judges judges))
  have apart : localHash ≠ lockHash := (lasting.2 _ _ rfl).2 late _ computed rfl
  have outcome := onLockHash_of_judged judges lockHash
  dsimp only at outcome
  rw [if_neg apart] at outcome
  by_cases second : w.client.mismatches + 1 ≥ 2
  · left
    rw [if_pos second] at outcome
    change _ < if (w.client.onLockHash lockSeq lockHash).1 then w.alarms + 1 else w.alarms
    rw [outcome]
    exact Nat.lt_succ_self _
  · right
    have none : w.client.mismatches = 0 := by omega
    rw [if_neg second] at outcome
    refine ⟨none, ?_⟩
    change (w.client.onLockHash lockSeq lockHash).2.mismatches = 1
    rw [outcome]
    change w.client.mismatches + 1 = 1
    rw [none]

/-- The detector has reported more than `a` times, or a streak that reaches beyond lock
`n` stands at one mismatch. -/
def Waiting (a n : Nat) (w : Watched) : Prop :=
  a < w.alarms ∨ a = w.alarms ∧
    ∀ t, w.client.lastJudged = some t → n ≤ t → w.client.mismatches = 1

/-- It has reported more than `a` times, or it stands at one mismatch, of lock `s`. -/
def Struck (a s : Nat) (w : Watched) : Prop :=
  a < w.alarms ∨ a = w.alarms ∧ w.client.lastJudged = some s ∧ w.client.mismatches = 1

theorem Waiting.watch {a n : Nat} {w : Watched} (steady : w.Steady) (waiting : Waiting a n w)
    {c : Call} (lasting : w.Lasting n c) : Waiting a n (w.watch c) := by
  by_cases quiet : ∀ lockSeq lockHash, c ≠ .onLockHash lockSeq lockHash
  · obtain ⟨alarms, last, mismatches⟩ := streak_of_plain steady.sound lasting.1 quiet
    unfold Waiting
    rw [alarms, last, mismatches]
    exact waiting
  · push Not at quiet
    obtain ⟨lockSeq, lockHash, rfl⟩ := quiet
    have grows := w.alarms_le_deliver lockSeq lockHash
    rcases waiting with reported | ⟨same, streak⟩
    · exact .inl (lt_of_lt_of_le reported grows)
    · cases judges : w.client.judges lockSeq with
      | none =>
        obtain ⟨alarms, client⟩ := streak_of_skipped judges lockHash
        unfold Waiting
        rw [alarms, client]
        exact .inr ⟨same, streak⟩
      | some localHash =>
        have last := lastJudged_of_judged judges lockHash
        by_cases now : a = (w.watch (.onLockHash lockSeq lockHash)).alarms
        · refine .inr ⟨now, fun t here late => ?_⟩
          rw [last] at here
          cases here
          rcases steady.mismatch lasting late judges with reported | ⟨-, one⟩
          · omega
          · exact one
        · exact .inl (by omega)

theorem Struck.watch {a n s : Nat} {w : Watched} (steady : w.Steady) (late : n ≤ s)
    (struck : Struck a s w) {c : Call} (lasting : w.Lasting n c) : Struck a s (w.watch c) := by
  by_cases quiet : ∀ lockSeq lockHash, c ≠ .onLockHash lockSeq lockHash
  · obtain ⟨alarms, last, mismatches⟩ := streak_of_plain steady.sound lasting.1 quiet
    unfold Struck
    rw [alarms, last, mismatches]
    exact struck
  · push Not at quiet
    obtain ⟨lockSeq, lockHash, rfl⟩ := quiet
    rcases struck with reported | ⟨same, last, one⟩
    · exact .inl (lt_of_lt_of_le reported (w.alarms_le_deliver lockSeq lockHash))
    · cases judges : w.client.judges lockSeq with
      | none =>
        obtain ⟨alarms, client⟩ := streak_of_skipped judges lockHash
        unfold Struck
        rw [alarms, client]
        exact .inr ⟨same, last, one⟩
      | some localHash =>
        -- no earlier lock than the struck one, so this mismatch is the second in a row
        obtain ⟨d, mem, here⟩ := steady.last s last
        have later : s ≤ lockSeq := here ▸ (lasting.2 _ _ rfl).1 d mem
        rcases steady.mismatch lasting (late.trans later) judges with reported | ⟨none, -⟩
        · exact .inl (same ▸ reported)
        · omega

/-- A delivery in range is judged now, or was the last one judged. -/
theorem Steady.judged_or_last {w : Watched} (steady : w.Steady) {lockSeq : Nat}
    (near : w.client.InRange lockSeq) :
    (∃ localHash, w.client.judges lockSeq = some localHash) ∨
      w.client.lastJudged = some lockSeq ∧ w.client.judges lockSeq = none := by
  have recorded := (steady.full.recorded_iff lockSeq).mpr near
  unfold Predictor.judges
  by_cases last : some lockSeq = w.client.lastJudged
  · exact .inr ⟨last.symm, if_pos last⟩
  · rw [if_neg last]
    exact .inl (Option.isSome_iff_exists.mp recorded)

/-- Without keyframes, with the locks delivered in order, and with no delivered hash from
lock `n` on the local one: a delivery outside the range of the history is skipped, and
by the second lock from `n` on that is delivered in range the detector has reported. -/
theorem lasting_divergence_reported {seed n : Nat} {calls calls₁ calls₂ : List Call}
    {w w₁ w₂ : Watched} (before : Run (Lasting n) watch (start seed) calls w)
    (unseen : ∀ d ∈ w.delivered, d.1 < n) (run₁ : Run (Lasting n) watch w calls₁ w₁)
    {s₁ h₁ : Nat} (first : w₁.Lasting n (.onLockHash s₁ h₁)) (near₁ : w₁.client.InRange s₁)
    (run₂ : Run (Lasting n) watch (w₁.watch (.onLockHash s₁ h₁)) calls₂ w₂)
    {s₂ h₂ : Nat} (second : w₂.Lasting n (.onLockHash s₂ h₂)) (near₂ : w₂.client.InRange s₂)
    (late : n ≤ s₁) (apart : s₁ < s₂) :
    (∀ s h, ¬w₂.client.InRange s → w₂.client.onLockHash s h = (false, w₂.client)) ∧
      w.alarms < (w₂.watch (.onLockHash s₂ h₂)).alarms := by
  have steady := steady_run before (steady_start seed)
  have steady₁ := steady_run run₁ steady
  have steady₂ := steady_run run₂ (steady₁.watch first)
  -- up to the first lock in range
  have waiting : Waiting w.alarms n w₁ := by
    have both := run₁.invariant (P := fun v => v.Steady ∧ Waiting w.alarms n v)
      (fun _ _ held lasting => ⟨held.1.watch lasting, held.2.watch held.1 lasting⟩)
      ⟨steady, .inr ⟨rfl, fun t last high => ?_⟩⟩
    · exact both.2
    · obtain ⟨d, mem, rfl⟩ := steady.last t last
      have low := unseen d mem
      omega
  -- at the first lock in range
  have struck : Struck w.alarms s₁ (w₁.watch (.onLockHash s₁ h₁)) := by
    have grows := w₁.alarms_le_deliver s₁ h₁
    rcases waiting with reported | ⟨same, streak⟩
    · exact .inl (lt_of_lt_of_le reported grows)
    · rcases steady₁.judged_or_last near₁ with ⟨localHash, judges⟩ | ⟨last, judges⟩
      · have last := lastJudged_of_judged judges h₁
        rcases steady₁.mismatch first late judges with reported | ⟨-, one⟩
        · exact .inl (same ▸ reported)
        · by_cases now : w.alarms = (w₁.watch (.onLockHash s₁ h₁)).alarms
          · exact .inr ⟨now, last, one⟩
          · exact .inl (by omega)
      · obtain ⟨alarms, client⟩ := streak_of_skipped judges h₁
        unfold Struck
        rw [alarms, client]
        exact .inr ⟨same, last, streak s₁ last late⟩
  -- up to the second
  have struck₂ : Struck w.alarms s₁ w₂ :=
    (run₂.invariant (P := fun v => v.Steady ∧ Struck w.alarms s₁ v)
      (fun _ _ held lasting => ⟨held.1.watch lasting, held.2.watch held.1 late lasting⟩)
      ⟨steady₁.watch first, struck⟩).2
  refine ⟨fun s h far => ?_, ?_⟩
  · refine onLockHash_of_skipped ?_ h
    have unrecorded : w₂.client.recorded s = none := by
      rw [← Option.not_isSome_iff_eq_none, steady₂.full.recorded_iff]
      exact far
    unfold Predictor.judges
    split
    · rfl
    · exact unrecorded
  · rcases struck₂ with reported | ⟨same, last, one⟩
    · exact lt_of_lt_of_le reported (w₂.alarms_le_deliver s₂ h₂)
    · rcases steady₂.judged_or_last near₂ with ⟨localHash, judges⟩ | ⟨again, -⟩
      · rcases steady₂.mismatch second (by omega) judges with reported | ⟨none, -⟩
        · exact same ▸ reported
        · omega
      · rw [last] at again
        cases again
        omega

/-- A fresh client locks two pieces, each against a hash of zero from the server. -/
theorem lasting_divergence_reported_fresh :
    let w₁ := ((start 7).watch (.tick 20000)).watch (.tick 150)
    let w₂ := ((w₁.watch (.onLockHash 1 0)).watch (.tick 20000)).watch (.tick 150)
    (∀ s h, ¬w₂.client.InRange s → w₂.client.onLockHash s h = (false, w₂.client)) ∧
      (start 7).alarms < (w₂.watch (.onLockHash 2 0)).alarms := by
  intro w₁ w₂
  have tick (w : Watched) (dtMs : Int) : w.Lasting 1 (.tick dtMs) :=
    ⟨rfl, fun _ _ same => by cases same⟩
  have facts₁ : w₁.delivered = [] ∧ w₁.client.game.lockSeq = 1 ∧ ∀ l ∈ w₁.computed, l.2 ≠ 0 := by
    decide +kernel
  have facts₂ : w₂.delivered = [(1, 0)] ∧ w₂.client.game.lockSeq = 2 ∧
      ∀ l ∈ w₂.computed, l.2 ≠ 0 := by
    decide +kernel
  have first : w₁.Lasting 1 (.onLockHash 1 0) := by
    refine ⟨rfl, fun s h same => ?_⟩
    cases same
    rw [facts₁.1]
    exact ⟨fun d mem => absurd mem List.not_mem_nil, fun _ l mem _ => facts₁.2.2 l mem⟩
  have second : w₂.Lasting 1 (.onLockHash 2 0) := by
    refine ⟨rfl, fun s h same => ?_⟩
    cases same
    rw [facts₂.1]
    exact ⟨by decide, fun _ l mem _ => facts₂.2.2 l mem⟩
  refine lasting_divergence_reported (n := 1) .nil (fun d mem => absurd mem List.not_mem_nil)
    ((Run.nil.snoc (tick _ 20000)).snoc (tick _ 150)) first ?_
    ((Run.nil.snoc (tick _ 20000)).snoc (tick _ 150)) second ?_ le_rfl (by decide)
  · unfold InRange
    rw [facts₁.2.1]
    decide
  · unfold InRange
    rw [facts₂.2.1]
    decide

/-- A client shut in a bazaar that the server has not entered. -/
structure Shut (w : Watched) : Prop where
  inBazaar : w.client.game.inBazaar = true
  seen : w.client.Seen
  lockHistory : w.client.lockHistory = []
  alarms : w.alarms = 0
  computed : w.computed = []

theorem Shut.tick {w : Watched} (shut : w.Shut) (dtMs : Int) : Shut (w.watch (.tick dtMs)) := by
  have frozen : w.client.game.tick dtMs = w.client.game := by
    unfold Game.tick
    rw [if_pos (.inr (.inl shut.inBazaar))]
  have client : w.client.call (.tick dtMs) = w.client := by
    have driven : w.client.drive (·.tick dtMs) = w.client := by
      change { w.client with game := w.client.game.tick dtMs } = w.client
      rw [frozen]
    change (w.client.drive (·.tick dtMs)).noteLock = w.client
    rw [driven]
    exact noteLock_of_seen shut.seen
  have idle : newLock w.client w.client = [] := if_neg fun apart => apart rfl
  have same : w.watch (.tick dtMs) = w := by
    rw [watch_of_plain rfl (fun _ _ same => by cases same), client, idle, List.append_nil,
      List.append_nil]
  rw [same]
  exact shut

theorem Shut.deliver {w : Watched} (shut : w.Shut) (lockSeq lockHash : Nat) :
    Shut (w.watch (.onLockHash lockSeq lockHash)) := by
  have unrecorded : w.client.recorded lockSeq = none := by
    unfold recorded
    rw [shut.lockHistory]
    rfl
  have skipped : w.client.judges lockSeq = none := by
    unfold Predictor.judges
    split
    · rfl
    · exact unrecorded
  obtain ⟨alarms, client⟩ := streak_of_skipped skipped lockHash
  refine ⟨?_, ?_, ?_, alarms.trans shut.alarms, shut.computed⟩
  · rw [client]
    exact shut.inBazaar
  · rw [client]
    exact shut.seen
  · rw [client]
    exact shut.lockHistory

/-- Two score messages take a fresh client into a bazaar that no snapshot has announced.
However it is ticked and whatever locks the server delivers from then on, the client
computes no lock and reports nothing. -/
theorem divergence_stays_silent :
    let w := ((start 7).watch (.applyEvent (.receiveOpScore 0 19 0))).watch
      (.applyEvent (.receiveOpScore 0 20 0))
    w.client.barrier = false ∧ w.client.game.inBazaar = true ∧
      ∀ calls : List Call,
        (∀ c ∈ calls,
          (∃ dtMs, c = .tick dtMs) ∨ ∃ lockSeq lockHash, c = .onLockHash lockSeq lockHash) →
        (calls.foldl watch w).computed = [] ∧ (calls.foldl watch w).alarms = 0 := by
  intro w
  have facts : w.client.barrier = false ∧ w.client.game.inBazaar = true ∧
      w.client.lastSeenLockSeq = w.client.game.lockSeq ∧ w.client.lockHistory = [] ∧
      w.alarms = 0 ∧ w.computed = [] := by
    decide +kernel
  obtain ⟨barrier, inBazaar, seen, lockHistory, alarms, computed⟩ := facts
  refine ⟨barrier, inBazaar, fun calls kinds => ?_⟩
  have shut : Shut (calls.foldl Watched.watch w) := by
    refine Loop.foldl_invariant (P := Shut) (fun c mem v shut => ?_)
      ⟨inBazaar, seen, lockHistory, alarms, computed⟩
    rcases kinds c mem with ⟨dtMs, rfl⟩ | ⟨lockSeq, lockHash, rfl⟩
    · exact shut.tick dtMs
    · exact shut.deliver lockSeq lockHash
  exact ⟨shut.computed, shut.alarms⟩

end Watched

end BattleTris
