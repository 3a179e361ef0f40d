import BattleTris.Match.Locks
import BattleTris.Match.Resume
import BattleTris.Netcode.Rejected

/-!
The divergence detector over whole runs of a client.

A `Watched` client carries what an observer of the run could write down: the locks
its game has computed, the hashes delivered to it, the locks it has judged, and how
often it has reported.
-/

namespace BattleTris

namespace Predictor

/-! ## Calls -/

/-- What a host calls on a client. -/
inductive Call where
  | predict (i : Input)
  | tick (dtMs : Int)
  | applyEvent (i : Input)
  | onSnapshot (ack : Nat) (youBazaar oppBazaar : Bool) (keyframe : Option (List UInt8))
  | onLockHash (lockSeq lockHash : Nat)

def call (p : Predictor) : Call → Predictor
  | .predict i => (p.predict i).2
  | .tick dtMs => p.tick dtMs
  | .applyEvent i => p.applyEvent i
  | .onSnapshot ack you opp keyframe => p.onSnapshot ack you opp keyframe
  | .onLockHash lockSeq lockHash => (p.onLockHash lockSeq lockHash).2

/-- The call restores a keyframe. -/
def Call.restores : Call → Bool
  | .onSnapshot _ _ _ (some _) => true
  | _ => false

/-- The local hash that a delivery of `lockSeq` is compared with. -/
def judges (p : Predictor) (lockSeq : Nat) : Option Nat :=
  if some lockSeq = p.lastJudged then none else p.recorded lockSeq

/-- The lock counter is the one last looked at. -/
def Seen (p : Predictor) : Prop := p.lastSeenLockSeq = p.game.lockSeq

/-- The fields of the detection. -/
def detection (p : Predictor) : List (Nat × Nat) × Nat × Option Nat × Nat :=
  (p.lockHistory, p.mismatches, p.lastJudged, p.lastSeenLockSeq)

/-- The game of `p'` is at the lock of `p` or at the next one, and the history of `p'`
holds the next one if it is there. -/
structure Advances (p p' : Predictor) : Prop where
  mismatches : p'.mismatches = p.mismatches
  lastJudged : p'.lastJudged = p.lastJudged
  seen : p'.Seen
  locks : (p'.game.lockSeq = p.game.lockSeq ∧ p'.lockHistory = p.lockHistory) ∨
    (p'.game.lockSeq = p.game.lockSeq + 1 ∧
      p'.lockHistory =
        (if p.lockHistory.length = lockHistoryCap then p.lockHistory.tail else p.lockHistory) ++
          [(p'.game.lockSeq, p'.game.lockHash)])

/-- A call that moves the game by a lock at most, and notes it, advances. -/
theorem advances_noteLock {p q : Predictor} (seen : p.Seen) (same : q.detection = p.detection)
    (locks : q.game.lockSeq = p.game.lockSeq ∨ q.game.lockSeq = p.game.lockSeq + 1) :
    Advances p q.noteLock := by
  have lockHistory : q.lockHistory = p.lockHistory := congrArg Prod.fst same
  have mismatches : q.mismatches = p.mismatches := congrArg (·.2.1) same
  have lastJudged : q.lastJudged = p.lastJudged := congrArg (·.2.2.1) same
  have baseline : q.lastSeenLockSeq = p.lastSeenLockSeq := congrArg (·.2.2.2) same
  have lastSeen := baseline.trans seen
  rcases locks with stays | moves
  · have idle : q.noteLock = q := noteLock_of_seen (lastSeen.trans stays.symm)
    rw [idle]
    exact ⟨mismatches, lastJudged, lastSeen.trans stays.symm, .inl ⟨stays, lockHistory⟩⟩
  · have noted : q.game.lockSeq ≠ q.lastSeenLockSeq := by omega
    unfold noteLock
    rw [if_pos noted]
    refine ⟨mismatches, lastJudged, rfl, .inr ⟨moves, ?_⟩⟩
    dsimp only
    rw [lockHistory]

theorem applyShop_lockSeq (g : Game) (i : Input) : (applyShop g i).2.lockSeq = g.lockSeq := by
  cases i with
  | buyWeapon t =>
    unfold applyShop
    dsimp only
    cases WeaponToken.fromIndex t with
    | none => rfl
    | some tok => exact Game.lockSeq_of_held (g.buyWeapon_held tok)
  | sellWeapon t =>
    unfold applyShop
    dsimp only
    cases WeaponToken.fromIndex t with
    | none => rfl
    | some tok => exact Game.lockSeq_of_held (g.sellWeapon_held tok)
  | _ => rfl

/-- A client that is not called stays where it is. -/
theorem advances_refl {p : Predictor} (seen : p.Seen) : Advances p p :=
  ⟨rfl, rfl, seen, .inl ⟨rfl, rfl⟩⟩

theorem advances_drive {p : Predictor} (seen : p.Seen) {f : Game → Game}
    (locks : (f p.game).lockSeq = p.game.lockSeq ∨ (f p.game).lockSeq = p.game.lockSeq + 1) :
    Advances p (p.drive f).noteLock :=
  advances_noteLock seen rfl locks

theorem advances_enqueue {p q : Predictor} (seen : p.Seen) (same : q.detection = p.detection)
    (lockSeq : q.game.lockSeq = p.game.lockSeq) (i : Input) : Advances p (q.enqueue i).2 :=
  advances_noteLock (q := { q with
    inputSeq := q.inputSeq + 1, unacked := q.unacked ++ [(q.inputSeq + 1, i)] }) seen same
    (.inl lockSeq)

theorem advances_shop {p : Predictor} (seen : p.Seen) (i : Input) :
    Advances p (let (accepted, g) := applyShop p.game i
      if accepted then { p with game := g }.enqueue i else (none, { p with game := g })).2 := by
  have lockSeq := applyShop_lockSeq p.game i
  generalize applyShop p.game i = r at lockSeq
  obtain ⟨accepted, g⟩ := r
  cases accepted with
  | false => exact ⟨rfl, rfl, seen.trans lockSeq.symm, .inl ⟨lockSeq, rfl⟩⟩
  | true => exact advances_enqueue (q := { p with game := g }) seen rfl lockSeq i

theorem advances_predict {p : Predictor} (seen : p.Seen) (i : Input) :
    Advances p (p.predict i).2 := by
  have driven (i : Input) : Advances p ((p.drive i.applyToGame).enqueue i).2 :=
    advances_enqueue (q := p.drive i.applyToGame) seen rfl (i.applyToGame_lockSeq p.game) i
  unfold predict
  split
  · exact advances_refl seen
  · cases i with
    | leaveBazaar => exact advances_enqueue seen rfl rfl _
    | buyWeapon t => exact advances_shop seen (.buyWeapon t)
    | sellWeapon t => exact advances_shop seen (.sellWeapon t)
    | _ => exact driven _

/-- Every call but a keyframe advances the client by one lock at most, and its history
misses none; the hash of a lock moves no game. -/
theorem advances_call {p : Predictor} (seen : p.Seen) {c : Call} (plain : c.restores = false)
    (quiet : ∀ lockSeq lockHash, c ≠ .onLockHash lockSeq lockHash) : Advances p (p.call c) := by
  cases c with
  | predict i => exact advances_predict seen i
  | tick dtMs => exact advances_drive seen (p.game.tick_lockSeq dtMs)
  | applyEvent i => exact advances_drive seen (.inl (i.applyToGame_lockSeq p.game))
  | onSnapshot ack you opp keyframe =>
    cases keyframe with
    | some bytes => cases plain
    | none =>
      change Advances p (Predictor.noteLock (if _ then _ else _))
      split
      · exact advances_noteLock (q := (p.prune ack you opp).drive Game.leaveBazaar) seen rfl
          (.inl rfl)
      · exact advances_noteLock (q := p.prune ack you opp) seen rfl (.inl rfl)
  | onLockHash lockSeq lockHash => exact absurd rfl (quiet lockSeq lockHash)

theorem mem_of_recorded {p : Predictor} {lockSeq localHash : Nat}
    (recorded : p.recorded lockSeq = some localHash) : (lockSeq, localHash) ∈ p.lockHistory := by
  unfold Predictor.recorded at recorded
  obtain ⟨l, found, rfl⟩ := Option.map_eq_some_iff.mp recorded
  have same : l.1 = lockSeq := by simpa using List.find?_some found
  rw [← same]
  exact List.mem_of_find?_eq_some found

theorem mem_of_judges {p : Predictor} {lockSeq localHash : Nat}
    (judges : p.judges lockSeq = some localHash) : (lockSeq, localHash) ∈ p.lockHistory := by
  unfold Predictor.judges at judges
  split at judges
  · cases judges
  · exact mem_of_recorded judges

theorem lastJudged_ne_of_judges {p : Predictor} {lockSeq localHash : Nat}
    (judges : p.judges lockSeq = some localHash) : p.lastJudged ≠ some lockSeq := by
  intro same
  unfold Predictor.judges at judges
  rw [if_pos same.symm] at judges
  cases judges

theorem onLockHash_of_skipped {p : Predictor} {lockSeq : Nat} (skipped : p.judges lockSeq = none)
    (lockHash : Nat) : p.onLockHash lockSeq lockHash = (false, p) := by
  unfold Predictor.judges at skipped
  unfold onLockHash
  split at skipped
  · next judged => rw [if_pos judged]
  · next unjudged => rw [if_neg unjudged, skipped]

theorem onLockHash_of_judged {p : Predictor} {lockSeq localHash : Nat}
    (judges : p.judges lockSeq = some localHash) (lockHash : Nat) :
    p.onLockHash lockSeq lockHash =
      let q := { p with lastJudged := some lockSeq }
      if localHash = lockHash then (false, { q with mismatches := 0 })
      else if p.mismatches + 1 ≥ 2 then (true, { q with mismatches := 0 })
      else (false, { q with mismatches := p.mismatches + 1 }) := by
  unfold Predictor.judges at judges
  unfold onLockHash
  split at judges
  · cases judges
  · next unjudged => rw [if_neg unjudged, judges]

end Predictor

open Predictor

/-! ## Watching a run -/

/-- A client with what an observer has written down. -/
structure Watched where
  client : Predictor
  /-- Every lock the local game has computed, with its hash. -/
  computed : List (Nat × Nat)
  /-- Those since the last keyframe. -/
  fresh : List (Nat × Nat)
  delivered : List (Nat × Nat)
  /-- The judged locks, and whether they mismatched. -/
  judged : List (Nat × Bool)
  alarms : Nat

namespace Watched

def start (seed : Nat) : Watched :=
  { client := .new seed, computed := [], fresh := [], delivered := [], judged := [], alarms := 0 }

/-- The lock that the game of `p'` has computed since `p`. -/
def newLock (p p' : Predictor) : List (Nat × Nat) :=
  if p'.game.lockSeq ≠ p.game.lockSeq then [(p'.game.lockSeq, p'.game.lockHash)] else []

/-- What a delivery adds to the judged locks. -/
def verdict (p : Predictor) (lockSeq lockHash : Nat) : List (Nat × Bool) :=
  match p.judges lockSeq with
  | some localHash => [(lockSeq, localHash ≠ lockHash)]
  | none => []

def watch (w : Watched) (c : Call) : Watched :=
  let client := w.client.call c
  match c with
  | .onLockHash lockSeq lockHash =>
    { w with
      client := client
      delivered := w.delivered ++ [(lockSeq, lockHash)]
      judged := w.judged ++ verdict w.client lockSeq lockHash
      alarms := if (w.client.onLockHash lockSeq lockHash).1 then w.alarms + 1 else w.alarms }
  | c =>
    if c.restores then { w with client := client, fresh := [] }
    else { w with
      client := client
      computed := w.computed ++ newLock w.client client
      fresh := w.fresh ++ newLock w.client client }

/-- A delivered hash contradicts a computed one. -/
def Contradicted (w : Watched) : Prop :=
  ∃ d ∈ w.delivered, ∃ l ∈ w.computed, d.1 = l.1 ∧ d.2 ≠ l.2

/-- What the detection knows comes from the locks since the last keyframe, and its
streak from the last judged lock. -/
structure Sound (w : Watched) : Prop where
  seen : w.client.Seen
  history : ∀ l ∈ w.client.lockHistory, l ∈ w.fresh
  computed : ∀ l ∈ w.fresh, l ∈ w.computed
  streak : w.client.mismatches = 0 ∨
    w.client.mismatches = 1 ∧ ∃ earlier t, w.judged = earlier ++ [(t, true)] ∧
      w.client.lastJudged = some t
  honest : 0 < w.alarms ∨ 0 < w.client.mismatches → w.Contradicted

theorem sound_start (seed : Nat) : Sound (start seed) := by
  have lockSeq : (Game.new seed).lockSeq = 0 := (Game.blank seed).spawn_lockSeq
  refine ⟨lockSeq.symm, fun l mem => ?_, fun l mem => ?_, .inl rfl, ?_⟩
  · cases mem
  · cases mem
  · rintro (none | none) <;> cases none

/-- A call that advances the client writes its lock down. -/
theorem Sound.advance {w : Watched} (sound : w.Sound) {p : Predictor}
    (advances : Advances w.client p) :
    Sound { w with
      client := p
      computed := w.computed ++ newLock w.client p
      fresh := w.fresh ++ newLock w.client p } := by
  have history : ∀ l ∈ p.lockHistory, l ∈ w.fresh ++ newLock w.client p := by
    intro l mem
    rcases advances.locks with ⟨-, same⟩ | ⟨moved, pushed⟩
    · rw [same] at mem
      exact List.mem_append_left _ (sound.history l mem)
    · have written : newLock w.client p = [(p.game.lockSeq, p.game.lockHash)] := by
        unfold newLock
        exact if_pos (by omega)
      rw [pushed] at mem
      rw [written]
      rcases List.mem_append.mp mem with old | new
      · refine List.mem_append_left _ (sound.history l ?_)
        split at old
        · exact List.mem_of_mem_tail old
        · exact old
      · exact List.mem_append_right _ new
  refine ⟨advances.seen, history, fun l mem => ?_, ?_, fun alarmed => ?_⟩
  · rcases List.mem_append.mp mem with old | new
    · exact List.mem_append_left _ (sound.computed l old)
    · exact List.mem_append_right _ new
  · dsimp only
    rw [advances.mismatches, advances.lastJudged]
    exact sound.streak
  · dsimp only at alarmed
    rw [advances.mismatches] at alarmed
    obtain ⟨d, delivered, l, mem, same, apart⟩ := sound.honest alarmed
    exact ⟨d, delivered, l, List.mem_append_left _ mem, same, apart⟩

theorem watch_of_plain {w : Watched} {c : Call} (plain : c.restores = false)
    (quiet : ∀ lockSeq lockHash, c ≠ .onLockHash lockSeq lockHash) :
    w.watch c = { w with
      client := w.client.call c
      computed := w.computed ++ newLock w.client (w.client.call c)
      fresh := w.fresh ++ newLock w.client (w.client.call c) } := by
  unfold watch
  cases c with
  | onLockHash lockSeq lockHash => exact absurd rfl (quiet lockSeq lockHash)
  | onSnapshot ack you opp keyframe =>
    cases keyframe with
    | some bytes => cases plain
    | none => rfl
  | _ => rfl

/-- A keyframe forgets the history. -/
theorem Sound.restore {w : Watched} (sound : w.Sound) (ack : Nat) (you opp : Bool)
    (bytes : List UInt8) : Sound (w.watch (.onSnapshot ack you opp (some bytes))) := by
  have client : (w.watch (.onSnapshot ack you opp (some bytes))).client =
      (w.client.prune ack you opp).reconcile bytes :=
    onSnapshot_keyframe w.client ack you opp bytes
  have alarms : (w.watch (.onSnapshot ack you opp (some bytes))).alarms = w.alarms := rfl
  refine ⟨?_, ?_, fun l mem => ?_, ?_, ?_⟩
  · rw [client]
    exact rfl
  · rw [client]
    intro l mem
    cases mem
  · cases mem
  · rw [client]
    exact .inl rfl
  · rw [client, alarms]
    rintro (alarmed | mismatched)
    · exact sound.honest (.inl alarmed)
    · cases mismatched

/-- A mismatch contradicts a computed lock. -/
theorem Sound.contradicted {w : Watched} (sound : w.Sound) {lockSeq lockHash localHash : Nat}
    (judges : w.client.judges lockSeq = some localHash) (apart : localHash ≠ lockHash) :
    (w.watch (.onLockHash lockSeq lockHash)).Contradicted :=
  ⟨(lockSeq, lockHash), List.mem_append_right _ List.mem_cons_self, (lockSeq, localHash),
    sound.computed _ (sound.history _ (mem_of_judges judges)), rfl, apart.symm⟩

theorem Contradicted.watch {w : Watched} (contradicted : w.Contradicted) (lockSeq lockHash : Nat) :
    (w.watch (.onLockHash lockSeq lockHash)).Contradicted := by
  obtain ⟨d, delivered, l, mem, same, apart⟩ := contradicted
  exact ⟨d, List.mem_append_left _ delivered, l, mem, same, apart⟩

theorem Sound.deliver {w : Watched} (sound : w.Sound) (lockSeq lockHash : Nat) :
    Sound (w.watch (.onLockHash lockSeq lockHash)) := by
  have keep := Contradicted.watch (w := w)
  cases judges : w.client.judges lockSeq with
  | none =>
    have skipped := onLockHash_of_skipped judges lockHash
    have client : (w.watch (.onLockHash lockSeq lockHash)).client = w.client :=
      congrArg Prod.snd skipped
    have alarms : (w.watch (.onLockHash lockSeq lockHash)).alarms = w.alarms :=
      if_neg (by simp [skipped])
    have judged : (w.watch (.onLockHash lockSeq lockHash)).judged = w.judged := by
      change w.judged ++ verdict w.client lockSeq lockHash = _
      unfold verdict
      rw [judges, List.append_nil]
    refine ⟨?_, ?_, sound.computed, ?_, fun alarmed => ?_⟩
    · rw [client]
      exact sound.seen
    · rw [client]
      exact sound.history
    · rw [client, judged]
      exact sound.streak
    · rw [client, alarms] at alarmed
      exact keep (sound.honest alarmed) lockSeq lockHash
  | some localHash =>
    have outcome := onLockHash_of_judged judges lockHash
    have judged : (w.watch (.onLockHash lockSeq lockHash)).judged =
        w.judged ++ [(lockSeq, decide (localHash ≠ lockHash))] := by
      change w.judged ++ verdict w.client lockSeq lockHash = _
      unfold verdict
      rw [judges]
    have client : (w.watch (.onLockHash lockSeq lockHash)).client =
        (w.client.onLockHash lockSeq lockHash).2 := rfl
    have alarms : (w.watch (.onLockHash lockSeq lockHash)).alarms =
        if (w.client.onLockHash lockSeq lockHash).1 then w.alarms + 1 else w.alarms := rfl
    dsimp only at outcome
    by_cases match_ : localHash = lockHash
    · -- a match ends the streak
      rw [if_pos match_] at outcome
      rw [outcome] at client alarms
      refine ⟨?_, ?_, sound.computed, ?_, fun alarmed => ?_⟩
      · rw [client]
        exact sound.seen
      · rw [client]
        exact sound.history
      · rw [client]
        exact .inl rfl
      · rw [client, alarms] at alarmed
        rcases alarmed with alarmed | mismatched
        · exact keep (sound.honest (.inl alarmed)) lockSeq lockHash
        · cases mismatched
    · have contradicted := sound.contradicted judges match_
      rw [if_neg match_] at outcome
      by_cases second : w.client.mismatches + 1 ≥ 2
      · -- the second mismatch in a row reports
        rw [if_pos second] at outcome
        rw [outcome] at client
        refine ⟨?_, ?_, sound.computed, ?_, fun _ => contradicted⟩
        · rw [client]
          exact sound.seen
        · rw [client]
          exact sound.history
        · rw [client]
          exact .inl rfl
      · rw [if_neg second] at outcome
        rw [outcome] at client
        refine ⟨?_, ?_, sound.computed, ?_, fun _ => contradicted⟩
        · rw [client]
          exact sound.seen
        · rw [client]
          exact sound.history
        · rw [client, judged]
          refine .inr ⟨?_, w.judged, lockSeq, ?_, rfl⟩
          · change w.client.mismatches + 1 = 1
            omega
          · rw [decide_eq_true match_]

theorem Sound.watch {w : Watched} (sound : w.Sound) (c : Call) : Sound (w.watch c) := by
  by_cases quiet : ∀ lockSeq lockHash, c ≠ .onLockHash lockSeq lockHash
  · by_cases plain : c.restores = false
    · rw [watch_of_plain plain quiet]
      exact sound.advance (advances_call sound.seen plain quiet)
    · cases c with
      | onSnapshot ack you opp keyframe =>
        cases keyframe with
        | some bytes => exact sound.restore ack you opp bytes
        | none => exact absurd rfl plain
      | _ => exact absurd rfl plain
  · push Not at quiet
    obtain ⟨lockSeq, lockHash, rfl⟩ := quiet
    exact sound.deliver lockSeq lockHash

theorem sound_run {seed : Nat} {calls : List Call} {w : Watched}
    (run : Run (fun _ _ => True) watch (start seed) calls w) : w.Sound :=
  run.invariant (P := Sound) (fun _ c sound _ => sound.watch c) (sound_start seed)

/-- In every run of a client: a call that restores no keyframe moves the game by one lock
at most, and the history then ends in that lock; as long as no delivered hash
contradicts a computed one nothing is reported; a report takes a mismatch at the last
judged lock and one at another lock now; and what is judged was computed since the last
keyframe. -/
theorem detector_sound {seed : Nat} {calls : List Call} {w : Watched}
    (run : Run (fun _ _ => True) watch (start seed) calls w) :
    (∀ c, c.restores = false → (w.client.call c).game.lockSeq = w.client.game.lockSeq ∨
      (w.client.call c).game.lockSeq = w.client.game.lockSeq + 1 ∧
        (w.client.call c).lockHistory.getLast? =
          some ((w.client.call c).game.lockSeq, (w.client.call c).game.lockHash)) ∧
    ((∀ d ∈ w.delivered, ∀ l ∈ w.computed, d.1 = l.1 → d.2 = l.2) → w.alarms = 0) ∧
    (∀ lockSeq lockHash, (w.client.onLockHash lockSeq lockHash).1 = true →
      ∃ earlier t localHash, w.judged = earlier ++ [(t, true)] ∧ t ≠ lockSeq ∧
        w.client.judges lockSeq = some localHash ∧ localHash ≠ lockHash) ∧
    ∀ lockSeq localHash, w.client.judges lockSeq = some localHash →
      (lockSeq, localHash) ∈ w.fresh := by
  have sound := sound_run run
  refine ⟨fun c plain => ?_, fun agree => ?_, fun lockSeq lockHash reported => ?_,
    fun lockSeq localHash judges => sound.history _ (mem_of_judges judges)⟩
  · by_cases quiet : ∀ lockSeq lockHash, c ≠ .onLockHash lockSeq lockHash
    · rcases (advances_call sound.seen plain quiet).locks with ⟨stays, -⟩ | ⟨moves, pushed⟩
      · exact .inl stays
      · refine .inr ⟨moves, ?_⟩
        rw [pushed, List.getLast?_append]
        rfl
    · push Not at quiet
      obtain ⟨lockSeq, lockHash, rfl⟩ := quiet
      refine .inl ?_
      change (w.client.onLockHash lockSeq lockHash).2.game.lockSeq = _
      cases judges : w.client.judges lockSeq with
      | none => rw [onLockHash_of_skipped judges]
      | some localHash =>
        rw [onLockHash_of_judged judges]
        dsimp only
        split
        · rfl
        · split <;> rfl
  · by_contra alarmed
    obtain ⟨d, delivered, l, mem, same, apart⟩ :=
      sound.honest (.inl (Nat.pos_of_ne_zero alarmed))
    exact apart (agree d delivered l mem same)
  · cases judges : w.client.judges lockSeq with
    | none =>
      rw [onLockHash_of_skipped judges] at reported
      cases reported
    | some localHash =>
      rw [onLockHash_of_judged judges] at reported
      dsimp only at reported
      split at reported
      · cases reported
      · next apart =>
        split at reported
        · next second =>
          rcases sound.streak with none | ⟨-, earlier, t, judged, last⟩
          · omega
          · refine ⟨earlier, t, localHash, judged, fun same => ?_, rfl, apart⟩
            subst same
            exact lastJudged_ne_of_judges judges last
        · cases reported

/-- A fresh client has nothing to report. -/
theorem detector_sound_fresh : (start 7).alarms = 0 := by
  have idle : Run (fun _ _ => True) watch (start 7) [] (start 7) := .nil
  exact (detector_sound idle).2.1 fun d mem => by cases mem

/-- With nothing unacked a keyframe replaces the game. -/
theorem onSnapshot_idle {p : Predictor} (idle : p.unacked = []) (ack : Nat) (you opp : Bool)
    (bytes : List UInt8) :
    (p.onSnapshot ack you opp (some bytes)).game = (p.game.restoreBytes bytes).2 := by
  rw [onSnapshot_keyframe]
  change List.foldl _ _ (p.unacked.filter _) = _
  rw [idle]
  rfl

/-- The game with its lock counter at `n`. -/
def atLock (g : Game) (n : Nat) : Game := { g with lockSeq := n }

/-- Restoring a game takes over its lock counter. -/
theorem restored_atLock {g h : Game} (regular : g.Regular) (standard : h.Regular) (fits : g.Fits)
    (few : g.pending.length ≤ 1024) {n : Nat} (small : n < 2 ^ 64) :
    (h.restoreBytes (atLock g n).snapshotBytes).2.lockSeq = n := by
  have fits' : (atLock g n).Fits :=
    ⟨fits.words, fits.rng, fits.weapons, fits.remaining, fits.quantities, fits.current,
      fits.pendingBoard, fits.squares, fits.active, fits.reason, fits.totals, small,
      fits.lockHash⟩
  have regular' : (atLock g n).Regular := regular
  rw [Game.restoreBytes_snapshotBytes regular' standard fits' few]
  rfl

/-- A keyframe taken at the second lock carries a fresh client over two locks at once. -/
theorem keyframe_jumps_locks :
    (new 7).game.lockSeq = 0 ∧
      ((new 7).onSnapshot 0 false false
        (some (atLock (.new 7) 2).snapshotBytes)).game.lockSeq = 2 := by
  have pending : (Game.new 7).pending = [] := by decide +kernel
  have few : (Game.new 7).pending.length ≤ 1024 := by
    rw [pending]
    decide
  have restored := restored_atLock (n := 2) (Game.regular_new 7) (Game.regular_new 7)
    (Game.fits_new 7) few (by norm_num)
  have replaced := onSnapshot_idle (p := new 7) rfl 0 false false
    (atLock (.new 7) 2).snapshotBytes
  rw [new_game] at replaced
  refine ⟨?_, (congrArg Game.lockSeq replaced).trans restored⟩
  rw [new_game]
  exact (Game.blank 7).spawn_lockSeq

end Watched

end BattleTris
