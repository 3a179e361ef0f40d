import BattleTris.Server.Playback

/-!
Scrubbing through the replay of a bout: wherever the seek bar is dragged, the boards shown
are those the bout had at that tick.
-/

namespace BattleTris

open Loop

namespace VersusReplayPlayer

variable {r : VersusReplay} {fss : List (List VersusFrame)}

/-- Past the last block a step does nothing. -/
theorem step_ended (count : r.tickCount = fss.length) :
    (after r fss fss.length).step = (false, after r fss fss.length) := by
  have stopped : (after r fss fss.length).executed ≥ (after r fss fss.length).replay.tickCount :=
    count.le
  rw [step, if_pos stopped]

/-- From wherever it stands the player goes to the target of a seek, or to the end. -/
theorem seek_after (frames : r.frames = fss.flatten) (count : r.tickCount = fss.length)
    (stamped : Stamped fss) (n target : Nat) :
    (after r fss n).seek target = after r fss (min target r.tickCount) := by
  have forward (k : Nat) (le : k ≤ min target r.tickCount) :
      whileN (min target r.tickCount - k)
        (fun p => p.executed < min target r.tickCount && p.step.1) (fun p => p.step.2)
        (after r fss k) = after r fss (min target r.tickCount) := by
    have arrive : k + (min target r.tickCount - k) = min target r.tickCount := by omega
    have run : whileN (min target r.tickCount - k)
        (fun p => p.executed < min target r.tickCount && p.step.1) (fun p => p.step.2)
        (after r fss (k + 0)) = after r fss (k + (min target r.tickCount - k)) := by
      refine whileN_chain (fun i => after r fss (k + i)) (fun i less => ?_) ?_ le_rfl
      · have stepped := step_after (n := k + i) frames count stamped (by omega)
        have behind : (after r fss (k + i)).executed < min target r.tickCount := by
          change k + i < _
          omega
        simp only [stepped, behind, decide_true, Bool.and_self, true_and]
        rfl
      · rw [arrive]
        have there : ¬(after r fss (min target r.tickCount)).executed < min target r.tickCount :=
          Nat.lt_irrefl _
        simp only [there, decide_false, Bool.false_and]
    rw [arrive] at run
    exact run
  unfold seek
  change whileN (_ - (if min target r.tickCount < n then new r else after r fss n).executed) _ _
    (if min target r.tickCount < n then new r else after r fss n) = _
  split
  · exact forward 0 (Nat.zero_le _)
  · next ahead => exact forward n (not_lt.mp ahead)

/-- What the viewer of a match asks of the player. -/
inductive Move where
  | step
  | seek (target : Nat)

def move (p : VersusReplayPlayer) : Move → VersusReplayPlayer
  | .step => p.step.2
  | .seek target => p.seek target

/-- The tick a move from the tick `n` leads to. -/
def lands (count n : Nat) : Move → Nat
  | .step => min (n + 1) count
  | .seek target => min target count

theorem lands_le (count n : Nat) (m : Move) : lands count n m ≤ count := by
  cases m with
  | step => exact min_le_right _ _
  | seek target => exact min_le_right _ _

theorem move_after (frames : r.frames = fss.flatten) (count : r.tickCount = fss.length)
    (stamped : Stamped fss) {n : Nat} (le : n ≤ fss.length) (m : Move) :
    (after r fss n).move m = after r fss (lands fss.length n m) := by
  cases m with
  | step =>
    rcases Nat.lt_or_ge n fss.length with less | ended
    · have next : lands fss.length n .step = n + 1 := min_eq_left less
      rw [next]
      exact congrArg Prod.snd (step_after frames count stamped less)
    · obtain rfl : n = fss.length := le_antisymm le ended
      have stay : lands fss.length fss.length .step = fss.length := by
        apply min_eq_right
        exact Nat.le_succ _
      rw [stay]
      exact congrArg Prod.snd (step_ended count)
  | seek target =>
    have clamped : min target r.tickCount = lands fss.length n (.seek target) := by
      rw [count]
      rfl
    rw [← clamped]
    exact seek_after frames count stamped n target

/-- After any moves the player is where the last of them leads. -/
theorem moves_after (frames : r.frames = fss.flatten) (count : r.tickCount = fss.length)
    (stamped : Stamped fss) (moves : List Move) :
    moves.foldl (lands fss.length) 0 ≤ fss.length ∧
      moves.foldl move (new r) = after r fss (moves.foldl (lands fss.length) 0) := by
  induction moves using List.reverseRecOn with
  | nil => exact ⟨Nat.zero_le _, rfl⟩
  | append_singleton moves m ih =>
    obtain ⟨le, played⟩ := ih
    rw [List.foldl_append, List.foldl_append, played]
    exact ⟨lands_le _ _ m, move_after frames count stamped le m⟩

end VersusReplayPlayer

namespace Bout

open VersusReplayPlayer

variable {seedA seedB : Nat} {dtMs : Int} {b : Bout}

/-- The blocks of a run: the first `n` of them play what the first `n` batches left. -/
structure Blocks (seedA seedB : Nat) (dtMs : Int) (batches : List (List Order))
    (fss : List (List VersusFrame)) : Prop where
  length : fss.length = batches.length
  played : ∀ n ≤ batches.length,
    Played seedA seedB dtMs ((batches.take n).foldl (batch dtMs) (new seedA seedB)) (fss.take n)

theorem Blocks.whole {batches : List (List Order)} {fss : List (List VersusFrame)}
    (blocks : Blocks seedA seedB dtMs batches fss)
    (run : Run Settled (batch dtMs) (new seedA seedB) batches b) :
    Played seedA seedB dtMs b fss := by
  have all := blocks.played batches.length le_rfl
  have sized : fss.take batches.length = fss := by
    rw [← blocks.length]
    exact List.take_length
  rwa [List.take_length, ← run.eq_foldl, sized] at all

theorem blocks_of_run {batches : List (List Order)}
    (run : Run Settled (batch dtMs) (new seedA seedB) batches b) :
    ∃ fss, Blocks seedA seedB dtMs batches fss := by
  induction run with
  | nil =>
    refine ⟨[], rfl, ?_⟩
    intro n le
    obtain rfl : n = 0 := Nat.le_zero.mp le
    exact played_new seedA seedB dtMs
  | snoc run settled ih =>
    rename_i batches b orders
    obtain ⟨fss, blocks⟩ := ih
    obtain ⟨fs, next⟩ := (blocks.whole run).batch settled
    refine ⟨fss ++ [fs], ?_, ?_⟩
    · rw [List.length_append, List.length_append, blocks.length]
      rfl
    · intro n le
      rcases Nat.lt_or_ge batches.length n with last | early
      · have all : n = batches.length + 1 := by
          rw [List.length_append] at le
          exact le_antisymm le last
        rw [List.take_of_length_le (by rw [List.length_append, all]; rfl),
          List.take_of_length_le (by rw [List.length_append, all, blocks.length]; rfl),
          List.foldl_append, ← run.eq_foldl]
        exact next
      · rw [List.take_append_of_le_length early,
          List.take_append_of_le_length (by rw [blocks.length]; exact early)]
        exact blocks.played n early

/-- Any steps and seeks over the replay of a bout, forwards, backwards or past the end, show at
the tick they lead to the boards and the result the bout had after that many ticks, as long as
every batch began with the bout settled. -/
theorem scrub_faithful {batches : List (List Order)} (smallA : seedA < 2 ^ 32)
    (smallB : seedB < 2 ^ 32) (run : Run Settled (batch dtMs) (new seedA seedB) batches b)
    (engineSha : String) (moves : List Move) :
    let p := moves.foldl move (VersusReplayPlayer.new (b.toReplay dtMs engineSha))
    let n := moves.foldl (lands batches.length) 0
    let live := (batches.take n).foldl (batch dtMs) (new seedA seedB)
    p.executed = n ∧ live.tick = n ∧ p.versus.result = live.versus.result ∧
      ∀ x, (p.versus.game x).SameButEvents (live.versus.game x) := by
  obtain ⟨fss, blocks⟩ := blocks_of_run run
  have played := blocks.whole run
  have count : (b.toReplay dtMs engineSha).tickCount = fss.length := by
    change b.tick % 2 ^ 32 = fss.length
    rw [Nat.mod_eq_of_lt played.small, played.tick]
  have seeds : (b.toReplay dtMs engineSha).seedA = seedA ∧
      (b.toReplay dtMs engineSha).seedB = seedB := by
    change b.seedA % 2 ^ 32 = seedA ∧ b.seedB % 2 ^ 32 = seedB
    rw [played.fromA, played.fromB, Nat.mod_eq_of_lt smallA, Nat.mod_eq_of_lt smallB]
    exact ⟨rfl, rfl⟩
  obtain ⟨le, there⟩ := moves_after (r := b.toReplay dtMs engineSha) played.frames count
    played.stamped moves
  rw [blocks.length] at le there
  intro p n live
  have now := blocks.played n le
  obtain ⟨L, echo, -⟩ := now.echo
  have shown : p = after (b.toReplay dtMs engineSha) fss n := there
  have whole : p.versus = (fss.take n).foldl (round dtMs) (.new seedA seedB) := by
    rw [shown]
    unfold after
    rw [seeds.1, seeds.2]
    rfl
  refine ⟨?_, ?_, ?_, ?_⟩
  · rw [shown]
    rfl
  · have ticks := now.tick
    rw [List.length_take, blocks.length, min_eq_left le] at ticks
    exact ticks
  · rw [whole, echo.result]
  · intro x
    rw [whole]
    unfold Game.SameButEvents
    rw [echo.games]
    rfl

/-- Past the end and back to the start of a bout of one tick. -/
theorem scrub_faithful_one_tick :
    let p := [Move.seek 9, .seek 0].foldl move
      (VersusReplayPlayer.new (((new 7 3).batch 16 []).toReplay 16 "engine"))
    p.executed = 0 ∧ (new 7 3).tick = 0 ∧ p.versus.result = (new 7 3).versus.result ∧
      ∀ x, (p.versus.game x).SameButEvents ((new 7 3).versus.game x) := by
  have fresh : (new 7 3).versus.a.events = [] ∧ (new 7 3).versus.b.events = [] := by
    decide +kernel
  have quiet := fresh_quiet fresh
  have settled : (new 7 3).Settled [] := by
    refine ⟨fun _ x e mem => ?_, (by decide : 0 + 1 < 2 ^ 32)⟩
    rw [quiet x] at mem
    cases mem
  have run : Run Settled (batch 16) (new 7 3) ([] ++ [[]]) ((new 7 3).batch 16 []) :=
    Run.nil.snoc settled
  exact scrub_faithful (by decide) (by decide) run "engine" [.seek 9, .seek 0]

end Bout

end BattleTris
