import BattleTris.Replay.Echo
import BattleTris.Server.Discipline

/-!
The replay of a bout, played to its end, against the bout itself.

The bout hands its relay the events that the relay itself has queued one tick earlier;
the player has thrown them away by then.
-/

namespace BattleTris

open Loop

/-! ## Playing a list of frames for each tick -/

namespace VersusReplayPlayer

/-- Apply one frame. -/
def play (v : Versus) (f : VersusFrame) : Versus :=
  v.modify (if f.side = 0 then .a else .b) f.input.applyToGame

/-- Throw the events of both sides away. -/
def discard (v : Versus) : Versus :=
  (v.modify .a fun g => g.takeEvents.2).modify .b fun g => g.takeEvents.2

/-- The frames of one tick, and the tick. -/
def round (dtMs : Int) (v : Versus) (fs : List VersusFrame) : Versus :=
  discard ((fs.foldl play v).tick dtMs)

/-- The player applies the frames stamped with its tick, and stops at the next. -/
theorem applyDue_eq {p : VersusReplayPlayer} {now later : List VersusFrame} {fuel : Nat}
    (ahead : p.replay.frames.drop p.cursor = now ++ later) (due : ∀ f ∈ now, f.tick = p.executed)
    (after : ∀ f ∈ later, f.tick ≠ p.executed) (enough : now.length ≤ fuel) :
    whileN fuel VersusReplayPlayer.due applyFrame p =
      { p with versus := now.foldl play p.versus, cursor := p.cursor + now.length } := by
  have head (i : Nat) : p.replay.frames[p.cursor + i]? = (now ++ later)[i]? := by
    rw [← ahead, List.getElem?_drop]
  induction now generalizing p fuel with
  | nil =>
    have stop : p.due = false := by
      unfold VersusReplayPlayer.due
      rw [show p.replay.frames[p.cursor]? = later[0]? from head 0]
      cases later with
      | nil => rfl
      | cons f later => simpa using after f List.mem_cons_self
    cases fuel with
    | zero => rfl
    | succ fuel =>
      unfold whileN
      rw [if_neg (by simp [stop])]
      rfl
  | cons f now ih =>
    cases fuel with
    | zero => cases enough
    | succ fuel =>
      have next : p.replay.frames[p.cursor]? = some f := head 0
      have go : p.due = true := by
        unfold VersusReplayPlayer.due
        rw [next]
        simpa using due f List.mem_cons_self
      have moved : p.applyFrame =
          { p with versus := play p.versus f, cursor := p.cursor + 1 } := by
        unfold applyFrame
        rw [next]
        rfl
      unfold whileN
      rw [if_pos go, moved]
      have rest := @ih { p with versus := play p.versus f, cursor := p.cursor + 1 } fuel ?_
        (fun f mem => due f (List.mem_cons_of_mem _ mem)) after (Nat.le_of_succ_le_succ enough) ?_
      · have cursor : p.cursor + (f :: now).length = p.cursor + 1 + now.length := by
          rw [List.length_cons]
          omega
        rw [rest, cursor]
        rfl
      · change p.replay.frames.drop (p.cursor + 1) = now ++ later
        rw [← List.drop_drop, ahead]
        rfl
      · intro i
        change p.replay.frames[p.cursor + 1 + i]? = (now ++ later)[i]?
        have shifted := head (i + 1)
        rw [show p.cursor + 1 + i = p.cursor + (i + 1) by omega, shifted]
        rfl

/-- Frames in blocks, one block a tick, each stamped with its tick. -/
def Stamped (fss : List (List VersusFrame)) : Prop :=
  ∀ (k : Nat) (fs : List VersusFrame), fss[k]? = some fs → ∀ f ∈ fs, f.tick = k

/-- The player of `r` after `n` ticks of the blocks `fss`. -/
def after (r : VersusReplay) (fss : List (List VersusFrame)) (n : Nat) : VersusReplayPlayer where
  versus := (fss.take n).foldl (round r.dtMs) (.new r.seedA r.seedB)
  replay := r
  executed := n
  cursor := (fss.take n).flatten.length

variable {r : VersusReplay} {fss : List (List VersusFrame)}

theorem step_after (frames : r.frames = fss.flatten) (count : r.tickCount = fss.length)
    (stamped : Stamped fss) {n : Nat} (less : n < fss.length) :
    (after r fss n).step = (true, after r fss (n + 1)) := by
  have block : fss[n]? = some fss[n] := List.getElem?_eq_getElem less
  have taken : fss.take (n + 1) = fss.take n ++ [fss[n]] := by
    rw [List.take_add_one, block]
    rfl
  have ahead : (after r fss n).replay.frames.drop (after r fss n).cursor =
      fss[n] ++ (fss.drop (n + 1)).flatten := by
    change r.frames.drop (fss.take n).flatten.length = _
    have split : fss.flatten = (fss.take n).flatten ++ (fss[n] ++ (fss.drop (n + 1)).flatten) := by
      conv_lhs => rw [← List.take_append_drop n fss]
      rw [List.flatten_append, List.drop_eq_getElem_cons less, List.flatten_cons]
    rw [frames, split, List.drop_left]
  have later (f : VersusFrame) (mem : f ∈ (fss.drop (n + 1)).flatten) : f.tick ≠ n := by
    obtain ⟨fs, block, mem⟩ := List.mem_flatten.mp mem
    obtain ⟨k, at_k⟩ := List.mem_iff_getElem?.mp block
    rw [List.getElem?_drop] at at_k
    have stamp := stamped (n + 1 + k) fs at_k f mem
    omega
  have applied := @applyDue_eq _ _ _ (r.frames.length - (after r fss n).cursor) ahead
    (stamped n fss[n] block) later ?_
  · unfold step
    have running : ¬(after r fss n).executed ≥ (after r fss n).replay.tickCount := by
      rw [show (after r fss n).replay.tickCount = fss.length from count]
      exact not_le.mpr less
    rw [if_neg running]
    unfold applyDue
    rw [show (after r fss n).replay.frames.length = r.frames.length from rfl, applied]
    unfold advance after
    dsimp only
    rw [taken, List.foldl_append, List.flatten_append, List.length_append]
    simp [round, discard]
  · have length := congrArg List.length ahead
    rw [List.length_drop, List.length_append] at length
    change fss[n].length ≤ r.frames.length - (after r fss n).cursor
    have same : (after r fss n).replay.frames.length = r.frames.length := rfl
    omega

/-- Playing to the end plays every block once. -/
theorem runToEnd_eq (frames : r.frames = fss.flatten) (count : r.tickCount = fss.length)
    (stamped : Stamped fss) : (new r).runToEnd = after r fss fss.length := by
  have rounds (k n : Nat) (total : n + k = fss.length) :
      whileN k (fun p => p.step.1) (fun p => p.step.2) (after r fss n) =
        after r fss fss.length := by
    induction k generalizing n with
    | zero =>
      rw [← total]
      rfl
    | succ k ih =>
      have less : n < fss.length := by omega
      have stepped := step_after frames count stamped less
      have more : (after r fss n).step.1 = true := by rw [stepped]
      have next : (after r fss n).step.2 = after r fss (n + 1) := by rw [stepped]
      unfold whileN
      rw [if_pos more]
      dsimp only
      rw [next]
      exact ih (n + 1) (by omega)
  have fresh : new r = after r fss 0 := rfl
  unfold runToEnd
  rw [fresh]
  change whileN (r.tickCount - 0) _ _ _ = _
  rw [count]
  exact rounds fss.length 0 (by omega)

end VersusReplayPlayer

/-! ## A bout and its recording -/

namespace Bout

open VersusReplayPlayer

/-- What a batch between two ticks may call. -/
inductive Order where
  | applyInput (side : Side) (input : Input) (seq : Nat)
  | debugGrant (side : Side) (weapon : Option WeaponToken) (funds : Option Int)

def order (b : Bout) : Order → Bout
  | .applyInput side input seq => (b.applyInput side input seq).2
  | .debugGrant side weapon funds => (b.debugGrant side weapon funds).2

/-- A batch of calls, and the tick behind it. -/
def batch (dtMs : Int) (b : Bout) (orders : List Order) : Bout :=
  (orders.foldl order b).tickMs dtMs

/-- As long as the match is on no score waits in a queue from the last tick, and the
next tick still has a stamp of its own. -/
def Settled (b : Bout) (_ : List Order) : Prop :=
  (b.result = 0 → ∀ x, ∀ e ∈ (b.versus.game x).events, e.isScored = false) ∧
    b.tick + 1 < 2 ^ 32

/-- From `b` to `b'` the frames `fs` were recorded, and playing them keeps an echo. -/
structure Logs (b : Bout) (fs : List VersusFrame) (b' : Bout) : Prop where
  tick : b'.tick = b.tick
  seedA : b'.seedA = b.seedA
  seedB : b'.seedB = b.seedB
  frames : b'.frames = b.frames ++ fs
  stamped : ∀ f ∈ fs, f.tick = b.tick % 2 ^ 32
  result : b'.versus.result = b.versus.result
  echo : ∀ L w, b.versus.Echo L w → b'.versus.Echo L (fs.foldl play w)

theorem Logs.refl (b : Bout) : Logs b [] b :=
  ⟨rfl, rfl, rfl, (List.append_nil _).symm, fun _ mem => absurd mem List.not_mem_nil,
    rfl, fun _ _ echo => echo⟩

theorem Logs.trans {b b' b'' : Bout} {fs fs' : List VersusFrame} (first : Logs b fs b')
    (second : Logs b' fs' b'') : Logs b (fs ++ fs') b'' := by
  refine ⟨second.tick.trans first.tick, second.seedA.trans first.seedA,
    second.seedB.trans first.seedB, ?_, fun f mem => ?_,
    second.result.trans first.result, fun L w echo => ?_⟩
  · rw [second.frames, first.frames, List.append_assoc]
  · rcases List.mem_append.mp mem with early | late
    · exact first.stamped f early
    · rw [← first.tick]
      exact second.stamped f late
  · rw [List.foldl_append]
    exact second.echo L _ (first.echo L w echo)

/-- An input that is applied and recorded. -/
theorem logs_drive (b : Bout) (side : Side) (input : Input) :
    Logs b [⟨b.tick % 2 ^ 32, sideIdx side, input⟩] ((b.drive side input).record side input) := by
  refine ⟨rfl, rfl, rfl, rfl, fun f mem => ?_, Versus.result_modify _ _ _, fun L w echo => ?_⟩
  · rw [List.mem_singleton.mp mem]
  · have same : (if sideIdx side = 0 then Side.a else Side.b) = side := by
      cases side <;> rfl
    change Versus.Echo L (b.versus.modify side input.applyToGame)
      (w.modify (if sideIdx side = 0 then .a else .b) input.applyToGame)
    rw [same]
    exact echo.modify (Game.applyToGame_trailing input) side

theorem logs_applyInput (b : Bout) (side : Side) (input : Input) (seq : Nat) :
    ∃ fs, Logs b fs (b.applyInput side input seq).2 := by
  have judged := b.judged_applyInput side input seq
  generalize b.applyInput side input seq = r at judged
  have acked : Logs b [] (b.setAck side seq) := by
    obtain ⟨tick, seedA, seedB, frames, stamped, result, echo⟩ := Logs.refl b
    exact ⟨tick, seedA, seedB, frames, stamped, result, echo⟩
  cases judged with
  | illegal => exact ⟨[], .refl b⟩
  | stale => exact ⟨[], .refl b⟩
  | blocked => exact ⟨[], acked⟩
  | applied => exact ⟨_, acked.trans (logs_drive (b.setAck side seq) side input)⟩

/-- A granted weapon is the input that records it. -/
theorem grantWeapon_cases (b : Bout) (side : Side) (weapon : Option WeaponToken) :
    b.grantWeapon side weapon = (false, b) ∨ ∃ t : WeaponToken, weapon = some t ∧
      b.grantWeapon side weapon = (true, b.drive side (.grantWeapon t.index)) := by
  cases weapon with
  | none => exact .inl rfl
  | some t =>
    unfold grantWeapon Game.grantWeapon
    dsimp only
    rcases (b.versus.game side).arsenal.buy_cases t with full | ⟨i, -, bought⟩
    · left
      rw [full]
      dsimp only
      rw [Versus.setGame_game]
    · refine .inr ⟨t, rfl, ?_⟩
      have input : (Input.grantWeapon t.index).applyToGame =
          fun g => (g.grantWeapon t).2 := by
        funext g
        unfold Input.applyToGame Input.onToken
        dsimp only
        rw [WeaponToken.fromIndex_index]
      have landed : ((b.versus.game side).arsenal.buy t).1 = true := by rw [bought]
      refine Prod.ext landed ?_
      unfold drive Versus.modify
      rw [input]
      rfl

theorem grantFunds_cases (b : Bout) (side : Side) (funds : Option Int) :
    b.grantFunds side funds = (false, b) ∨ ∃ amount : Int, funds = some amount ∧
      b.grantFunds side funds = (true, b.drive side (.addFunds amount)) := by
  cases funds with
  | none => exact .inl rfl
  | some amount =>
    unfold grantFunds
    dsimp only
    split
    · exact .inr ⟨amount, rfl, rfl⟩
    · exact .inl rfl

theorem logs_debugGrant (b : Bout) (side : Side) (weapon : Option WeaponToken)
    (funds : Option Int) : ∃ fs, Logs b fs (b.debugGrant side weapon funds).2 := by
  unfold debugGrant
  rcases b.grantWeapon_cases side weapon with none | ⟨t, rfl, granted⟩
  · rw [none]
    dsimp only
    rcases b.grantFunds_cases side funds with none | ⟨amount, rfl, credited⟩
    · rw [none]
      exact ⟨[], .refl b⟩
    · rw [credited]
      exact ⟨_, logs_drive b side (.addFunds amount)⟩
  · rw [granted]
    dsimp only
    have armed := logs_drive b side (.grantWeapon t.index)
    rcases (b.drive side (.grantWeapon t.index)).grantFunds_cases side funds with
      none | ⟨amount, rfl, credited⟩
    · rw [none]
      exact ⟨_, armed⟩
    · rw [credited]
      exact ⟨_, armed.trans (logs_drive _ side (.addFunds amount))⟩

theorem logs_orders (b : Bout) (orders : List Order) :
    ∃ fs, Logs b fs (orders.foldl order b) := by
  refine foldl_invariant (P := fun c : Bout => ∃ fs, Logs b fs c) (fun o _ c logged => ?_)
    ⟨[], .refl b⟩
  obtain ⟨fs, logs⟩ := logged
  cases o with
  | applyInput side input seq =>
    obtain ⟨fs', more⟩ := logs_applyInput c side input seq
    exact ⟨fs ++ fs', logs.trans more⟩
  | debugGrant side weapon funds =>
    obtain ⟨fs', more⟩ := logs_debugGrant c side weapon funds
    exact ⟨fs ++ fs', logs.trans more⟩

/-! ## Runs -/

/-- The frames of `b` in blocks, and the match that playing them leads to, which has
drained what the relay left in the queues of `b`. -/
structure Played (seedA seedB : Nat) (dtMs : Int) (b : Bout) (fss : List (List VersusFrame)) :
    Prop where
  fromA : b.seedA = seedA
  fromB : b.seedB = seedB
  tick : b.tick = fss.length
  small : b.tick < 2 ^ 32
  frames : b.frames = fss.flatten
  stamped : Stamped fss
  echo : ∃ L, b.versus.Echo L (fss.foldl (round dtMs) (.new seedA seedB)) ∧
    (b.versus.result = 0 → ∀ x, ∀ e ∈ L x,
      e ∈ (b.versus.game x).events ∧ (e.isScored = true ∨ e = .enterBazaar))

theorem game_discard (v : Versus) (x : Side) : (discard v).game x = (v.game x).drained := by
  cases x <;> rfl

theorem result_discard (v : Versus) : (discard v).result = v.result := rfl

variable {seedA seedB : Nat} {dtMs : Int} {b : Bout}

/-- A batch whose bout is settled plays back as one more block. -/
theorem Played.batch {fss : List (List VersusFrame)} (played : Played seedA seedB dtMs b fss)
    {orders : List Order} (settled : b.Settled orders) :
    ∃ fs, Played seedA seedB dtMs (b.batch dtMs orders) (fss ++ [fs]) := by
  obtain ⟨quiet, room⟩ := settled
  obtain ⟨fs, logs⟩ := logs_orders b orders
  refine ⟨fs, ?_⟩
  unfold Bout.batch
  generalize orders.foldl order b = c at logs
  obtain ⟨spy, seen, tetris, launches, ticked⟩ := c.tickMs_eq dtMs
  have game (x : Side) : (c.tickMs dtMs).versus.game x = (c.versus.tick dtMs).game x := by
    rw [ticked]
    cases x <;> rfl
  have result : (c.tickMs dtMs).versus.result = (c.versus.tick dtMs).result := by rw [ticked]
  have counted : (c.tickMs dtMs).tick = b.tick + 1 := by
    rw [c.tick_tickMs dtMs, logs.tick]
  obtain ⟨L, before, queued⟩ := played.echo
  have driven := logs.echo L _ before
  have entries : c.versus.result = 0 → ∀ x, ∀ e ∈ L x, e = .enterBazaar := by
    intro ongoing x e mem
    have started : b.versus.result = 0 := logs.result.symm.trans ongoing
    obtain ⟨there, scored | entry⟩ := queued started x e mem
    · rw [quiet started x e there] at scored
      cases scored
    · exact entry
  obtain ⟨K, after⟩ := driven.tick entries dtMs
  constructor
  · rw [ticked]
    exact logs.seedA.trans played.fromA
  · rw [ticked]
    exact logs.seedB.trans played.fromB
  · rw [counted, played.tick, List.length_append]
    rfl
  · rw [counted]
    exact room
  · rw [c.frames_tickMs dtMs, logs.frames, played.frames, List.flatten_append]
    simp
  · intro k block at_k f mem
    rcases Nat.lt_or_ge k fss.length with early | late
    · rw [List.getElem?_append_left early] at at_k
      exact played.stamped k block at_k f mem
    · rw [List.getElem?_append_right late] at at_k
      obtain ⟨last, rfl⟩ : k - fss.length = 0 ∧ block = fs := by
        cases position : k - fss.length with
        | zero =>
          rw [position] at at_k
          exact ⟨rfl, (Option.some.inj at_k).symm⟩
        | succ n =>
          rw [position] at at_k
          cases at_k
      have stamp := logs.stamped f mem
      rw [Nat.mod_eq_of_lt played.small, played.tick] at stamp
      omega
  · rw [List.foldl_append]
    refine ⟨fun x => (c.versus.tick dtMs |>.game x).events, ⟨fun x => ?_, ?_⟩, ?_⟩
    · change _ = ((discard _).game x).trailing _
      rw [game, game_discard, after.games]
      unfold Game.trailing Game.drained
      dsimp only
      rw [List.append_nil]
    · rw [result, after.result]
      exact (result_discard _).symm
    · intro ongoing x e mem
      rw [result] at ongoing
      rw [game]
      refine ⟨mem, ?_⟩
      dsimp only at mem
      unfold Versus.tick at ongoing mem
      split at mem
      · next ended =>
        rw [if_pos ended] at ongoing
        exact absurd ongoing ended
      · exact Versus.queued_relay _ x mem

theorem played_new (seedA seedB : Nat) (dtMs : Int) :
    Played seedA seedB dtMs (new seedA seedB) [] := by
  refine ⟨rfl, rfl, rfl, (by decide : 0 < 2 ^ 32), rfl, ?_, fun _ => [],
    ⟨fun x => (Game.trailing_nil _).symm, rfl⟩, ?_⟩
  · intro k fs at_k
    cases at_k
  · intro _ x e mem
    cases mem

/-- The replay of a bout, played to its end, holds the same games but for their queues, and
the same result, as long as every batch began with the bout settled. -/
theorem replay_faithful {batches : List (List Order)} (smallA : seedA < 2 ^ 32)
    (smallB : seedB < 2 ^ 32) (run : Run Settled (batch dtMs) (new seedA seedB) batches b)
    (engineSha : String) :
    let p := (VersusReplayPlayer.new (b.toReplay dtMs engineSha)).runToEnd
    p.executed = b.tick ∧ p.versus.result = b.versus.result ∧
      ∀ x, (p.versus.game x).SameButEvents (b.versus.game x) := by
  have invariant : ∃ fss, Played seedA seedB dtMs b fss := by
    refine run.invariant (P := fun b => ∃ fss, Played seedA seedB dtMs b fss)
      (fun b orders held settled => ?_) ⟨[], played_new seedA seedB dtMs⟩
    obtain ⟨fss, played⟩ := held
    obtain ⟨fs, next⟩ := played.batch settled
    exact ⟨_, next⟩
  obtain ⟨fss, played⟩ := invariant
  have count : (b.toReplay dtMs engineSha).tickCount = fss.length := by
    change b.tick % 2 ^ 32 = fss.length
    rw [Nat.mod_eq_of_lt played.small, played.tick]
  have seeds : (b.toReplay dtMs engineSha).seedA = seedA ∧
      (b.toReplay dtMs engineSha).seedB = seedB := by
    change b.seedA % 2 ^ 32 = seedA ∧ b.seedB % 2 ^ 32 = seedB
    rw [played.fromA, played.fromB, Nat.mod_eq_of_lt smallA, Nat.mod_eq_of_lt smallB]
    exact ⟨rfl, rfl⟩
  have ended := runToEnd_eq (r := b.toReplay dtMs engineSha) played.frames count played.stamped
  obtain ⟨L, echo, -⟩ := played.echo
  intro p
  have whole : p.versus = fss.foldl (round dtMs) (.new seedA seedB) := by
    change (VersusReplayPlayer.new (b.toReplay dtMs engineSha)).runToEnd.versus = _
    rw [ended]
    unfold after
    rw [List.take_length, seeds.1, seeds.2]
    rfl
  refine ⟨?_, ?_, fun x => ?_⟩
  · change (VersusReplayPlayer.new (b.toReplay dtMs engineSha)).runToEnd.executed = _
    rw [ended, played.tick]
    rfl
  · rw [whole, echo.result]
  · rw [whole]
    unfold Game.SameButEvents
    rw [echo.games]
    rfl

theorem fresh_quiet {v : Versus} (fresh : v.a.events = [] ∧ v.b.events = []) (x : Side) :
    (v.game x).events = [] := by
  cases x
  · exact fresh.1
  · exact fresh.2

theorem replay_faithful_one_tick :
    let p := (VersusReplayPlayer.new (((new 7 3).batch 16 []).toReplay 16 "engine")).runToEnd
    p.executed = ((new 7 3).batch 16 []).tick ∧
      p.versus.result = ((new 7 3).batch 16 []).versus.result ∧
      ∀ x, (p.versus.game x).SameButEvents (((new 7 3).batch 16 []).versus.game x) := by
  have fresh : (new 7 3).versus.a.events = [] ∧ (new 7 3).versus.b.events = [] := by
    decide +kernel
  have quiet := fresh_quiet fresh
  have settled : (new 7 3).Settled [] := by
    refine ⟨fun _ x e mem => ?_, (by decide : 0 + 1 < 2 ^ 32)⟩
    rw [quiet x] at mem
    cases mem
  have run : Run Settled (batch 16) (new 7 3) ([] ++ [[]]) ((new 7 3).batch 16 []) :=
    Run.nil.snoc settled
  exact replay_faithful (by decide) (by decide) run "engine"

/-- Keating credits its launcher with the victim's hundred funds while the relay runs. -/
def keatingBatches : List (List Order) :=
  [[.debugGrant .a (some .keating) none, .debugGrant .b none (some 100),
    .applyInput .a (.launchWeapon 0) 1], []]

/-- Live, the launcher's new score reaches the victim one tick later; in the replay never. -/
theorem keating_credit_lost :
    ¬∀ (seedA seedB : Nat) (dtMs : Int) (batches : List (List Order)) (b : Bout)
      (engineSha : String), seedA < 2 ^ 32 → seedB < 2 ^ 32 →
      Run (fun _ _ => True) (batch dtMs) (new seedA seedB) batches b → ∀ x,
        ((VersusReplayPlayer.new (b.toReplay dtMs engineSha)).runToEnd.versus.game x).SameButEvents
          (b.versus.game x) := by
  intro claim
  have ran (batches : List (List Order)) : Run (fun _ _ => True) (batch 16) (new 7 3) batches
      (batches.foldl (batch 16) (new 7 3)) := by
    induction batches using List.reverseRecOn with
    | nil => exact .nil
    | append_singleton batches orders ih =>
      rw [List.foldl_append]
      exact ih.snoc trivial
  have same := claim 7 3 16 keatingBatches _ "engine" (by decide) (by decide)
    (ran keatingBatches) .b
  have funds := (Game.sameButEvents_iff.mp same).2
  have differ : ((VersusReplayPlayer.new ((keatingBatches.foldl (batch 16) (new 7 3)).toReplay 16
      "engine")).runToEnd.versus.game .b).score.opFunds = 0 ∧
      ((keatingBatches.foldl (batch 16) (new 7 3)).versus.game .b).score.opFunds = 100 := by
    decide +kernel
  rw [differ.1, differ.2] at funds
  cases funds

end Bout

end BattleTris
