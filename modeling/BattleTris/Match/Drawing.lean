import BattleTris.Match.Denial
import BattleTris.Match.Sampling

/-!
The draw of a piece ends: the LongDong always keeps its probability, and each parity of the stream
has a state that draws it.
-/

namespace BattleTris

open Loop

namespace PieceManager

variable {pm : PieceManager} {rng : Rng}

/-! ## Configurations -/

/-- What happens to a piece manager. -/
inductive StreamEvent where
  | weaponOn (t : WeaponToken)
  | weaponOff (t : WeaponToken)
  | create (rng : Rng) (x y : Int)

def happen (pm : PieceManager) : StreamEvent → PieceManager
  | .weaponOn t => pm.weaponOn t
  | .weaponOff t => pm.weaponOff t
  | .create rng x y => (pm.create rng x y).2.1

/-- A game has created its first piece before any weapon reaches it; a state has 48 bits. -/
def Opened (pm : PieceManager) : StreamEvent → Prop
  | .weaponOn _ => pm.oldPiece ≠ 0
  | .weaponOff _ => True
  | .create rng _ _ => rng.Fits

/-- What every configuration has: a table that some weapons call for, and a valid last piece, which
there is once Broken is on. -/
structure Configured (pm : PieceManager) : Prop where
  table : ∃ d : Denials, pm.keepProb = d.table
  last : 0 ≤ pm.oldPiece ∧ pm.oldPiece ≤ 18
  opened : pm.broken = true → pm.oldPiece ≠ 0

theorem configured_new : new.Configured :=
  ⟨⟨_, Denials.table_new⟩, ⟨by decide, by decide⟩, by rintro ⟨⟩⟩

/-- The id that is chosen, and how. -/
inductive Chosen (pm : PieceManager) (rng : Rng) : Int → Prop where
  /-- A happy piece is forced. -/
  | forced (due : pm.hapOn ≠ 0) : Chosen pm rng 9
  /-- Broken repeats the last piece. -/
  | repeated (none : pm.hapOn = 0) (broken : pm.broken = true)
    (gate : rng.lrand48.1 % btBrokenProb ≠ 0) : Chosen pm rng pm.oldPiece
  /-- The loop ends, after finitely many rejected rounds, with an id of positive probability. -/
  | drawn {n : Nat} {id : Int} {after : Rng} (none : pm.hapOn = 0)
    (gate : pm.broken = true → rng.lrand48.1 % btBrokenProb = 0)
    (finds : Finds pm.roll n (if pm.broken then rng.lrand48.2 else rng) (id, after))
    (few : n < 2 ^ 47)
    (positive : 0.0 < pm.keepProb (Fin.ofNat _ id.toNat)) : Chosen pm rng id

/-- The LongDong keeps its probability under every weapon. -/
theorem table_longDong (d : Denials) : d.table 18 = btExoticKeepProb := rfl

/-- A probability is positive unless it is zero. -/
def Proper (v : Float) : Prop := v ≠ 0.0 → 0.0 < v

theorem proper_zero : Proper 0.0 := fun some => absurd rfl some

theorem proper_standard : Proper btDefaultKeepProb := fun _ => by decide

theorem proper_exotic : Proper btExoticKeepProb := fun _ => by decide

theorem proper_die : Proper btDieKeepProb := fun _ => by decide

theorem proper_setKeep (proper : ∀ i, Proper (pm.keepProb i)) (lo hi : Nat) {v : Float}
    (value : Proper v) (i : Fin 19) : Proper ((pm.setKeep lo hi v).keepProb i) := by
  unfold setKeep
  dsimp only
  split
  · exact value
  · exact proper i

theorem proper_new (i : Fin 19) : Proper (new.keepProb i) := by
  have zeros (i : Fin 19) : Proper ((⟨fun _ => 0.0, 0, false, 0⟩ : PieceManager).keepProb i) :=
    proper_zero
  have standard := proper_setKeep zeros 1 7 proper_standard
  have die := proper_setKeep standard 8 8 proper_die
  exact proper_setKeep (proper_setKeep die 9 9 proper_exotic) 18 18 proper_exotic i

theorem proper_table (d : Denials) (i : Fin 19) : Proper (d.table i) := by
  have edited (on : Bool) {v w : Float} (left : Proper v) (right : Proper w) :
      Proper (bif on then v else w) := by
    cases on
    · exact right
    · exact left
  unfold Denials.table
  split
  · exact edited d.long proper_zero proper_standard
  split
  · exact edited d.box proper_zero proper_standard
  split
  · exact edited d.weird proper_zero proper_standard
  split
  · exact edited d.dice proper_zero proper_die
  split
  · exact edited d.weird proper_standard proper_zero
  split
  · exact edited d.four proper_standard proper_zero
  · exact proper_new i

/-! ## Draws -/

/-- From each parity the LongDong comes up. -/
theorem longDong_drawn : ∀ p < 2, ∃ t : Rng, t.Fits ∧ t.state % 2 = p ∧
    (t.randBelow btMaxPieces).1 = 17 ∧
    (t.randBelow btMaxPieces).2.drand48.1 < btExoticKeepProb := by
  intro p parity
  interval_cases p
  · exact ⟨⟨149675407510870⟩, by norm_num [Rng.Fits], by decide, by decide, by decide⟩
  · exact ⟨⟨17261855105219⟩, by norm_num [Rng.Fits], by decide, by decide, by decide⟩

theorem roll_moves (pm : PieceManager) (r s : Rng) (moved : pm.roll r = .inr s) : s = r.twice := by
  unfold roll at moved
  dsimp only at moved
  split at moved
  · cases moved
  · cases moved
    rfl

/-- The loop ends from every state of the stream. -/
theorem Configured.finds (configured : pm.Configured) {r : Rng} (fits : r.Fits) :
    ∃ n < 2 ^ 47, ∃ a, Finds pm.roll n r a := by
  obtain ⟨d, table⟩ := configured.table
  refine Rng.finds_of_parities pm.roll_moves (fun p parity => ?_) fits
  obtain ⟨t, within, same, long, rare⟩ := longDong_drawn p parity
  refine ⟨t, within, same, ?_⟩
  have kept : pm.keepProb (Fin.ofNat _ ((t.randBelow btMaxPieces).1 + 1)) = btExoticKeepProb := by
    rw [long, table]
    exact table_longDong d
  unfold roll
  dsimp only
  rw [kept, if_pos rare]
  rfl

/-- What the loop ends with. -/
theorem Configured.found (configured : pm.Configured) {n : Nat} {r : Rng} {a : Int × Rng}
    (finds : Finds pm.roll n r a) :
    1 ≤ a.1 ∧ a.1 ≤ 18 ∧ 0.0 < pm.keepProb (Fin.ofNat _ a.1.toNat) := by
  obtain ⟨d, table⟩ := configured.table
  obtain ⟨k, small, id, some⟩ := finds.property (Q := fun a : Int × Rng =>
    ∃ k : Nat, k < 18 ∧ a.1 = k + 1 ∧ pm.keepProb (Fin.ofNat _ (k + 1)) ≠ 0.0)
    fun _ _ rolled => roll_kept rolled
  rw [table] at some ⊢
  rw [id, show ((k : Int) + 1).toNat = k + 1 by omega]
  exact ⟨by omega, by omega, proper_table d _ some⟩

/-- Every configuration chooses. -/
theorem Configured.choose (configured : pm.Configured) (fits : rng.Fits) :
    pm.Chosen rng (pm.choose rng).1 ∧ 1 ≤ (pm.choose rng).1 ∧ (pm.choose rng).1 ≤ 18 := by
  have drawn (gate : pm.broken = true → rng.lrand48.1 % btBrokenProb = 0) (none : pm.hapOn = 0) :
      pm.Chosen rng (pm.draw (if pm.broken then rng.lrand48.2 else rng)).1 ∧
        1 ≤ (pm.draw (if pm.broken then rng.lrand48.2 else rng)).1 ∧
        (pm.draw (if pm.broken then rng.lrand48.2 else rng)).1 ≤ 18 := by
    have start : Rng.Fits (if pm.broken then rng.lrand48.2 else rng) := by
      split
      · exact rng.fits_nextState
      · exact fits
    obtain ⟨n, few, ⟨id, after⟩, finds⟩ := configured.finds start
    have ended : pm.draw (if pm.broken then rng.lrand48.2 else rng) = (id, after) := by
      unfold draw
      rw [tryPow_of_finds finds (few.trans (by norm_num))]
    obtain ⟨least, most, positive⟩ := configured.found finds
    rw [ended]
    exact ⟨.drawn none gate finds few positive, least, most⟩
  unfold PieceManager.choose
  split
  · next none =>
    split
    · next broken =>
      dsimp only
      split
      · next gate =>
        have result := drawn (fun _ => gate) none
        rwa [if_pos broken] at result
      · next gate =>
        have piece := configured.opened broken
        obtain ⟨least, most⟩ := configured.last
        rw [if_pos piece]
        exact ⟨.repeated none broken gate, by dsimp only; omega, most⟩
    · next whole =>
      have result := drawn (fun broken => absurd broken whole) none
      rwa [if_neg whole] at result
  · next due => exact ⟨.forced due, by norm_num, by norm_num⟩

theorem Configured.happen (configured : pm.Configured) {e : StreamEvent} (opened : pm.Opened e) :
    (pm.happen e).Configured := by
  obtain ⟨d, table⟩ := configured.table
  cases e with
  | weaponOn t =>
    have last : (pm.weaponOn t).oldPiece = pm.oldPiece := by cases t <;> rfl
    refine ⟨⟨_, Denials.table_weaponOn table t⟩, ?_, fun _ => ?_⟩
    · change 0 ≤ (pm.weaponOn t).oldPiece ∧ (pm.weaponOn t).oldPiece ≤ 18
      rw [last]
      exact configured.last
    · change (pm.weaponOn t).oldPiece ≠ 0
      rw [last]
      exact opened
  | weaponOff t =>
    have last : (pm.weaponOff t).oldPiece = pm.oldPiece := by cases t <;> rfl
    refine ⟨⟨_, Denials.table_weaponOff table t⟩, ?_, fun broken => ?_⟩
    · change 0 ≤ (pm.weaponOff t).oldPiece ∧ (pm.weaponOff t).oldPiece ≤ 18
      rw [last]
      exact configured.last
    · change (pm.weaponOff t).oldPiece ≠ 0
      change (pm.weaponOff t).broken = true at broken
      rw [Game.weaponOff_broken] at broken
      rw [last]
      split at broken
      · cases broken
      · exact configured.opened broken
  | create rng x y =>
    obtain ⟨-, least, most⟩ := configured.choose opened
    have last : (pm.create rng x y).2.1.oldPiece = (pm.choose rng).1 := by
      unfold PieceManager.create
      dsimp only
      split <;> rfl
    refine ⟨⟨d, (Game.create_kept pm rng x y).2.trans table⟩, ?_, fun _ => ?_⟩
    · change 0 ≤ (pm.create rng x y).2.1.oldPiece ∧ (pm.create rng x y).2.1.oldPiece ≤ 18
      rw [last]
      omega
    · change (pm.create rng x y).2.1.oldPiece ≠ 0
      rw [last]
      omega

/-- In every configuration that weapons and pieces lead to, and from every state of the stream, a
piece is created: of an id that is forced, repeated, or drawn with a positive probability after
finitely many rounds. -/
theorem create_terminates {events : List StreamEvent} (run : Run Opened happen new events pm)
    (fits : rng.Fits) (x y : Int) :
    ∃ id, pm.Chosen rng id ∧ (pm.choose rng).1 = id ∧
      PieceKind.fromId id = some (pm.create rng x y).1.kind := by
  have configured := run.invariant (P := Configured)
    (fun pm e configured opened => configured.happen opened) configured_new
  obtain ⟨chosen, least, most⟩ := configured.choose fits
  refine ⟨_, chosen, rfl, ?_⟩
  have valid : ∃ kind, PieceKind.fromId (pm.choose rng).1 = some kind := by
    generalize (pm.choose rng).1 = id at least most
    interval_cases id <;> exact ⟨_, rfl⟩
  obtain ⟨kind, found⟩ := valid
  have built : (pm.create rng x y).1.kind = (PieceKind.fromId (pm.choose rng).1).getD .el := by
    unfold PieceManager.create
    dsimp only
    split <;> rfl
  rw [built, found]
  rfl

theorem create_terminates_new :
    ∃ id, new.Chosen (.new 7) id ∧ (new.choose (.new 7)).1 = id ∧
      PieceKind.fromId id = some (new.create (.new 7) 5 0).1.kind :=
  create_terminates .nil (Rng.fits_new 7) 5 0

end PieceManager

end BattleTris
