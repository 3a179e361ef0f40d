import BattleTris.Core.KeyframeRoundTrip

/-!
What `restore` refuses, and that a refusal changes nothing.

Every section of the format is read by a reader that depends on what it consumes
only, so an accepted stream has no accepted proper prefix and no accepted
extension.
-/

namespace BattleTris

open Machine Codec

namespace Game

/-! ## Sections -/

theorem local_readI32 : Local readI32 :=
  Local.next.map asI32

theorem local_readFlag : Local readFlag :=
  Local.next.map fun w => decide (w ≠ 0)

theorem local_readCounts : Local readCounts :=
  (local_readI32.times 34).map fun words => fun t : WeaponToken => words.getD t.index 0

theorem local_readPhase : Local readPhase := by
  refine Local.next.bind fun w => ?_
  cases Phase.ofCode w with
  | none => exact Local.reject
  | some p => exact Local.pure p

theorem local_readTimers (g : Game) : Local (readTimers g) := by
  unfold readTimers
  iterate 11 refine local_readI32.bind fun _ => ?_
  refine local_readFlag.bind fun _ => local_readI32.bind fun _ => ?_
  refine local_readPhase.bind fun _ => ?_
  iterate 2 refine local_readI32.bind fun _ => ?_
  refine local_readFlag.bind fun _ => ?_
  iterate 3 refine local_readI32.bind fun _ => ?_
  refine local_readFlag.bind fun _ => ?_
  exact local_readI32.map _

theorem local_readScore : Local readScore := by
  unfold readScore
  iterate 5 refine Local.next.bind fun _ => ?_
  exact Local.next.map _

theorem local_readStream : Local readStream := by
  unfold readStream
  refine Local.next.bind fun _ => (Local.next.times 19).bind fun _ => ?_
  exact local_readI32.bind fun _ => local_readFlag.bind fun _ => local_readI32.map _

theorem local_readQuad : Local readQuad := by
  unfold readQuad
  iterate 3 refine local_readI32.bind fun _ => ?_
  exact local_readI32.map _

theorem local_readPiece : Local readPiece := by
  unfold readPiece
  refine local_readI32.bind fun id => ?_
  cases PieceKind.fromId id with
  | none => exact Local.reject
  | some kind =>
    iterate 3 refine local_readI32.bind fun _ => ?_
    refine Local.next.bind fun _ => ?_
    iterate 3 refine local_readI32.bind fun _ => ?_
    exact Local.ite Local.reject ((local_readQuad.times 64).map _)

theorem local_readCurrent : Local readCurrent := by
  unfold readCurrent
  refine local_readFlag.bind fun present => ?_
  exact Local.ite (local_readPiece.map some) (Local.pure none)

theorem local_readToken : Local readToken := by
  unfold readToken
  refine local_readI32.bind fun i => ?_
  cases WeaponToken.fromIndex i with
  | none => exact Local.reject
  | some t => exact Local.pure t

theorem local_readPending : Local readPending := by
  unfold readPending
  exact Local.next.bind fun n => Local.ite (local_readToken.times n.toNat) Local.reject

theorem local_readSwap (len : Nat) : Local (readSwap len) := by
  unfold readSwap
  refine Local.next.bind fun present => Local.ite (Local.pure none) ?_
  exact Local.ite ((local_readI32.times len).map some) Local.reject

theorem local_readGame (g : Game) : Local (readGame g) := by
  unfold readGame
  refine Local.next.bind fun version => Local.ite Local.reject ?_
  refine (local_readTimers g).bind fun timed => local_readScore.bind fun score => ?_
  refine local_readStream.bind fun stream => ?_
  iterate 2 refine local_readCounts.bind fun _ => ?_
  refine (local_readI32.times 20).bind fun arsenal => local_readCurrent.bind fun current => ?_
  refine local_readPending.bind fun pending => (local_readSwap _).bind fun waiting => ?_
  refine (local_readI32.times _).bind fun board => local_readCounts.bind fun active => ?_
  iterate 3 refine local_readFlag.bind fun _ => ?_
  iterate 2 refine Local.next.bind fun _ => ?_
  exact Local.next.map _

/-! ## Words -/

theorem restore_accepts {g : Game} {data : List Int} :
    (g.restore data).1 = true ↔ ∃ restored, (readGame g).run data = some restored := by
  unfold restore
  cases (readGame g).run data with
  | none => simp
  | some restored => simp

theorem restore_rejected {g : Game} {data : List Int} (rejected : (g.restore data).1 = false) :
    (g.restore data).2 = g := by
  unfold restore at rejected ⊢
  cases read : (readGame g).run data with
  | none => rfl
  | some restored =>
    rw [read] at rejected
    cases rejected

/-- What follows a valid keyframe makes it invalid. -/
theorem restore_append {g : Game} {data tail : List Int} (valid : (g.restore data).1 = true)
    (more : tail ≠ []) : (g.restore (data ++ tail)).1 = false := by
  obtain ⟨restored, accepted⟩ := restore_accepts.mp valid
  unfold restore
  rw [(local_readGame g).run_append accepted more]

/-! ## Bytes -/

theorem restoreBytes_rejected {g : Game} {bytes : List UInt8}
    (rejected : (g.restoreBytes bytes).1 = false) : (g.restoreBytes bytes).2 = g := by
  unfold restoreBytes at rejected ⊢
  by_cases ragged : bytes.length % 8 ≠ 0
  · rw [if_pos ragged]
  · rw [if_neg ragged] at rejected ⊢
    exact restore_rejected rejected

theorem wordsOfBytes_succ (n : Nat) (bytes : List UInt8) :
    wordsOfBytes (n + 1) bytes = i64OfBytes (bytes.take 8) :: wordsOfBytes n (bytes.drop 8) := rfl

/-- Whole words are cut off a byte string from its left end. -/
theorem wordsOfBytes_append (m n : Nat) (bytes tail : List UInt8) (whole : bytes.length = 8 * m) :
    wordsOfBytes (m + n) (bytes ++ tail) = wordsOfBytes m bytes ++ wordsOfBytes n tail := by
  induction m generalizing bytes with
  | zero =>
    have empty : bytes = [] := List.length_eq_zero_iff.mp (by omega)
    subst empty
    rw [Nat.zero_add]
    rfl
  | succ m ih =>
    have long : 8 ≤ bytes.length := by omega
    rw [Nat.succ_add, wordsOfBytes_succ, wordsOfBytes_succ, List.take_append_of_le_length long,
      List.drop_append_of_le_length long, ih (bytes.drop 8) (by rw [List.length_drop]; omega),
      List.cons_append]

theorem length_wordsOfBytes (n : Nat) (bytes : List UInt8) : (wordsOfBytes n bytes).length = n := by
  induction n generalizing bytes with
  | zero => rfl
  | succ n ih => rw [wordsOfBytes_succ, List.length_cons, ih]

theorem restoreBytes_append {g : Game} {bytes tail : List UInt8}
    (valid : (g.restoreBytes bytes).1 = true) (more : tail ≠ []) :
    (g.restoreBytes (bytes ++ tail)).1 = false := by
  unfold restoreBytes at valid ⊢
  by_cases whole : bytes.length % 8 = 0
  · rw [if_neg (by omega)] at valid
    by_cases rest : tail.length % 8 = 0
    · have length := @List.length_append _ bytes tail
      have words : (bytes ++ tail).length / 8 = bytes.length / 8 + tail.length / 8 := by omega
      have nonempty : 0 < tail.length := List.length_pos_iff.mpr more
      rw [if_neg (by omega), words, wordsOfBytes_append _ _ _ _ (by omega)]
      refine restore_append valid fun none => ?_
      have count := length_wordsOfBytes (tail.length / 8) tail
      rw [none, List.length_nil] at count
      omega
    · rw [if_pos (by rw [List.length_append]; omega)]
  · rw [if_pos whole] at valid
    cases valid

/-- A refused keyframe, in words or in bytes, leaves the game as it was; a valid one has
no valid proper prefix and no valid extension. -/
theorem restore_all_or_nothing (g : Game) :
    ((∀ data, (g.restore data).1 = false → (g.restore data).2 = g) ∧
      ∀ bytes, (g.restoreBytes bytes).1 = false → (g.restoreBytes bytes).2 = g) ∧
    (∀ data tail, tail ≠ [] →
      ((g.restore (data ++ tail)).1 = true → (g.restore data).1 = false) ∧
      ((g.restore data).1 = true → (g.restore (data ++ tail)).1 = false)) ∧
    ∀ bytes tail, tail ≠ [] →
      ((g.restoreBytes (bytes ++ tail)).1 = true → (g.restoreBytes bytes).1 = false) ∧
      ((g.restoreBytes bytes).1 = true → (g.restoreBytes (bytes ++ tail)).1 = false) := by
  refine ⟨⟨fun data => restore_rejected, fun bytes => restoreBytes_rejected⟩, ?_, ?_⟩
  · intro data tail more
    refine ⟨fun whole => ?_, fun valid => restore_append valid more⟩
    by_contra accepted
    rw [restore_append (by simpa using accepted) more] at whole
    cases whole
  · intro bytes tail more
    refine ⟨fun whole => ?_, fun valid => restoreBytes_append valid more⟩
    by_contra accepted
    rw [restoreBytes_append (by simpa using accepted) more] at whole
    cases whole

/-- The empty stream is refused, and a fresh game stays fresh. -/
theorem restore_all_or_nothing_empty : ((new 7).restore []).2 = new 7 :=
  (restore_all_or_nothing (new 7)).1.1 [] rfl

end Game

end BattleTris
