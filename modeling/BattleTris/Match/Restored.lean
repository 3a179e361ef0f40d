import BattleTris.Core.KeyframeReject
import BattleTris.Lib.Yields
import BattleTris.Match.Resume

/-!
What an accepted keyframe makes of a game.

Whatever the bytes are, each section yields numbers of the types its fields have, so the
restored game fits its types and can be saved in its turn.
-/

namespace Machine

theorem fitsI16_asI16 (v : Int) : FitsI16 (asI16 v) := by
  have low := Int.le_bmod (x := v) (m := 2 ^ 16) (by norm_num)
  have high := Int.bmod_lt (x := v) (m := 2 ^ 16) (by norm_num)
  norm_num at low high
  exact ⟨low, high⟩

theorem fitsI32_asI32 (v : Int) : FitsI32 (asI32 v) := by
  have low := Int.le_bmod (x := v) (m := 2 ^ 32) (by norm_num)
  have high := Int.bmod_lt (x := v) (m := 2 ^ 32) (by norm_num)
  norm_num at low high
  exact ⟨low, high⟩

end Machine

namespace BattleTris

open Machine Codec

/-- A square decoded from words in range has its numbers in range. -/
theorem Cell.decode_fits {q : Int × Int × Int × Int} (fits : quadFits q) {c : Cell}
    (decoded : Cell.decode q = some c) : c.Fits := by
  obtain ⟨tag, a, b, h⟩ := q
  obtain ⟨-, first, second, -⟩ := fits
  unfold Cell.decode at decoded
  dsimp only at decoded first second
  split at decoded
  · cases decoded
    exact first
  split at decoded
  · cases decoded
    trivial
  split at decoded
  · cases decoded
    trivial
  split at decoded
  · cases decoded
    trivial
  split at decoded
  · cases decoded
    exact first
  split at decoded
  · cases decoded
    exact ⟨first, second⟩
  · cases decoded

theorem Arsenal.quantities_put_le (a : Arsenal) (i j : Fin btArsenalSize)
    (token : Option WeaponToken) (qty : Nat) :
    (a.put i token qty).quantities j ≤ max qty (a.quantities j) := by
  unfold Arsenal.put
  split
  · simp only [Function.update_apply]
    split <;> omega
  · simp only [Function.update_apply]
    split <;> omega

namespace Game

/-! ## Sections -/

theorem yields_next : Yields FitsI64 Reader.next FitsI64 :=
  Yields.next (fitsI32_small (by decide) (by decide)).fitsI64

theorem yields_readI32 : Yields FitsI64 readI32 FitsI32 :=
  yields_next.map fun w _ => fitsI32_asI32 w

theorem yields_readFlag : Yields FitsI64 readFlag fun _ => True :=
  yields_next.map fun _ _ => trivial

theorem yields_readI32s (n : Nat) :
    Yields FitsI64 (readI32.times n) fun l => l.length = n ∧ ∀ v ∈ l, FitsI32 v :=
  yields_readI32.times n

/-- An entry of a list, or the fallback, has what both have. -/
theorem getD_of_forall {α : Type _} {Q : α → Prop} {l : List α} {fallback : α}
    (last : Q fallback) (all : ∀ a ∈ l, Q a) (i : Nat) : Q (l.getD i fallback) := by
  rw [List.getD_eq_getElem?_getD]
  cases found : l[i]? with
  | none => exact last
  | some a => exact all a (List.mem_of_getElem? found)

theorem getD_fits {l : List Int} (fits : ∀ v ∈ l, FitsI32 v) (i : Nat) : FitsI32 (l.getD i 0) :=
  getD_of_forall (fitsI32_small (by decide) (by decide)) fits i

theorem yields_readCounts : Yields FitsI64 readCounts fun f => ∀ t, FitsI32 (f t) := by
  apply (yields_readI32s 34).map
  intro l good t
  exact getD_fits good.2 t.index

theorem yields_readPhase : Yields FitsI64 readPhase fun _ => True := by
  apply yields_next.bind
  intro w _
  cases Phase.ofCode w with
  | none => exact Yields.reject
  | some p => exact Yields.pure trivial

/-- A game whose timers were read over `g`. -/
structure Rewound (g h : Game) : Prop where
  words : ∀ v ∈ [h.x, h.y, h.defX, h.defY, h.deltaY, h.leftX, h.rightX, h.baseDropTime,
    h.fastDropTime, h.dropTime, h.slideTime, h.sliding, h.dropAccum, h.slideAccum,
    h.hatterAccum, h.slickAccum, h.slickDir, h.linesTilBaz], FitsI32 v
  board : h.board = g.board

theorem yields_readTimers (g : Game) : Yields FitsI64 (readTimers g) (Rewound g) := by
  unfold readTimers
  iterate 11 refine yields_readI32.bind fun _ _ => ?_
  refine yields_readFlag.bind fun _ _ => yields_readI32.bind fun _ _ => ?_
  refine yields_readPhase.bind fun _ _ => ?_
  iterate 2 refine yields_readI32.bind fun _ _ => ?_
  refine yields_readFlag.bind fun _ _ => ?_
  iterate 3 refine yields_readI32.bind fun _ _ => ?_
  refine yields_readFlag.bind fun _ _ => ?_
  apply yields_readI32.map
  intro v fits
  constructor
  · simp only [List.mem_cons, List.not_mem_nil, or_false, forall_eq_or_imp, forall_eq, *,
      and_self]
  · rfl

theorem yields_readScore : Yields FitsI64 readScore fun s =>
    ∀ v ∈ [s.score, s.opScore, s.lines, s.opLines, s.funds, s.opFunds], FitsI64 v := by
  unfold readScore
  iterate 5 refine yields_next.bind fun _ _ => ?_
  apply yields_next.map
  intro v fits
  simp only [List.mem_cons, List.not_mem_nil, or_false, forall_eq_or_imp, forall_eq, *, and_self]

theorem yields_readStream : Yields FitsI64 readStream fun s =>
    (FitsI32 s.1.hapOn ∧ FitsI32 s.1.oldPiece) ∧ s.2.state < 2 ^ 64 := by
  unfold readStream
  refine yields_next.bind fun state _ => (yields_next.times 19).bind fun _ _ => ?_
  refine yields_readI32.bind fun hapOn happy => yields_readFlag.bind fun _ _ => ?_
  apply yields_readI32.map
  intro oldPiece old
  refine ⟨⟨happy, old⟩, ?_⟩
  change asU64 state < 2 ^ 64
  unfold asU64
  omega

theorem yields_readQuad : Yields FitsI64 readQuad quadFits := by
  unfold readQuad
  refine yields_readI32.bind fun tag tagFits => yields_readI32.bind fun a aFits => ?_
  refine yields_readI32.bind fun b bFits => ?_
  exact yields_readI32.map fun h hFits => ⟨tagFits, aFits, bFits, hFits⟩

/-- A piece in one of the accepted rotation states, and its numbers in range. -/
theorem yields_readPiece : Yields FitsI64 readPiece fun p => p.Fits ∧ p.Regular := by
  unfold readPiece
  refine yields_readI32.bind fun id _ => ?_
  cases PieceKind.fromId id with
  | none => exact Yields.reject
  | some kind =>
    refine yields_readI32.bind fun x xFits => yields_readI32.bind fun y yFits => ?_
    refine yields_readI32.bind fun color colorFits => yields_next.bind fun rotWord _ => ?_
    refine yields_readI32.bind fun orientation orientationFits => ?_
    refine yields_readI32.bind fun orientations orientationsFits => ?_
    refine yields_readI32.bind fun state stateFits => ?_
    apply Yields.ite
    · intro _
      exact Yields.reject
    intro fine
    apply (yields_readQuad.times 64).map
    rintro quads ⟨-, all⟩
    constructor
    · constructor
      · simp only [List.mem_cons, List.not_mem_nil, or_false, forall_eq_or_imp, forall_eq, *,
          and_self]
      · intro i j c decoded
        have zero : FitsI32 0 := fitsI32_small (by decide) (by decide)
        exact Cell.decode_fits (getD_of_forall ⟨zero, zero, zero, zero⟩ all _) decoded
    · refine ⟨?_, ?_, ?_⟩
      · change asU64 rotWord = 0 ∨ asU64 rotWord = 3 ∨ asU64 rotWord = 4 ∨ asU64 rotWord = 8
        omega
      · change 0 ≤ orientation
        omega
      · change orientation < orientations
        omega

theorem yields_readCurrent : Yields FitsI64 readCurrent fun current =>
    ∀ p, current = some p → p.Fits ∧ p.Regular := by
  unfold readCurrent
  apply yields_readFlag.bind
  intro present _
  apply Yields.ite
  · intro _
    apply yields_readPiece.map
    rintro p good q ⟨⟩
    exact good
  · intro _
    apply Yields.pure
    rintro p ⟨⟩

theorem yields_readToken : Yields FitsI64 readToken fun _ => True := by
  apply yields_readI32.bind
  intro i _
  cases WeaponToken.fromIndex i with
  | none => exact Yields.reject
  | some t => exact Yields.pure trivial

theorem yields_readPending : Yields FitsI64 readPending fun l => l.length ≤ 1024 := by
  unfold readPending
  apply yields_next.bind
  intro n _
  apply Yields.ite
  · intro range
    apply (yields_readToken.times n.toNat).mono
    rintro l ⟨length, -⟩
    omega
  · intro _
    exact Yields.reject

theorem yields_readSwap (len : Nat) : Yields FitsI64 (readSwap len) fun swap =>
    ∀ cells, swap = some cells → cells.length = len ∧ ∀ v ∈ cells, FitsI32 v := by
  unfold readSwap
  apply yields_next.bind
  intro present _
  apply Yields.ite
  · intro _
    apply Yields.pure
    rintro cells ⟨⟩
  intro _
  apply Yields.ite
  · intro _
    apply (yields_readI32s len).map
    rintro cells good _ ⟨⟩
    exact good
  · intro _
    exact Yields.reject

/-! ## Imports -/

/-- An imported arsenal holds sixteen-bit quantities. -/
theorem importArsenal_fits (g : Game) {data : List Int} (length : data.length = 20) :
    ∃ arsenal : Arsenal, g.importArsenal data = { g with arsenal := arsenal } ∧
      ∀ i, arsenal.quantities i < 2 ^ 16 := by
  unfold importArsenal
  rw [if_neg (not_not.mpr length)]
  refine ⟨_, rfl, ?_⟩
  refine Loop.foldl_invariant (P := fun a : Arsenal => ∀ i, a.quantities i < 2 ^ 16) ?_ ?_
  · intro slot _ a small i
    unfold Arsenal.setSlot
    split
    · next inside =>
      have bound := a.quantities_put_le ⟨slot, inside⟩ i
        (WeaponToken.fromIndex (data.getD (slot * 2) 0))
        (max 0 (min (data.getD (slot * 2 + 1) 0) 65535)).toNat
      have held := small i
      omega
    · exact small i
  · intro i
    exact (by decide : 0 < 2 ^ 16)

/-- The imported board has its size, no fresh squares, and its numbers in range. -/
theorem importBoard_fits {g : Game} (width : g.board.width = btBoardWth)
    (height : g.board.height = btBoardHgt) {data : List Int} (length : data.length = 1120)
    (fits : ∀ v ∈ data, FitsI32 v) :
    ∃ b : Board, g.importBoard data = { g with board := b } ∧ Board.Keeps g.board b ∧
      ∀ x y c, b.get x y = some c → c.Fits := by
  have sized : data.length = (g.board.width * g.board.height * 4).toNat := by
    rw [length, width, height]
    rfl
  obtain ⟨keeps, squares⟩ := importBoard_board (by rw [width]; decide) (by rw [height]; decide)
    sized
  refine ⟨_, importBoard_eq g data, keeps, ?_⟩
  intro x y c filled
  rw [squares x y] at filled
  split at filled
  · exact Cell.decode_fits
      ⟨getD_fits fits _, getD_fits fits _, getD_fits fits _, getD_fits fits _⟩ filled
  · cases filled

/-! ## The whole game -/

/-- What holds of a game that was restored over a board of the usual size. -/
structure Accepted (g : Game) : Prop where
  fits : g.Fits
  width : g.board.width = btBoardWth
  height : g.board.height = btBoardHgt
  newFill : g.board.newFill = []
  current : ∀ p, g.current = some p → p.Regular
  pendingBoard : ∀ cells, g.pendingBoard = some cells → cells.length = 1120
  pending : g.pending.length ≤ 1024
  events : g.events = []

theorem yields_readGame {g : Game} (standard : g.Regular) :
    Yields FitsI64 (readGame g) Accepted := by
  unfold readGame
  apply yields_next.bind
  intro version _
  apply Yields.ite
  · intro _
    exact Yields.reject
  intro _
  refine (yields_readTimers g).bind fun timed timers => yields_readScore.bind fun score totals => ?_
  refine yields_readStream.bind fun stream drawn => ?_
  refine yields_readCounts.bind fun weapons weaponsFit => ?_
  refine yields_readCounts.bind fun remaining remainingFit => ?_
  refine (yields_readI32s 20).bind fun arsenalFlat slots => ?_
  refine yields_readCurrent.bind fun current piece => yields_readPending.bind fun pending few => ?_
  refine (yields_readSwap _).bind fun waiting swap => ?_
  refine (yields_readI32s _).bind fun flat squares => ?_
  refine yields_readCounts.bind fun active activeFit => ?_
  refine yields_readFlag.bind fun upside _ => yields_readFlag.bind fun computer _ => ?_
  refine yields_readFlag.bind fun idiot _ => yields_next.bind fun reason _ => ?_
  refine yields_next.bind fun lockSeq _ => ?_
  apply yields_next.map
  intro lockHash _
  rw [standard.boardLen] at swap squares
  obtain ⟨arsenal, stored, quantities⟩ := importArsenal_fits
    { timed with
      score := score, pieces := stream.1, rng := stream.2, weapons := ⟨weapons⟩
      remaining := remaining } slots.1
  have same : timed.board = g.board := timers.board
  obtain ⟨b, placed, keeps, cells⟩ := importBoard_fits
    (g := { timed with
      score := score, pieces := stream.1, rng := stream.2, weapons := ⟨weapons⟩
      remaining := remaining, arsenal := arsenal })
    (by rw [← standard.board.width, ← same]) (by rw [← standard.board.height, ← same])
    squares.1 squares.2
  rw [stored, placed]
  have words := timers.words
  simp only [List.mem_cons, List.not_mem_nil, or_false, forall_eq_or_imp, forall_eq] at words
  constructor
  · constructor
    · simp only [List.mem_cons, List.not_mem_nil, or_false, forall_eq_or_imp, forall_eq, words,
        drawn.1, and_self]
    · exact drawn.2
    · exact weaponsFit
    · exact remainingFit
    · exact quantities
    · intro p held
      exact (piece p held).1
    · intro l held
      exact (swap l held).2
    · exact cells
    · exact activeFit
    · exact fitsI16_asI16 reason
    · exact totals
    · change asU64 lockSeq < 2 ^ 64
      unfold asU64
      omega
    · change asU32 lockHash < 2 ^ 32
      unfold asU32
      omega
  · exact keeps.width.trans ((congrArg (fun b : Board => b.width) same).trans standard.board.width)
  · have height := congrArg (fun b : Board => b.height) same
    exact keeps.height.trans (height.trans standard.board.height)
  · have newFill := congrArg (fun b : Board => b.newFill) same
    exact keeps.newFill.trans (newFill.trans standard.board.newFill)
  · intro p held
    exact (piece p held).2
  · intro l held
    exact (swap l held).1
  · exact few
  · rfl

/-- Whatever words it is given, `restore` commits a game that fits its types. -/
theorem accepted_restore {g : Game} (standard : g.Regular) {data : List Int}
    (words : ∀ v ∈ data, FitsI64 v) (accepted : (g.restore data).1 = true) :
    (g.restore data).2.Accepted := by
  obtain ⟨restored, read⟩ := restore_accepts.mp accepted
  unfold restore
  rw [read]
  exact (yields_readGame standard).run words read

/-- Bytes cut into words are in range. -/
theorem wordsOfBytes_fit (n : Nat) (bytes : List UInt8) :
    ∀ v ∈ wordsOfBytes n bytes, FitsI64 v := by
  induction n generalizing bytes with
  | zero =>
    intro v mem
    cases mem
  | succ n ih =>
    intro v mem
    rw [wordsOfBytes, List.mem_cons] at mem
    rcases mem with head | later
    · rw [head]
      exact fitsI64_asI64 _
    · exact ih (bytes.drop 8) v later

/-! ## Playing on -/

/-- Over a game that play has reached, an accepted byte string leaves a board of the usual size,
a piece in one of the known rotation states, at most 1024 weapons pending and every number in
the type it is stored in.  If the board is a person's and the keep probabilities are the
engine's, every play from there can be saved again, as long as its numbers stay in range. -/
theorem restoreBytes_sound {g : Game} (reached : Reached StandardSwap g) {bytes : List UInt8}
    (accepted : (g.restoreBytes bytes).1 = true) :
    (g.restoreBytes bytes).2.Accepted ∧
      ((g.restoreBytes bytes).2.board.computer = false →
        (g.restoreBytes bytes).2.pieces.Regular →
        ∀ actions k, Run StandardSwap act (g.restoreBytes bytes).2 actions k →
          k.Fits → k.pending.length ≤ 1024 → ∀ h, Reached StandardSwap h →
            h.restoreBytes k.snapshotBytes = (true, { k with events := [] })) := by
  have sound : (g.restoreBytes bytes).2.Accepted := by
    unfold restoreBytes at accepted ⊢
    split
    · next ragged =>
      rw [if_pos ragged] at accepted
      cases accepted
    · next whole =>
      rw [if_neg whole] at accepted
      exact accepted_restore reached.regular (wordsOfBytes_fit _ _) accepted
  refine ⟨sound, ?_⟩
  intro person engine actions k run fits few h other
  have start : (g.restoreBytes bytes).2.Regular :=
    ⟨⟨sound.width, sound.height, person, sound.newFill⟩, engine, sound.current,
      sound.pendingBoard⟩
  have regular : k.Regular :=
    run.invariant (fun _ _ regular swap => regular.act swap) start
  exact restoreBytes_snapshotBytes regular other.regular fits few

/-- A fresh game's keyframe, taken over by another and saved again. -/
theorem restoreBytes_sound_fresh :
    ((new 3).restoreBytes (new 7).snapshotBytes).2.Accepted ∧
      (new 5).restoreBytes ((new 3).restoreBytes (new 7).snapshotBytes).2.snapshotBytes =
        (true, { ((new 3).restoreBytes (new 7).snapshotBytes).2 with events := [] }) := by
  have regular := regular_new 7
  have idle : (new 7).pending.length ≤ 1024 := by
    have pending : (new 7).pending = [] := by decide +kernel
    rw [pending]
    decide
  have taken : (new 3).restoreBytes (new 7).snapshotBytes =
      (true, { new 7 with events := [] }) :=
    restoreBytes_snapshotBytes regular (regular_new 3) (fits_new 7) idle
  have result : ((new 3).restoreBytes (new 7).snapshotBytes).2 = { new 7 with events := [] } := by
    rw [taken]
  have accepted : ((new 3).restoreBytes (new 7).snapshotBytes).1 = true := by rw [taken]
  obtain ⟨sound, resaved⟩ := restoreBytes_sound (reached_new StandardSwap 3) accepted
  refine ⟨sound, ?_⟩
  have kept (g : Game) (regular : g.Regular) :
      ({ g with events := [] } : Game).board.computer = false ∧
        ({ g with events := [] } : Game).pieces.Regular := ⟨regular.board.computer, regular.pieces⟩
  refine resaved ?_ ?_ [] _ .nil sound.fits sound.pending _ (reached_new StandardSwap 5)
  · rw [result]
    exact (kept _ regular).1
  · rw [result]
    exact (kept _ regular).2

end Game

end BattleTris
