import BattleTris.Core.Exports
import BattleTris.Core.Keyframe
import BattleTris.Core.Regular

/-!
A keyframe restores the game it was taken from.

Each section of the stream is read back by the reader of the same section
(`Codec.Reads`), and `restore_snapshot` puts the sections together.  It asks that
the game be *regular*, an invariant of play, and that its numbers fit the types
the source stores them in.
-/

namespace BattleTris

open Loop Machine Codec

/-! ## Numbers in range -/

/-- The numbers of a square fit their types. -/
def Cell.Fits (c : Cell) : Prop :=
  match c.kind with
  | .color v => FitsI32 v
  | .gimp v => FitsI32 v
  | .invisible id value => FitsI32 id ∧ FitsI32 value
  | .die _ | .happy _ | .struct => True

def quadFits (q : Int × Int × Int × Int) : Prop :=
  FitsI32 q.1 ∧ FitsI32 q.2.1 ∧ FitsI32 q.2.2.1 ∧ FitsI32 q.2.2.2

theorem fitsI32_small {v : Int} (low : -1000 ≤ v) (high : v ≤ 1000) : FitsI32 v := by
  unfold FitsI32
  omega

theorem Cell.Fits.quad {c : Cell} (fits : c.Fits) : quadFits c.encode := by
  obtain ⟨kind, hidden⟩ := c
  have bit : FitsI32 (if hidden then 1 else 0) := by
    cases hidden <;> exact fitsI32_small (by decide) (by decide)
  have small (n : Int) (low : -1000 ≤ n) (high : n ≤ 1000) : FitsI32 n := fitsI32_small low high
  cases kind with
  | color v => exact ⟨small 1 (by decide) (by decide), fits, small 0 (by decide) (by decide), bit⟩
  | die v =>
    have pips := v.toNat_lt
    exact ⟨small 2 (by decide) (by decide), small v.toNat (by omega) (by omega),
      small 0 (by decide) (by decide), bit⟩
  | happy landed =>
    have face : FitsI32 (if landed then 1 else 0) := by
      cases landed <;> exact fitsI32_small (by decide) (by decide)
    exact ⟨small 3 (by decide) (by decide), face, small 0 (by decide) (by decide), bit⟩
  | struct =>
    exact ⟨small 4 (by decide) (by decide), small 0 (by decide) (by decide),
      small 0 (by decide) (by decide), bit⟩
  | gimp v => exact ⟨small 5 (by decide) (by decide), fits, small 0 (by decide) (by decide), bit⟩
  | invisible id value => exact ⟨small 6 (by decide) (by decide), fits.1, fits.2, bit⟩

theorem quadFits_encodeSquare {c : Option Cell} (fits : ∀ d, c = some d → d.Fits) :
    quadFits (Cell.encodeSquare c) := by
  cases c with
  | none => exact ⟨fitsI32_small (by decide) (by decide), fitsI32_small (by decide) (by decide),
      fitsI32_small (by decide) (by decide), fitsI32_small (by decide) (by decide)⟩
  | some d => exact (fits d rfl).quad

structure Piece.Fits (p : Piece) : Prop where
  words : ∀ v ∈ [p.x, p.y, p.color, p.orientation, p.orientations, p.state], FitsI32 v
  cells : ∀ i j c, p.cells i j = some c → c.Fits

/-- Every number of the game lies in the type the source keeps it in: the unbounded
counters of the model have not left their machine range. -/
structure Game.Fits (g : Game) : Prop where
  words : ∀ v ∈ [g.x, g.y, g.defX, g.defY, g.deltaY, g.leftX, g.rightX, g.baseDropTime,
    g.fastDropTime, g.dropTime, g.slideTime, g.sliding, g.dropAccum, g.slideAccum,
    g.hatterAccum, g.slickAccum, g.slickDir, g.linesTilBaz, g.pieces.hapOn,
    g.pieces.oldPiece], FitsI32 v
  rng : g.rng.state < 2 ^ 64
  weapons : ∀ t, FitsI32 (g.weapons.counts t)
  remaining : ∀ t, FitsI32 (g.remaining t)
  quantities : ∀ i, g.arsenal.quantities i < 2 ^ 16
  current : ∀ p, g.current = some p → p.Fits
  pendingBoard : ∀ cells, g.pendingBoard = some cells → ∀ v ∈ cells, FitsI32 v
  squares : ∀ x y c, g.board.get x y = some c → c.Fits
  active : ∀ t, FitsI32 (g.board.active.counts t)
  reason : FitsI16 g.board.reason
  totals : ∀ v ∈ [g.score.score, g.score.opScore, g.score.lines, g.score.opLines,
    g.score.funds, g.score.opFunds], FitsI64 v
  lockSeq : g.lockSeq < 2 ^ 64
  lockHash : g.lockHash < 2 ^ 32

/-! ## Reading single words and lists -/

theorem reads_i32 {v : Int} (fits : FitsI32 v) : Reads Game.readI32 [v] v := by
  have read := (Reads.next v).map asI32
  rwa [asI32_of_fits fits] at read

theorem reads_flag (b : Bool) : Reads Game.readFlag [flag b] b := by
  have read := (Reads.next (flag b)).map fun w => decide (w ≠ 0)
  cases b <;> exact read

theorem reads_phase (p : Phase) : Reads Game.readPhase [p.code] p := by
  cases p <;> exact Reads.cons (Reads.pure _)

section Cons

variable {β : Type _} {ys : List Int} {b : β}

theorem reads_i32_cons {f : Int → Reader Int β} {v : Int} (fits : FitsI32 v)
    (rest : Reads (f v) ys b) : Reads (Game.readI32 >>= f) (v :: ys) b :=
  (reads_i32 fits).bind rest

theorem reads_flag_cons {f : Bool → Reader Int β} {c : Bool} (rest : Reads (f c) ys b) :
    Reads (Game.readFlag >>= f) (flag c :: ys) b :=
  (reads_flag c).bind rest

theorem reads_phase_cons {f : Phase → Reader Int β} {p : Phase} (rest : Reads (f p) ys b) :
    Reads (Game.readPhase >>= f) (p.code :: ys) b :=
  (reads_phase p).bind rest

end Cons

theorem reads_words {ws : List Int} {n : Nat} (length : ws.length = n) :
    Reads (Reader.next.times n) ws ws := by
  subst length
  have read := Reads.times (r := Reader.next) (e := fun w => [w]) (l := ws)
    fun w _ => Reads.next w
  rwa [List.flatMap_singleton'] at read

theorem reads_i32s {l : List Int} {n : Nat} (length : l.length = n)
    (fits : ∀ w ∈ l, FitsI32 w) : Reads (Game.readI32.times n) l l := by
  subst length
  have read := Reads.times (r := Game.readI32) (e := fun w => [w]) (l := l)
    fun w mem => reads_i32 (fits w mem)
  rwa [List.flatMap_singleton'] at read

theorem getD_counts (f : WeaponToken → Int) (t : WeaponToken) :
    (WeaponToken.all.map f).getD t.index 0 = f t := by
  cases t <;> rfl

theorem reads_counts {f : WeaponToken → Int} (fits : ∀ t, FitsI32 (f t)) :
    Reads Game.readCounts (WeaponToken.all.map f) f := by
  have read := (reads_i32s (n := 34) (l := WeaponToken.all.map f) rfl (by
    intro w mem
    obtain ⟨t, -, rfl⟩ := List.mem_map.mp mem
    exact fits t)).map fun words => fun t : WeaponToken => words.getD t.index 0
  rwa [funext (getD_counts f)] at read

namespace Game

/-! ## The sections -/

theorem reads_timers {g : Game} (fits : g.Fits) (h : Game) :
    Reads (readTimers h) g.timerWords { h with
      x := g.x, y := g.y, defX := g.defX, defY := g.defY, deltaY := g.deltaY
      leftX := g.leftX, rightX := g.rightX, baseDropTime := g.baseDropTime
      fastDropTime := g.fastDropTime, dropTime := g.dropTime, slideTime := g.slideTime
      dropping := g.dropping, sliding := g.sliding, phase := g.phase
      dropAccum := g.dropAccum, slideAccum := g.slideAccum, paused := g.paused
      hatterAccum := g.hatterAccum, slickAccum := g.slickAccum, slickDir := g.slickDir
      inBazaar := g.inBazaar, linesTilBaz := g.linesTilBaz } := by
  have word (v : Int) (mem : v ∈ _) : FitsI32 v := fits.words v mem
  simp only [List.mem_cons, List.not_mem_nil, or_false, forall_eq_or_imp, forall_eq] at word
  obtain ⟨x, y, defX, defY, deltaY, leftX, rightX, base, fast, drop, slide, sliding, dropAccum,
    slideAccum, hatter, slick, slickDir, til, -, -⟩ := word
  unfold readTimers timerWords
  refine reads_i32_cons x (reads_i32_cons y (reads_i32_cons defX (reads_i32_cons defY ?_)))
  refine reads_i32_cons deltaY (reads_i32_cons leftX (reads_i32_cons rightX ?_))
  refine reads_i32_cons base (reads_i32_cons fast (reads_i32_cons drop (reads_i32_cons slide ?_)))
  refine reads_flag_cons (reads_i32_cons sliding (reads_phase_cons ?_))
  refine reads_i32_cons dropAccum (reads_i32_cons slideAccum (reads_flag_cons ?_))
  refine reads_i32_cons hatter (reads_i32_cons slick (reads_i32_cons slickDir ?_))
  exact reads_flag_cons (reads_i32_cons til (Reads.pure _))

theorem reads_score (s : Score) : Reads readScore (scoreWords s) s := by
  unfold readScore scoreWords
  exact Reads.cons (Reads.cons (Reads.cons (Reads.cons (Reads.cons (Reads.cons (Reads.pure _))))))

/-- A keep probability survives the trip through its bits. -/
theorem ofBits_toBits_keep {f : Float} (keep : f ∈ keepValues) :
    Float.ofBits (UInt64.ofNat (asU64 (asI64 f.toBits.toNat))) = f := by
  rw [asU64_asI64 f.toBits.toNat_lt, UInt64.ofNat_toNat]
  simp only [keepValues, List.mem_cons, List.not_mem_nil, or_false] at keep
  rcases keep with rfl | rfl | rfl | rfl <;> rfl

/-- The stream section of any bits and state. -/
theorem reads_streamOf {l : List Int} (length : l.length = 19) (state : Int)
    {hapOn oldPiece : Int} (hap : FitsI32 hapOn) (old : FitsI32 oldPiece) (broken : Bool) :
    Reads readStream (state :: l ++ [hapOn, flag broken, oldPiece])
      ({ keepProb := fun i => Float.ofBits (UInt64.ofNat (asU64 (l.getD i 0)))
         hapOn, broken, oldPiece }, ⟨asU64 state⟩) := by
  unfold readStream
  refine Reads.cons ((reads_words length).bind ?_)
  exact reads_i32_cons hap (reads_flag_cons (reads_i32_cons old (Reads.pure _)))

theorem getD_finRange (f : Fin 19 → Int) (i : Fin 19) :
    ((List.finRange 19).map f).getD i 0 = f i := by
  simp [List.getD_eq_getElem?_getD]

theorem reads_stream {g : Game} (fits : g.Fits) (regular : g.Regular) :
    Reads readStream (streamWords g.pieces g.rng) (g.pieces, g.rng) := by
  have hapOn : FitsI32 g.pieces.hapOn := fits.words _ (by simp)
  have oldPiece : FitsI32 g.pieces.oldPiece := fits.words _ (by simp)
  have read := reads_streamOf
    (l := (List.finRange 19).map fun i => asI64 (g.pieces.keepProb i).toBits.toNat) (by simp)
    (asI64 g.rng.state) hapOn oldPiece g.pieces.broken
  simp only [getD_finRange, ofBits_toBits_keep (regular.pieces _)] at read
  rw [asU64_asI64 fits.rng] at read
  exact read

theorem reads_quad {q : Int × Int × Int × Int} (fits : quadFits q) :
    Reads readQuad (quadWords q) q := by
  unfold readQuad quadWords
  refine reads_i32_cons fits.1 (reads_i32_cons fits.2.1 ?_)
  exact reads_i32_cons fits.2.2.1 (reads_i32_cons fits.2.2.2 (Reads.pure _))

/-- The quads of one column of a piece. -/
def columnQuads (p : Piece) (col : Fin btPieceWidth) : List (Int × Int × Int × Int) :=
  (List.finRange btPieceWidth).map fun row => Cell.encodeSquare (p.cells col row)

theorem length_columnQuads (p : Piece) (col : Fin btPieceWidth) :
    (columnQuads p col).length = 8 := by
  rw [columnQuads, List.length_map, List.length_finRange]

theorem length_pieceQuads (p : Piece) : (pieceQuads p).length = 64 := by
  have length := length_flatMap_const (length_columnQuads p) (List.finRange btPieceWidth)
  rwa [List.length_finRange] at length

theorem getD_pieceQuads (p : Piece) (col row : Fin btPieceWidth) :
    (pieceQuads p).getD (8 * col + row) (0, 0, 0, 0) = Cell.encodeSquare (p.cells col row) := by
  have read : (pieceQuads p)[(col : Nat) * 8 + row]? = _ :=
    getElem?_flatMap_const (length_columnQuads p) (l := List.finRange btPieceWidth)
      (by simp) row.isLt
  rw [List.getD_eq_getElem?_getD, Nat.mul_comm, read, columnQuads]
  simp

theorem mem_pieceQuads {p : Piece} (fits : p.Fits) :
    ∀ q ∈ pieceQuads p, quadFits q := by
  intro q mem
  obtain ⟨col, -, mem⟩ := List.mem_flatMap.mp mem
  obtain ⟨row, -, rfl⟩ := List.mem_map.mp mem
  exact quadFits_encodeSquare (fits.cells col row)

theorem reads_quads {p : Piece} (fits : p.Fits) :
    Reads (readQuad.times 64) ((pieceQuads p).flatMap quadWords) (pieceQuads p) := by
  have read := Reads.times (r := readQuad) (e := quadWords) (l := pieceQuads p)
    fun q mem => reads_quad (mem_pieceQuads fits q mem)
  rwa [length_pieceQuads] at read

theorem reads_piece {p : Piece} (fits : p.Fits) (regular : p.Regular) :
    Reads readPiece ([p.kind.id, p.x, p.y, p.color, (p.rot : Int), p.orientation,
      p.orientations, p.state] ++ (pieceQuads p).flatMap quadWords) p := by
  have word (v : Int) (mem : v ∈ _) : FitsI32 v := fits.words v mem
  simp only [List.mem_cons, List.not_mem_nil, or_false, forall_eq_or_imp, forall_eq] at word
  obtain ⟨x, y, color, orientation, orientations, state⟩ := word
  obtain ⟨low, high⟩ := p.kind.id_bounds
  have rot : asU64 p.rot = p.rot := by
    rcases regular.rot with rot | rot | rot | rot <;> rw [rot] <;> rfl
  have accepted : ¬((p.rot ≠ 0 ∧ p.rot ≠ 3 ∧ p.rot ≠ 4 ∧ p.rot ≠ 8) ∨ p.orientations ≤ 0 ∨
      p.orientation < 0 ∨ p.orientation ≥ p.orientations) := by
    have := regular.low
    have := regular.high
    rcases regular.rot with rot | rot | rot | rot <;> omega
  have cells (col row : Fin btPieceWidth) :
      Cell.decode ((pieceQuads p).getD (8 * col + row) (0, 0, 0, 0)) = p.cells col row := by
    rw [getD_pieceQuads]
    exact Cell.decode_encodeSquare _
  unfold readPiece
  refine reads_i32_cons (fitsI32_small (by omega) (by omega)) ?_
  rw [PieceKind.fromId_id]
  refine reads_i32_cons x (reads_i32_cons y (reads_i32_cons color (Reads.cons ?_)))
  refine reads_i32_cons orientation (reads_i32_cons orientations (reads_i32_cons state ?_))
  simp only [rot, if_neg accepted]
  have read := (reads_quads fits).map fun quads => ({
    kind := p.kind, x := p.x, y := p.y, color := p.color, rot := p.rot
    orientation := p.orientation, orientations := p.orientations, state := p.state
    cells := fun col row => Cell.decode (quads.getD (8 * col + row) (0, 0, 0, 0)) } : Piece)
  simp only [cells] at read
  exact read

theorem reads_current {g : Game} (fits : g.Fits) (regular : g.Regular) :
    Reads readCurrent (pieceWords g.current) g.current := by
  unfold readCurrent
  cases current : g.current with
  | none => exact reads_flag_cons (c := false) (Reads.pure _)
  | some p =>
    exact reads_flag_cons (c := true)
      ((reads_piece (fits.current p current) (regular.current p current)).map some)

theorem reads_token (t : WeaponToken) : Reads readToken [(t.index : Int)] t := by
  have small := t.index_lt
  unfold readToken
  refine reads_i32_cons (fitsI32_small (by omega) (by omega)) ?_
  rw [WeaponToken.fromIndex_index]
  exact Reads.pure t

theorem reads_pending {g : Game} (few : g.pending.length ≤ 1024) :
    Reads readPending g.pendingWords g.pending := by
  have read := Reads.times (r := readToken) (e := fun t => [(t.index : Int)])
    (l := g.pending) fun t _ => reads_token t
  unfold readPending pendingWords
  refine Reads.cons ?_
  rw [if_pos (by omega), Int.toNat_natCast]
  rwa [← List.map_eq_flatMap] at read

theorem reads_swap {g : Game} (fits : g.Fits) (regular : g.Regular) :
    Reads (readSwap 1120) (swapWords g.pendingBoard) g.pendingBoard := by
  unfold readSwap
  cases swap : g.pendingBoard with
  | none => exact Reads.cons (Reads.pure _)
  | some cells =>
    exact Reads.cons ((reads_i32s (regular.pendingBoard cells swap)
      (fits.pendingBoard cells swap)).map some)

/-! ## The whole game -/

/-- A board with another's squares and its flags is that board. -/
theorem board_restamped {b c : Board} (grid : b.toGrid = c.toGrid)
    (newFill : b.newFill = c.newFill) :
    { b with
      active := c.active, upside := c.upside, computer := c.computer, idiot := c.idiot
      reason := c.reason } = c := by
  obtain ⟨_, _, _, _, _, _, _⟩ := b
  subst grid newFill
  rfl

theorem Regular.boardLen {g : Game} (regular : g.Regular) :
    (g.board.width * g.board.height * 4).toNat = 1120 := by
  rw [regular.board.width, regular.board.height]
  rfl

theorem exportBoard_fits {g : Game} (fits : g.Fits) : ∀ v ∈ g.exportBoard, FitsI32 v := by
  intro v mem
  rw [exportBoard_eq] at mem
  obtain ⟨y, -, mem⟩ := List.mem_flatMap.mp mem
  obtain ⟨x, -, mem⟩ := List.mem_flatMap.mp mem
  obtain ⟨tag, a, b, hidden⟩ := quadFits_encodeSquare (fits.squares x y)
  simp only [squareWords, List.mem_cons, List.not_mem_nil, or_false] at mem
  rcases mem with rfl | rfl | rfl | rfl
  · exact tag
  · exact a
  · exact b
  · exact hidden

theorem exportArsenal_fits {g : Game} (fits : g.Fits) : ∀ v ∈ g.exportArsenal, FitsI32 v := by
  intro v mem
  rw [exportArsenal_eq] at mem
  obtain ⟨i, -, mem⟩ := List.mem_flatMap.mp mem
  simp only [slotWords, List.mem_cons, List.not_mem_nil, or_false] at mem
  rcases mem with rfl | rfl
  · cases g.arsenal.token i with
    | none => exact fitsI32_small (by decide) (by decide)
    | some t =>
      have small := t.index_lt
      exact fitsI32_small (by simp) (by simp; omega)
  · rw [Arsenal.quantity]
    split
    · next inside =>
      have small := fits.quantities ⟨i, inside⟩
      unfold FitsI32
      omega
    · exact fitsI32_small (by decide) (by decide)

/-- The two imports of a keyframe put the squares and the arsenal in place. -/
theorem imports_eq {g h : Game} (regular : g.Regular) (standard : h.Regular) (fits : g.Fits) :
    ∃ b : Board, b.toGrid = g.board.toGrid ∧ b.newFill = h.board.newFill ∧
      (h.importArsenal g.exportArsenal).importBoard g.exportBoard =
        { h with arsenal := g.arsenal, board := b } := by
  have wide : 0 ≤ g.board.width := by rw [regular.board.width]; decide
  have high : 0 ≤ g.board.height := by rw [regular.board.height]; decide
  have arsenal := importArsenal_exportArsenal h fits.quantities
  obtain ⟨keeps, grid⟩ := importBoard_exportBoard (g := g)
    (h := { h with arsenal := g.arsenal }) wide high
    (standard.board.width.trans regular.board.width.symm)
    (standard.board.height.trans regular.board.height.symm)
  refine ⟨_, grid, keeps.newFill, ?_⟩
  rw [arsenal, importBoard_eq]

/-- A regular game that fits comes back from its keyframe, but for its events. -/
theorem reads_snapshot {g h : Game} (regular : g.Regular) (standard : h.Regular)
    (fits : g.Fits) (few : g.pending.length ≤ 1024) :
    Reads (readGame h) g.snapshot { g with events := [] } := by
  unfold readGame snapshot boardWords
  simp only [List.append_assoc, List.cons_append, List.nil_append]
  refine Reads.cons ?_
  rw [if_neg (not_not.mpr rfl)]
  refine (reads_timers fits h).bind ((reads_score g.score).bind ?_)
  refine (reads_stream fits regular).bind ?_
  refine (reads_counts fits.weapons).bind ((reads_counts fits.remaining).bind ?_)
  refine (reads_i32s g.length_exportArsenal (exportArsenal_fits fits)).bind ?_
  refine (reads_current fits regular).bind ((reads_pending few).bind ?_)
  dsimp only
  rw [standard.boardLen]
  refine (reads_swap fits regular).bind ?_
  have length := length_standardExport regular.board.width regular.board.height
  refine (reads_i32s length (exportBoard_fits fits)).bind ?_
  refine (reads_counts fits.active).bind ?_
  refine reads_flag_cons (reads_flag_cons (reads_flag_cons (Reads.cons ?_)))
  refine Reads.cons (Reads.cons ?_)
  -- what is left is the value that `restore` commits
  have sized : Regular { h with
      x := g.x, y := g.y, defX := g.defX, defY := g.defY, deltaY := g.deltaY
      leftX := g.leftX, rightX := g.rightX, baseDropTime := g.baseDropTime
      fastDropTime := g.fastDropTime, dropTime := g.dropTime, slideTime := g.slideTime
      dropping := g.dropping, sliding := g.sliding, phase := g.phase
      dropAccum := g.dropAccum, slideAccum := g.slideAccum, paused := g.paused
      hatterAccum := g.hatterAccum, slickAccum := g.slickAccum, slickDir := g.slickDir
      inBazaar := g.inBazaar, linesTilBaz := g.linesTilBaz
      score := g.score, pieces := g.pieces, rng := g.rng, weapons := g.weapons
      remaining := g.remaining } :=
    ⟨standard.board, regular.pieces, standard.current, standard.pendingBoard⟩
  obtain ⟨b, grid, newFill, imported⟩ := imports_eq regular sized fits
  have board := board_restamped grid
    (newFill.trans (standard.board.newFill.trans regular.board.newFill.symm))
  have lockSeq : asU64 (asI64 g.lockSeq) = g.lockSeq := asU64_asI64 fits.lockSeq
  have lockHash : asU32 g.lockHash = g.lockHash := asU32_of_lt fits.lockHash
  rw [imported, lockSeq, lockHash, asI16_of_fits fits.reason]
  dsimp only
  rw [board]
  exact Reads.pure _

theorem restore_snapshot {g h : Game} (regular : g.Regular) (standard : h.Regular)
    (fits : g.Fits) (few : g.pending.length ≤ 1024) :
    h.restore g.snapshot = (true, { g with events := [] }) := by
  unfold restore
  rw [(reads_snapshot regular standard fits few).run]

/-! ## Bytes -/

/-- Words in range survive the trip through bytes. -/
theorem wordsOfBytes_flatMap {ws : List Int} (fits : ∀ v ∈ ws, FitsI64 v) :
    wordsOfBytes ws.length (ws.flatMap i64Bytes) = ws := by
  induction ws with
  | nil => rfl
  | cons w ws ih =>
    obtain ⟨first, rest⟩ := List.forall_mem_cons.mp fits
    have eight := length_i64Bytes w
    rw [List.length_cons, List.flatMap_cons, wordsOfBytes, List.take_left' eight,
      List.drop_left' eight, i64OfBytes_i64Bytes first, ih rest]

theorem restoreBytes_flatMap (h : Game) {ws : List Int} (fits : ∀ v ∈ ws, FitsI64 v) :
    h.restoreBytes (ws.flatMap i64Bytes) = h.restore ws := by
  have length := length_flatMap_const length_i64Bytes ws
  unfold restoreBytes
  rw [length, if_neg (by omega), Nat.mul_div_cancel _ (by decide), wordsOfBytes_flatMap fits]

theorem fitsI64_flag (b : Bool) : FitsI64 (flag b) := by
  cases b <;> exact (fitsI32_small (by decide) (by decide)).fitsI64

theorem fitsI64_code (p : Phase) : FitsI64 p.code := by
  cases p <;> exact (fitsI32_small (by decide) (by decide)).fitsI64

theorem timerWords_fit {g : Game} (fits : g.Fits) : ∀ v ∈ g.timerWords, FitsI64 v := by
  have word (v : Int) (mem : v ∈ _) : FitsI64 v := (fits.words v mem).fitsI64
  simp only [List.mem_cons, List.not_mem_nil, or_false, forall_eq_or_imp, forall_eq] at word
  simp only [timerWords, List.mem_cons, List.not_mem_nil, or_false, forall_eq_or_imp, forall_eq,
    fitsI64_flag, fitsI64_code, word, and_self]

theorem streamWords_fit {g : Game} (fits : g.Fits) :
    ∀ v ∈ streamWords g.pieces g.rng, FitsI64 v := by
  intro v mem
  rw [streamWords, List.cons_append, List.mem_cons, List.mem_append, List.mem_map] at mem
  rcases mem with state | ⟨i, -, bits⟩ | tail
  · rw [state]
    exact fitsI64_asI64 _
  · rw [← bits]
    exact fitsI64_asI64 _
  · simp only [List.mem_cons, List.not_mem_nil, or_false] at tail
    rcases tail with rfl | rfl | rfl
    · exact (fits.words _ (by simp)).fitsI64
    · exact fitsI64_flag _
    · exact (fits.words _ (by simp)).fitsI64

theorem pieceWords_fit {g : Game} (fits : g.Fits) (regular : g.Regular) :
    ∀ v ∈ pieceWords g.current, FitsI64 v := by
  have small {v : Int} (low : -1000 ≤ v) (high : v ≤ 1000) : FitsI64 v :=
    (fitsI32_small low high).fitsI64
  cases current : g.current with
  | none => exact List.forall_mem_singleton.mpr (small (by decide) (by decide))
  | some p =>
    have word (v : Int) (mem : v ∈ _) : FitsI64 v :=
      ((fits.current p current).words v mem).fitsI64
    simp only [List.mem_cons, List.not_mem_nil, or_false, forall_eq_or_imp, forall_eq] at word
    obtain ⟨low, high⟩ := p.kind.id_bounds
    have one : FitsI64 1 := small (by decide) (by decide)
    have kind : FitsI64 p.kind.id := small (by omega) (by omega)
    have rot : FitsI64 p.rot := by
      rcases (regular.current p current).rot with rot | rot | rot | rot <;> rw [rot] <;>
        exact small (by decide) (by decide)
    simp only [pieceWords, List.forall_mem_append]
    refine ⟨?_, ?_⟩
    · simp only [List.mem_cons, List.not_mem_nil, or_false, forall_eq_or_imp, forall_eq, word,
        kind, rot, one, and_self]
    · intro v mem
      obtain ⟨q, quad, mem⟩ := List.mem_flatMap.mp mem
      obtain ⟨tag, a, b, hidden⟩ := mem_pieceQuads (fits.current p current) q quad
      simp only [quadWords, List.mem_cons, List.not_mem_nil, or_false] at mem
      rcases mem with rfl | rfl | rfl | rfl
      · exact tag.fitsI64
      · exact a.fitsI64
      · exact b.fitsI64
      · exact hidden.fitsI64

theorem pendingWords_fit {g : Game} (few : g.pending.length ≤ 1024) :
    ∀ v ∈ g.pendingWords, FitsI64 v := by
  refine List.forall_mem_cons.mpr ⟨?_, ?_⟩
  · unfold FitsI64
    omega
  · intro v mem
    obtain ⟨t, -, rfl⟩ := List.mem_map.mp mem
    have small := t.index_lt
    exact (fitsI32_small (by omega) (by omega)).fitsI64

theorem swapWords_fit {g : Game} (fits : g.Fits) : ∀ v ∈ swapWords g.pendingBoard, FitsI64 v := by
  cases swap : g.pendingBoard with
  | none =>
    exact List.forall_mem_singleton.mpr (fitsI32_small (by decide) (by decide)).fitsI64
  | some cells =>
    exact List.forall_mem_cons.mpr ⟨(fitsI32_small (by decide) (by decide)).fitsI64,
      fun v mem => (fits.pendingBoard cells swap v mem).fitsI64⟩

theorem counts_fit {f : WeaponToken → Int} (fits : ∀ t, FitsI32 (f t)) :
    ∀ v ∈ WeaponToken.all.map f, FitsI64 v := by
  intro v mem
  obtain ⟨t, -, rfl⟩ := List.mem_map.mp mem
  exact (fits t).fitsI64

theorem boardWords_fit {g : Game} (fits : g.Fits) : ∀ v ∈ boardWords g.board, FitsI64 v := by
  refine List.forall_mem_append.mpr ⟨counts_fit fits.active, ?_⟩
  have reason : FitsI64 g.board.reason := by
    have := fits.reason
    unfold FitsI16 FitsI64 at *
    omega
  simp only [List.mem_cons, List.not_mem_nil, or_false, forall_eq_or_imp, forall_eq,
    fitsI64_flag, reason, and_self]

theorem snapshot_fits {g : Game} (regular : g.Regular) (fits : g.Fits)
    (few : g.pending.length ≤ 1024) : ∀ v ∈ g.snapshot, FitsI64 v := by
  have version : FitsI64 keyframeVersion := (fitsI32_small (by decide) (by decide)).fitsI64
  have lockHash : FitsI64 g.lockHash := by
    have := fits.lockHash
    unfold FitsI64
    omega
  refine List.forall_mem_cons.mpr ⟨version, ?_⟩
  simp only [List.forall_mem_append]
  refine ⟨⟨⟨⟨⟨⟨⟨⟨⟨⟨⟨timerWords_fit fits, fits.totals⟩, streamWords_fit fits⟩,
    counts_fit fits.weapons⟩, counts_fit fits.remaining⟩, ?_⟩, pieceWords_fit fits regular⟩,
    pendingWords_fit few⟩, swapWords_fit fits⟩, ?_⟩, boardWords_fit fits⟩, ?_⟩
  · exact fun v mem => (exportArsenal_fits fits v mem).fitsI64
  · exact fun v mem => (exportBoard_fits fits v mem).fitsI64
  · simp only [List.mem_cons, List.not_mem_nil, or_false, forall_eq_or_imp, forall_eq,
      fitsI64_asI64, lockHash, and_self]

theorem restoreBytes_snapshotBytes {g h : Game} (regular : g.Regular) (standard : h.Regular)
    (fits : g.Fits) (few : g.pending.length ≤ 1024) :
    h.restoreBytes g.snapshotBytes = (true, { g with events := [] }) :=
  (restoreBytes_flatMap h (snapshot_fits regular fits few)).trans
    (restore_snapshot regular standard fits few)

/-- The game a client sees: the opponent's funds are hidden. -/
def concealed (g : Game) : Game := { g with score := { g.score with opFunds := 0 } }

theorem concealed_regular {g : Game} (regular : g.Regular) : g.concealed.Regular := regular

theorem concealed_fits {g : Game} (fits : g.Fits) : g.concealed.Fits := by
  refine ⟨fits.words, fits.rng, fits.weapons, fits.remaining, fits.quantities, fits.current,
    fits.pendingBoard, fits.squares, fits.active, fits.reason, ?_, fits.lockSeq, fits.lockHash⟩
  have totals := fits.totals
  have zero : FitsI64 0 := (fitsI32_small (by decide) (by decide)).fitsI64
  simp only [List.mem_cons, List.not_mem_nil, or_false, forall_eq_or_imp, forall_eq] at totals ⊢
  exact ⟨totals.1, totals.2.1, totals.2.2.1, totals.2.2.2.1, totals.2.2.2.2.1, zero⟩

theorem restoreBytes_clientKeyframeBytes {g h : Game} (regular : g.Regular)
    (standard : h.Regular) (fits : g.Fits) (few : g.pending.length ≤ 1024) :
    h.restoreBytes g.clientKeyframeBytes = (true, { g.concealed with events := [] }) :=
  restoreBytes_snapshotBytes (concealed_regular regular) standard (concealed_fits fits) few

end Game

end BattleTris
