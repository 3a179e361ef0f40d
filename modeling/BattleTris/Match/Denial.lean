import BattleTris.Lib.Binary64
import BattleTris.Match.Derived

/-!
The piece stream under the weapons that deny pieces.

Four weapons edit one table of keep probabilities and undo their edits on expiry.  The
table is the one that the active weapons call for as long as no weapon expires from under
another that holds the same entries.
-/

namespace BattleTris

open Loop

/-! ## The table -/

/-- Which entries of the table are edited: the long piece, the box, the other standard
pieces with the weird ones, the die, and the four-by-four. -/
structure Denials where
  long : Bool
  box : Bool
  weird : Bool
  dice : Bool
  four : Bool
  deriving DecidableEq

namespace Denials

def table (d : Denials) (i : Fin 19) : Float :=
  if i.val = 5 then bif d.long then 0.0 else btDefaultKeepProb
  else if i.val = 7 then bif d.box then 0.0 else btDefaultKeepProb
  else if 1 ≤ i.val ∧ i.val ≤ 6 then bif d.weird then 0.0 else btDefaultKeepProb
  else if i.val = 8 then bif d.dice then 0.0 else btDieKeepProb
  else if 10 ≤ i.val ∧ i.val ≤ 16 then bif d.weird then btDefaultKeepProb else 0.0
  else if i.val = 17 then bif d.four then btDefaultKeepProb else 0.0
  else PieceManager.new.keepProb i

def on (d : Denials) : WeaponToken → Denials
  | .fearedWeird => { d with long := true, box := true, weird := true }
  | .fourByFour => { d with box := true, four := true }
  | .noDice => { d with dice := true }
  | .soLong => { d with long := true }
  | _ => d

def off (d : Denials) : WeaponToken → Denials
  | .fearedWeird => { d with long := false, box := false, weird := false }
  | .fourByFour => { d with box := false, four := false }
  | .noDice => { d with dice := false }
  | .soLong => { d with long := false }
  | _ => d

/-- The edits that the active weapons call for. -/
def ofActive (f : ActiveFlags) : Denials where
  long := f.isActive .fearedWeird || f.isActive .soLong
  box := f.isActive .fearedWeird || f.isActive .fourByFour
  weird := f.isActive .fearedWeird
  dice := f.isActive .noDice
  four := f.isActive .fourByFour

theorem table_new : PieceManager.new.keepProb = (ofActive .new).table := by
  funext i
  fin_cases i <;> rfl

theorem table_weaponOn {pm : PieceManager} {d : Denials} (table : pm.keepProb = d.table)
    (t : WeaponToken) : (pm.weaponOn t).keepProb = (d.on t).table := by
  obtain ⟨keepProb, hapOn, broken, oldPiece⟩ := pm
  obtain rfl : keepProb = d.table := table
  cases t with
  | fearedWeird | fourByFour | noDice | soLong =>
    funext i
    fin_cases i <;> rfl
  | _ => rfl

theorem table_weaponOff {pm : PieceManager} {d : Denials} (table : pm.keepProb = d.table)
    (t : WeaponToken) : (pm.weaponOff t).keepProb = (d.off t).table := by
  obtain ⟨keepProb, hapOn, broken, oldPiece⟩ := pm
  obtain rfl : keepProb = d.table := table
  cases t with
  | fearedWeird | fourByFour | noDice | soLong =>
    funext i
    fin_cases i <;> rfl
  | _ => rfl

/-- A weapon turning on takes its entries, whoever held them. -/
theorem on_ofActive (f : ActiveFlags) (t : WeaponToken) :
    (ofActive f).on t = ofActive (f.set t true) := by
  cases t <;> simp [ofActive, on]

/-- The weapons that expire together leave the entries of the others alone, unless
Feared Weird is on one side of the line and a holder of its entries on the other. -/
theorem offs_ofActive (f : ActiveFlags) (expires : WeaponToken → Bool)
    (active : ∀ t, expires t = true → f.isActive t = true)
    (together : ∀ t, t = .soLong ∨ t = .fourByFour → f.isActive .fearedWeird = true →
      f.isActive t = true → (expires .fearedWeird = expires t)) :
    WeaponToken.all.foldl (fun d t => if expires t then d.off t else d) (ofActive f) =
      ofActive ⟨fun t => if expires t then 0 else f.counts t⟩ := by
  have after (t : WeaponToken) :
      ActiveFlags.isActive ⟨fun t => if expires t then 0 else f.counts t⟩ t
        = (f.isActive t && !expires t) := by
    unfold ActiveFlags.isActive
    cases spent : expires t <;> simp [spent]
  have weird := active .fearedWeird
  have four := active .fourByFour
  have long := active .soLong
  have withLong := together .soLong (.inl rfl)
  have withFour := together .fourByFour (.inr rfl)
  simp only [WeaponToken.all, List.foldl_cons, List.foldl_nil, off, ite_self]
  unfold ofActive
  simp only [after]
  clear after active together
  generalize f.isActive .fearedWeird = w at *
  generalize f.isActive .fourByFour = b at *
  generalize f.isActive .noDice = d at *
  generalize f.isActive .soLong = l at *
  generalize expires .fearedWeird = ew at *
  generalize expires .fourByFour = eb at *
  generalize expires .noDice = ed at *
  generalize expires .soLong = el at *
  revert w b d l ew eb ed el
  decide

end Denials

/-! ## Draws -/

namespace PieceManager

/-- The seven standard kinds. -/
def standardKinds : List PieceKind :=
  [.el, .revEl, .slideRight, .slideLeft, .long, .plug, .box]

/-- `create` draws: it neither forces a happy piece nor repeats, and the sampling ends. -/
def Draws (pm : PieceManager) (rng : Rng) : Prop :=
  pm.hapOn = 0 ∧ (pm.broken = true → rng.lrand48.1 % btBrokenProb = 0) ∧
    ∃ kept, tryPow pm.roll 48 (if pm.broken then rng.lrand48.2 else rng) = .inl kept

/-- A kept roll has an id in the table, and its probability is not zero. -/
theorem roll_kept {pm : PieceManager} {rng : Rng} {kept : Int × Rng}
    (rolled : pm.roll rng = .inl kept) :
    ∃ k : Nat, k < 18 ∧ kept.1 = k + 1 ∧ pm.keepProb (Fin.ofNat _ (k + 1)) ≠ 0.0 := by
  unfold roll at rolled
  dsimp only at rolled
  split at rolled
  · next smaller =>
    cases rolled
    refine ⟨_, rng.randBelow_lt (n := btMaxPieces) (by decide), rfl, fun zero => ?_⟩
    rw [zero] at smaller
    refine Binary64.not_lt_zero ?_ smaller
    exact Binary64.positive_div (Binary64.positive_ofNat _) (Binary64.positive_ofNat _)
  · cases rolled

theorem create_of_draws {pm : PieceManager} {rng : Rng} (draws : pm.Draws rng) (x y : Int) :
    ∃ k : Nat, k < 18 ∧ (pm.create rng x y).1.kind = (PieceKind.fromId (k + 1)).getD .el ∧
      pm.keepProb (Fin.ofNat _ (k + 1)) ≠ 0.0 := by
  obtain ⟨unforced, gate, kept, ended⟩ := draws
  obtain ⟨k, small, id, probable⟩ := (tryPow_invariant (P := fun _ => True)
    (Q := fun kept : Int × Rng => ∃ k : Nat, k < 18 ∧ kept.1 = k + 1 ∧
      pm.keepProb (Fin.ofNat _ (k + 1)) ≠ 0.0)
    (fun _ _ _ rolled => roll_kept rolled) (fun _ _ _ _ => trivial) 48 trivial).1 kept ended
  have chosen : (pm.choose rng).1 = kept.1 := by
    unfold choose
    rw [if_pos unforced]
    split
    · next broken =>
      rw [if_pos broken] at ended
      dsimp only
      rw [if_pos (gate broken)]
      unfold draw
      rw [ended]
    · next whole =>
      rw [if_neg whole] at ended
      unfold draw
      rw [ended]
  refine ⟨k, small, ?_, probable⟩
  unfold create
  dsimp only
  rw [chosen, id]
  split <;> rfl

end PieceManager

/-! ## Games -/

namespace Game

/-- A weapon that runs out when `n` lines are counted. -/
def expires (g : Game) (n : Int) (t : WeaponToken) : Bool :=
  g.remaining t ≠ 0 ∧ g.remaining t ≤ n

/-- Feared Weird and a holder of its entries, both active, expire with the same count
or stay active together. -/
def Spares (g : Game) (n : Int) : Prop :=
  ∀ t, t = .soLong ∨ t = .fourByFour → g.weapons.isActive .fearedWeird = true →
    g.weapons.isActive t = true → (g.remaining .fearedWeird ≤ n ↔ g.remaining t ≤ n)

/-- What counting one weapon down does to the flags and the stream. -/
theorem tickDuration_parts (n : Int) (g : Game) (t : WeaponToken) :
    (tickDuration n g t).weapons = (if g.expires n t then g.weapons.set t false else g.weapons) ∧
      (tickDuration n g t).pieces =
        (if g.expires n t then g.pieces.weaponOff t else g.pieces) ∧
      ∀ u, u ≠ t → (tickDuration n g t).remaining u = g.remaining u := by
  have others (h : Game) (left : Int) (u : WeaponToken) (apart : u ≠ t) :
      (h.setRemaining t left).remaining u = h.remaining u := Function.update_of_ne apart ..
  unfold tickDuration expires
  by_cases spent : g.remaining t = 0
  · simp [spent]
  rw [if_neg spent]
  dsimp only
  by_cases last : g.remaining t ≤ n
  · have none : max (g.remaining t - n) 0 = 0 := by omega
    obtain ⟨-, weapons, pieces, remaining, -, -⟩ :=
      weaponUnframe_kept ((g.setRemaining t (max (g.remaining t - n) 0)).switchOff t) t
    rw [if_pos none, if_pos (by simp [spent, last]), if_pos (by simp [spent, last])]
    refine ⟨weapons, pieces, fun u apart => ?_⟩
    refine Eq.trans ?_ (others g (max (g.remaining t - n) 0) u apart)
    exact congrFun remaining u
  · have more : max (g.remaining t - n) 0 ≠ 0 := by omega
    rw [if_neg more, if_neg (by simp [last]), if_neg (by simp [last])]
    exact ⟨rfl, rfl, others g _⟩

/-- A count of lines expires each weapon on its own duration. -/
theorem tickDurations_parts (n : Int) {ts : List WeaponToken} (nodup : ts.Nodup) {g : Game}
    {d : Denials} (table : g.pieces.keepProb = d.table) :
    (ts.foldl (tickDuration n) g).weapons =
        ⟨fun u => if u ∈ ts ∧ g.expires n u then 0 else g.weapons.counts u⟩ ∧
      (ts.foldl (tickDuration n) g).pieces.keepProb =
        (ts.foldl (fun d t => if g.expires n t then d.off t else d) d).table := by
  induction ts generalizing g d with
  | nil => exact ⟨by simp, table⟩
  | cons t ts ih =>
    obtain ⟨fresh, nodup⟩ := List.nodup_cons.mp nodup
    obtain ⟨weapons, pieces, others⟩ := tickDuration_parts n g t
    have edited : (tickDuration n g t).pieces.keepProb =
        (if g.expires n t then d.off t else d).table := by
      rw [pieces]
      split
      · exact Denials.table_weaponOff table t
      · exact table
    have later (u : WeaponToken) (mem : u ∈ ts) :
        (tickDuration n g t).expires n u = g.expires n u := by
      have apart : u ≠ t := fun same => fresh (same ▸ mem)
      unfold expires
      rw [others u apart]
    obtain ⟨flags, entries⟩ := ih nodup edited
    refine ⟨?_, ?_⟩
    · rw [List.foldl_cons, flags, weapons]
      refine congrArg ActiveFlags.mk (funext fun u => ?_)
      by_cases mem : u ∈ ts
      · have apart : u ≠ t := fun same => fresh (same ▸ mem)
        rw [later u mem]
        simp only [mem, List.mem_cons, or_true, true_and]
        split
        · rfl
        · split
          · exact Function.update_of_ne apart ..
          · rfl
      · rw [if_neg (by simp [mem])]
        rcases eq_or_ne u t with rfl | apart
        · split
          · next spent => simp [ActiveFlags.set, spent]
          · next lasts => simp [lasts]
        · simp only [List.mem_cons, mem, apart, or_self, false_and, if_false]
          split
          · exact Function.update_of_ne apart ..
          · rfl
    · rw [List.foldl_cons, entries, List.foldl_cons]
      refine congrArg Denials.table (List.foldl_ext _ _ _ fun d u mem => ?_)
      rw [later u mem]

/-- The table is the one that the active weapons call for. -/
structure Denying (g : Game) : Prop where
  timed : g.Timed
  table : g.pieces.keepProb = (Denials.ofActive g.weapons).table

namespace Denying

variable {g h : Game}

theorem of_gears (denying : g.Denying) (same : h.gears = g.gears) : h.Denying := by
  refine ⟨denying.timed.of_gears same, ?_⟩
  rw [pieces_of_gears same, weapons_of_gears same]
  exact denying.table

theorem tickDurations (denying : g.Denying) {n : Int} (spares : g.Spares n) :
    (g.tickDurations n).Denying := by
  have timed := denying.timed
  refine ⟨tickDurations_walk Timed.tickDuration timed n, ?_⟩
  have nodup : WeaponToken.all.Nodup := by decide
  obtain ⟨weapons, entries⟩ := tickDurations_parts n nodup denying.table
  have together (t : WeaponToken) (holder : t = .soLong ∨ t = .fourByFour)
      (weird : g.weapons.isActive .fearedWeird = true) (active : g.weapons.isActive t = true) :
      g.expires n .fearedWeird = g.expires n t := by
    have left := timed.left .fearedWeird (by decide) weird
    have left' := timed.left t (by rcases holder with rfl | rfl <;> decide) active
    have same := spares t holder weird active
    unfold expires
    simp [ne_of_gt left, ne_of_gt left', same]
  have edits := Denials.offs_ofActive g.weapons (g.expires n) (fun t spent => by
    have lasting : g.remaining t ≠ 0 := by
      unfold expires at spent
      simp only [decide_eq_true_eq] at spent
      exact spent.1
    exact timed.geared.lasting t lasting) together
  rw [edits] at entries
  refine entries.trans (congrArg (fun f => (Denials.ofActive f).table) ?_)
  refine Eq.trans ?_ weapons.symm
  simp [WeaponToken.mem_all]

/-- A weapon turning on adds its edits. -/
theorem applyWeaponOn (denying : g.Denying) {t : WeaponToken} (other : t ≠ .bottle) :
    (g.applyWeaponOn t).Denying := by
  refine ⟨denying.timed.applyWeaponOn t, ?_⟩
  rw [applyWeaponOn_other other]
  obtain ⟨-, weapons, pieces, -, -, -⟩ := weaponFrame_kept
    ((g.switchOn t).2.streamOn t) t (g.weapons.isActive t)
  rw [weapons, pieces]
  have edited := Denials.table_weaponOn denying.table t
  rw [Denials.on_ofActive] at edited
  exact edited

/-- Bottle and Upbyside have no entries in the table. -/
theorem unaffected {t : WeaponToken} (swapped : t = .bottle ∨ t = .upbyside) (f : ActiveFlags)
    (on : Bool) : Denials.ofActive (f.set t on) = Denials.ofActive f := by
  rcases swapped with rfl | rfl <;> simp [Denials.ofActive]

theorem switchOn_bottle (denying : g.Denying) : (g.switchOn .bottle).2.Denying := by
  refine ⟨denying.timed.switchOn_bottle, ?_⟩
  obtain ⟨pieces, -, -, -, weapons⟩ := switchOn_kept g .bottle
  rw [pieces, weapons, unaffected (.inl rfl)]
  exact denying.table

theorem forceWeaponOff (denying : g.Denying) {t : WeaponToken}
    (swapped : t = .bottle ∨ t = .upbyside) : (g.forceWeaponOff t).Denying := by
  refine ⟨denying.timed.forceWeaponOff t, ?_⟩
  obtain ⟨-, weapons, pieces, -, -, -⟩ := weaponUnframe_kept (g.switchOff t) t
  unfold Game.forceWeaponOff
  split
  · change (g.applyWeaponOff t).pieces.keepProb =
      (Denials.ofActive (g.applyWeaponOff t).weapons).table
    unfold Game.applyWeaponOff
    rw [weapons, pieces]
    change (g.pieces.weaponOff t).keepProb = (Denials.ofActive (g.weapons.set t false)).table
    rw [unaffected swapped, Denials.table_weaponOff denying.table]
    rcases swapped with rfl | rfl <;> rfl
  · exact denying.table

end Denying

theorem gearSteps_denying : GearSteps Denying Spares where
  respects := Denying.of_gears
  guarded spares same := by
    unfold Spares
    rw [weapons_of_gears same, remaining_of_gears same]
    exact spares
  queues ts denying := ⟨gearSteps_timed.queues ts denying.timed, denying.table⟩
  counts _ spares denying := denying.tickDurations spares
  arms other denying := denying.applyWeaponOn other
  walls denying := denying.switchOn_bottle
  disarms swapped denying := denying.forceWeaponOff swapped
  draws denying := ⟨gearSteps_timed.draws denying.timed, (create_kept ..).2.trans denying.table⟩
  raises denying := ⟨gearSteps_timed.raises denying.timed, denying.table⟩

theorem denying_new (seed : Nat) : (new seed).Denying :=
  have blank : (blank seed).Denying := ⟨timed_blank seed, Denials.table_new⟩
  gearSteps_denying.spawn blank

/-- Every count of lines in the action spares the entries that an active weapon holds. -/
def SparesHeld (g : Game) (a : Action) : Prop := ∀ n h, g.Counts a n h → h.Spares n

theorem denied_kinds {k : Nat} (small : k < 18) :
    ((PieceKind.fromId (k + 1)).getD .el = .long → k = 4) ∧
      ((PieceKind.fromId (k + 1)).getD .el = .die → k = 7) ∧
      ((PieceKind.fromId (k + 1)).getD .el = .box → k = 6) ∧
      ((PieceKind.fromId (k + 1)).getD .el ∈ PieceManager.standardKinds → k < 7) := by
  revert k
  decide

/-- After a run whose counts spare the held entries, no draw yields a denied piece, and
the table is the initial one once the weapons that edit it are off. -/
theorem piece_denial {seed : Nat} {actions : List Action} {g : Game}
    (run : Run SparesHeld act (new seed) actions g) :
    (∀ rng x y, g.pieces.Draws rng →
      (g.weapons.isActive .soLong = true → (g.pieces.create rng x y).1.kind ≠ .long) ∧
      (g.weapons.isActive .noDice = true → (g.pieces.create rng x y).1.kind ≠ .die) ∧
      (g.weapons.isActive .fourByFour = true → (g.pieces.create rng x y).1.kind ≠ .box) ∧
      (g.weapons.isActive .fearedWeird = true →
        (g.pieces.create rng x y).1.kind ∉ PieceManager.standardKinds)) ∧
      ((∀ t ∈ [WeaponToken.fearedWeird, .soLong, .noDice, .fourByFour],
        g.weapons.isActive t = false) → g.pieces.keepProb = PieceManager.new.keepProb) := by
  have denying : g.Denying :=
    run.invariant (fun h a held spares => gearSteps_denying.act held a spares) (denying_new seed)
  have table := denying.table
  refine ⟨fun rng x y draws => ?_, fun quiet => ?_⟩
  · obtain ⟨k, small, kind, probable⟩ := PieceManager.create_of_draws draws x y
    obtain ⟨long, die, box, standard⟩ := denied_kinds small
    rw [kind]
    rw [table] at probable
    refine ⟨fun active is => ?_, fun active is => ?_, fun active is => ?_, fun active is => ?_⟩
    · rw [long is] at probable
      exact probable (by simp [Denials.table, Denials.ofActive, active])
    · rw [die is] at probable
      exact probable (by simp [Denials.table, Denials.ofActive, active])
    · rw [box is] at probable
      exact probable (by simp [Denials.table, Denials.ofActive, active])
    · have low := standard is
      refine probable ?_
      have held : ∀ k < 7, ∀ d : Denials, d.long = true → d.box = true → d.weird = true →
          d.table (Fin.ofNat _ (k + 1)) = 0.0 := by
        intro k low d long box weird
        interval_cases k <;> simp [Denials.table, long, box, weird]
      exact held k low _ (by simp [Denials.ofActive, active]) (by simp [Denials.ofActive, active])
        active
  · have off (t : WeaponToken)
        (mem : t ∈ [WeaponToken.fearedWeird, .soLong, .noDice, .fourByFour]) :
        g.weapons.isActive t = ActiveFlags.new.isActive t := by
      rw [quiet t mem, ActiveFlags.isActive_new]
    rw [table, Denials.table_new]
    unfold Denials.ofActive
    rw [off .fearedWeird (by simp), off .soLong (by simp), off .noDice (by simp),
      off .fourByFour (by simp)]

theorem piece_denial_no_dice :
    (∀ rng x y, ((new 7).act (.input (.receiveWeapon 22))).pieces.Draws rng →
      ((new 7).act (.input (.receiveWeapon 22))).weapons.isActive .noDice = true →
        (((new 7).act (.input (.receiveWeapon 22))).pieces.create rng x y).1.kind ≠ .die) ∧
      ((∀ t ∈ [WeaponToken.fearedWeird, .soLong, .noDice, .fourByFour],
        ((new 7).act (.input (.receiveWeapon 22))).weapons.isActive t = false) →
          ((new 7).act (.input (.receiveWeapon 22))).pieces.keepProb =
            PieceManager.new.keepProb) := by
  have run : Run SparesHeld act (new 7) ([] ++ [.input (.receiveWeapon 22)])
      ((new 7).act (.input (.receiveWeapon 22))) := Run.nil.snoc fun _ _ counts => nomatch counts
  obtain ⟨draws, table⟩ := piece_denial run
  exact ⟨fun rng x y drawn => (draws rng x y drawn).2.1, table⟩

/-- A board with three complete rows. -/
def threeRows : Game :=
  { blank 0 with
    board := forRange 4 7 (fun y b => forRange 0 10 (fun x b =>
      b.set x y (some (Cell.color 2))) b) (Board.standard false) }

/-- Feared Weird and So Long turn on with the first lock, which also brings a board.  If
the second lock clears its rows, Feared Weird expires from under So Long. -/
def weirdExpiry (cells : List Int) : List Action :=
  [.input (.receiveWeapon 0), .input (.receiveWeapon 21), .queueBoardSwap cells,
    .tick 20000, .tick 150, .tick 20000, .tick 150]

theorem standardSwap_weirdExpiry {other : Game} (width : other.board.width = btBoardWth)
    (height : other.board.height = btBoardHgt) (g : Game) :
    ∀ a ∈ weirdExpiry other.exportBoard, StandardSwap g a := by
  intro a mem cells same
  subst same
  have swap : cells = other.exportBoard := by simpa [weirdExpiry] using mem
  exact ⟨other, width, height, swap⟩

/-- So Long is active, and the stream draws a long piece. -/
def drawsLong (g : Game) : Bool :=
  g.weapons.isActive .soLong && decide (g.pieces.hapOn = 0) && !g.pieces.broken &&
    (tryPow g.pieces.roll 48 g.rng).isLeft &&
    decide ((g.pieces.create g.rng g.defX g.defY).1.kind = .long)

theorem drawn_of_drawsLong {g : Game} (drawn : drawsLong g = true) :
    g.weapons.isActive .soLong = true ∧ g.pieces.Draws g.rng ∧
      (g.pieces.create g.rng g.defX g.defY).1.kind = .long := by
  unfold drawsLong at drawn
  simp only [Bool.and_eq_true, decide_eq_true_eq, Bool.not_eq_true'] at drawn
  obtain ⟨⟨⟨⟨active, unforced⟩, whole⟩, ended⟩, kind⟩ := drawn
  refine ⟨active, ⟨unforced, fun broken => ?_, ?_⟩, kind⟩
  · rw [whole] at broken
    cases broken
  · rw [whole]
    exact Sum.isLeft_iff.mp ended

theorem long_drawn_under_so_long :
    ∃ g, Run StandardSwap act (new 9) (weirdExpiry threeRows.exportBoard) g ∧
      g.weapons.isActive .soLong = true ∧ g.pieces.Draws g.rng ∧
      (g.pieces.create g.rng g.defX g.defY).1.kind = .long := by
  have drawn : drawsLong ((weirdExpiry threeRows.exportBoard).foldl act (new 9)) = true := by
    decide +kernel
  have sizes : (Board.standard false).Keeps threeRows.board :=
    Board.keeps_forRange (fun y b => Board.keeps_forRange (fun x b => b.keeps_set x y _) b) _
  have swap := @standardSwap_weirdExpiry threeRows sizes.width sizes.height
  exact ⟨_, Run.of_foldl swap, drawn_of_drawsLong drawn⟩

end Game

end BattleTris
