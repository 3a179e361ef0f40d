import BattleTris.Core.Gliding
import BattleTris.Match.Play

/-!
Swap through the relay: both boards are captured at the launch, and each side
installs the other's at its next lock.

The immediate form of the exchange first drops each side's own Bottle and
Upbyside.  The deferred form drops the receiver's, from a board that was built
under the sender's, so the two agree only where that makes no difference
(`SwapClean`).
-/

namespace BattleTris

open Board

namespace Game

/-! ## Dropping Bottle and Upbyside -/

/-- Bottle and Upbyside forced off. -/
def released (g : Game) : Game := (g.forceWeaponOff .bottle).forceWeaponOff .upbyside

/-- Where a square of the released board was. -/
def uprightRow (upside : Bool) (y : Int) : Int := if upside then btBoardHgt - 1 - y else y

theorem isWall_flip (x y : Int) : IsWall x (btBoardHgt - 1 - y) ↔ IsWall x y := by
  unfold IsWall
  norm_num
  omega

theorem weaponUnframe_parts (g : Game) (t : WeaponToken) :
    (g.weaponUnframe t).board = g.board ∧ (g.weaponUnframe t).weapons = g.weapons := by
  cases t <;> exact ⟨rfl, rfl⟩

/-- Forcing a weapon off reverts its board effect if it is active, and clears its
flag in any case. -/
theorem forceWeaponOff_spec (g : Game) (t : WeaponToken) :
    (g.forceWeaponOff t).board =
        (if g.weaponActive t then (g.board.revertWeapon t).setActive t false else g.board) ∧
      ∀ u, (g.forceWeaponOff t).weaponActive u = if u = t then false else g.weaponActive u := by
  obtain ⟨board, weapons⟩ := weaponUnframe_parts (g.switchOff t) t
  unfold forceWeaponOff
  by_cases active : g.weaponActive t = true
  · rw [if_pos active, if_pos (show g.weapons.isActive t = true from active)]
    refine ⟨board, fun u => ?_⟩
    change ((g.switchOff t).weaponUnframe t).weapons.isActive u = _
    rw [weapons]
    exact ActiveFlags.isActive_set _ _ _ _
  · rw [if_neg active, if_neg (show ¬g.weapons.isActive t = true from active)]
    refine ⟨rfl, fun u => ?_⟩
    change g.weaponActive u = _
    split
    · next same => rw [same]; simpa using active
    · rfl

/-- Forcing Bottle off empties the wall squares. -/
theorem releaseBottle {g : Game} (standard : g.board.Standard) :
    (g.forceWeaponOff .bottle).board.Standard ∧
      ∀ x y, (g.forceWeaponOff .bottle).board.get x y =
        if g.weaponActive .bottle ∧ IsWall x y then none else g.board.get x y := by
  have walls := overwrites_setWalls none standard.width
  rw [(g.forceWeaponOff_spec .bottle).1]
  by_cases active : g.weaponActive .bottle = true
  · rw [if_pos active]
    refine ⟨(standard.keeps walls.keeps).setActive .bottle false, fun x y => ?_⟩
    rw [get_setActive, revertWeapon_bottle]
    by_cases wall : IsWall x y
    · rw [if_pos ⟨active, wall⟩]
      by_cases inside : g.board.inBounds x y = true
      · exact walls.hit x y inside wall
      · exact get_of_not_inBounds (by rw [walls.keeps.inBounds]; exact inside)
    · rw [if_neg (fun h => wall h.2), walls.miss x y wall]
  · rw [if_neg active]
    exact ⟨standard, fun x y => (if_neg (fun h => active h.1)).symm⟩

/-- Forcing Upbyside off turns the board upright. -/
theorem releaseUpbyside {g : Game} (standard : g.board.Standard) (x y : Int) :
    (g.forceWeaponOff .upbyside).board.get x y =
      g.board.get x (uprightRow (g.weaponActive .upbyside) y) := by
  rw [(g.forceWeaponOff_spec .upbyside).1]
  by_cases active : g.weaponActive .upbyside = true
  · have upright : g.board.revertWeapon .upbyside = (g.board.setUpside false).flipHoriz := by
      unfold revertWeapon
      exact if_pos (by simp [setUpside, standard.computer])
    have flipped := flipHoriz_get (b := g.board.setUpside false) standard.width standard.height x y
    rw [if_pos active, active, upright]
    exact flipped
  · have inactive : g.weaponActive .upbyside = false := by simpa using active
    rw [if_neg active, inactive]
    rfl

/-- The squares of a released board, and its flags. -/
theorem released_spec {g : Game} (standard : g.board.Standard) :
    (∀ x y, g.released.board.get x y =
      if g.weaponActive .bottle ∧ IsWall x y then none
      else g.board.get x (uprightRow (g.weaponActive .upbyside) y)) ∧
      g.released.weaponActive .bottle = false ∧ g.released.weaponActive .upbyside = false := by
  obtain ⟨standard', squares⟩ := releaseBottle standard
  have squares' := releaseUpbyside standard'
  have flags := (g.forceWeaponOff_spec .bottle).2
  have flags' := ((g.forceWeaponOff .bottle).forceWeaponOff_spec .upbyside).2
  refine ⟨fun x y => ?_, ?_, ?_⟩
  · have wall : IsWall x (uprightRow (g.weaponActive .upbyside) y) ↔ IsWall x y := by
      unfold uprightRow
      split
      · exact isWall_flip x y
      · rfl
    rw [released, squares', flags, if_neg (by decide), squares]
    simp only [wall]
  · rw [released, flags', if_neg (by decide), flags, if_pos rfl]
  · rw [released, flags', if_pos rfl]

/-! ## Installing a waiting board -/

theorem installBoard_waiting {g : Game} {cells : List Int} (waiting : g.pendingBoard = some cells) :
    g.installBoard = ({ g with pendingBoard := none }.importBoard cells).released := by
  unfold installBoard
  rw [waiting]
  rfl

/-- The installed board is the sender's, released by the receiver's flags. -/
theorem installBoard_spec {o g : Game} (sender : o.board.Standard) (standard : g.board.Standard)
    (waiting : g.pendingBoard = some o.exportBoard) :
    (∀ x y, g.installBoard.board.get x y =
      if g.weaponActive .bottle ∧ IsWall x y then none
      else o.board.get x (uprightRow (g.weaponActive .upbyside) y)) ∧
      g.installBoard.weaponActive .bottle = false ∧
      g.installBoard.weaponActive .upbyside = false := by
  obtain ⟨keeps, grid⟩ := importBoard_exportBoard (g := o) (h := { g with pendingBoard := none })
    (by rw [sender.width]; decide) (by rw [sender.height]; decide)
    (standard.width.trans sender.width.symm) (standard.height.trans sender.height.symm)
  have flags (t : WeaponToken) :
      (importBoard { g with pendingBoard := none } o.exportBoard).weaponActive t =
        g.weaponActive t := by
    rw [importBoard_eq]
    rfl
  have square (x y : Int) :
      (importBoard { g with pendingBoard := none } o.exportBoard).board.get x y =
        o.board.get x y := by
    unfold Board.get
    rw [grid]
  obtain ⟨squares, bottle, upbyside⟩ := released_spec (standard.keeps keeps)
  rw [installBoard_waiting waiting]
  refine ⟨fun x y => ?_, bottle, upbyside⟩
  rw [squares, flags, flags, square]

/-! ## The deferred form against the immediate one -/

/-- `g'` holds the squares that the immediate exchange of `g` with `o` gives it, and
neither Bottle nor Upbyside. -/
def Exchanged (g o g' : Game) : Prop :=
  (∀ x y, g'.board.get x y = (g.swapBoardWith o).1.board.get x y) ∧
    g'.weaponActive .bottle = false ∧ g'.weaponActive .upbyside = false

/-- Where the sender `o` at the launch and the receiver `g` at the install differ in
Bottle, the sender's wall squares are empty; where they differ in Upbyside, the
sender's board is its own mirror image, walls that both drop apart. -/
def SwapClean (o g : Game) : Prop :=
  (g.weaponActive .bottle ≠ o.weaponActive .bottle →
    ∀ x y, IsWall x y → o.board.get x y = none) ∧
  (g.weaponActive .upbyside ≠ o.weaponActive .upbyside →
    ∀ x y, ¬(g.weaponActive .bottle ∧ o.weaponActive .bottle ∧ IsWall x y) →
      o.board.get x (btBoardHgt - 1 - y) = o.board.get x y)

/-- Dropping walls and turning, by the receiver's flags or by the sender's, is the
same on the squares `L` exactly when `L` does not show the difference. -/
theorem release_agree_iff {L : Int → Int → Option Cell} {rb ru ob ou : Bool} :
    (∀ x y, (if rb ∧ IsWall x y then none else L x (uprightRow ru y)) =
      if ob ∧ IsWall x y then none else L x (uprightRow ou y)) ↔
    (rb ≠ ob → ∀ x y, IsWall x y → L x y = none) ∧
      (ru ≠ ou → ∀ x y, ¬(rb ∧ ob ∧ IsWall x y) → L x (btBoardHgt - 1 - y) = L x y) := by
  have upright_upright (u : Bool) (y : Int) : uprightRow u (uprightRow u y) = y := by
    cases u
    · rfl
    · change btBoardHgt - 1 - (btBoardHgt - 1 - y) = y
      omega
  have upright_wall (u : Bool) (x y : Int) : IsWall x (uprightRow u y) ↔ IsWall x y := by
    cases u
    · rfl
    · exact isWall_flip x y
  constructor
  · intro agree
    -- a wall square that one side drops is empty on the other
    have walls (apart : rb ≠ ob) (x y : Int) (wall : IsWall x y) : L x y = none := by
      cases rb <;> cases ob
      · exact absurd rfl apart
      · have here := agree x (uprightRow ru y)
        rw [if_neg (by simp), if_pos ⟨rfl, (upright_wall ru x y).mpr wall⟩,
          upright_upright] at here
        exact here
      · have here := agree x (uprightRow ou y)
        rw [if_pos ⟨rfl, (upright_wall ou x y).mpr wall⟩, if_neg (by simp),
          upright_upright] at here
        exact here.symm
      · exact absurd rfl apart
    refine ⟨walls, fun turned x y visible => ?_⟩
    by_cases wall : IsWall x y
    · by_cases same : rb = ob
      · -- neither side drops its walls
        have kept : rb = false := by
          subst same
          simpa [wall] using visible
        have kept' : ob = false := same ▸ kept
        have here := agree x y
        rw [if_neg (by simp [kept]), if_neg (by simp [kept'])] at here
        cases ru <;> cases ou
        · exact absurd rfl turned
        · exact here.symm
        · exact here
        · exact absurd rfl turned
      · rw [walls same x y wall, walls same x _ ((isWall_flip x y).mpr wall)]
    · have here := agree x y
      rw [if_neg (fun h => wall h.2), if_neg (fun h => wall h.2)] at here
      cases ru <;> cases ou
      · exact absurd rfl turned
      · exact here.symm
      · exact here
      · exact absurd rfl turned
  · rintro ⟨walls, turned⟩ x y
    have rows (visible : ¬(rb ∧ ob ∧ IsWall x y)) :
        L x (uprightRow ru y) = L x (uprightRow ou y) := by
      by_cases same : ru = ou
      · rw [same]
      · have mirror := turned same x y visible
        cases ru <;> cases ou
        · exact absurd rfl same
        · exact mirror.symm
        · exact mirror
        · exact absurd rfl same
    by_cases wall : IsWall x y
    · cases rb <;> cases ob
      · rw [if_neg (by simp), if_neg (by simp)]
        exact rows (by simp)
      · rw [if_neg (by simp), if_pos ⟨rfl, wall⟩]
        exact walls (by decide) x _ ((upright_wall ru x y).mpr wall)
      · rw [if_pos ⟨rfl, wall⟩, if_neg (by simp)]
        exact (walls (by decide) x _ ((upright_wall ou x y).mpr wall)).symm
      · rw [if_pos ⟨rfl, wall⟩, if_pos ⟨rfl, wall⟩]
    · rw [if_neg (fun h => wall h.2), if_neg (fun h => wall h.2)]
      exact rows fun h => wall h.2.2

/-- The lock that installs a waiting board exchanges as the immediate form does
exactly when the board is clean. -/
theorem exchanged_place_iff {o r h : Game} {p : Piece} (sender : o.board.Standard)
    (regular : h.Regular) (waiting : h.pendingBoard = some o.exportBoard) (locks : h.Locks p) :
    Exchanged r o (h.place false) ↔ SwapClean o (h.installing p) := by
  have held := (h.installing_held p).2.trans waiting
  obtain ⟨squares, bottle, upbyside⟩ :=
    installBoard_spec sender (regular.installing p).board held
  obtain ⟨board, weapons⟩ := place_installs locks
  have flag (t : WeaponToken) :
      (h.place false).weaponActive t = (h.installing p).installBoard.weaponActive t := by
    unfold weaponActive
    rw [weapons]
  have immediate (x y : Int) : (r.swapBoardWith o).1.board.get x y = o.released.board.get x y := rfl
  unfold Exchanged SwapClean
  rw [board, flag, flag, bottle, upbyside]
  simp only [immediate, squares, (released_spec sender).1, and_true]
  exact release_agree_iff

/-- A square of the sender's Bottle that is still filled betrays the exchange. -/
theorem not_exchanged_of_wall {g o g' : Game} (sender : o.board.Standard)
    (curse : o.weaponActive .bottle = true) {x y : Int} (wall : IsWall x y)
    (filled : g'.board.get x y ≠ none) : ¬Exchanged g o g' := by
  intro exchanged
  have square : g'.board.get x y = o.released.board.get x y := exchanged.1 x y
  rw [(released_spec sender).1, if_pos ⟨curse, wall⟩] at square
  exact filled square

/-- The waiting board is still there after the action. -/
def Waiting (g : Game) (a : Action) : Prop := (g.act a).pendingBoard = g.pendingBoard

end Game

/-- Swap is launched between two reachable games by a side that no Mirror stops, and
side `x` then plays on until the tick that takes the waiting board.  That tick ends in a
lock, and the lock leaves `x` with what the immediate exchange would have given it
exactly when the opponent's board is clean. -/
theorem deferred_swap_iff {v : Versus}
    (reached : ∀ y, (v.game y).Reached Game.StandardSwap) {s : Side}
    (clear : (v.game s).weaponActive .mirror = false) (x : Side) {actions : List Game.Action}
    {g : Game} (run : Run Game.Waiting Game.act
      ((Versus.relayEvent s v (.weaponLaunched .swap)).game x) actions g) {dtMs : Int}
    (taken : (g.tick dtMs).pendingBoard ≠ g.pendingBoard) :
    ∃ acc p, ((g.tickWeapons dtMs).slideAt acc).Locks p ∧
      g.tick dtMs = ((g.tickWeapons dtMs).slideAt acc).place false ∧
      (Game.Exchanged (v.game x) (v.game x.other) (g.tick dtMs) ↔
        Game.SwapClean (v.game x.other) (((g.tickWeapons dtMs).slideAt acc).installing p)) := by
  have board (y : Side) : (v.game y).board.Standard := (reached y).regular.board
  have length := Game.length_standardExport (board x.other).width (board x.other).height
  have launched := Versus.game_relayEvent_swap clear x
  -- the board waits through the whole run
  have kept : g.Regular ∧ g.pendingBoard = some (v.game x.other).exportBoard := by
    refine run.invariant (P := fun g =>
      g.Regular ∧ g.pendingBoard = some (v.game x.other).exportBoard) ?_ ?_
    · rintro k a ⟨regular, waiting⟩ still
      refine ⟨regular.act fun cells same => ?_, still.trans waiting⟩
      subst same
      have arrived : some cells = some (v.game x.other).exportBoard := still.trans waiting
      exact ⟨v.game x.other, (board x.other).width, (board x.other).height,
        Option.some.inj arrived⟩
    · rw [launched]
      exact ⟨(reached x).regular.queueBoardSwap length, rfl⟩
  obtain ⟨regular, waiting⟩ := kept
  rcases g.tick_cases dtMs with glides | ⟨acc, p, locks, placed⟩
  · exact absurd (Game.of_still Game.pendingBoard (fun _ => rfl) glides) taken
  · refine ⟨acc, p, locks, placed, ?_⟩
    have held := (Game.of_still Game.pendingBoard (fun _ => rfl)
      (g.tickWeapons_still dtMs)).trans waiting
    have settled : ((g.tickWeapons dtMs).slideAt acc).Regular := regular.tickWeapons dtMs
    rw [placed]
    exact Game.exchanged_place_iff (board x.other) settled held locks

/-- Two fresh games, swapped by side A; side B's first lock takes A's board. -/
theorem deferred_swap_iff_fresh :
    let g := ((Versus.relayEvent .a (.new 7 3) (.weaponLaunched .swap)).game .b).tick 20000
    ∃ acc p, ((g.tickWeapons 150).slideAt acc).Locks p ∧
      g.tick 150 = ((g.tickWeapons 150).slideAt acc).place false ∧
      (Game.Exchanged ((Versus.new 7 3).game .b) ((Versus.new 7 3).game Side.b.other)
        (g.tick 150) ↔
        Game.SwapClean ((Versus.new 7 3).game Side.b.other)
          (((g.tickWeapons 150).slideAt acc).installing p)) := by
  have reached := Versus.games_reached_new Game.StandardSwap 7 3
  have clear : ((Versus.new 7 3).game .a).weaponActive .mirror = false := by decide +kernel
  have waits : Game.Waiting ((Versus.relayEvent .a (.new 7 3) (.weaponLaunched .swap)).game .b)
      (.tick 20000) := by
    unfold Game.Waiting
    decide +kernel
  exact deferred_swap_iff reached clear .b (Run.nil.snoc waits) (by decide +kernel)

/-- Side A locks a piece with Bottle on and launches Swap.  Side B, which has no
Bottle, keeps a wall square of A's board after its next lock. -/
theorem deferred_swap_leaves_walls :
    let a := (((Game.new 7).receiveWeapon .bottle).tick 20000).tick 150
    let b := Game.new 3
    let v : Versus := { Versus.new 7 3 with a := a, b := b }
    let b' := (((Versus.relayEvent .a v (.weaponLaunched .swap)).game .b).tick 20000).tick 150
    b'.weaponActive .bottle = false ∧ b'.board.get 0 10 = some Cell.struct ∧
      ¬Game.Exchanged b a b' := by
  intro a b v b'
  have wall : b'.weaponActive .bottle = false ∧ b'.board.get 0 10 = some Cell.struct := by
    decide +kernel
  have curse : a.weaponActive .bottle = true := by decide +kernel
  have regular : a.Regular := (((Game.regular_new 7).receiveWeapon .bottle).tick 20000).tick 150
  exact ⟨wall.1, wall.2, Game.not_exchanged_of_wall regular.board curse (x := 0) (y := 10)
    (by decide) (by rw [wall.2]; decide)⟩

end BattleTris
