import BattleTris.Match.Flight

/-!
The hard-drop bonus over whole runs of a game.

The score of a game is the sum of its drop bonuses.  A piece earns one at most, since a fast
drop stays engaged until the lock; the amount counts the rows of the board below the piece's
origin, which Upbyside and Fall Out let leave the board.
-/

namespace BattleTris

namespace Game

/-- The action moves the score. -/
def Earns (g : Game) (a : Action) : Prop := (g.act a).score.score ≠ g.score.score

/-- Along the run of `actions` from `g` the score never goes down, no action adds more than the
height of the board to it, and two actions that move it move it for different pieces. -/
structure FairBonus (g : Game) (actions : List Action) : Prop where
  bounded : ∀ before a, before ++ [a] <+: actions →
    (before.foldl act g).score.score ≤ ((before.foldl act g).act a).score.score ∧
      ((before.foldl act g).act a).score.score ≤ (before.foldl act g).score.score + btBoardHgt
  once : ∀ before a between c, before ++ a :: between ++ [c] <+: actions →
    Earns (before.foldl act g) a → Earns ((before ++ a :: between).foldl act g) c →
      (before.foldl act g).lockSeq < ((before ++ a :: between).foldl act g).lockSeq

/-- A hard drop that newly engages under Upbyside or Fall Out finds the origin of the piece
between the ceiling and the floor. -/
def InRows (g : Game) (a : Action) : Prop :=
  a = .input .beginDrop → g.CanEngage →
    g.weaponActive .upbyside = true ∨ g.weaponActive .fallOut = true →
      0 ≤ g.y ∧ g.y ≤ btBoardHgt

/-- Only a newly engaged fast drop moves the score. -/
theorem Flown.score_act {g : Game} (flown : g.Flown) {a : Action} (swap : g.StandardSwap a) :
    (g.act a).score.score = g.score.score + g.bonusOf a ∨
      (g.act a).score.score = g.score.score := by
  rcases flown.inPlay with ended | aloft
  · exact .inr (act_over ended a).2.1
  · rcases act_follows flown.grounded aloft a (flown.act swap).grounded with
      follows | ⟨-, same, -⟩
    · exact .inl follows.score
    · exact .inr same

/-- An engaging hard drop adds the rows from the origin to the floor. -/
theorem score_beginDrop {g : Game} (can : g.CanEngage) :
    (g.act (.input .beginDrop)).score.score = g.score.score + (btBoardHgt - g.y) := by
  rcases g.dropFor_cases (btBoardHgt - g.y) with ⟨-, dropped⟩ | ⟨cannot, -⟩
  · change (g.dropFor _).score.score = _
    rw [dropped]
  · exact absurd can cannot

/-- With neither weapon the origin of a piece in play is on the board. -/
theorem Flown.bonus_bounds {g : Game} (flown : g.Flown) (a : Action) (inRows : g.InRows a)
    (aloft : g.Aloft) : 0 ≤ g.bonusOf a ∧ g.bonusOf a ≤ btBoardHgt := by
  have rows (can : g.CanEngage) (drop : a = .input .beginDrop) :
      0 ≤ g.y ∧ g.y ≤ btBoardHgt := by
    by_cases armed : g.weaponActive .upbyside = true ∨ g.weaponActive .fallOut = true
    · exact inRows drop can armed
    · obtain ⟨upright, shut⟩ := not_or.mp armed
      have frame := flown.geared.frame
      rw [show g.weapons.isActive .upbyside = false from Bool.eq_false_of_not_eq_true upright]
        at frame
      have down : g.deltaY = 1 := congrArg (·.2.2.1) frame
      have low := aloft.floor (Bool.eq_false_of_not_eq_true shut)
      exact ⟨aloft.level down, low.trans (by decide)⟩
  have tall : (0 : Int) ≤ btBoardHgt := by decide
  cases a with
  | input i =>
    cases i with
    | beginDrop =>
      change 0 ≤ (if g.CanEngage then btBoardHgt - g.y else 0) ∧
        (if g.CanEngage then btBoardHgt - g.y else 0) ≤ btBoardHgt
      split
      · next can =>
        have within := rows can rfl
        omega
      · decide
    | aiDrop =>
      change 0 ≤ (if g.CanEngage then btBoardHgt / 2 else 0) ∧
        (if g.CanEngage then btBoardHgt / 2 else 0) ≤ btBoardHgt
      split <;> decide
    | _ => exact ⟨le_rfl, tall⟩
  | _ => exact ⟨le_rfl, tall⟩

/-- What earns a bonus engages the fast drop of a piece that was falling at leisure. -/
theorem Flown.engages_of_earns {g : Game} (flown : g.Flown) {a : Action}
    (swap : g.StandardSwap a) (earns : g.Earns a) :
    g.CanEngage ∧ (g.act a).dropTime = (g.act a).fastDropTime ∧ (g.act a).phase ≠ .over := by
  have follows : Follows g a (g.act a) := by
    rcases flown.inPlay with ended | aloft
    · exact absurd (act_over ended a).2.1 earns
    · rcases act_follows flown.grounded aloft a (flown.act swap).grounded with
        follows | ⟨-, same, -⟩
      · exact follows
      · exact absurd same earns
  have bonus : g.bonusOf a ≠ 0 := by
    intro none
    have score := follows.score
    rw [none, add_zero] at score
    exact earns score
  have alive := follows.aloft.alive
  have engaged (n : Int) (can : g.CanEngage) :
      (g.dropFor n).dropTime = (g.dropFor n).fastDropTime := by
    rcases g.dropFor_cases n with ⟨-, dropped⟩ | ⟨cannot, -⟩
    · rw [dropped]
    · exact absurd can cannot
  have can (n : Int) (some : (if g.CanEngage then n else 0) ≠ 0) : g.CanEngage := by
    by_contra cannot
    exact some (if_neg cannot)
  cases a with
  | input i =>
    cases i with
    | beginDrop => exact ⟨can _ bonus, engaged _ (can _ bonus), alive⟩
    | aiDrop => exact ⟨can _ bonus, engaged _ (can _ bonus), alive⟩
    | _ => exact absurd rfl bonus
  | _ => exact absurd rfl bonus

/-- The bonus is earned once a piece and bounded, along a run of any inputs of the player and
the relay under any weapons, exactly when every hard drop that newly engages under Upbyside
or Fall Out does so with the origin of the piece on the board. -/
theorem fairBonus_iff {g h : Game} {actions : List Action} (reached : g.Reached StandardSwap)
    (run : Run StandardSwap act g actions h) :
    FairBonus g actions ↔
      ∀ before a, before ++ [a] <+: actions → InRows (before.foldl act g) a := by
  have flown (before : List Action) (start : before <+: actions) :
      (before.foldl act g).Flown := by
    obtain ⟨after, rfl⟩ := start
    exact run.split.1.invariant (fun _ _ flown swap => flown.act swap) reached.flown
  have swap {before : List Action} {a : Action} (start : before ++ [a] <+: actions) :
      (before.foldl act g).StandardSwap a := by
    obtain ⟨after, rfl⟩ := start
    rw [List.append_assoc] at run
    exact run.allowed
  constructor
  · intro fair before a start drop can _
    subst drop
    have bounded := fair.bounded before _ start
    rw [score_beginDrop can] at bounded
    omega
  · intro inRows
    refine ⟨fun before a start => ?_, fun before a between c start earns again => ?_⟩
    · have here := flown before ((List.prefix_append before [a]).trans start)
      rcases here.inPlay with ended | aloft
      · rw [(act_over ended a).2.1]
        exact ⟨le_rfl, Int.le_add_of_nonneg_right (by decide)⟩
      · have bounds := here.bonus_bounds a (inRows before a start) aloft
        rcases here.score_act (swap start) with earned | same
        · rw [earned]
          omega
        · rw [same]
          exact ⟨le_rfl, Int.le_add_of_nonneg_right (by decide)⟩
    · have first : before ++ [a] <+: actions :=
        (show before ++ [a] <+: before ++ a :: between ++ [c] by simp).trans start
      have here := flown before ((List.prefix_append before [a]).trans first)
      have there := flown (before ++ a :: between) ((List.prefix_append _ [c]).trans start)
      obtain ⟨-, engaged, alive⟩ := here.engages_of_earns (swap first) earns
      obtain ⟨can, -⟩ := there.engages_of_earns (swap start) again
      have played : Run StandardSwap act ((before.foldl act g).act a) between
          ((before ++ a :: between).foldl act g) := by
        obtain ⟨after, rfl⟩ := start
        rw [show before ++ a :: between ++ [c] ++ after =
          (before ++ [a]) ++ (between ++ (c :: after)) by simp] at run
        have inner := run.split.2.split.1
        simpa only [List.foldl_append, List.foldl_cons, List.foldl_nil] using inner
      -- from one bonus to the other the fast drop stays engaged, unless the piece locks
      obtain ⟨-, locked | ⟨-, -, kept, -⟩⟩ := descends_run (here.act (swap first)) alive played
      · exact (lockSeq_act_le _ a).trans_lt locked
      · exact absurd (kept engaged) can.2

theorem fairBonus_iff_dropped :
    FairBonus (new 7) [.input .beginDrop] ↔
      ∀ before a, before ++ [a] <+: [.input .beginDrop] → InRows (before.foldl act (new 7)) a :=
  fairBonus_iff (reached_new StandardSwap 7) (Run.nil.snoc nofun)

/-- The second piece of a game, risen to the ceiling under Upbyside. -/
def risen : Game :=
  ((((new 8).act (.input (.receiveWeapon 3))).act (.tick 20000)).act (.tick 150)).act (.tick 20000)

theorem risen_reached : risen.Reached StandardSwap := by
  have run : Run StandardSwap act (new 8)
      [.input (.receiveWeapon 3), .tick 20000, .tick 150, .tick 20000] risen :=
    (((Run.nil.snoc nofun).snoc nofun).snoc nofun).snoc nofun
  exact ⟨8, _, run⟩

set_option maxRecDepth 100000 in
theorem risen_above : risen.CanEngage ∧ risen.y = -1 := by
  decide +kernel

/-- A hard drop above the ceiling earns more than the height of the board. -/
theorem bonus_above_ceiling :
    ¬∀ (g h : Game) (actions : List Action), g.Reached StandardSwap →
      Run StandardSwap act g actions h → FairBonus g actions := by
  intro claim
  have reached := risen_reached
  obtain ⟨can, above⟩ := risen_above
  generalize risen = g at reached can above
  have fair := claim g _ [.input .beginDrop] reached (Run.nil.snoc nofun)
  have bounded := (fair.bounded [] (.input .beginDrop) List.prefix_rfl).2
  change (g.act (.input .beginDrop)).score.score ≤ g.score.score + btBoardHgt at bounded
  rw [score_beginDrop can, above] at bounded
  omega

end Game

end BattleTris
