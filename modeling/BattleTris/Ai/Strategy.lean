import BattleTris.Ai.Placement

/-!
What the computer buys and when it launches it: a queue of orders, each fired by a
trigger.
-/

namespace BattleTris

open Loop Machine

/-- The highest stack for which Swap is worth buying. -/
abbrev btSwapline : Int := 5

/-- From this price on a combo is complete. -/
abbrev btMinComboCost : Int := 750

/-- From this price on Speedy stops stacking. -/
abbrev btMaxComboCost : Int := 1250

/-- A combo order waits for the rest of its combo, and is then a launch. -/
inductive OrderKind where
  | launch
  | combo
  | canPurchase
  deriving DecidableEq

/-- An order and its triggers: the opponent's lines, the bazaars so far, and the computer's own
stack.  `-1` is no trigger. -/
structure Order where
  kind : OrderKind
  weapon : WeaponToken
  lineNo : Int
  bazaarNo : Int
  myLineNo : Int
  deriving DecidableEq

structure Strategy where
  commando : List Order
  canPurchase : WeaponToken → Bool
  canLaunch : WeaponToken → Bool
  nextWeapon : Option WeaponToken
  /-- The price of the combo so far: `-1` before the first purchase, 0 once complete. -/
  comboCost : Int
  bazaarNo : Int
  nextLaunch : Int
  weaponsBought : Nat
  rng : Rng

namespace Strategy

/-- An order fired by the opponent's lines alone. -/
def orderAt (kind : OrderKind) (weapon : WeaponToken) (lineNo : Int) : Order :=
  ⟨kind, weapon, lineNo, -1, -1⟩

/-- Everything is for sale but the spies, Meadow, Susan and Reagan; Susan from 50 lines on. -/
def new (seed : Nat) : Strategy where
  commando := [orderAt .canPurchase .susan 50]
  canPurchase := fun t => t ∉ [.ace, .condor, .ames, .meadow, .susan, .reagan]
  canLaunch := fun _ => true
  nextWeapon := none
  comboCost := -1
  bazaarNo := 0
  nextLaunch := 0
  weaponsBought := 0
  rng := .new seed

def allow (s : Strategy) (w : WeaponToken) (on : Bool) : Strategy :=
  { s with canPurchase := Function.update s.canPurchase w on }

def arm (s : Strategy) (w : WeaponToken) (on : Bool) : Strategy :=
  { s with canLaunch := Function.update s.canLaunch w on }

def queue (s : Strategy) (o : Order) : Strategy := { s with commando := s.commando ++ [o] }

/-! ## Shopping -/

def priceWeapon (w : WeaponToken) (carter : Bool) : Int :=
  let p := (weaponTable w).price
  if carter then p * 2 else p

/-- For sale, and not already ordered if it is Carter, Susan or Swap. -/
def purchaseApproved (s : Strategy) (w : WeaponToken) : Bool :=
  s.canPurchase w && !s.commando.any fun o => o.weapon = w && o.weapon ∈ [.carter, .susan, .swap]

def drawWeapon (s : Strategy) : Option WeaponToken × Strategy :=
  let (n, rng) := s.rng.randBelow 34
  (WeaponToken.fromIndex n, { s with rng := rng })

/-- What a draw comes to: a weapon to buy next, or another draw. -/
def settle (again : Strategy → Strategy) : Option WeaponToken × Strategy → Strategy
  | (some w, s) => if s.purchaseApproved w then { s with nextWeapon := some w } else again s
  | (none, s) => s

/-- Draw weapons until one may be bought. -/
def pickWeapon : Nat → Strategy → Strategy
  | 0, s => s
  | tries + 1, s => settle (pickWeapon tries) s.drawWeapon

/-- How a bought weapon is ordered: these three launch on their own. -/
def orderKind (w : WeaponToken) : OrderKind :=
  if w ∈ [.soLong, .mondale, .carter] then .launch else .combo

/-- What follows a purchase: NiceDay asks for a Reagan, Speedy for another Speedy. -/
def chain (s : Strategy) (w : WeaponToken) : Strategy :=
  let s := { s with nextWeapon := none }
  match w with
  | .niceDay =>
    let s := ((s.arm .niceDay false).allow .niceDay false).allow .reagan true
    { s with
      nextWeapon := some .reagan, nextLaunch := s.nextLaunch + 1
      comboCost := if s.comboCost ≥ btMaxComboCost then btMaxComboCost - 1 else s.comboCost }
  | .speedy =>
    if s.comboCost < btMaxComboCost then { s with nextWeapon := some .speedy } else s
  | .reagan => s.allow .reagan false
  | _ => s

/-- A combo is complete once it has cost enough, or has a Susan. -/
def complete (s : Strategy) (w : WeaponToken) : Strategy :=
  if (s.comboCost ≥ btMinComboCost ∧ s.nextWeapon = none) ∨ w = .susan then
    { s with comboCost := 0 }
  else s

/-- The books after a purchase. -/
def bought (s : Strategy) (w : WeaponToken) (price : Int) : Strategy :=
  let s := { s with
    weaponsBought := s.weaponsBought + 1
    comboCost := if s.comboCost < 0 then price else s.comboCost + price }
  let s := if w = .reagan then s.arm .niceDay true else s
  ((s.queue (orderAt (orderKind w) w s.nextLaunch)).chain w).complete w

/-- Buy the next weapon of the chain; none once there is none, or it is refused. -/
def buyNext (carter : Bool) (s : Strategy) (g : Game) : Option (Strategy × Game) :=
  match s.nextWeapon with
  | none => none
  | some w =>
    let price := priceWeapon w carter
    if price > g.score.funds then none
    else
      match g.buyWeapon w with
      | (true, g) => some (s.bought w price, g)
      | (false, _) => none

def buyChain (carter : Bool) : Nat → Strategy → Game → Strategy × Game
  | 0, s, g => (s, g)
  | n + 1, s, g =>
    match buyNext carter s g with
    | some (s, g) => buyChain carter n s g
    | none => (s, g)

/-- One round: settle on a weapon, then buy its chain, every link of which costs something.  The
flag says whether to go on. -/
def shopRound (carter : Bool) (s : Strategy) (g : Game) : Bool × Strategy × Game :=
  let picked := if s.nextWeapon = none then s.pickWeapon 256 else s
  if picked.nextWeapon = none then (false, picked, g)
  else
    let (t, g) := buyChain carter (g.score.funds.toNat + 1) picked g
    (t.weaponsBought ≠ s.weaponsBought && t.comboCost ≠ 0, t, g)

def shopRounds (carter : Bool) : Nat → Strategy → Game → Strategy × Game
  | 0, s, g => (s, g)
  | n + 1, s, g =>
    match shopRound carter s g with
    | (true, s, g) => shopRounds carter n s g
    | (false, s, g) => (s, g)

/-- Launch the members of a complete combo that may be launched. -/
def promote (s : Strategy) : Strategy :=
  if s.comboCost = 0 then
    { s with commando := s.commando.map fun o =>
        if o.kind = .combo ∧ s.canLaunch o.weapon then { o with kind := .launch } else o }
  else s

/-- Shop the bazaar, once per visit. -/
def goShopping (s : Strategy) (g : Game) : Strategy × Game :=
  let s := { s with bazaarNo := s.bazaarNo + 1 }
  let s := s.allow .swap (g.board.boardTop ≤ btSwapline)
  let (s, g) := shopRounds (g.weaponActive .carter) 256 s g
  (s.promote, g)

/-! ## Launching -/

/-- The computer never launches these. -/
def barred (w : WeaponToken) : Bool := w ∈ [.hatter, .flipOut, .speedy]

/-- A Reagan keeps the economy weapons off the market for 50 of the opponent's lines. -/
def coolDown (s : Strategy) (opLines : Int) : Strategy :=
  let resume := asI32 (opLines + 50)
  let s := (((s.allow .reagan false).allow .keating false).allow .niceDay false).arm .niceDay false
  [WeaponToken.reagan, .keating, .niceDay].foldl
    (fun s w => s.queue (orderAt .canPurchase w resume)) s

/-- The first slot with the weapon. -/
def slotOf (g : Game) (w : WeaponToken) : Option Nat :=
  (List.range btArsenalSize).find? fun slot =>
    g.arsenal.token slot = some w ∧ 0 < g.arsenal.quantity slot

def launchWeapon (s : Strategy) (g : Game) (w : WeaponToken) : Strategy × Game :=
  if barred w then (s, g)
  else
    match slotOf g w with
    | some slot =>
      let g := g.launchWeapon slot
      (if w = .reagan then s.coolDown g.score.opLines else s, g)
    | none => (s, g)

/-- An order fires when any of its triggers is met. -/
def fires (o : Order) (opLines bazaarNo top : Int) : Bool :=
  (o.lineNo > -1 ∧ o.lineNo ≤ opLines) ∨ (o.bazaarNo > -1 ∧ o.bazaarNo ≤ bazaarNo)
    ∨ (o.myLineNo > -1 ∧ o.myLineNo ≥ top)

/-- The pass over the orders: the place in the queue, and the line of the first launch. -/
structure Pass where
  i : Nat
  prevLine : Int
  strategy : Strategy
  game : Game

/-- An order later than the first launch moves with the delay of that launch. -/
def reschedule (o : Order) (prevLine opLines : Int) : Order :=
  if prevLine > -1 ∧ o.lineNo > -1 ∧ o.lineNo > prevLine then
    { o with lineNo := asI32 (o.lineNo - prevLine + opLines) }
  else o

/-- Visit the order at the place `i`: a fired one leaves the queue.  A launch is held under Mirror,
and a combo order stays. -/
def visit (opLines top : Int) (mirror : Bool) (p : Pass) : Pass :=
  match p.strategy.commando[p.i]? with
  | none => p
  | some o =>
    let o := reschedule o p.prevLine opLines
    let s := { p.strategy with commando := p.strategy.commando.set p.i o }
    let rest := { s with commando := s.commando.eraseIdx p.i }
    if fires o opLines s.bazaarNo top then
      match o.kind with
      | .launch =>
        if mirror then { p with strategy := s, i := p.i + 1 }
        else
          let prevLine := if p.prevLine = -1 ∧ o.lineNo > -1 then o.lineNo else p.prevLine
          let (s, g) := rest.launchWeapon p.game o.weapon
          { p with prevLine := prevLine, strategy := s, game := g }
      | .canPurchase => { p with strategy := rest.allow o.weapon true }
      | .combo => { p with strategy := s, i := p.i + 1 }
    else { p with strategy := s, i := p.i + 1 }

/-- Fire the orders whose trigger is met.  The pass also visits what a Reagan queues, which is at
most three orders for one visited. -/
def activateCommando (s : Strategy) (g : Game) : Strategy × Game :=
  let p := whileN (4 * s.commando.length) (fun p => p.i < p.strategy.commando.length)
    (visit g.score.opLines g.board.boardTop (g.weaponActive .mirror)) ⟨0, -1, s, g⟩
  (p.strategy, p.game)

end Strategy

end BattleTris
