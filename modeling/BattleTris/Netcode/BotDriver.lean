import BattleTris.Ai.BuyPlan
import BattleTris.Ai.Placement
import BattleTris.Netcode.Reconcile

/-!
The bot at its end of the link.

Each tick it decides once, from what the last snapshot said and from its local game, and sends
nothing while the server owes it an ack.  That makes its runs runs of the disciplined client.
-/

namespace BattleTris

open Numbered

/-! ## The policy -/

structure SyncState where
  done : Bool
  idleTimedOut : Bool
  acked : Nat
  lastSent : Nat
  authBaz : Bool
  oppBaz : Bool
  localBaz : Bool
  bought : Bool

inductive BotAction where
  | stop
  | waitAck
  | waitBazaar
  | shop
  | play
  deriving DecidableEq

def decideAction (s : SyncState) : BotAction :=
  if s.done ∨ s.idleTimedOut then .stop
  else if s.acked < s.lastSent then .waitAck
  else if s.authBaz ∧ s.localBaz ∧ ¬s.bought then .shop
  else if s.authBaz ∨ s.oppBaz ∨ s.localBaz then .waitBazaar
  else .play

/-- `RESYNC_INTERVAL`, in milliseconds. -/
def resyncInterval : Nat := 2000

/-- Whether a resync may be asked for now, and when one was last. -/
def resyncDue (lastSent : Option Nat) (now : Nat) : Bool × Option Nat :=
  let due := lastSent.all fun t => resyncInterval ≤ now - t
  (due, if due then some now else lastSent)

/-! ## The weapon to launch -/

/-- The first slot with a weapon of a class. -/
def findClass (arsenal : List Int) (want : WClass) : Option Nat :=
  arsenal.findIdx? fun t => (tokenFromIndex t).map weaponClass = some want

/-- A spy first, garbage on a high opponent, and otherwise harass, drain, garbage. -/
def launchChoice (arsenal : List Int) (spyActive oppHigh : Bool) : Option Nat :=
  ((if spyActive then none else findClass arsenal .spy) <|>
    (if oppHigh then findClass arsenal .garbage else none)) <|>
    [WClass.harass, .economy, .garbage].findSome? (findClass arsenal)

/-! ## The driver -/

def staleTicks : Nat := 875

def launchIntervalTicks : Int := 120

def launchRetryTicks : Int := 30

def spyFreshTicks : Nat := 300

/-- What the bot keeps beside its predictor.  The last field is the history: the times it asked for
a resync. -/
structure MatchState where
  placeInterval : Int
  weaponsOn : Bool
  launched : Nat
  liveTicks : Nat
  cooldown : Int
  inBazaar : Bool
  oppInBazaar : Bool
  bazaarBought : Bool
  launchCooldown : Int
  spyFresh : Nat
  oppHigh : Bool
  done : Bool
  idleTicks : Nat
  resyncLastSent : Option Nat
  acked : Nat
  asked : List Nat

def MatchState.new (placeInterval : Int) (weaponsOn : Bool) : MatchState where
  placeInterval := placeInterval
  weaponsOn := weaponsOn
  launched := 0
  liveTicks := 0
  cooldown := placeInterval
  inBazaar := false
  oppInBazaar := false
  bazaarBought := false
  launchCooldown := launchIntervalTicks
  spyFresh := 0
  oppHigh := false
  done := false
  idleTicks := 0
  resyncLastSent := none
  acked := 0
  asked := []

/-- The bot and its link. -/
structure Bot where
  state : MatchState
  wire : Wire

namespace Bot

variable (x : Side)

/-- Predict an input, and forward what the predictor hands back. -/
def sendInput (w : Wire) (i : Input) : Wire := w.act x (.predict i)

/-- Rotate until the piece faces the target. -/
def turnTo (orientation : Int) : Nat → Wire → Wire
  | 0, w => w
  | n + 1, w =>
    match w.predictor.game.current with
    | some p =>
      if p.orientation ≠ orientation then turnTo orientation n (sendInput x w .rotate) else w
    | none => w

/-- Slide until the piece stands in the target column. -/
def slideTo (target : Int) : Nat → Wire → Wire
  | 0, w => w
  | n + 1, w =>
    match w.predictor.game.current with
    | some p =>
      if p.x < target then slideTo target n (sendInput x w .moveRight)
      else if p.x > target then slideTo target n (sendInput x w .moveLeft)
      else w
    | none => w

def playPiece (w : Wire) (pl : Placement) : Wire :=
  match w.predictor.game.current with
  | none => w
  | some p =>
    let w := turnTo x pl.orientation (max p.orientations 1).toNat w
    let w := slideTo x pl.x (w.predictor.game.board.width * 2).toNat w
    sendInput x w .beginDrop

/-- Buy what the plan says while there is a plan to be made, then leave. -/
def shopBazaar (s : MatchState) (w : Wire) : Wire :=
  let g := w.predictor.game
  let w :=
    if g.inBazaar ∧ s.weaponsOn then
      ((buyPlan (btArsenalSize + 1) g.score.funds g.arsenalTokens (g.weaponActive .carter)).getD
        []).foldl (fun w t => sendInput x w (.buyWeapon t.index)) w
    else w
  sendInput x w .leaveBazaar

/-- Launch a weapon when the cadence allows, if there is one worth it. -/
def launch (b : Bot) : Bot :=
  let s := b.state
  if s.weaponsOn then
    let s : MatchState := { s with launchCooldown := s.launchCooldown - 1 }
    if s.launchCooldown ≤ 0 then
      match launchChoice b.wire.predictor.game.arsenalTokens (0 < s.spyFresh) s.oppHigh with
      | some slot =>
        { state := { s with launched := s.launched + 1, launchCooldown := launchIntervalTicks }
          wire := sendInput x b.wire (.launchWeapon slot) }
      | none => { b with state := { s with launchCooldown := launchRetryTicks } }
    else { b with state := s }
  else b

/-- Place the piece when the pace allows, where `choose` says. -/
def place (choose : Board → Piece → Placement) (b : Bot) : Bot :=
  if b.state.cooldown > 0 then
    { b with state := { b.state with cooldown := b.state.cooldown - 1 } }
  else
    { state := { b.state with cooldown := b.state.placeInterval }
      wire := match b.wire.predictor.game.current with
        | some p => playPiece x b.wire (choose b.wire.predictor.game.board p)
        | none => b.wire }

def play (choose : Board → Piece → Placement) (b : Bot) : Bot :=
  let b := { b with wire := b.wire.act x (.tick 16) }
  if b.wire.predictor.game.isGameOver then b else place x choose (launch x b)

/-- The bookkeeping of a tick, before the decision. -/
def age (s : MatchState) : MatchState :=
  let s := { s with idleTicks := s.idleTicks + 1, liveTicks := s.liveTicks + 1 }
  if s.spyFresh > 0 then
    { s with spyFresh := s.spyFresh - 1, oppHigh := s.oppHigh && decide (s.spyFresh ≠ 1) }
  else s

def syncState (b : Bot) : SyncState where
  done := b.state.done
  idleTimedOut := decide (b.state.idleTicks > staleTicks)
  acked := b.state.acked
  lastSent := b.wire.predictor.inputSeq
  authBaz := b.state.inBazaar
  oppBaz := b.state.oppInBazaar
  localBaz := b.wire.predictor.game.inBazaar
  bought := b.state.bazaarBought

/-- One step of a match in progress. -/
def driveTick (choose : Board → Piece → Placement) (b : Bot) : Bot :=
  if b.state.done then b
  else
    let b := { b with state := age b.state }
    match decideAction b.syncState with
    | .stop =>
      if b.syncState.idleTimedOut then { b with state := { b.state with done := true } } else b
    | .waitAck => b
    | .waitBazaar =>
      if b.state.inBazaar ∧ b.state.bazaarBought then
        { b with wire := sendInput x b.wire .leaveBazaar }
      else b
    | .shop =>
      { state := { b.state with bazaarBought := true }, wire := shopBazaar x b.state b.wire }
    | .play => play x choose b

/-- Ask for a resync, if one is due. -/
def askResync (now : Nat) (s : MatchState) : MatchState :=
  let (due, last) := resyncDue s.resyncLastSent now
  { s with resyncLastSent := last, asked := if due then s.asked ++ [now] else s.asked }

/-- What a snapshot tells the bot before it reaches the predictor. -/
def noteSnapshot (snap : Snapshot) (s : MatchState) : MatchState :=
  { s with
    idleTicks := 0
    acked := snap.ack
    done := s.done || decide (snap.result ≠ 0)
    inBazaar := snap.you.inBazaar
    bazaarBought := s.bazaarBought && snap.you.inBazaar
    oppInBazaar := snap.opp.inBazaar }

/-- The next snapshot arrives.  `high` reads a spied board. -/
def handleSnapshot (high : List Int → Bool) (now : Nat) (b : Bot) : Bot :=
  match b.wire.downstream with
  | [] => b
  | l :: _ =>
    let snap := l.snapshot x
    let s := noteSnapshot snap b.state
    let w := b.wire.act x .receive
    let diverged := (w.predictor.onLockHash snap.lockSeq snap.lockHash).1
    let w := w.act x (.judge snap.lockSeq snap.lockHash)
    let s := if diverged then askResync now s else s
    let s :=
      if snap.result = 0 ∧ w.predictor.game.isGameOver then askResync now s else s
    let s :=
      match snap.spyBoard with
      | some grid => { s with oppHigh := high grid, spyFresh := spyFreshTicks }
      | none => s
    ⟨s, w⟩

/-- What happens to a bot in a match: its tick with the evaluation it places by, a snapshot with
the clock, a relay event, or a step of the server. -/
inductive Act where
  | tick (choose : Board → Piece → Placement)
  | snapshot (high : List Int → Bool) (now : Nat)
  | event (i : Input)
  | server (a : WireAct)

def act (b : Bot) : Act → Bot
  | .tick choose => driveTick x choose b
  | .snapshot high now => handleSnapshot x high now b
  | .event i => { b with wire := b.wire.act x (.event i) }
  | .server a => { b with wire := b.wire.act x a }

/-- A step that is the server's. -/
def ofServer : WireAct → Bool
  | .predict _ | .tick _ | .event _ | .judge _ _ | .receive => false
  | _ => true

/-- The clock runs forward, and the server sends keyframes that can be restored. -/
def Allowed (b : Bot) : Act → Prop
  | .snapshot _ now => ∀ t ∈ b.state.asked, t ≤ now
  | .server a => ofServer a = true ∧ b.wire.Disciplined x a
  | _ => True

def start (seedA seedB : Nat) (placeInterval : Int) (weaponsOn : Bool) : Bot :=
  ⟨.new placeInterval weaponsOn, .start x seedA seedB⟩

/-! ## The bot is a disciplined client -/

/-- Disciplined, and it asks to leave only when nothing but purchases waits for its ack. -/
def Gated (w : Wire) (a : WireAct) : Prop :=
  w.Disciplined x a ∧
    (a = .predict .leaveBazaar → ∀ e ∈ w.predictor.unacked, isShopping e.2 = true)

/-- A client that has not read on takes the link from `w` to `w'`, with discipline. -/
structure Drives (w w' : Wire) : Prop where
  run : ∃ acts, Run (Gated x) (Wire.act x) w acts w'
  view : (w'.handshake x).view = (w.handshake x).view

variable {x : Side} {w w' w'' : Wire} {b : Bot} {i : Input}

theorem Drives.refl (w : Wire) : Drives x w w := ⟨⟨[], .nil⟩, rfl⟩

theorem Drives.trans (first : Drives x w w') (second : Drives x w' w'') : Drives x w w'' := by
  obtain ⟨⟨acts, run⟩, view⟩ := first
  obtain ⟨⟨more, run'⟩, view'⟩ := second
  exact ⟨⟨acts ++ more, run.append run'⟩, view'.trans view⟩

theorem view_predict (w : Wire) (i : Input) :
    ((w.act x (.predict i)).handshake x).view = (w.handshake x).view := by
  change Mark.mk w.seen (w.predictor.predict i).2.youBazaar
    (w.predictor.predict i).2.oppBazaar = ⟨w.seen, w.predictor.youBazaar, w.predictor.oppBazaar⟩
  have flags : (w.predictor.predict i).2.books.2.2 =
      (w.predictor.youBazaar, w.predictor.oppBazaar) := by
    rcases w.predictor.predict_cases i with ⟨-, books⟩ | ⟨⟨-, books⟩, -⟩
    · rw [books]
      rfl
    · rw [books]
  obtain ⟨you, opp⟩ := Prod.mk.inj flags
  rw [you, opp]

/-- Any legal input but a request to leave may be sent at any time. -/
theorem drives_sendInput (w : Wire) (i : Input) (legal : isLegalClientInput i = true)
    (stays : i ≠ .leaveBazaar) : Drives x w (sendInput x w i) :=
  ⟨⟨[] ++ [.predict i], Run.nil.snoc ⟨⟨legal, fun leaves => absurd leaves stays⟩,
    fun same => absurd (WireAct.predict.inj same) stays⟩⟩, view_predict w i⟩

theorem drives_turnTo (orientation : Int) (n : Nat) (w : Wire) :
    Drives x w (turnTo x orientation n w) := by
  induction n generalizing w with
  | zero => exact .refl w
  | succ n ih =>
    unfold turnTo
    split
    · split
      · exact (drives_sendInput w .rotate rfl nofun).trans (ih _)
      · exact .refl w
    · exact .refl w

theorem drives_slideTo (target : Int) (n : Nat) (w : Wire) :
    Drives x w (slideTo x target n w) := by
  induction n generalizing w with
  | zero => exact .refl w
  | succ n ih =>
    unfold slideTo
    split
    · split
      · exact (drives_sendInput w .moveRight rfl nofun).trans (ih _)
      · split
        · exact (drives_sendInput w .moveLeft rfl nofun).trans (ih _)
        · exact .refl w
    · exact .refl w

theorem drives_playPiece (w : Wire) (pl : Placement) : Drives x w (playPiece x w pl) := by
  unfold playPiece
  split
  · exact .refl w
  · exact ((drives_turnTo _ _ _).trans (drives_slideTo _ _ _)).trans
      (drives_sendInput _ .beginDrop rfl nofun)

theorem drives_play (choose : Board → Piece → Placement) (b : Bot) :
    Drives x b.wire (play x choose b).wire := by
  have launched (b : Bot) : Drives x b.wire (launch x b).wire := by
    unfold launch
    dsimp only
    split
    · split
      · split
        · exact drives_sendInput _ _ rfl nofun
        · exact .refl _
      · exact .refl _
    · exact .refl _
  have placed (b : Bot) : Drives x b.wire (place x choose b).wire := by
    unfold place
    split
    · exact .refl _
    · dsimp only
      split
      · exact drives_playPiece _ _
      · exact .refl _
  have ticked : Drives x b.wire (b.wire.act x (.tick 16)) := by
    refine ⟨⟨[] ++ [.tick 16], Run.nil.snoc ⟨trivial, nofun⟩⟩, ?_⟩
    have books : (b.wire.predictor.tick 16).books = b.wire.predictor.books :=
      Predictor.noteLock_books _
    have flags := congrArg (fun books => Mark.mk b.wire.seen books.2.2.1 books.2.2.2) books
    exact flags
  unfold play
  dsimp only
  split
  · exact ticked
  · exact ticked.trans ((launched ⟨b.state, b.wire.act x (.tick 16)⟩).trans (placed _))

/-- Nothing waits for an ack but purchases. -/
def Idle (w : Wire) : Prop := ∀ e ∈ w.predictor.unacked, isShopping e.2 = true

/-- A shop in the bazaar asks to leave when it has bought, and not twice. -/
theorem drives_leave (inside : w.predictor.youBazaar = true) (idle : Idle w) :
    Drives x w (sendInput x w .leaveBazaar) := by
  have none (e : Nat × Input) (mem : e ∈ w.predictor.unacked) : e.2 ≠ .leaveBazaar := by
    intro leaves
    have shops := idle e mem
    rw [leaves] at shops
    cases shops
  exact ⟨⟨[] ++ [.predict .leaveBazaar],
    Run.nil.snoc ⟨⟨rfl, fun _ => ⟨inside, none⟩⟩, fun _ => idle⟩⟩, view_predict w _⟩

theorem idle_sendInput (idle : Idle w) (shops : isShopping i = true) :
    Idle (sendInput x w i) := by
  intro e mem
  change e ∈ (w.predictor.predict i).2.books.2.1 at mem
  rcases w.predictor.predict_cases i with ⟨-, books⟩ | ⟨⟨-, books⟩, -⟩
  · rw [books] at mem
    exact idle e mem
  · rw [books] at mem
    rcases List.mem_append.mp mem with old | new
    · exact idle e old
    · rw [List.mem_singleton.mp new]
      exact shops

theorem drives_shopBazaar (s : MatchState) (inside : w.predictor.youBazaar = true)
    (idle : Idle w) : ∃ w', shopBazaar x s w = sendInput x w' .leaveBazaar ∧
      Drives x w (sendInput x w' .leaveBazaar) := by
  have bought (ts : List WeaponToken) :
      Drives x w (ts.foldl (fun w t => sendInput x w (.buyWeapon t.index)) w) ∧
        Idle (ts.foldl (fun w t => sendInput x w (.buyWeapon t.index)) w) := by
    refine Loop.foldl_invariant (P := fun w' => Drives x w w' ∧ Idle w')
      (fun t _ w' kept => ?_) ⟨.refl w, idle⟩
    exact ⟨kept.1.trans (drives_sendInput w' _ rfl nofun), idle_sendInput kept.2 rfl⟩
  have leaves {w' : Wire} (kept : Drives x w w' ∧ Idle w') :
      Drives x w (sendInput x w' .leaveBazaar) := by
    have still : w'.predictor.youBazaar = true := (congrArg Mark.you kept.1.view).trans inside
    exact kept.1.trans (drives_leave still kept.2)
  unfold shopBazaar
  dsimp only
  split
  · exact ⟨_, rfl, leaves (bought _)⟩
  · exact ⟨w, rfl, leaves ⟨.refl w, idle⟩⟩

/-! ## What a decision rests on -/

theorem lastSent_le_acked {s : SyncState}
    (acts : decideAction s ≠ .stop ∧ decideAction s ≠ .waitAck) : s.lastSent ≤ s.acked := by
  by_contra behind
  have late : s.acked < s.lastSent := Nat.lt_of_not_le behind
  obtain ⟨runs, free⟩ := acts
  unfold decideAction at runs free
  by_cases ended : s.done = true ∨ s.idleTimedOut = true
  · rw [if_pos ended] at runs
    exact runs rfl
  · rw [if_neg ended, if_pos late] at free
    exact free rfl

theorem acked_of_waits {s : SyncState} (waits : decideAction s = .waitAck) :
    s.acked < s.lastSent := by
  unfold decideAction at waits
  split at waits
  · cases waits
  · split at waits
    · assumption
    · split at waits
      · cases waits
      · split at waits <;> cases waits

theorem shop_inside {s : SyncState} (shops : decideAction s = .shop) :
    s.authBaz = true ∧ s.localBaz = true := by
  unfold decideAction at shops
  split at shops
  · cases shops
  · split at shops
    · cases shops
    · split at shops
      · next inside => exact ⟨inside.1, inside.2.1⟩
      · split at shops <;> cases shops

/-! ## Runs -/

/-- What a tick leaves of the state. -/
def kept (s : MatchState) : Nat × Bool × Bool × Option Nat × List Nat :=
  (s.acked, s.inBazaar, s.oppInBazaar, s.resyncLastSent, s.asked)

theorem kept_age (s : MatchState) : kept (age s) = kept s := by
  unfold age
  dsimp only
  split <;> rfl

theorem kept_driveTick (choose : Board → Piece → Placement) (b : Bot) :
    kept (driveTick x choose b).state = kept b.state := by
  have launched (b : Bot) : kept (launch x b).state = kept b.state := by
    unfold launch
    dsimp only
    split
    · split
      · split <;> rfl
      · rfl
    · rfl
  have placed (b : Bot) : kept (place x choose b).state = kept b.state := by
    unfold place
    split <;> rfl
  have played (b : Bot) : kept (play x choose b).state = kept b.state := by
    unfold play
    dsimp only
    split
    · rfl
    · exact (placed _).trans (launched _)
  have aged := kept_age b.state
  unfold driveTick
  split
  · rfl
  · dsimp only
    split
    · split <;> exact aged
    · exact aged
    · split <;> exact aged
    · exact aged
    · exact (played _).trans aged

/-- The requests for a resync keep their distance, and the last one is remembered. -/
structure Spaced (s : MatchState) : Prop where
  apart : s.asked.Pairwise fun t u => t + resyncInterval ≤ u
  last : s.resyncLastSent = s.asked.getLast?

theorem Spaced.askResync {s : MatchState} (spaced : Spaced s) {now : Nat}
    (clock : ∀ t ∈ s.asked, t ≤ now) : Spaced (askResync now s) := by
  obtain ⟨apart, last⟩ := spaced
  unfold Bot.askResync resyncDue
  dsimp only
  by_cases due : (s.resyncLastSent.all fun t => resyncInterval ≤ now - t) = true
  · rw [due, if_pos rfl, if_pos rfl]
    refine ⟨?_, List.getLast?_concat.symm⟩
    refine List.pairwise_append.mpr ⟨apart, List.pairwise_singleton _ _, fun t mem u new => ?_⟩
    rw [List.mem_singleton.mp new]
    rcases List.eq_nil_or_concat' s.asked with none | ⟨before, latest, asked⟩
    · rw [none] at mem
      cases mem
    · -- the request before this one is due, and the others are before that one
      rw [last, asked, List.getLast?_concat, Option.all_some, decide_eq_true_eq] at due
      have past := clock latest (by simp [asked])
      rw [asked] at mem apart
      obtain ⟨-, -, ordered⟩ := List.pairwise_append.mp apart
      unfold resyncInterval at due ordered ⊢
      rcases List.mem_append.mp mem with old | new
      · have order := ordered t old latest List.mem_cons_self
        omega
      · rw [List.mem_singleton.mp new]
        omega
  · rw [eq_false_of_ne_true due]
    exact ⟨apart, last⟩

/-- What holds of a bot between its steps. -/
structure Inv (x : Side) (seedA seedB : Nat) (b : Bot) : Prop where
  run : ∃ acts, Run (Gated x) (Wire.act x) (.start x seedA seedB) acts b.wire
  view : (b.wire.handshake x).view = ⟨b.state.acked, b.state.inBazaar, b.state.oppInBazaar⟩
  spaced : Spaced b.state

variable {seedA seedB : Nat}

theorem Inv.wire (inv : Inv x seedA seedB b) : b.wire.Inv x := by
  obtain ⟨acts, run⟩ := inv.run
  exact Wire.inv_of_run (run.mono fun _ _ gated => gated.1)

/-- A step that drives the link and leaves the state its acks and flags. -/
theorem Inv.drives (inv : Inv x seedA seedB b) {b' : Bot} (drives : Drives x b.wire b'.wire)
    (same : kept b'.state = kept b.state) : Inv x seedA seedB b' := by
  obtain ⟨acts, run⟩ := inv.run
  obtain ⟨⟨more, run'⟩, view⟩ := drives
  obtain ⟨acked, rest⟩ := Prod.mk.inj same
  obtain ⟨you, rest⟩ := Prod.mk.inj rest
  obtain ⟨opp, rest⟩ := Prod.mk.inj rest
  obtain ⟨last, asked⟩ := Prod.mk.inj rest
  refine ⟨⟨acts ++ more, run.append run'⟩, ?_, ?_, ?_⟩
  · rw [view, inv.view, acked, you, opp]
  · rw [asked]
    exact inv.spaced.apart
  · rw [last, asked]
    exact inv.spaced.last

/-- When the bot decides to act, everything it has sent is acked. -/
theorem Inv.caught_up (inv : Inv x seedA seedB b)
    (acts : b.syncState.lastSent ≤ b.syncState.acked) :
    b.wire.predictor.unacked = [] ∧ b.wire.upstream = [] := by
  refine inv.wire.caught_up ?_
  have seen : b.wire.seen = b.state.acked := congrArg Mark.ack inv.view
  rw [seen]
  exact acts

/-- A tick drives the link, and sends nothing unless everything is acked. -/
theorem Inv.driveTick (inv : Inv x seedA seedB b) (choose : Board → Piece → Placement) :
    Drives x b.wire (driveTick x choose b).wire ∧
      ((Bot.driveTick x choose b).wire ≠ b.wire →
        b.wire.predictor.unacked = [] ∧ b.wire.upstream = []) := by
  have aged : Inv x seedA seedB ⟨age b.state, b.wire⟩ := inv.drives (.refl _) (kept_age _)
  have idle : Drives x b.wire b.wire ∧ (b.wire ≠ b.wire →
      b.wire.predictor.unacked = [] ∧ b.wire.upstream = []) :=
    ⟨.refl _, fun moved => absurd rfl moved⟩
  have caught (acts : decideAction (syncState ⟨age b.state, b.wire⟩) ≠ .stop ∧
      decideAction (syncState ⟨age b.state, b.wire⟩) ≠ .waitAck) :
      b.wire.predictor.unacked = [] ∧ b.wire.upstream = [] :=
    aged.caught_up (lastSent_le_acked acts)
  have none (unacked : b.wire.predictor.unacked = []) : Idle b.wire := by
    intro e mem
    rw [unacked] at mem
    cases mem
  have inside (auth : (age b.state).inBazaar = true) : b.wire.predictor.youBazaar = true :=
    (congrArg Mark.you aged.view).trans auth
  unfold Bot.driveTick
  split
  · exact idle
  · dsimp only
    split
    · split <;> exact idle
    · exact idle
    · next decided =>
      have all := caught (by rw [decided]; exact ⟨nofun, nofun⟩)
      split
      · next waits => exact ⟨drives_leave (inside waits.1) (none all.1), fun _ => all⟩
      · exact idle
    · next decided =>
      have all := caught (by rw [decided]; exact ⟨nofun, nofun⟩)
      obtain ⟨w', shops, drives⟩ := drives_shopBazaar (age b.state)
        (inside (shop_inside decided).1) (none all.1)
      exact ⟨shops ▸ drives, fun _ => all⟩
    · next decided =>
      have all := caught (by rw [decided]; exact ⟨nofun, nofun⟩)
      exact ⟨drives_play choose ⟨age b.state, b.wire⟩, fun _ => all⟩

/-- The state has heard what the mark says, and the clock is past all its requests. -/
structure Heard (m : Mark) (now : Nat) (s : MatchState) : Prop where
  mark : m = ⟨s.acked, s.inBazaar, s.oppInBazaar⟩
  spaced : Spaced s
  clock : ∀ t ∈ s.asked, t ≤ now

theorem Heard.askResync {m : Mark} {now : Nat} {s : MatchState} (heard : Heard m now s) :
    Heard m now (askResync now s) := by
  refine ⟨heard.mark, heard.spaced.askResync heard.clock, fun t mem => ?_⟩
  unfold Bot.askResync at mem
  dsimp only at mem
  split at mem
  · rcases List.mem_append.mp mem with old | new
    · exact heard.clock t old
    · rw [List.mem_singleton.mp new]
  · exact heard.clock t mem

theorem heard_handleSnapshot {l : Letter} {rest : List Letter}
    (arrives : b.wire.downstream = l :: rest) (spaced : Spaced b.state) (high : List Int → Bool)
    {now : Nat} (clock : ∀ t ∈ b.state.asked, t ≤ now) :
    Heard (l.origin.mark x) now (handleSnapshot x high now b).state ∧
      (handleSnapshot x high now b).wire =
        (b.wire.act x .receive).act x (.judge (l.snapshot x).lockSeq (l.snapshot x).lockHash) := by
  have noted : Heard (l.origin.mark x) now (noteSnapshot (l.snapshot x) b.state) :=
    ⟨rfl, ⟨spaced.apart, spaced.last⟩, clock⟩
  have asks {s : MatchState} (heard : Heard (l.origin.mark x) now s) (c : Prop) [Decidable c] :
      Heard (l.origin.mark x) now (if c then askResync now s else s) := by
    split
    · exact heard.askResync
    · exact heard
  unfold handleSnapshot
  rw [arrives]
  dsimp only
  have heard := asks (asks noted (((b.wire.act x .receive).predictor.onLockHash
    (l.snapshot x).lockSeq (l.snapshot x).lockHash).1 = true)) ((l.snapshot x).result = 0 ∧
      ((b.wire.act x .receive).act x
        (.judge (l.snapshot x).lockSeq (l.snapshot x).lockHash)).predictor.game.isGameOver = true)
  refine ⟨?_, rfl⟩
  split
  · exact ⟨heard.mark, ⟨heard.spaced.apart, heard.spaced.last⟩, heard.clock⟩
  · exact heard

theorem Inv.handleSnapshot (inv : Inv x seedA seedB b) (high : List Int → Bool) {now : Nat}
    (clock : ∀ t ∈ b.state.asked, t ≤ now) :
    Inv x seedA seedB (handleSnapshot x high now b) := by
  cases arrives : b.wire.downstream with
  | nil =>
    unfold Bot.handleSnapshot
    rw [arrives]
    exact inv
  | cons l rest =>
    obtain ⟨acts, run⟩ := inv.run
    have received : Run (Gated x) (Wire.act x) _ _ (b.wire.act x .receive) :=
      run.snoc ⟨trivial, nofun⟩
    obtain ⟨heard, wire⟩ := heard_handleSnapshot (x := x) arrives inv.spaced high clock
    have judged : Run (Gated x) (Wire.act x) _ _ ((b.wire.act x .receive).act x
        (.judge (l.snapshot x).lockSeq (l.snapshot x).lockHash)) :=
      received.snoc ⟨trivial, nofun⟩
    refine ⟨⟨_, wire ▸ judged⟩, ?_, heard.spaced⟩
    rw [wire, Wire.view_judge, Wire.view_receive arrives]
    exact heard.mark

theorem Inv.act (inv : Inv x seedA seedB b) {a : Act} (allowed : Allowed x b a) :
    Inv x seedA seedB (b.act x a) := by
  cases a with
  | tick choose => exact inv.drives (inv.driveTick choose).1 (kept_driveTick choose b)
  | snapshot high now => exact inv.handleSnapshot high allowed
  | event i =>
    have books : (b.wire.predictor.applyEvent i).books = b.wire.predictor.books :=
      Predictor.noteLock_books _
    refine inv.drives ⟨⟨[] ++ [.event i], Run.nil.snoc ⟨trivial, nofun⟩⟩, ?_⟩ rfl
    exact congrArg (fun books => Mark.mk b.wire.seen books.2.2.1 books.2.2.2) books
  | server a =>
    obtain ⟨served, disciplined⟩ := allowed
    have gated : Gated x b.wire a := by
      refine ⟨disciplined, fun same => ?_⟩
      rw [same] at served
      cases served
    refine inv.drives ⟨⟨[] ++ [a], Run.nil.snoc gated⟩, ?_⟩ rfl
    cases a with
    | take =>
      change (Wire.handshake x (b.wire.act x .take)).view = _
      unfold Wire.act
      dsimp only
      split <;> rfl
    | predict | tick | event | judge | receive => cases served
    | _ => rfl

theorem inv_of_run {placeInterval : Int} {weaponsOn : Bool} {acts : List Act}
    (run : Run (Allowed x) (act x) (start x seedA seedB placeInterval weaponsOn) acts b) :
    Inv x seedA seedB b := by
  refine run.invariant (fun _ _ inv allowed => inv.act allowed) ⟨⟨[], .nil⟩, ?_, .nil, rfl⟩
  obtain ⟨seed, fresh⟩ := Wire.predictor_start x seedA seedB
  change Mark.mk 0 (Wire.start x seedA seedB).predictor.youBazaar
    (Wire.start x seedA seedB).predictor.oppBazaar = _
  rw [fresh]
  rfl

/-- In every run the bot is a disciplined client that sends with nothing else under way: a tick
that sends anything finds everything acked.  It knows the ack and the flags of the last snapshot,
a request to leave finds its side shopping, and once both channels are empty but for a snapshot
built since, that snapshot ends the wait for acks.  It asks for a resync every two seconds at
most. -/
theorem never_ahead {placeInterval : Int} {weaponsOn : Bool} {acts : List Act}
    (run : Run (Allowed x) (act x) (start x seedA seedB placeInterval weaponsOn) acts b) :
    (∀ choose, (b.act x (.tick choose)).wire.issued ≠ b.wire.issued →
      b.wire.predictor.unacked = [] ∧ b.wire.upstream = []) ∧
    b.state.acked ≤ b.wire.predictor.inputSeq ∧
    (∀ e ∈ b.wire.upstream, e.2 = .leaveBazaar → (b.wire.bout.versus.game x).inBazaar = true) ∧
    (∀ l high now, b.wire.upstream = [] → b.wire.downstream = [l] →
      (l.snapshot x).ack = b.wire.bout.ack x → (∀ t ∈ b.state.asked, t ≤ now) →
      decideAction (b.act x (.snapshot high now)).syncState ≠ .waitAck) ∧
    b.state.asked.Pairwise fun t u => t + resyncInterval ≤ u := by
  have inv := inv_of_run run
  refine ⟨fun choose sends => (inv.driveTick choose).2 fun same => sends ?_, ?_,
    fun e => inv.wire.leave_finds, fun l high now drained last acked clock waits => ?_,
    inv.spaced.apart⟩
  · exact congrArg Wire.issued same
  · have seen : b.wire.seen = b.state.acked := congrArg Mark.ack inv.view
    rw [← seen]
    exact inv.wire.handshake.view_ack.trans inv.wire.handshake.acked
  · have read := inv.handleSnapshot high clock
    obtain ⟨heard, wire⟩ := heard_handleSnapshot (x := x) last inv.spaced high clock
    have behind := acked_of_waits waits
    have told : (handleSnapshot x high now b).state.acked = b.wire.bout.ack x :=
      (congrArg Mark.ack heard.mark).symm.trans acked
    have sent : (handleSnapshot x high now b).wire.predictor.inputSeq =
        b.wire.predictor.inputSeq := by
      rw [wire]
      have judged := congrArg Prod.fst ((b.wire.act x .receive).predictor.onLockHash_books
        (l.snapshot x).lockSeq (l.snapshot x).lockHash)
      have received : (b.wire.act x .receive).predictor.inputSeq = b.wire.predictor.inputSeq := by
        unfold Wire.act
        dsimp only
        rw [last]
        exact congrArg Prod.fst (Predictor.onSnapshot_books ..)
      exact judged.trans received
    change (handleSnapshot x high now b).state.acked <
      (handleSnapshot x high now b).wire.predictor.inputSeq at behind
    rw [told, sent, inv.wire.drained drained] at behind
    exact Nat.lt_irrefl _ behind

/-- A bot that has ticked once. -/
theorem never_ahead_first :
    let b := (start .a 7 3 26 true).act .a (.tick fun _ _ => ⟨0, 0⟩)
    b.state.acked ≤ b.wire.predictor.inputSeq := by
  have run : Run (Allowed .a) (act .a) (start .a 7 3 26 true)
      ([] ++ [.tick fun _ _ => ⟨0, 0⟩]) _ := Run.nil.snoc trivial
  exact (never_ahead run).2.1

/-! ## The way out of the bazaar -/

/-- The bot has what it needs to ask to leave: the match is on, it sees itself shopping and
everything acked, and its game is in the bazaar too or has been shopping already. -/
structure Ready (b : Bot) : Prop where
  live : b.state.done = false
  fresh : b.state.idleTicks < staleTicks
  acked : b.wire.predictor.inputSeq ≤ b.state.acked
  inside : b.state.inBazaar = true
  synced : b.wire.predictor.game.inBazaar = true ∨ b.state.bazaarBought = true

/-- Ready, it asks in its next tick. -/
theorem Ready.asks (ready : Ready b) (choose : Board → Piece → Placement) :
    ∃ w, (driveTick x choose b).wire = sendInput x w .leaveBazaar := by
  have same := kept_age b.state
  obtain ⟨acked, rest⟩ := Prod.mk.inj same
  obtain ⟨you, rest⟩ := Prod.mk.inj rest
  have bought : (age b.state).bazaarBought = b.state.bazaarBought := by
    unfold age
    dsimp only
    split <;> rfl
  have idle : (age b.state).idleTicks = b.state.idleTicks + 1 := by
    unfold age
    dsimp only
    split <;> rfl
  have live : (age b.state).done = b.state.done := by
    unfold age
    dsimp only
    split <;> rfl
  have decided : decideAction (syncState ⟨age b.state, b.wire⟩) =
      if b.wire.predictor.game.inBazaar = true ∧ ¬b.state.bazaarBought = true then .shop
      else .waitBazaar := by
    have runs := ready.fresh
    unfold decideAction syncState
    dsimp only
    rw [live, ready.live, idle, acked, you, ready.inside, bought]
    rw [if_neg (by simp; omega), if_neg (Nat.not_lt_of_le ready.acked)]
    simp only [true_and, true_or, if_true]
  unfold driveTick
  rw [ready.live]
  dsimp only
  rw [if_neg (by simp), decided]
  by_cases shops : b.wire.predictor.game.inBazaar = true ∧ ¬b.state.bazaarBought = true
  · rw [if_pos shops]
    dsimp only
    unfold shopBazaar
    exact ⟨_, rfl⟩
  · rw [if_neg shops]
    dsimp only
    have done : b.state.bazaarBought = true := by
      by_contra unbought
      exact shops ⟨ready.synced.resolve_right unbought, unbought⟩
    rw [if_pos ⟨you.trans ready.inside, bought.trans done⟩]
    exact ⟨_, rfl⟩

end Bot

end BattleTris
