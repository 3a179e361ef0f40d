import BattleTris.Replay.Echo

/-!
The match against the computer has a relay of its own, beside that of the
head-to-head match.  The two part only on a double knock-out: the head-to-head match
keeps the first result, this one the last.
-/

namespace BattleTris

open Loop

/-- The player's game and the computer's, the throttle of its placements, the result
(1 player, 2 computer), and the player's events for the host. -/
structure VsComputer where
  player : Game
  ai : Game
  placeAccum : Int
  aiCommitted : Bool
  result : Int
  events : List GameEvent

namespace VsComputer

/-- Route a weapon launched by one side; the player is side `a`. -/
def deliver (vs : VsComputer) (token : WeaponToken) (attacker : Side) : VsComputer :=
  match attacker with
  | .a =>
    let (player, ai, _) := deliverWeapon vs.player vs.ai token
    { vs with player := player, ai := ai }
  | .b =>
    let (ai, player, _) := deliverWeapon vs.ai vs.player token
    { vs with player := player, ai := ai }

/-- Resolve one event of the player, and keep it for the host. -/
def relayPlayer (vs : VsComputer) (e : GameEvent) : VsComputer :=
  let vs := match e with
    | .weaponLaunched t => vs.deliver t .a
    | .scored score lines funds => { vs with ai := vs.ai.receiveOpScore score lines funds }
    | .fundsStolen amount => { vs with ai := vs.ai.addFunds amount }
    | .gameOver => { vs with result := 2 }
    | _ => vs
  { vs with events := vs.events ++ [e] }

/-- Resolve one event of the computer; a lock readies its next placement. -/
def relayAi (vs : VsComputer) (e : GameEvent) : VsComputer :=
  match e with
  | .weaponLaunched t => vs.deliver t .b
  | .scored score lines funds => { vs with player := vs.player.receiveOpScore score lines funds }
  | .fundsStolen amount => { vs with player := vs.player.addFunds amount }
  | .locked .. => { vs with aiCommitted := false, placeAccum := 0 }
  | .gameOver => { vs with result := 1 }
  | _ => vs

def relayFromPlayer (vs : VsComputer) : VsComputer :=
  let (events, player) := vs.player.takeEvents
  events.foldl relayPlayer { vs with player := player }

def relayFromAi (vs : VsComputer) : VsComputer :=
  let (events, ai) := vs.ai.takeEvents
  events.foldl relayAi { vs with ai := ai }

def relay (vs : VsComputer) : VsComputer := vs.relayFromPlayer.relayFromAi

/-! ## The games -/

/-- The two matches hold the same games. -/
structure Agrees (vs : VsComputer) (v : Versus) : Prop where
  player : vs.player = v.a
  ai : vs.ai = v.b

/-- No launch of a spy waits among the events. -/
def NoSpy (events : List GameEvent) : Prop := ∀ t, .weaponLaunched t ∈ events → isSpy t = false

variable {vs : VsComputer} {v : Versus}

theorem Agrees.deliver (agrees : Agrees vs v) {t : WeaponToken} (plain : isSpy t = false)
    (s : Side) : Agrees (vs.deliver t s) (v.relayLaunch s t) := by
  obtain ⟨player, ai⟩ := agrees
  have games (x : Side) := Versus.game_relayLaunch s v t x
  rw [plain] at games
  cases s with
  | a =>
    refine ⟨?_, ?_⟩
    · refine Eq.trans ?_ (games .a).symm
      rw [VsComputer.deliver, player, ai]
      rfl
    · refine Eq.trans ?_ (games .b).symm
      rw [VsComputer.deliver, player, ai]
      rfl
  | b =>
    refine ⟨?_, ?_⟩
    · refine Eq.trans ?_ (games .a).symm
      rw [VsComputer.deliver, player, ai]
      rfl
    · refine Eq.trans ?_ (games .b).symm
      rw [VsComputer.deliver, player, ai]
      rfl

theorem Agrees.relayPlayer (agrees : Agrees vs v) {e : GameEvent}
    (plain : ∀ t, e = .weaponLaunched t → isSpy t = false) :
    Agrees (vs.relayPlayer e) (Versus.relayEvent .a v e) := by
  cases e with
  | weaponLaunched t =>
    have delivered := agrees.deliver (plain t rfl) .a
    exact ⟨delivered.player, delivered.ai⟩
  | scored score lines funds =>
    exact ⟨agrees.player, congrArg (·.receiveOpScore score lines funds) agrees.ai⟩
  | fundsStolen amount => exact ⟨agrees.player, congrArg (·.addFunds amount) agrees.ai⟩
  | gameOver =>
    unfold Versus.relayEvent
    dsimp only
    split <;> exact ⟨agrees.player, agrees.ai⟩
  | enterBazaar => exact ⟨agrees.player, agrees.ai⟩
  | locked => exact ⟨agrees.player, agrees.ai⟩
  | airslide => exact ⟨agrees.player, agrees.ai⟩
  | idiot => exact ⟨agrees.player, agrees.ai⟩

theorem Agrees.relayAi (agrees : Agrees vs v) {e : GameEvent}
    (plain : ∀ t, e = .weaponLaunched t → isSpy t = false) :
    Agrees (vs.relayAi e) (Versus.relayEvent .b v e) := by
  cases e with
  | weaponLaunched t => exact agrees.deliver (plain t rfl) .b
  | scored score lines funds =>
    exact ⟨congrArg (·.receiveOpScore score lines funds) agrees.player, agrees.ai⟩
  | fundsStolen amount => exact ⟨congrArg (·.addFunds amount) agrees.player, agrees.ai⟩
  | gameOver =>
    unfold Versus.relayEvent
    dsimp only
    split <;> exact ⟨agrees.player, agrees.ai⟩
  | enterBazaar => exact ⟨agrees.player, agrees.ai⟩
  | locked => exact ⟨agrees.player, agrees.ai⟩
  | airslide => exact agrees
  | idiot => exact agrees

theorem Agrees.relayFromPlayer (agrees : Agrees vs v) (plain : NoSpy v.a.events) :
    Agrees vs.relayFromPlayer (v.relayFrom .a) := by
  have queue : vs.player.events = v.a.events := by rw [agrees.player]
  unfold VsComputer.relayFromPlayer Versus.relayFrom
  change Agrees (vs.player.events.foldl _ _) (v.a.events.foldl _ _)
  rw [queue]
  refine foldl_rel (R := Agrees) (fun e mem w u agrees => ?_)
    ⟨congrArg (·.takeEvents.2) agrees.player, agrees.ai⟩
  exact agrees.relayPlayer fun t launch => plain t (launch ▸ mem)

theorem Agrees.relayFromAi (agrees : Agrees vs v) (plain : NoSpy v.b.events) :
    Agrees vs.relayFromAi (v.relayFrom .b) := by
  have queue : vs.ai.events = v.b.events := by rw [agrees.ai]
  unfold VsComputer.relayFromAi Versus.relayFrom
  change Agrees (vs.ai.events.foldl _ _) (v.b.events.foldl _ _)
  rw [queue]
  refine foldl_rel (R := Agrees) (fun e mem w u agrees => ?_)
    ⟨agrees.player, congrArg (·.takeEvents.2) agrees.ai⟩
  exact agrees.relayAi fun t launch => plain t (launch ▸ mem)

/-- The first half of the relay adds to the other queue, but no launch and no top-out. -/
theorem queue_relayFrom (v : Versus) {f : GameEvent} (scored : f.isScored = false)
    (entry : f ≠ .enterBazaar) :
    f ∈ (v.relayFrom .a).b.events ↔ f ∈ v.b.events := by
  constructor
  · intro mem
    rcases Versus.queued_relayFrom v .a .b mem with ⟨-, before⟩ | new | new
    · exact before
    · rw [scored] at new
      cases new
    · exact absurd new entry
  · intro mem
    refine Versus.relayFrom_invariant (P := fun w : Versus => f ∈ w.b.events) .a
      (fun held => held) (fun w e w' _ relayed held => ?_) mem
    exact relayed.grows .b held

/-! ## The result -/

theorem result_deliver (vs : VsComputer) (t : WeaponToken) (s : Side) :
    (vs.deliver t s).result = vs.result := by
  cases s <;> rfl

theorem result_relayPlayers (vs : VsComputer) (es : List GameEvent) :
    (es.foldl relayPlayer vs).result = if .gameOver ∈ es then 2 else vs.result := by
  induction es generalizing vs with
  | nil => rfl
  | cons e es ih =>
    rw [List.foldl_cons, ih]
    cases e <;> simp [relayPlayer, result_deliver]

theorem result_relayAis (vs : VsComputer) (es : List GameEvent) :
    (es.foldl relayAi vs).result = if .gameOver ∈ es then 1 else vs.result := by
  induction es generalizing vs with
  | nil => rfl
  | cons e es ih =>
    rw [List.foldl_cons, ih]
    cases e <;> simp [relayAi, result_deliver]

/-- The head-to-head relay latches. -/
theorem result_relayEvents (v : Versus) (s : Side) (es : List GameEvent) :
    (es.foldl (Versus.relayEvent s) v).result =
      if .gameOver ∈ es then (if v.result = 0 then Versus.lossOf s else v.result)
      else v.result := by
  have latched (r : Int) : (if (if r = 0 then Versus.lossOf s else r) = 0 then Versus.lossOf s
      else if r = 0 then Versus.lossOf s else r) = if r = 0 then Versus.lossOf s else r := by
    split <;> cases s <;> simp_all [Versus.lossOf]
  induction es generalizing v with
  | nil => rfl
  | cons e es ih =>
    rw [List.foldl_cons, ih]
    cases e with
    | weaponLaunched t =>
      rw [show (Versus.relayEvent s v (.weaponLaunched t)).result = v.result from
        Versus.result_relayLaunch s v t]
      simp
    | gameOver =>
      have now : (Versus.relayEvent s v .gameOver).result =
          if v.result = 0 then Versus.lossOf s else v.result := by
        unfold Versus.relayEvent
        dsimp only
        split <;> rfl
      rw [now, if_pos List.mem_cons_self, latched, ite_self]
    | locked => simp [Versus.relayEvent]; rfl
    | airslide => simp [Versus.relayEvent]; rfl
    | scored => simp [Versus.relayEvent]
    | fundsStolen => simp [Versus.relayEvent]
    | enterBazaar => simp [Versus.relayEvent]; rfl
    | idiot => simp [Versus.relayEvent]; rfl

theorem result_relay (vs : VsComputer) : vs.relay.result =
    if .gameOver ∈ vs.relayFromPlayer.ai.events then 1
    else if .gameOver ∈ vs.player.events then 2 else vs.result := by
  have first : vs.relayFromPlayer.result = if .gameOver ∈ vs.player.events then 2 else vs.result :=
    result_relayPlayers _ vs.player.events
  have second : vs.relay.result = if .gameOver ∈ vs.relayFromPlayer.ai.events then 1
      else vs.relayFromPlayer.result := result_relayAis _ vs.relayFromPlayer.ai.events
  rw [second, first]

theorem result_versus_relay {v : Versus} (ongoing : v.result = 0) : v.relay.result =
    if .gameOver ∈ v.a.events then 2
    else if .gameOver ∈ (v.relayFrom .a).b.events then 1 else 0 := by
  have first : (v.relayFrom .a).result = if .gameOver ∈ v.a.events then 2 else 0 := by
    have half := result_relayEvents (v.setGame .a v.a.takeEvents.2) .a v.a.events
    rw [Versus.result_setGame, ongoing] at half
    exact half
  have half := result_relayEvents ((v.relayFrom .a).setGame .b (v.relayFrom .a).b.takeEvents.2) .b
    (v.relayFrom .a).b.events
  rw [Versus.result_setGame, first] at half
  refine half.trans ?_
  by_cases ended : .gameOver ∈ v.a.events
  · simp [ended]
  · simp [ended, Versus.lossOf]

/-- The relays always leave the same games, and the same result unless both sides
top out at once. -/
theorem relays_agree_iff {vs : VsComputer} {v : Versus} (agrees : Agrees vs v)
    (ongoing : vs.result = 0) (ongoing' : v.result = 0) (plain : NoSpy v.a.events)
    (plain' : NoSpy v.b.events) :
    vs.relay.player = v.relay.a ∧ vs.relay.ai = v.relay.b ∧
      (vs.relay.result = v.relay.result ↔
        ¬(.gameOver ∈ v.a.events ∧ .gameOver ∈ v.b.events)) := by
  have first := agrees.relayFromPlayer plain
  have second := first.relayFromAi fun t launch =>
    plain' t ((queue_relayFrom v rfl (by rintro ⟨⟩)).mp launch)
  refine ⟨second.player, second.ai, ?_⟩
  have queue : .gameOver ∈ (v.relayFrom .a).b.events ↔ .gameOver ∈ v.b.events :=
    queue_relayFrom v rfl (by rintro ⟨⟩)
  rw [result_relay, result_versus_relay ongoing', first.ai, agrees.player, ongoing]
  by_cases overA : .gameOver ∈ v.a.events
  · by_cases overB : .gameOver ∈ v.b.events
    · simp [queue, overA, overB]
    · simp [queue, overA, overB]
  · by_cases overB : .gameOver ∈ v.b.events
    · simp [queue, overA, overB]
    · simp [queue, overA, overB]

/-- A player and a computer with these queues, at the start of a match. -/
def queued (player ai : List GameEvent) : VsComputer where
  player := { Game.new 7 with events := player }
  ai := { Game.new 3 with events := ai }
  placeAccum := 0
  aiCommitted := false
  result := 0
  events := []

theorem relays_agree_when_one_tops_out :
    let vs := queued [.weaponLaunched .riseUp, .gameOver] [.scored 40 2 80]
    let v : Versus := { Versus.new 7 3 with a := vs.player, b := vs.ai }
    vs.relay.player = v.relay.a ∧ vs.relay.ai = v.relay.b ∧
      (vs.relay.result = v.relay.result ↔
        ¬(.gameOver ∈ v.a.events ∧ .gameOver ∈ v.b.events)) :=
  relays_agree_iff ⟨rfl, rfl⟩ rfl rfl (fun t launch => by
    change _ ∈ [GameEvent.weaponLaunched .riseUp, .gameOver] at launch
    simp only [List.mem_cons, GameEvent.weaponLaunched.injEq, List.not_mem_nil, or_false,
      reduceCtorEq] at launch
    rw [launch]
    rfl) (fun t launch => by
    change _ ∈ [GameEvent.scored 40 2 80] at launch
    simp at launch)

/-- Both top out at once: the head-to-head relay has the second side win, the relay
against the computer the first. -/
theorem double_knockout_parts :
    let vs := queued [.gameOver] [.gameOver]
    let v : Versus := { Versus.new 7 3 with a := vs.player, b := vs.ai }
    NoSpy v.a.events ∧ NoSpy v.b.events ∧ vs.relay.result = 1 ∧ v.relay.result = 2 := by
  have plain : NoSpy [.gameOver] := fun t launch => by simp at launch
  exact ⟨plain, plain, rfl, rfl⟩

end VsComputer

end BattleTris
