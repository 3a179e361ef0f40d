import BattleTris.Server.RunBout

/-!
The lobby: who is connected, who waits, who has challenged whom, the registered bouts
and the ratings, with the handlers of the lobby's messages.

A hash map is read in an order of its own: a handler that walks one takes the order of
its keys as an argument.  The tick loop of a bout appears here as its copies of the
clients' ids, its queue of controls and the moment it breaks; `RunBout` says what breaks
it.  The roster, the counters, the region labels and the pings are left out.
-/

namespace BattleTris

abbrev MatchId := Nat

/-! ## Names -/

/-- Unicode's `White_Space`. -/
def isWhiteSpace (c : Char) : Bool :=
  (9 ≤ c.toNat ∧ c.toNat ≤ 13) ∨ (0x2000 ≤ c.toNat ∧ c.toNat ≤ 0x200A) ∨
    c.toNat ∈ [0x20, 0x85, 0xA0, 0x1680, 0x2028, 0x2029, 0x202F, 0x205F, 0x3000]

def trim (cs : List Char) : List Char := (cs.dropWhile isWhiteSpace).rdropWhile isWhiteSpace

/-- `MAX_NAME_LEN`. -/
def maxNameLen : Nat := 32

/-- Trim and cap a requested name; an empty one is refused. -/
def sanitizeName (raw : String) : Option String :=
  let capped := trim ((trim raw.toList).take maxNameLen)
  if capped.isEmpty then none else some (String.ofList capped)

/-! ## Ratings -/

/-- A rating with the number of rated matches behind it. -/
structure PlayerState (ρ : Type) where
  rating : ρ
  experience : UInt32
  deriving DecidableEq

inductive Winner where
  | a
  | b
  | draw
  deriving DecidableEq

structure MatchOutcome where
  winner : Winner
  aLines : UInt32
  bLines : UInt32
  aQuit : Bool
  bQuit : Bool
  deriving DecidableEq

/-- What the lobby is hosted on: the check of a token's signature, and the floating-point
arithmetic of the ratings. -/
structure Host (ρ : Type) where
  /-- `verify_token`. -/
  verifyToken : String → Option String
  /-- `Params::new_rating`. -/
  newRating : ρ
  /-- The ratings that `rate_match` computes. -/
  rate : PlayerState ρ → PlayerState ρ → MatchOutcome → ρ × ρ
  /-- `quality_1v1` of the first with the second is greater than with the third. -/
  better : ρ → ρ → ρ → Bool

/-- Rate a match; each side has one match more behind it. -/
def Host.rateMatch {ρ : Type} (host : Host ρ) (a b : PlayerState ρ) (o : MatchOutcome) :
    PlayerState ρ × PlayerState ρ :=
  let (ra, rb) := host.rate a b o
  (⟨ra, a.experience + 1⟩, ⟨rb, b.experience + 1⟩)

/-! ## The state -/

inductive Status where
  | available
  | searching
  | inGame
  deriving DecidableEq

structure App.Client (ρ : Type) where
  name : String
  peer : Option ConnId
  state : PlayerState ρ
  /-- The bout that takes the client's inputs, and its side there. -/
  bout : Option (MatchId × Side)
  matchId : Option MatchId
  status : Option Status
  isBot : Bool
  prevStatus : Option Status

/-- A registered bout, by the names of its sides. -/
structure BoutHandle where
  name : Side → String

/-- How a tick loop broke: the winner, if there is one to rate, and the lines. -/
structure BoutEnd where
  aWon : Option Bool
  aLines : UInt32
  bLines : UInt32

/-- The locals of `run_bout` that the lobby sees. -/
structure Task (ρ : Type) where
  id : Side → ConnId
  name : Side → String
  state : Side → PlayerState ρ
  human : Side → Bool
  controlRx : List BoutControl
  broken : Option BoutEnd

/-- A message of the lobby to a client. -/
inductive LobbyFrame (ρ : Type) where
  | matchStart (side : Side) (opponent : String) (matchId : MatchId)
  | challenged (name : String)
  | challengeDeclined (name : String)
  | rejoinFailed
  | spectateFailed
  | opponentLeft
  | draining
  | rating (state : PlayerState ρ) (won : Bool)

structure App (ρ : Type) where
  clients : ConnId → Option (App.Client ρ)
  waiting : List ConnId
  ratings : String → Option (PlayerState ρ)
  settled : List MatchId
  /-- The target of a challenger, and the deadline. -/
  challenges : ConnId → Option (ConnId × Nat)
  bouts : MatchId → Option BoutHandle
  draining : Bool
  /-- The tick loops that were spawned and have not returned. -/
  tasks : MatchId → Option (Task ρ)
  /-- Ids are never used twice. -/
  nextMatch : MatchId
  sent : List (ConnId × LobbyFrame ρ)

namespace App

variable {ρ : Type} (host : Host ρ) (app : App ρ)

def ratingFor (name : String) : PlayerState ρ :=
  (app.ratings name).getD ⟨host.newRating, 0⟩

def storeRating (name : String) (s : PlayerState ρ) : App ρ :=
  { app with ratings := Function.update app.ratings name (some s) }

def send (id : ConnId) (frame : LobbyFrame ρ) : App ρ :=
  if (app.clients id).isSome then { app with sent := app.sent ++ [(id, frame)] } else app

/-- Change a client that is still connected. -/
def modifyClient (id : ConnId) (f : Client ρ → Client ρ) : App ρ :=
  { app with clients := Function.update app.clients id ((app.clients id).map f) }

/-- `try_send` on the control channel of a bout. -/
def trySend (m : MatchId) (c : BoutControl) : Option (App ρ) :=
  match app.tasks m with
  | some t =>
    if t.controlRx.length < boutControlCap then
      some { app with
        tasks := Function.update app.tasks m (some { t with controlRx := t.controlRx ++ [c] }) }
    else none
  | none => none

/-- The client has a bout that takes its inputs. -/
def inBout (id : ConnId) : Bool := (app.clients id).any (·.bout.isSome)

/-! ## Identity -/

/-- A signed name wins; a bare one is honoured unless somebody else is rated under it. -/
def resolveName (token name : Option String) (prior : String) : String :=
  match token.bind host.verifyToken with
  | some signed => signed
  | none =>
    match name.bind sanitizeName with
    | some clean => if (app.ratings clean).isNone ∨ clean = prior then clean else prior
    | none => prior

/-- The name a message of the client establishes. -/
def nameOf (id : ConnId) (token name : Option String) : String :=
  app.resolveName host token name (((app.clients id).map Client.name).getD "")

/-! ## Pairing -/

def findNamedAvailable (keys : List ConnId) (name : String) : Option ConnId :=
  keys.find? fun cid => (app.clients cid).any fun c => c.name = name ∧ c.status = some .available

def clearChallenge (challenger : ConnId) : App ρ :=
  { app with challenges := Function.update app.challenges challenger none }

def isMatchCandidate (id cid : ConnId) : Bool :=
  if cid = id then false
  else if (app.clients id).any Client.isBot ∨ (app.clients cid).any Client.isBot then false
  else
    match app.clients cid with
    | some c =>
      c.bout.isNone ∧ (cid ∈ app.waiting ∨ c.status = some .available ∨ c.status = some .searching)
    | none => false

/-- Drop both players from the queue and the challenges, and link them. -/
def pair (a b : ConnId) : App ρ :=
  let app := { app with
    waiting := app.waiting.filter fun w => w ≠ a ∧ w ≠ b
    challenges := fun cid =>
      (app.challenges cid).filter fun t => cid ≠ a ∧ cid ≠ b ∧ t.1 ≠ a ∧ t.1 ≠ b }
  let app := app.modifyClient a fun c => { c with peer := some b }
  app.modifyClient b fun c => { c with peer := some a }

/-- A client enters a bout and remembers its presence. -/
def enter (m : MatchId) (side : Side) (c : Client ρ) : Client ρ :=
  { c with
    bout := some (m, side), matchId := some m, prevStatus := c.status, status := some .inGame }

/-- Start a bout of two connected clients and spawn its loop. -/
def startBout (a b : ConnId) : App ρ :=
  if app.draining then app
  else
    let app := app.pair a b
    match app.clients a, app.clients b with
    | some ca, some cb =>
      let name : Side → String := fun
        | .a => ca.name
        | .b => cb.name
      let m := app.nextMatch
      let task : Task ρ := {
        id := fun
          | .a => a
          | .b => b
        name := name
        state := fun s => app.ratingFor host (name s)
        human := fun
          | .a => !ca.isBot
          | .b => !cb.isBot
        controlRx := []
        broken := none }
      let app := (app.modifyClient a (enter m .a)).modifyClient b (enter m .b)
      let app := { app with
        bouts := Function.update app.bouts m (some ⟨name⟩)
        tasks := Function.update app.tasks m (some task)
        nextMatch := m + 1 }
      (app.send a (.matchStart .a cb.name m)).send b (.matchStart .b ca.name m)
    | _, _ => app

/-- The open client of the best quality, the first of equals. -/
def bestOpponent (keys : List ConnId) (id : ConnId) : Option ConnId :=
  (app.clients id).bind fun me =>
    (keys.filter (app.isMatchCandidate id)).foldl (fun best cid =>
      match best, best.bind app.clients, app.clients cid with
      | none, _, some _ => some cid
      | some _, some b, some other =>
        if host.better me.state.rating other.state.rating b.state.rating then some cid else best
      | _, _, _ => best) none

/-- Pair the client with the best open opponent, or leave it queued. -/
def tryMatch (keys : List ConnId) (id : ConnId) : App ρ :=
  if (app.clients id).isNone ∨ app.inBout id then app
  else
    match app.bestOpponent host keys id with
    | some opp => app.startBout host opp id
    | none => if id ∈ app.waiting then app else { app with waiting := app.waiting ++ [id] }

/-! ## The handlers -/

def queue (keys : List ConnId) (id : ConnId) (token name : Option String) : App ρ :=
  if app.draining then app.send id .draining
  else if app.inBout id then app
  else
    let name := app.nameOf host id token name
    let name := if name.isEmpty then "anon" else name
    let st := app.ratingFor host name
    let app := app.modifyClient id fun c =>
      { c with name := name, state := st, status := some .searching }
    app.tryMatch host keys id

def available (keys : List ConnId) (id : ConnId) (token name : Option String)
    (value bot : Bool) : App ρ :=
  if app.draining then app.send id .draining
  else if app.inBout id then app
  else
    let name := app.nameOf host id token name
    let goAvailable := value && !name.isEmpty
    let st := app.ratingFor host name
    let app := if goAvailable then app
      else { app with waiting := app.waiting.filter (· ≠ id) }
    let app := app.modifyClient id fun c =>
      { c with
        name := name, state := st, status := if goAvailable then some .available else none
        isBot := bot }
    if goAvailable then app.tryMatch host keys id else app

/-- `CHALLENGE_TIMEOUT`, in milliseconds. -/
def challengeTimeout : Nat := 30000

def challenge (keys : List ConnId) (id : ConnId) (token name : Option String) (target : String)
    (now : Nat) : App ρ :=
  if app.draining then app.send id .draining
  else
    let name := app.nameOf host id token name
    let app := app.modifyClient id fun c => { c with name := name }
    match app.findNamedAvailable keys target with
    | some tid =>
      if tid ≠ id then
        let app := { app with
          challenges := Function.update app.challenges id (some (tid, now + challengeTimeout)) }
        app.send tid (.challenged name)
      else app.send id (.challengeDeclined target)
    | none => app.send id (.challengeDeclined target)

/-- A challenge that is still open at its deadline counts as declined. -/
def timeout (challenger tid : ConnId) (deadline : Nat) (target : String) : App ρ :=
  if app.challenges challenger = some (tid, deadline) then
    let name := ((app.clients tid).map Client.name).getD target
    (app.clearChallenge challenger).send challenger (.challengeDeclined name)
  else app

/-- The challenger of that name whose challenge targets the client. -/
def challengerOf (keys : List ConnId) (id : ConnId) (name : String) : Option ConnId :=
  keys.find? fun cid =>
    (app.challenges cid).any (·.1 = id) && (app.clients cid).any (·.name = name)

def challengeAccept (keys : List ConnId) (id : ConnId) (name : String) : App ρ :=
  match app.challengerOf keys id name with
  | some cid =>
    if (app.clients cid).any (·.bout.isNone) ∧ (app.clients id).any (·.bout.isNone) then
      (app.clearChallenge cid).startBout host cid id
    else app
  | none => app

def challengeDecline (keys : List ConnId) (id : ConnId) (name : String) : App ρ :=
  match app.challengerOf keys id name with
  | some cid =>
    let decliner := ((app.clients id).map Client.name).getD ""
    (app.clearChallenge cid).send cid (.challengeDeclined decliner)
  | none => app

/-- The side that a name plays, A first. -/
def sideOf (h : BoutHandle) (name : String) : Option Side :=
  if ¬name.isEmpty ∧ h.name .a = name then some .a
  else if ¬name.isEmpty ∧ h.name .b = name then some .b
  else none

/-- Reattach a reconnecting player to its running bout. -/
def rejoin (id : ConnId) (matchId : Option MatchId) (token name : Option String) : App ρ :=
  let name := app.nameOf host id token name
  let found := matchId.bind fun m => (app.bouts m).bind fun h => (sideOf h name).map fun s => (m, s)
  match found with
  | some (m, side) =>
    match app.trySend m (.reattach side id) with
    | some sent =>
      let st := sent.ratingFor host name
      sent.modifyClient id fun c =>
        { c with
          name := name, state := st, prevStatus := c.status, status := some .inGame
          bout := some (m, side), matchId := some m }
    | none => app.send id .rejoinFailed
  | none => app.send id .rejoinFailed

/-- Ask the loop of the client's own bout. -/
def request (id : ConnId) (c : Side → BoutControl) : App ρ :=
  match (app.clients id).bind Client.matchId, (app.clients id).bind Client.bout with
  | some m, some (_, side) =>
    if (app.bouts m).isSome then (app.trySend m (c side)).getD app else app
  | _, _ => app

def spectate (id : ConnId) (matchId : Option MatchId) : App ρ :=
  match matchId.bind fun m => (app.bouts m).bind fun _ => app.trySend m .addSpectator with
  | some sent => sent
  | none => app.send id .spectateFailed

/-! ## Connections -/

def connect (id : ConnId) : App ρ :=
  if (app.clients id).isSome then app
  else
    { app with
      clients := Function.update app.clients id (some {
        name := "", peer := none, state := app.ratingFor host "", bout := none, matchId := none
        status := none, isBot := false, prevStatus := none }) }

/-- A socket closed: its client leaves the queue, the challenges and the registry. -/
def disconnect (keys : List ConnId) (id : ConnId) : App ρ :=
  let app := { app with waiting := app.waiting.filter (· ≠ id) }
  let app := app.clearChallenge id
  let name := ((app.clients id).map Client.name).getD ""
  let aimedHere := keys.filter fun cid => (app.challenges cid).any (·.1 = id)
  let app := aimedHere.foldl (fun app cid =>
    (app.clearChallenge cid).send cid (.challengeDeclined name)) app
  let app :=
    match (app.clients id).bind Client.peer with
    | some p =>
      if app.inBout id then app
      else (app.send p .opponentLeft).modifyClient p fun c => { c with peer := none }
    | none => app
  { app with clients := Function.update app.clients id none }

/-! ## The tick loops -/

/-- A reattached socket becomes its side's. -/
def adopt (id : Side → ConnId) : BoutControl → Side → ConnId
  | .reattach side newId => Function.update id side newId
  | _ => id

/-- The loop takes its next control. -/
def obey (m : MatchId) : App ρ :=
  match app.tasks m with
  | some t =>
    match t.broken, t.controlRx with
    | none, c :: rest =>
      let t := { t with id := adopt t.id c, controlRx := rest }
      { app with tasks := Function.update app.tasks m (some t) }
    | _, _ => app
  | none => app

/-- The loop breaks. -/
def exit (m : MatchId) (how : BoutEnd) : App ρ :=
  match app.tasks m with
  | some t =>
    if t.broken.isNone then
      { app with tasks := Function.update app.tasks m (some { t with broken := some how }) }
    else app
  | none => app

/-- A client leaves its bout and returns to its presence. -/
def leave (c : Client ρ) : Client ρ :=
  { c with
    bout := none, matchId := none, peer := none
    status := if c.name.isEmpty then c.status else c.prevStatus.map fun _ => .available
    prevStatus := none }

/-- Rate a match, once, and tell the players. -/
def settleBout (m : MatchId) (t : Task ρ) (aWon : Bool) (aLines bLines : UInt32) : App ρ :=
  if m ∈ app.settled then app
  else
    let app := { app with settled := m :: app.settled }
    let outcome : MatchOutcome := {
      winner := if aWon then .a else .b
      aLines := aLines, bLines := bLines, aQuit := false, bQuit := false }
    let (na, nb) := host.rateMatch (t.state .a) (t.state .b) outcome
    let app := (app.storeRating (t.name .a) na).storeRating (t.name .b) nb
    let app := app.modifyClient (t.id .a) fun c => { c with state := na }
    let app := app.modifyClient (t.id .b) fun c => { c with state := nb }
    (app.send (t.id .a) (.rating na aWon)).send (t.id .b) (.rating nb !aWon)

/-- What follows the loop: the bout is unregistered, its clients are released, and the
match is rated if somebody won. -/
def cleanup (m : MatchId) : App ρ :=
  match app.tasks m with
  | some t =>
    match t.broken with
    | some how =>
      let app := { app with
        bouts := Function.update app.bouts m none, tasks := Function.update app.tasks m none }
      let app := (app.modifyClient (t.id .a) leave).modifyClient (t.id .b) leave
      match how.aWon with
      | some aWon => app.settleBout host m t aWon how.aLines how.bLines
      | none => app
    | none => app
  | none => app

/-! ## Steps -/

/-- A message of a client. -/
inductive Message where
  | queue (token name : Option String)
  | available (token name : Option String) (value bot : Bool)
  | challenge (token name : Option String) (target : String) (now : Nat)
  | challengeAccept (name : String)
  | challengeDecline (name : String)
  | rejoin (matchId : Option MatchId) (token name : Option String)
  | resync
  | leaveMatch
  | spectate (matchId : Option MatchId)

/-- What happens at the server: a connection comes, speaks or goes, a challenge runs out,
the server starts to drain, or a tick loop takes a control, breaks or is cleaned up. -/
inductive Event where
  | connect (id : ConnId)
  | message (keys : List ConnId) (id : ConnId) (msg : Message)
  | disconnect (keys : List ConnId) (id : ConnId)
  | timeout (challenger tid : ConnId) (deadline : Nat) (target : String)
  | drain
  | obey (m : MatchId)
  | exit (m : MatchId) (how : BoutEnd)
  | cleanup (m : MatchId)

def handleMessage (keys : List ConnId) (id : ConnId) : Message → App ρ
  | .queue token name => app.queue host keys id token name
  | .available token name value bot => app.available host keys id token name value bot
  | .challenge token name target now => app.challenge host keys id token name target now
  | .challengeAccept name => app.challengeAccept host keys id name
  | .challengeDecline name => app.challengeDecline keys id name
  | .rejoin matchId token name => app.rejoin host id matchId token name
  | .resync => app.request id .resync
  | .leaveMatch => app.request id .forfeit
  | .spectate matchId => app.spectate id matchId

/-- A connection speaks while it is registered. -/
def step : Event → App ρ
  | .connect id => app.connect host id
  | .message keys id msg =>
    if (app.clients id).isSome then app.handleMessage host keys id msg else app
  | .disconnect keys id => if (app.clients id).isSome then app.disconnect keys id else app
  | .timeout challenger tid deadline target => app.timeout challenger tid deadline target
  | .drain => { app with draining := true }
  | .obey m => app.obey m
  | .exit m how => app.exit m how
  | .cleanup m => app.cleanup host m

/-- The state at boot, over the ratings on disk. -/
def boot (ratings : String → Option (PlayerState ρ)) : App ρ where
  clients := fun _ => none
  waiting := []
  ratings := ratings
  settled := []
  challenges := fun _ => none
  bouts := fun _ => none
  draining := false
  tasks := fun _ => none
  nextMatch := 0
  sent := []

end App

/-- A host of new players, in thousandths: a new rating, and what `rate_match` makes of
two of them after a match with equal lines.  No token verifies. -/
def freshHost : Host (Int × Int) where
  verifyToken := fun _ => none
  newRating := (25000, 8333)
  rate := fun _ _ o =>
    if o.winner = .a then ((29379, 7071), (21221, 7071)) else ((21221, 7071), (29379, 7071))
  better := fun _ _ _ => false

end BattleTris
