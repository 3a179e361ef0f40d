import BattleTris.Lib.Run
import BattleTris.Server.Rejoin

/-!
The stored ratings over whole runs of the server.

A bout takes the ratings of its players when it starts and writes them back when it is
settled.  `Books` is what every other step keeps; `Tally` counts beside the state what has
been settled, in all and during each bout.
-/

namespace BattleTris

/-- The outcome that a match is rated by. -/
def BoutEnd.outcome (how : BoutEnd) (aWon : Bool) : MatchOutcome where
  winner := if aWon then .a else .b
  aLines := how.aLines
  bLines := how.bLines
  aQuit := false
  bQuit := false

/-- The match that a step rates: the loop that played it and how it ended. -/
structure Settlement (ρ : Type) where
  m : MatchId
  task : Task ρ
  outcome : MatchOutcome

namespace Settlement

variable {ρ : Type} {x : Settlement ρ}

/-- How many sides of the match the name played. -/
def sides (x : Settlement ρ) (name : String) : Nat :=
  (if x.task.name .a = name then 1 else 0) + if x.task.name .b = name then 1 else 0

theorem sides_eq_zero {name : String} (out : x.sides name = 0)
    (s : Side) : x.task.name s ≠ name := by
  unfold sides at out
  intro same
  cases s
  · rw [if_pos same] at out
    omega
  · rw [if_pos same] at out
    omega

/-- Between different names, each player has played one side. -/
theorem sides_name (apart : x.task.name .a ≠ x.task.name .b)
    (s : Side) : x.sides (x.task.name s) = 1 := by
  unfold sides
  cases s
  · rw [if_pos rfl, if_neg apart.symm]
  · rw [if_neg apart, if_pos rfl]

end Settlement

namespace App

variable {ρ : Type} {host : Host ρ} {app app' app'' : App ρ}

/-- The match is rated when its loop is cleaned up, if somebody won and it is not settled. -/
def settlement (app : App ρ) : Event → Option (Settlement ρ)
  | .cleanup m =>
    if m ∈ app.settled then none
    else
      (app.tasks m).bind fun t => t.broken.bind fun how => how.aWon.map fun aWon =>
        ⟨m, t, how.outcome aWon⟩
  | _ => none

/-! ## The ledger -/

/-- What the ratings and the running bouts are kept in. -/
def ledger (app : App ρ) :
    (String → Option (PlayerState ρ)) × (MatchId → Option (Task ρ)) × MatchId :=
  (app.ratings, app.tasks, app.nextMatch)

theorem ledger_send (app : App ρ) (id : ConnId) (frame : LobbyFrame ρ) :
    (app.send id frame).ledger = app.ledger := by
  unfold send
  split <;> rfl

theorem ledger_modifyClient (app : App ρ) (id : ConnId) (f : Client ρ → Client ρ) :
    (app.modifyClient id f).ledger = app.ledger := rfl

theorem ledger_clearChallenge (app : App ρ) (id : ConnId) :
    (app.clearChallenge id).ledger = app.ledger := rfl

theorem ledger_pair (app : App ρ) (a b : ConnId) :
    (app.pair a b).ledger = app.ledger := rfl

/-- No rating changes, a running bout keeps its players, and a new one, under an id that
was not used, takes the ratings as they are. -/
structure Books (host : Host ρ) (app app' : App ρ) : Prop where
  ratings : app'.ratings = app.ratings
  nextMatch : app.nextMatch ≤ app'.nextMatch
  tasks : ∀ m t', app'.tasks m = some t' →
    (∃ t, app.tasks m = some t ∧ t'.name = t.name ∧ t'.state = t.state) ∨
      (app.nextMatch ≤ m ∧ m < app'.nextMatch ∧
        ∀ s, t'.state s = app.ratingFor host (t'.name s))

theorem ratingFor_congr (same : app'.ratings = app.ratings) (name : String) :
    app'.ratingFor host name = app.ratingFor host name := by
  unfold ratingFor
  rw [same]

namespace Books

theorem of_ledger (same : app'.ledger = app.ledger) : Books host app app' := by
  obtain ⟨ratings, rest⟩ := Prod.mk.inj same
  obtain ⟨tasks, nextMatch⟩ := Prod.mk.inj rest
  refine ⟨ratings, nextMatch.ge, fun m t' running => .inl ⟨t', ?_, rfl, rfl⟩⟩
  rw [← tasks]
  exact running

theorem refl (app : App ρ) : Books host app app := of_ledger rfl

theorem trans (first : Books host app app') (second : Books host app' app'') :
    Books host app app'' := by
  refine ⟨second.ratings.trans first.ratings, first.nextMatch.trans second.nextMatch,
    fun m t'' running => ?_⟩
  rcases second.tasks m t'' running with ⟨t', before, name, state⟩ | ⟨new, below, taken⟩
  · rcases first.tasks m t' before with ⟨t, old, name', state'⟩ | ⟨new, below, taken⟩
    · exact .inl ⟨t, old, name.trans name', state.trans state'⟩
    · refine .inr ⟨new, below.trans_le second.nextMatch, fun s => ?_⟩
      rw [name, state]
      exact taken s
  · refine .inr ⟨first.nextMatch.trans new, below, fun s => ?_⟩
    rw [← ratingFor_congr first.ratings]
    exact taken s

/-- Another step follows that leaves the ledger alone. -/
theorem then_ledger (books : Books host app app') (same : app''.ledger = app'.ledger) :
    Books host app app'' := books.trans (of_ledger same)

theorem then_send (books : Books host app app') (id : ConnId) (frame : LobbyFrame ρ) :
    Books host app (app'.send id frame) := books.then_ledger (ledger_send _ _ _)

/-- A task is replaced by one with the same players. -/
theorem retask {m : MatchId} {t t' : Task ρ} (task : app.tasks m = some t)
    (name : t'.name = t.name) (state : t'.state = t.state) :
    Books host app { app with tasks := Function.update app.tasks m (some t') } := by
  refine ⟨rfl, le_rfl, fun m' t₂ running => .inl ?_⟩
  rcases eq_or_ne m' m with rfl | apart
  · cases (Function.update_self ..).symm.trans running
    exact ⟨t, task, name, state⟩
  · exact ⟨t₂, (Function.update_of_ne apart _ _).symm.trans running, rfl, rfl⟩

theorem trySend {m : MatchId} {c : BoutControl} (sent : app.trySend m c = some app') :
    Books host app app' := by
  obtain ⟨t, task, -, rfl⟩ := trySend_eq sent
  exact retask task rfl rfl

/-! ## Starting a bout -/

theorem startBout (app : App ρ) (a b : ConnId) : Books host app (app.startBout host a b) := by
  unfold App.startBout
  split
  · exact refl app
  dsimp only
  have paired : Books host app (app.pair a b) := of_ledger (ledger_pair app a b)
  refine paired.trans ?_
  generalize app.pair a b = k
  split
  · refine then_send (then_send ?_ _ _) _ _
    refine ⟨rfl, Nat.le_succ _, fun m t' running => ?_⟩
    rcases eq_or_ne m k.nextMatch with rfl | apart
    · cases (Function.update_self ..).symm.trans running
      exact .inr ⟨le_rfl, Nat.lt_succ_self _, fun _ => rfl⟩
    · exact .inl ⟨t', (Function.update_of_ne apart _ _).symm.trans running, rfl, rfl⟩
  · exact refl k

theorem tryMatch (app : App ρ) (keys : List ConnId) (id : ConnId) :
    Books host app (app.tryMatch host keys id) := by
  unfold App.tryMatch
  split
  · exact refl app
  · split
    · exact startBout app _ id
    · split
      · exact refl app
      · exact of_ledger rfl

/-! ## The handlers -/

theorem queue (app : App ρ) (keys : List ConnId) (id : ConnId) (token name : Option String) :
    Books host app (app.queue host keys id token name) := by
  unfold App.queue
  split
  · exact of_ledger (ledger_send _ _ _)
  · split
    · exact refl app
    · exact (of_ledger (ledger_modifyClient _ _ _)).trans (tryMatch _ keys id)

theorem available (app : App ρ) (keys : List ConnId) (id : ConnId) (token name : Option String)
    (value bot : Bool) : Books host app (app.available host keys id token name value bot) := by
  unfold App.available
  split
  · exact of_ledger (ledger_send _ _ _)
  · split
    · exact refl app
    · dsimp only
      split
      · exact (of_ledger (ledger_modifyClient _ _ _)).trans (tryMatch _ keys id)
      · exact of_ledger rfl

theorem ledger_challenge (app : App ρ) (keys : List ConnId) (id : ConnId)
    (token name : Option String) (target : String) (now : Nat) :
    (app.challenge host keys id token name target now).ledger = app.ledger := by
  unfold App.challenge
  split
  · exact ledger_send _ _ _
  · dsimp only
    split
    · split <;> exact ledger_send _ _ _
    · exact ledger_send _ _ _

theorem challengeAccept (app : App ρ) (keys : List ConnId) (id : ConnId) (name : String) :
    Books host app (app.challengeAccept host keys id name) := by
  unfold App.challengeAccept
  split
  · split
    · exact (of_ledger (ledger_clearChallenge _ _)).trans (startBout _ _ id)
    · exact refl app
  · exact refl app

theorem rejoin (app : App ρ) (id : ConnId) (matchId : Option MatchId)
    (token name : Option String) : Books host app (app.rejoin host id matchId token name) := by
  unfold App.rejoin
  dsimp only
  split
  · split
    · next sent asked => exact (trySend asked).then_ledger (ledger_modifyClient _ _ _)
    · exact of_ledger (ledger_send _ _ _)
  · exact of_ledger (ledger_send _ _ _)

theorem request (app : App ρ) (id : ConnId) (c : Side → BoutControl) :
    Books host app (app.request id c) := by
  unfold App.request
  split
  · next m _ side _ _ =>
    split
    · cases asked : app.trySend m (c side) with
      | none => exact refl app
      | some sent => exact trySend asked
    · exact refl app
  · exact refl app

theorem spectate (app : App ρ) (id : ConnId) (matchId : Option MatchId) :
    Books host app (app.spectate id matchId) := by
  unfold App.spectate
  split
  · next sent asked =>
    obtain ⟨m, -, known⟩ := Option.bind_eq_some_iff.mp asked
    obtain ⟨_, -, asked⟩ := Option.bind_eq_some_iff.mp known
    exact trySend asked
  · exact of_ledger (ledger_send _ _ _)

theorem handleMessage (app : App ρ) (keys : List ConnId) (id : ConnId) (msg : Message) :
    Books host app (app.handleMessage host keys id msg) := by
  cases msg with
  | queue token name => exact queue app keys id token name
  | available token name value bot => exact available app keys id token name value bot
  | challenge token name target now => exact of_ledger (ledger_challenge app keys id _ _ _ _)
  | challengeAccept name => exact challengeAccept app keys id name
  | challengeDecline name =>
    refine of_ledger ?_
    change (app.challengeDecline keys id name).ledger = app.ledger
    unfold challengeDecline
    split
    · exact ledger_send _ _ _
    · rfl
  | rejoin matchId token name => exact rejoin app id matchId token name
  | resync => exact request app id .resync
  | leaveMatch => exact request app id .forfeit
  | spectate matchId => exact spectate app id matchId

/-! ## Connections and loops -/

theorem ledger_disconnect (app : App ρ) (keys : List ConnId) (id : ConnId) :
    (app.disconnect keys id).ledger = app.ledger := by
  have declined (name : String) (aimed : List ConnId) (k : App ρ) :
      (aimed.foldl (fun k cid =>
        (k.clearChallenge cid).send cid (.challengeDeclined name)) k).ledger = k.ledger := by
    induction aimed generalizing k with
    | nil => rfl
    | cons cid aimed ih =>
      rw [List.foldl_cons, ih, ledger_send, ledger_clearChallenge]
  unfold disconnect
  dsimp only
  split
  · split
    · exact declined _ _ _
    · refine (ledger_send _ _ _).trans (declined _ _ _)
  · exact declined _ _ _

theorem obey (app : App ρ) (m : MatchId) : Books host app (app.obey m) := by
  unfold App.obey
  split
  · next t task =>
    split
    · exact retask task rfl rfl
    · exact refl app
  · exact refl app

theorem exit (app : App ρ) (m : MatchId) (how : BoutEnd) : Books host app (app.exit m how) := by
  unfold App.exit
  split
  · next t task =>
    split
    · exact retask task rfl rfl
    · exact refl app
  · exact refl app

end Books

/-! ## Settling -/

/-- What a rated match leaves behind: the two ratings it computed from those the loop
brought along, and one bout less. -/
structure Settles (host : Host ρ) (app : App ρ) (x : Settlement ρ) (app' : App ρ) : Prop where
  task : app.tasks x.m = some x.task
  ratings : app'.ratings = Function.update
    (Function.update app.ratings (x.task.name .a)
      (some (host.rateMatch (x.task.state .a) (x.task.state .b) x.outcome).1))
    (x.task.name .b) (some (host.rateMatch (x.task.state .a) (x.task.state .b) x.outcome).2)
  tasks : app'.tasks = Function.update app.tasks x.m none
  nextMatch : app'.nextMatch = app.nextMatch

theorem Settles.ratingFor_name {x : Settlement ρ} (settles : Settles host app x app')
    (apart : x.task.name .a ≠ x.task.name .b) :
    app'.ratingFor host (x.task.name .a) =
        (host.rateMatch (x.task.state .a) (x.task.state .b) x.outcome).1 ∧
      app'.ratingFor host (x.task.name .b) =
        (host.rateMatch (x.task.state .a) (x.task.state .b) x.outcome).2 := by
  unfold ratingFor
  rw [settles.ratings]
  constructor
  · rw [Function.update_of_ne apart, Function.update_self]
    rfl
  · rw [Function.update_self]
    rfl

theorem Settles.ratingFor_other {x : Settlement ρ} {name : String}
    (settles : Settles host app x app') (out : x.sides name = 0) :
    app'.ratingFor host name = app.ratingFor host name := by
  unfold ratingFor
  rw [settles.ratings, Function.update_of_ne (Settlement.sides_eq_zero out .b).symm,
    Function.update_of_ne (Settlement.sides_eq_zero out .a).symm]

/-- A match between two names whose stored ratings the loop holds gives each of them one
match more, and leaves the other names as they are. -/
theorem Settles.experience {x : Settlement ρ} (settles : Settles host app x app')
    (apart : x.task.name .a ≠ x.task.name .b)
    (held : ∀ s, x.task.state s = app.ratingFor host (x.task.name s)) (name : String) :
    (app'.ratingFor host name).experience =
      (app.ratingFor host name).experience + UInt32.ofNat (x.sides name) := by
  obtain ⟨nameA, nameB⟩ := settles.ratingFor_name apart
  rcases eq_or_ne (x.task.name .a) name with rfl | notA
  · rw [nameA, Settlement.sides_name apart .a, ← held .a]
    rfl
  · rcases eq_or_ne (x.task.name .b) name with rfl | notB
    · rw [nameB, Settlement.sides_name apart .b, ← held .b]
      rfl
    · have out : x.sides name = 0 := by
        unfold Settlement.sides
        rw [if_neg notA, if_neg notB]
      rw [settles.ratingFor_other out, out]
      exact (UInt32.add_zero _).symm

/-- The state once the clients of a bout that ended have left it. -/
def released (app : App ρ) (m : MatchId) (t : Task ρ) : App ρ :=
  let app := { app with
    bouts := Function.update app.bouts m none, tasks := Function.update app.tasks m none }
  (app.modifyClient (t.id .a) leave).modifyClient (t.id .b) leave

theorem cleanup_broken {m : MatchId} {t : Task ρ} {how : BoutEnd} (task : app.tasks m = some t)
    (broken : t.broken = some how) : app.cleanup host m =
      match how.aWon with
      | some aWon => (app.released m t).settleBout host m t aWon how.aLines how.bLines
      | none => app.released m t := by
  unfold cleanup
  rw [task]
  dsimp only
  rw [broken]
  rfl

theorem ledger_settleBout (host : Host ρ) (app : App ρ) {m : MatchId} (t : Task ρ)
    (how : BoutEnd) (aWon : Bool) (unsettled : m ∉ app.settled) :
    let rated := host.rateMatch (t.state .a) (t.state .b) (how.outcome aWon)
    (app.settleBout host m t aWon how.aLines how.bLines).ledger =
      ((app.storeRating (t.name .a) rated.1).storeRating (t.name .b) rated.2).ledger := by
  unfold settleBout
  rw [if_neg unsettled]
  exact (ledger_send _ _ _).trans (ledger_send _ _ _)

theorem step_settles (host : Host ρ) {e : Event} {x : Settlement ρ}
    (rated : app.settlement e = some x) :
    Settles host app x (app.step host e) := by
  cases e with
  | cleanup m =>
    unfold settlement at rated
    dsimp only at rated
    split at rated
    · cases rated
    next unsettled =>
    obtain ⟨t, task, rated⟩ := Option.bind_eq_some_iff.mp rated
    obtain ⟨how, broken, rated⟩ := Option.bind_eq_some_iff.mp rated
    obtain ⟨aWon, won, rfl⟩ := Option.map_eq_some_iff.mp rated
    have after := ledger_settleBout host (app.released m t) t how aWon unsettled
    change Settles host app _ (app.cleanup host m)
    rw [cleanup_broken task broken, won]
    obtain ⟨ratings, rest⟩ := Prod.mk.inj after
    obtain ⟨tasks, nextMatch⟩ := Prod.mk.inj rest
    exact ⟨task, ratings, tasks, nextMatch⟩
  | _ => cases rated

theorem books_released (app : App ρ) (m : MatchId) (t : Task ρ) :
    Books host app (app.released m t) := by
  refine ⟨rfl, le_rfl, fun m' t' running => .inl ⟨t', ?_, rfl, rfl⟩⟩
  change Function.update app.tasks m none m' = some t' at running
  rcases eq_or_ne m' m with rfl | apart
  · rw [Function.update_self] at running
    cases running
  · rwa [Function.update_of_ne apart] at running

/-- Every other step keeps the books. -/
theorem books_step (host : Host ρ) {e : Event} (unrated : app.settlement e = none) :
    Books host app (app.step host e) := by
  cases e with
  | connect id =>
    refine .of_ledger ?_
    change (app.connect host id).ledger = app.ledger
    unfold connect
    split <;> rfl
  | message keys id msg =>
    change Books host app
      (if (app.clients id).isSome then app.handleMessage host keys id msg else app)
    split
    · exact .handleMessage app keys id msg
    · exact .refl app
  | disconnect keys id =>
    change Books host app (if (app.clients id).isSome then app.disconnect keys id else app)
    split
    · exact .of_ledger (Books.ledger_disconnect app keys id)
    · exact .refl app
  | timeout challenger tid deadline target =>
    refine .of_ledger ?_
    change (app.timeout challenger tid deadline target).ledger = app.ledger
    unfold timeout
    split
    · exact ledger_send _ _ _
    · rfl
  | drain => exact .of_ledger rfl
  | obey m => exact .obey app m
  | exit m how => exact .exit app m how
  | cleanup m =>
    change Books host app (app.cleanup host m)
    cases task : app.tasks m with
    | none =>
      unfold cleanup
      rw [task]
      exact .refl app
    | some t =>
      cases broken : t.broken with
      | none =>
        unfold cleanup
        rw [task]
        dsimp only
        rw [broken]
        exact .refl app
      | some how =>
        rw [cleanup_broken task broken]
        cases won : how.aWon with
        | none => exact books_released app m t
        | some aWon =>
          have settled : m ∈ app.settled := by
            by_contra unsettled
            unfold settlement at unrated
            dsimp only at unrated
            rw [if_neg unsettled, task, Option.bind_some, broken, Option.bind_some, won] at unrated
            cases unrated
          dsimp only
          unfold settleBout
          rw [if_pos (show m ∈ (app.released m t).settled from settled)]
          exact books_released app m t

end App

/-! ## Counting -/

/-- A state of the server, the settled sides of each name, and those of them that were
settled while a bout that still runs was running. -/
structure Tally (ρ : Type) where
  app : App ρ
  sides : String → Nat
  since : MatchId → String → Nat

namespace Tally

variable {ρ : Type} {host : Host ρ} {w : Tally ρ}

def boot (ratings : String → Option (PlayerState ρ)) : Tally ρ where
  app := .boot ratings
  sides := fun _ => 0
  since := fun _ _ => 0

/-- The sides of a name that the step settles. -/
def gained (w : Tally ρ) (e : App.Event) (name : String) : Nat :=
  ((w.app.settlement e).map (·.sides name)).getD 0

def step (host : Host ρ) (w : Tally ρ) (e : App.Event) : Tally ρ where
  app := w.app.step host e
  sides := fun name => w.sides name + w.gained e name
  since := fun m name =>
    if (w.app.tasks m).isNone then 0 else w.since m name + w.gained e name

/-- A match that the step settles was between two names, and no side of either has been
settled since it started. -/
def Undisturbed (w : Tally ρ) (e : App.Event) : Prop :=
  ∀ x, w.app.settlement e = some x →
    x.task.name .a ≠ x.task.name .b ∧ ∀ s, w.since x.m (x.task.name s) = 0

/-- The count of matches is that of the settled sides, and a bout holds the stored rating
of each player who has had nothing settled since. -/
structure Current (host : Host ρ) (ratings : String → Option (PlayerState ρ)) (w : Tally ρ) :
    Prop where
  experience : ∀ name, (w.app.ratingFor host name).experience =
    ((App.boot ratings).ratingFor host name).experience + UInt32.ofNat (w.sides name)
  fresh : ∀ m, w.app.nextMatch ≤ m → w.app.tasks m = none
  state : ∀ m t s, w.app.tasks m = some t → w.since m (t.name s) = 0 →
    t.state s = w.app.ratingFor host (t.name s)

theorem gained_none {e : App.Event} (unrated : w.app.settlement e = none) (name : String) :
    w.gained e name = 0 := by
  unfold gained
  rw [unrated]
  rfl

theorem gained_some {e : App.Event} {x : Settlement ρ} (rated : w.app.settlement e = some x)
    (name : String) : w.gained e name = x.sides name := by
  unfold gained
  rw [rated]
  rfl

/-- A step that settles nothing keeps the count, and a bout that starts is up to date. -/
theorem Current.books {ratings : String → Option (PlayerState ρ)} {e : App.Event}
    (current : w.Current host ratings) (unrated : w.app.settlement e = none) :
    (w.step host e).Current host ratings := by
  have books := App.books_step host unrated
  have same (name : String) : (w.step host e).app.ratingFor host name = w.app.ratingFor host name :=
    App.ratingFor_congr books.ratings name
  refine ⟨fun name => ?_, fun m late => ?_, fun m t' s running quiet => ?_⟩
  · rw [same, current.experience]
    change _ = _ + UInt32.ofNat (w.sides name + w.gained e name)
    rw [gained_none unrated, Nat.add_zero]
  · by_contra running
    obtain ⟨t', running⟩ := Option.ne_none_iff_exists'.mp running
    rcases books.tasks m t' running with ⟨t, before, -⟩ | ⟨-, below, -⟩
    · rw [current.fresh m (books.nextMatch.trans late)] at before
      cases before
    · exact absurd late (Nat.not_le.mpr below)
  · rw [same]
    rcases books.tasks m t' running with ⟨t, before, name, state⟩ | ⟨-, -, taken⟩
    · rw [name, state]
      refine current.state m t s before ?_
      change (if (w.app.tasks m).isNone then 0 else w.since m _ + w.gained e _) = 0 at quiet
      rw [before, gained_none unrated, name] at quiet
      exact quiet
    · exact taken s

/-- A match between two names whose stored ratings the loop holds is counted. -/
theorem Current.settles {ratings : String → Option (PlayerState ρ)} {e : App.Event}
    {x : Settlement ρ} (current : w.Current host ratings) (rated : w.app.settlement e = some x)
    (undisturbed : w.Undisturbed e) : (w.step host e).Current host ratings := by
  have settles := App.step_settles host rated
  obtain ⟨apart, quiet⟩ := undisturbed x rated
  refine ⟨fun name => ?_, fun m late => ?_, fun m t s running quiet => ?_⟩
  · rw [show (w.step host e).app = w.app.step host e from rfl]
    have held (s : Side) : x.task.state s = w.app.ratingFor host (x.task.name s) :=
      current.state x.m x.task s settles.task (quiet s)
    rw [settles.experience apart held, current.experience]
    change _ = _ + UInt32.ofNat (w.sides name + w.gained e name)
    rw [gained_some rated, UInt32.ofNat_add, UInt32.add_assoc]
  · change (w.app.step host e).nextMatch ≤ m at late
    rw [settles.nextMatch] at late
    change (w.app.step host e).tasks m = none
    rw [settles.tasks]
    rcases eq_or_ne m x.m with rfl | other
    · exact Function.update_self ..
    · exact (Function.update_of_ne other _ _).trans (current.fresh m late)
  · change (w.app.step host e).tasks m = some t at running
    rw [settles.tasks] at running
    rcases eq_or_ne m x.m with rfl | other
    · rw [Function.update_self] at running
      cases running
    · rw [Function.update_of_ne other] at running
      change (if (w.app.tasks m).isNone then 0 else w.since m _ + w.gained e _) = 0 at quiet
      rw [running, gained_some rated] at quiet
      obtain ⟨before, out⟩ := Nat.add_eq_zero_iff.mp quiet
      rw [current.state m t s running before]
      exact (settles.ratingFor_other out).symm

theorem Current.step {ratings : String → Option (PlayerState ρ)} {e : App.Event}
    (current : w.Current host ratings) (undisturbed : w.Undisturbed e) :
    (w.step host e).Current host ratings := by
  cases rated : w.app.settlement e with
  | none => exact current.books rated
  | some x => exact current.settles rated undisturbed

theorem current_boot (ratings : String → Option (PlayerState ρ)) :
    (boot ratings).Current host ratings :=
  ⟨fun _ => (UInt32.add_zero _).symm, fun _ _ => rfl, nofun⟩

/-- In a run whose settlements are all undisturbed, the stored experience of every name is
its initial one and the sides it has settled, and the next undisturbed settlement rates
the ratings that are stored then. -/
theorem ratings_kept {ratings : String → Option (PlayerState ρ)} {events : List App.Event}
    (run : Run Undisturbed (step host) (boot ratings) events w) :
    (∀ name, (w.app.ratingFor host name).experience =
      ((App.boot ratings).ratingFor host name).experience + UInt32.ofNat (w.sides name)) ∧
    ∀ e x, w.app.settlement e = some x → w.Undisturbed e →
      ((w.app.step host e).ratingFor host (x.task.name .a),
        (w.app.step host e).ratingFor host (x.task.name .b)) =
      host.rateMatch (w.app.ratingFor host (x.task.name .a))
        (w.app.ratingFor host (x.task.name .b)) x.outcome := by
  have current : w.Current host ratings :=
    run.invariant (fun w e current undisturbed => current.step undisturbed) (current_boot ratings)
  refine ⟨current.experience, fun e x rated undisturbed => ?_⟩
  have settles := App.step_settles host rated
  obtain ⟨apart, quiet⟩ := undisturbed x rated
  obtain ⟨nameA, nameB⟩ := settles.ratingFor_name apart
  have held (s : Side) : x.task.state s = w.app.ratingFor host (x.task.name s) :=
    current.state x.m x.task s settles.task (quiet s)
  rw [nameA, nameB, held .a, held .b]

/-- amy plays ben over one connection and cal over another at the same time. -/
def twoTabs : List App.Event :=
  let keys := [1, 2, 3, 4]
  [.connect 1, .connect 2, .connect 3, .connect 4, .message keys 1 (.queue none (some "amy")),
    .message keys 2 (.queue none (some "ben")), .message keys 3 (.queue none (some "amy")),
    .message keys 4 (.queue none (some "cal")), .exit 0 ⟨some true, 0, 0⟩,
    .exit 1 ⟨some true, 0, 0⟩]

/-- Both bouts are settled, and one of amy's two matches is lost. -/
theorem second_bout_overwrites :
    let cleanups := [App.Event.cleanup 0, .cleanup 1]
    let w := (twoTabs ++ cleanups).foldl (step freshHost) (boot fun _ => none)
    (w.app.tasks 0).isNone = true ∧ (w.app.tasks 1).isNone = true ∧ w.sides "amy" = 2 ∧
      (w.app.ratingFor freshHost "amy").experience = 1 := by
  decide +kernel

/-- The first of the two settlements is undisturbed. -/
theorem ratings_kept_first :
    let w := (twoTabs ++ [App.Event.cleanup 0]).foldl (step freshHost) (boot fun _ => none)
    (∀ name, (w.app.ratingFor freshHost name).experience =
      ((App.boot fun _ => none).ratingFor freshHost name).experience +
        UInt32.ofNat (w.sides name)) ∧
    ∀ e x, w.app.settlement e = some x → w.Undisturbed e →
      ((w.app.step freshHost e).ratingFor freshHost (x.task.name .a),
        (w.app.step freshHost e).ratingFor freshHost (x.task.name .b)) =
      freshHost.rateMatch (w.app.ratingFor freshHost (x.task.name .a))
        (w.app.ratingFor freshHost (x.task.name .b)) x.outcome := by
  have started : Run Undisturbed (step freshHost) (boot fun _ => none) twoTabs
      (twoTabs.foldl (step freshHost) (boot fun _ => none)) := by
    refine Run.of_foldl fun w e mem => ?_
    simp only [twoTabs, List.mem_cons, List.not_mem_nil, or_false] at mem
    intro x rated
    rcases mem with rfl | rfl | rfl | rfl | rfl | rfl | rfl | rfl | rfl | rfl <;> cases rated
  have undisturbed :
      (twoTabs.foldl (step freshHost) (boot fun _ => none)).Undisturbed (.cleanup 0) := by
    have names : ((twoTabs.foldl (step freshHost) (boot fun _ => none)).app.settlement
        (.cleanup 0)).map (fun x => (x.m, x.task.name .a, x.task.name .b)) =
          some (0, "amy", "ben") := by
      decide +kernel
    have quiet : (twoTabs.foldl (step freshHost) (boot fun _ => none)).since 0 "amy" = 0 ∧
        (twoTabs.foldl (step freshHost) (boot fun _ => none)).since 0 "ben" = 0 := by
      decide +kernel
    intro x rated
    rw [rated, Option.map_some] at names
    injection names with names
    injection names with m names
    injection names with nameA nameB
    rw [m, nameA, nameB]
    refine ⟨by decide, fun s => ?_⟩
    cases s
    · rw [nameA]
      exact quiet.1
    · rw [nameB]
      exact quiet.2
  dsimp only
  rw [List.foldl_append]
  exact ratings_kept (started.snoc undisturbed)

end Tally

end BattleTris
