import BattleTris.Server.Lobby

/-!
Who gets a seat by a rejoin message.

`Seated` is the one way a rejoin succeeds; everything else is answered with
`rejoinFailed` and changes nothing.
-/

namespace BattleTris

deriving instance DecidableEq for BoutControl

namespace App

variable {ρ : Type} {host : Host ρ} {app : App ρ} {id : ConnId} {matchId : Option MatchId}
  {token name : Option String}

/-! ## Names -/

/-- A token that verifies settles the name. -/
theorem nameOf_signed {tok signed : String} (carried : token = some tok)
    (verifies : host.verifyToken tok = some signed) :
    app.nameOf host id token name = signed := by
  subst carried
  unfold nameOf resolveName
  rw [Option.bind_some, verifies]

theorem sideOf_name {h : BoutHandle} {player : String} {side : Side}
    (plays : sideOf h player = some side) : h.name side = player := by
  unfold sideOf at plays
  split at plays
  · next here =>
    cases plays
    exact here.2
  · split at plays
    · next here =>
      cases plays
      exact here.2
    · cases plays

/-- Side B is found only if side A has another name. -/
theorem sideOf_first {h : BoutHandle} {player : String} {side : Side}
    (plays : sideOf h player = some side) (shared : h.name .a = h.name .b) : side = .a := by
  unfold sideOf at plays
  split at plays
  · cases plays
    rfl
  · next absent =>
    split at plays
    · next here => exact absurd ⟨here.1, shared.trans here.2⟩ absent
    · cases plays

/-! ## The outcomes of a rejoin -/

/-- The connection is handed to the loop of the bout as the socket of a side, and bound
to it; nobody else's binding changes, and no other loop hears of it. -/
structure Seated (app : App ρ) (id : ConnId) (m : MatchId) (side : Side) (app' : App ρ) :
    Prop where
  asked : ∃ t, app.tasks m = some t ∧ t.controlRx.length < boutControlCap ∧
    app'.tasks =
      Function.update app.tasks m (some { t with controlRx := t.controlRx ++ [.reattach side id] })
  bound : (app'.clients id).bind Client.bout = some (m, side)
  status : (app'.clients id).bind Client.status = some .inGame
  others : ∀ x, x ≠ id → app'.clients x = app.clients x
  kept : (app'.waiting, app'.challenges, app'.bouts, app'.nextMatch) =
    (app.waiting, app.challenges, app.bouts, app.nextMatch)

theorem trySend_eq {m : MatchId} {c : BoutControl} {app' : App ρ}
    (sent : app.trySend m c = some app') :
    ∃ t, app.tasks m = some t ∧ t.controlRx.length < boutControlCap ∧
      app' = { app with
        tasks := Function.update app.tasks m
          (some { t with controlRx := t.controlRx ++ [c] }) } := by
  unfold trySend at sent
  cases task : app.tasks m with
  | none =>
    rw [task] at sent
    cases sent
  | some t =>
    rw [task] at sent
    dsimp only at sent
    split at sent
    · next room => exact ⟨t, rfl, room, (Option.some.inj sent).symm⟩
    · cases sent

theorem trySend_some {m : MatchId} {t : Task ρ} (task : app.tasks m = some t)
    (room : t.controlRx.length < boutControlCap) (c : BoutControl) :
    (app.trySend m c).isSome = true := by
  unfold trySend
  rw [task]
  dsimp only
  rw [if_pos room]
  rfl

/-- The message can be served: the bout is registered, its loop takes a control, and the
name it resolves to plays `side`. -/
def Serves (host : Host ρ) (app : App ρ) (id : ConnId) (matchId : Option MatchId)
    (token name : Option String) (m : MatchId) (h : BoutHandle) (side : Side) : Prop :=
  matchId = some m ∧ app.bouts m = some h ∧
    sideOf h (app.nameOf host id token name) = some side ∧
    ∃ t, app.tasks m = some t ∧ t.controlRx.length < boutControlCap

/-- A rejoin seats its sender on the side of its name, or fails. -/
theorem rejoin_cases (host : Host ρ) (matchId : Option MatchId) (token name : Option String)
    (connected : (app.clients id).isSome = true) :
    (∃ m h side, app.Serves host id matchId token name m h side ∧
      app.Seated id m side (app.rejoin host id matchId token name)) ∨
    (∀ m h side, ¬app.Serves host id matchId token name m h side) ∧
      app.rejoin host id matchId token name = app.send id .rejoinFailed := by
  obtain ⟨c, here⟩ := Option.isSome_iff_exists.mp connected
  have refused {found : Option (MatchId × Side)}
      (same : (matchId.bind fun m => (app.bouts m).bind fun h =>
        (sideOf h (app.nameOf host id token name)).map fun s => (m, s)) = found)
      (unserved : ∀ m side, found = some (m, side) → app.trySend m (.reattach side id) = none) :
      ∀ m h side, ¬app.Serves host id matchId token name m h side := by
    rintro m h side ⟨rfl, registered, plays, t, task, room⟩
    rw [Option.bind_some, registered, Option.bind_some, plays, Option.map_some] at same
    have sent := trySend_some task room (.reattach side id)
    rw [unserved m side same.symm] at sent
    cases sent
  unfold rejoin
  dsimp only
  generalize found : (matchId.bind fun m => (app.bouts m).bind fun h =>
    (sideOf h (app.nameOf host id token name)).map fun s => (m, s)) = seat
  cases seat with
  | none => exact .inr ⟨refused found nofun, rfl⟩
  | some seat =>
    obtain ⟨m, side⟩ := seat
    dsimp only
    cases sent : app.trySend m (.reattach side id) with
    | none =>
      refine .inr ⟨refused found fun m' side' same => ?_, rfl⟩
      cases same
      exact sent
    | some app' =>
      obtain ⟨t, task, room, rfl⟩ := trySend_eq sent
      obtain ⟨m', rfl, registered⟩ := Option.bind_eq_some_iff.mp found
      obtain ⟨h, known, plays⟩ := Option.bind_eq_some_iff.mp registered
      obtain ⟨side', plays, same⟩ := Option.map_eq_some_iff.mp plays
      cases same
      refine .inl ⟨m, h, side, ⟨rfl, known, plays, t, task, room⟩,
        ⟨t, task, room, rfl⟩, ?_, ?_, ?_, rfl⟩
      · unfold modifyClient
        dsimp only
        rw [Function.update_self, here]
        rfl
      · unfold modifyClient
        dsimp only
        rw [Function.update_self, here]
        rfl
      · intro x apart
        unfold modifyClient
        exact Function.update_of_ne apart _ _

/-- A seat taken is told from a failure: the loop was asked. -/
theorem Seated.ne_send {m : MatchId} {side : Side} {app' : App ρ}
    (seated : app.Seated id m side app') (frame : LobbyFrame ρ) : app' ≠ app.send id frame := by
  obtain ⟨t, task, -, asked⟩ := seated.asked
  have same : (app.send id frame).tasks = app.tasks := by
    unfold send
    split <;> rfl
  intro failed
  have queue := congrFun asked m
  rw [failed, same, Function.update_self, task] at queue
  have lengths := congrArg (fun t : Option (Task ρ) => t.map (·.controlRx.length)) queue
  simp at lengths

theorem Seated.unique {m m' : MatchId} {side side' : Side} {app' : App ρ}
    (seated : app.Seated id m side app') (seated' : app.Seated id m' side' app') :
    m = m' ∧ side = side' := by
  have same := Option.some.inj (seated.bound.symm.trans seated'.bound)
  exact Prod.mk.inj same

/-! ## Whose seat it is -/

/-- The side belongs to the sender: its token verifies to the name there, and if both
sides have this name, it was seated on this one. -/
def OwnSeat (host : Host ρ) (token : Option String) (was : Side) (h : BoutHandle)
    (side : Side) : Prop :=
  (∃ tok, token = some tok ∧ host.verifyToken tok = some (h.name side)) ∧
    (h.name side.other = h.name side → side = was)

/-- The rejoin of a player that was seated on `was` is answered as it should be: it takes
the player's own seat in a registered bout and touches nobody else's, or it fails. -/
def Fairly (host : Host ρ) (app : App ρ) (id : ConnId) (token : Option String) (was : Side)
    (app' : App ρ) : Prop :=
  (∃ m h side, app.bouts m = some h ∧ app.Seated id m side app' ∧ OwnSeat host token was h side) ∨
    app' = app.send id .rejoinFailed

/-- The message cannot be served, or it carries a token that verifies, and a name that
both sides have is that of the player on side A. -/
def Entitled (host : Host ρ) (app : App ρ) (id : ConnId) (matchId : Option MatchId)
    (token name : Option String) (was : Side) : Prop :=
  ∀ m h side, app.Serves host id matchId token name m h side →
    (∃ tok, token = some tok ∧ (host.verifyToken tok).isSome = true) ∧
      (h.name .a = h.name .b → was = .a)

/-- In every state, a rejoin gives a seat to its owner only, or fails, exactly if the
message is entitled. -/
theorem rejoin_fairly_iff (connected : (app.clients id).isSome = true) (was : Side) :
    app.Fairly host id token was (app.rejoin host id matchId token name) ↔
      app.Entitled host id matchId token name was := by
  rcases rejoin_cases host matchId token name connected with
    ⟨m, h, side, serves, seated⟩ | ⟨unserved, failed⟩
  · have served := serves
    obtain ⟨asked, registered, plays, -⟩ := served
    have named := sideOf_name plays
    have first (shared : h.name .a = h.name .b) : side = .a := sideOf_first plays shared
    constructor
    · rintro (⟨m', h', side', registered', seated', signed, mine⟩ | failed)
      · obtain ⟨rfl, rfl⟩ := seated.unique seated'
        obtain rfl := Option.some.inj (registered.symm.trans registered')
        obtain ⟨tok, carried, verifies⟩ := signed
        rintro m₂ h₂ side₂ ⟨asked₂, registered₂, plays₂, -⟩
        obtain rfl := Option.some.inj (asked.symm.trans asked₂)
        obtain rfl := Option.some.inj (registered.symm.trans registered₂)
        refine ⟨⟨tok, carried, by rw [verifies]; rfl⟩, fun shared => ?_⟩
        obtain rfl := first shared
        exact (mine shared.symm).symm
      · exact absurd failed (seated.ne_send _)
    · intro entitled
      obtain ⟨⟨tok, carried, verifies⟩, shared⟩ := entitled m h side serves
      obtain ⟨signed, verifies⟩ := Option.isSome_iff_exists.mp verifies
      have own : app.nameOf host id token name = signed := nameOf_signed carried verifies
      refine .inl ⟨m, h, side, registered, seated, ⟨tok, carried, ?_⟩, fun same => ?_⟩
      · rw [verifies, named, own]
      · have both : h.name .a = h.name .b := by
          cases side
          · exact same.symm
          · exact same
        rw [first both, shared both]
  · exact iff_of_true (.inr failed) fun m h side serves => absurd serves (unserved m h side)

/-- Two guests, amy and ben, are matched; a third connection looks on. -/
def guestsQueue : List Event :=
  [.connect 1, .connect 2, .connect 3, .message [1, 2, 3] 1 (.queue none (some "amy")),
    .message [1, 2, 3] 2 (.queue none (some "ben"))]

def guestsMeet : App (Int × Int) := guestsQueue.foldl (step freshHost) (boot fun _ => none)

/-- The third connection calls itself amy, without a token, and is handed her side while
she is playing. -/
theorem rejoin_bare_name :
    let app := guestsMeet.step freshHost
      (.message [1, 2, 3] 3 (.rejoin (some 0) none (some "amy")))
    (app.tasks 0).map Task.controlRx = some [.reattach .a 3] ∧
      (app.clients 3).bind Client.bout = some (0, .a) ∧
      (guestsMeet.clients 1).bind Client.bout = some (0, .a) := by
  decide +kernel

theorem rejoin_fairly_guest :
    guestsMeet.Fairly freshHost 3 none .a
        (guestsMeet.rejoin freshHost 3 (some 0) none (some "amy")) ↔
      guestsMeet.Entitled freshHost 3 (some 0) none (some "amy") .a :=
  rejoin_fairly_iff (by decide +kernel) .a

/-! ## The loop -/

/-- A loop replaces the connection of a side by a control for this side only. -/
theorem obey_id {m : MatchId} {t t' : Task ρ} (task : app.tasks m = some t)
    (after : (app.obey m).tasks m = some t') (x : Side) :
    t'.id x = t.id x ∨ ∃ newId rest, t.controlRx = .reattach x newId :: rest ∧ t'.id x = newId := by
  unfold obey at after
  rw [task] at after
  dsimp only at after
  split at after
  · next c rest _ queue =>
    dsimp only at after
    rw [Function.update_self] at after
    cases after
    cases c with
    | reattach side newId =>
      rcases eq_or_ne x side with rfl | apart
      · exact .inr ⟨newId, rest, queue, Function.update_self ..⟩
      · exact .inl (Function.update_of_ne apart _ _)
    | _ => exact .inl rfl
  · cases task.symm.trans after
    exact .inl rfl

end App

end BattleTris
