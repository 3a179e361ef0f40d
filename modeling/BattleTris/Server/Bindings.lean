import BattleTris.Lib.Loop
import BattleTris.Lib.Run
import BattleTris.Server.Rejoin

/-!
The bindings of clients to bouts over whole runs of the server.

`Consistent` is the invariant: a bound client holds the seat that the loop will know once
it has taken its controls.  `Quiets` covers the many steps that bind, queue and challenge
nobody new.
-/

namespace BattleTris

/-- The connection of a side once the loop has taken the controls that wait. -/
def Task.seat {ρ : Type} (t : Task ρ) : Side → ConnId := t.controlRx.foldl App.adopt t.id

namespace App

variable {ρ : Type} {host : Host ρ} {app app' app'' : App ρ} {id : ConnId}

/-! ## Presence -/

/-- The bout and the status of a connected client. -/
def presence (app : App ρ) (x : ConnId) : Option (Option (MatchId × Side) × Option Status) :=
  (app.clients x).map fun c => (c.bout, c.status)

/-- The client's inputs go to a side of the bout. -/
def Bound (app : App ρ) (x : ConnId) (m : MatchId) (side : Side) : Prop :=
  (app.clients x).bind Client.bout = some (m, side)

/-- The client has a pending challenge, or is the target of one. -/
def Challenging (app : App ρ) (x : ConnId) : Prop :=
  app.challenges x ≠ none ∨ ∃ k t, app.challenges k = some t ∧ t.1 = x

theorem presence_modifyClient (app : App ρ) (id : ConnId) (f : Client ρ → Client ρ) (x : ConnId) :
    (app.modifyClient id f).presence x =
      if x = id then (app.clients id).map fun c => ((f c).bout, (f c).status)
      else app.presence x := by
  unfold presence modifyClient
  rcases eq_or_ne x id with rfl | apart
  · dsimp only
    rw [Function.update_self, if_pos rfl, Option.map_map]
    rfl
  · dsimp only
    rw [Function.update_of_ne apart, if_neg apart]

theorem bound_iff {x : ConnId} {m : MatchId} {side : Side} :
    app.Bound x m side ↔ ∃ st, app.presence x = some (some (m, side), st) := by
  unfold Bound presence
  cases app.clients x with
  | none => exact ⟨nofun, nofun⟩
  | some c =>
    constructor
    · intro bound
      exact ⟨c.status, congrArg (fun b => some (b, c.status)) bound⟩
    · rintro ⟨st, same⟩
      exact congrArg Prod.fst (Option.some.inj same)

theorem presence_send (app : App ρ) (id : ConnId) (frame : LobbyFrame ρ) (x : ConnId) :
    (app.send id frame).presence x = app.presence x := by
  unfold send
  split <;> rfl

/-! ## Steps that bind nobody -/

/-- Nobody is bound, queued or challenged anew, and the bouts stay as they are. -/
structure Quiets (app app' : App ρ) : Prop where
  presence : ∀ x b st, app'.presence x = some (some b, st) → app.presence x = some (some b, st)
  waiting : ∀ x, x ∈ app'.waiting → x ∈ app.waiting
  challenges : ∀ k t, app'.challenges k = some t → app.challenges k = some t
  bouts : app'.bouts = app.bouts
  tasks : app'.tasks = app.tasks
  nextMatch : app'.nextMatch = app.nextMatch

namespace Quiets

theorem refl (app : App ρ) : Quiets app app :=
  ⟨fun _ _ _ here => here, fun _ mem => mem, fun _ _ pending => pending, rfl, rfl, rfl⟩

theorem trans (first : Quiets app app') (second : Quiets app' app'') : Quiets app app'' where
  presence x b st here := first.presence x b st (second.presence x b st here)
  waiting x mem := first.waiting x (second.waiting x mem)
  challenges k t pending := first.challenges k t (second.challenges k t pending)
  bouts := second.bouts.trans first.bouts
  tasks := second.tasks.trans first.tasks
  nextMatch := second.nextMatch.trans first.nextMatch

theorem send (app : App ρ) (id : ConnId) (frame : LobbyFrame ρ) :
    Quiets app (app.send id frame) := by
  unfold App.send
  split
  · exact ⟨fun _ _ _ here => here, fun _ mem => mem, fun _ _ pending => pending, rfl, rfl, rfl⟩
  · exact refl app

/-- A change of a client that binds it to no bout, and keeps a bound one's presence. -/
theorem modifyClient (app : App ρ) (id : ConnId) (f : Client ρ → Client ρ)
    (keeps : ∀ c b, app.clients id = some c → (f c).bout = some b →
      (f c).bout = c.bout ∧ (f c).status = c.status) : Quiets app (app.modifyClient id f) := by
  refine ⟨fun x b st here => ?_, fun _ mem => mem, fun _ _ pending => pending, rfl, rfl, rfl⟩
  rw [presence_modifyClient] at here
  split at here
  · next same =>
    subst same
    obtain ⟨c, known, same⟩ := Option.map_eq_some_iff.mp here
    obtain ⟨bout, status⟩ := Prod.mk.inj same
    obtain ⟨keptBout, keptStatus⟩ := keeps c b known bout
    unfold App.presence
    rw [known, Option.map_some, ← keptBout, ← keptStatus, bout, status]
  · exact here

theorem clearChallenge (app : App ρ) (id : ConnId) : Quiets app (app.clearChallenge id) := by
  refine ⟨fun _ _ _ here => here, fun _ mem => mem, fun k t pending => ?_, rfl, rfl, rfl⟩
  unfold App.clearChallenge at pending
  rcases eq_or_ne k id with rfl | apart
  · dsimp only at pending
    rw [Function.update_self] at pending
    cases pending
  · dsimp only at pending
    rwa [Function.update_of_ne apart] at pending

theorem filterWaiting (app : App ρ) (p : ConnId → Bool) :
    Quiets app { app with waiting := app.waiting.filter p } :=
  ⟨fun _ _ _ here => here, fun _ mem => (List.mem_filter.mp mem).1, fun _ _ pending => pending,
    rfl, rfl, rfl⟩

end Quiets

theorem Challenging.quiets {x : ConnId} (quiets : Quiets app app')
    (challenging : app'.Challenging x) : app.Challenging x := by
  rcases challenging with own | ⟨k, t, pending, target⟩
  · obtain ⟨t, pending⟩ := Option.ne_none_iff_exists'.mp own
    exact .inl (by rw [quiets.challenges x t pending]; nofun)
  · exact .inr ⟨k, t, quiets.challenges k t pending, target⟩

/-! ## The invariant -/

structure Consistent (app : App ρ) : Prop where
  /-- A bound client holds its seat in a registered bout. -/
  seat : ∀ {x m side}, app.Bound x m side → (app.bouts m).isSome = true ∧
    ∃ t, app.tasks m = some t ∧ t.seat side = x
  fresh : ∀ m, app.nextMatch ≤ m → app.tasks m = none
  /-- A loop that has broken knows its clients. -/
  known : ∀ {m t}, app.tasks m = some t → t.broken.isSome = true →
    ∀ {x side}, app.Bound x m side → t.id side = x
  inGame : ∀ x b st, app.presence x = some (some b, st) → st = some .inGame
  others : ∀ k t, app.challenges k = some t → t.1 ≠ k
  idle : ∀ {x m side}, app.Bound x m side → x ∉ app.waiting ∧ ¬app.Challenging x

theorem Consistent.quiets (consistent : app.Consistent) (quiets : Quiets app app') :
    app'.Consistent := by
  have before {x : ConnId} {m : MatchId} {side : Side} (bound : app'.Bound x m side) :
      app.Bound x m side := by
    obtain ⟨st, here⟩ := bound_iff.mp bound
    exact bound_iff.mpr ⟨st, quiets.presence x _ st here⟩
  refine ⟨fun bound => ?_, ?_, fun {m t} running ended {x side} bound => ?_,
    fun x b st here => ?_, fun k t pending => ?_, fun bound => ?_⟩
  · rw [quiets.bouts, quiets.tasks]
    exact consistent.seat (before bound)
  · rw [quiets.nextMatch, quiets.tasks]
    exact consistent.fresh
  · rw [quiets.tasks] at running
    exact consistent.known running ended (before bound)
  · exact consistent.inGame x b st (quiets.presence x b st here)
  · exact consistent.others k t (quiets.challenges k t pending)
  · obtain ⟨absent, free⟩ := consistent.idle (before bound)
    exact ⟨fun mem => absent (quiets.waiting _ mem),
      fun challenging => free (challenging.quiets quiets)⟩

/-- A client without a bout is not bound. -/
theorem not_bound_of_not_inBout {x : ConnId} (free : app.inBout x = false) (m : MatchId)
    (side : Side) : ¬app.Bound x m side := by
  intro bound
  unfold Bound at bound
  unfold inBout at free
  cases client : app.clients x with
  | none =>
    rw [client] at bound
    cases bound
  | some c =>
    rw [client] at bound free
    change c.bout.isSome = false at free
    rw [show c.bout = some (m, side) from bound] at free
    cases free

theorem bout_of_not_inBout {x : ConnId} {c : Client ρ} (free : app.inBout x = false)
    (client : app.clients x = some c) : c.bout = none := by
  unfold inBout at free
  rw [client] at free
  exact Option.isNone_iff_eq_none.mp (Option.isSome_eq_false_iff.mp free)

/-! ## Pairing -/

/-- The two players of a new bout. -/
theorem pair_quiets (app : App ρ) (a b : ConnId) :
    Quiets app (app.pair a b) ∧ a ∉ (app.pair a b).waiting ∧ b ∉ (app.pair a b).waiting ∧
      ¬(app.pair a b).Challenging a ∧ ¬(app.pair a b).Challenging b := by
  let cut : App ρ := { app with
    waiting := app.waiting.filter fun w => w ≠ a ∧ w ≠ b
    challenges := fun cid =>
      (app.challenges cid).filter fun t => cid ≠ a ∧ cid ≠ b ∧ t.1 ≠ a ∧ t.1 ≠ b }
  have dropped : Quiets app cut := by
    refine ⟨fun _ _ _ here => here, fun x mem => (List.mem_filter.mp mem).1, fun k t pending => ?_,
      rfl, rfl, rfl⟩
    exact (Option.filter_eq_some_iff.mp pending).1
  have linked : Quiets cut (app.pair a b) :=
    (Quiets.modifyClient cut a (fun c => { c with peer := some b }) fun _ _ _ _ => ⟨rfl, rfl⟩).trans
      (Quiets.modifyClient _ b (fun c => { c with peer := some a }) fun _ _ _ _ => ⟨rfl, rfl⟩)
  have absent (x : ConnId) (either : x = a ∨ x = b) : x ∉ cut.waiting := by
    intro mem
    have kept := (List.mem_filter.mp mem).2
    rcases either with rfl | rfl <;> simp at kept
  have free (x : ConnId) (either : x = a ∨ x = b) : ¬cut.Challenging x := by
    rintro (own | ⟨k, t, pending, target⟩)
    · obtain ⟨t, pending⟩ := Option.ne_none_iff_exists'.mp own
      have kept := (Option.filter_eq_some_iff.mp pending).2
      rcases either with rfl | rfl <;> simp at kept
    · have kept := (Option.filter_eq_some_iff.mp pending).2
      rcases either with rfl | rfl <;> simp [target] at kept
  refine ⟨dropped.trans linked, fun mem => absent a (.inl rfl) (linked.waiting a mem),
    fun mem => absent b (.inr rfl) (linked.waiting b mem),
    fun challenging => free a (.inl rfl) (challenging.quiets linked),
    fun challenging => free b (.inr rfl) (challenging.quiets linked)⟩

/-- Two different clients without a bout may start one. -/
theorem Consistent.startBout (consistent : app.Consistent) {a b : ConnId} (apart : a ≠ b) :
    (app.startBout host a b).Consistent := by
  obtain ⟨quiets, waitA, waitB, freeA, freeB⟩ := pair_quiets app a b
  have paired := consistent.quiets quiets
  unfold App.startBout
  split
  · exact consistent
  dsimp only
  generalize app.pair a b = k at quiets waitA waitB freeA freeB paired
  split
  · next ca cb clientA clientB =>
    let begun (name : Side → String) (task : Task ρ) : App ρ := {
      (k.modifyClient a (enter k.nextMatch .a)).modifyClient b (enter k.nextMatch .b) with
      bouts := Function.update k.bouts k.nextMatch (some ⟨name⟩)
      tasks := Function.update k.tasks k.nextMatch (some task)
      nextMatch := k.nextMatch + 1 }
    suffices whole : ∀ name task, task.seat .a = a → task.seat .b = b → task.broken = none →
        (begun name task).Consistent by
      refine Consistent.quiets (whole _ _ ?_ ?_ ?_)
        ((Quiets.send _ _ _).trans (Quiets.send _ _ _))
      · rfl
      · rfl
      · rfl
    intro name task seatA seatB works
    let started := begun name task
    change started.Consistent
    have presence (x : ConnId) : started.presence x =
        if x = b then some (some (k.nextMatch, .b), some .inGame)
        else if x = a then some (some (k.nextMatch, .a), some .inGame) else k.presence x := by
      refine (presence_modifyClient _ b _ x).trans ?_
      split
      · have known : (k.modifyClient a (enter k.nextMatch .a)).clients b = some cb := by
          unfold App.modifyClient
          dsimp only
          rw [Function.update_of_ne apart.symm]
          exact clientB
        rw [known]
        rfl
      · rw [presence_modifyClient]
        split
        · rw [clientA]
          rfl
        · rfl
    have bound {x : ConnId} {m : MatchId} {side : Side} (bound : started.Bound x m side) :
        (m = k.nextMatch ∧ task.seat side = x) ∨
          (m ≠ k.nextMatch ∧ k.Bound x m side ∧ x ≠ a ∧ x ≠ b) := by
      obtain ⟨st, here⟩ := bound_iff.mp bound
      rw [presence] at here
      split at here
      · next same =>
        cases here
        exact .inl ⟨rfl, seatB.trans same.symm⟩
      · next notB =>
        split at here
        · next same =>
          cases here
          exact .inl ⟨rfl, seatA.trans same.symm⟩
        · next notA =>
          have before := bound_iff.mpr ⟨st, here⟩
          refine .inr ⟨?_, before, notA, notB⟩
          rintro rfl
          obtain ⟨-, t, running, -⟩ := paired.seat before
          rw [paired.fresh _ le_rfl] at running
          cases running
    refine ⟨fun held => ?_, fun m late => ?_, fun {m t} running ended {x side} held => ?_,
      fun x b' st here => ?_, paired.others, fun held => ?_⟩
    · rcases bound held with ⟨rfl, seated⟩ | ⟨other, before, -, -⟩
      · refine ⟨?_, task, Function.update_self .., seated⟩
        exact congrArg Option.isSome (Function.update_self k.nextMatch _ k.bouts)
      · obtain ⟨registered, t, running, seated⟩ := paired.seat before
        refine ⟨?_, t, (Function.update_of_ne other _ _).trans running, seated⟩
        exact (congrArg Option.isSome (Function.update_of_ne other _ k.bouts)).trans registered
    · have later : k.nextMatch < m := late
      exact (Function.update_of_ne later.ne' _ _).trans (paired.fresh m later.le)
    · change Function.update k.tasks k.nextMatch (some task) m = some t at running
      rcases eq_or_ne m k.nextMatch with rfl | other
      · rw [Function.update_self] at running
        cases running
        rw [works] at ended
        cases ended
      · rw [Function.update_of_ne other] at running
        rcases bound held with ⟨same, -⟩ | ⟨-, before, -, -⟩
        · exact absurd same other
        · exact paired.known running ended before
    · rw [presence] at here
      split at here
      · cases here
        rfl
      · split at here
        · cases here
          rfl
        · exact paired.inGame x b' st here
    · rcases bound held with ⟨-, seated⟩ | ⟨-, before, -, -⟩
      · rename_i x m side
        subst seated
        cases side
        · rw [seatA]
          exact ⟨waitA, freeA⟩
        · rw [seatB]
          exact ⟨waitB, freeB⟩
      · exact paired.idle before
  · exact paired

theorem inBout_iff {x : ConnId} :
    app.inBout x = true ↔ ∃ b st, app.presence x = some (some b, st) := by
  unfold inBout presence
  cases app.clients x with
  | none => exact ⟨nofun, nofun⟩
  | some c =>
    constructor
    · intro held
      obtain ⟨b, bout⟩ := Option.isSome_iff_exists.mp held
      exact ⟨b, c.status, congrArg (fun b => some (b, c.status)) bout⟩
    · rintro ⟨b, st, same⟩
      have bout : c.bout = some b := congrArg Prod.fst (Option.some.inj same)
      change c.bout.isSome = true
      rw [bout]
      rfl

theorem Quiets.inBout {x : ConnId} (quiets : Quiets app app') (free : app.inBout x = false) :
    app'.inBout x = false := by
  by_contra held
  rw [Bool.not_eq_false] at held
  obtain ⟨b, st, here⟩ := inBout_iff.mp held
  rw [inBout_iff.mpr ⟨b, st, quiets.presence x b st here⟩] at free
  cases free

/-- The best opponent is somebody else. -/
theorem bestOpponent_ne {keys : List ConnId} {opp : ConnId}
    (best : app.bestOpponent host keys id = some opp) : opp ≠ id := by
  unfold bestOpponent at best
  obtain ⟨me, -, found⟩ := Option.bind_eq_some_iff.mp best
  have candidate (cid : ConnId) (mem : cid ∈ keys.filter (app.isMatchCandidate id)) : cid ≠ id := by
    have listed := (List.mem_filter.mp mem).2
    rintro rfl
    unfold isMatchCandidate at listed
    rw [if_pos rfl] at listed
    cases listed
  refine Loop.foldl_invariant (P := fun best : Option ConnId => ∀ cid, best = some cid → cid ≠ id)
    (fun cid mem best held => ?_) ?_ opp found
  · intro cid' same
    split at same
    · cases same
      exact candidate _ mem
    · split at same
      · cases same
        exact candidate _ mem
      · exact held cid' same
    · exact held cid' same
  · intro cid' same
    cases same

theorem Consistent.tryMatch (consistent : app.Consistent) (keys : List ConnId) :
    (app.tryMatch host keys id).Consistent := by
  unfold App.tryMatch
  split
  · exact consistent
  next listed =>
  rw [not_or, Bool.not_eq_true] at listed
  split
  · next opp best => exact consistent.startBout (bestOpponent_ne best)
  · split
    · exact consistent
    · -- the client that waits has no bout
      refine ⟨consistent.seat, consistent.fresh, consistent.known, consistent.inGame,
        consistent.others, fun {x m side} bound => ?_⟩
      have free : ¬app.Bound id m side := not_bound_of_not_inBout (by simpa using listed.2) m side
      obtain ⟨absent, quiet⟩ := consistent.idle bound
      refine ⟨fun mem => ?_, quiet⟩
      rcases List.mem_append.mp mem with before | last
      · exact absent before
      · cases List.mem_singleton.mp last
        exact free bound

/-! ## The handlers -/

theorem Consistent.queue (consistent : app.Consistent) (keys : List ConnId)
    (token name : Option String) : (app.queue host keys id token name).Consistent := by
  unfold App.queue
  split
  · exact consistent.quiets (.send _ _ _)
  · split
    · exact consistent
    · next free =>
      rw [Bool.not_eq_true] at free
      refine Consistent.tryMatch (consistent.quiets (.modifyClient _ _ _ ?_)) keys
      intro c b client bout
      cases (bout_of_not_inBout free client).symm.trans bout

theorem Consistent.available (consistent : app.Consistent) (keys : List ConnId)
    (token name : Option String) (value bot : Bool) :
    (app.available host keys id token name value bot).Consistent := by
  unfold App.available
  split
  · exact consistent.quiets (.send _ _ _)
  split
  · exact consistent
  next free =>
  rw [Bool.not_eq_true] at free
  dsimp only
  have listed (goAvailable : Bool) : Quiets app
      (if goAvailable then app else { app with waiting := app.waiting.filter (· ≠ id) }) := by
    split
    · exact .refl app
    · exact .filterWaiting app _
  generalize (value && !(app.nameOf host id token name).isEmpty) = goAvailable
  have free := (listed goAvailable).inBout free
  have listed := consistent.quiets (listed goAvailable)
  generalize (if goAvailable then app else { app with waiting := app.waiting.filter (· ≠ id) }) = k
    at free listed
  have known (status : Option Status) : (k.modifyClient id fun c =>
      { c with
        name := app.nameOf host id token name
        state := app.ratingFor host (app.nameOf host id token name)
        status := status, isBot := bot }).Consistent := by
    refine listed.quiets (.modifyClient _ _ _ ?_)
    intro c b client bout
    cases (bout_of_not_inBout free client).symm.trans bout
  split
  · exact (known _).tryMatch keys
  · exact known _

/-- A client that is found available has no bout. -/
theorem Consistent.not_bound_of_found (consistent : app.Consistent) {keys : List ConnId}
    {target : String} {tid : ConnId} (found : app.findNamedAvailable keys target = some tid)
    (m : MatchId) (side : Side) : ¬app.Bound tid m side := by
  intro bound
  obtain ⟨st, here⟩ := bound_iff.mp bound
  have inGame := consistent.inGame tid _ st here
  have named := List.find?_some found
  unfold presence at here
  cases client : app.clients tid with
  | none =>
    rw [client] at here
    cases here
  | some c =>
    rw [client] at here named
    have status : c.status = st := congrArg Prod.snd (Option.some.inj here)
    have available := (of_decide_eq_true named).2
    rw [status, inGame] at available
    cases available

theorem Consistent.challenge (consistent : app.Consistent) (keys : List ConnId)
    (token name : Option String) (target : String) (now : Nat)
    (free : app.draining = false → app.inBout id = true →
      app.findNamedAvailable keys target = none) :
    (app.challenge host keys id token name target now).Consistent := by
  unfold App.challenge
  split
  · exact consistent.quiets (.send _ _ _)
  next running =>
  replace free := free (Bool.eq_false_iff.mpr running)
  dsimp only
  have renamed : Quiets app (app.modifyClient id fun c =>
      { c with name := app.nameOf host id token name }) :=
    .modifyClient _ _ _ fun _ _ _ _ => ⟨rfl, rfl⟩
  have named := consistent.quiets renamed
  have absent : app.inBout id = true → (app.modifyClient id fun c =>
      { c with name := app.nameOf host id token name }).findNamedAvailable keys target = none := by
    intro held
    have none := free held
    obtain ⟨b, st, here⟩ := inBout_iff.mp held
    have inGame := consistent.inGame id b st here
    unfold findNamedAvailable at none ⊢
    rw [List.find?_eq_none] at none ⊢
    intro cid mem
    rcases eq_or_ne cid id with rfl | apart
    · unfold presence at here
      unfold modifyClient
      dsimp only
      rw [Function.update_self]
      cases client : app.clients cid with
      | none => exact Bool.false_ne_true
      | some c =>
        rw [client] at here
        have status : c.status = st := congrArg Prod.snd (Option.some.inj here)
        intro found
        have available : c.status = some .available := (of_decide_eq_true found).2
        rw [status, inGame] at available
        cases available
    · unfold modifyClient
      dsimp only
      rw [Function.update_of_ne apart]
      exact none cid mem
  generalize (app.modifyClient id fun c => { c with name := app.nameOf host id token name }) = k
    at renamed named absent
  split
  · next tid found =>
    split
    · next apart =>
      suffices challenged : ({ k with
          challenges := Function.update k.challenges id (some (tid, now + challengeTimeout)) } :
          App ρ).Consistent from
        challenged.quiets (.send _ _ _)
      have unbound : k.inBout id = false := by
        refine renamed.inBout ?_
        by_contra held
        rw [Bool.not_eq_false] at held
        cases (absent held).symm.trans found
      refine ⟨named.seat, named.fresh, named.known, named.inGame, fun x t pending => ?_,
        fun {x m side} bound => ?_⟩
      · dsimp only at pending
        rcases eq_or_ne x id with rfl | other
        · rw [Function.update_self] at pending
          cases pending
          exact apart
        · rw [Function.update_of_ne other] at pending
          exact named.others x t pending
      · obtain ⟨absent, quiet⟩ := named.idle bound
        refine ⟨absent, ?_⟩
        rintro (own | ⟨x', t, pending, target⟩)
        · dsimp only at own
          rcases eq_or_ne x id with rfl | other
          · exact not_bound_of_not_inBout unbound m side bound
          · rw [Function.update_of_ne other] at own
            exact quiet (.inl own)
        · dsimp only at pending
          rcases eq_or_ne x' id with rfl | other
          · rw [Function.update_self] at pending
            cases pending
            cases target
            exact named.not_bound_of_found found m side bound
          · rw [Function.update_of_ne other] at pending
            exact quiet (.inr ⟨x', t, pending, target⟩)
    · exact named.quiets (.send _ _ _)
  · exact named.quiets (.send _ _ _)

theorem Consistent.challengeAccept (consistent : app.Consistent) (keys : List ConnId)
    (name : String) : (app.challengeAccept host keys id name).Consistent := by
  unfold App.challengeAccept
  split
  · next cid found =>
    split
    · refine (consistent.quiets (.clearChallenge app cid)).startBout ?_
      -- nobody challenges itself
      rintro rfl
      have pending := List.find?_some found
      rw [Bool.and_eq_true] at pending
      cases own : app.challenges cid with
      | none =>
        rw [own] at pending
        cases pending.1
      | some t =>
        rw [own] at pending
        exact consistent.others cid t own (of_decide_eq_true pending.1)
    · exact consistent
  · exact consistent

theorem Quiets.challengeDecline (app : App ρ) (keys : List ConnId) (id : ConnId) (name : String) :
    Quiets app (app.challengeDecline keys id name) := by
  unfold App.challengeDecline
  split
  · exact (clearChallenge app _).trans (send _ _ _)
  · exact refl app

theorem Quiets.timeout (app : App ρ) (challenger tid : ConnId) (deadline : Nat) (target : String) :
    Quiets app (app.timeout challenger tid deadline target) := by
  unfold App.timeout
  split
  · exact (clearChallenge app _).trans (send _ _ _)
  · exact refl app

theorem Quiets.connect (app : App ρ) (id : ConnId) : Quiets app (app.connect host id) := by
  unfold App.connect
  split
  · exact refl app
  · refine ⟨fun x b st here => ?_, fun _ mem => mem, fun _ _ pending => pending, rfl, rfl, rfl⟩
    unfold App.presence at here ⊢
    dsimp only at here
    rcases eq_or_ne x id with rfl | apart
    · rw [Function.update_self] at here
      cases here
    · rwa [Function.update_of_ne apart] at here

theorem Quiets.disconnect (app : App ρ) (keys : List ConnId) (id : ConnId) :
    Quiets app (app.disconnect keys id) := by
  have told (k : App ρ) (xs : List ConnId) (name : String) :
      Quiets k (xs.foldl (fun app cid =>
        (app.clearChallenge cid).send cid (.challengeDeclined name)) k) :=
    Loop.foldl_invariant (P := Quiets k)
      (fun cid _ h quiets => quiets.trans ((clearChallenge h cid).trans (send _ _ _))) (refl k)
  have removed (k : App ρ) :
      Quiets k { k with clients := Function.update k.clients id none } := by
    refine ⟨fun x b st here => ?_, fun _ mem => mem, fun _ _ pending => pending, rfl, rfl, rfl⟩
    unfold App.presence at here ⊢
    dsimp only at here
    rcases eq_or_ne x id with rfl | apart
    · rw [Function.update_self] at here
      cases here
    · rwa [Function.update_of_ne apart] at here
  have declined (p : ConnId → Bool) (xs : List ConnId) (name : String) :
      Quiets app (xs.foldl (fun app cid =>
        (app.clearChallenge cid).send cid (.challengeDeclined name))
        (App.clearChallenge { app with waiting := app.waiting.filter p } id)) :=
    ((filterWaiting app p).trans (clearChallenge _ id)).trans (told _ xs name)
  unfold App.disconnect
  dsimp only
  refine Quiets.trans ?_ (removed _)
  split
  · split
    · exact declined _ _ _
    · exact (declined _ _ _).trans
        ((send _ _ _).trans (modifyClient _ _ _ fun _ _ _ _ => ⟨rfl, rfl⟩))
  · exact declined _ _ _

/-! ## The loops -/

/-- A control that reattaches nobody moves no seat. -/
theorem seat_push {t : Task ρ} {c : BoutControl} (plain : ∀ side newId, c ≠ .reattach side newId) :
    ({ t with controlRx := t.controlRx ++ [c] } : Task ρ).seat = t.seat := by
  unfold Task.seat
  rw [List.foldl_append]
  cases c with
  | reattach side newId => exact absurd rfl (plain side newId)
  | _ => rfl

/-- A loop that moves no seat keeps the bindings. -/
theorem Consistent.retask (consistent : app.Consistent) {m : MatchId} {t t' : Task ρ}
    (task : app.tasks m = some t) (seat : t'.seat = t.seat)
    (known : t'.broken.isSome = true → ∀ {x side}, app.Bound x m side → t'.id side = x) :
    ({ app with tasks := Function.update app.tasks m (some t') } : App ρ).Consistent := by
  refine ⟨fun {x m' side} bound => ?_, fun m' late => ?_,
    fun {m' k} running ended {x side} bound => ?_, consistent.inGame, consistent.others,
    consistent.idle⟩
  · obtain ⟨registered, k, running, seated⟩ := consistent.seat bound
    refine ⟨registered, ?_⟩
    dsimp only
    rcases eq_or_ne m' m with rfl | other
    · cases task.symm.trans running
      exact ⟨t', Function.update_self .., by rw [seat]; exact seated⟩
    · exact ⟨k, by rw [Function.update_of_ne other]; exact running, seated⟩
  · have absent := consistent.fresh m' late
    rcases eq_or_ne m' m with rfl | other
    · cases task.symm.trans absent
    · exact (Function.update_of_ne other _ _).trans absent
  · dsimp only at running
    rcases eq_or_ne m' m with rfl | other
    · rw [Function.update_self] at running
      cases running
      exact known ended bound
    · rw [Function.update_of_ne other] at running
      exact consistent.known running ended bound

theorem Consistent.trySend (consistent : app.Consistent) {m : MatchId} {c : BoutControl}
    (plain : ∀ side newId, c ≠ .reattach side newId) {sent : App ρ}
    (asked : app.trySend m c = some sent) : sent.Consistent := by
  obtain ⟨t, task, -, rfl⟩ := trySend_eq asked
  exact consistent.retask task (seat_push plain) fun ended {x side} bound =>
    consistent.known (t := t) task ended bound

theorem Consistent.request (consistent : app.Consistent) {c : Side → BoutControl}
    (plain : ∀ s side newId, c s ≠ .reattach side newId) : (app.request id c).Consistent := by
  unfold App.request
  split
  · next m _ side _ _ =>
    split
    · cases asked : app.trySend m (c side) with
      | none => exact consistent
      | some sent => exact consistent.trySend (plain side) asked
    · exact consistent
  · exact consistent

theorem Consistent.spectate (consistent : app.Consistent) (matchId : Option MatchId) :
    (app.spectate id matchId).Consistent := by
  unfold App.spectate
  split
  · next sent asked =>
    obtain ⟨m, -, known⟩ := Option.bind_eq_some_iff.mp asked
    obtain ⟨_, -, asked⟩ := Option.bind_eq_some_iff.mp known
    exact consistent.trySend (fun _ _ same => by cases same) asked
  · exact consistent.quiets (.send _ _ _)

/-- A seated rejoin keeps the bindings if its sender is idle, its side has no other
client, and the loop runs or knows the sender. -/
theorem Consistent.seated (consistent : app.Consistent) {m : MatchId} {side : Side}
    (registered : (app.bouts m).isSome = true) (seated : app.Seated id m side app')
    (idle : id ∉ app.waiting ∧ ¬app.Challenging id)
    (alone : ∀ x, app.Bound x m side → x = id)
    (runs : ∀ t, app.tasks m = some t → t.broken = none ∨ t.id side = id) : app'.Consistent := by
  obtain ⟨t, task, -, tasks⟩ := seated.asked
  obtain ⟨waiting, challenges, bouts, nextMatch⟩ : app'.waiting = app.waiting ∧
      app'.challenges = app.challenges ∧ app'.bouts = app.bouts ∧
      app'.nextMatch = app.nextMatch := by
    have kept := seated.kept
    simpa using kept
  have known {x : ConnId} {m' : MatchId} {side' : Side} (bound : app'.Bound x m' side') :
      (x = id ∧ m' = m ∧ side' = side) ∨ (x ≠ id ∧ app.Bound x m' side') := by
    rcases eq_or_ne x id with rfl | other
    · have same := Option.some.inj (seated.bound.symm.trans bound)
      cases same
      exact .inl ⟨rfl, rfl, rfl⟩
    · refine .inr ⟨other, ?_⟩
      unfold Bound at bound ⊢
      rwa [seated.others x other] at bound
  have challenging {x : ConnId} : app'.Challenging x ↔ app.Challenging x := by
    unfold Challenging
    rw [challenges]
  refine ⟨fun {x m' side'} bound => ?_, fun m' late => ?_,
    fun {m' t'} running ended {x side'} bound => ?_, fun x b st here => ?_, ?_,
    fun {x m' side'} bound => ?_⟩
  · rw [bouts, tasks]
    have moved (s : Side) : ({ t with controlRx := t.controlRx ++ [.reattach side id] } :
        Task ρ).seat s = if s = side then id else t.seat s := by
      unfold Task.seat
      rw [List.foldl_append]
      rcases eq_or_ne s side with rfl | apart
      · rw [if_pos rfl]
        exact Function.update_self ..
      · rw [if_neg apart]
        exact Function.update_of_ne apart _ _
    rcases known bound with ⟨rfl, rfl, rfl⟩ | ⟨other, before⟩
    · refine ⟨registered, _, Function.update_self .., ?_⟩
      rw [moved, if_pos rfl]
    · obtain ⟨registered', t', running, seat⟩ := consistent.seat before
      refine ⟨registered', ?_⟩
      rcases eq_or_ne m' m with rfl | apart
      · cases task.symm.trans running
        refine ⟨_, Function.update_self .., ?_⟩
        rw [moved, if_neg]
        · exact seat
        · rintro rfl
          exact other (alone x before)
      · exact ⟨t', (Function.update_of_ne apart _ _).trans running, seat⟩
  · rw [nextMatch] at late
    rw [tasks]
    have absent := consistent.fresh m' late
    rcases eq_or_ne m' m with rfl | apart
    · cases task.symm.trans absent
    · exact (Function.update_of_ne apart _ _).trans absent
  · rw [tasks] at running
    rcases eq_or_ne m' m with rfl | apart
    · rw [Function.update_self] at running
      cases running
      rcases known bound with ⟨rfl, -, rfl⟩ | ⟨-, before⟩
      · rcases runs t task with alive | same
        · rw [show t.broken = none from alive] at ended
          cases ended
        · exact same
      · exact consistent.known task ended before
    · rw [Function.update_of_ne apart] at running
      rcases known bound with ⟨-, same, -⟩ | ⟨-, before⟩
      · exact absurd same apart
      · exact consistent.known running ended before
  · rcases eq_or_ne x id with rfl | other
    · have status := seated.status
      unfold presence at here
      cases client : app'.clients x with
      | none =>
        rw [client] at here
        cases here
      | some c =>
        rw [client] at here status
        exact (congrArg Prod.snd (Option.some.inj here)).symm.trans status
    · unfold presence at here
      rw [seated.others x other] at here
      exact consistent.inGame x b st here
  · rw [challenges]
    exact consistent.others
  · rw [waiting, challenging]
    rcases known bound with ⟨rfl, -, -⟩ | ⟨-, before⟩
    · exact idle
    · exact consistent.idle before

/-- Taking a control moves no seat. -/
theorem Consistent.obey (consistent : app.Consistent) (m : MatchId) : (app.obey m).Consistent := by
  unfold App.obey
  split
  · next t task =>
    split
    · next c rest running queue =>
      have seat : ({ t with id := adopt t.id c, controlRx := rest } : Task ρ).seat = t.seat := by
        unfold Task.seat
        rw [queue]
        rfl
      refine consistent.retask task seat fun ended => ?_
      rw [show t.broken = none from running] at ended
      cases ended
    · exact consistent
  · exact consistent

theorem Consistent.exit (consistent : app.Consistent) {m : MatchId} (how : BoutEnd)
    (known : ∀ t, app.tasks m = some t → ∀ x side, app.Bound x m side → t.id side = x) :
    (app.exit m how).Consistent := by
  unfold App.exit
  split
  · next t task =>
    split
    · exact consistent.retask task rfl fun _ {x side} bound => known t task x side bound
    · exact consistent
  · exact consistent

theorem Quiets.settleBout (app : App ρ) (m : MatchId) (t : Task ρ) (aWon : Bool)
    (aLines bLines : UInt32) : Quiets app (app.settleBout host m t aWon aLines bLines) := by
  unfold App.settleBout
  split
  · exact refl app
  · dsimp only
    have rated (k : App ρ) (x : ConnId) (st : PlayerState ρ) :
        Quiets k (k.modifyClient x fun c => { c with state := st }) :=
      modifyClient _ _ _ fun _ _ _ _ => ⟨rfl, rfl⟩
    refine .trans ?_ ((rated _ _ _).trans ((rated _ _ _).trans ((send _ _ _).trans (send _ _ _))))
    exact ⟨fun _ _ _ here => here, fun _ mem => mem, fun _ _ pending => pending, rfl, rfl, rfl⟩

/-- A bout that nobody is bound to may be dropped from the registry. -/
theorem Consistent.unregister (consistent : app.Consistent) {m : MatchId}
    (empty : ∀ x side, ¬app.Bound x m side) :
    ({ app with
      bouts := Function.update app.bouts m none, tasks := Function.update app.tasks m none } :
      App ρ).Consistent := by
  refine ⟨fun {x m' side} bound => ?_, fun m' late => ?_,
    fun {m' t} running ended {x side} bound => ?_, consistent.inGame, consistent.others,
    consistent.idle⟩
  · obtain ⟨registered, t, running, seated⟩ := consistent.seat bound
    have other : m' ≠ m := by
      rintro rfl
      exact empty x side bound
    dsimp only
    rw [Function.update_of_ne other, Function.update_of_ne other]
    exact ⟨registered, t, running, seated⟩
  · have absent := consistent.fresh m' late
    dsimp only
    rcases eq_or_ne m' m with rfl | other
    · exact Function.update_self ..
    · exact (Function.update_of_ne other _ _).trans absent
  · dsimp only at running
    rcases eq_or_ne m' m with rfl | other
    · rw [Function.update_self] at running
      cases running
    · rw [Function.update_of_ne other] at running
      exact consistent.known running ended bound

/-- Every client of a bout that is cleaned up is one of the loop's two, and is released. -/
theorem Consistent.cleanup (consistent : app.Consistent) (m : MatchId) :
    (app.cleanup host m).Consistent := by
  unfold App.cleanup
  split
  swap
  · exact consistent
  next t task =>
  split
  swap
  · exact consistent
  next how ended =>
  dsimp only
  have released (k : App ρ) (x : ConnId) : Quiets k (k.modifyClient x leave) :=
    .modifyClient _ _ _ fun _ _ _ bout => by cases bout
  have both := (released app (t.id .a)).trans (released _ (t.id .b))
  have empty (x : ConnId) (side : Side) :
      ¬((app.modifyClient (t.id .a) leave).modifyClient (t.id .b) leave).Bound x m side := by
    intro bound
    obtain ⟨st, here⟩ := bound_iff.mp bound
    obtain rfl := consistent.known task (by rw [ended]; rfl)
      (bound_iff.mpr ⟨st, both.presence x _ st here⟩)
    rw [presence_modifyClient] at here
    split at here
    · obtain ⟨c, -, same⟩ := Option.map_eq_some_iff.mp here
      cases same
    · next notB =>
      rw [presence_modifyClient] at here
      split at here
      · obtain ⟨c, -, same⟩ := Option.map_eq_some_iff.mp here
        cases same
      · next notA =>
        cases side
        · exact notA rfl
        · exact notB rfl
  have whole := (consistent.quiets both).unregister empty
  split
  · exact whole.quiets (.settleBout _ _ _ _ _ _)
  · exact whole

/-! ## Runs -/

/-- A rejoin that can be served comes from an idle connection, to a side without another
client, before the loop breaks or from the client it knows; a challenge that finds its
target comes from a client without a bout; and a loop that breaks knows its clients. -/
def Tidy (host : Host ρ) (app : App ρ) : Event → Prop
  | .message _ id (.rejoin matchId token name) =>
    ∀ m h side, app.Serves host id matchId token name m h side →
      (id ∉ app.waiting ∧ ¬app.Challenging id) ∧ (∀ x, app.Bound x m side → x = id) ∧
        ∀ t, app.tasks m = some t → t.broken = none ∨ t.id side = id
  | .message keys id (.challenge _ _ target _) =>
    app.draining = false → app.inBout id = true → app.findNamedAvailable keys target = none
  | .exit m _ => ∀ t, app.tasks m = some t → ∀ x side, app.Bound x m side → t.id side = x
  | _ => True

theorem Consistent.handleMessage (consistent : app.Consistent) {keys : List ConnId}
    {msg : Message} (tidy : app.Tidy host (.message keys id msg))
    (connected : (app.clients id).isSome = true) :
    (app.handleMessage host keys id msg).Consistent := by
  cases msg with
  | queue token name => exact consistent.queue keys token name
  | available token name value bot => exact consistent.available keys token name value bot
  | challenge token name target now => exact consistent.challenge keys token name target now tidy
  | challengeAccept name => exact consistent.challengeAccept keys name
  | challengeDecline name => exact consistent.quiets (.challengeDecline _ _ _ _)
  | rejoin matchId token name =>
    change (app.rejoin host id matchId token name).Consistent
    rcases rejoin_cases host matchId token name connected with
      ⟨m, h, side, serves, seated⟩ | ⟨-, failed⟩
    · obtain ⟨idle, alone, runs⟩ := tidy m h side serves
      refine consistent.seated ?_ seated idle alone runs
      rw [serves.2.1]
      rfl
    · rw [failed]
      exact consistent.quiets (.send _ _ _)
  | resync => exact consistent.request fun _ _ _ same => by cases same
  | leaveMatch => exact consistent.request fun _ _ _ same => by cases same
  | spectate matchId => exact consistent.spectate matchId

theorem Consistent.step (consistent : app.Consistent) {e : Event} (tidy : app.Tidy host e) :
    (app.step host e).Consistent := by
  cases e with
  | connect id => exact consistent.quiets (.connect _ _)
  | message keys id msg =>
    change (if (app.clients id).isSome then app.handleMessage host keys id msg else app).Consistent
    split
    · next connected => exact consistent.handleMessage tidy connected
    · exact consistent
  | disconnect keys id =>
    change (if (app.clients id).isSome then app.disconnect keys id else app).Consistent
    split
    · exact consistent.quiets (.disconnect _ _ _)
    · exact consistent
  | timeout => exact consistent.quiets (.timeout _ _ _ _ _)
  | drain =>
    exact consistent.quiets
      ⟨fun _ _ _ here => here, fun _ mem => mem, fun _ _ pending => pending, rfl, rfl, rfl⟩
  | obey m => exact consistent.obey m
  | exit m how => exact consistent.exit how tidy
  | cleanup m => exact consistent.cleanup m

theorem consistent_boot (ratings : String → Option (PlayerState ρ)) :
    (boot ratings).Consistent :=
  ⟨nofun, fun _ _ => rfl, nofun, nofun, nofun, nofun⟩

/-- In a tidy run: a bound client's bout is registered, a side has one client at most, a
bound client neither waits nor is party to a challenge, and a client whose bouts are all
gone can queue. -/
theorem bindings_consistent {ratings : String → Option (PlayerState ρ)} {events : List Event}
    (run : Run (Tidy host) (step host) (boot ratings) events app) :
    (∀ x m side, app.Bound x m side → (app.bouts m).isSome = true) ∧
    (∀ x y m side, app.Bound x m side → app.Bound y m side → x = y) ∧
    (∀ x m side, app.Bound x m side → x ∉ app.waiting ∧ ¬app.Challenging x) ∧
    ∀ x, (∀ m side, app.Bound x m side → app.bouts m = none) → app.inBout x = false := by
  have consistent : app.Consistent :=
    run.invariant (fun app e consistent tidy => consistent.step tidy) (consistent_boot ratings)
  refine ⟨fun x m side bound => (consistent.seat bound).1, fun x y m side left right => ?_,
    fun x m side bound => consistent.idle bound, fun x gone => ?_⟩
  · obtain ⟨-, t, task, seated⟩ := consistent.seat left
    obtain ⟨-, t', task', seated'⟩ := consistent.seat right
    cases task.symm.trans task'
    exact seated.symm.trans seated'
  · by_contra held
    rw [Bool.not_eq_false] at held
    obtain ⟨⟨m, side⟩, st, here⟩ := inBout_iff.mp held
    have bound := bound_iff.mpr ⟨st, here⟩
    have registered := (consistent.seat bound).1
    rw [gone m side bound] at registered
    cases registered

/-- A second tab rejoins as amy, and the bout ends: her first tab stays bound to a bout
that is gone. -/
theorem second_tab_locked_out :
    let app := [.message [1, 2, 3] 3 (.rejoin (some 0) none (some "amy")), .obey 0,
      .exit 0 ⟨some true, 0, 0⟩, .cleanup 0].foldl (step freshHost) guestsMeet
    (app.clients 1).bind Client.bout = some (0, .a) ∧ (app.bouts 0).isNone = true := by
  decide +kernel

theorem bindings_consistent_guests :
    (∀ x m side, guestsMeet.Bound x m side → (guestsMeet.bouts m).isSome = true) ∧
    (∀ x y m side, guestsMeet.Bound x m side → guestsMeet.Bound y m side → x = y) ∧
    (∀ x m side, guestsMeet.Bound x m side →
      x ∉ guestsMeet.waiting ∧ ¬guestsMeet.Challenging x) ∧
    ∀ x, (∀ m side, guestsMeet.Bound x m side → guestsMeet.bouts m = none) →
      guestsMeet.inBout x = false := by
  have run : Run (Tidy freshHost) (step freshHost) (boot fun _ => none) guestsQueue guestsMeet := by
    refine Run.of_foldl fun app e mem => ?_
    simp only [guestsQueue, List.mem_cons, List.not_mem_nil, or_false] at mem
    rcases mem with rfl | rfl | rfl | rfl | rfl <;> trivial
  exact bindings_consistent run

end App

end BattleTris
