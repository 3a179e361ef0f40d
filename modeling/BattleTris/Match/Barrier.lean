import BattleTris.Lib.Countdown
import BattleTris.Match.Play
import BattleTris.Match.Tally

/-!
The bazaar barrier.

Each side counts down to the bazaar by itself, from its own lines and from the scores the relay
tells it.  `Checked` says what a tick of one game does to its count, `Settled` what holds between
the events of a match: the mirrors and the countdowns agree.  A tick then opens both bazaars or
neither.
-/

namespace BattleTris

open Loop Countdown

/-- The input is not a score, which only the relay tells. -/
def Input.Plays (i : Input) : Prop := ∀ score lines funds, i ≠ .receiveOpScore score lines funds

namespace Game

/-! ## A game as a party -/

/-- The lines that a published score tells of. -/
def published : GameEvent → Option Int
  | .scored _ lines _ => some lines
  | _ => none

/-- The game as a party to the shared count. -/
def party (g : Game) : Party := ⟨g.score.lines, g.score.opLines, g.linesTilBaz, g.inBazaar⟩

/-- The lines it waits to publish. -/
def news (g : Game) : List Int := g.events.filterMap published

/-- The count and the news of a game. -/
def count (g : Game) : Party × List Int := (g.party, g.news)

/-- The game's countdown is up to date. -/
def Counting (g : Game) : Prop := g.party.Current btLinesTilBaz

variable {g h : Game}

theorem party_of_count (same : h.count = g.count) : h.party = g.party := congrArg Prod.fst same

theorem news_of_count (same : h.count = g.count) : h.news = g.news := congrArg Prod.snd same

theorem count_of_still (same : h.still = g.still) : h.count = g.count :=
  of_still count (fun _ => rfl) same

/-! ## What does not count -/

theorem emit_count {e : GameEvent} (silent : published e = none) (g : Game) :
    (g.emit e).count = g.count := by
  unfold count news emit
  rw [List.filterMap_append, List.filterMap_cons_none silent, List.filterMap_nil, List.append_nil]
  rfl

theorem creditClearFunds_count (g : Game) (funds : Int) :
    (g.creditClearFunds funds).count = g.count := by
  have stolen (tax : Int) : (g.stealTax tax).count = g.count := by
    unfold stealTax
    split
    · exact emit_count (e := .fundsStolen tax) rfl g
    · rfl
  unfold creditClearFunds
  split
  · exact stolen _
  · rfl

theorem applyWeaponOff_count (g : Game) (t : WeaponToken) :
    (g.applyWeaponOff t).count = g.count := by
  have unframed (h : Game) : (h.weaponUnframe t).count = h.count := by
    cases t <;> rfl
  exact unframed (g.switchOff t)

theorem tickDurations_count (g : Game) (lines : Int) :
    (g.tickDurations lines).count = g.count := by
  refine foldl_invariant (P := fun h : Game => h.count = g.count) (fun t _ h kept => ?_) rfl
  refine Eq.trans ?_ kept
  unfold tickDuration
  dsimp only
  split
  · rfl
  · split
    · exact applyWeaponOff_count _ t
    · rfl

theorem signalAirslide_count (g : Game) (p : Piece) : (g.signalAirslide p).count = g.count := by
  unfold signalAirslide
  split
  · exact emit_count rfl g
  · rfl

theorem signalIdiot_count (g : Game) : g.signalIdiot.count = g.count := by
  unfold signalIdiot
  dsimp only
  split
  · exact emit_count rfl _
  · rfl

theorem spawn_count (g : Game) : g.spawn.count = g.count := by
  unfold spawn enterPiece
  dsimp only
  split
  · rfl
  · exact emit_count (e := .gameOver) rfl _

theorem count_new (seed : Nat) : (new seed).count = (⟨0, 0, btLinesTilBaz, false⟩, []) :=
  spawn_count (blank seed)

theorem installBoard_count (g : Game) : g.installBoard.count = g.count := by
  have forced (h : Game) (t : WeaponToken) : (h.forceWeaponOff t).count = h.count := by
    unfold forceWeaponOff
    split
    · exact applyWeaponOff_count h t
    · rfl
  have imported (h : Game) (data : List Int) : (h.importBoard data).count = h.count := by
    unfold importBoard
    dsimp only
    split <;> rfl
  unfold installBoard
  split
  · next cells _ =>
    exact (forced _ .upbyside).trans
      ((forced _ .bottle).trans (imported { g with pendingBoard := none } cells))
  · rfl

theorem updateBazaar_count (g : Game) :
    g.updateBazaar.count = (g.party.update btLinesTilBaz, g.news) := by
  have entered : g.openBazaar.count = ({ g.party with opened := true }, g.news) :=
    emit_count (e := .enterBazaar) rfl { g with inBazaar := true }
  unfold updateBazaar
  dsimp only
  by_cases jumps : g.bazaarCountdown > g.linesTilBaz
  · rw [if_pos jumps]
    have opens : decide (Countdown.left btLinesTilBaz g.party.total > g.party.left) = true :=
      decide_eq_true jumps
    unfold Party.update
    rw [opens, Bool.or_true]
    have news : (g.openBazaar.setTil g.bazaarCountdown).news = g.news := congrArg Prod.snd entered
    exact Prod.ext rfl news
  · rw [if_neg jumps]
    have shut : decide (Countdown.left btLinesTilBaz g.party.total > g.party.left) = false :=
      decide_eq_false jumps
    unfold Party.update
    rw [shut, Bool.or_false]
    rfl

/-! ## Line checks -/

/-- From `g` to `h` the lines grow by each of `ds`, and each new count is published. -/
structure Checked (ds : List Int) (g h : Game) : Prop where
  mine : h.party.mine = g.party.mine + ds.sum
  theirs : h.party.theirs = g.party.theirs
  news : h.news = g.news ++ told g.party.mine ds
  grows : ∀ d ∈ ds, 0 ≤ d
  charged : g.Counting → ∃ n, Charged btLinesTilBaz n (charge btLinesTilBaz ds) g.party h.party

theorem Checked.of_count (same : h.count = g.count) : Checked [] g h where
  mine := by rw [party_of_count same, List.sum_nil, add_zero]
  theirs := by rw [party_of_count same]
  news := by rw [news_of_count same, told, List.append_nil]
  grows := nofun
  charged counting := ⟨0, by
    rw [party_of_count same]
    exact .refl counting⟩

theorem Checked.trans {k : Game} {ds es : List Int} (first : Checked ds g h)
    (second : Checked es h k) : Checked (ds ++ es) g k where
  mine := by rw [second.mine, first.mine, List.sum_append, add_assoc]
  theirs := second.theirs.trans first.theirs
  news := by rw [second.news, first.news, first.mine, told_append, List.append_assoc]
  grows d mem := (List.mem_append.mp mem).elim (first.grows d) (second.grows d)
  charged counting := by
    obtain ⟨m, before⟩ := first.charged counting
    obtain ⟨n, after⟩ := second.charged before.current
    refine ⟨m + n, ?_⟩
    rw [charge_append]
    exact before.trans after

/-- A line check that reports `d` lines, credited and published. -/
theorem Checked.check {d : Int} (grows : 0 ≤ d)
    (counted : h.count = (g.party.check btLinesTilBaz d, g.news)) : Checked [d] g h.emitScored := by
  have party : h.emitScored.party = g.party.check btLinesTilBaz d := congrArg Prod.fst counted
  have mine : (g.party.check btLinesTilBaz d).mine = g.party.mine + d := by
    unfold Party.check
    split <;> rfl
  have theirs : (g.party.check btLinesTilBaz d).theirs = g.party.theirs := by
    unfold Party.check
    split <;> rfl
  have published : h.emitScored.news = h.news ++ [h.party.mine] := List.filterMap_append
  have checked : h.party.mine = g.party.mine + d :=
    (congrArg (·.1.mine) counted).trans mine
  refine ⟨?_, ?_, ?_, ?_, fun counting => ?_⟩
  · rw [party, mine, List.sum_singleton]
  · rw [party, theirs]
  · have heard : h.news = g.news := congrArg Prod.snd counted
    rw [published, checked, heard]
    rfl
  · simpa using grows
  · rw [party]
    simpa [charge] using Charged.check (by decide) counting grows

theorem lineTick_count (g : Game) (lines : Int) :
    (g.lineTick lines).count = (g.party.update btLinesTilBaz, g.news) :=
  (tickDurations_count _ lines).trans g.updateBazaar_count

theorem addLines_party (g : Game) (lines : Int) :
    (g.addLines lines).party = { g.party with mine := g.party.mine + lines } := rfl

theorem checked_applyWeaponOn (g : Game) (t : WeaponToken) :
    ∃ ds, Checked ds g (g.applyWeaponOn t) := by
  have switched : (g.switchOn t).2.count = g.count := by
    unfold switchOn
    generalize g.boardWeapon t = r
    rfl
  have framed (h : Game) (wasActive : Bool) :
      ((h.streamOn t).weaponFrame t wasActive).count = h.count := by
    cases t <;> cases wasActive <;> rfl
  have credited : ∃ ds, Checked ds (g.switchOn t).2
      ((g.switchOn t).2.creditWeaponClear (g.switchOn t).1) := by
    generalize (g.switchOn t).2 = h
    generalize (g.switchOn t).1 = clear
    unfold creditWeaponClear
    split
    · next some =>
      refine ⟨[clear.lines], .check some.le ?_⟩
      have paid := creditClearFunds_count (h.addLines clear.lines) clear.funds
      rw [lineTick_count, party_of_count paid, news_of_count paid, addLines_party]
      unfold Party.check
      rw [if_pos some]
      rfl
    · exact ⟨[], .of_count rfl⟩
  obtain ⟨ds, credited⟩ := credited
  exact ⟨_, ((Checked.of_count switched).trans credited).trans
    (.of_count (framed _ (g.weapons.isActive t)))⟩

theorem checked_flushWeapons (g : Game) : ∃ ds, Checked ds g g.flushWeapons := by
  refine foldl_invariant (P := fun h => ∃ ds, Checked ds g h) (fun t _ h held => ?_)
    ⟨[], .of_count rfl⟩
  obtain ⟨ds, before⟩ := held
  obtain ⟨es, after⟩ := checked_applyWeaponOn h t
  exact ⟨_, before.trans after⟩

theorem checked_lockPiece (g : Game) (p : Piece) : ∃ ds, Checked ds g (g.lockPiece p) := by
  have landed : ((g.signalAirslide p).landPiece p).2.count = g.count ∧
      0 ≤ ((g.signalAirslide p).landPiece p).1.lines := by
    have airslid := signalAirslide_count g p
    generalize g.signalAirslide p = a at airslid
    have nonneg := Board.checkLines_nonneg (p.land a.board)
    unfold landPiece
    generalize (p.land a.board).checkLines = r at nonneg
    exact ⟨airslid, nonneg⟩
  unfold lockPiece
  dsimp only
  generalize (g.signalAirslide p).landPiece p = r at landed
  obtain ⟨landed, nonneg⟩ := landed
  have paid := creditClearFunds_count (r.2.addLines r.1.lines) r.1.funds
  generalize (r.2.addLines r.1.lines).creditClearFunds r.1.funds = c at paid
  have signalled : (c.emit (.locked r.1.lines r.1.value r.1.funds)).signalIdiot.count =
      ({ g.party with mine := g.party.mine + r.1.lines }, g.news) := by
    have added : (r.2.addLines r.1.lines).count =
        ({ g.party with mine := g.party.mine + r.1.lines }, g.news) := by
      rw [← party_of_count landed, ← news_of_count landed]
      rfl
    exact (signalIdiot_count _).trans ((emit_count rfl c).trans (paid.trans added))
  generalize (c.emit (.locked r.1.lines r.1.value r.1.funds)).signalIdiot = d at signalled
  obtain ⟨party, news⟩ := Prod.mk.inj signalled
  refine ⟨[r.1.lines], .check nonneg ?_⟩
  unfold Party.check
  split
  · rw [lineTick_count, party, news]
  · exact signalled

theorem checked_lockAndSpawn (g : Game) (p : Piece) : ∃ ds, Checked ds g (g.lockAndSpawn p) := by
  obtain ⟨ds, locked⟩ := checked_lockPiece g p
  obtain ⟨es, flushed⟩ := checked_flushWeapons (g.lockPiece p)
  have settled : (g.lockAndSpawn p).count = (g.lockPiece p).flushWeapons.count := by
    have spawned := (spawn_count (g.lockPiece p).flushPending).trans (installBoard_count _)
    unfold lockAndSpawn
    generalize (g.lockPiece p).flushPending.spawn = h at spawned
    exact spawned
  exact ⟨_, (locked.trans flushed).trans (.of_count settled)⟩

/-- A tick checks the lines of the lock it contains, and of the walls that rise in it. -/
theorem checked_tick (g : Game) (dt : Int) : ∃ ds, Checked ds g (g.tick dt) := by
  rcases g.tick_cases dt with glides | ⟨acc, p, locks, placed⟩
  · exact ⟨[], .of_count (count_of_still glides)⟩
  · have timed := count_of_still (g.tickWeapons_still dt)
    obtain ⟨ds, locked⟩ :=
      checked_lockAndSpawn { (g.tickWeapons dt).slideAt acc with current := none } p
    have start : { (g.tickWeapons dt).slideAt acc with current := none }.count = g.count := timed
    have done := (Checked.of_count start).trans locked
    rw [placed, place_of_locks locks]
    generalize lockAndSpawn _ p = h at done
    exact ⟨_, done.trans (.of_count rfl)⟩

/-! ## What the relay and the inputs tell a game -/

/-- The count stands, but for news of it. -/
structure Talks (g h : Game) : Prop where
  party : h.party = g.party
  news : ∃ k, h.news = g.news ++ List.replicate k g.party.mine

theorem Talks.of_count (same : h.count = g.count) : Talks g h :=
  ⟨party_of_count same, 0, (news_of_count same).trans (List.append_nil _).symm⟩

theorem talks_addFunds (g : Game) (amount : Int) : Talks g (g.addFunds amount) := by
  unfold addFunds
  split
  · exact .of_count rfl
  · exact ⟨rfl, 1, List.filterMap_append⟩

theorem receiveOpScore_count (g : Game) (score lines funds : Int) :
    (g.receiveOpScore score lines funds).count = (g.party.hear btLinesTilBaz lines, g.news) := by
  have raised : ((g.mirrorScore score funds).raiseStack (lines - g.score.opLines)).count =
      g.count := by
    unfold raiseStack
    split
    · refine forRange_invariant (P := fun h : Game => h.count = g.count) ?_ rfl
      intro _ h _ _ kept
      exact kept
    · rfl
  unfold receiveOpScore
  dsimp only
  generalize (g.mirrorScore score funds).raiseStack (lines - g.score.opLines) = h at raised
  obtain ⟨party, news⟩ := Prod.mk.inj raised
  rw [updateBazaar_count, ← party, ← news]
  rfl

theorem launchWeapon_count (g : Game) (slot : Nat) : (g.launchWeapon slot).count = g.count := by
  unfold launchWeapon
  split
  · rfl
  · cases g.arsenal.token slot with
    | none => rfl
    | some t => exact emit_count (e := .weaponLaunched t) rfl _

/-- An input leaves the bazaar, or leaves the count alone. -/
theorem talks_applyToGame {i : Input} (plays : i.Plays) (g : Game) :
    i = .leaveBazaar ∨ Talks g (i.applyToGame g) := by
  have still {h : Game} (same : h.still = g.still) : Talks g h :=
    .of_count (count_of_still same)
  have token {f : WeaponToken → Game → Game} (kept : ∀ t g, (f t g).count = g.count)
      (index : Int) : Talks g (Input.onToken index f g) :=
    .of_count (Input.onToken_kept count kept index g)
  have bought (t : WeaponToken) (g : Game) : (g.buyWeapon t).2.count = g.count := by
    rcases g.buyWeapon_cases t with refused | ⟨-, -, a, -, paid⟩
    · rw [refused]
    · rw [paid]
      rfl
  have sold (t : WeaponToken) (g : Game) : (g.sellWeapon t).2.count = g.count := by
    rcases g.sellWeapon_cases t with refused | ⟨a, -, paid⟩
    · rw [refused]
    · rw [paid]
      rfl
  cases i with
  | leaveBazaar => exact .inl rfl
  | moveLeft => exact .inr (still (g.shift_still g.leftX))
  | moveRight => exact .inr (still (g.shift_still g.rightX))
  | rotate => exact .inr (still g.rotate_still)
  | beginDrop => exact .inr (still (g.dropFor_still _))
  | aiDrop => exact .inr (still (g.dropFor_still _))
  | softDrop => exact .inr (still g.softDrop_still)
  | launchWeapon slot => exact .inr (.of_count (g.launchWeapon_count slot))
  | buyWeapon t => exact .inr (token bought t)
  | sellWeapon t => exact .inr (token sold t)
  | setPaused p => exact .inr (.of_count rfl)
  | receiveWeapon t => exact .inr (token (f := fun t g => g.receiveWeapon t) (fun _ _ => rfl) t)
  | receiveOpScore score lines funds => exact absurd rfl (plays score lines funds)
  | addFunds amount => exact .inr (talks_addFunds g amount)
  | grantWeapon t => exact .inr (token (f := fun t g => (g.grantWeapon t).2) (fun _ _ => rfl) t)

end Game

namespace Versus

open Game

variable {s : Side} {v w u : Versus} {ds es : List Int}

/-! ## One half of the relay -/

/-- The relay of side `s` told the other side of the increments `ds`; nothing else counted. -/
structure Heard (s : Side) (ds : List Int) (v w : Versus) : Prop where
  sender : (w.game s).party = (v.game s).party
  mine : (w.game s.other).party.mine = (v.game s.other).party.mine
  theirs : (w.game s.other).party.theirs = (v.game s.other).party.theirs + ds.sum
  charged : (v.game s.other).Counting → ∃ n, Charged btLinesTilBaz n (charge btLinesTilBaz ds)
    (v.game s.other).party (w.game s.other).party
  news : ∀ x, ∃ k, (w.game x).news = (v.game x).news ++ List.replicate k (v.game x).party.mine

theorem Heard.of_talks (talks : ∀ x, Talks (v.game x) (w.game x)) : Heard s [] v w where
  sender := (talks s).party
  mine := congrArg Party.mine (talks s.other).party
  theirs := by rw [(talks s.other).party, List.sum_nil, add_zero]
  charged counting := ⟨0, by
    rw [(talks s.other).party]
    exact .refl counting⟩
  news x := (talks x).news

theorem Heard.mines (heard : Heard s ds v w) (x : Side) :
    (w.game x).party.mine = (v.game x).party.mine := by
  rcases Side.eq_or_eq_other x s with rfl | rfl
  · rw [heard.sender]
  · exact heard.mine

theorem Heard.trans (first : Heard s ds v w) (second : Heard s es w u) :
    Heard s (ds ++ es) v u where
  sender := second.sender.trans first.sender
  mine := second.mine.trans first.mine
  theirs := by rw [second.theirs, first.theirs, List.sum_append, add_assoc]
  charged counting := by
    obtain ⟨m, before⟩ := first.charged counting
    obtain ⟨n, after⟩ := second.charged before.current
    refine ⟨m + n, ?_⟩
    rw [charge_append]
    exact before.trans after
  news x := by
    obtain ⟨k, before⟩ := first.news x
    obtain ⟨l, after⟩ := second.news x
    refine ⟨k + l, ?_⟩
    rw [after, before, first.mines, List.append_assoc, List.replicate_append_replicate]

theorem heard_silent {e : GameEvent} (silent : published e = none) :
    Heard s [] v (relayEvent s v e) := by
  have relayed := relayed_relayEvent s v e
  generalize relayEvent s v e = w at relayed
  refine .of_talks fun x => ?_
  cases relayed with
  | quiet games =>
    rw [games]
    exact .of_count rfl
  | weapon r games =>
    rw [games]
    split <;> exact .of_count rfl
  | keating games =>
    rw [games]
    split
    · exact talks_addFunds _ _
    · exact .of_count rfl
  | swap _ games =>
    rw [games]
    exact .of_count rfl
  | susan _ games =>
    rw [games]
    exact .of_count rfl
  | scored => cases silent
  | fundsStolen games =>
    rw [games]
    split
    · exact talks_addFunds _ _
    · exact .of_count rfl

theorem heard_scored (score lines funds : Int) :
    Heard s [lines - (v.game s.other).party.theirs] v
      (relayEvent s v (.scored score lines funds)) := by
  have games (x : Side) : ((relayEvent s v (.scored score lines funds)).game x).count =
      if x = s.other then ((v.game x).party.hear btLinesTilBaz lines, (v.game x).news)
      else (v.game x).count := by
    have step : (relayEvent s v (.scored score lines funds)).game x =
        if x = s.other then (v.game x).receiveOpScore score lines funds else v.game x := by
      simp [relayEvent]
    rw [step]
    split
    · exact receiveOpScore_count _ _ _ _
    · rfl
  generalize relayEvent s v (.scored score lines funds) = w at games
  have here := games s
  have there := games s.other
  rw [if_neg s.ne_other] at here
  rw [if_pos rfl] at there
  have party : (w.game s.other).party = (v.game s.other).party.hear btLinesTilBaz lines :=
    congrArg Prod.fst there
  refine ⟨congrArg Prod.fst here, ?_, ?_, fun counting => ?_, fun x => ⟨0, ?_⟩⟩
  · rw [party]
    rfl
  · rw [party, List.sum_singleton]
    change lines = _
    omega
  · rw [party]
    simpa [charge] using Charged.hear (by decide) counting lines
  · rw [List.replicate_zero, List.append_nil]
    have news := congrArg Prod.snd (games x)
    refine news.trans ?_
    split <;> rfl

/-- The events of a half tell the other side what they publish. -/
theorem heard_relayEvents (es : List GameEvent) (v : Versus) (ds : List Int)
    (chain : es.filterMap published = told (v.game s.other).party.theirs ds) :
    Heard s ds v (es.foldl (relayEvent s) v) := by
  induction es generalizing v ds with
  | nil =>
    cases ds with
    | nil => exact .of_talks fun _ => .of_count rfl
    | cons d ds => cases chain
  | cons e es ih =>
    rw [List.foldl_cons]
    cases said : published e with
    | none =>
      rw [List.filterMap_cons_none said] at chain
      have first : Heard s [] v (relayEvent s v e) := heard_silent said
      refine first.trans (ih _ ds ?_)
      rw [chain, first.theirs, List.sum_nil, add_zero]
    | some lines =>
      rw [List.filterMap_cons_some said] at chain
      cases e with
      | scored score lines' funds =>
        cases said
        cases ds with
        | nil => cases chain
        | cons d ds =>
          obtain ⟨rfl, rest⟩ := List.cons.inj chain
          have first := heard_scored (s := s) (v := v) score
            ((v.game s.other).party.theirs + d) funds
          rw [add_sub_cancel_left] at first
          refine first.trans (ih _ ds ?_)
          rw [rest, first.theirs, List.sum_singleton]
      | _ => cases said

/-- One half of the relay, drain included. -/
structure Half (s : Side) (ds : List Int) (v w : Versus) : Prop where
  sender : (w.game s).party = (v.game s).party
  spent : ∃ k, (w.game s).news = List.replicate k (w.game s).party.mine
  mine : (w.game s.other).party.mine = (v.game s.other).party.mine
  theirs : (w.game s.other).party.theirs = (v.game s.other).party.theirs + ds.sum
  charged : (v.game s.other).Counting → ∃ n, Charged btLinesTilBaz n (charge btLinesTilBaz ds)
    (v.game s.other).party (w.game s.other).party
  news : ∃ k, (w.game s.other).news =
    (v.game s.other).news ++ List.replicate k (w.game s.other).party.mine

theorem half_relayFrom (v : Versus) (s : Side) (ds : List Int)
    (chain : (v.game s).news = told (v.game s.other).party.theirs ds) :
    Half s ds v (v.relayFrom s) := by
  have there : (v.setGame s (v.game s).takeEvents.2).game s.other = v.game s.other := by
    rw [game_setGame, if_neg s.other_ne]
  have here : (v.setGame s (v.game s).takeEvents.2).game s = (v.game s).takeEvents.2 := by
    rw [game_setGame, if_pos rfl]
  have heard : Heard s ds (v.setGame s (v.game s).takeEvents.2) (v.relayFrom s) := by
    refine heard_relayEvents (v.game s).events _ ds ?_
    rw [there]
    exact chain
  generalize v.relayFrom s = w at heard
  obtain ⟨sender, mine, theirs, charged, news⟩ := heard
  rw [here] at sender
  rw [there] at mine theirs charged
  obtain ⟨k, spent⟩ := news s
  obtain ⟨l, more⟩ := news s.other
  rw [here] at spent
  rw [there] at more
  refine ⟨sender, ⟨k, ?_⟩, mine, theirs, charged, l, ?_⟩
  · rw [spent, sender]
    rfl
  · rw [more, mine]

/-! ## Between the events of a match -/

/-- The mirrors and the countdowns are up to date, and what is still to be told is known. -/
structure Settled (v : Versus) : Prop where
  mirror : ∀ s, (v.game s).party.theirs = (v.game s.other).party.mine
  counting : ∀ s, (v.game s).Counting
  news : ∀ s, ∃ k, (v.game s).news = List.replicate k (v.game s).party.mine

/-- The lines of both sides. -/
def lines (v : Versus) : Int := v.a.score.lines + v.b.score.lines

/-- The lines that each check of a side reports in a tick. -/
def checks (v : Versus) (dtMs : Int) (s : Side) : List Int :=
  increments (v.game s).score.lines
    (((v.advance dtMs).game s).news.drop (v.game s).news.length)

theorem Settled.total (settled : v.Settled) (s : Side) : (v.game s).party.total = v.lines := by
  unfold Party.total
  rw [settled.mirror]
  cases s
  · exact add_comm _ _
  · rfl

theorem settled_new (seedA seedB : Nat) : (new seedA seedB).Settled := by
  have count (s : Side) :
      ((new seedA seedB).game s).count = (⟨0, 0, btLinesTilBaz, false⟩, []) := by
    cases s
    · exact count_new seedA
    · exact count_new seedB
  have party (s : Side) : ((new seedA seedB).game s).party = ⟨0, 0, btLinesTilBaz, false⟩ :=
    congrArg Prod.fst (count s)
  refine ⟨fun s => ?_, fun s => ?_, fun s => ⟨0, congrArg Prod.snd (count s)⟩⟩
  · rw [party, party]
  · unfold Counting
    rw [party]
    rfl

theorem Settled.input (settled : v.Settled) (s : Side) {i : Input} (plays : i.Plays) :
    (v.modify s i.applyToGame).Settled := by
  have game (x : Side) : (v.modify s i.applyToGame).game x =
      if x = s then i.applyToGame (v.game x) else v.game x := game_modify ..
  have kept (x : Side) : ((v.modify s i.applyToGame).game x).party =
      { (v.game x).party with opened := ((v.modify s i.applyToGame).game x).party.opened } ∧
        ∃ k, ((v.modify s i.applyToGame).game x).news =
          (v.game x).news ++ List.replicate k (v.game x).party.mine := by
    rw [game]
    split
    · rcases talks_applyToGame plays (v.game x) with rfl | talks
      · exact ⟨rfl, 0, (List.append_nil _).symm⟩
      · refine ⟨?_, talks.news⟩
        rw [talks.party]
    · exact ⟨rfl, 0, (List.append_nil _).symm⟩
  generalize v.modify s i.applyToGame = w at kept
  have mine (x : Side) : (w.game x).party.mine = (v.game x).party.mine := by rw [(kept x).1]
  refine ⟨fun x => ?_, fun x => ?_, fun x => ?_⟩
  · rw [mine, (kept x).1]
    exact settled.mirror x
  · unfold Counting
    rw [(kept x).1]
    exact settled.counting x
  · obtain ⟨k, before⟩ := settled.news x
    obtain ⟨l, after⟩ := (kept x).2
    refine ⟨k + l, ?_⟩
    rw [after, before, mine, List.replicate_append_replicate]

/-- A relay in which side `s` tells of the increments `ds` in the half that is its turn. -/
theorem relay_halves (w : Versus) {a b : List Int}
    (chainA : (w.game .a).news = told (w.game .b).party.theirs a)
    (chainB : (w.game .b).news = told (w.game .a).party.theirs b)
    (whole : (w.game .a).party.theirs + b.sum = (w.game .b).party.mine) :
    ∃ u j, Half .a a w u ∧ Half .b (b ++ List.replicate j 0) u w.relay := by
  have first := half_relayFrom w .a a chainA
  obtain ⟨j, news⟩ := first.news
  refine ⟨w.relayFrom .a, j, first, half_relayFrom _ .b _ ?_⟩
  have same : ((w.relayFrom .a).game .a).party.theirs = (w.game .a).party.theirs :=
    congrArg Party.theirs first.sender
  change _ = told ((w.relayFrom .a).game .a).party.theirs _
  rw [same, told_append, told_zeros, whole, ← chainB]
  refine news.trans ?_
  exact congrArg (fun n => (w.game .b).news ++ List.replicate j n) first.mine

/-- What a tick that relays does to the count of a settled match: each side is charged its own
checks and the other's. -/
structure Counted (v w : Versus) (n : Nat) (a b : List Int) : Prop where
  settled : w.Settled
  charged : ∀ s, Charged btLinesTilBaz n (charge btLinesTilBaz a + charge btLinesTilBaz b)
    (v.game s).party (w.game s).party
  lines : w.lines = v.lines + (a.sum + b.sum)

theorem Settled.counted (settled : v.Settled) {a b : List Int}
    (ownA : Checked a (v.game .a) (w.game .a)) (ownB : Checked b (v.game .b) (w.game .b)) :
    ∃ n, Counted v w.relay n a b := by
  have mirrorA : (v.game .a).party.theirs = (v.game .b).party.mine := settled.mirror .a
  have mirrorB : (v.game .b).party.theirs = (v.game .a).party.mine := settled.mirror .b
  obtain ⟨k, oldA⟩ := settled.news .a
  obtain ⟨l, oldB⟩ := settled.news .b
  -- what was still to be told from before comes first, and counts for nothing
  have queue {s : Side} {k : Nat} {ds : List Int}
      (old : (v.game s).news = List.replicate k (v.game s).party.mine)
      (checked : Checked ds (v.game s) (w.game s)) :
      (w.game s).news = told (v.game s).party.mine (List.replicate k 0 ++ ds) := by
    rw [checked.news, old, told_append, told_zeros, List.sum_replicate, smul_zero, add_zero]
  obtain ⟨u, j, first, second⟩ := relay_halves w
    (a := List.replicate k 0 ++ a) (b := List.replicate l 0 ++ b)
    (by rw [queue oldA ownA, ownB.theirs, mirrorB])
    (by rw [queue oldB ownB, ownA.theirs, mirrorA])
    (by simp [ownA.theirs, ownB.mine, mirrorA])
  generalize w.relay = t at second
  have sumA : (List.replicate k (0 : Int) ++ a).sum = a.sum := by simp
  have sumB : (List.replicate l (0 : Int) ++ b ++ List.replicate j 0).sum = b.sum := by simp
  have chargeA : charge btLinesTilBaz (List.replicate k 0 ++ a) = charge btLinesTilBaz a := by
    simp [charge_append, charge_zeros]
  have chargeB : charge btLinesTilBaz (List.replicate l 0 ++ b ++ List.replicate j 0) =
      charge btLinesTilBaz b := by simp [charge_append, charge_zeros]
  obtain ⟨senderA, ⟨i, spentA⟩, mineB, theirsB, chargedB, -⟩ := first
  obtain ⟨senderB, spentB, mineA, theirsA, chargedA, i', newsA⟩ := second
  dsimp only [Side.other, Counting] at mineA mineB theirsA theirsB chargedA chargedB newsA
  rw [chargeA] at chargedB
  rw [chargeB] at chargedA
  rw [sumA] at theirsB
  rw [sumB] at theirsA
  rw [senderA] at mineA theirsA chargedA spentA
  rw [← senderB] at mineB theirsB chargedB
  have grownA := ownA.mine
  have grownB := ownB.mine
  have keptA := ownA.theirs
  have keptB := ownB.theirs
  -- each side opens for its own checks first, and for the other's when it hears of them
  obtain ⟨m, openA⟩ := ownA.charged (settled.counting .a)
  obtain ⟨n, openB⟩ := ownB.charged (settled.counting .b)
  obtain ⟨m', laterA⟩ := chargedA openA.current
  obtain ⟨n', laterB⟩ := chargedB openB.current
  have wholeA := openA.trans laterA
  have wholeB := openB.trans laterB
  rw [add_comm (charge btLinesTilBaz b)] at wholeB
  have same : m + m' = n + n' := by
    refine wholeA.unique (by decide) wholeB ?_ ?_
    · unfold Party.total
      omega
    · unfold Party.total
      omega
  rw [← same] at wholeB
  refine ⟨m + m', ⟨fun s => ?_, fun s => ?_, fun s => ?_⟩, fun s => ?_, ?_⟩
  · cases s
    · change (t.game .a).party.theirs = (t.game .b).party.mine
      omega
    · change (t.game .b).party.theirs = (t.game .a).party.mine
      omega
  · cases s
    · exact wholeA.current
    · exact wholeB.current
  · cases s
    · refine ⟨i + i', ?_⟩
      rw [newsA, spentA, ← mineA, List.replicate_append_replicate]
    · exact spentB
  · cases s
    · exact wholeA
    · exact wholeB
  · change (t.game .a).party.mine + (t.game .b).party.mine =
      (v.game .a).party.mine + (v.game .b).party.mine + _
    omega

/-- A tick keeps a match settled, and charges it the checks of the tick. -/
theorem Settled.tick (settled : v.Settled) (dtMs : Int) :
    ∃ n a b, Counted v (v.tick dtMs) n a b ∧
      (v.result = 0 → v.checks dtMs .a = a ∧ v.checks dtMs .b = b) ∧
      (v.result ≠ 0 ∨ v.barrier = true → a = [] ∧ b = []) ∧ ∀ d ∈ a ++ b, 0 ≤ d := by
  by_cases live : v.result = 0
  · have own (s : Side) : ∃ ds, Checked ds (v.game s) ((v.advance dtMs).game s) ∧
        (v.barrier = true → ds = []) := by
      rw [game_advance]
      split
      · exact ⟨[], .of_count rfl, fun _ => rfl⟩
      · next free =>
        obtain ⟨ds, checked⟩ := checked_tick (v.game s) dtMs
        exact ⟨ds, checked, fun shut => absurd shut free⟩
    obtain ⟨a, ownA, idleA⟩ := own .a
    obtain ⟨b, ownB, idleB⟩ := own .b
    obtain ⟨n, counted⟩ := settled.counted ownA ownB
    have ticked : v.tick dtMs = (v.advance dtMs).relay := by
      unfold Versus.tick
      rw [if_neg (not_not.mpr live)]
    have seen {s : Side} {ds : List Int}
        (checked : Checked ds (v.game s) ((v.advance dtMs).game s)) : v.checks dtMs s = ds := by
      unfold checks
      rw [checked.news, List.drop_left]
      exact increments_told
    refine ⟨n, a, b, ticked ▸ counted, fun _ => ⟨seen ownA, seen ownB⟩, ?_, fun d mem => ?_⟩
    · rintro (ended | shut)
      · exact absurd live ended
      · exact ⟨idleA shut, idleB shut⟩
    · rcases List.mem_append.mp mem with mine | theirs
      · exact ownA.grows d mine
      · exact ownB.grows d theirs
  · have ticked : v.tick dtMs = v := by
      unfold Versus.tick
      rw [if_pos live]
    rw [ticked]
    refine ⟨0, [], [], ⟨settled, fun s => .refl (settled.counting s), (add_zero _).symm⟩,
      fun ended => absurd ended live, fun _ => ⟨rfl, rfl⟩, nofun⟩

/-- A tick without a line check opens nothing. -/
theorem Counted.idle {n : Nat} (counted : Counted v w n [] []) (settled : v.Settled) :
    n = 0 ∧ w.lines = v.lines := by
  have lines := counted.lines
  rw [List.sum_nil, add_zero, add_zero] at lines
  have odometer := (counted.charged .a).odometer
  rw [settled.total, counted.settled.total, lines] at odometer
  have idle : charge btLinesTilBaz [] + charge btLinesTilBaz [] = 0 := rfl
  rw [idle] at odometer
  change (20 : Int) * n + v.lines % 20 = v.lines % 20 + 0 at odometer
  exact ⟨by omega, lines⟩

/-- A tick opens both bazaars or neither, and none under the barrier. -/
theorem Settled.opens (settled : v.Settled) (dtMs : Int) :
    (v.tick dtMs).Settled ∧ ∃ opened : Bool,
      (∀ s, ((v.tick dtMs).game s).inBazaar = ((v.game s).inBazaar || opened)) ∧
        (v.barrier = true → opened = false) := by
  obtain ⟨n, a, b, counted, -, idle, -⟩ := settled.tick dtMs
  refine ⟨counted.settled, decide (0 < n), fun s => (counted.charged s).opened, fun shut => ?_⟩
  obtain ⟨rfl, rfl⟩ := idle (.inr shut)
  obtain ⟨rfl, -⟩ := counted.idle settled
  rfl

theorem Settled.run {seedA seedB : Nat} {events : List MatchEvent}
    (run : Run (fun _ e => ∀ s i, e = .input s i → i.Plays) step (new seedA seedB) events v) :
    v.Settled := by
  refine run.invariant (fun v e settled plays => ?_) (settled_new seedA seedB)
  cases e with
  | input s i => exact settled.input s (plays s i rfl)
  | tick dtMs =>
    obtain ⟨n, a, b, counted, -⟩ := settled.tick dtMs
    exact counted.settled

/-- In every match both sides know the other's lines and have the same countdown, and a tick
opens both bazaars or neither: once for every multiple of 20 that the lines of the match pass,
unless a single check reports 20 lines.  While a side shops no bazaar opens. -/
theorem bazaar_opens_for_both {seedA seedB : Nat} {events : List MatchEvent}
    (run : Run (fun _ e => ∀ s i, e = .input s i → i.Plays) step (new seedA seedB) events v) :
    (∀ s, (v.game s).score.opLines = (v.game s.other).score.lines ∧
      (v.game s).linesTilBaz = btLinesTilBaz - v.lines % btLinesTilBaz) ∧
    ∀ dtMs, ∃ n : Nat,
      (∀ s, ((v.tick dtMs).game s).inBazaar = ((v.game s).inBazaar || decide (0 < n))) ∧
      ((∀ s, ∀ d ∈ v.checks dtMs s, d < btLinesTilBaz) →
        n = (v.tick dtMs).lines / btLinesTilBaz - v.lines / btLinesTilBaz) ∧
      (v.barrier = true → n = 0 ∧ (v.tick dtMs).lines = v.lines) := by
  have settled := Settled.run run
  refine ⟨fun s => ⟨settled.mirror s, ?_⟩, fun dtMs => ?_⟩
  · rw [← settled.total s]
    exact settled.counting s
  · obtain ⟨n, a, b, counted, seen, idle, grows⟩ := settled.tick dtMs
    have lines := counted.lines
    have total := settled.total .a
    have total' := counted.settled.total .a
    refine ⟨n, fun s => (counted.charged s).opened, fun few => ?_, fun shut => ?_⟩
    · have below : ∀ d ∈ a ++ b, 0 ≤ d ∧ d < btLinesTilBaz := by
        intro d mem
        refine ⟨grows d mem, ?_⟩
        by_cases live : v.result = 0
        · obtain ⟨rfl, rfl⟩ := seen live
          exact (List.mem_append.mp mem).elim (few .a d) (few .b d)
        · obtain ⟨rfl, rfl⟩ := idle (.inl live)
          cases mem
      have exact : charge btLinesTilBaz a + charge btLinesTilBaz b = a.sum + b.sum := by
        rw [← charge_append, charge_eq_sum below, List.sum_append]
      have multiples := (counted.charged .a).multiples (by decide) (by
        rw [total', total, exact]
        exact lines)
      rw [total, total'] at multiples
      exact multiples
    · obtain ⟨rfl, rfl⟩ := idle (.inr shut)
      exact counted.idle settled

theorem bazaar_opens_for_both_first :
    ((new 7 3).step (.tick 16)).a.score.opLines = ((new 7 3).step (.tick 16)).b.score.lines := by
  have start : Run (fun _ e => ∀ s i, e = .input s i → i.Plays) step (new 7 3) [] (new 7 3) :=
    .nil
  have run := start.snoc (e := .tick 16) nofun
  generalize (new 7 3).step (.tick 16) = v at run
  exact ((bazaar_opens_for_both run).1 .a).1

end Versus

end BattleTris
