import BattleTris.Match.Tally
import BattleTris.Server.FogOfWar

/-!
The budget of a spy: a threshold of the opponent's lines that each launch raises, and that the
bookkeeping of the bout keeps by differences.
-/

namespace BattleTris

open Loop Machine

/-! ## The threshold -/

/-- The opponent's lines up to which a side spies, and the weapon it launched last. -/
structure Meter where
  limit : Int
  kind : Option WeaponToken

namespace Meter

def new : Meter := ⟨0, none⟩

/-- A launch at the given lines of the opponent. -/
def launch (lines : Int) (m : Meter) (t : WeaponToken) : Meter :=
  ⟨max m.limit lines + (weaponTable t).duration, some t⟩

/-- The spy and the lines that it has left. -/
def spy (m : Meter) (lines : Int) : Option (WeaponToken × Int) :=
  if lines < m.limit then m.kind.map fun t => (t, m.limit - lines) else none

/-- Before the first launch there is no budget. -/
def Sound (m : Meter) (lines : Int) : Prop := m.kind = none → m.limit ≤ lines

variable {m : Meter} {lines lines' : Int} {t : WeaponToken}

theorem Sound.mono (sound : m.Sound lines) (more : lines ≤ lines') : m.Sound lines' :=
  fun none => (sound none).trans more

theorem Sound.launch (m : Meter) (lines : Int) (t : WeaponToken) :
    (m.launch lines t).Sound lines := by
  rintro ⟨⟩

theorem duration_pos (spy : isSpy t = true) : 0 < (weaponTable t).duration := by
  cases t <;> first | decide | cases spy

/-- A spy that is charged for the lines since the last count reads the new count. -/
theorem spy_charge (m : Meter) (lines : Int) (delta : Int) (more : 0 ≤ delta) :
    ((m.spy lines).bind fun s => if s.2 - delta > 0 then some (s.1, s.2 - delta) else none) =
      m.spy (lines + delta) := by
  unfold spy
  rcases m.kind with _ | t
  · split <;> split <;> rfl
  · by_cases active : lines < m.limit
    · rw [if_pos active, Option.map_some, Option.bind_some]
      by_cases after : lines + delta < m.limit
      · rw [if_pos after, if_pos (by dsimp only; omega), Option.map_some]
        exact congrArg (fun left => some (t, left)) (by dsimp only; omega)
      · rw [if_neg after, if_neg (by dsimp only; omega)]
    · rw [if_neg active, if_neg (by omega)]
      rfl

/-- A launch adds its budget to what is left. -/
theorem spy_launch (sound : m.Sound lines) (spy : isSpy t = true) :
    (m.launch lines t).spy lines =
      some (t, ((m.spy lines).map Prod.snd).getD 0 + (weaponTable t).duration) := by
  have positive := duration_pos spy
  unfold Meter.spy Meter.launch
  dsimp only
  rw [if_pos (by omega), Option.map_some]
  refine congrArg (fun left => some (t, left)) ?_
  by_cases active : lines < m.limit
  · rw [if_pos active, max_eq_left active.le]
    cases kind : m.kind with
    | none => exact absurd (sound kind) (not_le.mpr active)
    | some u =>
      change m.limit + _ - lines = m.limit - lines + _
      omega
  · rw [if_neg active, max_eq_right (not_lt.mp active)]
    change lines + _ - lines = 0 + _
    omega

end Meter

/-! ## The launches of a tick -/

/-- The spies among the launches, in order. -/
def spiesOf (es : List GameEvent) : List WeaponToken :=
  es.filterMap fun
    | .weaponLaunched t => if isSpy t then some t else none
    | _ => none

theorem isSpy_of_mem {es : List GameEvent} {t : WeaponToken} (member : t ∈ spiesOf es) :
    isSpy t = true := by
  obtain ⟨e, -, found⟩ := List.mem_filterMap.mp member
  cases e with
  | weaponLaunched u =>
    dsimp only at found
    split at found
    · next spy =>
      cases found
      exact spy
    · cases found
  | _ => cases found

namespace Versus

variable {s : Side} {v v' : Versus} {e : GameEvent}

/-- The spies that a tick relays for side `s`, which Mirror must not have cursed. -/
def relayedSpies (v : Versus) (dtMs : Int) (s : Side) : List WeaponToken :=
  if v.result ≠ 0 then []
  else
    let g := (v.advance dtMs).game s
    if g.weaponActive .mirror then [] else spiesOf g.events

@[simp] theorem spyLaunch_setGame (v : Versus) (s : Side) (g : Game) :
    (v.setGame s g).spyLaunch = v.spyLaunch := by
  cases s <;> rfl

@[simp] theorem spyLaunch_modify (v : Versus) (s : Side) (f : Game → Game) :
    (v.modify s f).spyLaunch = v.spyLaunch :=
  v.spyLaunch_setGame s _

theorem spyLaunch_recordDelivery (v : Versus) (d : Delivery) (attacker victim : Side) :
    (v.recordDelivery d attacker victim).spyLaunch = v.spyLaunch := by
  obtain ⟨onVictim, onAttacker, credit, _⟩ := d
  cases onVictim <;> cases onAttacker <;> cases credit <;> rfl

theorem isSpy_relayedSpies (v : Versus) (dtMs : Int) (s : Side) :
    ∀ t ∈ v.relayedSpies dtMs s, isSpy t = true := by
  unfold relayedSpies
  intro t member
  split at member
  · cases member
  · dsimp only at member
    split at member
    · cases member
    · exact isSpy_of_mem member

/-- What a launch leaves for the host. -/
theorem relayLaunch_spyLaunch (s : Side) (v : Versus) (t : WeaponToken) (x : Side) :
    (v.relayLaunch s t).spyLaunch x =
      v.spyLaunch x ++ if x = s ∧ (v.game s).weaponActive .mirror = false ∧ isSpy t = true then [t]
        else [] := by
  by_cases spy : isSpy t = true
  · unfold relayLaunch
    rw [if_pos spy]
    by_cases cursed : (v.game s).weaponActive .mirror = true
    · rw [if_pos cursed, if_neg (by simp [cursed]), List.append_nil]
    · rw [if_neg cursed]
      dsimp only
      rcases eq_or_ne x s with rfl | apart
      · rw [Function.update_self, if_pos ⟨rfl, by simpa using cursed, spy⟩]
      · rw [Function.update_of_ne apart, if_neg (fun same => apart same.1), List.append_nil]
  · have none : ¬(x = s ∧ (v.game s).weaponActive .mirror = false ∧ isSpy t = true) :=
      fun peeled => spy peeled.2.2
    rcases delivered : deliverWeapon (v.game s) (v.game s.other) t with ⟨attacker, victim, d⟩
    rw [if_neg none, List.append_nil, relayLaunch_of_deliver (by simpa using spy) delivered]
    dsimp only
    rw [spyLaunch_recordDelivery, spyLaunch_setGame, spyLaunch_setGame]

/-- What one event of side `s` leaves for the host. -/
theorem relayEvent_spyLaunch (s : Side) (v : Versus) (e : GameEvent) (x : Side) :
    (relayEvent s v e).spyLaunch x =
      v.spyLaunch x ++ if x = s ∧ (v.game s).weaponActive .mirror = false then spiesOf [e]
        else [] := by
  cases e with
  | weaponLaunched t =>
    refine (v.relayLaunch_spyLaunch s t x).trans (congrArg (v.spyLaunch x ++ ·) ?_)
    cases spy : isSpy t <;> simp [spiesOf, spy]
  | gameOver =>
    unfold relayEvent
    dsimp only
    split <;> simp [spiesOf]
  | _ => simp [relayEvent, spiesOf, pushOutbox]

/-- What the events of side `s` leave for the host. -/
theorem relayEvents_spyLaunch (s : Side) (es : List GameEvent) (v : Versus) (x : Side) :
    (es.foldl (relayEvent s) v).spyLaunch x =
      v.spyLaunch x ++ if x = s ∧ (v.game s).weaponActive .mirror = false then spiesOf es
        else [] := by
  induction es generalizing v with
  | nil => simp [spiesOf]
  | cons e es ih =>
    have same : ((relayEvent s v e).game s).weaponActive .mirror =
        (v.game s).weaponActive .mirror := by
      unfold Game.weaponActive
      rw [((relayed_relayEvent s v e).steady s).weapons]
    have split : spiesOf (e :: es) = spiesOf [e] ++ spiesOf es :=
      List.filterMap_append (l := [e])
    rw [List.foldl_cons, ih, relayEvent_spyLaunch, same, split]
    by_cases heard : x = s ∧ (v.game s).weaponActive .mirror = false
    · rw [if_pos heard, if_pos heard, if_pos heard, List.append_assoc]
    · rw [if_neg heard, if_neg heard, if_neg heard, List.append_nil]

theorem relayFrom_spyLaunch (v : Versus) (s x : Side) :
    (v.relayFrom s).spyLaunch x =
      v.spyLaunch x ++ if x = s ∧ (v.game s).weaponActive .mirror = false then
        spiesOf (v.game s).events else [] := by
  have drained := relayEvents_spyLaunch s (v.game s).events (v.setGame s (v.game s).takeEvents.2) x
  rw [game_setGame, if_pos rfl] at drained
  refine drained.trans ?_
  cases s <;> rfl

/-- A message queues no launch. -/
theorem Relayed.spies (relayed : Relayed s v e v') (x : Side) :
    spiesOf (v'.game x).events = spiesOf (v.game x).events := by
  have credited (g : Game) (amount : Int) :
      spiesOf (g.addFunds amount).events = spiesOf g.events := by
    rcases g.addFunds_events amount with same | ⟨_, _, _, scored⟩
    · rw [same]
    · rw [scored]
      simp [spiesOf]
  cases relayed with
  | quiet games => rw [games]
  | weapon r games =>
    rw [games]
    split <;> rfl
  | keating games =>
    rw [games]
    split
    · exact credited _ _
    · rfl
  | swap _ games => rw [games]; rfl
  | susan _ games => rw [games]
  | @scored score lines funds _ games =>
    rw [games]
    split
    · rcases (v.game x).receiveOpScore_events score lines funds with same | entered
      · rw [same]
      · rw [entered]
        simp [spiesOf]
    · rfl
  | fundsStolen games =>
    rw [games]
    split
    · exact credited _ _
    · rfl

theorem relayFrom_other_spies (v : Versus) (s : Side) :
    spiesOf ((v.relayFrom s).game s.other).events = spiesOf (v.game s.other).events := by
  refine relayFrom_invariant
    (P := fun w => spiesOf (w.game s.other).events = spiesOf (v.game s.other).events) s
    (fun _ => ?_) (fun w e w' _ relayed kept => (relayed.spies s.other).trans kept) rfl
  rw [game_setGame, if_neg s.other_ne]

/-- A tick leaves the host the spies that it relays. -/
theorem tick_spyLaunch (v : Versus) (dtMs : Int) (x : Side) :
    (v.tick dtMs).spyLaunch x = v.spyLaunch x ++ v.relayedSpies dtMs x := by
  unfold tick relayedSpies
  by_cases decided : v.result ≠ 0
  · rw [if_pos decided, if_pos decided, List.append_nil]
  rw [if_neg decided, if_neg decided]
  have kept : (v.advance dtMs).spyLaunch = v.spyLaunch := by
    unfold advance
    split <;> rfl
  have cursed := (Fog.steady_relayFrom (v.advance dtMs) .a .b).weapons
  have spies := relayFrom_other_spies (v.advance dtMs) .a
  unfold relay
  rw [relayFrom_spyLaunch, relayFrom_spyLaunch, kept, List.append_assoc]
  refine congrArg (v.spyLaunch x ++ ·) ?_
  cases x with
  | a =>
    rw [if_neg (fun same : Side.a = .b ∧ _ => Side.other_ne .a same.1.symm), List.append_nil]
    dsimp only
    cases ((v.advance dtMs).game .a).weaponActive .mirror <;> rfl
  | b =>
    change spiesOf (((v.advance dtMs).relayFrom .a).game .b).events = _ at spies
    rw [if_neg (fun same : Side.b = .a ∧ _ => Side.other_ne .a same.1), List.nil_append, spies]
    unfold Game.weaponActive
    rw [cursed]
    dsimp only
    cases ((v.advance dtMs).game .b).weapons.isActive .mirror <;> rfl

/-! ## The lines of a tick -/

/-- No message touches the lines. -/
theorem Relayed.lines (relayed : Relayed s v e v') (x : Side) :
    (v'.game x).score.lines = (v.game x).score.lines := by
  cases relayed with
  | quiet games => rw [games]
  | weapon r games =>
    rw [games]
    split <;> rfl
  | keating games =>
    rw [games]
    split
    · exact Game.addFunds_lines _ _
    · rfl
  | swap _ games => rw [games]; rfl
  | susan _ games => rw [games]
  | scored games =>
    rw [games]
    split
    · exact Game.receiveOpScore_lines _ _ _ _
    · rfl
  | fundsStolen games =>
    rw [games]
    split
    · exact Game.addFunds_lines _ _
    · rfl

theorem relayFrom_lines (v : Versus) (s x : Side) :
    ((v.relayFrom s).game x).score.lines = (v.game x).score.lines := by
  refine relayFrom_invariant
    (P := fun w => (w.game x).score.lines = (v.game x).score.lines) s (fun _ => ?_)
    (fun w e w' _ relayed kept => (relayed.lines x).trans kept) rfl
  rw [game_setGame]
  split
  · next same => rw [same]; rfl
  · rfl

/-- A tick of the match takes no lines back. -/
theorem tick_lines (v : Versus) (dtMs : Int) (x : Side) :
    (v.game x).score.lines ≤ ((v.tick dtMs).game x).score.lines := by
  unfold tick
  split
  · exact le_rfl
  · unfold relay
    rw [relayFrom_lines, relayFrom_lines, game_advance]
    split
    · exact le_rfl
    · exact Game.tick_lines _ dtMs

end Versus

/-! ## The bookkeeping -/

namespace Bout

variable {b : Bout} {s : Side} {m : Meter}

/-- The opponent's lines. -/
def oppLines (b : Bout) (s : Side) : Int := (b.versus.game s.other).score.lines

/-- The bout keeps the spy that the meter shows at the opponent's lines, and no launch waits. -/
structure Reads (b : Bout) (s : Side) (m : Meter) : Prop where
  spy : b.spy s = m.spy (b.oppLines s)
  sound : m.Sound (b.oppLines s)
  seen : b.oppLinesSeen s = b.oppLines s
  idle : b.versus.spyLaunch s = []

theorem reads_new (seedA seedB : Nat) (s : Side) : (new seedA seedB).Reads s .new := by
  have none (seed : Nat) : (Game.new seed).score.lines = 0 :=
    congrArg Prod.snd (Game.spawn_tally (Game.blank seed))
  have lines : (new seedA seedB).oppLines s = 0 := by
    cases s <;> exact none _
  refine ⟨?_, fun _ => ?_, lines.symm, rfl⟩
  · rw [lines]
    rfl
  · rw [lines]
    rfl

/-- What touches neither the books nor the lines keeps the meter. -/
theorem Reads.of_books (reads : b.Reads s m) {c : Bout} (spy : c.spy = b.spy)
    (seen : c.oppLinesSeen = b.oppLinesSeen) (idle : c.versus.spyLaunch = b.versus.spyLaunch)
    (lines : c.oppLines s = b.oppLines s) : c.Reads s m := by
  obtain ⟨shown, sound, counted, none⟩ := reads
  constructor
  · rw [spy, lines, shown]
  · rw [lines]
    exact sound
  · rw [seen, lines, counted]
  · rw [idle, none]

/-- The charge of one side. -/
theorem chargeSpy_spy (b : Bout) (s : Side) (delta : Int) :
    (b.chargeSpy s delta).spy s =
        (b.spy s).bind (fun r => if r.2 - delta > 0 then some (r.1, r.2 - delta) else none) ∧
      (b.chargeSpy s delta).spy s.other = b.spy s.other := by
  unfold chargeSpy
  rcases found : b.spy s with _ | ⟨token, left⟩
  · exact ⟨found, rfl⟩
  · exact ⟨Function.update_self .., Function.update_of_ne s.other_ne ..⟩

/-- The launches of one side raise its meter. -/
theorem launchSpies_spy (launched : List WeaponToken) (spies : ∀ t ∈ launched, isSpy t = true)
    {lines : Int} (b : Bout) (shown : b.spy s = m.spy lines) (sound : m.Sound lines) :
    (launched.foldl (launchSpy s) b).spy s = (launched.foldl (Meter.launch lines) m).spy lines ∧
      (launched.foldl (Meter.launch lines) m).Sound lines := by
  induction launched generalizing b m with
  | nil => exact ⟨shown, sound⟩
  | cons t ts ih =>
    have raised : (launchSpy s b t).spy s = (m.launch lines t).spy lines := by
      rw [Meter.spy_launch sound (spies t List.mem_cons_self), ← shown]
      exact Function.update_self ..
    exact ih (fun u member => spies u (List.mem_cons_of_mem t member)) (launchSpy s b t) raised
      (Meter.Sound.launch m lines t)

theorem launchSpies_kept (launched : List WeaponToken) (s : Side) (b : Bout) :
    (launched.foldl (launchSpy s) b).spy s.other = b.spy s.other ∧
      (launched.foldl (launchSpy s) b).oppLinesSeen = b.oppLinesSeen := by
  induction launched generalizing b with
  | nil => exact ⟨rfl, rfl⟩
  | cons t ts ih =>
    obtain ⟨apart, seen⟩ := ih (launchSpy s b t)
    exact ⟨apart.trans (Function.update_of_ne s.other_ne ..), seen⟩

/-- What a side's bookkeeping does before the launches. -/
theorem books_spy (b : Bout) (s : Side) (delta : Int) :
    let c := ((b.noteTetris s delta).chargeSpy s delta).seeLines s
    c.spy s =
        (b.spy s).bind (fun r => if r.2 - delta > 0 then some (r.1, r.2 - delta) else none) ∧
      c.spy s.other = b.spy s.other ∧ c.versus = b.versus ∧
      c.oppLinesSeen = Function.update b.oppLinesSeen s (b.oppLines s) := by
  have noted : (b.noteTetris s delta).spy = b.spy ∧
      (b.noteTetris s delta).oppLinesSeen = b.oppLinesSeen := by
    unfold noteTetris
    split <;> exact ⟨rfl, rfl⟩
  have kept (c : Bout) : (c.chargeSpy s delta).oppLinesSeen = c.oppLinesSeen := by
    unfold chargeSpy
    cases c.spy s <;> rfl
  have match_ := b.books_versus s delta
  obtain ⟨charged, apart⟩ := (b.noteTetris s delta).chargeSpy_spy s delta
  have counted := kept (b.noteTetris s delta)
  rw [noted.1] at charged apart
  rw [noted.2] at counted
  generalize (b.noteTetris s delta).chargeSpy s delta = c at *
  refine ⟨charged, apart, match_, ?_⟩
  unfold seeLines oppLines
  dsimp only
  rw [counted, match_]

theorem tickSpy_launches (b : Bout) (s : Side) :
    b.tickSpy s = (b.versus.spyLaunch s).foldl (launchSpy s)
      { ((b.noteTetris s (b.oppDelta s)).chargeSpy s (b.oppDelta s)).seeLines s with
        versus := (b.versus.takeSpyLaunches s).2 } := by
  have same := (b.books_spy s (b.oppDelta s)).2.2.1
  unfold tickSpy
  dsimp only
  rw [same]
  rfl

theorem tickSpy_oppLines (b : Bout) (s x : Side) : (b.tickSpy s).oppLines x = b.oppLines x := by
  unfold oppLines
  rw [b.tickSpy_versus s]
  cases x <;> rfl

/-- One side's bookkeeping, once the match has ticked: the lines since the last count are charged
first, and the launches counted from the new lines. -/
theorem tickSpy_reads {lines : Int} (shown : b.spy s = m.spy lines) (sound : m.Sound lines)
    (seen : b.oppLinesSeen s = lines) (more : lines ≤ b.oppLines s)
    (fits : b.oppLines s - lines < 2 ^ 31)
    (spies : ∀ t ∈ b.versus.spyLaunch s, isSpy t = true) :
    (b.tickSpy s).Reads s
      ((b.versus.spyLaunch s).foldl (Meter.launch (b.oppLines s)) m) := by
  have delta : b.oppDelta s = b.oppLines s - lines := by
    unfold oppDelta
    rw [seen]
    change asI32 (max (b.oppLines s - lines) 0) = _
    rw [max_eq_left (Int.sub_nonneg_of_le more)]
    exact asI32_of_fits ⟨by omega, by omega⟩
  obtain ⟨charged, -, -, counted⟩ := b.books_spy s (b.oppDelta s)
  have whole := b.tickSpy_launches s
  generalize ((b.noteTetris s (b.oppDelta s)).chargeSpy s (b.oppDelta s)).seeLines s = c at *
  have now : lines + (b.oppLines s - lines) = b.oppLines s := by omega
  rw [shown, delta, Meter.spy_charge m lines _ (Int.sub_nonneg_of_le more), now] at charged
  obtain ⟨raised, sounds⟩ := launchSpies_spy _ spies
    { c with versus := (b.versus.takeSpyLaunches s).2 } charged (sound.mono more)
  have kept := (launchSpies_kept (b.versus.spyLaunch s) s
    { c with versus := (b.versus.takeSpyLaunches s).2 }).2
  rw [← whole] at raised kept
  constructor
  · rw [tickSpy_oppLines]
    exact raised
  · rw [tickSpy_oppLines]
    exact sounds
  · rw [tickSpy_oppLines, kept]
    exact (congrFun counted s).trans (Function.update_self ..)
  · rw [b.tickSpy_versus s]
    exact Function.update_self ..

/-- The bookkeeping of the one side leaves the other's books alone. -/
theorem tickSpy_apart (b : Bout) (s : Side) :
    (b.tickSpy s).spy s.other = b.spy s.other ∧
      (b.tickSpy s).oppLinesSeen s.other = b.oppLinesSeen s.other ∧
      (b.tickSpy s).versus.spyLaunch s.other = b.versus.spyLaunch s.other := by
  obtain ⟨-, apart, -, counted⟩ := b.books_spy s (b.oppDelta s)
  obtain ⟨others, kept⟩ := launchSpies_kept (b.versus.spyLaunch s) s
    { ((b.noteTetris s (b.oppDelta s)).chargeSpy s (b.oppDelta s)).seeLines s with
      versus := (b.versus.takeSpyLaunches s).2 }
  rw [← tickSpy_launches] at others kept
  refine ⟨others.trans apart, ?_, ?_⟩
  · rw [kept]
    exact (congrFun counted s.other).trans (Function.update_of_ne s.other_ne ..)
  · rw [b.tickSpy_versus s]
    exact Function.update_of_ne s.other_ne ..

theorem Reads.tickSpy_other (reads : b.Reads s.other m) : (b.tickSpy s).Reads s.other m := by
  obtain ⟨shown, sound, counted, none⟩ := reads
  obtain ⟨spy, seen, idle⟩ := b.tickSpy_apart s
  constructor
  · rw [spy, tickSpy_oppLines, shown]
  · rw [tickSpy_oppLines]
    exact sound
  · rw [seen, tickSpy_oppLines, counted]
  · rw [idle, none]

/-! ## Runs -/

/-- A call, and the meters of the two sides: a tick raises them by the spies that it relays, at the
lines that it ends with. -/
def metered (p : Bout × (Side → Meter)) (e : HostCall) : Bout × (Side → Meter) :=
  (p.1.host e,
    match e with
    | .tick dtMs => fun s =>
      (p.1.versus.relayedSpies dtMs s).foldl (Meter.launch ((p.1.host e).oppLines s)) (p.2 s)
    | _ => p.2)

/-- The lines of one tick fit the `i32` that the bookkeeping casts them to. -/
def LinesFit (p : Bout × (Side → Meter)) : HostCall → Prop
  | .tick dtMs => ∀ s, (p.1.host (.tick dtMs)).oppLines s - p.1.oppLines s < 2 ^ 31
  | _ => True

theorem drive_books (b : Bout) (x : Side) (i : Input) :
    (b.drive x i).versus.spyLaunch = b.versus.spyLaunch ∧
      ∀ s, (b.drive x i).oppLines s = b.oppLines s := by
  refine ⟨Versus.spyLaunch_modify b.versus x i.applyToGame, fun s => ?_⟩
  unfold oppLines drive
  dsimp only
  rw [Versus.game_modify]
  split
  · exact i.applyToGame_lines _
  · rfl

theorem Reads.applyInput (reads : b.Reads s m) (x : Side) (i : Input) (seq : Nat) :
    (b.applyInput x i seq).2.Reads s m := by
  obtain ⟨launches, lines⟩ := (b.setAck x seq).drive_books x i
  unfold Bout.applyInput
  split
  · exact reads
  · dsimp only
    split
    · exact reads.of_books rfl rfl rfl rfl
    · exact reads.of_books rfl rfl launches (lines s)

theorem Reads.debugGrant (reads : b.Reads s m) (x : Side) (weapon : Option WeaponToken)
    (funds : Option Int) : (b.debugGrant x weapon funds).2.Reads s m := by
  have game (c : Bout) {g : Game} (same : g.score.lines = (c.versus.game x).score.lines)
      (reads : c.Reads s m) : Reads { c with versus := c.versus.setGame x g } s m := by
    refine reads.of_books rfl rfl (Versus.spyLaunch_setGame ..) ?_
    unfold oppLines
    dsimp only
    rw [Versus.game_setGame]
    split
    · next here => rw [same, here]
    · rfl
  have recorded (c : Bout) (landed : Bool) (input : Option Input) (reads : c.Reads s m) :
      (c.recordGrant x landed input).Reads s m := by
    unfold recordGrant
    split
    · exact reads.of_books rfl rfl rfl rfl
    · exact reads
  have armed : (b.grantWeapon x weapon).2.Reads s m := by
    cases weapon with
    | none => exact reads
    | some t => exact game b rfl reads
  have funded (c : Bout) (reads : c.Reads s m) : (c.grantFunds x funds).2.Reads s m := by
    unfold grantFunds
    split
    · split
      · exact game c (Game.addFunds_lines _ _) reads
      · exact reads
    · exact reads
  exact recorded _ _ _ (recorded _ _ _ (funded _ armed))

/-- A tick charges the lines that it cleared, and then raises the meters. -/
theorem reads_tick {meter : Side → Meter} (reads : ∀ s, b.Reads s (meter s)) {dtMs : Int}
    (fit : LinesFit (b, meter) (.tick dtMs)) (s : Side) :
    (b.tickMs dtMs).Reads s
      ((b.versus.relayedSpies dtMs s).foldl (Meter.launch ((b.tickMs dtMs).oppLines s))
        (meter s)) := by
  have launched (x : Side) :
      (b.advance dtMs).versus.spyLaunch x = b.versus.relayedSpies dtMs x := by
    refine (b.versus.tick_spyLaunch dtMs x).trans ?_
    rw [(reads x).idle, List.nil_append]
  have lined (x : Side) : (b.tickMs dtMs).oppLines x = (b.advance dtMs).oppLines x :=
    (tickSpy_oppLines _ .b x).trans (tickSpy_oppLines _ .a x)
  have more : b.oppLines s ≤ (b.advance dtMs).oppLines s := b.versus.tick_lines dtMs s.other
  have few : (b.advance dtMs).oppLines s - b.oppLines s < 2 ^ 31 := by
    rw [← lined]
    exact fit s
  have spies := b.versus.isSpy_relayedSpies dtMs s
  rw [lined, ← launched] at *
  cases s with
  | a =>
    have first := tickSpy_reads (b := b.advance dtMs) (reads .a).spy (reads .a).sound
      (reads .a).seen more few spies
    exact first.tickSpy_other (s := .b)
  | b =>
    obtain ⟨spy, seen, waiting⟩ := (b.advance dtMs).tickSpy_apart .a
    have same := (b.advance dtMs).tickSpy_oppLines .a .b
    change _ = (b.advance dtMs).versus.spyLaunch .b at waiting
    rw [← same] at more few ⊢
    rw [← waiting] at spies ⊢
    exact tickSpy_reads (spy.trans (reads .b).spy) (reads .b).sound (seen.trans (reads .b).seen)
      more few spies

theorem reads_run {seedA seedB : Nat} {calls : List HostCall} {p : Bout × (Side → Meter)}
    (run : Run LinesFit metered (new seedA seedB, fun _ => .new) calls p) (s : Side) :
    p.1.Reads s (p.2 s) := by
  refine run.invariant (P := fun p : Bout × (Side → Meter) => ∀ s, p.1.Reads s (p.2 s))
    (fun p e reads fit s => ?_) (fun s => reads_new seedA seedB s) s
  cases e with
  | applyInput x i seq => exact (reads s).applyInput x i seq
  | debugGrant x weapon funds => exact (reads s).debugGrant x weapon funds
  | resetAck x => exact (reads s).of_books rfl rfl rfl rfl
  | tick dtMs => exact reads_tick reads fit s
  | takeDirty =>
    refine (reads s).of_books rfl rfl rfl ?_
    cases s <;> rfl
  | takeEventsFor x =>
    refine (reads s).of_books rfl rfl rfl ?_
    cases s <;> rfl

/-- After any run, with the threshold raised at each launch from the lines of its tick: a side spies
while the opponent's lines are below the threshold, with what is between them left, through the
weapon that it launched last. -/
theorem spy_budget {seedA seedB : Nat} {calls : List HostCall} {p : Bout × (Side → Meter)}
    (run : Run LinesFit metered (new seedA seedB, fun _ => .new) calls p) (s : Side) :
    ((p.1.spy s).isSome = true ↔ p.1.oppLines s < (p.2 s).limit) ∧
      ∀ kind left, p.1.spy s = some (kind, left) →
        (p.2 s).kind = some kind ∧ left = (p.2 s).limit - p.1.oppLines s := by
  obtain ⟨shown, sound, -, -⟩ := reads_run run s
  rw [shown]
  unfold Meter.spy
  cases launched : (p.2 s).kind with
  | none =>
    have none := sound launched
    rw [if_neg (not_lt.mpr none)]
    exact ⟨iff_of_false Bool.false_ne_true (not_lt.mpr none), fun _ _ found => by cases found⟩
  | some token =>
    by_cases active : p.1.oppLines s < (p.2 s).limit
    · rw [if_pos active]
      refine ⟨iff_of_true rfl active, fun kind left found => ?_⟩
      cases found
      exact ⟨rfl, rfl⟩
    · rw [if_neg active]
      exact ⟨iff_of_false Bool.false_ne_true active, fun _ _ found => by cases found⟩

/-- A tick of no time clears nothing. -/
theorem linesFit_zero (p : Bout × (Side → Meter)) : LinesFit p (.tick 0) := by
  intro s
  have same : (p.1.host (.tick 0)).oppLines s = p.1.oppLines s := by
    refine (tickSpy_oppLines _ .b s).trans ((tickSpy_oppLines _ .a s).trans ?_)
    change ((p.1.versus.tick 0).game s.other).score.lines = _
    unfold Versus.tick
    split
    · rfl
    · unfold Versus.relay
      rw [Versus.relayFrom_lines, Versus.relayFrom_lines, Versus.game_advance]
      split
      · rfl
      · unfold Game.tick
        rw [if_pos (.inr (.inr (.inr le_rfl)))]
        rfl
  rw [same, Int.sub_self]
  norm_num

/-- A spy is granted and launched, and the next tick relays it. -/
def launchesAmes : List HostCall :=
  [.debugGrant .a (some .ames) none, .applyInput .a (.launchWeapon 0) 1, .tick 0]

theorem run_launchesAmes (p : Bout × (Side → Meter)) :
    Run LinesFit metered p launchesAmes (launchesAmes.foldl metered p) := by
  have granted : Run LinesFit metered p [.debugGrant .a (some .ames) none]
      (metered p (.debugGrant .a (some .ames) none)) := Run.nil.snoc trivial
  have launched : LinesFit (metered p (.debugGrant .a (some .ames) none))
      (.applyInput .a (.launchWeapon 0) 1) := trivial
  exact (granted.snoc launched).snoc (linesFit_zero _)

theorem spy_budget_ames :
    let p := launchesAmes.foldl metered (new 7 3, fun _ => Meter.new)
    (p.1.spy .a).isSome = true ↔ p.1.oppLines .a < (p.2 .a).limit := by
  have run := run_launchesAmes (new 7 3, fun _ => Meter.new)
  generalize launchesAmes.foldl metered (new 7 3, fun _ => Meter.new) = p at run ⊢
  exact (spy_budget run .a).1

end Bout

end BattleTris
