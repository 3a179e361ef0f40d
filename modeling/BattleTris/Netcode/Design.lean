import BattleTris.Lib.Run

/-!
The design model of the netcode, `Netcode.tla`: one client and its server, with the bazaar
barrier, reconnects, weapons, relayed events and resyncs.

A model checker explores it up to a length.  Here its runs are of any length, and its bounds
and toggles are arbitrary.  Each toggle is one repair of the protocol, and each invariant turns
out to rest on one of them and on no other.
-/

namespace BattleTris

/-- The constants: two bounds, and the toggles, all on in the shipped system. -/
structure NetConfig where
  maxSeq : Nat
  maxChan : Nat
  ackOnBarrierReject : Bool
  resetAckOnReattach : Bool
  leaveNeedsAuth : Bool
  defensiveReLeave : Bool
  keyframeRestores : Bool
  resyncOnlyWhenDrifted : Bool
  eventsNotReplayed : Bool
  resyncReadOnly : Bool

/-- `"G"`, `"W"`, `"L"` and `"P"`, a leave that was sent on a prediction alone. -/
inductive NetKind where
  | gameplay
  | weapon
  | leave
  | predicted
  deriving DecidableEq

structure NetInput where
  seq : Nat
  kind : NetKind

structure NetSnapshot where
  ack : Nat
  baz : Bool
  kf : Bool

inductive ClientState where
  | consistent
  | drifted
  deriving DecidableEq

/-- The variables. -/
structure Net where
  clientSeq : Nat
  clientBought : Bool
  clientViewAck : Nat
  clientViewBazaar : Bool
  clientLocalBazaar : Bool
  serverAck : Nat
  serverBazaar : Bool
  inputChan : List NetInput
  snapChan : List NetSnapshot
  connected : Bool
  weaponsFired : Nat
  weaponsApplied : Nat
  wastedLeave : Bool
  clientState : ClientState
  eventsInFlight : Nat
  eventsEmitted : Nat
  eventsApplied : Nat
  resyncPending : Bool
  pendingKf : Bool
  kfFailedToRestore : Bool
  badResyncRequest : Bool
  resyncMutatedServer : Bool

namespace Net

def init : Net where
  clientSeq := 0
  clientBought := false
  clientViewAck := 0
  clientViewBazaar := false
  clientLocalBazaar := false
  serverAck := 0
  serverBazaar := false
  inputChan := []
  snapChan := []
  connected := true
  weaponsFired := 0
  weaponsApplied := 0
  wastedLeave := false
  clientState := .consistent
  eventsInFlight := 0
  eventsEmitted := 0
  eventsApplied := 0
  resyncPending := false
  pendingKf := false
  kfFailedToRestore := false
  badResyncRequest := false
  resyncMutatedServer := false

/-! ## Actions -/

inductive Act where
  | clientSendGameplay
  | clientFireWeapon
  | clientLocalEnterBazaar
  | clientShop
  | clientReLeave
  | clientDeliverSnapshot
  | serverEnterBazaar
  | serverDeliverInput
  | serverSendSnapshot
  | disconnect
  | reconnect
  | serverEmitEvent
  | clientApplyEvent
  | clientApplyEventLate
  | clientRequestResync
  | serverGrantResync

/-- Room for one more input. -/
def Sendable (c : NetConfig) (s : Net) : Prop :=
  s.clientSeq < c.maxSeq ∧ s.inputChan.length < c.maxChan

def Enabled (c : NetConfig) (s : Net) : Act → Prop
  | .clientSendGameplay | .clientFireWeapon =>
    s.connected = true ∧ s.clientLocalBazaar = false ∧ s.clientViewBazaar = false ∧ s.Sendable c
  | .clientLocalEnterBazaar => s.connected = true ∧ s.clientLocalBazaar = false
  | .clientShop =>
    s.connected = true ∧
      (if c.leaveNeedsAuth then s.clientViewBazaar else s.clientLocalBazaar) = true ∧
      s.clientSeq ≤ s.clientViewAck ∧ s.clientBought = false ∧ s.Sendable c
  | .clientReLeave =>
    c.defensiveReLeave = true ∧ s.connected = true ∧ s.clientViewBazaar = true ∧
      s.clientBought = true ∧ s.clientSeq ≤ s.clientViewAck ∧ s.Sendable c
  | .clientDeliverSnapshot => s.connected = true ∧ 0 < s.snapChan.length
  | .serverEnterBazaar => s.connected = true ∧ s.serverBazaar = false
  | .serverDeliverInput => s.connected = true ∧ 0 < s.inputChan.length
  | .serverSendSnapshot => s.connected = true ∧ s.snapChan.length < c.maxChan
  | .disconnect => s.connected = true
  | .reconnect => s.connected = false
  | .serverEmitEvent => s.connected = true ∧ s.eventsInFlight < c.maxChan
  | .clientApplyEvent | .clientApplyEventLate => s.connected = true ∧ 0 < s.eventsInFlight
  | .clientRequestResync =>
    s.connected = true ∧ s.resyncPending = false ∧
      (c.resyncOnlyWhenDrifted = true → s.clientState = .drifted)
  | .serverGrantResync => s.connected = true ∧ s.resyncPending = true

/-- The client numbers an input and puts it on the channel. -/
def send (s : Net) (k : NetKind) : Net :=
  { s with clientSeq := s.clientSeq + 1, inputChan := s.inputChan ++ [⟨s.clientSeq + 1, k⟩] }

/-- A snapshot arrives: a keyframe restores the local sim, unless the restore is broken. -/
def see (c : NetConfig) (s : Net) (r : NetSnapshot) : Net :=
  { s with
    clientViewAck := r.ack
    clientViewBazaar := r.baz
    clientLocalBazaar := r.baz
    clientBought := if r.baz then s.clientBought else false
    clientState := if r.kf && c.keyframeRestores then .consistent else s.clientState
    kfFailedToRestore := s.kfFailedToRestore ||
      (r.kf && !c.keyframeRestores && s.clientState = .drifted)
    eventsApplied := if r.kf && !c.eventsNotReplayed && 0 < s.eventsApplied
      then s.eventsApplied + 1 else s.eventsApplied }

/-- `Bout::apply_input`, as the model has it. -/
def deliver (c : NetConfig) (s : Net) (i : NetInput) : Net :=
  if i.seq ≤ s.serverAck then s
  else if i.kind = .leave ∨ i.kind = .predicted then
    { s with
      serverAck := i.seq
      serverBazaar := false
      wastedLeave := if i.kind = .predicted ∧ s.serverBazaar = false then true else s.wastedLeave }
  else if s.serverBazaar then
    { s with serverAck := if c.ackOnBarrierReject then i.seq else s.serverAck }
  else
    { s with
      serverAck := i.seq
      weaponsApplied :=
        if i.kind = .weapon then s.weaponsApplied + 1 else s.weaponsApplied }

def act (c : NetConfig) (s : Net) : Act → Net
  | .clientSendGameplay => s.send .gameplay
  | .clientFireWeapon => { s.send .weapon with weaponsFired := s.weaponsFired + 1 }
  | .clientLocalEnterBazaar => { s with clientLocalBazaar := true }
  | .clientShop =>
    { s.send (if s.clientViewBazaar then .leave else .predicted) with clientBought := true }
  | .clientReLeave => s.send .leave
  | .clientDeliverSnapshot =>
    match s.snapChan with
    | [] => s
    | r :: rs => see c { s with snapChan := rs } r
  | .serverEnterBazaar => { s with serverBazaar := true, pendingKf := true }
  | .serverDeliverInput =>
    match s.inputChan with
    | [] => s
    | i :: is => deliver c { s with inputChan := is } i
  | .serverSendSnapshot =>
    { s with
      snapChan := s.snapChan ++ [⟨s.serverAck, s.serverBazaar, s.pendingKf⟩]
      pendingKf := false }
  | .disconnect =>
    { s with
      connected := false, inputChan := [], snapChan := [], eventsInFlight := 0
      resyncPending := false, pendingKf := false }
  | .reconnect =>
    { s with
      connected := true
      clientSeq := 0
      clientViewAck := 0
      clientBought := false
      clientViewBazaar := s.serverBazaar
      clientLocalBazaar := s.serverBazaar
      serverAck := if c.resetAckOnReattach then 0 else s.serverAck
      clientState := if c.keyframeRestores then .consistent else s.clientState
      kfFailedToRestore := s.kfFailedToRestore ||
        (!c.keyframeRestores && s.clientState = .drifted) }
  | .serverEmitEvent =>
    { s with eventsEmitted := s.eventsEmitted + 1, eventsInFlight := s.eventsInFlight + 1 }
  | .clientApplyEvent =>
    { s with eventsInFlight := s.eventsInFlight - 1, eventsApplied := s.eventsApplied + 1 }
  | .clientApplyEventLate =>
    { s with
      eventsInFlight := s.eventsInFlight - 1, eventsApplied := s.eventsApplied + 1
      clientState := .drifted }
  | .clientRequestResync =>
    { s with
      resyncPending := true
      badResyncRequest := s.badResyncRequest || s.clientState = .consistent }
  | .serverGrantResync =>
    { s with
      resyncPending := false
      pendingKf := true
      weaponsApplied := if c.resyncReadOnly then s.weaponsApplied else s.weaponsApplied + 1
      resyncMutatedServer := if c.resyncReadOnly then s.resyncMutatedServer else true }

/-! ## Invariants of the model -/

def AckBounds (s : Net) : Prop := s.serverAck ≤ s.clientSeq

def WeaponsAccounted (s : Net) : Prop := s.weaponsApplied ≤ s.weaponsFired

def LeaveOnlyWhenReal (s : Net) : Prop := s.wastedLeave = false

/-- The server is in the bazaar behind an ack that nothing under way can raise. -/
def Stuck (s : Net) : Prop :=
  s.connected = true ∧ s.serverBazaar = true ∧ s.serverAck < s.clientSeq ∧ s.inputChan = []

def NoDeadlock (s : Net) : Prop := ¬s.Stuck

def EventDeliveryAccounted (s : Net) : Prop := s.eventsApplied ≤ s.eventsEmitted

def ResyncConvergence (s : Net) : Prop := s.kfFailedToRestore = false

def NoResyncStorm (s : Net) : Prop := s.badResyncRequest = false

def ResultIndependence (s : Net) : Prop := s.resyncMutatedServer = false

/-- A state some run of the model leads to. -/
def Reachable (c : NetConfig) (s : Net) : Prop := ∃ acts, Run (Enabled c) (act c) init acts s

variable {c : NetConfig} {s : Net} {a : Act} {P : Net → Prop}

theorem reachable_init : Reachable c init := ⟨[], .nil⟩

theorem Reachable.act (reachable : Reachable c s) (enabled : s.Enabled c a) :
    Reachable c (s.act c a) := by
  obtain ⟨acts, run⟩ := reachable
  exact ⟨acts ++ [a], run.snoc enabled⟩

/-- A delivery touches four fields. -/
theorem deliver_eq (c : NetConfig) (s : Net) (i : NetInput) :
    ∃ ack baz wasted weapons, s.deliver c i =
      { s with
        serverAck := ack, serverBazaar := baz, wastedLeave := wasted
        weaponsApplied := weapons } := by
  unfold deliver
  split
  · exact ⟨_, _, _, _, rfl⟩
  split
  · exact ⟨_, _, _, _, rfl⟩
  split
  · exact ⟨_, _, _, _, rfl⟩
  · exact ⟨_, _, _, _, rfl⟩

/-- The ack stays, or it takes the number delivered. -/
theorem deliver_ack (c : NetConfig) (s : Net) (i : NetInput) :
    (s.deliver c i).serverAck = s.serverAck ∨
      s.serverAck < i.seq ∧ (s.deliver c i).serverAck = i.seq := by
  unfold deliver
  split
  · exact .inl rfl
  · next fresh =>
    have less : s.serverAck < i.seq := Nat.lt_of_not_le fresh
    split
    · exact .inr ⟨less, rfl⟩
    split
    · cases c.ackOnBarrierReject
      · exact .inl rfl
      · exact .inr ⟨less, rfl⟩
    · exact .inr ⟨less, rfl⟩

/-- With rejected inputs acked, a delivered number is. -/
theorem deliver_acked (acks : c.ackOnBarrierReject = true) (s : Net) (i : NetInput) :
    i.seq ≤ (s.deliver c i).serverAck := by
  unfold deliver
  rw [if_pos acks]
  split
  · assumption
  split
  · exact le_rfl
  split
  · exact le_rfl
  · exact le_rfl

theorem act_deliverInput (enabled : s.Enabled c .serverDeliverInput) :
    ∃ i is, s.inputChan = i :: is ∧
      s.act c .serverDeliverInput = deliver c { s with inputChan := is } i := by
  obtain ⟨-, some⟩ := enabled
  unfold act
  dsimp only
  split
  · next none =>
    rw [none] at some
    cases some
  · next i is front => exact ⟨i, is, front, rfl⟩

theorem act_deliverSnapshot (enabled : s.Enabled c .clientDeliverSnapshot) :
    ∃ r rs, s.snapChan = r :: rs ∧
      s.act c .clientDeliverSnapshot = see c { s with snapChan := rs } r := by
  obtain ⟨-, some⟩ := enabled
  unfold act
  dsimp only
  split
  · next none =>
    rw [none] at some
    cases some
  · next r rs front => exact ⟨r, rs, front, rfl⟩

/-! ## The numbers on the channel -/

/-- The inputs under way bear the last numbers the client gave out, and a cut connection has
nothing under way. -/
structure Numbered (s : Net) : Prop where
  few : s.inputChan.length ≤ s.clientSeq
  seqs : s.inputChan.map NetInput.seq =
    List.range' (s.clientSeq + 1 - s.inputChan.length) s.inputChan.length
  cut : s.connected = false → s.inputChan = [] ∧ s.snapChan = []

theorem Numbered.send (numbered : s.Numbered) (up : s.connected = true) (k : NetKind) :
    (s.send k).Numbered := by
  have few := numbered.few
  unfold Net.send
  constructor
  · simp only [List.length_append, List.length_singleton]
    omega
  · have start : s.clientSeq + 1 + 1 - (s.inputChan.length + 1) =
        s.clientSeq + 1 - s.inputChan.length := by omega
    have next : s.clientSeq + 1 - s.inputChan.length + s.inputChan.length = s.clientSeq + 1 := by
      omega
    simp only [List.length_append, List.length_singleton, List.map_append, List.map_cons,
      List.map_nil, start, numbered.seqs]
    rw [List.range'_concat, Nat.one_mul, next]
  · intro down
    exact absurd (up.symm.trans down) Bool.true_eq_false_eq_False

/-- The input at the head of the channel is the oldest of those under way. -/
theorem Numbered.head (numbered : s.Numbered) {i : NetInput} {is : List NetInput}
    (front : s.inputChan = i :: is) :
    i.seq + is.length = s.clientSeq ∧ is.map NetInput.seq =
      List.range' (s.clientSeq + 1 - is.length) is.length := by
  have few := numbered.few
  have seqs := numbered.seqs
  rw [front, List.length_cons] at few seqs
  rw [List.map_cons, List.range'_succ, List.cons.injEq] at seqs
  obtain ⟨first, later⟩ := seqs
  have onward : s.clientSeq + 1 - (is.length + 1) + 1 = s.clientSeq + 1 - is.length := by omega
  rw [onward] at later
  exact ⟨by omega, later⟩

theorem Numbered.act (numbered : s.Numbered) (enabled : s.Enabled c a) :
    (s.act c a).Numbered := by
  have up {Q : Prop} (up : s.connected = true) (down : s.connected = false) : Q :=
    absurd (up.symm.trans down) Bool.true_eq_false_eq_False
  cases a with
  | clientSendGameplay => exact numbered.send enabled.1 _
  | clientFireWeapon =>
    obtain ⟨few, seqs, cut⟩ := numbered.send enabled.1 .weapon
    exact ⟨few, seqs, cut⟩
  | clientShop =>
    obtain ⟨few, seqs, cut⟩ := numbered.send enabled.1
      (if s.clientViewBazaar then .leave else .predicted)
    exact ⟨few, seqs, cut⟩
  | clientReLeave => exact numbered.send enabled.2.1 _
  | clientDeliverSnapshot =>
    obtain ⟨r, rs, -, seen⟩ := act_deliverSnapshot enabled
    rw [seen]
    exact ⟨numbered.few, numbered.seqs, up enabled.1⟩
  | serverDeliverInput =>
    obtain ⟨i, is, front, delivered⟩ := act_deliverInput enabled
    obtain ⟨ack, baz, wasted, weapons, touched⟩ := deliver_eq c { s with inputChan := is } i
    obtain ⟨oldest, later⟩ := numbered.head front
    rw [delivered, touched]
    exact ⟨Nat.le.intro ((Nat.add_comm _ _).trans oldest), later, up enabled.1⟩
  | serverSendSnapshot => exact ⟨numbered.few, numbered.seqs, up enabled.1⟩
  | disconnect => exact ⟨Nat.zero_le _, rfl, fun _ => ⟨rfl, rfl⟩⟩
  | reconnect =>
    obtain ⟨empty, -⟩ := numbered.cut enabled
    refine ⟨?_, ?_, nofun⟩
    · change s.inputChan.length ≤ 0
      rw [empty]
      rfl
    · change s.inputChan.map NetInput.seq =
        List.range' (0 + 1 - s.inputChan.length) s.inputChan.length
      rw [empty]
      rfl
  | _ => exact ⟨numbered.few, numbered.seqs, numbered.cut⟩

theorem numbered_init : Numbered init := ⟨le_rfl, rfl, nofun⟩

/-- What every step keeps, of the states whose channel is numbered, holds of every state. -/
theorem Reachable.keeps (reachable : Reachable c s) (start : P init)
    (step : ∀ s a, s.Numbered → P s → s.Enabled c a → P (s.act c a)) : P s := by
  obtain ⟨acts, run⟩ := reachable
  have both : s.Numbered ∧ P s := by
    refine run.invariant (P := fun s => s.Numbered ∧ P s) ?_ ⟨numbered_init, start⟩
    rintro s a ⟨numbered, holds⟩ enabled
    exact ⟨numbered.act enabled, step s a numbered holds enabled⟩
  exact both.2

/-! ## What each toggle buys -/

/-- A reset ack stays behind the numbers given out. -/
theorem Reachable.ackBounds (reset : c.resetAckOnReattach = true) (reachable : Reachable c s) :
    s.AckBounds := by
  have behind : s.serverAck + s.inputChan.length ≤ s.clientSeq := by
    refine reachable.keeps (P := fun s => s.serverAck + s.inputChan.length ≤ s.clientSeq) le_rfl ?_
    intro s a numbered behind enabled
    have send (k : NetKind) :
        (s.send k).serverAck + (s.send k).inputChan.length ≤ (s.send k).clientSeq := by
      unfold Net.send
      simp only [List.length_append, List.length_singleton]
      omega
    cases a with
    | clientSendGameplay => exact send _
    | clientFireWeapon => exact send .weapon
    | clientShop => exact send (if s.clientViewBazaar then .leave else .predicted)
    | clientReLeave => exact send _
    | clientDeliverSnapshot =>
      obtain ⟨r, rs, -, seen⟩ := act_deliverSnapshot enabled
      rw [seen]
      exact behind
    | serverDeliverInput =>
      obtain ⟨i, is, front, delivered⟩ := act_deliverInput enabled
      obtain ⟨ack, baz, wasted, weapons, touched⟩ := deliver_eq c { s with inputChan := is } i
      obtain ⟨oldest, -⟩ := numbered.head front
      have taken := deliver_ack c { s with inputChan := is } i
      rw [front, List.length_cons] at behind
      rw [touched] at taken
      rw [delivered, touched]
      dsimp only at taken ⊢
      omega
    | disconnect => exact (Nat.le_add_right _ _).trans behind
    | reconnect =>
      obtain ⟨empty, -⟩ := numbered.cut enabled
      change (if c.resetAckOnReattach then 0 else s.serverAck) + s.inputChan.length ≤ 0
      rw [if_pos reset, empty]
      exact le_rfl
    | _ => exact behind
  exact (Nat.le_add_right _ _).trans behind

/-- Where a rejected input is acked, the ack trails by no more than what is under way. -/
theorem Reachable.noDeadlock (acks : c.ackOnBarrierReject = true) (reachable : Reachable c s) :
    s.NoDeadlock := by
  have close : s.connected = true → s.clientSeq ≤ s.serverAck + s.inputChan.length := by
    refine reachable.keeps
      (P := fun s => s.connected = true → s.clientSeq ≤ s.serverAck + s.inputChan.length)
      (fun _ => le_rfl) ?_
    intro s a numbered close enabled
    have send (k : NetKind) (up : s.connected = true) :
        (s.send k).clientSeq ≤ (s.send k).serverAck + (s.send k).inputChan.length := by
      have close := close up
      unfold Net.send
      simp only [List.length_append, List.length_singleton]
      omega
    cases a with
    | clientSendGameplay => exact send _
    | clientFireWeapon => exact send .weapon
    | clientShop => exact send (if s.clientViewBazaar then .leave else .predicted)
    | clientReLeave => exact send _
    | clientDeliverSnapshot =>
      obtain ⟨r, rs, -, seen⟩ := act_deliverSnapshot enabled
      rw [seen]
      exact close
    | serverDeliverInput =>
      obtain ⟨i, is, front, delivered⟩ := act_deliverInput enabled
      obtain ⟨oldest, -⟩ := numbered.head front
      have taken := deliver_acked acks { s with inputChan := is } i
      obtain ⟨ack, baz, wasted, weapons, touched⟩ := deliver_eq c { s with inputChan := is } i
      rw [touched] at taken
      rw [delivered, touched]
      intro _
      dsimp only at taken ⊢
      omega
    | disconnect => nofun
    | reconnect => exact fun _ => Nat.zero_le _
    | _ => exact close
  rintro ⟨up, -, behind, empty⟩
  have close := close up
  rw [empty, List.length_nil] at close
  omega

/-- A resync that only reads launches nothing. -/
theorem Reachable.weaponsAccounted (reads : c.resyncReadOnly = true) (reachable : Reachable c s) :
    s.WeaponsAccounted := by
  have counted :
      s.weaponsApplied + s.inputChan.countP (fun i => i.kind = .weapon) ≤ s.weaponsFired := by
    refine reachable.keeps (P := fun s =>
      s.weaponsApplied + s.inputChan.countP (fun i => i.kind = .weapon) ≤ s.weaponsFired) le_rfl ?_
    intro s a numbered counted enabled
    have harmless (k : NetKind) (other : k ≠ .weapon) :
        s.weaponsApplied + (s.send k).inputChan.countP (fun i => i.kind = .weapon) ≤
          s.weaponsFired := by
      unfold Net.send
      simpa [List.countP_append, other] using counted
    cases a with
    | clientSendGameplay => exact harmless _ (by decide)
    | clientFireWeapon =>
      change s.weaponsApplied + (s.inputChan ++ [_]).countP _ ≤ s.weaponsFired + 1
      rw [List.countP_append]
      simp only [List.countP_singleton, decide_true, if_true]
      omega
    | clientShop =>
      refine harmless (if s.clientViewBazaar then .leave else .predicted) ?_
      split <;> decide
    | clientReLeave => exact harmless _ (by decide)
    | clientDeliverSnapshot =>
      obtain ⟨r, rs, -, seen⟩ := act_deliverSnapshot enabled
      rw [seen]
      exact counted
    | serverDeliverInput =>
      obtain ⟨i, is, front, delivered⟩ := act_deliverInput enabled
      rw [front, List.countP_cons] at counted
      rw [delivered]
      unfold deliver
      split
      · dsimp only
        omega
      split
      · dsimp only
        omega
      split
      · dsimp only
        omega
      · dsimp only
        split
        · next fires =>
          rw [if_pos (decide_eq_true fires)] at counted
          omega
        · omega
    | disconnect => exact (Nat.le_add_right _ _).trans counted
    | serverGrantResync =>
      change (if c.resyncReadOnly then s.weaponsApplied else _) + _ ≤ s.weaponsFired
      rw [if_pos reads]
      exact counted
    | _ => exact counted
  exact (Nat.le_add_right _ _).trans counted

/-- A client that shops on the server's word sends no predicted leave. -/
theorem Reachable.leaveOnlyWhenReal (auth : c.leaveNeedsAuth = true)
    (reachable : Reachable c s) : s.LeaveOnlyWhenReal := by
  have real : (∀ i ∈ s.inputChan, i.kind ≠ .predicted) ∧ s.wastedLeave = false := by
    refine reachable.keeps
      (P := fun s => (∀ i ∈ s.inputChan, i.kind ≠ .predicted) ∧ s.wastedLeave = false)
      ⟨nofun, rfl⟩ ?_
    intro s a numbered real enabled
    have send (k : NetKind) (honest : k ≠ .predicted) :
        (∀ i ∈ (s.send k).inputChan, i.kind ≠ .predicted) ∧ (s.send k).wastedLeave = false := by
      refine ⟨?_, real.2⟩
      intro i mem
      rcases List.mem_append.mp mem with old | last
      · exact real.1 i old
      · rw [List.mem_singleton.mp last]
        exact honest
    cases a with
    | clientSendGameplay => exact send _ (by decide)
    | clientFireWeapon => exact send .weapon (by decide)
    | clientShop =>
      obtain ⟨-, sees, -⟩ := enabled
      rw [if_pos auth] at sees
      refine send (if s.clientViewBazaar then .leave else .predicted) ?_
      rw [if_pos sees]
      decide
    | clientReLeave => exact send _ (by decide)
    | clientDeliverSnapshot =>
      obtain ⟨r, rs, -, seen⟩ := act_deliverSnapshot enabled
      rw [seen]
      exact real
    | serverDeliverInput =>
      obtain ⟨i, is, front, delivered⟩ := act_deliverInput enabled
      rw [front, List.forall_mem_cons] at real
      obtain ⟨⟨honest, later⟩, kept⟩ := real
      rw [delivered]
      unfold deliver
      split
      · exact ⟨later, kept⟩
      split
      · refine ⟨later, ?_⟩
        dsimp only
        rw [if_neg fun wasted => honest wasted.1]
        exact kept
      split
      · exact ⟨later, kept⟩
      · exact ⟨later, kept⟩
    | disconnect => exact ⟨nofun, real.2⟩
    | _ => exact real
  exact real.2

/-- A keyframe that replays no event leaves the count as it was. -/
theorem Reachable.eventDeliveryAccounted (once : c.eventsNotReplayed = true)
    (reachable : Reachable c s) : s.EventDeliveryAccounted := by
  have counted : s.eventsApplied + s.eventsInFlight ≤ s.eventsEmitted := by
    refine reachable.keeps
      (P := fun s => s.eventsApplied + s.eventsInFlight ≤ s.eventsEmitted) le_rfl ?_
    intro s a numbered counted enabled
    cases a with
    | clientDeliverSnapshot =>
      obtain ⟨r, rs, -, seen⟩ := act_deliverSnapshot enabled
      rw [seen]
      unfold see
      dsimp only
      rw [once, Bool.not_true, Bool.and_false, Bool.false_and, if_neg Bool.false_ne_true]
      exact counted
    | serverDeliverInput =>
      obtain ⟨i, is, -, delivered⟩ := act_deliverInput enabled
      obtain ⟨ack, baz, wasted, weapons, touched⟩ := deliver_eq c { s with inputChan := is } i
      rw [delivered, touched]
      exact counted
    | disconnect => exact (Nat.le_add_right _ _).trans counted
    | serverEmitEvent => exact Nat.succ_le_succ counted
    | clientApplyEvent =>
      obtain ⟨-, some⟩ := enabled
      change s.eventsApplied + 1 + (s.eventsInFlight - 1) ≤ s.eventsEmitted
      omega
    | clientApplyEventLate =>
      obtain ⟨-, some⟩ := enabled
      change s.eventsApplied + 1 + (s.eventsInFlight - 1) ≤ s.eventsEmitted
      omega
    | _ => exact counted
  exact (Nat.le_add_right _ _).trans counted

theorem Reachable.resyncConvergence (restores : c.keyframeRestores = true)
    (reachable : Reachable c s) : s.ResyncConvergence := by
  refine reachable.keeps rfl ?_
  intro s a numbered converged enabled
  unfold ResyncConvergence at converged ⊢
  cases a with
  | clientDeliverSnapshot =>
    obtain ⟨r, rs, -, seen⟩ := act_deliverSnapshot enabled
    rw [seen]
    unfold see
    dsimp only
    rw [converged, restores, Bool.not_true, Bool.and_false, Bool.false_and, Bool.or_false]
  | serverDeliverInput =>
    obtain ⟨i, is, -, delivered⟩ := act_deliverInput enabled
    obtain ⟨ack, baz, wasted, weapons, touched⟩ := deliver_eq c { s with inputChan := is } i
    rw [delivered, touched]
    exact converged
  | reconnect =>
    change (s.kfFailedToRestore || (!c.keyframeRestores && _)) = false
    rw [converged, restores, Bool.not_true, Bool.false_and, Bool.or_false]
  | _ => exact converged

theorem Reachable.noResyncStorm (drifted : c.resyncOnlyWhenDrifted = true)
    (reachable : Reachable c s) : s.NoResyncStorm := by
  refine reachable.keeps rfl ?_
  intro s a numbered calm enabled
  unfold NoResyncStorm at calm ⊢
  cases a with
  | clientDeliverSnapshot =>
    obtain ⟨r, rs, -, seen⟩ := act_deliverSnapshot enabled
    rw [seen]
    exact calm
  | serverDeliverInput =>
    obtain ⟨i, is, -, delivered⟩ := act_deliverInput enabled
    obtain ⟨ack, baz, wasted, weapons, touched⟩ := deliver_eq c { s with inputChan := is } i
    rw [delivered, touched]
    exact calm
  | clientRequestResync =>
    obtain ⟨-, -, due⟩ := enabled
    change (s.badResyncRequest || decide (s.clientState = .consistent)) = false
    rw [calm, due drifted]
    rfl
  | _ => exact calm

theorem Reachable.resultIndependence (reads : c.resyncReadOnly = true)
    (reachable : Reachable c s) : s.ResultIndependence := by
  refine reachable.keeps rfl ?_
  intro s a numbered pure enabled
  unfold ResultIndependence at pure ⊢
  cases a with
  | clientDeliverSnapshot =>
    obtain ⟨r, rs, -, seen⟩ := act_deliverSnapshot enabled
    rw [seen]
    exact pure
  | serverDeliverInput =>
    obtain ⟨i, is, -, delivered⟩ := act_deliverInput enabled
    obtain ⟨ack, baz, wasted, weapons, touched⟩ := deliver_eq c { s with inputChan := is } i
    rw [delivered, touched]
    exact pure
  | serverGrantResync =>
    change (if c.resyncReadOnly then s.resyncMutatedServer else true) = false
    rw [if_pos reads]
    exact pure
  | _ => exact pure

/-! ## What each toggle is needed for -/

/-- An input in flight when the bazaar opens. -/
theorem stuck_of_unacked (roomSeq : 0 < c.maxSeq) (roomChan : 0 < c.maxChan)
    (unacked : c.ackOnBarrierReject = false) :
    ∃ s, Reachable c s ∧ s.Stuck ∧ s.snapChan = [] := by
  have sent := reachable_init.act (c := c) (a := .clientSendGameplay)
    ⟨rfl, rfl, rfl, roomSeq, roomChan⟩
  have opened := sent.act (a := .serverEnterBazaar) ⟨rfl, rfl⟩
  have taken := opened.act (a := .serverDeliverInput) ⟨rfl, Nat.one_pos⟩
  refine ⟨_, taken, ⟨rfl, rfl, ?_, rfl⟩, rfl⟩
  change (if c.ackOnBarrierReject then 1 else 0) < 1
  rw [unacked]
  exact Nat.one_pos

/-- A reload after an acked input. -/
theorem ahead_of_kept (roomSeq : 0 < c.maxSeq) (roomChan : 0 < c.maxChan)
    (kept : c.resetAckOnReattach = false) :
    ∃ s, Reachable c s ∧ ¬s.AckBounds := by
  have sent := reachable_init.act (c := c) (a := .clientSendGameplay)
    ⟨rfl, rfl, rfl, roomSeq, roomChan⟩
  have taken := sent.act (a := .serverDeliverInput) ⟨rfl, Nat.one_pos⟩
  have cut := taken.act (a := .disconnect) rfl
  have back := cut.act (a := .reconnect) rfl
  refine ⟨_, back, ?_⟩
  change ¬(if c.resetAckOnReattach then 0 else 1) ≤ 0
  rw [kept]
  decide

/-- A leave sent on a prediction. -/
theorem wasted_of_local (roomSeq : 0 < c.maxSeq) (roomChan : 0 < c.maxChan)
    (predicts : c.leaveNeedsAuth = false) :
    ∃ s, Reachable c s ∧ ¬s.LeaveOnlyWhenReal := by
  have inside := reachable_init.act (c := c) (a := .clientLocalEnterBazaar) ⟨rfl, rfl⟩
  have left := inside.act (a := .clientShop)
    ⟨rfl, by rw [predicts]; rfl, le_rfl, rfl, roomSeq, roomChan⟩
  have taken := left.act (a := .serverDeliverInput) ⟨rfl, Nat.one_pos⟩
  exact ⟨_, taken, Bool.true_eq_false_eq_False⟩

/-- A client that has drifted: an event reached it late. -/
theorem reachable_drifted (roomChan : 0 < c.maxChan) :
    ∃ s, Reachable c s ∧ s.connected = true ∧ s.resyncPending = false ∧
      s.clientState = .drifted ∧ s.weaponsApplied = 0 ∧ s.weaponsFired = 0 := by
  have told := reachable_init.act (c := c) (a := .serverEmitEvent) ⟨rfl, roomChan⟩
  have late := told.act (a := .clientApplyEventLate) ⟨rfl, Nat.one_pos⟩
  exact ⟨_, late, rfl, rfl, rfl, rfl, rfl⟩

theorem drifted_of_unrestored (roomChan : 0 < c.maxChan)
    (unrestored : c.keyframeRestores = false) :
    ∃ s, Reachable c s ∧ ¬s.ResyncConvergence := by
  obtain ⟨s, late, up, -, drifted, -⟩ := reachable_drifted roomChan
  have cut := late.act (a := .disconnect) up
  have back := cut.act (a := .reconnect) rfl
  refine ⟨_, back, ?_⟩
  change ¬(s.kfFailedToRestore || (!c.keyframeRestores && decide (s.clientState = .drifted))) =
    false
  rw [unrestored, drifted]
  simp

/-- A request while nothing has drifted. -/
theorem storm_of_eager (eager : c.resyncOnlyWhenDrifted = false) :
    ∃ s, Reachable c s ∧ ¬s.NoResyncStorm := by
  have asked := reachable_init.act (c := c) (a := .clientRequestResync)
    ⟨rfl, rfl, fun drifted => absurd (drifted.symm.trans eager) Bool.true_eq_false_eq_False⟩
  exact ⟨_, asked, Bool.true_eq_false_eq_False⟩

/-- An event that the next keyframe replays. -/
theorem overcounted_of_replayed (roomChan : 0 < c.maxChan)
    (replays : c.eventsNotReplayed = false) :
    ∃ s, Reachable c s ∧ ¬s.EventDeliveryAccounted := by
  have told := reachable_init.act (c := c) (a := .serverEmitEvent) ⟨rfl, roomChan⟩
  have applied := told.act (a := .clientApplyEvent) ⟨rfl, Nat.one_pos⟩
  have opened := applied.act (a := .serverEnterBazaar) ⟨rfl, rfl⟩
  have framed := opened.act (a := .serverSendSnapshot) ⟨rfl, roomChan⟩
  have seen := framed.act (a := .clientDeliverSnapshot) ⟨rfl, Nat.one_pos⟩
  refine ⟨_, seen, ?_⟩
  change ¬(if true && !c.eventsNotReplayed && decide (0 < 1) then 2 else 1) ≤ 1
  rw [replays]
  simp

/-- A granted resync that writes. -/
theorem mutated_of_writing (roomChan : 0 < c.maxChan)
    (writes : c.resyncReadOnly = false) :
    ∃ s, Reachable c s ∧ ¬s.WeaponsAccounted ∧ ¬s.ResultIndependence := by
  obtain ⟨s, late, up, idle, drifted, applied, fired⟩ := reachable_drifted roomChan
  have asked := late.act (a := .clientRequestResync) ⟨up, idle, fun _ => drifted⟩
  have granted := asked.act (a := .serverGrantResync) ⟨up, rfl⟩
  refine ⟨_, granted, ?_, ?_⟩
  · change ¬(if c.resyncReadOnly then s.weaponsApplied else s.weaponsApplied + 1) ≤ s.weaponsFired
    rw [writes, applied, fired]
    decide
  · change ¬(if c.resyncReadOnly then s.resyncMutatedServer else true) = false
    rw [writes]
    simp

/-- A property that the toggle secures, and that fails without it. -/
theorem guarded_iff {on : Bool} (holds : on = true → ∀ s, Reachable c s → P s)
    (fails : on = false → ∃ s, Reachable c s ∧ ¬P s) :
    (∀ s, Reachable c s → P s) ↔ on = true := by
  constructor
  · intro always
    by_contra off
    obtain ⟨s, reachable, broken⟩ := fails (eq_false_of_ne_true off)
    exact broken (always s reachable)
  · exact holds

/-- Each invariant of the design holds in every state that runs of any length reach exactly when
the one toggle that guards it is on, whatever the other toggles and the bounds are. -/
theorem invariants_iff (c : NetConfig) (roomSeq : 0 < c.maxSeq) (roomChan : 0 < c.maxChan) :
    ((∀ s, Reachable c s → s.NoDeadlock) ↔ c.ackOnBarrierReject = true) ∧
    ((∀ s, Reachable c s → s.AckBounds) ↔ c.resetAckOnReattach = true) ∧
    ((∀ s, Reachable c s → s.LeaveOnlyWhenReal) ↔ c.leaveNeedsAuth = true) ∧
    ((∀ s, Reachable c s → s.ResyncConvergence) ↔ c.keyframeRestores = true) ∧
    ((∀ s, Reachable c s → s.NoResyncStorm) ↔ c.resyncOnlyWhenDrifted = true) ∧
    ((∀ s, Reachable c s → s.EventDeliveryAccounted) ↔ c.eventsNotReplayed = true) ∧
    ((∀ s, Reachable c s → s.WeaponsAccounted) ↔ c.resyncReadOnly = true) ∧
    ((∀ s, Reachable c s → s.ResultIndependence) ↔ c.resyncReadOnly = true) := by
  refine ⟨?_, ?_, ?_, ?_, ?_, ?_, ?_, ?_⟩
  · refine guarded_iff (fun on s reachable => reachable.noDeadlock on) fun off => ?_
    obtain ⟨s, reachable, stuck, -⟩ := stuck_of_unacked roomSeq roomChan off
    exact ⟨s, reachable, not_not.mpr stuck⟩
  · exact guarded_iff (fun on s reachable => reachable.ackBounds on)
      (ahead_of_kept roomSeq roomChan)
  · exact guarded_iff (fun on s reachable => reachable.leaveOnlyWhenReal on)
      (wasted_of_local roomSeq roomChan)
  · exact guarded_iff (fun on s reachable => reachable.resyncConvergence on)
      (drifted_of_unrestored roomChan)
  · exact guarded_iff (fun on s reachable => reachable.noResyncStorm on) storm_of_eager
  · exact guarded_iff (fun on s reachable => reachable.eventDeliveryAccounted on)
      (overcounted_of_replayed roomChan)
  · refine guarded_iff (fun on s reachable => reachable.weaponsAccounted on) fun off => ?_
    obtain ⟨s, reachable, excess, -⟩ := mutated_of_writing roomChan off
    exact ⟨s, reachable, excess⟩
  · refine guarded_iff (fun on s reachable => reachable.resultIndependence on) fun off => ?_
    obtain ⟨s, reachable, -, mutated⟩ := mutated_of_writing roomChan off
    exact ⟨s, reachable, mutated⟩

/-- The constants the shipped system is checked with. -/
def shipped : NetConfig where
  maxSeq := 4
  maxChan := 2
  ackOnBarrierReject := true
  resetAckOnReattach := true
  leaveNeedsAuth := true
  defensiveReLeave := true
  keyframeRestores := true
  resyncOnlyWhenDrifted := true
  eventsNotReplayed := true
  resyncReadOnly := true

theorem invariants_iff_shipped :
    (∀ s, Reachable shipped s → s.NoDeadlock) ∧
      ¬∀ s, Reachable { shipped with ackOnBarrierReject := false } s → s.NoDeadlock := by
  refine ⟨(invariants_iff shipped (by decide) (by decide)).1.mpr rfl, ?_⟩
  intro always
  have on := (invariants_iff { shipped with ackOnBarrierReject := false } (by decide)
    (by decide)).1.mp always
  cases on

/-! ## The freeze -/

/-- No ack under way exceeds the server's. -/
structure Lagging (s : Net) : Prop where
  view : s.clientViewAck ≤ s.serverAck
  snaps : ∀ r ∈ s.snapChan, r.ack ≤ s.serverAck

/-- The ack rises, and the views with it. -/
theorem Lagging.rise (lagging : s.Lagging) {t : Net} (ack : s.serverAck ≤ t.serverAck)
    (view : t.clientViewAck = s.clientViewAck) (snaps : t.snapChan = s.snapChan) : t.Lagging := by
  constructor
  · rw [view]
    exact lagging.view.trans ack
  · intro r mem
    rw [snaps] at mem
    exact (lagging.snaps r mem).trans ack

theorem Lagging.act (numbered : s.Numbered) (lagging : s.Lagging) (enabled : s.Enabled c a) :
    (s.act c a).Lagging := by
  cases a with
  | clientDeliverSnapshot =>
    obtain ⟨r, rs, front, seen⟩ := act_deliverSnapshot enabled
    have snaps := lagging.snaps
    rw [front, List.forall_mem_cons] at snaps
    rw [seen]
    exact ⟨snaps.1, snaps.2⟩
  | serverDeliverInput =>
    obtain ⟨i, is, -, delivered⟩ := act_deliverInput enabled
    have taken := deliver_ack c { s with inputChan := is } i
    obtain ⟨ack, baz, wasted, weapons, touched⟩ := deliver_eq c { s with inputChan := is } i
    rw [touched] at taken
    rw [delivered, touched]
    refine lagging.rise ?_ rfl rfl
    dsimp only at taken ⊢
    omega
  | serverSendSnapshot =>
    refine ⟨lagging.view, ?_⟩
    intro r mem
    rcases List.mem_append.mp mem with old | last
    · exact lagging.snaps r old
    · rw [List.mem_singleton.mp last]
      exact le_rfl
  | disconnect => exact ⟨lagging.view, nofun⟩
  | reconnect =>
    obtain ⟨-, empty⟩ := numbered.cut enabled
    refine ⟨Nat.zero_le _, ?_⟩
    intro r mem
    rw [show (s.act c .reconnect).snapChan = s.snapChan from rfl, empty] at mem
    cases mem
  | _ => exact ⟨lagging.view, lagging.snaps⟩

/-- The server shops behind an ack that no input under way will raise. -/
structure Frozen (s : Net) : Prop where
  up : s.connected = true
  inside : s.serverBazaar = true
  behind : s.serverAck < s.clientSeq
  plays : ∀ i ∈ s.inputChan, i.kind = .gameplay ∨ i.kind = .weapon

theorem Frozen.send (frozen : s.Frozen) {k : NetKind} (plays : k = .gameplay ∨ k = .weapon) :
    (s.send k).Frozen := by
  refine ⟨frozen.up, frozen.inside, frozen.behind.trans (Nat.lt_succ_self _), ?_⟩
  intro i mem
  rcases List.mem_append.mp mem with old | last
  · exact frozen.plays i old
  · rw [List.mem_singleton.mp last]
    exact plays

/-- Short of a disconnect nothing thaws: the ways out wait for the ack. -/
theorem Frozen.act (unacked : c.ackOnBarrierReject = false) (lagging : s.Lagging)
    (frozen : s.Frozen) (enabled : s.Enabled c a) (stays : a ≠ .disconnect) :
    (s.act c a).Frozen ∧ (s.act c a).serverAck = s.serverAck := by
  have waits : ¬s.clientSeq ≤ s.clientViewAck :=
    Nat.not_le_of_lt (lagging.view.trans_lt frozen.behind)
  cases a with
  | clientSendGameplay => exact ⟨frozen.send (.inl rfl), rfl⟩
  | clientFireWeapon =>
    obtain ⟨up, inside, behind, plays⟩ := frozen.send (k := .weapon) (.inr rfl)
    exact ⟨⟨up, inside, behind, plays⟩, rfl⟩
  | clientShop => exact absurd enabled.2.2.1 waits
  | clientReLeave => exact absurd enabled.2.2.2.2.1 waits
  | clientDeliverSnapshot =>
    obtain ⟨r, rs, -, seen⟩ := act_deliverSnapshot enabled
    rw [seen]
    exact ⟨⟨frozen.up, frozen.inside, frozen.behind, frozen.plays⟩, rfl⟩
  | serverDeliverInput =>
    obtain ⟨i, is, front, delivered⟩ := act_deliverInput enabled
    have plays := frozen.plays
    rw [front, List.forall_mem_cons] at plays
    have rejected : deliver c { s with inputChan := is } i = { s with inputChan := is } := by
      unfold deliver
      split
      · rfl
      split
      · next leaves =>
        rcases plays.1 with kind | kind <;> rw [kind] at leaves <;> simp at leaves
      · rw [if_pos frozen.inside, unacked]
        rfl
    rw [delivered, rejected]
    exact ⟨⟨frozen.up, frozen.inside, frozen.behind, plays.2⟩, rfl⟩
  | disconnect => exact absurd rfl stays
  | reconnect =>
    exact absurd (frozen.up.symm.trans enabled) Bool.true_eq_false_eq_False
  | serverEnterBazaar => exact ⟨⟨frozen.up, rfl, frozen.behind, frozen.plays⟩, rfl⟩
  | _ => exact ⟨⟨frozen.up, frozen.inside, frozen.behind, frozen.plays⟩, rfl⟩

/-- With rejected inputs unacked, a stuck match stays in the bazaar behind the same ack through
every run in which the connection holds. -/
theorem stuck_absorbing (unacked : c.ackOnBarrierReject = false) (reachable : Reachable c s)
    (stuck : s.Stuck) {acts : List Act} {t : Net}
    (run : Run (fun s a => s.Enabled c a ∧ a ≠ .disconnect) (act c) s acts t) :
    t.serverBazaar = true ∧ t.serverAck = s.serverAck ∧ t.serverAck < t.clientSeq := by
  have lagging : s.Lagging :=
    reachable.keeps ⟨le_rfl, nofun⟩ fun _ _ numbered lagging enabled => lagging.act numbered enabled
  have numbered : s.Numbered :=
    reachable.keeps numbered_init fun _ _ numbered _ enabled => numbered.act enabled
  obtain ⟨up, inside, behind, empty⟩ := stuck
  have frozen : s.Frozen := by
    refine ⟨up, inside, behind, ?_⟩
    rw [empty]
    nofun
  have always : t.Numbered ∧ t.Lagging ∧ t.Frozen ∧ t.serverAck = s.serverAck := by
    refine run.invariant (P := fun t => t.Numbered ∧ t.Lagging ∧ t.Frozen ∧
      t.serverAck = s.serverAck) ?_ ⟨numbered, lagging, frozen, rfl⟩
    rintro t a ⟨numbered, lagging, frozen, same⟩ ⟨enabled, stays⟩
    obtain ⟨still, kept⟩ := frozen.act unacked lagging enabled stays
    exact ⟨numbered.act enabled, lagging.act numbered enabled, still, kept.trans same⟩
  obtain ⟨-, -, still, same⟩ := always
  exact ⟨still.inside, same, still.behind⟩

/-- One play was under way when the bazaar opened: a snapshot later the server still shops. -/
theorem stuck_absorbing_shipped :
    ∃ s, Reachable { shipped with ackOnBarrierReject := false } s ∧ s.Stuck ∧
      (s.act { shipped with ackOnBarrierReject := false } .serverSendSnapshot).serverBazaar =
        true := by
  obtain ⟨s, reachable, stuck, empty⟩ :=
    stuck_of_unacked (c := { shipped with ackOnBarrierReject := false }) (by decide) (by decide)
      rfl
  have run : Run (fun s a => s.Enabled { shipped with ackOnBarrierReject := false } a ∧
      a ≠ .disconnect) (act { shipped with ackOnBarrierReject := false }) s
      ([] ++ [.serverSendSnapshot]) _ := Run.nil.snoc ⟨⟨stuck.1, by rw [empty]; decide⟩, nofun⟩
  exact ⟨s, reachable, stuck, (stuck_absorbing rfl reachable stuck run).1⟩

end Net

end BattleTris
