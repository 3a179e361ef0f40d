import BattleTris.Lib.Numbered
import BattleTris.Lib.Run

/-!
The bazaar between a client and its server.

The client numbers its inputs, and learns of the bazaar by marks: an ack with the two flags that
held when it was sent.  It plays while its last mark shows nobody shopping, and asks to leave
while its last mark shows it shopping, once.  The two ends never agree on the state of the
bazaar at any one time; what they agree on is `Follows`, from one mark to any later one.
-/

namespace BattleTris

open Numbered

/-- What an input is to the barrier. -/
inductive InputKind where
  | play
  | shop
  | leave
  deriving DecidableEq

/-- An ack, and who is shopping. -/
structure Mark where
  ack : Nat
  you : Bool
  opp : Bool

/-- What the client has issued and the last mark it saw, the marks under way, and where the
server stands. -/
structure Handshake where
  issued : List (Nat × InputKind)
  sent : Nat
  view : Mark
  reports : List Mark
  now : Mark

namespace Handshake

/-- The server takes the inputs in order.  It opens both bazaars at once. -/
inductive Act where
  | issue (k : InputKind)
  | take
  | enter
  | oppLeaves
  | report
  | read

def start : Handshake where
  issued := []
  sent := 0
  view := ⟨0, false, false⟩
  reports := []
  now := ⟨0, false, false⟩

/-- The inputs the server has not taken. -/
def pending (h : Handshake) : List (Nat × InputKind) := beyond h.now.ack h.issued

/-- The inputs the client does not know to be taken. -/
def unacked (h : Handshake) : List (Nat × InputKind) := beyond h.view.ack h.issued

def act (h : Handshake) : Act → Handshake
  | .issue k => { h with issued := h.issued ++ [(h.sent + 1, k)], sent := h.sent + 1 }
  | .take =>
    match h.pending with
    | [] => h
    | (n, k) :: _ => { h with now := ⟨n, h.now.you && decide (k ≠ .leave), h.now.opp⟩ }
  | .enter => { h with now := ⟨h.now.ack, true, true⟩ }
  | .oppLeaves => { h with now := ⟨h.now.ack, h.now.you, false⟩ }
  | .report => { h with reports := h.reports ++ [h.now] }
  | .read =>
    match h.reports with
    | [] => h
    | r :: rs => { h with view := r, reports := rs }

/-- The client's discipline, and the barrier at the server. -/
def Allowed (h : Handshake) : Act → Prop
  | .issue .play => h.view.you = false ∧ h.view.opp = false
  | .issue .leave => h.view.you = true ∧ ∀ e ∈ h.unacked, e.2 ≠ .leave
  | .enter => h.now.you = false ∧ h.now.opp = false
  | _ => True

/-! ## From mark to mark -/

/-- Of the inputs issued, a leave is numbered between two marks. -/
def LeftBetween (issued : List (Nat × InputKind)) (p q : Mark) : Prop :=
  ∃ n, (n, .leave) ∈ issued ∧ p.ack < n ∧ n ≤ q.ack

/-- The mark `q` comes after `p`: the side is out of the bazaar it was in, or waits for the other
alone, only by a leave of its own. -/
structure Follows (issued : List (Nat × InputKind)) (p q : Mark) : Prop where
  ack : p.ack ≤ q.ack
  you : p.you = true → q.you = false → LeftBetween issued p q
  opp : p.opp = false → q.opp = true → q.you = false → LeftBetween issued p q

/-- The marks on their way, from the last one the client saw. -/
def seen (h : Handshake) : List Mark := h.view :: h.reports

structure Inv (h : Handshake) : Prop where
  rising : Rising h.issued
  bounded : ∀ e ∈ h.issued, e.1 ≤ h.sent
  newest : h.sent = 0 ∨ ∃ k, (h.sent, k) ∈ h.issued
  acked : h.now.ack ≤ h.sent
  order : (h.seen ++ [h.now]).Pairwise (Follows h.issued)
  /-- Outside the bazaar, no leave waits for its ack. -/
  shut : h.view.you = false → ∀ e ∈ h.unacked, e.2 ≠ .leave
  /-- Behind a leave that waits for its ack there is shopping only. -/
  last : ∀ n, (n, .leave) ∈ h.unacked → ∀ e ∈ h.issued, n < e.1 → e.2 = .shop
  /-- A side that waits for the other alone has no play to come. -/
  alone : ∀ p ∈ h.seen ++ [h.now], p.you = false → p.opp = true →
    ∀ e ∈ beyond p.ack h.issued, e.2 ≠ .play

variable {h : Handshake} {issued : List (Nat × InputKind)} {p q r : Mark} {k : InputKind}
  {rs : List Mark} {a : Act} {e : Nat × InputKind} {n : Nat}

theorem LeftBetween.later (left : LeftBetween issued p q) (later : q.ack ≤ r.ack) :
    LeftBetween issued p r := by
  obtain ⟨n, mem, past, taken⟩ := left
  exact ⟨n, mem, past, taken.trans later⟩

theorem Follows.refl (issued : List (Nat × InputKind)) (p : Mark) : Follows issued p p where
  ack := le_rfl
  you shopping gone := by
    rw [shopping] at gone
    cases gone
  opp away shopping _ := by
    rw [away] at shopping
    cases shopping

theorem Follows.issue (follows : Follows issued p q) (e : Nat × InputKind) :
    Follows (issued ++ [e]) p q := by
  have more (left : LeftBetween issued p q) : LeftBetween (issued ++ [e]) p q := by
    obtain ⟨n, mem, between⟩ := left
    exact ⟨n, List.mem_append_left _ mem, between⟩
  exact ⟨follows.ack, fun inside outside => more (follows.you inside outside),
    fun away shopping outside => more (follows.opp away shopping outside)⟩

theorem Inv.follows (inv : h.Inv) (mem : p ∈ h.seen) : Follows h.issued p h.now :=
  (List.pairwise_append.mp inv.order).2.2 p mem h.now List.mem_cons_self

theorem Inv.view_ack (inv : h.Inv) : h.view.ack ≤ h.now.ack :=
  (inv.follows List.mem_cons_self).ack

theorem inv_start : start.Inv where
  rising := .nil
  bounded := nofun
  newest := .inl rfl
  acked := le_rfl
  order := by
    simp only [seen, start, List.cons_append, List.nil_append, List.pairwise_cons,
      List.mem_singleton, forall_eq, List.not_mem_nil, false_imp_iff, implies_true,
      List.Pairwise.nil, and_true]
    exact .refl _ _
  shut _ := nofun
  last _ := nofun
  alone _ _ _ _ := nofun

/-! ## The server moves -/

/-- The server's mark moves on: to one that follows what its last mark followed. -/
theorem Inv.moves (inv : h.Inv) (acked : q.ack ≤ h.sent)
    (onward : ∀ p, Follows h.issued p h.now → Follows h.issued p q)
    (alone : q.you = false → q.opp = true → ∀ e ∈ beyond q.ack h.issued, e.2 ≠ .play) :
    Inv { h with now := q } := by
  refine ⟨inv.rising, inv.bounded, inv.newest, acked, ?_, inv.shut, inv.last, fun p mem => ?_⟩
  · obtain ⟨seen, -, -⟩ := List.pairwise_append.mp inv.order
    refine List.pairwise_append.mpr ⟨seen, List.pairwise_singleton _ _, fun p mem r last => ?_⟩
    rw [List.mem_singleton.mp last]
    exact onward p (inv.follows mem)
  · rcases List.mem_append.mp mem with old | last
    · exact inv.alone p (List.mem_append_left _ old)
    · rw [List.mem_singleton.mp last]
      exact alone

theorem Inv.enter (inv : h.Inv) : (h.act .enter).Inv :=
  inv.moves inv.acked (fun _ follows => ⟨follows.ack, nofun, nofun⟩) nofun

theorem Inv.oppLeaves (inv : h.Inv) : (h.act .oppLeaves).Inv :=
  inv.moves inv.acked (fun _ follows => ⟨follows.ack, follows.you, nofun⟩) nofun

theorem Inv.take (inv : h.Inv) : (h.act .take).Inv := by
  unfold act
  dsimp only
  split
  · exact inv
  · next n k rest front =>
    obtain ⟨past, mem, -⟩ := inv.rising.beyond_head front
    dsimp only at past
    refine inv.moves (inv.bounded _ mem) (fun p follows => ?_) fun outside waits => ?_
    · have left (leaves : k = .leave) (q : Mark) (upTo : q.ack = n) :
          LeftBetween h.issued p q := by
        rw [leaves] at mem
        exact ⟨n, mem, Nat.lt_of_le_of_lt follows.ack past, upTo.ge⟩
      have stays (other : k ≠ .leave) (gone : (h.now.you && decide (k ≠ .leave)) = false) :
          h.now.you = false := by simpa [other] using gone
      refine ⟨follows.ack.trans past.le, fun inside gone => ?_, fun away shopping gone => ?_⟩
      · by_cases leaves : k = .leave
        · exact left leaves _ rfl
        · exact (follows.you inside (stays leaves gone)).later past.le
      · by_cases leaves : k = .leave
        · exact left leaves _ rfl
        · exact (follows.opp away shopping (stays leaves gone)).later past.le
    · -- what is left alone: nothing but shopping behind the leave, or what was left before
      intro e more
      by_cases leaves : k = .leave
      · rw [leaves] at mem
        have waiting : (n, InputKind.leave) ∈ h.unacked :=
          mem_beyond.mpr ⟨mem, Nat.lt_of_le_of_lt inv.view_ack past⟩
        obtain ⟨among, behind⟩ := mem_beyond.mp more
        rw [inv.last n waiting e among behind]
        nofun
      · have gone : h.now.you = false := by simpa [leaves] using outside
        exact inv.alone h.now (List.mem_append_right _ List.mem_cons_self) gone waits e
          (beyond_subset past.le more)

/-! ## The client moves -/

theorem Inv.issue (inv : h.Inv) (allowed : h.Allowed (.issue k)) : (h.act (.issue k)).Inv := by
  have fresh {p : Mark} (mem : p ∈ h.seen ++ [h.now]) : p.ack < h.sent + 1 := by
    refine Nat.lt_succ_of_le (Nat.le_trans ?_ inv.acked)
    rcases List.mem_append.mp mem with old | last
    · exact (inv.follows old).ack
    · rw [List.mem_singleton.mp last]
  have unacked : (h.act (.issue k)).unacked = h.unacked ++ [(h.sent + 1, k)] :=
    beyond_snoc (fresh (List.mem_append_left _ List.mem_cons_self))
  refine ⟨inv.rising.snoc inv.bounded (Nat.lt_succ_self _), fun e mem => ?_,
    .inr ⟨k, List.mem_append_right _ List.mem_cons_self⟩, inv.acked.trans (Nat.le_succ _),
    inv.order.imp fun follows => follows.issue _,
    fun outside e mem => ?_, fun n waiting e mem behind => ?_, fun p mem outside waits e more => ?_⟩
  · rcases List.mem_append.mp mem with old | last
    · exact (inv.bounded e old).trans (Nat.le_succ _)
    · rw [List.mem_singleton.mp last]
      exact Nat.le_refl _
  · rw [unacked] at mem
    rcases List.mem_append.mp mem with old | last
    · exact inv.shut outside e old
    · rw [List.mem_singleton.mp last]
      rintro rfl
      have inside : h.view.you = true := allowed.1
      exact absurd (inside.symm.trans outside) Bool.true_eq_false_eq_False
  · rw [unacked] at waiting
    rcases List.mem_append.mp waiting with old | last
    · rcases List.mem_append.mp mem with among | new
      · exact inv.last n old e among behind
      · rw [List.mem_singleton.mp new]
        cases k with
        | shop => rfl
        | play => exact absurd rfl (inv.shut allowed.1 _ old)
        | leave => exact absurd rfl (allowed.2 _ old)
    · -- nothing is numbered behind the input just issued
      obtain ⟨rfl, -⟩ := Prod.mk.inj (List.mem_singleton.mp last)
      rcases List.mem_append.mp mem with among | new
      · exact absurd (inv.bounded e among) (by omega)
      · rw [List.mem_singleton.mp new] at behind
        exact absurd behind (Nat.lt_irrefl _)
  · rw [show beyond p.ack (h.act (.issue k)).issued = _ from beyond_snoc (fresh mem)] at more
    rcases List.mem_append.mp more with old | last
    · exact inv.alone p mem outside waits e old
    · rw [List.mem_singleton.mp last]
      rintro rfl
      -- the client saw nobody shopping before the mark, and has not left since
      have clear : Follows h.issued h.view p ∨ p = h.view := by
        rcases List.mem_cons.mp mem with rfl | later
        · exact .inr rfl
        · exact .inl ((List.pairwise_cons.mp inv.order).1 p later)
      rcases clear with follows | rfl
      · obtain ⟨n, left, past, -⟩ := follows.opp allowed.2 waits outside
        exact inv.shut allowed.1 _ (mem_beyond.mpr ⟨left, past⟩) rfl
      · exact absurd (waits.symm.trans allowed.2) Bool.true_eq_false_eq_False

theorem Inv.report (inv : h.Inv) : (h.act .report).Inv := by
  have marks : (h.act .report).seen ++ [h.now] = (h.seen ++ [h.now]) ++ [h.now] := rfl
  refine ⟨inv.rising, inv.bounded, inv.newest, inv.acked, ?_, inv.shut, inv.last, fun p mem => ?_⟩
  · change ((h.act .report).seen ++ [h.now]).Pairwise _
    rw [marks]
    refine List.pairwise_append.mpr ⟨inv.order, List.pairwise_singleton _ _, fun p mem r last => ?_⟩
    rw [List.mem_singleton.mp last]
    rcases List.mem_append.mp mem with old | new
    · exact inv.follows old
    · rw [List.mem_singleton.mp new]
      exact .refl _ _
  · refine inv.alone p ?_
    rcases List.mem_append.mp mem with old | new
    · exact old
    · exact List.mem_append_right _ new

theorem Inv.read (inv : h.Inv) : (h.act .read).Inv := by
  unfold act
  dsimp only
  split
  · exact inv
  · next r rs arrives =>
    have order := inv.order
    have alone := inv.alone
    unfold seen at order alone
    rw [arrives] at order alone
    obtain ⟨after, order⟩ := List.pairwise_cons.mp order
    have follows : Follows h.issued h.view r := after r List.mem_cons_self
    have older {e : Nat × InputKind} (mem : e ∈ beyond r.ack h.issued) : e ∈ h.unacked :=
      beyond_subset follows.ack mem
    refine ⟨inv.rising, inv.bounded, inv.newest, inv.acked, order, fun outside e mem => ?_,
      fun n waiting => inv.last n (older waiting),
      fun p mem => alone p (List.mem_cons_of_mem _ mem)⟩
    intro leaves
    cases inside : h.view.you with
    | false => exact inv.shut inside e (older mem) leaves
    | true =>
      -- it left since, and nothing but shopping is behind that leave
      obtain ⟨n, left, past, taken⟩ := follows.you inside outside
      obtain ⟨among, beyond⟩ := mem_beyond.mp mem
      have shops := inv.last n (mem_beyond.mpr ⟨left, past⟩) e among
        (Nat.lt_of_le_of_lt taken beyond)
      rw [leaves] at shops
      cases shops

theorem Inv.act (inv : h.Inv) (allowed : h.Allowed a) : (h.act a).Inv := by
  cases a with
  | issue k => exact inv.issue allowed
  | take => exact inv.take
  | enter => exact inv.enter
  | oppLeaves => exact inv.oppLeaves
  | report => exact inv.report
  | read => exact inv.read

theorem inv_of_run {acts : List Act} (run : Run Allowed act start acts h) : h.Inv :=
  run.invariant (fun _ _ inv allowed => inv.act allowed) inv_start

/-! ## What the two ends can rely on -/

/-- A leave that the server has not taken finds it shopping. -/
theorem Inv.leave_finds (inv : h.Inv) (mem : (n, .leave) ∈ h.pending) : h.now.you = true := by
  by_contra outside
  have outside : h.now.you = false := eq_false_of_ne_true outside
  obtain ⟨among, past⟩ := mem_beyond.mp mem
  have waiting : (n, InputKind.leave) ∈ h.unacked := beyond_subset inv.view_ack mem
  cases inside : h.view.you with
  | false => exact inv.shut inside _ waiting rfl
  | true =>
    obtain ⟨m, left, later, taken⟩ := (inv.follows List.mem_cons_self).you inside outside
    have shops := inv.last m (mem_beyond.mpr ⟨left, later⟩) _ among
      (Nat.lt_of_le_of_lt taken past)
    cases shops

/-- Behind a leave that a mark has not acked there is shopping only. -/
theorem Inv.behind (inv : h.Inv) (later : h.view.ack ≤ n) :
    (beyond n h.issued).Pairwise fun e f => e.2 = .leave → f.2 = .shop := by
  refine (inv.rising.beyond n).imp_of_mem fun {e f} mem mem' less leaves => ?_
  have waiting : (e.1, InputKind.leave) ∈ h.unacked := by
    rw [← leaves]
    exact beyond_subset later mem
  exact inv.last e.1 waiting f (mem_beyond.mp mem').1 less

/-- Once the server has taken everything, it has acked the last number issued. -/
theorem Inv.drained (inv : h.Inv) (drained : h.pending = []) : h.now.ack = h.sent := by
  refine Nat.le_antisymm inv.acked ?_
  rcases inv.newest with none | ⟨k, mem⟩
  · rw [none]
    exact Nat.zero_le _
  · by_contra behind
    have waiting : (h.sent, k) ∈ h.pending := mem_beyond.mpr ⟨mem, Nat.lt_of_not_le behind⟩
    rw [drained] at waiting
    cases waiting

end Handshake

end BattleTris
