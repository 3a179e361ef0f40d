import Mathlib.Data.List.Basic
import Mathlib.Order.Basic

/-!
Messages that a sender numbers upwards, and acks that speak for everything up to their number.

What an ack leaves of the messages is again numbered upwards, a later ack leaves of it what it
leaves of all of them, and the messages are taken off its front one by one.
-/

namespace Numbered

variable {α β : Type*} {l rest : List (Nat × α)} {e f : Nat × α} {a b n : Nat}

/-- The numbers rise. -/
def Rising (l : List (Nat × α)) : Prop := l.Pairwise fun e f => e.1 < f.1

/-- The messages that an ack does not speak for. -/
def beyond (ack : Nat) (l : List (Nat × α)) : List (Nat × α) := l.filter fun e => ack < e.1

@[simp] theorem mem_beyond : e ∈ beyond a l ↔ e ∈ l ∧ a < e.1 := by
  unfold beyond
  rw [List.mem_filter, decide_eq_true_eq]

@[simp] theorem beyond_nil : beyond a ([] : List (Nat × α)) = [] := rfl

theorem beyond_subset (later : a ≤ b) (mem : e ∈ beyond b l) : e ∈ beyond a l := by
  rw [mem_beyond] at mem ⊢
  exact ⟨mem.1, Nat.lt_of_le_of_lt later mem.2⟩

/-- A later ack leaves the same of all messages as of those an earlier ack left. -/
theorem beyond_beyond (later : a ≤ b) (l : List (Nat × α)) :
    beyond b (beyond a l) = beyond b l := by
  unfold beyond
  rw [List.filter_filter]
  refine List.filter_congr fun e _ => ?_
  by_cases past : b < e.1
  · have before : a < e.1 := Nat.lt_of_le_of_lt later past
    simp [past, before]
  · simp [past]

/-- A message numbered past the ack waits behind the others. -/
theorem beyond_snoc (past : a < e.1) : beyond a (l ++ [e]) = beyond a l ++ [e] := by
  unfold beyond
  rw [List.filter_append, List.filter_singleton, decide_eq_true past]
  rfl

theorem beyond_eq_nil (bounded : ∀ e ∈ l, e.1 ≤ a) : beyond a l = [] := by
  unfold beyond
  refine List.filter_eq_nil_iff.mpr fun e mem => ?_
  rw [decide_eq_true_eq]
  exact Nat.not_lt_of_le (bounded e mem)

theorem beyond_eq_self (above : ∀ e ∈ l, a < e.1) : beyond a l = l :=
  List.filter_eq_self.mpr fun e mem => decide_eq_true (above e mem)

theorem beyond_map (f : α → β) (a : Nat) (l : List (Nat × α)) :
    beyond a (l.map (Prod.map id f)) = (beyond a l).map (Prod.map id f) := List.filter_map

theorem rising_map (f : α → β) : Rising (l.map (Prod.map id f)) ↔ Rising l := List.pairwise_map

theorem Rising.beyond (rising : Rising l) (a : Nat) : Rising (beyond a l) :=
  rising.sublist List.filter_sublist

theorem Rising.snoc (rising : Rising l) (bounded : ∀ e ∈ l, e.1 ≤ a) (past : a < f.1) :
    Rising (l ++ [f]) := by
  unfold Rising
  rw [List.pairwise_append]
  refine ⟨rising, List.pairwise_singleton _ _, fun e mem g last => ?_⟩
  rw [List.mem_singleton.mp last]
  exact Nat.lt_of_le_of_lt (bounded e mem) past

/-- Taking the first message left over acks it. -/
theorem Rising.beyond_head (rising : Rising l) (left : Numbered.beyond a l = e :: rest) :
    a < e.1 ∧ e ∈ l ∧ Numbered.beyond e.1 l = rest := by
  have head : e ∈ Numbered.beyond a l := by
    rw [left]
    exact List.mem_cons_self
  obtain ⟨mem, past⟩ := mem_beyond.mp head
  refine ⟨past, mem, ?_⟩
  have sorted := rising.beyond a
  rw [left] at sorted
  obtain ⟨above, -⟩ := List.pairwise_cons.mp sorted
  rw [← beyond_beyond (Nat.le_of_lt past), left, Numbered.beyond, List.filter_cons,
    if_neg (by simp), ← Numbered.beyond]
  exact beyond_eq_self above

/-! ## Counting -/

section Count

variable {p : α → Bool}

/-- How many messages of a kind are numbered up to `a`. -/
def countUpTo (p : α → Bool) (a : Nat) (l : List (Nat × α)) : Nat :=
  l.countP fun e => decide (e.1 ≤ a) && p e.2

theorem countUpTo_le (p : α → Bool) (a : Nat) (l : List (Nat × α)) : countUpTo p a l ≤ l.length :=
  List.countP_le_length

/-- The others of the kind are those the ack `a` does not speak for. -/
theorem countUpTo_add (p : α → Bool) (a : Nat) (l : List (Nat × α)) :
    countUpTo p a l + (beyond a l).countP (fun e => p e.2) = l.countP fun e => p e.2 := by
  unfold countUpTo beyond
  induction l with
  | nil => rfl
  | cons e l ih =>
    rcases Nat.lt_or_ge a e.1 with past | upTo
    · rw [List.filter_cons, if_pos (decide_eq_true past), List.countP_cons, List.countP_cons,
        List.countP_cons, ← ih, decide_eq_false (Nat.not_le_of_lt past)]
      simp only [Bool.false_and, Bool.false_eq_true, if_false, Nat.add_zero]
      omega
    · rw [List.filter_cons, if_neg (by simp [upTo]), List.countP_cons, List.countP_cons, ← ih,
        decide_eq_true upTo]
      simp only [Bool.true_and]
      omega

/-- A message numbered past `a` is not counted. -/
theorem countUpTo_snoc (past : a < e.1) : countUpTo p a (l ++ [e]) = countUpTo p a l := by
  unfold countUpTo
  rw [List.countP_append, List.countP_singleton, decide_eq_false (Nat.not_le_of_lt past)]
  rfl

/-- The last message is counted if it is of the kind. -/
theorem countUpTo_last (bounded : ∀ f ∈ l, f.1 ≤ a) (later : a ≤ e.1) :
    countUpTo p e.1 (l ++ [e]) = countUpTo p a l + if p e.2 then 1 else 0 := by
  have whole := countUpTo_add p e.1 (l ++ [e])
  have before := countUpTo_add p a l
  rw [beyond_eq_nil bounded, List.countP_nil] at before
  rw [beyond_eq_nil, List.countP_nil, List.countP_append, List.countP_singleton] at whole
  · omega
  · intro f mem
    rcases List.mem_append.mp mem with old | last
    · exact Nat.le_trans (bounded f old) later
    · exact Nat.le_of_eq (congrArg Prod.fst (List.mem_singleton.mp last))

/-- Past a message of the kind the count is one more. -/
theorem Rising.countUpTo_head (rising : Rising l) (left : Numbered.beyond a l = e :: rest) :
    countUpTo p e.1 l = countUpTo p a l + if p e.2 then 1 else 0 := by
  have upTo := countUpTo_add p a l
  have past := countUpTo_add p e.1 l
  obtain ⟨-, -, after⟩ := rising.beyond_head left
  rw [left, List.countP_cons] at upTo
  rw [after] at past
  omega

/-- With none of the kind left over, all are counted. -/
theorem countUpTo_all (bounded : ∀ e ∈ l, e.1 ≤ b) (idle : ∀ e ∈ beyond a l, p e.2 = false) :
    countUpTo p a l = countUpTo p b l := by
  have upTo := countUpTo_add p a l
  have all := countUpTo_add p b l
  have none : (beyond a l).countP (fun e => p e.2) = 0 := by
    refine List.countP_eq_zero.mpr fun e mem => ?_
    rw [idle e mem]
    exact Bool.false_ne_true
  rw [none] at upTo
  rw [beyond_eq_nil bounded, List.countP_nil] at all
  omega

end Count

end Numbered
