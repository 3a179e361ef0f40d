import Mathlib

/-!
A bounds-checked forward reader over a stream of words.

A read past the end yields a default word and marks the cursor, so a reader never
fails for want of input; it fails only where it rejects a value.  `Reads r xs a`
says that `r` consumes exactly the words `xs` and returns `a`, whatever follows.
-/

namespace Codec

variable {ω α β : Type _}

/-- The words still to read, and whether every read so far found one. -/
structure Cursor (ω : Type _) where
  left : List ω
  ok : Bool

/-- A reader either moves the cursor on and returns a value, or rejects. -/
def Reader (ω α : Type _) : Type _ := Cursor ω → Option (α × Cursor ω)

namespace Reader

def pure (a : α) : Reader ω α := fun c => some (a, c)

def bind (r : Reader ω α) (f : α → Reader ω β) : Reader ω β := fun c =>
  match r c with
  | some (a, c) => f a c
  | none => none

instance : Monad (Reader ω) where
  pure := pure
  bind := bind

def reject : Reader ω α := fun _ => none

/-- The next word, or the default one past the end. -/
def next [Inhabited ω] : Reader ω ω := fun c =>
  match c.left with
  | w :: ws => some (w, ⟨ws, c.ok⟩)
  | [] => some (default, ⟨[], false⟩)

def times (r : Reader ω α) : Nat → Reader ω (List α)
  | 0 => pure []
  | n + 1 => do
    let a ← r
    let as ← times r n
    return a :: as

/-- Accept a stream that the reader consumes to its end. -/
def run (r : Reader ω α) (ws : List ω) : Option α :=
  match r ⟨ws, true⟩ with
  | some (a, c) => if c.ok ∧ c.left.isEmpty then some a else none
  | none => none

end Reader

/-! ## What a reader consumes -/

/-- `r` consumes the words `xs` and returns `a`. -/
def Reads (r : Reader ω α) (xs : List ω) (a : α) : Prop :=
  ∀ rest ok, r ⟨xs ++ rest, ok⟩ = some (a, ⟨rest, ok⟩)

namespace Reads

theorem pure (a : α) : Reads (Pure.pure a : Reader ω α) [] a :=
  fun _ _ => rfl

theorem bind {r : Reader ω α} {f : α → Reader ω β} {xs ys : List ω} {a : α} {b : β}
    (first : Reads r xs a) (second : Reads (f a) ys b) :
    Reads (r >>= f) (xs ++ ys) b := by
  intro rest ok
  change Reader.bind r f _ = _
  unfold Reader.bind
  rw [List.append_assoc, first (ys ++ rest) ok]
  exact second rest ok

theorem next [Inhabited ω] (w : ω) : Reads (Reader.next : Reader ω ω) [w] w :=
  fun _ _ => rfl

/-- Read one word and go on. -/
theorem cons [Inhabited ω] {f : ω → Reader ω β} {w : ω} {ys : List ω} {b : β}
    (rest : Reads (f w) ys b) : Reads (Reader.next >>= f) (w :: ys) b :=
  bind (next w) rest

theorem map {r : Reader ω α} {xs : List ω} {a : α} (read : Reads r xs a) (f : α → β) :
    Reads (r >>= fun a => Pure.pure (f a)) xs (f a) := by
  have step := bind (f := fun a => Pure.pure (f a)) read (pure (f a))
  rwa [List.append_nil] at step

theorem times {r : Reader ω α} {e : α → List ω} {l : List α}
    (each : ∀ a ∈ l, Reads r (e a) a) :
    Reads (r.times l.length) (l.flatMap e) l := by
  induction l with
  | nil => exact pure []
  | cons a l ih =>
    rw [List.flatMap_cons]
    refine bind (each a List.mem_cons_self) ?_
    exact (ih fun b hb => each b (List.mem_cons_of_mem a hb)).map (List.cons a)

/-- A reader that consumes the whole stream accepts it. -/
theorem run {r : Reader ω α} {xs : List ω} {a : α} (read : Reads r xs a) :
    r.run xs = some a := by
  have whole := read [] true
  rw [List.append_nil] at whole
  simp [Reader.run, whole]

end Reads

/-! ## Readers that depend on what they consume only -/

/-- Where `r` succeeds without having run off the end, it has consumed a first part of
the stream, and it does the same on that part whatever follows it. -/
def Local (r : Reader ω α) : Prop :=
  ∀ c a c', r c = some (a, c') → c'.ok = true →
    c.ok = true ∧ ∃ xs, c.left = xs ++ c'.left ∧ Reads r xs a

namespace Local

theorem pure (a : α) : Local (Pure.pure a : Reader ω α) := by
  intro c b c' read ok
  cases read
  exact ⟨ok, [], rfl, Reads.pure a⟩

theorem reject : Local (Reader.reject : Reader ω α) := by
  intro c a c' read
  cases read

theorem next [Inhabited ω] : Local (Reader.next : Reader ω ω) := by
  rintro ⟨left, ok⟩ w c' read seen
  cases left with
  | nil =>
    cases read
    cases seen
  | cons w ws =>
    cases read
    exact ⟨seen, [w], rfl, Reads.next w⟩

theorem bind {r : Reader ω α} {f : α → Reader ω β} (first : Local r)
    (second : ∀ a, Local (f a)) : Local (r >>= f) := by
  intro c b c'' read ok
  change Reader.bind r f c = _ at read
  unfold Reader.bind at read
  cases step : r c with
  | none =>
    rw [step] at read
    cases read
  | some out =>
    obtain ⟨a, c'⟩ := out
    rw [step] at read
    obtain ⟨ok', ys, left', rest⟩ := second a c' b c'' read ok
    obtain ⟨ok'', xs, left, reads⟩ := first c a c' step ok'
    refine ⟨ok'', xs ++ ys, ?_, reads.bind rest⟩
    rw [left, left', List.append_assoc]

theorem map {r : Reader ω α} (first : Local r) (f : α → β) :
    Local (r >>= fun a => Pure.pure (f a)) :=
  first.bind fun a => pure (f a)

theorem ite {p : Prop} [Decidable p] {r s : Reader ω α} (yes : Local r) (no : Local s) :
    Local (if p then r else s) := by
  split
  · exact yes
  · exact no

theorem times {r : Reader ω α} (each : Local r) (n : Nat) : Local (r.times n) := by
  induction n with
  | zero => exact pure []
  | succ n ih => exact each.bind fun a => ih.map (List.cons a)

/-- An accepted stream is what the reader consumes. -/
theorem reads_of_run {r : Reader ω α} (first : Local r) {ws : List ω} {a : α}
    (accepted : r.run ws = some a) : Reads r ws a := by
  unfold Reader.run at accepted
  cases step : r ⟨ws, true⟩ with
  | none =>
    rw [step] at accepted
    cases accepted
  | some out =>
    obtain ⟨b, c⟩ := out
    rw [step] at accepted
    dsimp only at accepted
    split at accepted
    · next done =>
      cases accepted
      obtain ⟨-, xs, left, reads⟩ := first _ _ c step done.1
      have consumed : ws = xs := by
        rw [List.isEmpty_iff.mp done.2, List.append_nil] at left
        exact left
      rw [consumed]
      exact reads
    · cases accepted

/-- Of two streams one of which extends the other, a local reader accepts at most one. -/
theorem run_append {r : Reader ω α} (first : Local r) {ws tail : List ω} {a : α}
    (accepted : r.run ws = some a) (more : tail ≠ []) : r.run (ws ++ tail) = none := by
  have reads := first.reads_of_run accepted tail true
  unfold Reader.run
  rw [reads]
  have left : ¬tail.isEmpty = true := by simpa using more
  exact if_neg fun done => left done.2

end Local

/-! ## Tables written block by block -/

section Blocks

variable {f : β → List α} {k : Nat}

theorem length_flatMap_const (len : ∀ b, (f b).length = k) (bs : List β) :
    (bs.flatMap f).length = bs.length * k := by
  induction bs with
  | nil => simp
  | cons b bs ih => rw [List.flatMap_cons, List.length_append, len, ih, List.length_cons,
      Nat.succ_mul, Nat.add_comm]

/-- Entry `j` of block `i`, when every block has `k` entries. -/
theorem getElem?_flatMap_const (len : ∀ b, (f b).length = k) {l : List β} {i j : Nat}
    (row : i < l.length) (col : j < k) :
    (l.flatMap f)[i * k + j]? = (f l[i])[j]? := by
  induction l generalizing i with
  | nil => cases row
  | cons b l ih =>
    have first := len b
    rw [List.flatMap_cons]
    cases i with
    | zero =>
      rw [Nat.zero_mul, Nat.zero_add, List.getElem?_append_left (by omega)]
      rfl
    | succ i =>
      have shift : (i + 1) * k + j - k = i * k + j := by rw [Nat.succ_mul]; omega
      rw [List.getElem?_append_right (by rw [Nat.succ_mul]; omega), first, shift,
        ih (Nat.lt_of_succ_lt_succ row)]
      rfl

end Blocks

end Codec
