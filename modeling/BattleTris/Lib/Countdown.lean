import Mathlib.Data.List.Basic
import Mathlib.Tactic.Ring
import Mathlib.Tactic.Linarith

/-!
A counter that is read off modulo its period, and the two parties that share it.

A party knows its own count and the other's, keeps what is left to the next multiple of the
period, and opens whenever that jumps back up.  `Charged` says how often it did so: the number
depends on the residues of the increments alone, so two parties that hear the same increments in
different orders open equally often.
-/

namespace Countdown

/-- What is left to the next multiple of `p`. -/
def left (p total : Int) : Int := p - total % p

/-- One side's view of the shared counter. -/
structure Party where
  mine : Int
  theirs : Int
  left : Int
  opened : Bool

namespace Party

def total (q : Party) : Int := q.theirs + q.mine

/-- Recompute what is left, and open when it jumped up. -/
def update (p : Int) (q : Party) : Party :=
  { q with
    left := Countdown.left p q.total
    opened := q.opened || decide (Countdown.left p q.total > q.left) }

/-- The party's own count grows by `d`; an increment of zero goes unseen. -/
def check (p d : Int) (q : Party) : Party :=
  if d > 0 then update p { q with mine := q.mine + d } else { q with mine := q.mine + d }

/-- The party is told the other's count. -/
def hear (p n : Int) (q : Party) : Party := update p { q with theirs := n }

/-- What is left is up to date. -/
def Current (p : Int) (q : Party) : Prop := q.left = Countdown.left p q.total

end Party

/-- From `q` to `q'` the party was charged increments whose residues add up to `c`, and opened
`n` times. -/
structure Charged (p : Int) (n : Nat) (c : Int) (q q' : Party) : Prop where
  odometer : p * n + q'.total % p = q.total % p + c
  opened : q'.opened = (q.opened || decide (0 < n))
  current : q'.Current p

/-- The counts told one after the other, starting from `base`. -/
def told (base : Int) : List Int → List Int
  | [] => []
  | d :: ds => (base + d) :: told (base + d) ds

/-- The increments behind the counts told. -/
def increments (base : Int) : List Int → List Int
  | [] => []
  | n :: ns => (n - base) :: increments n ns

/-- The residues of some increments. -/
def charge (p : Int) (ds : List Int) : Int := (ds.map (· % p)).sum

section told

variable {base : Int} {ds es : List Int}

theorem told_append : told base (ds ++ es) = told base ds ++ told (base + ds.sum) es := by
  induction ds generalizing base with
  | nil => simp [told]
  | cons d ds ih => simp [told, ih, add_assoc]

theorem told_zeros (n : Nat) : told base (List.replicate n 0) = List.replicate n base := by
  induction n with
  | zero => rfl
  | succ n ih => simp [List.replicate_succ, told, ih]

theorem increments_told : increments base (told base ds) = ds := by
  induction ds generalizing base with
  | nil => rfl
  | cons d ds ih => simp [told, increments, ih]

theorem charge_append (p : Int) : charge p (ds ++ es) = charge p ds + charge p es := by
  simp [charge]

theorem charge_zeros (p : Int) (n : Nat) : charge p (List.replicate n 0) = 0 := by
  simp [charge]

/-- Increments below the period are charged as they are. -/
theorem charge_eq_sum {p : Int} (below : ∀ d ∈ ds, 0 ≤ d ∧ d < p) : charge p ds = ds.sum := by
  unfold charge
  induction ds with
  | nil => rfl
  | cons d ds ih =>
    have first := below d List.mem_cons_self
    have rest := ih fun e mem => below e (List.mem_cons_of_mem d mem)
    rw [List.map_cons, List.sum_cons, List.sum_cons, rest, Int.emod_eq_of_lt first.1 first.2]

end told

section Charged

variable {p : Int} {m n : Nat} {c d : Int} {q q' q'' : Party}

theorem Charged.refl (current : q.Current p) : Charged p 0 0 q q := ⟨by simp, by simp, current⟩

theorem Charged.trans (first : Charged p m c q q') (second : Charged p n d q' q'') :
    Charged p (m + n) (c + d) q q'' := by
  refine ⟨?_, ?_, second.current⟩
  · have a := first.odometer
    have b := second.odometer
    push_cast
    linarith
  · rw [second.opened, first.opened, Bool.or_assoc, ← Bool.decide_or]
    congr 2
    simp only [eq_iff_iff]
    omega

/-- A counter that grows by `d` wraps round at most once, and exactly when what is left jumps
up. -/
theorem odometer_step (pos : 0 < p) (t d : Int) :
    p * (if left p (t + d) > left p t then 1 else 0) + (t + d) % p = t % p + d % p := by
  have low := Int.emod_nonneg t pos.ne'
  have high := Int.emod_lt_of_pos t pos
  have low' := Int.emod_nonneg d pos.ne'
  have high' := Int.emod_lt_of_pos d pos
  have sum : (t + d) % p = (t % p + d % p) % p := Int.add_emod t d p
  unfold left
  rcases lt_or_ge (t % p + d % p) p with below | above
  · rw [Int.emod_eq_of_lt (by omega) below] at sum
    rw [if_neg (by omega)]
    omega
  · have wrapped : (t % p + d % p) % p = t % p + d % p - p := by
      rw [← Int.sub_emod_right, Int.emod_eq_of_lt (by omega) (by omega)]
    rw [if_pos (by omega)]
    omega

/-- An update to a total that grew by `d` charges `d`. -/
theorem Charged.update (pos : 0 < p) (current : q.Current p) {r : Party}
    (total : r.total = q.total + d) (kept : r.left = q.left) (opened : r.opened = q.opened) :
    ∃ n, Charged p n (d % p) q (r.update p) := by
  have step := odometer_step pos q.total d
  rw [← total] at step
  have jumped : decide (Countdown.left p r.total > r.left) =
      decide (Countdown.left p r.total > Countdown.left p q.total) := by rw [kept, current]
  refine ⟨if Countdown.left p r.total > Countdown.left p q.total then 1 else 0, ?_, ?_, rfl⟩
  · rw [← step]
    congr 2
    split <;> rfl
  · change (r.opened || decide (Countdown.left p r.total > r.left)) = _
    rw [jumped, opened]
    congr 2
    split <;> simp_all

theorem Charged.check (pos : 0 < p) (current : q.Current p) (grows : 0 ≤ d) :
    ∃ n, Charged p n (d % p) q (q.check p d) := by
  unfold Party.check
  split
  · exact Charged.update pos current (by simp [Party.total, add_assoc]) rfl rfl
  · have zero : d = 0 := by omega
    subst zero
    refine ⟨0, ?_⟩
    have same : { q with mine := q.mine + 0 } = q := by simp
    rw [same, Int.zero_emod]
    exact .refl current

theorem Charged.hear (pos : 0 < p) (current : q.Current p) (told : Int) :
    ∃ n, Charged p n ((told - q.theirs) % p) q (q.hear p told) :=
  Charged.update pos current (by simp [Party.total]; ring) rfl rfl

/-- The number of openings is that of the residues' total. -/
theorem Charged.unique (pos : 0 < p) {r r' : Party} (first : Charged p m c q q')
    (second : Charged p n c r r') (before : r.total = q.total) (after : r'.total = q'.total) :
    m = n := by
  have a := first.odometer
  have b := second.odometer
  rw [before, after] at b
  have same : p * (m : Int) = p * n := by omega
  exact_mod_cast mul_left_cancel₀ pos.ne' same

/-- Increments below the period open the party once for every multiple passed. -/
theorem Charged.multiples (pos : 0 < p) (charged : Charged p n c q q')
    (exact : q'.total = q.total + c) : (n : Int) = q'.total / p - q.total / p := by
  have odometer := charged.odometer
  have before := Int.emod_add_mul_ediv q.total p
  have after := Int.emod_add_mul_ediv q'.total p
  have same : p * (n : Int) = p * (q'.total / p - q.total / p) := by
    rw [mul_sub]
    omega
  exact mul_left_cancel₀ pos.ne' same

end Charged

end Countdown
