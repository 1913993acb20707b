import Mathlib.Data.Set.BooleanAlgebra
import Mathlib.Order.CompletePartialOrder
import Mathlib.Order.Interval.Set.Basic

/-!
# Windows of a sequence

A window of a sequence is the `n` places from `o` on.  Reading and writing windows obey
the laws of a lens, and writes to disjoint windows commute.

The places carry values of any type.  A machine that keeps the sequence packed in words
inherits the laws, if its operations read and write the unpacked sequence like this.
-/

namespace Window

variable {α : Type*}

/-- The sequence from `o` on. -/
def get (f : Nat → α) (o : Nat) : Nat → α := fun j => f (o + j)

/-- The sequence with the `n` places from `o` on replaced. -/
def put (f : Nat → α) (o n : Nat) (v : Nat → α) : Nat → α :=
  fun i => if o ≤ i ∧ i < o + n then v (i - o) else f i

variable {f : Nat → α} {o n : Nat} {v w : Nat → α}

theorem put_inside {i : Nat} (h : o ≤ i ∧ i < o + n) : put f o n v i = v (i - o) := if_pos h

theorem put_outside {i : Nat} (h : ¬ (o ≤ i ∧ i < o + n)) : put f o n v i = f i := if_neg h

/-- What was written is read. -/
theorem get_put {j : Nat} (h : j < n) : get (put f o n v) o j = v j := by
  rw [get, put_inside ⟨Nat.le_add_right o j, Nat.add_lt_add_left h o⟩, Nat.add_sub_cancel_left]

/-- Writing back what was read changes nothing. -/
theorem put_get (h : ∀ j < n, v j = get f o j) : put f o n v = f := by
  funext i
  by_cases hi : o ≤ i ∧ i < o + n
  · rw [put_inside hi, h _ (by omega), get, Nat.add_sub_cancel' hi.1]
  · exact put_outside hi

/-- The last write wins. -/
theorem put_put : put (put f o n v) o n w = put f o n w := by
  funext i
  by_cases hi : o ≤ i ∧ i < o + n
  · rw [put_inside hi, put_inside hi]
  · rw [put_outside hi, put_outside hi, put_outside hi]

/-- Writes to disjoint windows commute. -/
theorem put_comm {p m : Nat} {u : Nat → α}
    (h : Disjoint (Set.Ico o (o + n)) (Set.Ico p (p + m))) :
    put (put f o n v) p m u = put (put f p m u) o n v := by
  funext i
  by_cases hi : o ≤ i ∧ i < o + n
  · have hi' : ¬ (p ≤ i ∧ i < p + m) := fun hp => Set.disjoint_left.mp h hi hp
    rw [put_outside hi', put_inside hi, put_inside hi]
  · rw [put_outside (f := put f p m u) hi]
    by_cases hi' : p ≤ i ∧ i < p + m
    · rw [put_inside hi', put_inside hi']
    · rw [put_outside hi', put_outside hi', put_outside hi]

end Window
