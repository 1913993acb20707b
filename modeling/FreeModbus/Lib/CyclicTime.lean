import Mathlib.Data.BitVec

/-!
# Times on a cyclic clock

A clock of `w` bits runs over.  A time is known by how far it lies ahead of a base, modulo the
range; differences of two times tell which one is later as long as both are near the base.
-/

namespace CyclicTime

variable {w : Nat} {base t u : BitVec w}

/-- How far a time lies ahead of the base. -/
def ahead (base t : BitVec w) : Nat := (t - base).toNat

theorem ahead_add (n : BitVec w) : ahead base (base + n) = n.toNat := by
  rw [ahead, add_sub_cancel_left]

/-- The difference of two times, where the first is not before the second. -/
theorem toNat_sub_of_le (h : ahead base u ≤ ahead base t) :
    (t - u).toNat = ahead base t - ahead base u := by
  rw [← sub_sub_sub_cancel_right t u base]
  exact BitVec.toNat_sub_of_le h

/-- The difference of two times, where the first is before the second. -/
theorem toNat_sub_of_lt (h : ahead base t < ahead base u) :
    (t - u).toNat = 2 ^ w - (ahead base u - ahead base t) := by
  have hu : ahead base u < 2 ^ w := BitVec.isLt _
  rw [← sub_sub_sub_cancel_right t u base, BitVec.toNat_sub]
  change (2 ^ w - ahead base u + ahead base t) % 2 ^ w = _
  rw [Nat.mod_eq_of_lt (by omega)]
  omega

/-- The base moves on: what is not behind it comes one nearer. -/
theorem ahead_succ (h : 0 < ahead base t) : ahead (base + 1) t = ahead base t - 1 := by
  have ht : ahead base t < 2 ^ w := BitVec.isLt _
  have hlt : 1 < 2 ^ w := Nat.lt_of_le_of_lt h ht
  have hone : ahead base (base + 1) = 1 := (ahead_add 1).trans (Nat.mod_eq_of_lt hlt)
  have hdiff : (t - (base + 1)).toNat = ahead base t - ahead base (base + 1) :=
    toNat_sub_of_le (by omega)
  rw [ahead, hdiff, hone]

end CyclicTime
