import FreeModbus.Lib.ByteMemory

/-!
# Rows of a two-dimensional array

A two-dimensional array is flat memory, and a pointer to a row is an offset into
it.  The offset is an integer, since a row index that is computed by subtraction
can lie before the array.

What is done through a row pointer can reach behind the row.  The lemmas say
that it changes another row only where the two overlap.
-/

namespace ByteMemory

variable {α : Type*}

/-- Flat memory around an array. -/
abbrev Plane (α : Type*) := Int → α

/-- The memory behind the row pointer at offset `o`. -/
def Plane.row (p : Plane α) (o : Int) : Mem α := fun i => p (o + i)

/-- The plane after the memory behind the row pointer at offset `o` has become `v`. -/
def Plane.setRow (p : Plane α) (o : Int) (v : Mem α) : Plane α :=
  fun j => if o ≤ j then v (j - o).toNat else p j

@[simp] theorem Plane.row_setRow (p : Plane α) (o : Int) (v : Mem α) :
    (p.setRow o v).row o = v := by
  funext i
  simp [Plane.row, Plane.setRow]

theorem Plane.setRow_eq_self {p : Plane α} {o : Int} {v : Mem α} :
    p.setRow o v = p ↔ v = p.row o := by
  constructor
  · intro h
    have hrow := p.row_setRow o v
    rw [h] at hrow
    exact hrow.symm
  · rintro rfl
    funext j
    rw [Plane.setRow]
    split
    · rename_i hj
      rw [Plane.row]
      congr 1
      omega
    · rfl

/-- A change of the items `lo ≤ i < hi` behind one pointer is not seen behind another one at
other places. -/
theorem Plane.row_setRow_of_outside {p : Plane α} {o : Int} {v : Mem α} (lo hi : Nat)
    (h : ∀ i, ¬ (lo ≤ i ∧ i < hi) → v i = p.row o i) {o' : Int} {i : Nat}
    (hi : ¬ (o + lo ≤ o' + i ∧ o' + i < o + hi)) : (p.setRow o v).row o' i = p.row o' i := by
  rw [Plane.row, Plane.setRow]
  split
  · rw [h _ (by omega), Plane.row, Plane.row]
    congr 1
    omega
  · rfl

/-- The same for the bits of a byte array. -/
theorem Plane.bitAt_row_setRow_of_outside {p : Plane (BitVec 8)} {o : Int} {v : Mem (BitVec 8)}
    (lo hi : Nat) (h : ∀ t, ¬ (lo ≤ t ∧ t < hi) → bitAt v t = bitAt (p.row o) t) {o' : Int}
    {t : Nat} (ht : ¬ (8 * o + lo ≤ 8 * o' + t ∧ 8 * o' + t < 8 * o + hi)) :
    bitAt ((p.setRow o v).row o') t = bitAt (p.row o') t := by
  by_cases hlt : o ≤ o' + (t / 8 : Nat)
  · have hrow : ∀ m : Mem (BitVec 8), m = v ∨ m = p.row o →
        bitAt m (8 * (o' + (t / 8 : Nat) - o).toNat + t % 8) =
          (m (o' + (t / 8 : Nat) - o).toNat).getLsbD (t % 8) :=
      fun m _ => bitAt_mul_add m _ (by omega)
    have hv := h (8 * (o' + (t / 8 : Nat) - o).toNat + t % 8) (by omega)
    rw [hrow v (Or.inl rfl), hrow _ (Or.inr rfl)] at hv
    rw [bitAt, bitAt, Plane.row, Plane.setRow, if_pos hlt, hv, Plane.row, Plane.row]
    congr 2
    omega
  · apply bitAt_congr
    rw [Plane.row, Plane.setRow, if_neg hlt, Plane.row]

/-! ## The array as a whole -/

/-- A bit behind a row pointer, as a bit of the array. -/
theorem Plane.bitAt_row (p : Plane (BitVec 8)) (o t : Nat) :
    bitAt (p.row o) t = bitAt (p.row 0) (8 * o + t) := by
  have hbyte : (8 * o + t) / 8 = o + t / 8 := by omega
  have hbit : (8 * o + t) % 8 = t % 8 := by omega
  rw [bitAt, bitAt, hbyte, hbit, Plane.row, Plane.row, Int.zero_add, Int.natCast_add]

/-- The bits of the array after the memory behind a row pointer has become `v`. -/
theorem Plane.bitAt_setRow (p : Plane (BitVec 8)) (o : Nat) (v : Mem (BitVec 8)) (t : Nat) :
    bitAt ((p.setRow o v).row 0) t =
      if 8 * o ≤ t then bitAt v (t - 8 * o) else bitAt (p.row 0) t := by
  by_cases h : 8 * o ≤ t
  · have hback := Plane.bitAt_row (p.setRow o v) o (t - 8 * o)
    rw [Plane.row_setRow, Nat.add_sub_cancel' h] at hback
    rw [if_pos h, hback]
  · rw [if_neg h]
    apply bitAt_congr
    rw [Plane.row, Plane.setRow, if_neg (by omega), Plane.row]

end ByteMemory
