import FreeModbus.BitBounds
import FreeModbus.Lib.Window

/-!
# Bit fields as a lens

`xMBUtilSetBits` and `xMBUtilGetBits` go through a word made of two bytes, whatever part
of it the field covers.  As bits of the buffer they write and read a window, so they obey
the laws of one: for fields inside a byte, across two bytes, and empty ones alike.

The laws are those of the checked functions, for fields whose two bytes are in the buffer,
and for values that fit the field.
-/

namespace FreeModbus

open ByteMemory

section Lens

variable {size o n : Nat} {buf : Buf} {v w : UChar}

/-! ## Values -/

/-- A value that fits a field has no bits behind it. -/
theorem getLsbD_of_fits (hv : v.toNat < 2 ^ n) {j : Nat} (hj : n ≤ j) : v.getLsbD j = false := by
  rw [BitVec.getLsbD]
  exact Nat.testBit_lt_two_pow (Nat.lt_of_lt_of_le hv (Nat.pow_le_pow_right Nat.two_pos hj))

/-- The value of a field fits it. -/
theorem xMBUtilGetBits_fits (buf : Buf) (o n : Nat) :
    (xMBUtilGetBits buf o n).toNat < 2 ^ n := by
  refine Nat.lt_pow_two_of_testBit _ fun j hj => ?_
  rw [BitVec.testBit_toNat]
  by_cases h8 : j < 8
  · rw [getLsbD_xMBUtilGetBits buf o n h8, decide_eq_false (Nat.not_lt.mpr hj), Bool.false_and]
  · exact BitVec.getLsbD_of_ge _ _ (Nat.not_lt.mp h8)

/-! ## Windows -/

/-- Memory is what its bits are. -/
theorem buf_ext {a b : Buf} (h : bitAt a = bitAt b) : a = b := by
  funext k
  apply BitVec.eq_of_getLsbD_eq
  intro j hj
  rw [← bitAt_mul_add a k hj, ← bitAt_mul_add b k hj, h]

theorem bitAt_setBits (buf : Buf) (o : Nat) (hn : n ≤ 8) (hv : v.toNat < 2 ^ n) :
    bitAt (xMBUtilSetBits buf o n v) = Window.put (bitAt buf) o n v.getLsbD := by
  funext i
  exact bitAt_xMBUtilSetBits_of_fits hn (fun j => getLsbD_of_fits hv) i

theorem getLsbD_getBits (buf : Buf) (o : Nat) (hn : n ≤ 8) {j : Nat} (hj : j < n) :
    (xMBUtilGetBits buf o n).getLsbD j = Window.get (bitAt buf) o j := by
  rw [getLsbD_xMBUtilGetBits buf o n (Nat.lt_of_lt_of_le hj hn), decide_eq_true hj, Bool.true_and]
  rfl

/-! ## Laws -/

theorem getBits_setBits (hn : n ≤ 8) (hv : v.toNat < 2 ^ n) :
    xMBUtilGetBits (xMBUtilSetBits buf o n v) o n = v := by
  apply BitVec.eq_of_getLsbD_eq
  intro j h8
  by_cases hj : j < n
  · rw [getLsbD_getBits _ o hn hj, bitAt_setBits buf o hn hv, Window.get_put hj]
  · rw [getLsbD_of_fits (xMBUtilGetBits_fits _ o n) (Nat.not_lt.mp hj),
      getLsbD_of_fits hv (Nat.not_lt.mp hj)]

theorem setBits_getBits (hn : n ≤ 8) : xMBUtilSetBits buf o n (xMBUtilGetBits buf o n) = buf := by
  apply buf_ext
  rw [bitAt_setBits buf o hn (xMBUtilGetBits_fits buf o n)]
  exact Window.put_get fun j hj => getLsbD_getBits buf o hn hj

theorem setBits_setBits (hn : n ≤ 8) (hv : v.toNat < 2 ^ n) (hw : w.toNat < 2 ^ n) :
    xMBUtilSetBits (xMBUtilSetBits buf o n v) o n w = xMBUtilSetBits buf o n w := by
  apply buf_ext
  rw [bitAt_setBits _ o hn hw, bitAt_setBits _ o hn hv, bitAt_setBits _ o hn hw, Window.put_put]

theorem setBits_comm {p m : Nat} {u : UChar} (hn : n ≤ 8) (hv : v.toNat < 2 ^ n) (hm : m ≤ 8)
    (hu : u.toNat < 2 ^ m) (h : Disjoint (Set.Ico o (o + n)) (Set.Ico p (p + m))) :
    xMBUtilSetBits (xMBUtilSetBits buf o n v) p m u =
      xMBUtilSetBits (xMBUtilSetBits buf p m u) o n v := by
  apply buf_ext
  rw [bitAt_setBits _ p hm hu, bitAt_setBits _ o hn hv, bitAt_setBits _ o hn hv,
    bitAt_setBits _ p hm hu, Window.put_comm h]

/-! ## Checked access -/

theorem setBitsIn_eq (hin : o / 8 + 1 < size) (buf : Buf) (n : Nat) (v : UChar) :
    xMBUtilSetBitsIn size buf 0 o n v = some (xMBUtilSetBits buf o n v) := by
  have hlo : o / 8 < size := Nat.lt_of_succ_lt hin
  simp only [xMBUtilSetBitsIn, Mem.readIn, Mem.writeIn, Nat.zero_add, onlyIf_pos hlo,
    onlyIf_pos hin, Option.bind_some]
  rfl

theorem getBitsIn_eq (hin : o / 8 + 1 < size) (buf : Buf) (n : Nat) :
    xMBUtilGetBitsIn size buf 0 o n = some (xMBUtilGetBits buf o n) := by
  have hlo : o / 8 < size := Nat.lt_of_succ_lt hin
  simp only [xMBUtilGetBitsIn, Mem.readIn, Nat.zero_add, onlyIf_pos hlo, onlyIf_pos hin,
    Option.bind_some, Option.map_some]
  rfl

/-- Get and set of a field whose two bytes are in the buffer are a lawful lens, whose sets commute
with those of disjoint fields. -/
theorem bits_lens (size : Nat) (buf : Buf) (o n : Nat) (v w : UChar) (hin : o / 8 + 1 < size)
    (hn : n ≤ 8) (hv : v.toNat < 2 ^ n) (hw : w.toNat < 2 ^ n) :
    ((xMBUtilSetBitsIn size buf 0 o n v).bind fun b => xMBUtilGetBitsIn size b 0 o n) = some v ∧
    ((xMBUtilGetBitsIn size buf 0 o n).bind fun x => xMBUtilSetBitsIn size buf 0 o n x) =
      some buf ∧
    ((xMBUtilSetBitsIn size buf 0 o n v).bind fun b => xMBUtilSetBitsIn size b 0 o n w) =
      xMBUtilSetBitsIn size buf 0 o n w ∧
    (∃ b, xMBUtilSetBitsIn size buf 0 o n v = some b ∧
      ∀ i, i ∉ Set.Ico o (o + n) → bitAt b i = bitAt buf i) ∧
    ∀ (p m : Nat) (u : UChar), p / 8 + 1 < size → m ≤ 8 → u.toNat < 2 ^ m →
      Disjoint (Set.Ico o (o + n)) (Set.Ico p (p + m)) →
      ((xMBUtilSetBitsIn size buf 0 o n v).bind fun b => xMBUtilSetBitsIn size b 0 p m u) =
        (xMBUtilSetBitsIn size buf 0 p m u).bind fun b => xMBUtilSetBitsIn size b 0 o n v := by
  simp only [setBitsIn_eq hin, getBitsIn_eq hin, Option.bind_some]
  refine ⟨congrArg some (getBits_setBits hn hv), congrArg some (setBits_getBits hn),
    congrArg some (setBits_setBits hn hv hw), ⟨_, rfl, fun i hi => ?_⟩, ?_⟩
  · rw [bitAt_setBits buf o hn hv]
    exact Window.put_outside hi
  · intro p m u hp hm hu hdis
    simp only [setBitsIn_eq hp, Option.bind_some]
    exact congrArg some (setBits_comm hn hv hm hu hdis)

end Lens

/-- A field of five bits across the two bytes of a buffer, and one of two bits behind it. -/
theorem bits_lens_straddling :
    ((xMBUtilSetBitsIn 3 (fun _ => 0xFF) 0 6 5 0x13).bind fun b =>
        xMBUtilGetBitsIn 3 b 0 6 5) = some 0x13 ∧
      ((xMBUtilSetBitsIn 3 (fun _ => 0xFF) 0 6 5 0x13).bind fun b =>
          xMBUtilSetBitsIn 3 b 0 11 2 0x01) =
        (xMBUtilSetBitsIn 3 (fun _ => 0xFF) 0 11 2 0x01).bind fun b =>
          xMBUtilSetBitsIn 3 b 0 6 5 0x13 := by
  have h := bits_lens 3 (fun _ => 0xFF) 6 5 0x13 0 (by decide) (by decide) (by decide) (by decide)
  have hdis : Disjoint (Set.Ico 6 (6 + 5)) (Set.Ico 11 (11 + 2)) :=
    Set.disjoint_left.mpr fun i hi hi' => Nat.not_lt.mpr hi'.1 hi.2
  exact ⟨h.1, h.2.2.2.2 11 2 0x01 (by decide) (by decide) (by decide) hdis⟩

end FreeModbus
