import FreeModbus.Base

/-!
# Bit fields and error codes

`mbutils.c`.  A bit field is read and written through a word made of two
neighbouring bytes.  `bitAt_xMBUtilSetBits` and `getLsbD_xMBUtilGetBits` say what
that does to the buffer bit by bit.
-/

namespace FreeModbus

open ByteMemory

/-- The two bytes at `usByteOffset` as one word, low byte first. -/
def usWordBuf (ucByteBuf : Buf) (usByteOffset : Nat) : UShort :=
  (ucByteBuf usByteOffset).setWidth 16 ||| (ucByteBuf (usByteOffset + 1)).setWidth 16 <<< 8

/-- `xMBUtilSetBits`.  The value is ORed in without the mask. -/
def xMBUtilSetBits (ucByteBuf : Buf) (usBitOffset ucNBits : Nat) (ucValue : UChar) : Buf :=
  let usByteOffset := usBitOffset / 8
  let usNPreBits := usBitOffset - usByteOffset * 8
  let usValue : UShort := ucValue.setWidth 16 <<< usNPreBits
  let usMask : UShort := BitVec.ofNat 16 ((1 <<< ucNBits) - 1) <<< usNPreBits
  let usWord := (usWordBuf ucByteBuf usByteOffset &&& ~~~usMask) ||| usValue
  Function.update
    (Function.update ucByteBuf usByteOffset ((usWord &&& 0xFF).setWidth 8))
    (usByteOffset + 1) ((usWord >>> 8).setWidth 8)

/-- `xMBUtilGetBits`. -/
def xMBUtilGetBits (ucByteBuf : Buf) (usBitOffset ucNBits : Nat) : UChar :=
  let usByteOffset := usBitOffset / 8
  let usNPreBits := usBitOffset - usByteOffset * 8
  let usMask : UShort := BitVec.ofNat 16 ((1 <<< ucNBits) - 1)
  ((usWordBuf ucByteBuf usByteOffset >>> usNPreBits) &&& usMask).setWidth 8

/-- `prveMBError2Exception`. -/
def prveMBError2Exception : MBErrorCode → MBException
  | .enoerr => .none
  | .enoreg => .illegalDataAddress
  | .etimedout => .slaveBusy
  | _ => .slaveDeviceFailure

/-- The number of data bytes for `n` bits, as a `UCHAR`: the branch on `n & 7` of the
coil and discrete functions. -/
def ucNBytes (n : UShort) : UChar :=
  if n &&& 0x0007 ≠ 0 then (n / 8 + 1).setWidth 8 else (n / 8).setWidth 8

/-! ## Bits of the window -/

theorem getLsbD_usWordBuf (b : Buf) (q : Nat) {i : Nat} (hi : i < 16) :
    (usWordBuf b q).getLsbD i = bitAt b (8 * q + i) := by
  unfold usWordBuf
  by_cases h : i < 8
  · rw [bitAt_mul_add b q h]
    simp [h, hi]
  · have hlow : (b q).getLsbD i = false := BitVec.getLsbD_of_ge _ _ (by omega)
    rw [show 8 * q + i = 8 * (q + 1) + (i - 8) by omega, bitAt_mul_add b (q + 1) (by omega)]
    simp [h, hi, hlow]

theorem getLsbD_mask (n : Nat) {i : Nat} (hi : i < 16) :
    (BitVec.ofNat 16 ((1 <<< n) - 1)).getLsbD i = decide (i < n) := by
  rw [Nat.one_shiftLeft, BitVec.getLsbD_ofNat, Nat.testBit_two_pow_sub_one]
  simp [hi]

theorem getLsbD_low {i : Nat} (hi : i < 8) : (0xFF : UShort).getLsbD i = true := by
  have h1 : (0xFF : UShort) = BitVec.ofNat 16 ((1 <<< 8) - 1) := rfl
  rw [h1, getLsbD_mask 8 (by omega)]
  simp [hi]

/-- The updated word: old bits outside the field, the value ORed in from its first bit. -/
theorem getLsbD_setWord (b : Buf) (q p n : Nat) (v : UChar) {i : Nat} (hi : i < 16) :
    ((usWordBuf b q &&& ~~~(BitVec.ofNat 16 ((1 <<< n) - 1) <<< p)) |||
      v.setWidth 16 <<< p).getLsbD i =
        ((bitAt b (8 * q + i) && !decide (p ≤ i ∧ i < p + n)) ||
          (decide (p ≤ i) && v.getLsbD (i - p))) := by
  rw [BitVec.getLsbD_or, BitVec.getLsbD_and, BitVec.getLsbD_not, BitVec.getLsbD_shiftLeft,
    BitVec.getLsbD_shiftLeft, getLsbD_usWordBuf b q hi, getLsbD_mask n (by omega)]
  by_cases h : p ≤ i
  · have hlt : decide (i - p < n) = decide (i < p + n) := decide_eq_decide.mpr (by omega)
    simp [h, hi, hlt, show ¬ i < p by omega, show i - p < 16 by omega]
  · simp [h, hi, show i < p by omega]

/-- The window of a field that starts in its first byte, in absolute bit numbers. -/
theorem getLsbD_setWindow (b : Buf) (o n : Nat) (v : UChar) {t : Nat} (ht : t < 16) :
    ((usWordBuf b (o / 8) &&&
        ~~~(BitVec.ofNat 16 ((1 <<< n) - 1) <<< (o - o / 8 * 8))) |||
          v.setWidth 16 <<< (o - o / 8 * 8)).getLsbD t =
      ((bitAt b (8 * (o / 8) + t) &&
          !decide (o ≤ 8 * (o / 8) + t ∧ 8 * (o / 8) + t < o + n)) ||
        (decide (o ≤ 8 * (o / 8) + t) && v.getLsbD (8 * (o / 8) + t - o))) := by
  have h1 : decide (o - o / 8 * 8 ≤ t ∧ t < o - o / 8 * 8 + n) =
      decide (o ≤ 8 * (o / 8) + t ∧ 8 * (o / 8) + t < o + n) :=
    decide_eq_decide.mpr (by omega)
  have h2 : decide (o - o / 8 * 8 ≤ t) = decide (o ≤ 8 * (o / 8) + t) :=
    decide_eq_decide.mpr (by omega)
  rw [getLsbD_setWord b _ _ n v ht, h1, h2,
    show t - (o - o / 8 * 8) = 8 * (o / 8) + t - o by omega]

/-- Setting `n` bits at offset `o` clears them and ORs the value in.  Bits of the value
above the field go into the bits behind it. -/
theorem bitAt_xMBUtilSetBits (b : Buf) (o n : Nat) (v : UChar) (hn : n ≤ 8) (i : Nat) :
    bitAt (xMBUtilSetBits b o n v) i =
      ((bitAt b i && !decide (o ≤ i ∧ i < o + n)) || (decide (o ≤ i) && v.getLsbD (i - o))) := by
  unfold xMBUtilSetBits
  by_cases h0 : i / 8 = o / 8
  · have hi : 8 * (o / 8) + i % 8 = i := by omega
    have h1 := getLsbD_setWindow b o n v (t := i % 8) (by omega)
    rw [hi] at h1
    rw [← h1, bitAt, h0, Function.update_of_ne (by omega), Function.update_self,
      BitVec.getLsbD_setWidth, BitVec.getLsbD_and, getLsbD_low (by omega)]
    simp [show i % 8 < 8 by omega]
  by_cases h8 : i / 8 = o / 8 + 1
  · have hi : 8 * (o / 8) + (8 + i % 8) = i := by omega
    have h1 := getLsbD_setWindow b o n v (t := 8 + i % 8) (by omega)
    rw [hi] at h1
    rw [← h1, bitAt, h8, Function.update_self, BitVec.getLsbD_setWidth,
      BitVec.getLsbD_ushiftRight]
    simp [show i % 8 < 8 by omega]
  · have hin : decide (o ≤ i ∧ i < o + n) = false := decide_eq_false (by omega)
    have hval : (decide (o ≤ i) && v.getLsbD (i - o)) = false := by
      by_cases h : o ≤ i
      · rw [BitVec.getLsbD_of_ge v (i - o) (by omega), Bool.and_false]
      · simp [h]
    rw [hin, hval, bitAt, Function.update_of_ne (by omega), Function.update_of_ne (by omega)]
    simp [bitAt]

/-- Setting a field whose value has no bits above it writes the field and nothing
else. -/
theorem bitAt_xMBUtilSetBits_of_fits {b : Buf} {o n : Nat} {v : UChar} (hn : n ≤ 8)
    (hv : ∀ j, n ≤ j → v.getLsbD j = false) (i : Nat) :
    bitAt (xMBUtilSetBits b o n v) i =
      if o ≤ i ∧ i < o + n then v.getLsbD (i - o) else bitAt b i := by
  rw [bitAt_xMBUtilSetBits b o n v hn i]
  by_cases h : o ≤ i ∧ i < o + n
  · simp [h]
  · by_cases ho : o ≤ i
    · simp [h, hv (i - o) (by omega)]
    · simp [ho]

/-- The `n` bits read at offset `o`. -/
theorem getLsbD_xMBUtilGetBits (b : Buf) (o n : Nat) {j : Nat} (hj : j < 8) :
    (xMBUtilGetBits b o n).getLsbD j = (decide (j < n) && bitAt b (o + j)) := by
  unfold xMBUtilGetBits
  rw [BitVec.getLsbD_setWidth, BitVec.getLsbD_and, BitVec.getLsbD_ushiftRight,
    getLsbD_usWordBuf b _ (by omega), getLsbD_mask n (by omega),
    show 8 * (o / 8) + (o - o / 8 * 8 + j) = o + j by omega]
  simp [hj, Bool.and_comm]

/-- The number of bytes fits a `UCHAR` below 2040 bits. -/
theorem toNat_ucNBytes {n : UShort} (h : n.toNat < 2040) :
    (ucNBytes n).toNat = byteCount n.toNat := by
  have hmod : (n &&& 0x0007).toNat = n.toNat % 8 := by
    rw [BitVec.toNat_and]
    exact Nat.and_two_pow_sub_one_eq_mod n.toNat 3
  have hdiv : (n / 8).toNat = n.toNat / 8 := by simp [BitVec.toNat_udiv]
  unfold ucNBytes byteCount
  by_cases h0 : n &&& 0x0007 = 0
  · have h1 : n.toNat % 8 = 0 := by rw [← hmod, h0]; rfl
    rw [if_neg (by simpa using h0), BitVec.toNat_setWidth, hdiv]
    omega
  · have h1 : n.toNat % 8 ≠ 0 := by
      rw [← hmod]
      intro hz
      exact h0 (BitVec.eq_of_toNat_eq hz)
    rw [if_pos h0, BitVec.toNat_setWidth, BitVec.toNat_add, hdiv]
    have hone : (1 : UShort).toNat = 1 := rfl
    rw [hone]
    omega

theorem ucNBytes_eq {n : UShort} (h : n.toNat < 2040) :
    ucNBytes n = BitVec.ofNat 8 (byteCount n.toNat) := by
  apply BitVec.eq_of_toNat_eq
  rw [toNat_ucNBytes h, BitVec.toNat_ofNat]
  unfold byteCount
  omega

/-- The byte count of `n` registers, truncated to a `UCHAR`. -/
theorem setWidth_mul_two (n : UShort) : (n * 2).setWidth 8 = BitVec.ofNat 8 (2 * n.toNat) := by
  apply BitVec.eq_of_toNat_eq
  have htwo : (2 : UShort).toNat = 2 := rfl
  rw [BitVec.toNat_setWidth, BitVec.toNat_mul, BitVec.toNat_ofNat, htwo]
  omega

end FreeModbus
