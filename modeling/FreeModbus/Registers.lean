import FreeModbus.Utils

/-!
# The loops of the register callbacks

The callbacks of `user_mb_app.c` and `user_mb_app_m.c` move items between a
register array and a message buffer by the same four loops: registers and bits,
each out of the array and into it.  A loop is a recursion on the count the
source counts down, with the pointers it advances as indices.

For each loop one lemma gives the result item by item.  A bit loop moves whole
bytes and treats the bits of the last byte apart, so its lemma is about bits.
-/

namespace FreeModbus

open ByteMemory

/-- The range check of the callbacks, computed in `int`. -/
abbrev inRange (usAddress usN : UShort) (start size : Nat) : Prop :=
  start ≤ usAddress.toNat ∧ usAddress.toNat + usN.toNat ≤ start + size

/-! ## Registers -/

/-- `while (usNRegs > 0)` of a register read, from array to buffer. -/
def readRegs (pusRegBuf : Mem UShort) : (usNRegs iRegIndex : Nat) → Buf → (cur : Nat) → Buf
  | 0, _, pucRegBuffer, _ => pucRegBuffer
  | usNRegs + 1, iRegIndex, pucRegBuffer, cur =>
      let buf₁ := Function.update pucRegBuffer cur ((pusRegBuf iRegIndex >>> 8).setWidth 8)
      let buf₂ := Function.update buf₁ (cur + 1) ((pusRegBuf iRegIndex &&& 0xFF).setWidth 8)
      readRegs pusRegBuf usNRegs (iRegIndex + 1) buf₂ (cur + 2)

/-- `while (usNRegs > 0)` of a register write, from buffer to array. -/
def writeRegs (pucRegBuffer : Buf) :
    (usNRegs iRegIndex : Nat) → Mem UShort → (cur : Nat) → Mem UShort
  | 0, _, pusRegBuf, _ => pusRegBuf
  | usNRegs + 1, iRegIndex, pusRegBuf, cur =>
      let pusRegBuf' :=
        Function.update pusRegBuf iRegIndex (wordOf (pucRegBuffer cur) (pucRegBuffer (cur + 1)))
      writeRegs pucRegBuffer usNRegs (iRegIndex + 1) pusRegBuf' (cur + 2)

/-- The low byte of a word, taken with a mask. -/
theorem setWidth_and_low (w : UShort) : (w &&& 0xFF).setWidth 8 = w.setWidth 8 := by
  apply BitVec.eq_of_getLsbD_eq
  intro i hi
  rw [BitVec.getLsbD_setWidth, BitVec.getLsbD_setWidth, BitVec.getLsbD_and, getLsbD_low hi,
    Bool.and_true]

theorem readRegs_outside (regs : Mem UShort) : ∀ (n i : Nat) (buf : Buf) (k : Nat) {j : Nat},
    (j < k ∨ k + 2 * n ≤ j) → readRegs regs n i buf k j = buf j
  | 0, _, _, _, _, _ => rfl
  | n + 1, i, buf, k, j, h => by
      rw [readRegs, readRegs_outside regs n (i + 1) _ (k + 2) (by omega),
        Function.update_of_ne (by omega), Function.update_of_ne (by omega)]

/-- A register read packs the registers into the buffer. -/
theorem slice_readRegs (regs : Mem UShort) : ∀ (n i : Nat) (buf : Buf) (k : Nat),
    slice (readRegs regs n i buf k) k (2 * n) = packWords n fun j => regs (i + j)
  | 0, _, _, _ => rfl
  | n + 1, i, buf, k => by
      rw [packWords_succ, readRegs, Nat.mul_succ, Nat.add_comm (2 * n), slice_add,
        slice_readRegs regs n (i + 1) _ (k + 2)]
      congr 1
      · rw [slice_succ, slice_succ, slice_zero, readRegs_outside _ _ _ _ _ (by omega),
          readRegs_outside _ _ _ _ _ (by omega), Function.update_of_ne (by omega),
          Function.update_self, Function.update_self, setWidth_and_low]
        rfl
      · simp only [Nat.add_assoc, Nat.add_comm 1]

/-- A register write puts the words of the buffer into the addressed registers. -/
theorem writeRegs_apply (buf : Buf) : ∀ (n i : Nat) (regs : Mem UShort) (k j : Nat),
    writeRegs buf n i regs k j =
      if i ≤ j ∧ j < i + n then wordAt buf (k + 2 * (j - i)) else regs j
  | 0, i, regs, k, j => by
      rw [if_neg (by omega)]
      rfl
  | n + 1, i, regs, k, j => by
      rw [writeRegs, writeRegs_apply buf n (i + 1)]
      by_cases hj : j = i
      · subst hj
        rw [if_neg (by omega), if_pos (by omega), Function.update_self, Nat.sub_self]
        rfl
      · rw [Function.update_of_ne hj]
        by_cases h : i + 1 ≤ j ∧ j < i + 1 + n
        · rw [if_pos h, if_pos (by omega),
            show k + 2 + 2 * (j - (i + 1)) = k + 2 * (j - i) by omega]
        · rw [if_neg h, if_neg (by omega)]

/-- A register write changes nothing exactly if every register holds its word already. -/
theorem writeRegs_eq_self {buf : Buf} {n i : Nat} {regs : Mem UShort} :
    writeRegs buf n i regs 0 = regs ↔ ∀ j < n, wordAt buf (2 * j) = regs (i + j) := by
  constructor
  · intro h j hj
    have h1 := congrFun h (i + j)
    rwa [writeRegs_apply, if_pos ⟨Nat.le_add_right i j, Nat.add_lt_add_left hj i⟩, Nat.zero_add,
      Nat.add_sub_cancel_left] at h1
  · intro h
    funext j
    rw [writeRegs_apply]
    split
    · rename_i hin
      have h1 := h (j - i) (by omega)
      rwa [Nat.add_sub_cancel' hin.1, ← Nat.zero_add (2 * (j - i))] at h1
    · rfl

/-! ## Bits -/

/-- `while (iNReg > 0)` of a coil or discrete read, from array to buffer. -/
def readBits (pucBitBuf : Buf) (iRegBitIndex : Nat) :
    (iNReg iRegIndex : Nat) → Buf → (cur : Nat) → Buf
  | 0, _, pucRegBuffer, _ => pucRegBuffer
  | iNReg + 1, iRegIndex, pucRegBuffer, cur =>
      let buf' :=
        Function.update pucRegBuffer cur (xMBUtilGetBits (pucBitBuf.at iRegIndex) iRegBitIndex 8)
      readBits pucBitBuf iRegBitIndex iNReg (iRegIndex + 1) buf' (cur + 1)

/-- A coil or discrete read: the loop, then zeros in the high bits of the last byte
it wrote. -/
def readBitsCB (pucBitBuf : Buf) (iRegIndex iRegBitIndex usNBits : Nat) (pucRegBuffer : Buf) :
    Buf :=
  let iNReg := usNBits / 8 + 1
  let buf := readBits pucBitBuf iRegBitIndex iNReg iRegIndex pucRegBuffer 0
  let last := iNReg - 1
  let buf₁ := Function.update buf last (buf last <<< (8 - usNBits % 8))
  Function.update buf₁ last (buf₁ last >>> (8 - usNBits % 8))

/-- `while (iNReg > 1)` of a coil or discrete write, from buffer to array.  `cnt` is
`iNReg - 1`. -/
def writeBits (pucRegBuffer : Buf) (iRegBitIndex : Nat) :
    (cnt iRegIndex : Nat) → Buf → (cur : Nat) → Buf
  | 0, _, pucBitBuf, _ => pucBitBuf
  | cnt + 1, iRegIndex, pucBitBuf, cur =>
      let pucBitBuf' := pucBitBuf.splice iRegIndex
        (xMBUtilSetBits (pucBitBuf.at iRegIndex) iRegBitIndex 8 (pucRegBuffer cur))
      writeBits pucRegBuffer iRegBitIndex cnt (iRegIndex + 1) pucBitBuf' (cur + 1)

/-- A coil or discrete write: the loop over whole bytes, then the bits that are left,
if any. -/
def writeBitsCB (pucRegBuffer : Buf) (iRegIndex iRegBitIndex usNBits : Nat) (pucBitBuf : Buf) :
    Buf :=
  let cnt := usNBits / 8
  let bits := writeBits pucRegBuffer iRegBitIndex cnt iRegIndex pucBitBuf 0
  if usNBits % 8 ≠ 0 then
    bits.splice (iRegIndex + cnt)
      (xMBUtilSetBits (bits.at (iRegIndex + cnt)) iRegBitIndex (usNBits % 8) (pucRegBuffer cnt))
  else bits

theorem bitAt_update (b : Buf) (k : Nat) (v : UChar) (t : Nat) :
    bitAt (Function.update b k v) t = if t / 8 = k then v.getLsbD (t % 8) else bitAt b t := by
  by_cases h : t / 8 = k
  · subst h
    simp [bitAt]
  · rw [if_neg h, bitAt, Function.update_of_ne h, bitAt]

theorem bitAt_readBits (bits : Buf) (o : Nat) : ∀ (n i : Nat) (buf : Buf) (k t : Nat),
    bitAt (readBits bits o n i buf k) t =
      if 8 * k ≤ t ∧ t < 8 * (k + n) then bitAt bits (8 * i + o + (t - 8 * k)) else bitAt buf t
  | 0, i, buf, k, t => by
      rw [if_neg (by omega)]
      rfl
  | n + 1, i, buf, k, t => by
      rw [readBits, bitAt_readBits bits o n (i + 1), bitAt_update]
      by_cases hk : t / 8 = k
      · rw [if_neg (by omega), if_pos hk, if_pos (by omega),
          getLsbD_xMBUtilGetBits _ _ _ (by omega), bitAt_at,
          show 8 * i + (o + t % 8) = 8 * i + o + (t - 8 * k) by omega]
        simp [show t % 8 < 8 by omega]
      · rw [if_neg hk]
        by_cases h : 8 * (k + 1) ≤ t ∧ t < 8 * (k + 1 + n)
        · rw [if_pos h, if_pos (by omega),
            show 8 * (i + 1) + o + (t - 8 * (k + 1)) = 8 * i + o + (t - 8 * k) by omega]
        · rw [if_neg h, if_neg (by omega)]

/-- A bit read puts the bits into the buffer and zeros behind them. -/
theorem bitAt_readBitsCB (bits : Buf) (i o n : Nat) (buf : Buf) (t : Nat) :
    bitAt (readBitsCB bits i o n buf) t =
      if t < 8 * (n / 8 + 1) then (decide (t < n) && bitAt bits (8 * i + o + t))
      else bitAt buf t := by
  have hr := bitAt_readBits bits o (n / 8 + 1) i buf 0
  simp only [readBitsCB, Nat.add_sub_cancel, Function.update_self, Function.update_idem]
  rw [bitAt_update]
  by_cases hlast : t / 8 = n / 8
  · have h1 := hr t
    rw [if_pos (by omega), Nat.mul_zero, Nat.sub_zero] at h1
    have hbyte : (readBits bits o (n / 8 + 1) i buf 0 (n / 8)).getLsbD (t % 8) =
        bitAt bits (8 * i + o + t) := by
      rw [← h1, bitAt, hlast]
    rw [if_pos hlast, if_pos (by omega), BitVec.getLsbD_ushiftRight, BitVec.getLsbD_shiftLeft,
      show 8 - n % 8 + t % 8 - (8 - n % 8) = t % 8 by omega, hbyte]
    have hlt : decide (8 - n % 8 + t % 8 < 8) = decide (t < n) :=
      decide_eq_decide.mpr (by omega)
    rw [hlt]
    simp
  · rw [if_neg hlast, hr t]
    by_cases h : t < 8 * (n / 8 + 1)
    · simp [h, show t < n by omega]
    · simp [h]

/-- A bit read packs the bits into the buffer. -/
theorem slice_readBitsCB (bits : Buf) (i o n : Nat) (buf : Buf) :
    slice (readBitsCB bits i o n buf) 0 (byteCount n) =
      packBits n fun t => bitAt bits (8 * i + o + t) := by
  apply slice_eq_packBits
  intro t ht
  have hcount : byteCount n ≤ n / 8 + 1 := by unfold byteCount; omega
  rw [Nat.mul_zero, Nat.zero_add, bitAt_readBitsCB, if_pos (by omega)]

/-- One field set through a pointer into the array.  What the value has above the field is ORed
into the bits behind it. -/
theorem bitAt_setBits_or {bits : Buf} {i o n : Nat} {v : UChar} (hn : n ≤ 8) (t : Nat) :
    bitAt (bits.splice i (xMBUtilSetBits (bits.at i) o n v)) t =
      if t < 8 * i + o then bitAt bits t
      else if t < 8 * i + o + n then v.getLsbD (t - (8 * i + o))
      else (bitAt bits t || v.getLsbD (t - (8 * i + o))) := by
  by_cases hi : t < 8 * i
  · rw [bitAt_splice_lt hi, if_pos (by omega)]
  · have hback : 8 * i + (t - 8 * i) = t := by omega
    have hpos : t - 8 * i - o = t - (8 * i + o) := by omega
    rw [bitAt_splice_ge (by omega), bitAt_xMBUtilSetBits _ _ _ _ hn, bitAt_at, hback, hpos]
    by_cases ho : t < 8 * i + o
    · have hout : ¬ o ≤ t - 8 * i := by omega
      simp [ho, hout]
    · have hin : o ≤ t - 8 * i := by omega
      by_cases hlt : t < 8 * i + o + n
      · have hfield : t - 8 * i < o + n := by omega
        simp [ho, hin, hlt, hfield]
      · have hfield : ¬ t - 8 * i < o + n := by omega
        simp [ho, hin, hlt, hfield]

/-- One field set through a pointer into the array. -/
theorem bitAt_setBits_at {bits : Buf} {i o n : Nat} {v : UChar} (hn : n ≤ 8)
    (hv : ∀ j, n ≤ j → v.getLsbD j = false) (t : Nat) :
    bitAt (bits.splice i (xMBUtilSetBits (bits.at i) o n v)) t =
      if 8 * i + o ≤ t ∧ t < 8 * i + o + n then v.getLsbD (t - (8 * i + o)) else bitAt bits t := by
  rw [bitAt_setBits_or hn]
  by_cases ho : t < 8 * i + o
  · rw [if_pos ho, if_neg (by omega)]
  · rw [if_neg ho]
    by_cases hlt : t < 8 * i + o + n
    · rw [if_pos hlt, if_pos (by omega)]
    · rw [if_neg hlt, if_neg (by omega), hv _ (by omega), Bool.or_false]

theorem bitAt_writeBits (buf : Buf) (o : Nat) : ∀ (cnt i : Nat) (bits : Buf) (k t : Nat),
    bitAt (writeBits buf o cnt i bits k) t =
      if 8 * i + o ≤ t ∧ t < 8 * i + o + 8 * cnt then bitAt buf (8 * k + (t - (8 * i + o)))
      else bitAt bits t
  | 0, i, bits, k, t => by
      rw [if_neg (by omega)]
      rfl
  | cnt + 1, i, bits, k, t => by
      have hv : ∀ j, 8 ≤ j → (buf k).getLsbD j = false := fun j hj => BitVec.getLsbD_of_ge _ j hj
      rw [writeBits, bitAt_writeBits buf o cnt (i + 1), bitAt_setBits_at (Nat.le_refl 8) hv]
      by_cases hfst : 8 * i + o ≤ t ∧ t < 8 * i + o + 8
      · rw [if_neg (by omega), if_pos hfst, if_pos (by omega), bitAt_mul_add buf k (by omega)]
      · rw [if_neg hfst]
        by_cases h : 8 * (i + 1) + o ≤ t ∧ t < 8 * (i + 1) + o + 8 * cnt
        · rw [if_pos h, if_pos (by omega),
            show 8 * (k + 1) + (t - (8 * (i + 1) + o)) = 8 * k + (t - (8 * i + o)) by omega]
        · rw [if_neg h, if_neg (by omega)]

/-- A bit write puts the bits of the buffer into the addressed bits.  The unused bits of the last
byte are ORed into the bits behind them. -/
theorem bitAt_writeBitsCB_or (buf : Buf) (i o n : Nat) (bits : Buf) (t : Nat) :
    bitAt (writeBitsCB buf i o n bits) t =
      if t < 8 * i + o then bitAt bits t
      else if t < 8 * i + o + n then bitAt buf (t - (8 * i + o))
      else (bitAt bits t ||
        (decide (t < 8 * i + o + 8 * byteCount n) && bitAt buf (t - (8 * i + o)))) := by
  have hw := bitAt_writeBits buf o (n / 8) i bits 0
  simp only [Nat.mul_zero, Nat.zero_add] at hw
  unfold writeBitsCB
  by_cases h0 : n % 8 = 0
  · have hcount : 8 * byteCount n = n := by unfold byteCount; omega
    rw [if_neg (not_not_intro h0), hw, hcount]
    by_cases ho : t < 8 * i + o
    · rw [if_pos ho, if_neg (by omega)]
    · by_cases hlt : t < 8 * i + o + n
      · rw [if_neg ho, if_pos hlt, if_pos (by omega)]
      · simp [ho, hlt, show ¬ t < 8 * i + o + 8 * (n / 8) by omega]
  · have hcount : byteCount n = n / 8 + 1 := by unfold byteCount; omega
    rw [if_pos h0, bitAt_setBits_or (by omega), hw, hcount]
    have hlast : 8 * i + o + 8 * (n / 8) ≤ t → t < 8 * i + o + 8 * (n / 8 + 1) →
        (buf (n / 8)).getLsbD (t - (8 * (i + n / 8) + o)) = bitAt buf (t - (8 * i + o)) := by
      intro h1 h2
      rw [← bitAt_mul_add buf (n / 8) (by omega)]
      congr 1
      omega
    by_cases hfst : t < 8 * (i + n / 8) + o
    · rw [if_pos hfst]
      by_cases ho : t < 8 * i + o
      · rw [if_neg (by omega), if_pos ho]
      · rw [if_pos (by omega), if_neg ho, if_pos (by omega)]
    · rw [if_neg hfst, if_neg (show ¬ t < 8 * i + o by omega)]
      by_cases hlt : t < 8 * i + o + n
      · rw [if_pos (by omega), if_pos hlt, hlast (by omega) (by omega)]
      · rw [if_neg (by omega), if_neg hlt, if_neg (by omega)]
        by_cases hend : t < 8 * i + o + 8 * (n / 8 + 1)
        · rw [hlast (by omega) hend]
          simp [hend]
        · have hpast : (buf (n / 8)).getLsbD (t - (8 * (i + n / 8) + o)) = false :=
            BitVec.getLsbD_of_ge _ _ (by omega)
          rw [hpast]
          simp [hend]

/-- A bit write puts the bits of the buffer into the addressed bits, provided the unused
bits of the last byte are zero. -/
theorem bitAt_writeBitsCB {buf : Buf} {n : Nat} (hpad : ∀ j, n ≤ j → j < 8 * byteCount n →
    bitAt buf j = false) (i o : Nat) (bits : Buf) (t : Nat) :
    bitAt (writeBitsCB buf i o n bits) t =
      if 8 * i + o ≤ t ∧ t < 8 * i + o + n then bitAt buf (t - (8 * i + o)) else bitAt bits t := by
  rw [bitAt_writeBitsCB_or]
  by_cases ho : t < 8 * i + o
  · rw [if_pos ho, if_neg (by omega)]
  · rw [if_neg ho]
    by_cases hlt : t < 8 * i + o + n
    · rw [if_pos hlt, if_pos (by omega)]
    · rw [if_neg hlt, if_neg (by omega)]
      by_cases hend : t < 8 * i + o + 8 * byteCount n
      · rw [hpad _ (by omega) (by omega), Bool.and_false, Bool.or_false]
      · simp [hend]

/-! ## What a write reads of the buffer -/

theorem writeRegs_congr {buf buf' : Buf} : ∀ {n : Nat} (i : Nat) (regs : Mem UShort) {k : Nat},
    (∀ j < 2 * n, buf (k + j) = buf' (k + j)) → writeRegs buf n i regs k = writeRegs buf' n i regs k
  | 0, _, _, _, _ => rfl
  | n + 1, i, regs, k, h => by
      have h0 : buf k = buf' k := h 0 (by omega)
      have h1 : buf (k + 1) = buf' (k + 1) := h 1 (by omega)
      rw [writeRegs, writeRegs, h0, h1]
      apply writeRegs_congr
      intro j hj
      have h2 := h (2 + j) (by omega)
      rwa [← Nat.add_assoc] at h2

theorem writeBits_congr {buf buf' : Buf} (o : Nat) : ∀ {cnt : Nat} (i : Nat) (bits : Buf) {k : Nat},
    (∀ j < cnt, buf (k + j) = buf' (k + j)) →
      writeBits buf o cnt i bits k = writeBits buf' o cnt i bits k
  | 0, _, _, _, _ => rfl
  | cnt + 1, i, bits, k, h => by
      have h0 : buf k = buf' k := h 0 (by omega)
      rw [writeBits, writeBits, h0]
      apply writeBits_congr
      intro j hj
      have h1 := h (1 + j) (by omega)
      rwa [← Nat.add_assoc] at h1

/-- A bit write reads as many bytes as the bits take. -/
theorem writeBitsCB_congr {buf buf' : Buf} {n : Nat} (h : AgreeBelow (byteCount n) buf buf')
    (i o : Nat) (bits : Buf) : writeBitsCB buf i o n bits = writeBitsCB buf' i o n bits := by
  have hle : n / 8 ≤ byteCount n := by unfold byteCount; omega
  have hw : writeBits buf o (n / 8) i bits 0 = writeBits buf' o (n / 8) i bits 0 := by
    apply writeBits_congr
    intro j hj
    simpa using h j (Nat.lt_of_lt_of_le hj hle)
  unfold writeBitsCB
  by_cases h0 : n % 8 = 0
  · simp only [h0, ne_eq, not_true_eq_false, if_false, hw]
  · have hlast : buf (n / 8) = buf' (n / 8) := h _ (by unfold byteCount; omega)
    simp only [ne_eq, h0, not_false_eq_true, if_true, hw, hlast]

end FreeModbus
