import FreeModbus.BitWrites
import FreeModbus.Lib.CheckedMemory

/-!
# Which bytes a bit access touches

The bit functions and their loops with checked accesses.  The array behind the pointer
has `size` bytes, the data of the message `len`.  An access that falls outside ends the
program without a result.

A bit field is read and written through the byte it starts in and the byte behind that
one, needed or not.  So the last field of a range must not start in the last byte of the
array.  A read makes one turn more than it has whole bytes, which is one too many where
the count is a multiple of eight.
-/

namespace FreeModbus

open ByteMemory

/-! ## Bit fields -/

section Checked

variable (size len : Nat)

/-- The two bytes of a window as one word, low byte first. -/
def windowWord (lo hi : UChar) : UShort := lo.setWidth 16 ||| hi.setWidth 16 <<< 8

/-- The word of `xMBUtilSetBits` after the field was set in it. -/
def setField (usWord : UShort) (usNPreBits ucNBits : Nat) (ucValue : UChar) : UShort :=
  let usValue : UShort := ucValue.setWidth 16 <<< usNPreBits
  let usMask : UShort := BitVec.ofNat 16 ((1 <<< ucNBits) - 1) <<< usNPreBits
  (usWord &&& ~~~usMask) ||| usValue

/-- `xMBUtilSetBits(&ucByteBuf[k], ...)`. -/
def xMBUtilSetBitsIn (ucByteBuf : Buf) (k usBitOffset ucNBits : Nat) (ucValue : UChar) :
    Option Buf :=
  let usByteOffset := usBitOffset / 8
  let usNPreBits := usBitOffset - usByteOffset * 8
  (ucByteBuf.readIn size (k + usByteOffset)).bind fun lo =>
  (ucByteBuf.readIn size (k + (usByteOffset + 1))).bind fun hi =>
  let usWordBuf := setField (windowWord lo hi) usNPreBits ucNBits ucValue
  (ucByteBuf.writeIn size (k + usByteOffset) ((usWordBuf &&& 0xFF).setWidth 8)).bind fun buf =>
  Mem.writeIn size buf (k + (usByteOffset + 1)) ((usWordBuf >>> 8).setWidth 8)

/-- `xMBUtilGetBits(&ucByteBuf[k], ...)`. -/
def xMBUtilGetBitsIn (ucByteBuf : Buf) (k usBitOffset ucNBits : Nat) : Option UChar :=
  let usByteOffset := usBitOffset / 8
  let usNPreBits := usBitOffset - usByteOffset * 8
  let usMask : UShort := BitVec.ofNat 16 ((1 <<< ucNBits) - 1)
  (ucByteBuf.readIn size (k + usByteOffset)).bind fun lo =>
  (ucByteBuf.readIn size (k + (usByteOffset + 1))).map fun hi =>
  ((windowWord lo hi >>> usNPreBits) &&& usMask).setWidth 8

/-! ## Loops -/

/-- `readBits`. -/
def readBitsIn (pucBitBuf : Buf) (iRegBitIndex : Nat) :
    (iNReg iRegIndex : Nat) → Buf → (cur : Nat) → Option Buf
  | 0, _, pucRegBuffer, _ => some pucRegBuffer
  | iNReg + 1, iRegIndex, pucRegBuffer, cur =>
      (xMBUtilGetBitsIn size pucBitBuf iRegIndex iRegBitIndex 8).bind fun v =>
      (pucRegBuffer.writeIn len cur v).bind fun buf =>
      readBitsIn pucBitBuf iRegBitIndex iNReg (iRegIndex + 1) buf (cur + 1)

/-- `readBitsCB`. -/
def readBitsCBIn (pucBitBuf : Buf) (iRegIndex iRegBitIndex usNBits : Nat) (pucRegBuffer : Buf) :
    Option Buf :=
  let iNReg := usNBits / 8 + 1
  let last := iNReg - 1
  (readBitsIn size len pucBitBuf iRegBitIndex iNReg iRegIndex pucRegBuffer 0).bind fun buf =>
  (Mem.writeIn len buf last (buf last <<< (8 - usNBits % 8))).bind fun buf₁ =>
  Mem.writeIn len buf₁ last (buf₁ last >>> (8 - usNBits % 8))

/-- `writeBits`. -/
def writeBitsIn (pucRegBuffer : Buf) (iRegBitIndex : Nat) :
    (cnt iRegIndex : Nat) → Buf → (cur : Nat) → Option Buf
  | 0, _, pucBitBuf, _ => some pucBitBuf
  | cnt + 1, iRegIndex, pucBitBuf, cur =>
      (xMBUtilSetBitsIn size pucBitBuf iRegIndex iRegBitIndex 8 (pucRegBuffer cur)).bind fun bits =>
      writeBitsIn pucRegBuffer iRegBitIndex cnt (iRegIndex + 1) bits (cur + 1)

/-- `writeBitsCB`. -/
def writeBitsCBIn (pucRegBuffer : Buf) (iRegIndex iRegBitIndex usNBits : Nat) (pucBitBuf : Buf) :
    Option Buf :=
  let cnt := usNBits / 8
  (writeBitsIn size pucRegBuffer iRegBitIndex cnt iRegIndex pucBitBuf 0).bind fun bits =>
  if usNBits % 8 ≠ 0 then
    xMBUtilSetBitsIn size bits (iRegIndex + cnt) iRegBitIndex (usNBits % 8) (pucRegBuffer cnt)
  else some bits

end Checked

/-! ## What the checks ask for -/

section Spec

variable {size len : Nat}

/-- A field that starts in the byte at the pointer needs this byte and the next one. -/
theorem xMBUtilSetBitsIn_eq (b : Buf) (k : Nat) {o : Nat} (ho : o < 8) (n : Nat) (v : UChar) :
    xMBUtilSetBitsIn size b k o n v =
      onlyIf (k + 1 < size) (b.splice k (xMBUtilSetBits (b.at k) o n v)) := by
  have h0 : o / 8 = 0 := Nat.div_eq_of_lt ho
  simp only [xMBUtilSetBitsIn, Mem.readIn, Mem.writeIn, onlyIf_bind_onlyIf, xMBUtilSetBits,
    Mem.splice_update, Mem.splice_at, h0]
  exact onlyIf_congr (by omega)

theorem xMBUtilGetBitsIn_eq (b : Buf) (k : Nat) {o : Nat} (ho : o < 8) (n : Nat) :
    xMBUtilGetBitsIn size b k o n = onlyIf (k + 1 < size) (xMBUtilGetBits (b.at k) o n) := by
  have h0 : o / 8 = 0 := Nat.div_eq_of_lt ho
  simp only [xMBUtilGetBitsIn, Mem.readIn, onlyIf_map, onlyIf_bind_onlyIf, xMBUtilGetBits, h0]
  exact onlyIf_congr (by omega)

/-- The fields of a read, and the bytes they go to. -/
theorem readBitsIn_eq (bits : Buf) {o : Nat} (ho : o < 8) (n i : Nat) (buf : Buf) (cur : Nat) :
    readBitsIn size len bits o n i buf cur =
      onlyIf (n = 0 ∨ (i + n < size ∧ cur + n ≤ len)) (readBits bits o n i buf cur) := by
  induction n generalizing i buf cur with
  | zero => exact some_eq_onlyIf (Or.inl rfl)
  | succ n ih =>
    simp only [readBitsIn, xMBUtilGetBitsIn_eq bits i ho, Mem.writeIn, ih, onlyIf_bind_onlyIf]
    exact onlyIf_congr (by omega)

/-- A read needs the byte behind its last field, and room for one turn more than whole bytes. -/
theorem readBitsCBIn_eq (bits : Buf) (i : Nat) {o : Nat} (ho : o < 8) (n : Nat) (buf : Buf) :
    readBitsCBIn size len bits i o n buf =
      onlyIf (i + n / 8 + 1 < size ∧ n / 8 < len) (readBitsCB bits i o n buf) := by
  simp only [readBitsCBIn, readBitsIn_eq bits ho, Mem.writeIn, onlyIf_bind_onlyIf]
  exact onlyIf_congr (by omega)

theorem writeBitsIn_eq (buf : Buf) {o : Nat} (ho : o < 8) (n i : Nat) (bits : Buf) (cur : Nat) :
    writeBitsIn size buf o n i bits cur =
      onlyIf (n = 0 ∨ i + n < size) (writeBits buf o n i bits cur) := by
  induction n generalizing i bits cur with
  | zero => exact some_eq_onlyIf (Or.inl rfl)
  | succ n ih =>
    simp only [writeBitsIn, xMBUtilSetBitsIn_eq _ i ho, ih, onlyIf_bind_onlyIf]
    exact onlyIf_congr (by omega)

/-- A write needs the byte behind its last field. -/
theorem writeBitsCBIn_eq (buf : Buf) (i : Nat) {o : Nat} (ho : o < 8) {n : Nat} (hn : 1 ≤ n)
    (bits : Buf) :
    writeBitsCBIn size buf i o n bits =
      onlyIf (i + byteCount n < size) (writeBitsCB buf i o n bits) := by
  unfold byteCount
  by_cases h : n % 8 = 0
  · simp only [writeBitsCBIn, writeBitsCB, writeBitsIn_eq buf ho, h, ne_eq, not_true_eq_false,
      if_false, Option.bind_fun_some]
    exact onlyIf_congr (by omega)
  · simp only [writeBitsCBIn, writeBitsCB, writeBitsIn_eq buf ho, h, ne_eq, not_false_eq_true,
      if_true, xMBUtilSetBitsIn_eq _ _ ho, onlyIf_bind_onlyIf]
    exact onlyIf_congr (by omega)

end Spec

/-! ## Callbacks

The message buffer of a read is as long as the data of its reply. -/

/-- `eMBRegCoilsCB`. -/
def eMBRegCoilsCBIn (app : SlaveApp) (pucRegBuffer : Buf) (usAddress usNCoils : UShort)
    (eMode : MBRegisterMode) : Option (RegResult SlaveApp) :=
  let usAddress := usAddress - 1
  if inRange usAddress usNCoils sCoilStart sCoilNcoils then
    let iRegIndex := (usAddress.toNat - sCoilStart) / 8
    let iRegBitIndex := (usAddress.toNat - sCoilStart) % 8
    match eMode with
    | .read =>
        (readBitsCBIn (sCoilNcoils / 8) (byteCount usNCoils.toNat) app.ucSCoilBuf iRegIndex
          iRegBitIndex usNCoils.toNat pucRegBuffer).map fun buf =>
        { eStatus := .enoerr, pucRegBuffer := buf, app := app }
    | .write =>
        (writeBitsCBIn (sCoilNcoils / 8) pucRegBuffer iRegIndex iRegBitIndex usNCoils.toNat
          app.ucSCoilBuf).map fun bits =>
        { eStatus := .enoerr, pucRegBuffer := pucRegBuffer, app := { app with ucSCoilBuf := bits } }
  else some { eStatus := .enoreg, pucRegBuffer := pucRegBuffer, app := app }

/-- `eMBRegDiscreteCB`. -/
def eMBRegDiscreteCBIn (app : SlaveApp) (pucRegBuffer : Buf) (usAddress usNDiscrete : UShort) :
    Option (RegResult SlaveApp) :=
  let usAddress := usAddress - 1
  if inRange usAddress usNDiscrete sDiscreteInputStart sDiscreteInputNdiscretes then
    let iRegIndex := (usAddress.toNat - sDiscreteInputStart) / 8
    let iRegBitIndex := (usAddress.toNat - sDiscreteInputStart) % 8
    (readBitsCBIn (sDiscreteInputNdiscretes / 8) (byteCount usNDiscrete.toNat) app.ucSDiscInBuf
      iRegIndex iRegBitIndex usNDiscrete.toNat pucRegBuffer).map fun buf =>
    { eStatus := .enoerr, pucRegBuffer := buf, app := app }
  else some { eStatus := .enoreg, pucRegBuffer := pucRegBuffer, app := app }

/-- `eMBMasterRegCoilsCB`, inside the row of the destination address. -/
def eMBMasterRegCoilsCBIn (ucDestAddress : UChar) (app : MasterApp) (pucRegBuffer : Buf)
    (usAddress usNCoils : UShort) : Option (MBErrorCode × MasterApp) :=
  let o := rowOffset ucDestAddress (mCoilNcoils / 8)
  let usAddress := usAddress - 1
  if inRange usAddress usNCoils mCoilStart mCoilNcoils then
    let iRegIndex := (usAddress.toNat - mCoilStart) / 8
    let iRegBitIndex := (usAddress.toNat - mCoilStart) % 8
    (writeBitsCBIn (mCoilNcoils / 8) pucRegBuffer iRegIndex iRegBitIndex usNCoils.toNat
      (app.ucMCoilBuf.row o)).map fun row =>
    (.enoerr, { app with ucMCoilBuf := app.ucMCoilBuf.setRow o row })
  else some (.enoreg, app)

/-- `eMBMasterRegDiscreteCB`, inside the row of the destination address. -/
def eMBMasterRegDiscreteCBIn (ucDestAddress : UChar) (app : MasterApp) (pucRegBuffer : Buf)
    (usAddress usNDiscrete : UShort) : Option (MBErrorCode × MasterApp) :=
  let o := rowOffset ucDestAddress (mDiscreteInputNdiscretes / 8)
  let usAddress := usAddress - 1
  if inRange usAddress usNDiscrete mDiscreteInputStart mDiscreteInputNdiscretes then
    let iRegIndex := (usAddress.toNat - mDiscreteInputStart) / 8
    let iRegBitIndex := (usAddress.toNat - mDiscreteInputStart) % 8
    (writeBitsCBIn (mDiscreteInputNdiscretes / 8) pucRegBuffer iRegIndex iRegBitIndex
      usNDiscrete.toNat (app.ucMDiscInBuf.row o)).map fun row =>
    (.enoerr, { app with ucMDiscInBuf := app.ucMDiscInBuf.setRow o row })
  else some (.enoreg, app)

namespace BitRange

variable {size : Nat}

/-- The byte behind the last field of a read is in the array, and the count has bits left for
the last turn. -/
def ReadInside (r : BitRange size) : Prop :=
  r.start.toNat / 8 + r.count.toNat / 8 + 1 < size / 8 ∧ r.count.toNat % 8 ≠ 0

/-- The byte behind the last field of a write is in the array. -/
def WriteInside (r : BitRange size) : Prop :=
  r.start.toNat / 8 + byteCount r.count.toNat < size / 8

instance (r : BitRange size) : Decidable r.ReadInside := inferInstanceAs (Decidable (_ ∧ _))

instance (r : BitRange size) : Decidable r.WriteInside := inferInstanceAs (Decidable (_ < _))

/-- The last turn of a read has a byte in the reply exactly if there are bits left for it. -/
theorem div_lt_byteCount {n : Nat} : n / 8 < byteCount n ↔ n % 8 ≠ 0 := by
  unfold byteCount
  omega

end BitRange

section Callbacks

variable (slave : SlaveApp) (master : MasterApp) (k : UChar) (data : Buf)

/-- The checked callbacks compute what the callbacks do, for the ranges inside. -/
theorem eMBRegCoilsCBIn_read (r : BitRange sCoilNcoils) :
    eMBRegCoilsCBIn slave data (r.start + 1) r.count .read =
      onlyIf r.ReadInside (eMBRegCoilsCB slave data (r.start + 1) r.count .read) := by
  have hbit : r.start.toNat % 8 < 8 := Nat.mod_lt _ (by decide)
  rw [eMBRegCoilsCB_read slave data r.start r.count r.inRange]
  simp only [eMBRegCoilsCBIn, BitVec.add_sub_cancel, if_pos r.inRange, Nat.sub_zero,
    readBitsCBIn_eq _ _ hbit, onlyIf_map]
  exact onlyIf_congr (and_congr_right fun _ => BitRange.div_lt_byteCount)

theorem eMBRegCoilsCBIn_write (r : BitRange sCoilNcoils) :
    eMBRegCoilsCBIn slave data (r.start + 1) r.count .write =
      onlyIf r.WriteInside (eMBRegCoilsCB slave data (r.start + 1) r.count .write) := by
  have hbit : r.start.toNat % 8 < 8 := Nat.mod_lt _ (by decide)
  rw [eMBRegCoilsCB_write slave data r.start r.count r.inRange]
  simp only [eMBRegCoilsCBIn, BitVec.add_sub_cancel, if_pos r.inRange, Nat.sub_zero,
    writeBitsCBIn_eq _ _ hbit r.pos, onlyIf_map]
  rfl

theorem eMBRegDiscreteCBIn_eq (r : BitRange sDiscreteInputNdiscretes) :
    eMBRegDiscreteCBIn slave data (r.start + 1) r.count =
      onlyIf r.ReadInside (eMBRegDiscreteCB slave data (r.start + 1) r.count) := by
  have hbit : r.start.toNat % 8 < 8 := Nat.mod_lt _ (by decide)
  rw [eMBRegDiscreteCB_eq slave data r.start r.count r.inRange]
  simp only [eMBRegDiscreteCBIn, BitVec.add_sub_cancel, if_pos r.inRange, Nat.sub_zero,
    readBitsCBIn_eq _ _ hbit, onlyIf_map]
  exact onlyIf_congr (and_congr_right fun _ => BitRange.div_lt_byteCount)

theorem eMBMasterRegCoilsCBIn_eq (r : BitRange mCoilNcoils) :
    eMBMasterRegCoilsCBIn k master data (r.start + 1) r.count =
      onlyIf r.WriteInside (eMBMasterRegCoilsCB k master data (r.start + 1) r.count) := by
  have hbit : r.start.toNat % 8 < 8 := Nat.mod_lt _ (by decide)
  rw [eMBMasterRegCoilsCB_eq k master data r.inRange]
  simp only [eMBMasterRegCoilsCBIn, BitVec.add_sub_cancel, if_pos r.inRange, Nat.sub_zero,
    writeBitsCBIn_eq _ _ hbit r.pos, onlyIf_map]
  rfl

theorem eMBMasterRegDiscreteCBIn_eq (r : BitRange mDiscreteInputNdiscretes) :
    eMBMasterRegDiscreteCBIn k master data (r.start + 1) r.count =
      onlyIf r.WriteInside (eMBMasterRegDiscreteCB k master data (r.start + 1) r.count) := by
  have hbit : r.start.toNat % 8 < 8 := Nat.mod_lt _ (by decide)
  rw [eMBMasterRegDiscreteCB_eq k master data r.inRange]
  simp only [eMBMasterRegDiscreteCBIn, BitVec.add_sub_cancel, if_pos r.inRange, Nat.sub_zero,
    writeBitsCBIn_eq _ _ hbit r.pos, onlyIf_map]
  rfl

/-- The bit callbacks stay inside their arrays, and a read inside the data of its reply, for
exactly these ranges. -/
theorem bitAccess_iff (slaveCoils : BitRange sCoilNcoils)
    (slaveDiscretes : BitRange sDiscreteInputNdiscretes) (coils : BitRange mCoilNcoils)
    (discretes : BitRange mDiscreteInputNdiscretes) :
    ((eMBRegCoilsCBIn slave data (slaveCoils.start + 1) slaveCoils.count .read).isSome ↔
        slaveCoils.ReadInside) ∧
      ((eMBRegCoilsCBIn slave data (slaveCoils.start + 1) slaveCoils.count .write).isSome ↔
        slaveCoils.WriteInside) ∧
      ((eMBRegDiscreteCBIn slave data (slaveDiscretes.start + 1) slaveDiscretes.count).isSome ↔
        slaveDiscretes.ReadInside) ∧
      ((eMBMasterRegCoilsCBIn k master data (coils.start + 1) coils.count).isSome ↔
        coils.WriteInside) ∧
      ((eMBMasterRegDiscreteCBIn k master data (discretes.start + 1) discretes.count).isSome ↔
        discretes.WriteInside) := by
  rw [eMBRegCoilsCBIn_read, eMBRegCoilsCBIn_write, eMBRegDiscreteCBIn_eq,
    eMBMasterRegCoilsCBIn_eq, eMBMasterRegDiscreteCBIn_eq]
  exact ⟨onlyIf_isSome, onlyIf_isSome, onlyIf_isSome, onlyIf_isSome, onlyIf_isSome⟩

end Callbacks

/-- A read of all 64 coils reads the byte behind the array and writes a ninth byte. -/
theorem bitAccess_outside :
    ¬ ∀ (slave : SlaveApp) (master : MasterApp) (k : UChar) (data : Buf)
      (slaveCoils : BitRange sCoilNcoils) (slaveDiscretes : BitRange sDiscreteInputNdiscretes)
      (coils : BitRange mCoilNcoils) (discretes : BitRange mDiscreteInputNdiscretes),
      (eMBRegCoilsCBIn slave data (slaveCoils.start + 1) slaveCoils.count .read).isSome ∧
        (eMBRegCoilsCBIn slave data (slaveCoils.start + 1) slaveCoils.count .write).isSome ∧
        (eMBRegDiscreteCBIn slave data (slaveDiscretes.start + 1) slaveDiscretes.count).isSome ∧
        (eMBMasterRegCoilsCBIn k master data (coils.start + 1) coils.count).isSome ∧
        (eMBMasterRegDiscreteCBIn k master data (discretes.start + 1) discretes.count).isSome := by
  intro h
  have hall := (h .initial .initial 1 (fun _ => 0) ⟨0, 64, by decide, by decide⟩
    ⟨0, 1, by decide, by decide⟩ ⟨0, 1, by decide, by decide⟩ ⟨0, 1, by decide, by decide⟩).1
  rw [eMBRegCoilsCBIn_read, onlyIf_isSome] at hall
  revert hall
  decide

end FreeModbus
