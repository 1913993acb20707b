import FreeModbus.CrcErrors

/-!
# The CRC bit by bit

CRC-16/MODBUS as its definition has it: a register of ones, each byte added into the
low half, eight right shifts, and the polynomial added where a one falls out.
`usMBCRC16` keeps the two halves of the register swapped and looks eight shifts up in
two tables.
-/

namespace FreeModbus

open ByteMemory FeedbackRegister

/-- One right shift of the register. -/
def crcShift (usCRC : UShort) : UShort :=
  if usCRC.getLsbD 0 then (usCRC >>> 1) ^^^ 0xA001 else usCRC >>> 1

/-- A byte is added into the low half of the register and shifted out. -/
def crcByte (usCRC : UShort) (ucByte : UChar) : UShort :=
  crcShift^[8] (usCRC ^^^ ucByte.setWidth 16)

/-- CRC-16/MODBUS of a sequence of bytes. -/
def crcBitwise (frame : List UChar) : UShort := frame.foldl crcByte 0xFFFF

theorem crcShift_eq : crcShift = shift crcPoly := rfl

/-- A byte absorbed as a whole is its eight bits absorbed one by one. -/
theorem crcByte_eq_feedAll (usCRC : UShort) (b : UChar) :
    crcByte usCRC b = feedAll crcPoly usCRC (bitsOfByte b) := by
  rw [feedAll_eq_iterate crcPoly (by simp), bitsOfByte_length, word_bitsOfByte, crcByte,
    crcShift_eq]

/-- The two halves of the table loop are the register of the bitwise one. -/
theorem wordOf_foldl_usMBCRC16Step (frame : List UChar) (ucCRC : UChar × UChar) :
    wordOf (frame.foldl usMBCRC16Step ucCRC).1 (frame.foldl usMBCRC16Step ucCRC).2 =
      frame.foldl crcByte (wordOf ucCRC.1 ucCRC.2) := by
  induction frame generalizing ucCRC with
  | nil => rfl
  | cons b frame ih =>
    have hstep := wordOf_usMBCRC16Step ucCRC.1 ucCRC.2 b
    rw [← crcByte_eq_feedAll] at hstep
    rw [List.foldl_cons, List.foldl_cons, ih, hstep]

theorem usMBCRC16List_eq_crcBitwise (frame : List UChar) :
    usMBCRC16List frame = crcBitwise frame :=
  wordOf_foldl_usMBCRC16Step frame (0xFF, 0xFF)

/-- The two bytes of a CRC, low byte first. -/
theorem eq_crcBytes {x y : UChar} {usCRC16 : UShort} :
    [x, y] = crcBytes usCRC16 ↔
      x = usCRC16.setWidth 8 ∧ y = (usCRC16 >>> 8).setWidth 8 := by
  unfold crcBytes
  rw [setWidth_and_low]
  simp only [List.cons.injEq, and_true]

/-- The CRC by tables is the CRC by bits, and a sequence with two bytes behind it has the
CRC zero exactly if these are the low and the high byte of its own CRC. -/
theorem usMBCRC16_bitwise (pucFrame : Buf) (usLen : Nat) :
    usMBCRC16 pucFrame usLen = crcBitwise (slice pucFrame 0 usLen) ∧
      (usMBCRC16 pucFrame (usLen + 2) = 0 ↔
        pucFrame usLen = (usMBCRC16 pucFrame usLen).setWidth 8 ∧
        pucFrame (usLen + 1) = (usMBCRC16 pucFrame usLen >>> 8).setWidth 8) := by
  constructor
  · exact usMBCRC16List_eq_crcBitwise (slice pucFrame 0 usLen)
  · have hsplit : slice pucFrame 0 (usLen + 2) =
        slice pucFrame 0 usLen ++ [pucFrame usLen, pucFrame (usLen + 1)] := by
      rw [slice_add, slice_succ, slice_succ, slice_zero, Nat.zero_add]
    rw [usMBCRC16, hsplit, usMBCRC16List_eq_zero, eq_crcBytes]
    rfl

end FreeModbus
