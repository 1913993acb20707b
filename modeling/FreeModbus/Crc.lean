import FreeModbus.Base

/-!
# The CRC of RTU frames

`mbcrc.c`: the register is kept as two swapped bytes, and each byte of the frame
is absorbed through two literal tables.
-/

namespace FreeModbus

open ByteMemory

/-- `aucCRCHi`. -/
def aucCRCHi : List UChar := [
  0x00, 0xC1, 0x81, 0x40, 0x01, 0xC0, 0x80, 0x41, 0x01, 0xC0, 0x80, 0x41, 0x00, 0xC1, 0x81, 0x40,
  0x01, 0xC0, 0x80, 0x41, 0x00, 0xC1, 0x81, 0x40, 0x00, 0xC1, 0x81, 0x40, 0x01, 0xC0, 0x80, 0x41,
  0x01, 0xC0, 0x80, 0x41, 0x00, 0xC1, 0x81, 0x40, 0x00, 0xC1, 0x81, 0x40, 0x01, 0xC0, 0x80, 0x41,
  0x00, 0xC1, 0x81, 0x40, 0x01, 0xC0, 0x80, 0x41, 0x01, 0xC0, 0x80, 0x41, 0x00, 0xC1, 0x81, 0x40,
  0x01, 0xC0, 0x80, 0x41, 0x00, 0xC1, 0x81, 0x40, 0x00, 0xC1, 0x81, 0x40, 0x01, 0xC0, 0x80, 0x41,
  0x00, 0xC1, 0x81, 0x40, 0x01, 0xC0, 0x80, 0x41, 0x01, 0xC0, 0x80, 0x41, 0x00, 0xC1, 0x81, 0x40,
  0x00, 0xC1, 0x81, 0x40, 0x01, 0xC0, 0x80, 0x41, 0x01, 0xC0, 0x80, 0x41, 0x00, 0xC1, 0x81, 0x40,
  0x01, 0xC0, 0x80, 0x41, 0x00, 0xC1, 0x81, 0x40, 0x00, 0xC1, 0x81, 0x40, 0x01, 0xC0, 0x80, 0x41,
  0x01, 0xC0, 0x80, 0x41, 0x00, 0xC1, 0x81, 0x40, 0x00, 0xC1, 0x81, 0x40, 0x01, 0xC0, 0x80, 0x41,
  0x00, 0xC1, 0x81, 0x40, 0x01, 0xC0, 0x80, 0x41, 0x01, 0xC0, 0x80, 0x41, 0x00, 0xC1, 0x81, 0x40,
  0x00, 0xC1, 0x81, 0x40, 0x01, 0xC0, 0x80, 0x41, 0x01, 0xC0, 0x80, 0x41, 0x00, 0xC1, 0x81, 0x40,
  0x01, 0xC0, 0x80, 0x41, 0x00, 0xC1, 0x81, 0x40, 0x00, 0xC1, 0x81, 0x40, 0x01, 0xC0, 0x80, 0x41,
  0x00, 0xC1, 0x81, 0x40, 0x01, 0xC0, 0x80, 0x41, 0x01, 0xC0, 0x80, 0x41, 0x00, 0xC1, 0x81, 0x40,
  0x01, 0xC0, 0x80, 0x41, 0x00, 0xC1, 0x81, 0x40, 0x00, 0xC1, 0x81, 0x40, 0x01, 0xC0, 0x80, 0x41,
  0x01, 0xC0, 0x80, 0x41, 0x00, 0xC1, 0x81, 0x40, 0x00, 0xC1, 0x81, 0x40, 0x01, 0xC0, 0x80, 0x41,
  0x00, 0xC1, 0x81, 0x40, 0x01, 0xC0, 0x80, 0x41, 0x01, 0xC0, 0x80, 0x41, 0x00, 0xC1, 0x81, 0x40]

/-- `aucCRCLo`. -/
def aucCRCLo : List UChar := [
  0x00, 0xC0, 0xC1, 0x01, 0xC3, 0x03, 0x02, 0xC2, 0xC6, 0x06, 0x07, 0xC7, 0x05, 0xC5, 0xC4, 0x04,
  0xCC, 0x0C, 0x0D, 0xCD, 0x0F, 0xCF, 0xCE, 0x0E, 0x0A, 0xCA, 0xCB, 0x0B, 0xC9, 0x09, 0x08, 0xC8,
  0xD8, 0x18, 0x19, 0xD9, 0x1B, 0xDB, 0xDA, 0x1A, 0x1E, 0xDE, 0xDF, 0x1F, 0xDD, 0x1D, 0x1C, 0xDC,
  0x14, 0xD4, 0xD5, 0x15, 0xD7, 0x17, 0x16, 0xD6, 0xD2, 0x12, 0x13, 0xD3, 0x11, 0xD1, 0xD0, 0x10,
  0xF0, 0x30, 0x31, 0xF1, 0x33, 0xF3, 0xF2, 0x32, 0x36, 0xF6, 0xF7, 0x37, 0xF5, 0x35, 0x34, 0xF4,
  0x3C, 0xFC, 0xFD, 0x3D, 0xFF, 0x3F, 0x3E, 0xFE, 0xFA, 0x3A, 0x3B, 0xFB, 0x39, 0xF9, 0xF8, 0x38,
  0x28, 0xE8, 0xE9, 0x29, 0xEB, 0x2B, 0x2A, 0xEA, 0xEE, 0x2E, 0x2F, 0xEF, 0x2D, 0xED, 0xEC, 0x2C,
  0xE4, 0x24, 0x25, 0xE5, 0x27, 0xE7, 0xE6, 0x26, 0x22, 0xE2, 0xE3, 0x23, 0xE1, 0x21, 0x20, 0xE0,
  0xA0, 0x60, 0x61, 0xA1, 0x63, 0xA3, 0xA2, 0x62, 0x66, 0xA6, 0xA7, 0x67, 0xA5, 0x65, 0x64, 0xA4,
  0x6C, 0xAC, 0xAD, 0x6D, 0xAF, 0x6F, 0x6E, 0xAE, 0xAA, 0x6A, 0x6B, 0xAB, 0x69, 0xA9, 0xA8, 0x68,
  0x78, 0xB8, 0xB9, 0x79, 0xBB, 0x7B, 0x7A, 0xBA, 0xBE, 0x7E, 0x7F, 0xBF, 0x7D, 0xBD, 0xBC, 0x7C,
  0xB4, 0x74, 0x75, 0xB5, 0x77, 0xB7, 0xB6, 0x76, 0x72, 0xB2, 0xB3, 0x73, 0xB1, 0x71, 0x70, 0xB0,
  0x50, 0x90, 0x91, 0x51, 0x93, 0x53, 0x52, 0x92, 0x96, 0x56, 0x57, 0x97, 0x55, 0x95, 0x94, 0x54,
  0x9C, 0x5C, 0x5D, 0x9D, 0x5F, 0x9F, 0x9E, 0x5E, 0x5A, 0x9A, 0x9B, 0x5B, 0x99, 0x59, 0x58, 0x98,
  0x88, 0x48, 0x49, 0x89, 0x4B, 0x8B, 0x8A, 0x4A, 0x4E, 0x8E, 0x8F, 0x4F, 0x8D, 0x4D, 0x4C, 0x8C,
  0x44, 0x84, 0x85, 0x45, 0x87, 0x47, 0x46, 0x86, 0x82, 0x42, 0x43, 0x83, 0x41, 0x81, 0x80, 0x40]

/-- One turn of the loop of `usMBCRC16` on the pair of `ucCRCHi` and `ucCRCLo`. -/
def usMBCRC16Step (ucCRC : UChar × UChar) (ucByte : UChar) : UChar × UChar :=
  let iIndex := (ucCRC.2 ^^^ ucByte).toNat
  (aucCRCLo.getD iIndex 0, ucCRC.1 ^^^ aucCRCHi.getD iIndex 0)

/-- `usMBCRC16` of a list of bytes. -/
def usMBCRC16List (frame : List UChar) : UShort :=
  let ucCRC := frame.foldl usMBCRC16Step (0xFF, 0xFF)
  wordOf ucCRC.1 ucCRC.2

/-- `usMBCRC16`. -/
def usMBCRC16 (pucFrame : Buf) (usLen : Nat) : UShort :=
  usMBCRC16List (slice pucFrame 0 usLen)

/-! ## The CRC behind a frame -/

/-- The two CRC bytes as they are sent, low byte first. -/
def crcBytes (usCRC16 : UShort) : List UChar :=
  [(usCRC16 &&& 0xFF).setWidth 8, (usCRC16 >>> 8).setWidth 8]

/-- A buffer in which address and CRC were written around a PDU holds the frame. -/
theorem holds_frame {b : Buf} {pdu : List UChar} (hpdu : b.Holds 1 pdu) (own : UChar) :
    (Mem.write (Function.update b 0 own) (1 + pdu.length)
      (crcBytes (usMBCRC16 (Function.update b 0 own) (1 + pdu.length)))).Holds 0
        ((own :: pdu) ++ crcBytes (usMBCRC16List (own :: pdu))) := by
  have hbody : Mem.Holds (Function.update b 0 own) 0 (own :: pdu) := by
    rw [Mem.holds_cons]
    refine ⟨Function.update_self .., hpdu.congr fun i _ => ?_⟩
    rw [Function.update_of_ne (by omega)]
  have hcrc : usMBCRC16 (Function.update b 0 own) (1 + pdu.length) =
      usMBCRC16List (own :: pdu) := by
    rw [Nat.add_comm]
    exact congrArg usMBCRC16List hbody
  rw [Mem.holds_append, hcrc]
  constructor
  · refine hbody.congr fun i hi => ?_
    rw [List.length_cons] at hi
    rw [Mem.write_outside _ _ _ (by omega)]
  · rw [Nat.zero_add, List.length_cons, Nat.add_comm pdu.length]
    exact Mem.holds_write _ _ _

theorem aucCRCLo_length : aucCRCLo.length = 256 := by decide +kernel

theorem zero_notMem_aucCRCLo_tail : (0 : UChar) ∉ aucCRCLo.tail := by decide +kernel

/-- A table entry of `aucCRCLo` is zero only at index zero. -/
theorem aucCRCLo_eq_zero (i : Fin 256) (h : aucCRCLo.getD i 0 = 0) : i = 0 := by
  have hlt : i.val < aucCRCLo.length := Nat.lt_of_lt_of_eq i.isLt aucCRCLo_length.symm
  rw [List.getD_eq_getElem?_getD, List.getElem?_eq_getElem hlt, Option.getD_some] at h
  cases i using Fin.cases with
  | zero => rfl
  | succ j =>
    have hmem : aucCRCLo[j.val + 1] ∈ aucCRCLo.tail := by
      rw [← List.getElem_tail (h := by rw [List.length_tail]; exact Nat.lt_sub_of_add_lt hlt)]
      exact List.getElem_mem _
    exact absurd (h ▸ hmem) zero_notMem_aucCRCLo_tail

/-- Absorbing its own low byte leaves the high byte. -/
theorem usMBCRC16Step_self (ucCRC : UChar × UChar) :
    usMBCRC16Step ucCRC ucCRC.2 = (0, ucCRC.1) := by
  have hlo : aucCRCLo.getD 0 0 = 0 := rfl
  have hhi : aucCRCHi.getD 0 0 = 0 := rfl
  simp only [usMBCRC16Step, BitVec.xor_self, BitVec.toNat_zero, hlo, hhi]
  rw [show ucCRC.1 ^^^ 0 = ucCRC.1 from BitVec.xor_zero]

/-- A step that leaves a zero high byte has absorbed the low byte. -/
theorem usMBCRC16Step_eq_zero {ucCRC : UChar × UChar} {ucByte : UChar}
    (h : (usMBCRC16Step ucCRC ucByte).1 = 0) : ucByte = ucCRC.2 := by
  have hlt : (ucCRC.2 ^^^ ucByte).toNat < 256 := (ucCRC.2 ^^^ ucByte).isLt
  have hz := aucCRCLo_eq_zero ⟨(ucCRC.2 ^^^ ucByte).toNat, hlt⟩ h
  have hx : ucCRC.2 ^^^ ucByte = 0 := BitVec.eq_of_toNat_eq (congrArg Fin.val hz)
  exact (BitVec.xor_eq_zero_iff.mp hx).symm

/-- A frame passes the CRC check exactly when it ends in the CRC of what comes before. -/
theorem usMBCRC16List_eq_zero (body : List UChar) (x y : UChar) :
    usMBCRC16List (body ++ [x, y]) = 0 ↔ [x, y] = crcBytes (usMBCRC16List body) := by
  let ucCRC := body.foldl usMBCRC16Step (0xFF, 0xFF)
  have hbytes : crcBytes (usMBCRC16List body) = [ucCRC.2, ucCRC.1] := by
    unfold crcBytes usMBCRC16List
    rw [wordOf_low, wordOf_high]
  rw [hbytes, usMBCRC16List, List.foldl_append, List.foldl_cons, List.foldl_cons, List.foldl_nil,
    wordOf_eq_zero]
  constructor
  · rintro ⟨h1, h2⟩
    have hy := usMBCRC16Step_eq_zero h1
    rw [hy, usMBCRC16Step_self] at h2
    have hx : x = ucCRC.2 := usMBCRC16Step_eq_zero h2
    rw [hy, hx, usMBCRC16Step_self]
  · intro h
    obtain ⟨rfl, rfl⟩ : x = ucCRC.2 ∧ y = ucCRC.1 := by simpa using h
    rw [usMBCRC16Step_self, usMBCRC16Step_self (0, ucCRC.1)]
    exact ⟨rfl, rfl⟩

/-- The check value of the CRC: the nine digits give `0x4B37`. -/
example : usMBCRC16List [0x31, 0x32, 0x33, 0x34, 0x35, 0x36, 0x37, 0x38, 0x39] = 0x4B37 := by
  decide

end FreeModbus
