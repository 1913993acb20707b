import FreeModbus.Lib.DataModel
import FreeModbus.Registers

/-!
# Register arrays as maps

A register array of the application, seen as a map of the data model.  The four
loops of the callbacks are the `load` and `put` of that map, on the byte formats
of the data model.
-/

namespace FreeModbus

open ByteMemory DataModel

/-- The first `N` bits of an array. -/
def bitCells (N : Nat) (bits : Buf) : Cells N Bool := fun i => bitAt bits i

/-- The first `N` registers of an array. -/
def wordCells (N : Nat) (regs : Mem UShort) : Cells N UShort := fun i => regs i

theorem bitCells_get {N : Nat} (bits : Buf) {i : Nat} (h : i < N) :
    (bitCells N bits).get i = bitAt bits i :=
  Cells.get_of_lt _ h

theorem wordCells_get {N : Nat} (regs : Mem UShort) {i : Nat} (h : i < N) :
    (wordCells N regs).get i = regs i :=
  Cells.get_of_lt _ h

/-- The range check against a map that starts at zero. -/
theorem inRange_zero {a n : UShort} {size : Nat} :
    inRange a n 0 size ↔ Inside size a n.toNat := by
  simp [inRange, Inside]

/-- The bit that the byte and bit index of an address select. -/
theorem bitIndex (a t : Nat) : 8 * (a / 8) + a % 8 + t = a + t := by omega

/-- A bit read fills the buffer with the packed range of the map. -/
theorem slice_readBitsCB_load {N a n : Nat} (h : a + n ≤ N) (bits buf : Buf) :
    slice (readBitsCB bits (a / 8) (a % 8) n buf) 0 (byteCount n) =
      packBools ((bitCells N bits).load a n) := by
  rw [slice_readBitsCB, packBools_load]
  refine packBits_congr fun t ht => ?_
  rw [bitIndex, bitCells_get bits (by omega)]

/-- A register read fills the buffer with the packed range of the map. -/
theorem slice_readRegs_load {N a n : Nat} (h : a + n ≤ N) (regs : Mem UShort) (buf : Buf) :
    slice (readRegs regs n a buf 0) 0 (2 * n) = packWordList ((wordCells N regs).load a n) := by
  rw [slice_readRegs, packWordList_load]
  refine packWords_congr fun t ht => ?_
  rw [wordCells_get regs (by omega)]

/-- A bit write from a buffer that holds packed bits, bit by bit. -/
theorem bitAt_writeBitsCB_packed {buf : Buf} {vs : List Bool} (h : buf.Holds 0 (packBools vs))
    (a : Nat) (bits : Buf) (t : Nat) :
    bitAt (writeBitsCB buf (a / 8) (a % 8) vs.length bits) t =
      if a ≤ t ∧ t < a + vs.length then vs.getD (t - a) false else bitAt bits t := by
  have hbit : ∀ j < 8 * byteCount vs.length,
      bitAt buf j = (decide (j < vs.length) && vs.getD j false) := by
    intro j hj
    simpa using bitAt_of_packBits h hj
  have hpad : ∀ j, vs.length ≤ j → j < 8 * byteCount vs.length → bitAt buf j = false := by
    intro j hj hlt
    rw [hbit j hlt]
    simp [Nat.not_lt.mpr hj]
  have ha : 8 * (a / 8) + a % 8 = a := by omega
  rw [bitAt_writeBitsCB hpad, ha]
  by_cases hin : a ≤ t ∧ t < a + vs.length
  · rw [if_pos hin, if_pos hin, hbit (t - a) (by unfold byteCount; omega)]
    simp [show t - a < vs.length by omega]
  · rw [if_neg hin, if_neg hin]

/-- A bit write from a buffer that holds packed bits puts them into the map. -/
theorem bitCells_writeBitsCB {buf : Buf} {vs : List Bool} (h : buf.Holds 0 (packBools vs))
    (N a : Nat) (bits : Buf) :
    bitCells N (writeBitsCB buf (a / 8) (a % 8) vs.length bits) = (bitCells N bits).put a vs := by
  funext i
  exact bitAt_writeBitsCB_packed h a bits i

/-- A register write from a buffer that holds packed words, register by register. -/
theorem writeRegs_packed {buf : Buf} {vs : List UShort} (h : buf.Holds 0 (packWordList vs))
    (a : Nat) (regs : Mem UShort) (t : Nat) :
    writeRegs buf vs.length a regs 0 t =
      if a ≤ t ∧ t < a + vs.length then vs.getD (t - a) 0 else regs t := by
  rw [writeRegs_apply]
  by_cases hin : a ≤ t ∧ t < a + vs.length
  · rw [if_pos hin, if_pos hin]
    exact wordAt_of_packWords h (t - a) (by omega)
  · rw [if_neg hin, if_neg hin]

/-- A register write from a buffer that holds packed words puts them into the map. -/
theorem wordCells_writeRegs {buf : Buf} {vs : List UShort} (h : buf.Holds 0 (packWordList vs))
    (N a : Nat) (regs : Mem UShort) :
    wordCells N (writeRegs buf vs.length a regs 0) = (wordCells N regs).put a vs := by
  funext i
  exact writeRegs_packed h a regs i

end FreeModbus
