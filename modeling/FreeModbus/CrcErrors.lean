import FreeModbus.Crc
import FreeModbus.Lib.FeedbackRegister
import FreeModbus.Master.Rtu
import FreeModbus.Slave.Rtu

/-!
# Errors that the CRC detects

The byte loop of `usMBCRC16` is a feedback register with the word `0xA001` that
absorbs the bits of the frame in the order in which they are on the line, lowest
bit of each byte first.  A frame is accepted when the register ends at zero, so
what is known of feedback registers says which corrupted frames are rejected.
-/

namespace FreeModbus

open ByteMemory FeedbackRegister

/-! ## The CRC as a feedback register -/

/-- The polynomial of the CRC, as a feedback word. -/
def crcPoly : UShort := 0xA001

theorem crcPoly_monic : Monic crcPoly := rfl

theorem crcPoly_odd : parity crcPoly = true := by decide

/-- Two ones in a frame are never a period of the register apart. -/
theorem crcPoly_avoids : avoids crcPoly (bitOf 16 true) 2047 (bitOf 16 true) = true := by
  decide +kernel

/-- The bits of a byte in transmission order. -/
def bitsOfByte (b : UChar) : List Bool := (List.range 8).map b.getLsbD

/-- The bits of a frame in transmission order. -/
def bitsOf (frame : List UChar) : List Bool := frame.flatMap bitsOfByte

theorem bitsOf_cons (b : UChar) (frame : List UChar) :
    bitsOf (b :: frame) = bitsOfByte b ++ bitsOf frame := rfl

@[simp] theorem bitsOfByte_length (b : UChar) : (bitsOfByte b).length = 8 := by
  simp [bitsOfByte]

@[simp] theorem bitsOf_length (frame : List UChar) : (bitsOf frame).length = 8 * frame.length := by
  induction frame with
  | nil => rfl
  | cons b frame ih =>
    rw [bitsOf_cons, List.length_append, ih, bitsOfByte_length, List.length_cons]
    omega

theorem word_bitsOfByte (b : UChar) : word 16 (bitsOfByte b) = b.setWidth 16 := by
  apply BitVec.eq_of_getLsbD_eq
  intro i hi
  rw [getLsbD_word _ hi, BitVec.getLsbD_setWidth]
  by_cases h : i < 8
  · simp [bitsOfByte, h, hi]
  · simp [bitsOfByte, h, BitVec.getLsbD_of_ge b i (by omega)]

/-- The tables hold eight steps of each byte. -/
theorem crcTables : (List.range 256).map (fun i => (shift crcPoly)^[8] (BitVec.ofNat 16 i)) =
    List.zipWith wordOf aucCRCLo aucCRCHi := by
  decide +kernel

theorem aucCRCHi_length : aucCRCHi.length = 256 := by decide +kernel

theorem iterate_shift_byte (b : UChar) : (shift crcPoly)^[8] (b.setWidth 16) =
    wordOf (aucCRCLo.getD b.toNat 0) (aucCRCHi.getD b.toNat 0) := by
  have hb : b.toNat < 256 := b.isLt
  have hlo : b.toNat < aucCRCLo.length := Nat.lt_of_lt_of_eq hb aucCRCLo_length.symm
  have hhi : b.toNat < aucCRCHi.length := Nat.lt_of_lt_of_eq hb aucCRCHi_length.symm
  have hentry := congrArg (fun l => l[b.toNat]?) crcTables
  simp only [List.getElem?_map, List.getElem?_range hb, List.getElem?_zipWith,
    List.getElem?_eq_getElem hlo, List.getElem?_eq_getElem hhi, Option.map_some,
    Option.some.injEq] at hentry
  rw [← BitVec.ofNat_toNat, hentry]
  simp [hlo, hhi]

/-- One turn of the loop absorbs the bits of the byte. -/
theorem wordOf_usMBCRC16Step (hi lo b : UChar) :
    wordOf (usMBCRC16Step (hi, lo) b).1 (usMBCRC16Step (hi, lo) b).2 =
      feedAll crcPoly (wordOf hi lo) (bitsOfByte b) := by
  have hsplit : wordOf hi lo ^^^ b.setWidth 16 =
      hi.setWidth 16 <<< 8 ^^^ (lo ^^^ b).setWidth 16 := by
    apply BitVec.eq_of_getLsbD_eq
    intro i hi
    by_cases h : i < 8
    · simp [wordOf, h, hi]
    · simp [wordOf, h, hi, BitVec.getLsbD_of_ge _ i (Nat.le_of_not_lt h)]
  have hhigh : (shift crcPoly)^[8] (hi.setWidth 16 <<< 8) = hi.setWidth 16 := by
    rw [iterate_shift_high]
    · apply BitVec.eq_of_getLsbD_eq
      intro i hi
      by_cases h : i < 8
      · simp [hi, show 8 + i < 16 by omega]
      · simp [BitVec.getLsbD_of_ge _ i (Nat.le_of_not_lt h)]
    · intro i hi
      simp [hi]
  rw [feedAll_eq_iterate crcPoly (by simp), bitsOfByte_length, word_bitsOfByte, hsplit,
    iterate_shift_xor, hhigh, iterate_shift_byte]
  simp only [usMBCRC16Step]
  apply BitVec.eq_of_getLsbD_eq
  intro i hi
  by_cases h : i < 8
  · simp [wordOf, h, hi]
  · simp [wordOf, h, hi, BitVec.getLsbD_of_ge _ i (Nat.le_of_not_lt h)]

/-- The CRC of a frame is the register after its bits. -/
theorem usMBCRC16List_eq_feedAll (frame : List UChar) :
    usMBCRC16List frame = feedAll crcPoly (wordOf 0xFF 0xFF) (bitsOf frame) := by
  have h : ∀ (frame : List UChar) (ucCRC : UChar × UChar),
      wordOf (frame.foldl usMBCRC16Step ucCRC).1 (frame.foldl usMBCRC16Step ucCRC).2 =
        feedAll crcPoly (wordOf ucCRC.1 ucCRC.2) (bitsOf frame) := by
    intro frame
    induction frame with
    | nil => exact fun _ => rfl
    | cons b frame ih =>
      intro ucCRC
      rw [List.foldl_cons, ih, bitsOf_cons, feedAll_append, ← wordOf_usMBCRC16Step]
  exact h frame (0xFF, 0xFF)

/-! ## Corrupted frames -/

/-- The buffer with an error added to it. -/
def corrupt (frame e : Buf) : Buf := fun i => frame i ^^^ e i

theorem bitsOfByte_xor (b e : UChar) :
    bitsOfByte (b ^^^ e) = List.zipWith xor (bitsOfByte b) (bitsOfByte e) := by
  simp [bitsOfByte, List.zipWith_map, List.zipWith_self]

theorem bitsOf_corrupt (frame e : Buf) (k n : Nat) : bitsOf (slice (corrupt frame e) k n) =
    List.zipWith xor (bitsOf (slice frame k n)) (bitsOf (slice e k n)) := by
  induction n generalizing k with
  | zero => rfl
  | succ n ih =>
    rw [slice_succ, slice_succ, slice_succ, bitsOf_cons, bitsOf_cons, bitsOf_cons, ih, corrupt,
      bitsOfByte_xor, List.zipWith_append (by simp)]

/-- The CRC over a corrupted frame differs by what the error alone leaves. -/
theorem usMBCRC16_corrupt (frame e : Buf) (n : Nat) : usMBCRC16 (corrupt frame e) n =
    usMBCRC16 frame n ^^^ feedAll crcPoly 0 (bitsOf (slice e 0 n)) := by
  have hlen : (bitsOf (slice frame 0 n)).length = (bitsOf (slice e 0 n)).length := by simp
  have hxor := feedAll_xor crcPoly (wordOf 0xFF 0xFF) 0 hlen
  have hinit : wordOf 0xFF 0xFF ^^^ 0 = wordOf 0xFF 0xFF := BitVec.xor_zero
  rw [hinit] at hxor
  rw [usMBCRC16, usMBCRC16, usMBCRC16List_eq_feedAll, usMBCRC16List_eq_feedAll, bitsOf_corrupt,
    hxor]

/-- The errors in question: a burst of at most 16 bits, an odd number of bits, two bits. -/
inductive ErrorPattern : List Bool → Prop where
  | burst {i j : Nat} {bits : List Bool} : bits.length ≤ 16 → true ∈ bits →
      ErrorPattern (List.replicate i false ++ bits ++ List.replicate j false)
  | odd {bits : List Bool} : bits.count true % 2 = 1 → ErrorPattern bits
  | pair {bits : List Bool} : bits.count true = 2 → ErrorPattern bits

/-- In a stream no longer than a frame such an error leaves a remainder. -/
theorem ErrorPattern.ne_zero {bits : List Bool} (h : ErrorPattern bits)
    (hlen : bits.length ≤ 2048) : feedAll crcPoly 0 bits ≠ 0 := by
  cases h with
  | burst hburst hone => exact crcPoly_monic.burst_ne_zero hburst hone
  | odd hodd => exact odd_ne_zero crcPoly_odd hodd
  | pair hpair =>
    refine crcPoly_monic.pair_ne_zero hpair fun k hk hlt => ?_
    exact avoids_iterate crcPoly_avoids k hk (by omega)

/-- A corrupted frame does not pass the check that the frame passes. -/
theorem usMBCRC16_corrupt_ne_zero {frame e : Buf} {n : Nat} (hlen : n ≤ 256)
    (hcrc : usMBCRC16 frame n = 0) (he : ErrorPattern (bitsOf (slice e 0 n))) :
    usMBCRC16 (corrupt frame e) n ≠ 0 := by
  have hbits : (bitsOf (slice e 0 n)).length ≤ 2048 := by
    rw [bitsOf_length, slice_length]
    omega
  rw [usMBCRC16_corrupt, hcrc]
  intro h
  exact he.ne_zero hbits ((BitVec.zero_xor).symm.trans h)

theorem eMBRTUReceive_eio {s : Slave} (h : usMBCRC16 s.ucRTUBuf s.usRcvBufferPos ≠ 0) :
    s.eMBRTUReceive.1 = .eio := by
  rw [Slave.eMBRTUReceive, if_neg fun hok => h hok.2]

theorem eMBMasterRTUReceive_eio {s : Master}
    (h : usMBCRC16 s.ucMasterRTURcvBuf s.usMasterRcvBufferPos ≠ 0) :
    s.eMBMasterRTUReceive.1 = .eio := by
  rw [Master.eMBMasterRTUReceive, if_neg fun hok => h hok.2]

theorem crc_of_accepted {s : Slave} (h : s.eMBRTUReceive.1 = .enoerr) :
    usMBCRC16 s.ucRTUBuf s.usRcvBufferPos = 0 := by
  by_contra hne
  rw [eMBRTUReceive_eio hne] at h
  cases h

/-- When the slave accepts a frame of at most 256 bytes, slave and master reject what such an
error makes of it. -/
theorem corrupted_rejected {s : Slave} {e : Buf} (haccepted : s.eMBRTUReceive.1 = .enoerr)
    (hlen : s.usRcvBufferPos ≤ mbSerPduSizeMax)
    (he : ErrorPattern (bitsOf (slice e 0 s.usRcvBufferPos))) :
    (∀ s' : Slave, s'.ucRTUBuf = corrupt s.ucRTUBuf e → s'.usRcvBufferPos = s.usRcvBufferPos →
      s'.eMBRTUReceive.1 = .eio) ∧
    (∀ m : Master, m.ucMasterRTURcvBuf = corrupt s.ucRTUBuf e →
      m.usMasterRcvBufferPos = s.usRcvBufferPos → m.eMBMasterRTUReceive.1 = .eio) := by
  have hne := usMBCRC16_corrupt_ne_zero hlen (crc_of_accepted haccepted) he
  constructor
  · intro s' hbuf hpos
    refine eMBRTUReceive_eio ?_
    rw [hbuf, hpos]
    exact hne
  · intro m hbuf hpos
    refine eMBMasterRTUReceive_eio ?_
    rw [hbuf, hpos]
    exact hne

/-- The request for one register of slave 1, received. -/
def readRequestReceived : Slave :=
  { Slave.static .initial with
    ucRTUBuf := Mem.ofList [0x01, 0x03, 0x00, 0x00, 0x00, 0x01, 0x84, 0x0A] fun _ => 0
    usRcvBufferPos := 8 }

/-- With its first bit flipped it is rejected. -/
theorem corrupted_rejected_request :
    ({ readRequestReceived with
        ucRTUBuf := corrupt readRequestReceived.ucRTUBuf (Mem.ofList [0x01] fun _ => 0) } :
      Slave).eMBRTUReceive.1 = .eio :=
  (corrupted_rejected (s := readRequestReceived) (by decide) (by decide)
    (.odd (by decide))).1 _ rfl rfl

end FreeModbus
