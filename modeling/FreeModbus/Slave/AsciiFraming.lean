import FreeModbus.Lib.Pairs
import FreeModbus.Slave.Ascii
import Mathlib.Data.List.Induction

/-!
# ASCII framing

What the transmit machine puts on the line and what the receive machine reads from it.

The receiver keeps no characters: it keeps the bytes that the pairs of characters since
the last colon have given, and a pending high nibble.  `Reads` says so of the characters
of a data block, whatever they are.  The transmitter writes the pairs, so the two meet in
the list of bytes.
-/

namespace FreeModbus

open ByteMemory Transition Pairs

/-! ## Hexadecimal characters -/

/-- The characters `0` to `9` and `A` to `F`, each at the place of its value. -/
def hexDigits : List UChar :=
  [0x30, 0x31, 0x32, 0x33, 0x34, 0x35, 0x36, 0x37, 0x38, 0x39, 0x41, 0x42, 0x43, 0x44, 0x45, 0x46]

/-- The characters that the transmitter sends for a byte. -/
def hexPair (b : UChar) : UChar × UChar :=
  (prvucMBBIN2CHAR (b >>> 4), prvucMBBIN2CHAR (b &&& 0x0F))

/-- The byte that the receiver makes of two characters. -/
def pairByte (p : UChar × UChar) : UChar := (prvucMBCHAR2BIN p.1 <<< 4) ||| prvucMBCHAR2BIN p.2

/-- The bytes that the receiver makes of a data block. -/
def decoded (data : List UChar) : List UChar := (pairs data).map pairByte

/-- The data block that the transmitter sends for a list of bytes. -/
def encoded (bytes : List UChar) : List UChar := unpair (bytes.map hexPair)

theorem pairByte_hexPair : ∀ b : UChar, pairByte (hexPair b) = b := by decide +kernel

theorem hexPair_mem : ∀ b : UChar, (hexPair b).1 ∈ hexDigits ∧ (hexPair b).2 ∈ hexDigits := by
  decide +kernel

theorem colon_not_hex : asciiColon ∉ hexDigits := by decide

theorem cr_not_hex : mbAsciiDefaultCr ∉ hexDigits := by decide

@[simp] theorem decoded_length (data : List UChar) : (decoded data).length = data.length / 2 := by
  simp [decoded, pairs_length]

@[simp] theorem encoded_length (bytes : List UChar) :
    (encoded bytes).length = 2 * bytes.length := by
  simp [encoded]

/-- Encoding is undone by decoding. -/
@[simp] theorem decoded_encoded (bytes : List UChar) : decoded (encoded bytes) = bytes := by
  have hid : pairByte ∘ hexPair = id := funext pairByte_hexPair
  rw [decoded, encoded, pairs_unpair, List.map_map, hid, List.map_id]

theorem mem_encoded {bytes : List UChar} {c : UChar} (h : c ∈ encoded bytes) : c ∈ hexDigits := by
  obtain ⟨p, hp, hc⟩ := mem_unpair h
  obtain ⟨b, -, rfl⟩ := List.mem_map.mp hp
  rcases hc with rfl | rfl
  · exact (hexPair_mem b).1
  · exact (hexPair_mem b).2

/-! ## The checksum -/

/-- The checksum of a list with a byte behind it. -/
theorem prvucMBLRCList_snoc (l : List UChar) (b : UChar) :
    prvucMBLRCList (l ++ [b]) = prvucMBLRCList l - b := by
  simp only [prvucMBLRCList, List.foldl_append, List.foldl_cons, List.foldl_nil]
  rw [BitVec.neg_add, BitVec.sub_eq_add_neg]

/-- With its checksum behind it a list has the checksum zero. -/
theorem prvucMBLRCList_checked (l : List UChar) : prvucMBLRCList (l ++ [prvucMBLRCList l]) = 0 := by
  rw [prvucMBLRCList_snoc]
  exact BitVec.sub_self _

theorem prvucMBLRC_of_holds {m : Buf} {l : List UChar} (h : m.Holds 0 l) :
    prvucMBLRC m l.length = prvucMBLRCList l :=
  congrArg prvucMBLRCList h

namespace Ascii

/-! ## Receiver -/

/-- A data block: no colon restarts it, no CR ends it, and it fits into the buffer. -/
structure DataBlock (data : List UChar) : Prop where
  colon : asciiColon ∉ data
  cr : mbAsciiDefaultCr ∉ data
  room : data.length ≤ 2 * mbSerPduSizeMax

/-- The receiver waits for the next nibble of a data block. -/
def Nibble (s : Ascii) : Option UChar → Prop
  | none => s.eBytePos = .highNibble
  | some c => s.eBytePos = .lowNibble ∧ s.ucASCIIBuf s.usRcvBufferPos = prvucMBCHAR2BIN c <<< 4

/-- The receiver has read a data block. -/
structure Reads (s : Ascii) (data : List UChar) : Prop where
  pos : s.usRcvBufferPos = (decoded data).length
  bytes : s.ucASCIIBuf.Holds 0 (decoded data)
  nibble : s.Nibble (leftOver data)

variable {s : Ascii} {data : List UChar} {c : UChar}

theorem DataBlock.nil : DataBlock [] := ⟨by simp, by simp, by simp⟩

theorem DataBlock.snoc (h : DataBlock data) (hcolon : c ≠ asciiColon) (hcr : c ≠ mbAsciiDefaultCr)
    (hroom : data.length < 2 * mbSerPduSizeMax) : DataBlock (data ++ [c]) := by
  constructor
  · simp [h.colon, hcolon.symm]
  · simp [h.cr, hcr.symm]
  · rw [List.length_append]
    exact hroom

/-- The beginning of a data block is a data block. -/
theorem DataBlock.init (h : DataBlock (data ++ [c])) :
    DataBlock data ∧ c ≠ asciiColon ∧ c ≠ mbAsciiDefaultCr ∧
      data.length < 2 * mbSerPduSizeMax := by
  obtain ⟨hcolon, hcr, hroom⟩ := h
  simp only [List.mem_append, List.mem_singleton, not_or] at hcolon hcr
  rw [List.length_append, List.length_singleton] at hroom
  exact ⟨⟨hcolon.1, hcr.1, Nat.le_of_succ_le hroom⟩, Ne.symm hcolon.2, Ne.symm hcr.2, hroom⟩

/-- The data block of hexadecimal characters. -/
theorem DataBlock.encoded {bytes : List UChar} (h : bytes.length ≤ mbSerPduSizeMax) :
    DataBlock (encoded bytes) := by
  constructor
  · exact fun hc => colon_not_hex (mem_encoded hc)
  · exact fun hc => cr_not_hex (mem_encoded hc)
  · rw [encoded_length]
    exact Nat.mul_le_mul_left 2 h

/-- What the reader does not see it does not need. -/
theorem Reads.of_eq {s' : Ascii} (h : s.Reads data) (hpos : s'.usRcvBufferPos = s.usRcvBufferPos)
    (hbuf : s'.ucASCIIBuf = s.ucASCIIBuf) (hbyte : s'.eBytePos = s.eBytePos) : s'.Reads data := by
  obtain ⟨hp, hb, hn⟩ := h
  refine ⟨hpos.trans hp, hbuf ▸ hb, ?_⟩
  unfold Nibble
  rw [hpos, hbuf, hbyte]
  exact hn

/-- The first character of a byte. -/
theorem Reads.high (h : s.Reads data) (hnone : leftOver data = none)
    (hroom : data.length < 2 * mbSerPduSizeMax) :
    (s.decodeCharacter c).Reads (data ++ [c]) ∧
      s.decodeCharacter c = { s with
        ucASCIIBuf := Function.update s.ucASCIIBuf s.usRcvBufferPos (prvucMBCHAR2BIN c <<< 4)
        eBytePos := .lowNibble } := by
  obtain ⟨hpos, hbytes, hnib⟩ := h
  rw [hnone] at hnib
  have hlt : s.usRcvBufferPos < mbSerPduSizeMax := by
    rw [hpos, decoded_length]
    omega
  have heq : s.decodeCharacter c = { s with
      ucASCIIBuf := Function.update s.ucASCIIBuf s.usRcvBufferPos (prvucMBCHAR2BIN c <<< 4)
      eBytePos := .lowNibble } := by
    simp only [decodeCharacter, show s.eBytePos = .highNibble from hnib, if_pos hlt]
  obtain ⟨hpairs, hleft⟩ := snoc_of_none hnone c
  have hdec : decoded (data ++ [c]) = decoded data := congrArg (List.map pairByte) hpairs
  refine ⟨?_, heq⟩
  rw [heq]
  constructor
  · rw [hdec]
    exact hpos
  · rw [hdec]
    exact hbytes.update (Or.inr (by omega)) _
  · rw [hleft]
    exact ⟨rfl, Function.update_self ..⟩

/-- The second character of a byte. -/
theorem Reads.low (h : s.Reads data) {a : UChar} (hsome : leftOver data = some a) :
    (s.decodeCharacter c).Reads (data ++ [c]) ∧
      s.decodeCharacter c = { s with
        ucASCIIBuf := Function.update s.ucASCIIBuf s.usRcvBufferPos
          (s.ucASCIIBuf s.usRcvBufferPos ||| prvucMBCHAR2BIN c)
        usRcvBufferPos := s.usRcvBufferPos + 1
        eBytePos := .highNibble } := by
  obtain ⟨hpos, hbytes, hnib⟩ := h
  rw [hsome] at hnib
  obtain ⟨hlow, hhigh⟩ := hnib
  have heq : s.decodeCharacter c = { s with
      ucASCIIBuf := Function.update s.ucASCIIBuf s.usRcvBufferPos
        (s.ucASCIIBuf s.usRcvBufferPos ||| prvucMBCHAR2BIN c)
      usRcvBufferPos := s.usRcvBufferPos + 1
      eBytePos := .highNibble } := by
    simp only [decodeCharacter, hlow]
  obtain ⟨hpairs, hleft⟩ := snoc_of_some hsome c
  have hdec : decoded (data ++ [c]) = decoded data ++ [pairByte (a, c)] := by
    rw [decoded, hpairs, List.map_append]
    rfl
  refine ⟨?_, heq⟩
  rw [heq]
  constructor
  · rw [hdec, List.length_append]
    exact congrArg (· + 1) hpos
  · rw [hdec, Mem.holds_append, Mem.holds_cons]
    refine ⟨hbytes.update (Or.inr (by omega)) _, ?_, rfl⟩
    rw [Nat.zero_add, ← hpos]
    dsimp only
    rw [Function.update_self, hhigh]
    rfl
  · rw [hleft]
    rfl

/-- A character of a data block is read. -/
theorem Reads.character (h : s.Reads data) (hrcv : s.eRcvState = .rcv) (hcolon : c ≠ asciiColon)
    (hcr : c ≠ mbAsciiDefaultCr) (hroom : data.length < 2 * mbSerPduSizeMax) :
    (s.xMBASCIIReceiveFSM c).Reads (data ++ [c]) ∧
      (s.xMBASCIIReceiveFSM c).eRcvState = .rcv ∧
      (s.xMBASCIIReceiveFSM c).output = s.output := by
  have hfsm : s.xMBASCIIReceiveFSM c = s.vMBPortTimersEnable.decodeCharacter c := by
    simp only [xMBASCIIReceiveFSM, hrcv, if_neg hcolon, if_neg hcr]
  have h' : s.vMBPortTimersEnable.Reads data := h.of_eq rfl rfl rfl
  rw [hfsm]
  cases hl : leftOver data with
  | none =>
    obtain ⟨hreads, heq⟩ := h'.high (c := c) hl hroom
    refine ⟨hreads, ?_⟩
    rw [heq]
    exact ⟨hrcv, rfl⟩
  | some a =>
    obtain ⟨hreads, heq⟩ := h'.low (c := c) hl
    refine ⟨hreads, ?_⟩
    rw [heq]
    exact ⟨hrcv, rfl⟩

/-- In every state a colon starts a data block. -/
theorem receiveFSM_colon (hlf : s.ucMBLFCharacter = mbAsciiDefaultLf) :
    (s.xMBASCIIReceiveFSM asciiColon).Reads [] ∧
      (s.xMBASCIIReceiveFSM asciiColon).eRcvState = .rcv ∧
      (s.xMBASCIIReceiveFSM asciiColon).output = s.output := by
  have hne : asciiColon ≠ s.ucMBLFCharacter := by
    rw [hlf]
    decide
  unfold xMBASCIIReceiveFSM
  cases hst : s.eRcvState with
  | idle => exact ⟨⟨rfl, rfl, rfl⟩, rfl, rfl⟩
  | rcv => exact ⟨⟨rfl, rfl, rfl⟩, hst, rfl⟩
  | waitEof =>
    dsimp only
    rw [if_neg hne]
    exact ⟨⟨rfl, rfl, rfl⟩, rfl, rfl⟩

/-- A CR ends the data block. -/
theorem receiveFSM_cr (hrcv : s.eRcvState = .rcv) :
    s.xMBASCIIReceiveFSM mbAsciiDefaultCr = { s with xTimer := true, eRcvState := .waitEof } := by
  have hne : mbAsciiDefaultCr ≠ asciiColon := by decide
  simp only [xMBASCIIReceiveFSM, hrcv, if_neg hne, if_true, vMBPortTimersEnable]

/-- The LF behind the CR ends the frame. -/
theorem receiveFSM_lf (hlf : s.ucMBLFCharacter = mbAsciiDefaultLf) (hrcv : s.eRcvState = .rcv) :
    (s.xMBASCIIReceiveFSM mbAsciiDefaultCr).xMBASCIIReceiveFSM mbAsciiDefaultLf = { s with
      xTimer := false
      eRcvState := .idle
      output := s.output ++ [.post .frameReceived] } := by
  rw [receiveFSM_cr hrcv]
  simp only [xMBASCIIReceiveFSM, if_pos hlf.symm, vMBPortTimersDisable, post]

@[simp] theorem receiveFSM_ucMBLFCharacter (s : Ascii) (c : UChar) :
    (s.xMBASCIIReceiveFSM c).ucMBLFCharacter = s.ucMBLFCharacter := by
  unfold xMBASCIIReceiveFSM
  cases s.eRcvState with
  | idle =>
    dsimp only
    split
    · rfl
    · rfl
  | waitEof =>
    dsimp only
    split
    · rfl
    · split
      · rfl
      · rfl
  | rcv =>
    dsimp only
    split
    · rfl
    · split
      · rfl
      · unfold decodeCharacter
        split
        · split
          · rfl
          · rfl
        · rfl

@[simp] theorem foldl_receiveFSM_ucMBLFCharacter (s : Ascii) (chars : List UChar) :
    (chars.foldl xMBASCIIReceiveFSM s).ucMBLFCharacter = s.ucMBLFCharacter := by
  induction chars generalizing s with
  | nil => rfl
  | cons c chars ih => rw [List.foldl_cons, ih, receiveFSM_ucMBLFCharacter]

/-- A frame on the line. -/
def asciiFrame (data : List UChar) : List UChar :=
  asciiColon :: data ++ [mbAsciiDefaultCr] ++ [mbAsciiDefaultLf]

/-- What stands before the last character of a frame. -/
@[simp] theorem asciiFrame_dropLast (data : List UChar) :
    (asciiFrame data).dropLast = asciiColon :: data ++ [mbAsciiDefaultCr] :=
  List.dropLast_concat ..

/-- A data block is read from every state. -/
theorem reads_block (hlf : s.ucMBLFCharacter = mbAsciiDefaultLf) (h : DataBlock data) :
    ((asciiColon :: data).foldl xMBASCIIReceiveFSM s).Reads data ∧
      ((asciiColon :: data).foldl xMBASCIIReceiveFSM s).eRcvState = .rcv ∧
      ((asciiColon :: data).foldl xMBASCIIReceiveFSM s).output = s.output := by
  induction data using List.reverseRecOn with
  | nil => exact receiveFSM_colon hlf
  | append_singleton data c ih =>
    obtain ⟨hdata, hcolon, hcr, hroom⟩ := h.init
    obtain ⟨hreads, hrcv, hout⟩ := ih hdata
    obtain ⟨hreads', hrcv', hout'⟩ := hreads.character hrcv hcolon hcr hroom
    rw [← List.cons_append, List.foldl_append]
    exact ⟨hreads', hrcv', hout'.trans hout⟩

/-- The receiver before the last character of a frame. -/
theorem foldl_asciiFrame_dropLast (hlf : s.ucMBLFCharacter = mbAsciiDefaultLf)
    (h : DataBlock data) :
    (asciiFrame data).dropLast.foldl xMBASCIIReceiveFSM s =
      { (asciiColon :: data).foldl xMBASCIIReceiveFSM s with
        xTimer := true
        eRcvState := .waitEof } := by
  obtain ⟨-, hrcv, -⟩ := reads_block hlf h
  rw [asciiFrame_dropLast, List.foldl_append]
  exact receiveFSM_cr hrcv

/-- The receiver behind a frame. -/
theorem foldl_asciiFrame (hlf : s.ucMBLFCharacter = mbAsciiDefaultLf) (h : DataBlock data) :
    (asciiFrame data).foldl xMBASCIIReceiveFSM s =
      { (asciiColon :: data).foldl xMBASCIIReceiveFSM s with
        xTimer := false
        eRcvState := .idle
        output := s.output ++ [.post .frameReceived] } := by
  obtain ⟨-, hrcv, hout⟩ := reads_block hlf h
  have hlf' := (foldl_receiveFSM_ucMBLFCharacter s (asciiColon :: data)).trans hlf
  rw [asciiFrame, List.foldl_append, List.foldl_append, ← hout]
  exact receiveFSM_lf hlf' hrcv

/-- A frame is announced at its last character, with its data block read. -/
theorem receives_frame (hlf : s.ucMBLFCharacter = mbAsciiDefaultLf) (h : DataBlock data) :
    ((asciiFrame data).foldl xMBASCIIReceiveFSM s).Reads data ∧
      ((asciiFrame data).dropLast.foldl xMBASCIIReceiveFSM s).output = s.output ∧
      ((asciiFrame data).foldl xMBASCIIReceiveFSM s).output =
        s.output ++ [.post .frameReceived] := by
  obtain ⟨hreads, -, hout⟩ := reads_block hlf h
  rw [foldl_asciiFrame_dropLast hlf h, foldl_asciiFrame hlf h]
  exact ⟨hreads.of_eq rfl rfl rfl, hout, rfl⟩

/-! ## `eMBASCIIReceive` -/

/-- Address and PDU of a frame, as they lie in the buffer. -/
def Received.bytes (f : Received) : List UChar :=
  f.pucRcvAddress :: slice f.pucFrame 0 f.pusLength

/-- A data block is accepted by its length and its checksum. -/
theorem Reads.receive_ok (h : s.Reads data) :
    (∃ f, s.eMBASCIIReceive = .ok f) ↔
      6 ≤ data.length ∧ prvucMBLRCList (decoded data) = 0 := by
  have hlrc : prvucMBLRC s.ucASCIIBuf s.usRcvBufferPos = prvucMBLRCList (decoded data) := by
    rw [h.pos]
    exact prvucMBLRC_of_holds h.bytes
  have hlen : mbAsciiSizeMin ≤ s.usRcvBufferPos ↔ 6 ≤ data.length := by
    rw [h.pos, decoded_length]
    unfold mbAsciiSizeMin
    omega
  rw [← hlrc, ← hlen]
  unfold eMBASCIIReceive
  split
  · exact iff_of_true ⟨_, rfl⟩ ‹_›
  · exact iff_of_false (fun ⟨f, hf⟩ => by cases hf) ‹_›

/-- What is returned is the bytes of the data block without the last one. -/
theorem Reads.receive_bytes (h : s.Reads data) {f : Received} (hf : s.eMBASCIIReceive = .ok f) :
    ∃ b, decoded data = f.bytes ++ [b] := by
  unfold eMBASCIIReceive at hf
  split at hf
  · next hok =>
    obtain ⟨n, hn⟩ : ∃ n, s.usRcvBufferPos = n + 1 + 1 + 1 := Nat.exists_eq_add_of_le' hok.1
    refine ⟨s.ucASCIIBuf (n + 1 + 1), ?_⟩
    have hbytes : slice s.ucASCIIBuf 0 (decoded data).length = decoded data := h.bytes
    rw [← h.pos, hn, slice_add, slice_succ, Nat.zero_add, Nat.zero_add] at hbytes
    rw [← hbytes]
    cases hf
    rw [Received.bytes, hn, slice_at]
    rfl
  · cases hf

/-! ## Transmitter -/

/-- The characters and the event that end a frame. -/
theorem transmitFSM_finish (hsnd : s.eSndState = .data) (hcount : s.usSndBufferCount = 0)
    (htx : s.xTxEnable = true) :
    ∃ s', Until xTxEnable xMBASCIITransmitFSM s s' ∧
      s'.output = s.output ++
        [.put mbAsciiDefaultCr, .put s.ucMBLFCharacter, .post .frameSent] := by
  have hcr : s.xMBASCIITransmitFSM =
      { s.xMBPortSerialPutByte mbAsciiDefaultCr with eSndState := .finish } := by
    simp [xMBASCIITransmitFSM, hsnd, hcount]
  refine ⟨_, .next htx (.next ?_ (.next ?_ (.stop ?_))), ?_⟩
  · rw [hcr]
    exact htx
  · rw [hcr]
    exact htx
  · rw [hcr]
    rfl
  · rw [hcr]
    simp [xMBASCIITransmitFSM, xMBPortSerialPutByte, vMBPortSerialEnable, post]

theorem transmitFSM_data (hsnd : s.eSndState = .data) (hcount : s.usSndBufferCount ≠ 0) :
    s.xMBASCIITransmitFSM = s.sendNibble := by
  rw [xMBASCIITransmitFSM, hsnd]
  exact if_pos (Nat.pos_of_ne_zero hcount)

theorem sendNibble_high (hpos : s.eBytePos = .highNibble) :
    s.sendNibble = { s with
      output := s.output ++ [.put (hexPair (s.ucASCIIBuf s.pucSndBufferCur)).1]
      eBytePos := .lowNibble } := by
  rw [sendNibble, hpos]
  rfl

theorem sendNibble_low (hpos : s.eBytePos = .lowNibble) :
    s.sendNibble = { s with
      output := s.output ++ [.put (hexPair (s.ucASCIIBuf s.pucSndBufferCur)).2]
      pucSndBufferCur := s.pucSndBufferCur + 1
      eBytePos := .highNibble
      usSndBufferCount := s.usSndBufferCount - 1 } := by
  rw [sendNibble, hpos]
  rfl

/-- Two turns of the transmitter send a byte. -/
theorem transmitFSM_byte (hsnd : s.eSndState = .data) (hpos : s.eBytePos = .highNibble)
    (hcount : s.usSndBufferCount ≠ 0) :
    s.xMBASCIITransmitFSM.xTxEnable = s.xTxEnable ∧
      s.xMBASCIITransmitFSM.xMBASCIITransmitFSM = { s with
        output := s.output ++ [.put (hexPair (s.ucASCIIBuf s.pucSndBufferCur)).1] ++
          [.put (hexPair (s.ucASCIIBuf s.pucSndBufferCur)).2]
        pucSndBufferCur := s.pucSndBufferCur + 1
        eBytePos := .highNibble
        usSndBufferCount := s.usSndBufferCount - 1 } := by
  have hhigh := (transmitFSM_data hsnd hcount).trans (sendNibble_high hpos)
  rw [hhigh]
  refine ⟨rfl, ?_⟩
  refine (transmitFSM_data ?_ ?_).trans (sendNibble_low rfl)
  · exact hsnd
  · exact hcount

/-- The transmitter sends the bytes of the send buffer. -/
theorem transmits_bytes (bytes : List UChar) (hsnd : s.eSndState = .data)
    (hpos : s.eBytePos = .highNibble) (hcount : s.usSndBufferCount = bytes.length)
    (hbuf : s.ucASCIIBuf.Holds s.pucSndBufferCur bytes) (htx : s.xTxEnable = true) :
    ∃ s', Until xTxEnable xMBASCIITransmitFSM s s' ∧
      s'.output = s.output ++ (encoded bytes).map .put ++
        [.put mbAsciiDefaultCr, .put s.ucMBLFCharacter, .post .frameSent] := by
  induction bytes generalizing s with
  | nil =>
    obtain ⟨s', huntil, hout⟩ := transmitFSM_finish hsnd hcount htx
    refine ⟨s', huntil, ?_⟩
    rw [hout]
    simp [encoded, unpair]
  | cons b bytes ih =>
    rw [Mem.holds_cons] at hbuf
    obtain ⟨hb, hbuf⟩ := hbuf
    have hne : s.usSndBufferCount ≠ 0 := by
      rw [hcount]
      exact Nat.succ_ne_zero _
    obtain ⟨htx', hbyte⟩ := transmitFSM_byte hsnd hpos hne
    obtain ⟨s', huntil, hout⟩ := ih (s := s.xMBASCIITransmitFSM.xMBASCIITransmitFSM)
      (by rw [hbyte]; exact hsnd) (by rw [hbyte]) (by rw [hbyte, hcount]; rfl)
      (by rw [hbyte]; exact hbuf) (by rw [hbyte]; exact htx)
    refine ⟨s', .next htx (.next (htx'.trans htx) huntil), ?_⟩
    rw [hout, hbyte, hb]
    simp [encoded, unpair]

/-- Address and PDU with their checksum. -/
def serialPdu (a : UChar) (p : List UChar) : List UChar := a :: p ++ [prvucMBLRCList (a :: p)]

theorem serialPdu_length (a : UChar) (p : List UChar) : (serialPdu a p).length = p.length + 2 := by
  simp [serialPdu]

/-- Address and checksum written around a PDU. -/
theorem holds_serialPdu {buf : Buf} {p : List UChar} (hpdu : buf.Holds 1 p) (a : UChar) :
    Mem.Holds (Function.update (Function.update buf 0 a) (1 + p.length)
      (prvucMBLRC (Function.update buf 0 a) (1 + p.length))) 0 (serialPdu a p) := by
  have hbody : Mem.Holds (Function.update buf 0 a) 0 (a :: p) := by
    rw [Mem.holds_cons]
    exact ⟨Function.update_self .., hpdu.update (Or.inl Nat.zero_lt_one) a⟩
  have hlen : (a :: p).length = 1 + p.length := Nat.add_comm ..
  have hlrc := prvucMBLRC_of_holds hbody
  rw [hlen] at hlrc
  refine Mem.holds_append.mpr ⟨hbody.update (Or.inr ?_) _, ?_⟩
  · rw [hlen, Nat.zero_add]
  · rw [hlen, Nat.zero_add, Mem.holds_cons, Function.update_self]
    exact ⟨hlrc, Mem.holds_nil ..⟩

/-- `eMBASCIISend` where it activates the transmitter. -/
theorem send_eq {a : UChar} {p : List UChar} (hidle : s.eRcvState = .idle)
    (hpdu : s.ucASCIIBuf.Holds 1 p) :
    ∃ buf : Buf, buf.Holds 0 (serialPdu a p) ∧
      s.eMBASCIISend a p.length = (.enoerr, { s with
        pucSndBufferCur := 0
        ucASCIIBuf := buf
        usSndBufferCount := 1 + p.length + 1
        eSndState := .start
        xRxEnable := false
        xTxEnable := true }) :=
  ⟨_, holds_serialPdu hpdu a, if_pos hidle⟩

/-- `eMBASCIISend` and the turns of the transmitter that follow put the frame on the line. -/
theorem sends_frame {a : UChar} {p : List UChar} (hlf : s.ucMBLFCharacter = mbAsciiDefaultLf)
    (hidle : s.eRcvState = .idle) (hpdu : s.ucASCIIBuf.Holds 1 p) :
    (s.eMBASCIISend a p.length).1 = .enoerr ∧
      ∃ s', Until xTxEnable xMBASCIITransmitFSM (s.eMBASCIISend a p.length).2 s' ∧
        s'.output = s.output ++ (asciiFrame (encoded (serialPdu a p))).map .put ++
          [.post .frameSent] := by
  obtain ⟨buf, hbuf, heq⟩ := send_eq (a := a) hidle hpdu
  rw [heq]
  refine ⟨rfl, ?_⟩
  have hcount : 1 + p.length + 1 = (serialPdu a p).length := by
    rw [serialPdu_length]
    omega
  obtain ⟨s', huntil, hout⟩ := transmits_bytes (serialPdu a p)
    (s := { s with
      pucSndBufferCur := 0
      ucASCIIBuf := buf
      usSndBufferCount := 1 + p.length + 1
      eSndState := .data
      eBytePos := .highNibble
      xRxEnable := false
      xTxEnable := true
      output := s.output ++ [.put asciiColon] })
    rfl rfl hcount hbuf rfl
  refine ⟨s', .next rfl huntil, ?_⟩
  rw [hout, hlf]
  simp [asciiFrame]

/-- `eMBASCIIReceive` returns the PDU and the address it is for. -/
def Gets (s : Ascii) (a : UChar) (p : List UChar) : Prop :=
  ∃ f, s.eMBASCIIReceive = .ok f ∧ f.pucRcvAddress = a ∧ f.pusLength = p.length ∧
    f.pucFrame.Holds 0 p

/-- The data block of a PDU is received as that PDU. -/
theorem Reads.gets {a : UChar} {p : List UChar} (h : s.Reads (encoded (serialPdu a p)))
    (h1 : 1 ≤ p.length) : s.Gets a p := by
  have hlen : 6 ≤ (encoded (serialPdu a p)).length := by
    rw [encoded_length, serialPdu_length]
    omega
  have hlrc : prvucMBLRCList (decoded (encoded (serialPdu a p))) = 0 := by
    rw [decoded_encoded]
    exact prvucMBLRCList_checked (a :: p)
  obtain ⟨f, hf⟩ := h.receive_ok.mpr ⟨hlen, hlrc⟩
  obtain ⟨b, hb⟩ := h.receive_bytes hf
  rw [decoded_encoded, serialPdu] at hb
  obtain ⟨hbytes, -⟩ := List.append_inj' hb rfl
  obtain ⟨haddr, hpdu⟩ := List.cons.inj hbytes
  have hpl : p.length = f.pusLength := by
    rw [hpdu, slice_length]
  refine ⟨f, hf, haddr.symm, hpl.symm, ?_⟩
  rw [Mem.Holds, hpl]
  exact hpdu.symm

/-! ## Both directions -/

@[simp] theorem transmitFSM_ucMBLFCharacter (s : Ascii) :
    s.xMBASCIITransmitFSM.ucMBLFCharacter = s.ucMBLFCharacter := by
  unfold xMBASCIITransmitFSM
  cases s.eSndState with
  | idle => rfl
  | start => rfl
  | finish => rfl
  | notify => rfl
  | data =>
    dsimp only
    split
    · unfold sendNibble
      cases s.eBytePos with
      | highNibble => rfl
      | lowNibble => rfl
    · rfl

/-- No action changes the character that ends a frame. -/
theorem step_ucMBLFCharacter {a : Action} {s' : Ascii} (hst : s.step a = some s') :
    s'.ucMBLFCharacter = s.ucMBLFCharacter := by
  cases a with
  | character c =>
    rw [(character_cases hst).2]
    exact receiveFSM_ucMBLFCharacter s c
  | timer => rw [(timer_cases hst).2, timerT1SExpired_eq]
  | txReady =>
    rw [(txReady_cases hst).2]
    exact transmitFSM_ucMBLFCharacter s
  | send a p =>
    rw [(send_cases hst).2]
    unfold eMBASCIISend
    split
    · rfl
    · rfl

/-- In every run the character that ends a frame is LF. -/
theorem lf_of_reachable (h : Reachable Started step s) : s.ucMBLFCharacter = mbAsciiDefaultLf := by
  induction h with
  | start hs =>
    obtain ⟨buf⟩ := hs
    rfl
  | next _ _ hst ih => exact (step_ucMBLFCharacter hst).trans ih

/-- What an idle slave sends for a PDU in its buffer is a frame of hexadecimal characters that is
announced once, and a receiver in any state reads it as that PDU for that address. -/
theorem ascii_round_trip (a : UChar) (p : List UChar) (h1 : 1 ≤ p.length)
    (h253 : p.length ≤ mbPduSizeMax) :
    ∀ s, Reachable Started step s → s.eRcvState = .idle →
      ((s.putPdu p).eMBASCIISend a p.length).1 = .enoerr ∧
      ∃ data s', Until xTxEnable xMBASCIITransmitFSM
          ((s.putPdu p).eMBASCIISend a p.length).2 s' ∧
        s'.output = s.output ++ (asciiFrame data).map .put ++ [.post .frameSent] ∧
        data.length = 2 * (p.length + 2) ∧ (∀ c ∈ data, c ∈ hexDigits) ∧
        ∀ r, Reachable Started step r →
          ((asciiFrame data).dropLast.foldl xMBASCIIReceiveFSM r).output = r.output ∧
          ((asciiFrame data).foldl xMBASCIIReceiveFSM r).output =
            r.output ++ [.post .frameReceived] ∧
          ((asciiFrame data).foldl xMBASCIIReceiveFSM r).Gets a p := by
  intro s hs hidle
  have hlf := lf_of_reachable hs
  obtain ⟨hok, s', huntil, hout⟩ :=
    sends_frame (s := s.putPdu p) (a := a) hlf hidle (Mem.holds_write p s.ucASCIIBuf 1)
  refine ⟨hok, encoded (serialPdu a p), s', huntil, hout, ?_, fun c => mem_encoded, ?_⟩
  · rw [encoded_length, serialPdu_length]
  · intro r hr
    have hblock : DataBlock (encoded (serialPdu a p)) := by
      refine .encoded ?_
      rw [serialPdu_length]
      exact Nat.le_trans (Nat.add_le_add_right h253 2) (by decide)
    obtain ⟨hreads, hsilent, hpost⟩ := receives_frame (lf_of_reachable hr) hblock
    exact ⟨hsilent, hpost, hreads.gets h1⟩

/-- A started slave sends an exception reply, and reads it back. -/
theorem ascii_round_trip_reply :
    ∃ data : List UChar, data.length = 8 ∧
      ((asciiFrame data).foldl xMBASCIIReceiveFSM
        (static fun _ => 0).eMBASCIIInit.eMBASCIIStart).Gets 1 [0x83, 2] := by
  obtain ⟨-, data, -, -, -, hlen, -, hgets⟩ :=
    ascii_round_trip 1 [0x83, 2] (by decide) (by decide) _ (.start ⟨fun _ => 0⟩) rfl
  obtain ⟨-, -, h⟩ := hgets _ (.start ⟨fun _ => 0⟩)
  exact ⟨data, hlen, h⟩

end Ascii

end FreeModbus
