import FreeModbus.Lib.CheckedMemory
import FreeModbus.Slave.AsciiGrammar

/-!
# The buffer of the ASCII machine

The receive machine, the transmit machine and `eMBASCIISend` with checked accesses to
`ucASCIIBuf`, which has `MB_SER_PDU_SIZE_MAX` bytes.

Only the branch of the high nibble compares the position with the size.  The branch of the
low nibble relies on it, and on the variable `eBytePos`, which the transmit machine uses
too.  So the invariant says that the transmitter is busy only while the receiver is idle
and turned off (`InBuffer`).

Expiries and turns of the transmitter may come at any time here, also where the timer or
the transmitter is off.
-/

namespace FreeModbus

open ByteMemory Transition

namespace Ascii

/-! ## Checked accesses -/

section Checked

variable (size : Nat)

/-- `prvucMBLRC`. -/
def prvucMBLRCIn (pucFrame : Buf) (usLen : Nat) : Option UChar :=
  (pucFrame.readListIn size 0 usLen).map prvucMBLRCList

/-- `eMBASCIISend` of the PDU at `ucASCIIBuf[1]`. -/
def eMBASCIISendIn (s : Ascii) (ucSlaveAddress : UChar) (usLength : Nat) :
    Option (MBErrorCode × Ascii) :=
  if s.eRcvState = .idle then
    (s.ucASCIIBuf.writeIn size mbSerPduAddrOff ucSlaveAddress).bind fun buf₁ =>
    let usSndBufferCount := 1 + usLength
    (prvucMBLRCIn size buf₁ usSndBufferCount).bind fun usLRC =>
    (Mem.writeIn size buf₁ usSndBufferCount usLRC).map fun buf₂ =>
    (.enoerr, vMBPortSerialEnable { s with
      pucSndBufferCur := 0
      ucASCIIBuf := buf₂
      usSndBufferCount := usSndBufferCount + 1
      eSndState := .start } false true)
  else some (.eio, s)

/-- A character of the data block. -/
def decodeCharacterIn (s : Ascii) (ucByte : UChar) : Option Ascii :=
  let ucResult := prvucMBCHAR2BIN ucByte
  match s.eBytePos with
  | .highNibble =>
      if s.usRcvBufferPos < mbSerPduSizeMax then
        (s.ucASCIIBuf.writeIn size s.usRcvBufferPos (ucResult <<< 4)).map fun buf =>
        { s with ucASCIIBuf := buf, eBytePos := .lowNibble }
      else some (vMBPortTimersDisable { s with eRcvState := .idle })
  | .lowNibble =>
      (s.ucASCIIBuf.readIn size s.usRcvBufferPos).bind fun high : UChar =>
      (s.ucASCIIBuf.writeIn size s.usRcvBufferPos (high ||| ucResult)).map fun buf =>
      { s with
        ucASCIIBuf := buf
        usRcvBufferPos := s.usRcvBufferPos + 1
        eBytePos := .highNibble }

/-- `xMBASCIIReceiveFSM` on the character read from the port. -/
def xMBASCIIReceiveFSMIn (s : Ascii) (ucByte : UChar) : Option Ascii :=
  match s.eRcvState with
  | .rcv =>
      let s₁ := s.vMBPortTimersEnable
      if ucByte = asciiColon then some s₁.emptyBuffer
      else if ucByte = mbAsciiDefaultCr then some { s₁ with eRcvState := .waitEof }
      else decodeCharacterIn size s₁ ucByte
  | .waitEof => some (s.xMBASCIIReceiveFSM ucByte)
  | .idle => some (s.xMBASCIIReceiveFSM ucByte)

/-- The data block of `xMBASCIITransmitFSM`, with bytes left to send. -/
def sendNibbleIn (s : Ascii) : Option Ascii :=
  match s.eBytePos with
  | .highNibble =>
      (s.ucASCIIBuf.readIn size s.pucSndBufferCur).map fun b : UChar =>
      { s.xMBPortSerialPutByte (prvucMBBIN2CHAR (b >>> 4)) with eBytePos := .lowNibble }
  | .lowNibble =>
      (s.ucASCIIBuf.readIn size s.pucSndBufferCur).map fun b : UChar =>
      { s.xMBPortSerialPutByte (prvucMBBIN2CHAR (b &&& 0x0F)) with
        pucSndBufferCur := s.pucSndBufferCur + 1
        eBytePos := .highNibble
        usSndBufferCount := s.usSndBufferCount - 1 }

/-- `xMBASCIITransmitFSM`. -/
def xMBASCIITransmitFSMIn (s : Ascii) : Option Ascii :=
  match s.eSndState with
  | .data =>
      if 0 < s.usSndBufferCount then sendNibbleIn size s
      else some { s.xMBPortSerialPutByte mbAsciiDefaultCr with eSndState := .finish }
  | .start => some s.xMBASCIITransmitFSM
  | .finish => some s.xMBASCIITransmitFSM
  | .notify => some s.xMBASCIITransmitFSM
  | .idle => some s.xMBASCIITransmitFSM

end Checked

variable {s s' : Ascii} {size : Nat}

theorem eMBASCIISendIn_eq {n : Nat} (h : 1 + n < size) (a : UChar) :
    eMBASCIISendIn size s a n = some (s.eMBASCIISend a n) := by
  unfold eMBASCIISendIn eMBASCIISend
  by_cases hidle : s.eRcvState = .idle
  · have h0 : mbSerPduAddrOff < size := Nat.zero_lt_of_lt h
    have hread : 1 + n = 0 ∨ 0 + (1 + n) ≤ size := Or.inr (by omega)
    rw [if_pos hidle, if_pos hidle]
    simp only [Mem.writeIn, prvucMBLRCIn, Mem.readListIn_eq, onlyIf_pos h0, onlyIf_pos hread,
      onlyIf_pos h, Option.bind_some, Option.map_some]
    rfl
  · rw [if_neg hidle, if_neg hidle]

theorem decodeCharacterIn_eq (hsize : mbSerPduSizeMax ≤ size)
    (h : s.eBytePos = .lowNibble → s.usRcvBufferPos < mbSerPduSizeMax) (c : UChar) :
    decodeCharacterIn size s c = some (s.decodeCharacter c) := by
  unfold decodeCharacterIn decodeCharacter
  cases hpos : s.eBytePos with
  | highNibble =>
    dsimp only
    by_cases hlt : s.usRcvBufferPos < mbSerPduSizeMax
    · rw [if_pos hlt, if_pos hlt, Mem.writeIn, onlyIf_pos (Nat.lt_of_lt_of_le hlt hsize)]
      rfl
    · rw [if_neg hlt, if_neg hlt]
  | lowNibble =>
    have hlt := Nat.lt_of_lt_of_le (h hpos) hsize
    simp only [Mem.readIn, Mem.writeIn, onlyIf_pos hlt, Option.bind_some, Option.map_some]

theorem xMBASCIIReceiveFSMIn_eq (hsize : mbSerPduSizeMax ≤ size)
    (h : s.eRcvState = .rcv → s.eBytePos = .lowNibble → s.usRcvBufferPos < mbSerPduSizeMax)
    (c : UChar) : xMBASCIIReceiveFSMIn size s c = some (s.xMBASCIIReceiveFSM c) := by
  unfold xMBASCIIReceiveFSMIn
  cases hst : s.eRcvState with
  | idle => rfl
  | waitEof => rfl
  | rcv =>
    have hdecode := decodeCharacterIn_eq (s := s.vMBPortTimersEnable) hsize (h hst) c
    rw [xMBASCIIReceiveFSM, hst]
    dsimp only
    split
    · rfl
    · split
      · rfl
      · exact hdecode

theorem sendNibbleIn_eq (h : s.pucSndBufferCur < size) :
    sendNibbleIn size s = some s.sendNibble := by
  unfold sendNibbleIn sendNibble
  cases s.eBytePos with
  | highNibble => simp only [Mem.readIn, onlyIf_pos h, Option.map_some]
  | lowNibble => simp only [Mem.readIn, onlyIf_pos h, Option.map_some]

theorem xMBASCIITransmitFSMIn_eq (h : s.pucSndBufferCur + s.usSndBufferCount ≤ size) :
    xMBASCIITransmitFSMIn size s = some s.xMBASCIITransmitFSM := by
  unfold xMBASCIITransmitFSMIn
  cases hst : s.eSndState with
  | start => rfl
  | finish => rfl
  | notify => rfl
  | idle => rfl
  | data =>
    rw [xMBASCIITransmitFSM, hst]
    dsimp only
    by_cases hcount : 0 < s.usSndBufferCount
    · rw [if_pos hcount, if_pos hcount]
      exact sendNibbleIn_eq (by omega)
    · rw [if_neg hcount, if_neg hcount]

/-! ## The invariant -/

/-- The positions of both machines are in the buffer, or at its end. -/
structure InBuffer (s : Ascii) : Prop where
  low : s.eRcvState = .rcv → s.eBytePos = .lowNibble → s.usRcvBufferPos < mbSerPduSizeMax
  pos : s.usRcvBufferPos ≤ mbSerPduSizeMax
  busy : s.eSndState ≠ .idle → s.xRxEnable = false ∧ s.eRcvState = .idle
  send : s.pucSndBufferCur + s.usSndBufferCount ≤ mbSerPduSizeMax

/-- One step, with expiries and turns of the transmitter at any time. -/
def stepAnytime (s : Ascii) : Action → Option Ascii
  | .character ucByte => s.step (.character ucByte)
  | .timer => some s.xMBASCIITimerT1SExpired
  | .txReady => some s.xMBASCIITransmitFSM
  | .send ucSlaveAddress pdu => s.step (.send ucSlaveAddress pdu)

theorem stepAnytime_of_step {a : Action} (h : s.step a = some s') :
    s.stepAnytime a = some s' := by
  cases a with
  | character c => exact h
  | timer => exact congrArg some (timer_cases h).2.symm
  | txReady => exact congrArg some (txReady_cases h).2.symm
  | send addr pdu => exact h

/-- Every run is one of these. -/
theorem reachable_anytime (h : Reachable Started step s) : Reachable Started stepAnytime s := by
  induction h with
  | start hs => exact .start hs
  | next _ hok hst ih => exact .next ih hok (stepAnytime_of_step hst)

theorem InBuffer.started (h : Started s) : InBuffer s := by
  obtain ⟨buf⟩ := h
  exact ⟨fun hrcv => (by cases hrcv), Nat.zero_le _, fun hbusy => absurd rfl hbusy, Nat.zero_le _⟩

/-- What the receive machine may change while the transmitter has nothing to do. -/
theorem InBuffer.receive (h : InBuffer s) (hrx : s.xRxEnable = true)
    (hsnd : s'.eSndState = s.eSndState) (hcur : s'.pucSndBufferCur = s.pucSndBufferCur)
    (hcount : s'.usSndBufferCount = s.usSndBufferCount)
    (hlow : s'.eRcvState = .rcv → s'.eBytePos = .lowNibble → s'.usRcvBufferPos < mbSerPduSizeMax)
    (hpos : s'.usRcvBufferPos ≤ mbSerPduSizeMax) : InBuffer s' := by
  refine ⟨hlow, hpos, fun hbusy => ?_, ?_⟩
  · have hoff := (h.busy (hsnd ▸ hbusy)).1
    cases hrx.symm.trans hoff
  · rw [hcur, hcount]
    exact h.send

theorem InBuffer.decodeCharacter (h : InBuffer s) (hrx : s.xRxEnable = true)
    (hst : s.eRcvState = .rcv) (c : UChar) : InBuffer (s.decodeCharacter c) := by
  unfold Ascii.decodeCharacter
  cases hbyte : s.eBytePos with
  | highNibble =>
    dsimp only
    split
    · exact h.receive hrx rfl rfl rfl (fun _ _ => ‹_›) h.pos
    · exact h.receive hrx rfl rfl rfl (fun hrcv => by cases hrcv) h.pos
  | lowNibble =>
    exact h.receive hrx rfl rfl rfl (fun _ hlow => by cases hlow) (h.low hst hbyte)

theorem InBuffer.receiveFSM (h : InBuffer s) (hrx : s.xRxEnable = true) (c : UChar) :
    InBuffer (s.xMBASCIIReceiveFSM c) := by
  unfold xMBASCIIReceiveFSM
  cases hst : s.eRcvState with
  | rcv =>
    have hon : InBuffer s.vMBPortTimersEnable := h.receive hrx rfl rfl rfl h.low h.pos
    dsimp only
    split
    · exact h.receive hrx rfl rfl rfl (fun _ hlow => by cases hlow) (Nat.zero_le _)
    · split
      · exact h.receive hrx rfl rfl rfl (fun hrcv => by cases hrcv) h.pos
      · exact hon.decodeCharacter hrx hst c
  | waitEof =>
    dsimp only
    split
    · exact h.receive hrx rfl rfl rfl (fun hrcv => by cases hrcv) h.pos
    · split
      · exact h.receive hrx rfl rfl rfl (fun _ hlow => by cases hlow) (Nat.zero_le _)
      · exact h.receive hrx rfl rfl rfl (fun hrcv => by cases hrcv) h.pos
  | idle =>
    dsimp only
    split
    · exact h.receive hrx rfl rfl rfl (fun _ hlow => by cases hlow) (Nat.zero_le _)
    · exact h

/-- What the transmit machine may change while it has something to do. -/
theorem InBuffer.transmit (h : InBuffer s) (hbusy : s.eSndState ≠ .idle)
    (hst : s'.eRcvState = s.eRcvState) (hpos : s'.usRcvBufferPos = s.usRcvBufferPos)
    (hrx : s'.eSndState ≠ .idle → s'.xRxEnable = s.xRxEnable)
    (hsend : s'.pucSndBufferCur + s'.usSndBufferCount ≤ mbSerPduSizeMax) : InBuffer s' := by
  obtain ⟨hoff, hidle⟩ := h.busy hbusy
  refine ⟨fun hrcv => ?_, hpos ▸ h.pos, fun hbusy' => ⟨?_, hst.trans hidle⟩, hsend⟩
  · cases hidle.symm.trans (hst.symm.trans hrcv)
  · rw [hrx hbusy', hoff]

theorem InBuffer.sendNibble (h : InBuffer s) (hbusy : s.eSndState ≠ .idle)
    (hcount : 0 < s.usSndBufferCount) : InBuffer s.sendNibble := by
  have hsend := h.send
  unfold Ascii.sendNibble
  cases s.eBytePos with
  | highNibble => exact h.transmit hbusy rfl rfl (fun _ => rfl) hsend
  | lowNibble =>
    refine h.transmit hbusy rfl rfl (fun _ => rfl) ?_
    show s.pucSndBufferCur + 1 + (s.usSndBufferCount - 1) ≤ mbSerPduSizeMax
    omega

theorem InBuffer.transmitFSM (h : InBuffer s) : InBuffer s.xMBASCIITransmitFSM := by
  unfold xMBASCIITransmitFSM
  cases hst : s.eSndState with
  | idle => exact ⟨h.low, h.pos, fun hbusy => absurd hst hbusy, h.send⟩
  | start =>
    have hbusy : s.eSndState ≠ .idle := by simp [hst]
    exact h.transmit hbusy rfl rfl (fun _ => rfl) h.send
  | finish =>
    have hbusy : s.eSndState ≠ .idle := by simp [hst]
    exact h.transmit hbusy rfl rfl (fun _ => rfl) h.send
  | notify =>
    have hbusy : s.eSndState ≠ .idle := by simp [hst]
    exact h.transmit hbusy rfl rfl (fun hon => absurd rfl hon) h.send
  | data =>
    have hbusy : s.eSndState ≠ .idle := by simp [hst]
    dsimp only
    split
    · exact h.sendNibble hbusy ‹_›
    · exact h.transmit hbusy rfl rfl (fun _ => rfl) h.send

/-- A reply is put into the buffer and started, unless a frame is coming in. -/
theorem InBuffer.sendPdu (h : InBuffer s) (addr : UChar) {pdu : List UChar}
    (hlen : pdu.length ≤ mbPduSizeMax) :
    InBuffer ((s.putPdu pdu).eMBASCIISend addr pdu.length).2 := by
  unfold eMBASCIISend
  by_cases hidle : (s.putPdu pdu).eRcvState = .idle
  · rw [if_pos hidle]
    refine ⟨fun hrcv => ?_, h.pos, fun _ => ⟨rfl, hidle⟩, ?_⟩
    · cases hidle.symm.trans hrcv
    · show 0 + (1 + pdu.length + 1) ≤ mbSerPduSizeMax
      have hmax : mbPduSizeMax + 2 ≤ mbSerPduSizeMax := by decide
      omega
  · rw [if_neg hidle]
    exact ⟨h.low, h.pos, h.busy, h.send⟩

theorem InBuffer.step {a : Action} (h : InBuffer s) (hst : s.stepAnytime a = some s') :
    InBuffer s' := by
  cases a with
  | character c =>
    obtain ⟨hrx, rfl⟩ := character_cases hst
    exact h.receiveFSM hrx c
  | timer =>
    cases hst
    rw [timerT1SExpired_eq]
    exact ⟨fun hrcv => (by cases hrcv), h.pos, fun hbusy => ⟨(h.busy hbusy).1, rfl⟩, h.send⟩
  | txReady =>
    cases hst
    exact h.transmitFSM
  | send addr pdu =>
    obtain ⟨hlen, rfl⟩ := send_cases hst
    exact h.sendPdu addr hlen

/-- In every run the positions stay in the buffer, and every access to it is inside. -/
theorem ascii_in_buffer (s : Ascii) (hs : Reachable Started stepAnytime s) :
    (s.eRcvState = .rcv → s.eBytePos = .lowNibble → s.usRcvBufferPos < mbSerPduSizeMax) ∧
      s.usRcvBufferPos ≤ mbSerPduSizeMax ∧
      (∀ c, xMBASCIIReceiveFSMIn mbSerPduSizeMax s c = some (s.xMBASCIIReceiveFSM c)) ∧
      (∀ addr (pdu : List UChar), pdu.length ≤ mbPduSizeMax →
        eMBASCIISendIn mbSerPduSizeMax (s.putPdu pdu) addr pdu.length =
          some ((s.putPdu pdu).eMBASCIISend addr pdu.length)) ∧
      xMBASCIITransmitFSMIn mbSerPduSizeMax s = some s.xMBASCIITransmitFSM := by
  have h : InBuffer s := hs.invariant (fun _ => InBuffer.started) fun _ _ _ h _ => h.step
  refine ⟨h.low, h.pos, fun c => ?_, fun addr pdu hlen => ?_, ?_⟩
  · exact xMBASCIIReceiveFSMIn_eq (Nat.le_refl _) h.low c
  · have hmax : 1 + mbPduSizeMax < mbSerPduSizeMax := by decide
    exact eMBASCIISendIn_eq (by omega) addr
  · exact xMBASCIITransmitFSMIn_eq h.send

/-- After a colon and one digit the receiver waits for a low nibble. -/
theorem ascii_in_buffer_low :
    ∃ s : Ascii, s.eRcvState = .rcv ∧ s.eBytePos = .lowNibble ∧
      s.usRcvBufferPos < mbSerPduSizeMax := by
  have hrun : run step silent [.character 0x3A, .character 0x30] = some _ := rfl
  have hs := reachable_anytime (Reachable.of_run silent_reachable hrun)
  exact ⟨_, rfl, rfl, (ascii_in_buffer _ hs).1 rfl rfl⟩

end Ascii

end FreeModbus
