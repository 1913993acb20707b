import FreeModbus.Slave.AsciiFraming
import FreeModbus.Slave.Stack

/-!
# The ASCII slave

`mb.c` over `mbascii.c`, from the characters that come in to the characters that go out.
The events that the character machines give to the port are those that `eMBPoll` gets.

The last sections follow the receiver through a frame, and the transmitter through the
characters it still has to send (`Sends`).
-/

namespace FreeModbus

open ByteMemory EventFlags

/-- The transport that `eMBInit` selects for `MB_ASCII`. -/
def asciiTransport : Transport Ascii where
  peMBFrameReceiveCur t := (t.eMBASCIIReceive.map fun f => (f.pucRcvAddress, f.pusLength), t)
  frame t := t.ucASCIIBuf.at mbSerPduPduOff
  setFrame t buf := { t with ucASCIIBuf := t.ucASCIIBuf.splice mbSerPduPduOff buf }
  peMBFrameSendCur t ucSlaveAddress usLength := t.eMBASCIISend ucSlaveAddress usLength
  frame_setFrame t buf := funext fun i => Mem.splice_add t.ucASCIIBuf buf mbSerPduPduOff i
  setFrame_setFrame t buf buf' := by
    have hbuf := Mem.splice_splice t.ucASCIIBuf buf buf' mbSerPduPduOff
    dsimp only
    rw [hbuf]

/-- The static data of `mb.c` and `mbascii.c`, with the port. -/
abbrev AsciiSlave := Stack Ascii

/-- The events of a port's output, posted. -/
def posted (flags : BitVec 32) (output : List AsciiOutput) : BitVec 32 :=
  output.foldl (fun flags o => match o with
    | .put _ => flags
    | .post eEvent => xMBPortEventPost flags eEvent) flags

/-- The characters of a port's output. -/
def characters (output : List AsciiOutput) : List UChar :=
  output.filterMap fun o => match o with
    | .put ucByte => some ucByte
    | .post _ => none

theorem characters_post (output : List AsciiOutput) (eEvent : MBEventType) :
    characters (output ++ [.post eEvent]) = characters output := by
  simp [characters]

theorem characters_put (output : List AsciiOutput) (ucByte : UChar) :
    characters (output ++ [.put ucByte]) = characters output ++ [ucByte] := by
  simp [characters]

namespace AsciiSlave

/-! ## `mb.c` in the mode `MB_ASCII` -/

/-- What a character machine leaves, with the events it gave to the port. -/
def withLink (s : AsciiSlave) (link : Ascii) : AsciiSlave :=
  { s with
    link := link
    xSlaveOsEvent := posted s.xSlaveOsEvent (link.output.drop s.link.output.length) }

/-- The characters put on the line so far. -/
def sent (s : AsciiSlave) : List UChar := characters s.link.output

/-- The static data before `eMBInit`, with the register contents and what the buffer holds. -/
def static (app : SlaveApp) (buf : Buf) : AsciiSlave where
  link := .static buf
  eMBState := .notInitialized
  ucMBAddress := 0
  xFuncHandlers := FreeModbus.xFuncHandlers
  ucMBFrame := false
  ucRcvAddress := 0
  ucFunctionCode := 0
  usLength := 0
  eException := .none
  xSlaveOsEvent := 0
  app := app

/-- `eMBInit` in mode `MB_ASCII`, where the port initialises. -/
def eMBInit (s : AsciiSlave) (ucSlaveAddress : UChar) : MBErrorCode × AsciiSlave :=
  if ucSlaveAddress = mbAddressBroadcast ∨
      ucSlaveAddress < mbAddressMin ∨ mbAddressMax < ucSlaveAddress then
    (.einval, s)
  else (.enoerr, { s with
    ucMBAddress := ucSlaveAddress
    link := s.link.eMBASCIIInit
    eMBState := .disabled })

/-- `eMBEnable`. -/
def eMBEnable (s : AsciiSlave) : MBErrorCode × AsciiSlave :=
  if s.eMBState = .disabled then
    (.enoerr, { s.withLink s.link.eMBASCIIStart with eMBState := .enabled })
  else (.eillstate, s)

/-- A slave that `eMBInit` and `eMBEnable` have started. -/
inductive Started : AsciiSlave → Prop where
  | intro (app : SlaveApp) (buf : Buf) (ucSlaveAddress : UChar) :
      ((static app buf).eMBInit ucSlaveAddress).1 = .enoerr →
      Started ((static app buf).eMBInit ucSlaveAddress).2.eMBEnable.2

/-- What can happen to the slave. -/
inductive Action where
  | character (ucByte : UChar)
  | timer
  | txReady
  | poll (junk : Option MBEventType)

/-- One step of the slave, where the action is enabled. -/
def step (s : AsciiSlave) : Action → Option AsciiSlave
  | .character ucByte =>
      if s.link.xRxEnable then some (s.withLink (s.link.xMBASCIIReceiveFSM ucByte)) else none
  | .timer =>
      if s.link.xTimer then some (s.withLink s.link.xMBASCIITimerT1SExpired) else none
  | .txReady =>
      if s.link.xTxEnable then some (s.withLink s.link.xMBASCIITransmitFSM) else none
  | .poll junk => s.eMBPoll asciiTransport junk

/-- No event is pending, and the transmitter is off. -/
structure AtRest (s : AsciiSlave) : Prop where
  event : ¬ slaveChannel.Returns s.xSlaveOsEvent
  tx : s.link.xTxEnable = false

end AsciiSlave

namespace Ascii

variable {s : Ascii} {c : UChar} {data chars rest : List UChar}

/-! ## The receiver within a frame -/

/-- A character changes the receive machine, the timer and the output, which grows. -/
theorem receiveFSM_frame (s : Ascii) (c : UChar) : ∃ st buf pos nibble timer out,
    s.xMBASCIIReceiveFSM c = { s with
      eRcvState := st
      ucASCIIBuf := buf
      usRcvBufferPos := pos
      eBytePos := nibble
      xTimer := timer
      output := out } ∧ s.output <+: out := by
  have hsame : s.output <+: s.output := List.prefix_rfl
  have hmore : s.output <+: s.output ++ [.post .frameReceived] := List.prefix_append ..
  unfold xMBASCIIReceiveFSM
  cases s.eRcvState with
  | idle =>
    dsimp only
    split
    · exact ⟨_, _, _, _, _, _, rfl, hsame⟩
    · exact ⟨_, _, _, _, _, _, rfl, hsame⟩
  | waitEof =>
    dsimp only
    split
    · exact ⟨_, _, _, _, _, _, rfl, hmore⟩
    · split
      · exact ⟨_, _, _, _, _, _, rfl, hsame⟩
      · exact ⟨_, _, _, _, _, _, rfl, hsame⟩
  | rcv =>
    dsimp only
    split
    · exact ⟨_, _, _, _, _, _, rfl, hsame⟩
    · split
      · exact ⟨_, _, _, _, _, _, rfl, hsame⟩
      · unfold decodeCharacter
        split
        · split
          · exact ⟨_, _, _, _, _, _, rfl, hsame⟩
          · exact ⟨_, _, _, _, _, _, rfl, hsame⟩
        · exact ⟨_, _, _, _, _, _, rfl, hsame⟩

theorem foldl_receiveFSM_frame (s : Ascii) (chars : List UChar) :
    ∃ st buf pos nibble timer out,
      chars.foldl xMBASCIIReceiveFSM s = { s with
        eRcvState := st
        ucASCIIBuf := buf
        usRcvBufferPos := pos
        eBytePos := nibble
        xTimer := timer
        output := out } ∧ s.output <+: out := by
  induction chars generalizing s with
  | nil => exact ⟨_, _, _, _, _, _, rfl, List.prefix_rfl⟩
  | cons c chars ih =>
    obtain ⟨_, _, _, _, _, _, hfirst, hgrows⟩ := receiveFSM_frame s c
    obtain ⟨st, buf, pos, nibble, timer, out, hrest, hgrows'⟩ := ih (s.xMBASCIIReceiveFSM c)
    refine ⟨st, buf, pos, nibble, timer, out, ?_, ?_⟩
    · rw [List.foldl_cons, hrest, hfirst]
    · rw [hfirst] at hgrows'
      exact hgrows.trans hgrows'

/-- Before the last character of a frame nothing is given to the port. -/
theorem foldl_output_of_prefix (hlf : s.ucMBLFCharacter = mbAsciiDefaultLf)
    (h : DataBlock data) (hframe : chars ++ rest = asciiFrame data)
    (hrest : rest ≠ []) : (chars.foldl xMBASCIIReceiveFSM s).output = s.output := by
  obtain ⟨rest, c, rfl⟩ := (List.eq_nil_or_concat rest).resolve_left hrest
  have hinit : (asciiFrame data).dropLast = chars ++ rest := by
    rw [← hframe, List.concat_eq_append, ← List.append_assoc, List.dropLast_concat]
  obtain ⟨-, hsilent, -⟩ := receives_frame (s := s) hlf h
  rw [hinit, List.foldl_append] at hsilent
  obtain ⟨_, _, _, _, _, out, heq, hgrows⟩ := foldl_receiveFSM_frame s chars
  obtain ⟨_, _, _, _, _, out', heq', hgrows'⟩ :=
    foldl_receiveFSM_frame (chars.foldl xMBASCIIReceiveFSM s) rest
  rw [heq'] at hsilent
  rw [heq] at hgrows' ⊢
  rw [show out' = s.output from hsilent] at hgrows'
  exact (hgrows.eq_of_length_le hgrows'.length_le).symm

/-! ## What the transmitter still has to send -/

/-- The transmitter still has to send these characters. -/
inductive Sends (s : Ascii) : List UChar → Prop where
  | colon {bytes : List UChar} : s.eSndState = .start → s.ucASCIIBuf.Holds s.pucSndBufferCur bytes →
      s.usSndBufferCount = bytes.length → Sends s (asciiFrame (encoded bytes))
  | high {bytes : List UChar} : s.eSndState = .data → s.eBytePos = .highNibble →
      s.ucASCIIBuf.Holds s.pucSndBufferCur bytes → s.usSndBufferCount = bytes.length →
      Sends s (encoded bytes ++ [mbAsciiDefaultCr, mbAsciiDefaultLf])
  | low {b : UChar} {bytes : List UChar} : s.eSndState = .data → s.eBytePos = .lowNibble →
      s.ucASCIIBuf.Holds s.pucSndBufferCur (b :: bytes) → s.usSndBufferCount = bytes.length + 1 →
      Sends s ((hexPair b).2 :: (encoded bytes ++ [mbAsciiDefaultCr, mbAsciiDefaultLf]))
  | lf : s.eSndState = .finish → Sends s [mbAsciiDefaultLf]
  | notify : s.eSndState = .notify → Sends s []

/-- A turn of the transmitter sends the next of them. -/
theorem Sends.put (h : s.Sends (c :: rest)) (hlf : s.ucMBLFCharacter = mbAsciiDefaultLf) :
    s.xMBASCIITransmitFSM.Sends rest ∧ ∃ cur count st nibble,
      s.xMBASCIITransmitFSM = { s with
        pucSndBufferCur := cur
        usSndBufferCount := count
        eSndState := st
        eBytePos := nibble
        output := s.output ++ [.put c] } := by
  generalize hl : c :: rest = l at h
  cases h with
  | notify => cases hl
  | lf hsnd =>
    cases hl
    simp only [xMBASCIITransmitFSM, hsnd, hlf, xMBPortSerialPutByte]
    exact ⟨.notify rfl, _, _, _, _, rfl⟩
  | @colon bytes hsnd hbuf hcount =>
    rw [asciiFrame, List.append_assoc, List.cons_append] at hl
    cases hl
    simp only [xMBASCIITransmitFSM, hsnd, xMBPortSerialPutByte]
    exact ⟨.high rfl rfl hbuf hcount, _, _, _, _, rfl⟩
  | @low b bytes hsnd hpos hbuf hcount =>
    cases hl
    rw [Mem.holds_cons] at hbuf
    have hne : s.usSndBufferCount ≠ 0 := by omega
    rw [transmitFSM_data hsnd hne, sendNibble_low hpos, hbuf.1]
    refine ⟨.high hsnd rfl hbuf.2 ?_, _, _, _, _, rfl⟩
    show s.usSndBufferCount - 1 = bytes.length
    omega
  | @high bytes hsnd hpos hbuf hcount =>
    cases bytes with
    | nil =>
      cases hl
      have hzero : ¬ 0 < s.usSndBufferCount := by rw [hcount]; exact Nat.lt_irrefl 0
      simp only [xMBASCIITransmitFSM, hsnd, if_neg hzero, xMBPortSerialPutByte]
      exact ⟨.lf rfl, _, _, _, _, rfl⟩
    | cons b bytes =>
      have hne : s.usSndBufferCount ≠ 0 := by rw [hcount]; exact Nat.succ_ne_zero _
      rw [transmitFSM_data hsnd hne, sendNibble_high hpos]
      have hb := (Mem.holds_cons.mp hbuf).1
      rw [hb]
      cases hl
      refine ⟨.low hsnd rfl hbuf hcount, _, _, _, _, rfl⟩

/-- Behind the last one the receiver is on again, and the end of the frame is announced. -/
theorem Sends.finished (h : s.Sends []) : s.xMBASCIITransmitFSM = { s with
    eSndState := .idle
    xRxEnable := true
    xTxEnable := false
    output := s.output ++ [.post .frameSent] } := by
  generalize hl : ([] : List UChar) = l at h
  cases h with
  | notify hsnd => simp only [xMBASCIITransmitFSM, hsnd, vMBPortSerialEnable, post]
  | lf => cases hl
  | low => cases hl
  | colon => cases hl
  | high => exact absurd (congrArg List.length hl) (by simp)

end Ascii

end FreeModbus
