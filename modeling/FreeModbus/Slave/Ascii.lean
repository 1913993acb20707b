import FreeModbus.Base
import FreeModbus.Lib.Transition
import FreeModbus.Port.Event

/-!
# The ASCII slave

`mbascii.c` over its port: the character receive machine, the transmit machine, the
character timer, and the routines by which the upper layer receives and sends.

A frame is a colon, two hexadecimal characters a byte, and CR LF.  The receiver decodes
on the fly into `ucASCIIBuf`, which is the frame buffer of the RTU mode, and a reply is
sent from the same buffer.  Receiver and transmitter share the buffer and the variable
`eBytePos`.

Each action is one atomic step, enabled where the port can take it: a character where the
receiver is on, an expiry where the timer runs, a turn of the transmitter where it is on.
The upper layer may call `eMBASCIISend` on a PDU it has put into the buffer at any time.
-/

namespace FreeModbus

open ByteMemory Transition

/-! ## Characters -/

/-- `':'`. -/
def asciiColon : UChar := 0x3A

/-- `MB_ASCII_DEFAULT_CR`. -/
def mbAsciiDefaultCr : UChar := 0x0D

/-- `MB_ASCII_DEFAULT_LF`. -/
def mbAsciiDefaultLf : UChar := 0x0A

/-- `MB_SER_PDU_SIZE_MIN` of `mbascii.c`. -/
abbrev mbAsciiSizeMin : Nat := 3

/-- `MB_SER_PDU_SIZE_LRC`. -/
abbrev mbAsciiSizeLrc : Nat := 1

/-- `prvucMBCHAR2BIN`. -/
def prvucMBCHAR2BIN (ucCharacter : UChar) : UChar :=
  if 0x30 ≤ ucCharacter ∧ ucCharacter ≤ 0x39 then ucCharacter - 0x30
  else if 0x41 ≤ ucCharacter ∧ ucCharacter ≤ 0x46 then ucCharacter - 0x41 + 0x0A
  else 0xFF

/-- `prvucMBBIN2CHAR`. -/
def prvucMBBIN2CHAR (ucByte : UChar) : UChar :=
  if ucByte ≤ 0x09 then 0x30 + ucByte
  else if 0x0A ≤ ucByte ∧ ucByte ≤ 0x0F then ucByte - 0x0A + 0x41
  else 0x30

/-- `prvucMBLRC` of a list. -/
def prvucMBLRCList (l : List UChar) : UChar := -(l.foldl (· + ·) 0)

/-- `prvucMBLRC`. -/
def prvucMBLRC (pucFrame : Buf) (usLen : Nat) : UChar := prvucMBLRCList (slice pucFrame 0 usLen)

/-! ## State -/

/-- `eMBRcvState` of `mbascii.c`. -/
inductive AsciiRcvState where
  | idle
  | rcv
  | waitEof
deriving Repr, DecidableEq

/-- `eMBSndState` of `mbascii.c`. -/
inductive AsciiSndState where
  | idle
  | start
  | data
  /-- `STATE_TX_END`. -/
  | finish
  | notify
deriving Repr, DecidableEq

/-- `eMBBytePos`. -/
inductive MBBytePos where
  | highNibble
  | lowNibble
deriving Repr, DecidableEq

/-- What the port is given: a character for the line, or an event. -/
inductive AsciiOutput where
  | put (ucByte : UChar)
  | post (eEvent : MBEventType)
deriving Repr, DecidableEq

/-- The static data of `mbascii.c` and the port. -/
structure Ascii where
  eSndState : AsciiSndState
  eRcvState : AsciiRcvState
  ucASCIIBuf : Buf
  usRcvBufferPos : Nat
  eBytePos : MBBytePos
  /-- `pucSndBufferCur`, as an index of `ucASCIIBuf`. -/
  pucSndBufferCur : Nat
  usSndBufferCount : Nat
  ucMBLFCharacter : UChar
  /-- The receive interrupt is enabled. -/
  xRxEnable : Bool
  /-- The transmit interrupt is enabled. -/
  xTxEnable : Bool
  /-- The character timer runs. -/
  xTimer : Bool
  /-- What the port was given so far. -/
  output : List AsciiOutput

namespace Ascii

/-! ## The port -/

/-- `vMBPortSerialEnable`. -/
def vMBPortSerialEnable (s : Ascii) (xRxEnable xTxEnable : Bool) : Ascii :=
  { s with xRxEnable := xRxEnable, xTxEnable := xTxEnable }

/-- `vMBPortTimersEnable`. -/
def vMBPortTimersEnable (s : Ascii) : Ascii := { s with xTimer := true }

/-- `vMBPortTimersDisable`. -/
def vMBPortTimersDisable (s : Ascii) : Ascii := { s with xTimer := false }

/-- `xMBPortSerialPutByte`. -/
def xMBPortSerialPutByte (s : Ascii) (ucByte : UChar) : Ascii :=
  { s with output := s.output ++ [.put ucByte] }

/-- `xMBPortEventPost`. -/
def post (s : Ascii) (eEvent : MBEventType) : Ascii :=
  { s with output := s.output ++ [.post eEvent] }

/-! ## `mbascii.c` -/

/-- The static data before `eMBASCIIInit`, with what the buffer holds. -/
def static (buf : Buf) : Ascii where
  eSndState := .idle
  eRcvState := .idle
  ucASCIIBuf := buf
  usRcvBufferPos := 0
  eBytePos := .highNibble
  pucSndBufferCur := 0
  usSndBufferCount := 0
  ucMBLFCharacter := 0
  xRxEnable := false
  xTxEnable := false
  xTimer := false
  output := []

/-- `eMBASCIIInit`, where the port initialises. -/
def eMBASCIIInit (s : Ascii) : Ascii := { s with ucMBLFCharacter := mbAsciiDefaultLf }

/-- `eMBASCIIStart`. -/
def eMBASCIIStart (s : Ascii) : Ascii :=
  post { s.vMBPortSerialEnable true false with eRcvState := .idle } .ready

/-- What `eMBASCIIReceive` returns by reference. -/
structure Received where
  pucRcvAddress : UChar
  pucFrame : Buf
  pusLength : Nat

/-- `eMBASCIIReceive`. -/
def eMBASCIIReceive (s : Ascii) : Except MBErrorCode Received :=
  if mbAsciiSizeMin ≤ s.usRcvBufferPos ∧ prvucMBLRC s.ucASCIIBuf s.usRcvBufferPos = 0 then
    .ok {
      pucRcvAddress := s.ucASCIIBuf mbSerPduAddrOff
      pusLength := s.usRcvBufferPos - mbSerPduPduOff - mbAsciiSizeLrc
      pucFrame := s.ucASCIIBuf.at mbSerPduPduOff }
  else .error .eio

/-- `eMBASCIISend` of the PDU at `ucASCIIBuf[1]`. -/
def eMBASCIISend (s : Ascii) (ucSlaveAddress : UChar) (usLength : Nat) : MBErrorCode × Ascii :=
  if s.eRcvState = .idle then
    let buf₁ : Buf := Function.update s.ucASCIIBuf mbSerPduAddrOff ucSlaveAddress
    let usSndBufferCount := 1 + usLength
    let usLRC := prvucMBLRC buf₁ usSndBufferCount
    (.enoerr, vMBPortSerialEnable { s with
      pucSndBufferCur := 0
      ucASCIIBuf := Function.update buf₁ usSndBufferCount usLRC
      usSndBufferCount := usSndBufferCount + 1
      eSndState := .start } false true)
  else (.eio, s)

/-- The receive buffer is emptied. -/
def emptyBuffer (s : Ascii) : Ascii := { s with usRcvBufferPos := 0, eBytePos := .highNibble }

/-- A character of the data block. -/
def decodeCharacter (s : Ascii) (ucByte : UChar) : Ascii :=
  let ucResult := prvucMBCHAR2BIN ucByte
  match s.eBytePos with
  | .highNibble =>
      if s.usRcvBufferPos < mbSerPduSizeMax then
        { s with
          ucASCIIBuf := Function.update s.ucASCIIBuf s.usRcvBufferPos (ucResult <<< 4)
          eBytePos := .lowNibble }
      else vMBPortTimersDisable { s with eRcvState := .idle }
  | .lowNibble =>
      { s with
        ucASCIIBuf := Function.update s.ucASCIIBuf s.usRcvBufferPos
          (s.ucASCIIBuf s.usRcvBufferPos ||| ucResult)
        usRcvBufferPos := s.usRcvBufferPos + 1
        eBytePos := .highNibble }

/-- `xMBASCIIReceiveFSM` on the character read from the port. -/
def xMBASCIIReceiveFSM (s : Ascii) (ucByte : UChar) : Ascii :=
  match s.eRcvState with
  | .rcv =>
      let s₁ := s.vMBPortTimersEnable
      if ucByte = asciiColon then s₁.emptyBuffer
      else if ucByte = mbAsciiDefaultCr then { s₁ with eRcvState := .waitEof }
      else s₁.decodeCharacter ucByte
  | .waitEof =>
      if ucByte = s.ucMBLFCharacter then
        post { s.vMBPortTimersDisable with eRcvState := .idle } .frameReceived
      else if ucByte = asciiColon then
        vMBPortTimersEnable { s.emptyBuffer with eRcvState := .rcv }
      else { s with eRcvState := .idle }
  | .idle =>
      if ucByte = asciiColon then { s.vMBPortTimersEnable.emptyBuffer with eRcvState := .rcv }
      else s

/-- The data block of `xMBASCIITransmitFSM`, with bytes left to send. -/
def sendNibble (s : Ascii) : Ascii :=
  match s.eBytePos with
  | .highNibble =>
      { s.xMBPortSerialPutByte (prvucMBBIN2CHAR (s.ucASCIIBuf s.pucSndBufferCur >>> 4)) with
        eBytePos := .lowNibble }
  | .lowNibble =>
      { s.xMBPortSerialPutByte (prvucMBBIN2CHAR (s.ucASCIIBuf s.pucSndBufferCur &&& 0x0F)) with
        pucSndBufferCur := s.pucSndBufferCur + 1
        eBytePos := .highNibble
        usSndBufferCount := s.usSndBufferCount - 1 }

/-- `xMBASCIITransmitFSM`. -/
def xMBASCIITransmitFSM (s : Ascii) : Ascii :=
  match s.eSndState with
  | .start =>
      { s.xMBPortSerialPutByte asciiColon with eSndState := .data, eBytePos := .highNibble }
  | .data =>
      if 0 < s.usSndBufferCount then s.sendNibble
      else { s.xMBPortSerialPutByte mbAsciiDefaultCr with eSndState := .finish }
  | .finish => { s.xMBPortSerialPutByte s.ucMBLFCharacter with eSndState := .notify }
  | .notify => { (s.post .frameSent).vMBPortSerialEnable true false with eSndState := .idle }
  | .idle => s.vMBPortSerialEnable true false

/-- `xMBASCIITimerT1SExpired`. -/
def xMBASCIITimerT1SExpired (s : Ascii) : Ascii :=
  match s.eRcvState with
  | .rcv => vMBPortTimersDisable { s with eRcvState := .idle }
  | .waitEof => vMBPortTimersDisable { s with eRcvState := .idle }
  | .idle => s.vMBPortTimersDisable

/-! ## Steps -/

/-- A slave that `eMBASCIIInit` and `eMBASCIIStart` have started. -/
inductive Started : Ascii → Prop where
  | intro (buf : Buf) : Started (static buf).eMBASCIIInit.eMBASCIIStart

/-- What can happen to the slave. -/
inductive Action where
  | character (ucByte : UChar)
  | timer
  | txReady
  | send (ucSlaveAddress : UChar) (pdu : List UChar)

/-- The upper layer puts a PDU into the buffer. -/
def putPdu (s : Ascii) (pdu : List UChar) : Ascii :=
  { s with ucASCIIBuf := s.ucASCIIBuf.write mbSerPduPduOff pdu }

/-- One step of the slave, where the action is enabled. -/
def step (s : Ascii) : Action → Option Ascii
  | .character ucByte => if s.xRxEnable then some (s.xMBASCIIReceiveFSM ucByte) else none
  | .timer => if s.xTimer then some s.xMBASCIITimerT1SExpired else none
  | .txReady => if s.xTxEnable then some s.xMBASCIITransmitFSM else none
  | .send ucSlaveAddress pdu =>
      if pdu.length ≤ mbPduSizeMax then
        some ((s.putPdu pdu).eMBASCIISend ucSlaveAddress pdu.length).2
      else none

/-! ## What a step does -/

variable {s s' : Ascii}

theorem character_cases {ucByte : UChar} (h : s.step (.character ucByte) = some s') :
    s.xRxEnable = true ∧ s' = s.xMBASCIIReceiveFSM ucByte := by
  obtain ⟨hrx, heq⟩ := Option.ite_none_right_eq_some.mp h
  exact ⟨hrx, (Option.some.inj heq).symm⟩

theorem timer_cases (h : s.step .timer = some s') :
    s.xTimer = true ∧ s' = s.xMBASCIITimerT1SExpired := by
  obtain ⟨ht, heq⟩ := Option.ite_none_right_eq_some.mp h
  exact ⟨ht, (Option.some.inj heq).symm⟩

theorem txReady_cases (h : s.step .txReady = some s') :
    s.xTxEnable = true ∧ s' = s.xMBASCIITransmitFSM := by
  obtain ⟨htx, heq⟩ := Option.ite_none_right_eq_some.mp h
  exact ⟨htx, (Option.some.inj heq).symm⟩

theorem send_cases {ucSlaveAddress : UChar} {pdu : List UChar}
    (h : s.step (.send ucSlaveAddress pdu) = some s') :
    pdu.length ≤ mbPduSizeMax ∧
      s' = ((s.putPdu pdu).eMBASCIISend ucSlaveAddress pdu.length).2 := by
  obtain ⟨hlen, heq⟩ := Option.ite_none_right_eq_some.mp h
  exact ⟨hlen, (Option.some.inj heq).symm⟩

/-- An expiry ends the frame. -/
theorem timerT1SExpired_eq (s : Ascii) :
    s.xMBASCIITimerT1SExpired = { s with eRcvState := .idle, xTimer := false } := by
  obtain ⟨_, eRcvState⟩ := s
  cases eRcvState with
  | idle => rfl
  | rcv => rfl
  | waitEof => rfl

end Ascii

end FreeModbus
