import FreeModbus.Crc
import FreeModbus.Lib.Transition
import FreeModbus.Port.Event
import FreeModbus.Slave.Functions

/-!
# The RTU slave

`mb.c` and `mbrtu.c` over the port of `port/rtt`: the receive and transmit state
machines, the t3.5 timer and the poll loop, on one state.

The parties are the serial interrupt (`byte`), the timer, the thread that feeds
the transmitter (`txReady`) and the thread that calls `eMBPoll` (`poll`).  Each
action is one atomic step.  An action is enabled where the port can take it: a
byte where the receiver is enabled, an expiry where the timer runs, a turn of
the transmitter where it was started.  A poll waits while no event is pending.

The PDU is not copied: `ucMBFrame` points into `ucRTUBuf`, one byte behind its
start, and the send buffer starts one byte before the PDU.  The local `eEvent`
of `eMBPoll` has no initial value, and a get that assigns nothing leaves it so.
The action `poll` carries the event that happens to be there.
-/

namespace FreeModbus

open ByteMemory

/-! ## State -/

/-- The state of the protocol stack (`eMBState`). -/
inductive MBState where
  | enabled
  | disabled
  | notInitialized
deriving Repr, DecidableEq

/-- `eMBRcvState`. -/
inductive MBRcvState where
  | init
  | idle
  | rcv
  | error
deriving Repr, DecidableEq

/-- `eMBSndState`. -/
inductive MBSndState where
  | idle
  | xmit
deriving Repr, DecidableEq

/-- The static data of `mb.c` and `mbrtu.c`, the port, and the data of the handlers. -/
structure Slave where
  eMBState : MBState
  ucMBAddress : UChar
  xFuncHandlers : List (MBFunctionHandler SlaveHandler)
  /-- `ucMBFrame` points at the PDU in `ucRTUBuf`.  It is `NULL` before the first frame. -/
  ucMBFrame : Bool
  ucRcvAddress : UChar
  ucFunctionCode : UChar
  usLength : Nat
  eException : MBException
  eSndState : MBSndState
  eRcvState : MBRcvState
  ucRTUBuf : Buf
  /-- `pucSndBufferCur`, as an index of `ucRTUBuf`. -/
  pucSndBufferCur : Nat
  usSndBufferCount : Nat
  usRcvBufferPos : Nat
  xSlaveOsEvent : BitVec 32
  /-- The receive interrupt is enabled. -/
  xRxEnable : Bool
  /-- The transmit thread was started. -/
  xTxEnable : Bool
  /-- The t3.5 timer runs. -/
  xTimer : Bool
  app : SlaveApp
  /-- The bytes put on the line so far. -/
  sent : List UChar
  /-- The PDU that `eMBRTUReceive` last returned.  Nothing reads it. -/
  checked : List UChar

namespace Slave

/-! ## The port -/

/-- `vMBPortSerialEnable`. -/
def vMBPortSerialEnable (s : Slave) (xRxEnable xTxEnable : Bool) : Slave :=
  { s with xRxEnable := xRxEnable, xTxEnable := xTxEnable }

/-- `vMBPortTimersEnable`. -/
def vMBPortTimersEnable (s : Slave) : Slave := { s with xTimer := true }

/-- `vMBPortTimersDisable`. -/
def vMBPortTimersDisable (s : Slave) : Slave := { s with xTimer := false }

/-- `xMBPortSerialPutByte`. -/
def xMBPortSerialPutByte (s : Slave) (ucByte : UChar) : Slave :=
  { s with sent := s.sent ++ [ucByte] }

/-- `xMBPortEventPost`. -/
def post (s : Slave) (eEvent : MBEventType) : Slave :=
  { s with xSlaveOsEvent := xMBPortEventPost s.xSlaveOsEvent eEvent }

/-! ## `mbrtu.c` -/

/-- `xMBRTUReceiveFSM` on the byte read from the port. -/
def xMBRTUReceiveFSM (s : Slave) (ucByte : UChar) : Slave :=
  match s.eRcvState with
  | .init => s.vMBPortTimersEnable
  | .error => s.vMBPortTimersEnable
  | .idle =>
      vMBPortTimersEnable { s with
        ucRTUBuf := Function.update s.ucRTUBuf 0 ucByte
        usRcvBufferPos := 1
        eRcvState := .rcv }
  | .rcv =>
      if s.usRcvBufferPos < mbSerPduSizeMax then
        vMBPortTimersEnable { s with
          ucRTUBuf := Function.update s.ucRTUBuf s.usRcvBufferPos ucByte
          usRcvBufferPos := s.usRcvBufferPos + 1 }
      else vMBPortTimersEnable { s with eRcvState := .error }

/-- `xMBRTUTransmitFSM`. -/
def xMBRTUTransmitFSM (s : Slave) : Slave :=
  match s.eSndState with
  | .idle => s.vMBPortSerialEnable true false
  | .xmit =>
      if s.usSndBufferCount ≠ 0 then
        let s₁ := s.xMBPortSerialPutByte (s.ucRTUBuf s.pucSndBufferCur)
        { s₁ with
          pucSndBufferCur := s.pucSndBufferCur + 1
          usSndBufferCount := s.usSndBufferCount - 1 }
      else
        let s₁ := (s.post .frameSent).vMBPortSerialEnable true false
        { s₁ with eSndState := .idle }

/-- `xMBRTUTimerT35Expired`. -/
def xMBRTUTimerT35Expired (s : Slave) : Slave :=
  let s₁ := match s.eRcvState with
    | .init => s.post .ready
    | .rcv => s.post .frameReceived
    | .error => s
    | .idle => s
  { s₁.vMBPortTimersDisable with eRcvState := .idle }

/-- `eMBRTUReceive`, with what it returns by reference stored as `eMBPoll` has it stored. -/
def eMBRTUReceive (s : Slave) : MBErrorCode × Slave :=
  if mbSerPduSizeMin ≤ s.usRcvBufferPos ∧ usMBCRC16 s.ucRTUBuf s.usRcvBufferPos = 0 then
    let usLength := s.usRcvBufferPos - mbSerPduPduOff - mbSerPduSizeCrc
    (.enoerr, { s with
      ucRcvAddress := s.ucRTUBuf mbSerPduAddrOff
      usLength := usLength
      ucMBFrame := true
      checked := slice s.ucRTUBuf mbSerPduPduOff usLength })
  else (.eio, s)

/-- `eMBRTUSend` of the PDU at `ucMBFrame`. -/
def eMBRTUSend (s : Slave) (ucSlaveAddress : UChar) : MBErrorCode × Slave :=
  if s.eRcvState = .idle then
    let buf₁ : Buf := Function.update s.ucRTUBuf mbSerPduAddrOff ucSlaveAddress
    let usSndBufferCount := 1 + s.usLength
    let usCRC16 := usMBCRC16 buf₁ usSndBufferCount
    let buf₂ : Buf := buf₁.write usSndBufferCount (crcBytes usCRC16)
    (.enoerr, vMBPortSerialEnable { s with
      pucSndBufferCur := 0
      ucRTUBuf := buf₂
      usSndBufferCount := usSndBufferCount + 2
      eSndState := .xmit } false true)
  else (.eio, s)

/-! ## `mb.c` -/

/-- `EV_FRAME_RECEIVED` of `eMBPoll`. -/
def pollFrameReceived (s : Slave) : Slave :=
  let (eStatus, s₁) := s.eMBRTUReceive
  if eStatus = .enoerr ∧
      (s₁.ucRcvAddress = s₁.ucMBAddress ∨ s₁.ucRcvAddress = mbAddressBroadcast) then
    s₁.post .execute
  else s₁

/-- The lookup of the handler in `eMBPoll` and its call on the frame. -/
def callHandler (s : Slave) : Slave :=
  let frame : Buf := s.ucRTUBuf.at mbSerPduPduOff
  let res := slaveDispatch s.xFuncHandlers s.app frame s.usLength
  { s with
    ucFunctionCode := frame mbPduFuncOff
    eException := res.eStatus
    ucRTUBuf := s.ucRTUBuf.splice mbSerPduPduOff res.pucFrame
    usLength := res.usLen
    app := res.app }

/-- The error frame that `eMBPoll` builds for an exception. -/
def buildErrorFrame (s : Slave) : Slave :=
  if s.eException ≠ .none then
    { s with
      ucRTUBuf := s.ucRTUBuf.write mbSerPduPduOff
        [s.ucFunctionCode ||| mbFuncError, s.eException.code]
      usLength := 2 }
  else s

/-- `EV_EXECUTE` of `eMBPoll`, with `ucMBFrame` set. -/
def pollExecute (s : Slave) : Slave :=
  let s₁ := s.callHandler
  if s₁.ucRcvAddress ≠ mbAddressBroadcast then
    let s₂ := s₁.buildErrorFrame
    (s₂.eMBRTUSend s₂.ucMBAddress).2
  else s₁

/-- The `switch` of `eMBPoll`.  `none` in the first case is the fault of a null pointer. -/
def handle (s : Slave) : Option MBEventType → Option Slave
  | some .execute => if s.ucMBFrame then some s.pollExecute else none
  | some .frameReceived => some s.pollFrameReceived
  | some .ready => some s
  | some .frameSent => some s
  | none => some s

/-- The event that a poll handles: the one assigned by the get, or what `eEvent` holds. -/
def polled (s : Slave) (junk : Option MBEventType) : Option MBEventType :=
  (xMBPortEventGet s.xSlaveOsEvent).1.or junk

/-- `eMBPoll`.  `none` where it waits. -/
def eMBPoll (s : Slave) (junk : Option MBEventType) : Option Slave :=
  if s.eMBState ≠ .enabled then some s
  else if slaveChannel.Returns s.xSlaveOsEvent then
    handle { s with xSlaveOsEvent := (xMBPortEventGet s.xSlaveOsEvent).2 } (s.polled junk)
  else none

/-! ## Start -/

/-- The static data before `eMBInit`, with the register contents `app`. -/
def static (app : SlaveApp) : Slave where
  eMBState := .notInitialized
  ucMBAddress := 0
  xFuncHandlers := FreeModbus.xFuncHandlers
  ucMBFrame := false
  ucRcvAddress := 0
  ucFunctionCode := 0
  usLength := 0
  eException := .none
  eSndState := .idle
  eRcvState := .init
  ucRTUBuf := fun _ => 0
  pucSndBufferCur := 0
  usSndBufferCount := 0
  usRcvBufferPos := 0
  xSlaveOsEvent := 0
  xRxEnable := false
  xTxEnable := false
  xTimer := false
  app := app
  sent := []
  checked := []

/-- `eMBInit` in mode `MB_RTU`, where the port initialises. -/
def eMBInit (s : Slave) (ucSlaveAddress : UChar) : MBErrorCode × Slave :=
  if ucSlaveAddress = mbAddressBroadcast ∨
      ucSlaveAddress < mbAddressMin ∨ mbAddressMax < ucSlaveAddress then
    (.einval, s)
  else (.enoerr, { s with ucMBAddress := ucSlaveAddress, eMBState := .disabled })

/-- `eMBRTUStart`. -/
def eMBRTUStart (s : Slave) : Slave :=
  ({ s with eRcvState := .init }.vMBPortSerialEnable true false).vMBPortTimersEnable

/-- `eMBEnable`. -/
def eMBEnable (s : Slave) : MBErrorCode × Slave :=
  if s.eMBState = .disabled then (.enoerr, { s.eMBRTUStart with eMBState := .enabled })
  else (.eillstate, s)

/-- A slave that `eMBInit` and `eMBEnable` have started. -/
inductive Started : Slave → Prop where
  | intro (app : SlaveApp) (ucSlaveAddress : UChar) :
      ((static app).eMBInit ucSlaveAddress).1 = .enoerr →
      Started ((static app).eMBInit ucSlaveAddress).2.eMBEnable.2

/-- A started slave waits for the bus to be silent, with the receiver on. -/
theorem Started.eq {s : Slave} (h : Started s) :
    ∃ app own, own ≠ mbAddressBroadcast ∧ s = { static app with
      eMBState := .enabled
      ucMBAddress := own
      xRxEnable := true
      xTimer := true } := by
  obtain ⟨app, own, hok⟩ := h
  by_cases hown : own = mbAddressBroadcast ∨ own < mbAddressMin ∨ mbAddressMax < own
  · rw [eMBInit, if_pos hown] at hok
    cases hok
  · refine ⟨app, own, fun h => hown (Or.inl h), ?_⟩
    rw [eMBInit, if_neg hown]
    rfl

end Slave

/-! ## Steps -/

/-- What can happen to the slave. -/
inductive SlaveAction where
  | byte (ucByte : UChar)
  | timer
  | txReady
  | poll (junk : Option MBEventType)

/-- One step of the slave, where the action is enabled. -/
def Slave.step (s : Slave) : SlaveAction → Option Slave
  | .byte ucByte => if s.xRxEnable then some (s.xMBRTUReceiveFSM ucByte) else none
  | .timer => if s.xTimer then some s.xMBRTUTimerT35Expired else none
  | .txReady => if s.xTxEnable then some s.xMBRTUTransmitFSM else none
  | .poll junk => s.eMBPoll junk

/-! ## What a step does -/

namespace Slave

variable {s s' : Slave}

theorem byte_cases {ucByte : UChar} (h : s.step (.byte ucByte) = some s') :
    s.xRxEnable = true ∧ s' = s.xMBRTUReceiveFSM ucByte := by
  obtain ⟨hrx, heq⟩ := Option.ite_none_right_eq_some.mp h
  exact ⟨hrx, (Option.some.inj heq).symm⟩

theorem timer_cases (h : s.step .timer = some s') :
    s.xTimer = true ∧ s' = s.xMBRTUTimerT35Expired := by
  obtain ⟨ht, heq⟩ := Option.ite_none_right_eq_some.mp h
  exact ⟨ht, (Option.some.inj heq).symm⟩

theorem txReady_cases (h : s.step .txReady = some s') :
    s.xTxEnable = true ∧ s' = s.xMBRTUTransmitFSM := by
  obtain ⟨htx, heq⟩ := Option.ite_none_right_eq_some.mp h
  exact ⟨htx, (Option.some.inj heq).symm⟩

/-- A poll does nothing while the stack is off, and handles what it takes from the queue
otherwise. -/
theorem eMBPoll_cases {junk : Option MBEventType} (h : s.eMBPoll junk = some s') :
    (s.eMBState ≠ .enabled ∧ s' = s) ∨
      (s.eMBState = .enabled ∧ slaveChannel.Returns s.xSlaveOsEvent ∧
        handle { s with xSlaveOsEvent := (xMBPortEventGet s.xSlaveOsEvent).2 } (s.polled junk) =
          some s') := by
  unfold eMBPoll at h
  split at h
  · rename_i hoff
    exact Or.inl ⟨hoff, (Option.some.inj h).symm⟩
  · rename_i hon
    obtain ⟨hret, hhandle⟩ := Option.ite_none_right_eq_some.mp h
    exact Or.inr ⟨not_not.mp hon, hret, hhandle⟩

/-- Two of the events are handled. -/
theorem handle_cases {ev : Option MBEventType} (h : s.handle ev = some s') :
    (ev ≠ some .frameReceived ∧ ev ≠ some .execute ∧ s' = s) ∨
      (ev = some .frameReceived ∧ s' = s.pollFrameReceived) ∨
      (ev = some .execute ∧ s.ucMBFrame = true ∧ s' = s.pollExecute) := by
  rcases ev with _ | _ | _ | _ | _
  · exact Or.inl ⟨by decide, by decide, (Option.some.inj h).symm⟩
  · exact Or.inl ⟨by decide, by decide, (Option.some.inj h).symm⟩
  · exact Or.inr (Or.inl ⟨rfl, (Option.some.inj h).symm⟩)
  · obtain ⟨hframe, heq⟩ := Option.ite_none_right_eq_some.mp h
    exact Or.inr (Or.inr ⟨rfl, hframe, (Option.some.inj heq).symm⟩)
  · exact Or.inl ⟨by decide, by decide, (Option.some.inj h).symm⟩

end Slave

end FreeModbus
