import FreeModbus.Crc
import FreeModbus.Master.Functions
import FreeModbus.Master.Requests
import FreeModbus.Port.Event

/-!
# The RTU master

`mb_m.c` and `mbrtu_m.c` over the port of `port/rtt`, on one state: the receive
and transmit state machines, the timer with its three modes, the poll loop, and
the run resource that request threads take and the poll loop releases.

There are two buffers.  `ucMBFrame` points at the PDU of one of them: at the
send buffer after `EV_MASTER_FRAME_SENT` and `EV_MASTER_ERROR_PROCESS`, at the
receive buffer after a frame was received.

The state of every call of a request function is part of the state.  Four more
fields record the history of a run.  Nothing reads them: `holders`, the calls
that took the run resource and have had no completion callback yet, `line`, the
bytes put on the line since the transmitter was activated, `log`, what happened
so far, and `snapshot`, the mirror as it was when a frame came in while the run
resource was free.
-/

namespace FreeModbus

open ByteMemory EventFlags

/-! ## State -/

/-- The states of the master stack. -/
inductive MBMasterState where
  | enabled
  | disabled
  | notInitialized
  | established
deriving Repr, DecidableEq

/-- `eMBMasterErrorEventType`. -/
inductive MBMasterErrorEventType where
  | respondTimeout
  | receiveData
  | executeFunction
deriving Repr, DecidableEq

/-- The result that the callback for an error posts. -/
def MBMasterErrorEventType.result : MBMasterErrorEventType → MBMasterResult
  | .respondTimeout => .errorRespondTimeout
  | .receiveData => .errorReceiveData
  | .executeFunction => .errorExecuteFunction

/-- `eMBMasterTimerMode`. -/
inductive MBMasterTimerMode where
  | t35
  | respondTimeout
  | convertDelay
deriving Repr, DecidableEq

/-- `eMBMasterRcvState`. -/
inductive MBMasterRcvState where
  | init
  | idle
  | rcv
  | error
deriving Repr, DecidableEq

/-- `eMBMasterSndState`. -/
inductive MBMasterSndState where
  | idle
  | xmit
  | xfwr
deriving Repr, DecidableEq

/-- Where `ucMBFrame` points. -/
inductive MBMasterFrame where
  | null
  | sndBuf
  | rcvBuf
deriving Repr, DecidableEq

/-- The arguments of a call of a request function. -/
structure MasterRequest where
  ucSndAddr : UChar
  call : MasterCall

/-- The frame that a request puts on the line. -/
def MasterRequest.frame (q : MasterRequest) : List UChar :=
  let head := q.ucSndAddr :: q.call.req.pdu
  head ++ crcBytes (usMBCRC16List head)

/-- Where a call of a request function stands. -/
inductive CallState where
  /-- It was not made yet. -/
  | idle
  /-- It has taken the run resource. -/
  | taken (q : MasterRequest)
  /-- It has written its request to the send buffer. -/
  | filled (q : MasterRequest)
  /-- It has posted `EV_MASTER_FRAME_SENT` and waits in `eMBMasterWaitRequestFinish`. -/
  | waiting (q : MasterRequest)
  /-- It has returned. -/
  | returned (q : MasterRequest) (eErrStatus : MBMasterReqErrCode)

/-- What is recorded of a run. -/
inductive MasterEvent where
  /-- A call posts `EV_MASTER_FRAME_SENT`. -/
  | posted (call : Nat)
  /-- The transmitter is done with a frame. -/
  | transmitted (frame : List UChar)
  /-- A valid frame of the slave with the destination address was received. -/
  | received (ucRcvAddress : UChar)
  /-- A handler returned `MB_EX_NONE`. -/
  | handled
  /-- `vMBMasterSetErrorType`. -/
  | error (errorType : MBMasterErrorEventType)
  /-- A completion callback. -/
  | completed (result : MBMasterResult)
  /-- A call returns the outcome of its wait. -/
  | returned (call : Nat) (eErrStatus : MBMasterReqErrCode)
deriving Repr, DecidableEq

/-- The static data of `mb_m.c` and `mbrtu_m.c`, the port, the data of the handlers, the calls
of request functions, and the history of the run. -/
structure Master where
  eMBState : MBMasterState
  ucMBMasterDestAddress : UChar
  eMBMasterCurErrorType : MBMasterErrorEventType
  ucMBFrame : MBMasterFrame
  ucRcvAddress : UChar
  ucFunctionCode : UChar
  usLength : Nat
  /-- `eException`, which takes any byte of an exception reply. -/
  eException : UChar
  eSndState : MBMasterSndState
  eRcvState : MBMasterRcvState
  ucMasterRTUSndBuf : Buf
  ucMasterRTURcvBuf : Buf
  usMasterSendPDULength : UShort
  /-- `pucMasterSndBufferCur`, as an index of `ucMasterRTUSndBuf`. -/
  pucMasterSndBufferCur : Nat
  usMasterSndBufferCount : UShort
  usMasterRcvBufferPos : Nat
  xFrameIsBroadcast : Bool
  eMasterCurTimerMode : MBMasterTimerMode
  xMasterOsEvent : BitVec 32
  xMasterRunRes : Nat
  /-- The receive interrupt is enabled. -/
  xRxEnable : Bool
  /-- The transmit thread was started. -/
  xTxEnable : Bool
  /-- The timer runs. -/
  xTimer : Bool
  app : MasterApp
  calls : Nat → CallState
  holders : List Nat
  line : List UChar
  /-- Newest first. -/
  log : List MasterEvent
  snapshot : Option MasterApp

namespace Master

/-- Record an event. -/
def record (s : Master) (e : MasterEvent) : Master := { s with log := e :: s.log }

/-! ## The port -/

/-- `vMBMasterPortSerialEnable`. -/
def vMBMasterPortSerialEnable (s : Master) (xRxEnable xTxEnable : Bool) : Master :=
  { s with xRxEnable := xRxEnable, xTxEnable := xTxEnable }

/-- The three functions that start the timer in a mode. -/
def timersEnable (s : Master) (mode : MBMasterTimerMode) : Master :=
  { s with eMasterCurTimerMode := mode, xTimer := true }

/-- `vMBMasterPortTimersT35Enable`. -/
def vMBMasterPortTimersT35Enable (s : Master) : Master := s.timersEnable .t35

/-- `vMBMasterPortTimersRespondTimeoutEnable`. -/
def vMBMasterPortTimersRespondTimeoutEnable (s : Master) : Master := s.timersEnable .respondTimeout

/-- `vMBMasterPortTimersConvertDelayEnable`. -/
def vMBMasterPortTimersConvertDelayEnable (s : Master) : Master := s.timersEnable .convertDelay

/-- `vMBMasterPortTimersDisable`. -/
def vMBMasterPortTimersDisable (s : Master) : Master := { s with xTimer := false }

/-- `xMBMasterPortSerialPutByte`. -/
def xMBMasterPortSerialPutByte (s : Master) (ucByte : UChar) : Master :=
  { s with line := s.line ++ [ucByte] }

/-- `xMBMasterPortEventPost`. -/
def post (s : Master) (eEvent : MBMasterEventType) : Master :=
  { s with xMasterOsEvent := xMBMasterPortEventPost s.xMasterOsEvent eEvent }

/-- The four completion callbacks: each posts its result. -/
def callback (s : Master) (result : MBMasterResult) : Master :=
  { s with
    xMasterOsEvent := resultChannel.post s.xMasterOsEvent result
    holders := s.holders.drop 1
    log := .completed result :: s.log }

/-- `vMBMasterRunResRelease`. -/
def vMBMasterRunResRelease (s : Master) : Master := { s with xMasterRunRes := s.xMasterRunRes + 1 }

/-- `vMBMasterSetErrorType`. -/
def vMBMasterSetErrorType (s : Master) (errorType : MBMasterErrorEventType) : Master :=
  { s with eMBMasterCurErrorType := errorType, log := .error errorType :: s.log }

/-- `vMBMasterSetErrorType` and the post of `EV_MASTER_ERROR_PROCESS` that always follows it. -/
def fail (s : Master) (errorType : MBMasterErrorEventType) : Master :=
  (s.vMBMasterSetErrorType errorType).post .errorProcess

/-! ## `mbrtu_m.c` -/

/-- `xMBMasterRTUReceiveFSM` on the byte read from the port. -/
def xMBMasterRTUReceiveFSM (s : Master) (ucByte : UChar) : Master :=
  match s.eRcvState with
  | .init => s.vMBMasterPortTimersT35Enable
  | .error => s.vMBMasterPortTimersT35Enable
  | .idle =>
      vMBMasterPortTimersT35Enable { s.vMBMasterPortTimersDisable with
        eSndState := .idle
        ucMasterRTURcvBuf := Function.update s.ucMasterRTURcvBuf 0 ucByte
        usMasterRcvBufferPos := 1
        eRcvState := .rcv }
  | .rcv =>
      if s.usMasterRcvBufferPos < mbSerPduSizeMax then
        vMBMasterPortTimersT35Enable { s with
          ucMasterRTURcvBuf := Function.update s.ucMasterRTURcvBuf s.usMasterRcvBufferPos ucByte
          usMasterRcvBufferPos := s.usMasterRcvBufferPos + 1 }
      else vMBMasterPortTimersT35Enable { s with eRcvState := .error }

/-- The end of a transmission: the receiver is enabled and the timer started, for the response
or, after a broadcast, for the convert delay. -/
def transmitted (s : Master) : Master :=
  let s₁ := { s with
    xFrameIsBroadcast := decide (s.ucMasterRTUSndBuf mbSerPduAddrOff = mbAddressBroadcast) }
  let s₂ := { s₁.vMBMasterPortSerialEnable true false with eSndState := .xfwr }
  if s₂.xFrameIsBroadcast then s₂.vMBMasterPortTimersConvertDelayEnable
  else s₂.vMBMasterPortTimersRespondTimeoutEnable

/-- `xMBMasterRTUTransmitFSM`. -/
def xMBMasterRTUTransmitFSM (s : Master) : Master :=
  match s.eSndState with
  | .idle => s.vMBMasterPortSerialEnable true false
  | .xmit =>
      if s.usMasterSndBufferCount ≠ 0 then
        let s₁ := s.xMBMasterPortSerialPutByte (s.ucMasterRTUSndBuf s.pucMasterSndBufferCur)
        { s₁ with
          pucMasterSndBufferCur := s.pucMasterSndBufferCur + 1
          usMasterSndBufferCount := s.usMasterSndBufferCount - 1 }
      else (s.record (.transmitted s.line)).transmitted
  | .xfwr => s

/-- The post of `EV_MASTER_FRAME_RECEIVED` on expiry. -/
def postFrameReceived (s : Master) : Master :=
  { s.post .frameReceived with snapshot := if 0 < s.xMasterRunRes then some s.app else none }

/-- The post of `EV_MASTER_EXECUTE` on expiry of the convert delay. -/
def postExecute (s : Master) : Master := { s.post .execute with snapshot := none }

/-- The receiver's part of `xMBMasterRTUTimerExpired`. -/
def timerExpiredRcv (s : Master) : Master :=
  let s₁ := match s.eRcvState with
    | .init => s.post .ready
    | .rcv => s.postFrameReceived
    | .error => s.fail .receiveData
    | .idle => s
  { s₁ with eRcvState := .idle }

/-- The transmitter's part of `xMBMasterRTUTimerExpired`. -/
def timerExpiredSnd (s : Master) : Master :=
  let s₁ := match s.eSndState with
    | .xfwr => if s.xFrameIsBroadcast then s else s.fail .respondTimeout
    | .idle => s
    | .xmit => s
  { s₁ with eSndState := .idle }

/-- `xMBMasterRTUTimerExpired`. -/
def xMBMasterRTUTimerExpired (s : Master) : Master :=
  let s₁ := s.timerExpiredRcv.timerExpiredSnd.vMBMasterPortTimersDisable
  if s₁.eMasterCurTimerMode = .convertDelay then s₁.postExecute else s₁

/-- `eMBMasterRTUReceive`, with what it returns by reference stored as `eMBMasterPoll` has it
stored. -/
def eMBMasterRTUReceive (s : Master) : MBErrorCode × Master :=
  if mbSerPduSizeMin ≤ s.usMasterRcvBufferPos ∧
      usMBCRC16 s.ucMasterRTURcvBuf s.usMasterRcvBufferPos = 0 then
    (.enoerr, { s with
      ucRcvAddress := s.ucMasterRTURcvBuf mbSerPduAddrOff
      usLength := s.usMasterRcvBufferPos - mbSerPduPduOff - mbSerPduSizeCrc
      ucMBFrame := .rcvBuf })
  else (.eio, s)

/-- `eMBMasterRTUSend` of the PDU in the send buffer.  The counter is a `USHORT`. -/
def eMBMasterRTUSend (s : Master) (ucSlaveAddress : UChar) (usLength : UShort) :
    MBErrorCode × Master :=
  if mbMasterTotalSlaveNum < ucSlaveAddress.toNat then (.einval, s)
  else if s.eRcvState = .idle then
    let buf₁ : Buf := Function.update s.ucMasterRTUSndBuf mbSerPduAddrOff ucSlaveAddress
    let usMasterSndBufferCount := 1 + usLength
    let usCRC16 := usMBCRC16 buf₁ usMasterSndBufferCount.toNat
    let buf₂ : Buf :=
      Function.update buf₁ usMasterSndBufferCount.toNat ((usCRC16 &&& 0xFF).setWidth 8)
    let buf₃ : Buf :=
      Function.update buf₂ (usMasterSndBufferCount + 1).toNat ((usCRC16 >>> 8).setWidth 8)
    (.enoerr, vMBMasterPortSerialEnable { s with
      pucMasterSndBufferCur := 0
      ucMasterRTUSndBuf := buf₃
      usMasterSndBufferCount := usMasterSndBufferCount + 2
      eSndState := .xmit
      line := [] } false true)
  else (.eio, s)

/-! ## `mb_m.c` -/

/-- The PDU at `ucMBFrame`. -/
def frame (s : Master) : Buf :=
  match s.ucMBFrame with
  | .rcvBuf => s.ucMasterRTURcvBuf.at mbSerPduPduOff
  | .sndBuf => s.ucMasterRTUSndBuf.at mbSerPduPduOff
  | .null => fun _ => 0

/-- The PDU at `ucMBFrame`, changed in place. -/
def setFrame (s : Master) (pucFrame : Buf) : Master :=
  match s.ucMBFrame with
  | .rcvBuf => { s with ucMasterRTURcvBuf := s.ucMasterRTURcvBuf.splice mbSerPduPduOff pucFrame }
  | .sndBuf => { s with ucMasterRTUSndBuf := s.ucMasterRTUSndBuf.splice mbSerPduPduOff pucFrame }
  | .null => s

/-- What a handler reads of the state. -/
def ctx (s : Master) : MasterCtx where
  ucMBMasterDestAddress := s.ucMBMasterDestAddress
  xFrameIsBroadcast := s.xFrameIsBroadcast
  pucPDUSndBuf := s.ucMasterRTUSndBuf.at mbSerPduPduOff

/-- `EV_MASTER_FRAME_RECEIVED` of `eMBMasterPoll`. -/
def pollFrameReceived (s : Master) : Master :=
  let (eStatus, s₁) := s.eMBMasterRTUReceive
  if eStatus = .enoerr ∧ s₁.ucRcvAddress = s₁.ucMBMasterDestAddress then
    (s₁.record (.received s₁.ucRcvAddress)).post .execute
  else s₁.fail .receiveData

/-- A call of a handler on the frame. -/
def callHandler (pxHandler : MasterHandler) (s : Master) : Master :=
  let res := pxHandler s.ctx s.app s.frame s.usLength
  let s₁ := { s.setFrame res.pucFrame with
    eException := res.eStatus.code
    usLength := res.usLen
    app := res.app }
  if res.eStatus = .none then s₁.record .handled else s₁

/-- The calls of a handler for all slaves. -/
def callHandlerAll (pxHandler : MasterHandler) (s : Master) : Master :=
  (List.range mbMasterTotalSlaveNum).foldl
    (fun s j => callHandler pxHandler { s with ucMBMasterDestAddress := BitVec.ofNat 8 (j + 1) })
    { s with usLength := s.usMasterSendPDULength.toNat }

/-- The first part of `EV_MASTER_EXECUTE`, which leaves `eException`. -/
def executeFrame (s : Master) : Master :=
  let s₁ : Master := { s with
    ucFunctionCode := s.frame mbPduFuncOff
    eException := MBException.illegalFunction.code }
  if s₁.ucFunctionCode >>> 7 ≠ 0 then { s₁ with eException := s.frame mbPduDataOff }
  else
    match findHandler s₁.ucFunctionCode xMasterFuncHandlers with
    | none => s₁
    | some pxHandler =>
        if s₁.xFrameIsBroadcast then callHandlerAll pxHandler s₁ else callHandler pxHandler s₁

/-- `EV_MASTER_EXECUTE` of `eMBMasterPoll`, with `ucMBFrame` set. -/
def pollExecute (s : Master) : Master :=
  let s₁ := s.executeFrame
  if s₁.eException ≠ MBException.none.code then s₁.fail .executeFunction
  else (s₁.callback .processSucess).vMBMasterRunResRelease

/-- `EV_MASTER_FRAME_SENT` of `eMBMasterPoll`. -/
def pollFrameSent (s : Master) : Master :=
  let s₁ := { s with ucMBFrame := .sndBuf }
  (s₁.eMBMasterRTUSend s₁.ucMBMasterDestAddress s₁.usMasterSendPDULength).2

/-- `EV_MASTER_ERROR_PROCESS` of `eMBMasterPoll`. -/
def pollErrorProcess (s : Master) : Master :=
  let s₁ := { s with ucMBFrame := .sndBuf }
  (s₁.callback s₁.eMBMasterCurErrorType.result).vMBMasterRunResRelease

/-- The `switch` of `eMBMasterPoll`.  `none` in the case of `EV_MASTER_EXECUTE` is the fault of
a null pointer. -/
def handle (s : Master) : Option MBMasterEventType → Option Master
  | some .ready => some { s with eMBState := .established }
  | some .frameReceived => some s.pollFrameReceived
  | some .execute => if s.ucMBFrame = .null then none else some s.pollExecute
  | some .frameSent => some s.pollFrameSent
  | some .errorProcess => some s.pollErrorProcess
  | none => some s

/-- The event that a poll handles: the one assigned by the get, or what `eEvent` holds. -/
def polled (s : Master) (junk : Option MBMasterEventType) : Option MBMasterEventType :=
  (xMBMasterPortEventGet s.xMasterOsEvent).1.or junk

/-- The state that a get leaves. -/
def drained (s : Master) : Master :=
  { s with xMasterOsEvent := (xMBMasterPortEventGet s.xMasterOsEvent).2 }

/-- `eMBMasterPoll`.  `none` where it waits. -/
def eMBMasterPoll (s : Master) (junk : Option MBMasterEventType) : Option Master :=
  if s.eMBState ≠ .enabled ∧ s.eMBState ≠ .established then some s
  else if masterChannel.Returns s.xMasterOsEvent then s.drained.handle (s.polled junk)
  else none

/-! ## Start -/

/-- The static data before `eMBMasterInit`, with the mirror `app`. -/
def static (app : MasterApp) : Master where
  eMBState := .notInitialized
  ucMBMasterDestAddress := 0
  eMBMasterCurErrorType := .respondTimeout
  ucMBFrame := .null
  ucRcvAddress := 0
  ucFunctionCode := 0
  usLength := 0
  eException := 0
  eSndState := .idle
  eRcvState := .init
  ucMasterRTUSndBuf := fun _ => 0
  ucMasterRTURcvBuf := fun _ => 0
  usMasterSendPDULength := 0
  pucMasterSndBufferCur := 0
  usMasterSndBufferCount := 0
  usMasterRcvBufferPos := 0
  xFrameIsBroadcast := false
  eMasterCurTimerMode := .t35
  xMasterOsEvent := 0
  xMasterRunRes := 0
  xRxEnable := false
  xTxEnable := false
  xTimer := false
  app := app
  calls := fun _ => .idle
  holders := []
  line := []
  log := []
  snapshot := none

/-- `eMBMasterInit` in mode `MB_RTU`, where the port initialises. -/
def eMBMasterInit (s : Master) : Master :=
  { s with eMBState := .disabled, xMasterOsEvent := 0, xMasterRunRes := 1 }

/-- `eMBMasterRTUStart`. -/
def eMBMasterRTUStart (s : Master) : Master :=
  ({ s with eRcvState := .init }.vMBMasterPortSerialEnable true false).vMBMasterPortTimersT35Enable

/-- `eMBMasterEnable`. -/
def eMBMasterEnable (s : Master) : MBErrorCode × Master :=
  if s.eMBState = .disabled then (.enoerr, { s.eMBMasterRTUStart with eMBState := .enabled })
  else (.eillstate, s)

/-- A master that `eMBMasterInit` and `eMBMasterEnable` have started, with any mirror. -/
def Started (s : Master) : Prop := ∃ app, s = (static app).eMBMasterInit.eMBMasterEnable.2

end Master

end FreeModbus
