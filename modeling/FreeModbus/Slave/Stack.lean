import FreeModbus.Slave.Rtu
import FreeModbus.Slave.Store

/-!
# The stack over its transports

`mb.c` reaches the transport through the function pointers that the initialisation has
set.  Here it is written that way: `Stack T` is the static data of `mb.c` beside the data
`T` of a transport, and `eMBPoll` takes the transport as an argument.

`eMBPoll_stack` says that the RTU slave is this stack over `mbrtu.c`.  What `EV_EXECUTE`
does to the transport and to the registers is stated once, for every transport
(`poll_frameReceived`, `poll_execute`): the PDU that was received is answered with
`response`, the reply of the data model or exception 2.
-/

namespace FreeModbus

open ByteMemory DataModel EventFlags

/-! ## The frame inside the buffer -/

/-- What is spliced in is gone where something else is spliced in there. -/
theorem Mem.splice_splice {α : Type*} (m v w : Mem α) (k : Nat) :
    (m.splice k v).splice k w = m.splice k w := by
  funext i
  by_cases hi : i < k
  · rw [Mem.splice_lt hi, Mem.splice_lt hi, Mem.splice_lt hi]
  · obtain ⟨j, rfl⟩ := Nat.exists_eq_add_of_le (Nat.le_of_not_lt hi)
    rw [Mem.splice_add, Mem.splice_add]

/-- A list written behind the advanced pointer. -/
theorem Mem.splice_write {α : Type*} : ∀ (l : List α) (m v : Mem α) (k i : Nat),
    m.splice k (v.write i l) = (m.splice k v).write (k + i) l
  | [], _, _, _, _ => rfl
  | a :: l, m, v, k, i => by
      rw [Mem.write, Mem.write, Mem.splice_write l, Mem.splice_update, Nat.add_assoc]

/-! ## `mb.c` -/

/-- The functions of a transport that `mb.c` calls, on the data of the transport. -/
structure Transport (T : Type) where
  /-- `peMBFrameReceiveCur`, with the address and the length of the PDU. -/
  peMBFrameReceiveCur : T → Except MBErrorCode (UChar × Nat) × T
  /-- What the frame pointer of `peMBFrameReceiveCur` points at. -/
  frame : T → Buf
  /-- The frame changed in place. -/
  setFrame : T → Buf → T
  /-- `peMBFrameSendCur` of the PDU in the frame. -/
  peMBFrameSendCur : T → UChar → Nat → MBErrorCode × T
  frame_setFrame : ∀ t buf, frame (setFrame t buf) = buf
  setFrame_setFrame : ∀ t buf buf', setFrame (setFrame t buf) buf' = setFrame t buf'

/-- The static data of `mb.c` and of a transport, the port, and the data of the handlers. -/
structure Stack (T : Type) where
  link : T
  eMBState : MBState
  ucMBAddress : UChar
  xFuncHandlers : List (MBFunctionHandler SlaveHandler)
  /-- `ucMBFrame` points at the frame.  It is `NULL` before the first one. -/
  ucMBFrame : Bool
  ucRcvAddress : UChar
  ucFunctionCode : UChar
  usLength : Nat
  eException : MBException
  xSlaveOsEvent : BitVec 32
  app : SlaveApp

namespace Stack

variable {T : Type} (tr : Transport T)

/-- `xMBPortEventPost`. -/
def post (s : Stack T) (eEvent : MBEventType) : Stack T :=
  { s with xSlaveOsEvent := xMBPortEventPost s.xSlaveOsEvent eEvent }

/-- `EV_FRAME_RECEIVED` of `eMBPoll`. -/
def pollFrameReceived (s : Stack T) : Stack T :=
  match tr.peMBFrameReceiveCur s.link with
  | (.ok (ucRcvAddress, usLength), link) =>
      let s₁ : Stack T := { s with
        link := link
        ucRcvAddress := ucRcvAddress
        usLength := usLength
        ucMBFrame := true }
      if ucRcvAddress = s.ucMBAddress ∨ ucRcvAddress = mbAddressBroadcast then s₁.post .execute
      else s₁
  | (.error _, link) => { s with link := link }

/-- The lookup of the handler in `eMBPoll` and its call on the frame. -/
def callHandler (s : Stack T) : Stack T :=
  let frame := tr.frame s.link
  let res := slaveDispatch s.xFuncHandlers s.app frame s.usLength
  { s with
    ucFunctionCode := frame mbPduFuncOff
    eException := res.eStatus
    link := tr.setFrame s.link res.pucFrame
    usLength := res.usLen
    app := res.app }

/-- The error frame that `eMBPoll` builds for an exception. -/
def buildErrorFrame (s : Stack T) : Stack T :=
  if s.eException ≠ .none then
    { s with
      link := tr.setFrame s.link ((tr.frame s.link).write 0
        [s.ucFunctionCode ||| mbFuncError, s.eException.code])
      usLength := 2 }
  else s

/-- `EV_EXECUTE` of `eMBPoll`, with `ucMBFrame` set. -/
def pollExecute (s : Stack T) : Stack T :=
  let s₁ := s.callHandler tr
  if s₁.ucRcvAddress ≠ mbAddressBroadcast then
    let s₂ := s₁.buildErrorFrame tr
    { s₂ with link := (tr.peMBFrameSendCur s₂.link s₂.ucMBAddress s₂.usLength).2 }
  else s₁

/-- The `switch` of `eMBPoll`.  `none` in the first case is the fault of a null pointer. -/
def handle (s : Stack T) : Option MBEventType → Option (Stack T)
  | some .execute => if s.ucMBFrame then some (s.pollExecute tr) else none
  | some .frameReceived => some (s.pollFrameReceived tr)
  | some .ready => some s
  | some .frameSent => some s
  | none => some s

/-- `eMBPoll`.  `none` where it waits. -/
def eMBPoll (s : Stack T) (junk : Option MBEventType) : Option (Stack T) :=
  if s.eMBState ≠ .enabled then some s
  else if slaveChannel.Returns s.xSlaveOsEvent then
    handle tr { s with xSlaveOsEvent := (xMBPortEventGet s.xSlaveOsEvent).2 }
      ((xMBPortEventGet s.xSlaveOsEvent).1.or junk)
  else none

end Stack

/-! ## What `EV_EXECUTE` does -/

/-- The PDU that answers a request: the reply of the data model, or exception 2. -/
def response (σ : Store slaveShape) (r : Request) : List UChar :=
  match σ.exec r with
  | some (reply, _) => reply.pdu r
  | none => [r.code ||| mbFuncError, MBException.illegalDataAddress.code]

/-- A request fits into a PDU. -/
theorem WellFormed.pdu_length {r : Request} (h : WellFormed r) : r.pdu.length ≤ mbPduSizeMax := by
  cases r with
  | writeCoils a vs =>
    obtain ⟨-, h1968⟩ := h
    simp only [Request.pdu, Request.tail, List.length_append, Request.head_length,
      List.length_cons, packBools_length, byteCount, mbPduSizeMax]
    omega
  | writeHoldings a vs =>
    obtain ⟨-, h120⟩ := h
    simp only [Request.pdu, Request.tail, List.length_append, Request.head_length,
      List.length_cons, packWordList_length, mbPduSizeMax]
    omega
  | readWriteHoldings ra rn wa vs =>
    obtain ⟨-, ⟨-, h121⟩, -⟩ := h
    simp only [Request.pdu, Request.tail, List.length_append, Request.head_length,
      List.length_cons, packWordList_length, wordBytes_length, mbPduSizeMax]
    omega
  | _ => simp [Request.pdu, Request.tail, mbPduSizeMax]

namespace Stack

section Execute

variable {T : Type} {tr : Transport T} {s : Stack T} {r : Request}

theorem eMBPoll_of_only {e : MBEventType} (hen : s.eMBState = .enabled)
    (he : slaveChannel.Only s.xSlaveOsEvent e) (junk : Option MBEventType) :
    s.eMBPoll tr junk =
      handle tr { s with xSlaveOsEvent := (slaveChannel.get s.xSlaveOsEvent).2 } (some e) := by
  have hget := slaveChannel.get_of_only he
  simp only [eMBPoll, hen, ne_eq, not_true_eq_false, if_false, he.returns, if_true,
    xMBPortEventGet, hget, Option.some_or]

/-- A poll with nothing pending waits. -/
theorem eMBPoll_waits (hen : s.eMBState = .enabled) (he : ¬ slaveChannel.Returns s.xSlaveOsEvent)
    (junk : Option MBEventType) : s.eMBPoll tr junk = none := by
  simp only [eMBPoll, hen, ne_eq, not_true_eq_false, if_false, he]

theorem buildErrorFrame_none (h : s.eException = .none) : s.buildErrorFrame tr = s :=
  if_neg (not_not.mpr h)

theorem buildErrorFrame_exception (h : s.eException ≠ .none) :
    s.buildErrorFrame tr = { s with
      link := tr.setFrame s.link ((tr.frame s.link).write 0
        [s.ucFunctionCode ||| mbFuncError, s.eException.code])
      usLength := 2 } :=
  if_pos h

/-- A request is in the frame, with the handlers of the build in the table. -/
structure Holding (tr : Transport T) (s : Stack T) (r : Request) : Prop where
  table : s.xFuncHandlers = FreeModbus.xFuncHandlers
  frame : (tr.frame s.link).Holds 0 r.pdu
  length : s.usLength = r.pdu.length

/-- The handler leaves the answer of the data model. -/
theorem Holding.callHandler (h : Holding tr s r) (hwf : WellFormed r) :
    ∃ res : FuncResult SlaveApp, res.answer = answerOf s.app.store r ∧
      s.callHandler tr = { s with
        ucFunctionCode := r.code
        eException := res.eStatus
        link := tr.setFrame s.link res.pucFrame
        usLength := res.usLen
        app := res.app } := by
  have hcode : tr.frame s.link mbPduFuncOff = r.code := by
    obtain ⟨l, hl⟩ := r.pdu_cons
    have hframe := h.frame
    rw [hl, Mem.holds_cons] at hframe
    exact hframe.1
  refine ⟨_, slaveDispatch_answer hwf h.frame, ?_⟩
  unfold Stack.callHandler
  dsimp only
  rw [h.table, h.length, hcode]

/-- Behind a broadcast the registers are what the data model makes of them. -/
theorem Holding.pollExecute_broadcast (h : Holding tr s r) (hwf : WellFormed r)
    (hcast : s.ucRcvAddress = mbAddressBroadcast) :
    ∃ buf app code len ex, app.store = s.app.store.after r ∧
      s.pollExecute tr = { s with
        ucFunctionCode := code
        eException := ex
        link := tr.setFrame s.link buf
        usLength := len
        app := app } := by
  obtain ⟨res, hanswer, hcall⟩ := h.callHandler hwf
  refine ⟨res.pucFrame, res.app, r.code, res.usLen, res.eStatus, ?_, ?_⟩
  · rw [← answerOf_store, ← hanswer]
    rfl
  · unfold pollExecute
    dsimp only
    rw [hcall]
    exact if_neg (not_not.mpr hcast)

/-- Else the response is sent, too. -/
theorem Holding.pollExecute_reply (h : Holding tr s r) (hwf : WellFormed r)
    (hone : s.ucRcvAddress ≠ mbAddressBroadcast) :
    ∃ buf app code ex, app.store = s.app.store.after r ∧
      buf.Holds 0 (response s.app.store r) ∧
      s.pollExecute tr = { s with
        ucFunctionCode := code
        eException := ex
        link := (tr.peMBFrameSendCur (tr.setFrame s.link buf) s.ucMBAddress
          (response s.app.store r).length).2
        usLength := (response s.app.store r).length
        app := app } := by
  obtain ⟨res, hanswer, hcall⟩ := h.callHandler hwf
  have hstore : res.app.store = s.app.store.after r := by
    rw [← answerOf_store, ← hanswer]
    rfl
  have hpoll : s.pollExecute tr = { (s.callHandler tr).buildErrorFrame tr with
      link := (tr.peMBFrameSendCur ((s.callHandler tr).buildErrorFrame tr).link
        ((s.callHandler tr).buildErrorFrame tr).ucMBAddress
        ((s.callHandler tr).buildErrorFrame tr).usLength).2 } := by
    unfold pollExecute
    dsimp only
    exact if_pos (by rw [hcall]; exact hone)
  rw [hpoll, hcall]
  unfold response
  cases hexec : s.app.store.exec r with
  | none =>
    rw [answerOf_none hexec] at hanswer
    have hst : res.eStatus = .illegalDataAddress := congrArg Answer.exception hanswer
    refine ⟨res.pucFrame.write 0 [r.code ||| mbFuncError, MBException.illegalDataAddress.code],
      res.app, r.code, res.eStatus, hstore, Mem.holds_write .., ?_⟩
    rw [buildErrorFrame_exception (hst ▸ fun h => by cases h)]
    simp only [tr.frame_setFrame, tr.setFrame_setFrame, hst]
    rfl
  | some result =>
    obtain ⟨reply, σ⟩ := result
    rw [answerOf_some hexec] at hanswer
    have hst : res.eStatus = .none := congrArg Answer.exception hanswer
    have hreply : slice res.pucFrame 0 res.usLen = reply.pdu r := by
      have hsome := congrArg Answer.reply hanswer
      rw [FuncResult.answer, if_pos hst] at hsome
      exact Option.some.inj hsome
    have hlen : (reply.pdu r).length = res.usLen := by rw [← hreply, slice_length]
    refine ⟨res.pucFrame, res.app, r.code, res.eStatus, hstore, ?_, ?_⟩
    · rw [Mem.Holds, hlen]
      exact hreply
    · rw [buildErrorFrame_none hst, hlen]

end Execute

end Stack

/-! ## The RTU slave is one -/

/-- The static data of `mbrtu.c` and its port. -/
structure RtuLink where
  eSndState : MBSndState
  eRcvState : MBRcvState
  ucRTUBuf : Buf
  pucSndBufferCur : Nat
  usSndBufferCount : Nat
  usRcvBufferPos : Nat
  xRxEnable : Bool
  xTxEnable : Bool
  xTimer : Bool
  sent : List UChar

/-- The transport that `eMBInit` selects for `MB_RTU`. -/
def rtuTransport : Transport RtuLink where
  peMBFrameReceiveCur t :=
    (if mbSerPduSizeMin ≤ t.usRcvBufferPos ∧ usMBCRC16 t.ucRTUBuf t.usRcvBufferPos = 0 then
      .ok (t.ucRTUBuf mbSerPduAddrOff, t.usRcvBufferPos - mbSerPduPduOff - mbSerPduSizeCrc)
    else .error .eio, t)
  frame t := t.ucRTUBuf.at mbSerPduPduOff
  setFrame t buf := { t with ucRTUBuf := t.ucRTUBuf.splice mbSerPduPduOff buf }
  peMBFrameSendCur t ucSlaveAddress usLength :=
    if t.eRcvState = .idle then
      let buf₁ : Buf := Function.update t.ucRTUBuf mbSerPduAddrOff ucSlaveAddress
      let usCRC16 := usMBCRC16 buf₁ (1 + usLength)
      (.enoerr, { t with
        pucSndBufferCur := 0
        ucRTUBuf := buf₁.write (1 + usLength) (crcBytes usCRC16)
        usSndBufferCount := 1 + usLength + 2
        eSndState := .xmit
        xRxEnable := false
        xTxEnable := true })
    else (.eio, t)
  frame_setFrame t buf := funext fun i => Mem.splice_add t.ucRTUBuf buf mbSerPduPduOff i
  setFrame_setFrame t buf buf' := by
    have hbuf := Mem.splice_splice t.ucRTUBuf buf buf' mbSerPduPduOff
    dsimp only
    rw [hbuf]

/-- The RTU slave as a stack. -/
def Slave.stack (s : Slave) : Stack RtuLink where
  link := {
    eSndState := s.eSndState
    eRcvState := s.eRcvState
    ucRTUBuf := s.ucRTUBuf
    pucSndBufferCur := s.pucSndBufferCur
    usSndBufferCount := s.usSndBufferCount
    usRcvBufferPos := s.usRcvBufferPos
    xRxEnable := s.xRxEnable
    xTxEnable := s.xTxEnable
    xTimer := s.xTimer
    sent := s.sent }
  eMBState := s.eMBState
  ucMBAddress := s.ucMBAddress
  xFuncHandlers := s.xFuncHandlers
  ucMBFrame := s.ucMBFrame
  ucRcvAddress := s.ucRcvAddress
  ucFunctionCode := s.ucFunctionCode
  usLength := s.usLength
  eException := s.eException
  xSlaveOsEvent := s.xSlaveOsEvent
  app := s.app

/-- The first poll event of a frame, in both. -/
theorem Slave.pollFrameReceived_stack (s : Slave) :
    s.stack.pollFrameReceived rtuTransport = s.pollFrameReceived.stack := by
  unfold Slave.pollFrameReceived Stack.pollFrameReceived
  by_cases hok : mbSerPduSizeMin ≤ s.usRcvBufferPos ∧ usMBCRC16 s.ucRTUBuf s.usRcvBufferPos = 0
  · have hrec : rtuTransport.peMBFrameReceiveCur s.stack.link = (.ok (s.ucRTUBuf mbSerPduAddrOff,
        s.usRcvBufferPos - mbSerPduPduOff - mbSerPduSizeCrc), s.stack.link) :=
      congrArg (·, s.stack.link) (if_pos hok)
    rw [hrec, Slave.eMBRTUReceive, if_pos hok]
    dsimp only
    by_cases hus : s.ucRTUBuf mbSerPduAddrOff = s.ucMBAddress ∨
        s.ucRTUBuf mbSerPduAddrOff = mbAddressBroadcast
    · simp only [Slave.stack, hus, and_self, if_true, Stack.post, Slave.post]
    · simp only [Slave.stack, hus, and_false, if_false]
  · have hrec : rtuTransport.peMBFrameReceiveCur s.stack.link = (.error .eio, s.stack.link) :=
      congrArg (·, s.stack.link) (if_neg hok)
    rw [hrec, Slave.eMBRTUReceive, if_neg hok]
    dsimp only
    rw [if_neg fun h => by cases h.1]

theorem Slave.callHandler_stack (s : Slave) :
    s.stack.callHandler rtuTransport = s.callHandler.stack := rfl

theorem Slave.buildErrorFrame_stack (s : Slave) :
    s.stack.buildErrorFrame rtuTransport = s.buildErrorFrame.stack := by
  have hwrite : ∀ l : List UChar, s.ucRTUBuf.splice mbSerPduPduOff
      ((s.ucRTUBuf.at mbSerPduPduOff).write 0 l) = s.ucRTUBuf.write mbSerPduPduOff l := by
    intro l
    rw [Mem.splice_write, Mem.splice_at, Nat.add_zero]
  by_cases hex : s.eException = .none
  · rw [Slave.buildErrorFrame, if_neg (not_not.mpr hex)]
    exact if_neg (not_not.mpr hex)
  · rw [Slave.buildErrorFrame, if_pos hex]
    refine (if_pos hex).trans ?_
    simp only [rtuTransport, Slave.stack, hwrite]

theorem Slave.eMBRTUSend_stack (s : Slave) (own : UChar) :
    { s.stack with link := (rtuTransport.peMBFrameSendCur s.stack.link own s.usLength).2 } =
      (s.eMBRTUSend own).2.stack := by
  unfold Slave.eMBRTUSend
  by_cases hidle : s.eRcvState = .idle
  · rw [if_pos hidle]
    simp only [rtuTransport, Slave.stack, if_pos hidle, Slave.vMBPortSerialEnable]
  · rw [if_neg hidle]
    simp only [rtuTransport, Slave.stack, if_neg hidle]

theorem Slave.pollExecute_stack (s : Slave) :
    s.stack.pollExecute rtuTransport = s.pollExecute.stack := by
  unfold Slave.pollExecute Stack.pollExecute
  dsimp only
  rw [Slave.callHandler_stack, Slave.buildErrorFrame_stack]
  by_cases hone : s.callHandler.ucRcvAddress = mbAddressBroadcast
  · rw [if_neg (not_not.mpr hone)]
    exact if_neg (not_not.mpr hone)
  · rw [if_pos hone]
    exact (if_pos hone).trans (Slave.eMBRTUSend_stack ..)

theorem Slave.handle_stack (s : Slave) (ev : Option MBEventType) :
    s.stack.handle rtuTransport ev = (s.handle ev).map Slave.stack := by
  rcases ev with _ | _ | _ | _ | _
  · rfl
  · rfl
  · exact congrArg some s.pollFrameReceived_stack
  · unfold Slave.handle Stack.handle
    rw [Slave.pollExecute_stack]
    by_cases hframe : s.ucMBFrame = true
    · rw [if_pos hframe]
      exact if_pos hframe
    · rw [if_neg hframe]
      exact if_neg hframe
  · rfl

/-- The poll loop of the RTU slave is the one of the stack over `mbrtu.c`. -/
theorem Slave.eMBPoll_stack (s : Slave) (junk : Option MBEventType) :
    s.stack.eMBPoll rtuTransport junk = (s.eMBPoll junk).map Slave.stack := by
  have hhandle := Slave.handle_stack
    { s with xSlaveOsEvent := (xMBPortEventGet s.xSlaveOsEvent).2 } (s.polled junk)
  unfold Slave.eMBPoll Stack.eMBPoll
  by_cases hon : s.eMBState = .enabled
  · rw [if_neg (not_not.mpr hon)]
    refine (if_neg (not_not.mpr hon)).trans ?_
    by_cases hret : slaveChannel.Returns s.xSlaveOsEvent
    · rw [if_pos hret, ← hhandle]
      exact if_pos hret
    · rw [if_neg hret]
      exact if_neg hret
  · rw [if_pos hon]
    exact if_pos hon

end FreeModbus
