import FreeModbus.Slave.Rtu

/-!
# One transaction of the slave

A slave that waits for a frame is fed any bytes, then silence.  From there the
poll loop and the transmitter run until nothing is pending.  Whatever order they
take, the run goes through the stages of `Stage`: the frame is checked, then
executed, then the reply goes out byte by byte.

`step_stage` says that each step leads to a later stage.  So the run ends, and
where it ends the frame has had the effect it should have (`Contract`).
-/

namespace FreeModbus

open ByteMemory Transition EventFlags

namespace Slave

/-- An enabled slave with the built-in handlers that waits for a frame.  `eMBInit` refuses
the broadcast address. -/
structure Quiet (s : Slave) : Prop where
  enabled : s.eMBState = .enabled
  address : s.ucMBAddress ≠ mbAddressBroadcast
  table : s.xFuncHandlers = FreeModbus.xFuncHandlers
  rcv : s.eRcvState = .idle
  snd : s.eSndState = .idle
  event : ¬ slaveChannel.Returns s.xSlaveOsEvent
  rx : s.xRxEnable = true
  tx : s.xTxEnable = false

/-- Nothing is pending: no event, and the transmitter is not started. -/
def Settled (s : Slave) : Prop :=
  ¬ slaveChannel.Returns s.xSlaveOsEvent ∧ s.xTxEnable = false

/-- The action is a poll or a turn of the transmitter. -/
def PollTx : SlaveAction → Prop
  | .poll _ => True
  | .txReady => True
  | _ => False

/-! ## Frames -/

/-- A frame of at least four bytes that ends in the CRC of what comes before. -/
def Valid (frame : List UChar) : Prop :=
  4 ≤ frame.length ∧ ∃ body, frame = body ++ crcBytes (usMBCRC16List body)

/-- The address of a frame. -/
def addressOf (frame : List UChar) : UChar := frame.getD 0 0

/-- The function code of a frame. -/
def functionOf (frame : List UChar) : UChar := frame.getD 1 0

theorem valid_iff {frame : List UChar} :
    Valid frame ↔ 4 ≤ frame.length ∧ usMBCRC16List frame = 0 := by
  constructor
  · rintro ⟨hlen, body, rfl⟩
    exact ⟨hlen, (usMBCRC16List_eq_zero body _ _).mpr rfl⟩
  · rintro ⟨hlen, hcrc⟩
    obtain rfl | ⟨body', y, rfl⟩ := List.eq_nil_or_concat frame
    · exact absurd hlen (by decide)
    obtain rfl | ⟨body, x, rfl⟩ := List.eq_nil_or_concat body'
    · exact absurd hlen (by simp)
    rw [List.concat_eq_append, List.concat_eq_append, List.append_assoc, List.singleton_append]
      at hcrc hlen ⊢
    exact ⟨hlen, body, by rw [(usMBCRC16List_eq_zero body x y).mp hcrc]⟩

section

variable (s : Slave) (frame : List UChar)

/-- The result of the handler on the frame. -/
def handled : FuncResult SlaveApp :=
  slaveDispatch FreeModbus.xFuncHandlers s.app ((s.ucRTUBuf.write 0 frame).at mbSerPduPduOff)
    (frame.length - 3)

/-- The PDU of the reply. -/
def replyPdu : List UChar :=
  if (s.handled frame).eStatus = .none then
    slice (s.handled frame).pucFrame 0 (s.handled frame).usLen
  else [functionOf frame ||| mbFuncError, (s.handled frame).eStatus.code]

/-- The reply on the line. -/
def replyFrame : List UChar :=
  let body := s.ucMBAddress :: s.replyPdu frame
  body ++ crcBytes (usMBCRC16List body)

/-! ## Receiving -/

/-- The slave after the frame and the silence behind it. -/
def received : Slave :=
  { s with
    ucRTUBuf := s.ucRTUBuf.write 0 frame
    usRcvBufferPos := frame.length
    eRcvState := .idle
    xTimer := false
    xSlaveOsEvent := slaveChannel.post s.xSlaveOsEvent .frameReceived }

end

/-- Bytes that fit are appended to the frame being received. -/
theorem run_bytes : ∀ (bs : List UChar) {s : Slave}, s.xRxEnable = true → s.eRcvState = .rcv →
    s.xTimer = true → s.usRcvBufferPos + bs.length ≤ 256 →
    run step s (bs.map .byte) = some { s with
      ucRTUBuf := s.ucRTUBuf.write s.usRcvBufferPos bs
      usRcvBufferPos := s.usRcvBufferPos + bs.length }
  | [], _, _, _, _, _ => rfl
  | b :: bs, s, hrx, hrcv, htimer, hlen => by
      rw [List.length_cons] at hlen
      let s₁ : Slave := { s with
        ucRTUBuf := Function.update s.ucRTUBuf s.usRcvBufferPos b
        usRcvBufferPos := s.usRcvBufferPos + 1 }
      have hlt : s.usRcvBufferPos < mbSerPduSizeMax := by
        show s.usRcvBufferPos < 256
        omega
      have hstep : s.step (.byte b) = some s₁ := by
        simp only [step, hrx, if_true, xMBRTUReceiveFSM, hrcv, hlt, vMBPortTimersEnable, s₁,
          ← htimer]
      have hfit : s₁.usRcvBufferPos + bs.length ≤ 256 := by
        show s.usRcvBufferPos + 1 + bs.length ≤ 256
        omega
      rw [List.map_cons, run_cons, hstep, Option.bind_some,
        run_bytes bs (s := s₁) hrx hrcv htimer hfit]
      simp only [s₁, Mem.write, List.length_cons, Nat.add_assoc, Nat.add_comm 1]

/-- A waiting slave takes a frame of up to 256 bytes and reports it after the silence. -/
theorem run_frame {s : Slave} (hq : Quiet s) {frame : List UChar} (h1 : 1 ≤ frame.length)
    (h2 : frame.length ≤ 256) :
    run step s (frame.map .byte ++ [.timer]) = some (s.received frame) := by
  cases frame with
  | nil => exact absurd h1 (by decide)
  | cons b bs =>
    let s₁ : Slave := { s with
      ucRTUBuf := Function.update s.ucRTUBuf 0 b
      usRcvBufferPos := 1
      eRcvState := .rcv
      xTimer := true }
    have hfirst : s.step (.byte b) = some s₁ := by
      simp only [step, hq.rx, if_true, xMBRTUReceiveFSM, hq.rcv, vMBPortTimersEnable, s₁]
    have hfit : s₁.usRcvBufferPos + bs.length ≤ 256 := by
      rw [Nat.add_comm]
      exact h2
    rw [run_append, List.map_cons, run_cons, hfirst, Option.bind_some,
      run_bytes bs (s := s₁) hq.rx rfl rfl hfit, Option.bind_some, run_cons]
    simp only [s₁, step, if_true, xMBRTUTimerT35Expired, post, vMBPortTimersDisable,
      Option.bind_some, run_nil, received, Mem.write, List.length_cons, Nat.add_comm 1,
      xMBPortEventPost]

/-! ## Stages -/

/-- How far the transaction is.  `transmitting j` has put `j` bytes on the line. -/
inductive Stage where
  | received
  | execute
  | transmitting (j : Nat)
  | sent
  | done

/-- An upper bound of the steps that are left. -/
def Stage.rank (s : Slave) (frame : List UChar) : Stage → Nat
  | .received => (s.replyFrame frame).length + 4
  | .execute => (s.replyFrame frame).length + 3
  | .transmitting j => (s.replyFrame frame).length - j + 2
  | .sent => 1
  | .done => 0

/-- What no step of the transaction changes. -/
structure Base (s x : Slave) : Prop where
  enabled : x.eMBState = .enabled
  address : x.ucMBAddress = s.ucMBAddress
  table : x.xFuncHandlers = FreeModbus.xFuncHandlers
  rcv : x.eRcvState = .idle
  timer : x.xTimer = false

/-- The receiver is on and the transmitter off. -/
structure Listening (x : Slave) : Prop where
  rx : x.xRxEnable = true
  tx : x.xTxEnable = false
  snd : x.eSndState = .idle

/-- The frame is for the slave, or for all. -/
def ForUs (s : Slave) (frame : List UChar) : Prop :=
  addressOf frame = s.ucMBAddress ∨ addressOf frame = mbAddressBroadcast

/-- The frame has had its effect on registers and line. -/
structure Effect (s : Slave) (frame : List UChar) (x : Slave) : Prop where
  ignored : ¬ (Valid frame ∧ s.ForUs frame) → x.app = s.app ∧ x.sent = s.sent
  broadcast : Valid frame → addressOf frame = mbAddressBroadcast → x.sent = s.sent
  reply : Valid frame → addressOf frame = s.ucMBAddress → x.sent = s.sent ++ s.replyFrame frame

/-- The frame lies in the buffer, and nothing else has happened to registers and line. -/
structure Untouched (s : Slave) (frame : List UChar) (x : Slave) : Prop where
  buf : x.ucRTUBuf = s.ucRTUBuf.write 0 frame
  app : x.app = s.app
  sent : x.sent = s.sent

/-- A frame passed its checks: the PDU is known. -/
structure Checked (s : Slave) (frame : List UChar) (x : Slave) : Prop where
  valid : Valid frame
  forUs : s.ForUs frame
  pointer : x.ucMBFrame = true
  address : x.ucRcvAddress = addressOf frame
  length : x.usLength = frame.length - 3

/-- The first `j` bytes of the reply are sent, the others lie ready. -/
structure Sending (s : Slave) (frame : List UChar) (j : Nat) (x : Slave) : Prop where
  valid : Valid frame
  own : addressOf frame = s.ucMBAddress
  rx : x.xRxEnable = false
  tx : x.xTxEnable = true
  snd : x.eSndState = .xmit
  le : j ≤ (s.replyFrame frame).length
  sent : x.sent = s.sent ++ (s.replyFrame frame).take j
  count : x.usSndBufferCount = (s.replyFrame frame).length - j
  rest : x.ucRTUBuf.Holds x.pucSndBufferCur ((s.replyFrame frame).drop j)

/-- The slave is at a stage of the transaction. -/
def At (s : Slave) (frame : List UChar) : Stage → Slave → Prop
  | .received, x => Base s x ∧ Listening x ∧
      slaveChannel.Only x.xSlaveOsEvent .frameReceived ∧ s.Untouched frame x ∧
        x.usRcvBufferPos = frame.length
  | .execute, x => Base s x ∧ Listening x ∧ slaveChannel.Only x.xSlaveOsEvent .execute ∧
      s.Untouched frame x ∧ s.Checked frame x
  | .transmitting j, x => Base s x ∧ ¬ slaveChannel.Returns x.xSlaveOsEvent ∧
      s.Sending frame j x
  | .sent, x => Base s x ∧ Listening x ∧ slaveChannel.Only x.xSlaveOsEvent .frameSent ∧
      s.Effect frame x
  | .done, x => Base s x ∧ Listening x ∧ ¬ slaveChannel.Returns x.xSlaveOsEvent ∧
      s.Effect frame x

/-- A poll of an enabled slave with one event pending handles that event. -/
theorem eMBPoll_of_only {x : Slave} {e : MBEventType} (hen : x.eMBState = .enabled)
    (he : slaveChannel.Only x.xSlaveOsEvent e) (junk : Option MBEventType) :
    x.eMBPoll junk =
      handle { x with xSlaveOsEvent := (slaveChannel.get x.xSlaveOsEvent).2 } (some e) := by
  have hget := slaveChannel.get_of_only he
  simp only [eMBPoll, hen, ne_eq, not_true_eq_false, if_false, he.returns, if_true, polled,
    xMBPortEventGet, hget, Option.some_or]

/-- A poll with nothing pending waits. -/
theorem eMBPoll_waits {x : Slave} (hen : x.eMBState = .enabled)
    (he : ¬ slaveChannel.Returns x.xSlaveOsEvent) (junk : Option MBEventType) :
    x.eMBPoll junk = none := by
  simp only [eMBPoll, hen, ne_eq, not_true_eq_false, if_false, he]

/-! ## Each stage leads to a later one -/

section Steps

variable {s x x' : Slave} {frame : List UChar}

/-- The CRC over the bytes of a frame in the buffer. -/
theorem usMBCRC16_write (b : Buf) (frame : List UChar) :
    usMBCRC16 (b.write 0 frame) frame.length = usMBCRC16List frame :=
  congrArg usMBCRC16List (Mem.holds_write frame b 0)

theorem write_getD (b : Buf) {frame : List UChar} {i : Nat} (h : i < frame.length) :
    b.write 0 frame i = frame.getD i 0 := by
  have h1 := getElem_of_slice (Mem.holds_write frame b 0) h
  rw [Nat.zero_add] at h1
  rw [h1, List.getD_eq_getElem?_getD, List.getElem?_eq_getElem h, Option.getD_some]

/-- The slave after a frame passed its checks. -/
def accepted (x : Slave) (frame : List UChar) : Slave :=
  { x with
    ucRcvAddress := addressOf frame
    usLength := frame.length - 3
    ucMBFrame := true
    checked := slice x.ucRTUBuf 1 (frame.length - 3) }

theorem receive_valid (hbuf : x.ucRTUBuf = s.ucRTUBuf.write 0 frame)
    (hpos : x.usRcvBufferPos = frame.length) (hv : Valid frame) :
    x.eMBRTUReceive = (.enoerr, x.accepted frame) := by
  obtain ⟨hlen, hcrc⟩ := valid_iff.mp hv
  have hok : mbSerPduSizeMin ≤ x.usRcvBufferPos ∧ usMBCRC16 x.ucRTUBuf x.usRcvBufferPos = 0 := by
    rw [hpos, hbuf, usMBCRC16_write]
    exact ⟨hlen, hcrc⟩
  have haddr : x.ucRTUBuf 0 = addressOf frame := by
    rw [hbuf]
    exact write_getD _ (by omega)
  have hlen3 : x.usRcvBufferPos - mbSerPduPduOff - mbSerPduSizeCrc = frame.length - 3 := by
    rw [hpos]
    exact Nat.sub_sub _ 1 2
  unfold eMBRTUReceive
  rw [if_pos hok]
  simp only [mbSerPduAddrOff, haddr, hlen3, mbSerPduPduOff, accepted]

theorem receive_invalid (hbuf : x.ucRTUBuf = s.ucRTUBuf.write 0 frame)
    (hpos : x.usRcvBufferPos = frame.length) (hv : ¬ Valid frame) :
    x.eMBRTUReceive = (.eio, x) := by
  apply if_neg
  rw [hpos, hbuf, usMBCRC16_write]
  exact fun h => hv (valid_iff.mpr h)

/-- The check of a frame for us asks for its execution, any other frame is dropped. -/
theorem step_received (h : At s frame .received x) {a : SlaveAction} (ha : PollTx a)
    (hstep : x.step a = some x') :
    At s frame .execute x' ∨ At s frame .done x' := by
  obtain ⟨hbase, hlisten, honly, hun, hpos⟩ := h
  cases a with
  | byte b => exact ha.elim
  | timer => exact ha.elim
  | txReady =>
    simp only [step, hlisten.tx] at hstep
    cases hstep
  | poll junk =>
    rw [step, eMBPoll_of_only hbase.enabled honly junk] at hstep
    have hleft := slaveChannel.not_returns_get x.xSlaveOsEvent
    let y : Slave := { x with xSlaveOsEvent := (slaveChannel.get x.xSlaveOsEvent).2 }
    obtain rfl : y.pollFrameReceived = x' := Option.some.inj hstep
    have hby : Base s y := ⟨hbase.enabled, hbase.address, hbase.table, hbase.rcv, hbase.timer⟩
    have hly : Listening y := ⟨hlisten.rx, hlisten.tx, hlisten.snd⟩
    by_cases hv : Valid frame
    · have hrec : y.eMBRTUReceive = (.enoerr, y.accepted frame) :=
        receive_valid hun.buf hpos hv
      by_cases hus : s.ForUs frame
      · have hpoll : y.pollFrameReceived = (y.accepted frame).post .execute := by
          rw [pollFrameReceived, hrec]
          exact if_pos ⟨rfl, hus.imp (fun h => h.trans hbase.address.symm) id⟩
        rw [hpoll]
        left
        exact ⟨⟨hby.enabled, hby.address, hby.table, hby.rcv, hby.timer⟩,
          ⟨hly.rx, hly.tx, hly.snd⟩, slaveChannel.only_post hleft _,
          ⟨hun.buf, hun.app, hun.sent⟩, ⟨hv, hus, rfl, rfl, rfl⟩⟩
      · have hpoll : y.pollFrameReceived = y.accepted frame := by
          rw [pollFrameReceived, hrec]
          exact if_neg fun h => hus (h.2.imp (fun h => h.trans hbase.address) id)
        rw [hpoll]
        right
        refine ⟨⟨hby.enabled, hby.address, hby.table, hby.rcv, hby.timer⟩,
          ⟨hly.rx, hly.tx, hly.snd⟩, hleft, ?_, ?_, ?_⟩
        · exact fun _ => ⟨hun.app, hun.sent⟩
        · exact fun _ hb => absurd (Or.inr hb) hus
        · exact fun _ ho => absurd (Or.inl ho) hus
    · have hrec : y.eMBRTUReceive = (.eio, y) := receive_invalid hun.buf hpos hv
      have hpoll : y.pollFrameReceived = y := by
        rw [pollFrameReceived, hrec]
        exact if_neg fun h => nomatch h.1
      rw [hpoll]
      right
      refine ⟨hby, hly, hleft, ?_, ?_, ?_⟩
      · exact fun _ => ⟨hun.app, hun.sent⟩
      · exact fun h => absurd h hv
      · exact fun h => absurd h hv

/-- The handler has run on the frame. -/
theorem callHandler_eq (hbase : Base s x) (hun : s.Untouched frame x) (hch : s.Checked frame x) :
    x.callHandler = { x with
      ucFunctionCode := functionOf frame
      eException := (s.handled frame).eStatus
      ucRTUBuf := x.ucRTUBuf.splice 1 (s.handled frame).pucFrame
      usLength := (s.handled frame).usLen
      app := (s.handled frame).app } := by
  have hres : slaveDispatch x.xFuncHandlers x.app (x.ucRTUBuf.at mbSerPduPduOff) x.usLength =
      s.handled frame := by
    rw [hbase.table, hun.app, hun.buf, hch.length]
    rfl
  have hlen := hch.valid.1
  have hcode : x.ucRTUBuf.at mbSerPduPduOff mbPduFuncOff = functionOf frame := by
    rw [hun.buf]
    exact write_getD s.ucRTUBuf (show 1 < frame.length by omega)
  simp only [callHandler, hres, hcode, mbSerPduPduOff]

/-- The reply PDU lies in the buffer once the error frame is built where one is due. -/
theorem buildErrorFrame_holds (hbase : Base s x) (hun : s.Untouched frame x)
    (hch : s.Checked frame x) :
    x.callHandler.buildErrorFrame.ucRTUBuf.Holds 1 (s.replyPdu frame) ∧
      x.callHandler.buildErrorFrame.usLength = (s.replyPdu frame).length := by
  rw [callHandler_eq hbase hun hch]
  by_cases he : (s.handled frame).eStatus = .none
  · simp only [buildErrorFrame, replyPdu, he, ne_eq, not_true_eq_false, if_false, if_true,
      slice_length, and_true]
    rw [Mem.Holds, slice_length, slice_splice]
  · simp only [buildErrorFrame, replyPdu, he, ne_eq, not_false_eq_true, if_true, if_false,
      List.length_cons, List.length_nil, and_true]
    exact Mem.holds_write _ _ 1

/-- What the error frame leaves alone. -/
theorem buildErrorFrame_frame (x : Slave) :
    x.buildErrorFrame = { x with
      ucRTUBuf := x.buildErrorFrame.ucRTUBuf
      usLength := x.buildErrorFrame.usLength } := by
  unfold buildErrorFrame
  split <;> rfl

/-- Sending with an idle receiver loads the send buffer and starts the transmitter. -/
theorem send_eq {y : Slave} (hrcv : y.eRcvState = .idle) (own : UChar) :
    (y.eMBRTUSend own).2 = { y with
      pucSndBufferCur := 0
      ucRTUBuf := Mem.write (Function.update y.ucRTUBuf 0 own) (1 + y.usLength)
        (crcBytes (usMBCRC16 (Function.update y.ucRTUBuf 0 own) (1 + y.usLength)))
      usSndBufferCount := 1 + y.usLength + 2
      eSndState := .xmit
      xRxEnable := false
      xTxEnable := true } := by
  simp only [eMBRTUSend, if_pos hrcv, vMBPortSerialEnable]

/-- The execution of a frame for the slave starts the transmission of its reply. -/
theorem pollExecute_own (hbase : Base s x) (hun : s.Untouched frame x) (hch : s.Checked frame x)
    (hown : addressOf frame = s.ucMBAddress) (haddr : s.ucMBAddress ≠ mbAddressBroadcast)
    (hev : ¬ slaveChannel.Returns x.xSlaveOsEvent) :
    At s frame (.transmitting 0) x.pollExecute := by
  obtain ⟨hpdu, hlen⟩ := buildErrorFrame_holds hbase hun hch
  have hrcv : x.callHandler.ucRcvAddress ≠ mbAddressBroadcast := by
    show x.ucRcvAddress ≠ mbAddressBroadcast
    rw [hch.address, hown]
    exact haddr
  have hframe := buildErrorFrame_frame x.callHandler
  have hpoll : x.pollExecute =
      (x.callHandler.buildErrorFrame.eMBRTUSend x.callHandler.buildErrorFrame.ucMBAddress).2 :=
    if_pos hrcv
  rw [hpoll]
  let y : Slave := x.callHandler.buildErrorFrame
  have hidle : y.eRcvState = .idle := (congrArg Slave.eRcvState hframe).trans hbase.rcv
  have hme : y.ucMBAddress = s.ucMBAddress :=
    (congrArg Slave.ucMBAddress hframe).trans hbase.address
  have hsent : y.sent = s.sent := (congrArg Slave.sent hframe).trans hun.sent
  have hevent : y.xSlaveOsEvent = x.xSlaveOsEvent :=
    (congrArg Slave.xSlaveOsEvent hframe).trans rfl
  have hwait : ¬ slaveChannel.Returns y.xSlaveOsEvent := by
    rw [hevent]
    exact hev
  have hcount : (s.replyFrame frame).length = 1 + y.usLength + 2 := by
    simp only [replyFrame, List.length_append, List.length_cons, hlen, crcBytes,
      List.length_nil, y]
    omega
  rw [show (y.eMBRTUSend y.ucMBAddress).2 = _ from send_eq hidle _]
  refine ⟨⟨?_, hme, ?_, hidle, ?_⟩, hwait, hch.valid, hown, rfl, rfl, rfl, Nat.zero_le _,
    ?_, ?_, ?_⟩
  · exact (congrArg Slave.eMBState hframe).trans hbase.enabled
  · exact (congrArg Slave.xFuncHandlers hframe).trans hbase.table
  · exact (congrArg Slave.xTimer hframe).trans hbase.timer
  · rw [List.take_zero, List.append_nil]
    exact hsent
  · exact hcount.symm
  · rw [List.drop_zero, hlen, show x.callHandler.buildErrorFrame.ucMBAddress = _ from hme]
    exact holds_frame hpdu s.ucMBAddress

/-- The execution of a broadcast ends the transaction. -/
theorem pollExecute_broadcast (hbase : Base s x) (hlisten : Listening x)
    (hun : s.Untouched frame x) (hch : s.Checked frame x)
    (hall : addressOf frame = mbAddressBroadcast) (haddr : s.ucMBAddress ≠ mbAddressBroadcast)
    (hev : ¬ slaveChannel.Returns x.xSlaveOsEvent) :
    At s frame .done x.pollExecute := by
  have hpoll : x.pollExecute = x.callHandler :=
    if_neg (not_not_intro (hch.address.trans hall))
  rw [hpoll]
  refine ⟨⟨hbase.enabled, hbase.address, hbase.table, hbase.rcv, hbase.timer⟩,
    ⟨hlisten.rx, hlisten.tx, hlisten.snd⟩, hev, ?_, ?_, ?_⟩
  · exact fun h => absurd ⟨hch.valid, hch.forUs⟩ h
  · exact fun _ _ => hun.sent
  · exact fun _ hown => absurd (hown.symm.trans hall) haddr

theorem step_execute (haddr : s.ucMBAddress ≠ mbAddressBroadcast) (h : At s frame .execute x)
    {a : SlaveAction} (ha : PollTx a) (hstep : x.step a = some x') :
    At s frame (.transmitting 0) x' ∨ At s frame .done x' := by
  obtain ⟨hbase, hlisten, honly, hun, hch⟩ := h
  cases a with
  | byte b => exact ha.elim
  | timer => exact ha.elim
  | txReady =>
    simp only [step, hlisten.tx] at hstep
    cases hstep
  | poll junk =>
    rw [step, eMBPoll_of_only hbase.enabled honly junk] at hstep
    let y : Slave := { x with xSlaveOsEvent := (slaveChannel.get x.xSlaveOsEvent).2 }
    have hleft : ¬ slaveChannel.Returns y.xSlaveOsEvent :=
      slaveChannel.not_returns_get x.xSlaveOsEvent
    have hhandle : y.handle (some .execute) = some y.pollExecute := if_pos hch.pointer
    obtain rfl : y.pollExecute = x' := Option.some.inj (hhandle.symm.trans hstep)
    have hby : Base s y := ⟨hbase.enabled, hbase.address, hbase.table, hbase.rcv, hbase.timer⟩
    have huy : s.Untouched frame y := ⟨hun.buf, hun.app, hun.sent⟩
    have hcy : s.Checked frame y := ⟨hch.valid, hch.forUs, hch.pointer, hch.address, hch.length⟩
    rcases hch.forUs with hown | hall
    · exact Or.inl (pollExecute_own hby huy hcy hown haddr hleft)
    · exact Or.inr (pollExecute_broadcast hby ⟨hlisten.rx, hlisten.tx, hlisten.snd⟩ huy hcy hall
        haddr hleft)

/-- A turn of the transmitter sends the next byte, or reports the end of the frame. -/
theorem step_transmitting {j : Nat} (haddr : s.ucMBAddress ≠ mbAddressBroadcast)
    (h : At s frame (.transmitting j) x) {a : SlaveAction} (ha : PollTx a)
    (hstep : x.step a = some x') :
    (j < (s.replyFrame frame).length ∧ At s frame (.transmitting (j + 1)) x') ∨
      At s frame .sent x' := by
  obtain ⟨hbase, hev, hs⟩ := h
  cases a with
  | byte b => exact ha.elim
  | timer => exact ha.elim
  | poll junk =>
    rw [step, eMBPoll_waits hbase.enabled hev] at hstep
    cases hstep
  | txReady =>
    simp only [step, hs.tx, if_true] at hstep
    obtain rfl : x.xMBRTUTransmitFSM = x' := Option.some.inj hstep
    have hcount := hs.count
    have hle := hs.le
    by_cases hj : j < (s.replyFrame frame).length
    · left
      have hne : x.usSndBufferCount ≠ 0 := by omega
      have hdrop := List.drop_eq_getElem_cons hj
      have hrest := hs.rest
      rw [hdrop, Mem.holds_cons] at hrest
      simp only [xMBRTUTransmitFSM, hs.snd, if_pos hne, xMBPortSerialPutByte]
      refine ⟨hj, ⟨hbase.enabled, hbase.address, hbase.table, hbase.rcv, hbase.timer⟩, hev,
        hs.valid, hs.own, hs.rx, hs.tx, rfl, hj, ?_, ?_, hrest.2⟩
      · simp only [hs.sent, hrest.1, List.append_assoc]
        rw [List.take_succ_eq_append_getElem hj]
      · show x.usSndBufferCount - 1 = _
        omega
    · right
      have hz : x.usSndBufferCount = 0 := by omega
      have hsent : x.sent = s.sent ++ s.replyFrame frame := by
        rw [hs.sent, List.take_of_length_le (by omega)]
      simp only [xMBRTUTransmitFSM, hs.snd, hz, ne_eq, not_true_eq_false, if_false, post,
        vMBPortSerialEnable]
      refine ⟨⟨hbase.enabled, hbase.address, hbase.table, hbase.rcv, hbase.timer⟩,
        ⟨rfl, rfl, rfl⟩, slaveChannel.only_post hev _, ?_, ?_, ?_⟩
      · exact fun h => absurd ⟨hs.valid, Or.inl hs.own⟩ h
      · exact fun _ hall => absurd (hs.own.symm.trans hall) haddr
      · exact fun _ _ => hsent

/-- The poll of the transmission's end leaves nothing pending. -/
theorem step_sent (h : At s frame .sent x) {a : SlaveAction} (ha : PollTx a)
    (hstep : x.step a = some x') : At s frame .done x' := by
  obtain ⟨hbase, hlisten, honly, heff⟩ := h
  cases a with
  | byte b => exact ha.elim
  | timer => exact ha.elim
  | txReady =>
    simp only [step, hlisten.tx] at hstep
    cases hstep
  | poll junk =>
    rw [step, eMBPoll_of_only hbase.enabled honly junk] at hstep
    cases hstep
    exact ⟨⟨hbase.enabled, hbase.address, hbase.table, hbase.rcv, hbase.timer⟩,
      ⟨hlisten.rx, hlisten.tx, hlisten.snd⟩, slaveChannel.not_returns_get _,
      ⟨heff.ignored, heff.broadcast, heff.reply⟩⟩

/-- When the transaction is over, no poll returns and the transmitter stands still. -/
theorem step_done (h : At s frame .done x) {a : SlaveAction} (ha : PollTx a) :
    x.step a = none := by
  obtain ⟨hbase, hlisten, hev, -⟩ := h
  cases a with
  | byte b => exact ha.elim
  | timer => exact ha.elim
  | txReady =>
    simp only [step, hlisten.tx]
    rfl
  | poll junk => exact eMBPoll_waits hbase.enabled hev junk

/-- Each step leads to a later stage. -/
theorem step_stage (haddr : s.ucMBAddress ≠ mbAddressBroadcast) {st : Stage}
    (h : At s frame st x) {a : SlaveAction} (ha : PollTx a) (hstep : x.step a = some x') :
    ∃ st', At s frame st' x' ∧ st'.rank s frame < st.rank s frame := by
  cases st with
  | received =>
    rcases step_received h ha hstep with h' | h'
    · exact ⟨.execute, h', Nat.lt_succ_self _⟩
    · exact ⟨.done, h', Nat.succ_pos _⟩
  | execute =>
    rcases step_execute haddr h ha hstep with h' | h'
    · exact ⟨.transmitting 0, h', Nat.lt_succ_self _⟩
    · exact ⟨.done, h', Nat.succ_pos _⟩
  | transmitting j =>
    rcases step_transmitting haddr h ha hstep with ⟨hj, h'⟩ | h'
    · refine ⟨.transmitting (j + 1), h', ?_⟩
      simp only [Stage.rank]
      omega
    · exact ⟨.sent, h', Nat.lt_add_left _ Nat.one_lt_two⟩
  | sent => exact ⟨.done, step_sent h ha hstep, Nat.one_pos⟩
  | done =>
    rw [step_done h ha] at hstep
    cases hstep

/-- A run of polls and turns of the transmitter is no longer than the first stage's rank. -/
theorem run_stage (haddr : s.ucMBAddress ≠ mbAddressBroadcast) :
    ∀ {as : List SlaveAction} {st : Stage} {x : Slave}, At s frame st x →
      (∀ a ∈ as, PollTx a) → run step x as = some x' →
        ∃ st', At s frame st' x' ∧ st'.rank s frame + as.length ≤ st.rank s frame
  | [], st, x, h, _, hrun => by
      cases hrun
      exact ⟨st, h, Nat.le_refl _⟩
  | a :: as, st, x, h, has, hrun => by
      cases hstep : x.step a with
      | none => simp [run_cons, hstep] at hrun
      | some x₁ =>
        obtain ⟨st₁, h₁, hlt⟩ := step_stage haddr h (has a List.mem_cons_self) hstep
        rw [run_cons, hstep] at hrun
        obtain ⟨st', h', hle⟩ :=
          run_stage haddr h₁ (fun b hb => has b (List.mem_cons_of_mem a hb)) hrun
        refine ⟨st', h', ?_⟩
        rw [List.length_cons]
        omega

/-- Before the end, a poll or a turn of the transmitter is enabled. -/
theorem stage_enabled {st : Stage} (h : At s frame st x) (hns : ¬ x.Settled) :
    ∃ a, PollTx a ∧ ∃ x', x.step a = some x' := by
  cases st with
  | received =>
    exact ⟨.poll none, trivial, _, eMBPoll_of_only h.1.enabled h.2.2.1 none⟩
  | execute =>
    obtain ⟨hbase, -, honly, -, hch⟩ := h
    exact ⟨.poll none, trivial, _,
      (eMBPoll_of_only hbase.enabled honly none).trans (if_pos hch.pointer)⟩
  | transmitting j => exact ⟨.txReady, trivial, _, if_pos h.2.2.tx⟩
  | sent => exact ⟨.poll none, trivial, _, eMBPoll_of_only h.1.enabled h.2.2.1 none⟩
  | done => exact absurd ⟨h.2.2.1, h.2.1.tx⟩ hns

/-- Where nothing is pending the transaction is over. -/
theorem stage_of_settled {st : Stage} (h : At s frame st x) (hs : x.Settled) :
    At s frame .done x := by
  cases st with
  | received => exact absurd h.2.2.1.returns hs.1
  | execute => exact absurd h.2.2.1.returns hs.1
  | transmitting j =>
    have htx := h.2.2.tx
    rw [hs.2] at htx
    cases htx
  | sent => exact absurd h.2.2.1.returns hs.1
  | done => exact h

/-- From every stage some run of polls and turns of the transmitter ends the transaction. -/
theorem stage_settles (haddr : s.ucMBAddress ≠ mbAddressBroadcast) :
    ∀ (n : Nat) {st : Stage} {x : Slave}, At s frame st x → st.rank s frame ≤ n →
      ∃ as x', (∀ a ∈ as, PollTx a) ∧ run step x as = some x' ∧ x'.Settled := by
  intro n
  induction n with
  | zero =>
    intro st x h hn
    by_cases hs : x.Settled
    · exact ⟨[], x, by simp, rfl, hs⟩
    · obtain ⟨a, ha, x', hstep⟩ := stage_enabled h hs
      obtain ⟨st', -, hlt⟩ := step_stage haddr h ha hstep
      omega
  | succ n ih =>
    intro st x h hn
    by_cases hs : x.Settled
    · exact ⟨[], x, by simp, rfl, hs⟩
    · obtain ⟨a, ha, x', hstep⟩ := stage_enabled h hs
      obtain ⟨st', h', hlt⟩ := step_stage haddr h ha hstep
      obtain ⟨as, x₂, has, hrun, hset⟩ := ih h' (by omega)
      refine ⟨a :: as, x₂, ?_, ?_, hset⟩
      · intro b hb
        rcases List.mem_cons.mp hb with rfl | hb
        · exact ha
        · exact has b hb
      · rw [run_cons, hstep]
        exact hrun

/-- A frame that has just been received is at the first stage. -/
theorem stage_received (hq : Quiet s) (frame : List UChar) :
    At s frame .received (s.received frame) :=
  ⟨⟨hq.enabled, rfl, hq.table, rfl, rfl⟩, ⟨hq.rx, hq.tx, hq.snd⟩,
    slaveChannel.only_post hq.event _, ⟨rfl, rfl, rfl⟩, rfl⟩

end Steps

/-! ## The contract -/

/-- What the PDU of a reply says: the handler raised no exception and the function code comes
back, or the function code comes back with bit 7 set and the exception behind it. -/
inductive Answers (s : Slave) (frame pdu : List UChar) : Prop where
  | positive (data : List UChar) : (s.handled frame).eStatus = .none →
      pdu = functionOf frame :: data → Answers s frame pdu
  | exception (code : UChar) : code ≠ 0 → pdu = [functionOf frame ||| mbFuncError, code] →
      Answers s frame pdu

/-- The reply to a valid frame for the slave. -/
structure Reply (s : Slave) (frame reply : List UChar) : Prop where
  length_le : reply.length ≤ 256
  body : ∃ pdu, Answers s frame pdu ∧
    reply = (s.ucMBAddress :: pdu) ++ crcBytes (usMBCRC16List (s.ucMBAddress :: pdu))

/-- The contract of a transaction that took the slave from `s` to `x`. -/
structure Contract (s : Slave) (frame : List UChar) (x : Slave) : Prop where
  ignored : ¬ (Valid frame ∧ s.ForUs frame) → x.app = s.app ∧ x.sent = s.sent
  broadcast : Valid frame → addressOf frame = mbAddressBroadcast → x.sent = s.sent
  replied : Valid frame → addressOf frame = s.ucMBAddress →
    ∃ reply, Reply s frame reply ∧ x.sent = s.sent ++ reply
  rcv : x.eRcvState = .idle
  snd : x.eSndState = .idle
  rx : x.xRxEnable = true
  timer : x.xTimer = false

/-- A frame of a PDU of at most 253 bytes has at most 256 bytes. -/
theorem frame_length_le {own : UChar} {pdu : List UChar} (h : pdu.length ≤ 253) (crc : UShort) :
    ((own :: pdu) ++ crcBytes crc).length ≤ 256 := by
  simp only [List.length_append, List.length_cons, crcBytes, List.length_nil]
  omega

/-- The reply to a frame of at most 256 bytes is one. -/
theorem replyFrame_reply {s : Slave} {frame : List UChar} (hv : Valid frame)
    (h2 : frame.length ≤ 256) : Reply s frame (s.replyFrame frame) := by
  have hlen4 := hv.1
  by_cases he : (s.handled frame).eStatus = .none
  · have hpdu : s.replyPdu frame =
        slice (s.handled frame).pucFrame 0 (s.handled frame).usLen := if_pos he
    have hok : ReplyOk ((s.ucRTUBuf.write 0 frame).at mbSerPduPduOff) (s.handled frame) :=
      slaveDispatch_reply (by omega) (by omega)
    obtain ⟨⟨hle1, hle2⟩, hcode⟩ := hok he
    have hfirst : (s.handled frame).pucFrame 0 = functionOf frame :=
      hcode.trans (write_getD s.ucRTUBuf (show 1 < frame.length by omega))
    have hsucc : (s.handled frame).usLen = (s.handled frame).usLen - 1 + 1 := by omega
    rw [hsucc, slice_succ, hfirst] at hpdu
    refine ⟨?_, s.replyPdu frame, .positive _ he hpdu, rfl⟩
    refine frame_length_le ?_ _
    rw [hpdu, List.length_cons, slice_length]
    omega
  · have hpdu : s.replyPdu frame =
        [functionOf frame ||| mbFuncError, (s.handled frame).eStatus.code] := if_neg he
    refine ⟨?_, s.replyPdu frame, .exception _ (mt MBException.code_eq_zero.mp he) hpdu, rfl⟩
    refine frame_length_le ?_ _
    rw [hpdu]
    exact Nat.le_of_ble_eq_true rfl

/-- Every frame of 1 to 256 bytes, followed by silence, is handled by polls and turns of the
transmitter in bounded time, and where they end the contract holds. -/
theorem slave_transaction {s : Slave} (hq : Quiet s) {frame : List UChar}
    (h1 : 1 ≤ frame.length) (h2 : frame.length ≤ 256) :
    ∃ s₁, run step s (frame.map .byte ++ [.timer]) = some s₁ ∧
      (∃ n, ∀ as x, (∀ a ∈ as, PollTx a) → run step s₁ as = some x → as.length ≤ n) ∧
      (∃ as x, (∀ a ∈ as, PollTx a) ∧ run step s₁ as = some x ∧ x.Settled) ∧
      ∀ as x, (∀ a ∈ as, PollTx a) → run step s₁ as = some x → x.Settled →
        Contract s frame x := by
  have hstart := stage_received hq frame
  refine ⟨s.received frame, run_frame hq h1 h2,
    ⟨Stage.rank s frame .received, fun as x has hrun => ?_⟩,
    stage_settles hq.address _ hstart (Nat.le_refl _), fun as x has hrun hset => ?_⟩
  · obtain ⟨st, -, hle⟩ := run_stage hq.address hstart has hrun
    exact Nat.le_trans (Nat.le_add_left _ _) hle
  · obtain ⟨st, hst, -⟩ := run_stage hq.address hstart has hrun
    obtain ⟨hbase, hlisten, -, heff⟩ := stage_of_settled hst hset
    exact ⟨heff.ignored, heff.broadcast,
      fun hv hown => ⟨_, replyFrame_reply hv h2, heff.reply hv hown⟩,
      hbase.rcv, hlisten.snd, hlisten.rx, hbase.timer⟩

/-- A slave that was started is quiet once the bus was silent and the start was polled. -/
theorem quiet_of_started {s : Slave} (h : Started s) :
    ∃ s', run step s [.timer, .poll none] = some s' ∧ Quiet s' := by
  obtain ⟨app, own, hown, rfl⟩ := h.eq
  have honly : slaveChannel.Only (slaveChannel.post 0 .ready) .ready :=
    slaveChannel.only_post (by decide) .ready
  let y : Slave := { static app with
    ucMBAddress := own
    eMBState := .enabled
    eRcvState := .idle
    xRxEnable := true
    xSlaveOsEvent := slaveChannel.post 0 .ready }
  refine ⟨{ y with xSlaveOsEvent := (slaveChannel.get y.xSlaveOsEvent).2 }, ?_, ?_⟩
  · rw [run_cons, show step _ .timer = some y from rfl, Option.bind_some, run_cons, step,
      eMBPoll_of_only (x := y) rfl honly]
    rfl
  · exact ⟨rfl, hown, rfl, rfl, rfl, slaveChannel.not_returns_get _, rfl, rfl⟩

/-- A register write to a slave that has just been started. -/
theorem slave_transaction_write :
    ∃ s₀ s x : Slave, Started s₀ ∧ (∃ as, run step s₀ as = some s) ∧
      (∃ as, run step s as = some x) ∧
        Contract s ([1, 6, 0, 0, 0, 7] ++ crcBytes (usMBCRC16List [1, 6, 0, 0, 0, 7])) x := by
  have hst : Started ((static .initial).eMBInit 1).2.eMBEnable.2 := ⟨.initial, 1, by decide⟩
  obtain ⟨s, hrun, hq⟩ := quiet_of_started hst
  let frame : List UChar := [1, 6, 0, 0, 0, 7] ++ crcBytes (usMBCRC16List [1, 6, 0, 0, 0, 7])
  have h1 : 1 ≤ frame.length := by decide
  have h2 : frame.length ≤ 256 := by decide
  obtain ⟨s₁, hframe, -, ⟨as, x, has, hend, hset⟩, hcontract⟩ := slave_transaction hq h1 h2
  refine ⟨_, s, x, hst, ⟨_, hrun⟩, ⟨frame.map .byte ++ [.timer] ++ as, ?_⟩,
    hcontract as x has hend hset⟩
  rw [run_append, hframe]
  exact hend

end Slave

end FreeModbus
