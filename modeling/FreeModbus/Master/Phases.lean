import FreeModbus.Master.Interrupts

/-!
# The phases of the master

Between two polls the master is in one of few phases: events are pending and the
line is quiet, a frame is coming in, the request is being sent, or the response is
awaited.  `Control p s` ties a phase to the fields that control what can happen
next: the two state machines, the timer with its mode, the enabled direction of
the port and the pending events.

Each function of the source gets one lemma that says to which phase it leads.
-/

namespace FreeModbus

open ByteMemory EventFlags EventFlags.Channel

namespace Master

/-- Where the master stands. -/
inductive Phase where
  /-- Nothing is on the line, and these events are pending. -/
  | pend (events : List MBMasterEventType)
  /-- A frame is coming in while these events are pending. -/
  | rcv (events : List MBMasterEventType)
  /-- A frame is being transmitted. -/
  | send
  /-- A frame was transmitted, and the response timeout or the convert delay runs. -/
  | wait

namespace Phase

/-- The pending events. -/
def events : Phase → List MBMasterEventType
  | .pend es => es
  | .rcv es => es
  | .send => []
  | .wait => []

/-- The state of the transmitter. -/
def snd : Phase → MBMasterSndState
  | .pend _ => .idle
  | .rcv _ => .idle
  | .send => .xmit
  | .wait => .xfwr

/-- The receiver is enabled; else the transmitter is. -/
def rx : Phase → Bool
  | .send => false
  | _ => true

/-- The timer runs. -/
def timer : Phase → Bool
  | .rcv _ => true
  | .wait => true
  | _ => false

/-- The state of the receiver, and the mode of the timer where it runs. -/
def Receiver (eRcvState : MBMasterRcvState) (mode : MBMasterTimerMode) (isBroadcast : Bool) :
    Phase → Prop
  | .pend _ => eRcvState = .idle
  | .rcv _ => (eRcvState = .rcv ∨ eRcvState = .error) ∧ mode = .t35
  | .send => eRcvState = .idle
  | .wait => eRcvState = .idle ∧ mode = if isBroadcast then .convertDelay else .respondTimeout

/-- At most `EV_MASTER_FRAME_SENT` is pending beside one other event. -/
def Valid : Phase → Prop
  | .pend es => es = [] ∨ (∃ e, es = [e]) ∨ ∃ e, e ≠ .frameSent ∧ es = [.frameSent, e]
  | .rcv es => es = [] ∨ es = [.frameSent]
  | .send => True
  | .wait => True

theorem valid_one (e : MBMasterEventType) : (pend [e]).Valid := Or.inr (Or.inl ⟨e, rfl⟩)

end Phase

/-- The master is in phase `p`. -/
structure Control (p : Phase) (s : Master) : Prop where
  state : s.eMBState = .established
  events : ∀ e, masterChannel.Pending s.xMasterOsEvent e ↔ e ∈ p.events
  receiver : p.Receiver s.eRcvState s.eMasterCurTimerMode s.xFrameIsBroadcast
  snd : s.eSndState = p.snd
  rx : s.xRxEnable = p.rx
  tx : s.xTxEnable = !p.rx
  timer : s.xTimer = p.timer

variable {s s' : Master} {p : Phase} {es : List MBMasterEventType} {e : MBMasterEventType}

/-! ## Pending events -/

theorem Control.returns_iff (h : Control p s) :
    masterChannel.Returns s.xMasterOsEvent ↔ p.events ≠ [] := by
  constructor
  · rintro ⟨e, he⟩ hnil
    have hmem := (h.events e).mp he
    rw [hnil] at hmem
    cases hmem
  · intro hne
    obtain ⟨e, he⟩ := List.exists_mem_of_ne_nil _ hne
    exact ⟨e, (h.events e).mpr he⟩

theorem Control.polled_one (h : Control p s) (hp : p.events = [e])
    (junk : Option MBMasterEventType) : s.polled junk = some e := by
  refine polled_of_only (fun e' => ?_) junk
  rw [h.events, hp, List.mem_singleton]

theorem pending_post_iff (s : Master) (e e' : MBMasterEventType) :
    masterChannel.Pending (s.post e).xMasterOsEvent e' ↔
      masterChannel.Pending s.xMasterOsEvent e' ∨ e' = e :=
  masterChannel.pending_post ..

theorem pending_callback_iff (s : Master) (r : MBMasterResult) (e : MBMasterEventType) :
    masterChannel.Pending (s.callback r).xMasterOsEvent e ↔
      masterChannel.Pending s.xMasterOsEvent e :=
  masterChannel_apart.pending_post ..

theorem Control.events_post (h : Control p s) (e e' : MBMasterEventType) :
    masterChannel.Pending (s.post e).xMasterOsEvent e' ↔ e' ∈ p.events ++ [e] := by
  rw [pending_post_iff, h.events, List.mem_append, List.mem_singleton]

/-- A post in a quiet phase adds its event. -/
theorem Control.post (h : Control (.pend es) s) (e : MBMasterEventType) :
    Control (.pend (es ++ [e])) (s.post e) where
  state := h.state
  events := h.events_post e
  receiver := h.receiver
  snd := h.snd
  rx := h.rx
  tx := h.tx
  timer := h.timer

/-- What a get leaves of a phase. -/
def Phase.polled : Phase → Phase
  | .pend _ => .pend []
  | .rcv _ => .rcv []
  | .send => .send
  | .wait => .wait

/-- A get clears the pending events. -/
theorem Control.get (h : Control p s) :
    Control p.polled s.drained := by
  have hnone : ∀ e, ¬ masterChannel.Pending (xMBMasterPortEventGet s.xMasterOsEvent).2 e :=
    masterChannel.not_pending_get _
  cases p with
  | pend es =>
    exact ⟨h.state, fun e => iff_of_false (hnone e) (List.not_mem_nil), h.receiver, h.snd, h.rx,
      h.tx, h.timer⟩
  | rcv es =>
    exact ⟨h.state, fun e => iff_of_false (hnone e) (List.not_mem_nil), h.receiver, h.snd, h.rx,
      h.tx, h.timer⟩
  | send =>
    exact ⟨h.state, fun e => iff_of_false (hnone e) (List.not_mem_nil), h.receiver, h.snd, h.rx,
      h.tx, h.timer⟩
  | wait =>
    exact ⟨h.state, fun e => iff_of_false (hnone e) (List.not_mem_nil), h.receiver, h.snd, h.rx,
      h.tx, h.timer⟩

/-! ## Received bytes -/

/-- After a byte a frame is coming in. -/
theorem Control.byte (h : Control p s) (hrx : s.xRxEnable = true) (ucByte : UChar) :
    Control (.rcv p.events) (s.xMBMasterRTUReceiveFSM ucByte) := by
  have hidle : s.eRcvState = .idle → s.xTxEnable = false →
      Control (.rcv p.events) (s.xMBMasterRTUReceiveFSM ucByte) := by
    intro hr htx
    rw [xMBMasterRTUReceiveFSM_idle hr]
    exact ⟨h.state, h.events, ⟨Or.inl rfl, rfl⟩, rfl, hrx, htx, rfl⟩
  cases p with
  | pend es => exact hidle h.receiver h.tx
  | rcv es =>
    obtain ⟨rcvBuf, pos, st, hst, heq⟩ := xMBMasterRTUReceiveFSM_rcv h.receiver.1 ucByte
    rw [heq]
    exact ⟨h.state, h.events, ⟨hst, rfl⟩, h.snd, h.rx, h.tx, rfl⟩
  | send => exact absurd (hrx.symm.trans h.rx) (by decide)
  | wait => exact hidle h.receiver.1 h.tx

/-! ## Expiries -/

/-- A frame came in. -/
theorem Control.expire_frame (h : Control (.rcv es) s) (hr : s.eRcvState = .rcv) :
    Control (.pend (es ++ [.frameReceived])) s.xMBMasterRTUTimerExpired := by
  rw [timerExpired_frame hr h.snd h.receiver.2]
  exact ⟨h.state, h.events_post _, rfl, h.snd, h.rx, h.tx, rfl⟩

/-- A frame came in that does not fit in the buffer. -/
theorem Control.expire_error (h : Control (.rcv es) s) (hr : s.eRcvState = .error) :
    Control (.pend (es ++ [.errorProcess])) s.xMBMasterRTUTimerExpired := by
  rw [timerExpired_error hr h.snd h.receiver.2]
  exact ⟨h.state, h.events_post _, rfl, h.snd, h.rx, h.tx, rfl⟩

/-- The mode of the timer while the response is awaited. -/
theorem Control.mode (h : Control .wait s) {isBroadcast : Bool}
    (hb : s.xFrameIsBroadcast = isBroadcast) :
    s.eMasterCurTimerMode = if isBroadcast then .convertDelay else .respondTimeout :=
  hb ▸ h.receiver.2

/-- No response came. -/
theorem Control.expire_response (h : Control .wait s) (hb : s.xFrameIsBroadcast = false) :
    Control (.pend [.errorProcess]) s.xMBMasterRTUTimerExpired := by
  rw [timerExpired_response h.receiver.1 h.snd hb (h.mode hb)]
  exact ⟨h.state, h.events_post _, h.receiver.1, rfl, h.rx, h.tx, rfl⟩

/-- The convert delay after a broadcast is over. -/
theorem Control.expire_broadcast (h : Control .wait s) (hb : s.xFrameIsBroadcast = true) :
    Control (.pend [.execute]) s.xMBMasterRTUTimerExpired := by
  rw [timerExpired_broadcast h.receiver.1 h.snd hb (h.mode hb)]
  exact ⟨h.state, h.events_post _, h.receiver.1, rfl, h.rx, h.tx, rfl⟩

/-- An expiry posts one event. -/
theorem Control.expire (h : Control p s) (ht : s.xTimer = true) :
    ∃ e, e ≠ .frameSent ∧ Control (.pend (p.events ++ [e])) s.xMBMasterRTUTimerExpired ∧
      Keeps s s.xMBMasterRTUTimerExpired := by
  have hon : p.timer = true := h.timer.symm.trans ht
  have hkeeps := (portStep_timerExpired s).keeps
  cases p with
  | pend es => cases hon
  | rcv es =>
    obtain ⟨hr | hr, -⟩ := h.receiver
    · exact ⟨.frameReceived, nofun, h.expire_frame hr, hkeeps⟩
    · exact ⟨.errorProcess, nofun, h.expire_error hr, hkeeps⟩
  | send => cases hon
  | wait =>
    cases hb : s.xFrameIsBroadcast with
    | false => exact ⟨.errorProcess, nofun, h.expire_response hb, hkeeps⟩
    | true => exact ⟨.execute, nofun, h.expire_broadcast hb, hkeeps⟩

/-! ## Turns of the transmitter -/

theorem Control.transmit_byte (h : Control .send s) (hc : s.usMasterSndBufferCount ≠ 0) :
    Control .send s.xMBMasterRTUTransmitFSM := by
  rw [xMBMasterRTUTransmitFSM_byte h.snd hc]
  exact ⟨h.state, h.events, h.receiver, rfl, h.rx, h.tx, h.timer⟩

theorem Control.transmit_done (h : Control .send s) (hc : s.usMasterSndBufferCount = 0) :
    Control .wait s.xMBMasterRTUTransmitFSM := by
  rw [xMBMasterRTUTransmitFSM_done h.snd hc]
  exact ⟨h.state, h.events, ⟨h.receiver, rfl⟩, rfl, rfl, rfl, rfl⟩

/-- The transmitter sends on, or is done and the response is awaited. -/
theorem Control.transmit (h : Control .send s) :
    (Control .send s.xMBMasterRTUTransmitFSM ∨ Control .wait s.xMBMasterRTUTransmitFSM) ∧
      Keeps s s.xMBMasterRTUTransmitFSM := by
  refine ⟨?_, (portStep_transmitFSM s).keeps⟩
  by_cases hc : s.usMasterSndBufferCount = 0
  · exact Or.inr (h.transmit_done hc)
  · exact Or.inl (h.transmit_byte hc)

/-! ## Polls -/

/-- A completion callback was issued and the run resource released. -/
structure Completes (s s' : Master) : Prop where
  res : s'.xMasterRunRes = s.xMasterRunRes + 1
  holders : s'.holders = s.holders.drop 1
  calls : s'.calls = s.calls

/-- The length and CRC check of `eMBMasterRTUReceive`. -/
def FrameValid (s : Master) : Prop :=
  mbSerPduSizeMin ≤ s.usMasterRcvBufferPos ∧
    usMBCRC16 s.ucMasterRTURcvBuf s.usMasterRcvBufferPos = 0

/-- The received frame is valid and comes from the slave with the destination address. -/
def FrameForUs (s : Master) : Prop :=
  s.FrameValid ∧ s.ucMasterRTURcvBuf mbSerPduAddrOff = s.ucMBMasterDestAddress

instance (s : Master) : Decidable s.FrameForUs := by
  unfold FrameForUs FrameValid
  infer_instance

/-- The received frame as `eMBMasterRTUReceive` returns it. -/
def accepted (s : Master) : Master :=
  { s with
    ucRcvAddress := s.ucMasterRTURcvBuf mbSerPduAddrOff
    usLength := s.usMasterRcvBufferPos - mbSerPduPduOff - mbSerPduSizeCrc
    ucMBFrame := .rcvBuf }

theorem eMBMasterRTUReceive_ok (h : s.FrameValid) :
    s.eMBMasterRTUReceive = (.enoerr, s.accepted) := if_pos h

theorem eMBMasterRTUReceive_bad (h : ¬ s.FrameValid) : s.eMBMasterRTUReceive = (.eio, s) :=
  if_neg h

theorem pollFrameReceived_ok (h : s.FrameForUs) :
    s.pollFrameReceived =
      (s.accepted.record (.received s.ucMBMasterDestAddress)).post .execute := by
  rw [pollFrameReceived, eMBMasterRTUReceive_ok h.1, ← h.2]
  exact if_pos ⟨rfl, h.2⟩

theorem pollFrameReceived_bad (h : ¬ s.FrameForUs) :
    ∃ ucRcvAddress usLength ucMBFrame, s.pollFrameReceived = fail { s with
      ucRcvAddress := ucRcvAddress
      usLength := usLength
      ucMBFrame := ucMBFrame } .receiveData := by
  by_cases hv : s.FrameValid
  · have heq : s.pollFrameReceived = s.accepted.fail .receiveData := by
      rw [pollFrameReceived, eMBMasterRTUReceive_ok hv]
      exact if_neg fun hok => h ⟨hv, hok.2⟩
    exact ⟨_, _, _, heq⟩
  · have heq : s.pollFrameReceived = s.fail .receiveData := by
      rw [pollFrameReceived, eMBMasterRTUReceive_bad hv]
      exact if_neg fun hok => nomatch hok.1
    exact ⟨_, _, _, heq⟩

/-- The send buffer after `eMBMasterRTUSend` has put address and CRC around the PDU. -/
def sendBuf (s : Master) : Buf :=
  let usMasterSndBufferCount := 1 + s.usMasterSendPDULength
  let buf : Buf := Function.update s.ucMasterRTUSndBuf 0 s.ucMBMasterDestAddress
  let usCRC16 := usMBCRC16 buf usMasterSndBufferCount.toNat
  Function.update
    (Function.update buf usMasterSndBufferCount.toNat ((usCRC16 &&& 0xFF).setWidth 8))
    (usMasterSndBufferCount + 1).toNat ((usCRC16 >>> 8).setWidth 8)

/-- The transmitter is activated for a slave address if the receiver is idle. -/
theorem pollFrameSent_ok (ha : s.ucMBMasterDestAddress.toNat ≤ mbMasterTotalSlaveNum)
    (hr : s.eRcvState = .idle) :
    s.pollFrameSent = { s with
      ucMBFrame := .sndBuf
      pucMasterSndBufferCur := 0
      ucMasterRTUSndBuf := s.sendBuf
      usMasterSndBufferCount := 1 + s.usMasterSendPDULength + 2
      eSndState := .xmit
      line := []
      xRxEnable := false
      xTxEnable := true } := by
  simp only [pollFrameSent, eMBMasterRTUSend, if_neg (Nat.not_lt.mpr ha), if_pos hr]
  rfl

theorem pollFrameSent_bad
    (h : ¬ (s.ucMBMasterDestAddress.toNat ≤ mbMasterTotalSlaveNum ∧ s.eRcvState = .idle)) :
    s.pollFrameSent = { s with ucMBFrame := .sndBuf } := by
  by_cases ha : s.ucMBMasterDestAddress.toNat ≤ mbMasterTotalSlaveNum
  · have hr : ¬ s.eRcvState = .idle := fun hr => h ⟨ha, hr⟩
    simp only [pollFrameSent, eMBMasterRTUSend, if_neg (Nat.not_lt.mpr ha), if_neg hr]
  · simp only [pollFrameSent, eMBMasterRTUSend, if_pos (Nat.lt_of_not_le ha)]

/-! ## The execution of a frame -/

/-- What the execution of a frame may change: the fields of the poll loop, the two buffers, the
mirror and the log. -/
def Executes (s s' : Master) : Prop :=
  ∃ fc ex dest len sndBuf rcvBuf app log, s' = { s with
    ucFunctionCode := fc
    eException := ex
    ucMBMasterDestAddress := dest
    usLength := len
    ucMasterRTUSndBuf := sndBuf
    ucMasterRTURcvBuf := rcvBuf
    app := app
    log := log }

theorem Executes.refl (s : Master) : Executes s s := ⟨_, _, _, _, _, _, _, _, rfl⟩

theorem Executes.trans {s₁ s₂ s₃ : Master} (h : Executes s₁ s₂) (h' : Executes s₂ s₃) :
    Executes s₁ s₃ := by
  obtain ⟨_, _, _, _, _, _, _, _, rfl⟩ := h
  obtain ⟨_, _, _, _, _, _, _, _, rfl⟩ := h'
  exact ⟨_, _, _, _, _, _, _, _, rfl⟩

theorem setFrame_executes (s : Master) (pucFrame : Buf) : Executes s (s.setFrame pucFrame) := by
  unfold setFrame
  split
  · exact ⟨_, _, _, _, _, _, _, _, rfl⟩
  · exact ⟨_, _, _, _, _, _, _, _, rfl⟩
  · exact .refl s

theorem callHandler_executes (pxHandler : MasterHandler) (s : Master) :
    Executes s (callHandler pxHandler s) := by
  have hset := setFrame_executes s (pxHandler s.ctx s.app s.frame s.usLength).pucFrame
  unfold callHandler
  dsimp only
  split
  · exact hset.trans ⟨_, _, _, _, _, _, _, _, rfl⟩
  · exact hset.trans ⟨_, _, _, _, _, _, _, _, rfl⟩

theorem callHandlerAll_executes (pxHandler : MasterHandler) (s : Master) :
    Executes s (callHandlerAll pxHandler s) := by
  refine List.foldlRecOn (motive := Executes s) _ _ ⟨_, _, _, _, _, _, _, _, rfl⟩ fun t ht j _ => ?_
  have hdest : Executes t { t with ucMBMasterDestAddress := BitVec.ofNat 8 (j + 1) } :=
    ⟨_, _, _, _, _, _, _, _, rfl⟩
  exact (ht.trans hdest).trans (callHandler_executes pxHandler _)

theorem executeFrame_executes (s : Master) : Executes s s.executeFrame := by
  have hfetch : ∀ fc ex, Executes s { s with ucFunctionCode := fc, eException := ex } :=
    fun fc ex => ⟨_, _, _, _, _, _, _, _, rfl⟩
  unfold executeFrame
  dsimp only
  split
  · exact hfetch _ _
  · split
    · exact hfetch _ _
    · split
      · exact (hfetch _ _).trans (callHandlerAll_executes ..)
      · exact (hfetch _ _).trans (callHandler_executes ..)

/-- A completion: the callback for a result and the release of the run resource. -/
def complete (s : Master) (result : MBMasterResult) : Master :=
  (s.callback result).vMBMasterRunResRelease

/-- The execution of a frame ends in an error, or completes. -/
theorem pollExecute_cases (s : Master) :
    (s.executeFrame.eException ≠ 0 ∧ s.pollExecute = s.executeFrame.fail .executeFunction) ∨
      (s.executeFrame.eException = 0 ∧ s.pollExecute = s.executeFrame.complete .processSucess) := by
  by_cases hex : s.executeFrame.eException = 0
  · exact Or.inr ⟨hex, if_neg fun hne => hne hex⟩
  · exact Or.inl ⟨hex, if_pos hex⟩

/-! ## What a poll handles -/

/-- The cases of the `switch`, with what each comes to. -/
inductive Handled (s : Master) : Option MBMasterEventType → Master → Prop where
  | nothing : Handled s none s
  | ready : Handled s (some .ready) { s with eMBState := .established }
  | accepted (hus : s.FrameForUs) : Handled s (some .frameReceived)
      ((s.accepted.record (.received s.ucMBMasterDestAddress)).post .execute)
  | rejected (ucRcvAddress : UChar) (usLength : Nat) (ucMBFrame : MBMasterFrame)
      (hus : ¬ s.FrameForUs) : Handled s (some .frameReceived) (fail { s with
        ucRcvAddress := ucRcvAddress
        usLength := usLength
        ucMBFrame := ucMBFrame } .receiveData)
  | failed (hex : s.executeFrame.eException ≠ 0) :
      Handled s (some .execute) (s.executeFrame.fail .executeFunction)
  | executed (hex : s.executeFrame.eException = 0) :
      Handled s (some .execute) (s.executeFrame.complete .processSucess)
  | activated (ha : s.ucMBMasterDestAddress.toNat ≤ mbMasterTotalSlaveNum)
      (hr : s.eRcvState = .idle) : Handled s (some .frameSent) { s with
        ucMBFrame := .sndBuf
        pucMasterSndBufferCur := 0
        ucMasterRTUSndBuf := s.sendBuf
        usMasterSndBufferCount := 1 + s.usMasterSendPDULength + 2
        eSndState := .xmit
        line := []
        xRxEnable := false
        xTxEnable := true }
  | unsent (h : ¬ (s.ucMBMasterDestAddress.toNat ≤ mbMasterTotalSlaveNum ∧ s.eRcvState = .idle)) :
      Handled s (some .frameSent) { s with ucMBFrame := .sndBuf }
  | error : Handled s (some .errorProcess)
      ({ s with ucMBFrame := .sndBuf }.complete s.eMBMasterCurErrorType.result)

theorem handled_of_handle {ev : Option MBMasterEventType} (hs : s.handle ev = some s') :
    Handled s ev s' := by
  cases ev with
  | none =>
    cases hs
    exact .nothing
  | some e =>
    cases e with
    | ready =>
      cases hs
      exact .ready
    | frameReceived =>
      cases hs
      by_cases hus : s.FrameForUs
      · rw [pollFrameReceived_ok hus]
        exact .accepted hus
      · obtain ⟨_, _, _, heq⟩ := pollFrameReceived_bad hus
        rw [heq]
        exact .rejected _ _ _ hus
    | execute =>
      rw [Master.handle] at hs
      split at hs
      · cases hs
      · cases hs
        rcases pollExecute_cases s with ⟨hex, heq⟩ | ⟨hex, heq⟩
        · rw [heq]
          exact .failed hex
        · rw [heq]
          exact .executed hex
    | frameSent =>
      cases hs
      by_cases hok : s.ucMBMasterDestAddress.toNat ≤ mbMasterTotalSlaveNum ∧ s.eRcvState = .idle
      · rw [pollFrameSent_ok hok.1 hok.2]
        exact .activated hok.1 hok.2
      · rw [pollFrameSent_bad hok]
        exact .unsent hok
    | errorProcess =>
      cases hs
      exact .error

/-! ## Polls keep to the phases -/

theorem Control.executes (h : Control p s) (hex : Executes s s') : Control p s' := by
  obtain ⟨_, _, _, _, _, _, _, _, rfl⟩ := hex
  exact ⟨h.state, h.events, h.receiver, h.snd, h.rx, h.tx, h.timer⟩

theorem Executes.keeps (h : Executes s s') : Keeps s s' := by
  obtain ⟨_, _, _, _, _, _, _, _, rfl⟩ := h
  exact ⟨rfl, rfl, rfl⟩

theorem Control.fail (h : Control (.pend es) s) (errorType : MBMasterErrorEventType) :
    Control (.pend (es ++ [.errorProcess])) (s.fail errorType) :=
  ⟨h.state, h.events_post _, h.receiver, h.snd, h.rx, h.tx, h.timer⟩

/-- The transmitter is activated. -/
theorem Control.pollFrameSent (h : Control (.pend []) s)
    (ha : s.ucMBMasterDestAddress.toNat ≤ mbMasterTotalSlaveNum) :
    Control .send s.pollFrameSent := by
  rw [pollFrameSent_ok ha h.receiver]
  exact ⟨h.state, h.events, h.receiver, rfl, rfl, rfl, h.timer⟩

/-- A frame for us is to be executed. -/
theorem Control.accept (h : Control (.pend []) s) (hus : s.FrameForUs) :
    Control (.pend [.execute]) s.pollFrameReceived := by
  rw [pollFrameReceived_ok hus]
  exact ⟨h.state, h.events_post _, h.receiver, h.snd, h.rx, h.tx, h.timer⟩

/-- Any other frame is an error. -/
theorem Control.reject (h : Control (.pend []) s) (hus : ¬ s.FrameForUs) :
    Control (.pend [.errorProcess]) s.pollFrameReceived := by
  obtain ⟨_, _, _, heq⟩ := pollFrameReceived_bad hus
  rw [heq]
  exact ⟨h.state, h.events_post _, h.receiver, h.snd, h.rx, h.tx, h.timer⟩

theorem Control.complete (h : Control p s) (result : MBMasterResult) :
    Control p (s.complete result) :=
  ⟨h.state, fun e => (pending_callback_iff s result e).trans (h.events e), h.receiver, h.snd, h.rx,
    h.tx, h.timer⟩

/-- What a poll does: it leads to another phase, or it completes and leaves nothing pending. -/
def Polls (s s' : Master) : Prop :=
  (∃ p, p.Valid ∧ Control p s' ∧ Keeps s s') ∨ (Control (.pend []) s' ∧ Completes s s')

/-- An event that is handled while the line is quiet and nothing else is pending. -/
theorem Control.handle (h : Control (.pend []) s) {ev : Option MBMasterEventType}
    (hs : s.handle ev = some s') : Polls s s' := by
  cases handled_of_handle hs with
  | nothing => exact Or.inl ⟨.pend [], Or.inl rfl, h, rfl, rfl, rfl⟩
  | ready =>
    exact Or.inl ⟨.pend [], Or.inl rfl,
      ⟨rfl, h.events, h.receiver, h.snd, h.rx, h.tx, h.timer⟩, rfl, rfl, rfl⟩
  | accepted hus =>
    have hc := h.accept hus
    rw [pollFrameReceived_ok hus] at hc
    exact Or.inl ⟨_, Phase.valid_one _, hc, rfl, rfl, rfl⟩
  | rejected ucRcvAddress usLength ucMBFrame hus =>
    have hbuf : Control (.pend []) { s with
        ucRcvAddress := ucRcvAddress
        usLength := usLength
        ucMBFrame := ucMBFrame } :=
      ⟨h.state, h.events, h.receiver, h.snd, h.rx, h.tx, h.timer⟩
    exact Or.inl ⟨_, Phase.valid_one _, hbuf.fail _, rfl, rfl, rfl⟩
  | failed =>
    have hex := executeFrame_executes s
    have hk := hex.keeps
    exact Or.inl ⟨_, Phase.valid_one _, (h.executes hex).fail .executeFunction,
      hk.res, hk.holders, hk.calls⟩
  | executed =>
    have hex := executeFrame_executes s
    have hk := hex.keeps
    exact Or.inr ⟨(h.executes hex).complete .processSucess,
      congrArg (· + 1) hk.res, congrArg (List.drop 1) hk.holders, hk.calls⟩
  | activated ha hr =>
    have hc := h.pollFrameSent ha
    rw [pollFrameSent_ok ha hr] at hc
    exact Or.inl ⟨.send, trivial, hc, rfl, rfl, rfl⟩
  | unsent =>
    exact Or.inl ⟨.pend [], Or.inl rfl,
      ⟨h.state, h.events, h.receiver, h.snd, h.rx, h.tx, h.timer⟩, rfl, rfl, rfl⟩
  | error =>
    have hbuf : Control (.pend []) { s with ucMBFrame := .sndBuf } :=
      ⟨h.state, h.events, h.receiver, h.snd, h.rx, h.tx, h.timer⟩
    exact Or.inr ⟨hbuf.complete _, rfl, rfl, rfl⟩

/-- A poll handles what is pending. -/
theorem Control.poll (h : Control p s) (hv : p.Valid) {junk : Option MBMasterEventType}
    (hs : s.eMBMasterPoll junk = some s') : p.events ≠ [] ∧ Polls s s' := by
  obtain ⟨hret, hh⟩ := eMBMasterPoll_cases (Or.inr h.state) hs
  have hne := h.returns_iff.mp hret
  have hleft := h.get
  refine ⟨hne, ?_⟩
  cases p with
  | pend es =>
    refine (hleft.handle hh).imp ?_ ?_
    · rintro ⟨p', hv', hc', hk⟩
      exact ⟨p', hv', hc', hk.res, hk.holders, hk.calls⟩
    · rintro ⟨hc', hk⟩
      exact ⟨hc', hk.res, hk.holders, hk.calls⟩
  | rcv es =>
    have hes : es = [.frameSent] := hv.resolve_left hne
    rw [h.polled_one hes] at hh
    cases hh
    have hr : ¬ s.eRcvState = .idle := by
      rcases h.receiver.1 with hr | hr
      · rw [hr]
        nofun
      · rw [hr]
        nofun
    have heq := pollFrameSent_bad (s := s.drained) fun hok => hr hok.2
    rw [heq]
    exact Or.inl ⟨.rcv [], Or.inl rfl,
      ⟨hleft.state, hleft.events, hleft.receiver, hleft.snd, hleft.rx, hleft.tx, hleft.timer⟩,
      rfl, rfl, rfl⟩
  | send => exact absurd rfl hne
  | wait => exact absurd rfl hne

end Master

end FreeModbus
