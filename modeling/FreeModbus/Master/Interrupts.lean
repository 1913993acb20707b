import FreeModbus.Master.History

/-!
# The interrupts of the master

The receive interrupt, the turns of the transmitter and the timer run the two state
machines.  Each of their functions gets the equations of its cases.  Whatever the case,
it leaves the calls, the run resource, the mirror and the results alone (`PortStep`), so
that an invariant about these needs one lemma for all three.
-/

namespace FreeModbus

open ByteMemory EventFlags EventFlags.Channel

namespace Master

variable {s s' : Master}

/-! ## Received bytes -/

theorem xMBMasterRTUReceiveFSM_idle (hr : s.eRcvState = .idle) (ucByte : UChar) :
    s.xMBMasterRTUReceiveFSM ucByte = { s with
      eSndState := .idle
      ucMasterRTURcvBuf := Function.update s.ucMasterRTURcvBuf 0 ucByte
      usMasterRcvBufferPos := 1
      eRcvState := .rcv
      eMasterCurTimerMode := .t35
      xTimer := true } := by
  rw [xMBMasterRTUReceiveFSM, hr]
  rfl

/-- A byte of a frame that is coming in restarts the timer. -/
theorem xMBMasterRTUReceiveFSM_rcv (hr : s.eRcvState = .rcv ∨ s.eRcvState = .error)
    (ucByte : UChar) : ∃ rcvBuf pos st, (st = .rcv ∨ st = .error) ∧
      s.xMBMasterRTUReceiveFSM ucByte = { s with
        ucMasterRTURcvBuf := rcvBuf
        usMasterRcvBufferPos := pos
        eRcvState := st
        eMasterCurTimerMode := .t35
        xTimer := true } := by
  rcases hr with hr | hr
  · rw [xMBMasterRTUReceiveFSM, hr]
    dsimp only
    split
    · exact ⟨_, _, _, Or.inl rfl, rfl⟩
    · exact ⟨_, _, _, Or.inr rfl, rfl⟩
  · rw [xMBMasterRTUReceiveFSM, hr]
    exact ⟨_, _, _, Or.inr hr, rfl⟩

/-- A byte changes the state machines, the receive buffer and the timer. -/
theorem receiveFSM_eq (s : Master) (ucByte : UChar) : ∃ snd rcvBuf pos st,
    s.xMBMasterRTUReceiveFSM ucByte = { s with
      eSndState := snd
      ucMasterRTURcvBuf := rcvBuf
      usMasterRcvBufferPos := pos
      eRcvState := st
      eMasterCurTimerMode := .t35
      xTimer := true } := by
  unfold xMBMasterRTUReceiveFSM
  split
  · exact ⟨_, _, _, _, rfl⟩
  · exact ⟨_, _, _, _, rfl⟩
  · exact ⟨_, _, _, _, rfl⟩
  · split
    · exact ⟨_, _, _, _, rfl⟩
    · exact ⟨_, _, _, _, rfl⟩

/-! ## Expiries -/

theorem timerExpired_frame (hr : s.eRcvState = .rcv) (hs : s.eSndState = .idle)
    (hm : s.eMasterCurTimerMode = .t35) :
    s.xMBMasterRTUTimerExpired =
      { s.postFrameReceived with eRcvState := .idle, xTimer := false } := by
  simp [xMBMasterRTUTimerExpired, timerExpiredRcv, timerExpiredSnd, vMBMasterPortTimersDisable,
    postFrameReceived, Master.post, hr, hs, hm]

theorem timerExpired_error (hr : s.eRcvState = .error) (hs : s.eSndState = .idle)
    (hm : s.eMasterCurTimerMode = .t35) :
    s.xMBMasterRTUTimerExpired =
      { s.fail .receiveData with eRcvState := .idle, xTimer := false } := by
  simp [xMBMasterRTUTimerExpired, timerExpiredRcv, timerExpiredSnd, vMBMasterPortTimersDisable,
    fail, vMBMasterSetErrorType, Master.post, hr, hs, hm]

theorem timerExpired_response (hr : s.eRcvState = .idle) (hs : s.eSndState = .xfwr)
    (hb : s.xFrameIsBroadcast = false) (hm : s.eMasterCurTimerMode = .respondTimeout) :
    s.xMBMasterRTUTimerExpired =
      { s.fail .respondTimeout with eSndState := .idle, xTimer := false } := by
  simp [xMBMasterRTUTimerExpired, timerExpiredRcv, timerExpiredSnd, vMBMasterPortTimersDisable,
    fail, vMBMasterSetErrorType, Master.post, hr, hs, hb, hm]

theorem timerExpired_broadcast (hr : s.eRcvState = .idle) (hs : s.eSndState = .xfwr)
    (hb : s.xFrameIsBroadcast = true) (hm : s.eMasterCurTimerMode = .convertDelay) :
    s.xMBMasterRTUTimerExpired = { s.postExecute with eSndState := .idle, xTimer := false } := by
  simp [xMBMasterRTUTimerExpired, timerExpiredRcv, timerExpiredSnd, vMBMasterPortTimersDisable,
    postExecute, Master.post, hr, hs, hb, hm]

/-! ## Turns of the transmitter -/

theorem xMBMasterRTUTransmitFSM_byte (hs : s.eSndState = .xmit)
    (hc : s.usMasterSndBufferCount ≠ 0) :
    s.xMBMasterRTUTransmitFSM = { s with
      line := s.line ++ [s.ucMasterRTUSndBuf s.pucMasterSndBufferCur]
      pucMasterSndBufferCur := s.pucMasterSndBufferCur + 1
      usMasterSndBufferCount := s.usMasterSndBufferCount - 1
      eSndState := .xmit } := by
  simp only [xMBMasterRTUTransmitFSM, hs, if_pos hc, xMBMasterPortSerialPutByte]

/-- The first byte of the frame says whether it is a broadcast. -/
def sentBroadcast (s : Master) : Bool :=
  decide (s.ucMasterRTUSndBuf mbSerPduAddrOff = mbAddressBroadcast)

theorem xMBMasterRTUTransmitFSM_done (hs : s.eSndState = .xmit)
    (hc : s.usMasterSndBufferCount = 0) :
    s.xMBMasterRTUTransmitFSM = { s.record (.transmitted s.line) with
      xFrameIsBroadcast := s.sentBroadcast
      xRxEnable := true
      xTxEnable := false
      eSndState := .xfwr
      eMasterCurTimerMode := if s.sentBroadcast then .convertDelay else .respondTimeout
      xTimer := true } := by
  have hc' : ¬ s.usMasterSndBufferCount ≠ 0 := fun hne => hne hc
  simp only [xMBMasterRTUTransmitFSM, hs, if_neg hc']
  cases hb : s.sentBroadcast with
  | false =>
    have hne : s.ucMasterRTUSndBuf mbSerPduAddrOff ≠ mbAddressBroadcast := of_decide_eq_false hb
    simp [transmitted, record, vMBMasterPortSerialEnable, timersEnable,
      vMBMasterPortTimersRespondTimeoutEnable, hne]
  | true =>
    have heq : s.ucMasterRTUSndBuf mbSerPduAddrOff = mbAddressBroadcast := of_decide_eq_true hb
    simp [transmitted, record, vMBMasterPortSerialEnable, timersEnable,
      vMBMasterPortTimersConvertDelayEnable, heq]

/-! ## What they leave alone -/

/-- The run resource and the calls are as they were. -/
structure Keeps (s s' : Master) : Prop where
  res : s'.xMasterRunRes = s.xMasterRunRes
  holders : s'.holders = s.holders
  calls : s'.calls = s.calls

/-- A step of the port or the timer: the calls and the mirror are as they were, no result is
posted or taken, and what is recorded is no step of a call. -/
structure PortStep (s s' : Master) : Prop where
  state : s'.eMBState = s.eMBState
  dest : s'.ucMBMasterDestAddress = s.ucMBMasterDestAddress
  keeps : Keeps s s'
  app : s'.app = s.app
  results : ∀ r, resultChannel.Pending s'.xMasterOsEvent r ↔
    resultChannel.Pending s.xMasterOsEvent r
  log : ∃ es, s'.log = es ++ s.log ∧ ∀ e ∈ es, e.Inner
  snapshot : s'.snapshot = s.snapshot ∨ s'.snapshot = none ∨ s'.snapshot = some s.app

theorem logged_none (log : List MasterEvent) : ∃ es, log = es ++ log ∧ ∀ e ∈ es, e.Inner :=
  ⟨[], rfl, fun _ he => absurd he List.not_mem_nil⟩

theorem logged_one (e : MasterEvent) (he : e.Inner) (log : List MasterEvent) :
    ∃ es, e :: log = es ++ log ∧ ∀ e ∈ es, e.Inner :=
  ⟨[e], rfl, fun _ he' => List.mem_singleton.mp he' ▸ he⟩

theorem results_post (s : Master) (e : MBMasterEventType) (r : MBMasterResult) :
    resultChannel.Pending (s.post e).xMasterOsEvent r ↔ resultChannel.Pending s.xMasterOsEvent r :=
  masterChannel_apart.symm.pending_post ..

theorem PortStep.trans {s₁ s₂ s₃ : Master} (h : PortStep s₁ s₂) (h' : PortStep s₂ s₃) :
    PortStep s₁ s₃ where
  state := h'.state.trans h.state
  dest := h'.dest.trans h.dest
  keeps := ⟨h'.keeps.res.trans h.keeps.res, h'.keeps.holders.trans h.keeps.holders,
    h'.keeps.calls.trans h.keeps.calls⟩
  app := h'.app.trans h.app
  results r := (h'.results r).trans (h.results r)
  log := by
    obtain ⟨es, hlog, hes⟩ := h.log
    obtain ⟨es', hlog', hes'⟩ := h'.log
    refine ⟨es' ++ es, ?_, fun e he => ?_⟩
    · rw [hlog', hlog, List.append_assoc]
    · exact (List.mem_append.mp he).elim (hes' e) (hes e)
  snapshot := by
    rcases h'.snapshot with heq | hnone | hsome
    · rw [heq]
      exact h.snapshot
    · exact Or.inr (Or.inl hnone)
    · rw [hsome, h.app]
      exact Or.inr (Or.inr rfl)

/-- A step that records nothing, posts nothing and leaves the snapshot. -/
theorem PortStep.silent (hstate : s'.eMBState = s.eMBState)
    (hdest : s'.ucMBMasterDestAddress = s.ucMBMasterDestAddress) (hkeeps : Keeps s s')
    (happ : s'.app = s.app) (hflags : s'.xMasterOsEvent = s.xMasterOsEvent)
    (hlog : s'.log = s.log) (hsnapshot : s'.snapshot = s.snapshot) : PortStep s s' :=
  ⟨hstate, hdest, hkeeps, happ, fun _ => hflags ▸ Iff.rfl, hlog ▸ logged_none s.log,
    Or.inl hsnapshot⟩

theorem portStep_fail (s : Master) (errorType : MBMasterErrorEventType) :
    PortStep s (s.fail errorType) :=
  ⟨rfl, rfl, ⟨rfl, rfl, rfl⟩, rfl, results_post _ _, logged_one (.error errorType) trivial s.log,
    Or.inl rfl⟩

theorem portStep_receiveFSM (s : Master) (ucByte : UChar) :
    PortStep s (s.xMBMasterRTUReceiveFSM ucByte) := by
  obtain ⟨_, _, _, _, heq⟩ := receiveFSM_eq s ucByte
  rw [heq]
  exact .silent rfl rfl ⟨rfl, rfl, rfl⟩ rfl rfl rfl rfl

theorem portStep_transmitFSM (s : Master) : PortStep s s.xMBMasterRTUTransmitFSM := by
  cases hs : s.eSndState with
  | xmit =>
    by_cases hc : s.usMasterSndBufferCount = 0
    · rw [xMBMasterRTUTransmitFSM_done hs hc]
      exact ⟨rfl, rfl, ⟨rfl, rfl, rfl⟩, rfl, fun _ => Iff.rfl,
        logged_one (.transmitted s.line) trivial s.log, Or.inl rfl⟩
    · rw [xMBMasterRTUTransmitFSM_byte hs hc]
      exact .silent rfl rfl ⟨rfl, rfl, rfl⟩ rfl rfl rfl rfl
  | _ =>
    rw [xMBMasterRTUTransmitFSM, hs]
    exact .silent rfl rfl ⟨rfl, rfl, rfl⟩ rfl rfl rfl rfl

theorem portStep_timerExpiredRcv (s : Master) : PortStep s s.timerExpiredRcv := by
  have hidle : ∀ t : Master, PortStep t { t with eRcvState := .idle } :=
    fun _ => .silent rfl rfl ⟨rfl, rfl, rfl⟩ rfl rfl rfl rfl
  unfold timerExpiredRcv
  cases s.eRcvState with
  | init =>
    exact ⟨rfl, rfl, ⟨rfl, rfl, rfl⟩, rfl, results_post _ _, logged_none s.log, Or.inl rfl⟩
  | idle => exact hidle s
  | error => exact (portStep_fail s .receiveData).trans (hidle _)
  | rcv =>
    refine ⟨rfl, rfl, ⟨rfl, rfl, rfl⟩, rfl, results_post _ _, logged_none s.log, Or.inr ?_⟩
    show (if 0 < s.xMasterRunRes then some s.app else none) = none ∨
      (if 0 < s.xMasterRunRes then some s.app else none) = some s.app
    split
    · exact Or.inr rfl
    · exact Or.inl rfl

theorem portStep_timerExpiredSnd (s : Master) : PortStep s s.timerExpiredSnd := by
  have hidle : ∀ t : Master, PortStep t { t with eSndState := .idle } :=
    fun _ => .silent rfl rfl ⟨rfl, rfl, rfl⟩ rfl rfl rfl rfl
  unfold timerExpiredSnd
  cases s.eSndState with
  | idle => exact hidle s
  | xmit => exact hidle s
  | xfwr =>
    cases s.xFrameIsBroadcast with
    | true => exact hidle s
    | false => exact (portStep_fail s .respondTimeout).trans (hidle _)

theorem portStep_timerExpired (s : Master) : PortStep s s.xMBMasterRTUTimerExpired := by
  have hfsm := (portStep_timerExpiredRcv s).trans (portStep_timerExpiredSnd _)
  have hoff : PortStep s s.timerExpiredRcv.timerExpiredSnd.vMBMasterPortTimersDisable :=
    hfsm.trans (.silent rfl rfl ⟨rfl, rfl, rfl⟩ rfl rfl rfl rfl)
  unfold xMBMasterRTUTimerExpired
  dsimp only
  split
  · exact hoff.trans ⟨rfl, rfl, ⟨rfl, rfl, rfl⟩, rfl, results_post _ _, logged_none _,
      Or.inr (Or.inl rfl)⟩
  · exact hoff

/-! ### The steps of a run -/

theorem portStep_byte {ucByte : UChar} (h : s.step (.byte ucByte) = some s') : PortStep s s' := by
  obtain ⟨-, rfl⟩ := byte_cases h
  exact portStep_receiveFSM s ucByte

theorem portStep_timer (h : s.step .timer = some s') : PortStep s s' := by
  obtain ⟨-, rfl⟩ := timer_cases h
  exact portStep_timerExpired s

theorem portStep_txReady (h : s.step .txReady = some s') : PortStep s s' := by
  obtain ⟨-, rfl⟩ := txReady_cases h
  exact portStep_transmitFSM s

end Master

end FreeModbus
