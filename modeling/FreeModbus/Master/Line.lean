import FreeModbus.Master.Destination

/-!
# The line

`Phase` ties the two state machines to the events that are pending, which holds
only while frames begin in turn.  `Line` leaves the events out: it says where the
port and the state machines stand, in any run in which no request is put on the
line while the timer of an earlier one runs (`Unhurried`).
-/

namespace FreeModbus

open EventFlags EventFlags.Channel

/-- The steps of a call. -/
def MasterAction.IsCall : MasterAction → Prop
  | .byte _ => False
  | .timer => False
  | .txReady => False
  | .poll _ => False
  | _ => True

namespace Master

/-- Where the port and the state machines stand. -/
inductive Line where
  /-- The stack is disabled. -/
  | off
  /-- The stack was enabled and waits for the bus to be silent. -/
  | starting
  /-- Nothing is on the line. -/
  | quiet
  /-- A frame is coming in. -/
  | receiving
  /-- A frame is being transmitted. -/
  | sending
  /-- A frame was transmitted, and the response timeout or the convert delay runs. -/
  | waiting
deriving Repr, DecidableEq

/-- The stack is enabled. -/
def On (s : Master) : Prop := s.eMBState = .enabled ∨ s.eMBState = .established

/-- The enabled directions of the port, and whether the timer runs. -/
structure Port (s : Master) (rx tx timer : Bool) : Prop where
  rx : s.xRxEnable = rx
  tx : s.xTxEnable = tx
  timer : s.xTimer = timer

/-- The master stands at a place of the line. -/
inductive OnLine (s : Master) : Line → Prop where
  | off : s.eMBState = .disabled → Port s false false false → OnLine s .off
  | starting : On s → Port s true false true → s.eRcvState = .init →
      s.eMasterCurTimerMode = .t35 →
      (s.eSndState = .idle ∨ (s.eSndState = .xfwr ∧ s.xFrameIsBroadcast = true)) →
      OnLine s .starting
  | quiet : On s → Port s true false false → s.eRcvState = .idle → s.eSndState = .idle →
      OnLine s .quiet
  | receiving : On s → Port s true false true → (s.eRcvState = .rcv ∨ s.eRcvState = .error) →
      s.eMasterCurTimerMode = .t35 → s.eSndState = .idle → OnLine s .receiving
  | sending : On s → Port s false true false → s.eRcvState = .idle → s.eSndState = .xmit →
      OnLine s .sending
  | waiting : On s → Port s true false true → s.eRcvState = .idle →
      s.eMasterCurTimerMode = (if s.xFrameIsBroadcast then .convertDelay else .respondTimeout) →
      s.eSndState = .xfwr → OnLine s .waiting

/-- A poll does not put a request on the line while the timer of an earlier one runs. -/
def Unhurried (s : Master) (junk : Option MBMasterEventType) : Prop :=
  s.polled junk = some .frameSent → s.eRcvState = .idle → s.xTimer = false

instance (s : Master) (junk : Option MBMasterEventType) : Decidable (s.Unhurried junk) := by
  unfold Unhurried
  infer_instance

variable {s s' : Master} {l : Line} {junk : Option MBMasterEventType}

/-! ## Interrupts -/

theorem xMBMasterRTUReceiveFSM_init (hr : s.eRcvState = .init) (ucByte : UChar) :
    s.xMBMasterRTUReceiveFSM ucByte = { s with eMasterCurTimerMode := .t35, xTimer := true } := by
  unfold xMBMasterRTUReceiveFSM
  split
  · rfl
  · rfl
  · rename_i hidle
    cases hr.symm.trans hidle
  · rename_i hrcv
    cases hr.symm.trans hrcv

/-- After a byte a frame is coming in, unless the stack is starting. -/
theorem OnLine.byte (h : OnLine s l) (hrx : s.xRxEnable = true) (ucByte : UChar) :
    OnLine (s.xMBMasterRTUReceiveFSM ucByte) .receiving ∨
      (l = .starting ∧ OnLine (s.xMBMasterRTUReceiveFSM ucByte) .starting) := by
  cases h with
  | off _ hp => exact absurd (hp.rx.symm.trans hrx) Bool.false_ne_true
  | starting hon hp hr _ hs =>
    rw [xMBMasterRTUReceiveFSM_init hr]
    exact Or.inr ⟨rfl, .starting hon ⟨hp.rx, hp.tx, rfl⟩ hr rfl hs⟩
  | quiet hon hp hr _ =>
    rw [xMBMasterRTUReceiveFSM_idle hr]
    exact Or.inl (.receiving hon ⟨hp.rx, hp.tx, rfl⟩ (Or.inl rfl) rfl rfl)
  | receiving hon hp hr _ hs =>
    obtain ⟨rcvBuf, pos, st, hst, heq⟩ := xMBMasterRTUReceiveFSM_rcv hr ucByte
    rw [heq]
    exact Or.inl (.receiving hon ⟨hp.rx, hp.tx, rfl⟩ hst rfl hs)
  | sending _ hp => exact absurd (hp.rx.symm.trans hrx) Bool.false_ne_true
  | waiting hon hp hr _ _ =>
    rw [xMBMasterRTUReceiveFSM_idle hr]
    exact Or.inl (.receiving hon ⟨hp.rx, hp.tx, rfl⟩ (Or.inl rfl) rfl rfl)

/-- The start sequence is over. -/
theorem timerExpired_ready (hr : s.eRcvState = .init) (hm : s.eMasterCurTimerMode = .t35)
    (hs : s.eSndState = .idle ∨ (s.eSndState = .xfwr ∧ s.xFrameIsBroadcast = true)) :
    s.xMBMasterRTUTimerExpired =
      { s.post .ready with eRcvState := .idle, eSndState := .idle, xTimer := false } := by
  rcases hs with hs | ⟨hs, hb⟩
  · simp [xMBMasterRTUTimerExpired, timerExpiredRcv, timerExpiredSnd, vMBMasterPortTimersDisable,
      Master.post, hr, hs, hm]
  · simp [xMBMasterRTUTimerExpired, timerExpiredRcv, timerExpiredSnd, vMBMasterPortTimersDisable,
      Master.post, hr, hs, hb, hm]

/-- The events that `xMBMasterRTUTimerExpired` posts, in this order. -/
def expiryPosts (s : Master) : List MBMasterEventType :=
  (match s.eRcvState with
    | .init => [.ready]
    | .rcv => [.frameReceived]
    | .error => [.errorProcess]
    | .idle => []) ++
  (match s.eSndState with
    | .xfwr => if s.xFrameIsBroadcast then [] else [.errorProcess]
    | _ => []) ++
  (if s.eMasterCurTimerMode = .convertDelay then [.execute] else [])

theorem timerExpired_posts (s : Master) :
    s.xMBMasterRTUTimerExpired.xMasterOsEvent =
      s.expiryPosts.foldl xMBMasterPortEventPost s.xMasterOsEvent := by
  cases hr : s.eRcvState <;> cases hs : s.eSndState <;> cases hb : s.xFrameIsBroadcast <;>
    by_cases hm : s.eMasterCurTimerMode = .convertDelay <;>
    simp [xMBMasterRTUTimerExpired, timerExpiredRcv, timerExpiredSnd, vMBMasterPortTimersDisable,
      postFrameReceived, postExecute, fail, vMBMasterSetErrorType, Master.post, expiryPosts, hr, hs,
      hb, hm]

/-- An expiry posts one event, which is `EV_MASTER_READY` only in the start sequence. -/
theorem OnLine.expiryPosts (h : OnLine s l) (ht : s.xTimer = true) :
    ∃ e, s.expiryPosts = [e] ∧ (e = .ready → l = .starting) := by
  unfold Master.expiryPosts
  cases h with
  | off _ hp => exact absurd (hp.timer.symm.trans ht) Bool.false_ne_true
  | starting _ _ hr hm hs =>
    rw [hr, hm]
    rcases hs with hs | ⟨hs, hb⟩
    · rw [hs]
      exact ⟨_, rfl, fun _ => rfl⟩
    · rw [hs, hb]
      exact ⟨_, rfl, fun _ => rfl⟩
  | quiet _ hp => exact absurd (hp.timer.symm.trans ht) Bool.false_ne_true
  | receiving _ _ hr hm hs =>
    rw [hm, hs]
    rcases hr with hr | hr
    · rw [hr]
      exact ⟨.frameReceived, rfl, nofun⟩
    · rw [hr]
      exact ⟨.errorProcess, rfl, nofun⟩
  | sending _ hp => exact absurd (hp.timer.symm.trans ht) Bool.false_ne_true
  | waiting _ _ hr hm hs =>
    rw [hr, hm, hs]
    cases s.xFrameIsBroadcast with
    | true => exact ⟨.execute, rfl, nofun⟩
    | false => exact ⟨.errorProcess, rfl, nofun⟩

/-- An expiry leaves nothing on the line. -/
theorem OnLine.timer (h : OnLine s l) (ht : s.xTimer = true) :
    OnLine s.xMBMasterRTUTimerExpired .quiet := by
  cases h with
  | off _ hp => exact absurd (hp.timer.symm.trans ht) Bool.false_ne_true
  | starting hon hp hr hm hs =>
    rw [timerExpired_ready hr hm hs]
    exact .quiet hon ⟨hp.rx, hp.tx, rfl⟩ rfl rfl
  | quiet _ hp => exact absurd (hp.timer.symm.trans ht) Bool.false_ne_true
  | receiving hon hp hr hm hs =>
    rcases hr with hr | hr
    · rw [timerExpired_frame hr hs hm]
      exact .quiet hon ⟨hp.rx, hp.tx, rfl⟩ rfl hs
    · rw [timerExpired_error hr hs hm]
      exact .quiet hon ⟨hp.rx, hp.tx, rfl⟩ rfl hs
  | sending _ hp => exact absurd (hp.timer.symm.trans ht) Bool.false_ne_true
  | waiting hon hp hr hm hs =>
    cases hb : s.xFrameIsBroadcast with
    | true =>
      rw [hb] at hm
      rw [timerExpired_broadcast hr hs hb hm]
      exact .quiet hon ⟨hp.rx, hp.tx, rfl⟩ hr rfl
    | false =>
      rw [hb] at hm
      rw [timerExpired_response hr hs hb hm]
      exact .quiet hon ⟨hp.rx, hp.tx, rfl⟩ hr rfl

/-- The transmitter sends on, or is done and the response is awaited. -/
theorem OnLine.transmit (h : OnLine s l) (htx : s.xTxEnable = true) :
    OnLine s.xMBMasterRTUTransmitFSM .sending ∨ OnLine s.xMBMasterRTUTransmitFSM .waiting := by
  cases h with
  | sending hon hp hr hs =>
    by_cases hc : s.usMasterSndBufferCount = 0
    · rw [xMBMasterRTUTransmitFSM_done hs hc]
      exact Or.inr (.waiting hon ⟨rfl, rfl, rfl⟩ hr rfl rfl)
    · rw [xMBMasterRTUTransmitFSM_byte hs hc]
      exact Or.inl (.sending hon ⟨hp.rx, hp.tx, hp.timer⟩ hr rfl)
  | off _ hp => exact absurd (hp.tx.symm.trans htx) Bool.false_ne_true
  | starting _ hp => exact absurd (hp.tx.symm.trans htx) Bool.false_ne_true
  | quiet _ hp => exact absurd (hp.tx.symm.trans htx) Bool.false_ne_true
  | receiving _ hp => exact absurd (hp.tx.symm.trans htx) Bool.false_ne_true
  | waiting _ hp => exact absurd (hp.tx.symm.trans htx) Bool.false_ne_true

/-! ## Polls -/

/-- The line is left alone. -/
structure SameLine (s s' : Master) : Prop where
  state : s'.eMBState = s.eMBState ∨ s'.eMBState = .established
  rcv : s'.eRcvState = s.eRcvState
  snd : s'.eSndState = s.eSndState
  mode : s'.eMasterCurTimerMode = s.eMasterCurTimerMode
  isBroadcast : s'.xFrameIsBroadcast = s.xFrameIsBroadcast
  rx : s'.xRxEnable = s.xRxEnable
  tx : s'.xTxEnable = s.xTxEnable
  timer : s'.xTimer = s.xTimer

theorem SameLine.port (h : SameLine s s') {rx tx timer : Bool} (hp : Port s rx tx timer) :
    Port s' rx tx timer :=
  ⟨h.rx.trans hp.rx, h.tx.trans hp.tx, h.timer.trans hp.timer⟩

theorem SameLine.on (h : SameLine s s') (hon : On s) : On s' := by
  rcases h.state with hst | hst
  · unfold On
    rw [hst]
    exact hon
  · exact Or.inr hst

theorem OnLine.same (h : OnLine s l) (hon : On s) (hsame : SameLine s s') : OnLine s' l := by
  have hon' := hsame.on hon
  cases h with
  | off hoff =>
    rcases hon with hst | hst
    · cases hoff.symm.trans hst
    · cases hoff.symm.trans hst
  | starting _ hp hr hm hs =>
    refine .starting hon' (hsame.port hp) (hsame.rcv.trans hr) (hsame.mode.trans hm) ?_
    rw [hsame.snd, hsame.isBroadcast]
    exact hs
  | quiet _ hp hr hs => exact .quiet hon' (hsame.port hp) (hsame.rcv.trans hr) (hsame.snd.trans hs)
  | receiving _ hp hr hm hs =>
    exact .receiving hon' (hsame.port hp) (hsame.rcv.symm ▸ hr) (hsame.mode.trans hm)
      (hsame.snd.trans hs)
  | sending _ hp hr hs =>
    exact .sending hon' (hsame.port hp) (hsame.rcv.trans hr) (hsame.snd.trans hs)
  | waiting _ hp hr hm hs =>
    refine .waiting hon' (hsame.port hp) (hsame.rcv.trans hr) ?_ (hsame.snd.trans hs)
    rw [hsame.mode, hsame.isBroadcast]
    exact hm

theorem SameLine.refl (s : Master) : SameLine s s :=
  ⟨Or.inl rfl, rfl, rfl, rfl, rfl, rfl, rfl, rfl⟩

theorem SameLine.drained (h : SameLine s s') : SameLine s s'.drained :=
  ⟨h.state, h.rcv, h.snd, h.mode, h.isBroadcast, h.rx, h.tx, h.timer⟩

theorem SameLine.fail (h : SameLine s s') (errorType : MBMasterErrorEventType) :
    SameLine s (s'.fail errorType) :=
  ⟨h.state, h.rcv, h.snd, h.mode, h.isBroadcast, h.rx, h.tx, h.timer⟩

theorem SameLine.complete (h : SameLine s s') (result : MBMasterResult) :
    SameLine s (s'.complete result) :=
  ⟨h.state, h.rcv, h.snd, h.mode, h.isBroadcast, h.rx, h.tx, h.timer⟩

theorem Executes.sameLine (h : Executes s s') : SameLine s s' := by
  obtain ⟨_, _, _, _, _, _, _, _, rfl⟩ := h
  exact ⟨Or.inl rfl, rfl, rfl, rfl, rfl, rfl, rfl, rfl⟩

/-- Handling an event leaves the line alone, unless it puts a request on the line. -/
theorem handle_sameLine {ev : Option MBMasterEventType} (hs : s.handle ev = some s')
    (hev : ev = some .frameSent → s.eRcvState ≠ .idle) : SameLine s s' := by
  cases handled_of_handle hs with
  | nothing => exact .refl _
  | ready => exact ⟨Or.inr rfl, rfl, rfl, rfl, rfl, rfl, rfl, rfl⟩
  | failed => exact (executeFrame_executes s).sameLine.fail _
  | executed => exact (executeFrame_executes s).sameLine.complete _
  | activated _ hr => exact absurd hr (hev rfl)
  | _ => exact ⟨Or.inl rfl, rfl, rfl, rfl, rfl, rfl, rfl, rfl⟩

/-- A request is put on the line where no timer runs. -/
theorem onLine_pollFrameSent (hon : On s)
    (ha : s.ucMBMasterDestAddress.toNat ≤ mbMasterTotalSlaveNum) (hr : s.eRcvState = .idle)
    (ht : s.xTimer = false) : OnLine s.pollFrameSent .sending := by
  rw [pollFrameSent_ok ha hr]
  exact .sending hon ⟨rfl, rfl, ht⟩ hr rfl

/-- A poll that does not hurry leaves the line alone or puts a request on it. -/
theorem OnLine.poll (h : OnLine s l)
    (ha : s.ucMBMasterDestAddress.toNat ≤ mbMasterTotalSlaveNum) (hu : s.Unhurried junk)
    (hs : s.eMBMasterPoll junk = some s') :
    OnLine s' .sending ∨
      (OnLine s' l ∧ (On s → s.polled junk = some .frameSent → s.eRcvState ≠ .idle)) := by
  rcases poll_cases hs with ⟨hoff, rfl⟩ | ⟨hon, -, hs⟩
  · exact Or.inr ⟨h, fun hon => absurd hon hoff⟩
  · have hd : OnLine s.drained l := h.same hon (SameLine.refl s).drained
    by_cases hsend : s.polled junk = some .frameSent ∧ s.eRcvState = .idle
    · rw [hsend.1] at hs
      cases hs
      exact Or.inl (onLine_pollFrameSent (s := s.drained) hon ha hsend.2 (hu hsend.1 hsend.2))
    · have hev : s.polled junk = some .frameSent → s.eRcvState ≠ .idle :=
        fun hev hr => hsend ⟨hev, hr⟩
      exact Or.inr ⟨hd.same hon (handle_sameLine hs hev), fun _ => hev⟩

/-! ## Calls -/

theorem OnLine.frame (h : OnLine s l) (hst : s'.eMBState = s.eMBState) (hsame : SameLine s s') :
    OnLine s' l := by
  by_cases hon : On s
  · exact h.same hon hsame
  · cases h with
    | off hoff hp => exact .off (hst.trans hoff) (hsame.port hp)
    | starting hon' => exact absurd hon' hon
    | quiet hon' => exact absurd hon' hon
    | receiving hon' => exact absurd hon' hon
    | sending hon' => exact absurd hon' hon
    | waiting hon' => exact absurd hon' hon

/-- The steps of a call leave the line alone. -/
theorem OnLine.call (h : OnLine s l) {a : MasterAction} (hst : s.step a = some s')
    (ha : a.IsCall) : OnLine s' l := by
  cases a with
  | refuse i q =>
    obtain ⟨_, -, rfl, -⟩ := refuse_cases hst
    exact h.frame rfl ⟨Or.inl rfl, rfl, rfl, rfl, rfl, rfl, rfl, rfl⟩
  | take i q =>
    obtain ⟨-, -, -, rfl⟩ := take_cases hst
    exact h.frame rfl ⟨Or.inl rfl, rfl, rfl, rfl, rfl, rfl, rfl, rfl⟩
  | fill i =>
    obtain ⟨_, -, rfl⟩ := fill_cases hst
    exact h.frame rfl ⟨Or.inl rfl, rfl, rfl, rfl, rfl, rfl, rfl, rfl⟩
  | submit i =>
    obtain ⟨_, -, rfl⟩ := submit_cases hst
    exact h.frame rfl ⟨Or.inl rfl, rfl, rfl, rfl, rfl, rfl, rfl, rfl⟩
  | finish i =>
    obtain ⟨_, _, _, -, -, -, rfl⟩ := finish_cases hst
    exact h.frame rfl ⟨Or.inl rfl, rfl, rfl, rfl, rfl, rfl, rfl, rfl⟩
  | _ => exact ha.elim

end Master

end FreeModbus
