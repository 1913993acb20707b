import FreeModbus.Master.Line

/-!
# The reply to a unicast request

A valid frame of the addressed slave was received while a unicast request is
outstanding.  Two or three polls complete the request, if the master is left alone
with its reply.  Which handler runs is decided by the function code of the reply
alone, and an exception reply completes with whatever its second byte is, so a reply
to another function or an exception with code zero can complete the request with
success.

Between the polls other parties act.  `SparesReply` is the condition under which they
leave the reply, the request and the pending event alone, and `ReplyStage` is what
holds between the polls of such a run.
-/

namespace FreeModbus

open ByteMemory EventFlags EventFlags.Channel Transition

namespace Master

/-- A valid frame of the slave with the destination address was received and is not polled yet,
and the last frame that was sent is unicast. -/
structure ReplyReceived (s : Master) : Prop where
  pending : masterChannel.Pending s.xMasterOsEvent .frameReceived
  forUs : s.FrameForUs
  unicast : s.xFrameIsBroadcast = false

/-- The PDU of the received frame. -/
def reply (s : Master) : Buf := s.ucMasterRTURcvBuf.at mbSerPduPduOff

/-- The length of the PDU of the received frame. -/
def replyLen (s : Master) : Nat := s.usMasterRcvBufferPos - mbSerPduPduOff - mbSerPduSizeCrc

/-- The function code of the request in the send buffer. -/
def requestCode (s : Master) : UChar := s.ctx.pucPDUSndBuf mbPduFuncOff

/-! ## Steps beside the polls -/

/-- A byte that arrives is stored. -/
def StoresByte (s : Master) : Prop :=
  s.eRcvState = .idle ∨ (s.eRcvState = .rcv ∧ s.usMasterRcvBufferPos < mbSerPduSizeMax)

/-- A byte that arrives is stored behind the first one of the buffer. -/
def StoresBehind (s : Master) : Prop :=
  s.eRcvState = .rcv ∧ 1 ≤ s.usMasterRcvBufferPos ∧ s.usMasterRcvBufferPos < mbSerPduSizeMax

/-- A frame that waits for its check or its execution. -/
def FramePending (s : Master) : Prop :=
  masterChannel.Pending s.xMasterOsEvent .frameReceived ∨
    masterChannel.Pending s.xMasterOsEvent .execute

/-- No byte is stored before the check of a frame, and none behind the address before its
execution.  While an event is pending no expiry and no call posts another one, and while a frame
waits no call writes to the send buffer. -/
def SparesReply (s : Master) : MasterAction → Prop
  | .byte _ => (masterChannel.Pending s.xMasterOsEvent .frameReceived → ¬ s.StoresByte) ∧
      (masterChannel.Pending s.xMasterOsEvent .execute → ¬ s.StoresBehind)
  | .timer => masterChannel.Returns s.xMasterOsEvent → s.expiryPosts = []
  | .fill _ => ¬ s.FramePending
  | .submit _ => ¬ masterChannel.Returns s.xMasterOsEvent
  | .txReady => True
  | .poll _ => True
  | .refuse _ _ => True
  | .take _ _ => True
  | .finish _ => True

/-- Steps that spare the reply lead from `s` to `t`, `n` of them are polls, and none completes the
request. -/
inductive Uncompleted (s : Master) : Nat → Master → Prop where
  | start : Uncompleted s 0 s
  | poll {n : Nat} {t t' : Master} {junk : Option MBMasterEventType} :
      Uncompleted s n t → t.eMBMasterPoll junk = some t' → t'.xMasterRunRes = t.xMasterRunRes →
        Uncompleted s (n + 1) t'
  | other {n : Nat} {t t' : Master} {a : MasterAction} :
      Uncompleted s n t → (∀ junk, a ≠ .poll junk) → t.SparesReply a → t.step a = some t' →
        Uncompleted s n t'

/-- The poll that completes the request calls the completion callback for `result`, and leaves
`s'`. -/
def CompletesWith (s : Master) (result : MBMasterResult) (s' : Master) : Prop :=
  ∃ n t junk, Uncompleted s n t ∧ t.eMBMasterPoll junk = some s' ∧
    s'.xMasterRunRes = t.xMasterRunRes + 1 ∧ s'.log.head? = some (.completed result)

/-- In every run that spares the reply no poll waits and the third one completes the request at
the latest, with success only on a reply to its own function.  An exception reply completes it
with an execute error and leaves the mirror alone. -/
structure PositiveOnly (s : Master) : Prop where
  completes : ∀ n t, Uncompleted s n t → n ≤ 2 ∧ ∀ junk, ∃ t', t.eMBMasterPoll junk = some t'
  success : ∀ s', CompletesWith s .processSucess s' → s.reply mbPduFuncOff = s.requestCode
  exception : ExceptionFrame s.reply → ∀ result s', CompletesWith s result s' →
    result = .errorExecuteFunction ∧ s'.app = s.app

variable {s s' t t' : Master} {n : Nat} {result : MBMasterResult} {a : MasterAction}

/-! ## Reachable states -/

/-- The end of a wait leaves the events. -/
theorem pending_finish {flags flags' : BitVec 32} {eErrStatus : MBMasterReqErrCode}
    (h : eMBMasterWaitRequestFinish flags = (eErrStatus, flags')) (e : MBMasterEventType) :
    masterChannel.Pending flags' e ↔ masterChannel.Pending flags e := by
  have hleft : (resultChannel.get flags).2 = flags' :=
    (eMBMasterWaitRequestFinish_flags flags).symm.trans (congrArg Prod.snd h)
  rw [← hleft]
  exact masterChannel_apart.pending_get flags e

/-- No frame comes in while one is transmitted. -/
structure OneWay (s : Master) : Prop where
  state : s.eMBState = .established
  idle : s.eSndState = .xmit → s.eRcvState = .idle
  rxOff : s.eSndState = .xmit → s.xRxEnable = false
  noFrame : s.eSndState = .xmit → ¬ masterChannel.Pending s.xMasterOsEvent .frameReceived

theorem OneWay.of_ne (hstate : s.eMBState = .established) (hsnd : s.eSndState ≠ .xmit) :
    OneWay s :=
  ⟨hstate, fun h => absurd h hsnd, fun h => absurd h hsnd, fun h => absurd h hsnd⟩

/-- What it reads is as it was. -/
theorem OneWay.of_eq (h : OneWay s) (hstate : s'.eMBState = s.eMBState)
    (hsnd : s'.eSndState = s.eSndState) (hrcv : s'.eRcvState = s.eRcvState)
    (hrx : s'.xRxEnable = s.xRxEnable)
    (hevent : masterChannel.Pending s'.xMasterOsEvent .frameReceived →
      masterChannel.Pending s.xMasterOsEvent .frameReceived) : OneWay s' :=
  ⟨hstate.trans h.state, fun hx => hrcv.trans (h.idle (hsnd.symm.trans hx)),
    fun hx => hrx.trans (h.rxOff (hsnd.symm.trans hx)),
    fun hx hp => h.noFrame (hsnd.symm.trans hx) (hevent hp)⟩

theorem timerExpired_snd (s : Master) : s.xMBMasterRTUTimerExpired.eSndState = .idle := by
  unfold xMBMasterRTUTimerExpired
  dsimp only
  split
  · rfl
  · rfl

/-- A byte leaves the transmitter, or makes it idle. -/
theorem receiveFSM_snd (s : Master) (ucByte : UChar) :
    (s.xMBMasterRTUReceiveFSM ucByte).eSndState = s.eSndState ∨
      (s.xMBMasterRTUReceiveFSM ucByte).eSndState = .idle := by
  unfold xMBMasterRTUReceiveFSM
  split
  · exact Or.inl rfl
  · exact Or.inl rfl
  · exact Or.inr rfl
  · split
    · exact Or.inl rfl
    · exact Or.inl rfl

theorem OneWay.transmit (h : OneWay s) : OneWay s.xMBMasterRTUTransmitFSM := by
  have hstate := (portStep_transmitFSM s).state.trans h.state
  cases hs : s.eSndState with
  | xmit =>
    by_cases hc : s.usMasterSndBufferCount = 0
    · refine .of_ne hstate ?_
      rw [xMBMasterRTUTransmitFSM_done hs hc]
      intro hx
      cases hx
    · rw [xMBMasterRTUTransmitFSM_byte hs hc]
      exact h.of_eq rfl hs.symm rfl rfl id
  | idle =>
    refine .of_ne hstate ?_
    rw [xMBMasterRTUTransmitFSM, hs]
    intro hx
    cases hs.symm.trans hx
  | xfwr =>
    refine .of_ne hstate ?_
    rw [xMBMasterRTUTransmitFSM, hs]
    intro hx
    cases hs.symm.trans hx

theorem OneWay.drained (h : OneWay s) : OneWay s.drained :=
  h.of_eq rfl rfl rfl rfl fun hp => absurd hp (masterChannel.not_pending_get _ _)

theorem OneWay.post (h : OneWay s) {e : MBMasterEventType} (he : e ≠ .frameReceived) :
    OneWay (s.post e) :=
  h.of_eq rfl rfl rfl rfl fun hp =>
    ((pending_post_iff s e _).mp hp).resolve_right fun heq => he heq.symm

theorem OneWay.complete (h : OneWay s) (result : MBMasterResult) : OneWay (s.complete result) :=
  h.of_eq rfl rfl rfl rfl (pending_callback_iff s result _).mp

theorem OneWay.executes (h : OneWay s) (hex : Executes s s') : OneWay s' := by
  obtain ⟨_, _, _, _, _, _, _, _, rfl⟩ := hex
  exact h.of_eq rfl rfl rfl rfl id

theorem OneWay.handled (h : OneWay s)
    (hno : ¬ masterChannel.Pending s.xMasterOsEvent .frameReceived)
    {ev : Option MBMasterEventType} (hh : Handled s ev s') : OneWay s' := by
  cases hh with
  | nothing => exact h
  | ready => exact h.of_eq h.state.symm rfl rfl rfl id
  | accepted hus =>
    have hacc : OneWay (s.accepted.record (.received s.ucMBMasterDestAddress)) :=
      h.of_eq rfl rfl rfl rfl id
    exact hacc.post nofun
  | rejected ucRcvAddress usLength ucMBFrame hus =>
    have hbuf : OneWay (vMBMasterSetErrorType { s with
        ucRcvAddress := ucRcvAddress
        usLength := usLength
        ucMBFrame := ucMBFrame } .receiveData) := h.of_eq rfl rfl rfl rfl id
    exact hbuf.post nofun
  | failed =>
    have hex : OneWay (s.executeFrame.vMBMasterSetErrorType .executeFunction) :=
      (h.executes (executeFrame_executes s)).of_eq rfl rfl rfl rfl id
    exact hex.post nofun
  | executed => exact (h.executes (executeFrame_executes s)).complete _
  | activated ha hr => exact ⟨h.state, fun _ => hr, fun _ => rfl, fun _ => hno⟩
  | unsent => exact h.of_eq rfl rfl rfl rfl id
  | error =>
    have hbuf : OneWay { s with ucMBFrame := .sndBuf } := h.of_eq rfl rfl rfl rfl id
    exact hbuf.complete _

theorem OneWay.step (h : OneWay s) (hst : s.step a = some s') : OneWay s' := by
  cases a with
  | byte ucByte =>
    obtain ⟨hrx, rfl⟩ := byte_cases hst
    refine .of_ne ((portStep_receiveFSM s ucByte).state.trans h.state) fun hx => ?_
    rcases receiveFSM_snd s ucByte with heq | heq
    · exact absurd (hrx.symm.trans (h.rxOff (heq.symm.trans hx))) (by decide)
    · cases heq.symm.trans hx
  | timer =>
    obtain ⟨-, rfl⟩ := timer_cases hst
    refine .of_ne ((portStep_timerExpired s).state.trans h.state) fun hx => ?_
    cases (timerExpired_snd s).symm.trans hx
  | txReady =>
    obtain ⟨-, rfl⟩ := txReady_cases hst
    exact h.transmit
  | poll junk =>
    obtain ⟨-, hh⟩ := eMBMasterPoll_cases (Or.inr h.state) hst
    exact h.drained.handled (masterChannel.not_pending_get _ _) (handled_of_handle hh)
  | refuse i q =>
    obtain ⟨_, -, rfl, -⟩ := refuse_cases hst
    exact h.of_eq rfl rfl rfl rfl id
  | take i q =>
    obtain ⟨-, -, -, rfl⟩ := take_cases hst
    exact h.of_eq rfl rfl rfl rfl id
  | fill i =>
    obtain ⟨_, -, rfl⟩ := fill_cases hst
    exact h.of_eq rfl rfl rfl rfl id
  | submit i =>
    obtain ⟨_, -, rfl⟩ := submit_cases hst
    have hpost : OneWay (s.post .frameSent) := h.post nofun
    exact hpost.of_eq rfl rfl rfl rfl id
  | finish i =>
    obtain ⟨_, _, flags, -, -, hfin, rfl⟩ := finish_cases hst
    exact h.of_eq rfl rfl rfl rfl (pending_finish hfin _).mp

/-- Every reachable state is one in which no frame comes in while one is transmitted. -/
theorem oneWay_of_reachable (h : Reachable Established step s) : OneWay s := by
  refine h.invariant (fun s hs => ?_) fun s a s' hs _ hst => hs.step hst
  obtain ⟨app, rfl⟩ := hs.eq
  exact .of_ne rfl nofun

/-! ## Between the polls -/

/-- A step that is no poll, as far as the reply goes. -/
structure Aside (t t' : Master) : Prop where
  state : t'.eMBState = t.eMBState
  events : ∀ e, masterChannel.Pending t'.xMasterOsEvent e ↔ masterChannel.Pending t.xMasterOsEvent e
  snd : t'.eSndState ≠ .xmit
  isBroadcast : t'.xFrameIsBroadcast = t.xFrameIsBroadcast
  ucMBFrame : t'.ucMBFrame = t.ucMBFrame
  usLength : t'.usLength = t.usLength
  errorType : t'.eMBMasterCurErrorType = t.eMBMasterCurErrorType
  app : t'.app = t.app
  /-- While a frame waits the request stays, and so does the frame. -/
  dest : t.FramePending → t'.ucMBMasterDestAddress = t.ucMBMasterDestAddress
  sndBuf : t.FramePending → t'.ucMasterRTUSndBuf = t.ucMasterRTUSndBuf
  reply : t.FramePending → t'.reply = t.reply
  received : masterChannel.Pending t.xMasterOsEvent .frameReceived →
    t'.ucMasterRTURcvBuf = t.ucMasterRTURcvBuf ∧ t'.usMasterRcvBufferPos = t.usMasterRcvBufferPos

/-- A step that leaves the buffers, the request and the two machines. -/
theorem Aside.silent (hsnd : t'.eSndState ≠ .xmit)
    (events : ∀ e, masterChannel.Pending t'.xMasterOsEvent e ↔
      masterChannel.Pending t.xMasterOsEvent e)
    (heq : ∃ recv snd rx tx mode timer flags calls holders res log snapshot, t' = { t with
      eRcvState := recv
      eSndState := snd
      xRxEnable := rx
      xTxEnable := tx
      eMasterCurTimerMode := mode
      xTimer := timer
      xMasterOsEvent := flags
      calls := calls
      holders := holders
      xMasterRunRes := res
      log := log
      snapshot := snapshot }) : Aside t t' := by
  obtain ⟨_, _, _, _, _, _, _, _, _, _, _, _, rfl⟩ := heq
  exact ⟨rfl, events, hsnd, rfl, rfl, rfl, rfl, rfl, fun _ => rfl, fun _ => rfl, fun _ => rfl,
    fun _ => ⟨rfl, rfl⟩⟩

/-- An expiry that posts nothing makes the machines idle. -/
theorem timerExpired_quiet (h : s.expiryPosts = []) :
    s.xMBMasterRTUTimerExpired =
      { s with eRcvState := .idle, eSndState := .idle, xTimer := false } := by
  rw [expiryPosts, List.append_eq_nil_iff, List.append_eq_nil_iff] at h
  obtain ⟨⟨hrcv, hsnd⟩, hmode⟩ := h
  have hr : s.timerExpiredRcv = { s with eRcvState := .idle } := by
    cases hst : s.eRcvState with
    | idle => rw [timerExpiredRcv, hst]
    | _ => simp [hst] at hrcv
  have hs : timerExpiredSnd { s with eRcvState := .idle } =
      { s with eRcvState := .idle, eSndState := .idle } := by
    cases hst : s.eSndState with
    | xfwr =>
      cases hb : s.xFrameIsBroadcast with
      | true => simp only [timerExpiredSnd, if_true]
      | false => simp [hst, hb] at hsnd
    | _ => simp only [timerExpiredSnd]
  have hm : s.eMasterCurTimerMode ≠ .convertDelay := fun hm => by simp [hm] at hmode
  rw [xMBMasterRTUTimerExpired, hr, hs]
  exact if_neg hm

/-- A byte that is not stored where the reply lies. -/
theorem aside_byte (hsnd : s.eSndState ≠ .xmit) {ucByte : UChar}
    (hok : s.SparesReply (.byte ucByte)) : Aside s (s.xMBMasterRTUReceiveFSM ucByte) := by
  obtain ⟨hcheck, hexec⟩ := hok
  have hsnd' : (s.xMBMasterRTUReceiveFSM ucByte).eSndState ≠ .xmit := by
    rcases receiveFSM_snd s ucByte with heq | heq
    · rw [heq]
      exact hsnd
    · rw [heq]
      nofun
  have hnone : s.FramePending → s.StoresByte →
      masterChannel.Pending s.xMasterOsEvent .execute := fun hf hs =>
    hf.resolve_left fun hp => hcheck hp hs
  cases hst : s.eRcvState with
  | idle =>
    rw [xMBMasterRTUReceiveFSM_idle hst] at hsnd' ⊢
    refine ⟨rfl, fun _ => Iff.rfl, hsnd', rfl, rfl, rfl, rfl, rfl, fun _ => rfl, fun _ => rfl,
      fun _ => Mem.at_update_of_lt Nat.one_pos ucByte, fun hp => absurd (Or.inl hst) (hcheck hp)⟩
  | rcv =>
    by_cases hpos : s.usMasterRcvBufferPos < mbSerPduSizeMax
    · have heq : s.xMBMasterRTUReceiveFSM ucByte = vMBMasterPortTimersT35Enable { s with
          ucMasterRTURcvBuf := Function.update s.ucMasterRTURcvBuf s.usMasterRcvBufferPos ucByte
          usMasterRcvBufferPos := s.usMasterRcvBufferPos + 1 } := by
        rw [xMBMasterRTUReceiveFSM, hst]
        exact if_pos hpos
      have hstores : s.StoresByte := Or.inr ⟨hst, hpos⟩
      rw [heq] at hsnd' ⊢
      refine ⟨rfl, fun _ => Iff.rfl, hsnd', rfl, rfl, rfl, rfl, rfl, fun _ => rfl, fun _ => rfl,
        fun hf => Mem.at_update_of_lt ?_ ucByte, fun hp => absurd hstores (hcheck hp)⟩
      exact Nat.lt_of_not_le fun hone => hexec (hnone hf hstores) ⟨hst, hone, hpos⟩
    · refine .silent hsnd' ?_ ?_
      all_goals
        rw [xMBMasterRTUReceiveFSM, hst]
        dsimp only
        rw [if_neg hpos]
      · exact fun _ => Iff.rfl
      · exact ⟨_, _, _, _, _, _, _, _, _, _, _, _, rfl⟩
  | _ =>
    refine .silent hsnd' ?_ ?_
    all_goals rw [xMBMasterRTUReceiveFSM, hst]
    · exact fun _ => Iff.rfl
    · exact ⟨_, _, _, _, _, _, _, _, _, _, _, _, rfl⟩

/-- The transmitter is not sending. -/
theorem aside_txReady (hsnd : s.eSndState ≠ .xmit) : Aside s s.xMBMasterRTUTransmitFSM := by
  cases hst : s.eSndState with
  | xmit => exact absurd hst hsnd
  | _ =>
    refine .silent ?_ ?_ ?_
    all_goals rw [xMBMasterRTUTransmitFSM, hst]
    · exact fun hx => hsnd hx
    · exact fun _ => Iff.rfl
    · exact ⟨_, _, _, _, _, _, _, _, _, _, _, _, rfl⟩

/-- What a step beside the polls leaves when it spares the reply and an event is pending. -/
theorem SparesReply.aside (hok : s.SparesReply a) (hret : masterChannel.Returns s.xMasterOsEvent)
    (hsnd : s.eSndState ≠ .xmit) (ha : ∀ junk, a ≠ .poll junk) (hst : s.step a = some s') :
    Aside s s' := by
  cases a with
  | byte ucByte =>
    obtain ⟨-, rfl⟩ := byte_cases hst
    exact aside_byte hsnd hok
  | timer =>
    obtain ⟨-, rfl⟩ := timer_cases hst
    rw [timerExpired_quiet (hok hret)]
    exact .silent nofun (fun _ => Iff.rfl) ⟨_, _, _, _, _, _, _, _, _, _, _, _, rfl⟩
  | txReady =>
    obtain ⟨-, rfl⟩ := txReady_cases hst
    exact aside_txReady hsnd
  | poll junk => exact absurd rfl (ha junk)
  | refuse i q =>
    obtain ⟨_, -, rfl, -⟩ := refuse_cases hst
    exact .silent hsnd (fun _ => Iff.rfl) ⟨_, _, _, _, _, _, _, _, _, _, _, _, rfl⟩
  | take i q =>
    obtain ⟨-, -, -, rfl⟩ := take_cases hst
    exact .silent hsnd (fun _ => Iff.rfl) ⟨_, _, _, _, _, _, _, _, _, _, _, _, rfl⟩
  | fill i =>
    obtain ⟨_, -, rfl⟩ := fill_cases hst
    exact ⟨rfl, fun _ => Iff.rfl, hsnd, rfl, rfl, rfl, rfl, rfl, fun hf => absurd hf hok,
      fun hf => absurd hf hok, fun _ => rfl, fun _ => ⟨rfl, rfl⟩⟩
  | submit i => exact absurd hret hok
  | finish i =>
    obtain ⟨_, _, flags, -, -, hfin, rfl⟩ := finish_cases hst
    exact .silent hsnd (pending_finish hfin) ⟨_, _, _, _, _, _, _, _, _, _, _, _, rfl⟩

/-! ## What the execution of the reply comes to -/

/-- The exception that the execution of the reply leaves. -/
def replyStatus (s : Master) : UChar :=
  if ExceptionFrame s.reply then s.reply mbPduDataOff
  else (masterDispatch s.ctx s.app s.reply s.replyLen).eStatus.code

/-- The mirror that it leaves. -/
def replyApp (s : Master) : MasterApp :=
  if ExceptionFrame s.reply then s.app
  else (masterDispatch s.ctx s.app s.reply s.replyLen).app

/-- The result that it completes the request with. -/
def replyResult (s : Master) : MBMasterResult :=
  if s.replyStatus = 0 then .processSucess else .errorExecuteFunction

/-- A normal reply leaves no exception when its handler accepts it. -/
theorem replyStatus_eq_zero (h : ¬ ExceptionFrame s.reply) :
    s.replyStatus = 0 ↔ Accepts s.ctx s.reply s.replyLen := by
  rw [replyStatus, if_neg h, MBException.code_eq_zero]
  exact (masterDispatch_meets s.ctx s.app s.reply s.replyLen).1

/-- `t` has what the check and the execution read of the reply that `s` received. -/
structure KeepsReply (s t : Master) : Prop where
  state : t.eMBState = .established
  snd : t.eSndState ≠ .xmit
  isBroadcast : t.xFrameIsBroadcast = false
  dest : t.ucMBMasterDestAddress = s.ucMBMasterDestAddress
  sndBuf : t.ucMasterRTUSndBuf = s.ucMasterRTUSndBuf
  reply : t.reply = s.reply
  app : t.app = s.app

theorem KeepsReply.aside (h : KeepsReply s t) (hf : t.FramePending) (ha : Aside t t') :
    KeepsReply s t' where
  state := ha.state.trans h.state
  snd := ha.snd
  isBroadcast := ha.isBroadcast.trans h.isBroadcast
  dest := (ha.dest hf).trans h.dest
  sndBuf := (ha.sndBuf hf).trans h.sndBuf
  reply := (ha.reply hf).trans h.reply
  app := ha.app.trans h.app

/-- The execution of the reply. -/
theorem KeepsReply.executeFrame (h : KeepsReply s t) (hb : s.xFrameIsBroadcast = false)
    (hframe : t.ucMBFrame = .rcvBuf) (hlen : t.usLength = s.replyLen) :
    t.executeFrame.eException = s.replyStatus ∧ t.executeFrame.app = s.replyApp := by
  have hreply : t.frame = s.reply := by
    rw [← h.reply, Master.frame, hframe]
    rfl
  have hctx : t.ctx = s.ctx := by
    rw [ctx, ctx, h.dest, h.sndBuf, h.isBroadcast, hb]
  unfold replyStatus replyApp
  by_cases hex : ExceptionFrame s.reply
  · rw [executeFrame_exception (hreply ▸ hex), if_pos hex, if_pos hex, hreply]
    exact ⟨rfl, h.app⟩
  · obtain ⟨hstatus, happ, -⟩ := executeFrame_unicast (hreply ▸ hex) h.isBroadcast
    rw [if_neg hex, if_neg hex, hstatus, happ, dispatched, hctx, h.app, hreply, hlen]
    exact ⟨rfl, rfl⟩

/-! ## The stages of a run -/

/-- Where the reply is after so many polls: received, accepted, or answered with an error. -/
inductive ReplyStage (s : Master) : Nat → Master → Prop where
  | received {t : Master} : masterChannel.Only t.xMasterOsEvent .frameReceived →
      KeepsReply s t → t.ucMasterRTURcvBuf = s.ucMasterRTURcvBuf →
      t.usMasterRcvBufferPos = s.usMasterRcvBufferPos → ReplyStage s 0 t
  | accepted {t : Master} : masterChannel.Only t.xMasterOsEvent .execute → KeepsReply s t →
      t.ucMBFrame = .rcvBuf → t.usLength = s.replyLen → ReplyStage s 1 t
  | failed {t : Master} : masterChannel.Only t.xMasterOsEvent .errorProcess →
      t.eMBState = .established → t.eSndState ≠ .xmit →
      t.eMBMasterCurErrorType = .executeFunction → t.app = s.replyApp → s.replyStatus ≠ 0 →
      ReplyStage s 2 t

theorem ReplyStage.returns (h : ReplyStage s n t) : masterChannel.Returns t.xMasterOsEvent := by
  cases h with
  | received honly => exact honly.returns
  | accepted honly => exact honly.returns
  | failed honly => exact honly.returns

theorem ReplyStage.snd (h : ReplyStage s n t) : t.eSndState ≠ .xmit := by
  cases h with
  | received _ hk => exact hk.snd
  | accepted _ hk => exact hk.snd
  | failed _ _ hsnd => exact hsnd

/-- Steps beside the polls leave the stage. -/
theorem ReplyStage.aside (h : ReplyStage s n t) (ha : Aside t t') : ReplyStage s n t' := by
  have honly : ∀ {e}, masterChannel.Only t.xMasterOsEvent e →
      masterChannel.Only t'.xMasterOsEvent e := fun ho e => (ha.events e).trans (ho e)
  cases h with
  | received ho hk hbuf hpos =>
    have hp := (ho .frameReceived).mpr rfl
    obtain ⟨hbuf', hpos'⟩ := ha.received hp
    exact .received (honly ho) (hk.aside (Or.inl hp) ha) (hbuf'.trans hbuf) (hpos'.trans hpos)
  | accepted ho hk hframe hlen =>
    have hp := (ho .execute).mpr rfl
    exact .accepted (honly ho) (hk.aside (Or.inr hp) ha) (ha.ucMBFrame.trans hframe)
      (ha.usLength.trans hlen)
  | failed ho hstate hsnd herr happ hstatus =>
    exact .failed (honly ho) (ha.state.trans hstate) ha.snd (ha.errorType.trans herr)
      (ha.app.trans happ) hstatus

theorem not_returns_drained (s : Master) : ¬ masterChannel.Returns s.drained.xMasterOsEvent :=
  masterChannel.not_returns_get _

/-- A poll that finds one event handles it. -/
theorem poll_of_only {e : MBMasterEventType} (hst : t.eMBState = .established)
    (honly : masterChannel.Only t.xMasterOsEvent e) (junk : Option MBMasterEventType) :
    t.eMBMasterPoll junk = t.drained.handle (some e) := by
  rw [eMBMasterPoll_eq (Or.inr hst) honly.returns, polled_of_only honly]

/-- The poll completes the request as the reply deserves. -/
structure CompletesReply (s t t' : Master) : Prop where
  res : t'.xMasterRunRes = t.xMasterRunRes + 1
  log : t'.log.head? = some (.completed s.replyResult)
  app : t'.app = s.replyApp

/-- A poll handles the frame, and the one after it executes the reply.  An error is completed by
a third one. -/
theorem ReplyStage.poll (h : ReplyStage s n t) (hrep : ReplyReceived s)
    (junk : Option MBMasterEventType) : ∃ t', t.eMBMasterPoll junk = some t' ∧
      ((t'.xMasterRunRes = t.xMasterRunRes ∧ ReplyStage s (n + 1) t') ∨ CompletesReply s t t') := by
  have hnone := not_returns_drained t
  cases h with
  | received honly hk hbuf hpos =>
    have hus : t.drained.FrameForUs := by
      have hfor := hrep.forUs
      unfold FrameForUs FrameValid at hfor ⊢
      dsimp only [drained]
      rw [hbuf, hpos, hk.dest]
      exact hfor
    have hlen : t.drained.accepted.usLength = s.replyLen := by
      rw [replyLen, ← hpos]
      rfl
    refine ⟨_, (poll_of_only hk.state honly junk).trans
      (congrArg some (pollFrameReceived_ok hus)), Or.inl ⟨rfl, ?_⟩⟩
    exact .accepted (masterChannel.only_post hnone _)
      ⟨hk.state, hk.snd, hk.isBroadcast, hk.dest, hk.sndBuf, hk.reply, hk.app⟩ rfl hlen
  | accepted honly hk hframe hlen =>
    have hkd : KeepsReply s t.drained :=
      ⟨hk.state, hk.snd, hk.isBroadcast, hk.dest, hk.sndBuf, hk.reply, hk.app⟩
    obtain ⟨hstatus, happ⟩ := hkd.executeFrame hrep.unicast hframe hlen
    have hex := executeFrame_executes t.drained
    have hpoll : t.eMBMasterPoll junk = some t.drained.pollExecute := by
      have hnull : t.drained.ucMBFrame ≠ .null := fun hnull =>
        nomatch hframe.symm.trans (show t.ucMBFrame = .null from hnull)
      rw [poll_of_only hk.state honly]
      exact if_neg hnull
    refine ⟨_, hpoll, ?_⟩
    rcases pollExecute_cases t.drained with ⟨hne, heq⟩ | ⟨hzero, heq⟩
    · rw [heq]
      refine Or.inl ⟨hex.keeps.res, ?_⟩
      obtain ⟨_, _, _, _, _, _, _, _, hfields⟩ := hex
      refine .failed ?_ ?_ ?_ rfl happ (hstatus ▸ hne)
      · refine masterChannel.only_post ?_ _
        show ¬ masterChannel.Returns t.drained.executeFrame.xMasterOsEvent
        rw [hfields]
        exact hnone
      · exact (congrArg Master.eMBState hfields).trans hk.state
      · intro hx
        exact hk.snd ((congrArg Master.eSndState hfields).symm.trans hx)
    · rw [heq]
      refine Or.inr ⟨congrArg (· + 1) hex.keeps.res, ?_, happ⟩
      rw [replyResult, if_pos (hstatus.symm.trans hzero)]
      rfl
  | failed honly hstate _ herr happ hstatus =>
    refine ⟨_, poll_of_only hstate honly junk, Or.inr ⟨rfl, ?_, happ⟩⟩
    have hresult : t.eMBMasterCurErrorType.result = s.replyResult := by
      rw [herr, replyResult, if_neg hstatus]
      rfl
    exact congrArg (some ∘ MasterEvent.completed) hresult

/-! ## Runs that spare the reply -/

/-- A reply that is the only pending event is received. -/
theorem ReplyReceived.stage (hrep : ReplyReceived s) (hreach : Reachable Established step s)
    (honly : masterChannel.Only s.xMasterOsEvent .frameReceived) : ReplyStage s 0 s := by
  have hway := oneWay_of_reachable hreach
  exact .received honly ⟨hway.state, fun hx => hway.noFrame hx hrep.pending, hrep.unicast, rfl, rfl,
    rfl, rfl⟩ rfl rfl

/-- Up to the completion a run is at the stage of its polls. -/
theorem Uncompleted.stage (h : Uncompleted s n t) (hrep : ReplyReceived s)
    (hstart : ReplyStage s 0 s) : ReplyStage s n t := by
  induction h with
  | start => exact hstart
  | @poll _ _ _ junk _ hpoll hres ih =>
    obtain ⟨t₁, hpoll', ⟨-, hstage⟩ | hdone⟩ := ih.poll hrep junk
    · cases hpoll.symm.trans hpoll'
      exact hstage
    · cases hpoll.symm.trans hpoll'
      have hmore := hdone.res
      omega
  | other _ ha hok hst ih => exact ih.aside (hok.aside ih.returns ih.snd ha hst)

/-- The request completes as the reply deserves. -/
theorem CompletesWith.reply (h : CompletesWith s result s') (hrep : ReplyReceived s)
    (hstart : ReplyStage s 0 s) : result = s.replyResult ∧ s'.app = s.replyApp := by
  obtain ⟨n, t, junk, hrun, hpoll, hres, hlog⟩ := h
  obtain ⟨t₁, hpoll', ⟨hsame, -⟩ | hdone⟩ := (hrun.stage hrep hstart).poll hrep junk
  · cases hpoll.symm.trans hpoll'
    omega
  · cases hpoll.symm.trans hpoll'
    have heq := hlog.symm.trans hdone.log
    simp only [Option.some.injEq, MasterEvent.completed.injEq] at heq
    exact ⟨heq, hdone.app⟩

/-- The next poll completes the request, or leads to the next stage. -/
theorem ReplyStage.next (h : ReplyStage s n t) (hrun : Uncompleted s n t)
    (hrep : ReplyReceived s) : (∃ s', CompletesWith s s.replyResult s') ∨
      ∃ t', Uncompleted s (n + 1) t' ∧ ReplyStage s (n + 1) t' := by
  obtain ⟨t', hpoll, ⟨hres, hstage⟩ | hdone⟩ := h.poll hrep none
  · exact Or.inr ⟨t', hrun.poll hpoll hres, hstage⟩
  · exact Or.inl ⟨t', n, t, none, hrun, hpoll, hdone.res, hdone.log⟩

/-- Three polls complete the request. -/
theorem ReplyStage.exists_completion (h : ReplyStage s 0 s) (hrep : ReplyReceived s) :
    ∃ s', CompletesWith s s.replyResult s' := by
  obtain hdone | ⟨t₁, hrun₁, h₁⟩ := h.next .start hrep
  · exact hdone
  obtain hdone | ⟨t₂, hrun₂, h₂⟩ := h₁.next hrun₁ hrep
  · exact hdone
  obtain hdone | ⟨t₃, -, h₃⟩ := h₂.next hrun₂ hrep
  · exact hdone
  cases h₃

/-- With another event pending the first poll may leave nothing, and the next one waits. -/
theorem only_of_completes (hstate : s.eMBState = .established) (hrep : ReplyReceived s)
    (h : PositiveOnly s) : masterChannel.Only s.xMasterOsEvent .frameReceived := by
  cases hget : (masterChannel.get s.xMasterOsEvent).1 with
  | some e =>
    have honly := masterChannel.only_of_get hget
    rw [(honly .frameReceived).mp hrep.pending]
    exact honly
  | none =>
    have hpoll : s.eMBMasterPoll none = some s.drained := by
      have hpolled : s.polled none = none := by
        rw [polled, show (xMBMasterPortEventGet s.xMasterOsEvent).1 = none from hget]
        rfl
      rw [eMBMasterPoll_eq (Or.inr hstate) ⟨_, hrep.pending⟩, hpolled]
      rfl
    obtain ⟨-, hnext⟩ := h.completes 1 s.drained (.poll .start hpoll rfl)
    obtain ⟨t', ht'⟩ := hnext none
    have hdrained : s.drained.eMBState = .established := hstate
    exact absurd (eMBMasterPoll_cases (Or.inr hdrained) ht').1 (not_returns_drained s)

/-- A unicast request is outstanding. -/
def Outstanding (s : Master) : Prop := ∃ i ∈ s.holders, (s.calls i).WaitsUnicast

instance (s : Master) : Decidable s.Outstanding := by
  unfold Outstanding
  infer_instance

/-- The write of `sendOne` is outstanding and slave 1 replies with a PDU. -/
def replyOne (pdu : List UChar) : List MasterAction :=
  sendOne ++ (slaveFrame pdu).map .byte ++ [.timer]

/-- The event, the checks of the frame, whether a request is outstanding, the two function codes
and the exception after a reply. -/
def afterReply (pdu : List UChar) :
    Option ((Option MBMasterEventType × Bool) × (Bool × Bool) × (UChar × UChar × UChar)) :=
  (run step (established .initial) (replyOne pdu)).map fun s =>
    (((masterChannel.get s.xMasterOsEvent).1, decide s.FrameForUs),
      (s.xFrameIsBroadcast, decide s.Outstanding),
      (s.reply mbPduFuncOff, s.requestCode, s.replyStatus))

/-- A run to a reply of slave 1. -/
theorem exists_afterReply {pdu : List UChar} {code request status : UChar}
    (h : afterReply pdu =
      some ((some .frameReceived, true), (false, true), (code, request, status))) :
    ∃ s, Reachable Established step s ∧ s.Outstanding ∧ ReplyReceived s ∧
      masterChannel.Only s.xMasterOsEvent .frameReceived ∧ s.reply mbPduFuncOff = code ∧
      s.requestCode = request ∧ s.replyStatus = status := by
  obtain ⟨s, hs, heq⟩ := Option.map_eq_some_iff.mp h
  simp only [Prod.mk.injEq, decide_eq_true_eq] at heq
  obtain ⟨⟨hget, hus⟩, ⟨hb, hout⟩, hreply, hreq, hex⟩ := heq
  have honly := masterChannel.only_of_get hget
  exact ⟨s, Reachable.of_run (.start (established_established _)) hs, hout,
    ⟨(honly _).mpr rfl, hus, hb⟩, honly, hreply, hreq, hex⟩

end Master

end FreeModbus
