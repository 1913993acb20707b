import FreeModbus.EndToEnd
import FreeModbus.Framing
import FreeModbus.Master.Broadcast

/-!
# From the reply to the return of the call

A request has gone out and its call waits.  What comes back is a frame, or nothing
before the response timeout.  `Concluding` gives the stages from there to the return:
the frame was heard, it is reported, its execution is due, the request has failed, the
result is there, the call has returned.  Each expiry, each poll and the end of the wait
leads to a later stage, whatever their order.

The stages carry a condition `Out` on the code that the call returns and on the mirror
that is left.  `Brings` says that the reply with a PDU meets it.
-/

namespace FreeModbus

open ByteMemory DataModel EventFlags EventFlags.Channel SerialLine Transition

/-- A step that is no noise on the line, and none of another call. -/
def MasterAction.By (i : Nat) (q : MasterRequest) : MasterAction → Prop
  | .byte _ => False
  | .timer => True
  | .txReady => True
  | .poll _ => True
  | .refuse j q' => j = i ∧ q' = q
  | .take j q' => j = i ∧ q' = q
  | .fill j => j = i
  | .submit j => j = i
  | .finish j => j = i

/-- The code of a call whose frame was executed with this exception. -/
def executedCode (eException : UChar) : MBMasterReqErrCode :=
  if eException = 0 then .noErr else .exeFun

namespace Master

variable {s s' : Master} {i n k : Nat} {q : MasterRequest} {app : MasterApp}
  {a : MasterAction} {Out : MBMasterReqErrCode → MasterApp → Prop}

theorem one_le_rtuFrame (ucAddress : UChar) (p : List UChar) :
    1 ≤ (rtuFrame ucAddress p).length := by
  rw [rtuFrame_length]
  exact Nat.le_add_left 1 _

/-! ## Steps and the other calls -/

theorem poll_calls {junk : Option MBMasterEventType} (h : s.step (.poll junk) = some s') :
    s'.calls = s.calls := by
  rcases poll_cases h with ⟨-, rfl⟩ | ⟨-, -, hhandle⟩
  · rfl
  · generalize s.polled junk = ev at hhandle
    cases handled_of_handle hhandle with
    | nothing => rfl
    | ready => rfl
    | accepted => rfl
    | rejected => rfl
    | failed => exact (executeFrame_executes s.drained).keeps.calls
    | executed => exact (executeFrame_executes s.drained).keeps.calls
    | activated => rfl
    | unsent => rfl
    | error => rfl

/-- A step leaves the other calls where they are. -/
theorem step_others (ha : a.By i q) (h : s.step a = some s') {j : Nat} (hj : j ≠ i) :
    s'.calls j = s.calls j := by
  cases a with
  | byte b => exact ha.elim
  | timer => rw [(portStep_timer h).keeps.calls]
  | txReady => rw [(portStep_txReady h).keeps.calls]
  | poll junk => rw [poll_calls h]
  | refuse c q' =>
    obtain ⟨rfl, -⟩ := ha
    obtain ⟨_, -, rfl, -⟩ := refuse_cases h
    exact setCall_other s _ hj
  | take c q' =>
    obtain ⟨rfl, -⟩ := ha
    obtain ⟨-, -, -, rfl⟩ := take_cases h
    exact setCall_other s _ hj
  | fill c =>
    obtain rfl : c = i := ha
    obtain ⟨_, -, rfl⟩ := fill_cases h
    exact setCall_other _ _ hj
  | submit c =>
    obtain rfl : c = i := ha
    obtain ⟨_, -, rfl⟩ := submit_cases h
    exact setCall_other _ _ hj
  | finish c =>
    obtain rfl : c = i := ha
    obtain ⟨_, _, _, -, -, -, rfl⟩ := finish_cases h
    exact setCall_other _ _ hj

/-! ## Waiting for a reply -/

/-- The request is on the line and its call waits. -/
structure Awaits (i : Nat) (q : MasterRequest) (n : Nat) (app : MasterApp) (s : Master) : Prop where
  underway : Underway i (.waiting q) n app s
  broadcast : s.xFrameIsBroadcast = decide (q.ucSndAddr = mbAddressBroadcast)
  dest : s.ucMBMasterDestAddress = q.ucSndAddr
  inPlace : InPlace q s

/-- The master when these bytes have come in. -/
def heard (s : Master) (bytes : List UChar) : Master := bytes.foldl xMBMasterRTUReceiveFSM s

theorem heard_append (s : Master) (bytes : List UChar) (b : UChar) :
    s.heard (bytes ++ [b]) = (s.heard bytes).xMBMasterRTUReceiveFSM b := by
  rw [heard, List.foldl_append]
  rfl

theorem heard_frame (s : Master) (bytes : List UChar) : ∃ snd rcvBuf pos st mode timer,
    s.heard bytes = { s with
      eSndState := snd
      ucMasterRTURcvBuf := rcvBuf
      usMasterRcvBufferPos := pos
      eRcvState := st
      eMasterCurTimerMode := mode
      xTimer := timer } := by
  induction bytes generalizing s with
  | nil => exact ⟨_, _, _, _, _, _, rfl⟩
  | cons b bytes ih =>
    obtain ⟨_, _, _, _, hfirst⟩ := receiveFSM_eq s b
    obtain ⟨snd, rcvBuf, pos, st, mode, timer, hrest⟩ := ih (s.xMBMasterRTUReceiveFSM b)
    refine ⟨snd, rcvBuf, pos, st, mode, timer, ?_⟩
    show (s.xMBMasterRTUReceiveFSM b).heard bytes = _
    rw [hrest, hfirst]

theorem Awaits.heard (h : Awaits i q n app s) (bytes : List UChar) :
    Awaits i q n app (s.heard bytes) := by
  obtain ⟨_, _, _, _, _, _, heq⟩ := heard_frame s bytes
  rw [heq]
  exact ⟨⟨h.underway.call, h.underway.res, h.underway.app, h.underway.results⟩, h.broadcast,
    h.dest, h.inPlace.pdu, h.inPlace.len, h.inPlace.frame⟩

/-- While bytes come in the master is receiving. -/
theorem control_heard (hc : Control .wait s) {bytes : List UChar} (h1 : 1 ≤ bytes.length) :
    Control (.rcv []) (s.heard bytes) := by
  have hrest : ∀ (bytes : List UChar) {s : Master}, Control (.rcv []) s →
      Control (.rcv []) (s.heard bytes) := by
    intro bytes
    induction bytes with
    | nil => exact fun hc => hc
    | cons b bytes ih => exact fun hc => ih (hc.byte hc.rx b)
  cases bytes with
  | nil => exact absurd h1 (Nat.not_succ_le_zero 0)
  | cons b bytes => exact hrest bytes (hc.byte hc.rx b)

/-- The receiver is on. -/
theorem heard_rx (hc : Control .wait s) (bytes : List UChar) :
    (s.heard bytes).xRxEnable = true ∧ (s.heard bytes).xTxEnable = false := by
  obtain ⟨_, _, _, _, _, _, heq⟩ := heard_frame s bytes
  rw [heq]
  exact ⟨hc.rx, hc.tx⟩

/-- The frame lies in the receive buffer. -/
theorem heard_receiver (hc : Control .wait s) {g : List UChar} (h1 : 1 ≤ g.length)
    (h2 : g.length ≤ 256) :
    (s.heard g).eRcvState = .rcv ∧ (s.heard g).ucMasterRTURcvBuf.Holds 0 g ∧
      (s.heard g).usMasterRcvBufferPos = g.length := by
  have hidle : s.receiver.mode = .idle := congrArg MBMasterRcvState.mode hc.receiver.1
  have hrec : (s.heard g).receiver = ⟨.receiving, s.receiver.buf.write 0 g, g.length⟩ :=
    (receiver_foldl s g).trans (Receiver.takes hidle h1 h2)
  have hmode : (s.heard g).eRcvState.mode = .receiving := congrArg Receiver.mode hrec
  have hbuf : (s.heard g).ucMasterRTURcvBuf = s.receiver.buf.write 0 g :=
    congrArg Receiver.buf hrec
  refine ⟨?_, ?_, congrArg Receiver.pos hrec⟩
  · cases hst : (s.heard g).eRcvState with
    | rcv => rfl
    | init =>
      rw [hst] at hmode
      cases hmode
    | idle =>
      rw [hst] at hmode
      cases hmode
    | error =>
      rw [hst] at hmode
      cases hmode
  · rw [hbuf]
    exact Mem.holds_write g _ 0

/-! ## What the execution of a reply finds -/

/-- The PDU of the reply is what the execution finds, and the request is still there. -/
structure Got (q : MasterRequest) (app : MasterApp) (p : List UChar) (s : Master) : Prop where
  app : s.app = app
  unicast : s.xFrameIsBroadcast = false
  dest : s.ucMBMasterDestAddress = q.ucSndAddr
  request : s.ucMasterRTUSndBuf.Holds 1 q.call.req.pdu
  pdu : s.frame.Holds 0 p
  length : s.usLength = p.length

/-- The execution of a reply with this PDU meets `Out`. -/
def Brings (q : MasterRequest) (app : MasterApp) (p : List UChar)
    (Out : MBMasterReqErrCode → MasterApp → Prop) : Prop :=
  ∀ s, Got q app p s → Out (executedCode s.executeFrame.eException) s.executeFrame.app

/-- The reply of a device to a request that fits is absorbed by the mirror. -/
theorem brings_reply (hproper : q.call.Proper) (hfit : FreeModbus.Fits q.call.request)
    {σ σ' : Store slaveShape} {reply : Reply} (hexec : σ.exec q.call.request = some (reply, σ')) :
    Brings q app (reply.pdu q.call.request) fun code app' => code = .noErr ∧
      UpdatesRow q.ucSndAddr (fun row => Store.overlay q.call.request σ' row) app app' := by
  intro s h
  have hsnd : s.ctx.pucPDUSndBuf.Holds 0 q.call.request.pdu := by
    rw [← MasterCall.pdu_eq hproper]
    exact Mem.holds_at.mpr h.request
  have hcode : s.frame mbPduFuncOff = q.call.request.code := by
    obtain ⟨l, hl⟩ := reply.pdu_cons q.call.request
    have hpdu := h.pdu
    rw [hl, Mem.holds_cons] at hpdu
    exact hpdu.1
  obtain ⟨hex, happ, -⟩ := executeFrame_unicast (not_exceptionFrame (c := q.call) hcode) h.unicast
  have habs : Absorbs s.ctx.ucMBMasterDestAddress q.call.request reply s.app s.dispatched := by
    rw [dispatched, h.length]
    exact masterDispatch_absorbs hfit h.unicast hsnd hexec h.pdu
  obtain ⟨hstatus, hrow⟩ := habs
  simp only [absorb_exec hexec] at hrow
  rw [hex, hstatus, happ]
  refine ⟨rfl, ?_⟩
  rw [← h.app, ← h.dest]
  exact hrow

/-- An exception reply leaves the mirror alone. -/
theorem brings_exception {code ex : UChar} (hcode : code >>> 7 ≠ 0) (hex : ex ≠ 0) :
    Brings q app [code, ex] fun c app' => c = .exeFun ∧ app' = app := by
  intro s h
  have hpdu := h.pdu
  rw [Mem.holds_cons, Mem.holds_cons] at hpdu
  obtain ⟨hfunc, hdata, -⟩ := hpdu
  have hexception : ExceptionFrame s.frame := by
    rw [ExceptionFrame, mbPduFuncOff, hfunc]
    exact hcode
  rw [executeFrame_exception hexception]
  refine ⟨?_, h.app⟩
  show executedCode (s.frame (0 + 1)) = .exeFun
  rw [hdata]
  exact if_neg hex

/-! ## The stages -/

/-- The call comes to its return in at most so many expiries, polls and ends of a wait, and its code
and the mirror then meet `Out`. -/
inductive Concluding (i : Nat) (q : MasterRequest) (n : Nat)
    (Out : MBMasterReqErrCode → MasterApp → Prop) : Nat → Master → Prop where
  /-- The bytes of a frame have come in. -/
  | heard {s : Master} {app : MasterApp} {p : List UChar} : Awaits i q n app s → Control .wait s →
      q.ucSndAddr ≠ mbAddressBroadcast → 1 ≤ p.length → p.length ≤ 253 → Brings q app p Out →
      Concluding i q n Out 5 (s.heard (rtuFrame q.ucSndAddr p))
  /-- The frame is reported. -/
  | reported {s : Master} {app : MasterApp} {p : List UChar} : Awaits i q n app s →
      Control (.pend [.frameReceived]) s → q.ucSndAddr ≠ mbAddressBroadcast → 1 ≤ p.length →
      s.ucMasterRTURcvBuf.Holds 0 (rtuFrame q.ucSndAddr p) →
      s.usMasterRcvBufferPos = p.length + 3 → Brings q app p Out → Concluding i q n Out 4 s
  /-- The execution is due. -/
  | executing {s : Master} : Underway i (.waiting q) n s.app s → Control (.pend [.execute]) s →
      s.ucMBFrame ≠ .null → Out (executedCode s.drained.executeFrame.eException)
        s.drained.executeFrame.app → Concluding i q n Out 3 s
  /-- The request has failed. -/
  | failing {s : Master} : Underway i (.waiting q) n s.app s → Control (.pend [.errorProcess]) s →
      Out s.eMBMasterCurErrorType.result.code s.app → Concluding i q n Out 2 s
  /-- The result is there. -/
  | resulted {s : Master} {r : MBMasterResult} : s.calls i = .waiting q →
      s.xMasterRunRes = n + 1 → resultChannel.Only s.xMasterOsEvent r → Control (.pend []) s →
      Out r.code s.app → Concluding i q n Out 1 s
  /-- The call has returned. -/
  | returned {s : Master} {code : MBMasterReqErrCode} : s.calls i = .returned q code →
      s.xMasterRunRes = n + 1 → (∀ r, ¬ resultChannel.Pending s.xMasterOsEvent r) →
      Control (.pend []) s → Out code s.app → Concluding i q n Out 0 s

/-- The expiry of the timer behind the frame reports it. -/
theorem Awaits.report (h : Awaits i q n app s) (hc : Control .wait s) {g : List UChar}
    (h1 : 1 ≤ g.length) (h2 : g.length ≤ 256) :
    Awaits i q n app (s.heard g).xMBMasterRTUTimerExpired ∧
      Control (.pend [.frameReceived]) (s.heard g).xMBMasterRTUTimerExpired ∧
      (s.heard g).xMBMasterRTUTimerExpired.ucMasterRTURcvBuf.Holds 0 g ∧
      (s.heard g).xMBMasterRTUTimerExpired.usMasterRcvBufferPos = g.length := by
  obtain ⟨hrcv, hbuf, hpos⟩ := heard_receiver hc h1 h2
  have hc' := control_heard hc h1
  have hpend := hc'.expire_frame hrcv
  have h' := h.heard g
  rw [timerExpired_frame hrcv hc'.snd hc'.receiver.2] at hpend ⊢
  exact ⟨⟨⟨h'.underway.call, h'.underway.res, h'.underway.app,
    fun r => mt (results_post _ _ r).mp (h'.underway.results r)⟩, h'.broadcast, h'.dest,
    h'.inPlace.pdu, h'.inPlace.len, h'.inPlace.frame⟩, hpend, hbuf, hpos⟩

/-- The poll that finds a reply accepts it. -/
theorem Awaits.accept (h : Awaits i q n app s) (hc : Control (.pend [.frameReceived]) s)
    (hu : q.ucSndAddr ≠ mbAddressBroadcast) {p : List UChar} (h1 : 1 ≤ p.length)
    (hbuf : s.ucMasterRTURcvBuf.Holds 0 (rtuFrame q.ucSndAddr p))
    (hpos : s.usMasterRcvBufferPos = p.length + 3) (hb : Brings q app p Out)
    {junk : Option MBMasterEventType} (hst : s.step (.poll junk) = some s') :
    Concluding i q n Out 3 s' := by
  have hleft : Control (.pend []) s.drained := hc.get
  obtain ⟨haddr, hpdu⟩ := holds_rtuFrame hbuf
  have hus : s.drained.FrameForUs := by
    refine ⟨?_, haddr.trans h.dest.symm⟩
    have hvalid := rtuFrame_valid h1 hbuf
    rw [← hpos] at hvalid
    exact hvalid
  have hcontrol := hleft.accept hus
  rw [Pends.step_poll (Or.inl hc)] at hst
  obtain rfl : s.drained.pollFrameReceived = s' := Option.some.inj hst
  rw [pollFrameReceived_ok hus] at hcontrol ⊢
  refine .executing ⟨h.underway.call, h.underway.res, rfl, fun r hr => ?_⟩ hcontrol
    (fun hf => by cases hf) (hb _ ⟨h.underway.app, ?_, h.dest, h.inPlace.pdu, ?_, ?_⟩)
  · exact h.underway.results r ((results_drained s r).mp ((results_post _ _ r).mp hr))
  · exact h.broadcast.trans (decide_eq_false hu)
  · exact Mem.holds_at.mpr hpdu
  · show s.usMasterRcvBufferPos - 1 - 2 = p.length
    omega

/-- The poll that executes a frame fails the request or completes it. -/
theorem poll_executing (hu : Underway i (.waiting q) n s.app s) (hc : Control (.pend [.execute]) s)
    (hnull : s.ucMBFrame ≠ .null) (hout : Out (executedCode s.drained.executeFrame.eException)
      s.drained.executeFrame.app) :
    ∃ t, (∀ junk, s.step (.poll junk) = some t) ∧
      (Concluding i q n Out 2 t ∨ Concluding i q n Out 1 t) := by
  refine ⟨s.drained.pollExecute,
    fun junk => (Pends.step_poll (Or.inl hc) junk).trans (if_neg hnull), ?_⟩
  obtain ⟨m, hm⟩ := executeFrame_moves s
  have hcall : s.drained.executeFrame.calls i = .waiting q := hm.keeps.calls ▸ hu.call
  have hres : s.drained.executeFrame.xMasterRunRes = n := hm.keeps.res.trans hu.res
  have hnone : ∀ r, ¬ resultChannel.Pending s.drained.executeFrame.xMasterOsEvent r :=
    fun r => mt (hm.results r).mp (hu.results r)
  have hcontrol : Control (.pend []) s.drained.executeFrame :=
    Control.executes (Control.get hc) (executeFrame_executes _)
  rcases pollExecute_cases s.drained with ⟨hex, heq⟩ | ⟨hex, heq⟩
  · rw [heq]
    refine Or.inl (.failing ⟨hcall, hres, rfl, fun r => mt (results_post _ _ r).mp (hnone r)⟩
      (hcontrol.fail .executeFunction) ?_)
    rw [executedCode, if_neg hex] at hout
    exact hout
  · rw [heq]
    refine Or.inr (.resulted (r := .processSucess) hcall (congrArg (· + 1) hres)
      (resultChannel.only_post (fun ⟨r', hr'⟩ => hnone r' hr') _) (hcontrol.complete _) ?_)
    rw [executedCode, if_pos hex] at hout
    exact hout

/-- The poll that ends a request that has failed. -/
theorem poll_failing (hu : Underway i (.waiting q) n s.app s)
    (hc : Control (.pend [.errorProcess]) s) (hout : Out s.eMBMasterCurErrorType.result.code s.app)
    {junk : Option MBMasterEventType} (hst : s.step (.poll junk) = some s') :
    Concluding i q n Out 1 s' := by
  let t : Master := { s.drained with ucMBFrame := .sndBuf }
  rw [Pends.step_poll (Or.inl hc)] at hst
  have hpoll : some (t.complete s.eMBMasterCurErrorType.result) = some s' := hst
  obtain rfl := Option.some.inj hpoll
  have hleft : Control (.pend []) s.drained := hc.get
  have hframe : Control (.pend []) t :=
    ⟨hleft.state, hleft.events, hleft.receiver, hleft.snd, hleft.rx, hleft.tx, hleft.timer⟩
  exact .resulted hu.call (congrArg (· + 1) hu.res)
    (resultChannel.only_post (fun ⟨r', hr'⟩ => hu.results r' ((results_drained s r').mp hr')) _)
    (hframe.complete _) hout

/-- The end of the wait takes the result. -/
theorem finish_resulted {r : MBMasterResult} (hcall : s.calls i = .waiting q)
    (hres : s.xMasterRunRes = n + 1) (honly : resultChannel.Only s.xMasterOsEvent r)
    (hc : Control (.pend []) s) (hout : Out r.code s.app) :
    ∃ t, s.step (.finish i) = some t ∧ Concluding i q n Out 0 t := by
  let flags := (eMBMasterWaitRequestFinish s.xMasterOsEvent).2
  have hcode := eMBMasterWaitRequestFinish_of_only honly
  have hflags : flags = (resultChannel.get s.xMasterOsEvent).2 :=
    eMBMasterWaitRequestFinish_flags s.xMasterOsEvent
  have hevents : ∀ e, masterChannel.Pending flags e ↔ e ∈ Phase.events (.pend []) := by
    intro e
    rw [hflags, ← hc.events e]
    exact masterChannel_apart.pending_get _ e
  have hnone : ∀ r', ¬ resultChannel.Pending flags r' := by
    rw [hflags]
    exact resultChannel.not_pending_get _
  refine ⟨({ s with xMasterOsEvent := flags }.record (.returned i r.code)).setCall i
    (.returned q r.code), ?_, .returned (setCall_same ..) hres hnone
      ⟨hc.state, hevents, hc.receiver, hc.snd, hc.rx, hc.tx, hc.timer⟩ hout⟩
  show s.finish i = _
  unfold Master.finish
  rw [hcall]
  dsimp only
  rw [if_pos (Only.returns honly), hcode]

/-! ## Whatever the order of the steps -/

/-- A step of a call that was not made yet, or has not posted its request. -/
theorem not_posted_step {c : CallState} (hcall : s.calls i = c) (hc : c.Posted) :
    (∀ q', s.step (.refuse i q') = none) ∧ (∀ q', s.step (.take i q') = none) ∧
      s.step (.fill i) = none ∧ s.step (.submit i) = none := by
  cases c with
  | idle => exact hc.elim
  | taken q' => exact hc.elim
  | filled q' => exact hc.elim
  | _ =>
    refine ⟨fun q' => ?_, fun q' => ?_, ?_, ?_⟩
    · show s.refuse i q' = none
      unfold refuse
      rw [hcall]
    · show s.take i q' = none
      unfold take
      rw [hcall]
    · show s.fill i = none
      unfold fill
      rw [hcall]
    · show s.submit i = none
      unfold submit
      rw [hcall]

/-- The end of a wait needs a result. -/
theorem not_finish (hnone : ∀ r, ¬ resultChannel.Pending s.xMasterOsEvent r) (j : Nat) :
    s.step (.finish j) = none := by
  cases hst : s.step (.finish j) with
  | none => rfl
  | some t =>
    obtain ⟨_, _, _, -, ⟨r, hr⟩, -⟩ := finish_cases hst
    exact absurd hr (hnone r)

/-- The timer is stopped. -/
theorem Control.not_timer {p : Phase} (hc : Control p s) (hp : p.timer = false) :
    s.step .timer = none := by
  rw [Master.step, hc.timer, hp]
  rfl

/-- What the stages have in common. -/
theorem Concluding.common (h : Concluding i q n Out k s) :
    (s.calls i).Posted ∧ s.step .txReady = none ∧ s.xTxEnable = false ∧ s.xRxEnable = true := by
  cases h with
  | @heard s app p h hc hu h1 h253 hb =>
    have hc' := control_heard hc (one_le_rtuFrame q.ucSndAddr p)
    exact ⟨(h.heard _).underway.call ▸ trivial, hc'.not_txReady rfl, hc'.tx, hc'.rx⟩
  | reported h hc => exact ⟨h.underway.call ▸ trivial, hc.not_txReady rfl, hc.tx, hc.rx⟩
  | executing hu hc => exact ⟨hu.call ▸ trivial, hc.not_txReady rfl, hc.tx, hc.rx⟩
  | failing hu hc => exact ⟨hu.call ▸ trivial, hc.not_txReady rfl, hc.tx, hc.rx⟩
  | resulted hcall _ _ hc => exact ⟨hcall ▸ trivial, hc.not_txReady rfl, hc.tx, hc.rx⟩
  | returned hcall _ _ hc => exact ⟨hcall ▸ trivial, hc.not_txReady rfl, hc.tx, hc.rx⟩

/-- An expiry. -/
theorem Concluding.timer (h : Concluding i q n Out k s) (hst : s.step .timer = some s') :
    ∃ m < k, Concluding i q n Out m s' := by
  cases h with
  | @heard s app p h hc hu h1 h253 hb =>
    have hlen : (rtuFrame q.ucSndAddr p).length = p.length + 3 := rtuFrame_length _ p
    obtain ⟨-, rfl⟩ := timer_cases hst
    obtain ⟨h', hpend, hbuf, hpos⟩ := h.report hc (g := rtuFrame q.ucSndAddr p)
      (one_le_rtuFrame _ p) (hlen ▸ Nat.add_le_add_right h253 3)
    exact ⟨4, Nat.lt_succ_self 4, .reported h' hpend hu h1 hbuf (hpos.trans hlen) hb⟩
  | reported _ hc => cases (hc.not_timer rfl).symm.trans hst
  | executing _ hc => cases (hc.not_timer rfl).symm.trans hst
  | failing _ hc => cases (hc.not_timer rfl).symm.trans hst
  | resulted _ _ _ hc => cases (hc.not_timer rfl).symm.trans hst
  | returned _ _ _ hc => cases (hc.not_timer rfl).symm.trans hst

/-- A poll. -/
theorem Concluding.poll (h : Concluding i q n Out k s) {junk : Option MBMasterEventType}
    (hst : s.step (.poll junk) = some s') : ∃ m < k, Concluding i q n Out m s' := by
  cases h with
  | @heard s app p h hc hu h1 h253 hb =>
    have hc' := control_heard hc (one_le_rtuFrame q.ucSndAddr p)
    cases (hc'.not_poll rfl).symm.trans hst
  | reported h hc hu h1 hbuf hpos hb =>
    exact ⟨3, Nat.lt_succ_self 3, h.accept hc hu h1 hbuf hpos hb hst⟩
  | executing hu hc hnull hout =>
    obtain ⟨t, ht, hnext⟩ := poll_executing hu hc hnull hout
    cases (ht junk).symm.trans hst
    rcases hnext with hf | hr
    · exact ⟨2, Nat.lt_succ_self 2, hf⟩
    · exact ⟨1, by decide, hr⟩
  | failing hu hc hout => exact ⟨1, Nat.lt_succ_self 1, poll_failing hu hc hout hst⟩
  | resulted _ _ _ hc => cases (hc.not_poll rfl).symm.trans hst
  | returned _ _ _ hc => cases (hc.not_poll rfl).symm.trans hst

/-- The end of the wait. -/
theorem Concluding.finish (h : Concluding i q n Out k s) (hst : s.step (.finish i) = some s') :
    ∃ m < k, Concluding i q n Out m s' := by
  cases h with
  | heard h => cases (not_finish (h.heard _).underway.results i).symm.trans hst
  | reported h => cases (not_finish h.underway.results i).symm.trans hst
  | executing hu => cases (not_finish hu.results i).symm.trans hst
  | failing hu => cases (not_finish hu.results i).symm.trans hst
  | resulted hcall hres honly hc hout =>
    obtain ⟨t, ht, hnext⟩ := finish_resulted hcall hres honly hc hout
    cases ht.symm.trans hst
    exact ⟨0, Nat.one_pos, hnext⟩
  | returned _ _ hnone => cases (not_finish hnone i).symm.trans hst

/-- Every step of the call, the timer or the poll loop leads to a later stage. -/
theorem Concluding.step (h : Concluding i q n Out k s) (ha : a.By i q) (hst : s.step a = some s') :
    ∃ m < k, Concluding i q n Out m s' := by
  obtain ⟨hposted, htx, -⟩ := h.common
  obtain ⟨hrefuse, htake, hfill, hsubmit⟩ := not_posted_step rfl hposted
  cases a with
  | byte b => exact ha.elim
  | timer => exact h.timer hst
  | txReady => cases htx.symm.trans hst
  | poll junk => exact h.poll hst
  | refuse j q' =>
    obtain ⟨rfl, -⟩ := ha
    cases (hrefuse q').symm.trans hst
  | take j q' =>
    obtain ⟨rfl, -⟩ := ha
    cases (htake q').symm.trans hst
  | fill j =>
    obtain rfl : j = i := ha
    cases hfill.symm.trans hst
  | submit j =>
    obtain rfl : j = i := ha
    cases hsubmit.symm.trans hst
  | finish j =>
    obtain rfl : j = i := ha
    exact h.finish hst

/-- Before the return a step can be taken: the timer where it runs behind a frame, a poll, or the
end of the wait. -/
theorem Concluding.enabled (h : Concluding i q n Out k s) (hk : 0 < k) :
    (∃ s', s.step .timer = some s' ∧ s.eMasterCurTimerMode = .t35) ∨
      (∃ s', s.step (.poll none) = some s') ∨ ∃ s', s.step (.finish i) = some s' := by
  have hpoll : ∀ {s : Master} {e : MBMasterEventType}, Control (.pend [e]) s →
      (s.drained.handle (some e)).isSome → ∃ s', s.step (.poll none) = some s' := by
    intro s e hc hsome
    obtain ⟨t, ht⟩ := Option.isSome_iff_exists.mp hsome
    exact ⟨t, (Pends.step_poll (Or.inl hc) none).trans ht⟩
  cases h with
  | @heard s app p h hc hu h1 h253 hb =>
    have hc' := control_heard hc (one_le_rtuFrame q.ucSndAddr p)
    exact Or.inl ⟨_, if_pos hc'.timer, hc'.receiver.2⟩
  | reported _ hc => exact Or.inr (Or.inl (hpoll hc rfl))
  | executing hu hc hnull hout =>
    obtain ⟨t, ht, -⟩ := poll_executing hu hc hnull hout
    exact Or.inr (Or.inl ⟨t, ht none⟩)
  | failing _ hc => exact Or.inr (Or.inl (hpoll hc rfl))
  | resulted hcall hres honly hc hout =>
    obtain ⟨t, ht, -⟩ := finish_resulted hcall hres honly hc hout
    exact Or.inr (Or.inr ⟨t, ht⟩)
  | returned => exact absurd hk (Nat.lt_irrefl 0)

/-- A call that has returned is at the last stage. -/
theorem Concluding.eq_zero (h : Concluding i q n Out k s) {q' : MasterRequest}
    {code : MBMasterReqErrCode} (hcall : s.calls i = .returned q' code) : k = 0 := by
  cases h with
  | heard h => cases (h.heard _).underway.call.symm.trans hcall
  | reported h => cases h.underway.call.symm.trans hcall
  | executing hu => cases hu.call.symm.trans hcall
  | failing hu => cases hu.call.symm.trans hcall
  | resulted hc => cases hc.symm.trans hcall
  | returned => rfl

/-! ## The expiry where no reply came -/

/-- After the response timeout the request has failed. -/
theorem Awaits.timeout (h : Awaits i q n app s) (hc : Control .wait s)
    (hu : q.ucSndAddr ≠ mbAddressBroadcast) (hout : Out .timedout app) :
    Concluding i q n Out 2 s.xMBMasterRTUTimerExpired := by
  have hb : s.xFrameIsBroadcast = false := h.broadcast.trans (decide_eq_false hu)
  have hpend := hc.expire_response hb
  rw [timerExpired_response hc.receiver.1 hc.snd hb (hc.mode hb)] at hpend ⊢
  have happ : s.app = app := h.underway.app
  subst happ
  exact .failing ⟨h.underway.call, h.underway.res, rfl,
    fun r => mt (results_post _ _ r).mp (h.underway.results r)⟩ hpend hout

/-- After the convert delay the execution of a broadcast is due. -/
theorem Awaits.convert (h : Awaits i q n app s) (hc : Control .wait s)
    (ha : q.ucSndAddr = mbAddressBroadcast) (hw : q.call.BroadcastWrite)
    (hout : ∀ app', q.call.Broadcasts app app' →
      Out (if q.call.InMap then .noErr else .exeFun) app') :
    Concluding i q n Out 3 s.xMBMasterRTUTimerExpired := by
  have hb : s.xFrameIsBroadcast = true := h.broadcast.trans (decide_eq_true ha)
  obtain ⟨hdue, -, hpend⟩ := h.underway.expire hc hb h.inPlace
  have happ : s.xMBMasterRTUTimerExpired.app = app := hdue.underway.app
  obtain ⟨hcode, hrows⟩ := hdue.executes.1 hw
  have hnull : s.xMBMasterRTUTimerExpired.ucMBFrame ≠ .null := by
    rw [hdue.inPlace.frame]
    exact fun hf => by cases hf
  have hu := hdue.underway
  refine .executing ⟨hu.call, hu.res, rfl, hu.results⟩ hpend hnull ?_
  have hsame : executedCode q.call.broadcastStatus.code =
      if q.call.InMap then .noErr else .exeFun := by
    by_cases hin : q.call.InMap
    · rw [executedCode, if_pos ((broadcastStatus_code _).mpr hin), if_pos hin]
    · rw [executedCode, if_neg (mt (broadcastStatus_code _).mp hin), if_neg hin]
  rw [hcode, hsame]
  exact hout _ hrows

end Master

end FreeModbus
