import FreeModbus.Master.BroadcastRows
import FreeModbus.Master.Outcome
import FreeModbus.Master.SendBuffer

/-!
# A broadcast request from start to end

One broadcast request on a master that is idle.  Until the convert delay expires the
only steps are those of its own call, of the transmitter and of the poll loop
(`OfRequest`).  The run goes through the stages of `Outgoing` to the expiry, which posts
`EV_MASTER_EXECUTE` and nothing else.

Then the stages of `Closing` follow: the execution is due, it may have failed, the
result is there, the call has returned.  A frame that ends while an event of the request
is pending takes that event away, and a frame that is polled once the result is there is
executed or releases the run resource again.  A run without these is `Undisturbed`.
-/

namespace FreeModbus

open ByteMemory EventFlags EventFlags.Channel Transition

/-! ## The run -/

/-- A step of the request: of its call, the transmitter or the poll loop.  Another call is at most
refused. -/
def MasterAction.OfRequest (i : Nat) (q : MasterRequest) : MasterAction → Prop
  | .byte _ => False
  | .timer => False
  | .txReady => True
  | .poll _ => True
  | .refuse j _ => j ≠ i
  | .take j q' => j = i ∧ q' = q
  | .fill j => j = i
  | .submit j => j = i
  | .finish j => j = i

/-- A step while no other call is made: of the request, a byte, or an expiry. -/
def MasterAction.Alone (i : Nat) (q : MasterRequest) (a : MasterAction) : Prop :=
  a.OfRequest i q ∨ (∃ ucByte, a = .byte ucByte) ∨ a = .timer

/-- How a broadcast ends: the code that the call returns, and what is left of the mirror. -/
def MasterCall.EndsWith (c : MasterCall) (app : MasterApp) (code : MBMasterReqErrCode)
    (app' : MasterApp) : Prop :=
  (c.BroadcastWrite → code = (if c.InMap then .noErr else .exeFun) ∧ c.Broadcasts app app') ∧
    (c.BroadcastRead → app' = app)

namespace Master

/-- The master is established and idle, nothing is pending, the run resource is free, and the call
was not made yet. -/
structure IdleFor (i : Nat) (s : Master) : Prop where
  /-- Receiver and transmitter are idle, the timer is stopped, and no event is pending. -/
  control : Control (.pend []) s
  results : ∀ r, ¬ resultChannel.Pending s.xMasterOsEvent r
  free : 0 < s.xMasterRunRes
  call : s.calls i = .idle

/-- The call waits for a result that has not come yet. -/
def Unanswered (i : Nat) (s : Master) : Prop :=
  (s.calls i).Waits ∧ ∀ r, ¬ resultChannel.Pending s.xMasterOsEvent r

/-- After the convert delay no frame ends before the result of the request is there, and then the
poll loop handles nothing more before the call has returned. -/
def Undisturbed (i : Nat) (q : MasterRequest) (s : Master) : MasterAction → Prop
  | .byte _ => True
  | .timer => ¬ s.Unanswered i
  | .poll _ => s.Unanswered i
  | .txReady => True
  | .refuse j q' => (MasterAction.refuse j q').OfRequest i q
  | .take j q' => (MasterAction.take j q').OfRequest i q
  | .fill j => (MasterAction.fill j).OfRequest i q
  | .submit j => (MasterAction.submit j).OfRequest i q
  | .finish j => (MasterAction.finish j).OfRequest i q

/-- A broadcast request that starts on an idle master, with no byte before the convert delay
expires.  The steps behind the expiry meet `ok`. -/
structure BroadcastRun (ok : Master → MasterAction → Prop) (i : Nat) (q : MasterRequest)
    (s₀ s₁ s₂ s' : Master) : Prop where
  idle : IdleFor i s₀
  broadcast : q.ucSndAddr = mbAddressBroadcast
  request : q.call.BroadcastWrite ∨ q.call.BroadcastRead
  before : ReachableBy (· = s₀) step (fun _ a => a.OfRequest i q) s₁
  expiry : s₁.step .timer = some s₂
  after : ReachableBy (· = s₂) step ok s'

/-- What such a run comes to. -/
structure Delivered (i : Nat) (q : MasterRequest) (s₀ s₁ s₂ s' : Master) : Prop where
  /-- The whole frame of the request is on the line, and its address is 0. -/
  line : s₁.line = q.frame ∧ s₁.line.head? = some mbAddressBroadcast
  /-- The expiry posts `EV_MASTER_EXECUTE`, records no error and touches no row. -/
  quiet : ∀ e, ¬ masterChannel.Pending s₁.xMasterOsEvent e
  execute : ∀ e, masterChannel.Pending s₂.xMasterOsEvent e ↔ e = .execute
  noError : s₂.log = s₁.log
  mirror : s₂.app = s₀.app
  /-- The run resource is held until the result is there, and then it is free again. -/
  taken : s₂.xMasterRunRes + 1 = s₀.xMasterRunRes
  released : s'.xMasterRunRes + 1 = s₀.xMasterRunRes ∨ s'.xMasterRunRes = s₀.xMasterRunRes
  returned : ∀ code, s'.calls i = .returned q code →
    s'.xMasterRunRes = s₀.xMasterRunRes ∧ q.call.EndsWith s₀.app code s'.app
  read : q.call.BroadcastRead → s'.app = s₀.app
  /-- The call comes to its return. -/
  returns : ∃ t code, ReachableBy (· = s') step (Undisturbed i q) t ∧ t.calls i = .returned q code

variable {s s' : Master} {i n : Nat} {q : MasterRequest} {app : MasterApp} {c : CallState}
  {junk : Option MBMasterEventType}

/-! ## Requests that are broadcast -/

/-- A broadcast that is not refused, and fits in the send buffer. -/
theorem broadcast_admitted (ha : q.ucSndAddr = mbAddressBroadcast)
    (hq : q.call.BroadcastWrite ∨ q.call.BroadcastRead) : q.illArg = false ∧ q.Fits := by
  obtain ⟨addr, call⟩ := q
  have ha : addr = 0 := ha
  subst ha
  have hargs : call.req.illArg = false ∧ call.WithinBuffer := by
    cases call with
    | writeCoil a v =>
      have hcoil : (MasterCall.writeCoil a v).Proper := hq.resolve_right id
      exact ⟨MasterCall.not_illArg hcoil, trivial⟩
    | writeMultipleCoils a n buf =>
      obtain ⟨⟨-, hn⟩, hpad⟩ := hq.resolve_right id
      have hle : n.toNat ≤ 1968 := Nat.le_trans hn (by decide)
      exact ⟨MasterCall.not_illArg (c := .writeMultipleCoils a n buf) ⟨hle, hpad⟩, hn⟩
    | writeMultipleHoldingRegister a n buf => exact ⟨rfl, (hq.resolve_right id).2⟩
    | readWriteMultipleHoldingRegister ra rn buf wa wn => exact (hq.elim id id).elim
    | _ => exact ⟨rfl, trivial⟩
  have hill : MasterRequest.illArg ⟨0, call⟩ = false := Bool.or_eq_false_iff.mpr ⟨rfl, hargs.1⟩
  exact ⟨hill, (MasterRequest.fits_iff hill).mpr hargs.2⟩

/-- The request lies in the send buffer, and `ucMBFrame` points at it. -/
structure InPlace (q : MasterRequest) (s : Master) : Prop where
  pdu : s.ucMasterRTUSndBuf.Holds 1 q.call.req.pdu
  len : s.usMasterSendPDULength = q.call.req.usLength
  frame : s.ucMBFrame = .sndBuf

theorem MasterCall.pdu_head (c : MasterCall) : ∃ l, c.req.pdu = c.request.code :: l := by
  cases c <;> exact ⟨_, rfl⟩

/-- Such a request is what the execution finds. -/
theorem InPlace.answering (h : InPlace q s) : Answering q.call s := by
  have hrequest : s.ctx.pucPDUSndBuf.Holds 0 q.call.req.pdu := Mem.holds_at.mpr h.pdu
  refine ⟨hrequest, h.len, ?_, fun _ => h.frame⟩
  obtain ⟨l, hl⟩ := MasterCall.pdu_head q.call
  rw [hl, Mem.holds_cons] at hrequest
  have hframe : s.frame = s.ctx.pucPDUSndBuf := by
    rw [Master.frame, h.frame]
    rfl
  rw [hframe]
  exact hrequest.1

/-! ## Up to the expiry -/

/-- Where the call stands, with the value of the run resource and the mirror, and without a
result. -/
structure Underway (i : Nat) (c : CallState) (n : Nat) (app : MasterApp) (s : Master) : Prop where
  call : s.calls i = c
  res : s.xMasterRunRes = n
  app : s.app = app
  results : ∀ r, ¬ resultChannel.Pending s.xMasterOsEvent r

/-- The stages of a request before the convert delay expires. -/
inductive Outgoing (i : Nat) (q : MasterRequest) (n : Nat) (app : MasterApp) (s : Master) :
    Prop where
  | idle : Underway i .idle (n + 1) app s → Control (.pend []) s → Outgoing i q n app s
  | taken : Underway i (.taken q) n app s → Control (.pend []) s → Outgoing i q n app s
  | filled : Underway i (.filled q) n app s → Control (.pend []) s → Loaded q s →
      Outgoing i q n app s
  | posted : Underway i (.waiting q) n app s → Control (.pend [.frameSent]) s → Loaded q s →
      Outgoing i q n app s
  | sending : Underway i (.waiting q) n app s → Control .send s → Sending q s → InPlace q s →
      Outgoing i q n app s
  | sent : Underway i (.waiting q) n app s → Control .wait s → s.line = q.frame →
      s.xFrameIsBroadcast = decide (q.ucSndAddr = mbAddressBroadcast) → InPlace q s →
      Outgoing i q n app s

/-- Another call moves on. -/
theorem Underway.setCall (h : Underway i c n app s) {j : Nat} (hj : j ≠ i) (c' : CallState) :
    Underway i c n app (s.setCall j c') :=
  ⟨(setCall_other s c' hj.symm).trans h.call, h.res, h.app, h.results⟩

theorem Outgoing.setCall (h : Outgoing i q n app s) {j : Nat} (hj : j ≠ i) (c' : CallState) :
    Outgoing i q n app (s.setCall j c') := by
  cases h with
  | idle hu hc => exact .idle (hu.setCall hj c') (hc.setCall j c')
  | taken hu hc => exact .taken (hu.setCall hj c') (hc.setCall j c')
  | filled hu hc hl => exact .filled (hu.setCall hj c') (hc.setCall j c') (hl.same rfl rfl rfl)
  | posted hu hc hl => exact .posted (hu.setCall hj c') (hc.setCall j c') (hl.same rfl rfl rfl)
  | sending hu hc hs hp =>
    exact .sending (hu.setCall hj c') (hc.setCall j c') ⟨hs.dest, hs.addr, hs.frame⟩
      ⟨hp.pdu, hp.len, hp.frame⟩
  | sent hu hc hline hb hp =>
    exact .sent (hu.setCall hj c') (hc.setCall j c') hline hb ⟨hp.pdu, hp.len, hp.frame⟩

/-! ### From stage to stage -/

theorem Underway.take (hu : Underway i .idle (n + 1) app s) (hc : Control (.pend []) s)
    (hq : q.illArg = false) :
    ∃ t, s.step (.take i q) = some t ∧ Underway i (.taken q) n app t ∧ Control (.pend []) t := by
  let t : Master := { s.setCall i (.taken q) with
    xMasterRunRes := s.xMasterRunRes - 1
    holders := s.holders ++ [i] }
  refine ⟨t, ?_, ⟨setCall_same .., ?_, hu.app, hu.results⟩,
    ⟨hc.state, hc.events, hc.receiver, hc.snd, hc.rx, hc.tx, hc.timer⟩⟩
  · show s.take i q = some t
    unfold Master.take
    rw [hu.call]
    exact if_pos ⟨hq, hu.res ▸ Nat.succ_pos n⟩
  · show s.xMasterRunRes - 1 = n
    rw [hu.res, Nat.add_sub_cancel]

theorem Underway.fill (hu : Underway i (.taken q) n app s) (hc : Control (.pend []) s)
    (hfit : q.Fits) :
    ∃ t, s.step (.fill i) = some t ∧ Underway i (.filled q) n app t ∧ Control (.pend []) t ∧
      Loaded q t := by
  refine ⟨(s.fillSndBuf q).setCall i (.filled q), ?_, ⟨setCall_same .., hu.res, hu.app, hu.results⟩,
    ⟨hc.state, hc.events, hc.receiver, hc.snd, hc.rx, hc.tx, hc.timer⟩,
    (loaded_fillSndBuf s hfit).same rfl rfl rfl⟩
  show s.fill i = _
  unfold Master.fill
  rw [hu.call]

theorem Underway.submit (hu : Underway i (.filled q) n app s) (hc : Control (.pend []) s)
    (hl : Loaded q s) :
    ∃ t, s.step (.submit i) = some t ∧ Underway i (.waiting q) n app t ∧
      Control (.pend [.frameSent]) t ∧ Loaded q t := by
  have hc' : Control (.pend [.frameSent]) (s.post .frameSent) := hc.post .frameSent
  refine ⟨((s.post .frameSent).record (.posted i)).setCall i (.waiting q), ?_,
    ⟨setCall_same .., hu.res, hu.app, fun r => mt (results_post s _ r).mp (hu.results r)⟩,
    ⟨hc'.state, hc'.events, hc'.receiver, hc'.snd, hc'.rx, hc'.tx, hc'.timer⟩,
    hl.same rfl rfl rfl⟩
  show s.submit i = _
  unfold Master.submit
  rw [hu.call]

/-- The poll that finds `EV_MASTER_FRAME_SENT` activates the transmitter. -/
theorem Underway.pollFrameSent (hu : Underway i c n app s) (hc : Control (.pend [.frameSent]) s)
    (hl : Loaded q s) (ha : q.ucSndAddr.toNat ≤ mbMasterTotalSlaveNum) :
    (∀ junk, s.step (.poll junk) = some s.drained.pollFrameSent) ∧
      Underway i c n app s.drained.pollFrameSent ∧ Control .send s.drained.pollFrameSent ∧
      Sending q s.drained.pollFrameSent ∧ InPlace q s.drained.pollFrameSent := by
  have hleft : Control (.pend []) s.drained := hc.get
  have hl' : Loaded q s.drained := hl.same rfl rfl rfl
  have haddr : s.drained.ucMBMasterDestAddress.toNat ≤ mbMasterTotalSlaveNum := hl'.addr ▸ ha
  have hsend := hleft.pollFrameSent haddr
  have hs := hl'.sending ha hleft.receiver
  have hframe : s.drained.sendBuf.Holds 0 ((q.ucSndAddr :: q.call.req.pdu) ++
      crcBytes (usMBCRC16List (q.ucSndAddr :: q.call.req.pdu))) := hl'.holds_frame
  rw [Mem.holds_append, Mem.holds_cons] at hframe
  refine ⟨fun junk => ?_, ?_, hsend, hs, ?_⟩
  · show s.eMBMasterPoll junk = _
    rw [eMBMasterPoll_eq (Or.inr hc.state) (hc.returns_iff.mpr nofun), hc.polled_one rfl]
    rfl
  · rw [pollFrameSent_ok haddr hleft.receiver]
    exact ⟨hu.call, hu.res, hu.app, fun r => mt (results_drained s r).mp (hu.results r)⟩
  · rw [pollFrameSent_ok haddr hleft.receiver]
    exact ⟨hframe.1.2, hl.len, rfl⟩

/-- A turn of the transmitter with bytes left. -/
theorem Underway.transmit_byte (hu : Underway i c n app s) (hc : Control .send s)
    (hs : Sending q s) (hp : InPlace q s) (hcount : s.usMasterSndBufferCount ≠ 0) :
    Underway i c n app s.xMBMasterRTUTransmitFSM ∧ Control .send s.xMBMasterRTUTransmitFSM ∧
      Sending q s.xMBMasterRTUTransmitFSM ∧ InPlace q s.xMBMasterRTUTransmitFSM ∧
      s.xMBMasterRTUTransmitFSM.usMasterSndBufferCount = s.usMasterSndBufferCount - 1 := by
  refine ⟨?_, hc.transmit_byte hcount, hs.byte hc.snd hcount, ?_, ?_⟩
  · rw [xMBMasterRTUTransmitFSM_byte hc.snd hcount]
    exact ⟨hu.call, hu.res, hu.app, hu.results⟩
  · rw [xMBMasterRTUTransmitFSM_byte hc.snd hcount]
    exact ⟨hp.pdu, hp.len, hp.frame⟩
  · rw [xMBMasterRTUTransmitFSM_byte hc.snd hcount]

/-- The turn of the transmitter that ends the frame. -/
theorem Underway.transmit_done (hu : Underway i c n app s) (hc : Control .send s)
    (hs : Sending q s) (hp : InPlace q s) (hcount : s.usMasterSndBufferCount = 0) :
    Underway i c n app s.xMBMasterRTUTransmitFSM ∧ Control .wait s.xMBMasterRTUTransmitFSM ∧
      s.xMBMasterRTUTransmitFSM.line = q.frame ∧
      s.xMBMasterRTUTransmitFSM.xFrameIsBroadcast = decide (q.ucSndAddr = mbAddressBroadcast) ∧
      InPlace q s.xMBMasterRTUTransmitFSM := by
  have hwait := hc.transmit_done hcount
  rw [xMBMasterRTUTransmitFSM_done hc.snd hcount] at hwait ⊢
  exact ⟨⟨hu.call, hu.res, hu.app, hu.results⟩, hwait, hs.done hcount, hs.broadcast,
    ⟨hp.pdu, hp.len, hp.frame⟩⟩

/-- The transmitter has a turn while a frame is being sent. -/
theorem Control.step_txReady (hc : Control .send s) :
    s.step .txReady = some s.xMBMasterRTUTransmitFSM := if_pos hc.tx

/-- At no other time has it one. -/
theorem Control.not_txReady {p : Phase} (hc : Control p s) (hp : p.rx = true) :
    s.step .txReady = none := by
  rw [step, hc.tx, hp]
  rfl

/-- A poll waits where no event is pending. -/
theorem Control.not_poll {p : Phase} (hc : Control p s) (hp : p.events = []) :
    s.step (.poll junk) = none := by
  have hon : ¬ (s.eMBState ≠ .enabled ∧ s.eMBState ≠ .established) := fun hno => hno.2 hc.state
  have hwait : ¬ masterChannel.Returns s.xMasterOsEvent := fun hr => hc.returns_iff.mp hr hp
  rw [step, eMBMasterPoll, if_neg hon, if_neg hwait]

/-! ### One step -/

/-- A turn of the transmitter. -/
theorem Outgoing.txReady (h : Outgoing i q n app s) (hst : s.step .txReady = some s') :
    Outgoing i q n app s' := by
  cases h with
  | idle hu hc => cases (hc.not_txReady rfl).symm.trans hst
  | taken hu hc => cases (hc.not_txReady rfl).symm.trans hst
  | filled hu hc hl => cases (hc.not_txReady rfl).symm.trans hst
  | posted hu hc hl => cases (hc.not_txReady rfl).symm.trans hst
  | sending hu hc hs hp =>
    cases hc.step_txReady.symm.trans hst
    by_cases hcount : s.usMasterSndBufferCount = 0
    · obtain ⟨hu', hc', hline, hb, hp'⟩ := hu.transmit_done hc hs hp hcount
      exact .sent hu' hc' hline hb hp'
    · obtain ⟨hu', hc', hs', hp', -⟩ := hu.transmit_byte hc hs hp hcount
      exact .sending hu' hc' hs' hp'
  | sent hu hc hline hb hp => cases (hc.not_txReady rfl).symm.trans hst

/-- Only the request that was posted is there to be polled. -/
theorem Outgoing.poll (h : Outgoing i q n app s) (ha : q.ucSndAddr = mbAddressBroadcast)
    (hst : s.step (.poll junk) = some s') : Outgoing i q n app s' := by
  cases h with
  | idle hu hc => cases (hc.not_poll rfl).symm.trans hst
  | taken hu hc => cases (hc.not_poll rfl).symm.trans hst
  | filled hu hc hl => cases (hc.not_poll rfl).symm.trans hst
  | posted hu hc hl =>
    obtain ⟨hpoll, hu', hc', hs', hp'⟩ := hu.pollFrameSent hc hl (ha ▸ Nat.zero_le _)
    cases (hpoll junk).symm.trans hst
    exact .sending hu' hc' hs' hp'
  | sending hu hc hs hp => cases (hc.not_poll rfl).symm.trans hst
  | sent hu hc hline hb hp => cases (hc.not_poll rfl).symm.trans hst

theorem Outgoing.take (h : Outgoing i q n app s) (hq : q.illArg = false)
    (hst : s.step (.take i q) = some s') : Outgoing i q n app s' := by
  have hcall := (take_cases hst).1
  cases h with
  | idle hu hc =>
    obtain ⟨t, heq, hu', hc'⟩ := hu.take hc hq
    cases heq.symm.trans hst
    exact .taken hu' hc'
  | taken hu hc => cases hcall.symm.trans hu.call
  | filled hu hc hl => cases hcall.symm.trans hu.call
  | posted hu hc hl => cases hcall.symm.trans hu.call
  | sending hu hc hs hp => cases hcall.symm.trans hu.call
  | sent hu hc hline hb hp => cases hcall.symm.trans hu.call

theorem Outgoing.fill (h : Outgoing i q n app s) (hfit : q.Fits)
    (hst : s.step (.fill i) = some s') : Outgoing i q n app s' := by
  obtain ⟨q', hcall, -⟩ := fill_cases hst
  cases h with
  | taken hu hc =>
    obtain ⟨t, heq, hu', hc', hl⟩ := hu.fill hc hfit
    cases heq.symm.trans hst
    exact .filled hu' hc' hl
  | idle hu hc => cases hcall.symm.trans hu.call
  | filled hu hc hl => cases hcall.symm.trans hu.call
  | posted hu hc hl => cases hcall.symm.trans hu.call
  | sending hu hc hs hp => cases hcall.symm.trans hu.call
  | sent hu hc hline hb hp => cases hcall.symm.trans hu.call

theorem Outgoing.submit (h : Outgoing i q n app s) (hst : s.step (.submit i) = some s') :
    Outgoing i q n app s' := by
  obtain ⟨q', hcall, -⟩ := submit_cases hst
  cases h with
  | filled hu hc hl =>
    obtain ⟨t, heq, hu', hc', hl'⟩ := hu.submit hc hl
    cases heq.symm.trans hst
    exact .posted hu' hc' hl'
  | idle hu hc => cases hcall.symm.trans hu.call
  | taken hu hc => cases hcall.symm.trans hu.call
  | posted hu hc hl => cases hcall.symm.trans hu.call
  | sending hu hc hs hp => cases hcall.symm.trans hu.call
  | sent hu hc hline hb hp => cases hcall.symm.trans hu.call

/-- No result is there yet. -/
theorem Outgoing.results (h : Outgoing i q n app s) (r : MBMasterResult) :
    ¬ resultChannel.Pending s.xMasterOsEvent r := by
  cases h with
  | idle hu hc => exact hu.results r
  | taken hu hc => exact hu.results r
  | filled hu hc hl => exact hu.results r
  | posted hu hc hl => exact hu.results r
  | sending hu hc hs hp => exact hu.results r
  | sent hu hc hline hb hp => exact hu.results r

/-- Every step of the request leads to a stage. -/
theorem Outgoing.step (h : Outgoing i q n app s) (ha : q.ucSndAddr = mbAddressBroadcast)
    (hq : q.illArg = false) (hfit : q.Fits) {a : MasterAction} (hok : a.OfRequest i q)
    (hst : s.step a = some s') : Outgoing i q n app s' := by
  cases a with
  | byte ucByte => exact hok.elim
  | timer => exact hok.elim
  | txReady => exact h.txReady hst
  | poll junk => exact h.poll ha hst
  | refuse j q' =>
    obtain ⟨code, -, rfl, -⟩ := refuse_cases hst
    exact h.setCall hok _
  | take j q' =>
    obtain ⟨rfl, rfl⟩ := hok
    exact h.take hq hst
  | fill j =>
    obtain rfl : j = i := hok
    exact h.fill hfit hst
  | submit j =>
    obtain rfl : j = i := hok
    exact h.submit hst
  | finish j =>
    obtain ⟨-, -, -, -, ⟨r, hr⟩, -⟩ := finish_cases hst
    exact absurd hr (h.results r)

/-- A master that is idle is at the first stage. -/
theorem IdleFor.outgoing (h : IdleFor i s) : Outgoing i q (s.xMasterRunRes - 1) s.app s :=
  .idle ⟨h.call, (Nat.sub_add_cancel h.free).symm, rfl, h.results⟩ h.control

/-- Whatever the order of the steps, the run stays in the stages. -/
theorem outgoing_of_run {s₀ : Master} (hidle : IdleFor i s₀)
    (ha : q.ucSndAddr = mbAddressBroadcast) (hq : q.illArg = false) (hfit : q.Fits)
    (h : ReachableBy (· = s₀) step (fun _ a => a.OfRequest i q) s) :
    Outgoing i q (s₀.xMasterRunRes - 1) s₀.app s := by
  refine h.invariant ?_ fun s a s' hs hok hst => hs.step ha hq hfit hok hst
  rintro t rfl
  exact hidle.outgoing

/-! ### The expiry is reached -/

/-- The steps of the request can lead from here to the expiry of the convert delay. -/
def ReachesExpiry (i : Nat) (q : MasterRequest) (s : Master) : Prop :=
  ∃ s₁ s₂, ReachableBy (· = s) step (fun _ a => a.OfRequest i q) s₁ ∧ s₁.step .timer = some s₂

theorem ReachesExpiry.cons {a : MasterAction} (hok : a.OfRequest i q) (hst : s.step a = some s')
    (h : ReachesExpiry i q s') : ReachesExpiry i q s := by
  obtain ⟨s₁, s₂, hrun, hexp⟩ := h
  exact ⟨s₁, s₂, hrun.cons hok hst, hexp⟩

theorem Control.step_timer (hc : Control .wait s) :
    s.step .timer = some s.xMBMasterRTUTimerExpired := if_pos hc.timer

/-- The transmitter gets to the end of the frame. -/
theorem sending_reachesExpiry (k : Nat) : ∀ {s : Master}, s.usMasterSndBufferCount.toNat = k →
    Underway i c n app s → Control .send s → Sending q s → InPlace q s → ReachesExpiry i q s := by
  induction k with
  | zero =>
    intro s hk hu hc hs hp
    have hcount : s.usMasterSndBufferCount = 0 := BitVec.eq_of_toNat_eq hk
    obtain ⟨-, hc', -⟩ := hu.transmit_done hc hs hp hcount
    exact .cons (a := .txReady) trivial hc.step_txReady ⟨_, _, .start rfl, hc'.step_timer⟩
  | succ k ih =>
    intro s hk hu hc hs hp
    have hcount : s.usMasterSndBufferCount ≠ 0 := by
      intro hzero
      rw [hzero] at hk
      cases hk
    obtain ⟨hu', hc', hs', hp', hpred⟩ := hu.transmit_byte hc hs hp hcount
    have hk' : s.xMBMasterRTUTransmitFSM.usMasterSndBufferCount.toNat = k := by
      rw [hpred, toNat_pred hcount, hk, Nat.add_sub_cancel]
    exact .cons (a := .txReady) trivial hc.step_txReady (ih hk' hu' hc' hs' hp')

/-- From every stage. -/
theorem Outgoing.reachesExpiry (h : Outgoing i q n app s) (ha : q.ucSndAddr = mbAddressBroadcast)
    (hq : q.illArg = false) (hfit : q.Fits) : ReachesExpiry i q s := by
  have hposted : ∀ {s}, Underway i (.waiting q) n app s → Control (.pend [.frameSent]) s →
      Loaded q s → ReachesExpiry i q s := by
    intro s hu hc hl
    obtain ⟨hpoll, hu', hc', hs', hp'⟩ := hu.pollFrameSent hc hl (ha ▸ Nat.zero_le _)
    exact .cons (a := .poll none) trivial (hpoll none) (sending_reachesExpiry _ rfl hu' hc' hs' hp')
  have hfilled : ∀ {s}, Underway i (.filled q) n app s → Control (.pend []) s → Loaded q s →
      ReachesExpiry i q s := by
    intro s hu hc hl
    obtain ⟨t, hst, hu', hc', hl'⟩ := hu.submit hc hl
    exact .cons (a := .submit i) rfl hst (hposted hu' hc' hl')
  have htaken : ∀ {s}, Underway i (.taken q) n app s → Control (.pend []) s →
      ReachesExpiry i q s := by
    intro s hu hc
    obtain ⟨t, hst, hu', hc', hl⟩ := hu.fill hc hfit
    exact .cons (a := .fill i) rfl hst (hfilled hu' hc' hl)
  cases h with
  | idle hu hc =>
    obtain ⟨t, hst, hu', hc'⟩ := hu.take hc hq
    exact .cons (a := .take i q) ⟨rfl, rfl⟩ hst (htaken hu' hc')
  | taken hu hc => exact htaken hu hc
  | filled hu hc hl => exact hfilled hu hc hl
  | posted hu hc hl => exact hposted hu hc hl
  | sending hu hc hs hp => exact sending_reachesExpiry _ rfl hu hc hs hp
  | sent hu hc hline hb hp => exact ⟨_, _, .start rfl, hc.step_timer⟩

/-! ## From the expiry to the return -/

/-- These events are pending, and nothing is sent. -/
def Pends (es : List MBMasterEventType) (s : Master) : Prop :=
  Control (.pend es) s ∨ Control (.rcv es) s

section Pends

variable {es : List MBMasterEventType} {e : MBMasterEventType}

theorem Pends.byte (h : Pends es s) (ucByte : UChar) :
    Pends es (s.xMBMasterRTUReceiveFSM ucByte) :=
  Or.inr (h.elim (fun hc => hc.byte hc.rx ucByte) fun hc => hc.byte hc.rx ucByte)

theorem Pends.get (h : Pends es s) : Pends [] s.drained := h.imp Control.get Control.get

theorem Pends.executes (h : Pends es s) (hex : Executes s s') : Pends es s' :=
  h.imp (·.executes hex) (·.executes hex)

theorem Pends.setCall (h : Pends es s) (j : Nat) (c : CallState) : Pends es (s.setCall j c) :=
  h.imp (·.setCall j c) (·.setCall j c)

theorem Pends.fail (h : Pends es s) (errorType : MBMasterErrorEventType) :
    Pends (es ++ [.errorProcess]) (s.fail errorType) :=
  h.imp (·.fail errorType) fun hc =>
    ⟨hc.state, hc.events_post _, hc.receiver, hc.snd, hc.rx, hc.tx, hc.timer⟩

theorem Pends.not_txReady (h : Pends es s) : s.step .txReady = none :=
  h.elim (·.not_txReady rfl) (·.not_txReady rfl)

/-- A poll that finds one event handles it. -/
theorem Pends.step_poll (h : Pends [e] s) (junk : Option MBMasterEventType) :
    s.step (.poll junk) = s.drained.handle (some e) := by
  have hpoll : ∀ {p : Phase}, Control p s → p.events = [e] →
      s.eMBMasterPoll junk = s.drained.handle (some e) := by
    intro p hc hp
    have hne : p.events ≠ [] := by
      rw [hp]
      exact List.cons_ne_nil e []
    rw [eMBMasterPoll_eq (Or.inr hc.state) (hc.returns_iff.mpr hne), hc.polled_one hp]
  exact h.elim (fun hc => hpoll hc rfl) fun hc => hpoll hc rfl

end Pends

/-- The execution of the request is due. -/
structure Due (i : Nat) (q : MasterRequest) (n : Nat) (app : MasterApp) (s : Master) : Prop where
  underway : Underway i (.waiting q) n app s
  pends : Pends [.execute] s
  broadcast : s.xFrameIsBroadcast = true
  inPlace : InPlace q s

/-- The request was refused for every slave. -/
structure Failed (i : Nat) (q : MasterRequest) (n : Nat) (app : MasterApp) (s : Master) :
    Prop where
  underway : Underway i (.waiting q) n s.app s
  pends : Pends [.errorProcess] s
  error : s.eMBMasterCurErrorType = .executeFunction
  ends : q.call.EndsWith app .exeFun s.app

/-- The result is there. -/
structure Completed (i : Nat) (q : MasterRequest) (n : Nat) (app : MasterApp)
    (r : MBMasterResult) (s : Master) : Prop where
  call : s.calls i = .waiting q
  res : s.xMasterRunRes = n + 1
  result : resultChannel.Only s.xMasterOsEvent r
  ends : q.call.EndsWith app r.code s.app

/-- The call has returned. -/
structure Over (i : Nat) (q : MasterRequest) (n : Nat) (app : MasterApp)
    (code : MBMasterReqErrCode) (s : Master) : Prop where
  call : s.calls i = .returned q code
  res : s.xMasterRunRes = n + 1
  ends : q.call.EndsWith app code s.app

/-- The stages of a request after the convert delay has expired. -/
inductive Closing (i : Nat) (q : MasterRequest) (n : Nat) (app : MasterApp) (s : Master) :
    Prop where
  | due : Due i q n app s → Closing i q n app s
  | failed : Failed i q n app s → Closing i q n app s
  | completed {r : MBMasterResult} : Completed i q n app r s → Closing i q n app s
  | ended {code : MBMasterReqErrCode} : Over i q n app code s → Closing i q n app s

/-- The expiry makes the execution due. -/
theorem Underway.expire (hu : Underway i (.waiting q) n app s) (hc : Control .wait s)
    (hb : s.xFrameIsBroadcast = true) (hp : InPlace q s) :
    Due i q n app s.xMBMasterRTUTimerExpired ∧ s.xMBMasterRTUTimerExpired.log = s.log ∧
      Control (.pend [.execute]) s.xMBMasterRTUTimerExpired := by
  have hc' := hc.expire_broadcast hb
  rw [timerExpired_broadcast hc.receiver.1 hc.snd hb (hc.mode hb)] at hc' ⊢
  refine ⟨⟨⟨hu.call, hu.res, hu.app, fun r => mt (results_post s _ r).mp (hu.results r)⟩,
    Or.inl hc', hb, ⟨hp.pdu, hp.len, hp.frame⟩⟩, rfl, hc'⟩

/-! ### What a step of the port leaves -/

theorem Underway.port (hu : Underway i c n app s) (hl : PortStep s s') :
    Underway i c n app s' :=
  ⟨hl.keeps.calls ▸ hu.call, hl.keeps.res.trans hu.res, hl.app.trans hu.app,
    fun r => mt (hl.results r).mp (hu.results r)⟩

theorem Completed.port {r : MBMasterResult} (h : Completed i q n app r s) (hl : PortStep s s') :
    Completed i q n app r s' :=
  ⟨hl.keeps.calls ▸ h.call, hl.keeps.res.trans h.res, fun r' => (hl.results r').trans (h.result r'),
    hl.app ▸ h.ends⟩

theorem Over.port {code : MBMasterReqErrCode} (h : Over i q n app code s) (hl : PortStep s s') :
    Over i q n app code s' :=
  ⟨hl.keeps.calls ▸ h.call, hl.keeps.res.trans h.res, hl.app ▸ h.ends⟩

/-! ### The polls and the return -/

/-- The execution that is due. -/
theorem Due.executes (h : Due i q n app s) :
    (q.call.BroadcastWrite → s.drained.executeFrame.eException = q.call.broadcastStatus.code ∧
      q.call.Broadcasts app s.drained.executeFrame.app) ∧
    (q.call.BroadcastRead → s.drained.executeFrame.app = app) := by
  have hplace : InPlace q s.drained := ⟨h.inPlace.pdu, h.inPlace.len, h.inPlace.frame⟩
  have happ : s.drained.app = app := h.underway.app
  rw [← happ]
  exact ⟨fun hw => executeFrame_broadcastWrite hw hplace.answering h.broadcast,
    fun hr => executeFrame_broadcastRead hr hplace.answering h.broadcast⟩

theorem broadcastStatus_code (c : MasterCall) : c.broadcastStatus.code = 0 ↔ c.InMap := by
  rw [MBException.code_eq_zero, MasterCall.broadcastStatus]
  by_cases hin : c.InMap
  · rw [if_pos hin]
    exact iff_of_true rfl hin
  · rw [if_neg hin]
    exact iff_of_false (fun h => by cases h) hin

/-- The callback that posts the result, and the release. -/
theorem Underway.complete {r : MBMasterResult} (hu : Underway i (.waiting q) n s.app s)
    (hends : q.call.EndsWith app r.code s.app) : Completed i q n app r (s.complete r) where
  call := hu.call
  res := congrArg (· + 1) hu.res
  result := resultChannel.only_post (fun ⟨r', hr'⟩ => hu.results r' hr') r
  ends := hends

/-- The poll that executes the request. -/
theorem Due.poll (h : Due i q n app s) :
    ∃ t, (∀ junk, s.step (.poll junk) = some t) ∧
      (Failed i q n app t ∨ Completed i q n app .processSucess t) := by
  have hnull : s.drained.ucMBFrame ≠ .null := by
    rw [show s.drained.ucMBFrame = .sndBuf from h.inPlace.frame]
    nofun
  refine ⟨s.drained.pollExecute, fun junk => (h.pends.step_poll junk).trans (if_neg hnull), ?_⟩
  obtain ⟨hwrite, hread⟩ := h.executes
  obtain ⟨m, hm⟩ := executeFrame_moves s
  have hu : Underway i (.waiting q) n s.drained.executeFrame.app s.drained.executeFrame :=
    ⟨hm.keeps.calls ▸ h.underway.call, hm.keeps.res.trans h.underway.res, rfl,
      fun r => mt (hm.results r).mp (h.underway.results r)⟩
  rcases pollExecute_cases s.drained with ⟨hex, heq⟩ | ⟨hex, heq⟩
  · rw [heq]
    refine Or.inl ⟨⟨hu.call, hu.res, rfl, fun r => mt (results_post _ _ r).mp (hu.results r)⟩,
      (h.pends.get.executes (executeFrame_executes _)).fail _, rfl, fun hw => ?_, hread⟩
    obtain ⟨hcode, hmirror⟩ := hwrite hw
    have hout : ¬ q.call.InMap := fun hin => hex (hcode.trans ((broadcastStatus_code _).mpr hin))
    exact ⟨(if_neg hout).symm, hmirror⟩
  · rw [heq]
    refine Or.inr (hu.complete ⟨fun hw => ?_, hread⟩)
    obtain ⟨hcode, hmirror⟩ := hwrite hw
    have hin : q.call.InMap := (broadcastStatus_code _).mp (hcode.symm.trans hex)
    exact ⟨(if_pos hin).symm, hmirror⟩

/-- The poll that ends a request that was refused. -/
theorem Failed.poll (h : Failed i q n app s) :
    ∃ t, (∀ junk, s.step (.poll junk) = some t) ∧
      Completed i q n app .errorExecuteFunction t := by
  let t : Master := { s.drained with ucMBFrame := .sndBuf }
  have hu : Underway i (.waiting q) n t.app t :=
    ⟨h.underway.call, h.underway.res, rfl,
      fun r => mt (results_drained s r).mp (h.underway.results r)⟩
  refine ⟨t.complete .errorExecuteFunction, fun junk => ?_, hu.complete h.ends⟩
  have hresult : t.eMBMasterCurErrorType.result = .errorExecuteFunction :=
    congrArg MBMasterErrorEventType.result h.error
  rw [h.pends.step_poll junk, ← hresult]
  rfl

/-- The call takes the result. -/
theorem Completed.finish {r : MBMasterResult} (h : Completed i q n app r s) :
    ∃ t, s.step (.finish i) = some t ∧ Over i q n app r.code t := by
  let flags := (eMBMasterWaitRequestFinish s.xMasterOsEvent).2
  have hcode := eMBMasterWaitRequestFinish_of_only h.result
  refine ⟨({ s with xMasterOsEvent := flags }.record (.returned i r.code)).setCall i
    (.returned q r.code), ?_, setCall_same .., h.res, h.ends⟩
  show s.finish i = _
  unfold Master.finish
  rw [h.call]
  dsimp only
  rw [if_pos (Only.returns h.result), hcode]

/-! ### Whatever the order of the steps -/

/-- The call still waits for its result. -/
theorem Underway.unanswered (hu : Underway i (.waiting q) n app s) : s.Unanswered i :=
  ⟨hu.call ▸ trivial, hu.results⟩

/-- A byte. -/
theorem Closing.byte (h : Closing i q n app s) (ucByte : UChar) :
    Closing i q n app (s.xMBMasterRTUReceiveFSM ucByte) := by
  have hl := portStep_receiveFSM s ucByte
  cases h with
  | due hd =>
    have hpends := hd.pends.byte ucByte
    obtain ⟨_, _, _, _, heq⟩ := receiveFSM_eq s ucByte
    rw [heq] at hl hpends ⊢
    exact .due ⟨hd.underway.port hl, hpends, hd.broadcast,
      hd.inPlace.pdu, hd.inPlace.len, hd.inPlace.frame⟩
  | failed hf =>
    have hpends := hf.pends.byte ucByte
    obtain ⟨_, _, _, _, heq⟩ := receiveFSM_eq s ucByte
    rw [heq] at hl hpends ⊢
    exact .failed ⟨hf.underway.port hl, hpends, hf.error, hf.ends⟩
  | completed hc => exact .completed (hc.port hl)
  | ended ho => exact .ended (ho.port hl)

/-- Another call moves on. -/
theorem Closing.setCall (h : Closing i q n app s) {j : Nat} (hj : j ≠ i) (c : CallState) :
    Closing i q n app (s.setCall j c) := by
  have hcall := setCall_other s c hj.symm
  cases h with
  | due hd =>
    exact .due ⟨hd.underway.setCall hj c, hd.pends.setCall j c, hd.broadcast,
      hd.inPlace.pdu, hd.inPlace.len, hd.inPlace.frame⟩
  | failed hf =>
    exact .failed ⟨hf.underway.setCall hj c, hf.pends.setCall j c, hf.error, hf.ends⟩
  | completed hc => exact .completed ⟨hcall.trans hc.call, hc.res, hc.result, hc.ends⟩
  | ended ho => exact .ended ⟨hcall.trans ho.call, ho.res, ho.ends⟩

/-- The call has posted its request. -/
theorem Closing.posted (h : Closing i q n app s) : (s.calls i).Posted := by
  cases h with
  | due hd => exact hd.underway.call ▸ trivial
  | failed hf => exact hf.underway.call ▸ trivial
  | completed hc => exact hc.call ▸ trivial
  | ended ho => exact ho.call ▸ trivial

/-- A frame that ends once the result is there. -/
theorem Closing.port (h : Closing i q n app s) (hl : PortStep s s') (hno : ¬ s.Unanswered i) :
    Closing i q n app s' := by
  cases h with
  | due hd => exact absurd hd.underway.unanswered hno
  | failed hf => exact absurd hf.underway.unanswered hno
  | completed hc => exact .completed (hc.port hl)
  | ended ho => exact .ended (ho.port hl)

theorem Closing.txReady (h : Closing i q n app s) (hst : s.step .txReady = some s') :
    Closing i q n app s' := by
  have hl := portStep_txReady hst
  cases h with
  | due hd => cases hd.pends.not_txReady.symm.trans hst
  | failed hf => cases hf.pends.not_txReady.symm.trans hst
  | completed hc => exact .completed (hc.port hl)
  | ended ho => exact .ended (ho.port hl)

/-- A poll while the call waits. -/
theorem Closing.poll (h : Closing i q n app s) (hun : s.Unanswered i)
    (hst : s.step (.poll junk) = some s') : Closing i q n app s' := by
  obtain ⟨hwaits, hnone⟩ := hun
  cases h with
  | due hd =>
    obtain ⟨t, hpoll, ht⟩ := hd.poll
    cases (hpoll junk).symm.trans hst
    exact ht.elim .failed .completed
  | failed hf =>
    obtain ⟨t, hpoll, ht⟩ := hf.poll
    cases (hpoll junk).symm.trans hst
    exact .completed ht
  | completed hc => exact absurd ((hc.result _).mpr rfl) (hnone _)
  | ended ho =>
    rw [ho.call] at hwaits
    exact hwaits.elim

/-- The call returns when the result is there. -/
theorem Closing.finish (h : Closing i q n app s) (hst : s.step (.finish i) = some s') :
    Closing i q n app s' := by
  obtain ⟨q', -, -, hcall, ⟨r', hr'⟩, -⟩ := finish_cases hst
  cases h with
  | due hd => exact absurd hr' (hd.underway.results r')
  | failed hf => exact absurd hr' (hf.underway.results r')
  | completed hc =>
    obtain ⟨t, heq, ht⟩ := hc.finish
    cases heq.symm.trans hst
    exact .ended ht
  | ended ho => cases hcall.symm.trans ho.call

/-- Every undisturbed step leads to a stage. -/
theorem Closing.step (h : Closing i q n app s) {a : MasterAction} (hok : s.Undisturbed i q a)
    (hst : s.step a = some s') : Closing i q n app s' := by
  cases a with
  | byte ucByte =>
    obtain ⟨-, rfl⟩ := byte_cases hst
    exact h.byte ucByte
  | timer => exact h.port (portStep_timer hst) hok
  | txReady => exact h.txReady hst
  | poll junk => exact h.poll hok hst
  | refuse j q' =>
    obtain ⟨code, -, rfl, -⟩ := refuse_cases hst
    exact h.setCall hok _
  | take j q' =>
    obtain ⟨rfl, rfl⟩ := hok
    have hposted := h.posted
    rw [(take_cases hst).1] at hposted
    exact hposted.elim
  | fill j =>
    obtain rfl : j = i := hok
    obtain ⟨q', hcall, -⟩ := fill_cases hst
    have hposted := h.posted
    rw [hcall] at hposted
    exact hposted.elim
  | submit j =>
    obtain rfl : j = i := hok
    obtain ⟨q', hcall, -⟩ := submit_cases hst
    have hposted := h.posted
    rw [hcall] at hposted
    exact hposted.elim
  | finish j =>
    obtain rfl : j = i := hok
    exact h.finish hst

/-- The call comes to its return from every stage. -/
theorem Closing.returns (h : Closing i q n app s) :
    ∃ t code, ReachableBy (· = s) Master.step (Undisturbed i q) t ∧
      t.calls i = .returned q code := by
  have hcompleted : ∀ {s r}, Completed i q n app r s →
      ∃ t code, ReachableBy (· = s) Master.step (Undisturbed i q) t ∧
        t.calls i = .returned q code := by
    intro s r hc
    obtain ⟨t, hst, ht⟩ := hc.finish
    exact ⟨t, _, .next (a := .finish i) (.start rfl) rfl hst, ht.call⟩
  have hfailed : ∀ {s}, Failed i q n app s →
      ∃ t code, ReachableBy (· = s) Master.step (Undisturbed i q) t ∧
        t.calls i = .returned q code := by
    intro s hf
    obtain ⟨s', hst, hc⟩ := hf.poll
    obtain ⟨t, code, hrun, ht⟩ := hcompleted hc
    exact ⟨t, code, hrun.cons (a := .poll none) hf.underway.unanswered (hst none), ht⟩
  cases h with
  | due hd =>
    obtain ⟨s', hst, hfc⟩ := hd.poll
    obtain ⟨t, code, hrun, ht⟩ := hfc.elim hfailed hcompleted
    exact ⟨t, code, hrun.cons (a := .poll none) hd.underway.unanswered (hst none), ht⟩
  | failed hf => exact hfailed hf
  | completed hc => exact hcompleted hc
  | ended ho => exact ⟨s, _, .start rfl, ho.call⟩

/-! ## Whole runs -/

/-- The first byte of the frame of a broadcast. -/
theorem frame_head (q : MasterRequest) : q.frame.head? = some q.ucSndAddr := rfl

/-- An expiry finds the request sent. -/
theorem Outgoing.expire (h : Outgoing i q n app s) (hst : s.step .timer = some s') :
    s' = s.xMBMasterRTUTimerExpired ∧ Underway i (.waiting q) n app s ∧ Control .wait s ∧
      s.line = q.frame ∧ s.xFrameIsBroadcast = decide (q.ucSndAddr = mbAddressBroadcast) ∧
      InPlace q s := by
  have hoff : ∀ {p : Phase}, Control p s → p.timer = false → s.step .timer = none := by
    intro p hc hp
    rw [Master.step, hc.timer, hp]
    rfl
  cases h with
  | idle hu hc => cases (hoff hc rfl).symm.trans hst
  | taken hu hc => cases (hoff hc rfl).symm.trans hst
  | filled hu hc hl => cases (hoff hc rfl).symm.trans hst
  | posted hu hc hl => cases (hoff hc rfl).symm.trans hst
  | sending hu hc hs hp => cases (hoff hc rfl).symm.trans hst
  | sent hu hc hline hb hp =>
    cases hc.step_timer.symm.trans hst
    exact ⟨rfl, hu, hc, hline, hb, hp⟩

/-- A broadcast request that is left undisturbed updates every row, or none, and returns. -/
theorem delivered_of_undisturbed {s₀ s₁ s₂ s' : Master}
    (h : BroadcastRun (Undisturbed i q) i q s₀ s₁ s₂ s') : Delivered i q s₀ s₁ s₂ s' := by
  obtain ⟨hq, hfit⟩ := broadcast_admitted h.broadcast h.request
  have hout := outgoing_of_run h.idle h.broadcast hq hfit h.before
  obtain ⟨rfl, hu, hc, hline, hb, hp⟩ := hout.expire h.expiry
  have hbroadcast : s₁.xFrameIsBroadcast = true := hb.trans (decide_eq_true h.broadcast)
  obtain ⟨hdue, hlog, hexecute⟩ := hu.expire hc hbroadcast hp
  have hclosing : Closing i q (s₀.xMasterRunRes - 1) s₀.app s' := by
    refine h.after.invariant ?_ fun s a s' hs hok hst => hs.step hok hst
    rintro t rfl
    exact .due hdue
  have hfree : s₀.xMasterRunRes - 1 + 1 = s₀.xMasterRunRes := Nat.sub_add_cancel h.idle.free
  exact
    { line := ⟨hline, by rw [hline, frame_head, h.broadcast]⟩
      quiet := fun e he => List.not_mem_nil ((hc.events e).mp he)
      execute := fun e => (hexecute.events e).trans List.mem_singleton
      noError := hlog
      mirror := hdue.underway.app
      taken := by rw [hdue.underway.res, hfree]
      released := by
        cases hclosing with
        | due hd => exact Or.inl (by rw [hd.underway.res, hfree])
        | failed hf => exact Or.inl (by rw [hf.underway.res, hfree])
        | completed hc => exact Or.inr (hc.res.trans hfree)
        | ended ho => exact Or.inr (ho.res.trans hfree)
      returned := fun code hcode => by
        cases hclosing with
        | due hd => cases hd.underway.call.symm.trans hcode
        | failed hf => cases hf.underway.call.symm.trans hcode
        | completed hc => cases hc.call.symm.trans hcode
        | ended ho =>
          cases ho.call.symm.trans hcode
          exact ⟨ho.res.trans hfree, ho.ends⟩
      read := fun hr => by
        cases hclosing with
        | due hd => exact hd.underway.app
        | failed hf => exact hf.ends.2 hr
        | completed hc => exact hc.ends.2 hr
        | ended ho => exact ho.ends.2 hr
      returns := hclosing.returns }

/-- A broadcast request on an idle master comes to the expiry of its convert delay, whatever the
order of the steps up to there, and if it is left undisturbed then it updates every row, or none,
and returns. -/
theorem broadcast_updates_rows {s₀ : Master} (hidle : IdleFor i s₀)
    (ha : q.ucSndAddr = mbAddressBroadcast)
    (hq : q.call.BroadcastWrite ∨ q.call.BroadcastRead) :
    (∀ s, ReachableBy (· = s₀) step (fun _ a => a.OfRequest i q) s → ReachesExpiry i q s) ∧
      ∀ s₁ s₂ s', BroadcastRun (Undisturbed i q) i q s₀ s₁ s₂ s' → Delivered i q s₀ s₁ s₂ s' := by
  obtain ⟨hadmitted, hfit⟩ := broadcast_admitted ha hq
  refine ⟨fun s hs => ?_, fun s₁ s₂ s' h => delivered_of_undisturbed h⟩
  exact (outgoing_of_run hidle ha hadmitted hfit hs).reachesExpiry ha hadmitted hfit

/-- A write of one register of all slaves. -/
def writeAll : MasterRequest := ⟨mbAddressBroadcast, .writeHoldingRegister 2 7⟩

theorem idleFor_established (app : MasterApp) (i : Nat) : IdleFor i (established app) where
  control := control_established app
  results r := by
    have hnone : ¬ resultChannel.Pending 0 r := by cases r <;> decide
    exact hnone
  free := Nat.zero_lt_one
  call := rfl

/-- The write of one register of all slaves that was just established. -/
theorem broadcast_updates_rows_write :
    ∃ s₁ s₂ s', BroadcastRun (Undisturbed 0 writeAll) 0 writeAll (established .initial) s₁ s₂ s' ∧
      s'.calls 0 = .returned writeAll .noErr ∧ (s'.app.row 16).holdings.get 2 = 7 := by
  have hidle := idleFor_established .initial 0
  obtain ⟨hexpires, hdelivers⟩ :=
    broadcast_updates_rows (q := writeAll) hidle rfl (Or.inl trivial)
  obtain ⟨s₁, s₂, hrun, hexp⟩ := hexpires _ (.start rfl)
  have hat : ∀ s', ReachableBy (· = s₂) step (Undisturbed 0 writeAll) s' →
      BroadcastRun (Undisturbed 0 writeAll) 0 writeAll (established .initial) s₁ s₂ s' :=
    fun s' hs' => ⟨hidle, rfl, Or.inl trivial, hrun, hexp, hs'⟩
  obtain ⟨s', code, hs', hcode⟩ := (hdelivers s₁ s₂ s₂ (hat s₂ (.start rfl))).returns
  obtain ⟨-, hends, -⟩ := (hdelivers s₁ s₂ s' (hat s' hs')).returned code hcode
  have hin : writeAll.call.InMap := by decide
  obtain ⟨hnoErr, hrows⟩ := hends trivial
  rw [if_pos hin] at hnoErr
  rw [MasterCall.Broadcasts, if_pos hin] at hrows
  have hexec := hrows 16 (by decide) (by decide)
  have hw : writeAll.call.BroadcastWrite := trivial
  rw [hw.exec hin] at hexec
  refine ⟨s₁, s₂, s', hat s' hs', hnoErr ▸ hcode, ?_⟩
  rw [← (Prod.mk.inj (Option.some.inj hexec)).2]
  decide

/-! ## The condition is needed -/

/-- The request and the code of a write of one register that has returned. -/
def writeAnswer : CallState → Option (UChar × UShort × UShort × MBMasterReqErrCode)
  | .returned ⟨k, .writeHoldingRegister a v⟩ code => some (k, a, v, code)
  | _ => none

theorem writeAnswer_eq_some {k : UChar} {a v : UShort} {code : MBMasterReqErrCode}
    (h : writeAnswer c = some (k, a, v, code)) :
    c = .returned ⟨k, .writeHoldingRegister a v⟩ code := by
  unfold writeAnswer at h
  split at h
  · cases h
    rfl
  · cases h

/-- The request is made and its frame goes out. -/
def sendAll : List MasterAction :=
  [.take 0 writeAll, .fill 0, .submit 0, .poll none] ++ List.replicate 9 .txReady

/-- Two frames of one byte of noise, each of them polled. -/
def strayFrames : List MasterAction :=
  [.byte 0, .timer, .poll none, .byte 0, .timer, .poll none, .poll none, .finish 0]

/-- The frame that ends first takes `EV_MASTER_EXECUTE` away, and the second one completes the
request with an error.  No row is written. -/
theorem broadcast_disturbed :
    ¬ ∀ i q s₀ s₁ s₂ s', BroadcastRun (fun _ a => a.Alone i q) i q s₀ s₁ s₂ s' →
      Delivered i q s₀ s₁ s₂ s' := by
  intro h
  have hrun : ((run step (established .initial) ((sendAll ++ [.timer]) ++ strayFrames)).map
      fun s => writeAnswer (s.calls 0)) = some (some (0, 2, 7, .revData)) := by decide +kernel
  obtain ⟨s', hs', hanswer⟩ := Option.map_eq_some_iff.mp hrun
  obtain ⟨s₂, hs₂, hafter⟩ := run_append_eq_some hs'
  obtain ⟨s₁, hbefore, hexp⟩ := run_append_eq_some hs₂
  have hexp : s₁.step .timer = some s₂ := by
    rw [run_cons] at hexp
    obtain ⟨t, ht, heq⟩ := Option.bind_eq_some_iff.mp hexp
    cases heq
    exact ht
  have hrequest : ∀ a ∈ sendAll, a.OfRequest 0 writeAll := by
    simp [sendAll, MasterAction.OfRequest]
  have halone : ∀ a ∈ strayFrames, a.Alone 0 writeAll := by
    simp [strayFrames, MasterAction.Alone, MasterAction.OfRequest]
  have hdelivered := h 0 writeAll _ s₁ s₂ s'
    { idle := idleFor_established .initial 0
      broadcast := rfl
      request := Or.inl trivial
      before := .of_run (.start rfl) (.of_forall _ hrequest) hbefore
      expiry := hexp
      after := .of_run (.start rfl) (.of_forall _ halone) hafter }
  obtain ⟨-, hends, -⟩ := hdelivered.returned .revData (writeAnswer_eq_some hanswer)
  have hcode := (hends trivial).1
  rw [if_pos (show writeAll.call.InMap by decide)] at hcode
  cases hcode

end Master

end FreeModbus
