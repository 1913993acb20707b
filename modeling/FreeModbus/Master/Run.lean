import FreeModbus.Lib.Transition
import FreeModbus.Master.Rtu

/-!
# Runs of the master

The parties are the serial interrupt (`byte`), the timer, the thread that feeds
the transmitter (`txReady`), the thread that calls `eMBMasterPoll` (`poll`), and
any number of threads that call request functions.  A call is known by a number
of its own.  It takes the run resource, writes its request into the send buffer,
posts `EV_MASTER_FRAME_SENT` and waits for a result.

Each action is one atomic step, enabled where the port or the kernel can take it:
a byte where the receiver is enabled, an expiry where the timer runs, a turn of
the transmitter where it was started, a take where the semaphore is not zero, the
end of a wait where a result is pending.  The local `eEvent` of `eMBMasterPoll`
has no initial value, and the action `poll` carries the event that happens to be
there.
-/

namespace FreeModbus

open ByteMemory EventFlags EventFlags.Channel Transition

/-- The arguments that a request function refuses with `MB_MRE_ILL_ARG`. -/
def MasterRequest.illArg (q : MasterRequest) : Bool :=
  decide (mbMasterTotalSlaveNum < q.ucSndAddr.toNat) || q.call.req.illArg

/-- The call has taken the run resource and has not posted its request yet. -/
def CallState.Preparing : CallState → Prop
  | .taken _ => True
  | .filled _ => True
  | _ => False

/-- The call has posted its request, or returned. -/
def CallState.Posted : CallState → Prop
  | .waiting _ => True
  | .returned _ _ => True
  | _ => False

instance : ∀ c : CallState, Decidable c.Posted
  | .waiting _ => isTrue trivial
  | .returned _ _ => isTrue trivial
  | .idle => isFalse id
  | .taken _ => isFalse id
  | .filled _ => isFalse id

/-- The call waits for the outcome of a unicast request. -/
def CallState.WaitsUnicast : CallState → Prop
  | .waiting q => q.ucSndAddr ≠ mbAddressBroadcast
  | _ => False

instance : ∀ c : CallState, Decidable c.WaitsUnicast
  | .waiting _ => by unfold CallState.WaitsUnicast; infer_instance
  | .idle => isFalse id
  | .taken _ => isFalse id
  | .filled _ => isFalse id
  | .returned _ _ => isFalse id

namespace Master

/-! ## The steps of a call -/

/-- The call is now at `c`. -/
def setCall (s : Master) (i : Nat) (c : CallState) : Master :=
  { s with calls := Function.update s.calls i c }

/-- A call returns without the run resource: for its arguments, or because
`xMBMasterRunResTake` timed out. -/
def refuse (s : Master) (i : Nat) (q : MasterRequest) : Option Master :=
  match s.calls i with
  | .idle =>
      if q.illArg then some (s.setCall i (.returned q .illArg))
      else if s.xMasterRunRes = 0 then some (s.setCall i (.returned q .masterBusy))
      else none
  | _ => none

/-- A call takes the run resource. -/
def take (s : Master) (i : Nat) (q : MasterRequest) : Option Master :=
  match s.calls i with
  | .idle =>
      if q.illArg = false ∧ 0 < s.xMasterRunRes then
        some { s.setCall i (.taken q) with
          xMasterRunRes := s.xMasterRunRes - 1
          holders := s.holders ++ [i] }
      else none
  | _ => none

/-- What a request function writes: the destination address, the PDU and its length. -/
def fillSndBuf (s : Master) (q : MasterRequest) : Master :=
  { s with
    ucMBMasterDestAddress := q.ucSndAddr
    ucMasterRTUSndBuf := s.ucMasterRTUSndBuf.write mbSerPduPduOff q.call.req.pdu
    usMasterSendPDULength := q.call.req.usLength }

/-- A call writes its request. -/
def fill (s : Master) (i : Nat) : Option Master :=
  match s.calls i with
  | .taken q => some ((s.fillSndBuf q).setCall i (.filled q))
  | _ => none

/-- A call posts `EV_MASTER_FRAME_SENT` and begins to wait. -/
def submit (s : Master) (i : Nat) : Option Master :=
  match s.calls i with
  | .filled q => some (((s.post .frameSent).record (.posted i)).setCall i (.waiting q))
  | _ => none

/-- The wait of a call ends and the call returns. -/
def finish (s : Master) (i : Nat) : Option Master :=
  match s.calls i with
  | .waiting q =>
      if resultChannel.Returns s.xMasterOsEvent then
        let (eErrStatus, flags) := eMBMasterWaitRequestFinish s.xMasterOsEvent
        let s₁ : Master := { s with xMasterOsEvent := flags }
        some ((s₁.record (.returned i eErrStatus)).setCall i (.returned q eErrStatus))
      else none
  | _ => none

end Master

/-! ## Steps -/

/-- What can happen to the master. -/
inductive MasterAction where
  | byte (ucByte : UChar)
  | timer
  | txReady
  | poll (junk : Option MBMasterEventType)
  | refuse (call : Nat) (q : MasterRequest)
  | take (call : Nat) (q : MasterRequest)
  | fill (call : Nat)
  | submit (call : Nat)
  | finish (call : Nat)

namespace Master

/-- One step of the master, where the action is enabled. -/
def step (s : Master) : MasterAction → Option Master
  | .byte ucByte => if s.xRxEnable then some (s.xMBMasterRTUReceiveFSM ucByte) else none
  | .timer => if s.xTimer then some s.xMBMasterRTUTimerExpired else none
  | .txReady => if s.xTxEnable then some s.xMBMasterRTUTransmitFSM else none
  | .poll junk => s.eMBMasterPoll junk
  | .refuse i q => s.refuse i q
  | .take i q => s.take i q
  | .fill i => s.fill i
  | .submit i => s.submit i
  | .finish i => s.finish i

/-- A started master whose bus was silent for t3.5 and which has polled `EV_MASTER_READY`. -/
inductive Established : Master → Prop where
  | intro {s s₁ s₂ : Master} {junk : Option MBMasterEventType} :
      Started s → s.step .timer = some s₁ → s₁.step (.poll junk) = some s₂ → Established s₂

/-- An established master that has not been called is idle, with the receiver on and the run
resource free. -/
def established (app : MasterApp) : Master :=
  { static app with
    eMBState := .established
    eRcvState := .idle
    xRxEnable := true
    xMasterRunRes := 1 }

/-! ## Polls -/

section Poll

variable {s s' : Master} {junk : Option MBMasterEventType} {e : MBMasterEventType}

/-- A poll that finds one event handles it. -/
theorem polled_of_only (h : masterChannel.Only s.xMasterOsEvent e)
    (junk : Option MBMasterEventType) : s.polled junk = some e := by
  have hget : (xMBMasterPortEventGet s.xMasterOsEvent).1 = some e := masterChannel.get_of_only h
  rw [polled, hget, Option.some_or]

/-- A poll of an enabled master that does not wait. -/
theorem eMBMasterPoll_eq (hst : s.eMBState = .enabled ∨ s.eMBState = .established)
    (hret : masterChannel.Returns s.xMasterOsEvent) (junk : Option MBMasterEventType) :
    s.eMBMasterPoll junk = s.drained.handle (s.polled junk) := by
  have hon : ¬ (s.eMBState ≠ .enabled ∧ s.eMBState ≠ .established) :=
    fun hoff => hst.elim hoff.1 hoff.2
  rw [eMBMasterPoll, if_neg hon, if_pos hret]

/-- A poll does nothing while the stack is off, and handles what it takes from the queue
otherwise. -/
theorem poll_cases (h : s.eMBMasterPoll junk = some s') :
    (¬ (s.eMBState = .enabled ∨ s.eMBState = .established) ∧ s' = s) ∨
      ((s.eMBState = .enabled ∨ s.eMBState = .established) ∧
        masterChannel.Returns s.xMasterOsEvent ∧
        s.drained.handle (s.polled junk) = some s') := by
  unfold eMBMasterPoll at h
  split at h
  · rename_i hoff
    exact Or.inl ⟨fun hst => hst.elim hoff.1 hoff.2, (Option.some.inj h).symm⟩
  · rename_i hon
    have hst : s.eMBState = .enabled ∨ s.eMBState = .established :=
      not_not.mp fun hno => hon (not_or.mp hno)
    exact Or.inr ⟨hst, Option.ite_none_right_eq_some.mp h⟩

theorem eMBMasterPoll_cases (hst : s.eMBState = .enabled ∨ s.eMBState = .established)
    (h : s.eMBMasterPoll junk = some s') :
    masterChannel.Returns s.xMasterOsEvent ∧ s.drained.handle (s.polled junk) = some s' :=
  ((poll_cases h).resolve_left fun hoff => hoff.1 hst).2

end Poll

/-! ## After the start -/

/-- The first poll after the first expiry ends the start sequence. -/
theorem poll_ready (app : MasterApp) (junk : Option MBMasterEventType) :
    ((static app).eMBMasterInit.eMBMasterEnable.2.xMBMasterRTUTimerExpired).eMBMasterPoll junk =
      some (established app) := by
  have hready : masterChannel.Only (masterChannel.post 0 .ready) .ready :=
    masterChannel.only_post (by decide) _
  have hleft : (xMBMasterPortEventGet (xMBMasterPortEventPost 0 .ready)).2 = 0 := by decide
  rw [eMBMasterPoll_eq (Or.inl rfl) (Only.returns hready), polled_of_only hready junk]
  show some { established app with
    xMasterOsEvent := (xMBMasterPortEventGet (xMBMasterPortEventPost 0 .ready)).2 } = _
  rw [hleft]
  rfl

theorem Established.eq {s : Master} (h : Established s) : ∃ app, s = established app := by
  obtain ⟨⟨app, rfl⟩, ht, hp⟩ := h
  cases ht
  exact ⟨app, Option.some.inj (hp.symm.trans (poll_ready app _))⟩

/-- The start sequence gets there, for every mirror. -/
theorem established_established (app : MasterApp) : Established (established app) :=
  .intro ⟨app, rfl⟩ rfl (poll_ready app none)

/-! ## What a call does, step by step -/

variable {s s' : Master} {i : Nat} {q : MasterRequest}

@[simp] theorem setCall_same (s : Master) (i : Nat) (c : CallState) :
    (s.setCall i c).calls i = c := Function.update_self ..

theorem setCall_other (s : Master) {i j : Nat} (c : CallState) (h : j ≠ i) :
    (s.setCall i c).calls j = s.calls j := Function.update_of_ne h ..

theorem byte_cases {ucByte : UChar} (h : s.step (.byte ucByte) = some s') :
    s.xRxEnable = true ∧ s' = s.xMBMasterRTUReceiveFSM ucByte := by
  obtain ⟨hrx, heq⟩ := Option.ite_none_right_eq_some.mp h
  exact ⟨hrx, (Option.some.inj heq).symm⟩

theorem timer_cases (h : s.step .timer = some s') :
    s.xTimer = true ∧ s' = s.xMBMasterRTUTimerExpired := by
  obtain ⟨ht, heq⟩ := Option.ite_none_right_eq_some.mp h
  exact ⟨ht, (Option.some.inj heq).symm⟩

theorem txReady_cases (h : s.step .txReady = some s') :
    s.xTxEnable = true ∧ s' = s.xMBMasterRTUTransmitFSM := by
  obtain ⟨htx, heq⟩ := Option.ite_none_right_eq_some.mp h
  exact ⟨htx, (Option.some.inj heq).symm⟩

/-- A call that is refused was not made before. -/
theorem refuse_cases (h : s.refuse i q = some s') :
    ∃ eErrStatus, s.calls i = .idle ∧ s' = s.setCall i (.returned q eErrStatus) ∧
      (eErrStatus = .illArg ∨ eErrStatus = .masterBusy) := by
  unfold refuse at h
  cases hc : s.calls i with
  | idle =>
    rw [hc] at h
    dsimp only at h
    split at h
    · exact ⟨_, rfl, (Option.some.inj h).symm, Or.inl rfl⟩
    · split at h
      · exact ⟨_, rfl, (Option.some.inj h).symm, Or.inr rfl⟩
      · cases h
  | _ => simp [hc] at h

theorem take_cases (h : s.take i q = some s') :
    s.calls i = .idle ∧ q.illArg = false ∧ 0 < s.xMasterRunRes ∧
      s' = { s.setCall i (.taken q) with
        xMasterRunRes := s.xMasterRunRes - 1
        holders := s.holders ++ [i] } := by
  unfold take at h
  cases hc : s.calls i with
  | idle =>
    rw [hc] at h
    dsimp only at h
    split at h
    · rename_i hok
      exact ⟨rfl, hok.1, hok.2, (Option.some.inj h).symm⟩
    · cases h
  | _ => simp [hc] at h

theorem fill_cases (h : s.fill i = some s') :
    ∃ q, s.calls i = .taken q ∧ s' = (s.fillSndBuf q).setCall i (.filled q) := by
  unfold fill at h
  cases hc : s.calls i with
  | taken q =>
    rw [hc] at h
    exact ⟨q, rfl, (Option.some.inj h).symm⟩
  | _ => simp [hc] at h

theorem submit_cases (h : s.submit i = some s') :
    ∃ q, s.calls i = .filled q ∧
      s' = ((s.post .frameSent).record (.posted i)).setCall i (.waiting q) := by
  unfold submit at h
  cases hc : s.calls i with
  | filled q =>
    rw [hc] at h
    exact ⟨q, rfl, (Option.some.inj h).symm⟩
  | _ => simp [hc] at h

theorem finish_cases (h : s.finish i = some s') :
    ∃ q eErrStatus flags, s.calls i = .waiting q ∧ resultChannel.Returns s.xMasterOsEvent ∧
      eMBMasterWaitRequestFinish s.xMasterOsEvent = (eErrStatus, flags) ∧
      s' = ({ s with xMasterOsEvent := flags }.record (.returned i eErrStatus)).setCall i
        (.returned q eErrStatus) := by
  unfold finish at h
  cases hc : s.calls i with
  | waiting q =>
    rw [hc] at h
    dsimp only at h
    split at h
    · rename_i hret
      exact ⟨q, _, _, rfl, hret, rfl, (Option.some.inj h).symm⟩
    · cases h
  | _ => simp [hc] at h

/-! ## A first request -/

/-- A write of one register of slave 1. -/
def writeOne : MasterRequest := ⟨1, .writeHoldingRegister 2 7⟩

/-- A call makes the request and its frame goes out. -/
def sendOne : List MasterAction :=
  [.take 0 writeOne, .fill 0, .submit 0, .poll none] ++ List.replicate 9 .txReady

/-- The frame of slave 1 with a PDU. -/
def slaveFrame (pdu : List UChar) : List UChar := (1 :: pdu) ++ crcBytes (usMBCRC16List (1 :: pdu))

/-- The slave echoes the frame and the answer is polled. -/
def answerOne : List MasterAction := writeOne.frame.map .byte ++ [.timer, .poll none, .poll none]

end Master

end FreeModbus
