import FreeModbus.Slave.Rtu

/-!
# Execution of checked bytes

`eMBRTUReceive` checks a frame, and one poll later a handler runs on the PDU.  The
PDU is handed over as a pointer into `ucRTUBuf`, which the receive interrupt keeps
writing.  `eMBRTUSend` looks at the receiver before it touches the buffer, the
execution of a request does not.

The ghost `checked` is the PDU that `eMBRTUReceive` last returned, and `Watched` adds
the memory behind the pointer as it was then, since a handler may read on behind the
PDU.  The invariant says that both are still there while `EV_EXECUTE` is pending.
`KeepsChecked` is the condition under which a step keeps them.
-/

namespace FreeModbus

open ByteMemory Transition EventFlags

namespace Slave

/-- The memory that a handler is given. -/
def frame (s : Slave) : Buf := s.ucRTUBuf.at mbSerPduPduOff

/-- The PDU that a handler is given. -/
def handlerPdu (s : Slave) : List UChar := slice s.frame 0 s.usLength

/-- A poll that runs a handler. -/
def Executes (s : Slave) (junk : Option MBEventType) : Prop :=
  s.eMBState = .enabled ∧ slaveChannel.Returns s.xSlaveOsEvent ∧ s.polled junk = some .execute

instance (s : Slave) (junk : Option MBEventType) : Decidable (s.Executes junk) :=
  inferInstanceAs (Decidable (_ ∧ _ ∧ _))

/-- A poll in which `eMBRTUReceive` returns `MB_ENOERR`. -/
def ChecksFrame (s : Slave) : SlaveAction → Prop
  | .poll junk => s.eMBState = .enabled ∧ slaveChannel.Returns s.xSlaveOsEvent ∧
      s.polled junk = some .frameReceived ∧ s.eMBRTUReceive.1 = .enoerr
  | .byte _ => False
  | .timer => False
  | .txReady => False

/-- A byte that arrives is stored behind the first one of the buffer. -/
def StoresBehind (s : Slave) : Prop :=
  s.eRcvState = .rcv ∧ 1 ≤ s.usRcvBufferPos ∧ s.usRcvBufferPos < mbSerPduSizeMax

/-- No byte is stored behind the address while an execution is pending, and no poll that assigned
no event finds `EV_EXECUTE` in the variable `eEvent`. -/
def KeepsChecked (s : Slave) : SlaveAction → Prop
  | .byte _ => ¬ (slaveChannel.Pending s.xSlaveOsEvent .execute ∧ s.StoresBehind)
  | .poll junk => (xMBPortEventGet s.xSlaveOsEvent).1 = none → junk ≠ some .execute
  | .timer => True
  | .txReady => True

instance (s : Slave) : ∀ a, Decidable (s.ChecksFrame a)
  | .poll _ => inferInstanceAs (Decidable (_ ∧ _ ∧ _ ∧ _))
  | .byte _ => isFalse id
  | .timer => isFalse id
  | .txReady => isFalse id

instance (s : Slave) : Decidable s.StoresBehind := inferInstanceAs (Decidable (_ ∧ _ ∧ _))

instance (s : Slave) : ∀ a, Decidable (s.KeepsChecked a)
  | .byte _ => inferInstanceAs (Decidable (¬ (_ ∧ _)))
  | .poll _ => inferInstanceAs (Decidable (_ = _ → _))
  | .timer => isTrue trivial
  | .txReady => isTrue trivial

/-- While `EV_EXECUTE` is pending the checked PDU lies in the buffer, and behind it what was there
at the check. -/
def PduChecked (s : Slave) (checkedFrame : Buf) : Prop :=
  slaveChannel.Pending s.xSlaveOsEvent .execute →
    s.handlerPdu = s.checked ∧ s.frame = checkedFrame

variable {s s' : Slave} {checkedFrame : Buf}

/-! ## Each step keeps the checked PDU -/

/-- A byte that is not stored behind the address. -/
theorem frame_receiveFSM (h : ¬ s.StoresBehind) (b : UChar) :
    (s.xMBRTUReceiveFSM b).frame = s.frame := by
  cases hst : s.eRcvState with
  | init => simp only [xMBRTUReceiveFSM, hst, vMBPortTimersEnable, frame]
  | error => simp only [xMBRTUReceiveFSM, hst, vMBPortTimersEnable, frame]
  | idle =>
    simp only [xMBRTUReceiveFSM, hst, vMBPortTimersEnable, frame]
    exact Mem.at_update_of_lt Nat.one_pos b
  | rcv =>
    simp only [xMBRTUReceiveFSM, hst]
    split
    · rename_i hpos
      have hzero : ¬ 1 ≤ s.usRcvBufferPos := fun hone => h ⟨hst, hone, hpos⟩
      exact Mem.at_update_of_lt (Nat.lt_of_not_le hzero) b
    · rfl

/-- A byte changes nothing else that the execution reads. -/
theorem receiveFSM_keeps (s : Slave) (b : UChar) :
    (s.xMBRTUReceiveFSM b).xSlaveOsEvent = s.xSlaveOsEvent ∧
      (s.xMBRTUReceiveFSM b).usLength = s.usLength ∧
      (s.xMBRTUReceiveFSM b).checked = s.checked := by
  unfold xMBRTUReceiveFSM
  split
  · exact ⟨rfl, rfl, rfl⟩
  · exact ⟨rfl, rfl, rfl⟩
  · exact ⟨rfl, rfl, rfl⟩
  · split
    · exact ⟨rfl, rfl, rfl⟩
    · exact ⟨rfl, rfl, rfl⟩

theorem pduChecked_byte (h : s.PduChecked checkedFrame) {b : UChar}
    (hok : s.KeepsChecked (.byte b)) : (s.xMBRTUReceiveFSM b).PduChecked checkedFrame := by
  obtain ⟨hevent, hlen, hchecked⟩ := receiveFSM_keeps s b
  unfold PduChecked handlerPdu
  rw [hevent, hlen, hchecked]
  intro hp
  rw [frame_receiveFSM fun hbehind => hok ⟨hp, hbehind⟩]
  exact h hp

/-- The timer and the transmitter post events other than `EV_EXECUTE`. -/
theorem pduChecked_post (h : s.PduChecked checkedFrame) {e : MBEventType} (he : e ≠ .execute) :
    (s.post e).PduChecked checkedFrame := by
  intro hp
  rcases (slaveChannel.pending_post _ _ _).mp hp with h' | h'
  · exact h h'
  · exact absurd h'.symm he

theorem pduChecked_timer (h : s.PduChecked checkedFrame) :
    s.xMBRTUTimerT35Expired.PduChecked checkedFrame := by
  cases hst : s.eRcvState with
  | init =>
    simp only [xMBRTUTimerT35Expired, hst, vMBPortTimersDisable]
    exact pduChecked_post h nofun
  | rcv =>
    simp only [xMBRTUTimerT35Expired, hst, vMBPortTimersDisable]
    exact pduChecked_post h nofun
  | error =>
    simp only [xMBRTUTimerT35Expired, hst, vMBPortTimersDisable]
    exact h
  | idle =>
    simp only [xMBRTUTimerT35Expired, hst, vMBPortTimersDisable]
    exact h

theorem pduChecked_transmit (h : s.PduChecked checkedFrame) :
    s.xMBRTUTransmitFSM.PduChecked checkedFrame := by
  cases hst : s.eSndState with
  | idle =>
    simp only [xMBRTUTransmitFSM, hst, vMBPortSerialEnable]
    exact h
  | xmit =>
    simp only [xMBRTUTransmitFSM, hst]
    split
    · exact h
    · exact pduChecked_post h nofun

/-- With no execution pending there is nothing to keep. -/
theorem pduChecked_of_not_pending (h : ¬ slaveChannel.Pending s.xSlaveOsEvent .execute) :
    s.PduChecked checkedFrame := fun hp => absurd hp h

theorem eMBRTUReceive_enoerr_iff (s : Slave) : s.eMBRTUReceive.1 = .enoerr ↔
    mbSerPduSizeMin ≤ s.usRcvBufferPos ∧ usMBCRC16 s.ucRTUBuf s.usRcvBufferPos = 0 := by
  unfold eMBRTUReceive
  split
  · exact iff_of_true rfl ‹_›
  · exact iff_of_false nofun ‹_›

/-- The check of a frame. -/
theorem eMBRTUReceive_cases (s : Slave) :
    (s.eMBRTUReceive.1 = .enoerr ∧ s.eMBRTUReceive.2.handlerPdu = s.eMBRTUReceive.2.checked ∧
        s.eMBRTUReceive.2.frame = s.frame) ∨ s.eMBRTUReceive = (.eio, s) := by
  unfold eMBRTUReceive
  split
  · exact Or.inl ⟨rfl, slice_at .., rfl⟩
  · exact Or.inr rfl

/-- A poll of `EV_FRAME_RECEIVED` keeps the PDU that it has checked, and asks for no execution if
the check fails. -/
theorem pduChecked_frameReceived (h : ¬ slaveChannel.Pending s.xSlaveOsEvent .execute)
    (hmem : s.eMBRTUReceive.1 = .enoerr → checkedFrame = s.frame) :
    s.pollFrameReceived.PduChecked checkedFrame := by
  rcases s.eMBRTUReceive_cases with ⟨hok, hpdu, hframe⟩ | hfail
  · have hboth : s.eMBRTUReceive.2.handlerPdu = s.eMBRTUReceive.2.checked ∧
        s.eMBRTUReceive.2.frame = checkedFrame := ⟨hpdu, hframe.trans (hmem hok).symm⟩
    rw [pollFrameReceived]
    dsimp only
    split
    · exact fun _ => hboth
    · exact fun _ => hboth
  · have hsame : s.pollFrameReceived = s := by
      rw [pollFrameReceived, hfail]
      exact if_neg fun h' => nomatch h'.1
    rw [hsame]
    exact pduChecked_of_not_pending h

/-- The execution of a request posts nothing. -/
theorem pollExecute_event (s : Slave) : s.pollExecute.xSlaveOsEvent = s.xSlaveOsEvent := by
  unfold pollExecute
  dsimp only
  split
  · unfold eMBRTUSend buildErrorFrame
    split <;> split <;> rfl
  · rfl

end Slave

/-! ## Runs -/

/-- A slave, and the memory behind `ucMBFrame` as it was when `eMBRTUReceive` last returned
`MB_ENOERR`. -/
structure Watched where
  slave : Slave
  checkedFrame : Buf

namespace Watched

/-- A slave that was started. -/
def Started (w : Watched) : Prop := w.slave.Started

/-- One step of the slave. -/
def step (w : Watched) (a : SlaveAction) : Option Watched :=
  (w.slave.step a).map fun slave =>
    { slave, checkedFrame := if w.slave.ChecksFrame a then w.slave.frame else w.checkedFrame }

def KeepsChecked (w : Watched) (a : SlaveAction) : Prop := w.slave.KeepsChecked a

/-- To watch a run does not restrict it. -/
theorem exists_of_reachable {s : Slave} (h : ReachableBy Slave.Started Slave.step
    Slave.KeepsChecked s) : ∃ w, ReachableBy Started step KeepsChecked w ∧ w.slave = s := by
  induction h with
  | start hs => exact ⟨⟨_, fun _ => 0⟩, .start hs, rfl⟩
  | next _ hok hst ih =>
    obtain ⟨w, hw, rfl⟩ := ih
    exact ⟨⟨_, _⟩, .next hw hok (congrArg (Option.map _) hst), rfl⟩

variable {w w' : Watched} {a : SlaveAction}

/-- What a poll handles it has taken from the queue, and only a successful check asks for an
execution. -/
theorem pduChecked_poll (h : w.slave.PduChecked w.checkedFrame) {junk : Option MBEventType}
    (hst : w.step (.poll junk) = some w') : w'.slave.PduChecked w'.checkedFrame := by
  obtain ⟨s', hpoll, rfl⟩ := Option.map_eq_some_iff.mp hst
  rcases Slave.eMBPoll_cases hpoll with ⟨hoff, rfl⟩ | ⟨hon, hret, hhandle⟩
  · have hno : ¬ w.slave.ChecksFrame (.poll junk) := fun hc => hoff hc.1
    dsimp only
    rw [if_neg hno]
    exact h
  · have hnone := slaveChannel.not_pending_get w.slave.xSlaveOsEvent .execute
    rcases Slave.handle_cases hhandle with ⟨-, -, rfl⟩ | ⟨hev, rfl⟩ | ⟨-, -, rfl⟩
    · exact Slave.pduChecked_of_not_pending hnone
    · refine Slave.pduChecked_frameReceived hnone fun hok => ?_
      have hvalid := (Slave.eMBRTUReceive_enoerr_iff _).mp hok
      have hc : w.slave.ChecksFrame (.poll junk) :=
        ⟨hon, hret, hev, (Slave.eMBRTUReceive_enoerr_iff _).mpr hvalid⟩
      exact if_pos hc
    · refine Slave.pduChecked_of_not_pending ?_
      rw [Slave.pollExecute_event]
      exact hnone

/-- Every step that meets the condition keeps the checked PDU in the buffer. -/
theorem pduChecked_step (h : w.slave.PduChecked w.checkedFrame) (hok : w.KeepsChecked a)
    (hst : w.step a = some w') : w'.slave.PduChecked w'.checkedFrame := by
  cases a with
  | byte b =>
    obtain ⟨s', hs', rfl⟩ := Option.map_eq_some_iff.mp hst
    obtain ⟨-, rfl⟩ := Slave.byte_cases hs'
    exact Slave.pduChecked_byte h hok
  | timer =>
    obtain ⟨s', hs', rfl⟩ := Option.map_eq_some_iff.mp hst
    obtain ⟨-, rfl⟩ := Slave.timer_cases hs'
    exact Slave.pduChecked_timer h
  | txReady =>
    obtain ⟨s', hs', rfl⟩ := Option.map_eq_some_iff.mp hst
    obtain ⟨-, rfl⟩ := Slave.txReady_cases hs'
    exact Slave.pduChecked_transmit h
  | poll junk => exact pduChecked_poll h hst

theorem pduChecked_started (h : w.Started) : w.slave.PduChecked w.checkedFrame := by
  obtain ⟨app, own, -, heq⟩ := Slave.Started.eq h
  rw [heq]
  exact Slave.pduChecked_of_not_pending (by decide : ¬ slaveChannel.Pending 0 .execute)

end Watched

namespace Slave

/-- In every run whose steps meet the condition, a handler is given the PDU that was checked, and
the memory in which it lies holds what it held at the check: no byte that arrived since then. -/
theorem handler_checked {w : Watched}
    (h : ReachableBy Watched.Started Watched.step Watched.KeepsChecked w)
    {junk : Option MBEventType} (hok : w.KeepsChecked (.poll junk))
    (hexec : w.slave.Executes junk) :
    w.slave.handlerPdu = w.slave.checked ∧ w.slave.frame = w.checkedFrame := by
  have hinv : w.slave.PduChecked w.checkedFrame :=
    h.invariant (fun _ => Watched.pduChecked_started) fun _ _ _ hs hok hst =>
      Watched.pduChecked_step hs hok hst
  obtain ⟨-, hret, hpoll⟩ := hexec
  unfold polled at hpoll
  cases hget : (xMBPortEventGet w.slave.xSlaveOsEvent).1 with
  | none =>
    rw [hget] at hpoll
    exact absurd hpoll (hok hget)
  | some e =>
    rw [hget] at hpoll
    cases hpoll
    have honly := slaveChannel.only_of_get hget
    exact hinv ((honly _).mpr rfl)

/-! ## The condition is needed -/

/-- A started slave with address 1. -/
def slaveOne : Slave := ((static .initial).eMBInit 1).2.eMBEnable.2

theorem started_slaveOne : Started slaveOne := ⟨.initial, 1, by decide⟩

/-- A read of one holding register is received and checked. -/
def receiveRead : List SlaveAction :=
  [.timer, .poll none] ++
    ([1, 3, 0, 0, 0, 1] ++ crcBytes (usMBCRC16List [1, 3, 0, 0, 0, 1])).map .byte ++
      [.timer, .poll none]

/-- What an execution after some actions is given, and what was checked. -/
def pdusAfter (as : List SlaveAction) : Option (Bool × List UChar × List UChar) :=
  (run step slaveOne as).map fun s => (s.Executes none, s.handlerPdu, s.checked)

/-- After a checked read two bytes of the next frame arrive: a write is executed. -/
theorem handler_unchecked :
    ¬ ∀ s junk, Reachable Started step s → s.Executes junk → s.handlerPdu = s.checked := by
  intro h
  have hrun : pdusAfter (receiveRead ++ [.byte 1, .byte 6]) =
      some (true, [6, 0, 0, 0, 1], [3, 0, 0, 0, 1]) := by decide +kernel
  obtain ⟨s, hs, heq⟩ := Option.map_eq_some_iff.mp hrun
  simp only [Prod.mk.injEq, decide_eq_true_eq] at heq
  obtain ⟨hexec, hpdu, hchecked⟩ := heq
  have hsame := h s none (Reachable.of_run (.start started_slaveOne) hs) hexec
  rw [hpdu, hchecked] at hsame
  cases hsame

/-- The read is executed as it was checked when one byte of the next frame has arrived. -/
theorem handler_checked_read :
    ∃ w, ReachableBy Watched.Started Watched.step Watched.KeepsChecked w ∧
      w.slave.Executes none ∧ (w.slave.handlerPdu = w.slave.checked ∧
        w.slave.frame = w.checkedFrame) ∧ w.slave.checked = [3, 0, 0, 0, 1] := by
  have hall : AllSteps step KeepsChecked slaveOne (receiveRead ++ [.byte 1]) := by
    decide +kernel
  have hrun : pdusAfter (receiveRead ++ [.byte 1]) =
      some (true, [3, 0, 0, 0, 1], [3, 0, 0, 0, 1]) := by decide +kernel
  obtain ⟨s, hs, heq⟩ := Option.map_eq_some_iff.mp hrun
  simp only [Prod.mk.injEq, decide_eq_true_eq] at heq
  obtain ⟨hexec, -, hchecked⟩ := heq
  obtain ⟨w, hreach, rfl⟩ :=
    Watched.exists_of_reachable (ReachableBy.of_run (.start started_slaveOne) hall hs)
  have hok : w.KeepsChecked (.poll none) := fun _ => nofun
  exact ⟨w, hreach, hexec, handler_checked hreach hok hexec, hchecked⟩

end Slave

end FreeModbus
