import FreeModbus.Slave.Checked

/-!
# One direction at a time

Receiver and transmitter of the slave share the line and the buffer.  The serial
interrupt, the t3.5 timer, the transmit thread and the poll loop change seven
variables between them, and the state machines assert that the other direction is
idle when they are called.

`OnLine` says which of the two has the line.  A reply is started only by a poll
that executes a request, so the invariant also bounds the length of the PDU while
an execution is pending (`Bounded`).  A poll whose get assigns no event does
nothing here (`Assigned`): the variable `eEvent` it would read has no value.
-/

namespace FreeModbus

open ByteMemory Transition EventFlags

namespace Slave

/-- A poll handles the event that its get assigned, or nothing. -/
def Assigned : SlaveAction → Prop
  | .poll junk => junk = none
  | _ => True

instance : ∀ a, Decidable (Assigned a)
  | .poll _ => inferInstanceAs (Decidable (_ = _))
  | .byte _ => isTrue trivial
  | .timer => isTrue trivial
  | .txReady => isTrue trivial

/-- The assertions on `eSndState` and `eRcvState` in the function that an action calls. -/
def AssertsHold (s : Slave) : SlaveAction → Prop
  | .byte _ => s.eSndState = .idle
  | .txReady => s.eRcvState = .idle
  | .timer => s.eRcvState = .init ∨ s.eRcvState = .rcv ∨ s.eRcvState = .error
  | .poll _ => True

/-- Receiver and transmitter keep apart. -/
structure HalfDuplex (s : Slave) : Prop where
  /-- Exactly one of receiver and transmitter is on. -/
  line : s.xRxEnable = !s.xTxEnable
  timer : s.xTimer = true ↔ s.eRcvState ≠ .idle
  xmit : s.eSndState = .xmit → s.eRcvState = .idle ∧ s.xRxEnable = false ∧
    s.pucSndBufferCur + s.usSndBufferCount ≤ mbSerPduSizeMax
  pos : s.usRcvBufferPos ≤ mbSerPduSizeMax
  asserts : ∀ a s', s.step a = some s' → s.AssertsHold a

/-! ## The invariant -/

/-- Who has the line: the receiver, or the transmitter with what is left of its frame. -/
inductive OnLine (s : Slave) : Prop where
  | receiving : s.xRxEnable = true → s.xTxEnable = false → s.eSndState = .idle → OnLine s
  | sending : s.xRxEnable = false → s.xTxEnable = true → s.eSndState = .xmit →
      s.eRcvState = .idle → s.pucSndBufferCur + s.usSndBufferCount ≤ mbSerPduSizeMax → OnLine s

/-- The timer runs while a frame, or silence, is awaited, and the frame lies in the buffer. -/
structure Timed (s : Slave) : Prop where
  timer : s.xTimer = true ↔ s.eRcvState ≠ .idle
  pos : s.usRcvBufferPos ≤ mbSerPduSizeMax

/-- A request that is about to be executed has the length of a PDU. -/
def Bounded (s : Slave) : Prop :=
  slaveChannel.Pending s.xSlaveOsEvent .execute → 1 ≤ s.usLength ∧ s.usLength ≤ mbPduSizeMax

/-- The invariant of every run. -/
structure Duplex (s : Slave) : Prop where
  line : OnLine s
  timed : Timed s
  bounded : Bounded s
  table : s.xFuncHandlers = FreeModbus.xFuncHandlers

variable {s s' : Slave}

theorem Duplex.halfDuplex (h : Duplex s) : HalfDuplex s := by
  refine ⟨?_, h.timed.timer, fun hx => ?_, h.timed.pos, fun a s' hst => ?_⟩
  · cases h.line with
    | receiving hr ht => rw [hr, ht, Bool.not_false]
    | sending hr ht => rw [hr, ht, Bool.not_true]
  · cases h.line with
    | receiving _ _ hs => cases hs.symm.trans hx
    | sending hr _ _ hi hb => exact ⟨hi, hr, hb⟩
  · cases a with
    | byte b =>
      cases h.line with
      | receiving _ _ hs => exact hs
      | sending hr => cases hr.symm.trans (byte_cases hst).1
    | timer =>
      have hne := h.timed.timer.mp (timer_cases hst).1
      cases hr : s.eRcvState with
      | init => exact Or.inl hr
      | rcv => exact Or.inr (Or.inl hr)
      | error => exact Or.inr (Or.inr hr)
      | idle => exact absurd hr hne
    | txReady =>
      cases h.line with
      | receiving _ ht => cases ht.symm.trans (txReady_cases hst).1
      | sending _ _ _ hi => exact hi
    | poll junk => trivial

/-! ## Steps -/

/-- What the transmitter and the enables do not see does not change who has the line. -/
theorem OnLine.of_eq (h : OnLine s) (hrx : s'.xRxEnable = s.xRxEnable)
    (htx : s'.xTxEnable = s.xTxEnable) (hsnd : s'.eSndState = s.eSndState)
    (hrcv : s'.eRcvState = s.eRcvState) (hcur : s'.pucSndBufferCur = s.pucSndBufferCur)
    (hcount : s'.usSndBufferCount = s.usSndBufferCount) : OnLine s' := by
  cases h with
  | receiving hr ht hs => exact .receiving (hrx.trans hr) (htx.trans ht) (hsnd.trans hs)
  | sending hr ht hs hi hb =>
    rw [← hcur, ← hcount] at hb
    exact .sending (hrx.trans hr) (htx.trans ht) (hsnd.trans hs) (hrcv.trans hi) hb

theorem Timed.of_eq (h : Timed s) (ht : s'.xTimer = s.xTimer) (hr : s'.eRcvState = s.eRcvState)
    (hp : s'.usRcvBufferPos = s.usRcvBufferPos) : Timed s' := by
  refine ⟨?_, ?_⟩
  · rw [ht, hr]
    exact h.timer
  · rw [hp]
    exact h.pos

theorem Bounded.of_eq (h : Bounded s) (he : s'.xSlaveOsEvent = s.xSlaveOsEvent)
    (hl : s'.usLength = s.usLength) : Bounded s' := by
  unfold Bounded
  rw [he, hl]
  exact h

/-- An event other than `EV_EXECUTE` is posted. -/
theorem Bounded.post (h : Bounded s) {e : MBEventType} (hne : e ≠ .execute)
    (he : s'.xSlaveOsEvent = slaveChannel.post s.xSlaveOsEvent e)
    (hl : s'.usLength = s.usLength) : Bounded s' := by
  unfold Bounded
  rw [he, hl, slaveChannel.pending_post]
  rintro (hp | hp)
  · exact h hp
  · exact absurd hp.symm hne

theorem bounded_of_not_pending (h : ¬ slaveChannel.Pending s.xSlaveOsEvent .execute) :
    Bounded s := fun hp => absurd hp h

/-- A received byte. -/
theorem Duplex.byte (h : Duplex s) (hrx : s.xRxEnable = true) (b : UChar) :
    Duplex (s.xMBRTUReceiveFSM b) := by
  cases h.line with
  | sending hr => cases hr.symm.trans hrx
  | receiving hr ht hs =>
    unfold xMBRTUReceiveFSM
    cases hst : s.eRcvState with
    | init =>
      have hne : s.eRcvState ≠ .idle := fun h => nomatch hst.symm.trans h
      exact ⟨.receiving hr ht hs, ⟨iff_of_true rfl hne, h.timed.pos⟩, h.bounded, h.table⟩
    | error =>
      have hne : s.eRcvState ≠ .idle := fun h => nomatch hst.symm.trans h
      exact ⟨.receiving hr ht hs, ⟨iff_of_true rfl hne, h.timed.pos⟩, h.bounded, h.table⟩
    | idle =>
      have hone : 1 ≤ mbSerPduSizeMax := by decide
      exact ⟨.receiving hr ht hs, ⟨iff_of_true rfl nofun, hone⟩, h.bounded, h.table⟩
    | rcv =>
      dsimp only
      split
      · exact ⟨.receiving hr ht hs, ⟨iff_of_true rfl nofun, ‹_›⟩, h.bounded, h.table⟩
      · exact ⟨.receiving hr ht hs, ⟨iff_of_true rfl nofun, h.timed.pos⟩, h.bounded, h.table⟩

/-- An expiry of the timer. -/
theorem Duplex.expired (h : Duplex s) : Duplex s.xMBRTUTimerT35Expired := by
  have hline : ∀ ev,
      OnLine { s with xSlaveOsEvent := ev, xTimer := false, eRcvState := .idle } := by
    intro ev
    cases h.line with
    | receiving hr ht hs => exact .receiving hr ht hs
    | sending hr ht hs _ hb => exact .sending hr ht hs rfl hb
  unfold xMBRTUTimerT35Expired
  cases hst : s.eRcvState with
  | init =>
    exact ⟨hline _, ⟨iff_of_false nofun fun hne => hne rfl, h.timed.pos⟩,
      h.bounded.post (e := .ready) nofun rfl rfl, h.table⟩
  | rcv =>
    exact ⟨hline _, ⟨iff_of_false nofun fun hne => hne rfl, h.timed.pos⟩,
      h.bounded.post (e := .frameReceived) nofun rfl rfl, h.table⟩
  | error =>
    exact ⟨hline _, ⟨iff_of_false nofun fun hne => hne rfl, h.timed.pos⟩, h.bounded, h.table⟩
  | idle =>
    exact ⟨hline _, ⟨iff_of_false nofun fun hne => hne rfl, h.timed.pos⟩, h.bounded, h.table⟩

/-- A turn of the transmitter. -/
theorem Duplex.transmit (h : Duplex s) (htx : s.xTxEnable = true) :
    Duplex s.xMBRTUTransmitFSM := by
  cases h.line with
  | receiving _ ht => cases ht.symm.trans htx
  | sending hr ht hs hi hb =>
    unfold xMBRTUTransmitFSM
    rw [hs]
    dsimp only
    split
    · rename_i hcount
      have hb' : s.pucSndBufferCur + 1 + (s.usSndBufferCount - 1) ≤ mbSerPduSizeMax := by omega
      exact ⟨.sending hr ht hs hi hb', h.timed.of_eq rfl rfl rfl, h.bounded, h.table⟩
    · exact ⟨.receiving rfl rfl rfl, h.timed.of_eq rfl rfl rfl,
        h.bounded.post (e := .frameSent) nofun rfl rfl, h.table⟩

/-! ## Polls -/

/-- The check of a frame asks for an execution only with the length of a PDU. -/
theorem Duplex.frameReceived (h : Duplex s)
    (hno : ¬ slaveChannel.Pending s.xSlaveOsEvent .execute) : Duplex s.pollFrameReceived := by
  have hpos : s.usRcvBufferPos ≤ 256 := h.timed.pos
  by_cases hok : mbSerPduSizeMin ≤ s.usRcvBufferPos ∧ usMBCRC16 s.ucRTUBuf s.usRcvBufferPos = 0
  · have hmin : 4 ≤ s.usRcvBufferPos := hok.1
    have hlen : 1 ≤ s.usRcvBufferPos - 1 - 2 ∧ s.usRcvBufferPos - 1 - 2 ≤ 253 := by omega
    have hrec : Duplex s.eMBRTUReceive.2 := by
      rw [eMBRTUReceive, if_pos hok]
      exact ⟨h.line.of_eq rfl rfl rfl rfl rfl rfl, h.timed.of_eq rfl rfl rfl,
        bounded_of_not_pending hno, h.table⟩
    have hpdu : 1 ≤ s.eMBRTUReceive.2.usLength ∧ s.eMBRTUReceive.2.usLength ≤ mbPduSizeMax := by
      rw [eMBRTUReceive, if_pos hok]
      exact hlen
    rw [pollFrameReceived]
    dsimp only
    split
    · exact ⟨hrec.line.of_eq rfl rfl rfl rfl rfl rfl, hrec.timed.of_eq rfl rfl rfl, fun _ => hpdu,
        hrec.table⟩
    · exact hrec
  · have hfail : s.eMBRTUReceive = (.eio, s) := if_neg hok
    rw [pollFrameReceived, hfail]
    exact h

/-- A reply is started only while the receiver is idle. -/
theorem Duplex.send (h : Duplex s) (hlen : s.usLength ≤ mbPduSizeMax) (own : UChar) :
    Duplex (s.eMBRTUSend own).2 := by
  unfold eMBRTUSend
  split
  · rename_i hidle
    have hb : 0 + (1 + s.usLength + 2) ≤ mbSerPduSizeMax := by
      rw [mbPduSizeMax] at hlen
      rw [mbSerPduSizeMax]
      omega
    exact ⟨.sending rfl rfl rfl hidle hb, h.timed.of_eq rfl rfl rfl,
      h.bounded.of_eq rfl rfl, h.table⟩
  · exact h

/-- A request runs its handler, and the reply fits a frame. -/
theorem Duplex.execute (h : Duplex s) (hlen : 1 ≤ s.usLength ∧ s.usLength ≤ mbPduSizeMax)
    (hno : ¬ slaveChannel.Pending s.xSlaveOsEvent .execute) : Duplex s.pollExecute := by
  have hreply : ReplyOk (s.ucRTUBuf.at mbSerPduPduOff) (slaveDispatch FreeModbus.xFuncHandlers
      s.app (s.ucRTUBuf.at mbSerPduPduOff) s.usLength) := slaveDispatch_reply hlen.1 hlen.2
  have hcall : Duplex s.callHandler := ⟨h.line.of_eq rfl rfl rfl rfl rfl rfl,
    h.timed.of_eq rfl rfl rfl, bounded_of_not_pending hno, h.table⟩
  unfold pollExecute
  dsimp only
  split
  · unfold buildErrorFrame
    split
    · refine Duplex.send ?_ (by decide : (2 : Nat) ≤ 253) _
      exact ⟨hcall.line.of_eq rfl rfl rfl rfl rfl rfl, hcall.timed.of_eq rfl rfl rfl,
        bounded_of_not_pending hno, hcall.table⟩
    · rename_i hnone
      have hstatus : (slaveDispatch FreeModbus.xFuncHandlers s.app
          (s.ucRTUBuf.at mbSerPduPduOff) s.usLength).eStatus = .none := by
        have hex := not_not.mp hnone
        simp only [callHandler, h.table] at hex
        exact hex
      have hshort := (hreply hstatus).1.2
      refine hcall.send ?_ _
      simp only [callHandler, h.table]
      exact hshort
  · exact hcall

theorem Duplex.poll (h : Duplex s) (hst : s.eMBPoll none = some s') : Duplex s' := by
  rcases eMBPoll_cases hst with ⟨-, rfl⟩ | ⟨-, -, hhandle⟩
  · exact h
  · let t : Slave := { s with xSlaveOsEvent := (xMBPortEventGet s.xSlaveOsEvent).2 }
    have hno : ¬ slaveChannel.Pending t.xSlaveOsEvent .execute :=
      slaveChannel.not_pending_get s.xSlaveOsEvent .execute
    have ht : Duplex t := ⟨h.line.of_eq rfl rfl rfl rfl rfl rfl, h.timed.of_eq rfl rfl rfl,
      bounded_of_not_pending hno, h.table⟩
    rcases handle_cases hhandle with ⟨-, -, rfl⟩ | ⟨-, rfl⟩ | ⟨hget, -, rfl⟩
    · exact ht
    · exact ht.frameReceived hno
    · rw [polled, Option.or_none] at hget
      have hp : slaveChannel.Pending s.xSlaveOsEvent .execute :=
        (slaveChannel.only_of_get hget _).mpr rfl
      exact ht.execute (h.bounded hp) hno

/-- Every step keeps the invariant. -/
theorem Duplex.step (h : Duplex s) {a : SlaveAction} (ha : Assigned a)
    (hst : s.step a = some s') : Duplex s' := by
  cases a with
  | byte b =>
    obtain ⟨hrx, rfl⟩ := byte_cases hst
    exact h.byte hrx b
  | timer =>
    obtain ⟨-, rfl⟩ := timer_cases hst
    exact h.expired
  | txReady =>
    obtain ⟨htx, rfl⟩ := txReady_cases hst
    exact h.transmit htx
  | poll junk =>
    obtain rfl : junk = none := ha
    exact h.poll hst

theorem duplex_started (h : Started s) : Duplex s := by
  obtain ⟨app, own, -, rfl⟩ := h.eq
  exact ⟨.receiving rfl rfl rfl, ⟨iff_of_true rfl nofun, Nat.zero_le _⟩,
    bounded_of_not_pending (by decide : ¬ slaveChannel.Pending 0 .execute), rfl⟩

/-- In every run of a started slave receiver and transmitter keep apart, and no assertion of the
state machines fails. -/
theorem half_duplex (h : ReachableBy Started step (fun _ a => Assigned a) s) : HalfDuplex s :=
  (h.invariant (fun _ => duplex_started) fun _ _ _ hs ha hst => hs.step ha hst).halfDuplex

/-- The run to the reply of `receiveRead`, with one byte of it on the line. -/
theorem half_duplex_reply : ∃ s, HalfDuplex s ∧ s.eSndState = .xmit ∧ s.usSndBufferCount = 6 := by
  let as := receiveRead ++ [.poll none, .txReady]
  have hall : AllSteps step (fun _ a => Assigned a) slaveOne as := by decide +kernel
  have hrun : (run step slaveOne as).map (fun s => (s.eSndState, s.usSndBufferCount)) =
      some (.xmit, 6) := by decide +kernel
  obtain ⟨s, hs, heq⟩ := Option.map_eq_some_iff.mp hrun
  simp only [Prod.mk.injEq] at heq
  have hreach : ReachableBy Started step (fun _ a => Assigned a) s :=
    ReachableBy.of_run (.start started_slaveOne) hall hs
  exact ⟨s, half_duplex hreach, heq.1, heq.2⟩

end Slave

end FreeModbus
