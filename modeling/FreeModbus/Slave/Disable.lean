import FreeModbus.Slave.Checked

/-!
# Requests across a disable

`eMBDisable` and `eMBEnable` may come at any time.  `eMBRTUStop` turns receiver,
transmitter and timer off, and `eMBRTUStart` sets the receiver back to waiting for a
silent bus.  What was posted before stays pending, and the buffer stays as it is.

Three counters go along with the state: how often `eMBDisable` was called, how often it
had been when the last byte was stored, and how often it had been when the last byte of
the frame was stored that the last successful check passed.  A request crosses a disable
where a poll executes it and the last two of these differ.
-/

namespace FreeModbus

open ByteMemory Transition EventFlags

/-- What can happen to the slave when it is also started and stopped. -/
inductive SlaveLifeAction where
  | enable
  | disable
  | act (a : SlaveAction)

/-- The slave, and when things happened to it. -/
structure LifeSlave where
  slave : Slave
  /-- The calls of `eMBDisable` so far. -/
  disables : Nat
  /-- Their number when the last byte was stored. -/
  lastStored : Nat
  /-- Their number when the last byte of the frame was stored that was last accepted. -/
  accepted : Nat

namespace Slave

/-! ## Stop -/

/-- `eMBRTUStop`. -/
def eMBRTUStop (s : Slave) : Slave := (s.vMBPortSerialEnable false false).vMBPortTimersDisable

/-- `eMBDisable`. -/
def eMBDisable (s : Slave) : MBErrorCode × Slave :=
  if s.eMBState = .enabled then (.enoerr, { s.eMBRTUStop with eMBState := .disabled })
  else if s.eMBState = .disabled then (.enoerr, s)
  else (.eillstate, s)

/-! ## Events of a run -/

/-- The event is the one that the next get assigns. -/
def Next (s : Slave) (e : MBEventType) : Prop := (xMBPortEventGet s.xSlaveOsEvent).1 = some e

/-- A received byte is stored. -/
def Stores (s : Slave) : Prop :=
  s.eRcvState = .idle ∨ (s.eRcvState = .rcv ∧ s.usRcvBufferPos < mbSerPduSizeMax)

/-- The bytes in the buffer are a frame for this slave. -/
def HoldsRequest (s : Slave) : Prop :=
  (mbSerPduSizeMin ≤ s.usRcvBufferPos ∧ usMBCRC16 s.ucRTUBuf s.usRcvBufferPos = 0) ∧
    (s.ucRTUBuf mbSerPduAddrOff = s.ucMBAddress ∨
      s.ucRTUBuf mbSerPduAddrOff = mbAddressBroadcast)

/-- A poll that accepts the frame in the buffer. -/
def AcceptsRequest (s : Slave) (junk : Option MBEventType) : Prop :=
  s.eMBState = .enabled ∧ slaveChannel.Returns s.xSlaveOsEvent ∧
    s.polled junk = some .frameReceived ∧ s.HoldsRequest

instance (s : Slave) (e : MBEventType) : Decidable (s.Next e) := inferInstanceAs (Decidable (_ = _))

instance (s : Slave) : Decidable s.Stores := inferInstanceAs (Decidable (_ ∨ _))

instance (s : Slave) : Decidable s.HoldsRequest := inferInstanceAs (Decidable (_ ∧ _))

instance (s : Slave) (junk : Option MBEventType) : Decidable (s.AcceptsRequest junk) :=
  inferInstanceAs (Decidable (_ ∧ _ ∧ _ ∧ _))

end Slave

namespace LifeSlave

/-- The counters after an action. -/
def count (s : LifeSlave) (s' : Slave) : SlaveAction → LifeSlave
  | .byte _ =>
      { s with
        slave := s'
        lastStored := if s.slave.Stores then s.disables else s.lastStored }
  | .poll junk =>
      { s with
        slave := s'
        accepted := if s.slave.AcceptsRequest junk then s.lastStored else s.accepted }
  | .timer => { s with slave := s' }
  | .txReady => { s with slave := s' }

/-- One step of the slave, or a call of `eMBEnable` or `eMBDisable`. -/
def step (s : LifeSlave) : SlaveLifeAction → Option LifeSlave
  | .enable => some { s with slave := s.slave.eMBEnable.2 }
  | .disable => some { s with slave := s.slave.eMBDisable.2, disables := s.disables + 1 }
  | .act a => (s.slave.step a).map fun s' => s.count s' a

/-- A slave that `eMBInit` has initialised. -/
inductive Initialized : LifeSlave → Prop where
  | intro (app : SlaveApp) (ucSlaveAddress : UChar) :
      ((Slave.static app).eMBInit ucSlaveAddress).1 = .enoerr →
      Initialized ⟨((Slave.static app).eMBInit ucSlaveAddress).2, 0, 0, 0⟩

/-- The stack is not disabled while the next poll would execute a request or accept one, and a
poll that is assigned no event does not find one in `eEvent` for which it would. -/
def Drained (s : LifeSlave) : SlaveLifeAction → Prop
  | .disable => ¬ s.slave.Next .execute ∧ ¬ (s.slave.Next .frameReceived ∧ s.slave.HoldsRequest)
  | .act (.poll junk) => (xMBPortEventGet s.slave.xSlaveOsEvent).1 = none →
      junk ≠ some .execute ∧ ¬ (junk = some .frameReceived ∧ s.slave.HoldsRequest)
  | _ => True

instance (s : LifeSlave) : ∀ a : SlaveLifeAction, Decidable (s.Drained a)
  | .enable => isTrue trivial
  | .disable => inferInstanceAs (Decidable (_ ∧ _))
  | .act (.poll _) => inferInstanceAs (Decidable (_ = _ → _))
  | .act (.byte _) => isTrue trivial
  | .act .timer => isTrue trivial
  | .act .txReady => isTrue trivial

/-! ## The invariant -/

/-- What is pending, or still being received, belongs to the time after the last disable. -/
structure Current (s : LifeSlave) : Prop where
  off : s.slave.eMBState ≠ .enabled →
    s.slave.xRxEnable = false ∧ s.slave.xTxEnable = false ∧ s.slave.xTimer = false
  execute : s.slave.Next .execute → s.accepted = s.disables
  received : s.slave.Next .frameReceived → s.slave.HoldsRequest → s.lastStored = s.disables
  receiving : s.slave.eMBState = .enabled → s.slave.eRcvState = .rcv → s.lastStored = s.disables

end LifeSlave

namespace Slave

variable {s s' : Slave}

/-- A get assigns the event just posted, or none. -/
theorem next_post {flags : BitVec 32} {e e' : MBEventType}
    (h : (xMBPortEventGet (slaveChannel.post flags e)).1 = some e') : e' = e := by
  have honly := slaveChannel.only_of_get h
  have hp : slaveChannel.Pending (slaveChannel.post flags e) e :=
    (slaveChannel.pending_post _ _ _).mpr (Or.inr rfl)
  exact ((honly e).mp hp).symm

/-- After a get nothing is assigned. -/
theorem not_next_get (flags : BitVec 32) (e : MBEventType) :
    (xMBPortEventGet (xMBPortEventGet flags).2).1 ≠ some e := by
  intro h
  exact slaveChannel.not_returns_get flags (slaveChannel.only_of_get h).returns

/-- The check of a frame for this slave asks for its execution. -/
theorem pollFrameReceived_of_holds (h : s.HoldsRequest) :
    s.pollFrameReceived = s.eMBRTUReceive.2.post .execute := by
  have hrec : s.eMBRTUReceive.1 = .enoerr := by
    rw [eMBRTUReceive, if_pos h.1]
  have haddr : s.eMBRTUReceive.2.ucRcvAddress = s.eMBRTUReceive.2.ucMBAddress ∨
      s.eMBRTUReceive.2.ucRcvAddress = mbAddressBroadcast := by
    rw [eMBRTUReceive, if_pos h.1]
    exact h.2
  rw [pollFrameReceived]
  exact if_pos ⟨hrec, haddr⟩

/-- The check of anything else asks for nothing. -/
theorem pollFrameReceived_of_not_holds (h : ¬ s.HoldsRequest) :
    s.pollFrameReceived.xSlaveOsEvent = s.xSlaveOsEvent := by
  by_cases hok : mbSerPduSizeMin ≤ s.usRcvBufferPos ∧ usMBCRC16 s.ucRTUBuf s.usRcvBufferPos = 0
  · have haddr : ¬ (s.ucRTUBuf mbSerPduAddrOff = s.ucMBAddress ∨
        s.ucRTUBuf mbSerPduAddrOff = mbAddressBroadcast) := fun ha => h ⟨hok, ha⟩
    rw [pollFrameReceived, eMBRTUReceive, if_pos hok]
    dsimp only
    rw [if_neg fun hr => haddr hr.2]
  · have hfail : s.eMBRTUReceive = (.eio, s) := if_neg hok
    rw [pollFrameReceived, hfail]
    rfl

/-- The branches of a poll leave the stack enabled and the receiver where it was. -/
theorem pollFrameReceived_state (s : Slave) :
    s.pollFrameReceived.eMBState = s.eMBState ∧ s.pollFrameReceived.eRcvState = s.eRcvState := by
  by_cases hok : mbSerPduSizeMin ≤ s.usRcvBufferPos ∧ usMBCRC16 s.ucRTUBuf s.usRcvBufferPos = 0
  · rw [pollFrameReceived, eMBRTUReceive, if_pos hok]
    dsimp only
    split
    · exact ⟨rfl, rfl⟩
    · exact ⟨rfl, rfl⟩
  · have hfail : s.eMBRTUReceive = (.eio, s) := if_neg hok
    rw [pollFrameReceived, hfail]
    exact ⟨rfl, rfl⟩

theorem pollExecute_state (s : Slave) :
    s.pollExecute.eMBState = s.eMBState ∧ s.pollExecute.eRcvState = s.eRcvState := by
  have hsend : ∀ (t : Slave) (own : UChar), (t.eMBRTUSend own).2.eMBState = t.eMBState ∧
      (t.eMBRTUSend own).2.eRcvState = t.eRcvState := by
    intro t own
    unfold eMBRTUSend
    split
    · exact ⟨rfl, rfl⟩
    · exact ⟨rfl, rfl⟩
  have hbuild : ∀ t : Slave, t.buildErrorFrame.eMBState = t.eMBState ∧
      t.buildErrorFrame.eRcvState = t.eRcvState := by
    intro t
    unfold buildErrorFrame
    split
    · exact ⟨rfl, rfl⟩
    · exact ⟨rfl, rfl⟩
  unfold pollExecute
  dsimp only
  split
  · rw [(hsend _ _).1, (hsend _ _).2, (hbuild _).1, (hbuild _).2]
    exact ⟨rfl, rfl⟩
  · exact ⟨rfl, rfl⟩

end Slave

namespace LifeSlave

variable {s s' : LifeSlave}

/-- While a part of the line is on the stack is enabled. -/
theorem Current.enabled (h : Current s)
    (hon : s.slave.xRxEnable = true ∨ s.slave.xTxEnable = true ∨ s.slave.xTimer = true) :
    s.slave.eMBState = .enabled := by
  by_contra hoff
  obtain ⟨hr, ht, hm⟩ := h.off hoff
  rw [hr, ht, hm] at hon
  simp at hon

theorem count_byte_stored (h : s.slave.Stores) (t : Slave) (b : UChar) :
    s.count t (.byte b) = { s with slave := t, lastStored := s.disables } := by
  simp only [count, if_pos h]

theorem count_byte_not_stored (h : ¬ s.slave.Stores) (t : Slave) (b : UChar) :
    s.count t (.byte b) = { s with slave := t } := by
  simp only [count, if_neg h]

theorem Current.byte (h : Current s) (hrx : s.slave.xRxEnable = true) (b : UChar) :
    Current (s.count (s.slave.xMBRTUReceiveFSM b) (.byte b)) := by
  have hen := h.enabled (Or.inl hrx)
  cases hst : s.slave.eRcvState with
  | init =>
    have hno : ¬ s.slave.Stores := by simp [Slave.Stores, hst]
    rw [count_byte_not_stored hno, Slave.xMBRTUReceiveFSM, hst]
    exact ⟨fun hoff => absurd hen hoff, h.execute, h.received, h.receiving⟩
  | error =>
    have hno : ¬ s.slave.Stores := by simp [Slave.Stores, hst]
    rw [count_byte_not_stored hno, Slave.xMBRTUReceiveFSM, hst]
    exact ⟨fun hoff => absurd hen hoff, h.execute, h.received, h.receiving⟩
  | idle =>
    rw [count_byte_stored (Or.inl hst), Slave.xMBRTUReceiveFSM, hst]
    exact ⟨fun hoff => absurd hen hoff, h.execute, fun _ _ => rfl, fun _ _ => rfl⟩
  | rcv =>
    by_cases hpos : s.slave.usRcvBufferPos < mbSerPduSizeMax
    · rw [count_byte_stored (Or.inr ⟨hst, hpos⟩), Slave.xMBRTUReceiveFSM, hst]
      simp only [if_pos hpos]
      exact ⟨fun hoff => absurd hen hoff, h.execute, fun _ _ => rfl, fun _ _ => rfl⟩
    · have hno : ¬ s.slave.Stores := by simp [Slave.Stores, hst, hpos]
      rw [count_byte_not_stored hno, Slave.xMBRTUReceiveFSM, hst]
      simp only [if_neg hpos]
      exact ⟨fun hoff => absurd hen hoff, h.execute, h.received, fun _ hr => by cases hr⟩

theorem Current.timer (h : Current s) (ht : s.slave.xTimer = true) :
    Current { s with slave := s.slave.xMBRTUTimerT35Expired } := by
  have hen := h.enabled (Or.inr (Or.inr ht))
  unfold Slave.xMBRTUTimerT35Expired
  cases hst : s.slave.eRcvState with
  | init =>
    exact ⟨fun hoff => absurd hen hoff, fun hn => absurd (Slave.next_post hn) nofun,
      fun hn => absurd (Slave.next_post hn) nofun, nofun⟩
  | rcv =>
    exact ⟨fun hoff => absurd hen hoff, fun hn => absurd (Slave.next_post hn) nofun,
      fun _ _ => h.receiving hen hst, nofun⟩
  | error => exact ⟨fun hoff => absurd hen hoff, h.execute, h.received, nofun⟩
  | idle => exact ⟨fun hoff => absurd hen hoff, h.execute, h.received, nofun⟩

theorem Current.transmit (h : Current s) (ht : s.slave.xTxEnable = true) :
    Current { s with slave := s.slave.xMBRTUTransmitFSM } := by
  have hen := h.enabled (Or.inr (Or.inl ht))
  unfold Slave.xMBRTUTransmitFSM
  cases hst : s.slave.eSndState with
  | idle => exact ⟨fun hoff => absurd hen hoff, h.execute, h.received, h.receiving⟩
  | xmit =>
    dsimp only
    split
    · exact ⟨fun hoff => absurd hen hoff, h.execute, h.received, h.receiving⟩
    · exact ⟨fun hoff => absurd hen hoff, fun hn => absurd (Slave.next_post hn) nofun,
        fun hn => absurd (Slave.next_post hn) nofun, h.receiving⟩

theorem Current.enable (h : Current s) : Current { s with slave := s.slave.eMBEnable.2 } := by
  unfold Slave.eMBEnable
  split
  · exact ⟨fun hoff => absurd rfl hoff, h.execute, h.received, nofun⟩
  · exact h

/-- With nothing pending for it a disable starts a new time. -/
theorem Current.disable (h : Current s) (hok : s.Drained .disable) :
    Current { s with slave := s.slave.eMBDisable.2, disables := s.disables + 1 } := by
  obtain ⟨hexec, hrec⟩ := hok
  unfold Slave.eMBDisable
  split
  · exact ⟨fun _ => ⟨rfl, rfl, rfl⟩, fun hn => absurd hn hexec,
      fun hn hh => absurd ⟨hn, hh⟩ hrec, nofun⟩
  · rename_i hne
    split
    · exact ⟨h.off, fun hn => absurd hn hexec, fun hn hh => absurd ⟨hn, hh⟩ hrec,
        fun hen => absurd hen hne⟩
    · exact ⟨h.off, fun hn => absurd hn hexec, fun hn hh => absurd ⟨hn, hh⟩ hrec,
        fun hen => absurd hen hne⟩

theorem count_poll_accepted {junk : Option MBEventType} (h : s.slave.AcceptsRequest junk)
    (t : Slave) : s.count t (.poll junk) = { s with slave := t, accepted := s.lastStored } := by
  simp only [count, if_pos h]

theorem count_poll_not_accepted {junk : Option MBEventType} (h : ¬ s.slave.AcceptsRequest junk)
    (t : Slave) : s.count t (.poll junk) = { s with slave := t } := by
  simp only [count, if_neg h]

/-- A poll that leaves nothing pending. -/
theorem Current.quiet (h : Current s) (hen : s.slave.eMBState = .enabled) {t : Slave}
    (hstate : t.eMBState = s.slave.eMBState ∧ t.eRcvState = s.slave.eRcvState)
    (hnone : ∀ e, ¬ t.Next e) : Current { s with slave := t } :=
  ⟨fun hoff => absurd (hstate.1.trans hen) hoff, fun hn => absurd hn (hnone _),
    fun hn => absurd hn (hnone _), fun _ hr => h.receiving hen (hstate.2.symm.trans hr)⟩

/-- A poll accepts a frame of the current time, or asks for nothing. -/
theorem Current.poll (h : Current s) {junk : Option MBEventType}
    (hok : s.Drained (.act (.poll junk))) {t : Slave} (hst : s.slave.eMBPoll junk = some t) :
    Current (s.count t (.poll junk)) := by
  rcases Slave.eMBPoll_cases hst with ⟨hoff, rfl⟩ | ⟨hen, hret, hhandle⟩
  · rw [count_poll_not_accepted fun ha => hoff ha.1]
    exact h
  · let u : Slave := { s.slave with xSlaveOsEvent := (xMBPortEventGet s.slave.xSlaveOsEvent).2 }
    have hnone : ∀ e, ¬ u.Next e := Slave.not_next_get s.slave.xSlaveOsEvent
    rcases Slave.handle_cases hhandle with ⟨hp, -, rfl⟩ | ⟨hp, rfl⟩ | ⟨hp, -, rfl⟩
    · rw [count_poll_not_accepted fun ha => hp ha.2.2.1]
      exact h.quiet hen ⟨rfl, rfl⟩ hnone
    · by_cases hreq : s.slave.HoldsRequest
      · have hcur : s.lastStored = s.disables := by
          unfold Slave.polled at hp
          cases hget : (xMBPortEventGet s.slave.xSlaveOsEvent).1 with
          | none =>
            rw [hget] at hp
            exact absurd ⟨hp, hreq⟩ (hok hget).2
          | some e =>
            rw [hget] at hp
            cases hp
            exact h.received hget hreq
        rw [count_poll_accepted ⟨hen, hret, hp, hreq⟩]
        have hstate := u.pollFrameReceived_state
        have hnext : ∀ e, u.pollFrameReceived.Next e → e = .execute := by
          intro e hn
          unfold Slave.Next at hn
          rw [Slave.pollFrameReceived_of_holds (s := u) hreq] at hn
          exact Slave.next_post hn
        exact ⟨fun hoff => absurd (hstate.1.trans hen) hoff, fun _ => hcur,
          fun hn => absurd (hnext _ hn) (by decide),
          fun _ hr => h.receiving hen (hstate.2.symm.trans hr)⟩
      · rw [count_poll_not_accepted fun ha => hreq ha.2.2.2]
        refine h.quiet hen u.pollFrameReceived_state fun e => ?_
        unfold Slave.Next
        rw [Slave.pollFrameReceived_of_not_holds (s := u) hreq]
        exact hnone e
    · rw [count_poll_not_accepted fun ha => absurd (hp.symm.trans ha.2.2.1) (by decide)]
      refine h.quiet hen u.pollExecute_state fun e => ?_
      unfold Slave.Next
      rw [Slave.pollExecute_event]
      exact hnone e

/-- Every step that meets the condition keeps the invariant. -/
theorem Current.step (h : Current s) {a : SlaveLifeAction} (hok : s.Drained a)
    (hst : s.step a = some s') : Current s' := by
  cases a with
  | enable =>
    cases hst
    exact h.enable
  | disable =>
    cases hst
    exact h.disable hok
  | act a =>
    obtain ⟨t, ht, rfl⟩ := Option.map_eq_some_iff.mp hst
    cases a with
    | byte b =>
      obtain ⟨hrx, rfl⟩ := Slave.byte_cases ht
      exact h.byte hrx b
    | timer =>
      obtain ⟨hon, rfl⟩ := Slave.timer_cases ht
      exact h.timer hon
    | txReady =>
      obtain ⟨htx, rfl⟩ := Slave.txReady_cases ht
      exact h.transmit htx
    | poll junk => exact h.poll hok ht

theorem Current.initialized (h : Initialized s) : Current s := by
  obtain ⟨app, own, hok⟩ := h
  by_cases hown : own = mbAddressBroadcast ∨ own < mbAddressMin ∨ mbAddressMax < own
  · rw [Slave.eMBInit, if_pos hown] at hok
    cases hok
  · rw [Slave.eMBInit, if_neg hown]
    exact ⟨fun _ => ⟨rfl, rfl, rfl⟩, fun _ => rfl, fun _ _ => rfl, fun hen => by cases hen⟩

/-- In every run in which the stack is only disabled when nothing is left to accept or execute,
a request is executed with no disable since its last byte was stored. -/
theorem executes_current (h : ReachableBy Initialized step Drained s) {junk : Option MBEventType}
    (hok : s.Drained (.act (.poll junk))) (hexec : s.slave.Executes junk) :
    s.accepted = s.disables := by
  have hinv : Current s :=
    h.invariant (fun _ => Current.initialized) fun _ _ _ hs hok hst => hs.step hok hst
  obtain ⟨-, -, hpoll⟩ := hexec
  unfold Slave.polled at hpoll
  cases hget : (xMBPortEventGet s.slave.xSlaveOsEvent).1 with
  | none =>
    rw [hget] at hpoll
    exact absurd hpoll (hok hget).1
  | some e =>
    rw [hget] at hpoll
    cases hpoll
    exact hinv.execute hget

/-! ## Restarts -/

/-- An initialised slave with address 1. -/
def slaveOne : LifeSlave := ⟨((Slave.static .initial).eMBInit 1).2, 0, 0, 0⟩

theorem initialized_slaveOne : Initialized slaveOne := ⟨.initial, 1, by decide⟩

/-- A slave is started, and a read of one holding register received. -/
def receiveFrame : List SlaveLifeAction :=
  [.enable, .act .timer, .act (.poll none)] ++
    ([1, 3, 0, 0, 0, 1] ++ crcBytes (usMBCRC16List [1, 3, 0, 0, 0, 1])).map
      (fun b => .act (.byte b)) ++ [.act .timer]

/-- Whether the next poll executes a request, and the two counters then. -/
def executionAfter (as : List SlaveLifeAction) : Option (Bool × Nat × Nat) :=
  (run step slaveOne as).map fun s => (s.slave.Executes none, s.accepted, s.disables)

/-- A request received before a restart is accepted and executed after it. -/
theorem executes_stale :
    ¬ ∀ s junk, Reachable Initialized step s → s.slave.Executes junk →
      s.accepted = s.disables := by
  intro h
  have hrun : executionAfter (receiveFrame ++ [.disable, .enable, .act (.poll none)]) =
      some (true, 0, 1) := by decide +kernel
  obtain ⟨s, hs, heq⟩ := Option.map_eq_some_iff.mp hrun
  simp only [Prod.mk.injEq, decide_eq_true_eq] at heq
  obtain ⟨hexec, hacc, hdis⟩ := heq
  have hsame := h s none (Reachable.of_run (.start initialized_slaveOne) hs) hexec
  rw [hacc, hdis] at hsame
  cases hsame

/-- A restart before the request does no harm. -/
theorem executes_current_read : ∃ s, ReachableBy Initialized step Drained s ∧
    s.slave.Executes none ∧ s.disables = 1 ∧ s.accepted = s.disables := by
  have hall : AllSteps step Drained slaveOne
      ([.enable, .disable] ++ receiveFrame ++ [.act (.poll none)]) := by decide +kernel
  have hrun : executionAfter ([.enable, .disable] ++ receiveFrame ++ [.act (.poll none)]) =
      some (true, 1, 1) := by decide +kernel
  obtain ⟨s, hs, heq⟩ := Option.map_eq_some_iff.mp hrun
  simp only [Prod.mk.injEq, decide_eq_true_eq] at heq
  have hreach : ReachableBy Initialized step Drained s :=
    ReachableBy.of_run (.start initialized_slaveOne) hall hs
  have hok : s.Drained (.act (.poll none)) := fun _ => ⟨nofun, fun hj => absurd hj.1 nofun⟩
  exact ⟨s, hreach, heq.1, heq.2.2, executes_current hreach hok heq.1⟩

end LifeSlave

end FreeModbus
