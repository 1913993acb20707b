import FreeModbus.Lib.LeadsTo
import FreeModbus.Slave.Checked
import FreeModbus.Slave.Serving

/-!
# Recovery

Noise on the line may put the slave into many states: half a frame in the buffer, events
that pile up in the queue and are lost there, a reply that is sent to nobody.  Once the line
is silent it comes to wait for a frame again, in whatever order timer, transmitter and polls
move, and whatever the variable `eEvent` holds where a get assigns nothing.

Each of the timer, the transmitter and the four events that are pending counts for what it
can still set off.  Every step lowers the sum, or the number of bytes left to send.
-/

namespace FreeModbus

open EventFlags Transition

/-! ## What is pending -/

/-- What an event can still set off: a frame is executed, the execution sends, and what is sent
is announced. -/
def MBEventType.weight : MBEventType → Nat
  | .ready => 18
  | .frameReceived => 21
  | .execute => 20
  | .frameSent => 18

/-- The weight of the event where it is pending. -/
def weightOf (flags : BitVec 32) (e : MBEventType) : Nat :=
  if slaveChannel.Pending flags e then e.weight else 0

/-- The weight of the queue. -/
def queued (flags : BitVec 32) : Nat :=
  weightOf flags .ready + weightOf flags .frameReceived + weightOf flags .execute +
    weightOf flags .frameSent

variable {flags : BitVec 32} {e : MBEventType}

theorem weightOf_post (flags : BitVec 32) (e e' : MBEventType) :
    weightOf (slaveChannel.post flags e) e' ≤
      weightOf flags e' + if e' = e then e.weight else 0 := by
  unfold weightOf
  by_cases hold : slaveChannel.Pending flags e'
  · rw [if_pos hold, if_pos ((slaveChannel.pending_post ..).mpr (Or.inl hold))]
    exact Nat.le_add_right ..
  · rw [if_neg hold]
    by_cases hnew : e' = e
    · subst hnew
      rw [if_pos ((slaveChannel.pending_post ..).mpr (Or.inr rfl)), if_pos rfl]
      exact Nat.le_add_left ..
    · rw [if_neg fun h => ((slaveChannel.pending_post ..).mp h).elim hold hnew]
      exact Nat.zero_le _

/-- A post adds the weight of its event at most. -/
theorem queued_post (flags : BitVec 32) (e : MBEventType) :
    queued (slaveChannel.post flags e) ≤ queued flags + e.weight := by
  have h1 := weightOf_post flags e .ready
  have h2 := weightOf_post flags e .frameReceived
  have h3 := weightOf_post flags e .execute
  have h4 := weightOf_post flags e .frameSent
  unfold queued
  cases e <;> simp only [reduceCtorEq, if_true, if_false] at h1 h2 h3 h4 <;> omega

theorem queued_eq_zero (h : ¬ slaveChannel.Returns flags) : queued flags = 0 := by
  have hnone : ∀ e, weightOf flags e = 0 := fun e => if_neg fun hp => h ⟨e, hp⟩
  rw [queued, hnone, hnone, hnone, hnone]

theorem weightOf_le_queued (flags : BitVec 32) (e : MBEventType) :
    weightOf flags e ≤ queued flags := by
  unfold queued
  cases e <;> omega

/-- One event that is pending counts. -/
theorem weight_le_queued (h : slaveChannel.Pending flags e) : e.weight ≤ queued flags := by
  have hle := weightOf_le_queued flags e
  rw [weightOf, if_pos h] at hle
  exact hle

/-- Where a get assigns nothing, two events are pending. -/
theorem two_le_queued (h : slaveChannel.Returns flags) (hno : ∀ e, ¬ slaveChannel.Only flags e) :
    36 ≤ queued flags := by
  obtain ⟨e, he⟩ := h
  have hother : ∃ e', slaveChannel.Pending flags e' ∧ e' ≠ e := by
    by_contra hnone
    refine hno e fun e' => ⟨fun hp => ?_, fun heq => heq ▸ he⟩
    by_contra hne
    exact hnone ⟨e', hp, hne⟩
  obtain ⟨e', he', hne⟩ := hother
  have h1 : weightOf flags e = e.weight := if_pos he
  have h2 : weightOf flags e' = e'.weight := if_pos he'
  unfold queued
  cases e <;> cases e' <;> simp only [MBEventType.weight, ne_eq, not_true_eq_false] at h1 h2 hne <;>
    omega

namespace Slave

variable {s s' : Slave} {a : SlaveAction}

/-! ## What every run keeps -/

/-- Who has the line. -/
inductive Turn (s : Slave) : Prop where
  | receiving : s.xRxEnable = true → s.xTxEnable = false → s.eSndState = .idle → Turn s
  | sending : s.xRxEnable = false → s.xTxEnable = true → s.eSndState = .xmit → Turn s

/-- A slave that is on.  The timer runs where the receiver is not idle. -/
structure Steady (s : Slave) : Prop where
  enabled : s.eMBState = .enabled
  address : s.ucMBAddress ≠ mbAddressBroadcast
  table : s.xFuncHandlers = FreeModbus.xFuncHandlers
  timer : s.eRcvState ≠ .idle → s.xTimer = true
  /-- There is a frame to execute. -/
  pointer : slaveChannel.Pending s.xSlaveOsEvent .execute → s.ucMBFrame = true
  turn : Turn s

/-- What an execution does to the line: nothing, or it turns the transmitter on. -/
theorem pollExecute_line (s : Slave) : ∃ buf cur count code ex len app tx rx st,
    s.pollExecute = { s with
      ucFunctionCode := code
      eException := ex
      usLength := len
      app := app
      ucRTUBuf := buf
      pucSndBufferCur := cur
      usSndBufferCount := count
      xTxEnable := tx
      xRxEnable := rx
      eSndState := st } ∧
    ((tx = s.xTxEnable ∧ rx = s.xRxEnable ∧ st = s.eSndState ∧ count = s.usSndBufferCount) ∨
      (tx = true ∧ rx = false ∧ st = .xmit)) := by
  have hframe := buildErrorFrame_frame s.callHandler
  unfold pollExecute
  dsimp only
  split
  · by_cases hidle : s.callHandler.buildErrorFrame.eRcvState = .idle
    · rw [send_eq hidle, hframe]
      exact ⟨_, _, _, _, _, _, _, _, _, _, rfl, Or.inr ⟨rfl, rfl, rfl⟩⟩
    · have hno : ∀ own, (s.callHandler.buildErrorFrame.eMBRTUSend own).2 =
          s.callHandler.buildErrorFrame := by
        intro own
        rw [eMBRTUSend, if_neg hidle]
      rw [hno, hframe]
      exact ⟨_, _, _, _, _, _, _, _, _, _, rfl, Or.inl ⟨rfl, rfl, rfl, rfl⟩⟩
  · exact ⟨_, _, _, _, _, _, _, _, _, _, rfl, Or.inl ⟨rfl, rfl, rfl, rfl⟩⟩

/-- What a check of a frame does to the queue: nothing, or it asks for the execution. -/
theorem pollFrameReceived_line (s : Slave) : ∃ len addr frame checked flags,
    s.pollFrameReceived = { s with
      usLength := len
      ucRcvAddress := addr
      ucMBFrame := frame
      checked := checked
      xSlaveOsEvent := flags } ∧
    (flags = s.xSlaveOsEvent ∨
      (flags = slaveChannel.post s.xSlaveOsEvent .execute ∧ frame = true)) := by
  unfold pollFrameReceived eMBRTUReceive
  by_cases hok : mbSerPduSizeMin ≤ s.usRcvBufferPos ∧ usMBCRC16 s.ucRTUBuf s.usRcvBufferPos = 0
  · rw [if_pos hok]
    dsimp only
    split
    · exact ⟨_, _, _, _, _, rfl, Or.inr ⟨rfl, rfl⟩⟩
    · exact ⟨_, _, _, _, _, rfl, Or.inl rfl⟩
  · rw [if_neg hok]
    dsimp only
    rw [if_neg fun h => by cases h.1]
    exact ⟨_, _, _, _, _, rfl, Or.inl rfl⟩

/-- What an expiry does to the queue. -/
theorem timer_line (s : Slave) : ∃ flags,
    s.xMBRTUTimerT35Expired = { s with
      xSlaveOsEvent := flags
      eRcvState := .idle
      xTimer := false } ∧
    (flags = s.xSlaveOsEvent ∨ flags = slaveChannel.post s.xSlaveOsEvent .ready ∨
      flags = slaveChannel.post s.xSlaveOsEvent .frameReceived) := by
  unfold xMBRTUTimerT35Expired
  cases s.eRcvState with
  | init => exact ⟨_, rfl, Or.inr (Or.inl rfl)⟩
  | rcv => exact ⟨_, rfl, Or.inr (Or.inr rfl)⟩
  | error => exact ⟨_, rfl, Or.inl rfl⟩
  | idle => exact ⟨_, rfl, Or.inl rfl⟩

theorem Turn.of_eq (h : Turn s) (hrx : s'.xRxEnable = s.xRxEnable)
    (htx : s'.xTxEnable = s.xTxEnable) (hsnd : s'.eSndState = s.eSndState) : Turn s' := by
  cases h with
  | receiving hr ht hs => exact .receiving (hrx.trans hr) (htx.trans ht) (hsnd.trans hs)
  | sending hr ht hs => exact .sending (hrx.trans hr) (htx.trans ht) (hsnd.trans hs)

/-- An event other than `EV_EXECUTE` needs no frame. -/
theorem pointer_post (h : slaveChannel.Pending flags .execute → s.ucMBFrame = true)
    (he : e ≠ .execute) (hp : slaveChannel.Pending (slaveChannel.post flags e) .execute) :
    s.ucMBFrame = true :=
  h (((slaveChannel.pending_post ..).mp hp).resolve_right fun heq => he heq.symm)

theorem Steady.poll (h : Steady s) {junk : Option MBEventType} (hst : s.eMBPoll junk = some s') :
    Steady s' := by
  have hnone : ¬ slaveChannel.Pending (xMBPortEventGet s.xSlaveOsEvent).2 .execute :=
    slaveChannel.not_pending_get s.xSlaveOsEvent .execute
  rcases eMBPoll_cases hst with ⟨-, rfl⟩ | ⟨-, -, hhandle⟩
  · exact h
  · rcases handle_cases hhandle with ⟨-, -, rfl⟩ | ⟨-, rfl⟩ | ⟨-, -, rfl⟩
    · exact ⟨h.enabled, h.address, h.table, h.timer, fun hp => absurd hp hnone,
        h.turn.of_eq rfl rfl rfl⟩
    · obtain ⟨_, _, frame, _, flags, heq, hflags⟩ := pollFrameReceived_line
        { s with xSlaveOsEvent := (xMBPortEventGet s.xSlaveOsEvent).2 }
      rw [heq]
      refine ⟨h.enabled, h.address, h.table, h.timer, fun hp => ?_, h.turn.of_eq rfl rfl rfl⟩
      rcases hflags with rfl | ⟨-, rfl⟩
      · exact absurd hp hnone
      · rfl
    · obtain ⟨_, _, _, _, _, _, _, tx, rx, st, heq, hline⟩ := pollExecute_line
        { s with xSlaveOsEvent := (xMBPortEventGet s.xSlaveOsEvent).2 }
      rw [heq]
      refine ⟨h.enabled, h.address, h.table, h.timer, fun hp => absurd hp hnone, ?_⟩
      rcases hline with ⟨rfl, rfl, rfl, -⟩ | ⟨rfl, rfl, rfl⟩
      · exact h.turn.of_eq rfl rfl rfl
      · exact .sending rfl rfl rfl

theorem Steady.step (h : Steady s) (hst : s.step a = some s') : Steady s' := by
  cases a with
  | poll junk => exact h.poll hst
  | byte b =>
    obtain ⟨hrx, rfl⟩ := byte_cases hst
    unfold xMBRTUReceiveFSM
    split
    · exact ⟨h.enabled, h.address, h.table, fun _ => rfl, h.pointer, h.turn.of_eq rfl rfl rfl⟩
    · exact ⟨h.enabled, h.address, h.table, fun _ => rfl, h.pointer, h.turn.of_eq rfl rfl rfl⟩
    · exact ⟨h.enabled, h.address, h.table, fun _ => rfl, h.pointer, h.turn.of_eq rfl rfl rfl⟩
    · split
      · exact ⟨h.enabled, h.address, h.table, fun _ => rfl, h.pointer, h.turn.of_eq rfl rfl rfl⟩
      · exact ⟨h.enabled, h.address, h.table, fun _ => rfl, h.pointer, h.turn.of_eq rfl rfl rfl⟩
  | timer =>
    obtain ⟨-, rfl⟩ := timer_cases hst
    obtain ⟨flags, heq, hflags⟩ := timer_line s
    rw [heq]
    refine ⟨h.enabled, h.address, h.table, fun hno => absurd rfl hno, fun hp => ?_,
      h.turn.of_eq rfl rfl rfl⟩
    rcases hflags with rfl | rfl | rfl
    · exact h.pointer hp
    · exact pointer_post h.pointer (fun h => by cases h) hp
    · exact pointer_post h.pointer (fun h => by cases h) hp
  | txReady =>
    obtain ⟨htx, rfl⟩ := txReady_cases hst
    cases h.turn with
    | receiving _ ht => exact absurd (ht.symm.trans htx) (by decide)
    | sending hr ht hs =>
      by_cases hc : s.usSndBufferCount = 0
      · rw [transmitFSM_done hs hc]
        have hne : MBEventType.frameSent ≠ .execute := fun heq => by cases heq
        exact ⟨h.enabled, h.address, h.table, h.timer, pointer_post h.pointer hne,
          .receiving rfl rfl rfl⟩
      · rw [transmitFSM_byte hs hc]
        exact ⟨h.enabled, h.address, h.table, h.timer, h.pointer, .sending hr ht hs⟩

theorem steady_started (h : Started s) : Steady s := by
  obtain ⟨app, own, hown, rfl⟩ := h.eq
  have hnone : ¬ slaveChannel.Pending 0 .execute := by decide
  exact ⟨rfl, hown, rfl, fun _ => rfl, fun hp => absurd hp hnone, .receiving rfl rfl rfl⟩

/-! ## Silence -/

/-- No byte comes in. -/
def Silent : SlaveAction → Prop
  | .byte _ => False
  | _ => True

/-- What timer, transmitter and queue can still set off. -/
def load (s : Slave) : Nat :=
  (if s.xTimer then 22 else 0) + (if s.xTxEnable then 19 else 0) + queued s.xSlaveOsEvent

/-- The load, and the bytes left to send. -/
def rank (s : Slave) : Nat × Nat := (s.load, s.usSndBufferCount)

/-- The event that a poll handles is pending, or two others are. -/
theorem weight_polled (hret : slaveChannel.Returns s.xSlaveOsEvent) {junk : Option MBEventType}
    {e : MBEventType} (he : s.polled junk = some e) :
    e.weight ≤ queued s.xSlaveOsEvent ∨ 36 ≤ queued s.xSlaveOsEvent := by
  by_cases honly : ∃ e', slaveChannel.Only s.xSlaveOsEvent e'
  · obtain ⟨e', honly⟩ := honly
    have hget : (xMBPortEventGet s.xSlaveOsEvent).1 = some e' := slaveChannel.get_of_only honly
    rw [polled, hget, Option.some_or] at he
    cases he
    exact Or.inl (weight_le_queued ((honly e).mpr rfl))
  · exact Or.inr (two_le_queued hret fun e' h => honly ⟨e', h⟩)

theorem queued_get (flags : BitVec 32) : queued (xMBPortEventGet flags).2 = 0 :=
  queued_eq_zero (slaveChannel.not_returns_get flags)

/-- A poll lowers the load. -/
theorem load_poll (hret : slaveChannel.Returns s.xSlaveOsEvent) {junk : Option MBEventType}
    (hst : handle { s with xSlaveOsEvent := (xMBPortEventGet s.xSlaveOsEvent).2 }
      (s.polled junk) = some s') : s'.load < s.load := by
  have hempty := queued_get s.xSlaveOsEvent
  have hsome : 18 ≤ queued s.xSlaveOsEvent := by
    obtain ⟨e, he⟩ := hret
    exact Nat.le_trans (by cases e <;> decide) (weight_le_queued he)
  rcases handle_cases hst with ⟨-, -, rfl⟩ | ⟨hev, rfl⟩ | ⟨hev, -, rfl⟩
  · simp only [load, hempty]
    omega
  · have hweight : 21 ≤ queued s.xSlaveOsEvent := by
      rcases weight_polled hret hev with h | h
      · exact h
      · omega
    obtain ⟨_, _, _, _, flags, heq, hflags⟩ := pollFrameReceived_line
      { s with xSlaveOsEvent := (xMBPortEventGet s.xSlaveOsEvent).2 }
    have hadds : queued flags ≤ 20 := by
      rcases hflags with rfl | ⟨rfl, -⟩
      · rw [hempty]
        exact Nat.zero_le _
      · have hpost := queued_post (xMBPortEventGet s.xSlaveOsEvent).2 .execute
        rw [hempty] at hpost
        exact hpost
    rw [heq]
    simp only [load]
    omega
  · have hweight : 20 ≤ queued s.xSlaveOsEvent := by
      rcases weight_polled hret hev with h | h
      · exact h
      · omega
    obtain ⟨_, _, _, _, _, _, _, tx, rx, st, heq, -⟩ := pollExecute_line
      { s with xSlaveOsEvent := (xMBPortEventGet s.xSlaveOsEvent).2 }
    have htx : (if tx then 19 else 0) ≤ 19 := by
      split
      · exact Nat.le_refl _
      · exact Nat.zero_le _
    rw [heq]
    simp only [load, hempty]
    omega

/-- A step in silence lowers the load, or leaves it and sends a byte. -/
theorem rank_step (h : Steady s) (ha : Silent a) (hst : s.step a = some s') :
    Prod.Lex (· < ·) (· < ·) s'.rank s.rank := by
  cases a with
  | byte b => exact ha.elim
  | timer =>
    obtain ⟨hon, rfl⟩ := timer_cases hst
    obtain ⟨flags, heq, hflags⟩ := timer_line s
    refine .left _ _ ?_
    have hadds : queued flags ≤ queued s.xSlaveOsEvent + 21 := by
      rcases hflags with rfl | rfl | rfl
      · exact Nat.le_add_right ..
      · exact Nat.le_trans (queued_post ..) (Nat.add_le_add_left (by decide) _)
      · exact queued_post ..
    rw [heq]
    simp only [load, hon, if_true, Bool.false_eq_true, if_false]
    omega
  | txReady =>
    obtain ⟨htx, rfl⟩ := txReady_cases hst
    cases h.turn with
    | receiving _ ht => exact absurd (ht.symm.trans htx) (by decide)
    | sending hr ht hs =>
      by_cases hc : s.usSndBufferCount = 0
      · rw [transmitFSM_done hs hc]
        refine .left _ _ ?_
        have hadds : queued (slaveChannel.post s.xSlaveOsEvent .frameSent) ≤
          queued s.xSlaveOsEvent + 18 := queued_post ..
        have htimer : (s.post .frameSent).xTimer = s.xTimer := rfl
        have hflags : (s.post .frameSent).xSlaveOsEvent =
          slaveChannel.post s.xSlaveOsEvent .frameSent := rfl
        simp only [load, htx, htimer, hflags, if_true, Bool.false_eq_true, if_false]
        omega
      · rw [transmitFSM_byte hs hc]
        exact .right _ (Nat.sub_one_lt hc)
  | poll junk =>
    rcases eMBPoll_cases hst with ⟨hoff, -⟩ | ⟨-, hret, hhandle⟩
    · exact absurd h.enabled hoff
    · exact .left _ _ (load_poll hret hhandle)

/-- A slave without load waits for a frame. -/
theorem Steady.quiet (h : Steady s) (hload : s.load = 0) : Quiet s := by
  unfold load at hload
  have htimer : s.xTimer = false := by
    by_contra hon
    rw [if_pos (Bool.not_eq_false _ ▸ hon)] at hload
    omega
  have hevent : ¬ slaveChannel.Returns s.xSlaveOsEvent := fun ⟨e, he⟩ => by
    have hle := weight_le_queued he
    have hpos : 0 < e.weight := by cases e <;> decide
    omega
  have hrcv : s.eRcvState = .idle := by
    by_contra hne
    exact absurd ((h.timer hne).symm.trans htimer) (by decide)
  cases h.turn with
  | receiving hr ht hs => exact ⟨h.enabled, h.address, h.table, hrcv, hs, hevent, hr, ht⟩
  | sending hr ht hs =>
    rw [if_pos ht] at hload
    omega

/-- A slave with load can take a step in silence. -/
theorem Steady.can_step (h : Steady s) (hload : s.load ≠ 0) :
    ∃ a s', Silent a ∧ s.step a = some s' := by
  by_cases htimer : s.xTimer = true
  · exact ⟨.timer, _, trivial, if_pos htimer⟩
  · by_cases htx : s.xTxEnable = true
    · exact ⟨.txReady, _, trivial, if_pos htx⟩
    · have hret : slaveChannel.Returns s.xSlaveOsEvent := by
        by_contra hno
        rw [load, if_neg htimer, if_neg htx, queued_eq_zero hno] at hload
        exact hload rfl
      refine ⟨.poll none, ?_⟩
      have hpoll : s.step (.poll none) =
          handle { s with xSlaveOsEvent := (xMBPortEventGet s.xSlaveOsEvent).2 }
            (s.polled none) := by
        rw [Slave.step, eMBPoll, if_neg (not_not.mpr h.enabled), if_pos hret]
      rw [hpoll]
      cases hev : s.polled none with
      | none => exact ⟨_, trivial, rfl⟩
      | some e =>
        cases e with
        | execute =>
          rw [polled, Option.or_none] at hev
          have hp := (slaveChannel.only_of_get hev .execute).mpr rfl
          exact ⟨_, trivial, if_pos (h.pointer hp)⟩
        | ready => exact ⟨_, trivial, rfl⟩
        | frameReceived => exact ⟨_, trivial, rfl⟩
        | frameSent => exact ⟨_, trivial, rfl⟩

/-- Receiver and transmitter are not on at the same time. -/
def OneWay (s : Slave) : Prop := s.xRxEnable = !s.xTxEnable

theorem Steady.oneWay (h : Steady s) : OneWay s := by
  cases h.turn with
  | receiving hr ht => rw [OneWay, hr, ht, Bool.not_false]
  | sending hr ht => rw [OneWay, hr, ht, Bool.not_true]

/-- From every reachable state a slave comes to wait for a frame once the line is silent. -/
theorem quiet_of_silence (h : Reachable Started step s) :
    LeadsTo step (fun _ a => Silent a) OneWay Quiet s := by
  have hsteady : Steady s := h.invariant (fun _ => steady_started) fun _ _ _ hs _ hst => hs.step hst
  have hwf : WellFounded (Prod.Lex (α := Nat) (β := Nat) (· < ·) (· < ·)) :=
    (Prod.lex Nat.lt_wfRel Nat.lt_wfRel).wf
  have hall : ∀ n s, Steady s ∧ s.load ≠ 0 ∧ s.rank = n →
      LeadsTo step (fun _ a => Silent a) OneWay Quiet s := by
    refine LeadsTo.of_wellFounded hwf (fun n s => Steady s ∧ s.load ≠ 0 ∧ s.rank = n)
      fun n s ⟨hs, hload, hrank⟩ => ⟨hs.oneWay, hs.can_step hload, fun a s' ha hst => ?_⟩
    by_cases hzero : s'.load = 0
    · exact Or.inl ((hs.step hst).quiet hzero)
    · exact Or.inr ⟨s'.rank, hrank ▸ rank_step hs ha hst, hs.step hst, hzero, rfl⟩
  by_cases hzero : s.load = 0
  · exact .now (hsteady.quiet hzero)
  · exact hall s.rank s ⟨hsteady, hzero, rfl⟩

/-! ## The next frame -/

variable {t x x' : Slave} {frame : List UChar} {n : Nat}

instance (s : Slave) (frame : List UChar) : Decidable (s.Replies frame) :=
  inferInstanceAs (Decidable (_ ∧ _))

theorem Steady.run : ∀ {as : List SlaveAction} {s s' : Slave}, Steady s →
    run Slave.step s as = some s' → Steady s'
  | [], _, _, h, hrun => Option.some.inj hrun ▸ h
  | _ :: _, _, _, h, hrun =>
      have ⟨_, hst, hrest⟩ := Option.bind_eq_some_iff.mp hrun
      (h.step hst).run hrest

theorem Quiet.steady (h : Quiet t) : Steady t where
  enabled := h.enabled
  address := h.address
  table := h.table
  timer hno := absurd h.rcv hno
  pointer hp := absurd ⟨_, hp⟩ h.event
  turn := .receiving h.rx h.tx h.snd

/-- The slave is on the way from the last byte of a frame to the end of its answer. -/
inductive Answering (t : Slave) (frame : List UChar) : Nat → Slave → Prop where
  | serving {n : Nat} {x : Slave} : Serving t frame (n + 1) x →
      Answering t frame (n + (t.replyFrame frame).length + 3) x
  | sending {j : Nat} {x : Slave} : At t frame (.transmitting j) x → x.app = t.served frame →
      Answering t frame ((t.replyFrame frame).length - j + 2) x
  | sent {x : Slave} : At t frame .sent x → x.app = t.served frame → Answering t frame 1 x

/-- It has answered the frame, if that is for it alone, and waits for the next one. -/
structure Answered (t : Slave) (frame : List UChar) (x : Slave) : Prop where
  quiet : Quiet x
  app : x.app = t.served frame
  sent : x.sent = t.sent ++ if t.Replies frame then t.replyFrame frame else []

theorem answered_of_done (hq : Quiet t) (h : At t frame .done x) (happ : x.app = t.served frame) :
    Answered t frame x := by
  obtain ⟨hbase, hlisten, hevent, heff⟩ := h
  refine ⟨⟨hbase.enabled, hbase.address ▸ hq.address, hbase.table, hbase.rcv, hlisten.snd, hevent,
    hlisten.rx, hlisten.tx⟩, happ, ?_⟩
  by_cases hr : t.Replies frame
  · rw [if_pos hr]
    exact heff.reply hr.1 hr.2
  · rw [if_neg hr, List.append_nil]
    by_cases hus : Valid frame ∧ t.ForUs frame
    · exact heff.broadcast hus.1 (hus.2.resolve_left fun hown => hr ⟨hus.1, hown⟩)
    · exact (heff.ignored hus).2

theorem Answering.step (h : Answering t frame n x) (hq : Quiet t) (h1 : 1 ≤ frame.length)
    (h2 : frame.length ≤ 256) (ha : Silent a) (hst : x.step a = some x') :
    Answered t frame x' ∨ ∃ m < n, Answering t frame m x' := by
  cases h with
  | @serving n _ hs =>
    have htp : TimerPoll a := by
      cases a with
      | byte b => exact ha
      | timer => trivial
      | poll junk => trivial
      | txReady =>
        have hzero := (hs.ready_of_tx hq (txReady_cases hst).1).1
        exact absurd hzero (Nat.succ_ne_zero n)
    obtain ⟨m, hm, hs'⟩ := hs.step hq h1 h2 htp hst
    cases m with
    | succ m => exact Or.inr ⟨_, by omega, .serving hs'⟩
    | zero =>
      cases hs' with
      | ready hr hat hcur happ => exact Or.inr ⟨_, by omega, .sending hat happ⟩
      | done hno hat happ => exact Or.inl (answered_of_done hq hat happ)
  | @sending j _ hat happ =>
    have htx : a = .txReady := by
      cases a with
      | byte b => exact ha.elim
      | timer => exact absurd ((timer_cases hst).1.symm.trans hat.1.timer) (by decide)
      | poll junk => cases (eMBPoll_waits hat.1.enabled hat.2.1 junk).symm.trans hst
      | txReady => rfl
    subst htx
    by_cases hj : j < (t.replyFrame frame).length
    · obtain ⟨hat', -, happ', -⟩ := hat.txReady_byte hq.address hj hst
      exact Or.inr ⟨_, by omega, .sending hat' (happ'.trans happ)⟩
    · obtain ⟨hat', happ', -⟩ := hat.txReady_done hq.address hj hst
      exact Or.inr ⟨1, by omega, .sent hat' (happ'.trans happ)⟩
  | sent hat happ =>
    cases a with
    | byte b => exact ha.elim
    | timer => exact absurd ((timer_cases hst).1.symm.trans hat.1.timer) (by decide)
    | txReady => exact absurd ((txReady_cases hst).1.symm.trans hat.2.1.tx) (by decide)
    | poll junk =>
      have hdone := step_sent hat (a := .poll junk) trivial hst
      rw [Slave.step, eMBPoll_of_only hat.1.enabled hat.2.2.1 junk] at hst
      cases hst
      exact Or.inl (answered_of_done hq hdone happ)

theorem Answering.can_step (h : Answering t frame n x) (hq : Quiet t) (h1 : 1 ≤ frame.length)
    (h2 : frame.length ≤ 256) : ∃ a x', Silent a ∧ x.step a = some x' := by
  cases h with
  | serving hs =>
    obtain ⟨a, htp, x', hst⟩ := hs.enabled hq h1 h2 (Nat.succ_pos _)
    cases a with
    | byte b => exact htp.elim
    | txReady => exact htp.elim
    | timer => exact ⟨.timer, x', trivial, hst⟩
    | poll junk => exact ⟨.poll junk, x', trivial, hst⟩
  | sending hat => exact ⟨.txReady, _, trivial, if_pos hat.2.2.tx⟩
  | sent hat =>
    exact ⟨.poll none, _, trivial, eMBPoll_of_only hat.1.enabled hat.2.2.1 none⟩

/-- A slave that waits hears the bytes of a frame, and serves it in the silence behind. -/
theorem heard_leadsTo (hq : Quiet t) (h1 : 1 ≤ frame.length) (h2 : frame.length ≤ 256) :
    run step t (frame.map .byte) = some (t.heard frame) ∧
      LeadsTo step (fun _ a => Silent a) OneWay (Answered t frame) (t.heard frame) := by
  obtain ⟨x, hbytes, -⟩ := run_append_eq_some (run_frame hq h1 h2)
  obtain rfl := run_byte_eq hbytes
  refine ⟨hbytes, ?_⟩
  have hsteady : Steady (t.heard frame) := hq.steady.run hbytes
  refine LeadsTo.of_rank (fun n x => Steady x ∧ Answering t frame n x) ?_ _ _
    ⟨hsteady, .serving (n := 2) .heard⟩
  intro n x ⟨hs, hans⟩
  refine ⟨hs.oneWay, hans.can_step hq h1 h2, fun a x' ha hst => ?_⟩
  rcases hans.step hq h1 h2 ha hst with hdone | ⟨m, hm, hnext⟩
  · exact Or.inl hdone
  · exact Or.inr ⟨m, hm, hs.step hst, hnext⟩

/-- From every reachable state, whatever came in, was lost or was garbled before, a slave comes to
serve again once the line is silent: it waits for a frame, and whatever frame comes in then is
executed and answered as if nothing had been. -/
theorem serves_after_silence (h : Reachable Started step s) :
    LeadsTo step (fun _ a => Silent a) OneWay (fun t => Quiet t ∧
      ∀ frame : List UChar, 1 ≤ frame.length → frame.length ≤ mbSerPduSizeMax →
        ∃ x, run step t (frame.map .byte) = some x ∧
          LeadsTo step (fun _ a => Silent a) OneWay (Answered t frame) x) s :=
  (quiet_of_silence h).mono fun _ hq =>
    ⟨hq, fun _ h1 h256 => ⟨_, heard_leadsTo hq h1 h256⟩⟩

/-- Two bytes of noise, with `EV_READY` and `EV_FRAME_RECEIVED` both pending, and then a request to
read a register. -/
theorem serves_after_silence_noise : ∃ s, s.usRcvBufferPos = 2 ∧
    (xMBPortEventGet s.xSlaveOsEvent).1 = none ∧
    LeadsTo step (fun _ a => Silent a) OneWay (fun t => Quiet t ∧
      ∃ x, run step t ([1, 3, 0, 0, 0, 1, 0x84, 0x0A].map .byte) = some x ∧
        LeadsTo step (fun _ a => Silent a) OneWay
          (Answered t [1, 3, 0, 0, 0, 1, 0x84, 0x0A]) x) s := by
  let as : List SlaveAction := [.timer, .byte 0x17, .byte 0x2A, .timer]
  have hrun : (run step slaveOne as).map
      (fun s => (s.usRcvBufferPos, (xMBPortEventGet s.xSlaveOsEvent).1)) = some (2, none) := by
    decide +kernel
  obtain ⟨s, hs, heq⟩ := Option.map_eq_some_iff.mp hrun
  simp only [Prod.mk.injEq] at heq
  have hall : AllSteps step (fun _ _ => True) slaveOne as :=
    ⟨trivial, fun _ _ => ⟨trivial, fun _ _ => ⟨trivial, fun _ _ => ⟨trivial, fun _ _ =>
      trivial⟩⟩⟩⟩
  have hreach : Reachable Started step s := ReachableBy.of_run (.start started_slaveOne) hall hs
  exact ⟨s, heq.1, heq.2, (serves_after_silence hreach).mono fun t ⟨hq, hall⟩ =>
    ⟨hq, hall _ (by decide) (by decide)⟩⟩

end Slave

end FreeModbus
