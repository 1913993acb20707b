import FreeModbus.Kernel.PortEvent

/-!
# The transmit thread over the kernel

`portserial.c` has no transmit interrupt.  A thread, `serial_soft_trans_irq`, waits for
`EVENT_SERIAL_TRANS_START` without clearing it and calls `prvvUARTTxReadyISR`, over and over, and
`vMBPortSerialEnable` sets the flag and clears it.  The thread itself may clear it in its call, at
the end of a frame.  `portserial_m.c` does the same for the master.

Elsewhere this is a transmitter that is on or off, and that is ready whenever it is on.  So it is
here, as long as nobody else clears the flag between the moment at which the thread is woken and
its call.
-/

namespace FreeModbus

open Blocking BlockingFlags EventFlags Transition

/-- `EVENT_SERIAL_TRANS_START`. -/
def eventSerialTransStart : BitVec 32 := 1

/-- The event object `event_serial`, and whether the thread has received the event and not called
`prvvUARTTxReadyISR` yet. -/
structure SerialTrans (ι : Type) where
  event : RtEvent ι
  gotEvent : Bool

/-- What happens to it.  In its call the thread may turn the transmitter off. -/
inductive SerialAction (ι : Type) where
  | enable
  | disable (i : ι)
  | wait
  | wake
  | txReady (off : Bool)

/-- What is seen of a transmitter. -/
inductive TxLabel where
  | on
  | off
  | ready
deriving DecidableEq

/-- A transmitter as it is meant, which is on or off. -/
def txStep (on : Bool) : TxLabel → Option Bool
  | .on => some true
  | .off => some false
  | .ready => if on then some true else none

variable {ι : Type} [DecidableEq ι]

namespace SerialTrans

/-- The flag is set. -/
def on (s : SerialTrans ι) : Bool :=
  decide (received s.event.set eventSerialTransStart ≠ 0)

/-- The thread is woken, or it runs and has not made its call yet. -/
def woken (trans : ι) (s : SerialTrans ι) : Bool :=
  s.gotEvent ||
    (s.event.parent.call trans).isSome && decide ((s.event.parent.thread trans).stat = .ready)

variable (currentPriority : ι → Nat) (trans : ι)

/-- The receive of `vMBPortSerialEnable`, which clears the flag. -/
def recvOff (e : RtEvent ι) (i : ι) : Option (RtEvent ι) :=
  e.step currentPriority (.recv i eventSerialTransStart portEventOption 0)

/-- One step.  The others do not turn the transmitter off while the thread is woken. -/
def step (s : SerialTrans ι) : SerialAction ι → Option (SerialTrans ι)
  | .enable => some { s with event := s.event.rtEventSend eventSerialTransStart }
  | .disable i =>
      if s.woken trans then none
      else (recvOff currentPriority s.event i).map fun event => { s with event }
  | .wait =>
      if s.gotEvent then none
      else (s.event.step currentPriority
          (.recv trans eventSerialTransStart rtEventFlagOr (-1))).map fun event =>
        { event, gotEvent := (event.parent.call trans).isNone }
  | .wake =>
      (s.event.step currentPriority (.ret trans)).map fun event => { event, gotEvent := true }
  | .txReady off =>
      if s.gotEvent then
        (if off then recvOff currentPriority s.event trans else some s.event).map fun event =>
          { event, gotEvent := false }
      else none

/-- What a step shows. -/
def label (_ : SerialTrans ι) : SerialAction ι → List TxLabel
  | .enable => [.on]
  | .disable _ => [.off]
  | .wait => []
  | .wake => []
  | .txReady off => if off then [.ready, .off] else [.ready]

/-- The thread is the only one that waits, for the one flag, and what woke it still holds. -/
structure Sound (s : SerialTrans ι) : Prop where
  waiting : s.event.Waiting
  calls : ∀ i c, s.event.parent.call i = some c →
    i = trans ∧ c = (eventSerialTransStart, rtEventFlagOr)
  idle : s.gotEvent = true → s.event.parent.call trans = none
  holds : s.woken trans = true → s.on = true

variable {currentPriority trans} {s s' : SerialTrans ι} {e e' : RtEvent ι} {i j : ι}

/-! ## The flag -/

/-- Both receives wait for the flag. -/
theorem holds_iff {option : BitVec 8} (hand : hasFlag option rtEventFlagAnd = false)
    (flags : BitVec 32) : (request eventSerialTransStart option).Holds flags ↔
      received flags eventSerialTransStart ≠ 0 := by
  simp [Receive.Holds, request, hand]

theorem or_start_ne_zero (flags : BitVec 32) :
    received (flags ||| eventSerialTransStart) eventSerialTransStart ≠ 0 := by
  intro h
  have hbit := congrArg (·.getLsbD 0) h
  simp [received, eventSerialTransStart] at hbit

theorem cleared_start (flags : BitVec 32) :
    received (cleared flags eventSerialTransStart) eventSerialTransStart = 0 := by
  refine BitVec.eq_of_getLsbD_eq fun k hk => ?_
  simp only [received, cleared, BitVec.getLsbD_and, BitVec.getLsbD_not]
  cases eventSerialTransStart.getLsbD k with
  | false => simp
  | true => simp

omit [DecidableEq ι] in
/-- Nobody waits but the thread. -/
theorem Sound.suspended (h : Sound trans s) :
    s.event.parent.suspendThread = [] ∨ s.event.parent.suspendThread = [trans] := by
  have hall : ∀ i ∈ s.event.parent.suspendThread, i = trans := fun i hi => by
    obtain ⟨c, hc⟩ := Option.isSome_iff_exists.mp
      (h.waiting.queued.inCall i ((h.waiting.queued.mem_iff i).mp hi))
    exact (h.calls i c hc).1
  have hnodup := h.waiting.queued.nodup
  cases hlist : s.event.parent.suspendThread with
  | nil => exact Or.inl rfl
  | cons i list =>
    rw [hlist] at hall hnodup
    obtain rfl := hall i List.mem_cons_self
    cases list with
    | nil => exact Or.inr rfl
    | cons j list =>
      obtain rfl := hall j (List.mem_cons_of_mem _ List.mem_cons_self)
      exact absurd List.mem_cons_self (List.nodup_cons.mp hnodup).1

/-- A send sets the flag, and the thread that it wakes does not clear it. -/
theorem Sound.send (h : Sound trans s) :
    (s.event.rtEventSend eventSerialTransStart).set = s.event.set ||| eventSerialTransStart ∧
      (s.event.rtEventSend eventSerialTransStart).parent.call = s.event.parent.call := by
  have hne : eventSerialTransStart ≠ 0 := by decide
  unfold RtEvent.rtEventSend
  rw [if_neg hne]
  rcases h.suspended with hlist | hlist
  · rw [hlist]
    exact ⟨rfl, rfl⟩
  · have hstat : (s.event.parent.thread trans).stat = .suspend :=
      (h.waiting.queued.mem_iff trans).mp (hlist ▸ List.mem_cons_self)
    have hfilled := (h.calls trans _ (h.waiting.filled trans hstat)).2
    have hinfo : (s.event.parent.thread trans).eventInfo = rtEventFlagOr := (Prod.mk.inj hfilled).2
    have hclear : hasFlag rtEventFlagOr rtEventFlagClear = false := by decide
    have hturn := RtEvent.sendThread_eq
      (e := { s.event with set := s.event.set ||| eventSerialTransStart }) hstat
      (h.waiting.asks trans hstat)
    rw [hlist, List.foldl_cons, List.foldl_nil, hturn]
    split
    · refine ⟨?_, rfl⟩
      simp [RtEvent.took, RtEvent.asked, request, Receive.left, hinfo, hclear]
    · exact ⟨rfl, rfl⟩

/-- An error does not change who runs. -/
theorem stat_error (thread : ι → RtThread) (error : Option RtError) (i j : ι) :
    (Function.update thread i { thread i with error } j).stat = (thread j).stat := by
  by_cases heq : j = i
  · subst heq
    simp
  · simp [heq]

/-- The receive that clears the flag never waits. -/
theorem recvOff_off (h : e.Waiting) (hst : recvOff currentPriority e i = some e') :
    e'.Waiting ∧ e'.parent.call = e.parent.call ∧
      (∀ j, (e'.parent.thread j).stat = (e.parent.thread j).stat) ∧
      received e'.set eventSerialTransStart = 0 := by
  have hne : eventSerialTransStart ≠ 0 := by decide
  have hand : hasFlag portEventOption rtEventFlagAnd = false := by decide
  have hclear : hasFlag portEventOption rtEventFlagClear = true := by decide
  have hwaiting := (RtEvent.step_matches h hst).1
  obtain ⟨hcall, hready, result, hrecv⟩ := RtEvent.step_recv hst
  cases RtEvent.rtEventRecv_outcome hrecv with
  | empty hset => exact absurd hset hne
  | atOnce hset hq =>
    refine ⟨hwaiting, rfl, stat_error _ _ i, ?_⟩
    simp only [Receive.left, request, hclear, if_true]
    exact cleared_start _
  | refused hset hq htime =>
    exact ⟨hwaiting, rfl, stat_error _ _ i, not_not.mp (mt (holds_iff hand _).mpr hq)⟩
  | waits hset hasks hq htime => exact absurd rfl htime

/-! ## Steps -/

/-- A step keeps the state sound, and the transmitter that is meant shows the same. -/
def Matches (trans : ι) (s : SerialTrans ι) (shown : List TxLabel) (s' : SerialTrans ι) : Prop :=
  Sound trans s' ∧ Traces txStep (fun _ l => [l]) s.on shown s'.on

theorem enable_matches (h : Sound trans s) :
    Matches trans s [.on] { s with event := s.event.rtEventSend eventSerialTransStart } := by
  obtain ⟨hset, hcall⟩ := h.send
  have hon : on { s with event := s.event.rtEventSend eventSerialTransStart } = true := by
    rw [on, hset]
    exact decide_eq_true (or_start_ne_zero _)
  refine ⟨⟨(RtEvent.rtEventSend_matches h.waiting eventSerialTransStart).1, fun i c hc => ?_,
    fun hr => ?_, fun _ => hon⟩, ?_⟩
  · exact h.calls i c (hcall ▸ hc)
  · rw [hcall]
    exact h.idle hr
  · rw [hon]
    exact .single (a := TxLabel.on) rfl

theorem disable_matches (h : Sound trans s) (hwoken : s.woken trans = false)
    (hst : recvOff currentPriority s.event i = some e') :
    Matches trans s [.off] { s with event := e' } := by
  obtain ⟨hwaiting, hcall, hstat, hzero⟩ := recvOff_off h.waiting hst
  have hoff : on { s with event := e' } = false := by simp [on, hzero]
  have hsame : woken trans { s with event := e' } = s.woken trans := by
    rw [woken, woken, hcall, hstat]
  refine ⟨⟨hwaiting, fun i c hc => h.calls i c (hcall ▸ hc), fun hr => ?_, fun hw => ?_⟩, ?_⟩
  · rw [hcall]
    exact h.idle hr
  · rw [hsame, hwoken] at hw
    cases hw
  · rw [hoff]
    exact .single (a := TxLabel.off) rfl

theorem wait_matches (h : Sound trans s)
    (hst : s.event.step currentPriority (.recv trans eventSerialTransStart rtEventFlagOr (-1)) =
      some e') :
    Matches trans s [] { event := e', gotEvent := (e'.parent.call trans).isNone } := by
  have hne : eventSerialTransStart ≠ 0 := by decide
  have hand : hasFlag rtEventFlagOr rtEventFlagAnd = false := by decide
  have hclear : hasFlag rtEventFlagOr rtEventFlagClear = false := by decide
  have hwaiting := (RtEvent.step_matches h.waiting hst).1
  obtain ⟨hcall, hready, result, hrecv⟩ := RtEvent.step_recv hst
  cases RtEvent.rtEventRecv_outcome hrecv with
  | empty hset => exact absurd hset hne
  | atOnce hset hq =>
    have hleft : (request eventSerialTransStart rtEventFlagOr).left s.event.set = s.event.set := by
      simp [Receive.left, request, hclear]
    have hon : s.on = true := decide_eq_true ((holds_iff hand _).mp hq)
    rw [hleft] at hwaiting ⊢
    exact ⟨⟨hwaiting, h.calls, fun _ => hcall, fun _ => hon⟩, .nil⟩
  | refused hset hq htime => cases htime
  | waits hset hasks hq htime =>
    have hwait : s.event.parent.waits currentPriority trans
        { s.event.parent.thread trans with
          error := none
          eventSet := eventSerialTransStart
          eventInfo := rtEventFlagOr }
        (eventSerialTransStart, rtEventFlagOr) (-1) = _ := Waiters.waits_eq hready
    rw [hwait] at hwaiting ⊢
    have hnone : (Function.update s.event.parent.call trans
        (some (eventSerialTransStart, rtEventFlagOr)) trans).isNone = false := by simp
    refine ⟨⟨hwaiting, fun i c hc => ?_, fun hr => ?_, fun hw => ?_⟩, .nil⟩
    · dsimp only at hc
      by_cases heq : i = trans
      · subst heq
        rw [Function.update_self] at hc
        exact ⟨rfl, (Option.some.inj hc).symm⟩
      · rw [Function.update_of_ne heq] at hc
        exact h.calls i c hc
    · rw [hnone] at hr
      cases hr
    · simp [woken] at hw

theorem wake_matches (h : Sound trans s)
    (hst : s.event.step currentPriority (.ret trans) = some e') :
    Matches trans s [] { event := e', gotEvent := true } := by
  have hwaiting := (RtEvent.step_matches h.waiting hst).1
  obtain ⟨⟨e₁, result⟩, hret, rfl⟩ := Option.map_eq_some_iff.mp hst
  unfold RtEvent.rtEventRecvReturn at hret
  split at hret
  next c hcall hready =>
    cases hret
    have hon : s.on = true := h.holds (by simp [woken, hcall, hready])
    refine ⟨⟨hwaiting, fun i c hc => ?_, fun _ => Function.update_self .., fun _ => hon⟩, .nil⟩
    dsimp only at hc
    by_cases heq : i = trans
    · subst heq
      rw [Function.update_self] at hc
      cases hc
    · rw [Function.update_of_ne heq] at hc
      exact h.calls i c hc
  next => cases hret

theorem txReady_matches {off : Bool} (h : Sound trans s) (hgot : s.gotEvent = true)
    (hst : (if off then recvOff currentPriority s.event trans else some s.event) = some e') :
    Matches trans s (label s (.txReady off)) { event := e', gotEvent := false } := by
  have hon : s.on = true := h.holds (by simp [woken, hgot])
  have hcall : s.event.parent.call trans = none := h.idle hgot
  have hready : Traces txStep (fun _ l => [l]) s.on [.ready] true :=
    .single (a := TxLabel.ready) (by rw [hon]; rfl)
  cases off with
  | false =>
    cases hst
    refine ⟨⟨h.waiting, h.calls, fun hr => absurd hr Bool.false_ne_true, fun hw => ?_⟩, ?_⟩
    · simp [woken, hcall] at hw
    · have hsame : on { s with gotEvent := false } = true := hon
      rw [hsame]
      exact hready
  | true =>
    obtain ⟨hwaiting, hsame, -, hzero⟩ := recvOff_off h.waiting hst
    have hoff : on { event := e', gotEvent := false } = false := by simp [on, hzero]
    refine ⟨⟨hwaiting, fun i c hc => h.calls i c (hsame ▸ hc),
      fun hr => absurd hr Bool.false_ne_true, fun hw => ?_⟩, ?_⟩
    · simp [woken, hsame, hcall] at hw
    · rw [hoff]
      exact hready.trans (.single (a := TxLabel.off) rfl)

theorem step_matches {a : SerialAction ι} (h : Sound trans s)
    (hst : s.step currentPriority trans a = some s') : Matches trans s (s.label a) s' := by
  cases a with
  | enable =>
    cases hst
    exact enable_matches h
  | disable i =>
    simp only [step] at hst
    split at hst
    next => cases hst
    next hwoken =>
      obtain ⟨e', he', rfl⟩ := Option.map_eq_some_iff.mp hst
      exact disable_matches h (Bool.eq_false_iff.mpr hwoken) he'
  | wait =>
    simp only [step] at hst
    split at hst
    next => cases hst
    next =>
      obtain ⟨e', he', rfl⟩ := Option.map_eq_some_iff.mp hst
      exact wait_matches h he'
  | wake =>
    obtain ⟨e', he', rfl⟩ := Option.map_eq_some_iff.mp hst
    exact wake_matches h he'
  | txReady off =>
    simp only [step] at hst
    split at hst
    next hgot =>
      obtain ⟨e', he', rfl⟩ := Option.map_eq_some_iff.mp hst
      exact txReady_matches h hgot he'
    next => cases hst

end SerialTrans

/-! ## Results -/

section Results

variable {currentPriority : ι → Nat} {trans : ι} {flag : RtIpcFlag} {thread : ι → RtThread}

/-- What `xMBPortSerialInit` leaves. -/
def SerialTrans.init (flag : RtIpcFlag) (thread : ι → RtThread) : SerialTrans ι where
  event := .rtEventInit flag thread
  gotEvent := false

omit [DecidableEq ι] in
theorem SerialTrans.init_sound : (SerialTrans.init flag thread).Sound trans where
  waiting := RtEvent.rtEventInit_waiting
  calls _ _ h := by cases h
  idle h := by cases h
  holds h := absurd h Bool.false_ne_true

/-- The thread makes its calls only while the transmitter is on: a run shows what a transmitter
shows that is on or off and ready only when it is on.  And while it is on the thread is not left
waiting. -/
theorem serialTrans_simulates {tr : List TxLabel} {s : SerialTrans ι}
    (h : Traces (SerialTrans.step currentPriority trans) SerialTrans.label
      (SerialTrans.init flag thread) tr s) :
    Traces txStep (fun _ l => [l]) false tr s.on ∧
      (s.on = true → (s.event.parent.thread trans).stat = .ready) := by
  obtain ⟨on, htr, hsound, rfl⟩ := h.simulates
    (R := fun s x => s.Sound trans ∧ x = s.on) (fun s x a s' hR hst => by
      obtain ⟨hsound, rfl⟩ := hR
      obtain ⟨hsound', htr⟩ := SerialTrans.step_matches hsound hst
      exact ⟨s'.on, htr, hsound', rfl⟩) ⟨SerialTrans.init_sound, rfl⟩
  have hoff : (SerialTrans.init flag thread).on = false :=
    decide_eq_false fun h => h (BitVec.zero_and ..)
  refine ⟨hoff ▸ htr, fun hon => ?_⟩
  cases hstat : (s.event.parent.thread trans).stat with
  | ready => rfl
  | suspend =>
    have hand : hasFlag rtEventFlagOr rtEventFlagAnd = false := by decide
    have hfilled := (hsound.calls trans _ (hsound.waiting.filled trans hstat)).2
    obtain ⟨hset, hinfo⟩ := Prod.mk.inj hfilled
    have hunmet := hsound.waiting.unmet trans hstat
    rw [RtEvent.asked, hset, hinfo, SerialTrans.holds_iff hand] at hunmet
    exact absurd (of_decide_eq_true hon) hunmet

/-- Two bytes are sent: the thread is woken once, and finds the flag still set for the second. -/
theorem serialTrans_simulates_twoBytes : ∃ s : SerialTrans Bool,
    Traces txStep (fun _ l => [l]) false [.on, .ready, .ready, .off] s.on ∧
      (s.on = true → (s.event.parent.thread true).stat = .ready) := by
  have h : Traces (SerialTrans.step (fun _ => 10) true) SerialTrans.label
      (SerialTrans.init .prio fun _ => RtThread.running) _ _ :=
    .snoc (a := SerialAction.txReady true) (.snoc (a := SerialAction.wait)
      (.snoc (a := SerialAction.txReady false) (.snoc (a := SerialAction.wake)
        (.snoc (a := SerialAction.enable) (.snoc (a := SerialAction.wait)
          .nil rfl) rfl) rfl) rfl) rfl) rfl
  exact ⟨_, serialTrans_simulates h⟩

end Results

end FreeModbus
