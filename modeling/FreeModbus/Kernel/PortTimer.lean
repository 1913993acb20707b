import FreeModbus.Kernel.Countdown
import FreeModbus.Port.Timer

/-!
# The end of frame timers over the kernel

`porttimer.c` and `porttimer_m.c` each have one timer of the kernel, which runs among the timers
of the threads and of the other stack.  `Port.Timer` says to how many ticks they set it.  Here the
timer is called at the last of these ticks, whatever happens to the other timers meanwhile and
wherever the tick runs over.

The master sets its timer to other ticks for each mode.  The mode that `eMasterCurTimerMode` has
when the timer runs out is the one whose ticks have passed.
-/

namespace FreeModbus

open Transition

variable {ι : Type} [DecidableEq ι] {i : ι} {tr tr' : List (TimerLabel ι)} {ticks : Nat}

/-! ## The calls -/

/-- What `rt_timer_init` with `RT_TIMER_FLAG_ONE_SHOT` leaves in the timer. -/
def RtTimer.data (timer : RtTimer) : RtTimerData where
  initTick := BitVec.ofNat 32 timer.initTick
  timeoutTick := 0
  activated := timer.active
  periodic := false

/-- What is seen of a call of the slave. -/
def SlaveTimerCall.labels (i : ι) : SlaveTimerCall → List (TimerLabel ι)
  | .enable => [.start i]
  | .disable => [.stop i]

/-- The ticks of a mode. -/
def MasterTimer.ticksOf (s : MasterTimer) : MBMasterTimerMode → Nat
  | .t35 => ticksOf50us s.usT35TimeOut50us
  | .respondTimeout => mbMasterTimeoutMsRespond * rtTickPerSecond / 1000
  | .convertDelay => mbMasterDelayMsConvert * rtTickPerSecond / 1000

/-- What is seen of a call of the master that starts the timer. -/
def MasterTimer.enableLabels (i : ι) (s : MasterTimer) (mode : MBMasterTimerMode) :
    List (TimerLabel ι) :=
  [.setTime i (BitVec.ofNat 32 (s.ticksOf mode)), .start i]

/-- What is seen of a call of the master. -/
def MasterTimerCall.labels (i : ι) (s : MasterTimer) : MasterTimerCall → List (TimerLabel ι)
  | .t35Enable => s.enableLabels i .t35
  | .convertDelayEnable => s.enableLabels i .convertDelay
  | .respondTimeoutEnable => s.enableLabels i .respondTimeout
  | .disable => [.stop i]

/-- What is seen of the calls of the master. -/
def MasterTimer.labels (i : ι) : MasterTimer → List MasterTimerCall → List (TimerLabel ι)
  | _, [] => []
  | s, call :: calls => call.labels i s ++ MasterTimer.labels i (call.apply s) calls

/-! ## The ticks that are set -/

/-- Only what is said of a timer tells its ticks. -/
theorem ticksSet_filter (i : ι) (ticks : Nat) (tr : List (TimerLabel ι)) :
    ticksSet i ticks (tr.filter (TimerLabel.about i)) = ticksSet i ticks tr := by
  induction tr generalizing ticks with
  | nil => rfl
  | cons l tr ih =>
    by_cases habout : l.about i = true
    · rw [List.filter_cons_of_pos habout]
      exact ih _
    · have hsame : l.setsTo i ticks = ticks := by
        cases l with
        | setTime j time => exact if_neg (by simpa [TimerLabel.about] using habout)
        | _ => rfl
      rw [List.filter_cons_of_neg habout, ih]
      exact (congrArg (tr.foldl (TimerLabel.setsTo i)) hsame).symm

omit [DecidableEq ι] in
theorem moves_of_about [DecidableEq ι] {l : TimerLabel ι} (h : l.about i = false) :
    l.moves i = false := by
  cases l with
  | setTime j time => rfl
  | _ => exact h

theorem filter_start (i : ι) (tr : List (TimerLabel ι)) :
    (tr ++ [TimerLabel.start i]).filter (TimerLabel.about i) =
      tr.filter (TimerLabel.about i) ++ [.start i] := by
  rw [List.filter_append, List.filter_cons_of_pos (by simp [TimerLabel.about]), List.filter_nil]

/-- The slave never sets its timer to other ticks. -/
theorem ticksSet_slave (i : ι) (ticks : Nat) (calls : List SlaveTimerCall) :
    ticksSet i ticks (calls.flatMap (SlaveTimerCall.labels i)) = ticks := by
  induction calls with
  | nil => rfl
  | cons call calls ih =>
    rw [List.flatMap_cons, ticksSet_append]
    cases call with
    | enable => exact ih
    | disable => exact ih

omit [DecidableEq ι] in
theorem MasterTimer.labels_append (i : ι) (s : MasterTimer) (calls : List MasterTimerCall)
    (call : MasterTimerCall) :
    s.labels i (calls ++ [call]) =
      s.labels i calls ++ call.labels i (calls.foldl MasterTimerCall.apply s) := by
  induction calls generalizing s with
  | nil => exact List.append_nil _
  | cons c calls ih =>
    rw [List.cons_append, MasterTimer.labels, MasterTimer.labels, ih, List.append_assoc,
      List.foldl_cons]

/-- The ticks of a time fit, with one more. -/
theorem ticksOf50us_lt (usTimeOut50us : UShort) : ticksOf50us usTimeOut50us < 2 ^ 15 := by
  have hlt : usTimeOut50us.toNat < 2 ^ 16 := usTimeOut50us.isLt
  have hunit : 1000 * 1000 / rtTickPerSecond = 100 := rfl
  rw [ticksOf50us, hunit]
  omega

theorem MasterTimer.ticksOf_lt (s : MasterTimer) (mode : MBMasterTimerMode) :
    s.ticksOf mode < 2 ^ 32 := by
  cases mode with
  | t35 => exact (ticksOf50us_lt _).trans (by decide)
  | respondTimeout =>
    have hlt : mbMasterTimeoutMsRespond * rtTickPerSecond / 1000 < 2 ^ 32 := by decide
    exact hlt
  | convertDelay =>
    have hlt : mbMasterDelayMsConvert * rtTickPerSecond / 1000 < 2 ^ 32 := by decide
    exact hlt

/-- The ticks of a call that sets and starts the timer last. -/
theorem ticksSet_enable {before : List (TimerLabel ι)} {s : MasterTimer}
    {mode : MBMasterTimerMode} (i : ι) (ticks : Nat)
    (h : tr.filter (TimerLabel.about i) ++ [.start i] = before ++ s.enableLabels i mode) :
    ticksSet i ticks tr = s.ticksOf mode := by
  have happ : before ++ s.enableLabels i mode =
      (before ++ [.setTime i (BitVec.ofNat 32 (s.ticksOf mode))]) ++ [.start i] := by
    rw [List.append_assoc]
    rfl
  obtain ⟨hfilter, -⟩ := List.append_inj' (h.trans happ) rfl
  rw [← ticksSet_filter, hfilter, ticksSet_append]
  have hlast : ∀ n, ticksSet i n [.setTime i (BitVec.ofNat 32 (s.ticksOf mode))] =
      (BitVec.ofNat 32 (s.ticksOf mode)).toNat := fun n => if_pos rfl
  rw [hlast, BitVec.toNat_ofNat, Nat.mod_eq_of_lt (s.ticksOf_lt mode)]

/-- Where the master has started its timer last, it is set to the ticks of the mode. -/
theorem ticksSet_master {s : MasterTimer} {calls : List MasterTimerCall} (ticks : Nat)
    (h : (tr ++ [TimerLabel.start i]).filter (TimerLabel.about i) = s.labels i calls) :
    ticksSet i ticks tr = (calls.foldl MasterTimerCall.apply s).ticksOf
      (calls.foldl MasterTimerCall.apply s).eMasterCurTimerMode := by
  rw [filter_start] at h
  rcases List.eq_nil_or_concat calls with rfl | ⟨calls, call, rfl⟩
  · exact absurd h (by simp [MasterTimer.labels])
  · rw [List.concat_eq_append, MasterTimer.labels_append] at h
    rw [List.concat_eq_append, List.foldl_append, List.foldl_cons, List.foldl_nil]
    cases call with
    | t35Enable => exact ticksSet_enable i ticks h
    | convertDelayEnable => exact ticksSet_enable i ticks h
    | respondTimeoutEnable => exact ticksSet_enable i ticks h
    | disable =>
      obtain ⟨-, hlast⟩ := List.append_inj' h rfl
      cases hlast

/-! ## The ticks that pass -/

variable [Fintype ι] {stopsItself : ι → Bool} {rtTick : RtTick} {timer : ι → RtTimerData}
  {fired : Multiset ι} {s : RtTimers ι}

/-- The timer of the slave is called at the last of the ticks that `eMBRTUInit` computed, unless
it is started anew or stopped before. -/
theorem slaveTimer_called (b : ULong) (hslave : timer i = (eMBRTUInitTimer b).data)
    (hfit : (RtTimers.init rtTick timer).PeriodsFit) {calls : List SlaveTimerCall}
    (h : Traces (RtTimers.step stopsItself) (RtTimers.label stopsItself)
      (RtTimers.init rtTick timer) (tr ++ ([.start i] ++ (tr' ++ [.tick fired]))) s)
    (hcalls : (tr ++ [TimerLabel.start i]).filter (TimerLabel.about i) =
      calls.flatMap (SlaveTimerCall.labels i))
    (hquiet : ∀ l ∈ tr', l.about i = false) :
    i ∈ fired ↔ tickCount tr' + 1 = slaveTicks b calls := by
  have honce : (timer i).periodic = false := by rw [hslave]; rfl
  have hset : ticksSet i (timer i).initTick.toNat tr = (timer i).initTick.toNat := by
    have hall := ticksSet_slave i (timer i).initTick.toNat calls
    rw [← hcalls, ticksSet_filter, ticksSet_append] at hall
    exact hall
  have hinit : (timer i).initTick.toNat = slaveTicks b calls := by
    have hlt := ticksOf50us_lt ((usTimerT35_50us b).setWidth 16)
    rw [slaveTicks_eq, hslave]
    refine (BitVec.toNat_ofNat _ _).trans (Nat.mod_eq_of_lt ?_)
    change ticksOf50us _ + 1 < 2 ^ 32
    omega
  rw [RtTimers.called_iff hfit h (fun l hl => moves_of_about (hquiet l hl)) honce, hset, hinit,
    slaveTicks_eq, Nat.max_eq_right (Nat.succ_le_succ (Nat.zero_le _))]

/-- At 115200 baud it is called at the eighteenth tick; the tick runs over at the eighth. -/
theorem slaveTimer_called_115200 :
    () ∈ ({()} : Multiset Unit) ↔
      tickCount (List.replicate 17 (TimerLabel.tick (0 : Multiset Unit))) + 1 =
        slaveTicks 115200 [.enable] := by
  let timer : Unit → RtTimerData := fun _ => (eMBRTUInitTimer 115200).data
  let actions : List (TimerAction Unit) := .start () :: List.replicate 18 .tick
  have hrun : (run (RtTimers.step fun _ => true) (RtTimers.init 0xFFFFFFF8 timer) actions).isSome :=
    by decide +kernel
  obtain ⟨s, hs⟩ := Option.isSome_iff_exists.mp hrun
  have hshown : Traces.shown (RtTimers.step fun _ => true) (RtTimers.label fun _ => true)
      (RtTimers.init 0xFFFFFFF8 timer) actions =
      [] ++ ([.start ()] ++ (List.replicate 17 (.tick 0) ++ [.tick {()}])) := by decide +kernel
  have h := Traces.of_run (RtTimers.label fun _ => true) hs
  rw [hshown] at h
  have hslave : timer () = (eMBRTUInitTimer 115200).data := rfl
  refine slaveTimer_called 115200 hslave (fun _ hp => absurd hp Bool.false_ne_true) h rfl
    fun l hl => ?_
  rw [List.eq_of_mem_replicate hl]
  rfl

/-- The timer of the master is called at the last of the ticks of the mode that it is in then,
unless it is started anew or stopped before.  With no ticks it is called at the next one. -/
theorem masterTimer_called (mode : MBMasterTimerMode) (b : ULong)
    (hmaster : timer i = (eMBMasterRTUInitTimer mode b).timer.data)
    (hfit : (RtTimers.init rtTick timer).PeriodsFit) {calls : List MasterTimerCall}
    (h : Traces (RtTimers.step stopsItself) (RtTimers.label stopsItself)
      (RtTimers.init rtTick timer) (tr ++ ([.start i] ++ (tr' ++ [.tick fired]))) s)
    (hcalls : (tr ++ [TimerLabel.start i]).filter (TimerLabel.about i) =
      (eMBMasterRTUInitTimer mode b).labels i calls)
    (hquiet : ∀ l ∈ tr', l.about i = false) :
    let m := calls.foldl MasterTimerCall.apply (eMBMasterRTUInitTimer mode b)
    i ∈ fired ↔ tickCount tr' + 1 = max 1 (m.ticksOf m.eMasterCurTimerMode) := by
  intro m
  have honce : (timer i).periodic = false := by rw [hmaster]; rfl
  rw [RtTimers.called_iff hfit h (fun l hl => moves_of_about (hquiet l hl)) honce,
    ticksSet_master _ hcalls]

/-- At 115200 baud it is called at the seventeenth tick, in the mode of the end of a frame. -/
theorem masterTimer_called_115200 :
    let m := [MasterTimerCall.t35Enable].foldl MasterTimerCall.apply
      (eMBMasterRTUInitTimer .respondTimeout 115200)
    () ∈ ({()} : Multiset Unit) ↔
      tickCount (List.replicate 16 (TimerLabel.tick (0 : Multiset Unit))) + 1 =
        max 1 (m.ticksOf m.eMasterCurTimerMode) := by
  let timer : Unit → RtTimerData := fun _ =>
    (eMBMasterRTUInitTimer .respondTimeout 115200).timer.data
  let actions : List (TimerAction Unit) :=
    .setTime () 17 :: .start () :: List.replicate 17 .tick
  have hrun : (run (RtTimers.step fun _ => true) (RtTimers.init 0 timer) actions).isSome := by
    decide +kernel
  obtain ⟨s, hs⟩ := Option.isSome_iff_exists.mp hrun
  have hshown : Traces.shown (RtTimers.step fun _ => true) (RtTimers.label fun _ => true)
      (RtTimers.init 0 timer) actions =
      [.setTime () 17] ++ ([.start ()] ++ (List.replicate 16 (.tick 0) ++ [.tick {()}])) := by
    decide +kernel
  have h := Traces.of_run (RtTimers.label fun _ => true) hs
  rw [hshown] at h
  have hmaster : timer () = (eMBMasterRTUInitTimer .respondTimeout 115200).timer.data := rfl
  have hcalls : ([TimerLabel.setTime () 17] ++ [TimerLabel.start ()]).filter (TimerLabel.about ()) =
      (eMBMasterRTUInitTimer .respondTimeout 115200).labels () [.t35Enable] := rfl
  refine masterTimer_called .respondTimeout 115200 hmaster
    (fun _ hp => absurd hp Bool.false_ne_true) h hcalls fun l hl => ?_
  rw [List.eq_of_mem_replicate hl]
  rfl

end FreeModbus
