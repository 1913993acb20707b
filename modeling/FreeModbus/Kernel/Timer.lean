import FreeModbus.Kernel.Ipc
import FreeModbus.Lib.CyclicTime

/-!
# The kernel's timers

`timer.c` keeps the timers that run in one list, in the order in which they time out, and
compares only differences of ticks, since the tick runs over.  At a tick `rt_timer_check`
calls the timers at the front of the list that are due.  The function of a timer may stop that
timer; it leaves the others as they are.

As long as the times of the list are near the tick, it stays in order, and a check calls the
timers that are due, each once, and comes to its end.
-/

namespace FreeModbus

open CyclicTime

/-- `rt_tick_t`. -/
abbrev RtTick := BitVec 32

/-- `RT_TICK_MAX / 2`. -/
def rtTickHalf : RtTick := 0x7FFFFFFF

/-- `struct rt_timer`, without its function and its place in the list. -/
structure RtTimerData where
  initTick : RtTick
  timeoutTick : RtTick
  /-- `RT_TIMER_FLAG_ACTIVATED`. -/
  activated : Bool
  /-- `RT_TIMER_FLAG_PERIODIC`. -/
  periodic : Bool

/-- The tick, the list, and the timers. -/
structure RtTimers (ι : Type) where
  rtTick : RtTick
  rtTimerList : List ι
  timer : ι → RtTimerData

variable {ι : Type} [DecidableEq ι]

namespace RtTimers

/-- `_rt_timer_remove`, and the deactivation that goes with it. -/
def remove (s : RtTimers ι) (i : ι) : RtTimers ι :=
  { s with
    rtTimerList := s.rtTimerList.erase i
    timer := Function.update s.timer i { s.timer i with activated := false } }

/-- The search of `rt_timer_start` stops before this timer. -/
def stopsBefore (timer : ι → RtTimerData) (i t : ι) : Bool :=
  let diff := (timer t).timeoutTick - (timer i).timeoutTick
  decide (diff ≠ 0 ∧ diff < rtTickHalf)

/-- The search, and `rt_list_insert_after` where it stops. -/
def insertTimer (timer : ι → RtTimerData) (i : ι) (list : List ι) : List ι :=
  list.orderedInsert (fun i t => stopsBefore timer i t = true) i

/-- `rt_timer_start`. -/
def rtTimerStart (s : RtTimers ι) (i : ι) : Option (RtTimers ι) :=
  let s := s.remove i
  -- the assertion on `init_tick`
  if (s.timer i).initTick < rtTickHalf then
    let timer := Function.update s.timer i
      { s.timer i with timeoutTick := s.rtTick + (s.timer i).initTick, activated := true }
    some { s with rtTimerList := insertTimer timer i s.rtTimerList, timer }
  else none

/-- `rt_timer_stop`. -/
def rtTimerStop (s : RtTimers ι) (i : ι) : RtTimers ι :=
  if (s.timer i).activated then s.remove i else s

/-- `rt_timer_control` with `RT_TIMER_CTRL_SET_TIME`. -/
def rtTimerSetTime (s : RtTimers ι) (i : ι) (time : RtTick) : RtTimers ι :=
  { s with timer := Function.update s.timer i { s.timer i with initTick := time } }

/-- A timer that is due, in `rt_timer_check`: it is taken off the list, its function is called,
which may stop the timer, and it is started again if it is periodic. -/
def fire (stopsItself : ι → Bool) (s : RtTimers ι) (i : ι) : Option (RtTimers ι) :=
  let s := { s with rtTimerList := s.rtTimerList.erase i }
  let s := if stopsItself i then s.rtTimerStop i else s
  if (s.timer i).periodic ∧ (s.timer i).activated then s.rtTimerStart i
  else some { s with timer := Function.update s.timer i { s.timer i with activated := false } }

/-- The loop of `rt_timer_check`, with the timers that it calls; `none` where an assertion fails
or the turns are used up. -/
def checkLoop (stopsItself : ι → Bool) : Nat → RtTimers ι → Option (RtTimers ι × List ι)
  | 0, _ => none
  | turns + 1, s =>
      match s.rtTimerList with
      | [] => some (s, [])
      | i :: _ =>
          if s.rtTick - (s.timer i).timeoutTick < rtTickHalf then
            (s.fire stopsItself i).bind fun s' =>
              (checkLoop stopsItself turns s').map fun (s'', fired) => (s'', i :: fired)
          else some (s, [])

/-- `rt_tick_increase`, which calls `rt_timer_check`. -/
def rtTickIncrease (stopsItself : ι → Bool) (s : RtTimers ι) : Option (RtTimers ι × List ι) :=
  checkLoop stopsItself (s.rtTimerList.length + 1) { s with rtTick := s.rtTick + 1 }

/-! ## The order of the list -/

/-- How many ticks the time of a timer lies ahead of a base. -/
def ticksTo (base : RtTick) (s : RtTimers ι) (i : ι) : Nat := ahead base (s.timer i).timeoutTick

/-- The list has the timers that run, in the order of their times, and these are near the
base. -/
structure Kept (base : RtTick) (s : RtTimers ι) : Prop where
  nodup : s.rtTimerList.Nodup
  active : ∀ i, i ∈ s.rtTimerList ↔ (s.timer i).activated = true
  sorted : s.rtTimerList.Pairwise fun i j => s.ticksTo base i ≤ s.ticksTo base j
  near : ∀ i ∈ s.rtTimerList, s.ticksTo base i ≤ rtTickHalf.toNat

variable {s s' : RtTimers ι} {i j : ι} {base : RtTick} {stopsItself : ι → Bool}

omit [DecidableEq ι] in
/-- A comparison of two times that are near the base is one of the ticks to them. -/
theorem stopsBefore_iff {timer : ι → RtTimerData}
    (hi : ahead base (timer i).timeoutTick ≤ rtTickHalf.toNat)
    (hj : ahead base (timer j).timeoutTick ≤ rtTickHalf.toNat)
    (hspan : ahead base (timer j).timeoutTick < ahead base (timer i).timeoutTick +
      rtTickHalf.toNat) :
    stopsBefore timer i j = true ↔
      ahead base (timer i).timeoutTick < ahead base (timer j).timeoutTick := by
  have hhalf : rtTickHalf.toNat = 0x7FFFFFFF := by decide
  unfold stopsBefore
  rw [decide_eq_true_eq, BitVec.lt_def, ne_eq, ← BitVec.toNat_inj]
  rcases Nat.lt_or_ge (ahead base (timer j).timeoutTick) (ahead base (timer i).timeoutTick) with
    hlt | hle
  · rw [toNat_sub_of_lt hlt]
    omega
  · rw [toNat_sub_of_le hle]
    simp only [BitVec.ofNat_eq_ofNat, BitVec.toNat_ofNat, Nat.zero_mod]
    omega

omit [DecidableEq ι] in
theorem insertTimer_perm (timer : ι → RtTimerData) (i : ι) (list : List ι) :
    (insertTimer timer i list).Perm (i :: list) := List.perm_orderedInsert ..

/-! ## Stops and starts -/

theorem remove_timer_of_ne (h : j ≠ i) : (s.remove i).timer j = s.timer j :=
  Function.update_of_ne h ..

theorem Kept.remove (h : s.Kept base) : (s.remove i).Kept base := by
  have hkeep : ∀ j ∈ s.rtTimerList.erase i, (s.remove i).timer j = s.timer j := fun j hj => by
    refine remove_timer_of_ne ?_
    rintro rfl
    exact h.nodup.not_mem_erase hj
  have hticks : ∀ j ∈ s.rtTimerList.erase i, (s.remove i).ticksTo base j = s.ticksTo base j :=
    fun j hj => by rw [ticksTo, hkeep j hj, ticksTo]
  refine ⟨h.nodup.erase i, fun j => ?_, ?_, fun j hj => ?_⟩
  · by_cases hne : j = i
    · subst hne
      exact iff_of_false h.nodup.not_mem_erase (by simp [RtTimers.remove])
    · rw [remove_timer_of_ne hne, ← h.active j]
      exact List.mem_erase_of_ne hne
  · refine (h.sorted.sublist List.erase_sublist).imp_of_mem fun {j k} hj hk hle => ?_
    rw [hticks j hj, hticks k hk]
    exact hle
  · rw [hticks j hj]
    exact h.near j (List.mem_of_mem_erase hj)

/-- The timer that a start leaves. -/
def started (s : RtTimers ι) (i : ι) : RtTimerData :=
  { s.timer i with timeoutTick := s.rtTick + (s.timer i).initTick, activated := true }

theorem rtTimerStart_eq (hinit : (s.timer i).initTick < rtTickHalf) :
    s.rtTimerStart i = some { s with
      rtTimerList :=
        insertTimer (Function.update s.timer i (s.started i)) i (s.rtTimerList.erase i)
      timer := Function.update s.timer i (s.started i) } := by
  simp [rtTimerStart, remove, started, hinit]

/-- A start that does not fail an assertion. -/
theorem initTick_of_start (hst : s.rtTimerStart i = some s') :
    (s.timer i).initTick < rtTickHalf := by
  by_contra hno
  simp [rtTimerStart, RtTimers.remove, hno] at hst

/-- Other ticks do not change when a timer that runs is called. -/
theorem rtTimerSetTime_ticksTo {time : RtTick} :
    (s.rtTimerSetTime i time).ticksTo base j = s.ticksTo base j := by
  unfold ticksTo
  by_cases hne : j = i
  · subst hne
    simp [rtTimerSetTime]
  · simp [rtTimerSetTime, hne]

theorem Kept.mem_erase (h : s.Kept base) (hj : j ∈ s.rtTimerList.erase i) :
    j ≠ i ∧ j ∈ s.rtTimerList :=
  ⟨fun heq => h.nodup.not_mem_erase (heq ▸ hj), List.mem_of_mem_erase hj⟩

theorem ahead_started (base : RtTick) (s : RtTimers ι) (i : ι) :
    ahead base (Function.update s.timer i (s.started i) i).timeoutTick =
      ahead base (s.rtTick + (s.timer i).initTick) := by
  rw [Function.update_self, started]

theorem Kept.ahead_other (h : s.Kept base) (hj : j ∈ s.rtTimerList.erase i) :
    ahead base (Function.update s.timer i (s.started i) j).timeoutTick = s.ticksTo base j := by
  rw [Function.update_of_ne (h.mem_erase hj).1, ticksTo]

/-- The search of a start stops at the timers that time out later. -/
theorem Kept.stopsBefore_started (h : s.Kept base)
    (hnew : ahead base (s.rtTick + (s.timer i).initTick) ≤ rtTickHalf.toNat)
    (hspan : ∀ j ∈ s.rtTimerList, s.ticksTo base j <
      ahead base (s.rtTick + (s.timer i).initTick) + rtTickHalf.toNat)
    (hj : j ∈ s.rtTimerList.erase i) :
    stopsBefore (Function.update s.timer i (s.started i)) i j = true ↔
      ahead base (Function.update s.timer i (s.started i) i).timeoutTick <
        ahead base (Function.update s.timer i (s.started i) j).timeoutTick := by
  have hself := ahead_started base s i
  have hother := h.ahead_other hj
  have hj' := (h.mem_erase hj).2
  have hnear : s.ticksTo base j ≤ rtTickHalf.toNat := h.near j hj'
  refine stopsBefore_iff (hself ▸ hnew) (hother ▸ hnear) ?_
  rw [hself, hother]
  exact hspan j hj'

/-- A start puts the timer in its place, where the ticks to the others are near enough. -/
theorem Kept.rtTimerStart (h : s.Kept base) (hinit : (s.timer i).initTick < rtTickHalf)
    (hnew : ahead base (s.rtTick + (s.timer i).initTick) ≤ rtTickHalf.toNat)
    (hspan : ∀ j ∈ s.rtTimerList, s.ticksTo base j <
      ahead base (s.rtTick + (s.timer i).initTick) + rtTickHalf.toNat) :
    ∃ s', s.rtTimerStart i = some s' ∧ s'.Kept base ∧ s'.rtTick = s.rtTick ∧
      s'.rtTimerList.Perm (i :: s.rtTimerList.erase i) ∧
      s'.timer = Function.update s.timer i (s.started i) := by
  have hperm := insertTimer_perm (Function.update s.timer i (s.started i)) i
    (s.rtTimerList.erase i)
  refine ⟨_, rtTimerStart_eq hinit, ?_, rfl, hperm, rfl⟩
  have hmem : ∀ j ∈ s.rtTimerList.erase i, j ≠ i ∧ j ∈ s.rtTimerList := fun _ => h.mem_erase
  have hself := ahead_started base s i
  have hother : ∀ j ∈ s.rtTimerList.erase i,
      ahead base (Function.update s.timer i (s.started i) j).timeoutTick = s.ticksTo base j :=
    fun _ => h.ahead_other
  have hstops : ∀ j ∈ s.rtTimerList.erase i,
      stopsBefore (Function.update s.timer i (s.started i)) i j = true ↔
        ahead base (Function.update s.timer i (s.started i) i).timeoutTick <
          ahead base (Function.update s.timer i (s.started i) j).timeoutTick :=
    fun _ => h.stopsBefore_started hnew hspan
  refine ⟨hperm.nodup_iff.mpr (List.nodup_cons.mpr ⟨h.nodup.not_mem_erase, h.nodup.erase i⟩),
    fun j => ?_, ?_, fun j hj => ?_⟩
  · rw [hperm.mem_iff, List.mem_cons]
    by_cases hne : j = i
    · subst hne
      simp [started]
    · simpa [hne, List.mem_erase_of_ne hne] using h.active j
  · refine pairwise_orderedInsert ?_ (fun j hj hins => ⟨?_, fun k hk hle => ?_⟩)
      fun j hj hins => ?_
    · refine (h.sorted.sublist List.erase_sublist).imp_of_mem fun {j k} hj hk hle => ?_
      simp only [ticksTo, hother j hj, hother k hk]
      exact hle
    · exact ((hstops j hj).mp hins).le
    · exact ((hstops j hj).mp hins).le.trans hle
    · exact Nat.le_of_not_lt (mt (hstops j hj).mpr hins)
  · rcases List.mem_cons.mp (hperm.mem_iff.mp hj) with rfl | hj
    · rw [ticksTo, hself]
      exact hnew
    · rw [ticksTo, hother j hj]
      exact h.near j (hmem j hj).2

/-! ## The check -/

/-- The periodic timers have ticks that they may be started with, and not none: such a timer
would keep `rt_timer_check` in its loop. -/
def PeriodsFit (s : RtTimers ι) : Prop :=
  ∀ i, (s.timer i).periodic = true →
    0 < (s.timer i).initTick.toNat ∧ (s.timer i).initTick < rtTickHalf

/-- The timer is started again after it has been called. -/
def restarts (stopsItself : ι → Bool) (s : RtTimers ι) (i : ι) : Bool :=
  (s.timer i).periodic && !stopsItself i

/-- The timer after it has been called. -/
def afterFire (stopsItself : ι → Bool) (s : RtTimers ι) (i : ι) : RtTimerData :=
  if s.restarts stopsItself i then s.started i else { s.timer i with activated := false }

theorem fire_eq (h : s.Kept base) (hi : i ∈ s.rtTimerList) :
    s.fire stopsItself i =
      if s.restarts stopsItself i then s.rtTimerStart i else some (s.remove i) := by
  have hactive := (h.active i).mp hi
  have herase : (s.rtTimerList.erase i).erase i = s.rtTimerList.erase i :=
    List.erase_of_not_mem h.nodup.not_mem_erase
  unfold fire restarts
  by_cases hstops : stopsItself i = true
  · simp [rtTimerStop, remove, hactive, hstops, herase]
  · by_cases hperiodic : (s.timer i).periodic = true
    · simp [rtTimerStart, remove, hactive, hstops, hperiodic, herase]
    · simp [remove, hstops, hperiodic]

omit [DecidableEq ι] in
/-- The time of a timer that is started in a check. -/
theorem ahead_restart (htick : s.rtTick = base + 1) (hinit : (s.timer i).initTick < rtTickHalf) :
    ahead base (s.rtTick + (s.timer i).initTick) = (s.timer i).initTick.toNat + 1 := by
  have hhalf : rtTickHalf.toNat = 0x7FFFFFFF := by decide
  have hlt : (s.timer i).initTick.toNat < rtTickHalf.toNat := hinit
  have hone : (1 : RtTick).toNat = 1 := rfl
  rw [htick, add_assoc, ahead_add, BitVec.toNat_add, hone, Nat.mod_eq_of_lt (by omega)]
  omega

/-- What the call of one timer that is due leaves. -/
theorem fire_due (stopsItself : ι → Bool) (h : s.Kept base) (htick : s.rtTick = base + 1)
    (hfit : s.PeriodsFit) (hi : i ∈ s.rtTimerList) :
    ∃ s', s.fire stopsItself i = some s' ∧ s'.Kept base ∧ s'.rtTick = s.rtTick ∧
      s'.timer = Function.update s.timer i (s.afterFire stopsItself i) ∧
      (s'.rtTimerList = s.rtTimerList.erase i ∨
        s'.rtTimerList.Perm (i :: s.rtTimerList.erase i) ∧ 1 < s'.ticksTo base i) := by
  rw [fire_eq h hi, afterFire]
  by_cases hr : s.restarts stopsItself i = true
  · obtain ⟨hpos, hinit⟩ := hfit i (Bool.and_eq_true_iff.mp hr).1
    have hlt : (s.timer i).initTick.toNat < rtTickHalf.toNat := hinit
    have hnew := ahead_restart htick hinit
    obtain ⟨s', hs', hkept, htick', hperm, htimer⟩ := h.rtTimerStart (i := i) hinit
      (by omega) (fun j hj => by
        have hnear := h.near j hj
        omega)
    rw [if_pos hr, if_pos hr]
    refine ⟨s', hs', hkept, htick', htimer, Or.inr ⟨hperm, ?_⟩⟩
    rw [ticksTo, htimer, Function.update_self, started, hnew]
    omega
  · rw [if_neg hr, if_neg hr]
    exact ⟨s.remove i, rfl, h.remove, rfl, rfl, Or.inl rfl⟩

/-- What a check has done to the timers. -/
structure Checked (stopsItself : ι → Bool) (base : RtTick) (s s' : RtTimers ι)
    (fired : List ι) : Prop where
  kept : s'.Kept base
  rtTick : s'.rtTick = s.rtTick
  later : ∀ i ∈ s'.rtTimerList, 1 < s'.ticksTo base i
  nodup : fired.Nodup
  sorted : fired.Pairwise fun i j => s.ticksTo base i ≤ s.ticksTo base j
  fired_iff : ∀ i, i ∈ fired ↔ i ∈ s.rtTimerList ∧ s.ticksTo base i ≤ 1
  timer : ∀ i, s'.timer i = if i ∈ fired then s.afterFire stopsItself i else s.timer i

/-- The timers that are due. -/
def dueCount (base : RtTick) (s : RtTimers ι) : Nat :=
  s.rtTimerList.countP fun i => s.ticksTo base i ≤ 1

omit [DecidableEq ι] in
/-- A timer is due when the comparison of `rt_timer_check` says so. -/
theorem due_iff (h : s.Kept base) (htick : s.rtTick = base + 1) (hi : i ∈ s.rtTimerList) :
    s.rtTick - (s.timer i).timeoutTick < rtTickHalf ↔ s.ticksTo base i ≤ 1 := by
  have hhalf : rtTickHalf.toNat = 0x7FFFFFFF := by decide
  have hone : ahead base s.rtTick = 1 := by
    rw [htick, ahead_add]
    rfl
  have hnear := h.near i hi
  rw [BitVec.lt_def]
  unfold ticksTo at hnear ⊢
  rcases Nat.lt_or_ge (ahead base s.rtTick) (ahead base (s.timer i).timeoutTick) with hlt | hle
  · rw [toNat_sub_of_lt hlt]
    omega
  · rw [toNat_sub_of_le hle]
    omega

/-- What the call of a timer that is due has done: the others are as they were, and it is no
longer due. -/
structure Fired (stopsItself : ι → Bool) (base : RtTick) (i : ι) (s s' : RtTimers ι) : Prop where
  kept : s'.Kept base
  rtTick : s'.rtTick = s.rtTick
  self : s'.timer i = s.afterFire stopsItself i
  others : ∀ j, j ≠ i → s'.timer j = s.timer j
  mem : ∀ j, j ≠ i → (j ∈ s'.rtTimerList ↔ j ∈ s.rtTimerList)
  later : ¬ (i ∈ s'.rtTimerList ∧ s'.ticksTo base i ≤ 1)
  fewer : s'.dueCount base < s.dueCount base

namespace Fired

omit [DecidableEq ι] in
theorem ticksTo_eq (h : Fired stopsItself base i s s') (hne : j ≠ i) :
    s'.ticksTo base j = s.ticksTo base j := by
  rw [ticksTo, ticksTo, h.others j hne]

omit [DecidableEq ι] in
theorem afterFire_eq (h : Fired stopsItself base i s s') (hne : j ≠ i) :
    s'.afterFire stopsItself j = s.afterFire stopsItself j := by
  rw [afterFire, afterFire, restarts, restarts, started, started, h.others j hne, h.rtTick]

/-- A periodic timer keeps its ticks. -/
theorem periodsFit (h : Fired stopsItself base i s s') (hfit : s.PeriodsFit) :
    s'.PeriodsFit := by
  intro j
  by_cases hne : j = i
  · subst hne
    rw [h.self, afterFire]
    split
    · exact hfit j
    · exact hfit j
  · rw [h.others j hne]
    exact hfit j

end Fired

/-- The first timer of the list, where it is due. -/
theorem fire_fired (stopsItself : ι → Bool) {list : List ι} (h : s.Kept base)
    (htick : s.rtTick = base + 1) (hfit : s.PeriodsFit) (hlist : s.rtTimerList = i :: list)
    (hdue : s.ticksTo base i ≤ 1) :
    ∃ s', s.fire stopsItself i = some s' ∧ Fired stopsItself base i s s' := by
  obtain ⟨s', hs', hkept, htick', htimer, hlist'⟩ := fire_due stopsItself h htick hfit
    (hlist ▸ List.mem_cons_self)
  have hothers : ∀ j, j ≠ i → s'.timer j = s.timer j := fun j hne => by
    rw [htimer, Function.update_of_ne hne]
  have hself : s'.timer i = s.afterFire stopsItself i := by rw [htimer, Function.update_self]
  have hnot : i ∉ list := (List.nodup_cons.mp (hlist ▸ h.nodup)).1
  have hcount : (list.countP fun j => s'.ticksTo base j ≤ 1) + 1 = s.dueCount base := by
    rw [dueCount, hlist, List.countP_cons_of_pos (by simpa using hdue)]
    refine congrArg (· + 1) (List.countP_congr fun j hj => ?_)
    have hne : j ≠ i := fun heq => hnot (heq ▸ hj)
    rw [ticksTo, ticksTo, hothers j hne]
  rw [hlist, List.erase_cons_head] at hlist'
  refine ⟨s', hs', ?_⟩
  rcases hlist' with heq | ⟨hperm, hlater⟩
  · refine ⟨hkept, htick', hself, hothers, fun j hne => ?_, fun hi => hnot (heq ▸ hi.1), ?_⟩
    · simp [heq, hlist, hne]
    · rw [dueCount, heq]
      omega
  · refine ⟨hkept, htick', hself, hothers, fun j hne => ?_,
      fun hi => Nat.not_le.mpr hlater hi.2, ?_⟩
    · simp [hperm.mem_iff, hlist]
    · rw [dueCount, hperm.countP_eq, List.countP_cons_of_neg (by simpa using hlater)]
      omega

/-- No timer is due where the first is not. -/
theorem checked_nil (h : s.Kept base) (hlater : ∀ i ∈ s.rtTimerList, 1 < s.ticksTo base i) :
    Checked stopsItself base s s [] :=
  ⟨h, rfl, hlater, List.nodup_nil, .nil,
    fun i => iff_of_false List.not_mem_nil fun hi => Nat.not_le.mpr (hlater i hi.1) hi.2,
    fun _ => rfl⟩

/-- One turn of the check, and the turns after it. -/
theorem Fired.checked {s₁ : RtTimers ι} {list fired : List ι} (h : Fired stopsItself base i s s₁)
    (hkept : s.Kept base) (hlist : s.rtTimerList = i :: list) (hdue : s.ticksTo base i ≤ 1)
    (hc : Checked stopsItself base s₁ s' fired) :
    Checked stopsItself base s s' (i :: fired) := by
  have hnot : i ∉ fired := fun hin => h.later ((hc.fired_iff i).mp hin)
  have hne : ∀ j ∈ fired, j ≠ i := fun j hj heq => hnot (heq ▸ hj)
  have hfirst : ∀ j ∈ list, s.ticksTo base i ≤ s.ticksTo base j :=
    (List.pairwise_cons.mp (hlist ▸ hkept.sorted)).1
  refine ⟨hc.kept, hc.rtTick.trans h.rtTick, hc.later, List.nodup_cons.mpr ⟨hnot, hc.nodup⟩,
    List.pairwise_cons.mpr ⟨fun j hj => ?_, ?_⟩, fun j => ?_, fun j => ?_⟩
  · have hin := (h.mem j (hne j hj)).mp ((hc.fired_iff j).mp hj).1
    rw [hlist] at hin
    exact hfirst j ((List.mem_cons.mp hin).resolve_left (hne j hj))
  · refine hc.sorted.imp_of_mem fun {j k} hj hk hle => ?_
    rw [← h.ticksTo_eq (hne j hj), ← h.ticksTo_eq (hne k hk)]
    exact hle
  · by_cases heq : j = i
    · subst heq
      exact iff_of_true List.mem_cons_self ⟨hlist ▸ List.mem_cons_self, hdue⟩
    · rw [List.mem_cons, or_iff_right heq, hc.fired_iff, h.mem j heq, h.ticksTo_eq heq]
  · by_cases heq : j = i
    · subst heq
      rw [hc.timer, if_neg hnot, if_pos List.mem_cons_self, h.self]
    · rw [hc.timer, h.afterFire_eq heq, h.others j heq]
      by_cases hj : j ∈ fired
      · rw [if_pos hj, if_pos (List.mem_cons_of_mem _ hj)]
      · rw [if_neg hj, if_neg fun hin => (List.mem_cons.mp hin).elim heq hj]

/-- The loop ends, and has called the timers that were due, each once and in their order. -/
theorem checkLoop_checked (stopsItself : ι → Bool) {turns : Nat} (h : s.Kept base)
    (htick : s.rtTick = base + 1) (hfit : s.PeriodsFit) (hturns : s.dueCount base < turns) :
    ∃ s' fired, checkLoop stopsItself turns s = some (s', fired) ∧
      Checked stopsItself base s s' fired := by
  induction turns generalizing s with
  | zero => exact absurd hturns (Nat.not_lt_zero _)
  | succ turns ih =>
    unfold checkLoop
    cases hlist : s.rtTimerList with
    | nil =>
      refine ⟨s, [], rfl, checked_nil h fun i hi => ?_⟩
      rw [hlist] at hi
      cases hi
    | cons i list =>
      have hi : i ∈ s.rtTimerList := hlist ▸ List.mem_cons_self
      dsimp only
      by_cases hdue : s.ticksTo base i ≤ 1
      · obtain ⟨s₁, hs₁, hfired⟩ := fire_fired stopsItself h htick hfit hlist hdue
        obtain ⟨s', fired, hloop, hchecked⟩ := ih hfired.kept (hfired.rtTick.trans htick)
          (hfired.periodsFit hfit) (Nat.lt_of_lt_of_le hfired.fewer (Nat.le_of_lt_succ hturns))
        refine ⟨s', i :: fired, ?_, hfired.checked h hlist hdue hchecked⟩
        rw [if_pos ((due_iff h htick hi).mpr hdue), hs₁, Option.bind_some, hloop, Option.map_some]
      · rw [if_neg (mt (due_iff h htick hi).mp hdue)]
        refine ⟨s, [], rfl, checked_nil h fun j hj => ?_⟩
        have hfirst := (List.pairwise_cons.mp (hlist ▸ h.sorted)).1
        rw [hlist] at hj
        rcases List.mem_cons.mp hj with rfl | hj
        · exact Nat.lt_of_not_le hdue
        · exact Nat.lt_of_lt_of_le (Nat.lt_of_not_le hdue) (hfirst j hj)

end RtTimers

end FreeModbus
