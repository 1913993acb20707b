import FreeModbus.Kernel.Timer
import FreeModbus.Lib.Simulation

/-!
# Timers as countdowns

Each timer of the kernel is a countdown of its own, as it is meant: it is called at the tick at
which its ticks have passed since its start, whatever the others do and wherever the tick runs
over.
-/

namespace FreeModbus

open CyclicTime Transition

variable {ι : Type} [DecidableEq ι]

/-! ## Countdowns -/

/-- What can happen to the timers. -/
inductive TimerAction (ι : Type) where
  | start (i : ι)
  | stop (i : ι)
  | setTime (i : ι) (time : RtTick)
  | tick

/-- What is seen of them: at a tick, the timers that are called. -/
inductive TimerLabel (ι : Type) where
  | start (i : ι)
  | stop (i : ι)
  | setTime (i : ι) (time : RtTick)
  | tick (fired : Multiset ι)
deriving DecidableEq

/-- Timers as they are meant: the ticks that are left to each. -/
structure Countdown (ι : Type) where
  left : ι → Option Nat
  initTick : ι → Nat
  periodic : ι → Bool

namespace Countdown

/-- What a tick leaves to a timer.  A timer that was started with no ticks waits for one. -/
def next (stopsItself : ι → Bool) (c : Countdown ι) (i : ι) : Option Nat :=
  match c.left i with
  | none => none
  | some k =>
      if k ≤ 1 then
        if c.periodic i && !stopsItself i then some (c.initTick i) else none
      else some (k - 1)

/-- One step. -/
def step (stopsItself : ι → Bool) (c : Countdown ι) : TimerAction ι → Option (Countdown ι)
  | .start i => some { c with left := Function.update c.left i (some (max 1 (c.initTick i))) }
  | .stop i => some { c with left := Function.update c.left i none }
  | .setTime i time =>
      some { c with initTick := Function.update c.initTick i time.toNat }
  | .tick => some { c with left := c.next stopsItself }

/-- What a step shows. -/
def label [Fintype ι] (c : Countdown ι) : TimerAction ι → List (TimerLabel ι)
  | .start i => [.start i]
  | .stop i => [.stop i]
  | .setTime i time => [.setTime i time]
  | .tick => [.tick (Finset.univ.filter fun i => ∃ k, c.left i = some k ∧ k ≤ 1).val]

end Countdown

namespace RtTimers

/-- One step of the timers of the kernel.  A periodic timer is only set to ticks that it may be
started with. -/
def step (stopsItself : ι → Bool) (s : RtTimers ι) : TimerAction ι → Option (RtTimers ι)
  | .start i => s.rtTimerStart i
  | .stop i => some (s.rtTimerStop i)
  | .setTime i time =>
      if (s.timer i).periodic = true → 0 < time.toNat ∧ time < rtTickHalf then
        some (s.rtTimerSetTime i time)
      else none
  | .tick => (s.rtTickIncrease stopsItself).map Prod.fst

/-- What a step shows. -/
def label (stopsItself : ι → Bool) (s : RtTimers ι) : TimerAction ι → List (TimerLabel ι)
  | .start i => [.start i]
  | .stop i => [.stop i]
  | .setTime i time => [.setTime i time]
  | .tick =>
      match s.rtTickIncrease stopsItself with
      | some (_, fired) => [.tick fired]
      | none => []

/-- The timers before any of them is started. -/
def init (rtTick : RtTick) (timer : ι → RtTimerData) : RtTimers ι where
  rtTick
  rtTimerList := []
  timer i := { timer i with activated := false }

/-- The countdowns that the timers are meant to be. -/
def meant (s : RtTimers ι) : Countdown ι where
  left i := if (s.timer i).activated then some (max 1 (s.ticksTo s.rtTick i)) else none
  initTick i := (s.timer i).initTick.toNat
  periodic i := (s.timer i).periodic

/-- The list is in order, its times are ahead, and the periodic timers fit. -/
structure Good (s : RtTimers ι) : Prop where
  kept : s.Kept s.rtTick
  ahead : ∀ i ∈ s.rtTimerList, s.ticksTo s.rtTick i < rtTickHalf.toNat
  fit : s.PeriodsFit

variable {s s' : RtTimers ι} {i : ι} {stopsItself : ι → Bool}

/-- The state is good, and the countdowns have a run to it that shows the same. -/
def Matches [Fintype ι] (stopsItself : ι → Bool) (s : RtTimers ι) (shown : List (TimerLabel ι))
    (s' : RtTimers ι) : Prop :=
  s'.Good ∧ Traces (Countdown.step stopsItself) Countdown.label s.meant shown s'.meant

/-- A change of one timer, where its periods still fit. -/
theorem PeriodsFit.update {t : RtTimerData} (h : s.PeriodsFit)
    (htimer : s'.timer = Function.update s.timer i t)
    (ht : t.periodic = true → 0 < t.initTick.toNat ∧ t.initTick < rtTickHalf) : s'.PeriodsFit := by
  intro j
  rw [htimer]
  by_cases hne : j = i
  · subst hne
    rw [Function.update_self]
    exact ht
  · rw [Function.update_of_ne hne]
    exact h j

/-- A change of one timer is one of its countdown. -/
theorem meant_update {t : RtTimerData} (htick : s'.rtTick = s.rtTick)
    (htimer : s'.timer = Function.update s.timer i t) :
    s'.meant = {
      left := Function.update s.meant.left i
        (if t.activated then some (max 1 (CyclicTime.ahead s.rtTick t.timeoutTick)) else none)
      initTick := Function.update s.meant.initTick i t.initTick.toNat
      periodic := Function.update s.meant.periodic i t.periodic } := by
  unfold meant ticksTo
  rw [htick, htimer]
  refine congr (congrArg₂ Countdown.mk (funext fun j => ?_) (funext fun j => ?_))
    (funext fun j => ?_)
  all_goals
    by_cases hne : j = i
    · subst hne
      simp
    · simp [hne]

theorem rtTimerStart_matches [Fintype ι] (h : s.Good)
    (hst : s.rtTimerStart i = some s') : s.Matches stopsItself [.start i] s' := by
  have hinit := initTick_of_start hst
  have hlt : (s.timer i).initTick.toNat < rtTickHalf.toNat := hinit
  have hnew : CyclicTime.ahead s.rtTick (s.rtTick + (s.timer i).initTick) =
      (s.timer i).initTick.toNat := ahead_add _
  obtain ⟨s₁, hs₁, hkept, htick, hperm, htimer⟩ := h.kept.rtTimerStart (i := i) hinit
    (by omega) (fun j hj => by
      have hnear := h.ahead j hj
      omega)
  obtain rfl : s₁ = s' := Option.some.inj (hs₁.symm.trans hst)
  refine ⟨⟨htick ▸ hkept, fun j hj => ?_, h.fit.update htimer (h.fit i)⟩, ?_⟩
  · rw [ticksTo, htick, htimer]
    by_cases hne : j = i
    · subst hne
      rw [Function.update_self, started, hnew]
      exact hlt
    · rw [Function.update_of_ne hne]
      have hin := (List.mem_cons.mp (hperm.mem_iff.mp hj)).resolve_left hne
      exact h.ahead j (List.mem_of_mem_erase hin)
  · rw [meant_update htick htimer]
    refine .single (a := TimerAction.start i) (congrArg some ?_)
    simp [started, hnew, meant]

theorem rtTimerStop_matches [Fintype ι] (h : s.Good) :
    s.Matches stopsItself [.stop i] (s.rtTimerStop i) := by
  unfold rtTimerStop
  by_cases hactive : (s.timer i).activated = true
  · rw [if_pos hactive]
    refine ⟨⟨h.kept.remove, fun j hj => ?_, h.fit.update rfl (h.fit i)⟩, ?_⟩
    · have hne : j ≠ i := fun heq => h.kept.nodup.not_mem_erase (heq ▸ hj)
      rw [ticksTo, remove_timer_of_ne hne]
      exact h.ahead j (List.mem_of_mem_erase hj)
    · have hmeant : (s.remove i).meant = _ := meant_update (s := s) (i := i) rfl rfl
      rw [hmeant]
      refine .single (a := TimerAction.stop i) (congrArg some ?_)
      simp [meant]
  · rw [if_neg hactive]
    refine ⟨h, .single (a := TimerAction.stop i) (congrArg some ?_)⟩
    have hnone : s.meant.left i = none := if_neg hactive
    rw [← hnone, Function.update_eq_self]

theorem rtTimerSetTime_matches [Fintype ι] {time : RtTick} (h : s.Good)
    (htime : (s.timer i).periodic = true → 0 < time.toNat ∧ time < rtTickHalf) :
    s.Matches stopsItself [.setTime i time] (s.rtTimerSetTime i time) := by
  have hactive : ∀ j, ((s.rtTimerSetTime i time).timer j).activated = (s.timer j).activated :=
    fun j => by
      by_cases hne : j = i
      · subst hne
        simp [rtTimerSetTime]
      · simp [rtTimerSetTime, hne]
  refine ⟨⟨⟨h.kept.nodup, fun j => ?_, ?_, fun j hj => ?_⟩, fun j hj => ?_,
    h.fit.update rfl htime⟩, ?_⟩
  · rw [hactive]
    exact h.kept.active j
  · simp only [rtTimerSetTime_ticksTo]
    exact h.kept.sorted
  · rw [rtTimerSetTime_ticksTo]
    exact h.kept.near j hj
  · rw [rtTimerSetTime_ticksTo]
    exact h.ahead j hj
  · have hmeant : (s.rtTimerSetTime i time).meant = _ :=
      meant_update (s := s) (i := i) rfl rfl
    rw [hmeant]
    refine .single (a := TimerAction.setTime i time) (congrArg some ?_)
    simp [meant, ticksTo]

omit [DecidableEq ι] in
/-- A timer is called at a tick when its countdown has come to its last tick. -/
theorem fires_iff (s : RtTimers ι) (i : ι) :
    (∃ k, s.meant.left i = some k ∧ k ≤ 1) ↔
      (s.timer i).activated = true ∧ s.ticksTo s.rtTick i ≤ 1 := by
  cases hactive : (s.timer i).activated with
  | false => simp [meant, hactive]
  | true => simp [meant, hactive]

/-- The countdown of a timer is one tick on after a check. -/
theorem left_checked {fired : List ι} (h : s.Good)
    (hc : Checked stopsItself s.rtTick { s with rtTick := s.rtTick + 1 } s' fired) (i : ι) :
    s'.meant.left i = s.meant.next stopsItself i := by
  have htick : s'.rtTick = s.rtTick + 1 := hc.rtTick
  have htimer := hc.timer i
  have hfired : i ∈ fired ↔ (s.timer i).activated = true ∧ s.ticksTo s.rtTick i ≤ 1 :=
    (hc.fired_iff i).trans (and_congr_left' (h.kept.active i))
  unfold Countdown.next
  by_cases hi : i ∈ fired
  · obtain ⟨hactive, hdue⟩ := hfired.mp hi
    have hleft : s.meant.left i = some 1 := by
      have hone : max 1 (s.ticksTo s.rtTick i) = 1 := by omega
      rw [← hone]
      exact if_pos hactive
    rw [if_pos hi, afterFire] at htimer
    simp only [hleft, Nat.le_refl, if_true]
    cases hr : (s.timer i).periodic && !stopsItself i with
    | true =>
      have hrestarts : restarts stopsItself { s with rtTick := s.rtTick + 1 } i = true := hr
      have hpos := (h.fit i (Bool.and_eq_true_iff.mp hr).1).1
      have hnew : s'.ticksTo s'.rtTick i = (s.timer i).initTick.toNat := by
        rw [ticksTo, htimer, if_pos hrestarts, started, htick]
        exact ahead_add _
      have hagain : (s.meant.periodic i && !stopsItself i) = true := hr
      rw [if_pos hagain, meant]
      dsimp only
      rw [hnew, htimer, if_pos hrestarts]
      have hmax : max 1 (s.timer i).initTick.toNat = (s.timer i).initTick.toNat := by omega
      rw [hmax]
      rfl
    | false =>
      have hrestarts : ¬ restarts stopsItself { s with rtTick := s.rtTick + 1 } i = true := by
        rw [restarts, hr]
        exact Bool.false_ne_true
      have hagain : ¬ (s.meant.periodic i && !stopsItself i) = true := by
        rw [meant, hr]
        exact Bool.false_ne_true
      rw [if_neg hagain, meant]
      dsimp only
      rw [htimer, if_neg hrestarts]
      rfl
  · rw [if_neg hi] at htimer
    cases hactive : (s.timer i).activated with
    | false => simp [meant, htimer, hactive]
    | true =>
      have hlater : 1 < s.ticksTo s.rtTick i :=
        Nat.lt_of_not_le fun hle => hi (hfired.mpr ⟨hactive, hle⟩)
      have hpred : s'.ticksTo s'.rtTick i = s.ticksTo s.rtTick i - 1 := by
        rw [ticksTo, htimer, htick]
        exact ahead_succ (Nat.zero_lt_of_lt hlater)
      have hmax : max 1 (s.ticksTo s.rtTick i) = s.ticksTo s.rtTick i := by omega
      have hleft : s.meant.left i = some (s.ticksTo s.rtTick i) := by
        rw [meant]
        dsimp only
        rw [hactive, if_pos rfl, hmax]
      have hmax' : max 1 (s.ticksTo s.rtTick i - 1) = s.ticksTo s.rtTick i - 1 := by omega
      simp only [hleft, if_neg (Nat.not_le.mpr hlater)]
      rw [meant]
      dsimp only
      rw [hpred, htimer, hmax']
      exact if_pos hactive

theorem meant_checked {fired : List ι} (h : s.Good)
    (hc : Checked stopsItself s.rtTick { s with rtTick := s.rtTick + 1 } s' fired) :
    s'.meant = { s.meant with left := s.meant.next stopsItself } := by
  have hkeep : ∀ i, (s'.timer i).initTick = (s.timer i).initTick ∧
      (s'.timer i).periodic = (s.timer i).periodic := fun i => by
    rw [hc.timer]
    by_cases hi : i ∈ fired
    · rw [if_pos hi, afterFire]
      split
      · exact ⟨rfl, rfl⟩
      · exact ⟨rfl, rfl⟩
    · rw [if_neg hi]
      exact ⟨rfl, rfl⟩
  have hleft : s'.meant.left = s.meant.next stopsItself := funext fun i => left_checked h hc i
  have hinit : s'.meant.initTick = s.meant.initTick :=
    funext fun i => congrArg BitVec.toNat (hkeep i).1
  have hperiodic : s'.meant.periodic = s.meant.periodic := funext fun i => (hkeep i).2
  exact congr (congrArg₂ Countdown.mk hleft hinit) hperiodic

/-- A tick always comes to its end. -/
theorem rtTickIncrease_matches [Fintype ι] (stopsItself : ι → Bool) (h : s.Good) :
    ∃ s' fired, s.rtTickIncrease stopsItself = some (s', fired) ∧
      s.Matches stopsItself [.tick fired] s' := by
  have hkept : Kept s.rtTick { s with rtTick := s.rtTick + 1 } :=
    ⟨h.kept.nodup, h.kept.active, h.kept.sorted, h.kept.near⟩
  obtain ⟨s', fired, hloop, hc⟩ := checkLoop_checked stopsItself hkept rfl h.fit
    (Nat.lt_succ_of_le List.countP_le_length)
  have htick : s'.rtTick = s.rtTick + 1 := hc.rtTick
  have hpred : ∀ i ∈ s'.rtTimerList,
      s'.ticksTo s'.rtTick i = s'.ticksTo s.rtTick i - 1 := fun i hi => by
    rw [htick]
    exact ahead_succ (Nat.zero_lt_of_lt (hc.later i hi))
  refine ⟨s', fired, hloop, ⟨⟨hc.kept.nodup, hc.kept.active, ?_, fun i hi => ?_⟩, fun i hi => ?_,
    fun i => ?_⟩, ?_⟩
  · refine hc.kept.sorted.imp_of_mem fun {i j} hi hj hle => ?_
    rw [hpred i hi, hpred j hj]
    exact Nat.sub_le_sub_right hle 1
  · rw [hpred i hi]
    exact (Nat.sub_le _ _).trans (hc.kept.near i hi)
  · have hnear := hc.kept.near i hi
    have hlater := hc.later i hi
    rw [hpred i hi]
    omega
  · rw [hc.timer]
    by_cases hi : i ∈ fired
    · rw [if_pos hi, afterFire]
      split
      · exact h.fit i
      · exact h.fit i
    · rw [if_neg hi]
      exact h.fit i
  · have hlabel : Countdown.label s.meant .tick = [.tick fired] := by
      have hfilter : (Finset.univ.filter fun i => ∃ k, s.meant.left i = some k ∧ k ≤ 1) =
          fired.toFinset := by
        ext i
        rw [Finset.mem_filter, fires_iff, List.mem_toFinset, hc.fired_iff, ← h.kept.active i]
        exact and_iff_right (Finset.mem_univ i)
      rw [Countdown.label, hfilter, List.toFinset_val, hc.nodup.dedup]
    rw [← hlabel, meant_checked h hc]
    exact .single rfl

theorem step_matches [Fintype ι] {a : TimerAction ι} (h : s.Good)
    (hst : s.step stopsItself a = some s') :
    s.Matches stopsItself (s.label stopsItself a) s' := by
  cases a with
  | start i => exact rtTimerStart_matches h hst
  | stop i =>
    cases Option.some.inj hst
    exact rtTimerStop_matches h
  | setTime i time =>
    simp only [step] at hst
    split at hst
    next htime =>
      cases Option.some.inj hst
      exact rtTimerSetTime_matches h htime
    next => cases hst
  | tick =>
    obtain ⟨s₁, fired, hs₁, hmatch⟩ := rtTickIncrease_matches stopsItself h
    obtain rfl : s₁ = s' := by simpa [step, hs₁] using hst
    have hlabel : s.label stopsItself .tick = [.tick fired] := by simp only [label, hs₁]
    rw [hlabel]
    exact hmatch

omit [DecidableEq ι] in
theorem init_good {rtTick : RtTick} {timer : ι → RtTimerData}
    (hfit : (init rtTick timer).PeriodsFit) : (init rtTick timer).Good :=
  ⟨⟨.nil, fun _ => iff_of_false List.not_mem_nil Bool.false_ne_true, .nil,
    fun _ hi => absurd hi List.not_mem_nil⟩, fun _ hi => absurd hi List.not_mem_nil, hfit⟩

/-- The countdowns show what the timers do. -/
theorem traces_good [Fintype ι] {tr : List (TimerLabel ι)} (hs : s.Good)
    (h : Traces (step stopsItself) (label stopsItself) s tr s') :
    s'.Good ∧ Traces (Countdown.step stopsItself) Countdown.label s.meant tr s'.meant := by
  obtain ⟨c, htr, hgood, rfl⟩ := h.simulates
    (R := fun s c => s.Good ∧ c = s.meant) (fun s c a s' hR hst => by
      obtain ⟨hgood, rfl⟩ := hR
      obtain ⟨hgood', htr⟩ := step_matches hgood hst
      exact ⟨s'.meant, htr, hgood', rfl⟩) ⟨hs, rfl⟩
  exact ⟨hgood, htr⟩

/-- In every run the timers are the countdowns that they are meant to be: at each tick those are
called that have come to their last tick, and no others.  And the check of a tick comes to its
end. -/
theorem timer_simulates [Fintype ι] (stopsItself : ι → Bool) {rtTick : RtTick}
    {timer : ι → RtTimerData} (hfit : (init rtTick timer).PeriodsFit)
    {tr : List (TimerLabel ι)} {s : RtTimers ι}
    (h : Traces (step stopsItself) (label stopsItself) (init rtTick timer) tr s) :
    Traces (Countdown.step stopsItself) Countdown.label (init rtTick timer).meant tr s.meant ∧
      ∃ s' fired, s.rtTickIncrease stopsItself = some (s', fired) := by
  obtain ⟨hgood, htr⟩ := traces_good (init_good hfit) h
  obtain ⟨s', fired, hs', -⟩ := rtTickIncrease_matches stopsItself hgood
  exact ⟨htr, s', fired, hs'⟩

/-- A timer that is called once, after two ticks, and a periodic one. -/
def onceAndPeriodic : Bool → RtTimerData
  | false => { initTick := 2, timeoutTick := 0, activated := false, periodic := false }
  | true => { initTick := 1, timeoutTick := 0, activated := false, periodic := true }

theorem onceAndPeriodic_fit (rtTick : RtTick) : (init rtTick onceAndPeriodic).PeriodsFit := by
  intro i hperiodic
  cases i with
  | false => cases hperiodic
  | true =>
    have hlt : (1 : RtTick) < rtTickHalf := by decide
    exact ⟨Nat.one_pos, hlt⟩

/-- The tick runs over while both timers run. -/
theorem timer_simulates_runsOver : ∃ s : RtTimers Bool,
    Traces (Countdown.step fun _ => false) Countdown.label
        (init 0xFFFFFFFE onceAndPeriodic).meant
        [.start false, .start true, .tick {true}, .tick {false, true}, .tick {true}] s.meant ∧
      ∃ s' fired, s.rtTickIncrease (fun _ => false) = some (s', fired) := by
  have h : Traces (step fun _ => false) (label fun _ => false)
      (init 0xFFFFFFFE onceAndPeriodic) _ _ :=
    .snoc (a := TimerAction.tick) (.snoc (a := TimerAction.tick) (.snoc (a := TimerAction.tick)
      (.snoc (a := TimerAction.start true) (.snoc (a := TimerAction.start false)
        .nil rfl) rfl) rfl) rfl) rfl
  exact ⟨_, timer_simulates _ (onceAndPeriodic_fit _) h⟩

end RtTimers

/-! ## When a timer is called -/

namespace TimerLabel

/-- It says something of this timer. -/
def about (i : ι) : TimerLabel ι → Bool
  | .start j => j = i
  | .stop j => j = i
  | .setTime j _ => j = i
  | .tick _ => false

/-- It starts or stops this timer. -/
def moves (i : ι) : TimerLabel ι → Bool
  | .start j => j = i
  | .stop j => j = i
  | .setTime _ _ => false
  | .tick _ => false

/-- The ticks that this timer is set to, where it was set to some. -/
def setsTo (i : ι) (ticks : Nat) : TimerLabel ι → Nat
  | .start _ => ticks
  | .stop _ => ticks
  | .setTime j time => if j = i then time.toNat else ticks
  | .tick _ => ticks

/-- A tick. -/
def isTick : TimerLabel ι → Bool
  | .start _ => false
  | .stop _ => false
  | .setTime _ _ => false
  | .tick _ => true

end TimerLabel

/-- The ticks that a timer is set to after a trace. -/
def ticksSet (i : ι) (ticks : Nat) (tr : List (TimerLabel ι)) : Nat :=
  tr.foldl (TimerLabel.setsTo i) ticks

/-- How many ticks pass in a trace. -/
def tickCount (tr : List (TimerLabel ι)) : Nat := tr.countP TimerLabel.isTick

omit [DecidableEq ι] in
theorem tickCount_append (tr tr' : List (TimerLabel ι)) :
    tickCount (tr ++ tr') = tickCount tr + tickCount tr' := List.countP_append

theorem ticksSet_append (i : ι) (ticks : Nat) (tr tr' : List (TimerLabel ι)) :
    ticksSet i ticks (tr ++ tr') = ticksSet i (ticksSet i ticks tr) tr' := List.foldl_append

namespace Countdown

variable [Fintype ι] {stopsItself : ι → Bool} {c c' : Countdown ι} {tr : List (TimerLabel ι)}
  {i : ι}

omit [DecidableEq ι] in
theorem label_single (c : Countdown ι) (a : TimerAction ι) : ∃ l, c.label a = [l] := by
  cases a with
  | start i => exact ⟨_, rfl⟩
  | stop i => exact ⟨_, rfl⟩
  | setTime i time => exact ⟨_, rfl⟩
  | tick => exact ⟨_, rfl⟩

/-- A trace tells the ticks that a timer is set to. -/
theorem initTick_traces (h : Traces (step stopsItself) label c tr c') (i : ι) :
    c'.initTick i = ticksSet i (c.initTick i) tr ∧ c'.periodic = c.periodic := by
  induction h with
  | nil => exact ⟨rfl, rfl⟩
  | @snoc tr c₁ c₂ a _ hst ih =>
    obtain ⟨hinit, hperiodic⟩ := ih
    rw [ticksSet_append, ← hinit, ← hperiodic]
    cases a with
    | start j =>
      cases Option.some.inj hst
      exact ⟨rfl, rfl⟩
    | stop j =>
      cases Option.some.inj hst
      exact ⟨rfl, rfl⟩
    | setTime j time =>
      cases Option.some.inj hst
      refine ⟨?_, rfl⟩
      by_cases heq : j = i
      · subst heq
        simp [label, ticksSet, TimerLabel.setsTo]
      · simp [label, ticksSet, TimerLabel.setsTo, heq, Ne.symm heq]
    | tick =>
      cases Option.some.inj hst
      exact ⟨rfl, rfl⟩

/-- Where it is not started and not stopped, a timer that is called once counts down, and is not
called again. -/
theorem left_traces {k : Nat} (h : Traces (step stopsItself) label c tr c')
    (hquiet : ∀ l ∈ tr, l.moves i = false) (honce : c.periodic i = false)
    (hleft : c.left i = some k) (hk : 0 < k) :
    c'.left i = if tickCount tr < k then some (k - tickCount tr) else none := by
  induction h with
  | nil =>
    rw [hleft, tickCount, List.countP_nil, if_pos hk, Nat.sub_zero]
  | @snoc tr c₁ c₂ a htr hst ih =>
    have ih := ih fun l hl => hquiet l (List.mem_append_left _ hl)
    have hlast : ∀ l ∈ c₁.label a, l.moves i = false := fun l hl =>
      hquiet l (List.mem_append_right _ hl)
    rw [tickCount_append]
    cases a with
    | start j =>
      cases Option.some.inj hst
      have hne : ¬ j = i := by simpa [TimerLabel.moves] using hlast _ List.mem_cons_self
      have hcount : tickCount (c₁.label (.start j)) = 0 := rfl
      rw [hcount, Nat.add_zero, ← ih]
      exact Function.update_of_ne (Ne.symm hne) ..
    | stop j =>
      cases Option.some.inj hst
      have hne : ¬ j = i := by simpa [TimerLabel.moves] using hlast _ List.mem_cons_self
      have hcount : tickCount (c₁.label (.stop j)) = 0 := rfl
      rw [hcount, Nat.add_zero, ← ih]
      exact Function.update_of_ne (Ne.symm hne) ..
    | setTime j time =>
      cases Option.some.inj hst
      exact ih
    | tick =>
      cases Option.some.inj hst
      have hcount : tickCount (c₁.label .tick) = 1 := rfl
      have honce₁ : c₁.periodic i = false := by
        rw [(initTick_traces htr i).2]
        exact honce
      rw [hcount]
      change c₁.next stopsItself i = _
      rw [next, ih, honce₁]
      by_cases hlt : tickCount tr < k
      · simp only [if_pos hlt, Bool.false_and, Bool.false_eq_true, if_false]
        by_cases hlast : k - tickCount tr ≤ 1
        · rw [if_pos hlast, if_neg (by omega)]
        · rw [if_neg hlast, if_pos (by omega), Nat.sub_sub]
      · simp only [if_neg hlt]
        rw [if_neg (by omega)]

/-- A timer that is called once is called at the last of its ticks. -/
theorem called_iff {fired : Multiset ι} {tr' : List (TimerLabel ι)}
    (h : Traces (step stopsItself) label c (tr ++ ([.start i] ++ (tr' ++ [.tick fired]))) c')
    (hquiet : ∀ l ∈ tr', l.moves i = false) (honce : c.periodic i = false) :
    i ∈ fired ↔ tickCount tr' + 1 = max 1 (ticksSet i (c.initTick i) tr) := by
  obtain ⟨c₁, htr, h⟩ := h.of_append label_single
  obtain ⟨c₂, hstart, h⟩ := h.of_append label_single
  obtain ⟨c₃, htr', htick⟩ := h.of_append label_single
  obtain ⟨a, ha, hlabel⟩ := hstart.of_singleton label_single
  obtain rfl : a = .start i := by
    cases a with
    | start j =>
      cases hlabel
      rfl
    | stop j => cases hlabel
    | setTime j time => cases hlabel
    | tick => cases hlabel
  obtain ⟨a', -, hlabel'⟩ := htick.of_singleton label_single
  obtain rfl : a' = .tick := by
    cases a' with
    | start j => cases hlabel'
    | stop j => cases hlabel'
    | setTime j time => cases hlabel'
    | tick => rfl
  obtain ⟨hinit, hperiodic⟩ := initTick_traces htr i
  have hc₂ := Option.some.inj ha
  have hleft : c₂.left i = some (max 1 (ticksSet i (c.initTick i) tr)) := by
    rw [← hc₂, ← hinit]
    exact Function.update_self ..
  have honce₂ : c₂.periodic i = false := by
    rw [← hc₂, ← honce, ← hperiodic]
  have hpos : 0 < max 1 (ticksSet i (c.initTick i) tr) := by omega
  have hleft' := left_traces htr' hquiet honce₂ hleft hpos
  have hfired : i ∈ fired ↔ ∃ k, c₃.left i = some k ∧ k ≤ 1 := by
    simp only [label, List.cons.injEq, TimerLabel.tick.injEq, and_true] at hlabel'
    rw [← hlabel', Finset.mem_val, Finset.mem_filter]
    exact and_iff_right (Finset.mem_univ i)
  rw [hfired, hleft']
  by_cases hlt : tickCount tr' < max 1 (ticksSet i (c.initTick i) tr)
  · simp only [if_pos hlt, Option.some.injEq, exists_eq_left']
    omega
  · simp only [if_neg hlt, reduceCtorEq, false_and, exists_false, false_iff]
    omega

end Countdown

/-- The same of the timers of the kernel: a timer that is called once is called at the last of the
ticks that it was set to when it was started, unless it is started anew or stopped before. -/
theorem RtTimers.called_iff [Fintype ι] {stopsItself : ι → Bool} {rtTick : RtTick}
    {timer : ι → RtTimerData} {i : ι} {tr tr' : List (TimerLabel ι)} {fired : Multiset ι}
    {s : RtTimers ι} (hfit : (init rtTick timer).PeriodsFit)
    (h : Traces (step stopsItself) (label stopsItself) (init rtTick timer)
      (tr ++ ([.start i] ++ (tr' ++ [.tick fired]))) s)
    (hquiet : ∀ l ∈ tr', l.moves i = false) (honce : (timer i).periodic = false) :
    i ∈ fired ↔ tickCount tr' + 1 = max 1 (ticksSet i (timer i).initTick.toNat tr) :=
  Countdown.called_iff (traces_good (init_good hfit) h).2 hquiet honce

end FreeModbus
