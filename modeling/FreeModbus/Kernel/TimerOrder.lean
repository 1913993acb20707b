import FreeModbus.Kernel.Countdown

/-!
# The order in which timers are called

Of two timers that time out at the same tick the one that was started early is called early, as
`rt_timer_start` says.  A periodic timer is started again when it is called, so it comes behind
those that have run longer.
-/

namespace FreeModbus

open CyclicTime Transition

variable {ι : Type} [DecidableEq ι]

namespace RtTimers

/-- The one times out before the other, or at the same tick and was started before it. -/
def Earlier (base : RtTick) (s : RtTimers ι) (since : ι → Nat) (i j : ι) : Prop :=
  s.ticksTo base i < s.ticksTo base j ∨
    s.ticksTo base i = s.ticksTo base j ∧ since i < since j

/-- The list is in that order, and its timers were started before `clock`. -/
structure InTurn (base : RtTick) (s : RtTimers ι) (clock : Nat) (since : ι → Nat) : Prop where
  order : s.rtTimerList.Pairwise (Earlier base s since)
  past : ∀ i ∈ s.rtTimerList, since i < clock

/-- The starts of a check, one after the other. -/
def restamp (stopsItself : ι → Bool) (s : RtTimers ι) :
    List ι → Nat → (ι → Nat) → Nat × (ι → Nat)
  | [], clock, since => (clock, since)
  | i :: fired, clock, since =>
      if s.restarts stopsItself i then
        restamp stopsItself s fired (clock + 1) (Function.update since i clock)
      else restamp stopsItself s fired clock since

/-- One step, and the time of each timer's last start. -/
def orderStep (stopsItself : ι → Bool) (r : Stamped (RtTimers ι) ι) :
    TimerAction ι → Option (Stamped (RtTimers ι) ι)
  | .start i => (r.state.rtTimerStart i).map fun state =>
      { state, clock := r.clock + 1, since := Function.update r.since i r.clock }
  | .stop i => some { r with state := r.state.rtTimerStop i }
  | .setTime i time =>
      (r.state.step stopsItself (.setTime i time)).map fun state => { r with state }
  | .tick => (r.state.rtTickIncrease stopsItself).map fun (state, fired) =>
      let (clock, since) := restamp stopsItself r.state fired r.clock r.since
      { state, clock, since }

variable {s s' s₁ : RtTimers ι} {i j k : ι} {base : RtTick} {stopsItself : ι → Bool}
  {clock : Nat} {since : ι → Nat} {list : List ι}

omit [DecidableEq ι] in
theorem Earlier.le (h : Earlier base s since i j) : s.ticksTo base i ≤ s.ticksTo base j := by
  rcases h with hlt | ⟨heq, -⟩
  · exact hlt.le
  · exact heq.le

omit [DecidableEq ι] in
/-- It depends on the times of the two timers. -/
theorem Earlier.of_eq {since' : ι → Nat} (h : Earlier base s since i j)
    (hi : s'.ticksTo base i = s.ticksTo base i) (hj : s'.ticksTo base j = s.ticksTo base j)
    (hsi : since' i = since i) (hsj : since' j = since j) : Earlier base s' since' i j := by
  unfold Earlier
  rw [hi, hj, hsi, hsj]
  exact h

/-- A timer that is taken off the list leaves the others in their order. -/
theorem InTurn.remove (h : InTurn base s clock since) (hkept : s.Kept base) :
    InTurn base (s.remove i) clock since := by
  have hne : ∀ j ∈ s.rtTimerList.erase i, j ≠ i := fun _ hj => (hkept.mem_erase hj).1
  have hticks : ∀ j ∈ s.rtTimerList.erase i, (s.remove i).ticksTo base j = s.ticksTo base j :=
    fun j hj => by rw [ticksTo, remove_timer_of_ne (hne j hj), ticksTo]
  refine ⟨?_, fun j hj => h.past j (List.mem_of_mem_erase hj)⟩
  refine (h.order.sublist List.erase_sublist).imp_of_mem fun {j k} hj hk hjk => ?_
  exact hjk.of_eq (hticks j hj) (hticks k hk) rfl rfl

/-- A timer that is started comes behind those that time out no later. -/
theorem InTurn.start (h : InTurn base s clock since) (hkept : s.Kept base)
    (hinit : (s.timer i).initTick < rtTickHalf)
    (hnew : ahead base (s.rtTick + (s.timer i).initTick) ≤ rtTickHalf.toNat)
    (hspan : ∀ j ∈ s.rtTimerList, s.ticksTo base j <
      ahead base (s.rtTick + (s.timer i).initTick) + rtTickHalf.toNat)
    (hst : s.rtTimerStart i = some s') :
    InTurn base s' (clock + 1) (Function.update since i clock) := by
  obtain rfl := Option.some.inj ((rtTimerStart_eq hinit).symm.trans hst)
  have hmem : ∀ j ∈ s.rtTimerList.erase i, j ≠ i ∧ j ∈ s.rtTimerList := fun _ => hkept.mem_erase
  have hother : ∀ j ∈ s.rtTimerList.erase i,
      ahead base (Function.update s.timer i (s.started i) j).timeoutTick = s.ticksTo base j :=
    fun _ => hkept.ahead_other
  have hsince : ∀ j ∈ s.rtTimerList.erase i, Function.update since i clock j = since j :=
    fun j hj => Function.update_of_ne (hmem j hj).1 ..
  have hstops : ∀ j ∈ s.rtTimerList.erase i,
      stopsBefore (Function.update s.timer i (s.started i)) i j = true ↔
        ahead base (Function.update s.timer i (s.started i) i).timeoutTick <
          ahead base (Function.update s.timer i (s.started i) j).timeoutTick :=
    fun _ => hkept.stopsBefore_started hnew hspan
  refine ⟨pairwise_orderedInsert ?_ (fun j hj hins => ⟨?_, fun k hk hjk => ?_⟩)
    (fun j hj hins => ?_), fun j hj => ?_⟩
  · refine (h.order.sublist List.erase_sublist).imp_of_mem fun {j k} hj hk hjk => ?_
    exact hjk.of_eq (hother j hj) (hother k hk) (hsince j hj) (hsince k hk)
  · exact Or.inl ((hstops j hj).mp hins)
  · exact Or.inl (Nat.lt_of_lt_of_le ((hstops j hj).mp hins) hjk.le)
  · -- the search went past the timers that time out no later
    rcases Nat.lt_or_eq_of_le (Nat.le_of_not_lt (mt (hstops j hj).mpr hins)) with hlt | heq
    · exact Or.inl hlt
    · refine Or.inr ⟨heq, ?_⟩
      rw [hsince j hj, Function.update_self]
      exact h.past j (hmem j hj).2
  · rcases List.mem_cons.mp ((insertTimer_perm ..).mem_iff.mp hj) with rfl | hj
    · rw [Function.update_self]
      exact Nat.lt_succ_self _
    · rw [hsince j hj]
      exact Nat.lt_succ_of_lt (h.past j (hmem j hj).2)

/-! ## The check -/

/-- A timer stays periodic or not. -/
theorem Fired.restarts_eq (h : Fired stopsItself base i s s₁) (j : ι) :
    s₁.restarts stopsItself j = s.restarts stopsItself j := by
  have hperiodic : (s₁.timer j).periodic = (s.timer j).periodic := by
    by_cases hne : j = i
    · subst hne
      rw [h.self, afterFire]
      split
      · rfl
      · rfl
    · rw [h.others j hne]
  rw [restarts, restarts, hperiodic]

theorem restamp_congr (h : ∀ j, s₁.restarts stopsItself j = s.restarts stopsItself j)
    (fired : List ι) (clock : Nat) (since : ι → Nat) :
    restamp stopsItself s₁ fired clock since = restamp stopsItself s fired clock since := by
  induction fired generalizing clock since with
  | nil => rfl
  | cons i fired ih =>
    rw [restamp, restamp, h i]
    split
    · exact ih _ _
    · exact ih _ _

/-- The call of one timer, with its new start if it has one. -/
theorem InTurn.fire (h : InTurn base s clock since) (hkept : s.Kept base)
    (htick : s.rtTick = base + 1) (hfit : s.PeriodsFit) (hi : i ∈ s.rtTimerList)
    (hfire : s.fire stopsItself i = some s₁) :
    ∃ clock₁ since₁, InTurn base s₁ clock₁ since₁ ∧ (∀ j, j ≠ i → since₁ j = since j) ∧
      ∀ fired, restamp stopsItself s (i :: fired) clock since =
        restamp stopsItself s fired clock₁ since₁ := by
  rw [fire_eq hkept hi] at hfire
  by_cases hr : s.restarts stopsItself i = true
  · rw [if_pos hr] at hfire
    obtain ⟨hpos, hinit⟩ := hfit i (Bool.and_eq_true_iff.mp hr).1
    have hlt : (s.timer i).initTick.toNat < rtTickHalf.toNat := hinit
    have hnew := ahead_restart htick hinit
    refine ⟨clock + 1, Function.update since i clock, h.start hkept hinit (by omega)
      (fun j hj => ?_) hfire, fun j hne => Function.update_of_ne hne .., fun fired => if_pos hr⟩
    have hnear := hkept.near j hj
    omega
  · rw [if_neg hr] at hfire
    cases hfire
    exact ⟨clock, since, h.remove hkept, fun _ _ => rfl, fun fired => if_neg hr⟩

/-- A check calls the timers in their order, and leaves the list in order. -/
theorem checkLoop_order {turns : Nat} {fired : List ι} (h : InTurn base s clock since)
    (hkept : s.Kept base) (htick : s.rtTick = base + 1) (hfit : s.PeriodsFit)
    (hturns : s.dueCount base < turns)
    (hloop : checkLoop stopsItself turns s = some (s', fired)) :
    fired.Pairwise (Earlier base s since) ∧
      InTurn base s' (restamp stopsItself s fired clock since).1
        (restamp stopsItself s fired clock since).2 := by
  induction turns generalizing s fired clock since with
  | zero => exact absurd hturns (Nat.not_lt_zero _)
  | succ turns ih =>
    unfold checkLoop at hloop
    cases hlist : s.rtTimerList with
    | nil =>
      rw [hlist] at hloop
      cases hloop
      exact ⟨.nil, h⟩
    | cons i list =>
      have hi : i ∈ s.rtTimerList := hlist ▸ List.mem_cons_self
      rw [hlist] at hloop
      dsimp only at hloop
      by_cases hdue : s.ticksTo base i ≤ 1
      · obtain ⟨s₁, hs₁, hfired⟩ := fire_fired stopsItself hkept htick hfit hlist hdue
        have htick₁ := hfired.rtTick.trans htick
        have hfit₁ := hfired.periodsFit hfit
        have hfewer := Nat.lt_of_lt_of_le hfired.fewer (Nat.le_of_lt_succ hturns)
        obtain ⟨s₂, fired₂, hloop₂, hc⟩ := checkLoop_checked stopsItself hfired.kept htick₁ hfit₁
          hfewer
        rw [if_pos ((due_iff hkept htick hi).mpr hdue), hs₁, Option.bind_some, hloop₂,
          Option.map_some] at hloop
        cases hloop
        obtain ⟨clock₁, since₁, hturn₁, hsince, hstamp⟩ := h.fire hkept htick hfit hi hs₁
        obtain ⟨horder, hturn⟩ := ih hturn₁ hfired.kept htick₁ hfit₁ hfewer hloop₂
        have hne : ∀ j ∈ fired₂, j ≠ i := fun j hj heq =>
          hfired.later ((hc.fired_iff i).mp (heq ▸ hj))
        rw [restamp_congr hfired.restarts_eq] at hturn
        rw [hstamp]
        refine ⟨List.pairwise_cons.mpr ⟨fun j hj => ?_, ?_⟩, hturn⟩
        · have hin := (hfired.mem j (hne j hj)).mp ((hc.fired_iff j).mp hj).1
          rw [hlist] at hin
          exact (List.pairwise_cons.mp (hlist ▸ h.order)).1 j
            ((List.mem_cons.mp hin).resolve_left (hne j hj))
        · refine horder.imp_of_mem fun {j k} hj hk hjk => ?_
          exact hjk.of_eq (hfired.ticksTo_eq (hne j hj)).symm (hfired.ticksTo_eq (hne k hk)).symm
            (hsince j (hne j hj)).symm (hsince k (hne k hk)).symm
      · rw [if_neg (mt (due_iff hkept htick hi).mp hdue)] at hloop
        cases hloop
        exact ⟨.nil, h⟩

/-! ## Runs -/

omit [DecidableEq ι] in
/-- The tick goes on, past none of the times. -/
theorem InTurn.tick (h : InTurn base s clock since)
    (hlater : ∀ i ∈ s.rtTimerList, 1 < s.ticksTo base i) :
    InTurn (base + 1) s clock since := by
  have hpred : ∀ i ∈ s.rtTimerList, s.ticksTo (base + 1) i = s.ticksTo base i - 1 := fun i hi =>
    ahead_succ (Nat.zero_lt_of_lt (hlater i hi))
  refine ⟨h.order.imp_of_mem fun {i j} hi hj hij => ?_, h.past⟩
  have hi' := hlater i hi
  unfold Earlier at hij ⊢
  rw [hpred i hi, hpred j hj]
  omega

/-- The timers are as they should be, and their list is in the order in which they are called. -/
structure Orderly (r : Stamped (RtTimers ι) ι) : Prop where
  good : r.state.Good
  turn : InTurn r.state.rtTick r.state r.clock r.since

/-- The order after a tick. -/
theorem tick_order {fired : List ι} (h : s.Good) (hturn : InTurn s.rtTick s clock since)
    (ht : s.rtTickIncrease stopsItself = some (s', fired)) :
    fired.Pairwise (Earlier s.rtTick s since) ∧
      InTurn s'.rtTick s' (restamp stopsItself s fired clock since).1
        (restamp stopsItself s fired clock since).2 := by
  have hkept : Kept s.rtTick { s with rtTick := s.rtTick + 1 } :=
    ⟨h.kept.nodup, h.kept.active, h.kept.sorted, h.kept.near⟩
  have hturns : dueCount s.rtTick { s with rtTick := s.rtTick + 1 } < s.rtTimerList.length + 1 :=
    Nat.lt_succ_of_le List.countP_le_length
  have hturn₁ : InTurn s.rtTick { s with rtTick := s.rtTick + 1 } clock since :=
    ⟨hturn.order, hturn.past⟩
  obtain ⟨s₁, fired₁, hloop, hc⟩ := checkLoop_checked stopsItself hkept rfl h.fit hturns
  cases hloop.symm.trans ht
  obtain ⟨horder, hturn'⟩ := checkLoop_order hturn₁ hkept rfl h.fit hturns hloop
  have hsame : ∀ j, restarts stopsItself { s with rtTick := s.rtTick + 1 } j =
      s.restarts stopsItself j := fun _ => rfl
  have htick : s'.rtTick = s.rtTick + 1 := hc.rtTick
  rw [restamp_congr hsame] at hturn'
  rw [htick]
  exact ⟨horder, hturn'.tick hc.later⟩

theorem Orderly.step [Fintype ι] {r r' : Stamped (RtTimers ι) ι} {a : TimerAction ι}
    (h : Orderly r) (hst : orderStep stopsItself r a = some r') : Orderly r' := by
  cases a with
  | start i =>
    obtain ⟨s', hs', rfl⟩ := Option.map_eq_some_iff.mp hst
    have hinit := initTick_of_start hs'
    have hlt : (r.state.timer i).initTick.toNat < rtTickHalf.toNat := hinit
    have hnew : ahead r.state.rtTick (r.state.rtTick + (r.state.timer i).initTick) =
        (r.state.timer i).initTick.toNat := ahead_add _
    have hturn := h.turn.start h.good.kept hinit (by omega) (fun j hj => by
      have hnear := h.good.ahead j hj
      omega) hs'
    have htick : s'.rtTick = r.state.rtTick := by
      rw [← Option.some.inj ((rtTimerStart_eq hinit).symm.trans hs')]
    have hmatch : r.state.Matches stopsItself [.start i] s' := rtTimerStart_matches h.good hs'
    refine ⟨hmatch.1, ?_⟩
    dsimp only
    rw [htick]
    exact hturn
  | stop i =>
    cases hst
    have hmatch : r.state.Matches stopsItself [.stop i] (r.state.rtTimerStop i) :=
      rtTimerStop_matches h.good
    refine ⟨hmatch.1, ?_⟩
    dsimp only
    unfold rtTimerStop
    split
    · exact h.turn.remove h.good.kept
    · exact h.turn
  | setTime i time =>
    obtain ⟨s', hs', rfl⟩ := Option.map_eq_some_iff.mp hst
    refine ⟨(step_matches h.good hs').1, ?_⟩
    simp only [RtTimers.step] at hs'
    split at hs'
    next =>
      cases hs'
      exact ⟨h.turn.order.imp fun {j k} hjk => hjk.of_eq (rtTimerSetTime_ticksTo ..)
        (rtTimerSetTime_ticksTo ..) rfl rfl, h.turn.past⟩
    next => cases hs'
  | tick =>
    obtain ⟨⟨s', fired⟩, hs', rfl⟩ := Option.map_eq_some_iff.mp hst
    obtain ⟨s₁, fired₁, ht, hmatch⟩ := rtTickIncrease_matches stopsItself h.good
    cases ht.symm.trans hs'
    exact ⟨hmatch.1, (tick_order h.good h.turn hs').2⟩

/-- In every run each tick calls its timers in the order in which they time out, and those that
time out at the same tick in the order in which they were started. -/
theorem timer_order [Fintype ι] {rtTick : RtTick} {timer : ι → RtTimerData}
    {r : Stamped (RtTimers ι) ι} {fired : List ι} (hfit : (init rtTick timer).PeriodsFit)
    (h : Reachable (fun r => r.state = init rtTick timer) (orderStep stopsItself) r)
    (ht : r.state.rtTickIncrease stopsItself = some (s', fired)) :
    fired.Pairwise (Earlier r.state.rtTick r.state r.since) := by
  have horderly : Orderly r := by
    refine h.invariant (fun r hr => ?_) fun r a r' hr _ hst => hr.step hst
    refine ⟨hr ▸ init_good hfit, ?_, ?_⟩
    · rw [hr]
      exact .nil
    · rw [hr]
      exact fun i hi => absurd hi List.not_mem_nil
  exact (tick_order horderly.good horderly.turn ht).1

/-- Two timers of two ticks are started, one after the other; at their tick they are called so. -/
theorem timer_order_two : ∃ (r : Stamped (RtTimers Bool) Bool) (s' : RtTimers Bool),
    r.state.rtTickIncrease (fun _ => false) = some (s', [true, false]) ∧
      r.since true < r.since false ∧
      [true, false].Pairwise (Earlier r.state.rtTick r.state r.since) := by
  let timer : Bool → RtTimerData := fun _ =>
    { initTick := 2, timeoutTick := 0, activated := false, periodic := false }
  let start : Stamped (RtTimers Bool) Bool := ⟨init 0xFFFFFFFE timer, 0, fun _ => 0⟩
  have hrun : (run (orderStep fun _ => false) start [.start true, .start false, .tick]).map
      (fun r => ((r.state.rtTickIncrease fun _ => false).map Prod.snd, r.since true,
        r.since false)) = some (some [true, false], 0, 1) := by
    decide +kernel
  obtain ⟨r, hr, heq⟩ := Option.map_eq_some_iff.mp hrun
  simp only [Prod.mk.injEq] at heq
  obtain ⟨hfired, htrue, hfalse⟩ := heq
  obtain ⟨⟨s', fired⟩, ht, rfl⟩ := Option.map_eq_some_iff.mp hfired
  have hstart : Reachable (fun r => r.state = init 0xFFFFFFFE timer) (orderStep fun _ => false)
      start := .start rfl
  refine ⟨r, s', ht, by omega, timer_order (fun i hp => ?_) (hstart.of_run hr) ht⟩
  cases hp

end RtTimers

end FreeModbus
