import FreeModbus.Master.Phases

/-!
# The run resource

The semaphore `xMasterRunRes` is taken by request functions and released by the
poll loop.  Nothing ties a release to a request: the poll loop releases it at the
end of every frame, expected or not.  So the semaphore and the holders add up to
one only as long as no frame begins out of turn (`InTurn`).

The invariant is the phase of the master together with `Exclusive`: the count, and
that outside the quiet phase the holder has posted its request.
-/

namespace FreeModbus

open EventFlags Transition

namespace Master

/-- A byte that begins a frame comes in turn: the holder of the run resource has posted its
request, and the poll loop has no other event before it. -/
def InTurn (s : Master) : MasterAction → Prop
  | .byte _ =>
      s.eRcvState = .idle → (∃ i ∈ s.holders, (s.calls i).Posted) ∧
        ∀ e ∈ MBMasterEventType.all, masterChannel.Pending s.xMasterOsEvent e → e = .frameSent
  | _ => True

instance (s : Master) : ∀ a : MasterAction, Decidable (s.InTurn a)
  | .byte _ => by unfold InTurn; infer_instance
  | .timer => isTrue trivial
  | .txReady => isTrue trivial
  | .poll _ => isTrue trivial
  | .refuse _ _ => isTrue trivial
  | .take _ _ => isTrue trivial
  | .fill _ => isTrue trivial
  | .submit _ => isTrue trivial
  | .finish _ => isTrue trivial

/-- The run resource is free or held by one call. -/
structure Exclusive (p : Phase) (s : Master) : Prop where
  count : s.xMasterRunRes + s.holders.length = 1
  /-- A call that prepares its request holds the run resource. -/
  own : ∀ i, (s.calls i).Preparing → i ∈ s.holders
  /-- While the master is busy the holder has posted its request. -/
  busy : p ≠ .pend [] → ∃ i ∈ s.holders, (s.calls i).Posted

/-- The master is in a phase, and the run resource agrees with it. -/
def Orderly (s : Master) : Prop := ∃ p : Phase, p.Valid ∧ Control p s ∧ Exclusive p s

theorem CallState.not_posted {c : CallState} (h : c.Preparing) : ¬ c.Posted := by
  cases c with
  | taken q => exact id
  | filled q => exact id
  | _ => exact h.elim

section

variable {s s' : Master} {p p' : Phase} {i : Nat} {c : CallState}

/-! ## What the steps do to the run resource -/

theorem Exclusive.holders_le (h : Exclusive p s) : s.holders.length ≤ 1 :=
  Nat.le_of_add_left_le h.count.le

/-- There is one holder at most. -/
theorem Exclusive.unique (h : Exclusive p s) {i j : Nat} (hi : i ∈ s.holders)
    (hj : j ∈ s.holders) : i = j := by
  have hle := h.holders_le
  cases hh : s.holders with
  | nil =>
    rw [hh] at hi
    cases hi
  | cons k ks =>
    rw [hh] at hi hj hle
    cases ks with
    | nil => rw [List.mem_singleton.mp hi, List.mem_singleton.mp hj]
    | cons k' ks =>
      rw [List.length_cons, List.length_cons] at hle
      omega

/-- While a call prepares its request the master is quiet. -/
theorem Exclusive.quiet (h : Exclusive p s) (hc : (s.calls i).Preparing) : p = .pend [] := by
  refine Classical.byContradiction fun hne => ?_
  obtain ⟨j, hj, hp⟩ := h.busy hne
  rw [h.unique hj (h.own i hc)] at hp
  exact CallState.not_posted hc hp

/-- A step that leaves the run resource and the calls alone. -/
theorem Exclusive.keeps (h : Exclusive p s) (hk : Keeps s s')
    (hb : p' ≠ .pend [] → ∃ i ∈ s.holders, (s.calls i).Posted) : Exclusive p' s' := by
  refine ⟨?_, ?_, ?_⟩
  · rw [hk.res, hk.holders]
    exact h.count
  · rw [hk.holders, hk.calls]
    exact h.own
  · rw [hk.holders, hk.calls]
    exact hb

/-- A completion in a busy phase sets the run resource free. -/
theorem Exclusive.completes (h : Exclusive p s) (hp : p ≠ .pend []) (hk : Completes s s') :
    Exclusive (.pend []) s' := by
  obtain ⟨i, hi, hpost⟩ := h.busy hp
  have hlen : s.holders.length = 1 :=
    Nat.le_antisymm h.holders_le (List.length_pos_of_mem hi)
  refine ⟨?_, ?_, fun hne => absurd rfl hne⟩
  · rw [hk.res, hk.holders, List.length_drop]
    have hcount := h.count
    omega
  · intro j hj
    rw [hk.calls] at hj
    rw [h.unique (h.own j hj) hi] at hj
    exact absurd hpost (CallState.not_posted hj)

/-- A call that holds the run resource, or has returned, moves on. -/
theorem Exclusive.setCall (h : Exclusive p s) (hpost : (s.calls i).Posted → c.Posted)
    (hown : c.Preparing → i ∈ s.holders) : Exclusive p (s.setCall i c) := by
  refine ⟨h.count, ?_, ?_⟩
  · intro j hj
    by_cases hji : j = i
    · rw [hji] at hj ⊢
      rw [setCall_same] at hj
      exact hown hj
    · rw [setCall_other s c hji] at hj
      exact h.own j hj
  · intro hne
    obtain ⟨j, hj, hp⟩ := h.busy hne
    refine ⟨j, hj, ?_⟩
    by_cases hji : j = i
    · rw [hji] at hp ⊢
      rw [setCall_same]
      exact hpost hp
    · rw [setCall_other s c hji]
      exact hp

/-! ## The steps of interrupts, timer and polls -/

theorem Orderly.byte (h : Orderly s) {ucByte : UChar} (hok : s.InTurn (.byte ucByte))
    (hst : s.step (.byte ucByte) = some s') : Orderly s' := by
  obtain ⟨p, hv, hc, he⟩ := h
  obtain ⟨hrx, rfl⟩ := byte_cases hst
  have hkeeps := (portStep_receiveFSM s ucByte).keeps
  have hall : s.eRcvState = .idle → ∀ e ∈ p.events, e = .frameSent := fun hr e he =>
    (hok hr).2 e (by cases e <;> decide) ((hc.events e).mpr he)
  refine ⟨.rcv p.events, ?_, hc.byte hrx ucByte, ?_⟩
  · cases p with
    | pend es =>
      have hfs : ∀ e ∈ es, e = MBMasterEventType.frameSent := hall hc.receiver
      rcases hv with rfl | ⟨e, rfl⟩ | ⟨e, hne, rfl⟩
      · exact Or.inl rfl
      · rw [hfs e (List.mem_singleton_self e)]
        exact Or.inr rfl
      · exact absurd (hfs e (by simp)) hne
    | rcv es => exact hv
    | send => exact Or.inl rfl
    | wait => exact Or.inl rfl
  · refine he.keeps hkeeps fun _ => ?_
    by_cases hp : p = .pend []
    · rw [hp] at hc
      exact (hok hc.receiver).1
    · exact he.busy hp

theorem Orderly.timer (h : Orderly s) (hst : s.step .timer = some s') : Orderly s' := by
  obtain ⟨p, hv, hc, he⟩ := h
  obtain ⟨ht, rfl⟩ := timer_cases hst
  obtain ⟨e, hne, hc', hk⟩ := hc.expire ht
  have hp : p ≠ .pend [] := by
    rintro rfl
    exact absurd (ht.symm.trans hc.timer) (by decide)
  refine ⟨.pend (p.events ++ [e]), ?_, hc', he.keeps hk fun _ => he.busy hp⟩
  cases p with
  | pend es => exact absurd (ht.symm.trans hc.timer) (by simp [Phase.timer])
  | rcv es =>
    rcases hv with rfl | rfl
    · exact Phase.valid_one e
    · exact Or.inr (Or.inr ⟨e, hne, rfl⟩)
  | send => exact Phase.valid_one e
  | wait => exact Phase.valid_one e

theorem Orderly.txReady (h : Orderly s) (hst : s.step .txReady = some s') : Orderly s' := by
  obtain ⟨p, hv, hc, he⟩ := h
  obtain ⟨htx, rfl⟩ := txReady_cases hst
  have hsend : p = .send := by
    have hrx := hc.tx.symm.trans htx
    cases p with
    | send => rfl
    | _ => cases hrx
  rw [hsend] at hc he
  obtain ⟨hc' | hc', hk⟩ := hc.transmit
  · exact ⟨.send, trivial, hc', he.keeps hk fun _ => he.busy nofun⟩
  · exact ⟨.wait, trivial, hc', he.keeps hk fun _ => he.busy nofun⟩

theorem Orderly.poll (h : Orderly s) {junk : Option MBMasterEventType}
    (hst : s.step (.poll junk) = some s') : Orderly s' := by
  obtain ⟨p, hv, hc, he⟩ := h
  obtain ⟨hne, hpolls⟩ := hc.poll hv hst
  have hp : p ≠ .pend [] := by
    rintro rfl
    exact hne rfl
  rcases hpolls with ⟨p', hv', hc', hk⟩ | ⟨hc', hk⟩
  · exact ⟨p', hv', hc', he.keeps hk fun _ => he.busy hp⟩
  · exact ⟨.pend [], Or.inl rfl, hc', he.completes hp hk⟩

/-! ## The steps of a call -/

theorem Control.setCall (h : Control p s) (i : Nat) (c : CallState) : Control p (s.setCall i c) :=
  ⟨h.state, h.events, h.receiver, h.snd, h.rx, h.tx, h.timer⟩

theorem Exclusive.refuse (h : Exclusive p s) (hc : Control p s) {q : MasterRequest}
    (hst : s.refuse i q = some s') : Control p s' ∧ Exclusive p s' := by
  obtain ⟨eErrStatus, -, rfl, -⟩ := refuse_cases hst
  exact ⟨hc.setCall _ _, h.setCall (fun _ => trivial) (fun hno => hno.elim)⟩

/-- A call takes the run resource while the master is quiet. -/
theorem Exclusive.take (h : Exclusive p s) (hc : Control p s) {q : MasterRequest}
    (hst : s.take i q = some s') : p = .pend [] ∧ Control p s' ∧ Exclusive p s' := by
  obtain ⟨hidle, -, hpos, rfl⟩ := take_cases hst
  have hcount := h.count
  have hnil : s.holders = [] := List.eq_nil_of_length_eq_zero (by omega)
  have hp : p = .pend [] := by
    refine Classical.byContradiction fun hne => ?_
    obtain ⟨j, hj, -⟩ := h.busy hne
    rw [hnil] at hj
    cases hj
  refine ⟨hp, ⟨hc.state, hc.events, hc.receiver, hc.snd, hc.rx, hc.tx, hc.timer⟩, ?_, ?_,
    fun hne => absurd hp hne⟩
  · show s.xMasterRunRes - 1 + (s.holders ++ [i]).length = 1
    rw [hnil] at hcount ⊢
    simp only [List.length_nil, List.nil_append, List.length_singleton] at hcount ⊢
    omega
  · intro j hj
    show j ∈ s.holders ++ [i]
    by_cases hji : j = i
    · rw [hji]
      exact List.mem_append_right _ (List.mem_singleton_self i)
    · have hj' : (s.calls j).Preparing := setCall_other s (.taken q) hji ▸ hj
      exact List.mem_append_left _ (h.own j hj')

theorem Exclusive.fill (h : Exclusive p s) (hc : Control p s) (hst : s.fill i = some s') :
    Control p s' ∧ Exclusive p s' := by
  obtain ⟨q, hcall, rfl⟩ := fill_cases hst
  have hi : i ∈ s.holders := h.own i (hcall ▸ trivial)
  have hf : Exclusive p (s.fillSndBuf q) := ⟨h.count, h.own, h.busy⟩
  refine ⟨⟨hc.state, hc.events, hc.receiver, hc.snd, hc.rx, hc.tx, hc.timer⟩,
    hf.setCall (fun hno => ?_) (fun _ => hi)⟩
  have hno : (s.calls i).Posted := hno
  rw [hcall] at hno
  exact hno

/-- A call posts its request while the master is quiet. -/
theorem Exclusive.submit (h : Exclusive p s) (hc : Control p s) (hst : s.submit i = some s') :
    p = .pend [] ∧ Control (.pend [.frameSent]) s' ∧ Exclusive (.pend [.frameSent]) s' := by
  obtain ⟨q, hcall, rfl⟩ := submit_cases hst
  have hprep : (s.calls i).Preparing := hcall ▸ trivial
  have hp : p = .pend [] := h.quiet hprep
  rw [hp] at hc h
  have hc' : Control (.pend [.frameSent]) (s.post .frameSent) := hc.post .frameSent
  have h' := h.setCall (i := i) (c := .waiting q) (fun _ => trivial) (fun hno => hno.elim)
  refine ⟨hp, ⟨hc'.state, hc'.events, hc'.receiver, hc'.snd, hc'.rx, hc'.tx, hc'.timer⟩,
    h'.count, h'.own, fun _ => ⟨i, h.own i hprep, ?_⟩⟩
  show CallState.Posted ((s.setCall i (.waiting q)).calls i)
  rw [setCall_same]
  trivial

theorem Exclusive.finish (h : Exclusive p s) (hc : Control p s) (hst : s.finish i = some s') :
    Control p s' ∧ Exclusive p s' := by
  obtain ⟨q, eErrStatus, flags, hcall, -, hwait, rfl⟩ := finish_cases hst
  have hf : Exclusive p ({ s with xMasterOsEvent := flags }.record (.returned i eErrStatus)) :=
    ⟨h.count, h.own, h.busy⟩
  have hflags : flags = (resultChannel.get s.xMasterOsEvent).2 :=
    (congrArg Prod.snd hwait).symm.trans (eMBMasterWaitRequestFinish_flags _)
  refine ⟨⟨hc.state, ?_, hc.receiver, hc.snd, hc.rx, hc.tx, hc.timer⟩,
    hf.setCall (fun _ => trivial) (fun hno => hno.elim)⟩
  intro e
  show masterChannel.Pending flags e ↔ e ∈ p.events
  rw [hflags, masterChannel_apart.pending_get, hc.events]

/-! ## Every step in turn -/

/-- Every step in turn keeps the order. -/
theorem Orderly.step (h : Orderly s) {a : MasterAction} (hok : s.InTurn a)
    (hst : s.step a = some s') : Orderly s' := by
  cases a with
  | byte ucByte => exact h.byte hok hst
  | timer => exact h.timer hst
  | txReady => exact h.txReady hst
  | poll junk => exact h.poll hst
  | refuse i q =>
    obtain ⟨p, hv, hc, he⟩ := h
    exact ⟨p, hv, he.refuse hc hst⟩
  | take i q =>
    obtain ⟨p, hv, hc, he⟩ := h
    obtain ⟨-, hc', he'⟩ := he.take hc hst
    exact ⟨p, hv, hc', he'⟩
  | fill i =>
    obtain ⟨p, hv, hc, he⟩ := h
    exact ⟨p, hv, he.fill hc hst⟩
  | submit i =>
    obtain ⟨p, hv, hc, he⟩ := h
    obtain ⟨-, hc', he'⟩ := he.submit hc hst
    exact ⟨_, Phase.valid_one _, hc', he'⟩
  | finish i =>
    obtain ⟨p, hv, hc, he⟩ := h
    exact ⟨p, hv, he.finish hc hst⟩

/-- A master that has just been established is quiet. -/
theorem control_established (app : MasterApp) : Control (.pend []) (established app) := by
  have hnone : ∀ e, ¬ masterChannel.Pending 0 e := by
    intro e
    cases e <;> decide
  exact ⟨rfl, fun e => iff_of_false (hnone e) List.not_mem_nil, rfl, rfl, rfl, rfl, rfl⟩

theorem exclusive_established (app : MasterApp) : Exclusive (.pend []) (established app) :=
  ⟨rfl, fun _ hi => hi.elim, fun hne => absurd rfl hne⟩

end

/-! ## Whole runs -/

/-- A run whose frames all begin in turn keeps the order. -/
theorem orderly_of_inTurn {s : Master} (h : ReachableBy Established step InTurn s) : Orderly s := by
  refine h.invariant ?_ ?_
  · intro s hs
    obtain ⟨app, rfl⟩ := hs.eq
    exact ⟨.pend [], Or.inl rfl, control_established app, exclusive_established app⟩
  · intro s a s' ho hok hst
    exact ho.step hok hst

/-- In every run whose frames all begin in turn, the run resource is free or held by one call. -/
theorem runRes_exclusive {s : Master} (h : ReachableBy Established step InTurn s) :
    s.xMasterRunRes + s.holders.length = 1 := by
  obtain ⟨p, -, -, he⟩ := orderly_of_inTurn h
  exact he.count

/-! ## The condition is needed -/

/-- The run resource and the number of holders after some actions. -/
def resAfter (as : List MasterAction) : Option (Nat × Nat) :=
  (run step (established .initial) as).map fun s => (s.xMasterRunRes, s.holders.length)

/-- A byte of noise on the idle bus: the run resource is released though nobody holds it, and
then two calls take it. -/
theorem runRes_not_exclusive :
    ¬ ∀ s, Reachable Established step s → s.xMasterRunRes + s.holders.length = 1 := by
  intro h
  have hrun : resAfter [.byte 0, .timer, .poll none, .poll none, .take 0 writeOne,
      .take 1 writeOne] = some (0, 2) := by decide +kernel
  obtain ⟨s, hs, heq⟩ := Option.map_eq_some_iff.mp hrun
  obtain ⟨hres, hlen⟩ := Prod.mk.inj heq
  have hone := h s (Reachable.of_run (.start (established_established _)) hs)
  rw [hres, hlen] at hone
  cases hone

/-- A write that is answered sets the run resource free again. -/
theorem runRes_exclusive_write :
    ∃ s, ReachableBy Established step InTurn s ∧ s.xMasterRunRes + s.holders.length = 1 ∧
      s.xMasterRunRes = 1 := by
  have hall : AllSteps step InTurn (established .initial) (sendOne ++ answerOne) := by
    decide +kernel
  have hrun : resAfter (sendOne ++ answerOne) = some (1, 0) := by decide +kernel
  obtain ⟨s, hs, heq⟩ := Option.map_eq_some_iff.mp hrun
  have hreach : ReachableBy Established step InTurn s :=
    ReachableBy.of_run (.start (established_established _)) hall hs
  exact ⟨s, hreach, runRes_exclusive hreach, (Prod.mk.inj heq).1⟩

end Master

end FreeModbus
