import FreeModbus.Master.Line
import FreeModbus.Master.Outcome

/-!
# No request is stranded

A call that has posted its request waits for a result without a timeout, so
something has to be under way that ends in one: an event, a frame on the line, a
timer, or the result itself.  Each of the two, what is under way and the results
that are pending, ends one wait: a get that finds two events handles none of them,
and a wait takes all results at once.  So there must be no more calls that wait
than there are of these two (`Live`), which holds as long as the steps `KeepUp`.
-/

namespace FreeModbus

open EventFlags EventFlags.Channel Transition

namespace Master

/-! ## What a call waits for -/

/-- Something is left that leads on. -/
def Progress (s : Master) : Prop :=
  masterChannel.Returns s.xMasterOsEvent ∨ resultChannel.Returns s.xMasterOsEvent ∨
    (s.eSndState = .xmit ∧ s.xTxEnable = true) ∨ s.xTimer = true

instance (s : Master) : Decidable s.Progress := by
  unfold Progress
  infer_instance

/-- A result is pending. -/
def Answered (s : Master) : Prop := resultChannel.Returns s.xMasterOsEvent

instance (s : Master) : Decidable s.Answered := by
  unfold Answered
  infer_instance

/-- The calls that wait for a result. -/
def waiters (s : Master) : List Nat :=
  (s.log.filterMap MasterEvent.poster).filter fun i => (s.calls i).Waits

/-- A request is issued only after `eMBMasterIsEstablished` has returned `TRUE`. -/
def Issued (s : Master) : MasterAction → Prop
  | .take _ _ => s.eMBState = .established
  | _ => True

/-- The poll ends a transaction. -/
def Completing (s : Master) (junk : Option MBMasterEventType) : Prop :=
  s.polled junk = some .execute ∨ s.polled junk = some .errorProcess

/-- While a call waits a poll finds one event at most.  A poll does not put a request on the line
while the timer of an earlier one runs, and does not end a transaction while two calls wait for the
result that is already pending.  A call posts its request when no other one waits for more than the
result that is pending. -/
def KeepsUp (s : Master) : MasterAction → Prop
  | .poll junk => (s.waiters ≠ [] → masterChannel.AtMostOne s.xMasterOsEvent) ∧
      s.Unhurried junk ∧ (s.Completing junk → s.Answered → s.waiters.length ≤ 1)
  | .submit _ => s.waiters.length ≤ (decide s.Answered).toNat
  | _ => True

/-! ## The invariant -/

/-- A frame is on the line or awaited. -/
def Line.busy : Line → Bool
  | .receiving => true
  | .sending => true
  | .waiting => true
  | _ => false

/-- Something is under way. -/
def underWay (l : Line) (s : Master) : Bool :=
  l.busy || decide (masterChannel.Returns s.xMasterOsEvent)

/-- How many waits can be ended. -/
def endable (l : Line) (s : Master) : Nat := (underWay l s).toNat + (decide s.Answered).toNat

/-- The calls that wait are in the log, and no others are once they have posted. -/
structure Logged (s : Master) : Prop where
  waits : ∀ i, (s.calls i).Waits → .posted i ∈ s.log
  posted : ∀ i, .posted i ∈ s.log → (s.calls i).Posted

/-- Requests are issued only when the stack is established. -/
structure Early (l : Line) (s : Master) : Prop where
  starting : l = .starting → s.eMBState = .enabled ∧ ¬ masterChannel.Returns s.xMasterOsEvent
  ready : masterChannel.Pending s.xMasterOsEvent .ready → s.eMBState = .enabled
  calls : ∀ i, (s.calls i).Preparing ∨ (s.calls i).Waits → s.eMBState = .established

/-- Every wait can be ended. -/
structure Live (l : Line) (s : Master) : Prop where
  line : OnLine s l
  addressed : Addressed s
  logged : Logged s
  early : Early l s
  enough : s.waiters.length ≤ endable l s

variable {s s' : Master} {l l' : Line} {i : Nat} {junk : Option MBMasterEventType}

/-! ## Waiters -/

theorem mem_posters {log : List MasterEvent} :
    i ∈ log.filterMap MasterEvent.poster ↔ .posted i ∈ log := by
  rw [List.mem_filterMap]
  refine ⟨?_, fun h => ⟨_, h, rfl⟩⟩
  rintro ⟨e, he, hpost⟩
  cases e with
  | posted j =>
    cases hpost
    exact he
  | _ => cases hpost

theorem mem_waiters : i ∈ s.waiters ↔ .posted i ∈ s.log ∧ (s.calls i).Waits := by
  unfold waiters
  rw [List.mem_filter, mem_posters, decide_eq_true_eq]

/-- The calls are left alone, and nothing is posted by a call. -/
structure SameCalls (s s' : Master) : Prop where
  calls : s'.calls = s.calls
  log : ∃ es, s'.log = es ++ s.log ∧ ∀ e ∈ es, e.poster = none

theorem SameCalls.of_eq (hc : s'.calls = s.calls) (hl : s'.log = s.log) : SameCalls s s' :=
  ⟨hc, [], hl, fun _ he => absurd he List.not_mem_nil⟩

/-- One event is recorded that is not a post of a call. -/
theorem SameCalls.of_cons {e : MasterEvent} (he : e.poster = none) (hc : s'.calls = s.calls)
    (hl : s'.log = e :: s.log) : SameCalls s s' := by
  refine ⟨hc, [e], hl, fun e' he' => ?_⟩
  rw [List.mem_singleton.mp he']
  exact he

theorem SameCalls.trans {s₁ s₂ s₃ : Master} (h : SameCalls s₁ s₂) (h' : SameCalls s₂ s₃) :
    SameCalls s₁ s₃ := by
  obtain ⟨es, hlog, hes⟩ := h.log
  obtain ⟨es', hlog', hes'⟩ := h'.log
  refine ⟨h'.calls.trans h.calls, es' ++ es, ?_, fun e he => ?_⟩
  · rw [hlog', hlog, List.append_assoc]
  · exact (List.mem_append.mp he).elim (hes' e) (hes e)

theorem SameCalls.waiters (h : SameCalls s s') : s'.waiters = s.waiters := by
  obtain ⟨es, hlog, hes⟩ := h.log
  have hnil : es.filterMap MasterEvent.poster = [] := List.filterMap_eq_nil_iff.mpr hes
  unfold Master.waiters
  rw [hlog, h.calls, List.filterMap_append, hnil, List.nil_append]

theorem SameCalls.logged (h : SameCalls s s') (hl : Logged s) : Logged s' := by
  obtain ⟨es, hlog, hes⟩ := h.log
  refine ⟨fun i hi => ?_, fun i hi => ?_⟩
  · rw [h.calls] at hi
    rw [hlog]
    exact List.mem_append_right es (hl.waits i hi)
  · rw [hlog] at hi
    rw [h.calls]
    refine hl.posted i ((List.mem_append.mp hi).resolve_left fun hmem => ?_)
    cases hes _ hmem

theorem SameCalls.early (h : SameCalls s s')
    (hst : s'.eMBState = s.eMBState ∨ s'.eMBState = .established)
    (he : ∀ i, (s.calls i).Preparing ∨ (s.calls i).Waits → s.eMBState = .established) (i : Nat)
    (hi : (s'.calls i).Preparing ∨ (s'.calls i).Waits) : s'.eMBState = .established := by
  rw [h.calls] at hi
  rcases hst with hst | hst
  · exact hst.trans (he i hi)
  · exact hst

/-! ## What handling an event does to the flags -/

/-- An event is posted, or a result, or the flags are left alone. -/
inductive Effect (s s' : Master) : Option MBMasterEventType → Prop where
  | event {ev : Option MBMasterEventType} {e : MBMasterEventType} : e ≠ .ready →
      s'.xMasterOsEvent = masterChannel.post s.xMasterOsEvent e → Effect s s' ev
  | result {ev : Option MBMasterEventType} {r : MBMasterResult} :
      ev = some .execute ∨ ev = some .errorProcess →
      s'.xMasterOsEvent = resultChannel.post s.xMasterOsEvent r → Effect s s' ev
  | silent {ev : Option MBMasterEventType} : ev = none ∨ ev = some .ready ∨ ev = some .frameSent →
      s'.xMasterOsEvent = s.xMasterOsEvent → Effect s s' ev

theorem executeFrame_sameCalls (s : Master) : SameCalls s s.executeFrame := by
  obtain ⟨n, hn⟩ := executeFrame_log s
  refine ⟨(executeFrame_executes s).keeps.calls, _, hn, fun e he => ?_⟩
  rw [List.eq_of_mem_replicate he]
  rfl

theorem executeFrame_flags (s : Master) : s.executeFrame.xMasterOsEvent = s.xMasterOsEvent := by
  obtain ⟨_, _, _, _, _, _, _, _, heq⟩ := executeFrame_executes s
  rw [heq]

theorem handle_effect {ev : Option MBMasterEventType} (hs : s.handle ev = some s') :
    SameCalls s s' ∧ (s'.eMBState = s.eMBState ∨ s'.eMBState = .established) ∧
      Effect s s' ev := by
  have hcalls := executeFrame_sameCalls s
  have hflags := executeFrame_flags s
  have hstate := (executeFrame_executes s).sameLine.state
  cases handled_of_handle hs with
  | nothing => exact ⟨.of_eq rfl rfl, Or.inl rfl, .silent (Or.inl rfl) rfl⟩
  | ready => exact ⟨.of_eq rfl rfl, Or.inr rfl, .silent (Or.inr (Or.inl rfl)) rfl⟩
  | accepted =>
    exact ⟨.of_cons (e := .received _) rfl rfl rfl, Or.inl rfl,
      .event (e := .execute) nofun rfl⟩
  | rejected =>
    exact ⟨.of_cons (e := .error _) rfl rfl rfl, Or.inl rfl,
      .event (e := .errorProcess) nofun rfl⟩
  | failed =>
    refine ⟨hcalls.trans (.of_cons (e := .error .executeFunction) rfl rfl rfl), hstate,
      .event (e := .errorProcess) nofun ?_⟩
    rw [← hflags]
    rfl
  | executed =>
    refine ⟨hcalls.trans (.of_cons (e := .completed .processSucess) rfl rfl rfl), hstate,
      .result (r := .processSucess) (Or.inl rfl) ?_⟩
    rw [← hflags]
    rfl
  | activated => exact ⟨.of_eq rfl rfl, Or.inl rfl, .silent (Or.inr (Or.inr rfl)) rfl⟩
  | unsent => exact ⟨.of_eq rfl rfl, Or.inl rfl, .silent (Or.inr (Or.inr rfl)) rfl⟩
  | error => exact ⟨.of_cons (e := .completed _) rfl rfl rfl, Or.inl rfl, .result (Or.inr rfl) rfl⟩

/-! ## The steps -/

theorem returns_post (s : Master) (e : MBMasterEventType)
    (hf : s'.xMasterOsEvent = masterChannel.post s.xMasterOsEvent e) :
    masterChannel.Returns s'.xMasterOsEvent :=
  ⟨e, hf ▸ (masterChannel.pending_post ..).mpr (Or.inr rfl)⟩

theorem answered_event {e : MBMasterEventType}
    (hf : s'.xMasterOsEvent = masterChannel.post s.xMasterOsEvent e) :
    s'.Answered ↔ s.Answered := by
  unfold Answered Returns
  rw [hf]
  simp only [masterChannel_apart.symm.pending_post]

theorem answered_drained (s : Master) : s.drained.Answered ↔ s.Answered := by
  unfold Answered Returns
  simp only [drained, xMBMasterPortEventGet, masterChannel_apart.symm.pending_get]

theorem toNat_mono {b b' : Bool} (h : b = true → b' = true) : b.toNat ≤ b'.toNat := by
  cases b with
  | false => exact Nat.zero_le _
  | true =>
    rw [h rfl]

theorem endable_mono (hu : underWay l s = true → underWay l' s' = true)
    (ha : s.Answered → s'.Answered) : endable l s ≤ endable l' s' :=
  Nat.add_le_add (toNat_mono hu)
    (toNat_mono fun h => decide_eq_true (ha (of_decide_eq_true h)))

/-- The interrupts and the timer leave the calls and the state of the stack alone. -/
structure Interrupt (s s' : Master) : Prop where
  same : SameCalls s s'
  state : s'.eMBState = s.eMBState
  dest : s'.ucMBMasterDestAddress = s.ucMBMasterDestAddress

theorem PortStep.interrupt (h : PortStep s s') : Interrupt s s' := by
  obtain ⟨es, hlog, hes⟩ := h.log
  refine ⟨⟨h.keeps.calls, es, hlog, fun e he => ?_⟩, h.state, h.dest⟩
  have hinner := hes e he
  cases e with
  | posted i => exact hinner.elim
  | _ => rfl

/-- A byte posts nothing. -/
theorem receiveFSM_flags (s : Master) (ucByte : UChar) :
    (s.xMBMasterRTUReceiveFSM ucByte).xMasterOsEvent = s.xMasterOsEvent := by
  obtain ⟨_, _, _, _, heq⟩ := receiveFSM_eq s ucByte
  rw [heq]

/-- Nor does a turn of the transmitter. -/
theorem transmitFSM_flags (s : Master) :
    s.xMBMasterRTUTransmitFSM.xMasterOsEvent = s.xMasterOsEvent := by
  cases hs : s.eSndState with
  | xmit =>
    by_cases hc : s.usMasterSndBufferCount = 0
    · rw [xMBMasterRTUTransmitFSM_done hs hc]
      rfl
    · rw [xMBMasterRTUTransmitFSM_byte hs hc]
  | idle =>
    rw [xMBMasterRTUTransmitFSM, hs]
    rfl
  | xfwr => rw [xMBMasterRTUTransmitFSM, hs]

/-- An interrupt that leaves as much under way, and posts `EV_MASTER_READY` only in the start
sequence. -/
theorem Live.interrupt (h : Live l s) (hi : Interrupt s s') (hl : OnLine s' l')
    (hstart : l' = .starting → l = .starting ∧ s'.xMasterOsEvent = s.xMasterOsEvent)
    (hready : masterChannel.Pending s'.xMasterOsEvent .ready →
      masterChannel.Pending s.xMasterOsEvent .ready ∨ l = .starting)
    (hu : underWay l s = true → underWay l' s' = true) (ha : s.Answered → s'.Answered) :
    Live l' s' where
  line := hl
  addressed := h.addressed.same hi.dest hi.same.calls
  logged := hi.same.logged h.logged
  early := by
    refine ⟨fun hst => ?_, fun hp => ?_, hi.same.early (Or.inl hi.state) h.early.calls⟩
    · obtain ⟨hl, hf⟩ := hstart hst
      rw [hi.state, hf]
      exact h.early.starting hl
    · rw [hi.state]
      exact (hready hp).elim h.early.ready fun hst => (h.early.starting hst).1
  enough := by
    rw [hi.same.waiters]
    exact h.enough.trans (endable_mono hu ha)

theorem Live.byte (h : Live l s) (hrx : s.xRxEnable = true) (ucByte : UChar) :
    ∃ l', Live l' (s.xMBMasterRTUReceiveFSM ucByte) := by
  have hi := (portStep_receiveFSM s ucByte).interrupt
  have hf := receiveFSM_flags s ucByte
  have ha : s.Answered → (s.xMBMasterRTUReceiveFSM ucByte).Answered := by
    unfold Answered
    rw [hf]
    exact id
  rcases h.line.byte hrx ucByte with hl | ⟨rfl, hl⟩
  · refine ⟨_, h.interrupt hi hl nofun (fun hp => Or.inl (hf ▸ hp)) (fun _ => rfl) ha⟩
  · refine ⟨_, h.interrupt hi hl (fun _ => ⟨rfl, hf⟩) (fun hp => Or.inl (hf ▸ hp)) ?_ ha⟩
    unfold underWay
    rw [hf]
    exact id

theorem Live.txReady (h : Live l s) (htx : s.xTxEnable = true) :
    ∃ l', Live l' s.xMBMasterRTUTransmitFSM := by
  have hi := (portStep_transmitFSM s).interrupt
  have hf := transmitFSM_flags s
  have ha : s.Answered → s.xMBMasterRTUTransmitFSM.Answered := by
    unfold Answered
    rw [hf]
    exact id
  rcases h.line.transmit htx with hl | hl
  · exact ⟨_, h.interrupt hi hl nofun (fun hp => Or.inl (hf ▸ hp)) (fun _ => rfl) ha⟩
  · exact ⟨_, h.interrupt hi hl nofun (fun hp => Or.inl (hf ▸ hp)) (fun _ => rfl) ha⟩

theorem Live.timer (h : Live l s) (ht : s.xTimer = true) :
    ∃ l', Live l' s.xMBMasterRTUTimerExpired := by
  obtain ⟨e, he, hready⟩ := h.line.expiryPosts ht
  have hf : s.xMBMasterRTUTimerExpired.xMasterOsEvent = masterChannel.post s.xMasterOsEvent e := by
    rw [timerExpired_posts, he]
    rfl
  refine ⟨_, h.interrupt (portStep_timerExpired s).interrupt (h.line.timer ht) nofun (fun hp => ?_)
    (fun _ => ?_) (answered_event hf).mpr⟩
  · rw [hf] at hp
    exact ((masterChannel.pending_post ..).mp hp).imp id fun heq => hready heq.symm
  · exact Bool.or_eq_true_iff.mpr (Or.inr (decide_eq_true (returns_post s e hf)))

/-! ## Polls -/

/-- What a get finds while a call waits. -/
theorem polled_of_atMostOne (hret : masterChannel.Returns s.xMasterOsEvent)
    (hone : masterChannel.AtMostOne s.xMasterOsEvent) (junk : Option MBMasterEventType) :
    ∃ e, s.polled junk = some e ∧ masterChannel.Pending s.xMasterOsEvent e := by
  obtain ⟨e, he⟩ := hret
  refine ⟨e, polled_of_only (fun e' => ⟨fun h' => hone e' e h' he, fun h' => h' ▸ he⟩) junk, he⟩

/-- A poll ends as many waits as it takes away from what is under way. -/
theorem Live.handled (h : Live l s) (hret : masterChannel.Returns s.xMasterOsEvent)
    (hok : s.KeepsUp (.poll junk)) (heff : Effect s.drained s' (s.polled junk))
    (hsend : s.polled junk = some .frameSent → l'.busy = true) :
    s.waiters.length ≤ endable l' s' := by
  have hu : underWay l s = true := Bool.or_eq_true_iff.mpr (Or.inr (decide_eq_true hret))
  have hle : s.waiters.length ≤ 1 + (decide s.Answered).toNat := by
    have henough := h.enough
    unfold endable at henough
    rw [hu] at henough
    exact henough
  cases heff with
  | event _ hf =>
    have hu' : underWay l' s' = true :=
      Bool.or_eq_true_iff.mpr (Or.inr (decide_eq_true (returns_post s.drained _ hf)))
    have ha : s'.Answered ↔ s.Answered := (answered_event hf).trans (answered_drained s)
    unfold endable
    rw [hu', decide_eq_decide.mpr ha]
    exact hle
  | result hev hf =>
    have ha' : s'.Answered := ⟨_, hf ▸ (resultChannel.pending_post ..).mpr (Or.inr rfl)⟩
    have hone : s.waiters.length ≤ 1 := by
      by_cases ha : s.Answered
      · exact hok.2.2 hev ha
      · rw [decide_eq_false ha] at hle
        exact hle
    unfold endable
    rw [decide_eq_true ha']
    exact hone.trans (Nat.le_add_left 1 _)
  | silent hev hf =>
    by_cases hnil : s.waiters = []
    · rw [hnil]
      exact Nat.zero_le _
    · obtain ⟨e, hpoll, hpend⟩ := polled_of_atMostOne hret (hok.1 hnil) junk
      have hest : s.eMBState = .established := by
        obtain ⟨i, hi⟩ := List.exists_mem_of_ne_nil _ hnil
        exact h.early.calls i (Or.inr (mem_waiters.mp hi).2)
      rw [hpoll] at hev hsend
      have he : e = .frameSent := by
        rcases hev with hev | hev | hev
        · cases hev
        · cases hev
          cases hest.symm.trans (h.early.ready hpend)
        · exact Option.some.inj hev
      have hu' : underWay l' s' = true :=
        Bool.or_eq_true_iff.mpr (Or.inl (hsend (congrArg some he)))
      have ha : s'.Answered ↔ s.Answered := by
        rw [← answered_drained s]
        unfold Answered
        rw [hf]
      unfold endable
      rw [hu', decide_eq_decide.mpr ha]
      exact hle

/-- Handling an event does not post `EV_MASTER_READY`. -/
theorem Effect.not_ready {ev : Option MBMasterEventType} (h : Effect s.drained s' ev) :
    ¬ masterChannel.Pending s'.xMasterOsEvent .ready := by
  have hnone : ¬ masterChannel.Pending s.drained.xMasterOsEvent .ready :=
    masterChannel.not_pending_get _ _
  cases h with
  | event hne hf =>
    rw [hf, masterChannel.pending_post]
    exact not_or.mpr ⟨hnone, hne.symm⟩
  | result _ hf =>
    rw [hf, masterChannel_apart.pending_post]
    exact hnone
  | silent _ hf =>
    rw [hf]
    exact hnone

/-- A line on which a request is not sent at once is busy. -/
theorem OnLine.busy (h : OnLine s l) (hon : On s) (hst : l ≠ .starting)
    (hr : s.eRcvState ≠ .idle) : l.busy = true := by
  cases h with
  | off hoff =>
    rcases hon with hst | hst
    · cases hoff.symm.trans hst
    · cases hoff.symm.trans hst
  | starting => exact absurd rfl hst
  | quiet _ _ hidle => exact absurd hidle hr
  | _ => rfl

theorem Live.poll (h : Live l s) (hok : s.KeepsUp (.poll junk))
    (hs : s.eMBMasterPoll junk = some s') : ∃ l', Live l' s' := by
  have hline := h.line.poll h.addressed.dest hok.2.1 hs
  have haddr := h.addressed.poll hs
  rcases poll_cases hs with ⟨-, rfl⟩ | ⟨hon, hret, hs⟩
  · exact ⟨l, h⟩
  · have hst : l ≠ .starting := fun hst => (h.early.starting hst).2 hret
    obtain ⟨hsame, hstate, heff⟩ := handle_effect hs
    have hlive : ∀ l', OnLine s' l' → l' ≠ .starting →
        (s.polled junk = some .frameSent → l'.busy = true) → Live l' s' := by
      intro l' hl' hst' hbusy
      refine ⟨hl', haddr, hsame.logged ⟨h.logged.waits, h.logged.posted⟩,
        ⟨fun hst'' => absurd hst'' hst', fun hp => absurd hp heff.not_ready,
          hsame.early hstate h.early.calls⟩, ?_⟩
      rw [hsame.waiters]
      exact h.handled hret hok heff hbusy
    rcases hline with hl' | ⟨hl', hr⟩
    · exact ⟨.sending, hlive _ hl' nofun fun _ => rfl⟩
    · exact ⟨l, hlive _ hl' hst fun hev => h.line.busy hon hst (hr hon hev)⟩

/-! ## Calls -/

theorem setCall_calls (s : Master) (i j : Nat) (c : CallState) :
    (s.setCall i c).calls j = if j = i then c else s.calls j := by
  split
  · rename_i hji
    rw [hji, setCall_same]
  · rename_i hji
    exact setCall_other s c hji

/-- A call moves on that does not begin or end its wait. -/
theorem waiters_setCall {c : CallState} (hw : c.Waits ↔ (s.calls i).Waits) :
    (s.setCall i c).waiters = s.waiters := by
  refine List.filter_congr fun j _ => decide_eq_decide.mpr ?_
  rw [setCall_calls]
  split
  · rename_i hji
    rw [hji]
    exact hw
  · exact Iff.rfl

theorem Logged.setCall (h : Logged s) {c : CallState} (hw : ¬ c.Waits)
    (hp : (s.calls i).Posted → c.Posted) : Logged (s.setCall i c) := by
  refine ⟨fun j hj => ?_, fun j hj => ?_⟩
  · rw [setCall_calls] at hj
    split at hj
    · exact absurd hj hw
    · exact h.waits j hj
  · rw [setCall_calls]
    split
    · rename_i hji
      exact hp (h.posted i (hji ▸ hj))
    · exact h.posted j hj

theorem early_setCall {c : CallState}
    (h : ∀ j, (s.calls j).Preparing ∨ (s.calls j).Waits → s.eMBState = .established)
    (hc : c.Preparing ∨ c.Waits → s.eMBState = .established) (j : Nat)
    (hj : ((s.setCall i c).calls j).Preparing ∨ ((s.setCall i c).calls j).Waits) :
    s.eMBState = .established := by
  rw [setCall_calls] at hj
  split at hj
  · exact hc hj
  · exact h j hj

/-- A call moves on that does not begin or end its wait. -/
theorem Live.prepare (h : Live l s) {a : MasterAction} {c d : CallState}
    (hst : s.step a = some s') (ha : a.IsCall) (hs : s'.calls = (s.setCall i d).calls)
    (hlog : s'.log = s.log) (hf : s'.xMasterOsEvent = s.xMasterOsEvent)
    (hstate : s'.eMBState = s.eMBState) (hcall : s.calls i = c) (hw : ¬ c.Waits) (hw' : ¬ d.Waits)
    (hp : c.Posted → d.Posted) (hd : d.Preparing → s.eMBState = .established) : Live l s' := by
  rw [← hcall] at hw hp
  have hsame : SameCalls (s.setCall i d) s' := .of_eq hs hlog
  have hends : endable l s ≤ endable l s' := by
    refine endable_mono ?_ ?_
    · unfold underWay
      rw [hf]
      exact id
    · unfold Answered
      rw [hf]
      exact id
  refine ⟨h.line.call hst ha, h.addressed.step hst, hsame.logged (h.logged.setCall hw' hp), ?_, ?_⟩
  · refine ⟨fun hl => ?_, fun hr => ?_, hsame.early (Or.inl hstate)
      (early_setCall h.early.calls fun hdw => hdw.elim hd fun hdw => absurd hdw hw')⟩
    · rw [hstate, hf]
      exact h.early.starting hl
    · rw [hf] at hr
      rw [hstate]
      exact h.early.ready hr
  · rw [hsame.waiters, waiters_setCall (iff_of_false hw' hw)]
    exact h.enough.trans hends

/-- A call that posts its request is one more that waits. -/
theorem waiters_submit {q : MasterRequest} (hnew : .posted i ∉ s.log) :
    ((s.record (.posted i)).setCall i (.waiting q)).waiters = i :: s.waiters := by
  have hself : decide (((s.record (.posted i)).setCall i (.waiting q)).calls i).Waits = true := by
    rw [setCall_same]
    rfl
  show (i :: s.log.filterMap MasterEvent.poster).filter (fun j =>
    decide (((s.record (.posted i)).setCall i (.waiting q)).calls j).Waits) = i :: s.waiters
  rw [List.filter_cons, if_pos hself]
  refine congrArg (List.cons i) (List.filter_congr fun j hj => ?_)
  have hji : j ≠ i := fun hji => hnew (hji ▸ mem_posters.mp hj)
  rw [setCall_other _ _ hji]
  rfl

/-- A call that returns is one less. -/
theorem waiters_finish {c : CallState} {e : MBMasterReqErrCode} (hw : ¬ c.Waits)
    (hi : i ∈ s.waiters) :
    ((s.record (.returned i e)).setCall i c).waiters.length < s.waiters.length := by
  have heq : ((s.record (.returned i e)).setCall i c).waiters = s.waiters.filter (· ≠ i) := by
    unfold waiters
    rw [List.filter_filter]
    refine List.filter_congr fun j _ => ?_
    rw [setCall_calls]
    by_cases hji : j = i
    · simp [hji, hw]
    · simp [hji, record]
  rw [heq]
  exact List.length_filter_lt_length_iff_exists.mpr ⟨i, hi, by simp⟩

theorem Live.submit (h : Live l s) (hok : s.KeepsUp (.submit i)) (hst : s.submit i = some s') :
    Live l s' := by
  have hline := h.line.call (a := .submit i) hst trivial
  have haddr := h.addressed.step (a := .submit i) hst
  obtain ⟨q, hcall, rfl⟩ := submit_cases hst
  have hest : s.eMBState = .established :=
    h.early.calls i (Or.inl (hcall ▸ trivial : (s.calls i).Preparing))
  have hnew : .posted i ∉ s.log := by
    intro hmem
    have hpost := h.logged.posted i hmem
    rw [hcall] at hpost
    exact hpost
  have hw := waiters_submit (s := s.post .frameSent) (q := q) hnew
  refine ⟨hline, haddr, ⟨fun j hj => ?_, fun j hj => ?_⟩, ⟨fun hl => ?_, fun hr => ?_, ?_⟩, ?_⟩
  · rw [setCall_calls] at hj
    split at hj
    · rename_i hji
      rw [hji]
      exact List.mem_cons_self ..
    · exact List.mem_cons_of_mem _ (h.logged.waits j hj)
  · rw [setCall_calls]
    split
    · trivial
    · rename_i hji
      rcases List.mem_cons.mp hj with heq | hmem
      · cases heq
        exact absurd rfl hji
      · exact h.logged.posted j hmem
  · cases hest.symm.trans (h.early.starting hl).1
  · rcases (masterChannel.pending_post ..).mp hr with hr | hr
    · exact h.early.ready hr
    · cases hr
  · exact early_setCall (s := (s.post .frameSent).record (.posted i)) h.early.calls fun _ => hest
  · have hf : (((s.post .frameSent).record (.posted i)).setCall i (.waiting q)).xMasterOsEvent =
        masterChannel.post s.xMasterOsEvent .frameSent := rfl
    have hle : s.waiters.length ≤ (decide s.Answered).toNat := hok
    rw [hw, List.length_cons]
    unfold endable underWay
    rw [decide_eq_true (returns_post s _ hf), Bool.or_true,
      decide_eq_decide.mpr (answered_event hf), Nat.add_comm]
    exact Nat.add_le_add_left hle 1

theorem Live.finish (h : Live l s) (hst : s.finish i = some s') : Live l s' := by
  have hline := h.line.call (a := .finish i) hst trivial
  have haddr := h.addressed.step (a := .finish i) hst
  obtain ⟨q, eErrStatus, flags, hcall, hret, hwait, rfl⟩ := finish_cases hst
  have hflags : flags = (resultChannel.get s.xMasterOsEvent).2 :=
    (congrArg Prod.snd hwait).symm.trans (eMBMasterWaitRequestFinish_flags _)
  have hpend : ∀ e, masterChannel.Pending flags e ↔ masterChannel.Pending s.xMasterOsEvent e := by
    intro e
    rw [hflags, masterChannel_apart.pending_get]
  have hreturns : masterChannel.Returns flags ↔ masterChannel.Returns s.xMasterOsEvent :=
    exists_congr hpend
  have hwaits : (s.calls i).Waits := hcall ▸ trivial
  have hless := waiters_finish (s := s) (c := .returned q eErrStatus) (e := eErrStatus) id
    (mem_waiters.mpr ⟨h.logged.waits i hwaits, hwaits⟩)
  have hlogged : Logged ({ s with xMasterOsEvent := flags }.record (.returned i eErrStatus)) :=
    SameCalls.logged (s := s) (.of_cons (e := .returned i eErrStatus) rfl rfl rfl) h.logged
  refine ⟨hline, haddr, hlogged.setCall id fun _ => trivial, ⟨fun hl => ?_, fun hr => ?_, ?_⟩, ?_⟩
  · exact (h.early.starting hl).imp_right (mt hreturns.mp)
  · exact h.early.ready ((hpend _).mp hr)
  · exact early_setCall (s := { s with xMasterOsEvent := flags }.record (.returned i eErrStatus))
      (c := .returned q eErrStatus) h.early.calls fun hno => hno.elim False.elim False.elim
  · have henough := h.enough
    have hans : s.Answered := hret
    have hle := Nat.lt_of_lt_of_le hless henough
    unfold endable underWay at hle ⊢
    rw [decide_eq_true hans] at hle
    refine (Nat.le_of_lt_succ hle).trans ((toNat_mono fun hu => ?_).trans (Nat.le_add_right _ _))
    exact (congrArg (l.busy || ·) (decide_eq_decide.mpr hreturns)).trans hu

/-- Every step that keeps up leaves every wait with an end. -/
theorem Live.step (h : Live l s) {a : MasterAction} (hi : s.Issued a) (hok : s.KeepsUp a)
    (hst : s.step a = some s') : ∃ l', Live l' s' := by
  cases a with
  | byte ucByte =>
    obtain ⟨hrx, rfl⟩ := byte_cases hst
    exact h.byte hrx ucByte
  | timer =>
    obtain ⟨ht, rfl⟩ := timer_cases hst
    exact h.timer ht
  | txReady =>
    obtain ⟨htx, rfl⟩ := txReady_cases hst
    exact h.txReady htx
  | poll junk => exact h.poll hok hst
  | refuse i q =>
    obtain ⟨_, hcall, rfl, -⟩ := refuse_cases hst
    exact ⟨l, h.prepare (d := .returned q _) hst trivial rfl rfl rfl rfl hcall id id
      (fun _ => trivial) False.elim⟩
  | take i q =>
    obtain ⟨hcall, -, -, rfl⟩ := take_cases hst
    exact ⟨l, h.prepare (d := .taken q) hst trivial rfl rfl rfl rfl hcall id id id fun _ => hi⟩
  | fill i =>
    obtain ⟨q, hcall, rfl⟩ := fill_cases hst
    have hprep : (s.calls i).Preparing := hcall ▸ trivial
    exact ⟨l, h.prepare (d := .filled q) hst trivial rfl rfl rfl rfl hcall id id id
      fun _ => h.early.calls i (Or.inl hprep)⟩
  | submit i => exact ⟨l, h.submit hok hst⟩
  | finish i => exact ⟨l, h.finish hst⟩

/-! ## Whole runs -/

/-- Every wait can be ended, wherever the master stands. -/
def Lively (s : Master) : Prop := ∃ l, Live l s

theorem lively_started (app : MasterApp) : Lively (static app).eMBMasterInit.eMBMasterEnable.2 := by
  have hnone : ¬ masterChannel.Returns 0 := by decide
  exact ⟨.starting, .starting (Or.inl rfl) ⟨rfl, rfl, rfl⟩ rfl rfl (Or.inl rfl),
    ⟨Nat.zero_le _, nofun⟩, ⟨fun _ hw => hw.elim, fun _ hp => absurd hp List.not_mem_nil⟩,
    ⟨fun _ => ⟨rfl, hnone⟩, fun _ => rfl, fun _ hc => hc.elim False.elim False.elim⟩, Nat.zero_le _⟩

/-- In every run whose steps all keep up every wait can be ended. -/
theorem lively_of_keepsUp
    (h : ReachableBy Started step (fun s a => s.Issued a ∧ s.KeepsUp a) s) : Lively s := by
  refine h.invariant ?_ ?_
  · rintro s ⟨app, rfl⟩
    exact lively_started app
  · rintro s a s' ⟨l, hl⟩ hok hst
    exact hl.step hok.1 hok.2 hst

/-- Where a wait can be ended something is left that leads on. -/
theorem Live.progress (h : Live l s) (hw : (s.calls i).Waits) : s.Progress := by
  have hmem : i ∈ s.waiters := mem_waiters.mpr ⟨h.logged.waits i hw, hw⟩
  have hpos := (List.length_pos_of_mem hmem).trans_le h.enough
  unfold endable at hpos
  by_cases ha : s.Answered
  · exact Or.inr (Or.inl ha)
  · rw [decide_eq_false ha] at hpos
    have hu : underWay l s = true := by
      cases hu : underWay l s with
      | true => rfl
      | false =>
        rw [hu] at hpos
        exact absurd hpos (Nat.lt_irrefl 0)
    rcases Bool.or_eq_true_iff.mp hu with hbusy | hret
    · cases h.line with
      | receiving _ hp => exact Or.inr (Or.inr (Or.inr hp.timer))
      | sending _ hp _ hs => exact Or.inr (Or.inr (Or.inl ⟨hs, hp.tx⟩))
      | waiting _ hp => exact Or.inr (Or.inr (Or.inr hp.timer))
      | _ => cases hbusy
    · exact Or.inl (of_decide_eq_true hret)

/-- In every run whose steps all keep up, something leads on while a call waits. -/
theorem progress_of_keepsUp
    (h : ReachableBy Started step (fun s a => s.Issued a ∧ s.KeepsUp a) s)
    (hw : (s.calls i).Waits) : s.Progress := by
  obtain ⟨l, hl⟩ := lively_of_keepsUp h
  exact hl.progress hw

/-! ## Runs -/

instance (s : Master) : ∀ a : MasterAction, Decidable (s.Issued a)
  | .take _ _ => inferInstanceAs (Decidable (s.eMBState = .established))
  | .byte _ => isTrue trivial
  | .timer => isTrue trivial
  | .txReady => isTrue trivial
  | .poll _ => isTrue trivial
  | .refuse _ _ => isTrue trivial
  | .fill _ => isTrue trivial
  | .submit _ => isTrue trivial
  | .finish _ => isTrue trivial

instance (flags : BitVec 32) : Decidable (masterChannel.AtMostOne flags) :=
  decidable_of_iff (∀ e ∈ MBMasterEventType.all, ∀ e' ∈ MBMasterEventType.all,
    masterChannel.Pending flags e → masterChannel.Pending flags e' → e = e') (by
      have hall : ∀ e : MBMasterEventType, e ∈ MBMasterEventType.all := by
        intro e
        cases e <;> decide
      exact ⟨fun h e e' => h e (hall e) e' (hall e'), fun h e _ e' _ => h e e'⟩)

instance (s : Master) : ∀ a : MasterAction, Decidable (s.KeepsUp a)
  | .poll _ => by unfold KeepsUp Completing; infer_instance
  | .submit _ => by unfold KeepsUp; infer_instance
  | .byte _ => isTrue trivial
  | .timer => isTrue trivial
  | .txReady => isTrue trivial
  | .refuse _ _ => isTrue trivial
  | .take _ _ => isTrue trivial
  | .fill _ => isTrue trivial
  | .finish _ => isTrue trivial

/-- Which of the first two calls wait after some actions, and whether something leads on. -/
def waitsAfter (as : List MasterAction) : Option (List Nat × Bool) :=
  (run step (static .initial).eMBMasterInit.eMBMasterEnable.2 as).map fun s =>
    ([0, 1].filter fun i => (s.calls i).Waits, s.Progress)

/-- A byte of noise ends in a frame just as a call posts its request. -/
def noisyPost : List MasterAction :=
  [.timer, .poll none, .take 0 writeOne, .fill 0, .byte 0, .timer, .submit 0, .poll none]

/-- The poll takes both events and handles none, and the call waits for ever. -/
theorem stranded :
    ¬ ∀ s i, ReachableBy Started step Issued s → (s.calls i).Waits → s.Progress := by
  intro h
  have hall : AllSteps step Issued (static .initial).eMBMasterInit.eMBMasterEnable.2 noisyPost := by
    decide +kernel
  have hrun : waitsAfter noisyPost = some ([0], false) := by decide +kernel
  obtain ⟨s, hs, heq⟩ := Option.map_eq_some_iff.mp hrun
  obtain ⟨hwaits, hstuck⟩ := Prod.mk.inj heq
  have hw : 0 ∈ [0, 1].filter fun i => (s.calls i).Waits := hwaits ▸ List.mem_singleton_self 0
  exact of_decide_eq_false hstuck (h s 0 (ReachableBy.of_run (.start ⟨_, rfl⟩) hall hs)
    (of_decide_eq_true (List.mem_filter.mp hw).2))

/-- A call posts its request before the one that was answered has taken its result. -/
def overlapping : List MasterAction :=
  [.timer, .poll none] ++ sendOne ++ answerOne ++ [.take 1 writeOne, .fill 1, .submit 1]

/-- Both wait, and something leads on. -/
theorem progress_overlapping : ∃ s,
    ReachableBy Started step (fun s a => s.Issued a ∧ s.KeepsUp a) s ∧
      (s.calls 0).Waits ∧ (s.calls 1).Waits ∧ s.Progress := by
  have hall : AllSteps step (fun s a => s.Issued a ∧ s.KeepsUp a)
      (static .initial).eMBMasterInit.eMBMasterEnable.2 overlapping := by decide +kernel
  have hrun : waitsAfter overlapping = some ([0, 1], true) := by decide +kernel
  obtain ⟨s, hs, heq⟩ := Option.map_eq_some_iff.mp hrun
  have hwaits : [0, 1].filter (fun i => (s.calls i).Waits) = [0, 1] := congrArg Prod.fst heq
  have hw : ∀ i ∈ [0, 1], (s.calls i).Waits := fun i hi =>
    of_decide_eq_true (List.filter_eq_self.mp hwaits i hi)
  have hreach : ReachableBy Started step (fun s a => s.Issued a ∧ s.KeepsUp a) s :=
    ReachableBy.of_run (.start ⟨_, rfl⟩) hall hs
  have hw₁ := hw 1 (by simp)
  exact ⟨s, hreach, hw 0 (by simp), hw₁, progress_of_keepsUp hreach hw₁⟩

end Master

end FreeModbus
