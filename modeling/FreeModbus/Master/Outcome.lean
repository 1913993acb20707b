import FreeModbus.Master.Execution
import FreeModbus.Master.History
import FreeModbus.Master.RunResource
import FreeModbus.Master.Sending

/-!
# The outcome of a request

The result of a transaction goes to whichever call waits next, and a result that
nobody waits for stays.  A call gets the outcome of its own transaction as long as
every step is `Clean`.

The invariant of clean runs is `Tracked`: one call at most waits, and it is either
in the middle of its transaction, at the `Stage` that belongs to the phase of the
master, or done, with its result as the only one that is pending.
-/

namespace FreeModbus

open ByteMemory EventFlags EventFlags.Channel Transition List

/-- The call that posts a request in this event. -/
def MasterEvent.poster : MasterEvent → Option Nat
  | .posted i => some i
  | _ => none

/-- The call waits for a result. -/
def CallState.Waits : CallState → Prop
  | .waiting _ => True
  | _ => False

instance : ∀ c : CallState, Decidable c.Waits
  | .waiting _ => isTrue trivial
  | .idle => isFalse id
  | .taken _ => isFalse id
  | .filled _ => isFalse id
  | .returned _ _ => isFalse id

/-- What the call is about to write fits in the send buffer. -/
def CallState.Fits : CallState → Prop
  | .taken q => q.Fits
  | _ => True

instance : ∀ c : CallState, Decidable c.Fits
  | .taken q => inferInstanceAs (Decidable q.Fits)
  | .idle => isTrue trivial
  | .filled _ => isTrue trivial
  | .waiting _ => isTrue trivial
  | .returned _ _ => isTrue trivial

namespace Master

/-- A frame begins only while the response is awaited, an exception reply that is executed has a
code, a request that is written fits in the send buffer, and a call posts its request when no
other call that posted one still waits. -/
def Clean (s : Master) : MasterAction → Prop
  | .byte _ => s.eRcvState = .idle → s.eSndState = .xfwr
  | .poll junk =>
      s.polled junk = some .execute → s.xFrameIsBroadcast = false → ExceptionFrame s.frame →
        s.frame mbPduDataOff ≠ 0
  | .fill i => (s.calls i).Fits
  | .submit _ => ∀ j ∈ s.log.filterMap MasterEvent.poster, ¬ (s.calls j).Waits
  | _ => True

instance (s : Master) : ∀ a : MasterAction, Decidable (s.Clean a)
  | .byte _ => by unfold Clean; infer_instance
  | .timer => isTrue trivial
  | .txReady => isTrue trivial
  | .poll _ => by unfold Clean; infer_instance
  | .refuse _ _ => isTrue trivial
  | .take _ _ => isTrue trivial
  | .fill _ => by unfold Clean; infer_instance
  | .submit _ => by unfold Clean; infer_instance
  | .finish _ => isTrue trivial

/-! ## The invariant -/

/-- The request is on the line, and the master waits for the response or has it. -/
structure Sent (i : Nat) (q : MasterRequest) (s : Master) : Prop where
  dest : s.ucMBMasterDestAddress = q.ucSndAddr
  isBroadcast : s.xFrameIsBroadcast = decide (q.ucSndAddr = mbAddressBroadcast)
  log : [.transmitted q.frame, .posted i] <+ s.log

/-- Where the transaction of a call stands in a phase of the master. -/
inductive Stage (i : Nat) (q : MasterRequest) (s : Master) : Phase → Prop where
  | posted : q.ucSndAddr.toNat ≤ mbMasterTotalSlaveNum → Loaded q s → [.posted i] <+ s.log →
      Stage i q s (.pend [.frameSent])
  | sending : Sending q s → [.posted i] <+ s.log → Stage i q s .send
  | sent : Sent i q s → Stage i q s .wait
  | incoming : Sent i q s → Stage i q s (.rcv [])
  | received : Sent i q s → Stage i q s (.pend [.frameReceived])
  | accepted :
      (q.ucSndAddr ≠ mbAddressBroadcast → s.xFrameIsBroadcast = false ∧
        [.received q.ucSndAddr, .transmitted q.frame, .posted i] <+ s.log) →
      [.posted i] <+ s.log → Stage i q s (.pend [.execute])
  | failed : [.error s.eMBMasterCurErrorType, .posted i] <+ s.log →
      Stage i q s (.pend [.errorProcess])

/-- The call with this request waits, and no other call does. -/
structure Waiting (i : Nat) (q : MasterRequest) (s : Master) : Prop where
  only : ∀ j q', s.calls j = .waiting q' ↔ j = i ∧ q' = q
  posted : .posted i ∈ s.log

/-- Whose turn it is. -/
inductive Turn (p : Phase) (s : Master) : Prop where
  | quiet : (∀ i q, s.calls i ≠ .waiting q) → p = .pend [] → pendingResults s.log = [] →
      Turn p s
  | under {i : Nat} {q : MasterRequest} : Waiting i q s → pendingResults s.log = [] →
      Stage i q s p → Turn p s
  | done {i : Nat} {q : MasterRequest} {r : MBMasterResult} : Waiting i q s → p = .pend [] →
      pendingResults s.log = [r] →
      (q.ucSndAddr ≠ mbAddressBroadcast → (.completed r :: transaction i q r) <+ s.log) → Turn p s

/-- What holds of a call before it posts its request. -/
def Prepared (s : Master) : CallState → Prop
  | .taken q => q.ucSndAddr.toNat ≤ mbMasterTotalSlaveNum
  | .filled q => q.ucSndAddr.toNat ≤ mbMasterTotalSlaveNum ∧ Loaded q s
  | _ => True

/-- The master is in phase `p` and every outcome up to now belongs to its call. -/
structure Tracked (p : Phase) (s : Master) : Prop where
  control : Control p s
  exclusive : Exclusive p s
  prepared : ∀ i, s.Prepared (s.calls i)
  turn : Turn p s
  /-- The flags say what the log says. -/
  results : ∀ r, resultChannel.Pending s.xMasterOsEvent r ↔ r ∈ pendingResults s.log
  outcome : OwnOutcome s

variable {s s' s₁ : Master} {p p' : Phase} {i : Nat} {q : MasterRequest} {es : List MasterEvent}
  {r : MBMasterResult} {c : CallState}

/-! ## Parts of the invariant -/

theorem Sent.posted (h : Sent i q s) : [.posted i] <+ s.log :=
  (List.sublist_cons_self ..).trans h.log

/-- In the course of a transaction the master is busy. -/
theorem Stage.busy (h : Stage i q s p) : p ≠ .pend [] := by
  cases h <;> nofun

/-- While the master is busy some call is in the middle of its transaction. -/
theorem Turn.busy (h : Turn p s) (hp : p ≠ .pend []) :
    ∃ i q, Waiting i q s ∧ pendingResults s.log = [] ∧ Stage i q s p := by
  cases h with
  | quiet _ hnil _ => exact absurd hnil hp
  | under hw hres hstage => exact ⟨_, _, hw, hres, hstage⟩
  | done _ hnil _ _ => exact absurd hnil hp

theorem Waiting.mono (h : Waiting i q s) (hcalls : s'.calls = s.calls) (hlog : s.log <+ s'.log) :
    Waiting i q s' :=
  ⟨hcalls ▸ h.only, hlog.subset h.posted⟩

/-- While the master is busy no call prepares its request. -/
theorem prepared_of_busy (h : Exclusive p s) (hp : p ≠ .pend []) (s' : Master) (j : Nat) :
    s'.Prepared (s.calls j) := by
  have hno := mt (h.quiet (i := j)) hp
  cases hc : s.calls j with
  | taken q => exact absurd (hc ▸ trivial) hno
  | filled q => exact absurd (hc ▸ trivial) hno
  | idle => trivial
  | waiting q => trivial
  | returned q code => trivial

theorem OwnOutcome.mono (h : OwnOutcome s) (hcalls : s'.calls = s.calls) (hlog : s.log <+ s'.log)
    (hf : Fresh s'.log) : OwnOutcome s' := by
  refine ⟨fun j q code hj hu => ?_, hf⟩
  rw [hcalls] at hj
  exact (h.own j q code hj hu).mono hlog

/-! ## The master moves on -/

/-- The calls and the results stay, and what is recorded belongs to a transaction. -/
structure Moves (es : List MasterEvent) (s s' : Master) : Prop where
  keeps : Keeps s s'
  log : s'.log = es ++ s.log
  inner : ∀ e ∈ es, e.Inner
  results : ∀ r, resultChannel.Pending s'.xMasterOsEvent r ↔
    resultChannel.Pending s.xMasterOsEvent r

/-- Nothing is recorded. -/
theorem Moves.silent (hk : Keeps s s') (hlog : s'.log = s.log)
    (hr : ∀ r, resultChannel.Pending s'.xMasterOsEvent r ↔
      resultChannel.Pending s.xMasterOsEvent r) : Moves [] s s' :=
  ⟨hk, hlog, nofun, hr⟩

/-- One event is recorded. -/
theorem Moves.one {e : MasterEvent} (hk : Keeps s s') (hlog : s'.log = e :: s.log)
    (hr : ∀ r, resultChannel.Pending s'.xMasterOsEvent r ↔
      resultChannel.Pending s.xMasterOsEvent r) (he : e.Inner) : Moves [e] s s' :=
  ⟨hk, hlog, List.forall_mem_singleton.mpr he, hr⟩

theorem Moves.sublist (h : Moves es s s') : s.log <+ s'.log :=
  h.log ▸ List.sublist_append_right es s.log

theorem Moves.pendingResults (h : Moves es s s') :
    pendingResults s'.log = FreeModbus.pendingResults s.log := by
  rw [h.log, pendingResults_inner h.inner]

theorem Moves.fresh (h : Moves es s s') (hf : Fresh s.log) : Fresh s'.log :=
  h.log ▸ fresh_inner h.inner hf

theorem Moves.ownOutcome (h : Moves es s s') (ho : OwnOutcome s) : OwnOutcome s' :=
  ho.mono h.keeps.calls h.sublist (h.fresh ho.fresh)

theorem results_drained (s : Master) (r : MBMasterResult) :
    resultChannel.Pending s.drained.xMasterOsEvent r ↔ resultChannel.Pending s.xMasterOsEvent r :=
  masterChannel_apart.symm.pending_get ..

/-- The transaction of the waiting call goes on. -/
theorem Tracked.move (h : Tracked p s) (hw : Waiting i q s) (hres : pendingResults s.log = [])
    (hp : p ≠ .pend []) (hm : Moves es s s') (hc : Control p' s') (hstage : Stage i q s' p') :
    Tracked p' s' where
  control := hc
  exclusive := h.exclusive.keeps hm.keeps fun _ => h.exclusive.busy hp
  prepared j := hm.keeps.calls ▸ prepared_of_busy h.exclusive hp s' j
  turn := .under (hw.mono hm.keeps.calls hm.sublist) (hm.pendingResults.trans hres) hstage
  results r := by
    rw [hm.results, hm.pendingResults]
    exact h.results r
  outcome := hm.ownOutcome h.outcome

/-- The transaction of the waiting call completes. -/
theorem Tracked.complete (h : Tracked p s) (hw : Waiting i q s) (hres : pendingResults s.log = [])
    (hp : p ≠ .pend []) (hm : Moves es s s₁) (hc : Control (.pend []) s₁)
    (hchain : q.ucSndAddr ≠ mbAddressBroadcast → transaction i q r <+ s₁.log) :
    Tracked (.pend []) (s₁.complete r) := by
  have hlog : s₁.log <+ (s₁.complete r).log := List.sublist_cons_self ..
  have hnone : pendingResults s₁.log = [] := hm.pendingResults.trans hres
  have hone : pendingResults (s₁.complete r).log = [r] := congrArg (r :: ·) hnone
  have hcalls : (s₁.complete r).calls = s.calls := hm.keeps.calls
  refine
    { control := hc.complete r
      exclusive := h.exclusive.completes hp ⟨?_, ?_, hcalls⟩
      prepared := fun j => hcalls ▸ prepared_of_busy h.exclusive hp _ j
      turn := .done (hw.mono hcalls (hm.sublist.trans hlog)) rfl hone
        fun hu => (hchain hu).cons_cons _
      results := fun r' => ?_
      outcome := ?_ }
  · exact congrArg (· + 1) hm.keeps.res
  · exact congrArg (List.drop 1) hm.keeps.holders
  · have hpost : resultChannel.Pending (s₁.complete r).xMasterOsEvent r' ↔
        resultChannel.Pending s₁.xMasterOsEvent r' ∨ r' = r := resultChannel.pending_post ..
    have hno : ¬ resultChannel.Pending s.xMasterOsEvent r' := by
      rw [h.results, hres]
      exact List.not_mem_nil
    rw [hpost, hm.results, hone, List.mem_singleton]
    exact or_iff_right hno
  · have ho := hm.ownOutcome h.outcome
    exact ho.mono rfl hlog ho.fresh

/-! ## The steps of interrupts and timer -/

/-- A clean byte does not find the master between two frames. -/
theorem Control.not_clean_byte {events : List MBMasterEventType} {ucByte : UChar}
    (h : Control (.pend events) s) : ¬ s.Clean (.byte ucByte) := by
  intro hok
  have hxfwr := hok h.receiver
  rw [h.snd] at hxfwr
  cases hxfwr

/-- A byte on the line begins or continues the response. -/
theorem Tracked.byte (h : Tracked p s) {ucByte : UChar} (hok : s.Clean (.byte ucByte))
    (hst : s.step (.byte ucByte) = some s') : ∃ p', Tracked p' s' := by
  obtain ⟨hrx, rfl⟩ := byte_cases hst
  have hc := h.control.byte hrx ucByte
  have hp : p ≠ .pend [] := by
    rintro rfl
    exact h.control.not_clean_byte hok
  obtain ⟨i, q, hw, hres, hstage⟩ := h.turn.busy hp
  cases hstage with
  | posted => exact absurd hok h.control.not_clean_byte
  | received => exact absurd hok h.control.not_clean_byte
  | accepted => exact absurd hok h.control.not_clean_byte
  | failed => exact absurd hok h.control.not_clean_byte
  | sending => exact absurd (hrx.symm.trans h.control.rx) (by decide)
  | sent hs =>
    rw [xMBMasterRTUReceiveFSM_idle h.control.receiver.1] at hc ⊢
    exact ⟨_, h.move hw hres hp
      (.silent ⟨rfl, rfl, rfl⟩ rfl fun _ => Iff.rfl) hc
      (.incoming ⟨hs.dest, hs.isBroadcast, hs.log⟩)⟩
  | incoming hs =>
    obtain ⟨_, _, _, -, heq⟩ := xMBMasterRTUReceiveFSM_rcv h.control.receiver.1 ucByte
    rw [heq] at hc ⊢
    exact ⟨_, h.move hw hres hp
      (.silent ⟨rfl, rfl, rfl⟩ rfl fun _ => Iff.rfl) hc
      (.incoming ⟨hs.dest, hs.isBroadcast, hs.log⟩)⟩

/-- An expiry ends a frame, the wait for a response, or a convert delay. -/
theorem Tracked.timer (h : Tracked p s) (hst : s.step .timer = some s') :
    ∃ p', Tracked p' s' := by
  obtain ⟨ht, rfl⟩ := timer_cases hst
  have hon : p.timer = true := h.control.timer.symm.trans ht
  have hp : p ≠ .pend [] := by
    rintro rfl
    cases hon
  obtain ⟨i, q, hw, hres, hstage⟩ := h.turn.busy hp
  cases hstage with
  | posted => cases hon
  | received => cases hon
  | accepted => cases hon
  | failed => cases hon
  | sending => cases hon
  | sent hs =>
    cases hb : s.xFrameIsBroadcast with
    | false =>
      have hc := h.control.expire_response hb
      rw [timerExpired_response h.control.receiver.1 h.control.snd hb (h.control.mode hb)]
        at hc ⊢
      exact ⟨_, h.move hw hres hp
        (.one ⟨rfl, rfl, rfl⟩ rfl (results_post _ _) trivial) hc
        (.failed (hs.posted.cons_cons _))⟩
    | true =>
      have hc := h.control.expire_broadcast hb
      rw [timerExpired_broadcast h.control.receiver.1 h.control.snd hb (h.control.mode hb)]
        at hc ⊢
      refine ⟨_, h.move hw hres hp
        (.silent ⟨rfl, rfl, rfl⟩ rfl (results_post _ _)) hc
        (.accepted (fun hu => ?_) hs.posted)⟩
      exact absurd (of_decide_eq_true (hs.isBroadcast.symm.trans hb)) hu
  | incoming hs =>
    obtain ⟨hr | hr, hm⟩ := h.control.receiver
    · have hc := h.control.expire_frame hr
      rw [timerExpired_frame hr h.control.snd hm] at hc ⊢
      exact ⟨_, h.move hw hres hp
        (.silent ⟨rfl, rfl, rfl⟩ rfl (results_post _ _)) hc
        (.received ⟨hs.dest, hs.isBroadcast, hs.log⟩)⟩
    · have hc := h.control.expire_error hr
      rw [timerExpired_error hr h.control.snd hm] at hc ⊢
      exact ⟨_, h.move hw hres hp
        (.one ⟨rfl, rfl, rfl⟩ rfl (results_post _ _) trivial) hc
        (.failed (hs.posted.cons_cons _))⟩

/-- The transmitter puts the next byte on the line, or has sent the whole request. -/
theorem Tracked.txReady (h : Tracked p s) (hst : s.step .txReady = some s') :
    ∃ p', Tracked p' s' := by
  obtain ⟨htx, rfl⟩ := txReady_cases hst
  have hon : (!p.rx) = true := h.control.tx.symm.trans htx
  have hp : p ≠ .pend [] := by
    rintro rfl
    cases hon
  obtain ⟨i, q, hw, hres, hstage⟩ := h.turn.busy hp
  cases hstage with
  | posted => cases hon
  | received => cases hon
  | accepted => cases hon
  | failed => cases hon
  | sent => cases hon
  | incoming => cases hon
  | sending hs hlog =>
    by_cases hcount : s.usMasterSndBufferCount = 0
    · have hc := h.control.transmit_done hcount
      have hline := hs.done hcount
      have hb := hs.broadcast
      rw [xMBMasterRTUTransmitFSM_done h.control.snd hcount] at hc ⊢
      refine ⟨_, h.move hw hres hp
        (.one ⟨rfl, rfl, rfl⟩ rfl (fun _ => Iff.rfl) trivial) hc
        (.sent ⟨hs.dest, hb, ?_⟩)⟩
      rw [← hline]
      exact hlog.cons_cons _
    · have hc := h.control.transmit_byte hcount
      have hs' := hs.byte h.control.snd hcount
      rw [xMBMasterRTUTransmitFSM_byte h.control.snd hcount] at hc hs' ⊢
      exact ⟨_, h.move hw hres hp
        (.silent ⟨rfl, rfl, rfl⟩ rfl fun _ => Iff.rfl) hc
        (.sending hs' hlog)⟩

/-! ## Polls -/

/-- The execution of a frame records what handlers do. -/
theorem executeFrame_moves (s : Master) : ∃ n,
    Moves (List.replicate n .handled) s s.drained.executeFrame := by
  obtain ⟨n, hlog⟩ := executeFrame_log s.drained
  have hex := executeFrame_executes s.drained
  have hk := hex.keeps
  refine ⟨n, ⟨hk.res, hk.holders, hk.calls⟩, hlog, ?_, fun r => ?_⟩
  · intro e he
    rw [List.eq_of_mem_replicate he]
    trivial
  · obtain ⟨_, _, _, _, _, _, _, _, heq⟩ := hex
    rw [heq]
    exact results_drained s r

/-- A reply to a unicast request that leaves no exception was taken by its handler. -/
theorem executeFrame_handled {junk : Option MBMasterEventType} (hok : s.Clean (.poll junk))
    (hpolled : s.polled junk = some .execute) (hb : s.xFrameIsBroadcast = false)
    (hz : s.drained.executeFrame.eException = 0) :
    s.drained.executeFrame.log = .handled :: s.log := by
  have hno : ¬ ExceptionFrame s.drained.frame := by
    intro hexc
    rw [executeFrame_exception hexc] at hz
    exact hok hpolled hb hexc hz
  obtain ⟨hcode, -, hlog⟩ := executeFrame_unicast (s := s.drained) hno hb
  rw [hcode] at hz
  exact hlog (MBException.code_eq_zero.mp hz)

/-- The transmitter is activated for the request. -/
theorem Tracked.pollFrameSent (h : Tracked (.pend [.frameSent]) s) (hw : Waiting i q s)
    (hres : pendingResults s.log = []) (ha : q.ucSndAddr.toNat ≤ mbMasterTotalSlaveNum)
    (hl : Loaded q s) (hlog : [.posted i] <+ s.log) :
    ∃ p', Tracked p' s.drained.pollFrameSent := by
  have hleft := h.control.get
  have hc := hleft.pollFrameSent (hl.addr ▸ ha)
  have hs := Loaded.sending (s := s.drained) (hl.same rfl rfl rfl) ha hleft.receiver
  rw [pollFrameSent_ok (hl.addr ▸ ha) hleft.receiver] at hc hs ⊢
  exact ⟨_, h.move hw hres nofun (.silent ⟨rfl, rfl, rfl⟩ rfl (results_drained s)) hc
    (.sending hs hlog)⟩

/-- The response is checked. -/
theorem Tracked.pollFrameReceived (h : Tracked (.pend [.frameReceived]) s) (hw : Waiting i q s)
    (hres : pendingResults s.log = []) (hs : Sent i q s) :
    ∃ p', Tracked p' s.drained.pollFrameReceived := by
  have hresults : ∀ (t : Master) (e : MBMasterEventType),
      t.xMasterOsEvent = s.drained.xMasterOsEvent →
      ∀ r, resultChannel.Pending (t.post e).xMasterOsEvent r ↔
        resultChannel.Pending s.xMasterOsEvent r := by
    intro t e heq r
    rw [results_post, heq, results_drained]
  by_cases hus : s.drained.FrameForUs
  · have hc := h.control.get.accept hus
    rw [pollFrameReceived_ok hus] at hc ⊢
    refine ⟨_, h.move hw hres nofun (.one ⟨rfl, rfl, rfl⟩ rfl (hresults _ _ rfl) trivial) hc
      (.accepted (fun hu => ⟨hs.isBroadcast.trans (decide_eq_false hu), ?_⟩) (hs.posted.cons _))⟩
    have hdest : s.drained.ucMBMasterDestAddress = q.ucSndAddr := hs.dest
    rw [hdest]
    exact hs.log.cons_cons _
  · have hc := h.control.get.reject hus
    obtain ⟨_, _, _, heq⟩ := pollFrameReceived_bad hus
    rw [heq] at hc ⊢
    exact ⟨_, h.move hw hres nofun (.one ⟨rfl, rfl, rfl⟩ rfl (hresults _ _ rfl) trivial) hc
      (.failed (hs.posted.cons_cons _))⟩

/-- The response is executed: the transaction fails, or completes with success. -/
theorem Tracked.pollExecute (h : Tracked (.pend [.execute]) s) (hw : Waiting i q s)
    (hres : pendingResults s.log = []) (hlog : [.posted i] <+ s.log)
    (hacc : q.ucSndAddr ≠ mbAddressBroadcast → s.xFrameIsBroadcast = false ∧
      [.received q.ucSndAddr, .transmitted q.frame, .posted i] <+ s.log)
    (hhandled : s.xFrameIsBroadcast = false → s.drained.executeFrame.eException = 0 →
      s.drained.executeFrame.log = .handled :: s.log) :
    ∃ p', Tracked p' s.drained.pollExecute := by
  obtain ⟨n, hm⟩ := executeFrame_moves s
  have hc := h.control.get.executes (executeFrame_executes s.drained)
  rcases pollExecute_cases s.drained with ⟨-, heq⟩ | ⟨hz, heq⟩
  · rw [heq]
    have hfail : Moves (.error .executeFunction :: List.replicate n .handled) s
        (s.drained.executeFrame.fail .executeFunction) :=
      ⟨⟨hm.keeps.res, hm.keeps.holders, hm.keeps.calls⟩, congrArg (_ :: ·) hm.log,
        List.forall_mem_cons.mpr ⟨trivial, hm.inner⟩,
        fun r => (results_post _ _ r).trans (hm.results r)⟩
    exact ⟨_, h.move hw hres nofun hfail (hc.fail .executeFunction)
      (.failed ((hlog.trans hm.sublist).cons_cons _))⟩
  · rw [heq]
    refine ⟨_, h.complete hw hres nofun hm hc fun hu => ?_⟩
    obtain ⟨hb, hrec⟩ := hacc hu
    rw [hhandled hb hz]
    exact hrec.cons_cons _

/-- The transaction completes with an error. -/
theorem Tracked.pollErrorProcess (h : Tracked (.pend [.errorProcess]) s) (hw : Waiting i q s)
    (hres : pendingResults s.log = [])
    (hlog : [.error s.eMBMasterCurErrorType, .posted i] <+ s.log) :
    ∃ p', Tracked p' s.drained.pollErrorProcess := by
  have hleft := h.control.get
  have hm : Moves [] s { s.drained with ucMBFrame := .sndBuf } :=
    .silent ⟨rfl, rfl, rfl⟩ rfl (results_drained s)
  refine ⟨_, h.complete hw hres nofun hm
    ⟨hleft.state, hleft.events, hleft.receiver, hleft.snd, hleft.rx, hleft.tx, hleft.timer⟩
    fun _ => ?_⟩
  show transaction i q s.eMBMasterCurErrorType.result <+ s.log
  rw [transaction_error]
  exact hlog

/-- A poll takes the transaction one step further, or completes it. -/
theorem Tracked.poll (h : Tracked p s) {junk : Option MBMasterEventType}
    (hok : s.Clean (.poll junk)) (hst : s.step (.poll junk) = some s') : ∃ p', Tracked p' s' := by
  obtain ⟨hret, hh⟩ := eMBMasterPoll_cases (Or.inr h.control.state) hst
  have hne := h.control.returns_iff.mp hret
  have hp : p ≠ .pend [] := by
    rintro rfl
    exact hne rfl
  obtain ⟨i, q, hw, hres, hstage⟩ := h.turn.busy hp
  cases hstage with
  | sending => exact absurd rfl hne
  | sent => exact absurd rfl hne
  | incoming => exact absurd rfl hne
  | posted ha hl hlog =>
    rw [h.control.polled_one rfl] at hh
    cases hh
    exact h.pollFrameSent hw hres ha hl hlog
  | received hs =>
    rw [h.control.polled_one rfl] at hh
    cases hh
    exact h.pollFrameReceived hw hres hs
  | accepted hacc hlog =>
    have hpolled := h.control.polled_one rfl junk
    rw [hpolled, Master.handle] at hh
    split at hh
    · cases hh
    · cases hh
      exact h.pollExecute hw hres hlog hacc (executeFrame_handled hok hpolled)
  | failed hlog =>
    rw [h.control.polled_one rfl] at hh
    cases hh
    exact h.pollErrorProcess hw hres hlog

/-! ## The steps of a call -/

/-- A call that neither waited nor waits now changes nothing for the call that does. -/
theorem waiting_setCall (hi : ¬ (s.calls i).Waits) (hc : ¬ c.Waits) (j : Nat)
    (q : MasterRequest) : (s.setCall i c).calls j = .waiting q ↔ s.calls j = .waiting q := by
  by_cases hji : j = i
  · rw [hji, setCall_same]
    exact iff_of_false (fun hq => hc (hq ▸ trivial)) (fun hq => hi (hq ▸ trivial))
  · rw [setCall_other s c hji]

/-- The turn stays where it is. -/
theorem Turn.same (h : Turn p s) (hlog : s'.log = s.log)
    (hcalls : ∀ j q, s'.calls j = .waiting q ↔ s.calls j = .waiting q)
    (hstage : ∀ i q, Stage i q s p → Stage i q s' p) : Turn p s' := by
  have hwait : ∀ {i q}, Waiting i q s → Waiting i q s' := fun hw =>
    ⟨fun j q' => (hcalls j q').trans (hw.only j q'), hlog ▸ hw.posted⟩
  cases h with
  | quiet hno hp hres =>
    exact .quiet (fun j q hj => hno j q ((hcalls j q).mp hj)) hp (hlog ▸ hres)
  | under hw hres hst => exact .under (hwait hw) (hlog ▸ hres) (hstage _ _ hst)
  | done hw hp hres hchain => exact .done (hwait hw) hp (hlog ▸ hres) (hlog ▸ hchain)

theorem OwnOutcome.setCall (h : OwnOutcome s)
    (hc : ∀ q code, c = .returned q code → q.ucSndAddr ≠ mbAddressBroadcast →
      Outcome i q code s.log) : OwnOutcome (s.setCall i c) := by
  refine ⟨fun j q code hj hu => ?_, h.fresh⟩
  by_cases hji : j = i
  · rw [hji, setCall_same] at hj
    rw [hji]
    exact hc q code hj hu
  · rw [setCall_other s c hji] at hj
    exact h.own j q code hj hu

theorem Prepared.same (h : s.Prepared c) (hl : ∀ q, Loaded q s → Loaded q s') :
    s'.Prepared c := by
  cases c with
  | taken q => exact h
  | filled q => exact ⟨h.1, hl q h.2⟩
  | _ => trivial

/-- One call moves on and the others stay prepared. -/
theorem prepared_setCall (h : ∀ j ≠ i, s'.Prepared (s.calls j)) (hc : s'.Prepared c) (j : Nat) :
    s'.Prepared ((s.setCall i c).calls j) := by
  by_cases hji : j = i
  · rw [hji, setCall_same]
    exact hc
  · rw [setCall_other s c hji]
    exact h j hji

theorem Tracked.refuse (h : Tracked p s) (hst : s.refuse i q = some s') : Tracked p s' := by
  obtain ⟨hc, he⟩ := h.exclusive.refuse h.control hst
  obtain ⟨code, hidle, rfl, hcode⟩ := refuse_cases hst
  refine ⟨hc, he, prepared_setCall (fun j _ => ?_) trivial, ?_, h.results, ?_⟩
  · exact (h.prepared j).same fun q hl => hl.same rfl rfl rfl
  · refine h.turn.same rfl (waiting_setCall (hidle ▸ id) id) fun i q hstage => ?_
    cases hstage with
    | posted ha hl hlog => exact .posted ha (hl.same rfl rfl rfl) hlog
    | sending hs hlog => exact .sending ⟨hs.dest, hs.addr, hs.frame⟩ hlog
    | sent hs => exact .sent ⟨hs.dest, hs.isBroadcast, hs.log⟩
    | incoming hs => exact .incoming ⟨hs.dest, hs.isBroadcast, hs.log⟩
    | received hs => exact .received ⟨hs.dest, hs.isBroadcast, hs.log⟩
    | accepted hacc hlog => exact .accepted hacc hlog
    | failed hlog => exact .failed hlog
  · refine h.outcome.setCall fun q' code' heq _ => ?_
    cases heq
    exact hcode.imp_right Or.inl

theorem Tracked.take (h : Tracked p s) (hst : s.take i q = some s') : Tracked p s' := by
  obtain ⟨hp, hc, he⟩ := h.exclusive.take h.control hst
  obtain ⟨hidle, hill, -, rfl⟩ := take_cases hst
  have ha : q.ucSndAddr.toNat ≤ mbMasterTotalSlaveNum :=
    Nat.le_of_not_lt (of_decide_eq_false (Bool.or_eq_false_iff.mp hill).1)
  refine ⟨hc, he, prepared_setCall (s := s) (c := .taken q) (fun j _ => ?_) ha, ?_, h.results, ?_⟩
  · exact (h.prepared j).same fun q hl => hl.same rfl rfl rfl
  · exact h.turn.same rfl (waiting_setCall (hidle ▸ id) id) fun j q' hstage =>
      absurd hp hstage.busy
  · exact ⟨(h.outcome.setCall (i := i) (c := .taken q) nofun).own, h.outcome.fresh⟩

theorem Tracked.fill (h : Tracked p s) (hok : s.Clean (.fill i)) (hst : s.fill i = some s') :
    Tracked p s' := by
  obtain ⟨hc, he⟩ := h.exclusive.fill h.control hst
  obtain ⟨q, htaken, rfl⟩ := fill_cases hst
  have hprep : (s.calls i).Preparing := htaken ▸ trivial
  have hp : p = .pend [] := h.exclusive.quiet hprep
  have hfits : (s.calls i).Fits := hok
  have hpi := h.prepared i
  rw [htaken] at hfits hpi
  -- The run resource belongs to this call, so no other call prepares a request.
  have hother : ∀ j ≠ i, (s.fillSndBuf q).Prepared (s.calls j) := by
    intro j hji
    have hno : ¬ (s.calls j).Preparing := fun hj =>
      hji (h.exclusive.unique (h.exclusive.own j hj) (h.exclusive.own i hprep))
    cases hcall : s.calls j with
    | taken q' => exact absurd (hcall ▸ trivial) hno
    | filled q' => exact absurd (hcall ▸ trivial) hno
    | _ => trivial
  have hl := loaded_fillSndBuf s hfits
  refine ⟨hc, he, prepared_setCall (s := s) (c := .filled q) (fun j hji => ?_) ?_, ?_, h.results,
    ?_⟩
  · exact (hother j hji).same fun q hl => hl.same rfl rfl rfl
  · exact ⟨hpi, hl.same rfl rfl rfl⟩
  · exact h.turn.same rfl (waiting_setCall (htaken ▸ id) id) fun j q' hstage =>
      absurd hp hstage.busy
  · exact ⟨(h.outcome.setCall (i := i) (c := .filled q) nofun).own, h.outcome.fresh⟩

/-- Before a clean post no call waits and no result is pending. -/
theorem Tracked.quiet (h : Tracked p s) (hp : p = .pend []) (hok : s.Clean (.submit i)) :
    (∀ j q, s.calls j ≠ .waiting q) ∧ pendingResults s.log = [] := by
  cases h.turn with
  | quiet hno _ hres => exact ⟨hno, hres⟩
  | under _ _ hstage => exact absurd hp hstage.busy
  | @done j q r hw _ _ _ =>
    have hmem : j ∈ s.log.filterMap MasterEvent.poster :=
      List.mem_filterMap.mpr ⟨_, hw.posted, rfl⟩
    have hj : s.calls j = .waiting q := (hw.only j q).mpr ⟨rfl, rfl⟩
    exact absurd (hj ▸ trivial) (hok j hmem)

theorem Tracked.submit (h : Tracked p s) (hok : s.Clean (.submit i))
    (hst : s.submit i = some s') : ∃ p', Tracked p' s' := by
  obtain ⟨hp, hc, he⟩ := h.exclusive.submit h.control hst
  obtain ⟨hno, hres⟩ := h.quiet hp hok
  obtain ⟨q, hfilled, rfl⟩ := submit_cases hst
  have hpi := h.prepared i
  rw [hfilled] at hpi
  obtain ⟨ha, hl⟩ := hpi
  have hprep : (s.calls i).Preparing := hfilled ▸ trivial
  have hcalls : ∀ j, (((s.post .frameSent).record (.posted i)).setCall i (.waiting q)).calls j =
      (s.setCall i (.waiting q)).calls j := fun _ => rfl
  refine ⟨_, hc, he, ?_, .under ⟨?_, List.mem_cons_self ..⟩ hres (.posted ha ?_ ?_), ?_, ?_⟩
  · exact fun j => prepared_of_busy he nofun _ j
  · intro j q'
    rw [hcalls]
    by_cases hji : j = i
    · rw [hji, setCall_same]
      exact ⟨fun heq => ⟨rfl, by cases heq; rfl⟩, fun heq => by rw [heq.2]⟩
    · rw [setCall_other s _ hji]
      exact iff_of_false (hno j q') fun heq => hji heq.1
  · exact hl.same rfl rfl rfl
  · exact List.singleton_sublist.mpr (List.mem_cons_self ..)
  · exact fun r => (results_post s .frameSent r).trans (h.results r)
  · have ho := h.outcome.setCall (i := i) (c := .waiting q) nofun
    exact ho.mono rfl (List.sublist_cons_self ..) ⟨hres, h.outcome.fresh⟩

/-- A call returns the one result that is pending, and it is its own. -/
theorem Tracked.finish (h : Tracked p s) (hst : s.finish i = some s') : Tracked p s' := by
  obtain ⟨hc, he⟩ := h.exclusive.finish h.control hst
  obtain ⟨q, code, flags, hwaiting, ⟨r', hr'⟩, hwait, rfl⟩ := finish_cases hst
  cases h.turn with
  | quiet hno _ _ => exact absurd hwaiting (hno i q)
  | under _ hres _ =>
    have hmem := (h.results r').mp hr'
    rw [hres] at hmem
    cases hmem
  | @done i₀ q₀ r hw hp hres hchain =>
    obtain ⟨rfl, rfl⟩ := (hw.only i q).mp hwaiting
    have honly : resultChannel.Only s.xMasterOsEvent r := by
      intro r''
      rw [h.results, hres, List.mem_singleton]
    have hcode : code = r.code :=
      (congrArg Prod.fst hwait).symm.trans (eMBMasterWaitRequestFinish_of_only honly)
    have hflags : flags = (resultChannel.get s.xMasterOsEvent).2 :=
      (congrArg Prod.snd hwait).symm.trans (eMBMasterWaitRequestFinish_flags _)
    let s₁ : Master := { s with xMasterOsEvent := flags }.record (.returned i code)
    have ho : OwnOutcome s₁ := h.outcome.mono rfl (List.sublist_cons_self ..)
      ⟨⟨r, hres, hcode.symm⟩, h.outcome.fresh⟩
    refine ⟨hc, he, prepared_setCall (s := s₁) (fun j _ => ?_) trivial, .quiet ?_ hp rfl,
      fun r'' => ?_, ho.setCall ?_⟩
    · exact (h.prepared j).same fun q hl => hl.same rfl rfl rfl
    · intro j q' hj
      by_cases hji : j = i
      · rw [hji, setCall_same] at hj
        cases hj
      · rw [setCall_other s₁ _ hji] at hj
        exact hji ((hw.only j q').mp hj).1
    · show resultChannel.Pending flags r'' ↔ r'' ∈ []
      rw [hflags]
      exact iff_of_false (resultChannel.not_pending_get _ _) List.not_mem_nil
    · intro q' code' heq hu
      cases heq
      exact Or.inr (Or.inr ⟨r, hcode.symm, (hchain hu).cons_cons _⟩)

/-! ## Whole runs -/

/-- Every clean step keeps the outcomes with their calls. -/
theorem Tracked.step (h : Tracked p s) {a : MasterAction} (hok : s.Clean a)
    (hst : s.step a = some s') : ∃ p', Tracked p' s' := by
  cases a with
  | byte ucByte => exact h.byte hok hst
  | timer => exact h.timer hst
  | txReady => exact h.txReady hst
  | poll junk => exact h.poll hok hst
  | refuse i q => exact ⟨p, h.refuse hst⟩
  | take i q => exact ⟨p, h.take hst⟩
  | fill i => exact ⟨p, h.fill hok hst⟩
  | submit i => exact h.submit hok hst
  | finish i => exact ⟨p, h.finish hst⟩

theorem tracked_established (app : MasterApp) : Tracked (.pend []) (established app) where
  control := control_established app
  exclusive := exclusive_established app
  prepared _ := trivial
  turn := .quiet nofun rfl rfl
  results r := by
    have hnone : ¬ resultChannel.Pending 0 r := by cases r <;> decide
    exact iff_of_false hnone List.not_mem_nil
  outcome := ⟨nofun, trivial⟩

/-- A clean run keeps the outcomes with their calls. -/
theorem tracked_of_clean {s : Master} (h : ReachableBy Established step Clean s) :
    ∃ p, Tracked p s := by
  have hstart : ∀ s, Established s → ∃ p, Tracked p s := by
    intro s hs
    obtain ⟨app, rfl⟩ := hs.eq
    exact ⟨_, tracked_established app⟩
  exact h.invariant hstart fun s a s' ⟨p, hp⟩ hok hst => hp.step hok hst

/-- In every clean run, every call returns the outcome of its own transaction. -/
theorem ownOutcome_of_clean {s : Master} (h : ReachableBy Established step Clean s) :
    OwnOutcome s := by
  obtain ⟨p, hp⟩ := tracked_of_clean h
  exact hp.outcome

/-! ## The condition is needed -/

/-- The slave address and the outcome of a call. -/
def answered : CallState → Option (UChar × MBMasterReqErrCode)
  | .returned q code => some (q.ucSndAddr, code)
  | _ => none

theorem answered_eq_some {a : UChar} {code : MBMasterReqErrCode} (h : answered c = some (a, code)) :
    ∃ q : MasterRequest, c = .returned q code ∧ q.ucSndAddr = a := by
  cases c with
  | returned q code' =>
    obtain ⟨ha, rfl⟩ := Prod.mk.inj (Option.some.inj h)
    exact ⟨q, rfl, ha⟩
  | _ => cases h

/-- What a call was answered, and what has happened, after some actions. -/
def answerAfter (as : List MasterAction) (i : Nat) :
    Option (Option (UChar × MBMasterReqErrCode) × List MasterEvent) :=
  (run step (established .initial) as).map fun s => (answered (s.calls i), s.log)

/-- The answer to a first write comes twice.  The second copy completes with nobody waiting, and
a second write returns `MB_MRE_NO_ERR` before anything of it is on the line. -/
theorem not_ownOutcome : ¬ ∀ s, Reachable Established step s → OwnOutcome s := by
  intro h
  have hrun : answerAfter (sendOne ++ answerOne ++ [.finish 0] ++ answerOne ++
      [.take 1 writeOne, .fill 1, .submit 1, .finish 1]) 1 = some (some (1, .noErr),
        [.returned 1 .noErr, .posted 1, .completed .processSucess, .handled, .received 1,
          .returned 0 .noErr, .completed .processSucess, .handled, .received 1,
          .transmitted writeOne.frame, .posted 0]) := by decide +kernel
  obtain ⟨s, hs, heq⟩ := Option.map_eq_some_iff.mp hrun
  obtain ⟨hcall, hlog⟩ := Prod.mk.inj heq
  obtain ⟨q, hq, ha⟩ := answered_eq_some hcall
  have hown := h s (Reachable.of_run (.start (established_established _)) hs)
  have hu : q.ucSndAddr ≠ mbAddressBroadcast := by
    rw [ha]
    decide
  rcases hown.own 1 q .noErr hq hu with hno | hno | ⟨r, hr, hsub⟩
  · cases hno
  · cases hno
  · have hsuccess : r = .processSucess := by
      cases r with
      | processSucess => rfl
      | _ => cases hr
    subst hsuccess
    have hpair : [.completed .processSucess, .posted 1] <+ s.log := by
      refine List.Sublist.trans (.cons _ (.cons_cons _ ?_)) hsub
      exact List.singleton_sublist.mpr (by simp [transaction])
    rw [hlog] at hpair
    exact absurd hpair (by decide +kernel)

/-- A write that is answered in time. -/
theorem ownOutcome_of_clean_write :
    ∃ s, ReachableBy Established step Clean s ∧ OwnOutcome s ∧
      answered (s.calls 0) = some (1, .noErr) := by
  have hall : AllSteps step Clean (established .initial) (sendOne ++ answerOne ++ [.finish 0]) := by
    decide +kernel
  have hrun : answerAfter (sendOne ++ answerOne ++ [.finish 0]) 0 = some (some (1, .noErr),
      [.returned 0 .noErr, .completed .processSucess, .handled, .received 1,
        .transmitted writeOne.frame, .posted 0]) := by decide +kernel
  obtain ⟨s, hs, heq⟩ := Option.map_eq_some_iff.mp hrun
  have hreach : ReachableBy Established step Clean s :=
    ReachableBy.of_run (.start (established_established _)) hall hs
  exact ⟨s, hreach, ownOutcome_of_clean hreach, (Prod.mk.inj heq).1⟩

end Master

end FreeModbus
