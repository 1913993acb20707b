import FreeModbus.Slave.Transaction

/-!
# A slave on a shared line

On a bus a slave hears every frame: the requests for it, those for other slaves, and
the replies of the others.  `heard` is the slave when the bytes of a frame have come
in.  The silence behind it and the polls then take the slave through the stages of
`Serving`, to rest or to the point where the transmitter is to begin with the reply.

The stages are those of `Stage`, here with the data of the handlers: `served` is what
a frame makes of them.  `Settling` is a slave that comes to rest by itself, whatever it
has heard or sent before.
-/

namespace FreeModbus

open ByteMemory Transition EventFlags

namespace Slave

instance (frame : List UChar) : Decidable (Valid frame) :=
  decidable_of_iff (4 ≤ frame.length ∧ usMBCRC16List frame = 0) valid_iff.symm

instance (s : Slave) (frame : List UChar) : Decidable (s.ForUs frame) := by
  unfold ForUs
  infer_instance

/-- No event is pending, the timer is stopped and the transmitter is off. -/
structure AtRest (x : Slave) : Prop where
  timer : x.xTimer = false
  event : ¬ slaveChannel.Returns x.xSlaveOsEvent
  tx : x.xTxEnable = false

/-- The transmitter has put a byte of its frame on the line and is not done. -/
def Talking (x : Slave) : Prop := x.xTxEnable = true ∧ x.pucSndBufferCur ≠ 0

/-- A slave that waits for a frame, with the timer stopped. -/
structure Resting (s : Slave) : Prop where
  quiet : Quiet s
  timer : s.xTimer = false

theorem Resting.atRest {s : Slave} (h : Resting s) : AtRest s :=
  ⟨h.timer, h.quiet.event, h.quiet.tx⟩

/-- An expiry of the timer, or a poll. -/
def TimerPoll : SlaveAction → Prop
  | .timer => True
  | .poll _ => True
  | _ => False

/-- The slave when these bytes have come in. -/
def heard (s : Slave) (bytes : List UChar) : Slave := bytes.foldl xMBRTUReceiveFSM s

/-- The frame is for this slave alone, which is to answer it. -/
def Replies (s : Slave) (frame : List UChar) : Prop :=
  Valid frame ∧ addressOf frame = s.ucMBAddress

/-- The data of the handlers after the frame. -/
def served (s : Slave) (frame : List UChar) : SlaveApp :=
  if Valid frame ∧ s.ForUs frame then (s.handled frame).app else s.app

variable {s x x' : Slave} {frame : List UChar} {a : SlaveAction} {n : Nat}

/-! ## Hearing a frame -/

/-- A byte changes the receive machine, its buffer and the timer. -/
theorem receiveFSM_frame (s : Slave) (b : UChar) : ∃ buf pos st timer,
    s.xMBRTUReceiveFSM b = { s with
      ucRTUBuf := buf
      usRcvBufferPos := pos
      eRcvState := st
      xTimer := timer } := by
  unfold xMBRTUReceiveFSM
  split
  · exact ⟨_, _, _, _, rfl⟩
  · exact ⟨_, _, _, _, rfl⟩
  · exact ⟨_, _, _, _, rfl⟩
  · split
    · exact ⟨_, _, _, _, rfl⟩
    · exact ⟨_, _, _, _, rfl⟩

theorem heard_frame (s : Slave) (bytes : List UChar) : ∃ buf pos st timer,
    s.heard bytes = { s with
      ucRTUBuf := buf
      usRcvBufferPos := pos
      eRcvState := st
      xTimer := timer } := by
  induction bytes generalizing s with
  | nil => exact ⟨_, _, _, _, rfl⟩
  | cons b bytes ih =>
    obtain ⟨_, _, _, _, hfirst⟩ := receiveFSM_frame s b
    obtain ⟨buf, pos, st, timer, hrest⟩ := ih (s.xMBRTUReceiveFSM b)
    refine ⟨buf, pos, st, timer, ?_⟩
    show (s.xMBRTUReceiveFSM b).heard bytes = _
    rw [hrest, hfirst]

/-- What hearing leaves alone. -/
theorem heard_same (s : Slave) (bytes : List UChar) :
    (s.heard bytes).xRxEnable = s.xRxEnable ∧ (s.heard bytes).xTxEnable = s.xTxEnable ∧
      (s.heard bytes).xSlaveOsEvent = s.xSlaveOsEvent ∧ (s.heard bytes).eMBState = s.eMBState := by
  obtain ⟨_, _, _, _, heq⟩ := heard_frame s bytes
  rw [heq]
  exact ⟨rfl, rfl, rfl, rfl⟩

/-- A replay of bytes feeds them to the receive machine. -/
theorem run_byte_eq : ∀ {bytes : List UChar} {s t : Slave},
    run step s (bytes.map .byte) = some t → t = s.heard bytes
  | [], _, _, h => (Option.some.inj h).symm
  | b :: bytes, s, t, h => by
      obtain ⟨s₁, hst, hrun⟩ := Option.bind_eq_some_iff.mp h
      obtain ⟨-, rfl⟩ := byte_cases hst
      have hrest : t = (s.xMBRTUReceiveFSM b).heard bytes := run_byte_eq hrun
      exact hrest

/-- The timer that runs behind a frame reports it. -/
theorem heard_timer (hq : Quiet s) (h1 : 1 ≤ frame.length) (h2 : frame.length ≤ 256) :
    (s.heard frame).step .timer = some (s.received frame) := by
  obtain ⟨t, hbytes, htimer⟩ := run_append_eq_some (run_frame hq h1 h2)
  obtain rfl := run_byte_eq hbytes
  obtain ⟨t', hst, hnil⟩ := Option.bind_eq_some_iff.mp htimer
  cases hnil
  exact hst

/-- A slave that has heard part of a frame waits for its end. -/
theorem heard_not_poll (hq : Quiet s) (bytes : List UChar) (junk : Option MBEventType) :
    (s.heard bytes).step (.poll junk) = none := by
  obtain ⟨-, -, hevent, hstate⟩ := heard_same s bytes
  refine eMBPoll_waits (hstate.trans hq.enabled) ?_ junk
  rw [hevent]
  exact hq.event

/-! ## The polls, with the data of the handlers -/

/-- The check of a frame asks for its execution exactly if it is valid and for the slave. -/
theorem poll_received (h : At s frame .received x) {junk : Option MBEventType}
    (hst : x.step (.poll junk) = some x') :
    (Valid frame ∧ s.ForUs frame → At s frame .execute x') ∧
      (¬ (Valid frame ∧ s.ForUs frame) → At s frame .done x' ∧ x'.app = s.app) := by
  have hnext := step_received h (a := .poll junk) trivial hst
  obtain ⟨hbase, -, honly, hun, hpos⟩ := h
  constructor
  · rintro ⟨hv, hus⟩
    refine hnext.resolve_right fun hdone => hdone.2.2.1 ?_
    let y : Slave := { x with xSlaveOsEvent := (slaveChannel.get x.xSlaveOsEvent).2 }
    have hrec : y.eMBRTUReceive = (.enoerr, y.accepted frame) :=
      receive_valid hun.buf hpos hv
    have hpoll : y.pollFrameReceived = (y.accepted frame).post .execute := by
      rw [pollFrameReceived, hrec]
      exact if_pos ⟨rfl, hus.imp (fun h => h.trans hbase.address.symm) id⟩
    rw [step, eMBPoll_of_only hbase.enabled honly junk] at hst
    obtain rfl : y.pollFrameReceived = x' := Option.some.inj hst
    rw [hpoll]
    exact (slaveChannel.only_post (slaveChannel.not_returns_get _) _).returns
  · intro hno
    rcases hnext with hexec | hdone
    · exact absurd ⟨hexec.2.2.2.2.valid, hexec.2.2.2.2.forUs⟩ hno
    · exact ⟨hdone, (hdone.2.2.2.ignored hno).1⟩

theorem eMBRTUSend_app (x : Slave) (own : UChar) : (x.eMBRTUSend own).2.app = x.app := by
  unfold eMBRTUSend
  split <;> rfl

/-- The execution leaves what the handler leaves. -/
theorem pollExecute_app (x : Slave) : x.pollExecute.app = x.callHandler.app := by
  have hframe := buildErrorFrame_frame x.callHandler
  unfold pollExecute
  dsimp only
  split
  · rw [eMBRTUSend_app, hframe]
  · rfl

/-- The execution runs the handler.  Then a reply is ready, or after a broadcast nothing is. -/
theorem poll_execute (haddr : s.ucMBAddress ≠ mbAddressBroadcast) (h : At s frame .execute x)
    {junk : Option MBEventType} (hst : x.step (.poll junk) = some x') :
    x'.app = s.served frame ∧
      ((s.Replies frame ∧ At s frame (.transmitting 0) x' ∧ x'.pucSndBufferCur = 0) ∨
        (¬ s.Replies frame ∧ At s frame .done x')) := by
  obtain ⟨hbase, hlisten, honly, hun, hch⟩ := h
  rw [step, eMBPoll_of_only hbase.enabled honly junk] at hst
  let y : Slave := { x with xSlaveOsEvent := (slaveChannel.get x.xSlaveOsEvent).2 }
  have hleft : ¬ slaveChannel.Returns y.xSlaveOsEvent := slaveChannel.not_returns_get _
  have hhandle : y.handle (some .execute) = some y.pollExecute := if_pos hch.pointer
  obtain rfl : y.pollExecute = x' := Option.some.inj (hhandle.symm.trans hst)
  have hby : Base s y := ⟨hbase.enabled, hbase.address, hbase.table, hbase.rcv, hbase.timer⟩
  have huy : s.Untouched frame y := ⟨hun.buf, hun.app, hun.sent⟩
  have hcy : s.Checked frame y := ⟨hch.valid, hch.forUs, hch.pointer, hch.address, hch.length⟩
  have hserved : s.served frame = (s.handled frame).app := if_pos ⟨hch.valid, hch.forUs⟩
  refine ⟨?_, ?_⟩
  · rw [pollExecute_app, callHandler_eq hby huy hcy, hserved]
  · rcases hch.forUs with hown | hall
    · refine Or.inl ⟨⟨hch.valid, hown⟩, pollExecute_own hby huy hcy hown haddr hleft, ?_⟩
      have hrcv : y.callHandler.ucRcvAddress ≠ mbAddressBroadcast := by
        show x.ucRcvAddress ≠ mbAddressBroadcast
        rw [hch.address, hown]
        exact haddr
      have hidle : y.callHandler.buildErrorFrame.eRcvState = .idle :=
        (congrArg Slave.eRcvState (buildErrorFrame_frame y.callHandler)).trans hby.rcv
      have hpoll : y.pollExecute = (y.callHandler.buildErrorFrame.eMBRTUSend
          y.callHandler.buildErrorFrame.ucMBAddress).2 := if_pos hrcv
      rw [hpoll, send_eq hidle]
    · have hno : ¬ s.Replies frame := fun hr => haddr (hr.2.symm.trans hall)
      exact Or.inr ⟨hno, pollExecute_broadcast hby ⟨hlisten.rx, hlisten.tx, hlisten.snd⟩ huy hcy
        hall haddr hleft⟩

/-! ## From the last byte of a frame to rest, or to the reply -/

/-- The slave serves a frame it has heard, in at most so many expiries and polls. -/
inductive Serving (s : Slave) (frame : List UChar) : Nat → Slave → Prop where
  | heard : Serving s frame 3 (s.heard frame)
  | received {x : Slave} : At s frame .received x → Serving s frame 2 x
  | execute {x : Slave} : At s frame .execute x → Serving s frame 1 x
  | ready {x : Slave} : s.Replies frame → At s frame (.transmitting 0) x →
      x.pucSndBufferCur = 0 → x.app = s.served frame → Serving s frame 0 x
  | done {x : Slave} : ¬ s.Replies frame → At s frame .done x → x.app = s.served frame →
      Serving s frame 0 x

/-- Each expiry and each poll leads to a later stage. -/
theorem Serving.step (h : Serving s frame n x) (hq : Quiet s) (h1 : 1 ≤ frame.length)
    (h2 : frame.length ≤ 256) (ha : TimerPoll a) (hst : x.step a = some x') :
    ∃ m < n, Serving s frame m x' := by
  have hnoTimer : ∀ {st : Stage}, At s frame st x → x.step .timer = some x' → False := by
    intro st hat ht
    have hoff : x.xTimer = false := by
      cases st with
      | received => exact hat.1.timer
      | execute => exact hat.1.timer
      | transmitting j => exact hat.1.timer
      | sent => exact hat.1.timer
      | done => exact hat.1.timer
    exact absurd ((timer_cases ht).1.symm.trans hoff) (by decide)
  cases a with
  | byte b => exact ha.elim
  | txReady => exact ha.elim
  | timer =>
    cases h with
    | heard =>
      cases (heard_timer hq h1 h2).symm.trans hst
      exact ⟨2, Nat.lt_succ_self 2, .received (stage_received hq frame)⟩
    | received hat => exact (hnoTimer hat hst).elim
    | execute hat => exact (hnoTimer hat hst).elim
    | ready _ hat => exact (hnoTimer hat hst).elim
    | done _ hat => exact (hnoTimer hat hst).elim
  | poll junk =>
    cases h with
    | heard => cases (heard_not_poll hq frame junk).symm.trans hst
    | received hat =>
      obtain ⟨hyes, hno⟩ := poll_received hat hst
      by_cases hus : Valid frame ∧ s.ForUs frame
      · exact ⟨1, Nat.lt_succ_self 1, .execute (hyes hus)⟩
      · obtain ⟨hdone, happ⟩ := hno hus
        have hserved : s.served frame = s.app := if_neg hus
        exact ⟨0, Nat.two_pos, .done (fun hr => hus ⟨hr.1, Or.inl hr.2⟩) hdone
          (happ.trans hserved.symm)⟩
    | execute hat =>
      obtain ⟨happ, ⟨hr, htx, hcur⟩ | ⟨hno, hdone⟩⟩ := poll_execute hq.address hat hst
      · exact ⟨0, Nat.one_pos, .ready hr htx hcur happ⟩
      · exact ⟨0, Nat.one_pos, .done hno hdone happ⟩
    | ready _ hat => cases (eMBPoll_waits hat.1.enabled hat.2.1 junk).symm.trans hst
    | done _ hat => cases (eMBPoll_waits hat.1.enabled hat.2.2.1 junk).symm.trans hst

/-- Before the end an expiry or a poll can be taken. -/
theorem Serving.enabled (h : Serving s frame n x) (hq : Quiet s) (h1 : 1 ≤ frame.length)
    (h2 : frame.length ≤ 256) (hn : 0 < n) : ∃ a, TimerPoll a ∧ ∃ x', x.step a = some x' := by
  cases h with
  | heard => exact ⟨.timer, trivial, _, heard_timer hq h1 h2⟩
  | received hat =>
    exact ⟨.poll none, trivial, _, eMBPoll_of_only hat.1.enabled hat.2.2.1 none⟩
  | execute hat =>
    obtain ⟨hbase, -, honly, -, hch⟩ := hat
    exact ⟨.poll none, trivial, _,
      (eMBPoll_of_only hbase.enabled honly none).trans (if_pos hch.pointer)⟩
  | ready => exact absurd hn (Nat.lt_irrefl 0)
  | done => exact absurd hn (Nat.lt_irrefl 0)

/-- A slave that has served a frame and has nothing to send is at rest. -/
theorem At.resting (h : At s frame .done x) (haddr : s.ucMBAddress ≠ mbAddressBroadcast) :
    Resting x := by
  obtain ⟨hbase, hlisten, hevent, -⟩ := h
  exact ⟨⟨hbase.enabled, hbase.address ▸ haddr, hbase.table, hbase.rcv, hlisten.snd, hevent,
    hlisten.rx, hlisten.tx⟩, hbase.timer⟩

/-- The transmitter is on only where the reply is ready. -/
theorem Serving.ready_of_tx (h : Serving s frame n x) (hq : Quiet s) (htx : x.xTxEnable = true) :
    n = 0 ∧ s.Replies frame ∧ At s frame (.transmitting 0) x ∧ x.pucSndBufferCur = 0 ∧
      x.app = s.served frame := by
  cases h with
  | heard => exact absurd (htx.symm.trans ((heard_same s frame).2.1.trans hq.tx)) (by decide)
  | received hat => exact absurd (htx.symm.trans hat.2.1.tx) (by decide)
  | execute hat => exact absurd (htx.symm.trans hat.2.1.tx) (by decide)
  | ready hr hat hcur happ => exact ⟨rfl, hr, hat, hcur, happ⟩
  | done _ hat => exact absurd (htx.symm.trans hat.2.1.tx) (by decide)

theorem Serving.not_talking (h : Serving s frame n x) (hq : Quiet s) : ¬ Talking x :=
  fun ht => ht.2 (h.ready_of_tx hq ht.1).2.2.2.1

/-- A slave at rest is done with the frame. -/
theorem Serving.done_of_atRest (h : Serving s frame n x) (hq : Quiet s) (h1 : 1 ≤ frame.length)
    (h2 : frame.length ≤ 256) (hrest : AtRest x) :
    n = 0 ∧ ¬ s.Replies frame ∧ Resting x ∧ x.ucMBAddress = s.ucMBAddress ∧
      x.app = s.served frame := by
  cases h with
  | heard =>
    have hon := (timer_cases (heard_timer hq h1 h2)).1
    exact absurd (hon.symm.trans hrest.timer) (by decide)
  | received hat => exact absurd hat.2.2.1.returns hrest.event
  | execute hat => exact absurd hat.2.2.1.returns hrest.event
  | ready _ hat => exact absurd (hat.2.2.tx.symm.trans hrest.tx) (by decide)
  | done hno hat happ => exact ⟨rfl, hno, hat.resting hq.address, hat.1.address, happ⟩

/-- Where no expiry and no poll is left, the reply is ready or the slave is at rest. -/
theorem Serving.ready_or_atRest (h : Serving s frame 0 x)
    (haddr : s.ucMBAddress ≠ mbAddressBroadcast) :
    (s.Replies frame ∧ x.xTxEnable = true) ∨ (¬ s.Replies frame ∧ AtRest x) := by
  cases h with
  | ready hr hat => exact Or.inl ⟨hr, hat.2.2.tx⟩
  | done hno hat => exact Or.inr ⟨hno, (hat.resting haddr).atRest⟩

/-! ## The bytes of the reply -/

theorem transmitFSM_byte (hs : x.eSndState = .xmit) (hc : x.usSndBufferCount ≠ 0) :
    x.xMBRTUTransmitFSM = { x with
      sent := x.sent ++ [x.ucRTUBuf x.pucSndBufferCur]
      pucSndBufferCur := x.pucSndBufferCur + 1
      usSndBufferCount := x.usSndBufferCount - 1 } := by
  simp only [xMBRTUTransmitFSM, hs, if_pos hc, xMBPortSerialPutByte]

theorem transmitFSM_done (hs : x.eSndState = .xmit) (hc : x.usSndBufferCount = 0) :
    x.xMBRTUTransmitFSM = { x.post .frameSent with
      xRxEnable := true
      xTxEnable := false
      eSndState := .idle } := by
  simp only [xMBRTUTransmitFSM, hs, hc, ne_eq, not_true_eq_false, if_false, vMBPortSerialEnable]

/-- A turn of the transmitter puts the next byte of the reply on the line. -/
theorem At.txReady_byte {j : Nat} (haddr : s.ucMBAddress ≠ mbAddressBroadcast)
    (h : At s frame (.transmitting j) x) (hj : j < (s.replyFrame frame).length)
    (hst : x.step .txReady = some x') :
    At s frame (.transmitting (j + 1)) x' ∧ x'.pucSndBufferCur = x.pucSndBufferCur + 1 ∧
      x'.app = x.app ∧ x'.sent.drop x.sent.length = [(s.replyFrame frame)[j]] := by
  have hnext := step_transmitting haddr h (a := .txReady) trivial hst
  obtain ⟨-, rfl⟩ := txReady_cases hst
  obtain ⟨-, hevent, hs⟩ := h
  have hcount := hs.count
  have hc : x.usSndBufferCount ≠ 0 := by omega
  have hrest := hs.rest
  rw [List.drop_eq_getElem_cons hj, Mem.holds_cons] at hrest
  have heq := transmitFSM_byte hs.snd hc
  rw [heq] at hnext ⊢
  refine ⟨?_, rfl, rfl, ?_⟩
  · rcases hnext with ⟨-, hat⟩ | hsent
    · exact hat
    · exact absurd hsent.2.2.1.returns hevent
  · show (x.sent ++ [x.ucRTUBuf x.pucSndBufferCur]).drop x.sent.length = _
    rw [List.drop_left, hrest.1]

/-- Behind the last byte the transmitter is turned off. -/
theorem At.txReady_done {j : Nat} (haddr : s.ucMBAddress ≠ mbAddressBroadcast)
    (h : At s frame (.transmitting j) x) (hj : ¬ j < (s.replyFrame frame).length)
    (hst : x.step .txReady = some x') :
    At s frame .sent x' ∧ x'.app = x.app ∧ x'.sent.drop x.sent.length = [] := by
  have hnext := step_transmitting haddr h (a := .txReady) trivial hst
  obtain ⟨-, rfl⟩ := txReady_cases hst
  obtain ⟨-, -, hs⟩ := h
  have hcount := hs.count
  have hc : x.usSndBufferCount = 0 := by omega
  refine ⟨hnext.resolve_left fun hmore => hj hmore.1, ?_⟩
  rw [transmitFSM_done hs.snd hc]
  exact ⟨rfl, List.drop_length⟩

/-! ## Back to rest -/

/-- A slave that comes to rest with these data in at most so many expiries and polls, and sends
nothing on the way. -/
inductive Settling (own : UChar) (app : SlaveApp) : Nat → Slave → Prop where
  | serving {n : Nat} {s x : Slave} {frame : List UChar} : Quiet s → 1 ≤ frame.length →
      frame.length ≤ 256 → s.ucMBAddress = own → ¬ s.Replies frame → s.served frame = app →
      Serving s frame n x → Settling own app n x
  | sent {s x : Slave} {frame : List UChar} : s.ucMBAddress ≠ mbAddressBroadcast →
      s.ucMBAddress = own → At s frame .sent x → x.app = app → Settling own app 1 x
  | rest {x : Slave} : Resting x → x.ucMBAddress = own → x.app = app → Settling own app 0 x

section Settling

variable {own : UChar} {app : SlaveApp}

theorem Resting.not_timerPoll (h : Resting x) (ha : TimerPoll a) : x.step a = none := by
  cases a with
  | byte b => exact ha.elim
  | txReady => exact ha.elim
  | timer =>
    rw [step, h.timer]
    rfl
  | poll junk => exact eMBPoll_waits h.quiet.enabled h.quiet.event junk

theorem Settling.step (h : Settling own app n x) (ha : TimerPoll a) (hst : x.step a = some x') :
    ∃ m < n, Settling own app m x' := by
  cases h with
  | serving hq h1 h2 hown hno happ hs =>
    obtain ⟨m, hm, hs'⟩ := hs.step hq h1 h2 ha hst
    exact ⟨m, hm, .serving hq h1 h2 hown hno happ hs'⟩
  | sent haddr hown hat happ =>
    cases a with
    | byte b => exact ha.elim
    | txReady => exact ha.elim
    | timer => exact absurd ((timer_cases hst).1.symm.trans hat.1.timer) (by decide)
    | poll junk =>
      have hdone := step_sent hat (a := .poll junk) trivial hst
      rw [Slave.step, eMBPoll_of_only hat.1.enabled hat.2.2.1 junk] at hst
      cases hst
      exact ⟨0, Nat.one_pos, .rest (hdone.resting haddr) (hdone.1.address.trans hown) happ⟩
  | rest hr => cases (hr.not_timerPoll ha).symm.trans hst

theorem Settling.enabled (h : Settling own app n x) (hn : 0 < n) :
    ∃ a, TimerPoll a ∧ ∃ x', x.step a = some x' := by
  cases h with
  | serving hq h1 h2 _ _ _ hs => exact hs.enabled hq h1 h2 hn
  | sent _ _ hat =>
    exact ⟨.poll none, trivial, _, eMBPoll_of_only hat.1.enabled hat.2.2.1 none⟩
  | rest => exact absurd hn (Nat.lt_irrefl 0)

theorem Settling.tx (h : Settling own app n x) : x.xTxEnable = false := by
  cases h with
  | serving hq _ _ _ hno _ hs =>
    by_contra htx
    exact hno (hs.ready_of_tx hq (Bool.not_eq_false _ ▸ htx)).2.1
  | sent _ _ hat => exact hat.2.1.tx
  | rest hr => exact hr.quiet.tx

/-- It is then at rest. -/
theorem Settling.resting (h : Settling own app 0 x) :
    Resting x ∧ x.ucMBAddress = own ∧ x.app = app := by
  cases h with
  | serving hq h1 h2 hown hno happ hs =>
    rcases hs.ready_or_atRest hq.address with ⟨hr, -⟩ | ⟨-, hrest⟩
    · exact absurd hr hno
    · obtain ⟨-, -, hrest, haddr, hserved⟩ := hs.done_of_atRest hq h1 h2 hrest
      exact ⟨hrest, haddr.trans hown, hserved.trans happ⟩
  | rest hr hown happ => exact ⟨hr, hown, happ⟩

/-- A slave at rest has no step left. -/
theorem Settling.eq_zero (h : Settling own app n x) (hrest : AtRest x) : n = 0 := by
  cases h with
  | serving hq h1 h2 _ _ _ hs => exact (hs.done_of_atRest hq h1 h2 hrest).1
  | sent _ _ hat => exact absurd hat.2.2.1.returns hrest.event
  | rest => rfl

end Settling

end Slave

end FreeModbus
