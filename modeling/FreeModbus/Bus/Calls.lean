import FreeModbus.Bus.Exchange
import FreeModbus.Lib.Plant

/-!
# One call on the bus

Between two calls the bus is `Calm`.  A call leads from there to the next such state
(`Calm.leadsTo`), and what it makes of the data of all parties is one request to a
`Plant`: the tables of the slaves and the mirrors of the master.

What the slaves reply is what the data model answers, so the exchange with a slave is
`Serves.done` or `Serves.refused`, the response timeout `Serves.absent`, and a broadcast
one of the last two.  A call with arguments that are refused makes no request.
-/

namespace FreeModbus

open ByteMemory DataModel EventFlags EventFlags.Channel Transition

/-! ## What a slave replies -/

namespace Slave

variable {s : Slave} {a : UChar} {r : Request} {reply : DataModel.Reply} {σ : Store slaveShape}

theorem valid_rtuFrame (a : UChar) (r : Request) : Valid (rtuFrame a r.pdu) := by
  have hlen := rtuFrame_length a r.pdu
  obtain ⟨l, hl⟩ := r.pdu_cons
  rw [hl, List.length_cons] at hlen
  rw [hl]
  exact ⟨by omega, _, rfl⟩

/-- The handler answers a request on the line as the data model does. -/
theorem handled_answer (hwf : WellFormed r) :
    (s.handled (rtuFrame a r.pdu)).answer = answerOf s.app.store r := by
  have hframe := holds_rtuFrame (Mem.holds_write (rtuFrame a r.pdu) s.ucRTUBuf 0)
  have hlen : (rtuFrame a r.pdu).length - 3 = r.pdu.length := by
    rw [rtuFrame_length, Nat.add_sub_cancel]
  rw [handled, hlen]
  exact slaveDispatch_answer hwf (Mem.holds_at.mpr hframe.2)

/-- A request that the data model serves is replied to, and the store is the one of the model. -/
theorem replies_served (hwf : WellFormed r) (hexec : s.app.store.exec r = some (reply, σ)) :
    s.replyPdu (rtuFrame a r.pdu) = reply.pdu r ∧
      (s.handled (rtuFrame a r.pdu)).app.store = σ := by
  have hanswer := handled_answer (s := s) (a := a) hwf
  rw [answerOf_some hexec] at hanswer
  obtain ⟨hst, hstore, hreply⟩ := FuncResult.answer_eq hanswer
  exact ⟨(if_pos hst).trans hreply, hstore⟩

/-- A request outside the maps is refused with exception 2, and the store is as it was. -/
theorem replies_refused (hwf : WellFormed r) (hexec : s.app.store.exec r = none) :
    s.replyPdu (rtuFrame a r.pdu) = [r.code ||| mbFuncError, 2] ∧
      (s.handled (rtuFrame a r.pdu)).app.store = s.app.store := by
  have hanswer := handled_answer (s := s) (a := a) hwf
  rw [answerOf, hexec] at hanswer
  have hst : (s.handled (rtuFrame a r.pdu)).eStatus = .illegalDataAddress :=
    congrArg Answer.exception hanswer
  have hfunc : functionOf (rtuFrame a r.pdu) = r.code := by
    obtain ⟨l, hl⟩ := r.pdu_cons
    rw [hl]
    rfl
  refine ⟨?_, congrArg Answer.store hanswer⟩
  rw [replyPdu, hst, hfunc]
  rfl

/-- The code of a refusal has bit 7 set. -/
theorem error_code (r : Request) : (r.code ||| mbFuncError) >>> 7 ≠ 0 := by
  cases r <;> simp only [Request.code] <;> decide

/-- A slave executes what is for it, and leaves the rest alone. -/
theorem served_store (hwf : WellFormed r) : (s.served (rtuFrame a r.pdu)).store =
    if a = s.ucMBAddress ∨ a = mbAddressBroadcast then s.app.store.after r else s.app.store := by
  have hus : Valid (rtuFrame a r.pdu) ∧ s.ForUs (rtuFrame a r.pdu) ↔
      a = s.ucMBAddress ∨ a = mbAddressBroadcast :=
    ⟨fun h => h.2, fun h => ⟨valid_rtuFrame a r, h⟩⟩
  by_cases h : a = s.ucMBAddress ∨ a = mbAddressBroadcast
  · rw [served, if_pos (hus.mpr h), if_pos h, ← answerOf_store, ← handled_answer hwf]
    rfl
  · rw [served, if_neg (mt hus.mp h), if_neg h]

end Slave

/-- A request that is served fits. -/
theorem WellFormed.fits {r : Request} (hwf : WellFormed r) {σ σ' : Store slaveShape}
    {reply : DataModel.Reply} (hexec : σ.exec r = some (reply, σ')) : Fits r := by
  cases r with
  | readCoils a n => exact ⟨hwf.1, (of_exec hexec).1⟩
  | readDiscretes a n => exact ⟨hwf.1, (of_exec hexec).1⟩
  | readHoldings a n => exact ⟨hwf.1, (of_exec hexec).1⟩
  | readInputs a n => exact ⟨hwf.1, (of_exec hexec).1⟩
  | writeCoil a v => exact (of_exec hexec).1
  | writeHolding a v => exact (of_exec hexec).1
  | writeCoils a vs => exact ⟨hwf.1, (of_exec hexec).1⟩
  | writeHoldings a vs => exact ⟨hwf.1, (of_exec hexec).1⟩
  | readWriteHoldings ra rn wa vs => exact ⟨⟨hwf.1.1, hwf.2.2.2⟩, hwf.2.1.1, hwf.2.2.1⟩

instance : DecidablePred Fits
  | .readCoils a n =>
      inferInstanceAs (Decidable (1 ≤ n.toNat ∧ Inside slaveShape.coils a n.toNat))
  | .readDiscretes a n =>
      inferInstanceAs (Decidable (1 ≤ n.toNat ∧ Inside slaveShape.discretes a n.toNat))
  | .readHoldings a n =>
      inferInstanceAs (Decidable (1 ≤ n.toNat ∧ Inside slaveShape.holdings a n.toNat))
  | .readInputs a n =>
      inferInstanceAs (Decidable (1 ≤ n.toNat ∧ Inside slaveShape.inputs a n.toNat))
  | .writeCoil a _ => inferInstanceAs (Decidable (Inside slaveShape.coils a 1))
  | .writeHolding a _ => inferInstanceAs (Decidable (Inside slaveShape.holdings a 1))
  | .writeCoils a vs =>
      inferInstanceAs (Decidable (1 ≤ vs.length ∧ Inside slaveShape.coils a vs.length))
  | .writeHoldings a vs =>
      inferInstanceAs (Decidable (1 ≤ vs.length ∧ Inside slaveShape.holdings a vs.length))
  | .readWriteHoldings ra rn wa vs =>
      inferInstanceAs (Decidable ((1 ≤ rn.toNat ∧ Inside slaveShape.holdings ra rn.toNat) ∧
        (1 ≤ vs.length ∧ Inside slaveShape.holdings wa vs.length)))

/-- A request that does not fit is refused. -/
theorem WellFormed.fits_iff {r : Request} (hwf : WellFormed r) (σ : Store slaveShape) :
    σ.exec r = none ↔ ¬ Fits r := by
  constructor
  · intro hnone hfits
    obtain ⟨reply, σ', hexec⟩ := hfits.exec σ
    cases hnone.symm.trans hexec
  · intro hno
    cases hexec : σ.exec r with
    | none => rfl
    | some result => exact absurd (hwf.fits hexec) hno

/-! ## Requests of a client -/

/-- The code of a call by how its request ended. -/
def endingCode : Ending → MBMasterReqErrCode
  | .done => .noErr
  | .refused => .exeFun
  | .absent => .timedout
  | .rejected => .illArg

namespace MasterRequest

variable {q : MasterRequest}

/-- What a call asks of the slaves, unless its arguments are refused. -/
def asked (q : MasterRequest) : Option (UChar × Request) :=
  if q.illArg then none else some (q.ucSndAddr, q.call.request)

/-- The arguments are refused, or they are those of a request that fits in the send buffer and that
the slaves can serve.  What is broadcast is a write. -/
def Sound (q : MasterRequest) : Prop :=
  q.illArg = true ∨ q.Fits ∧ q.call.Proper ∧ WellFormed q.call.request ∧
    (q.ucSndAddr = mbAddressBroadcast → q.call.BroadcastWrite)

/-- The code that a call of this request returns, on a bus of slaves with these addresses. -/
def codeOn {ι : Type} [Fintype ι] (address : ι → UChar) (q : MasterRequest) : MBMasterReqErrCode :=
  if q.illArg then .illArg
  else if q.ucSndAddr ≠ mbAddressBroadcast ∧ ∀ j, address j ≠ q.ucSndAddr then .timedout
  else if FreeModbus.Fits q.call.request then .noErr
  else .exeFun

/-- The plant determines the code. -/
theorem codeOn_of_serves {ι : Type} [Fintype ι] [DecidableEq ι] {address : ι → UChar}
    (hsound : q.Sound) {P P' : Plant ι UChar slaveShape masterShape} {o : Ending}
    (hserves : Serves address mbAddressBroadcast P q.asked o P') :
    endingCode o = q.codeOn address := by
  unfold codeOn
  unfold asked at hserves
  by_cases hq : q.illArg = true
  · rw [if_pos hq] at hserves ⊢
    cases hserves
    rfl
  · obtain ⟨-, -, hwf, -⟩ := hsound.resolve_left hq
    rw [if_neg hq] at hserves ⊢
    generalize haddr : q.ucSndAddr = k at hserves ⊢
    generalize q.call.request = r at hwf hserves ⊢
    cases hserves with
    | absent hne haway => rw [if_pos ⟨hne, haway⟩]; rfl
    | refused hexec =>
      rw [if_neg fun h => h.2 _ rfl, if_neg ((hwf.fits_iff _).mp hexec)]
      rfl
    | done hexec =>
      rw [if_neg fun h => h.2 _ rfl, if_pos (hwf.fits hexec)]
      rfl
    | nowhere _ hmirror =>
      rw [if_neg fun h => h.1 rfl, if_neg ((hwf.fits_iff _).mp (hmirror 0))]
      rfl
    | everywhere _ hmirror =>
      rw [if_neg fun h => h.1 rfl, if_pos (hwf.fits (hmirror 0))]
      rfl

theorem frame_eq (hproper : q.call.Proper) : q.frame = rtuFrame q.ucSndAddr q.call.request.pdu := by
  rw [← MasterCall.pdu_eq hproper]
  rfl

end MasterRequest

/-- A write outside the map is refused by every row. -/
theorem MasterCall.BroadcastWrite.exec_none {c : MasterCall} (hw : c.BroadcastWrite)
    (hout : ¬ c.InMap) (row : Store masterShape) : row.exec c.request = none := by
  cases c with
  | writeCoil a v => exact if_neg hout
  | writeHoldingRegister a v => exact if_neg hout
  | writeMultipleCoils a n buf =>
    refine if_neg ?_
    rw [List.length_map, List.length_range]
    exact hout
  | writeMultipleHoldingRegister a n buf =>
    refine if_neg ?_
    rw [List.length_map, List.length_range]
    exact hout
  | _ => exact hw.elim

namespace Bus

variable {ι : Type}

/-- The addresses of the slaves. -/
def address (b : Bus ι) (j : ι) : UChar := (b.slaves j).ucMBAddress

/-- The bus between two calls: `n` calls were made and have returned, the master is idle and the
slaves are at rest.  They have addresses of their own. -/
structure Calm (n : Nat) (b : Bus ι) : Prop where
  control : b.master.Control (.pend [])
  results : ∀ r, ¬ resultChannel.Pending b.master.xMasterOsEvent r
  free : 0 < b.master.xMasterRunRes
  made : ∀ j < n, (b.master.calls j).Returned
  unmade : ∀ j ≥ n, b.master.calls j = .idle
  resting : ∀ j, (b.slaves j).Resting
  apart : Function.Injective b.address

/-- The tables of the slaves and the mirrors of the master. -/
abbrev Tables (ι : Type) := Plant ι UChar slaveShape masterShape

/-- The bus holds what the plant does.  The master has mirrors of the addresses from 1 to 16. -/
structure Holds (b : Bus ι) (P : Tables ι) : Prop where
  devices : ∀ j, (b.slaves j).app.store = P.devices j
  mirror : ∀ k : UChar, 1 ≤ k.toNat → k.toNat ≤ mbMasterTotalSlaveNum →
    b.master.app.row k = P.mirror k

/-- The tables on a bus. -/
def tables (b : Bus ι) : Tables ι where
  devices := fun j => (b.slaves j).app.store
  mirror := b.master.app.row

theorem holds_tables (b : Bus ι) : b.Holds b.tables := ⟨fun _ => rfl, fun _ _ _ => rfl⟩

/-- What one call makes of a bus that holds `P`: the slaves keep their addresses, the calls before
it have returned what they had, and the call returns the code of a request to the plant. -/
structure Follows [DecidableEq ι] (q : MasterRequest) (n : Nat) (b : Bus ι) (P : Tables ι)
    (b' : Bus ι) : Prop where
  address : b'.address = b.address
  earlier : ∀ j < n, b'.master.calls j = b.master.calls j
  serves : ∃ o P', b'.master.calls n = .returned q (endingCode o) ∧
    Serves b.address mbAddressBroadcast P q.asked o P' ∧ b'.Holds P'

variable [DecidableEq ι] {b b' : Bus ι} {client : Nat → MasterRequest} {n : Nat} {P : Tables ι}
  {q : MasterRequest}

/-! ## A call that is refused -/

omit [DecidableEq ι] in
theorem Calm.ordered (h : b.Calm n) : b.master.Ordered n b.master.calls :=
  ⟨fun j hj => ⟨rfl, h.made j hj⟩, fun j hj => h.unmade j (Nat.le_of_lt hj)⟩

omit [DecidableEq ι] in
theorem Calm.oneTalker (h : b.Calm n) : b.OneTalker :=
  oneTalker_of_off fun j => (h.resting j).quiet.tx

omit [DecidableEq ι] in
theorem Calm.turn (h : b.Calm n) : b.Turn client n (client n) :=
  ⟨rfl, h.made, fun j => (h.resting j).atRest⟩

/-- The bus after call `n` was refused. -/
def refused (b : Bus ι) (n : Nat) (q : MasterRequest) : Bus ι :=
  { b with master := b.master.setCall n (.returned q .illArg) }

omit [DecidableEq ι] in
theorem Calm.refuse_eq (h : b.Calm n) (hq : q.illArg = true) :
    b.master.step (.refuse n q) = some (b.refused n q).master := by
  show b.master.refuse n q = _
  unfold Master.refuse
  rw [h.unmade n (Nat.le_refl n)]
  exact if_pos hq

omit [DecidableEq ι] in
/-- The only step of the master is the refusal. -/
theorem Calm.only_refuse (h : b.Calm n) (hq : q.illArg = true) {a : MasterAction} {s' : Master}
    (ha : a.By n q) (hst : b.master.step a = some s') : a = .refuse n q := by
  have hcall := h.unmade n (Nat.le_refl n)
  cases a with
  | byte c => exact ha.elim
  | timer => cases (h.control.not_timer rfl).symm.trans hst
  | txReady => cases (h.control.not_txReady rfl).symm.trans hst
  | poll junk => cases (h.control.not_poll rfl).symm.trans hst
  | finish j => cases (Master.not_finish h.results j).symm.trans hst
  | refuse j q' =>
    obtain ⟨rfl, rfl⟩ := ha
    rfl
  | take j q' =>
    obtain ⟨-, rfl⟩ := ha
    cases hq.symm.trans (Master.take_cases hst).2.1
  | fill j =>
    obtain rfl : j = n := ha
    obtain ⟨_, hc, -⟩ := Master.fill_cases hst
    cases hcall.symm.trans hc
  | submit j =>
    obtain rfl : j = n := ha
    obtain ⟨_, hc, -⟩ := Master.submit_cases hst
    cases hcall.symm.trans hc

/-- A call with arguments that are refused returns at once, and nothing else happens. -/
theorem Calm.leadsTo_refused (h : b.Calm n) (hq : (client n).illArg = true) :
    LeadsTo step (Timely client) OneTalker (· = b.refused n (client n)) b := by
  refine .later h.oneTalker ?_ fun a b' hok hst => .now ?_
  · obtain ⟨b', hb'⟩ := step_of_master (h.refuse_eq hq)
    exact ⟨.master (.refuse n (client n)), b', h.turn, hb'⟩
  · cases a with
    | slave j a =>
      obtain ⟨x, hx, -⟩ := slave_of_step hst
      cases (resting_still (h.resting j) hok).symm.trans hx
    | master a =>
      obtain ⟨hm, -⟩ := master_of_step hst
      have hno : ¬ (b.master.calls n).Returned := by
        rw [h.unmade n (Nat.le_refl n)]
        exact id
      have hby := by_of_timely h.ordered rfl hok hm fun hr => hno hr.1
      obtain rfl := h.only_refuse hq hby hm
      obtain ⟨-, hslaves⟩ := step_master hby (fun h => by cases h) hst
      rw [h.refuse_eq hq] at hm
      obtain ⟨master, slaves⟩ := b'
      cases hm
      cases hslaves
      rfl

omit [DecidableEq ι] in
/-- The bus is calm again, with one more call. -/
theorem Calm.refused (h : b.Calm n) (q : MasterRequest) : (b.refused n q).Calm (n + 1) where
  control :=
    let hc := h.control
    ⟨hc.state, hc.events, hc.receiver, hc.snd, hc.rx, hc.tx, hc.timer⟩
  results := h.results
  free := h.free
  made j hj := by
    show ((b.master.setCall n (.returned q .illArg)).calls j).Returned
    rcases Nat.lt_succ_iff_lt_or_eq.mp hj with hlt | rfl
    · rw [Master.setCall_other _ _ (Nat.ne_of_lt hlt)]
      exact h.made j hlt
    · rw [Master.setCall_same]
      trivial
  unmade j hj :=
    (Master.setCall_other _ _ (Nat.ne_of_gt hj)).trans (h.unmade j (Nat.le_of_succ_le hj))
  resting := h.resting
  apart := h.apart

/-! ## A call that is not refused -/

/-- The request of call `n` on a calm bus. -/
def ask (b : Bus ι) (n : Nat) (q : MasterRequest) : Ask ι where
  slaves := b.slaves
  call := n
  request := q
  res := b.master.xMasterRunRes - 1
  mirror := b.master.app
  calls := b.master.calls

/-- The call returns the code of a request to the plant, and the plant is then what the slaves and
the mirror hold. -/
def Outcomes (b : Bus ι) (P : Tables ι) (q : MasterRequest) (code : MBMasterReqErrCode)
    (app : MasterApp) : Prop :=
  ∃ o P', code = endingCode o ∧ Serves b.address mbAddressBroadcast P q.asked o P' ∧
    (∀ j, ((b.slaves j).served q.frame).store = P'.devices j) ∧
    ∀ k : UChar, 1 ≤ k.toNat → k.toNat ≤ mbMasterTotalSlaveNum → app.row k = P'.mirror k

omit [DecidableEq ι] in
theorem served_of_not_for {j : ι} (hwf : WellFormed q.call.request)
    (hframe : q.frame = rtuFrame q.ucSndAddr q.call.request.pdu)
    (hno : q.ucSndAddr ≠ b.address j) (hcast : q.ucSndAddr ≠ mbAddressBroadcast) :
    ((b.slaves j).served q.frame).store = (b.slaves j).app.store := by
  rw [hframe, Slave.served_store hwf, if_neg fun h => h.elim hno hcast]

/-- A reply meets the plant. -/
theorem Calm.replied (h : b.Calm n) (hP : b.Holds P) (hq : q.illArg = false)
    (hproper : q.call.Proper) (hwf : WellFormed q.call.request) {t : ι}
    (hr : (b.slaves t).Replies q.frame) :
    Master.Brings q b.master.app ((b.slaves t).replyPdu q.frame) (b.Outcomes P q) := by
  have hframe := MasterRequest.frame_eq hproper
  have haddr : q.ucSndAddr = b.address t := hr.2
  have hcast : q.ucSndAddr ≠ mbAddressBroadcast := by
    rw [haddr]
    exact (h.resting t).quiet.address
  have hasked : q.asked = some (b.address t, q.call.request) := by
    rw [MasterRequest.asked, if_neg (Bool.eq_false_iff.mp hq), haddr]
  have hothers : ∀ j, j ≠ t →
      ((b.slaves j).served q.frame).store = (b.slaves j).app.store := fun j hj =>
    served_of_not_for hwf hframe (fun heq => hj (h.apart (heq.symm.trans haddr))) hcast
  have htarget : ((b.slaves t).served q.frame).store =
      (b.slaves t).app.store.after q.call.request := by
    rw [hframe, Slave.served_store hwf]
    exact if_pos (Or.inl haddr)
  cases hexec : (b.slaves t).app.store.exec q.call.request with
  | none =>
    obtain ⟨hpdu, -⟩ := Slave.replies_refused (a := q.ucSndAddr) hwf hexec
    rw [← hframe] at hpdu
    rw [hpdu]
    intro s hgot
    obtain ⟨hex, happ⟩ := Master.brings_exception (Slave.error_code _) (by decide) s hgot
    have hrefuses : (P.devices t).exec q.call.request = none := hP.devices t ▸ hexec
    refine ⟨.refused, P, hex, hasked ▸ .refused hrefuses, fun j => ?_, ?_⟩
    · rw [← hP.devices j]
      by_cases hj : j = t
      · rw [hj, htarget, Store.after, hexec]
      · exact hothers j hj
    · rw [happ]
      exact hP.mirror
  | some result =>
    obtain ⟨reply, σ⟩ := result
    obtain ⟨hpdu, -⟩ := Slave.replies_served (a := q.ucSndAddr) hwf hexec
    rw [← hframe] at hpdu
    rw [hpdu]
    intro s hgot
    obtain ⟨hex, hrows⟩ := Master.brings_reply hproper (hwf.fits hexec) hexec s hgot
    have hserves : (P.devices t).exec q.call.request = some (reply, σ) := hP.devices t ▸ hexec
    have hdone : Serves b.address mbAddressBroadcast P _ _ _ := .done hserves
    rw [← hasked] at hdone
    refine ⟨.done, _, hex, hdone, fun j => ?_, fun k h1 h16 => ?_⟩
    · show _ = Function.update P.devices t σ j
      by_cases hj : j = t
      · rw [hj, Function.update_self, htarget, after_of_exec hexec]
      · rw [Function.update_of_ne hj, ← hP.devices j]
        exact hothers j hj
    · show _ = Function.update P.mirror (b.address t) _ k
      rw [hrows k, haddr]
      by_cases hk : k = b.address t
      · rw [if_pos hk, hk, Function.update_self, hP.mirror _ (hk ▸ h1) (hk ▸ h16)]
      · rw [if_neg hk, Function.update_of_ne hk, hP.mirror k h1 h16]

/-- Where no slave has the address, nothing changes. -/
theorem Calm.absent (hP : b.Holds P) (hq : q.illArg = false) (hproper : q.call.Proper)
    (hwf : WellFormed q.call.request) (hnone : ∀ t, ¬ (b.slaves t).Replies q.frame)
    (hcast : q.ucSndAddr ≠ mbAddressBroadcast) : b.Outcomes P q .timedout b.master.app := by
  have hframe := MasterRequest.frame_eq hproper
  have haway : ∀ j, b.address j ≠ q.ucSndAddr := fun j heq =>
    hnone j (hframe ▸ ⟨Slave.valid_rtuFrame _ _, heq.symm⟩)
  have hasked : q.asked = some (q.ucSndAddr, q.call.request) := if_neg (Bool.eq_false_iff.mp hq)
  refine ⟨.absent, P, rfl, hasked ▸ .absent hcast haway, fun j => ?_, hP.mirror⟩
  rw [← hP.devices j]
  exact served_of_not_for hwf hframe (haway j).symm hcast

/-- A broadcast is executed by every slave and in every row. -/
theorem Calm.broadcast (hP : b.Holds P) (hq : q.illArg = false) (hproper : q.call.Proper)
    (hwf : WellFormed q.call.request) (hcast : q.ucSndAddr = mbAddressBroadcast)
    (hw : q.call.BroadcastWrite) {app : MasterApp} (hrows : q.call.Broadcasts b.master.app app) :
    b.Outcomes P q (if q.call.InMap then .noErr else .exeFun) app := by
  have hframe := MasterRequest.frame_eq hproper
  have hasked : q.asked = some (mbAddressBroadcast, q.call.request) := by
    rw [MasterRequest.asked, if_neg (Bool.eq_false_iff.mp hq), hcast]
  have hserved : ∀ j, ((b.slaves j).served q.frame).store =
      (P.devices j).after q.call.request := by
    intro j
    rw [hframe, Slave.served_store hwf, if_pos (Or.inr hcast), hP.devices j]
  unfold MasterCall.Broadcasts at hrows
  by_cases hin : q.call.InMap
  · rw [if_pos hin] at hrows ⊢
    -- The maps of a slave have the sizes of those of a row.
    have hdevices := fun j => hw.exec hin (P.devices j)
    have hmirror := fun k => hw.exec hin (P.mirror k)
    have hdone : Serves b.address mbAddressBroadcast P _ _ _ := .everywhere hdevices hmirror
    rw [← hasked] at hdone
    refine ⟨.done, _, rfl, hdone, hserved, fun k h1 h16 => ?_⟩
    show _ = (P.mirror k).after q.call.request
    rw [← hP.mirror k h1 h16, after_of_exec (hrows k h1 h16)]
  · rw [if_neg hin] at hrows ⊢
    have hdevices : ∀ j, (P.devices j).exec q.call.request = none := fun j =>
      hw.exec_none hin (P.devices j)
    have hmirror := fun k => hw.exec_none hin (P.mirror k)
    refine ⟨.refused, P, rfl, hasked ▸ .nowhere hdevices hmirror, fun j => ?_, hrows ▸ hP.mirror⟩
    rw [hserved j, Store.after, hdevices j]

/-- The request comes back as the plant says. -/
theorem Calm.promises (h : b.Calm n) (hP : b.Holds P) (hq : q.illArg = false)
    (hproper : q.call.Proper) (hwf : WellFormed q.call.request)
    (hall : q.ucSndAddr = mbAddressBroadcast → q.call.BroadcastWrite) :
    (b.ask n q).Promises (b.Outcomes P q) where
  replied _ hr := h.replied hP hq hproper hwf hr
  absent hnone hcast := Calm.absent hP hq hproper hwf hnone hcast
  all hcast :=
    ⟨hall hcast, fun _ hrows => Calm.broadcast hP hq hproper hwf hcast (hall hcast) hrows⟩

/-- Behind the exchange the bus is calm again and has followed the plant. -/
theorem Calm.concluded [Fintype ι] (h : b.Calm n)
    (hover : (b.ask n q).Closing (b.Outcomes P q) 0 b') :
    b'.Calm (n + 1) ∧ b.Follows q n P b' := by
  obtain ⟨km, rank, hm, hord, hslaves, hzero⟩ := hover
  obtain ⟨rfl, hsum⟩ := Nat.add_eq_zero_iff.mp hzero.symm
  have hrest : ∀ j, (b'.slaves j).Resting ∧ (b'.slaves j).ucMBAddress = b.address j ∧
      (b'.slaves j).app = (b.slaves j).served q.frame := fun j =>
    Slave.Settling.resting (Finset.sum_eq_zero_iff.mp hsum j (Finset.mem_univ j) ▸ hslaves j)
  have haddress : b'.address = b.address := funext fun j => (hrest j).2.1
  cases hm with
  | returned hcall hres hresults hcontrol hout =>
    obtain ⟨o, P', rfl, hserves, hdevices, hmirror⟩ := hout
    refine ⟨⟨hcontrol, hresults, ?_, fun j hj => ?_, hord.after, fun j => (hrest j).1,
      haddress ▸ h.apart⟩, haddress, fun j hj => (hord.before j hj).1, o, P', hcall, hserves,
      fun j => ?_, hmirror⟩
    · rw [hres]
      exact Nat.succ_pos _
    · rcases Nat.lt_succ_iff_lt_or_eq.mp hj with hlt | rfl
      · obtain ⟨hsame, hreturned⟩ := hord.before j hlt
        exact hsame ▸ hreturned
      · have hcall : b'.master.calls j = _ := hcall
        rw [hcall]
        trivial
    · rw [(hrest j).2.2]
      exact hdevices j

/-- One call. -/
theorem Calm.leadsTo [Fintype ι] (h : b.Calm n) (hsound : (client n).Sound) (hP : b.Holds P) :
    LeadsTo step (Timely client) OneTalker
      (fun b' => b'.Calm (n + 1) ∧ b.Follows (client n) n P b') b := by
  cases hq : (client n).illArg with
  | true =>
    refine (h.leadsTo_refused hq).mono ?_
    rintro _ rfl
    refine ⟨h.refused _, rfl, fun j hj => Master.setCall_other _ _ (Nat.ne_of_lt hj), .rejected, P,
      Master.setCall_same _ _ _, ?_, hP.devices, hP.mirror⟩
    rw [MasterRequest.asked, if_pos hq]
    exact .rejected
  | false =>
    obtain ⟨hfits, hproper, hwf, hall⟩ :=
      hsound.resolve_left fun ht => absurd (hq.symm.trans ht) (by decide)
    have hadmitted : (b.ask n (client n)).Admitted client :=
      ⟨rfl, hq, hfits, h.resting, fun _ _ heq => h.apart heq⟩
    have hidle : b.master.Underway n .idle (b.master.xMasterRunRes - 1 + 1) b.master.app :=
      ⟨h.unmade n (Nat.le_refl n), (Nat.sub_add_cancel h.free).symm, rfl, h.results⟩
    have hstart : (b.ask n (client n)).Preparing 4 b := ⟨.idle hidle h.control, h.ordered, rfl⟩
    have hover := Ask.exchange_leadsTo hadmitted (h.promises hP hq hproper hwf hall) hstart
    exact hover.mono fun _ => h.concluded

end Bus

end FreeModbus
