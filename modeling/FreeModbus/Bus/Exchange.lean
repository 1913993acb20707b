import FreeModbus.Bus.Line

/-!
# One request on the bus

A request is made on a bus where the master is idle and the slaves are at rest.  The
run to its return has five phases, each with a rank that every step lowers:

* preparing: the call takes the run resource and posts its request.
* sending: the frame of the request goes out and every slave hears it.
* serving: the slaves check the frame, and those that it is for execute it.
* replying: the slave that it is for alone sends its reply, and everybody hears it.
* closing: the master handles the reply and the call returns, and the slaves come to rest.

A broadcast, and a request that no slave has the address of, skip the fourth.  The
phases are chained in `exchange_leadsTo`.
-/

namespace FreeModbus

open ByteMemory EventFlags EventFlags.Channel Transition

/-! ## The order of the calls -/

namespace Master

variable {s s' : Master} {i n k : Nat} {q : MasterRequest} {app : MasterApp} {a : MasterAction}
  {c₀ : Nat → CallState}

/-- The calls before `i` have returned, as `c₀` says, and those behind it were not made. -/
structure Ordered (i : Nat) (c₀ : Nat → CallState) (s : Master) : Prop where
  before : ∀ j < i, s.calls j = c₀ j ∧ (c₀ j).Returned
  after : ∀ j > i, s.calls j = .idle

theorem Ordered.step (h : Ordered i c₀ s) (ha : a.By i q) (hst : s.step a = some s') :
    Ordered i c₀ s' where
  before j hj := by
    rw [step_others ha hst (Nat.ne_of_lt hj)]
    exact h.before j hj
  after j hj := by
    rw [step_others ha hst (Nat.ne_of_gt hj)]
    exact h.after j hj

/-- A call other than `i` has no step of its own. -/
theorem Ordered.other (h : Ordered i c₀ s) {j : Nat} (hj : j ≠ i) :
    s.step (.fill j) = none ∧ s.step (.submit j) = none ∧ s.step (.finish j) = none := by
  have hstill : s.calls j = .idle ∨ (s.calls j).Returned := by
    rcases Nat.lt_or_gt_of_ne hj with hlt | hgt
    · obtain ⟨heq, hret⟩ := h.before j hlt
      exact Or.inr (heq ▸ hret)
    · exact Or.inl (h.after j hgt)
  have hcalls : ∀ c : CallState, c = .idle ∨ c.Returned →
      (∀ q', c ≠ .taken q') ∧ (∀ q', c ≠ .filled q') ∧ ∀ q', c ≠ .waiting q' := by
    intro c hc
    cases c with
    | idle => exact ⟨fun _ h => (by cases h), fun _ h => (by cases h), fun _ h => (by cases h)⟩
    | returned => exact ⟨fun _ h => (by cases h), fun _ h => (by cases h), fun _ h => (by cases h)⟩
    | _ => exact (hc.elim (fun h => by cases h) id).elim
  obtain ⟨htaken, hfilled, hwaiting⟩ := hcalls _ hstill
  refine ⟨?_, ?_, ?_⟩
  · cases hst : s.step (.fill j) with
    | none => rfl
    | some t =>
      obtain ⟨q', hc, -⟩ := fill_cases hst
      exact absurd hc (htaken q')
  · cases hst : s.step (.submit j) with
    | none => rfl
    | some t =>
      obtain ⟨q', hc, -⟩ := submit_cases hst
      exact absurd hc (hfilled q')
  · cases hst : s.step (.finish j) with
    | none => rfl
    | some t =>
      obtain ⟨q', _, _, hc, -⟩ := finish_cases hst
      exact absurd hc (hwaiting q')

end Master

namespace Bus

variable {ι : Type} {b : Bus ι} {i : Nat} {q : MasterRequest} {c₀ : Nat → CallState}
  {client : Nat → MasterRequest} {a : MasterAction} {s' : Master}

/-- While call `i` is on its way, or slaves are not at rest yet, no other call moves. -/
theorem by_of_timely (h : b.master.Ordered i c₀) (hq : q = client i)
    (hok : b.Timely client (.master a)) (hst : b.master.step a = some s')
    (hbusy : ¬ ((b.master.calls i).Returned ∧ b.Rested)) : a.By i q := by
  have hturn : ∀ {j q'}, b.master.calls j = .idle → b.Turn client j q' → j = i ∧ q' = q := by
    rintro j q' hidle ⟨rfl, hbefore, hrest⟩
    rcases Nat.lt_trichotomy j i with hlt | rfl | hgt
    · obtain ⟨heq, hret⟩ := h.before j hlt
      rw [← heq, hidle] at hret
      exact hret.elim
    · exact ⟨rfl, hq.symm⟩
    · exact absurd ⟨hbefore i hgt, hrest⟩ hbusy
  cases a with
  | byte b => exact hok.elim
  | timer => trivial
  | txReady => trivial
  | poll junk => trivial
  | refuse j q' =>
    obtain ⟨_, hidle, -⟩ := Master.refuse_cases hst
    exact hturn hidle hok
  | take j q' => exact hturn (Master.take_cases hst).1 hok
  | fill j =>
    by_contra hj
    cases (h.other hj).1.symm.trans hst
  | submit j =>
    by_contra hj
    cases (h.other hj).2.1.symm.trans hst
  | finish j =>
    by_contra hj
    cases (h.other hj).2.2.symm.trans hst

end Bus

/-! ## Requesting and sending -/

namespace Master

variable {s s' : Master} {i n k : Nat} {q : MasterRequest} {app : MasterApp} {a : MasterAction}

/-- The call posts its request, and the poll loop activates the transmitter, in so many steps. -/
inductive Requesting (i : Nat) (q : MasterRequest) (n : Nat) (app : MasterApp) :
    Nat → Master → Prop where
  | idle {s : Master} : Underway i .idle (n + 1) app s → Control (.pend []) s →
      Requesting i q n app 4 s
  | taken {s : Master} : Underway i (.taken q) n app s → Control (.pend []) s →
      Requesting i q n app 3 s
  | filled {s : Master} : Underway i (.filled q) n app s → Control (.pend []) s → Loaded q s →
      Requesting i q n app 2 s
  | posted {s : Master} : Underway i (.waiting q) n app s → Control (.pend [.frameSent]) s →
      Loaded q s → Requesting i q n app 1 s

/-- The frame is going out, and so many bytes of it are left. -/
structure SendsOut (i : Nat) (q : MasterRequest) (n : Nat) (app : MasterApp) (k : Nat)
    (s : Master) : Prop where
  underway : Underway i (.waiting q) n app s
  control : Control .send s
  sending : Sending q s
  inPlace : InPlace q s
  left : s.usMasterSndBufferCount.toNat = k

theorem Requesting.control (h : Requesting i q n app k s) : ∃ es, Control (.pend es) s := by
  cases h with
  | idle _ hc => exact ⟨_, hc⟩
  | taken _ hc => exact ⟨_, hc⟩
  | filled _ hc => exact ⟨_, hc⟩
  | posted _ hc => exact ⟨_, hc⟩

theorem Requesting.results (h : Requesting i q n app k s) (r : MBMasterResult) :
    ¬ resultChannel.Pending s.xMasterOsEvent r := by
  cases h with
  | idle hu => exact hu.results r
  | taken hu => exact hu.results r
  | filled hu => exact hu.results r
  | posted hu => exact hu.results r

/-- The call has not returned. -/
theorem Requesting.not_returned (h : Requesting i q n app k s) : ¬ (s.calls i).Returned := by
  cases h with
  | idle hu => exact fun hr => by rwa [hu.call] at hr
  | taken hu => exact fun hr => by rwa [hu.call] at hr
  | filled hu => exact fun hr => by rwa [hu.call] at hr
  | posted hu => exact fun hr => by rwa [hu.call] at hr

/-- The transmitter is activated for the whole frame. -/
theorem sendsOut_posted (hu : Underway i (.waiting q) n app s)
    (hc : Control (.pend [.frameSent]) s) (hl : Loaded q s)
    (ha : q.ucSndAddr.toNat ≤ mbMasterTotalSlaveNum) :
    (∀ junk, s.step (.poll junk) = some s.drained.pollFrameSent) ∧
      SendsOut i q n app q.frame.length s.drained.pollFrameSent ∧
      s.drained.pollFrameSent.line = [] := by
  obtain ⟨hpoll, hu', hc', hs', hp'⟩ := hu.pollFrameSent hc hl ha
  have hline : s.drained.pollFrameSent.line = [] := by
    have hl' : Loaded q s.drained := hl.same rfl rfl rfl
    rw [pollFrameSent_ok (hl'.addr ▸ ha) (Control.get hc).receiver]
  refine ⟨hpoll, ⟨hu', hc', hs', hp', ?_⟩, hline⟩
  have hframe := congrArg List.length hs'.frame
  rw [hline, List.nil_append, slice_length] at hframe
  exact hframe

/-- Every step leads to a later stage, or activates the transmitter. -/
theorem Requesting.step (h : Requesting i q n app k s) (hq : q.illArg = false) (hfit : q.Fits)
    (haddr : q.ucSndAddr.toNat ≤ mbMasterTotalSlaveNum) (ha : a.By i q)
    (hst : s.step a = some s') : (∃ m < k, Requesting i q n app m s') ∨
      (SendsOut i q n app q.frame.length s' ∧ s'.line = []) := by
  obtain ⟨es, hc⟩ := h.control
  cases a with
  | byte b => exact ha.elim
  | timer => cases (hc.not_timer rfl).symm.trans hst
  | txReady => cases (hc.not_txReady rfl).symm.trans hst
  | finish j => cases (not_finish h.results j).symm.trans hst
  | poll junk =>
    cases h with
    | idle _ hc => cases (hc.not_poll rfl).symm.trans hst
    | taken _ hc => cases (hc.not_poll rfl).symm.trans hst
    | filled _ hc => cases (hc.not_poll rfl).symm.trans hst
    | posted hu hc hl =>
      obtain ⟨hpoll, hsends, hline⟩ := sendsOut_posted hu hc hl haddr
      cases (hpoll junk).symm.trans hst
      exact Or.inr ⟨hsends, hline⟩
  | refuse j q' =>
    obtain ⟨rfl, rfl⟩ := ha
    obtain ⟨_, hcall, -⟩ := refuse_cases hst
    cases h with
    | idle hu _ =>
      have hno : s.refuse j q' = none := by
        unfold refuse
        rw [hu.call]
        dsimp only
        rw [if_neg (Bool.eq_false_iff.mp hq), if_neg (by rw [hu.res]; exact Nat.succ_ne_zero n)]
      cases hno.symm.trans hst
    | taken hu => cases hcall.symm.trans hu.call
    | filled hu => cases hcall.symm.trans hu.call
    | posted hu => cases hcall.symm.trans hu.call
  | take j q' =>
    obtain ⟨rfl, rfl⟩ := ha
    have hcall := (take_cases hst).1
    cases h with
    | idle hu hc =>
      obtain ⟨t, ht, hu', hc'⟩ := hu.take hc hq
      cases ht.symm.trans hst
      exact Or.inl ⟨3, Nat.lt_succ_self 3, .taken hu' hc'⟩
    | taken hu => cases hcall.symm.trans hu.call
    | filled hu => cases hcall.symm.trans hu.call
    | posted hu => cases hcall.symm.trans hu.call
  | fill j =>
    obtain rfl : j = i := ha
    obtain ⟨q', hcall, -⟩ := fill_cases hst
    cases h with
    | taken hu hc =>
      obtain ⟨t, ht, hu', hc', hl⟩ := hu.fill hc hfit
      cases ht.symm.trans hst
      exact Or.inl ⟨2, Nat.lt_succ_self 2, .filled hu' hc' hl⟩
    | idle hu => cases hcall.symm.trans hu.call
    | filled hu => cases hcall.symm.trans hu.call
    | posted hu => cases hcall.symm.trans hu.call
  | submit j =>
    obtain rfl : j = i := ha
    obtain ⟨q', hcall, -⟩ := submit_cases hst
    cases h with
    | filled hu hc hl =>
      obtain ⟨t, ht, hu', hc', hl'⟩ := hu.submit hc hl
      cases ht.symm.trans hst
      exact Or.inl ⟨1, Nat.lt_succ_self 1, .posted hu' hc' hl'⟩
    | idle hu => cases hcall.symm.trans hu.call
    | taken hu => cases hcall.symm.trans hu.call
    | posted hu => cases hcall.symm.trans hu.call

/-- A step can be taken. -/
theorem Requesting.enabled (h : Requesting i q n app k s) (hq : q.illArg = false) (hfit : q.Fits)
    (haddr : q.ucSndAddr.toNat ≤ mbMasterTotalSlaveNum) :
    ∃ a s', (a = .take i q ∨ a = .fill i ∨ a = .submit i ∨ a = .poll none) ∧
      s.step a = some s' := by
  cases h with
  | idle hu hc =>
    obtain ⟨t, ht, -⟩ := hu.take hc hq
    exact ⟨.take i q, t, Or.inl rfl, ht⟩
  | taken hu hc =>
    obtain ⟨t, ht, -⟩ := hu.fill hc hfit
    exact ⟨.fill i, t, Or.inr (Or.inl rfl), ht⟩
  | filled hu hc hl =>
    obtain ⟨t, ht, -⟩ := hu.submit hc hl
    exact ⟨.submit i, t, Or.inr (Or.inr (Or.inl rfl)), ht⟩
  | posted hu hc hl =>
    exact ⟨.poll none, _, Or.inr (Or.inr (Or.inr rfl)), (sendsOut_posted hu hc hl haddr).1 none⟩

/-- A turn of the transmitter puts the next byte of the frame on the line. -/
theorem SendsOut.byte (h : SendsOut i q n app (k + 1) s) :
    SendsOut i q n app k s.xMBMasterRTUTransmitFSM ∧
      ∃ b, s.xMBMasterRTUTransmitFSM.line = s.line ++ [b] := by
  have hc : s.usMasterSndBufferCount ≠ 0 := by
    intro hzero
    have hleft := h.left
    rw [hzero] at hleft
    cases hleft
  obtain ⟨hu, hctl, hs, hp, hcount⟩ := h.underway.transmit_byte h.control h.sending h.inPlace hc
  refine ⟨⟨hu, hctl, hs, hp, ?_⟩, s.ucMasterRTUSndBuf s.pucMasterSndBufferCur, ?_⟩
  · rw [hcount, toNat_pred hc, h.left, Nat.add_sub_cancel]
  · rw [xMBMasterRTUTransmitFSM_byte h.control.snd hc]

/-- Behind the last byte the call awaits a reply. -/
theorem SendsOut.done (h : SendsOut i q n app 0 s) :
    Awaits i q n app s.xMBMasterRTUTransmitFSM ∧ Control .wait s.xMBMasterRTUTransmitFSM ∧
      s.line = q.frame ∧ s.xMBMasterRTUTransmitFSM.line = s.line := by
  have hc : s.usMasterSndBufferCount = 0 := BitVec.eq_of_toNat_eq h.left
  obtain ⟨hu, hctl, hline, hb, hp⟩ := h.underway.transmit_done h.control h.sending h.inPlace hc
  have hdest := (portStep_transmitFSM s).dest
  have hsame := h.sending.done hc
  exact ⟨⟨hu, hb, hdest.trans h.sending.dest, hp⟩, hctl, hsame, hline.trans hsame.symm⟩

/-- A call that waits leaves the steps of the port. -/
theorem Underway.waiting_step (h : Underway i (.waiting q) n app s) {p : Phase} (hc : Control p s)
    (hp : p.events = []) (ha : a.By i q) (hst : s.step a = some s') :
    a = .timer ∨ a = .txReady := by
  obtain ⟨hrefuse, htake, hfill, hsubmit⟩ := not_posted_step h.call (c := .waiting q) trivial
  cases a with
  | byte b => exact ha.elim
  | timer => exact Or.inl rfl
  | txReady => exact Or.inr rfl
  | poll junk => cases (hc.not_poll hp).symm.trans hst
  | finish j => cases (not_finish h.results j).symm.trans hst
  | refuse j q' =>
    obtain ⟨rfl, -⟩ := ha
    cases (hrefuse q').symm.trans hst
  | take j q' =>
    obtain ⟨rfl, -⟩ := ha
    cases (htake q').symm.trans hst
  | fill j =>
    obtain rfl : j = i := ha
    cases hfill.symm.trans hst
  | submit j =>
    obtain rfl : j = i := ha
    cases hsubmit.symm.trans hst

/-- While the frame is going out, the transmitter alone has a step. -/
theorem SendsOut.step (h : SendsOut i q n app k s) (ha : a.By i q) (hst : s.step a = some s') :
    a = .txReady := by
  refine (h.underway.waiting_step h.control rfl ha hst).resolve_left ?_
  rintro rfl
  cases (h.control.not_timer rfl).symm.trans hst

/-- While a reply is awaited, or is coming in, the timer alone has a step. -/
theorem Underway.timer_step (h : Underway i (.waiting q) n app s) {p : Phase} (hc : Control p s)
    (hp : p.events = []) (hrx : p.rx = true) (ha : a.By i q) (hst : s.step a = some s') :
    a = .timer := by
  refine (h.waiting_step hc hp ha hst).resolve_right ?_
  rintro rfl
  cases (hc.not_txReady hrx).symm.trans hst

theorem Ordered.of_calls {c₀ : Nat → CallState} (h : Ordered i c₀ s) (hcalls : s'.calls = s.calls) :
    Ordered i c₀ s' where
  before j hj := hcalls ▸ h.before j hj
  after j hj := hcalls ▸ h.after j hj

theorem heard_calls (s : Master) (bytes : List UChar) : (s.heard bytes).calls = s.calls := by
  obtain ⟨_, _, _, _, _, _, heq⟩ := heard_frame s bytes
  rw [heq]

end Master

/-! ## The phases -/

/-- A request on a bus at rest: the slaves, the number of the call, its request, the run resource
left once it is taken, the mirror, and the other calls. -/
structure Ask (ι : Type) where
  slaves : ι → Slave
  call : Nat
  request : MasterRequest
  res : Nat
  mirror : MasterApp
  calls : Nat → CallState

namespace Ask

variable {ι : Type}

/-- The request is the one that the call makes and is not refused, and the slaves have addresses
of their own. -/
structure Admitted (A : Ask ι) (client : Nat → MasterRequest) : Prop where
  request : A.request = client A.call
  args : A.request.illArg = false
  fits : A.request.Fits
  resting : ∀ j, (A.slaves j).Resting
  apart : ∀ j l, (A.slaves j).ucMBAddress = (A.slaves l).ucMBAddress → j = l

/-- The frame of the request. -/
abbrev frame (A : Ask ι) : List UChar := A.request.frame

/-- The reply of a slave to it. -/
abbrev reply (A : Ask ι) (t : ι) : List UChar := (A.slaves t).replyFrame A.frame

variable {A : Ask ι} {client : Nat → MasterRequest}

theorem Admitted.address (h : A.Admitted client) :
    A.request.ucSndAddr.toNat ≤ mbMasterTotalSlaveNum := by
  have hargs := (Bool.or_eq_false_iff.mp h.args).1
  exact Nat.le_of_not_lt (of_decide_eq_false hargs)

theorem one_le_frame (A : Ask ι) : 1 ≤ A.frame.length := by
  rw [MasterRequest.frame_length]
  omega

theorem Admitted.frame_le (h : A.Admitted client) : A.frame.length ≤ 256 := by
  have hfit : 1 + A.request.call.req.pdu.length + 2 ≤ 253 := h.fits
  rw [MasterRequest.frame_length]
  omega

/-! ### What holds in each of them -/

/-- The master awaits a reply. -/
structure Waiting (A : Ask ι) (s : Master) : Prop where
  awaits : s.Awaits A.call A.request A.res A.mirror
  control : s.Control .wait

def Preparing (A : Ask ι) (k : Nat) (b : Bus ι) : Prop :=
  b.master.Requesting A.call A.request A.res A.mirror k ∧ b.master.Ordered A.call A.calls ∧
    b.slaves = A.slaves

def Sending (A : Ask ι) (k : Nat) (b : Bus ι) : Prop :=
  b.master.SendsOut A.call A.request A.res A.mirror k ∧ b.master.Ordered A.call A.calls ∧
    b.slaves = fun j => (A.slaves j).heard b.master.line

def Serving [Fintype ι] (A : Ask ι) (k : Nat) (b : Bus ι) : Prop :=
  A.Waiting b.master ∧ b.master.Ordered A.call A.calls ∧
    ∃ rank : ι → Nat, (∀ j, Slave.Serving (A.slaves j) A.frame (rank j) (b.slaves j)) ∧
      k = ∑ j, rank j

/-- Slave `t` has sent `k` bytes of its reply.  The other slaves were at rest before and have heard
these bytes. -/
structure Replying (A : Ask ι) (t : ι) (k : Nat) (b : Bus ι) : Prop where
  master : ∃ s, A.Waiting s ∧ b.master = s.heard ((A.reply t).take k)
  ordered : b.master.Ordered A.call A.calls
  begun : 1 ≤ k
  target : Slave.At (A.slaves t) A.frame (.transmitting k) (b.slaves t)
  cur : (b.slaves t).pucSndBufferCur = k
  app : (b.slaves t).app = (A.slaves t).served A.frame
  others : ∀ j, j ≠ t → ∃ x : Slave, x.Resting ∧ x.ucMBAddress = (A.slaves j).ucMBAddress ∧
    x.app = (A.slaves j).served A.frame ∧ b.slaves j = x.heard ((A.reply t).take k)

def Closing [Fintype ι] (A : Ask ι) (Out : MBMasterReqErrCode → MasterApp → Prop) (k : Nat)
    (b : Bus ι) : Prop :=
  ∃ (km : Nat) (rank : ι → Nat), b.master.Concluding A.call A.request A.res Out km ∧
    b.master.Ordered A.call A.calls ∧
    (∀ j, (b.slaves j).Settling (A.slaves j).ucMBAddress ((A.slaves j).served A.frame) (rank j)) ∧
      k = km + ∑ j, rank j

variable [DecidableEq ι] {b b' : Bus ι} {k : Nat} {j t : ι}

/-! ### Preparing -/

theorem Preparing.leadsTo (hA : A.Admitted client) (h : A.Preparing k b) :
    LeadsTo Bus.step (Bus.Timely client) Bus.OneTalker (A.Sending A.frame.length) b := by
  refine LeadsTo.of_rank A.Preparing (fun k b h => ?_) k b h
  obtain ⟨hreq, hord, hslaves⟩ := h
  have hrest : ∀ j, (b.slaves j).Resting := fun j => hslaves ▸ hA.resting j
  refine ⟨Bus.oneTalker_of_off fun j => (hrest j).quiet.tx, ?_, fun a b' hok hst => ?_⟩
  · have hturn : b.Turn client A.call A.request :=
      ⟨hA.request, fun j hj => (hord.before j hj).1 ▸ (hord.before j hj).2,
        fun j => (hrest j).atRest⟩
    obtain ⟨a, s', ha, hst⟩ := hreq.enabled hA.args hA.fits hA.address
    obtain ⟨b', hb'⟩ := Bus.step_of_master hst
    refine ⟨.master a, b', ?_, hb'⟩
    rcases ha with rfl | rfl | rfl | rfl
    · exact hturn
    · trivial
    · trivial
    · trivial
  · cases a with
    | master a =>
      obtain ⟨hm, -⟩ := Bus.master_of_step hst
      have hby := Bus.by_of_timely hord hA.request hok hm fun hr => hreq.not_returned hr.1
      have htx : a ≠ .txReady := by
        rintro rfl
        obtain ⟨es, hc⟩ := hreq.control
        cases (hc.not_txReady rfl).symm.trans hm
      have hsame := (Bus.step_master hby htx hst).2.trans hslaves
      have hord' := hord.step hby hm
      rcases hreq.step hA.args hA.fits hA.address hby hm with ⟨m, hlt, hreq'⟩ | ⟨hsends, hline⟩
      · exact Or.inr ⟨m, hlt, hreq', hord', hsame⟩
      · refine Or.inl ⟨hsends, hord', ?_⟩
        rw [hsame, hline]
        rfl
    | slave j a =>
      obtain ⟨x, hx, -⟩ := Bus.slave_of_step hst
      cases (Bus.resting_still (hrest j) hok).symm.trans hx

/-! ### Sending -/

omit [DecidableEq ι] in
/-- While the frame goes out no slave has a step. -/
theorem Sending.slave (hA : A.Admitted client) (h : A.Sending k b) {a : SlaveAction}
    (hok : b.Timely client (.slave j a)) : (b.slaves j).step a = none := by
  obtain ⟨hsends, -, hslaves⟩ := h
  have hquiet := (hA.resting j).quiet
  have hslave : b.slaves j = (A.slaves j).heard b.master.line := congrFun hslaves j
  rw [hslave]
  cases a with
  | byte c => exact hok.elim
  | poll junk => exact Slave.heard_not_poll hquiet _ junk
  | txReady =>
    rw [Slave.step, (Slave.heard_same _ _).2.1, hquiet.tx]
    rfl
  | timer =>
    -- The timer waits for silence, and in silence it is not running yet.
    have hline : b.master.line = [] := by
      by_contra hne
      exact hok.1 ⟨hsends.control.tx, hne⟩
    rw [hline]
    exact (hA.resting j).not_timerPoll (a := .timer) trivial

/-- A turn of the transmitter puts a byte on the line that every slave hears, or ends the frame. -/
theorem Sending.txReady [Fintype ι] (hA : A.Admitted client) (h : A.Sending k b)
    (hst : b.step (.master .txReady) = some b') :
    (∃ k, A.Serving k b') ∨ ∃ m < k, A.Sending m b' := by
  obtain ⟨hsends, hord, hslaves⟩ := h
  obtain ⟨hm, hheard⟩ := Bus.master_of_step hst
  have hord' := hord.step (q := A.request) (a := .txReady) trivial hm
  have hhears : ∀ j, b'.slaves j =
      (A.slaves j).heard (b.master.line ++ b'.master.line.drop b.master.line.length) := by
    intro j
    rw [hheard, hslaves]
    exact Slave.heard_hears (hA.resting j).quiet.rx _ _
  obtain ⟨-, hnext⟩ := Master.txReady_cases hm
  rw [hnext] at hord' hhears
  cases k with
  | zero =>
    obtain ⟨hawaits, hwait, hline, hsame⟩ := hsends.done
    refine Or.inl ⟨_, hnext ▸ ⟨hawaits, hwait⟩, hnext ▸ hord', fun _ => 3, fun j => ?_, rfl⟩
    rw [hhears j, hsame, List.drop_length, List.append_nil, hline]
    exact .heard
  | succ k =>
    obtain ⟨hsends', c, hline⟩ := hsends.byte
    refine Or.inr ⟨k, Nat.lt_succ_self k, hnext ▸ hsends', hnext ▸ hord', funext fun j => ?_⟩
    rw [hhears j, hnext, hline, List.drop_left]

theorem Sending.leadsTo [Fintype ι] (hA : A.Admitted client) (h : A.Sending k b) :
    LeadsTo Bus.step (Bus.Timely client) Bus.OneTalker (fun b => ∃ k, A.Serving k b) b := by
  refine LeadsTo.of_rank A.Sending (fun k b h => ?_) k b h
  have ⟨hsends, hord, hslaves⟩ := h
  have hoff : ∀ j, (b.slaves j).xTxEnable = false := fun j =>
    hslaves ▸ (Slave.heard_same _ _).2.1.trans (hA.resting j).quiet.tx
  refine ⟨Bus.oneTalker_of_off hoff, ?_, fun a b' hok hst => ?_⟩
  · obtain ⟨b', hb'⟩ := Bus.step_of_master hsends.control.step_txReady
    exact ⟨.master .txReady, b', trivial, hb'⟩
  · cases a with
    | master a =>
      obtain ⟨hm, -⟩ := Bus.master_of_step hst
      have hno : ¬ (b.master.calls A.call).Returned := by
        rw [hsends.underway.call]
        exact id
      have hby := Bus.by_of_timely hord hA.request hok hm fun hr => hno hr.1
      obtain rfl := hsends.step hby hm
      exact Sending.txReady hA h hst
    | slave j a =>
      obtain ⟨x, hx, -⟩ := Bus.slave_of_step hst
      cases (Sending.slave hA h hok).symm.trans hx

/-! ### Serving -/

/-- What the reply, its absence or a broadcast is to bring. -/
structure Promises (A : Ask ι) (Out : MBMasterReqErrCode → MasterApp → Prop) : Prop where
  replied : ∀ t, (A.slaves t).Replies A.frame →
    Master.Brings A.request A.mirror ((A.slaves t).replyPdu A.frame) Out
  absent : (∀ t, ¬ (A.slaves t).Replies A.frame) → A.request.ucSndAddr ≠ mbAddressBroadcast →
    Out .timedout A.mirror
  all : A.request.ucSndAddr = mbAddressBroadcast → A.request.call.BroadcastWrite ∧
    ∀ app, A.request.call.Broadcasts A.mirror app →
      Out (if A.request.call.InMap then .noErr else .exeFun) app

variable {Out : MBMasterReqErrCode → MasterApp → Prop}

omit [DecidableEq ι] in
/-- Only one slave has the address of the request. -/
theorem Admitted.replies_unique (hA : A.Admitted client) (hj : (A.slaves j).Replies A.frame)
    (ht : (A.slaves t).Replies A.frame) : j = t :=
  hA.apart j t (hj.2.symm.trans ht.2)

omit [DecidableEq ι] in
theorem Waiting.not_returned {s : Master} (h : A.Waiting s) : ¬ (s.calls A.call).Returned := by
  rw [h.awaits.underway.call]
  exact id

/-- An expiry or a poll of a slave. -/
theorem Serving.timerPoll [Fintype ι] (hA : A.Admitted client) (h : A.Serving k b)
    {a : SlaveAction} (ha : Slave.TimerPoll a) (hst : b.step (.slave j a) = some b') :
    ∃ m < k, A.Serving m b' := by
  obtain ⟨hwait, hord, rank, hslaves, rfl⟩ := h
  obtain ⟨x, hx, hmaster, hnext⟩ := Bus.step_slave ha hst
  obtain ⟨m, hm, hserving⟩ :=
    (hslaves j).step (hA.resting j).quiet A.one_le_frame hA.frame_le ha hx
  obtain ⟨rank', hrank', hlt⟩ := parts_step hslaves hm hserving
  rw [← hnext] at hrank'
  exact ⟨_, hlt, hmaster ▸ hwait, hmaster ▸ hord, rank', hrank', rfl⟩

/-- The slave that the request is for begins with its reply. -/
theorem Serving.txReady [Fintype ι] (hA : A.Admitted client) (h : A.Serving k b)
    (hok : b.Timely client (.slave t .txReady)) (hst : b.step (.slave t .txReady) = some b') :
    (A.slaves t).Replies A.frame ∧ A.Replying t 1 b' := by
  obtain ⟨hwait, hord, rank, hslaves, -⟩ := h
  obtain ⟨x, hx, hmaster, hnext⟩ := Bus.slave_of_step hst
  have hquiet := fun j => (hA.resting j).quiet
  obtain ⟨-, hreplies, hat, hcur, happ⟩ :=
    (hslaves t).ready_of_tx (hquiet t) (Slave.txReady_cases hx).1
  have hlen : 0 < (A.reply t).length := by
    simp [Slave.replyFrame]
  obtain ⟨hat', hcur', happ', hbytes⟩ := hat.txReady_byte (hquiet t).address hlen hx
  have htake : (A.reply t).take 1 = [(A.reply t)[0]] := List.take_succ_eq_append_getElem hlen
  rw [hbytes, ← htake] at hmaster hnext
  rw [Master.hears_on hwait.control.rx] at hmaster
  refine ⟨hreplies, ⟨b.master, hwait, hmaster⟩, ?_, Nat.le_refl 1, ?_, ?_, ?_, fun j hj => ?_⟩
  · exact hord.of_calls (by rw [hmaster, Master.heard_calls])
  · rw [hnext, Function.update_self]
    exact hat'
  · rw [hnext, Function.update_self, hcur', hcur]
  · rw [hnext, Function.update_self, happ', happ]
  · obtain ⟨-, -, hrest, haddr, hserved⟩ :=
      (hslaves j).done_of_atRest (hquiet j) A.one_le_frame hA.frame_le (hok hcur j hj)
    refine ⟨b.slaves j, hrest, haddr, hserved, ?_⟩
    rw [hnext, Function.update_of_ne hj]
    exact Slave.hears_on hrest.quiet.rx _

/-- The timer of the master expires where no slave has anything to send. -/
theorem Serving.timer [Fintype ι] (hA : A.Admitted client) (hout : A.Promises Out)
    (h : A.Serving k b) (hok : b.Timely client (.master .timer))
    (hst : b.step (.master .timer) = some b') : ∃ k, A.Closing Out k b' := by
  obtain ⟨hwait, hord, rank, hslaves, -⟩ := h
  have hby : MasterAction.By A.call A.request .timer := trivial
  obtain ⟨hm, hsame⟩ := Bus.step_master hby (fun h => by cases h) hst
  have hord' := hord.step hby hm
  have hmode : b.master.eMasterCurTimerMode ≠ .t35 := by
    rw [hwait.control.receiver.2]
    split
    · exact fun h => by cases h
    · exact fun h => by cases h
  have hrested := hok.2.resolve_left hmode
  have hdone := fun j => (hslaves j).done_of_atRest (hA.resting j).quiet A.one_le_frame hA.frame_le
    (hrested j)
  obtain ⟨-, hnext⟩ := Master.timer_cases hm
  have hmaster : ∃ km, b'.master.Concluding A.call A.request A.res Out km := by
    rw [hnext]
    by_cases ha : A.request.ucSndAddr = mbAddressBroadcast
    · obtain ⟨hw, hrows⟩ := hout.all ha
      exact ⟨3, hwait.awaits.convert hwait.control ha hw hrows⟩
    · exact ⟨2, hwait.awaits.timeout hwait.control ha (hout.absent (fun t => (hdone t).2.1) ha)⟩
  obtain ⟨km, hkm⟩ := hmaster
  refine ⟨_, km, fun _ => 0, hkm, hord', fun j => ?_, rfl⟩
  obtain ⟨-, -, hrest, haddr, hserved⟩ := hdone j
  rw [hsame]
  exact .rest hrest haddr hserved

theorem Serving.leadsTo [Fintype ι] (hA : A.Admitted client) (hout : A.Promises Out)
    (h : A.Serving k b) : LeadsTo Bus.step (Bus.Timely client) Bus.OneTalker
      (fun b => (∃ t, (A.slaves t).Replies A.frame ∧ A.Replying t 1 b) ∨
        ∃ k, A.Closing Out k b) b := by
  refine LeadsTo.of_rank A.Serving (fun k b h => ?_) k b h
  have ⟨hwait, hord, rank, hslaves, hk⟩ := h
  have hquiet := fun j => (hA.resting j).quiet
  have hreplies : ∀ j, (b.slaves j).xTxEnable = true → (A.slaves j).Replies A.frame :=
    fun j htx => ((hslaves j).ready_of_tx (hquiet j) htx).2.1
  have hoff : b.master.xTxEnable = false := hwait.control.tx
  have hsilent : b.Silent := ⟨fun ht => absurd (ht.1.symm.trans hoff) (by decide),
    fun j => (hslaves j).not_talking (hquiet j)⟩
  refine ⟨⟨fun htx => absurd (htx.symm.trans hoff) (by decide), fun i j hi hj =>
    hA.replies_unique (hreplies i hi) (hreplies j hj)⟩, ?_, fun a b' hok hst => ?_⟩
  · by_cases hpos : ∃ j, 0 < rank j
    · obtain ⟨j, hj⟩ := hpos
      obtain ⟨a, ha, x, hx⟩ := (hslaves j).enabled (hquiet j) A.one_le_frame hA.frame_le hj
      obtain ⟨b', hb'⟩ := Bus.step_of_slave hx
      refine ⟨.slave j a, b', ?_, hb'⟩
      cases a with
      | byte c => exact ha.elim
      | txReady => exact ha.elim
      | timer => exact hsilent
      | poll junk => trivial
    · have hzero : ∀ j, rank j = 0 := fun j => Nat.eq_zero_of_not_pos fun hj => hpos ⟨j, hj⟩
      have hlast := fun j => Slave.Serving.ready_or_atRest (hzero j ▸ hslaves j) (hquiet j).address
      by_cases htx : ∃ t, (b.slaves t).xTxEnable = true
      · obtain ⟨t, ht⟩ := htx
        obtain ⟨b', hb'⟩ := Bus.step_of_slave (b := b) (i := t) (a := .txReady) (if_pos ht)
        refine ⟨.slave t .txReady, b', fun _ j hj => ?_, hb'⟩
        rcases hlast j with ⟨hr, -⟩ | ⟨-, hrest⟩
        · exact absurd (hA.replies_unique hr (hreplies t ht)) hj
        · exact hrest
      · have hrested : b.Rested := fun j =>
          ((hlast j).resolve_left fun hr => htx ⟨j, hr.2⟩).2
        obtain ⟨b', hb'⟩ := Bus.step_of_master hwait.control.step_timer
        exact ⟨.master .timer, b', ⟨hsilent, Or.inr hrested⟩, hb'⟩
  · cases a with
    | master a =>
      obtain ⟨hm, -⟩ := Bus.master_of_step hst
      have hby := Bus.by_of_timely hord hA.request hok hm fun hr => hwait.not_returned hr.1
      obtain rfl := hwait.awaits.underway.timer_step hwait.control rfl rfl hby hm
      exact Or.inl (Or.inr (Serving.timer hA hout h hok hst))
    | slave j a =>
      cases a with
      | byte c => exact hok.elim
      | timer => exact Or.inr (Serving.timerPoll hA h (a := .timer) trivial hst)
      | poll junk => exact Or.inr (Serving.timerPoll hA h (a := .poll junk) trivial hst)
      | txReady => exact Or.inl (Or.inl ⟨j, Serving.txReady hA h hok hst⟩)

/-! ### Replying -/

omit [DecidableEq ι] in
/-- The reply is the frame of its PDU, with the address of the request. -/
theorem reply_eq (hr : (A.slaves t).Replies A.frame) :
    A.reply t = rtuFrame A.request.ucSndAddr ((A.slaves t).replyPdu A.frame) := by
  rw [show A.request.ucSndAddr = (A.slaves t).ucMBAddress from hr.2]
  rfl

omit [DecidableEq ι] in
theorem Admitted.replyPdu_length (hA : A.Admitted client)
    (hr : (A.slaves t).Replies A.frame) :
    1 ≤ ((A.slaves t).replyPdu A.frame).length ∧
      ((A.slaves t).replyPdu A.frame).length ≤ 253 := by
  obtain ⟨hle, pdu, hpdu, heq⟩ := Slave.replyFrame_reply hr.1 hA.frame_le
  have hlen : (A.reply t).length = pdu.length + 3 :=
    (congrArg List.length heq).trans (rtuFrame_length _ pdu)
  rw [reply_eq hr, rtuFrame_length] at hlen
  have hpos : 1 ≤ pdu.length := by
    cases hpdu with
    | positive data _ hdata =>
      rw [hdata]
      exact Nat.le_add_left 1 _
    | exception code _ hcode =>
      rw [hcode]
      exact Nat.le_add_left 1 _
  have hle' : (A.reply t).length ≤ 256 := hle
  rw [reply_eq hr, rtuFrame_length] at hle'
  omega

/-- A turn of the transmitter puts the next byte of the reply on the line. -/
theorem Replying.byte (hA : A.Admitted client) (h : A.Replying t k b)
    (hk : k < (A.reply t).length) (hst : b.step (.slave t .txReady) = some b') :
    A.Replying t (k + 1) b' := by
  obtain ⟨x, hx, hmaster, hnext⟩ := Bus.slave_of_step hst
  obtain ⟨hat, hcur, happ, hbytes⟩ := h.target.txReady_byte (hA.resting t).quiet.address hk hx
  obtain ⟨s, hs, hheard⟩ := h.master
  have htake : (A.reply t).take (k + 1) = (A.reply t).take k ++ [(A.reply t)[k]] :=
    List.take_succ_eq_append_getElem hk
  rw [hbytes] at hmaster hnext
  have hmaster' : b'.master = s.heard ((A.reply t).take (k + 1)) := by
    rw [hmaster, hheard, Master.hears_on (Master.heard_rx hs.control _).1, htake,
      Master.heard_append]
    rfl
  refine ⟨⟨s, hs, hmaster'⟩, ?_, Nat.le_succ_of_le h.begun, ?_, ?_, ?_, fun j hj => ?_⟩
  · refine h.ordered.of_calls ?_
    rw [hmaster', hheard, Master.heard_calls, Master.heard_calls]
  · rw [hnext, Function.update_self]
    exact hat
  · rw [hnext, Function.update_self, hcur, h.cur]
  · rw [hnext, Function.update_self, happ, h.app]
  · obtain ⟨y, hrest, haddr, hserved, hy⟩ := h.others j hj
    refine ⟨y, hrest, haddr, hserved, ?_⟩
    rw [hnext, Function.update_of_ne hj, hy, Slave.heard_hears hrest.quiet.rx, htake]

omit [DecidableEq ι] in
/-- A slave that has heard the reply of another one comes to rest. -/
theorem Replying.other (hA : A.Admitted client) (hr : (A.slaves t).Replies A.frame)
    (hj : j ≠ t) {x : Slave} (hrest : x.Resting)
    (haddr : x.ucMBAddress = (A.slaves j).ucMBAddress)
    (happ : x.app = (A.slaves j).served A.frame) :
    (x.heard (A.reply t)).Settling (A.slaves j).ucMBAddress ((A.slaves j).served A.frame) 3 := by
  have hto : Slave.addressOf (A.reply t) = (A.slaves t).ucMBAddress := rfl
  have hne : Slave.addressOf (A.reply t) ≠ x.ucMBAddress := by
    rw [hto, haddr]
    exact fun h => hj (hA.apart j t h.symm)
  have hno : ¬ x.ForUs (A.reply t) :=
    fun h => h.elim hne (hto ▸ (hA.resting t).quiet.address)
  obtain ⟨-, hle⟩ := hA.replyPdu_length hr
  have hlen : (A.reply t).length = ((A.slaves t).replyPdu A.frame).length + 3 := by
    rw [reply_eq hr, rtuFrame_length]
  refine .serving hrest.quiet ?_ ?_ haddr (fun h => hne h.2) ?_ .heard
  · rw [hlen]
    exact Nat.le_add_left 1 _
  · rw [hlen]
    exact Nat.add_le_add_right hle 3
  · rw [Slave.served, if_neg fun h => hno h.2, happ]

/-- Behind the last byte everybody has the whole reply. -/
theorem Replying.done [Fintype ι] (hA : A.Admitted client) (hout : A.Promises Out)
    (hr : (A.slaves t).Replies A.frame) (h : A.Replying t k b) (hk : ¬ k < (A.reply t).length)
    (hst : b.step (.slave t .txReady) = some b') : ∃ k, A.Closing Out k b' := by
  obtain ⟨x, hx, hmaster, hnext⟩ := Bus.slave_of_step hst
  obtain ⟨hat, happ, hbytes⟩ := h.target.txReady_done (hA.resting t).quiet.address hk hx
  obtain ⟨s, hs, hheard⟩ := h.master
  have htake : (A.reply t).take k = A.reply t := List.take_of_length_le (Nat.le_of_not_lt hk)
  rw [hbytes] at hmaster hnext
  rw [Master.hears_nil] at hmaster
  simp only [Slave.hears_nil] at hnext
  have hunicast : A.request.ucSndAddr ≠ mbAddressBroadcast := by
    rw [show A.request.ucSndAddr = (A.slaves t).ucMBAddress from hr.2]
    exact (hA.resting t).quiet.address
  obtain ⟨h1, h253⟩ := hA.replyPdu_length hr
  have hconcluding : b'.master.Concluding A.call A.request A.res Out 5 := by
    rw [hmaster, hheard, htake, reply_eq hr]
    exact .heard hs.awaits hs.control hunicast h1 h253 (hout.replied t hr)
  refine ⟨_, 5, fun j => if j = t then 1 else 3, hconcluding, hmaster ▸ h.ordered, fun j => ?_, rfl⟩
  rw [hnext]
  dsimp only
  by_cases hj : j = t
  · subst hj
    rw [Function.update_self, if_pos rfl]
    exact .sent (hA.resting j).quiet.address rfl hat (happ.trans h.app)
  · obtain ⟨y, hrest, haddr, hserved, hy⟩ := h.others j hj
    rw [Function.update_of_ne hj, if_neg hj, hy, htake]
    exact Replying.other hA hr hj hrest haddr hserved

omit [DecidableEq ι] in
theorem Replying.cur_ne (h : A.Replying t k b) : (b.slaves t).pucSndBufferCur ≠ 0 := by
  have hbegun := h.begun
  rw [h.cur]
  omega

/-- While the reply goes out the other parties have no step. -/
theorem Replying.only (hA : A.Admitted client) (h : A.Replying t k b) {a : BusAction ι}
    (hok : b.Timely client a) (hst : b.step a = some b') : a = .slave t .txReady := by
  obtain ⟨s, hs, hheard⟩ := h.master
  have hlen : 1 ≤ ((A.reply t).take k).length := by
    have hpos : 0 < (A.reply t).length := by
      simp [Slave.replyFrame]
    rw [List.length_take]
    exact Nat.le_min.mpr ⟨h.begun, hpos⟩
  have htalking : (b.slaves t).Talking := ⟨h.target.2.2.tx, h.cur_ne⟩
  cases a with
  | master a =>
    obtain ⟨hm, -⟩ := Bus.master_of_step hst
    have hwaits := hs.awaits.heard ((A.reply t).take k)
    rw [← hheard] at hwaits
    have hno : ¬ (b.master.calls A.call).Returned := by
      rw [hwaits.underway.call]
      exact id
    have hby := Bus.by_of_timely h.ordered hA.request hok hm fun hr => hno hr.1
    have hcontrol := Master.control_heard hs.control hlen
    rw [← hheard] at hcontrol
    obtain rfl := hwaits.underway.timer_step hcontrol rfl rfl hby hm
    exact absurd htalking (hok.1.2 t)
  | slave j a =>
    obtain ⟨x, hx, -⟩ := Bus.slave_of_step hst
    by_cases hj : j = t
    · subst hj
      cases a with
      | byte c => exact hok.elim
      | timer => exact absurd ((Slave.timer_cases hx).1.symm.trans h.target.1.timer) (by decide)
      | poll junk =>
        cases (Slave.eMBPoll_waits h.target.1.enabled h.target.2.1 junk).symm.trans hx
      | txReady => rfl
    · obtain ⟨y, hrest, -, -, hy⟩ := h.others j hj
      cases a with
      | byte c => exact hok.elim
      | timer => exact absurd htalking (hok.2 t)
      | poll junk =>
        rw [hy] at hx
        cases (Slave.heard_not_poll hrest.quiet _ junk).symm.trans hx
      | txReady =>
        have htx := (Slave.txReady_cases hx).1
        rw [hy, (Slave.heard_same _ _).2.1, hrest.quiet.tx] at htx
        cases htx

theorem Replying.leadsTo [Fintype ι] (hA : A.Admitted client) (hout : A.Promises Out)
    (hr : (A.slaves t).Replies A.frame) (h : A.Replying t k b) :
    LeadsTo Bus.step (Bus.Timely client) Bus.OneTalker (fun b => ∃ k, A.Closing Out k b) b := by
  refine LeadsTo.of_rank (fun n b => ∃ k, n = (A.reply t).length - k ∧ A.Replying t k b)
    (fun n b ⟨k, hn, h⟩ => ?_) _ b ⟨k, rfl, h⟩
  have htx : ∀ j, (b.slaves j).xTxEnable = true → j = t := by
    intro j hj
    by_contra hne
    obtain ⟨y, hrest, -, -, hy⟩ := h.others j hne
    rw [hy, (Slave.heard_same _ _).2.1, hrest.quiet.tx] at hj
    cases hj
  refine ⟨⟨fun hm => ?_, fun i j hi hj => (htx i hi).trans (htx j hj).symm⟩, ?_,
    fun a b' hok hst => ?_⟩
  · obtain ⟨s, hs, hheard⟩ := h.master
    rw [hheard, (Master.heard_rx hs.control _).2] at hm
    cases hm
  · obtain ⟨b', hb'⟩ := Bus.step_of_slave (b := b) (i := t) (a := .txReady)
      (if_pos h.target.2.2.tx)
    exact ⟨.slave t .txReady, b', fun hcur => absurd hcur h.cur_ne, hb'⟩
  · obtain rfl := Replying.only hA h hok hst
    by_cases hk : k < (A.reply t).length
    · exact Or.inr ⟨_, by omega, k + 1, rfl, Replying.byte hA h hk hst⟩
    · exact Or.inl (Replying.done hA hout hr h hk hst)

/-! ### Closing -/

omit [DecidableEq ι] in
/-- Where the call has returned and the slaves are at rest nothing is left. -/
theorem Closing.eq_zero [Fintype ι] (h : A.Closing Out k b)
    (hret : (b.master.calls A.call).Returned) (hrest : b.Rested) : k = 0 := by
  obtain ⟨km, rank, hm, -, hslaves, rfl⟩ := h
  have hkm : km = 0 := by
    cases hcall : b.master.calls A.call with
    | returned q' code => exact hm.eq_zero hcall
    | _ =>
      rw [hcall] at hret
      exact hret.elim
  rw [hkm, Nat.zero_add]
  exact Finset.sum_eq_zero fun j _ => (hslaves j).eq_zero (hrest j)

omit [DecidableEq ι] in
theorem Closing.off [Fintype ι] (h : A.Closing Out k b) (j : ι) :
    (b.slaves j).xTxEnable = false := by
  obtain ⟨-, rank, -, -, hslaves, -⟩ := h
  exact (hslaves j).tx

omit [DecidableEq ι] in
theorem Closing.silent [Fintype ι] (h : A.Closing Out k b) : b.Silent := by
  have hoff := h.off
  obtain ⟨km, -, hm, -⟩ := h
  exact ⟨fun ht => absurd (ht.1.symm.trans hm.common.2.2.1) (by decide),
    fun j ht => absurd (ht.1.symm.trans (hoff j)) (by decide)⟩

theorem Closing.enabled [Fintype ι] (h : A.Closing Out k b) (hk : 0 < k) :
    ∃ a b', b.Timely client a ∧ b.step a = some b' := by
  have hsilent := h.silent
  obtain ⟨km, rank, hm, -, hslaves, rfl⟩ := h
  by_cases hkm : 0 < km
  · rcases hm.enabled hkm with ⟨s', hst, hmode⟩ | ⟨s', hst⟩ | ⟨s', hst⟩
    · obtain ⟨b', hb'⟩ := Bus.step_of_master hst
      exact ⟨.master .timer, b', ⟨hsilent, Or.inl hmode⟩, hb'⟩
    · obtain ⟨b', hb'⟩ := Bus.step_of_master hst
      exact ⟨.master (.poll none), b', trivial, hb'⟩
    · obtain ⟨b', hb'⟩ := Bus.step_of_master hst
      exact ⟨.master (.finish A.call), b', trivial, hb'⟩
  · have hsum : 0 < ∑ j, rank j := by omega
    obtain ⟨j, hj⟩ := exists_pos_of_sum hsum
    obtain ⟨a, ha, x, hx⟩ := (hslaves j).enabled hj
    obtain ⟨b', hb'⟩ := Bus.step_of_slave hx
    refine ⟨.slave j a, b', ?_, hb'⟩
    cases a with
    | byte c => exact ha.elim
    | txReady => exact ha.elim
    | timer => exact hsilent
    | poll junk => trivial

/-- A step of the master, an expiry or a poll of a slave. -/
theorem Closing.step [Fintype ι] (hA : A.Admitted client) (h : A.Closing Out k b) (hk : 0 < k)
    {a : BusAction ι} (hok : b.Timely client a) (hst : b.step a = some b') :
    ∃ m < k, A.Closing Out m b' := by
  have hbusy := fun hr : (b.master.calls A.call).Returned ∧ b.Rested =>
    Nat.ne_of_gt hk (h.eq_zero hr.1 hr.2)
  obtain ⟨km, rank, hm, hord, hslaves, rfl⟩ := h
  cases a with
  | master a =>
    obtain ⟨hstep, -⟩ := Bus.master_of_step hst
    have hby := Bus.by_of_timely hord hA.request hok hstep hbusy
    have htx : a ≠ .txReady := by
      rintro rfl
      cases hm.common.2.1.symm.trans hstep
    obtain ⟨m, hlt, hm'⟩ := hm.step hby hstep
    have hsame := (Bus.step_master hby htx hst).2
    exact ⟨_, Nat.add_lt_add_right hlt _, m, rank, hm', hord.step hby hstep,
      fun j => hsame ▸ hslaves j, rfl⟩
  | slave j a =>
    have ha : Slave.TimerPoll a := by
      cases a with
      | byte c => exact hok.elim
      | timer => trivial
      | poll junk => trivial
      | txReady =>
        obtain ⟨x, hx, -⟩ := Bus.slave_of_step hst
        exact absurd ((Slave.txReady_cases hx).1.symm.trans (hslaves j).tx) (by decide)
    obtain ⟨x, hx, hmaster, hnext⟩ := Bus.step_slave ha hst
    obtain ⟨m, hlt, hsettling⟩ := (hslaves j).step ha hx
    obtain ⟨rank', hrank', hsum⟩ := parts_step
      (P := fun j => Slave.Settling (A.slaves j).ucMBAddress ((A.slaves j).served A.frame))
      hslaves hlt hsettling
    rw [← hnext] at hrank'
    exact ⟨_, Nat.add_lt_add_left hsum km, km, rank', hmaster ▸ hm, hmaster ▸ hord, hrank', rfl⟩

theorem Closing.leadsTo [Fintype ι] (hA : A.Admitted client) (h : A.Closing Out k b) :
    LeadsTo Bus.step (Bus.Timely client) Bus.OneTalker (A.Closing Out 0) b := by
  rcases Nat.eq_zero_or_pos k with rfl | hk
  · exact .now h
  · refine LeadsTo.of_rank (fun k b => 0 < k ∧ A.Closing Out k b) (fun k b ⟨hk, h⟩ => ?_) k b
      ⟨hk, h⟩
    refine ⟨Bus.oneTalker_of_off h.off, h.enabled hk, fun a b' hok hst => ?_⟩
    obtain ⟨m, hlt, h'⟩ := h.step hA hk hok hst
    rcases Nat.eq_zero_or_pos m with rfl | hm
    · exact Or.inl h'
    · exact Or.inr ⟨m, hlt, hm, h'⟩

/-! ### The phases in a row -/

/-- A request that is made on a bus at rest comes to its return, and everybody to rest again.  At
most one transmitter is on at any time. -/
theorem exchange_leadsTo [Fintype ι] (hA : A.Admitted client) (hout : A.Promises Out)
    (h : A.Preparing k b) :
    LeadsTo Bus.step (Bus.Timely client) Bus.OneTalker (A.Closing Out 0) b := by
  refine (Preparing.leadsTo hA h).trans fun b₁ hsending => ?_
  refine (Sending.leadsTo hA hsending).trans fun b₂ ⟨_, hserving⟩ => ?_
  refine (Serving.leadsTo hA hout hserving).trans fun b₃ hserved => ?_
  rcases hserved with ⟨t, hr, hreplying⟩ | ⟨_, hclosing⟩
  · exact (Replying.leadsTo hA hout hr hreplying).trans fun b₄ ⟨_, hclosing⟩ =>
      Closing.leadsTo hA hclosing
  · exact Closing.leadsTo hA hclosing

end Ask

end FreeModbus
