import FreeModbus.Master.Execution
import FreeModbus.Master.Run

/-!
# The row of the mirror that a poll works on

A register callback works on row `ucMBMasterGetDestAddress() - 1` of the mirror.
Requests and the loop over all slaves keep the destination address at most 16.
Nothing keeps it above zero: it is zero before the first request, and from the
moment a broadcast request is written.  A frame that is executed then while the
broadcast flag is clear is stored in front of the mirror.

`firstCall` says which callback a handler calls first, if any, and `pollCalls` in
which states a poll calls a handler.
-/

namespace FreeModbus

open ByteMemory EventFlags EventFlags.Channel Transition

/-! ## Which callback a handler calls -/

/-- A call of a register callback. -/
structure CallbackCall where
  cb : MasterCallback
  pucRegBuffer : Buf
  usAddress : UShort
  usCount : UShort

/-- What the callback leaves. -/
def CallbackCall.run (c : CallbackCall) (ucDestAddress : UChar) (app : MasterApp) :
    MBErrorCode × MasterApp :=
  c.cb ucDestAddress app c.pucRegBuffer c.usAddress c.usCount

section Calls

variable (ctx : MasterCtx) (pucFrame : Buf) (usLen : Nat)

/-- The callback of the four reads. -/
def readCall (bytecntOk : UShort → UChar → Bool) (cb : MasterCallback) : Option CallbackCall :=
  if ctx.xFrameIsBroadcast then none
  else if mbPduSizeMin + mbPduMasterFuncReadSizeMin ≤ usLen then
    let usRegAddress := wordAt ctx.pucPDUSndBuf mbPduFuncReadAddrOff + 1
    let usCount := wordAt ctx.pucPDUSndBuf mbPduFuncReadCntOff
    if 1 ≤ usCount.toNat ∧ bytecntOk usCount (pucFrame mbPduDataOff) then
      some ⟨cb, pucFrame.at (mbPduDataOff + 1), usRegAddress, usCount⟩
    else none
  else none

def writeCoilCall : Option CallbackCall :=
  if usLen = mbPduFuncWriteSize + mbPduSizeMin then
    let usRegAddress := wordAt pucFrame mbPduFuncWriteAddrOff + 1
    if pucFrame (mbPduFuncWriteValueOff + 1) = 0x00 ∧
        (pucFrame mbPduFuncWriteValueOff = 0xFF ∨ pucFrame mbPduFuncWriteValueOff = 0x00) then
      let ucBuf := coilBuf (decide (pucFrame mbPduFuncWriteValueOff = 0xFF))
      some ⟨eMBMasterRegCoilsCB, ucBuf, usRegAddress, 1⟩
    else none
  else none

def writeRegCall : Option CallbackCall :=
  if usLen = mbPduFuncWriteSize + mbPduSizeMin then
    let usRegAddress := wordAt pucFrame mbPduFuncWriteAddrOff + 1
    some ⟨eMBMasterRegHoldingCB, pucFrame.at mbPduFuncWriteValueOff, usRegAddress, 1⟩
  else none

def writeCoilsCall : Option CallbackCall :=
  if usLen = mbPduMasterFuncWriteMulCoilsSize ∨ ctx.xFrameIsBroadcast then
    let usRegAddress := wordAt pucFrame mbPduFuncWriteMulAddrOff + 1
    let usCoilCnt := wordAt pucFrame mbPduFuncWriteMulCntOff
    let ucByteCount := ctx.pucPDUSndBuf mbPduFuncWriteMulBytecntOff
    if 1 ≤ usCoilCnt.toNat ∧ ucNBytes usCoilCnt = ucByteCount then
      some ⟨eMBMasterRegCoilsCB, ctx.pucPDUSndBuf.at mbPduFuncWriteMulValuesOff, usRegAddress,
        usCoilCnt⟩
    else none
  else none

def writeRegsCall : Option CallbackCall :=
  if usLen = mbPduSizeMin + mbPduMasterFuncWriteMulRegsSize ∨ ctx.xFrameIsBroadcast then
    let usRegAddress := wordAt ctx.pucPDUSndBuf mbPduFuncWriteMulAddrOff + 1
    let usRegCount := wordAt ctx.pucPDUSndBuf mbPduFuncWriteMulCntOff
    let ucRegByteCount := ctx.pucPDUSndBuf mbPduFuncWriteMulBytecntOff
    if ucRegByteCount.toNat = 2 * usRegCount.toNat then
      some ⟨eMBMasterRegHoldingCB, ctx.pucPDUSndBuf.at mbPduFuncWriteMulValuesOff, usRegAddress,
        usRegCount⟩
    else none
  else none

/-- The first of the two callbacks of a read and write. -/
def readWriteCall : Option CallbackCall :=
  if ctx.xFrameIsBroadcast then none
  else if mbPduSizeMin + mbPduMasterFuncReadSizeMin ≤ usLen then
    let usRegReadCount := wordAt ctx.pucPDUSndBuf mbPduFuncReadwriteReadRegcntOff
    let usRegWriteAddress := wordAt ctx.pucPDUSndBuf mbPduFuncReadwriteWriteAddrOff + 1
    let usRegWriteCount := wordAt ctx.pucPDUSndBuf mbPduFuncReadwriteWriteRegcntOff
    if 2 * usRegReadCount.toNat = (pucFrame mbPduDataOff).toNat then
      some ⟨eMBMasterRegHoldingCB, ctx.pucPDUSndBuf.at mbPduFuncReadwriteWriteValuesOff,
        usRegWriteAddress, usRegWriteCount⟩
    else none
  else none

/-- The callback that the handler for a function code calls first, if it calls any. -/
def firstCall (ucFunctionCode : UChar) : Option CallbackCall :=
  match ucFunctionCode.toNat with
  | 1 => readCall ctx pucFrame usLen bitBytecnt eMBMasterRegCoilsCB
  | 2 => readCall ctx pucFrame usLen bitBytecnt eMBMasterRegDiscreteCB
  | 3 => readCall ctx pucFrame usLen regBytecnt eMBMasterRegHoldingCB
  | 4 => readCall ctx pucFrame usLen regBytecnt eMBMasterRegInputCB
  | 5 => writeCoilCall pucFrame usLen
  | 6 => writeRegCall pucFrame usLen
  | 15 => writeCoilsCall ctx pucFrame usLen
  | 16 => writeRegsCall ctx usLen
  | 23 => readWriteCall ctx pucFrame usLen
  | _ => none

/-- A handler calls `call` first: without a call the mirror stays as it is, and with one the
handler returns what the callback returns, unless it goes on after a success. -/
def CallsFirst (pxHandler : MasterHandler) (goesOn : Prop) (call : Option CallbackCall) : Prop :=
  ∀ app, match call with
    | none => (pxHandler ctx app pucFrame usLen).app = app
    | some c => (goesOn → (c.run ctx.ucMBMasterDestAddress app).1 ≠ .enoerr) →
        pxHandler ctx app pucFrame usLen =
          stored pucFrame usLen (c.run ctx.ucMBMasterDestAddress app)

end Calls

section CallsFirst

variable {ctx : MasterCtx} {pucFrame : Buf} {usLen : Nat} {goesOn : Prop}

theorem masterFuncRead_callsFirst (bytecntOk : UShort → UChar → Bool) (cb : MasterCallback) :
    CallsFirst ctx pucFrame usLen (masterFuncRead bytecntOk cb) goesOn
      (readCall ctx pucFrame usLen bytecntOk cb) := by
  intro app
  unfold readCall masterFuncRead
  dsimp only
  split_ifs
  · rfl
  · exact fun _ => rfl
  · rfl
  · rfl

theorem eMBMasterFuncWriteCoil_callsFirst :
    CallsFirst ctx pucFrame usLen eMBMasterFuncWriteCoil goesOn (writeCoilCall pucFrame usLen) := by
  intro app
  unfold writeCoilCall eMBMasterFuncWriteCoil
  dsimp only
  split_ifs
  · exact fun _ => rfl
  · rfl
  · rfl

theorem eMBMasterFuncWriteHoldingRegister_callsFirst :
    CallsFirst ctx pucFrame usLen eMBMasterFuncWriteHoldingRegister goesOn
      (writeRegCall pucFrame usLen) := by
  intro app
  unfold writeRegCall eMBMasterFuncWriteHoldingRegister
  dsimp only
  split_ifs
  · exact fun _ => rfl
  · rfl

theorem eMBMasterFuncWriteMultipleCoils_callsFirst :
    CallsFirst ctx pucFrame usLen eMBMasterFuncWriteMultipleCoils goesOn
      (writeCoilsCall ctx pucFrame usLen) := by
  intro app
  unfold writeCoilsCall eMBMasterFuncWriteMultipleCoils
  dsimp only
  split_ifs
  · exact fun _ => rfl
  · rfl
  · rfl

theorem eMBMasterFuncWriteMultipleHoldingRegister_callsFirst :
    CallsFirst ctx pucFrame usLen eMBMasterFuncWriteMultipleHoldingRegister goesOn
      (writeRegsCall ctx usLen) := by
  intro app
  unfold writeRegsCall eMBMasterFuncWriteMultipleHoldingRegister
  dsimp only
  split_ifs
  · exact fun _ => rfl
  · rfl
  · rfl

theorem eMBMasterFuncReadWriteMultipleHoldingRegister_callsFirst :
    CallsFirst ctx pucFrame usLen eMBMasterFuncReadWriteMultipleHoldingRegister True
      (readWriteCall ctx pucFrame usLen) := by
  intro app
  unfold readWriteCall eMBMasterFuncReadWriteMultipleHoldingRegister
  dsimp only
  split_ifs
  · rfl
  · exact fun herr => if_neg (herr trivial)
  · rfl
  · rfl

/-- The handlers of the table call what `firstCall` says. -/
theorem handler_callsFirst {code : UChar} {pxHandler : MasterHandler}
    (hfind : findHandler code xMasterFuncHandlers = some pxHandler) :
    CallsFirst ctx pucFrame usLen pxHandler (code = mbFuncReadwriteMultipleRegisters)
      (firstCall ctx pucFrame usLen code) := by
  rcases findHandler_xMasterFuncHandlers hfind with
      ⟨hc, rfl⟩ | ⟨hc, rfl⟩ | ⟨hc, rfl⟩ | ⟨hc, rfl⟩ | ⟨hc, rfl⟩ | ⟨hc, rfl⟩ | ⟨hc, rfl⟩ |
      ⟨hc, rfl⟩ | ⟨hc, rfl⟩ | ⟨hc, rfl⟩ <;> rw [hc]
  · exact fun _ => rfl
  · exact masterFuncRead_callsFirst regBytecnt eMBMasterRegInputCB
  · exact masterFuncRead_callsFirst regBytecnt eMBMasterRegHoldingCB
  · exact eMBMasterFuncWriteMultipleHoldingRegister_callsFirst
  · exact eMBMasterFuncWriteHoldingRegister_callsFirst
  · rw [eq_self]
    exact eMBMasterFuncReadWriteMultipleHoldingRegister_callsFirst
  · exact masterFuncRead_callsFirst bitBytecnt eMBMasterRegCoilsCB
  · exact eMBMasterFuncWriteCoil_callsFirst
  · exact eMBMasterFuncWriteMultipleCoils_callsFirst
  · exact masterFuncRead_callsFirst bitBytecnt eMBMasterRegDiscreteCB

/-- No callback is called for a function code without a handler. -/
theorem firstCall_none {code : UChar} (hfind : findHandler code xMasterFuncHandlers = none) :
    firstCall ctx pucFrame usLen code = none := by
  have hcode (c : UChar) := toNat_ne_of_findHandler (c := c) hfind
  unfold firstCall
  split
  · exact absurd ‹_› (hcode 1 nofun)
  · exact absurd ‹_› (hcode 2 nofun)
  · exact absurd ‹_› (hcode 3 nofun)
  · exact absurd ‹_› (hcode 4 nofun)
  · exact absurd ‹_› (hcode 5 nofun)
  · exact absurd ‹_› (hcode 6 nofun)
  · exact absurd ‹_› (hcode 15 nofun)
  · exact absurd ‹_› (hcode 16 nofun)
  · exact absurd ‹_› (hcode 23 nofun)
  · rfl

end CallsFirst

/-- The arguments of a request that is not refused name a slave, or all of them. -/
theorem MasterRequest.addr_le {q : MasterRequest} (h : q.illArg = false) :
    q.ucSndAddr.toNat ≤ mbMasterTotalSlaveNum := by
  have hle : decide (mbMasterTotalSlaveNum < q.ucSndAddr.toNat) = false :=
    (Bool.or_eq_false_iff.mp h).1
  exact Nat.le_of_not_lt (of_decide_eq_false hle)

namespace Master

/-! ## The calls of a poll -/

/-- The loop over the slaves after the handler has run for the first `n`. -/
def handledUpTo (pxHandler : MasterHandler) (s : Master) (n : Nat) : Master :=
  (List.range n).foldl
    (fun s j => callHandler pxHandler { s with ucMBMasterDestAddress := BitVec.ofNat 8 (j + 1) })
    { s with usLength := s.usMasterSendPDULength.toNat }

/-- The state in which the loop calls the handler for slave `j + 1`. -/
def atSlave (pxHandler : MasterHandler) (s : Master) (j : Nat) : Master :=
  { handledUpTo pxHandler s j with ucMBMasterDestAddress := BitVec.ofNat 8 (j + 1) }

theorem handledUpTo_succ (pxHandler : MasterHandler) (s : Master) (j : Nat) :
    handledUpTo pxHandler s (j + 1) = callHandler pxHandler (atSlave pxHandler s j) := by
  unfold atSlave handledUpTo
  rw [List.range_succ, List.foldl_append]
  rfl

/-- The states in which the execution of the frame calls a handler. -/
def executeCalls (s : Master) : List Master :=
  if ExceptionFrame s.frame then []
  else
    match findHandler (s.frame mbPduFuncOff) xMasterFuncHandlers with
    | none => []
    | some pxHandler =>
        if s.xFrameIsBroadcast then
          (List.range mbMasterTotalSlaveNum).map (atSlave pxHandler s.fetched)
        else [s.fetched]

/-- The poll handles `EV_MASTER_EXECUTE`. -/
def Executing (s : Master) (junk : Option MBMasterEventType) : Prop :=
  (s.eMBState = .enabled ∨ s.eMBState = .established) ∧
    masterChannel.Returns s.xMasterOsEvent ∧ s.polled junk = some .execute ∧ s.ucMBFrame ≠ .null

instance (s : Master) (junk : Option MBMasterEventType) : Decidable (s.Executing junk) := by
  unfold Executing
  infer_instance

/-- The states in which a poll calls a handler. -/
def pollCalls (s : Master) (junk : Option MBMasterEventType) : List Master :=
  if s.Executing junk then s.drained.executeCalls else []

/-- A handler is called that goes on to call a register callback. -/
def Reaches (s : Master) : Prop :=
  (firstCall s.ctx s.frame s.usLength s.ucFunctionCode).isSome

instance (s : Master) : Decidable s.Reaches := by
  unfold Reaches
  infer_instance

/-- The destination address has a row in the mirror. -/
def HasRow (s : Master) : Prop :=
  1 ≤ s.ucMBMasterDestAddress.toNat ∧ s.ucMBMasterDestAddress.toNat ≤ mbMasterTotalSlaveNum

instance (s : Master) : Decidable s.HasRow := by
  unfold HasRow
  infer_instance

/-- Whenever the poll calls a handler that reaches a callback, the destination address has a
row. -/
def RowsValid (s : Master) (junk : Option MBMasterEventType) : Prop :=
  ∀ t ∈ s.pollCalls junk, t.Reaches → t.HasRow

instance (s : Master) (junk : Option MBMasterEventType) : Decidable (s.RowsValid junk) := by
  unfold RowsValid
  infer_instance

/-- A frame that is executed for one slave, with destination address zero, reaches a callback. -/
def Unaddressed (s : Master) : Prop :=
  ¬ ExceptionFrame s.frame ∧ s.xFrameIsBroadcast = false ∧
    s.ucMBMasterDestAddress = mbAddressBroadcast ∧
      (firstCall s.ctx s.frame s.usLength (s.frame mbPduFuncOff)).isSome

/-! ## The destination address is at most 16 -/

/-- The destination address, and the address of a call that is about to be written, are at
most 16. -/
structure Addressed (s : Master) : Prop where
  dest : s.ucMBMasterDestAddress.toNat ≤ mbMasterTotalSlaveNum
  taken : ∀ i q, s.calls i = .taken q → q.ucSndAddr.toNat ≤ mbMasterTotalSlaveNum

variable {s s' : Master} {junk : Option MBMasterEventType}

/-- A step that leaves the destination address and the calls alone. -/
theorem Addressed.same (h : Addressed s) (hd : s'.ucMBMasterDestAddress = s.ucMBMasterDestAddress)
    (hc : s'.calls = s.calls) : Addressed s' :=
  ⟨hd ▸ h.dest, hc ▸ h.taken⟩

/-- A call moves on, not to where it writes its request. -/
theorem Addressed.setCall (h : Addressed s) (i : Nat) {c : CallState}
    (hc : ∀ q, c = .taken q → q.ucSndAddr.toNat ≤ mbMasterTotalSlaveNum) :
    Addressed (s.setCall i c) := by
  refine ⟨h.dest, fun j q hj => ?_⟩
  by_cases hji : j = i
  · rw [hji, setCall_same] at hj
    exact hc q hj
  · rw [setCall_other s c hji] at hj
    exact h.taken j q hj

theorem PortStep.addressed (h : PortStep s s') (ha : Addressed s) : Addressed s' :=
  ha.same h.dest h.keeps.calls

theorem Addressed.callHandler (h : Addressed s) (pxHandler : MasterHandler) :
    Addressed (callHandler pxHandler s) := by
  refine h.same ?_ (callHandler_executes pxHandler s).keeps.calls
  unfold Master.callHandler setFrame
  dsimp only
  split <;> split <;> rfl

/-- The loop over the slaves leaves the address of the last one. -/
theorem Addressed.handledUpTo (h : Addressed s) (pxHandler : MasterHandler) {n : Nat}
    (hn : n ≤ mbMasterTotalSlaveNum) : Addressed (handledUpTo pxHandler s n) := by
  induction n with
  | zero => exact ⟨h.dest, h.taken⟩
  | succ j ih =>
    have hj : j + 1 ≤ 16 := hn
    have hset : Addressed (atSlave pxHandler s j) := by
      refine ⟨?_, (ih (by omega)).taken⟩
      show (BitVec.ofNat 8 (j + 1)).toNat ≤ 16
      rw [BitVec.toNat_ofNat]
      omega
    rw [handledUpTo_succ]
    exact hset.callHandler pxHandler

theorem Addressed.callHandlerAll (h : Addressed s) (pxHandler : MasterHandler) :
    Addressed (callHandlerAll pxHandler s) :=
  h.handledUpTo pxHandler (Nat.le_refl _)

theorem Addressed.executeFrame (h : Addressed s) : Addressed s.executeFrame := by
  have hfetched : Addressed s.fetched := ⟨h.dest, h.taken⟩
  by_cases hex : ExceptionFrame s.frame
  · rw [executeFrame_exception hex]
    exact ⟨h.dest, h.taken⟩
  · rw [executeFrame_handler hex]
    split
    · exact hfetched
    · split
      · exact hfetched.callHandlerAll _
      · exact hfetched.callHandler _

theorem Addressed.handle (h : Addressed s) {ev : Option MBMasterEventType}
    (hs : s.handle ev = some s') : Addressed s' := by
  cases handled_of_handle hs with
  | nothing => exact h
  | failed =>
    have hex := h.executeFrame
    exact ⟨hex.dest, hex.taken⟩
  | executed =>
    have hex := h.executeFrame
    exact ⟨hex.dest, hex.taken⟩
  | _ => exact ⟨h.dest, h.taken⟩

theorem Addressed.poll (h : Addressed s) (hs : s.eMBMasterPoll junk = some s') :
    Addressed s' := by
  rcases poll_cases hs with ⟨-, rfl⟩ | ⟨-, -, hs⟩
  · exact h
  · exact Addressed.handle (s := s.drained) ⟨h.dest, h.taken⟩ hs

/-- Every step keeps the addresses at most 16. -/
theorem Addressed.step (h : Addressed s) {a : MasterAction} (hst : s.step a = some s') :
    Addressed s' := by
  cases a with
  | byte ucByte => exact (portStep_byte hst).addressed h
  | timer => exact (portStep_timer hst).addressed h
  | txReady => exact (portStep_txReady hst).addressed h
  | poll junk => exact h.poll hst
  | refuse i q =>
    obtain ⟨_, -, rfl, -⟩ := refuse_cases hst
    exact h.setCall i nofun
  | take i q =>
    obtain ⟨-, hill, -, rfl⟩ := take_cases hst
    have hset := h.setCall i (c := .taken q) fun q' hq => by
      cases hq
      exact MasterRequest.addr_le hill
    exact ⟨hset.dest, hset.taken⟩
  | fill i =>
    obtain ⟨q, hcall, rfl⟩ := fill_cases hst
    have hfill : Addressed (s.fillSndBuf q) := ⟨h.taken i q hcall, h.taken⟩
    exact hfill.setCall i nofun
  | submit i =>
    obtain ⟨q, -, rfl⟩ := submit_cases hst
    exact Addressed.setCall (s := (s.post .frameSent).record (.posted i)) ⟨h.dest, h.taken⟩ i nofun
  | finish i =>
    obtain ⟨q, e, flags, -, -, -, rfl⟩ := finish_cases hst
    have hflags : Addressed ({ s with xMasterOsEvent := flags }.record (.returned i e)) :=
      ⟨h.dest, h.taken⟩
    exact hflags.setCall i nofun

/-- In every run the destination address stays at most 16. -/
theorem addressed_of_reachable (h : Reachable Started step s) : Addressed s := by
  refine h.invariant ?_ fun s a s' hs _ hst => hs.step hst
  rintro s ⟨app, rfl⟩
  exact ⟨Nat.zero_le _, nofun⟩

/-! ## When a callback finds no row -/

/-- The handlers that the loop over all slaves calls find a row. -/
theorem hasRow_atSlave (pxHandler : MasterHandler) (s : Master) {j : Nat}
    (hj : j < mbMasterTotalSlaveNum) : (atSlave pxHandler s j).HasRow := by
  have hdest : (atSlave pxHandler s j).ucMBMasterDestAddress.toNat = j + 1 := by
    have hlt : j < 16 := hj
    show (BitVec.ofNat 8 (j + 1)).toNat = j + 1
    rw [BitVec.toNat_ofNat]
    omega
  unfold HasRow
  omega

/-- A destination address of at most 16 has no row exactly if it is zero. -/
theorem Addressed.not_hasRow_iff (h : Addressed s) :
    ¬ s.HasRow ↔ s.ucMBMasterDestAddress = mbAddressBroadcast := by
  have hdest := h.dest
  rw [← BitVec.toNat_inj]
  show ¬ s.HasRow ↔ s.ucMBMasterDestAddress.toNat = 0
  unfold HasRow
  omega

/-- An execution calls its callbacks for rows of the mirror unless it is for one slave, with
destination address zero. -/
theorem Addressed.executeCalls (h : Addressed s) :
    (∀ t ∈ s.executeCalls, t.Reaches → t.HasRow) ↔ ¬ s.Unaddressed := by
  unfold Master.executeCalls
  by_cases hexc : ExceptionFrame s.frame
  · rw [if_pos hexc]
    exact iff_of_true (fun _ ht => absurd ht List.not_mem_nil) fun hbad => hbad.1 hexc
  · rw [if_neg hexc]
    cases hfind : findHandler (s.frame mbPduFuncOff) xMasterFuncHandlers with
    | none =>
      refine iff_of_true (fun _ ht => absurd ht List.not_mem_nil) fun hbad => ?_
      have hcall := hbad.2.2.2
      rw [firstCall_none hfind] at hcall
      cases hcall
    | some pxHandler =>
      dsimp only
      cases hb : s.xFrameIsBroadcast with
      | true =>
        rw [if_pos rfl]
        refine iff_of_true (fun t ht _ => ?_) fun hbad => ?_
        · obtain ⟨j, hj, rfl⟩ := List.mem_map.mp ht
          exact hasRow_atSlave pxHandler _ (List.mem_range.mp hj)
        · exact Bool.false_ne_true (hbad.2.1.symm.trans hb)
      | false =>
        have hrow : ¬ s.fetched.HasRow ↔ s.ucMBMasterDestAddress = mbAddressBroadcast :=
          h.not_hasRow_iff
        rw [if_neg Bool.false_ne_true, List.forall_mem_singleton]
        constructor
        · rintro hvalid ⟨-, -, hdest, hcall⟩
          exact hrow.mpr hdest (hvalid hcall)
        · intro hgood hcall
          exact not_not.mp fun hno => hgood ⟨hexc, hb, hrow.mp hno, hcall⟩

/-- In every reachable state, a poll calls its callbacks for rows of the mirror exactly if it does
not execute a frame for one slave with destination address zero. -/
theorem rowsValid_iff (h : Reachable Started step s) (junk : Option MBMasterEventType) :
    s.RowsValid junk ↔ ¬ (s.Executing junk ∧ s.Unaddressed) := by
  have hdrained : Addressed s.drained := (addressed_of_reachable h).same rfl rfl
  unfold RowsValid pollCalls
  by_cases hex : s.Executing junk
  · rw [if_pos hex, hdrained.executeCalls]
    exact not_congr ⟨fun hbad => ⟨hex, hbad⟩, fun hbad => hbad.2⟩
  · rw [if_neg hex]
    exact iff_of_true (fun _ ht => absurd ht List.not_mem_nil) fun hbad => hex hbad.1

/-! ## A frame from address zero -/

/-- Whether the next poll finds its rows after some actions, the destination address, and how many
handlers the poll calls that reach a callback. -/
def rowsAfter (as : List MasterAction) : Option (Bool × UChar × Nat) :=
  (run step (static .initial).eMBMasterInit.eMBMasterEnable.2 as).map fun s =>
    (s.RowsValid none, s.ucMBMasterDestAddress, (s.pollCalls none).countP (·.Reaches))

/-- A register write of address zero comes in before any request. -/
def unaddressed : List UChar :=
  [0, 6, 0, 2, 0, 7] ++ crcBytes (usMBCRC16List [0, 6, 0, 2, 0, 7])

/-- It is stored in front of the mirror. -/
theorem rows_not_valid :
    ¬ ∀ s junk, Reachable Started step s → RowsValid s junk := by
  intro h
  have hrun : rowsAfter ([.timer, .poll none] ++ unaddressed.map .byte ++ [.timer, .poll none]) =
      some (false, 0, 1) := by decide +kernel
  obtain ⟨s, hs, heq⟩ := Option.map_eq_some_iff.mp hrun
  have hbad : decide (s.RowsValid none) = false := congrArg Prod.fst heq
  exact of_decide_eq_false hbad (h s none (Reachable.of_run (.start ⟨_, rfl⟩) hs))

/-- The answer to a request is stored in a row. -/
theorem rowsValid_writeOne : ∃ s, Reachable Started step s ∧
    (s.pollCalls none).countP (·.Reaches) = 1 ∧ s.RowsValid none := by
  have hrun : rowsAfter ([.timer, .poll none] ++ sendOne ++ writeOne.frame.map .byte ++
      [.timer, .poll none]) = some (true, 1, 1) := by decide +kernel
  obtain ⟨s, hs, heq⟩ := Option.map_eq_some_iff.mp hrun
  have hreach : Reachable Started step s := Reachable.of_run (.start ⟨_, rfl⟩) hs
  have hdest : s.ucMBMasterDestAddress = 1 := congrArg (fun r => r.2.1) heq
  refine ⟨s, hreach, congrArg (fun r => r.2.2) heq, (rowsValid_iff hreach none).mpr fun hbad => ?_⟩
  exact absurd (hdest.symm.trans hbad.2.2.2.1) (by decide)

end Master

end FreeModbus
