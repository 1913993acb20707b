import FreeModbus.Master.App
import FreeModbus.Slave.Functions

/-!
# The function handlers of the master

The `eMBMasterFunc...` handlers of `mbfunccoils_m.c`, `mbfuncdisc_m.c`,
`mbfuncinput_m.c` and `mbfuncholding_m.c`.  A handler gets the PDU of a reply and
stores in the mirror what was asked for.

Address and count of a request come partly from the reply and partly from the
send buffer, where the request still lies.  Besides the frame a handler reads
three things: the destination address, the broadcast flag and the send buffer
(`MasterCtx`).  Function 17 has the handler of the slave, which rewrites the
frame.

`Accepts` and `Stores` spell out, field by field, when a reply is taken for a
success and when something is written to the mirror.
-/

namespace FreeModbus

open ByteMemory

abbrev mbPduMasterFuncReadSizeMin : Nat := 1
abbrev mbPduMasterFuncWriteMulCoilsSize : Nat := 5
abbrev mbPduMasterFuncWriteMulRegsSize : Nat := 4

/-- What the handlers of the master read besides the frame. -/
structure MasterCtx where
  ucMBMasterDestAddress : UChar
  xFrameIsBroadcast : Bool
  /-- `vMBMasterGetPDUSndBuf`. -/
  pucPDUSndBuf : Buf

/-- The type of a master handler. -/
abbrev MasterHandler := MasterCtx → MasterApp → Buf → Nat → FuncResult MasterApp

/-- A handler that returns after its callback. -/
def stored (pucFrame : Buf) (usLen : Nat) (reg : MBErrorCode × MasterApp) : FuncResult MasterApp :=
  if reg.1 ≠ .enoerr then
    { eStatus := prveMBError2Exception reg.1, pucFrame := pucFrame, usLen := usLen, app := reg.2 }
  else { eStatus := .none, pucFrame := pucFrame, usLen := usLen, app := reg.2 }

/-- A handler that returns `e` before any callback. -/
def unstored (pucFrame : Buf) (usLen : Nat) (app : MasterApp) (e : MBException) :
    FuncResult MasterApp :=
  { eStatus := e, pucFrame := pucFrame, usLen := usLen, app := app }

/-! ## Reads -/

/-- The common body of the four reads.  `bytecntOk` compares the count with the byte count
of the reply, `cb` is the callback. -/
def masterFuncRead (bytecntOk : UShort → UChar → Bool) (cb : MasterCallback) : MasterHandler :=
  fun ctx app pucFrame usLen =>
    if ctx.xFrameIsBroadcast then unstored pucFrame usLen app .none
    else if mbPduSizeMin + mbPduMasterFuncReadSizeMin ≤ usLen then
      let usRegAddress := wordAt ctx.pucPDUSndBuf mbPduFuncReadAddrOff + 1
      let usCount := wordAt ctx.pucPDUSndBuf mbPduFuncReadCntOff
      if 1 ≤ usCount.toNat ∧ bytecntOk usCount (pucFrame mbPduDataOff) then
        stored pucFrame usLen
          (cb ctx.ucMBMasterDestAddress app (pucFrame.at (mbPduDataOff + 1)) usRegAddress usCount)
      else unstored pucFrame usLen app .illegalDataValue
    else unstored pucFrame usLen app .illegalDataValue

/-- The byte count of a bit read, compared as `UCHAR`. -/
def bitBytecnt (n : UShort) (b : UChar) : Bool := ucNBytes n = b

/-- The byte count of a register read, compared as `int`. -/
def regBytecnt (n : UShort) (b : UChar) : Bool := 2 * n.toNat = b.toNat

/-- `eMBMasterFuncReadCoils`. -/
def eMBMasterFuncReadCoils : MasterHandler := masterFuncRead bitBytecnt eMBMasterRegCoilsCB

/-- `eMBMasterFuncReadDiscreteInputs`. -/
def eMBMasterFuncReadDiscreteInputs : MasterHandler :=
  masterFuncRead bitBytecnt eMBMasterRegDiscreteCB

/-- `eMBMasterFuncReadHoldingRegister`. -/
def eMBMasterFuncReadHoldingRegister : MasterHandler :=
  masterFuncRead regBytecnt eMBMasterRegHoldingCB

/-- `eMBMasterFuncReadInputRegister`. -/
def eMBMasterFuncReadInputRegister : MasterHandler :=
  masterFuncRead regBytecnt eMBMasterRegInputCB

/-! ## Single writes -/

/-- `eMBMasterFuncWriteCoil`. -/
def eMBMasterFuncWriteCoil : MasterHandler := fun ctx app pucFrame usLen =>
  if usLen = mbPduFuncWriteSize + mbPduSizeMin then
    let usRegAddress := wordAt pucFrame mbPduFuncWriteAddrOff + 1
    if pucFrame (mbPduFuncWriteValueOff + 1) = 0x00 ∧
        (pucFrame mbPduFuncWriteValueOff = 0xFF ∨ pucFrame mbPduFuncWriteValueOff = 0x00) then
      let ucBuf := coilBuf (decide (pucFrame mbPduFuncWriteValueOff = 0xFF))
      stored pucFrame usLen (eMBMasterRegCoilsCB ctx.ucMBMasterDestAddress app ucBuf usRegAddress 1)
    else unstored pucFrame usLen app .illegalDataValue
  else unstored pucFrame usLen app .illegalDataValue

/-- `eMBMasterFuncWriteHoldingRegister`. -/
def eMBMasterFuncWriteHoldingRegister : MasterHandler := fun ctx app pucFrame usLen =>
  if usLen = mbPduFuncWriteSize + mbPduSizeMin then
    let usRegAddress := wordAt pucFrame mbPduFuncWriteAddrOff + 1
    stored pucFrame usLen (eMBMasterRegHoldingCB ctx.ucMBMasterDestAddress app
      (pucFrame.at mbPduFuncWriteValueOff) usRegAddress 1)
  else unstored pucFrame usLen app .illegalDataValue

/-! ## Multiple writes -/

/-- `eMBMasterFuncWriteMultipleCoils`.  Address and count come from the reply, byte count and
data from the request. -/
def eMBMasterFuncWriteMultipleCoils : MasterHandler := fun ctx app pucFrame usLen =>
  if usLen = mbPduMasterFuncWriteMulCoilsSize ∨ ctx.xFrameIsBroadcast then
    let usRegAddress := wordAt pucFrame mbPduFuncWriteMulAddrOff + 1
    let usCoilCnt := wordAt pucFrame mbPduFuncWriteMulCntOff
    let ucByteCount := ctx.pucPDUSndBuf mbPduFuncWriteMulBytecntOff
    if 1 ≤ usCoilCnt.toNat ∧ ucNBytes usCoilCnt = ucByteCount then
      stored pucFrame usLen (eMBMasterRegCoilsCB ctx.ucMBMasterDestAddress app
        (ctx.pucPDUSndBuf.at mbPduFuncWriteMulValuesOff) usRegAddress usCoilCnt)
    else unstored pucFrame usLen app .illegalDataValue
  else unstored pucFrame usLen app .illegalDataValue

/-- `eMBMasterFuncWriteMultipleHoldingRegister`.  Everything comes from the request. -/
def eMBMasterFuncWriteMultipleHoldingRegister : MasterHandler := fun ctx app pucFrame usLen =>
  if usLen = mbPduSizeMin + mbPduMasterFuncWriteMulRegsSize ∨ ctx.xFrameIsBroadcast then
    let usRegAddress := wordAt ctx.pucPDUSndBuf mbPduFuncWriteMulAddrOff + 1
    let usRegCount := wordAt ctx.pucPDUSndBuf mbPduFuncWriteMulCntOff
    let ucRegByteCount := ctx.pucPDUSndBuf mbPduFuncWriteMulBytecntOff
    if ucRegByteCount.toNat = 2 * usRegCount.toNat then
      stored pucFrame usLen (eMBMasterRegHoldingCB ctx.ucMBMasterDestAddress app
        (ctx.pucPDUSndBuf.at mbPduFuncWriteMulValuesOff) usRegAddress usRegCount)
    else unstored pucFrame usLen app .illegalDataValue
  else unstored pucFrame usLen app .illegalDataValue

/-! ## Read and write -/

/-- `eMBMasterFuncReadWriteMultipleHoldingRegister`.  A reply below the minimal length falls
through to `MB_EX_NONE`. -/
def eMBMasterFuncReadWriteMultipleHoldingRegister : MasterHandler := fun ctx app pucFrame usLen =>
  if ctx.xFrameIsBroadcast then unstored pucFrame usLen app .none
  else if mbPduSizeMin + mbPduMasterFuncReadSizeMin ≤ usLen then
    let usRegReadAddress := wordAt ctx.pucPDUSndBuf mbPduFuncReadwriteReadAddrOff + 1
    let usRegReadCount := wordAt ctx.pucPDUSndBuf mbPduFuncReadwriteReadRegcntOff
    let usRegWriteAddress := wordAt ctx.pucPDUSndBuf mbPduFuncReadwriteWriteAddrOff + 1
    let usRegWriteCount := wordAt ctx.pucPDUSndBuf mbPduFuncReadwriteWriteRegcntOff
    if 2 * usRegReadCount.toNat = (pucFrame mbPduDataOff).toNat then
      let reg₁ := eMBMasterRegHoldingCB ctx.ucMBMasterDestAddress app
        (ctx.pucPDUSndBuf.at mbPduFuncReadwriteWriteValuesOff) usRegWriteAddress usRegWriteCount
      if reg₁.1 = .enoerr then
        stored pucFrame usLen (eMBMasterRegHoldingCB ctx.ucMBMasterDestAddress reg₁.2
          (pucFrame.at (mbPduDataOff + 1)) usRegReadAddress usRegReadCount)
      else stored pucFrame usLen reg₁
    else unstored pucFrame usLen app .illegalDataValue
  else unstored pucFrame usLen app .none

/-! ## The handler table -/

/-- `eMBFuncReportSlaveID` as an entry of the master's table. -/
def masterReportSlaveID : MasterHandler := fun _ app pucFrame _ =>
  { eStatus := .none
    pucFrame := reportSlaveID app.slaveID pucFrame
    usLen := mbPduDataOff + app.slaveID.usMBSlaveIDLen
    app := app }

/-- `xMasterFuncHandlers`: the ten built-in handlers, then the free entries. -/
def xMasterFuncHandlers : List (MBFunctionHandler MasterHandler) :=
  [⟨mbFuncOtherReportSlaveid, some masterReportSlaveID⟩,
   ⟨mbFuncReadInputRegister, some eMBMasterFuncReadInputRegister⟩,
   ⟨mbFuncReadHoldingRegister, some eMBMasterFuncReadHoldingRegister⟩,
   ⟨mbFuncWriteMultipleRegisters, some eMBMasterFuncWriteMultipleHoldingRegister⟩,
   ⟨mbFuncWriteRegister, some eMBMasterFuncWriteHoldingRegister⟩,
   ⟨mbFuncReadwriteMultipleRegisters, some eMBMasterFuncReadWriteMultipleHoldingRegister⟩,
   ⟨mbFuncReadCoils, some eMBMasterFuncReadCoils⟩,
   ⟨mbFuncWriteSingleCoil, some eMBMasterFuncWriteCoil⟩,
   ⟨mbFuncWriteMultipleCoils, some eMBMasterFuncWriteMultipleCoils⟩,
   ⟨mbFuncReadDiscreteInputs, some eMBMasterFuncReadDiscreteInputs⟩] ++
  List.replicate (mbFuncHandlersMax - 10) ⟨0, none⟩

/-- What the table holds. -/
theorem findHandler_xMasterFuncHandlers {code : UChar} {pxHandler : MasterHandler}
    (h : findHandler code xMasterFuncHandlers = some pxHandler) :
    (code = mbFuncOtherReportSlaveid ∧ pxHandler = masterReportSlaveID) ∨
      (code = mbFuncReadInputRegister ∧ pxHandler = eMBMasterFuncReadInputRegister) ∨
      (code = mbFuncReadHoldingRegister ∧ pxHandler = eMBMasterFuncReadHoldingRegister) ∨
      (code = mbFuncWriteMultipleRegisters ∧
        pxHandler = eMBMasterFuncWriteMultipleHoldingRegister) ∨
      (code = mbFuncWriteRegister ∧ pxHandler = eMBMasterFuncWriteHoldingRegister) ∨
      (code = mbFuncReadwriteMultipleRegisters ∧
        pxHandler = eMBMasterFuncReadWriteMultipleHoldingRegister) ∨
      (code = mbFuncReadCoils ∧ pxHandler = eMBMasterFuncReadCoils) ∨
      (code = mbFuncWriteSingleCoil ∧ pxHandler = eMBMasterFuncWriteCoil) ∨
      (code = mbFuncWriteMultipleCoils ∧ pxHandler = eMBMasterFuncWriteMultipleCoils) ∨
      (code = mbFuncReadDiscreteInputs ∧ pxHandler = eMBMasterFuncReadDiscreteInputs) := by
  have hmem := mem_of_findHandler h
  simpa only [xMasterFuncHandlers, List.cons_append, List.nil_append, List.mem_cons,
    List.mem_replicate, MBFunctionHandler.mk.injEq, Option.some.injEq, reduceCtorEq, and_false,
    or_false] using hmem

/-- The dispatch of `eMBMasterPoll` on a reply: the handler for the first byte of the frame, if
the table has one. -/
def masterDispatch : MasterHandler := fun ctx app pucFrame usLen =>
  match findHandler (pucFrame mbPduFuncOff) xMasterFuncHandlers with
  | some pxHandler => pxHandler ctx app pucFrame usLen
  | none => unstored pucFrame usLen app .illegalFunction

/-! ## Handlers on a reply that passes their checks -/

section Passing

variable {ctx : MasterCtx} {app app' : MasterApp} {frame : Buf} {usLen : Nat} {a n : UShort}

theorem masterFuncRead_ok {bytecntOk : UShort → UChar → Bool} {cb : MasterCallback}
    (hb : ctx.xFrameIsBroadcast = false) (hlen : 2 ≤ usLen) (ha : wordAt ctx.pucPDUSndBuf 1 = a)
    (hn : wordAt ctx.pucPDUSndBuf 3 = n) (hok : 1 ≤ n.toNat ∧ bytecntOk n (frame 1))
    (hcb : cb ctx.ucMBMasterDestAddress app (frame.at 2) (a + 1) n = (.enoerr, app')) :
    masterFuncRead bytecntOk cb ctx app frame usLen = ⟨.none, frame, usLen, app'⟩ := by
  unfold masterFuncRead
  simp only [hb, Bool.false_eq_true, if_false, mbPduSizeMin, mbPduMasterFuncReadSizeMin, hlen,
    if_true, mbPduFuncReadAddrOff, mbPduFuncReadCntOff, mbPduDataOff, ha, hn, if_pos hok, hcb]
  rfl

theorem eMBMasterFuncWriteCoil_passes {v : Bool} (ha : wordAt frame 1 = a)
    (hv : frame 3 = if v then 0xFF else 0x00) (hz : frame 4 = 0x00) :
    eMBMasterFuncWriteCoil ctx app frame 5 =
      stored frame 5 (eMBMasterRegCoilsCB ctx.ucMBMasterDestAddress app (coilBuf v) (a + 1) 1) := by
  obtain ⟨hok, hval⟩ := coilValue_ok hv hz
  unfold eMBMasterFuncWriteCoil
  simp only [mbPduFuncWriteAddrOff, mbPduFuncWriteValueOff, mbPduFuncWriteSize, mbPduSizeMin,
    mbPduDataOff, ha, if_pos hok, hval]
  rfl

theorem eMBMasterFuncWriteCoil_ok {v : Bool} (ha : wordAt frame 1 = a)
    (hv : frame 3 = if v then 0xFF else 0x00) (hz : frame 4 = 0x00)
    (hcb : eMBMasterRegCoilsCB ctx.ucMBMasterDestAddress app (coilBuf v) (a + 1) 1 =
      (.enoerr, app')) :
    eMBMasterFuncWriteCoil ctx app frame 5 = ⟨.none, frame, 5, app'⟩ := by
  rw [eMBMasterFuncWriteCoil_passes ha hv hz, hcb]
  rfl

theorem eMBMasterFuncWriteHoldingRegister_passes (ha : wordAt frame 1 = a) :
    eMBMasterFuncWriteHoldingRegister ctx app frame 5 =
      stored frame 5
        (eMBMasterRegHoldingCB ctx.ucMBMasterDestAddress app (frame.at 3) (a + 1) 1) := by
  unfold eMBMasterFuncWriteHoldingRegister
  simp only [mbPduFuncWriteAddrOff, mbPduFuncWriteValueOff, mbPduFuncWriteSize, mbPduSizeMin,
    mbPduDataOff, ha]
  rfl

theorem eMBMasterFuncWriteHoldingRegister_ok (ha : wordAt frame 1 = a)
    (hcb : eMBMasterRegHoldingCB ctx.ucMBMasterDestAddress app (frame.at 3) (a + 1) 1 =
      (.enoerr, app')) :
    eMBMasterFuncWriteHoldingRegister ctx app frame 5 = ⟨.none, frame, 5, app'⟩ := by
  rw [eMBMasterFuncWriteHoldingRegister_passes ha, hcb]
  rfl

theorem eMBMasterFuncWriteMultipleCoils_passes (hlen : usLen = 5 ∨ ctx.xFrameIsBroadcast = true)
    (ha : wordAt frame 1 = a) (hn : wordAt frame 3 = n)
    (hok : 1 ≤ n.toNat ∧ ucNBytes n = ctx.pucPDUSndBuf 5) :
    eMBMasterFuncWriteMultipleCoils ctx app frame usLen =
      stored frame usLen (eMBMasterRegCoilsCB ctx.ucMBMasterDestAddress app
        (ctx.pucPDUSndBuf.at 6) (a + 1) n) := by
  unfold eMBMasterFuncWriteMultipleCoils
  simp only [mbPduMasterFuncWriteMulCoilsSize, if_pos hlen, mbPduFuncWriteMulAddrOff,
    mbPduFuncWriteMulCntOff, mbPduFuncWriteMulBytecntOff, mbPduFuncWriteMulValuesOff, mbPduDataOff,
    ha, hn, if_pos hok]

theorem eMBMasterFuncWriteMultipleCoils_ok (hlen : usLen = 5 ∨ ctx.xFrameIsBroadcast = true)
    (ha : wordAt frame 1 = a) (hn : wordAt frame 3 = n)
    (hok : 1 ≤ n.toNat ∧ ucNBytes n = ctx.pucPDUSndBuf 5)
    (hcb : eMBMasterRegCoilsCB ctx.ucMBMasterDestAddress app (ctx.pucPDUSndBuf.at 6) (a + 1) n =
      (.enoerr, app')) :
    eMBMasterFuncWriteMultipleCoils ctx app frame usLen = ⟨.none, frame, usLen, app'⟩ := by
  rw [eMBMasterFuncWriteMultipleCoils_passes hlen ha hn hok, hcb]
  rfl

theorem eMBMasterFuncWriteMultipleHoldingRegister_passes
    (hlen : usLen = 5 ∨ ctx.xFrameIsBroadcast = true)
    (ha : wordAt ctx.pucPDUSndBuf 1 = a) (hn : wordAt ctx.pucPDUSndBuf 3 = n)
    (hok : (ctx.pucPDUSndBuf 5).toNat = 2 * n.toNat) :
    eMBMasterFuncWriteMultipleHoldingRegister ctx app frame usLen =
      stored frame usLen (eMBMasterRegHoldingCB ctx.ucMBMasterDestAddress app
        (ctx.pucPDUSndBuf.at 6) (a + 1) n) := by
  unfold eMBMasterFuncWriteMultipleHoldingRegister
  simp only [mbPduSizeMin, mbPduMasterFuncWriteMulRegsSize, Nat.reduceAdd, if_pos hlen,
    mbPduFuncWriteMulAddrOff, mbPduFuncWriteMulCntOff, mbPduFuncWriteMulBytecntOff,
    mbPduFuncWriteMulValuesOff, mbPduDataOff, ha, hn, if_pos hok]

theorem eMBMasterFuncWriteMultipleHoldingRegister_ok
    (hlen : usLen = 5 ∨ ctx.xFrameIsBroadcast = true)
    (ha : wordAt ctx.pucPDUSndBuf 1 = a) (hn : wordAt ctx.pucPDUSndBuf 3 = n)
    (hok : (ctx.pucPDUSndBuf 5).toNat = 2 * n.toNat)
    (hcb : eMBMasterRegHoldingCB ctx.ucMBMasterDestAddress app (ctx.pucPDUSndBuf.at 6) (a + 1) n =
      (.enoerr, app')) :
    eMBMasterFuncWriteMultipleHoldingRegister ctx app frame usLen =
      ⟨.none, frame, usLen, app'⟩ := by
  rw [eMBMasterFuncWriteMultipleHoldingRegister_passes hlen ha hn hok, hcb]
  rfl

theorem eMBMasterFuncReadWriteMultipleHoldingRegister_ok {ra rn wa wn : UShort}
    {app₁ : MasterApp} (hb : ctx.xFrameIsBroadcast = false) (hlen : 2 ≤ usLen)
    (hra : wordAt ctx.pucPDUSndBuf 1 = ra) (hrn : wordAt ctx.pucPDUSndBuf 3 = rn)
    (hwa : wordAt ctx.pucPDUSndBuf 5 = wa) (hwn : wordAt ctx.pucPDUSndBuf 7 = wn)
    (hok : 2 * rn.toNat = (frame 1).toNat)
    (hw : eMBMasterRegHoldingCB ctx.ucMBMasterDestAddress app (ctx.pucPDUSndBuf.at 10) (wa + 1) wn =
      (.enoerr, app₁))
    (hr : eMBMasterRegHoldingCB ctx.ucMBMasterDestAddress app₁ (frame.at 2) (ra + 1) rn =
      (.enoerr, app')) :
    eMBMasterFuncReadWriteMultipleHoldingRegister ctx app frame usLen =
      ⟨.none, frame, usLen, app'⟩ := by
  unfold eMBMasterFuncReadWriteMultipleHoldingRegister
  simp only [hb, Bool.false_eq_true, if_false, mbPduSizeMin, mbPduMasterFuncReadSizeMin, hlen,
    if_true, mbPduFuncReadwriteReadAddrOff, mbPduFuncReadwriteReadRegcntOff,
    mbPduFuncReadwriteWriteAddrOff, mbPduFuncReadwriteWriteRegcntOff,
    mbPduFuncReadwriteWriteValuesOff, mbPduDataOff, hra, hrn, hwa, hwn, if_pos hok, hw, hr]
  rfl

theorem masterDispatch_of {code : UChar} {pxHandler : MasterHandler} (hcode : frame 0 = code)
    (hfind : findHandler code xMasterFuncHandlers = some pxHandler) :
    masterDispatch ctx app frame usLen = pxHandler ctx app frame usLen := by
  simp only [masterDispatch, mbPduFuncOff, hcode, hfind]

end Passing

/-! ## When a reply is accepted, and when it is stored -/

section Conditions

variable (ctx : MasterCtx) (frame : Buf) (usLen : Nat)

/-- A reply to a read is stored: the request was not a broadcast, the reply has a byte count
and it is the one of the request, and the range of the request is inside the map. -/
def ReadStores (bytecntOk : UShort → UChar → Bool) (size : Nat) : Prop :=
  ctx.xFrameIsBroadcast = false ∧ 2 ≤ usLen ∧
    (1 ≤ (wordAt ctx.pucPDUSndBuf 3).toNat ∧ bytecntOk (wordAt ctx.pucPDUSndBuf 3) (frame 1)) ∧
      inRange (wordAt ctx.pucPDUSndBuf 1) (wordAt ctx.pucPDUSndBuf 3) 0 size

def WriteCoilStores : Prop :=
  usLen = 5 ∧ (frame 4 = 0x00 ∧ (frame 3 = 0xFF ∨ frame 3 = 0x00)) ∧
    inRange (wordAt frame 1) 1 0 mCoilNcoils

def WriteRegStores : Prop := usLen = 5 ∧ inRange (wordAt frame 1) 1 0 mRegHoldingNregs

def WriteCoilsStores : Prop :=
  (usLen = 5 ∨ ctx.xFrameIsBroadcast = true) ∧
    (1 ≤ (wordAt frame 3).toNat ∧ ucNBytes (wordAt frame 3) = ctx.pucPDUSndBuf 5) ∧
      inRange (wordAt frame 1) (wordAt frame 3) 0 mCoilNcoils

def WriteRegsStores : Prop :=
  (usLen = 5 ∨ ctx.xFrameIsBroadcast = true) ∧
    (ctx.pucPDUSndBuf 5).toNat = 2 * (wordAt ctx.pucPDUSndBuf 3).toNat ∧
      inRange (wordAt ctx.pucPDUSndBuf 1) (wordAt ctx.pucPDUSndBuf 3) 0 mRegHoldingNregs

/-- A reply to a read and write is stored, at least in part: the write comes first. -/
def ReadWriteStores : Prop :=
  ctx.xFrameIsBroadcast = false ∧ 2 ≤ usLen ∧
    2 * (wordAt ctx.pucPDUSndBuf 3).toNat = (frame 1).toNat ∧
      inRange (wordAt ctx.pucPDUSndBuf 5) (wordAt ctx.pucPDUSndBuf 7) 0 mRegHoldingNregs

/-- The handler of the reply's function code returns `MB_EX_NONE`. -/
def Accepts : Prop :=
  match (frame 0).toNat with
  | 1 => ctx.xFrameIsBroadcast = true ∨ ReadStores ctx frame usLen bitBytecnt mCoilNcoils
  | 2 => ctx.xFrameIsBroadcast = true ∨
      ReadStores ctx frame usLen bitBytecnt mDiscreteInputNdiscretes
  | 3 => ctx.xFrameIsBroadcast = true ∨ ReadStores ctx frame usLen regBytecnt mRegHoldingNregs
  | 4 => ctx.xFrameIsBroadcast = true ∨ ReadStores ctx frame usLen regBytecnt mRegInputNregs
  | 5 => WriteCoilStores frame usLen
  | 6 => WriteRegStores frame usLen
  | 15 => WriteCoilsStores ctx frame usLen
  | 16 => WriteRegsStores ctx usLen
  | 17 => True
  | 23 => ctx.xFrameIsBroadcast = true ∨ usLen < 2 ∨ (ReadWriteStores ctx frame usLen ∧
      inRange (wordAt ctx.pucPDUSndBuf 1) (wordAt ctx.pucPDUSndBuf 3) 0 mRegHoldingNregs)
  | _ => False

/-- The handler of the reply's function code writes to the mirror. -/
def Stores : Prop :=
  match (frame 0).toNat with
  | 1 => ReadStores ctx frame usLen bitBytecnt mCoilNcoils
  | 2 => ReadStores ctx frame usLen bitBytecnt mDiscreteInputNdiscretes
  | 3 => ReadStores ctx frame usLen regBytecnt mRegHoldingNregs
  | 4 => ReadStores ctx frame usLen regBytecnt mRegInputNregs
  | 5 => WriteCoilStores frame usLen
  | 6 => WriteRegStores frame usLen
  | 15 => WriteCoilsStores ctx frame usLen
  | 16 => WriteRegsStores ctx usLen
  | 23 => ReadWriteStores ctx frame usLen
  | _ => False

end Conditions

/-- When a handler returns `MB_EX_NONE`, and when it may write. -/
def Meets (h : MasterHandler) (accepts stores : MasterCtx → Buf → Nat → Prop) : Prop :=
  ∀ ctx app frame usLen, ((h ctx app frame usLen).eStatus = .none ↔ accepts ctx frame usLen) ∧
    (¬ stores ctx frame usLen → (h ctx app frame usLen).app = app)

theorem stored_none {frame : Buf} {usLen : Nat} {reg : MBErrorCode × MasterApp} :
    (stored frame usLen reg).eStatus = .none ↔ reg.1 = .enoerr := by
  unfold stored
  split
  · rename_i h
    exact iff_of_false (fun h' => h (prveMBError2Exception_eq_none.mp h')) h
  · rename_i h
    exact iff_of_true rfl (not_not.mp h)

theorem stored_app (frame : Buf) (usLen : Nat) (reg : MBErrorCode × MasterApp) :
    (stored frame usLen reg).app = reg.2 := by
  unfold stored
  split <;> rfl

/-- What a handler comes to after its callback. -/
theorem stored_checks {cb : MasterCallback} {size : Nat} (hcb : ChecksRange cb size)
    {frame buf : Buf} {usLen : Nat} {k : UChar} {app : MasterApp} {a n : UShort} :
    stored frame usLen (cb k app buf (a + 1) n) =
      ⟨if inRange a n 0 size then .none else .illegalDataAddress, frame, usLen,
        (cb k app buf (a + 1) n).2⟩ := by
  have hcheck := hcb k app buf a n
  by_cases hin : inRange a n 0 size
  · rw [if_pos hin] at hcheck ⊢
    exact if_neg (not_not.mpr hcheck)
  · rw [if_neg hin] at hcheck ⊢
    rw [hcheck]
    rfl

section Meets

variable {bytecntOk : UShort → UChar → Bool} {cb : MasterCallback} {size : Nat}

section Stored

variable {frame buf : Buf} {usLen : Nat} {k : UChar} {app : MasterApp} {a n : UShort}
  {c c' : Prop}

/-- A callback that runs once the check `c` holds. -/
theorem meets_stored (hcb : ChecksRange cb size) (hc : c) :
    ((stored frame usLen (cb k app buf (a + 1) n)).eStatus = .none ↔ c ∧ inRange a n 0 size) ∧
      (¬ (c ∧ inRange a n 0 size) → (stored frame usLen (cb k app buf (a + 1) n)).app = app) := by
  rw [stored_none, stored_app, hcb.status]
  exact ⟨⟨fun hr => ⟨hc, hr⟩, fun h => h.2⟩, fun hns => hcb.unchanged fun hr => hns ⟨hc, hr⟩⟩

/-- A callback that runs once two checks hold. -/
theorem meets_stored₂ (hcb : ChecksRange cb size) (hc : c) (hc' : c') :
    ((stored frame usLen (cb k app buf (a + 1) n)).eStatus = .none ↔
        c ∧ c' ∧ inRange a n 0 size) ∧
      (¬ (c ∧ c' ∧ inRange a n 0 size) →
        (stored frame usLen (cb k app buf (a + 1) n)).app = app) := by
  rw [← and_assoc]
  exact meets_stored hcb ⟨hc, hc'⟩

/-- A handler that is refused before its callback. -/
theorem meets_unstored {e : MBException} {accepts stores : Prop} (he : e ≠ .none)
    (h : ¬ accepts) : ((unstored frame usLen app e).eStatus = .none ↔ accepts) ∧
      (¬ stores → (unstored frame usLen app e).app = app) :=
  ⟨iff_of_false he h, fun _ => rfl⟩

end Stored

theorem masterFuncRead_meets (hcb : ChecksRange cb size) :
    Meets (masterFuncRead bytecntOk cb)
      (fun ctx frame usLen => ctx.xFrameIsBroadcast = true ∨
        ReadStores ctx frame usLen bytecntOk size)
      (fun ctx frame usLen => ReadStores ctx frame usLen bytecntOk size) := by
  intro ctx app frame usLen
  unfold masterFuncRead ReadStores
  split
  · rename_i hb
    exact ⟨iff_of_true rfl (Or.inl hb), fun _ => rfl⟩
  · rename_i hb
    have hb' : ctx.xFrameIsBroadcast = false := Bool.eq_false_iff.mpr hb
    simp only [hb', Bool.false_eq_true, false_or, true_and]
    split
    · split
      · exact meets_stored₂ hcb ‹_› ‹_›
      · exact meets_unstored nofun fun h => absurd h.2.1 ‹_›
    · exact meets_unstored nofun fun h => absurd h.1 ‹_›

theorem eMBMasterFuncWriteCoil_meets :
    Meets eMBMasterFuncWriteCoil (fun _ frame usLen => WriteCoilStores frame usLen)
      (fun _ frame usLen => WriteCoilStores frame usLen) := by
  intro ctx app frame usLen
  unfold eMBMasterFuncWriteCoil WriteCoilStores
  split
  · dsimp only
    split
    · exact meets_stored₂ eMBMasterRegCoilsCB_checks ‹_› ‹_›
    · exact meets_unstored nofun fun h => absurd h.2.1 ‹_›
  · exact meets_unstored nofun fun h => absurd h.1 ‹_›

theorem eMBMasterFuncWriteHoldingRegister_meets :
    Meets eMBMasterFuncWriteHoldingRegister (fun _ frame usLen => WriteRegStores frame usLen)
      (fun _ frame usLen => WriteRegStores frame usLen) := by
  intro ctx app frame usLen
  unfold eMBMasterFuncWriteHoldingRegister WriteRegStores
  split
  · exact meets_stored eMBMasterRegHoldingCB_checks ‹_›
  · exact meets_unstored nofun fun h => absurd h.1 ‹_›

theorem eMBMasterFuncWriteMultipleCoils_meets :
    Meets eMBMasterFuncWriteMultipleCoils WriteCoilsStores WriteCoilsStores := by
  intro ctx app frame usLen
  unfold eMBMasterFuncWriteMultipleCoils WriteCoilsStores
  split
  · dsimp only
    split
    · exact meets_stored₂ eMBMasterRegCoilsCB_checks ‹_› ‹_›
    · exact meets_unstored nofun fun h => absurd h.2.1 ‹_›
  · exact meets_unstored nofun fun h => absurd h.1 ‹_›

theorem eMBMasterFuncWriteMultipleHoldingRegister_meets :
    Meets eMBMasterFuncWriteMultipleHoldingRegister
      (fun ctx _ usLen => WriteRegsStores ctx usLen)
      (fun ctx _ usLen => WriteRegsStores ctx usLen) := by
  intro ctx app frame usLen
  unfold eMBMasterFuncWriteMultipleHoldingRegister WriteRegsStores
  split
  · dsimp only
    split
    · exact meets_stored₂ eMBMasterRegHoldingCB_checks ‹_› ‹_›
    · exact meets_unstored nofun fun h => absurd h.2.1 ‹_›
  · exact meets_unstored nofun fun h => absurd h.1 ‹_›

theorem eMBMasterFuncReadWriteMultipleHoldingRegister_meets :
    Meets eMBMasterFuncReadWriteMultipleHoldingRegister
      (fun ctx frame usLen => ctx.xFrameIsBroadcast = true ∨ usLen < 2 ∨
        (ReadWriteStores ctx frame usLen ∧
          inRange (wordAt ctx.pucPDUSndBuf 1) (wordAt ctx.pucPDUSndBuf 3) 0 mRegHoldingNregs))
      ReadWriteStores := by
  intro ctx app frame usLen
  have hcb := eMBMasterRegHoldingCB_checks
  unfold eMBMasterFuncReadWriteMultipleHoldingRegister ReadWriteStores
  split
  · rename_i hb
    exact ⟨iff_of_true rfl (Or.inl hb), fun _ => rfl⟩
  · rename_i hb
    have hb' : ctx.xFrameIsBroadcast = false := Bool.eq_false_iff.mpr hb
    simp only [hb', Bool.false_eq_true, false_or, true_and]
    split
    · rename_i hlen
      have hlen' : ¬ usLen < 2 := Nat.not_lt.mpr hlen
      rw [or_iff_right hlen']
      split
      · rename_i hcnt
        split
        · rename_i hw
          have hwin := (hcb.status _ _ _ _ _).mp hw
          rw [stored_none, stored_app, hcb.status]
          exact ⟨⟨fun hr => ⟨⟨hlen, hcnt, hwin⟩, hr⟩, fun h => h.2⟩,
            fun hns => absurd ⟨hlen, hcnt, hwin⟩ hns⟩
        · rename_i hw
          have hwout := mt (hcb.status _ _ _ _ _).mpr hw
          rw [stored_none, stored_app]
          exact ⟨iff_of_false hw fun h => hwout h.1.2.2, fun _ => hcb.unchanged hwout⟩
      · exact meets_unstored nofun fun h => absurd h.1.2.1 ‹_›
    · exact ⟨iff_of_true rfl (Or.inl (Nat.lt_of_not_le ‹_›)), fun _ => rfl⟩

/-- A code without a handler is none of those that have one. -/
theorem toNat_ne_of_findHandler {code c : UChar}
    (hfind : findHandler code xMasterFuncHandlers = none)
    (hc : findHandler c xMasterFuncHandlers ≠ none) : code.toNat ≠ c.toNat :=
  fun h => hc (BitVec.eq_of_toNat_eq h ▸ hfind)

/-- The dispatch on a reply accepts what `Accepts` says and writes only what `Stores` says. -/
theorem masterDispatch_meets : Meets masterDispatch Accepts Stores := by
  intro ctx app frame usLen
  unfold masterDispatch
  cases hfind : findHandler (frame mbPduFuncOff) xMasterFuncHandlers with
  | none =>
    refine meets_unstored nofun ?_
    have hcode (c : UChar) := toNat_ne_of_findHandler (c := c) hfind
    unfold Accepts
    split
    · exact absurd ‹_› (hcode 1 nofun)
    · exact absurd ‹_› (hcode 2 nofun)
    · exact absurd ‹_› (hcode 3 nofun)
    · exact absurd ‹_› (hcode 4 nofun)
    · exact absurd ‹_› (hcode 5 nofun)
    · exact absurd ‹_› (hcode 6 nofun)
    · exact absurd ‹_› (hcode 15 nofun)
    · exact absurd ‹_› (hcode 16 nofun)
    · exact absurd ‹_› (hcode 17 nofun)
    · exact absurd ‹_› (hcode 23 nofun)
    · exact id
  | some pxHandler =>
    unfold Accepts Stores
    rcases findHandler_xMasterFuncHandlers hfind with
        ⟨hc, rfl⟩ | ⟨hc, rfl⟩ | ⟨hc, rfl⟩ | ⟨hc, rfl⟩ | ⟨hc, rfl⟩ | ⟨hc, rfl⟩ | ⟨hc, rfl⟩ |
        ⟨hc, rfl⟩ | ⟨hc, rfl⟩ | ⟨hc, rfl⟩ <;> rw [hc]
    · exact ⟨iff_of_true rfl trivial, fun _ => rfl⟩
    · exact masterFuncRead_meets eMBMasterRegInputCB_checks ctx app frame usLen
    · exact masterFuncRead_meets eMBMasterRegHoldingCB_checks ctx app frame usLen
    · exact eMBMasterFuncWriteMultipleHoldingRegister_meets ctx app frame usLen
    · exact eMBMasterFuncWriteHoldingRegister_meets ctx app frame usLen
    · exact eMBMasterFuncReadWriteMultipleHoldingRegister_meets ctx app frame usLen
    · exact masterFuncRead_meets eMBMasterRegCoilsCB_checks ctx app frame usLen
    · exact eMBMasterFuncWriteCoil_meets ctx app frame usLen
    · exact eMBMasterFuncWriteMultipleCoils_meets ctx app frame usLen
    · exact masterFuncRead_meets eMBMasterRegDiscreteCB_checks ctx app frame usLen

end Meets

end FreeModbus
