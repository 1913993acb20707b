import FreeModbus.Slave.App

/-!
# The function handlers of the slave

`mbfunccoils.c`, `mbfuncdisc.c`, `mbfuncinput.c`, `mbfuncholding.c` and
`eMBFuncReportSlaveID` of `mbfuncother.c`.  A handler gets the PDU and its
length, changes both in place and returns an exception.

The four reads are one function of their code, their count check and their
callback (`funcRead`), and the two multiple writes are one function of theirs
(`funcWriteMultiple`).  The write of one coil hands its callback a local buffer,
and the read and write of function 23 has no branch for a short request, so
these keep bodies of their own.
-/

namespace FreeModbus

open ByteMemory

/-! ## Layout of the requests -/

abbrev mbPduFuncReadAddrOff : Nat := mbPduDataOff
abbrev mbPduFuncReadCntOff : Nat := mbPduDataOff + 2
abbrev mbPduFuncReadSize : Nat := 4
abbrev mbPduFuncReadCoilcntMax : Nat := 0x07D0
abbrev mbPduFuncReadDisccntMax : Nat := 0x07D0
abbrev mbPduFuncReadRegcntMax : Nat := 0x007D

abbrev mbPduFuncWriteAddrOff : Nat := mbPduDataOff
abbrev mbPduFuncWriteValueOff : Nat := mbPduDataOff + 2
abbrev mbPduFuncWriteSize : Nat := 4

abbrev mbPduFuncWriteMulAddrOff : Nat := mbPduDataOff
abbrev mbPduFuncWriteMulCntOff : Nat := mbPduDataOff + 2
abbrev mbPduFuncWriteMulBytecntOff : Nat := mbPduDataOff + 4
abbrev mbPduFuncWriteMulValuesOff : Nat := mbPduDataOff + 5
abbrev mbPduFuncWriteMulSizeMin : Nat := 5
abbrev mbPduFuncWriteMulCoilcntMax : Nat := 0x07B0
abbrev mbPduFuncWriteMulRegcntMax : Nat := 0x0078

abbrev mbPduFuncReadwriteReadAddrOff : Nat := mbPduDataOff
abbrev mbPduFuncReadwriteReadRegcntOff : Nat := mbPduDataOff + 2
abbrev mbPduFuncReadwriteWriteAddrOff : Nat := mbPduDataOff + 4
abbrev mbPduFuncReadwriteWriteRegcntOff : Nat := mbPduDataOff + 6
abbrev mbPduFuncReadwriteBytecntOff : Nat := mbPduDataOff + 8
abbrev mbPduFuncReadwriteWriteValuesOff : Nat := mbPduDataOff + 9
abbrev mbPduFuncReadwriteSizeMin : Nat := 9

/-- The type of a slave handler. -/
abbrev SlaveHandler := SlaveApp → Buf → Nat → FuncResult SlaveApp

/-! ## Reads -/

/-- The common body of the four reads.  `cntOk` is the count check, `ucNBytes` the byte
count it announces, `usDataLen` what it adds to the length and `cb` its callback. -/
def funcRead (ucFunctionCode : UChar) (cntOk : UShort → Bool) (ucNBytes : UShort → UChar)
    (usDataLen : UShort → Nat)
    (cb : SlaveApp → Buf → UShort → UShort → RegResult SlaveApp) : SlaveHandler :=
  fun app pucFrame usLen =>
    if usLen = mbPduFuncReadSize + mbPduSizeMin then
      let usRegAddress := wordAt pucFrame mbPduFuncReadAddrOff + 1
      let usCount := wordAt pucFrame mbPduFuncReadCntOff
      if cntOk usCount then
        let frame₁ := Function.update pucFrame mbPduFuncOff ucFunctionCode
        let frame₂ : Buf := Function.update frame₁ (mbPduFuncOff + 1) (ucNBytes usCount)
        let reg := cb app (frame₂.at (mbPduFuncOff + 2)) usRegAddress usCount
        let frame₃ := frame₂.splice (mbPduFuncOff + 2) reg.pucRegBuffer
        if reg.eStatus ≠ .enoerr then
          { eStatus := prveMBError2Exception reg.eStatus
            pucFrame := frame₃, usLen := mbPduFuncOff + 2, app := reg.app }
        else
          { eStatus := .none
            pucFrame := frame₃, usLen := mbPduFuncOff + 2 + usDataLen usCount, app := reg.app }
      else { eStatus := .illegalDataValue, pucFrame := pucFrame, usLen := usLen, app := app }
    else { eStatus := .illegalDataValue, pucFrame := pucFrame, usLen := usLen, app := app }

/-- `eMBFuncReadCoils`. -/
def eMBFuncReadCoils : SlaveHandler :=
  funcRead mbFuncReadCoils
    (fun n => decide (1 ≤ n.toNat ∧ n.toNat < mbPduFuncReadCoilcntMax))
    ucNBytes (fun n => (ucNBytes n).toNat)
    (fun app buf a n => eMBRegCoilsCB app buf a n .read)

/-- `eMBFuncReadDiscreteInputs`. -/
def eMBFuncReadDiscreteInputs : SlaveHandler :=
  funcRead mbFuncReadDiscreteInputs
    (fun n => decide (1 ≤ n.toNat ∧ n.toNat < mbPduFuncReadDisccntMax))
    ucNBytes (fun n => (ucNBytes n).toNat) eMBRegDiscreteCB

/-- `eMBFuncReadHoldingRegister`. -/
def eMBFuncReadHoldingRegister : SlaveHandler :=
  funcRead mbFuncReadHoldingRegister
    (fun n => decide (1 ≤ n.toNat ∧ n.toNat ≤ mbPduFuncReadRegcntMax))
    (fun n => (n * 2).setWidth 8) (fun n => n.toNat * 2)
    (fun app buf a n => eMBRegHoldingCB app buf a n .read)

/-- `eMBFuncReadInputRegister`. -/
def eMBFuncReadInputRegister : SlaveHandler :=
  funcRead mbFuncReadInputRegister
    (fun n => decide (1 ≤ n.toNat ∧ n.toNat < mbPduFuncReadRegcntMax))
    (fun n => (n * 2).setWidth 8) (fun n => n.toNat * 2) eMBRegInputCB

/-! ## Single writes -/

/-- `ucBuf` of a coil write. -/
def coilBuf (v : Bool) : Buf := Mem.ofList [if v then 1 else 0, 0] fun _ => 0

/-- `eMBFuncWriteCoil`. -/
def eMBFuncWriteCoil : SlaveHandler := fun app pucFrame usLen =>
  if usLen = mbPduFuncWriteSize + mbPduSizeMin then
    let usRegAddress := wordAt pucFrame mbPduFuncWriteAddrOff + 1
    if pucFrame (mbPduFuncWriteValueOff + 1) = 0x00 ∧
        (pucFrame mbPduFuncWriteValueOff = 0xFF ∨ pucFrame mbPduFuncWriteValueOff = 0x00) then
      let ucBuf := coilBuf (decide (pucFrame mbPduFuncWriteValueOff = 0xFF))
      let reg := eMBRegCoilsCB app ucBuf usRegAddress 1 .write
      if reg.eStatus ≠ .enoerr then
        { eStatus := prveMBError2Exception reg.eStatus
          pucFrame := pucFrame, usLen := usLen, app := reg.app }
      else { eStatus := .none, pucFrame := pucFrame, usLen := usLen, app := reg.app }
    else { eStatus := .illegalDataValue, pucFrame := pucFrame, usLen := usLen, app := app }
  else { eStatus := .illegalDataValue, pucFrame := pucFrame, usLen := usLen, app := app }

/-- `eMBFuncWriteHoldingRegister`. -/
def eMBFuncWriteHoldingRegister : SlaveHandler := fun app pucFrame usLen =>
  if usLen = mbPduFuncWriteSize + mbPduSizeMin then
    let usRegAddress := wordAt pucFrame mbPduFuncWriteAddrOff + 1
    let reg := eMBRegHoldingCB app (pucFrame.at mbPduFuncWriteValueOff) usRegAddress 1 .write
    let frame₁ := pucFrame.splice mbPduFuncWriteValueOff reg.pucRegBuffer
    if reg.eStatus ≠ .enoerr then
      { eStatus := prveMBError2Exception reg.eStatus
        pucFrame := frame₁, usLen := usLen, app := reg.app }
    else { eStatus := .none, pucFrame := frame₁, usLen := usLen, app := reg.app }
  else { eStatus := .illegalDataValue, pucFrame := pucFrame, usLen := usLen, app := app }

/-! ## Multiple writes -/

/-- The common body of the two multiple writes.  `cntMax` bounds the count, `verify`
is the byte count expected for it and `cb` the callback. -/
def funcWriteMultiple (usLenMin cntMax : Nat) (verify : UShort → UChar)
    (cb : SlaveApp → Buf → UShort → UShort → RegResult SlaveApp) : SlaveHandler :=
  fun app pucFrame usLen =>
    if usLenMin ≤ usLen then
      let usRegAddress := wordAt pucFrame mbPduFuncWriteMulAddrOff + 1
      let usCount := wordAt pucFrame mbPduFuncWriteMulCntOff
      let ucByteCount := pucFrame mbPduFuncWriteMulBytecntOff
      if 1 ≤ usCount.toNat ∧ usCount.toNat ≤ cntMax ∧ ucByteCount = verify usCount then
        let reg := cb app (pucFrame.at mbPduFuncWriteMulValuesOff) usRegAddress usCount
        let frame₁ := pucFrame.splice mbPduFuncWriteMulValuesOff reg.pucRegBuffer
        if reg.eStatus ≠ .enoerr then
          { eStatus := prveMBError2Exception reg.eStatus
            pucFrame := frame₁, usLen := usLen, app := reg.app }
        else
          { eStatus := .none
            pucFrame := frame₁, usLen := mbPduFuncWriteMulBytecntOff, app := reg.app }
      else { eStatus := .illegalDataValue, pucFrame := pucFrame, usLen := usLen, app := app }
    else { eStatus := .illegalDataValue, pucFrame := pucFrame, usLen := usLen, app := app }

/-- `eMBFuncWriteMultipleCoils`.  Its length check is `>`. -/
def eMBFuncWriteMultipleCoils : SlaveHandler :=
  funcWriteMultiple (mbPduFuncWriteSize + mbPduSizeMin + 1) mbPduFuncWriteMulCoilcntMax
    ucNBytes (fun app buf a n => eMBRegCoilsCB app buf a n .write)

/-- `eMBFuncWriteMultipleHoldingRegister`. -/
def eMBFuncWriteMultipleHoldingRegister : SlaveHandler :=
  funcWriteMultiple (mbPduFuncWriteMulSizeMin + mbPduSizeMin) mbPduFuncWriteMulRegcntMax
    (fun n => (2 * n).setWidth 8) (fun app buf a n => eMBRegHoldingCB app buf a n .write)

/-! ## Read and write -/

/-- `eMBFuncReadWriteMultipleHoldingRegister`.  A request below the minimal length falls
through to `MB_EX_NONE`. -/
def eMBFuncReadWriteMultipleHoldingRegister : SlaveHandler := fun app pucFrame usLen =>
  if mbPduFuncReadwriteSizeMin + mbPduSizeMin ≤ usLen then
    let usRegReadAddress := wordAt pucFrame mbPduFuncReadwriteReadAddrOff + 1
    let usRegReadCount := wordAt pucFrame mbPduFuncReadwriteReadRegcntOff
    let usRegWriteAddress := wordAt pucFrame mbPduFuncReadwriteWriteAddrOff + 1
    let usRegWriteCount := wordAt pucFrame mbPduFuncReadwriteWriteRegcntOff
    let ucRegWriteByteCount := pucFrame mbPduFuncReadwriteBytecntOff
    if 1 ≤ usRegReadCount.toNat ∧ usRegReadCount.toNat ≤ 0x7D ∧
        1 ≤ usRegWriteCount.toNat ∧ usRegWriteCount.toNat ≤ 0x79 ∧
        2 * usRegWriteCount.toNat = ucRegWriteByteCount.toNat then
      let reg₁ := eMBRegHoldingCB app (pucFrame.at mbPduFuncReadwriteWriteValuesOff)
        usRegWriteAddress usRegWriteCount .write
      let frame₁ := pucFrame.splice mbPduFuncReadwriteWriteValuesOff reg₁.pucRegBuffer
      if reg₁.eStatus = .enoerr then
        let frame₂ : Buf := Function.update frame₁ mbPduFuncOff mbFuncReadwriteMultipleRegisters
        let frame₃ : Buf :=
          Function.update frame₂ (mbPduFuncOff + 1) ((usRegReadCount * 2).setWidth 8)
        let reg₂ := eMBRegHoldingCB reg₁.app (frame₃.at (mbPduFuncOff + 2)) usRegReadAddress
          usRegReadCount .read
        let frame₄ := frame₃.splice (mbPduFuncOff + 2) reg₂.pucRegBuffer
        if reg₂.eStatus = .enoerr then
          { eStatus := .none, pucFrame := frame₄
            usLen := mbPduFuncOff + 2 + 2 * usRegReadCount.toNat, app := reg₂.app }
        else
          { eStatus := prveMBError2Exception reg₂.eStatus, pucFrame := frame₄
            usLen := mbPduFuncOff + 2, app := reg₂.app }
      else
        { eStatus := prveMBError2Exception reg₁.eStatus, pucFrame := frame₁
          usLen := usLen, app := reg₁.app }
    else { eStatus := .illegalDataValue, pucFrame := pucFrame, usLen := usLen, app := app }
  else { eStatus := .none, pucFrame := pucFrame, usLen := usLen, app := app }

/-! ## Slave id -/

/-- The frame with the slave id behind its first byte. -/
def reportSlaveID (slaveID : SlaveID) (pucFrame : Buf) : Buf := fun i =>
  if mbPduDataOff ≤ i ∧ i < mbPduDataOff + slaveID.usMBSlaveIDLen then
    slaveID.ucMBSlaveID (i - mbPduDataOff)
  else pucFrame i

/-- `eMBFuncReportSlaveID`. -/
def eMBFuncReportSlaveID : SlaveHandler := fun app pucFrame _ =>
  { eStatus := .none
    pucFrame := reportSlaveID app.slaveID pucFrame
    usLen := mbPduDataOff + app.slaveID.usMBSlaveIDLen
    app := app }

/-! ## The handler table -/

/-- `xFuncHandlers`: the ten built-in handlers, then the free entries. -/
def xFuncHandlers : List (MBFunctionHandler SlaveHandler) :=
  [⟨mbFuncOtherReportSlaveid, some eMBFuncReportSlaveID⟩,
   ⟨mbFuncReadInputRegister, some eMBFuncReadInputRegister⟩,
   ⟨mbFuncReadHoldingRegister, some eMBFuncReadHoldingRegister⟩,
   ⟨mbFuncWriteMultipleRegisters, some eMBFuncWriteMultipleHoldingRegister⟩,
   ⟨mbFuncWriteRegister, some eMBFuncWriteHoldingRegister⟩,
   ⟨mbFuncReadwriteMultipleRegisters, some eMBFuncReadWriteMultipleHoldingRegister⟩,
   ⟨mbFuncReadCoils, some eMBFuncReadCoils⟩,
   ⟨mbFuncWriteSingleCoil, some eMBFuncWriteCoil⟩,
   ⟨mbFuncWriteMultipleCoils, some eMBFuncWriteMultipleCoils⟩,
   ⟨mbFuncReadDiscreteInputs, some eMBFuncReadDiscreteInputs⟩] ++
  List.replicate (mbFuncHandlersMax - 10) ⟨0, none⟩

/-- What the table holds. -/
theorem findHandler_xFuncHandlers {code : UChar} {pxHandler : SlaveHandler}
    (h : findHandler code xFuncHandlers = some pxHandler) :
    (code = mbFuncOtherReportSlaveid ∧ pxHandler = eMBFuncReportSlaveID) ∨
      (code = mbFuncReadInputRegister ∧ pxHandler = eMBFuncReadInputRegister) ∨
      (code = mbFuncReadHoldingRegister ∧ pxHandler = eMBFuncReadHoldingRegister) ∨
      (code = mbFuncWriteMultipleRegisters ∧ pxHandler = eMBFuncWriteMultipleHoldingRegister) ∨
      (code = mbFuncWriteRegister ∧ pxHandler = eMBFuncWriteHoldingRegister) ∨
      (code = mbFuncReadwriteMultipleRegisters ∧
        pxHandler = eMBFuncReadWriteMultipleHoldingRegister) ∨
      (code = mbFuncReadCoils ∧ pxHandler = eMBFuncReadCoils) ∨
      (code = mbFuncWriteSingleCoil ∧ pxHandler = eMBFuncWriteCoil) ∨
      (code = mbFuncWriteMultipleCoils ∧ pxHandler = eMBFuncWriteMultipleCoils) ∨
      (code = mbFuncReadDiscreteInputs ∧ pxHandler = eMBFuncReadDiscreteInputs) := by
  have hmem := mem_of_findHandler h
  simpa only [xFuncHandlers, List.cons_append, List.nil_append, List.mem_cons,
    List.mem_replicate, MBFunctionHandler.mk.injEq, Option.some.injEq, reduceCtorEq, and_false,
    or_false] using hmem

/-- The dispatch of `eMBPoll`: the handler for the first byte of the frame, if the table
has one. -/
def slaveDispatch (table : List (MBFunctionHandler SlaveHandler)) : SlaveHandler :=
  fun app pucFrame usLen =>
    match findHandler (pucFrame mbPduFuncOff) table with
    | some pxHandler => pxHandler app pucFrame usLen
    | none => { eStatus := .illegalFunction, pucFrame := pucFrame, usLen := usLen, app := app }

theorem slaveDispatch_of {table : List (MBFunctionHandler SlaveHandler)} {code : UChar}
    {pxHandler : SlaveHandler} {pucFrame : Buf} (hcode : pucFrame 0 = code)
    (hfind : findHandler code table = some pxHandler) (app : SlaveApp) (usLen : Nat) :
    slaveDispatch table app pucFrame usLen = pxHandler app pucFrame usLen := by
  simp only [slaveDispatch, mbPduFuncOff, hcode, hfind]

/-! ## Handlers on a request that passes their checks -/

section Read

variable (code : UChar) {cntOk : UShort → Bool} (nBytes : UShort → UChar)
  (dataLen : UShort → Nat) {cb : SlaveApp → Buf → UShort → UShort → RegResult SlaveApp}
  {app : SlaveApp} {frame : Buf} {a n : UShort}

/-- A read inside its map replies with the code, the byte count and what the callback put
into the buffer. -/
theorem funcRead_ok {g : Buf → Buf} {payload : List UChar} (ha : wordAt frame 1 = a)
    (hn : wordAt frame 3 = n) (hok : cntOk n = true)
    (hcb : ∀ buf, cb app buf (a + 1) n = ⟨.enoerr, g buf, app⟩)
    (hg : ∀ buf, slice (g buf) 0 (dataLen n) = payload) :
    let res := funcRead code cntOk nBytes dataLen cb app frame 5
    res.eStatus = .none ∧ res.app = app ∧
      slice res.pucFrame 0 res.usLen = code :: nBytes n :: payload := by
  unfold funcRead
  simp only [mbPduFuncReadAddrOff, mbPduFuncReadCntOff, mbPduFuncReadSize, mbPduSizeMin,
    mbPduDataOff, ha, hn, hok, hcb]
  refine ⟨rfl, rfl, ?_⟩
  simp only [ne_eq, not_true_eq_false, if_true, if_false, Nat.zero_add]
  rw [slice_add, slice_splice, hg, slice_succ, slice_succ, slice_zero, Mem.splice_lt (by omega),
    Mem.splice_lt (by omega), Function.update_of_ne (by omega), Function.update_self,
    Function.update_self]
  rfl

/-- A read outside its map is refused. -/
theorem funcRead_enoreg (ha : wordAt frame 1 = a) (hn : wordAt frame 3 = n)
    (hok : cntOk n = true) (hcb : ∀ buf, cb app buf (a + 1) n = ⟨.enoreg, buf, app⟩) :
    let res := funcRead code cntOk nBytes dataLen cb app frame 5
    res.eStatus = .illegalDataAddress ∧ res.app = app := by
  unfold funcRead
  simp only [mbPduFuncReadAddrOff, mbPduFuncReadCntOff, mbPduDataOff, ha, hn, hok, hcb]
  exact ⟨rfl, rfl⟩

theorem funcRead_badLen {usLen : Nat} (h : usLen ≠ 5) :
    funcRead code cntOk nBytes dataLen cb app frame usLen =
      ⟨.illegalDataValue, frame, usLen, app⟩ := if_neg h

theorem funcRead_badCount (h : cntOk (wordAt frame 3) = false) :
    funcRead code cntOk nBytes dataLen cb app frame 5 = ⟨.illegalDataValue, frame, 5, app⟩ := by
  simp [funcRead, h]

end Read

section Write

variable {usLenMin cntMax usLen : Nat} {verify : UShort → UChar}
  {cb : SlaveApp → Buf → UShort → UShort → RegResult SlaveApp}
  {app app' : SlaveApp} {frame : Buf} {a n : UShort}

/-- A multiple write inside its map keeps the frame and cuts it to five bytes. -/
theorem funcWriteMultiple_ok (hlen : usLenMin ≤ usLen) (ha : wordAt frame 1 = a)
    (hn : wordAt frame 3 = n)
    (hok : 1 ≤ n.toNat ∧ n.toNat ≤ cntMax ∧ frame 5 = verify n)
    (hcb : cb app (frame.at 6) (a + 1) n = ⟨.enoerr, frame.at 6, app'⟩) :
    funcWriteMultiple usLenMin cntMax verify cb app frame usLen = ⟨.none, frame, 5, app'⟩ := by
  unfold funcWriteMultiple
  simp only [mbPduFuncWriteMulAddrOff, mbPduFuncWriteMulCntOff, mbPduFuncWriteMulBytecntOff,
    mbPduFuncWriteMulValuesOff, mbPduDataOff, hlen, ha, hn, if_true, if_pos hok, hcb]
  simp

/-- A multiple write outside its map is refused. -/
theorem funcWriteMultiple_enoreg (hlen : usLenMin ≤ usLen) (ha : wordAt frame 1 = a)
    (hn : wordAt frame 3 = n)
    (hok : 1 ≤ n.toNat ∧ n.toNat ≤ cntMax ∧ frame 5 = verify n)
    (hcb : cb app (frame.at 6) (a + 1) n = ⟨.enoreg, frame.at 6, app⟩) :
    funcWriteMultiple usLenMin cntMax verify cb app frame usLen =
      ⟨.illegalDataAddress, frame, usLen, app⟩ := by
  unfold funcWriteMultiple
  simp only [mbPduFuncWriteMulAddrOff, mbPduFuncWriteMulCntOff, mbPduFuncWriteMulBytecntOff,
    mbPduFuncWriteMulValuesOff, mbPduDataOff, hlen, ha, hn, if_true, if_pos hok, hcb]
  simp [prveMBError2Exception]

theorem funcWriteMultiple_short (h : usLen < usLenMin) :
    funcWriteMultiple usLenMin cntMax verify cb app frame usLen =
      ⟨.illegalDataValue, frame, usLen, app⟩ := if_neg (Nat.not_le.mpr h)

theorem funcWriteMultiple_bad (hlen : usLenMin ≤ usLen) (h : ¬ (1 ≤ (wordAt frame 3).toNat ∧
    (wordAt frame 3).toNat ≤ cntMax ∧ frame 5 = verify (wordAt frame 3))) :
    funcWriteMultiple usLenMin cntMax verify cb app frame usLen =
      ⟨.illegalDataValue, frame, usLen, app⟩ := by
  unfold funcWriteMultiple
  simp only [mbPduFuncWriteMulCntOff, mbPduFuncWriteMulBytecntOff, mbPduDataOff, hlen, if_true,
    if_neg h]

end Write

section Single

variable {app : SlaveApp} {frame : Buf} {a : UShort}

/-- The value bytes of a coil write pass its check. -/
theorem coilValue_ok {v : Bool} (hv : frame 3 = if v then 0xFF else 0x00) (hz : frame 4 = 0x00) :
    (frame 4 = 0x00 ∧ (frame 3 = 0xFF ∨ frame 3 = 0x00)) ∧ decide (frame 3 = 0xFF) = v := by
  rw [hv]
  cases v
  · exact ⟨⟨hz, Or.inr rfl⟩, rfl⟩
  · exact ⟨⟨hz, Or.inl rfl⟩, rfl⟩

/-- The write of one coil with one of the two values it accepts. -/
theorem eMBFuncWriteCoil_ok {v : Bool} (ha : wordAt frame 1 = a)
    (hv : frame 3 = if v then 0xFF else 0x00) (hz : frame 4 = 0x00)
    (hin : inRange a 1 sCoilStart sCoilNcoils) :
    eMBFuncWriteCoil app frame 5 = ⟨.none, frame, 5, { app with
      ucSCoilBuf := writeBitsCB (coilBuf v) (a.toNat / 8) (a.toNat % 8) 1 app.ucSCoilBuf }⟩ := by
  obtain ⟨hok, hval⟩ := coilValue_ok hv hz
  unfold eMBFuncWriteCoil
  simp only [mbPduFuncWriteAddrOff, mbPduFuncWriteValueOff, mbPduFuncWriteSize, mbPduSizeMin,
    mbPduDataOff, ha, if_pos hok, hval, eMBRegCoilsCB_write _ _ a 1 hin]
  simp

theorem eMBFuncWriteCoil_enoreg {v : Bool} (ha : wordAt frame 1 = a)
    (hv : frame 3 = if v then 0xFF else 0x00) (hz : frame 4 = 0x00)
    (hin : ¬ inRange a 1 sCoilStart sCoilNcoils) :
    eMBFuncWriteCoil app frame 5 = ⟨.illegalDataAddress, frame, 5, app⟩ := by
  obtain ⟨hok, -⟩ := coilValue_ok hv hz
  unfold eMBFuncWriteCoil
  simp only [mbPduFuncWriteAddrOff, mbPduFuncWriteValueOff, mbPduFuncWriteSize, mbPduSizeMin,
    mbPduDataOff, ha, if_pos hok, eMBRegCoilsCB_enoreg _ _ a 1 .write hin]
  simp [prveMBError2Exception]

/-- The write of one register. -/
theorem eMBFuncWriteHoldingRegister_ok (ha : wordAt frame 1 = a)
    (hin : inRange a 1 sRegHoldingStart sRegHoldingNregs) :
    eMBFuncWriteHoldingRegister app frame 5 = ⟨.none, frame, 5, { app with
      usSRegHoldBuf := writeRegs (frame.at 3) 1 a.toNat app.usSRegHoldBuf 0 }⟩ := by
  unfold eMBFuncWriteHoldingRegister
  simp only [mbPduFuncWriteAddrOff, mbPduFuncWriteValueOff, mbPduFuncWriteSize, mbPduSizeMin,
    mbPduDataOff, ha, eMBRegHoldingCB_write _ _ a 1 hin]
  simp

theorem eMBFuncWriteHoldingRegister_enoreg (ha : wordAt frame 1 = a)
    (hin : ¬ inRange a 1 sRegHoldingStart sRegHoldingNregs) :
    eMBFuncWriteHoldingRegister app frame 5 = ⟨.illegalDataAddress, frame, 5, app⟩ := by
  unfold eMBFuncWriteHoldingRegister
  simp only [mbPduFuncWriteAddrOff, mbPduFuncWriteValueOff, mbPduFuncWriteSize, mbPduSizeMin,
    mbPduDataOff, ha, eMBRegHoldingCB_enoreg _ _ a 1 .write hin]
  simp [prveMBError2Exception]

theorem eMBFuncWriteCoil_badLen {usLen : Nat} (h : usLen ≠ 5) :
    eMBFuncWriteCoil app frame usLen = ⟨.illegalDataValue, frame, usLen, app⟩ := if_neg h

theorem eMBFuncWriteCoil_badValue
    (h : ¬ (frame 4 = 0x00 ∧ (frame 3 = 0xFF ∨ frame 3 = 0x00))) :
    eMBFuncWriteCoil app frame 5 = ⟨.illegalDataValue, frame, 5, app⟩ := by
  unfold eMBFuncWriteCoil
  simp only [mbPduFuncWriteValueOff, mbPduFuncWriteSize, mbPduSizeMin, mbPduDataOff, if_neg h]
  rfl

theorem eMBFuncWriteHoldingRegister_badLen {usLen : Nat} (h : usLen ≠ 5) :
    eMBFuncWriteHoldingRegister app frame usLen = ⟨.illegalDataValue, frame, usLen, app⟩ :=
  if_neg h

end Single

section ReadWrite

variable (app : SlaveApp) {frame : Buf} {usLen : Nat} {ra rn wa wn : UShort}

/-- The count checks of function 23. -/
abbrev readwriteOk (rn wn : UShort) (ucByteCount : UChar) : Prop :=
  1 ≤ rn.toNat ∧ rn.toNat ≤ 0x7D ∧ 1 ≤ wn.toNat ∧ wn.toNat ≤ 0x79 ∧
    2 * wn.toNat = ucByteCount.toNat

/-- Function 23 with both ranges inside the map writes, then replies with what it reads. -/
theorem eMBFuncReadWrite_ok (hlen : 10 ≤ usLen) (hra : wordAt frame 1 = ra)
    (hrn : wordAt frame 3 = rn) (hwa : wordAt frame 5 = wa) (hwn : wordAt frame 7 = wn)
    (hok : readwriteOk rn wn (frame 9))
    (hin : inRange wa wn sRegHoldingStart sRegHoldingNregs)
    (hinr : inRange ra rn sRegHoldingStart sRegHoldingNregs) :
    let regs := writeRegs (frame.at 10) wn.toNat wa.toNat app.usSRegHoldBuf 0
    let res := eMBFuncReadWriteMultipleHoldingRegister app frame usLen
    res.eStatus = .none ∧ res.app = { app with usSRegHoldBuf := regs } ∧
      slice res.pucFrame 0 res.usLen = mbFuncReadwriteMultipleRegisters ::
        (rn * 2).setWidth 8 :: packWords rn.toNat fun j => regs (ra.toNat + j) := by
  unfold eMBFuncReadWriteMultipleHoldingRegister
  simp only [mbPduFuncReadwriteReadAddrOff, mbPduFuncReadwriteReadRegcntOff,
    mbPduFuncReadwriteWriteAddrOff, mbPduFuncReadwriteWriteRegcntOff,
    mbPduFuncReadwriteBytecntOff, mbPduFuncReadwriteWriteValuesOff, mbPduFuncReadwriteSizeMin,
    mbPduSizeMin, mbPduDataOff, hlen, hra, hrn, hwa, hwn, if_true, if_pos hok,
    eMBRegHoldingCB_write _ _ wa wn hin, eMBRegHoldingCB_read _ _ ra rn hinr]
  refine ⟨trivial, trivial, ?_⟩
  rw [slice_add, slice_splice, slice_readRegs, slice_succ, slice_succ, slice_zero,
    Mem.splice_lt (by omega), Mem.splice_lt (by omega), Function.update_of_ne (by omega),
    Function.update_self, Function.update_self]
  rfl

theorem eMBFuncReadWrite_short (h : usLen < 10) :
    eMBFuncReadWriteMultipleHoldingRegister app frame usLen = ⟨.none, frame, usLen, app⟩ :=
  if_neg (Nat.not_le.mpr h)

theorem eMBFuncReadWrite_bad (hlen : 10 ≤ usLen)
    (h : ¬ readwriteOk (wordAt frame 3) (wordAt frame 7) (frame 9)) :
    eMBFuncReadWriteMultipleHoldingRegister app frame usLen =
      ⟨.illegalDataValue, frame, usLen, app⟩ := by
  unfold eMBFuncReadWriteMultipleHoldingRegister
  simp only [mbPduFuncReadwriteReadRegcntOff, mbPduFuncReadwriteWriteRegcntOff,
    mbPduFuncReadwriteBytecntOff, mbPduFuncReadwriteSizeMin, mbPduSizeMin, mbPduDataOff, hlen,
    if_true, if_neg h]

/-- Function 23 with a write range outside the map changes nothing. -/
theorem eMBFuncReadWrite_enoregWrite (hlen : 10 ≤ usLen) (hwa : wordAt frame 5 = wa)
    (hwn : wordAt frame 7 = wn) (hok : readwriteOk (wordAt frame 3) wn (frame 9))
    (hin : ¬ inRange wa wn sRegHoldingStart sRegHoldingNregs) :
    eMBFuncReadWriteMultipleHoldingRegister app frame usLen =
      ⟨.illegalDataAddress, frame, usLen, app⟩ := by
  unfold eMBFuncReadWriteMultipleHoldingRegister
  simp only [mbPduFuncReadwriteReadRegcntOff, mbPduFuncReadwriteWriteAddrOff,
    mbPduFuncReadwriteWriteRegcntOff, mbPduFuncReadwriteBytecntOff,
    mbPduFuncReadwriteWriteValuesOff, mbPduFuncReadwriteSizeMin, mbPduSizeMin, mbPduDataOff, hlen,
    hwa, hwn, if_true, if_pos hok, eMBRegHoldingCB_enoreg _ _ wa wn .write hin]
  simp [prveMBError2Exception]

/-- Function 23 with a read range outside the map has written by the time it is refused. -/
theorem eMBFuncReadWrite_enoregRead (hlen : 10 ≤ usLen) (hra : wordAt frame 1 = ra)
    (hrn : wordAt frame 3 = rn) (hwa : wordAt frame 5 = wa) (hwn : wordAt frame 7 = wn)
    (hok : readwriteOk rn wn (frame 9))
    (hin : inRange wa wn sRegHoldingStart sRegHoldingNregs)
    (hinr : ¬ inRange ra rn sRegHoldingStart sRegHoldingNregs) :
    let res := eMBFuncReadWriteMultipleHoldingRegister app frame usLen
    res.eStatus = .illegalDataAddress ∧ res.app = { app with
      usSRegHoldBuf := writeRegs (frame.at 10) wn.toNat wa.toNat app.usSRegHoldBuf 0 } := by
  unfold eMBFuncReadWriteMultipleHoldingRegister
  simp only [mbPduFuncReadwriteReadAddrOff, mbPduFuncReadwriteReadRegcntOff,
    mbPduFuncReadwriteWriteAddrOff, mbPduFuncReadwriteWriteRegcntOff,
    mbPduFuncReadwriteBytecntOff, mbPduFuncReadwriteWriteValuesOff, mbPduFuncReadwriteSizeMin,
    mbPduSizeMin, mbPduDataOff, hlen, hra, hrn, hwa, hwn, if_true, if_pos hok,
    eMBRegHoldingCB_write _ _ wa wn hin, eMBRegHoldingCB_enoreg _ _ ra rn .read hinr]
  exact ⟨rfl, rfl⟩

end ReadWrite

/-! ## Replies -/

theorem prveMBError2Exception_eq_none {e : MBErrorCode} :
    prveMBError2Exception e = .none ↔ e = .enoerr := by
  cases e <;> decide

/-- A handler that returns no exception leaves a PDU that fits a frame and starts with the
byte it started with. -/
def ReplyOk (pucFrame : Buf) (res : FuncResult SlaveApp) : Prop :=
  res.eStatus = .none →
    (1 ≤ res.usLen ∧ res.usLen ≤ 253) ∧ res.pucFrame mbPduFuncOff = pucFrame mbPduFuncOff

section Reply

variable {frame frame' : Buf} {usLen : Nat} {app : SlaveApp}

theorem replyOk_refused {e : MBException} (he : e ≠ .none) :
    ReplyOk frame ⟨e, frame', usLen, app⟩ := fun h => absurd h he

theorem replyOk_echo (h1 : 1 ≤ usLen) (h2 : usLen ≤ 253) (h0 : frame' 0 = frame 0) :
    ReplyOk frame ⟨.none, frame', usLen, app⟩ := fun _ => ⟨⟨h1, h2⟩, h0⟩

theorem replyOk_illegalDataValue :
    ReplyOk frame ⟨.illegalDataValue, frame', usLen, app⟩ := replyOk_refused (by decide)

/-- An error of a callback is an exception. -/
theorem replyOk_error {e : MBErrorCode} (he : e ≠ .enoerr) :
    ReplyOk frame ⟨prveMBError2Exception e, frame', usLen, app⟩ :=
  replyOk_refused fun h => he (prveMBError2Exception_eq_none.mp h)

theorem funcRead_reply {code : UChar} {cntOk : UShort → Bool} {nBytes : UShort → UChar}
    {dataLen : UShort → Nat} {cb : SlaveApp → Buf → UShort → UShort → RegResult SlaveApp}
    (hdata : ∀ n, cntOk n = true → dataLen n ≤ 251) (hcode : frame 0 = code) :
    ReplyOk frame (funcRead code cntOk nBytes dataLen cb app frame usLen) := by
  unfold funcRead
  split
  · dsimp only
    split
    · rename_i hok
      split
      · exact replyOk_error ‹_›
      · have hlen : dataLen (wordAt frame 3) ≤ 251 := hdata _ hok
        apply replyOk_echo
        · exact Nat.le_trans (by decide) (Nat.le_add_right 2 (dataLen (wordAt frame 3)))
        · exact Nat.add_le_add_left hlen 2
        · rw [Mem.splice_lt (by decide), Function.update_of_ne (by decide), Function.update_self]
          exact hcode.symm
    · exact replyOk_illegalDataValue
  · exact replyOk_illegalDataValue

/-- The data of a bit read fits. -/
theorem bitLen_le (n : UShort)
    (h : decide (1 ≤ n.toNat ∧ n.toNat < mbPduFuncReadCoilcntMax) = true) :
    (ucNBytes n).toNat ≤ 251 := by
  have hn : 1 ≤ n.toNat ∧ n.toNat < 2000 := of_decide_eq_true h
  rw [toNat_ucNBytes (by omega)]
  unfold byteCount
  omega

/-- The data of a register read fits. -/
theorem regLen_le {n : UShort} (h : n.toNat ≤ 125) : n.toNat * 2 ≤ 251 := by omega

theorem eMBFuncWriteCoil_reply (h1 : 1 ≤ usLen) (h2 : usLen ≤ 253) :
    ReplyOk frame (eMBFuncWriteCoil app frame usLen) := by
  unfold eMBFuncWriteCoil
  split
  · dsimp only
    split
    · split
      · exact replyOk_error ‹_›
      · exact replyOk_echo h1 h2 rfl
    · exact replyOk_illegalDataValue
  · exact replyOk_illegalDataValue

theorem eMBFuncWriteHoldingRegister_reply (h1 : 1 ≤ usLen) (h2 : usLen ≤ 253) :
    ReplyOk frame (eMBFuncWriteHoldingRegister app frame usLen) := by
  unfold eMBFuncWriteHoldingRegister
  split
  · dsimp only
    split
    · exact replyOk_error ‹_›
    · exact replyOk_echo h1 h2 (Mem.splice_lt (by decide))
  · exact replyOk_illegalDataValue

theorem funcWriteMultiple_reply {usLenMin cntMax : Nat} {verify : UShort → UChar}
    {cb : SlaveApp → Buf → UShort → UShort → RegResult SlaveApp} :
    ReplyOk frame (funcWriteMultiple usLenMin cntMax verify cb app frame usLen) := by
  unfold funcWriteMultiple
  split
  · dsimp only
    split
    · split
      · exact replyOk_error ‹_›
      · exact replyOk_echo (by decide) (by decide) (Mem.splice_lt (by decide))
    · exact replyOk_illegalDataValue
  · exact replyOk_illegalDataValue

theorem eMBFuncReadWrite_reply (hcode : frame 0 = mbFuncReadwriteMultipleRegisters)
    (h1 : 1 ≤ usLen) (h2 : usLen ≤ 253) :
    ReplyOk frame (eMBFuncReadWriteMultipleHoldingRegister app frame usLen) := by
  unfold eMBFuncReadWriteMultipleHoldingRegister
  split
  · dsimp only
    split
    · rename_i hok
      split
      · split
        · have hcnt : (wordAt frame 3).toNat ≤ 0x7D := hok.2.1
          apply replyOk_echo
          · exact Nat.le_trans (by decide) (Nat.le_add_right 2 (2 * (wordAt frame 3).toNat))
          · exact Nat.le_trans (Nat.add_le_add_left (Nat.mul_le_mul_left 2 hcnt) 2) (by decide)
          · rw [Mem.splice_lt (by decide), Function.update_of_ne (by decide), Function.update_self]
            exact hcode.symm
        · exact replyOk_error ‹_›
      · exact replyOk_error ‹_›
    · exact replyOk_illegalDataValue
  · exact replyOk_echo h1 h2 rfl

theorem eMBFuncReportSlaveID_reply : ReplyOk frame (eMBFuncReportSlaveID app frame usLen) := by
  have hfits := app.slaveID.fits
  apply replyOk_echo
  · exact Nat.le_add_right 1 _
  · exact Nat.le_trans (Nat.add_le_add_left (Nat.le_of_lt hfits) 1) (by decide)
  · rfl

/-- The built-in handlers keep the contract of a reply. -/
theorem slaveDispatch_reply (h1 : 1 ≤ usLen) (h2 : usLen ≤ 253) :
    ReplyOk frame (slaveDispatch xFuncHandlers app frame usLen) := by
  cases hfind : findHandler (frame 0) xFuncHandlers with
  | none =>
    simp only [slaveDispatch, mbPduFuncOff, hfind]
    exact replyOk_refused (by decide)
  | some pxHandler =>
    rw [slaveDispatch_of rfl hfind]
    rcases findHandler_xFuncHandlers hfind with
        ⟨-, rfl⟩ | ⟨hc, rfl⟩ | ⟨hc, rfl⟩ | ⟨-, rfl⟩ | ⟨-, rfl⟩ | ⟨hc, rfl⟩ | ⟨hc, rfl⟩ | ⟨-, rfl⟩ |
        ⟨-, rfl⟩ | ⟨hc, rfl⟩
    · exact eMBFuncReportSlaveID_reply
    · exact funcRead_reply (fun n h => regLen_le (Nat.le_of_lt (of_decide_eq_true h).2)) hc
    · exact funcRead_reply (fun n h => regLen_le (of_decide_eq_true h).2) hc
    · exact funcWriteMultiple_reply
    · exact eMBFuncWriteHoldingRegister_reply h1 h2
    · exact eMBFuncReadWrite_reply hc h1 h2
    · exact funcRead_reply bitLen_le hc
    · exact eMBFuncWriteCoil_reply h1 h2
    · exact funcWriteMultiple_reply
    · exact funcRead_reply bitLen_le hc

end Reply

end FreeModbus
