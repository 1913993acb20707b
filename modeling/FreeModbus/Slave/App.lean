import FreeModbus.Registers

/-!
# The register callbacks of the slave

`user_mb_app.c`.  A callback gets an address that the handler has counted up by
one, takes it back, checks the range against the configured size and runs its
loop.  An address range outside the array gives `MB_ENOREG` and changes nothing.

The start variables (`usSRegHoldStart` and its like) are initialised from the
`S_..._START` constants and never written, so the constants stand for them.
-/

namespace FreeModbus

open ByteMemory

/-! ## Configuration -/

abbrev sDiscreteInputStart : Nat := 0
abbrev sDiscreteInputNdiscretes : Nat := 16
abbrev sCoilStart : Nat := 0
abbrev sCoilNcoils : Nat := 64
abbrev sRegInputStart : Nat := 0
abbrev sRegInputNregs : Nat := 100
abbrev sRegHoldingStart : Nat := 0
abbrev sRegHoldingNregs : Nat := 100

/-- What the handlers of the slave work on: the arrays of `user_mb_app.c` and the slave id
of `mbfuncother.c`. -/
structure SlaveApp where
  ucSDiscInBuf : Buf
  ucSCoilBuf : Buf
  usSRegInBuf : Mem UShort
  usSRegHoldBuf : Mem UShort
  slaveID : SlaveID

/-- The data at start-up: static arrays are zero. -/
def SlaveApp.initial : SlaveApp where
  ucSDiscInBuf := fun _ => 0
  ucSCoilBuf := fun _ => 0
  usSRegInBuf := fun _ => 0
  usSRegHoldBuf := fun _ => 0
  slaveID := .unset

/-! ## Callbacks -/

/-- `eMBRegInputCB`. -/
def eMBRegInputCB (app : SlaveApp) (pucRegBuffer : Buf) (usAddress usNRegs : UShort) :
    RegResult SlaveApp :=
  let usAddress := usAddress - 1
  if inRange usAddress usNRegs sRegInputStart sRegInputNregs then
    let iRegIndex := usAddress.toNat - sRegInputStart
    { eStatus := .enoerr
      pucRegBuffer := readRegs app.usSRegInBuf usNRegs.toNat iRegIndex pucRegBuffer 0
      app := app }
  else { eStatus := .enoreg, pucRegBuffer := pucRegBuffer, app := app }

/-- `eMBRegHoldingCB`. -/
def eMBRegHoldingCB (app : SlaveApp) (pucRegBuffer : Buf) (usAddress usNRegs : UShort)
    (eMode : MBRegisterMode) : RegResult SlaveApp :=
  let usAddress := usAddress - 1
  if inRange usAddress usNRegs sRegHoldingStart sRegHoldingNregs then
    let iRegIndex := usAddress.toNat - sRegHoldingStart
    match eMode with
    | .read =>
        { eStatus := .enoerr
          pucRegBuffer := readRegs app.usSRegHoldBuf usNRegs.toNat iRegIndex pucRegBuffer 0
          app := app }
    | .write =>
        { eStatus := .enoerr
          pucRegBuffer := pucRegBuffer
          app := { app with
            usSRegHoldBuf :=
              writeRegs pucRegBuffer usNRegs.toNat iRegIndex app.usSRegHoldBuf 0 } }
  else { eStatus := .enoreg, pucRegBuffer := pucRegBuffer, app := app }

/-- `eMBRegCoilsCB`. -/
def eMBRegCoilsCB (app : SlaveApp) (pucRegBuffer : Buf) (usAddress usNCoils : UShort)
    (eMode : MBRegisterMode) : RegResult SlaveApp :=
  let usAddress := usAddress - 1
  if inRange usAddress usNCoils sCoilStart sCoilNcoils then
    let iRegIndex := (usAddress.toNat - sCoilStart) / 8
    let iRegBitIndex := (usAddress.toNat - sCoilStart) % 8
    match eMode with
    | .read =>
        { eStatus := .enoerr
          pucRegBuffer :=
            readBitsCB app.ucSCoilBuf iRegIndex iRegBitIndex usNCoils.toNat pucRegBuffer
          app := app }
    | .write =>
        { eStatus := .enoerr
          pucRegBuffer := pucRegBuffer
          app := { app with
            ucSCoilBuf :=
              writeBitsCB pucRegBuffer iRegIndex iRegBitIndex usNCoils.toNat app.ucSCoilBuf } }
  else { eStatus := .enoreg, pucRegBuffer := pucRegBuffer, app := app }

/-- `eMBRegDiscreteCB`. -/
def eMBRegDiscreteCB (app : SlaveApp) (pucRegBuffer : Buf) (usAddress usNDiscrete : UShort) :
    RegResult SlaveApp :=
  let usAddress := usAddress - 1
  if inRange usAddress usNDiscrete sDiscreteInputStart sDiscreteInputNdiscretes then
    let iRegIndex := (usAddress.toNat - sDiscreteInputStart) / 8
    let iRegBitIndex := (usAddress.toNat - sDiscreteInputStart) % 8
    { eStatus := .enoerr
      pucRegBuffer :=
        readBitsCB app.ucSDiscInBuf iRegIndex iRegBitIndex usNDiscrete.toNat pucRegBuffer
      app := app }
  else { eStatus := .enoreg, pucRegBuffer := pucRegBuffer, app := app }

/-! ## Callbacks at the address of a request

The handlers call at `usAddress + 1`, which wraps at the last address and is
unwrapped by the callback. -/

section Requests

variable (app : SlaveApp) (buf : Buf) (a n : UShort)

theorem eMBRegInputCB_eq (h : inRange a n sRegInputStart sRegInputNregs) :
    eMBRegInputCB app buf (a + 1) n =
      ⟨.enoerr, readRegs app.usSRegInBuf n.toNat a.toNat buf 0, app⟩ := by
  simp only [eMBRegInputCB, BitVec.add_sub_cancel, if_pos h, Nat.sub_zero]

theorem eMBRegInputCB_enoreg (h : ¬ inRange a n sRegInputStart sRegInputNregs) :
    eMBRegInputCB app buf (a + 1) n = ⟨.enoreg, buf, app⟩ := by
  simp only [eMBRegInputCB, BitVec.add_sub_cancel, if_neg h]

theorem eMBRegHoldingCB_read (h : inRange a n sRegHoldingStart sRegHoldingNregs) :
    eMBRegHoldingCB app buf (a + 1) n .read =
      ⟨.enoerr, readRegs app.usSRegHoldBuf n.toNat a.toNat buf 0, app⟩ := by
  simp only [eMBRegHoldingCB, BitVec.add_sub_cancel, if_pos h, Nat.sub_zero]

theorem eMBRegHoldingCB_write (h : inRange a n sRegHoldingStart sRegHoldingNregs) :
    eMBRegHoldingCB app buf (a + 1) n .write =
      ⟨.enoerr, buf, { app with
        usSRegHoldBuf := writeRegs buf n.toNat a.toNat app.usSRegHoldBuf 0 }⟩ := by
  simp only [eMBRegHoldingCB, BitVec.add_sub_cancel, if_pos h, Nat.sub_zero]

theorem eMBRegHoldingCB_enoreg (eMode : MBRegisterMode)
    (h : ¬ inRange a n sRegHoldingStart sRegHoldingNregs) :
    eMBRegHoldingCB app buf (a + 1) n eMode = ⟨.enoreg, buf, app⟩ := by
  simp only [eMBRegHoldingCB, BitVec.add_sub_cancel, if_neg h]

theorem eMBRegCoilsCB_read (h : inRange a n sCoilStart sCoilNcoils) :
    eMBRegCoilsCB app buf (a + 1) n .read =
      ⟨.enoerr, readBitsCB app.ucSCoilBuf (a.toNat / 8) (a.toNat % 8) n.toNat buf, app⟩ := by
  simp only [eMBRegCoilsCB, BitVec.add_sub_cancel, if_pos h, Nat.sub_zero]

theorem eMBRegCoilsCB_write (h : inRange a n sCoilStart sCoilNcoils) :
    eMBRegCoilsCB app buf (a + 1) n .write =
      ⟨.enoerr, buf, { app with
        ucSCoilBuf := writeBitsCB buf (a.toNat / 8) (a.toNat % 8) n.toNat app.ucSCoilBuf }⟩ := by
  simp only [eMBRegCoilsCB, BitVec.add_sub_cancel, if_pos h, Nat.sub_zero]

theorem eMBRegCoilsCB_enoreg (eMode : MBRegisterMode)
    (h : ¬ inRange a n sCoilStart sCoilNcoils) :
    eMBRegCoilsCB app buf (a + 1) n eMode = ⟨.enoreg, buf, app⟩ := by
  simp only [eMBRegCoilsCB, BitVec.add_sub_cancel, if_neg h]

theorem eMBRegDiscreteCB_eq (h : inRange a n sDiscreteInputStart sDiscreteInputNdiscretes) :
    eMBRegDiscreteCB app buf (a + 1) n =
      ⟨.enoerr, readBitsCB app.ucSDiscInBuf (a.toNat / 8) (a.toNat % 8) n.toNat buf, app⟩ := by
  simp only [eMBRegDiscreteCB, BitVec.add_sub_cancel, if_pos h, Nat.sub_zero]

theorem eMBRegDiscreteCB_enoreg
    (h : ¬ inRange a n sDiscreteInputStart sDiscreteInputNdiscretes) :
    eMBRegDiscreteCB app buf (a + 1) n = ⟨.enoreg, buf, app⟩ := by
  simp only [eMBRegDiscreteCB, BitVec.add_sub_cancel, if_neg h]

end Requests

end FreeModbus
