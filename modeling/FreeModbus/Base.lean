import FreeModbus.Lib.ByteMemory

/-!
# Types and constants of the stack

`UCHAR` and `USHORT` are bit vectors, so their arithmetic wraps as in C.  The
enumerations of `mb.h`, `mb_m.h` and `mbproto.h` are inductive types.  Buffers
are memory behind a pointer (`ByteMemory.Mem`), with no length of their own.
-/

namespace FreeModbus

open ByteMemory

/-- `UCHAR`. -/
abbrev UChar := BitVec 8

/-- `USHORT`. -/
abbrev UShort := BitVec 16

/-- A `UCHAR *`. -/
abbrev Buf := Mem UChar

/-! ## `mb.h` -/

/-- `eMBErrorCode`. -/
inductive MBErrorCode where
  | enoerr
  | enoreg
  | einval
  | eporterr
  | enores
  | eio
  | eillstate
  | etimedout
deriving Repr, DecidableEq

/-- `eMBRegisterMode`. -/
inductive MBRegisterMode where
  | read
  | write
deriving Repr, DecidableEq

/-! ## `mbproto.h` -/

def mbAddressBroadcast : UChar := 0
def mbAddressMin : UChar := 1
def mbAddressMax : UChar := 247

def mbFuncReadCoils : UChar := 1
def mbFuncReadDiscreteInputs : UChar := 2
def mbFuncReadHoldingRegister : UChar := 3
def mbFuncReadInputRegister : UChar := 4
def mbFuncWriteSingleCoil : UChar := 5
def mbFuncWriteRegister : UChar := 6
def mbFuncWriteMultipleCoils : UChar := 15
def mbFuncWriteMultipleRegisters : UChar := 16
def mbFuncOtherReportSlaveid : UChar := 17
def mbFuncReadwriteMultipleRegisters : UChar := 23
def mbFuncError : UChar := 128

/-- `eMBException`. -/
inductive MBException where
  | none
  | illegalFunction
  | illegalDataAddress
  | illegalDataValue
  | slaveDeviceFailure
  | acknowledge
  | slaveBusy
  | memoryParityError
  | gatewayPathFailed
  | gatewayTgtFailed
deriving Repr, DecidableEq

/-- The value of an exception code. -/
def MBException.code : MBException → UChar
  | .none => 0x00
  | .illegalFunction => 0x01
  | .illegalDataAddress => 0x02
  | .illegalDataValue => 0x03
  | .slaveDeviceFailure => 0x04
  | .acknowledge => 0x05
  | .slaveBusy => 0x06
  | .memoryParityError => 0x08
  | .gatewayPathFailed => 0x0A
  | .gatewayTgtFailed => 0x0B

theorem MBException.code_eq_zero {e : MBException} : e.code = 0 ↔ e = .none := by
  cases e <;> decide

/-! ## `mbframe.h` -/

abbrev mbPduSizeMax : Nat := 253
abbrev mbPduSizeMin : Nat := 1
abbrev mbPduFuncOff : Nat := 0
abbrev mbPduDataOff : Nat := 1

/-! ## `mbrtu.c` and `mbrtu_m.c` -/

abbrev mbSerPduSizeMin : Nat := 4
abbrev mbSerPduSizeMax : Nat := 256
abbrev mbSerPduSizeCrc : Nat := 2
abbrev mbSerPduAddrOff : Nat := 0
abbrev mbSerPduPduOff : Nat := 1

/-! ## `mbconfig.h` -/

abbrev mbFuncHandlersMax : Nat := 16
abbrev mbFuncOtherRepSlaveidBuf : Nat := 32
abbrev mbMasterTotalSlaveNum : Nat := 16

/-! ## Function handlers

A handler of type `pxMBFunctionHandler` gets a frame and a length by reference
and changes both in place, together with the data of the application. -/

/-- What a handler leaves. -/
structure FuncResult (App : Type) where
  /-- The exception it returns. -/
  eStatus : MBException
  /-- The frame, changed in place. -/
  pucFrame : Buf
  /-- The length, changed in place. -/
  usLen : Nat
  /-- The data of the application. -/
  app : App

/-- What a register callback leaves. -/
structure RegResult (App : Type) where
  /-- The error code it returns. -/
  eStatus : MBErrorCode
  /-- The buffer it was given, changed in place. -/
  pucRegBuffer : Buf
  /-- The data of the application. -/
  app : App

/-- An entry of a handler table (`xMBFunctionHandler`).  `NULL` is `none`. -/
structure MBFunctionHandler (H : Type) where
  ucFunctionCode : UChar
  pxHandler : Option H

/-- The loop over a handler table in `eMBPoll` and `eMBMasterPoll`: the first entry
for the function code, unless an entry with code zero comes before it. -/
def findHandler {H : Type} (ucFunctionCode : UChar) : List (MBFunctionHandler H) → Option H
  | [] => none
  | e :: es =>
      if e.ucFunctionCode = 0 then none
      else if e.ucFunctionCode = ucFunctionCode then e.pxHandler
      else findHandler ucFunctionCode es

/-- A handler that is found stands in the table under its code. -/
theorem mem_of_findHandler {H : Type} {code : UChar} {h : H} :
    ∀ {table : List (MBFunctionHandler H)}, findHandler code table = some h →
      ⟨code, some h⟩ ∈ table
  | [], hf => nomatch hf
  | e :: es, hf => by
      unfold findHandler at hf
      split at hf
      · cases hf
      · split at hf
        · rename_i heq
          rw [← heq, ← hf]
          exact List.mem_cons_self ..
        · exact List.mem_cons_of_mem _ (mem_of_findHandler hf)

/-- An entry with its handler replaced by what `f` makes of it. -/
def MBFunctionHandler.map {H K : Type} (f : H → K) (e : MBFunctionHandler H) :
    MBFunctionHandler K :=
  ⟨e.ucFunctionCode, e.pxHandler.map f⟩

theorem findHandler_map {H K : Type} (f : H → K) (code : UChar) :
    ∀ table : List (MBFunctionHandler H),
      findHandler code (table.map (.map f)) = (findHandler code table).map f
  | [] => rfl
  | e :: es => by
      have hcode : (e.map f).ucFunctionCode = e.ucFunctionCode := rfl
      rw [List.map_cons, findHandler, findHandler, findHandler_map f code es, hcode]
      split
      · rfl
      · split
        · rfl
        · rfl

/-- `ucMBSlaveID` and `usMBSlaveIDLen`.  `eMBSetSlaveID` is their only writer and keeps
the length below the size of the buffer. -/
structure SlaveID where
  ucMBSlaveID : Buf
  usMBSlaveIDLen : Nat
  fits : usMBSlaveIDLen < mbFuncOtherRepSlaveidBuf

/-- No id was set. -/
def SlaveID.unset : SlaveID := ⟨fun _ => 0, 0, by decide⟩

end FreeModbus
