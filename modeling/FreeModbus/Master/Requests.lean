import FreeModbus.Lib.DataModel
import FreeModbus.Utils

/-!
# The requests of the master

The `eMBMasterReq...` functions.  All of them refuse an address above the number
of slaves, two of them check an argument more, and then they take the run
resource, write a PDU into the send buffer from its start, set its length, post
`EV_MASTER_FRAME_SENT` and wait.

A function is given here by what is its own: the further check, the bytes it
writes in the order of their addresses, and the length it sets.  The steps they
share are steps of the master.

`MasterCall.request` is the request of the data model that a call is for, and
`pdu_eq` says that the bytes written are its PDU.
-/

namespace FreeModbus

open ByteMemory DataModel

/-- What an `eMBMasterReq...` function does with its arguments. -/
structure MasterReq where
  /-- The function returns `MB_MRE_ILL_ARG`, whatever the address. -/
  illArg : Bool
  /-- The bytes written from `ucMBFrame[0]` on. -/
  pdu : List UChar
  /-- The argument of `vMBMasterSetPDUSndLength`, a `USHORT`. -/
  usLength : UShort

abbrev mbPduReqWriteMulCoilcntMax : Nat := 0x07B0

/-! ## Reads -/

/-- The common body of the four reads. -/
def masterReqRead (ucFunctionCode : UChar) (usAddr usN : UShort) : MasterReq where
  illArg := false
  pdu := ucFunctionCode :: (wordBytes usAddr ++ wordBytes usN)
  usLength := 5

/-- `eMBMasterReqReadCoils`. -/
def eMBMasterReqReadCoils (usCoilAddr usNCoils : UShort) : MasterReq :=
  masterReqRead mbFuncReadCoils usCoilAddr usNCoils

/-- `eMBMasterReqReadDiscreteInputs`. -/
def eMBMasterReqReadDiscreteInputs (usDiscreteAddr usNDiscreteIn : UShort) : MasterReq :=
  masterReqRead mbFuncReadDiscreteInputs usDiscreteAddr usNDiscreteIn

/-- `eMBMasterReqReadHoldingRegister`. -/
def eMBMasterReqReadHoldingRegister (usRegAddr usNRegs : UShort) : MasterReq :=
  masterReqRead mbFuncReadHoldingRegister usRegAddr usNRegs

/-- `eMBMasterReqReadInputRegister`. -/
def eMBMasterReqReadInputRegister (usRegAddr usNRegs : UShort) : MasterReq :=
  masterReqRead mbFuncReadInputRegister usRegAddr usNRegs

/-! ## Writes -/

/-- `eMBMasterReqWriteCoil`. -/
def eMBMasterReqWriteCoil (usCoilAddr usCoilData : UShort) : MasterReq where
  illArg := usCoilData ≠ 0xFF00 ∧ usCoilData ≠ 0x0000
  pdu := mbFuncWriteSingleCoil :: (wordBytes usCoilAddr ++ wordBytes usCoilData)
  usLength := 5

/-- `eMBMasterReqWriteHoldingRegister`. -/
def eMBMasterReqWriteHoldingRegister (usRegAddr usRegData : UShort) : MasterReq where
  illArg := false
  pdu := mbFuncWriteRegister :: (wordBytes usRegAddr ++ wordBytes usRegData)
  usLength := 5

/-- `eMBMasterReqWriteMultipleCoils`. -/
def eMBMasterReqWriteMultipleCoils (usCoilAddr usNCoils : UShort) (pucDataBuffer : Buf) :
    MasterReq where
  illArg := mbPduReqWriteMulCoilcntMax < usNCoils.toNat
  pdu := mbFuncWriteMultipleCoils :: (wordBytes usCoilAddr ++ wordBytes usNCoils ++
    (ucNBytes usNCoils :: slice pucDataBuffer 0 (ucNBytes usNCoils).toNat))
  usLength := 6 + (ucNBytes usNCoils).setWidth 16

/-- `eMBMasterReqWriteMultipleHoldingRegister`. -/
def eMBMasterReqWriteMultipleHoldingRegister (usRegAddr usNRegs : UShort)
    (pusDataBuffer : Mem UShort) : MasterReq where
  illArg := false
  pdu := mbFuncWriteMultipleRegisters :: (wordBytes usRegAddr ++ wordBytes usNRegs ++
    ((usNRegs * 2).setWidth 8 :: packWords usNRegs.toNat pusDataBuffer))
  usLength := 6 + 2 * usNRegs

/-- `eMBMasterReqReadWriteMultipleHoldingRegister`. -/
def eMBMasterReqReadWriteMultipleHoldingRegister (usReadRegAddr usNReadRegs : UShort)
    (pusDataBuffer : Mem UShort) (usWriteRegAddr usNWriteRegs : UShort) : MasterReq where
  illArg := false
  pdu := mbFuncReadwriteMultipleRegisters ::
    (wordBytes usReadRegAddr ++ wordBytes usNReadRegs ++
      (wordBytes usWriteRegAddr ++ (wordBytes usNWriteRegs ++
        ((usNWriteRegs * 2).setWidth 8 :: packWords usNWriteRegs.toNat pusDataBuffer))))
  usLength := 10 + 2 * usNWriteRegs

/-! ## Calls -/

/-- A call of one of the request functions with its arguments, apart from the slave address and
the timeout. -/
inductive MasterCall where
  | readCoils (usCoilAddr usNCoils : UShort)
  | readDiscreteInputs (usDiscreteAddr usNDiscreteIn : UShort)
  | readHoldingRegister (usRegAddr usNRegs : UShort)
  | readInputRegister (usRegAddr usNRegs : UShort)
  | writeCoil (usCoilAddr usCoilData : UShort)
  | writeHoldingRegister (usRegAddr usRegData : UShort)
  | writeMultipleCoils (usCoilAddr usNCoils : UShort) (pucDataBuffer : Buf)
  | writeMultipleHoldingRegister (usRegAddr usNRegs : UShort) (pusDataBuffer : Mem UShort)
  | readWriteMultipleHoldingRegister (usReadRegAddr usNReadRegs : UShort)
      (pusDataBuffer : Mem UShort) (usWriteRegAddr usNWriteRegs : UShort)

/-- What the called function does. -/
def MasterCall.req : MasterCall → MasterReq
  | .readCoils a n => eMBMasterReqReadCoils a n
  | .readDiscreteInputs a n => eMBMasterReqReadDiscreteInputs a n
  | .readHoldingRegister a n => eMBMasterReqReadHoldingRegister a n
  | .readInputRegister a n => eMBMasterReqReadInputRegister a n
  | .writeCoil a v => eMBMasterReqWriteCoil a v
  | .writeHoldingRegister a v => eMBMasterReqWriteHoldingRegister a v
  | .writeMultipleCoils a n buf => eMBMasterReqWriteMultipleCoils a n buf
  | .writeMultipleHoldingRegister a n buf => eMBMasterReqWriteMultipleHoldingRegister a n buf
  | .readWriteMultipleHoldingRegister ra rn buf wa wn =>
      eMBMasterReqReadWriteMultipleHoldingRegister ra rn buf wa wn

/-- The request of the data model that a call is for. -/
def MasterCall.request : MasterCall → Request
  | .readCoils a n => .readCoils a n
  | .readDiscreteInputs a n => .readDiscretes a n
  | .readHoldingRegister a n => .readHoldings a n
  | .readInputRegister a n => .readInputs a n
  | .writeCoil a v => .writeCoil a (v = 0xFF00)
  | .writeHoldingRegister a v => .writeHolding a v
  | .writeMultipleCoils a n buf => .writeCoils a ((List.range n.toNat).map (bitAt buf))
  | .writeMultipleHoldingRegister a n buf => .writeHoldings a ((List.range n.toNat).map buf)
  | .readWriteMultipleHoldingRegister ra rn buf wa wn =>
      .readWriteHoldings ra rn wa ((List.range wn.toNat).map buf)

/-- The arguments are those of a request: one of the two coil values, and zeros behind the last
coil of the data. -/
def MasterCall.Proper : MasterCall → Prop
  | .writeCoil _ v => v = 0xFF00 ∨ v = 0x0000
  | .writeMultipleCoils _ n buf =>
      n.toNat ≤ mbPduReqWriteMulCoilcntMax ∧
        ∀ i, n.toNat ≤ i → i < 8 * byteCount n.toNat → bitAt buf i = false
  | _ => True

/-- A proper call is not refused for its arguments. -/
theorem MasterCall.not_illArg {c : MasterCall} (h : c.Proper) : c.req.illArg = false := by
  cases c with
  | writeCoil a v =>
    apply decide_eq_false
    rintro ⟨h1, h2⟩
    exact h.elim h1 h2
  | writeMultipleCoils a n buf => exact decide_eq_false (Nat.not_lt.mpr h.1)
  | _ => rfl

/-- Bits of a buffer with zeros behind them, packed, are its bytes. -/
theorem packBools_range {buf : Buf} {n : Nat}
    (hpad : ∀ i, n ≤ i → i < 8 * byteCount n → bitAt buf i = false) :
    slice buf 0 (byteCount n) = packBools ((List.range n).map (bitAt buf)) := by
  unfold packBools
  rw [List.length_map, List.length_range]
  refine slice_eq_packBits fun i hi => ?_
  rw [Nat.mul_zero, Nat.zero_add]
  by_cases h : i < n
  · simp [h]
  · simp [h, hpad i (Nat.le_of_not_lt h) hi]

/-- Words of an array, packed. -/
theorem packWordList_range (buf : Mem UShort) (n : Nat) :
    packWords n buf = packWordList ((List.range n).map buf) := by
  unfold packWordList
  rw [List.length_map, List.length_range]
  refine packWords_congr fun i hi => ?_
  simp [hi]

/-- The bytes that a call writes are the PDU of its request. -/
theorem MasterCall.pdu_eq {c : MasterCall} (h : c.Proper) : c.req.pdu = c.request.pdu := by
  have hcnt : ∀ n : UShort, BitVec.ofNat 16 n.toNat = n := fun n => by
    rw [BitVec.ofNat_toNat, BitVec.setWidth_eq]
  cases c with
  | readCoils a n => exact (List.append_nil _).symm
  | readDiscreteInputs a n => exact (List.append_nil _).symm
  | readHoldingRegister a n => exact (List.append_nil _).symm
  | readInputRegister a n => exact (List.append_nil _).symm
  | writeHoldingRegister a v => exact (List.append_nil _).symm
  | writeCoil a v =>
    rcases h with rfl | rfl
    · exact (List.append_nil _).symm
    · exact (List.append_nil _).symm
  | writeMultipleCoils a n buf =>
    obtain ⟨hn, hpad⟩ := h
    have hn : n.toNat < 2040 := Nat.lt_of_le_of_lt hn (by decide)
    have hbytes : (ucNBytes n).toNat = byteCount n.toNat := toNat_ucNBytes hn
    simp only [req, eMBMasterReqWriteMultipleCoils, hbytes, packBools_range hpad]
    simp only [ucNBytes_eq hn, request, Request.pdu, Request.head, Request.tail, List.length_map,
      List.length_range, hcnt]
    rfl
  | writeMultipleHoldingRegister a n buf =>
    simp only [req, eMBMasterReqWriteMultipleHoldingRegister, request, Request.pdu, Request.head,
      Request.tail, packWordList_range, setWidth_mul_two, List.length_map, List.length_range, hcnt]
    rfl
  | readWriteMultipleHoldingRegister ra rn buf wa wn =>
    simp only [req, eMBMasterReqReadWriteMultipleHoldingRegister, request, Request.pdu,
      Request.head, Request.tail, packWordList_range, setWidth_mul_two, List.length_map,
      List.length_range, hcnt]
    rfl

/-- The length that is set is the number of bytes written, for a PDU that fits. -/
theorem MasterCall.usLength_eq {c : MasterCall} (h : c.req.pdu.length < 512) :
    c.req.usLength.toNat = c.req.pdu.length := by
  have h2 : (2 : UShort).toNat = 2 := rfl
  have h6 : (6 : UShort).toNat = 6 := rfl
  have h10 : (10 : UShort).toNat = 10 := rfl
  cases c with
  | writeMultipleCoils a n buf =>
    have hb := (ucNBytes n).isLt
    simp only [req, eMBMasterReqWriteMultipleCoils, List.length_cons, List.length_append,
      wordBytes_length, slice_length, BitVec.toNat_add, BitVec.toNat_setWidth, h6] at h ⊢
    omega
  | writeMultipleHoldingRegister a n buf =>
    simp only [req, eMBMasterReqWriteMultipleHoldingRegister, List.length_cons, List.length_append,
      wordBytes_length, packWords_length, BitVec.toNat_add, BitVec.toNat_mul, h2, h6] at h ⊢
    omega
  | readWriteMultipleHoldingRegister ra rn buf wa wn =>
    simp only [req, eMBMasterReqReadWriteMultipleHoldingRegister, List.length_cons,
      List.length_append, wordBytes_length, packWords_length, BitVec.toNat_add, BitVec.toNat_mul,
      h2, h10] at h ⊢
    omega
  | _ => rfl

end FreeModbus
