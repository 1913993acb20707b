import FreeModbus.Lib.CheckedMemory
import FreeModbus.Master.Sending

/-!
# The size of the send buffer

A request is written into `ucMasterRTUSndBuf` in two places: the request function writes
the PDU behind the first byte, and `eMBMasterRTUSend` puts the address before it and the
CRC behind it.  Both are repeated here with checked stores.

The buffer has room for the largest PDU, but not for address and CRC around it.  The
functions with a count of data check it against other limits than that, or not at all.
-/

namespace FreeModbus

open ByteMemory

/-- The number of items in `ucMasterRTUSndBuf`. -/
abbrev masterRTUSndBufSize : Nat := mbPduSizeMax

/-- The offset of the byte count in the PDU, where there is one. -/
def MasterCall.countOff : MasterCall → Option Nat
  | .writeMultipleCoils _ _ _ => some 5
  | .writeMultipleHoldingRegister _ _ _ => some 5
  | .readWriteMultipleHoldingRegister _ _ _ _ _ => some 9
  | _ => none

/-- The byte count is the number of data bytes behind it. -/
def MasterCall.CountsData (c : MasterCall) : Prop :=
  ∀ k, c.countOff = some k → k + 1 + (c.req.pdu.getD k 0).toNat = c.req.pdu.length

/-- A bound on the count of the data, for the functions that send data. -/
def MasterCall.WithinBuffer : MasterCall → Prop
  | .writeMultipleCoils _ n _ => n.toNat ≤ 1952
  | .writeMultipleHoldingRegister _ n _ => n.toNat ≤ 122
  | .readWriteMultipleHoldingRegister _ _ _ _ n => n.toNat ≤ 120
  | _ => True

namespace Master

variable (size : Nat)

/-- `fillSndBuf` with checked stores. -/
def fillSndBufIn (s : Master) (q : MasterRequest) : Option Master :=
  (s.ucMasterRTUSndBuf.writeListIn size mbSerPduPduOff q.call.req.pdu).map fun buf =>
    { s with
      ucMBMasterDestAddress := q.ucSndAddr
      ucMasterRTUSndBuf := buf
      usMasterSendPDULength := q.call.req.usLength }

/-- `eMBMasterRTUSend` with checked stores. -/
def eMBMasterRTUSendIn (s : Master) (ucSlaveAddress : UChar) (usLength : UShort) :
    Option (MBErrorCode × Master) :=
  if mbMasterTotalSlaveNum < ucSlaveAddress.toNat then some (.einval, s)
  else if s.eRcvState = .idle then
    (s.ucMasterRTUSndBuf.writeIn size mbSerPduAddrOff ucSlaveAddress).bind fun buf₁ =>
    let usMasterSndBufferCount := 1 + usLength
    let usCRC16 := usMBCRC16 buf₁ usMasterSndBufferCount.toNat
    (Mem.writeIn size buf₁ usMasterSndBufferCount.toNat ((usCRC16 &&& 0xFF).setWidth 8)).bind
      fun buf₂ =>
    (Mem.writeIn size buf₂ (usMasterSndBufferCount + 1).toNat ((usCRC16 >>> 8).setWidth 8)).map
      fun buf₃ =>
    (.enoerr, vMBMasterPortSerialEnable { s with
      pucMasterSndBufferCur := 0
      ucMasterRTUSndBuf := buf₃
      usMasterSndBufferCount := usMasterSndBufferCount + 2
      eSndState := .xmit
      line := [] } false true)
  else some (.eio, s)

variable {size} {s : Master} {q : MasterRequest}

/-- The checked function computes what the unchecked one does, if the PDU ends inside. -/
theorem fillSndBufIn_eq :
    fillSndBufIn size s q =
      onlyIf (q.call.req.pdu = [] ∨ 1 + q.call.req.pdu.length ≤ size) (s.fillSndBuf q) := by
  rw [fillSndBufIn, Mem.writeListIn_eq, onlyIf_map]
  rfl

/-- The checked function computes what the unchecked one does, if address and CRC are inside. -/
theorem eMBMasterRTUSendIn_eq (a : UChar) (n : UShort) :
    eMBMasterRTUSendIn size s a n =
      onlyIf (a.toNat ≤ mbMasterTotalSlaveNum → s.eRcvState = .idle →
        0 < size ∧ (1 + n).toNat < size ∧ (1 + n + 1).toNat < size) (s.eMBMasterRTUSend a n) := by
  unfold eMBMasterRTUSendIn eMBMasterRTUSend
  by_cases ha : mbMasterTotalSlaveNum < a.toNat
  · rw [if_pos ha, if_pos ha]
    exact some_eq_onlyIf fun hle => absurd ha (Nat.not_lt.mpr hle)
  · rw [if_neg ha, if_neg ha]
    by_cases hidle : s.eRcvState = .idle
    · rw [if_pos hidle, if_pos hidle]
      simp only [Mem.writeIn, onlyIf_map, onlyIf_bind_onlyIf]
      refine onlyIf_congr ?_
      exact ⟨fun h _ _ => h, fun h => h (Nat.not_lt.mp ha) hidle⟩
    · rw [if_neg hidle, if_neg hidle]
      exact some_eq_onlyIf fun _ h => absurd h hidle

end Master

/-! ## The counts that fit -/

/-- A request that is not refused fits exactly up to the bound on its count. -/
theorem MasterRequest.fits_iff {q : MasterRequest} (h : q.illArg = false) :
    q.Fits ↔ q.call.WithinBuffer := by
  obtain ⟨addr, call⟩ := q
  have hcall : call.req.illArg = false := (Bool.or_eq_false_iff.mp h).2
  cases call with
  | writeMultipleCoils a n buf =>
    have hn : n.toNat ≤ 1968 := Nat.not_lt.mp (of_decide_eq_false hcall)
    have hbytes : (ucNBytes n).toNat = byteCount n.toNat := toNat_ucNBytes (by omega)
    simp only [Fits, MasterCall.req, eMBMasterReqWriteMultipleCoils, MasterCall.WithinBuffer,
      List.length_cons, List.length_append, wordBytes_length, slice_length, hbytes, byteCount,
      mbPduSizeMax, mbSerPduSizeCrc]
    omega
  | writeMultipleHoldingRegister a n buf =>
    simp only [Fits, MasterCall.req, eMBMasterReqWriteMultipleHoldingRegister,
      MasterCall.WithinBuffer, List.length_cons, List.length_append, wordBytes_length,
      packWords_length, mbPduSizeMax, mbSerPduSizeCrc]
    omega
  | readWriteMultipleHoldingRegister ra rn buf wa wn =>
    simp only [Fits, MasterCall.req, eMBMasterReqReadWriteMultipleHoldingRegister,
      MasterCall.WithinBuffer, List.length_cons, List.length_append, wordBytes_length,
      packWords_length, mbPduSizeMax, mbSerPduSizeCrc]
    omega
  | readCoils a n => exact iff_of_true (by decide : 1 + 5 + 2 ≤ 253) trivial
  | readDiscreteInputs a n => exact iff_of_true (by decide : 1 + 5 + 2 ≤ 253) trivial
  | readHoldingRegister a n => exact iff_of_true (by decide : 1 + 5 + 2 ≤ 253) trivial
  | readInputRegister a n => exact iff_of_true (by decide : 1 + 5 + 2 ≤ 253) trivial
  | writeCoil a v => exact iff_of_true (by decide : 1 + 5 + 2 ≤ 253) trivial
  | writeHoldingRegister a v => exact iff_of_true (by decide : 1 + 5 + 2 ≤ 253) trivial

/-- A request that fits announces as many bytes of data as it has. -/
theorem MasterRequest.Fits.countsData {q : MasterRequest} (h : q.Fits) : q.call.CountsData := by
  obtain ⟨addr, call⟩ := q
  intro k hk
  cases call with
  | writeMultipleCoils a n buf =>
    cases hk
    simp only [MasterCall.req, eMBMasterReqWriteMultipleCoils, wordBytes, List.cons_append,
      List.nil_append, List.getD_cons_succ, List.getD_cons_zero, List.length_cons, slice_length]
    omega
  | writeMultipleHoldingRegister a n buf =>
    cases hk
    simp only [Fits, MasterCall.req, eMBMasterReqWriteMultipleHoldingRegister, wordBytes,
      List.cons_append, List.nil_append, List.getD_cons_succ, List.getD_cons_zero,
      List.length_cons, packWords_length, setWidth_mul_two, BitVec.toNat_ofNat,
      mbPduSizeMax, mbSerPduSizeCrc] at h ⊢
    omega
  | readWriteMultipleHoldingRegister ra rn buf wa wn =>
    cases hk
    simp only [Fits, MasterCall.req, eMBMasterReqReadWriteMultipleHoldingRegister, wordBytes,
      List.cons_append, List.nil_append, List.getD_cons_succ, List.getD_cons_zero,
      List.length_cons, packWords_length, setWidth_mul_two, BitVec.toNat_ofNat,
      mbPduSizeMax, mbSerPduSizeCrc] at h ⊢
    omega
  | readCoils a n => cases hk
  | readDiscreteInputs a n => cases hk
  | readHoldingRegister a n => cases hk
  | readInputRegister a n => cases hk
  | writeCoil a v => cases hk
  | writeHoldingRegister a v => cases hk

theorem MasterCall.pdu_ne_nil (c : MasterCall) : c.req.pdu ≠ [] := by
  cases c <;> exact List.cons_ne_nil _ _

namespace Master

variable {size : Nat} {s : Master} {q : MasterRequest}

/-- The stores of a request, from the request function to the CRC. -/
def storesIn (size : Nat) (s : Master) (q : MasterRequest) : Option (MBErrorCode × Master) :=
  (fillSndBufIn size s q).bind fun s₁ =>
    eMBMasterRTUSendIn size s₁ q.ucSndAddr s₁.usMasterSendPDULength

theorem storesIn_isSome :
    (storesIn size s q).isSome ↔
      1 + q.call.req.pdu.length ≤ size ∧
        (q.ucSndAddr.toNat ≤ mbMasterTotalSlaveNum → s.eRcvState = .idle →
          0 < size ∧ (1 + q.call.req.usLength).toNat < size ∧
            (1 + q.call.req.usLength + 1).toNat < size) := by
  let send := fun s₁ : Master => eMBMasterRTUSendIn size s₁ q.ucSndAddr s₁.usMasterSendPDULength
  rw [storesIn, fillSndBufIn_eq, onlyIf_bind send fun _ => eMBMasterRTUSendIn_eq _ _,
    onlyIf_isSome]
  refine and_congr_left fun _ => ?_
  exact or_iff_right q.call.pdu_ne_nil

/-- The places of the CRC. -/
theorem crc_offsets {n : UShort} {k : Nat} (hn : n.toNat = k) (hk : k < 512) :
    (1 + n).toNat = 1 + k ∧ (1 + n + 1).toNat = 2 + k := by
  have h1 : (1 : UShort).toNat = 1 := rfl
  have hlo : (1 + n).toNat = 1 + k := by
    rw [BitVec.toNat_add, h1, hn]
    omega
  refine ⟨hlo, ?_⟩
  rw [BitVec.toNat_add, hlo, h1]
  omega

/-- An admitted request stays inside the send buffer, from whatever state it is written and
sent, and announces the data it has, exactly if its count is within the bound. -/
theorem storesIn_iff (q : MasterRequest) (h : q.illArg = false) :
    ((∀ s, (storesIn masterRTUSndBufSize s q).isSome) ∧ q.call.CountsData) ↔
      q.call.WithinBuffer := by
  rw [← MasterRequest.fits_iff h]
  have haddr : q.ucSndAddr.toNat ≤ mbMasterTotalSlaveNum :=
    Nat.not_lt.mp (of_decide_eq_false (Bool.or_eq_false_iff.mp h).1)
  constructor
  · rintro ⟨hs, -⟩
    have hidle := storesIn_isSome.mp (hs { static .initial with eRcvState := .idle })
    have hpdu : 1 + q.call.req.pdu.length ≤ 253 := hidle.1
    have hlen := MasterCall.usLength_eq (c := q.call) (by omega)
    have hcrc : (1 + q.call.req.usLength + 1).toNat < 253 := (hidle.2 haddr rfl).2.2
    rw [(crc_offsets hlen (by omega)).2] at hcrc
    have hfit : 1 + q.call.req.pdu.length + 2 ≤ 253 := by omega
    exact hfit
  · intro hfit
    have hle : 1 + q.call.req.pdu.length + 2 ≤ 253 := hfit
    obtain ⟨hlo, hhi⟩ := crc_offsets hfit.usLength (by omega)
    refine ⟨fun s => storesIn_isSome.mpr ⟨?_, fun _ _ => ⟨by decide, ?_, ?_⟩⟩, hfit.countsData⟩
    · exact Nat.le_trans (Nat.le_add_right _ 2) hle
    · rw [hlo]
      exact Nat.lt_of_lt_of_le (Nat.lt_add_of_pos_right (by decide)) hle
    · rw [hhi]
      refine Nat.lt_of_lt_of_le ?_ hle
      omega

/-- A write of 122 registers is the longest that stays inside. -/
theorem storesIn_largest :
    (∀ s, (storesIn masterRTUSndBufSize s
      ⟨1, .writeMultipleHoldingRegister 0 122 fun _ => 0⟩).isSome) ∧
      (MasterCall.writeMultipleHoldingRegister 0 122 fun _ => 0).CountsData :=
  (storesIn_iff ⟨1, .writeMultipleHoldingRegister 0 122 fun _ => 0⟩ rfl).mpr
    (by decide : (122 : UShort).toNat ≤ 122)

/-- A write of 123 registers has the last byte of its CRC behind the buffer. -/
theorem storesIn_outside :
    ¬ ∀ q : MasterRequest, q.illArg = false →
      (∀ s, (storesIn masterRTUSndBufSize s q).isSome) ∧ q.call.CountsData := by
  intro h
  let q : MasterRequest := ⟨1, .writeMultipleHoldingRegister 0 123 fun _ => 0⟩
  have hidle := storesIn_isSome.mp ((h q rfl).1 { static .initial with eRcvState := .idle })
  have hcrc := (hidle.2 (by decide) rfl).2.2
  revert hcrc
  decide

end Master

end FreeModbus
