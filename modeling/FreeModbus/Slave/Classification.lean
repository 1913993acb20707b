import FreeModbus.RegisterMaps
import FreeModbus.Slave.Functions

/-!
# The exceptions of the reads

A read request is refused for its length or its quantity, refused for its range, or
answered.  `readException` is that classification, with the quantity that the handler
calls the maximum.

The handlers compare the quantity with their maximum by `<`, except the one for
holding registers, which compares by `<=`.  Where they differ from the classification is
the maximum itself.
-/

namespace FreeModbus

open ByteMemory DataModel

/-- The functions 1, 2, 3 and 4. -/
inductive ReadFunction where
  | coils
  | discretes
  | holding
  | input
deriving Repr, DecidableEq

namespace ReadFunction

/-- The handler of the function. -/
def handler : ReadFunction → SlaveHandler
  | coils => eMBFuncReadCoils
  | discretes => eMBFuncReadDiscreteInputs
  | holding => eMBFuncReadHoldingRegister
  | input => eMBFuncReadInputRegister

/-- The maximum that the handler names. -/
def countMax : ReadFunction → Nat
  | coils => mbPduFuncReadCoilcntMax
  | discretes => mbPduFuncReadDisccntMax
  | holding => mbPduFuncReadRegcntMax
  | input => mbPduFuncReadRegcntMax

/-- The size of the map that is read. -/
def size : ReadFunction → Nat
  | coils => sCoilNcoils
  | discretes => sDiscreteInputNdiscretes
  | holding => sRegHoldingNregs
  | input => sRegInputNregs

/-- The exception of a request of `usLen` bytes for `q` items from `a` on. -/
def readException (f : ReadFunction) (usLen : Nat) (a q : UShort) : MBException :=
  if usLen ≠ 5 ∨ q.toNat = 0 ∨ f.countMax < q.toNat then .illegalDataValue
  else if f.size < a.toNat + q.toNat then .illegalDataAddress
  else .none

/-- The count check of the handler. -/
def cntOk : ReadFunction → UShort → Bool
  | coils, n => decide (1 ≤ n.toNat ∧ n.toNat < mbPduFuncReadCoilcntMax)
  | discretes, n => decide (1 ≤ n.toNat ∧ n.toNat < mbPduFuncReadDisccntMax)
  | holding, n => decide (1 ≤ n.toNat ∧ n.toNat ≤ mbPduFuncReadRegcntMax)
  | input, n => decide (1 ≤ n.toNat ∧ n.toNat < mbPduFuncReadRegcntMax)

end ReadFunction

/-! ## The exception of a handler -/

/-- A callback refuses the ranges outside a map of `size` items, and no others. -/
def RefusesOutside (size : Nat)
    (cb : SlaveApp → Buf → UShort → UShort → RegResult SlaveApp) : Prop :=
  ∀ app buf a n, (cb app buf (a + 1) n).eStatus =
    if size < a.toNat + n.toNat then .enoreg else .enoerr

theorem refusesOutside_of {size : Nat}
    {cb : SlaveApp → Buf → UShort → UShort → RegResult SlaveApp}
    (hin : ∀ app buf a n, inRange a n 0 size → (cb app buf (a + 1) n).eStatus = .enoerr)
    (hout : ∀ app buf a n, ¬ inRange a n 0 size → (cb app buf (a + 1) n).eStatus = .enoreg) :
    RefusesOutside size cb := by
  intro app buf a n
  by_cases h : size < a.toNat + n.toNat
  · rw [if_pos h]
    exact hout app buf a n fun hr => Nat.not_le.mpr h (inRange_zero.mp hr)
  · rw [if_neg h]
    exact hin app buf a n (inRange_zero.mpr (Nat.not_lt.mp h))

theorem eMBRegInputCB_refuses : RefusesOutside sRegInputNregs eMBRegInputCB :=
  refusesOutside_of
    (fun app buf a n h => congrArg RegResult.eStatus (eMBRegInputCB_eq app buf a n h))
    (fun app buf a n h => congrArg RegResult.eStatus (eMBRegInputCB_enoreg app buf a n h))

theorem eMBRegHoldingCB_refuses :
    RefusesOutside sRegHoldingNregs fun app buf a n => eMBRegHoldingCB app buf a n .read :=
  refusesOutside_of
    (fun app buf a n h => congrArg RegResult.eStatus (eMBRegHoldingCB_read app buf a n h))
    (fun app buf a n h => congrArg RegResult.eStatus (eMBRegHoldingCB_enoreg app buf a n .read h))

theorem eMBRegCoilsCB_refuses :
    RefusesOutside sCoilNcoils fun app buf a n => eMBRegCoilsCB app buf a n .read :=
  refusesOutside_of
    (fun app buf a n h => congrArg RegResult.eStatus (eMBRegCoilsCB_read app buf a n h))
    (fun app buf a n h => congrArg RegResult.eStatus (eMBRegCoilsCB_enoreg app buf a n .read h))

theorem eMBRegDiscreteCB_refuses : RefusesOutside sDiscreteInputNdiscretes eMBRegDiscreteCB :=
  refusesOutside_of
    (fun app buf a n h => congrArg RegResult.eStatus (eMBRegDiscreteCB_eq app buf a n h))
    (fun app buf a n h => congrArg RegResult.eStatus (eMBRegDiscreteCB_enoreg app buf a n h))

/-- The exception of a read by its count check and the range of its callback. -/
theorem funcRead_eStatus (code : UChar) {cntOk : UShort → Bool} (nBytes : UShort → UChar)
    (dataLen : UShort → Nat) {size : Nat}
    {cb : SlaveApp → Buf → UShort → UShort → RegResult SlaveApp} (hcb : RefusesOutside size cb)
    (app : SlaveApp) (frame : Buf) (usLen : Nat) :
    (funcRead code cntOk nBytes dataLen cb app frame usLen).eStatus =
      if usLen ≠ 5 ∨ cntOk (wordAt frame 3) = false then .illegalDataValue
      else if size < (wordAt frame 1).toNat + (wordAt frame 3).toNat then .illegalDataAddress
      else .none := by
  by_cases hlen : usLen = 5
  · subst hlen
    cases hok : cntOk (wordAt frame 3) with
    | false =>
      rw [funcRead_badCount code nBytes dataLen hok, if_pos (Or.inr rfl)]
    | true =>
      rw [if_neg (by simp)]
      have hst := fun buf => hcb app buf (wordAt frame 1) (wordAt frame 3)
      unfold funcRead
      simp only [mbPduFuncReadAddrOff, mbPduFuncReadCntOff, mbPduFuncReadSize, mbPduSizeMin,
        mbPduDataOff, hok, if_true, hst]
      by_cases hout : size < (wordAt frame 1).toNat + (wordAt frame 3).toNat
      · simp only [if_pos hout]
        rfl
      · simp only [if_neg hout]
        rfl
  · rw [funcRead_badLen code nBytes dataLen hlen, if_pos (Or.inl hlen)]

namespace ReadFunction

variable (f : ReadFunction) (app : SlaveApp) (frame : Buf) (usLen : Nat)

theorem handler_eStatus :
    (f.handler app frame usLen).eStatus =
      if usLen ≠ 5 ∨ f.cntOk (wordAt frame 3) = false then .illegalDataValue
      else if f.size < (wordAt frame 1).toNat + (wordAt frame 3).toNat then .illegalDataAddress
      else .none := by
  cases f with
  | coils => exact funcRead_eStatus _ _ _ eMBRegCoilsCB_refuses app frame usLen
  | discretes => exact funcRead_eStatus _ _ _ eMBRegDiscreteCB_refuses app frame usLen
  | holding => exact funcRead_eStatus _ _ _ eMBRegHoldingCB_refuses app frame usLen
  | input => exact funcRead_eStatus _ _ _ eMBRegInputCB_refuses app frame usLen

/-! ## The maximum -/

/-- The count check refuses the quantities outside the limits, and the maximum where it
compares by `<`. -/
theorem cntOk_eq_false {f : ReadFunction} {q : UShort} :
    f.cntOk q = false ↔
      q.toNat = 0 ∨ f.countMax < q.toNat ∨ (f ≠ holding ∧ q.toNat = f.countMax) := by
  cases f with
  | coils =>
    simp only [cntOk, countMax, decide_eq_false_iff_not, ne_eq, reduceCtorEq, not_false_eq_true,
      true_and]
    omega
  | discretes =>
    simp only [cntOk, countMax, decide_eq_false_iff_not, ne_eq, reduceCtorEq, not_false_eq_true,
      true_and]
    omega
  | holding =>
    simp only [cntOk, countMax, decide_eq_false_iff_not, ne_eq, not_true_eq_false, false_and,
      or_false]
    omega
  | input =>
    simp only [cntOk, countMax, decide_eq_false_iff_not, ne_eq, reduceCtorEq, not_false_eq_true,
      true_and]
    omega

/-- No map is as large as the maximum of its function. -/
theorem size_lt_countMax : f.size < f.countMax := by
  cases f <;> decide

/-- A handler classifies a request as `readException` does, unless the request is for the
maximum and the handler compares by `<`. -/
theorem eStatus_eq_readException_iff :
    (f.handler app frame usLen).eStatus =
        f.readException usLen (wordAt frame 1) (wordAt frame 3) ↔
      ¬ (usLen = 5 ∧ f ≠ holding ∧ (wordAt frame 3).toNat = f.countMax) := by
  rw [handler_eStatus, readException]
  by_cases hmax : usLen = 5 ∧ f ≠ holding ∧ (wordAt frame 3).toNat = f.countMax
  · obtain ⟨hlen, hne, hq⟩ := hmax
    have hok : f.cntOk (wordAt frame 3) = false := cntOk_eq_false.mpr (Or.inr (Or.inr ⟨hne, hq⟩))
    have hsize := f.size_lt_countMax
    have hin : ¬ (usLen ≠ 5 ∨ (wordAt frame 3).toNat = 0 ∨
        f.countMax < (wordAt frame 3).toNat) := by
      omega
    rw [if_pos (Or.inr hok), if_neg hin, if_pos (by omega)]
    simp [hlen, hne, hq]
  · have hsame : (usLen ≠ 5 ∨ f.cntOk (wordAt frame 3) = false) ↔
        (usLen ≠ 5 ∨ (wordAt frame 3).toNat = 0 ∨ f.countMax < (wordAt frame 3).toNat) := by
      rw [cntOk_eq_false]
      tauto
    simp only [hsame]
    exact iff_of_true trivial hmax

/-- A read of as many input registers as the handler allows. -/
theorem readException_maximum :
    ¬ ∀ (f : ReadFunction) (app : SlaveApp) (frame : Buf) (usLen : Nat),
      (f.handler app frame usLen).eStatus =
        f.readException usLen (wordAt frame 1) (wordAt frame 3) := by
  intro h
  have hmax := h input .initial (Mem.ofList [4, 0, 0, 0, 0x7D] fun _ => 0) 5
  revert hmax
  decide

end ReadFunction

end FreeModbus
