import FreeModbus.Master.App
import FreeModbus.Slave.App

/-!
# What a bit write changes

The writers of coils and discretes go through `xMBUtilSetBits`, which clears the bits
of its field by a mask and ORs the value in without one.  All whole bytes of the data
are values of eight bits, but the last one may have more bits than are left of the
count: they end up in the array too, where they are ones.

The three writers work on arrays of different size, the two of the master on one row of
theirs.  As bits of the whole array they all do the same (`OredBits`).
-/

namespace FreeModbus

open ByteMemory

/-- A range of at least one item inside a map of `size` items. -/
structure BitRange (size : Nat) where
  start : UShort
  count : UShort
  pos : 1 ≤ count.toNat
  inside : start.toNat + count.toNat ≤ size

theorem BitRange.inRange {size : Nat} (r : BitRange size) : inRange r.start r.count 0 size :=
  ⟨Nat.zero_le _, (Nat.zero_add size).symm ▸ r.inside⟩

/-! ## Bits of an array -/

/-- The `n` bits from `pos` on have become those of the data, and the others of an array of
`size` bits are as they were. -/
def WritesBits (size pos n : Nat) (data before after : Buf) : Prop :=
  (∀ i < n, bitAt after (pos + i) = bitAt data i) ∧
    ∀ q < size, ¬ (pos ≤ q ∧ q < pos + n) → bitAt after q = bitAt before q

/-- Every padding bit of the data that is one falls behind the array, or on a one. -/
def PaddingHidden (size pos n : Nat) (data before : Buf) : Prop :=
  ∀ j, n ≤ j → j < 8 * byteCount n → pos + j < size → bitAt data j = true →
    bitAt before (pos + j) = true

/-- The `n` bits from `pos` on have become those of the data, and the padding is ORed into the
bits behind them. -/
def OredBits (pos n : Nat) (data before after : Buf) : Prop :=
  ∀ q, bitAt after q =
    if q < pos then bitAt before q
    else if q < pos + n then bitAt data (q - pos)
    else (bitAt before q || (decide (q < pos + 8 * byteCount n) && bitAt data (q - pos)))

section Bits

variable {size pos n : Nat} {data before after : Buf}

theorem OredBits.writesBits_iff (h : OredBits pos n data before after) :
    WritesBits size pos n data before after ↔ PaddingHidden size pos n data before := by
  constructor
  · rintro ⟨-, hrest⟩ j hn hj hsize hone
    have hsame := hrest (pos + j) hsize (by omega)
    rw [h, if_neg (by omega), if_neg (by omega), Nat.add_sub_cancel_left, hone] at hsame
    simpa [hj] using hsame.symm
  · intro hpad
    constructor
    · intro i hi
      rw [h, if_neg (by omega), if_pos (by omega), Nat.add_sub_cancel_left]
    · intro q hq hout
      rw [h]
      by_cases hlt : q < pos
      · rw [if_pos hlt]
      · rw [if_neg hlt, if_neg fun hin => hout ⟨Nat.not_lt.mp hlt, hin⟩]
        cases hdata : decide (q < pos + 8 * byteCount n) && bitAt data (q - pos) with
        | false => exact Bool.or_false _
        | true =>
          obtain ⟨hend, hone⟩ := Bool.and_eq_true_iff.mp hdata
          have hback : pos + (q - pos) = q := Nat.add_sub_cancel' (Nat.not_lt.mp hlt)
          have hend' : q < pos + 8 * byteCount n := of_decide_eq_true hend
          have hold := hpad (q - pos) (by omega) (by omega) (hback.symm ▸ hq) hone
          rw [hback] at hold
          rw [hold, Bool.or_true]

/-- The bits of an array after a write at address `a`. -/
theorem oredBits_writeBitsCB (data before : Buf) (a n : Nat) :
    OredBits a n data before (writeBitsCB data (a / 8) (a % 8) n before) := by
  intro q
  have ha : 8 * (a / 8) + a % 8 = a := Nat.div_add_mod a 8
  rw [bitAt_writeBitsCB_or, ha]

/-- The bits of all rows after a write at address `a` of one row. -/
theorem oredBits_setRow (data : Buf) (p : Plane UChar) (o a n : Nat) :
    OredBits (8 * o + a) n data (p.row 0)
      ((p.setRow o (writeBitsCB data (a / 8) (a % 8) n (p.row o))).row 0) := by
  intro q
  rw [Plane.bitAt_setRow]
  by_cases h : 8 * o ≤ q
  · obtain ⟨t, rfl⟩ := Nat.exists_eq_add_of_le h
    have hrow := oredBits_writeBitsCB data (p.row o) a n t
    have hsub : 8 * o + t - (8 * o + a) = t - a := Nat.add_sub_add_left _ _ _
    rw [if_pos h, Nat.add_sub_cancel_left, hrow, Plane.bitAt_row, hsub]
    simp only [Nat.add_assoc, Nat.add_lt_add_iff_left]
  · rw [if_neg h, if_pos (by omega)]

end Bits

/-! ## The callbacks -/

/-- The destination address of a row of the master. -/
def rowAddress (row : Fin mbMasterTotalSlaveNum) : UChar := BitVec.ofNat 8 (row + 1)

theorem rowOffset_rowAddress (row : Fin mbMasterTotalSlaveNum) (width : Nat) :
    rowOffset (rowAddress row) width = ((width * row : Nat) : Int) := by
  have hrow : row.val < 16 := row.isLt
  have haddr : (rowAddress row).toNat = row + 1 := by
    rw [rowAddress, BitVec.toNat_ofNat]
    omega
  rw [rowOffset, haddr, Int.natCast_mul]
  congr 1
  omega

section Callbacks

variable (slave : SlaveApp) (master : MasterApp) (data : Buf)

/-- `eMBRegCoilsCB` in mode `MB_REG_WRITE` writes a range of coils and nothing else. -/
def SlaveCoilsWritten (r : BitRange sCoilNcoils) : Prop :=
  let res := eMBRegCoilsCB slave data (r.start + 1) r.count .write
  res.eStatus = .enoerr ∧ res.app = { slave with ucSCoilBuf := res.app.ucSCoilBuf } ∧
    WritesBits sCoilNcoils r.start.toNat r.count.toNat data slave.ucSCoilBuf res.app.ucSCoilBuf

/-- `eMBMasterRegCoilsCB` writes a range of coils of one row and nothing else. -/
def MasterCoilsWritten (row : Fin mbMasterTotalSlaveNum) (r : BitRange mCoilNcoils) : Prop :=
  let res := eMBMasterRegCoilsCB (rowAddress row) master data (r.start + 1) r.count
  res.1 = .enoerr ∧ res.2 = { master with ucMCoilBuf := res.2.ucMCoilBuf } ∧
    WritesBits (mbMasterTotalSlaveNum * mCoilNcoils) (mCoilNcoils * row + r.start.toNat)
      r.count.toNat data (master.ucMCoilBuf.row 0) (res.2.ucMCoilBuf.row 0)

/-- `eMBMasterRegDiscreteCB` writes a range of discretes of one row and nothing else. -/
def MasterDiscretesWritten (row : Fin mbMasterTotalSlaveNum)
    (r : BitRange mDiscreteInputNdiscretes) : Prop :=
  let res := eMBMasterRegDiscreteCB (rowAddress row) master data (r.start + 1) r.count
  res.1 = .enoerr ∧ res.2 = { master with ucMDiscInBuf := res.2.ucMDiscInBuf } ∧
    WritesBits (mbMasterTotalSlaveNum * mDiscreteInputNdiscretes)
      (mDiscreteInputNdiscretes * row + r.start.toNat) r.count.toNat data
      (master.ucMDiscInBuf.row 0) (res.2.ucMDiscInBuf.row 0)

theorem slaveCoilsWritten_iff (r : BitRange sCoilNcoils) :
    SlaveCoilsWritten slave data r ↔
      PaddingHidden sCoilNcoils r.start.toNat r.count.toNat data slave.ucSCoilBuf := by
  rw [SlaveCoilsWritten, eMBRegCoilsCB_write slave data r.start r.count r.inRange]
  refine Iff.trans ⟨fun h => h.2.2, fun h => ⟨rfl, rfl, h⟩⟩ ?_
  exact (oredBits_writeBitsCB _ _ _ _).writesBits_iff

theorem masterCoilsWritten_iff (row : Fin mbMasterTotalSlaveNum) (r : BitRange mCoilNcoils) :
    MasterCoilsWritten master data row r ↔
      PaddingHidden (mbMasterTotalSlaveNum * mCoilNcoils) (mCoilNcoils * row + r.start.toNat)
        r.count.toNat data (master.ucMCoilBuf.row 0) := by
  have hpos : mCoilNcoils * row = 8 * (mCoilNcoils / 8 * row) := Nat.mul_assoc 8 8 row
  rw [MasterCoilsWritten, eMBMasterRegCoilsCB_eq (rowAddress row) master data r.inRange,
    rowOffset_rowAddress, hpos]
  refine Iff.trans ⟨fun h => h.2.2, fun h => ⟨rfl, rfl, h⟩⟩ ?_
  exact (oredBits_setRow _ _ _ _ _).writesBits_iff

theorem masterDiscretesWritten_iff (row : Fin mbMasterTotalSlaveNum)
    (r : BitRange mDiscreteInputNdiscretes) :
    MasterDiscretesWritten master data row r ↔
      PaddingHidden (mbMasterTotalSlaveNum * mDiscreteInputNdiscretes)
        (mDiscreteInputNdiscretes * row + r.start.toNat) r.count.toNat data
        (master.ucMDiscInBuf.row 0) := by
  have hpos : mDiscreteInputNdiscretes * row = 8 * (mDiscreteInputNdiscretes / 8 * row) :=
    Nat.mul_assoc 8 2 row
  rw [MasterDiscretesWritten, eMBMasterRegDiscreteCB_eq (rowAddress row) master data r.inRange,
    rowOffset_rowAddress, hpos]
  refine Iff.trans ⟨fun h => h.2.2, fun h => ⟨rfl, rfl, h⟩⟩ ?_
  exact (oredBits_setRow _ _ _ _ _).writesBits_iff

/-- A write changes its range and no other bit of its array exactly if the padding of the data
is hidden. -/
theorem bitWrites_iff (slaveCoils : BitRange sCoilNcoils) (row : Fin mbMasterTotalSlaveNum)
    (coils : BitRange mCoilNcoils) (discretes : BitRange mDiscreteInputNdiscretes) :
    (SlaveCoilsWritten slave data slaveCoils ↔
        PaddingHidden sCoilNcoils slaveCoils.start.toNat slaveCoils.count.toNat data
          slave.ucSCoilBuf) ∧
      (MasterCoilsWritten master data row coils ↔
        PaddingHidden (mbMasterTotalSlaveNum * mCoilNcoils)
          (mCoilNcoils * row + coils.start.toNat) coils.count.toNat data
          (master.ucMCoilBuf.row 0)) ∧
      (MasterDiscretesWritten master data row discretes ↔
        PaddingHidden (mbMasterTotalSlaveNum * mDiscreteInputNdiscretes)
          (mDiscreteInputNdiscretes * row + discretes.start.toNat) discretes.count.toNat data
          (master.ucMDiscInBuf.row 0)) :=
  ⟨slaveCoilsWritten_iff slave data slaveCoils, masterCoilsWritten_iff master data row coils,
    masterDiscretesWritten_iff master data row discretes⟩

end Callbacks

/-- A write of one coil whose data byte has its second bit set sets the second coil. -/
theorem bitWrites_padding :
    ¬ ∀ (slave : SlaveApp) (master : MasterApp) (data : Buf) (slaveCoils : BitRange sCoilNcoils)
      (row : Fin mbMasterTotalSlaveNum) (coils : BitRange mCoilNcoils)
      (discretes : BitRange mDiscreteInputNdiscretes),
      SlaveCoilsWritten slave data slaveCoils ∧ MasterCoilsWritten master data row coils ∧
        MasterDiscretesWritten master data row discretes := by
  intro h
  obtain ⟨-, -, hbits⟩ := (h .initial .initial (Mem.ofList [0x02] fun _ => 0)
    ⟨0, 1, by decide, by decide⟩ 0 ⟨0, 1, by decide, by decide⟩ ⟨0, 1, by decide, by decide⟩).1
  have hcoil := hbits.2 1 (by decide) (by decide)
  revert hcoil
  decide

end FreeModbus
