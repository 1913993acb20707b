import FreeModbus.Lib.Mirror
import FreeModbus.Lib.Plane
import FreeModbus.RegisterMaps

/-!
# The register callbacks of the master

`user_mb_app_m.c`.  The master keeps a mirror of the maps of its 16 slaves, one
row a slave.  A callback works on the row of the destination address of the
current request.  The row pointer is `buf[ucMBMasterGetDestAddress() - 1]`, and
nothing checks the address.

The callbacks that take a mode overwrite it with `MB_REG_WRITE`: the master
writes its mirror both when it has written and when it has read.  So a callback
never changes the message buffer.
-/

namespace FreeModbus

open ByteMemory DataModel

/-! ## Configuration -/

abbrev mDiscreteInputStart : Nat := 0
abbrev mDiscreteInputNdiscretes : Nat := 16
abbrev mCoilStart : Nat := 0
abbrev mCoilNcoils : Nat := 64
abbrev mRegInputStart : Nat := 0
abbrev mRegInputNregs : Nat := 100
abbrev mRegHoldingStart : Nat := 0
abbrev mRegHoldingNregs : Nat := 100

/-- What the handlers of the master work on: the arrays of `user_mb_app_m.c`, flat, and the
slave id that `eMBFuncReportSlaveID` reports. -/
structure MasterApp where
  ucMDiscInBuf : Plane UChar
  ucMCoilBuf : Plane UChar
  usMRegInBuf : Plane UShort
  usMRegHoldBuf : Plane UShort
  slaveID : SlaveID

/-- The data at start-up: static arrays are zero. -/
def MasterApp.initial : MasterApp where
  ucMDiscInBuf := fun _ => 0
  ucMCoilBuf := fun _ => 0
  usMRegInBuf := fun _ => 0
  usMRegHoldBuf := fun _ => 0
  slaveID := .unset

/-- The offset of the row of a destination address in an array with rows of `width` items. -/
def rowOffset (ucDestAddress : UChar) (width : Nat) : Int :=
  (width : Int) * ((ucDestAddress.toNat : Int) - 1)

/-! ## Callbacks -/

/-- `eMBMasterRegInputCB`. -/
def eMBMasterRegInputCB (ucDestAddress : UChar) (app : MasterApp) (pucRegBuffer : Buf)
    (usAddress usNRegs : UShort) : MBErrorCode × MasterApp :=
  let o := rowOffset ucDestAddress mRegInputNregs
  let usAddress := usAddress - 1
  if inRange usAddress usNRegs mRegInputStart mRegInputNregs then
    let iRegIndex := usAddress.toNat - mRegInputStart
    let row := writeRegs pucRegBuffer usNRegs.toNat iRegIndex (app.usMRegInBuf.row o) 0
    (.enoerr, { app with usMRegInBuf := app.usMRegInBuf.setRow o row })
  else (.enoreg, app)

/-- `eMBMasterRegHoldingCB`. -/
def eMBMasterRegHoldingCB (ucDestAddress : UChar) (app : MasterApp) (pucRegBuffer : Buf)
    (usAddress usNRegs : UShort) : MBErrorCode × MasterApp :=
  let o := rowOffset ucDestAddress mRegHoldingNregs
  let usAddress := usAddress - 1
  if inRange usAddress usNRegs mRegHoldingStart mRegHoldingNregs then
    let iRegIndex := usAddress.toNat - mRegHoldingStart
    let row := writeRegs pucRegBuffer usNRegs.toNat iRegIndex (app.usMRegHoldBuf.row o) 0
    (.enoerr, { app with usMRegHoldBuf := app.usMRegHoldBuf.setRow o row })
  else (.enoreg, app)

/-- `eMBMasterRegCoilsCB`. -/
def eMBMasterRegCoilsCB (ucDestAddress : UChar) (app : MasterApp) (pucRegBuffer : Buf)
    (usAddress usNCoils : UShort) : MBErrorCode × MasterApp :=
  let o := rowOffset ucDestAddress (mCoilNcoils / 8)
  let usAddress := usAddress - 1
  if inRange usAddress usNCoils mCoilStart mCoilNcoils then
    let iRegIndex := (usAddress.toNat - mCoilStart) / 8
    let iRegBitIndex := (usAddress.toNat - mCoilStart) % 8
    let row := writeBitsCB pucRegBuffer iRegIndex iRegBitIndex usNCoils.toNat (app.ucMCoilBuf.row o)
    (.enoerr, { app with ucMCoilBuf := app.ucMCoilBuf.setRow o row })
  else (.enoreg, app)

/-- `eMBMasterRegDiscreteCB`. -/
def eMBMasterRegDiscreteCB (ucDestAddress : UChar) (app : MasterApp) (pucRegBuffer : Buf)
    (usAddress usNDiscrete : UShort) : MBErrorCode × MasterApp :=
  let o := rowOffset ucDestAddress (mDiscreteInputNdiscretes / 8)
  let usAddress := usAddress - 1
  if inRange usAddress usNDiscrete mDiscreteInputStart mDiscreteInputNdiscretes then
    let iRegIndex := (usAddress.toNat - mDiscreteInputStart) / 8
    let iRegBitIndex := (usAddress.toNat - mDiscreteInputStart) % 8
    let row :=
      writeBitsCB pucRegBuffer iRegIndex iRegBitIndex usNDiscrete.toNat (app.ucMDiscInBuf.row o)
    (.enoerr, { app with ucMDiscInBuf := app.ucMDiscInBuf.setRow o row })
  else (.enoreg, app)

/-! ## The mirror as one store a slave -/

/-- The sizes of the maps of a row. -/
def masterShape : Shape where
  coils := mCoilNcoils
  discretes := mDiscreteInputNdiscretes
  inputs := mRegInputNregs
  holdings := mRegHoldingNregs

/-- The mirror of the slave with address `k`. -/
def MasterApp.row (app : MasterApp) (k : UChar) : Store masterShape where
  coils := bitCells mCoilNcoils (app.ucMCoilBuf.row (rowOffset k (mCoilNcoils / 8)))
  discretes :=
    bitCells mDiscreteInputNdiscretes
      (app.ucMDiscInBuf.row (rowOffset k (mDiscreteInputNdiscretes / 8)))
  inputs := wordCells mRegInputNregs (app.usMRegInBuf.row (rowOffset k mRegInputNregs))
  holdings := wordCells mRegHoldingNregs (app.usMRegHoldBuf.row (rowOffset k mRegHoldingNregs))

/-- The mirror of one slave was updated by `f` and the other rows are as they were. -/
def UpdatesRow (k : UChar) (f : Store masterShape → Store masterShape) (app app' : MasterApp) :
    Prop :=
  ∀ k', app'.row k' = if k' = k then f (app.row k) else app.row k'

theorem UpdatesRow.trans {k : UChar} {f g : Store masterShape → Store masterShape}
    {app app' app'' : MasterApp} (h : UpdatesRow k f app app') (h' : UpdatesRow k g app' app'') :
    UpdatesRow k (fun s => g (f s)) app app'' := by
  intro k'
  rw [h' k', h k', h k, if_pos rfl]
  by_cases hk : k' = k
  · rw [if_pos hk, if_pos hk]
  · rw [if_neg hk, if_neg hk, if_neg hk]

/-- Rows of different addresses do not overlap. -/
theorem rowOffset_disjoint {k k' : UChar} (hk : k' ≠ k) {width i j : Nat} (hi : i < width)
    (hj : j < width) : rowOffset k width + i ≠ rowOffset k' width + j := by
  have hne : k'.toNat ≠ k.toNat := fun h => hk (BitVec.eq_of_toNat_eq h)
  intro heq
  unfold rowOffset at heq
  have hmul : (width : Int) * ((k'.toNat : Int) - k.toNat) = i - j := by
    rw [Int.mul_sub]
    rw [Int.mul_sub, Int.mul_sub] at heq
    omega
  rcases Nat.lt_or_gt_of_ne hne with h | h
  · have hle : (width : Int) * ((k'.toNat : Int) - k.toNat) ≤ width * (-1) :=
      Int.mul_le_mul_of_nonneg_left (by omega) (by omega)
    omega
  · have hle : (width : Int) * 1 ≤ width * ((k'.toNat : Int) - k.toNat) :=
      Int.mul_le_mul_of_nonneg_left (by omega) (by omega)
    omega

/-! ## What a callback writes -/

section Rows

variable (k k' : UChar) {buf : Buf} {a : Nat}

/-- A register write through the row pointer of one slave, seen from any row. -/
theorem wordCells_setRow {N : Nat} {vs : List UShort} (hbuf : buf.Holds 0 (packWordList vs))
    (hin : a + vs.length ≤ N) (p : Plane UShort) :
    wordCells N ((p.setRow (rowOffset k N)
      (writeRegs buf vs.length a (p.row (rowOffset k N)) 0)).row (rowOffset k' N)) =
    if k' = k then (wordCells N (p.row (rowOffset k N))).put a vs
    else wordCells N (p.row (rowOffset k' N)) := by
  by_cases hk : k' = k
  · rw [if_pos hk, hk, Plane.row_setRow, wordCells_writeRegs hbuf]
  · rw [if_neg hk]
    funext i
    refine Plane.row_setRow_of_outside a (a + vs.length) (fun j hj => ?_) fun h => ?_
    · rw [writeRegs_apply, if_neg hj]
    · have hlt : (rowOffset k' N + i - rowOffset k N).toNat < N := by omega
      have hne := rowOffset_disjoint hk hlt i.isLt
      omega

/-- A bit write through the row pointer of one slave, seen from any row. -/
theorem bitCells_setRow (W : Nat) {vs : List Bool} (hbuf : buf.Holds 0 (packBools vs))
    (hin : a + vs.length ≤ 8 * W) (p : Plane UChar) :
    bitCells (8 * W) ((p.setRow (rowOffset k W)
      (writeBitsCB buf (a / 8) (a % 8) vs.length (p.row (rowOffset k W)))).row (rowOffset k' W)) =
    if k' = k then (bitCells (8 * W) (p.row (rowOffset k W))).put a vs
    else bitCells (8 * W) (p.row (rowOffset k' W)) := by
  by_cases hk : k' = k
  · rw [if_pos hk, hk, Plane.row_setRow, bitCells_writeBitsCB hbuf]
  · rw [if_neg hk]
    funext i
    refine Plane.bitAt_row_setRow_of_outside a (a + vs.length) (fun j hj => ?_) fun h => ?_
    · rw [bitAt_writeBitsCB_packed hbuf, if_neg hj]
    · have hlt : (8 * rowOffset k' W + i - 8 * rowOffset k W).toNat < 8 * W := by omega
      have hne := rowOffset_disjoint hk hlt i.isLt
      have h8 : ∀ k : UChar, rowOffset k (8 * W) = 8 * rowOffset k W := by
        intro k
        simp only [rowOffset, Int.natCast_mul, Int.mul_assoc]
        rfl
      rw [h8, h8] at hne
      omega

end Rows

section Inside

variable (k : UChar) (app : MasterApp) (buf : Buf) {a n : UShort}

theorem eMBMasterRegInputCB_eq (h : inRange a n mRegInputStart mRegInputNregs) :
    eMBMasterRegInputCB k app buf (a + 1) n = (.enoerr, { app with
      usMRegInBuf := app.usMRegInBuf.setRow (rowOffset k mRegInputNregs)
        (writeRegs buf n.toNat a.toNat (app.usMRegInBuf.row (rowOffset k mRegInputNregs))
          0) }) := by
  simp only [eMBMasterRegInputCB, BitVec.add_sub_cancel, if_pos h, Nat.sub_zero]

theorem eMBMasterRegHoldingCB_eq (h : inRange a n mRegHoldingStart mRegHoldingNregs) :
    eMBMasterRegHoldingCB k app buf (a + 1) n = (.enoerr, { app with
      usMRegHoldBuf := app.usMRegHoldBuf.setRow (rowOffset k mRegHoldingNregs)
        (writeRegs buf n.toNat a.toNat (app.usMRegHoldBuf.row (rowOffset k mRegHoldingNregs))
          0) }) := by
  simp only [eMBMasterRegHoldingCB, BitVec.add_sub_cancel, if_pos h, Nat.sub_zero]

theorem eMBMasterRegCoilsCB_eq (h : inRange a n mCoilStart mCoilNcoils) :
    eMBMasterRegCoilsCB k app buf (a + 1) n = (.enoerr, { app with
      ucMCoilBuf := app.ucMCoilBuf.setRow (rowOffset k (mCoilNcoils / 8))
        (writeBitsCB buf (a.toNat / 8) (a.toNat % 8) n.toNat
          (app.ucMCoilBuf.row (rowOffset k (mCoilNcoils / 8)))) }) := by
  simp only [eMBMasterRegCoilsCB, BitVec.add_sub_cancel, if_pos h, Nat.sub_zero]

theorem eMBMasterRegDiscreteCB_eq (h : inRange a n mDiscreteInputStart mDiscreteInputNdiscretes) :
    eMBMasterRegDiscreteCB k app buf (a + 1) n = (.enoerr, { app with
      ucMDiscInBuf := app.ucMDiscInBuf.setRow (rowOffset k (mDiscreteInputNdiscretes / 8))
        (writeBitsCB buf (a.toNat / 8) (a.toNat % 8) n.toNat
          (app.ucMDiscInBuf.row (rowOffset k (mDiscreteInputNdiscretes / 8)))) }) := by
  simp only [eMBMasterRegDiscreteCB, BitVec.add_sub_cancel, if_pos h, Nat.sub_zero]

end Inside

section Callbacks

variable (k : UChar) (app : MasterApp) {buf : Buf} {a n : UShort}

theorem eMBMasterRegInputCB_ok {vs : List UShort} (hbuf : buf.Holds 0 (packWordList vs))
    (hn : n.toNat = vs.length) (hin : Inside mRegInputNregs a vs.length) :
    ∃ app', eMBMasterRegInputCB k app buf (a + 1) n = (.enoerr, app') ∧
      UpdatesRow k (fun s => { s with inputs := s.inputs.put a.toNat vs }) app app' := by
  have hrange : inRange a n mRegInputStart mRegInputNregs := inRange_zero.mpr (hn.symm ▸ hin)
  rw [eMBMasterRegInputCB_eq k app buf hrange, hn]
  refine ⟨_, rfl, fun k' => ?_⟩
  have hrow := wordCells_setRow k k' hbuf hin app.usMRegInBuf
  by_cases hk : k' = k
  · rw [if_pos hk] at hrow ⊢
    rw [hk] at hrow ⊢
    exact Store.ext rfl rfl hrow rfl
  · rw [if_neg hk] at hrow ⊢
    exact Store.ext rfl rfl hrow rfl

theorem eMBMasterRegHoldingCB_ok {vs : List UShort} (hbuf : buf.Holds 0 (packWordList vs))
    (hn : n.toNat = vs.length) (hin : Inside mRegHoldingNregs a vs.length) :
    ∃ app', eMBMasterRegHoldingCB k app buf (a + 1) n = (.enoerr, app') ∧
      UpdatesRow k (fun s => { s with holdings := s.holdings.put a.toNat vs }) app app' := by
  have hrange : inRange a n mRegHoldingStart mRegHoldingNregs := inRange_zero.mpr (hn.symm ▸ hin)
  rw [eMBMasterRegHoldingCB_eq k app buf hrange, hn]
  refine ⟨_, rfl, fun k' => ?_⟩
  have hrow := wordCells_setRow k k' hbuf hin app.usMRegHoldBuf
  by_cases hk : k' = k
  · rw [if_pos hk] at hrow ⊢
    rw [hk] at hrow ⊢
    exact Store.ext rfl rfl rfl hrow
  · rw [if_neg hk] at hrow ⊢
    exact Store.ext rfl rfl rfl hrow

theorem eMBMasterRegCoilsCB_ok {vs : List Bool} (hbuf : buf.Holds 0 (packBools vs))
    (hn : n.toNat = vs.length) (hin : Inside mCoilNcoils a vs.length) :
    ∃ app', eMBMasterRegCoilsCB k app buf (a + 1) n = (.enoerr, app') ∧
      UpdatesRow k (fun s => { s with coils := s.coils.put a.toNat vs }) app app' := by
  have hrange : inRange a n mCoilStart mCoilNcoils := inRange_zero.mpr (hn.symm ▸ hin)
  rw [eMBMasterRegCoilsCB_eq k app buf hrange, hn]
  refine ⟨_, rfl, fun k' => ?_⟩
  have hrow := bitCells_setRow k k' 8 hbuf hin app.ucMCoilBuf
  by_cases hk : k' = k
  · rw [if_pos hk] at hrow ⊢
    rw [hk] at hrow ⊢
    exact Store.ext hrow rfl rfl rfl
  · rw [if_neg hk] at hrow ⊢
    exact Store.ext hrow rfl rfl rfl

theorem eMBMasterRegDiscreteCB_ok {vs : List Bool} (hbuf : buf.Holds 0 (packBools vs))
    (hn : n.toNat = vs.length) (hin : Inside mDiscreteInputNdiscretes a vs.length) :
    ∃ app', eMBMasterRegDiscreteCB k app buf (a + 1) n = (.enoerr, app') ∧
      UpdatesRow k (fun s => { s with discretes := s.discretes.put a.toNat vs }) app app' := by
  have hrange : inRange a n mDiscreteInputStart mDiscreteInputNdiscretes :=
    inRange_zero.mpr (hn.symm ▸ hin)
  rw [eMBMasterRegDiscreteCB_eq k app buf hrange, hn]
  refine ⟨_, rfl, fun k' => ?_⟩
  have hrow := bitCells_setRow k k' 2 hbuf hin app.ucMDiscInBuf
  by_cases hk : k' = k
  · rw [if_pos hk] at hrow ⊢
    rw [hk] at hrow ⊢
    exact Store.ext rfl hrow rfl rfl
  · rw [if_neg hk] at hrow ⊢
    exact Store.ext rfl hrow rfl rfl

end Callbacks

/-- The type of a callback of the master. -/
abbrev MasterCallback := UChar → MasterApp → Buf → UShort → UShort → MBErrorCode × MasterApp

/-- A callback of a map of `size` items raises no error inside the map, and outside it changes
nothing. -/
def ChecksRange (cb : MasterCallback) (size : Nat) : Prop :=
  ∀ k app buf a n, if inRange a n 0 size then (cb k app buf (a + 1) n).1 = .enoerr
    else cb k app buf (a + 1) n = (.enoreg, app)

theorem eMBMasterRegInputCB_checks : ChecksRange eMBMasterRegInputCB mRegInputNregs := by
  intro k app buf a n
  simp only [eMBMasterRegInputCB, BitVec.add_sub_cancel]
  split <;> rfl

theorem eMBMasterRegHoldingCB_checks : ChecksRange eMBMasterRegHoldingCB mRegHoldingNregs := by
  intro k app buf a n
  simp only [eMBMasterRegHoldingCB, BitVec.add_sub_cancel]
  split <;> rfl

theorem eMBMasterRegCoilsCB_checks : ChecksRange eMBMasterRegCoilsCB mCoilNcoils := by
  intro k app buf a n
  simp only [eMBMasterRegCoilsCB, BitVec.add_sub_cancel]
  split <;> rfl

theorem eMBMasterRegDiscreteCB_checks :
    ChecksRange eMBMasterRegDiscreteCB mDiscreteInputNdiscretes := by
  intro k app buf a n
  simp only [eMBMasterRegDiscreteCB, BitVec.add_sub_cancel]
  split <;> rfl

section Checks

variable {cb : MasterCallback} {size : Nat}

theorem ChecksRange.status (h : ChecksRange cb size) (k : UChar) (app : MasterApp) (buf : Buf)
    (a n : UShort) : (cb k app buf (a + 1) n).1 = .enoerr ↔ inRange a n 0 size := by
  have h1 := h k app buf a n
  by_cases hin : inRange a n 0 size
  · rw [if_pos hin] at h1
    exact iff_of_true h1 hin
  · rw [if_neg hin] at h1
    rw [h1]
    exact iff_of_false nofun hin

theorem ChecksRange.unchanged (h : ChecksRange cb size) {k : UChar} {app : MasterApp} {buf : Buf}
    {a n : UShort} (hin : ¬ inRange a n 0 size) : (cb k app buf (a + 1) n).2 = app := by
  have h1 := h k app buf a n
  rw [if_neg hin] at h1
  rw [h1]

/-- Inside the map a callback succeeds. -/
theorem ChecksRange.eq_ok (h : ChecksRange cb size) {a n : UShort} (hin : inRange a n 0 size)
    (k : UChar) (app : MasterApp) (buf : Buf) :
    cb k app buf (a + 1) n = (.enoerr, (cb k app buf (a + 1) n).2) :=
  Prod.ext ((h.status k app buf a n).mpr hin) rfl

end Checks

end FreeModbus
