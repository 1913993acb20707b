import FreeModbus.Master.Unsolicited

/-!
# Writes in the mirror

When a write request has been answered with success, the mirror is to hold what the
caller asked to be written.  The handlers take address and value from different
places: the single writes from the reply, the write of several coils its range from
the reply and its data from the request, the write of several registers everything
from the request, and function 23 writes what the request says and then what the
reply says it has read.  Nothing compares the reply with the request.

`RepeatedBy` says when the reply leads to what the request asked for.  A broadcast is
executed on the request itself, once for every slave.  Function 23 does not execute
a broadcast, and takes a reply without a byte count for a success.
-/

namespace FreeModbus

open ByteMemory DataModel Transition

/-! ## What was asked for -/

/-- The call writes, its counts are at least one, its ranges lie inside the maps of the mirror,
and it is not refused for its arguments. -/
def MasterCall.WriteFits : MasterCall → Prop
  | .writeCoil a v => (v = 0xFF00 ∨ v = 0x0000) ∧ Inside mCoilNcoils a 1
  | .writeHoldingRegister a _ => Inside mRegHoldingNregs a 1
  | .writeMultipleCoils a n _ => 1 ≤ n.toNat ∧ Inside mCoilNcoils a n.toNat
  | .writeMultipleHoldingRegister a n _ => 1 ≤ n.toNat ∧ Inside mRegHoldingNregs a n.toNat
  | .readWriteMultipleHoldingRegister ra rn _ wa wn =>
      (1 ≤ rn.toNat ∧ Inside mRegHoldingNregs ra rn.toNat) ∧
        (1 ≤ wn.toNat ∧ Inside mRegHoldingNregs wa wn.toNat)
  | _ => False

/-- The mirror of a slave holds what the call asked to be written. -/
def MasterCall.Reflected (row : Store masterShape) : MasterCall → Prop
  | .writeCoil a v => row.coils.get a.toNat = decide (v = 0xFF00)
  | .writeHoldingRegister a v => row.holdings.get a.toNat = v
  | .writeMultipleCoils a n buf => ∀ j < n.toNat, row.coils.get (a.toNat + j) = bitAt buf j
  | .writeMultipleHoldingRegister a n buf =>
      ∀ j < n.toNat, row.holdings.get (a.toNat + j) = buf j
  | .readWriteMultipleHoldingRegister _ _ buf wa wn =>
      ∀ j < wn.toNat, row.holdings.get (wa.toNat + j) = buf j
  | _ => True

/-- The bits from `a` on, `n` of them and what fills the last byte, give the bits `f` from `wa`
on wherever they are written. -/
def BitsGive (buf : Buf) (a n wa wn : Nat) (f : Nat → Bool) : Prop :=
  ∀ j < wn, (a ≤ wa + j ∧ wa + j < a + 8 * byteCount n) ∧ bitAt buf (wa + j - a) = f j ∧
    (wa + j < a + n ∨ f j = true)

/-- The `n` registers from `a` on give the registers `f` from `wa` on. -/
def WordsGive (buf : Buf) (a n wa wn : Nat) (f : Nat → UShort) : Prop :=
  ∀ j < wn, (a ≤ wa + j ∧ wa + j < a + n) ∧ wordAt buf (2 * (wa + j - a)) = f j

/-- A reply that is stored leads to what the call asked to be written. -/
def MasterCall.RepeatedBy (ctx : MasterCtx) (frame : Buf) (usLen : Nat) : MasterCall → Prop
  | .writeCoil a v => WriteCoilStores frame usLen →
      wordAt frame 1 = a ∧ (frame 3 = 0xFF ↔ v = 0xFF00)
  | .writeHoldingRegister a v => WriteRegStores frame usLen →
      wordAt frame 1 = a ∧ wordAt frame 3 = v
  | .writeMultipleCoils a n buf => WriteCoilsStores ctx frame usLen →
      BitsGive buf (wordAt frame 1).toNat (wordAt frame 3).toNat a.toNat n.toNat (bitAt buf)
  | .readWriteMultipleHoldingRegister ra rn buf wa wn =>
      2 ≤ usLen ∧ (2 * rn.toNat = (frame 1).toNat → ∀ j < wn.toNat,
        InRange ra rn.toNat (wa.toNat + j) →
          wordAt frame (2 + 2 * (wa.toNat + j - ra.toNat)) = buf j)
  | _ => True

/-! ## Rows after a callback -/

theorem MasterApp.holdings_get (app : MasterApp) (k : UChar) {i : Nat} (h : i < mRegHoldingNregs) :
    (app.row k).holdings.get i = app.usMRegHoldBuf.row (rowOffset k mRegHoldingNregs) i :=
  wordCells_get (app.usMRegHoldBuf.row (rowOffset k mRegHoldingNregs)) h

theorem MasterApp.coils_get (app : MasterApp) (k : UChar) {i : Nat} (h : i < mCoilNcoils) :
    (app.row k).coils.get i = bitAt (app.ucMCoilBuf.row (rowOffset k (mCoilNcoils / 8))) i :=
  bitCells_get _ h

section Rows

variable (k k' : UChar) (app : MasterApp) (buf : Buf) {a n : UShort} {i : Nat}

/-- A register of any row after a register write. -/
theorem holdings_write (h : inRange a n 0 mRegHoldingNregs) (hi : i < mRegHoldingNregs) :
    ((eMBMasterRegHoldingCB k app buf (a + 1) n).2.row k').holdings.get i =
      if k' = k ∧ InRange a n.toNat i then wordAt buf (2 * (i - a.toNat))
      else (app.row k').holdings.get i := by
  rw [eMBMasterRegHoldingCB_eq k app buf h, MasterApp.holdings_get _ k' hi,
    MasterApp.holdings_get app k' hi]
  by_cases hk : k' = k
  · subst hk
    rw [Plane.row_setRow, writeRegs_apply, Nat.zero_add]
    by_cases hin : InRange a n.toNat i
    · rw [if_pos hin, if_pos ⟨rfl, hin⟩]
    · rw [if_neg hin, if_neg fun h => hin h.2]
  · rw [if_neg fun h => hk h.1]
    have hend : a.toNat + n.toNat ≤ 0 + mRegHoldingNregs := h.2
    refine Plane.row_setRow_of_outside a.toNat (a.toNat + n.toNat) (fun j hj => ?_) fun hin => ?_
    · rw [writeRegs_apply, if_neg hj]
    · have hlt : (rowOffset k' mRegHoldingNregs + i - rowOffset k mRegHoldingNregs).toNat <
          mRegHoldingNregs := by omega
      have hne := rowOffset_disjoint hk hlt hi
      omega

/-- A coil after a coil write to its row. -/
theorem coils_write (h : inRange a n 0 mCoilNcoils) (hi : i < mCoilNcoils) :
    ((eMBMasterRegCoilsCB k app buf (a + 1) n).2.row k).coils.get i =
      if i < a.toNat then (app.row k).coils.get i
      else if i < a.toNat + n.toNat then bitAt buf (i - a.toNat)
      else ((app.row k).coils.get i ||
        (decide (i < a.toNat + 8 * byteCount n.toNat) && bitAt buf (i - a.toNat))) := by
  rw [eMBMasterRegCoilsCB_eq k app buf h, MasterApp.coils_get _ k hi, MasterApp.coils_get app k hi,
    Plane.row_setRow, bitAt_writeBitsCB_or, Nat.div_add_mod]

/-- A coil in the range of a coil write to another row. -/
theorem coils_write_other (hk : k' ≠ k) (h : inRange a n 0 mCoilNcoils)
    (hi : InRange a n.toNat i) :
    ((eMBMasterRegCoilsCB k app buf (a + 1) n).2.row k').coils.get i =
      (app.row k').coils.get i := by
  have hend : a.toNat + n.toNat ≤ 64 := Nat.le_trans h.2 (Nat.le_of_eq (Nat.zero_add _))
  have hlt : i < mCoilNcoils := Nat.lt_of_lt_of_le hi.2 hend
  have hcount : n.toNat ≤ 8 * byteCount n.toNat ∧ 8 * byteCount n.toNat ≤ 64 := by
    unfold byteCount
    omega
  rw [eMBMasterRegCoilsCB_eq k app buf h, MasterApp.coils_get _ k' hlt,
    MasterApp.coils_get app k' hlt]
  refine Plane.bitAt_row_setRow_of_outside a.toNat (a.toNat + 8 * byteCount n.toNat)
    (fun t ht => ?_) fun hin => ?_
  · rw [bitAt_writeBitsCB_or, Nat.div_add_mod]
    by_cases hlow : t < a.toNat
    · rw [if_pos hlow]
    · have hhigh : ¬ t < a.toNat + 8 * byteCount n.toNat := fun hlt => ht ⟨by omega, hlt⟩
      rw [if_neg hlow, if_neg (by omega)]
      simp [hhigh]
  · have hne : k'.toNat ≠ k.toNat := fun h => hk (BitVec.eq_of_toNat_eq h)
    have hoff : ∀ k : UChar, rowOffset k (mCoilNcoils / 8) = 8 * ((k.toNat : Int) - 1) :=
      fun k => rfl
    rw [hoff, hoff] at hin
    omega

end Rows

/-! ## The request in the send buffer -/

section Request

variable {snd : Buf} {a n v : UShort}

/-- A buffer that holds a piece of another one agrees with it there. -/
theorem agree_of_holds_slice {k l : Nat} {buf : Buf} (h : snd.Holds k (slice buf 0 l)) :
    AgreeBelow l (snd.at k) buf := by
  intro i hi
  have hlt : i < (slice buf 0 l).length := by rwa [slice_length]
  have hget := getElem_of_slice h hlt
  rwa [slice_getElem, Nat.zero_add] at hget

theorem request_single {code : UChar}
    (h : snd.Holds 0 (code :: (wordBytes a ++ wordBytes v))) :
    wordAt snd 1 = a ∧ wordAt snd 3 = v ∧ snd 3 = (v >>> 8).setWidth 8 ∧
      snd 4 = v.setWidth 8 := by
  rw [Mem.holds_cons, Mem.holds_append] at h
  obtain ⟨-, ha, hv⟩ := h
  have hbytes := hv
  simp only [wordBytes, Mem.holds_cons] at hbytes
  exact ⟨wordAt_of_holds ha, wordAt_of_holds hv, hbytes.1, hbytes.2.1⟩

theorem request_writeMultipleCoils {buf : Buf}
    (h : snd.Holds 0 (MasterCall.writeMultipleCoils a n buf).req.pdu) :
    wordAt snd 1 = a ∧ wordAt snd 3 = n ∧ snd 5 = ucNBytes n ∧
      AgreeBelow (ucNBytes n).toNat (snd.at 6) buf := by
  simp only [MasterCall.req, eMBMasterReqWriteMultipleCoils, Mem.holds_cons, Mem.holds_append] at h
  obtain ⟨-, ⟨ha, hn⟩, hcount, hdata⟩ := h
  exact ⟨wordAt_of_holds ha, wordAt_of_holds hn, hcount, agree_of_holds_slice hdata⟩

theorem request_writeMultipleHoldingRegister {buf : Mem UShort}
    (h : snd.Holds 0 (MasterCall.writeMultipleHoldingRegister a n buf).req.pdu) :
    wordAt snd 1 = a ∧ wordAt snd 3 = n ∧ snd 5 = (n * 2).setWidth 8 ∧
      ∀ j < n.toNat, wordAt snd (6 + 2 * j) = buf j := by
  simp only [MasterCall.req, eMBMasterReqWriteMultipleHoldingRegister, Mem.holds_cons,
    Mem.holds_append] at h
  obtain ⟨-, ⟨ha, hn⟩, hcount, hdata⟩ := h
  exact ⟨wordAt_of_holds ha, wordAt_of_holds hn, hcount, wordAt_of_packWords hdata⟩

theorem request_readWrite {ra rn wa wn : UShort} {buf : Mem UShort}
    (h : snd.Holds 0 (MasterCall.readWriteMultipleHoldingRegister ra rn buf wa wn).req.pdu) :
    wordAt snd 1 = ra ∧ wordAt snd 3 = rn ∧ wordAt snd 5 = wa ∧ wordAt snd 7 = wn ∧
      ∀ j < wn.toNat, wordAt snd (10 + 2 * j) = buf j := by
  simp only [MasterCall.req, eMBMasterReqReadWriteMultipleHoldingRegister, Mem.holds_cons,
    Mem.holds_append] at h
  obtain ⟨-, ⟨hra, hrn⟩, hwa, hwn, -, hdata⟩ := h
  exact ⟨wordAt_of_holds hra, wordAt_of_holds hrn, wordAt_of_holds hwa, wordAt_of_holds hwn,
    wordAt_of_packWords hdata⟩

end Request

/-! ## What is written, whatever the mirror -/

section Gives

variable (k : UChar) (buf : Buf) {a n : UShort} {wa wn : Nat}

/-- A mirror whose coils all have one value. -/
def coilsAll (v : Bool) : MasterApp :=
  { MasterApp.initial with ucMCoilBuf := fun _ => if v then 0xFF else 0x00 }

theorem coilsAll_get (v : Bool) {i : Nat} (h : i < mCoilNcoils) :
    ((coilsAll v).row k).coils.get i = v := by
  rw [MasterApp.coils_get _ k h]
  have hbit : ∀ v : Bool, ∀ t < 8, (if v then 0xFF else 0x00 : UChar).getLsbD t = v := by decide
  exact hbit v _ (Nat.mod_lt _ (by decide))

/-- A mirror whose holding registers all have one value. -/
def holdingsAll (v : UShort) : MasterApp := { MasterApp.initial with usMRegHoldBuf := fun _ => v }

theorem holdingsAll_get (v : UShort) {i : Nat} (h : i < mRegHoldingNregs) :
    ((holdingsAll v).row k).holdings.get i = v :=
  MasterApp.holdings_get _ k h

/-- A register write to any mirror. -/
theorem words_give {f : Nat → UShort} (h : inRange a n 0 mRegHoldingNregs)
    (hw : wa + wn ≤ mRegHoldingNregs) :
    (∀ app, ∀ j < wn,
      ((eMBMasterRegHoldingCB k app buf (a + 1) n).2.row k).holdings.get (wa + j) = f j) ↔
      WordsGive buf a.toNat n.toNat wa wn f := by
  constructor
  · intro hall j hj
    have hi : wa + j < mRegHoldingNregs := Nat.lt_of_lt_of_le (Nat.add_lt_add_left hj wa) hw
    have hread := fun app => hall app j hj
    simp only [holdings_write k k _ buf h hi, true_and] at hread
    by_cases hin : InRange a n.toNat (wa + j)
    · have hword := hread .initial
      rw [if_pos hin] at hword
      exact ⟨hin, hword⟩
    · -- An item that is not written keeps a value that was not asked for.
      have hkept := hread (holdingsAll (f j + 1))
      rw [if_neg hin, holdingsAll_get k _ hi] at hkept
      bv_omega
  · intro hgive app j hj
    obtain ⟨hin, hword⟩ := hgive j hj
    have hi : wa + j < mRegHoldingNregs := Nat.lt_of_lt_of_le (Nat.add_lt_add_left hj wa) hw
    rw [holdings_write k k app buf h hi, if_pos ⟨rfl, hin⟩]
    exact hword

/-- A coil write to any mirror. -/
theorem bits_give {f : Nat → Bool} (h : inRange a n 0 mCoilNcoils) (hw : wa + wn ≤ mCoilNcoils) :
    (∀ app, ∀ j < wn,
      ((eMBMasterRegCoilsCB k app buf (a + 1) n).2.row k).coils.get (wa + j) = f j) ↔
      BitsGive buf a.toNat n.toNat wa wn f := by
  constructor
  · intro hall j hj
    have hi : wa + j < mCoilNcoils := Nat.lt_of_lt_of_le (Nat.add_lt_add_left hj wa) hw
    have hread := fun v => hall (coilsAll v) j hj
    simp only [coils_write k _ buf h hi, coilsAll_get k _ hi] at hread
    by_cases hlow : wa + j < a.toNat
    · simp only [if_pos hlow] at hread
      exact absurd ((hread true).trans (hread false).symm) (by decide)
    · simp only [if_neg hlow] at hread
      have hle := Nat.le_of_not_lt hlow
      by_cases hlt : wa + j < a.toNat + n.toNat
      · simp only [if_pos hlt] at hread
        have hcount : n.toNat ≤ 8 * byteCount n.toNat := by
          unfold byteCount
          omega
        exact ⟨⟨hle, by omega⟩, hread true, Or.inl hlt⟩
      · simp only [if_neg hlt] at hread
        have htrue : f j = true := (hread true).symm
        have hpad := (hread false).trans htrue
        rw [Bool.false_or, Bool.and_eq_true, decide_eq_true_eq] at hpad
        exact ⟨⟨hle, hpad.1⟩, hpad.2.trans htrue.symm, Or.inr htrue⟩
  · intro hgive app j hj
    obtain ⟨⟨hle, hend⟩, hbit, hin⟩ := hgive j hj
    have hi : wa + j < mCoilNcoils := Nat.lt_of_lt_of_le (Nat.add_lt_add_left hj wa) hw
    rw [coils_write k app buf h hi, if_neg (Nat.not_lt.mpr hle)]
    by_cases hlt : wa + j < a.toNat + n.toNat
    · rw [if_pos hlt]
      exact hbit
    · have htrue := hin.resolve_left hlt
      rw [if_neg hlt, hbit, htrue, decide_eq_true hend]
      simp

end Gives

/-! ## Handlers on a reply that they store -/

section Stored

variable {ctx : MasterCtx} {frame : Buf} {usLen : Nat} (app : MasterApp)

theorem eMBMasterFuncWriteCoil_stores (h : WriteCoilStores frame usLen) :
    eMBMasterFuncWriteCoil ctx app frame usLen = ⟨.none, frame, usLen,
      (eMBMasterRegCoilsCB ctx.ucMBMasterDestAddress app (coilBuf (decide (frame 3 = 0xFF)))
        (wordAt frame 1 + 1) 1).2⟩ := by
  obtain ⟨rfl, ⟨hz, hv⟩, hin⟩ := h
  have hval : frame 3 = if decide (frame 3 = 0xFF) then 0xFF else 0x00 := by
    rcases hv with hff | h00
    · simp [hff]
    · simp [h00]
  exact eMBMasterFuncWriteCoil_ok rfl hval hz (eMBMasterRegCoilsCB_checks.eq_ok hin _ _ _)

theorem eMBMasterFuncWriteHoldingRegister_stores (h : WriteRegStores frame usLen) :
    eMBMasterFuncWriteHoldingRegister ctx app frame usLen = ⟨.none, frame, usLen,
      (eMBMasterRegHoldingCB ctx.ucMBMasterDestAddress app (frame.at 3)
        (wordAt frame 1 + 1) 1).2⟩ := by
  obtain ⟨rfl, hin⟩ := h
  exact eMBMasterFuncWriteHoldingRegister_ok rfl (eMBMasterRegHoldingCB_checks.eq_ok hin _ _ _)

theorem eMBMasterFuncWriteMultipleCoils_stores (h : WriteCoilsStores ctx frame usLen) :
    eMBMasterFuncWriteMultipleCoils ctx app frame usLen = ⟨.none, frame, usLen,
      (eMBMasterRegCoilsCB ctx.ucMBMasterDestAddress app (ctx.pucPDUSndBuf.at 6)
        (wordAt frame 1 + 1) (wordAt frame 3)).2⟩ := by
  obtain ⟨hlen, hok, hin⟩ := h
  exact eMBMasterFuncWriteMultipleCoils_ok hlen rfl rfl hok
    (eMBMasterRegCoilsCB_checks.eq_ok hin _ _ _)

theorem eMBMasterFuncWriteMultipleHoldingRegister_stores (h : WriteRegsStores ctx usLen) :
    eMBMasterFuncWriteMultipleHoldingRegister ctx app frame usLen = ⟨.none, frame, usLen,
      (eMBMasterRegHoldingCB ctx.ucMBMasterDestAddress app (ctx.pucPDUSndBuf.at 6)
        (wordAt ctx.pucPDUSndBuf 1 + 1) (wordAt ctx.pucPDUSndBuf 3)).2⟩ := by
  obtain ⟨hlen, hok, hin⟩ := h
  exact eMBMasterFuncWriteMultipleHoldingRegister_ok hlen rfl rfl hok
    (eMBMasterRegHoldingCB_checks.eq_ok hin _ _ _)

theorem eMBMasterFuncReadWrite_stores (h : ReadWriteStores ctx frame usLen)
    (hin : inRange (wordAt ctx.pucPDUSndBuf 1) (wordAt ctx.pucPDUSndBuf 3) 0 mRegHoldingNregs) :
    eMBMasterFuncReadWriteMultipleHoldingRegister ctx app frame usLen = ⟨.none, frame, usLen,
      (eMBMasterRegHoldingCB ctx.ucMBMasterDestAddress
        (eMBMasterRegHoldingCB ctx.ucMBMasterDestAddress app (ctx.pucPDUSndBuf.at 10)
          (wordAt ctx.pucPDUSndBuf 5 + 1) (wordAt ctx.pucPDUSndBuf 7)).2
        (frame.at 2) (wordAt ctx.pucPDUSndBuf 1 + 1) (wordAt ctx.pucPDUSndBuf 3)).2⟩ := by
  obtain ⟨hb, hlen, hok, hwin⟩ := h
  have hcb := eMBMasterRegHoldingCB_checks
  exact eMBMasterFuncReadWriteMultipleHoldingRegister_ok hb hlen rfl rfl rfl rfl hok
    (hcb.eq_ok hwin _ _ _) (hcb.eq_ok hin _ _ _)

end Stored

/-! ## One slave -/

section Unicast

variable {ctx : MasterCtx} {frame : Buf} {usLen : Nat} {a n : UShort}

/-- What holds after every success of a handler, whatever the mirror. -/
theorem Meets.on_success {pxHandler : MasterHandler}
    {accepts stores : MasterCtx → Buf → Nat → Prop} (h : Meets pxHandler accepts stores)
    {P : MasterApp → Prop} :
    (∀ app, (pxHandler ctx app frame usLen).eStatus = .none →
      P (pxHandler ctx app frame usLen).app) ↔
      (accepts ctx frame usLen → ∀ app, P (pxHandler ctx app frame usLen).app) := by
  constructor
  · exact fun hall haccepts app => hall app ((h ctx app frame usLen).1.mpr haccepts)
  · exact fun hall app hst => hall ((h ctx app frame usLen).1.mp hst) app

/-- One coil gives another only if it is the same one with the same value. -/
theorem bitsGive_coil {v w : Bool} {wa : Nat} :
    BitsGive (coilBuf v) a.toNat 1 wa 1 (fun _ => w) ↔ a.toNat = wa ∧ v = w := by
  have hbit : ∀ v : Bool, ∀ t < 8, bitAt (coilBuf v) t = (decide (t = 0) && v) := by decide
  have hcount : 8 * byteCount 1 = 8 := rfl
  constructor
  · intro h
    obtain ⟨⟨hle, hlt⟩, hval, hin⟩ := h 0 Nat.zero_lt_one
    rw [Nat.add_zero] at hle hlt hval hin
    rw [hcount] at hlt
    rw [hbit v _ (by omega)] at hval
    by_cases heq : a.toNat = wa
    · rw [heq, Nat.sub_self] at hval
      exact ⟨heq, hval⟩
    · have hfalse : decide (wa - a.toNat = 0) = false := decide_eq_false (by omega)
      rw [hfalse, Bool.false_and] at hval
      rcases hin with hin | hin
      · omega
      · exact absurd (hval.trans hin) (by decide)
  · rintro ⟨rfl, rfl⟩ j hj
    obtain rfl := Nat.lt_one_iff.mp hj
    rw [Nat.add_zero, Nat.sub_self, hcount]
    exact ⟨⟨Nat.le_refl _, by omega⟩, hbit v 0 (by decide), Or.inl (Nat.lt_succ_self _)⟩

/-- The same for a register. -/
theorem wordsGive_one {buf : Buf} {v : UShort} {wa : Nat} :
    WordsGive buf a.toNat 1 wa 1 (fun _ => v) ↔ a.toNat = wa ∧ wordAt buf 0 = v := by
  constructor
  · intro h
    obtain ⟨⟨hle, hlt⟩, hval⟩ := h 0 Nat.zero_lt_one
    rw [Nat.add_zero] at hle hlt hval
    have heq : a.toNat = wa := by omega
    rw [heq, Nat.sub_self] at hval
    exact ⟨heq, hval⟩
  · rintro ⟨rfl, hval⟩ j hj
    obtain rfl := Nat.lt_one_iff.mp hj
    rw [Nat.add_zero, Nat.sub_self]
    exact ⟨⟨Nat.le_refl _, Nat.lt_succ_self _⟩, hval⟩

/-- A property of a single item. -/
theorem forall_lt_one {P : Nat → Prop} : (∀ j < 1, P j) ↔ P 0 :=
  ⟨fun h => h 0 Nat.zero_lt_one, fun h _ hj => Nat.lt_one_iff.mp hj ▸ h⟩

theorem writeCoil_reflects {v : UShort} (hfit : (MasterCall.writeCoil a v).WriteFits) :
    (∀ app, (eMBMasterFuncWriteCoil ctx app frame usLen).eStatus = .none →
      (MasterCall.writeCoil a v).Reflected
        ((eMBMasterFuncWriteCoil ctx app frame usLen).app.row ctx.ucMBMasterDestAddress)) ↔
      (MasterCall.writeCoil a v).RepeatedBy ctx frame usLen := by
  obtain ⟨-, hin⟩ := hfit
  rw [eMBMasterFuncWriteCoil_meets.on_success (P := fun app =>
    (MasterCall.writeCoil a v).Reflected (app.row ctx.ucMBMasterDestAddress))]
  refine imp_congr_right fun hst => ?_
  have hgive := bits_give ctx.ucMBMasterDestAddress (coilBuf (decide (frame 3 = 0xFF)))
    (f := fun _ => decide (v = 0xFF00)) hst.2.2 hin
  simp only [forall_lt_one, Nat.add_zero] at hgive
  simp only [eMBMasterFuncWriteCoil_stores _ hst]
  refine hgive.trans (bitsGive_coil.trans ?_)
  rw [decide_eq_decide, BitVec.toNat_inj]

theorem writeHoldingRegister_reflects {v : UShort}
    (hfit : (MasterCall.writeHoldingRegister a v).WriteFits) :
    (∀ app, (eMBMasterFuncWriteHoldingRegister ctx app frame usLen).eStatus = .none →
      (MasterCall.writeHoldingRegister a v).Reflected
        ((eMBMasterFuncWriteHoldingRegister ctx app frame usLen).app.row
          ctx.ucMBMasterDestAddress)) ↔
      (MasterCall.writeHoldingRegister a v).RepeatedBy ctx frame usLen := by
  rw [eMBMasterFuncWriteHoldingRegister_meets.on_success (P := fun app =>
    (MasterCall.writeHoldingRegister a v).Reflected (app.row ctx.ucMBMasterDestAddress))]
  refine imp_congr_right fun hst => ?_
  have hgive := words_give ctx.ucMBMasterDestAddress (frame.at 3) (f := fun _ => v) hst.2 hfit
  simp only [forall_lt_one, Nat.add_zero] at hgive
  simp only [eMBMasterFuncWriteHoldingRegister_stores _ hst]
  refine hgive.trans (wordsGive_one.trans ?_)
  rw [BitVec.toNat_inj]
  rfl

/-- The bytes of two buffers that agree give the same coils. -/
theorem bitsGive_congr {buf buf' : Buf} {wa wn : Nat} {f : Nat → Bool}
    (h : AgreeBelow (byteCount n.toNat) buf buf') :
    BitsGive buf a.toNat n.toNat wa wn f ↔ BitsGive buf' a.toNat n.toNat wa wn f := by
  have hbit : ∀ t < 8 * byteCount n.toNat, bitAt buf t = bitAt buf' t :=
    fun t ht => bitAt_congr (h _ (by omega))
  refine forall₂_congr fun j _ => and_congr_right fun hin => ?_
  rw [hbit _ (by omega)]

theorem writeMultipleCoils_reflects {buf : Buf}
    (hfit : (MasterCall.writeMultipleCoils a n buf).WriteFits)
    (hsnd : ctx.pucPDUSndBuf.Holds 0 (MasterCall.writeMultipleCoils a n buf).req.pdu) :
    (∀ app, (eMBMasterFuncWriteMultipleCoils ctx app frame usLen).eStatus = .none →
      (MasterCall.writeMultipleCoils a n buf).Reflected
        ((eMBMasterFuncWriteMultipleCoils ctx app frame usLen).app.row
          ctx.ucMBMasterDestAddress)) ↔
      (MasterCall.writeMultipleCoils a n buf).RepeatedBy ctx frame usLen := by
  obtain ⟨-, -, hcount, hdata⟩ := request_writeMultipleCoils hsnd
  rw [eMBMasterFuncWriteMultipleCoils_meets.on_success (P := fun app =>
    (MasterCall.writeMultipleCoils a n buf).Reflected (app.row ctx.ucMBMasterDestAddress))]
  refine imp_congr_right fun hst => ?_
  simp only [eMBMasterFuncWriteMultipleCoils_stores _ hst]
  refine (bits_give _ _ hst.2.2 hfit.2).trans (bitsGive_congr ?_)
  -- The count of the reply takes as many bytes as the request has.
  have hlen : a.toNat + n.toNat ≤ 64 := hfit.2
  have hend : (wordAt frame 1).toNat + (wordAt frame 3).toNat ≤ 0 + 64 := hst.2.2.2
  have hsame : ucNBytes (wordAt frame 3) = ucNBytes n := hst.2.1.2.trans hcount
  rw [← toNat_ucNBytes (by omega : (wordAt frame 3).toNat < 2040), hsame]
  exact hdata

theorem writeMultipleHoldingRegister_reflects {buf : Mem UShort}
    (hfit : (MasterCall.writeMultipleHoldingRegister a n buf).WriteFits)
    (hsnd : ctx.pucPDUSndBuf.Holds 0 (MasterCall.writeMultipleHoldingRegister a n buf).req.pdu) :
    ∀ app, (eMBMasterFuncWriteMultipleHoldingRegister ctx app frame usLen).eStatus = .none →
      (MasterCall.writeMultipleHoldingRegister a n buf).Reflected
        ((eMBMasterFuncWriteMultipleHoldingRegister ctx app frame usLen).app.row
          ctx.ucMBMasterDestAddress) := by
  obtain ⟨ha, hn, -, hdata⟩ := request_writeMultipleHoldingRegister hsnd
  rw [eMBMasterFuncWriteMultipleHoldingRegister_meets.on_success (P := fun app =>
    (MasterCall.writeMultipleHoldingRegister a n buf).Reflected
      (app.row ctx.ucMBMasterDestAddress))]
  intro hst
  simp only [eMBMasterFuncWriteMultipleHoldingRegister_stores _ hst, ha, hn]
  have hin : inRange a n 0 mRegHoldingNregs := inRange_zero.mpr hfit.2
  refine (words_give _ _ hin hfit.2).mpr fun j hj => ?_
  rw [Nat.add_sub_cancel_left, wordAt_at]
  exact ⟨⟨Nat.le_add_right _ j, Nat.add_lt_add_left hj _⟩, hdata j hj⟩

/-- A register of the range to be written, after function 23. -/
theorem readWrite_get {ra rn wa wn : UShort} {buf : Mem UShort} {k : UChar} {snd : Buf}
    (hwin : inRange wa wn 0 mRegHoldingNregs) (hrin : inRange ra rn 0 mRegHoldingNregs)
    (hdata : ∀ j < wn.toNat, wordAt snd (10 + 2 * j) = buf j) (app : MasterApp) {j : Nat}
    (hj : j < wn.toNat) :
    ((eMBMasterRegHoldingCB k
      (eMBMasterRegHoldingCB k app (snd.at 10) (wa + 1) wn).2
      (frame.at 2) (ra + 1) rn).2.row k).holdings.get (wa.toNat + j) =
      if InRange ra rn.toNat (wa.toNat + j) then
        wordAt frame (2 + 2 * (wa.toNat + j - ra.toNat))
      else buf j := by
  have hi : wa.toNat + j < mRegHoldingNregs := by
    have hend : wa.toNat + wn.toNat ≤ 0 + mRegHoldingNregs := hwin.2
    omega
  have hw : InRange wa wn.toNat (wa.toNat + j) :=
    ⟨Nat.le_add_right _ j, Nat.add_lt_add_left hj _⟩
  rw [holdings_write k k _ _ hrin hi, wordAt_at]
  by_cases hr : InRange ra rn.toNat (wa.toNat + j)
  · rw [if_pos ⟨rfl, hr⟩, if_pos hr]
  · rw [if_neg fun h => hr h.2, if_neg hr, holdings_write k k _ _ hwin hi, if_pos ⟨rfl, hw⟩,
      Nat.add_sub_cancel_left, wordAt_at, hdata j hj]

/-- Function 23 on a reply that is stored, to any mirror. -/
theorem readWrite_give {ra rn wa wn : UShort} {buf : Mem UShort} {k : UChar} {snd : Buf}
    (hwin : inRange wa wn 0 mRegHoldingNregs) (hrin : inRange ra rn 0 mRegHoldingNregs)
    (hdata : ∀ j < wn.toNat, wordAt snd (10 + 2 * j) = buf j) :
    (∀ app, (MasterCall.readWriteMultipleHoldingRegister ra rn buf wa wn).Reflected
      ((eMBMasterRegHoldingCB k (eMBMasterRegHoldingCB k app (snd.at 10) (wa + 1) wn).2
        (frame.at 2) (ra + 1) rn).2.row k)) ↔
      ∀ j < wn.toNat, InRange ra rn.toNat (wa.toNat + j) →
        wordAt frame (2 + 2 * (wa.toNat + j - ra.toNat)) = buf j := by
  constructor
  · intro hall j hj hr
    have hread := hall .initial j hj
    rwa [readWrite_get hwin hrin hdata _ hj, if_pos hr] at hread
  · intro hreply app j hj
    rw [readWrite_get hwin hrin hdata _ hj]
    by_cases hr : InRange ra rn.toNat (wa.toNat + j)
    · rw [if_pos hr]
      exact hreply j hj hr
    · rw [if_neg hr]

/-- A mirror that holds another value does not reflect function 23. -/
theorem readWrite_not_held (k : UChar) {ra rn wa wn : UShort} {buf : Mem UShort}
    (hfit : (MasterCall.readWriteMultipleHoldingRegister ra rn buf wa wn).WriteFits) :
    ¬ (MasterCall.readWriteMultipleHoldingRegister ra rn buf wa wn).Reflected
      ((holdingsAll (buf 0 + 1)).row k) := by
  obtain ⟨-, hpos, hin⟩ := hfit
  intro hread
  have hi : wa.toNat + 0 < mRegHoldingNregs := Nat.lt_of_lt_of_le (Nat.add_lt_add_left hpos _) hin
  have hzero := hread 0 hpos
  rw [holdingsAll_get _ _ hi] at hzero
  bv_omega

/-- Function 23 does not look at a reply without a byte count, and calls that a success. -/
theorem readWrite_short (app : MasterApp) (hb : ctx.xFrameIsBroadcast = false)
    (hlen : ¬ 2 ≤ usLen) : eMBMasterFuncReadWriteMultipleHoldingRegister ctx app frame usLen =
      ⟨.none, frame, usLen, app⟩ := by
  simp only [eMBMasterFuncReadWriteMultipleHoldingRegister, hb, Bool.false_eq_true, if_false]
  exact if_neg hlen

theorem readWrite_reflects {ra rn wa wn : UShort} {buf : Mem UShort}
    (hfit : (MasterCall.readWriteMultipleHoldingRegister ra rn buf wa wn).WriteFits)
    (hb : ctx.xFrameIsBroadcast = false)
    (hsnd : ctx.pucPDUSndBuf.Holds 0
      (MasterCall.readWriteMultipleHoldingRegister ra rn buf wa wn).req.pdu) :
    (∀ app,
      (eMBMasterFuncReadWriteMultipleHoldingRegister ctx app frame usLen).eStatus = .none →
      (MasterCall.readWriteMultipleHoldingRegister ra rn buf wa wn).Reflected
        ((eMBMasterFuncReadWriteMultipleHoldingRegister ctx app frame usLen).app.row
          ctx.ucMBMasterDestAddress)) ↔
      (MasterCall.readWriteMultipleHoldingRegister ra rn buf wa wn).RepeatedBy ctx frame
        usLen := by
  by_cases hlen : 2 ≤ usLen
  · obtain ⟨hra, hrn, hwa, hwn, hdata⟩ := request_readWrite hsnd
    have hrin : inRange ra rn 0 mRegHoldingNregs := inRange_zero.mpr hfit.1.2
    have hwin : inRange wa wn 0 mRegHoldingNregs := inRange_zero.mpr hfit.2.2
    rw [eMBMasterFuncReadWriteMultipleHoldingRegister_meets.on_success (P := fun app =>
      (MasterCall.readWriteMultipleHoldingRegister ra rn buf wa wn).Reflected
        (app.row ctx.ucMBMasterDestAddress))]
    have hstores : 2 * rn.toNat = (frame 1).toNat → ReadWriteStores ctx frame usLen ∧
        inRange (wordAt ctx.pucPDUSndBuf 1) (wordAt ctx.pucPDUSndBuf 3) 0 mRegHoldingNregs := by
      intro hcount
      rw [ReadWriteStores, hra, hrn, hwa, hwn]
      exact ⟨⟨hb, hlen, hcount, hwin⟩, hrin⟩
    have haccepts : (ctx.xFrameIsBroadcast = true ∨ usLen < 2 ∨
        (ReadWriteStores ctx frame usLen ∧ inRange (wordAt ctx.pucPDUSndBuf 1)
          (wordAt ctx.pucPDUSndBuf 3) 0 mRegHoldingNregs)) ↔
        2 * rn.toNat = (frame 1).toNat := by
      constructor
      · rintro (hall | hshort | ⟨⟨-, -, hcount, -⟩, -⟩)
        · exact absurd (hb.symm.trans hall) Bool.false_ne_true
        · exact absurd hlen (Nat.not_le.mpr hshort)
        · rwa [hrn] at hcount
      · exact fun hcount => Or.inr (Or.inr (hstores hcount))
    rw [haccepts]
    refine (imp_congr_right fun hcount => ?_).trans (and_iff_right hlen).symm
    obtain ⟨hst, hin⟩ := hstores hcount
    simp only [eMBMasterFuncReadWrite_stores _ hst hin, hra, hrn, hwa, hwn]
    exact readWrite_give hwin hrin hdata
  · refine iff_of_false (fun hall => ?_) fun h => hlen h.1
    have hread := hall (holdingsAll (buf 0 + 1))
    rw [readWrite_short _ hb hlen] at hread
    exact readWrite_not_held _ hfit (hread rfl)

end Unicast

/-! ## All slaves -/

section Broadcast

variable {a n v : UShort} {snd : Buf}

/-- A write through every row in turn: it gives its own row what the call asked for and leaves
that of the others. -/
structure MasterCall.WritesEach (c : MasterCall) (w : UChar → MasterApp → MasterApp) : Prop where
  own : ∀ k app, c.Reflected ((w k app).row k)
  others : ∀ k k' app, k' ≠ k → c.Reflected (app.row k') → c.Reflected ((w k app).row k')

theorem writeCoil_writesEach {on : Bool} (hin : Inside mCoilNcoils a 1)
    (hon : on = decide (v = 0xFF00)) :
    (MasterCall.writeCoil a v).WritesEach fun k app =>
      (eMBMasterRegCoilsCB k app (coilBuf on) (a + 1) 1).2 := by
  have hrange : inRange a 1 0 mCoilNcoils := inRange_zero.mpr hin
  constructor
  · intro k app
    have hgive := (bits_give k (coilBuf on) hrange hin).mpr (bitsGive_coil.mpr ⟨rfl, hon⟩) app
    exact forall_lt_one.mp hgive
  · intro k k' app hk hold
    exact (coils_write_other k k' app _ hk hrange ⟨Nat.le_refl _, Nat.lt_succ_self _⟩).trans hold

theorem writeHoldingRegister_writesEach {buf : Buf} (hin : Inside mRegHoldingNregs a 1)
    (hbuf : wordAt buf 0 = v) :
    (MasterCall.writeHoldingRegister a v).WritesEach fun k app =>
      (eMBMasterRegHoldingCB k app buf (a + 1) 1).2 := by
  have hrange : inRange a 1 0 mRegHoldingNregs := inRange_zero.mpr hin
  constructor
  · intro k app
    have hgive := (words_give k buf hrange hin).mpr (wordsGive_one.mpr ⟨rfl, hbuf⟩) app
    exact forall_lt_one.mp hgive
  · intro k k' app hk hold
    refine (holdings_write k k' app buf hrange hin).trans ?_
    rw [if_neg fun h => hk h.1]
    exact hold

theorem writeMultipleCoils_writesEach {buf data : Buf} (hin : Inside mCoilNcoils a n.toNat)
    (hdata : AgreeBelow (byteCount n.toNat) data buf) :
    (MasterCall.writeMultipleCoils a n buf).WritesEach fun k app =>
      (eMBMasterRegCoilsCB k app data (a + 1) n).2 := by
  have hrange : inRange a n 0 mCoilNcoils := inRange_zero.mpr hin
  constructor
  · intro k app
    refine (bits_give k data hrange hin).mpr ((bitsGive_congr hdata).mpr fun j hj => ?_) app
    have hcount : n.toNat ≤ 8 * byteCount n.toNat := by
      unfold byteCount
      omega
    rw [Nat.add_sub_cancel_left]
    exact ⟨⟨Nat.le_add_right _ j, by omega⟩, rfl, Or.inl (Nat.add_lt_add_left hj _)⟩
  · intro k k' app hk hold j hj
    rw [coils_write_other k k' app data hk hrange
      ⟨Nat.le_add_right _ j, Nat.add_lt_add_left hj _⟩]
    exact hold j hj

theorem writeMultipleHoldingRegister_writesEach {buf : Mem UShort} {data : Buf}
    (hin : Inside mRegHoldingNregs a n.toNat) (hdata : ∀ j < n.toNat, wordAt data (2 * j) = buf j) :
    (MasterCall.writeMultipleHoldingRegister a n buf).WritesEach fun k app =>
      (eMBMasterRegHoldingCB k app data (a + 1) n).2 := by
  have hrange : inRange a n 0 mRegHoldingNregs := inRange_zero.mpr hin
  constructor
  · intro k app
    refine (words_give k data hrange hin).mpr (fun j hj => ?_) app
    rw [Nat.add_sub_cancel_left]
    exact ⟨⟨Nat.le_add_right _ j, Nat.add_lt_add_left hj _⟩, hdata j hj⟩
  · intro k k' app hk hold j hj
    have hi : a.toNat + j < mRegHoldingNregs := Nat.lt_of_lt_of_le (Nat.add_lt_add_left hj _) hin
    rw [holdings_write k k' app data hrange hi, if_neg fun h => hk h.1]
    exact hold j hj

end Broadcast

namespace Master

variable {c : MasterCall} {s : Master}

/-- A call of a handler that leaves the frame. -/
theorem callHandler_echo {pxHandler : MasterHandler} {e : MBException} {app : MasterApp}
    (h : pxHandler s.ctx s.app s.frame s.usLength = ⟨e, s.frame, s.usLength, app⟩) :
    ∃ log, callHandler pxHandler s = { s with
      eException := e.code
      app := app
      log := log } := by
  unfold callHandler
  rw [h]
  dsimp only
  rw [setFrame_frame]
  split
  · exact ⟨_, rfl⟩
  · exact ⟨_, rfl⟩

/-- What the calls of such a handler for all slaves may change. -/
def Swept (s s' : Master) : Prop :=
  ∃ dest ex app log, s' = { s with
    ucMBMasterDestAddress := dest
    eException := ex
    app := app
    log := log }

/-- The calls of a handler that leaves the frame, whatever the slave, add up to a sweep over the
mirror. -/
theorem callHandlerAll_app {pxHandler : MasterHandler} {e : MBException}
    {w : UChar → MasterApp → MasterApp}
    (hrun : ∀ k app, pxHandler { s.ctx with ucMBMasterDestAddress := k } app s.frame
      s.usMasterSendPDULength.toNat = ⟨e, s.frame, s.usMasterSendPDULength.toNat, w k app⟩) :
    (callHandlerAll pxHandler s).eException = e.code ∧
      (callHandlerAll pxHandler s).app = (List.range mbMasterTotalSlaveNum).foldl
        (fun app j => w (BitVec.ofNat 8 (j + 1)) app) s.app := by
  let s₀ : Master := { s with usLength := s.usMasterSendPDULength.toNat }
  have hall : ∀ n, let t := (List.range n).foldl (fun s j =>
      callHandler pxHandler { s with ucMBMasterDestAddress := BitVec.ofNat 8 (j + 1) }) s₀
      Swept s₀ t ∧ (0 < n → t.eException = e.code) ∧
        t.app = (List.range n).foldl (fun app j => w (BitVec.ofNat 8 (j + 1)) app) s.app := by
    intro n
    induction n with
    | zero => exact ⟨⟨_, _, _, _, rfl⟩, fun h => absurd h (Nat.lt_irrefl 0), rfl⟩
    | succ n ih =>
      obtain ⟨⟨dest, ex, app, log, hswept⟩, -, happ⟩ := ih
      simp only [List.range_succ, List.foldl_append, List.foldl_cons, List.foldl_nil]
      rw [← happ, hswept]
      obtain ⟨log', heq⟩ := callHandler_echo (s := { s₀ with
        ucMBMasterDestAddress := BitVec.ofNat 8 (n + 1)
        eException := ex
        app := app
        log := log }) (hrun (BitVec.ofNat 8 (n + 1)) app)
      rw [heq]
      exact ⟨⟨_, _, _, _, rfl⟩, fun _ => rfl, rfl⟩
  obtain ⟨-, hex, happ⟩ := hall mbMasterTotalSlaveNum
  exact ⟨hex (by decide), happ⟩

/-- The loop gives every slave its own address. -/
theorem ofNat_succ_ne {i j : Nat} (hij : i < j) (hj : j < mbMasterTotalSlaveNum) :
    (BitVec.ofNat 8 (i + 1) : UChar) ≠ BitVec.ofNat 8 (j + 1) := by
  have hj' : j < 16 := hj
  intro heq
  have hnat := congrArg BitVec.toNat heq
  rw [BitVec.toNat_ofNat, BitVec.toNat_ofNat] at hnat
  omega

/-- The address of a slave, as the loop gives it. -/
theorem ofNat_pred_succ {k : UChar} (h1 : 1 ≤ k.toNat) : BitVec.ofNat 8 (k.toNat - 1 + 1) = k := by
  rw [Nat.sub_add_cancel h1, BitVec.ofNat_toNat, BitVec.setWidth_eq]

/-- A handler that succeeds for every slave establishes for each what its call for that slave
does and its calls for the others keep. -/
theorem callHandlerAll_sweep {pxHandler : MasterHandler} {w : UChar → MasterApp → MasterApp}
    {P : UChar → MasterApp → Prop}
    (hrun : ∀ k app, pxHandler { s.ctx with ucMBMasterDestAddress := k } app s.frame
      s.usMasterSendPDULength.toNat =
        ⟨.none, s.frame, s.usMasterSendPDULength.toNat, w k app⟩)
    (hat : ∀ k app, P k (w k app))
    (hkeep : ∀ k k' app, k' ≠ k → P k' app → P k' (w k app)) {k : UChar} (h1 : 1 ≤ k.toNat)
    (h16 : k.toNat ≤ mbMasterTotalSlaveNum) :
    (callHandlerAll pxHandler s).eException = MBException.none.code ∧
      P k (callHandlerAll pxHandler s).app := by
  obtain ⟨hex, happ⟩ := callHandlerAll_app hrun
  refine ⟨hex, ?_⟩
  rw [happ]
  have hk := sweep (P := fun j => P (BitVec.ofNat 8 (j + 1)))
    (fun app j _ => hat (BitVec.ofNat 8 (j + 1)) app)
    (fun app i j hij hj => hkeep _ _ app (ofNat_succ_ne hij hj)) s.app (k.toNat - 1) (by omega)
  rwa [ofNat_pred_succ h1] at hk

/-! ## Execution -/

/-- The request of a call lies in the send buffer and a frame of its function is executed: a
reply, or after a broadcast the request itself. -/
structure Answering (c : MasterCall) (s : Master) : Prop where
  request : s.ctx.pucPDUSndBuf.Holds 0 c.req.pdu
  length : s.usMasterSendPDULength = c.req.usLength
  code : s.frame mbPduFuncOff = c.request.code
  broadcast : s.xFrameIsBroadcast = true → s.ucMBFrame = .sndBuf

/-- The request was addressed to the slave. -/
def IsFor (s : Master) (k : UChar) : Prop :=
  if s.xFrameIsBroadcast then 1 ≤ k.toNat ∧ k.toNat ≤ mbMasterTotalSlaveNum
  else k = s.ucMBMasterDestAddress

/-- Whatever the mirror held, if the execution leaves no exception then the mirror of every slave
that the request was addressed to holds what the call asked to be written. -/
def Reflects (c : MasterCall) (s : Master) : Prop :=
  ∀ app, let s' := executeFrame { s with app := app }
    s'.eException = MBException.none.code → ∀ k, s.IsFor k → c.Reflected (s'.app.row k)

/-- The request was answered by a reply that leads to what it asked for, or it was a broadcast
of another function than 23. -/
def Repeated (c : MasterCall) (s : Master) : Prop :=
  if s.xFrameIsBroadcast then c.request.code ≠ mbFuncReadwriteMultipleRegisters
  else c.RepeatedBy s.ctx s.frame s.usLength

/-- No request has the exception bit. -/
theorem not_exceptionFrame (h : s.frame mbPduFuncOff = c.request.code) :
    ¬ ExceptionFrame s.frame := by
  have hcode : ∀ r : Request, r.code >>> 7 = 0 := by
    intro r
    cases r <;> simp [Request.code]
  rw [ExceptionFrame, h]
  exact not_not_intro (hcode c.request)

/-- The execution of a reply is the call of the handler for its function code. -/
theorem reflects_unicast (h : Answering c s) (hb : s.xFrameIsBroadcast = false) :
    Reflects c s ↔ ∀ app, (masterDispatch s.ctx app s.frame s.usLength).eStatus = .none →
      c.Reflected ((masterDispatch s.ctx app s.frame s.usLength).app.row
        s.ucMBMasterDestAddress) := by
  refine forall_congr' fun app => ?_
  obtain ⟨hcode, happ, -⟩ :=
    executeFrame_unicast (s := { s with app := app }) (not_exceptionFrame h.code) hb
  dsimp only
  rw [hcode, happ, show MBException.none.code = 0 from rfl, MBException.code_eq_zero]
  refine imp_congr_right fun _ => ?_
  have hfor : ∀ k, s.IsFor k ↔ k = s.ucMBMasterDestAddress := by
    intro k
    rw [IsFor, if_neg (Bool.eq_false_iff.mp hb)]
  simp only [hfor, forall_eq]
  rfl

/-- The execution of a broadcast whose handler succeeds for every slave. -/
theorem executeFrame_broadcast {pxHandler : MasterHandler} {w : UChar → MasterApp → MasterApp}
    {P : UChar → MasterApp → Prop} (hno : ¬ ExceptionFrame s.frame)
    (hb : s.xFrameIsBroadcast = true)
    (hfind : findHandler (s.frame mbPduFuncOff) xMasterFuncHandlers = some pxHandler)
    (hrun : ∀ k app, pxHandler { s.ctx with ucMBMasterDestAddress := k } app s.frame
      s.usMasterSendPDULength.toNat =
        ⟨.none, s.frame, s.usMasterSendPDULength.toNat, w k app⟩)
    (hat : ∀ k app, P k (w k app))
    (hkeep : ∀ k k' app, k' ≠ k → P k' app → P k' (w k app)) {k : UChar} (h1 : 1 ≤ k.toNat)
    (h16 : k.toNat ≤ mbMasterTotalSlaveNum) :
    s.executeFrame.eException = MBException.none.code ∧ P k s.executeFrame.app := by
  rw [executeFrame_handler hno, hfind]
  dsimp only
  rw [if_pos hb]
  exact callHandlerAll_sweep (s := s.fetched) hrun hat hkeep h1 h16

/-- A broadcast whose handler writes every row in turn is reflected. -/
theorem reflects_broadcast {pxHandler : MasterHandler} {w : UChar → MasterApp → MasterApp}
    (h : Answering c s) (hb : s.xFrameIsBroadcast = true)
    (hfind : findHandler c.request.code xMasterFuncHandlers = some pxHandler)
    (hrun : ∀ k app, pxHandler { s.ctx with ucMBMasterDestAddress := k } app s.frame
      s.usMasterSendPDULength.toNat =
        ⟨.none, s.frame, s.usMasterSendPDULength.toNat, w k app⟩)
    (hw : c.WritesEach w) : Reflects c s := by
  intro app s' _ k hk
  rw [IsFor, if_pos hb] at hk
  have hfind' : findHandler (s.frame mbPduFuncOff) xMasterFuncHandlers = some pxHandler := by
    rw [h.code]
    exact hfind
  exact (executeFrame_broadcast (s := { s with app := app })
    (P := fun k app => c.Reflected (app.row k)) (not_exceptionFrame h.code) hb hfind' hrun hw.own
    hw.others hk.1 hk.2).2

/-- A broadcast is executed on the request. -/
theorem Answering.frame_eq (h : Answering c s) (hb : s.xFrameIsBroadcast = true) :
    s.frame = s.ctx.pucPDUSndBuf := by
  rw [frame, h.broadcast hb]
  rfl

section Kinds

variable {a n v : UShort}

theorem writeCoil_broadcast (hfit : (MasterCall.writeCoil a v).WriteFits)
    (h : Answering (.writeCoil a v) s) (hb : s.xFrameIsBroadcast = true) :
    Reflects (.writeCoil a v) s := by
  obtain ⟨hvalue, hin⟩ := hfit
  obtain ⟨ha, -, hv, hz⟩ := request_single h.request
  rw [← h.frame_eq hb] at ha hv hz
  have hon : frame s 4 = 0x00 ∧ (frame s 3 = 0xFF ∨ frame s 3 = 0x00) ∧
      decide (frame s 3 = 0xFF) = decide (v = 0xFF00) := by
    rw [hv, hz]
    rcases hvalue with rfl | rfl
    · decide
    · decide
  have hlen : s.usMasterSendPDULength.toNat = 5 := congrArg BitVec.toNat h.length
  have hst : WriteCoilStores s.frame s.usMasterSendPDULength.toNat :=
    ⟨hlen, ⟨hon.1, hon.2.1⟩, inRange_zero.mpr (ha.symm ▸ hin)⟩
  refine reflects_broadcast h hb rfl (fun k app => eMBMasterFuncWriteCoil_stores app hst) ?_
  rw [ha]
  exact writeCoil_writesEach hin hon.2.2

theorem writeHoldingRegister_broadcast (hfit : (MasterCall.writeHoldingRegister a v).WriteFits)
    (h : Answering (.writeHoldingRegister a v) s) (hb : s.xFrameIsBroadcast = true) :
    Reflects (.writeHoldingRegister a v) s := by
  obtain ⟨ha, hv, -, -⟩ := request_single h.request
  rw [← h.frame_eq hb] at ha hv
  have hlen : s.usMasterSendPDULength.toNat = 5 := congrArg BitVec.toNat h.length
  have hst : WriteRegStores s.frame s.usMasterSendPDULength.toNat :=
    ⟨hlen, inRange_zero.mpr (ha.symm ▸ hfit)⟩
  refine reflects_broadcast h hb rfl
    (fun k app => eMBMasterFuncWriteHoldingRegister_stores app hst) ?_
  rw [ha]
  exact writeHoldingRegister_writesEach hfit hv

theorem writeMultipleCoils_broadcast {buf : Buf}
    (hfit : (MasterCall.writeMultipleCoils a n buf).WriteFits)
    (h : Answering (.writeMultipleCoils a n buf) s) (hb : s.xFrameIsBroadcast = true) :
    Reflects (.writeMultipleCoils a n buf) s := by
  obtain ⟨hpos, hin⟩ := hfit
  obtain ⟨ha, hn, hcount, hdata⟩ := request_writeMultipleCoils h.request
  have hend : a.toNat + n.toNat ≤ 64 := hin
  rw [toNat_ucNBytes (by omega)] at hdata
  rw [← h.frame_eq hb] at ha hn
  have hst : WriteCoilsStores s.ctx s.frame s.usMasterSendPDULength.toNat := by
    rw [WriteCoilsStores, ha, hn, hcount]
    exact ⟨Or.inr hb, ⟨hpos, rfl⟩, inRange_zero.mpr hin⟩
  have hrun : ∀ k app, eMBMasterFuncWriteMultipleCoils
      { s.ctx with ucMBMasterDestAddress := k } app s.frame s.usMasterSendPDULength.toNat =
        ⟨.none, s.frame, s.usMasterSendPDULength.toNat,
          (eMBMasterRegCoilsCB k app (s.ctx.pucPDUSndBuf.at 6) (a + 1) n).2⟩ := by
    intro k app
    rw [← ha, ← hn]
    exact eMBMasterFuncWriteMultipleCoils_stores app hst
  exact reflects_broadcast h hb rfl hrun (writeMultipleCoils_writesEach hin hdata)

theorem writeMultipleHoldingRegister_broadcast {buf : Mem UShort}
    (hfit : (MasterCall.writeMultipleHoldingRegister a n buf).WriteFits)
    (h : Answering (.writeMultipleHoldingRegister a n buf) s)
    (hb : s.xFrameIsBroadcast = true) : Reflects (.writeMultipleHoldingRegister a n buf) s := by
  obtain ⟨-, hin⟩ := hfit
  obtain ⟨ha, hn, hcount, hdata⟩ := request_writeMultipleHoldingRegister h.request
  have hend : a.toNat + n.toNat ≤ 100 := hin
  have hst : WriteRegsStores s.ctx s.usMasterSendPDULength.toNat := by
    rw [WriteRegsStores, ha, hn, hcount]
    refine ⟨Or.inr hb, ?_, inRange_zero.mpr hin⟩
    rw [setWidth_mul_two, BitVec.toNat_ofNat]
    omega
  have hrun : ∀ k app, eMBMasterFuncWriteMultipleHoldingRegister
      { s.ctx with ucMBMasterDestAddress := k } app s.frame s.usMasterSendPDULength.toNat =
        ⟨.none, s.frame, s.usMasterSendPDULength.toNat,
          (eMBMasterRegHoldingCB k app (s.ctx.pucPDUSndBuf.at 6) (a + 1) n).2⟩ := by
    intro k app
    rw [← ha, ← hn]
    exact eMBMasterFuncWriteMultipleHoldingRegister_stores app hst
  exact reflects_broadcast h hb rfl hrun (writeMultipleHoldingRegister_writesEach hin hdata)

/-- Function 23 does not execute a broadcast, and calls that a success. -/
theorem readWrite_broadcast {ra rn wa wn : UShort} {buf : Mem UShort}
    (hfit : (MasterCall.readWriteMultipleHoldingRegister ra rn buf wa wn).WriteFits)
    (h : Answering (.readWriteMultipleHoldingRegister ra rn buf wa wn) s)
    (hb : s.xFrameIsBroadcast = true) :
    ¬ Reflects (.readWriteMultipleHoldingRegister ra rn buf wa wn) s := by
  intro hall
  let s₁ : Master := { s with app := holdingsAll (buf 0 + 1) }
  have hfind : findHandler (s₁.frame mbPduFuncOff) xMasterFuncHandlers =
      some eMBMasterFuncReadWriteMultipleHoldingRegister := by
    rw [show s₁.frame mbPduFuncOff = _ from h.code]
    rfl
  have hrun : ∀ k app, eMBMasterFuncReadWriteMultipleHoldingRegister
      { s₁.ctx with ucMBMasterDestAddress := k } app s₁.frame s₁.usMasterSendPDULength.toNat =
        ⟨.none, s₁.frame, s₁.usMasterSendPDULength.toNat, app⟩ := fun k app => if_pos hb
  have hnone : s₁.executeFrame.eException = MBException.none.code :=
    (executeFrame_broadcast (s := s₁) (P := fun _ _ => True) (k := 1) (not_exceptionFrame h.code) hb
      hfind hrun (fun _ _ => trivial) (fun _ _ _ _ _ => trivial) (by decide) (by decide)).1
  have happ : s₁.executeFrame.app = s₁.app := by
    refine executeFrame_app ?_
    rw [Stores, show s₁.frame 0 = 23 from h.code]
    exact fun hst => absurd (hst.1.symm.trans hb) (by decide)
  have hfor : s.IsFor 1 := by
    rw [IsFor, if_pos hb]
    decide
  have hread := hall _ hnone 1 hfor
  rw [show executeFrame _ = s₁.executeFrame from rfl, happ] at hread
  exact readWrite_not_held 1 hfit hread

end Kinds

/-- A write that succeeds is reflected in the mirror exactly if the reply leads to what the
request asked for or the request was a broadcast of another function than 23. -/
theorem reflects_iff (c : MasterCall) (s : Master) (hfit : c.WriteFits) (h : Answering c s) :
    Reflects c s ↔ Repeated c s := by
  unfold Repeated
  cases hb : s.xFrameIsBroadcast with
  | false =>
    rw [reflects_unicast h hb, if_neg Bool.false_ne_true]
    cases c with
    | writeCoil a v =>
      simp only [masterDispatch_of h.code rfl]
      exact writeCoil_reflects hfit
    | writeHoldingRegister a v =>
      simp only [masterDispatch_of h.code rfl]
      exact writeHoldingRegister_reflects hfit
    | writeMultipleCoils a n buf =>
      simp only [masterDispatch_of h.code rfl]
      exact writeMultipleCoils_reflects hfit h.request
    | writeMultipleHoldingRegister a n buf =>
      simp only [masterDispatch_of h.code rfl]
      exact iff_of_true (writeMultipleHoldingRegister_reflects hfit h.request) trivial
    | readWriteMultipleHoldingRegister ra rn buf wa wn =>
      simp only [masterDispatch_of h.code rfl]
      exact readWrite_reflects hfit hb h.request
    | readCoils a n => exact hfit.elim
    | readDiscreteInputs a n => exact hfit.elim
    | readHoldingRegister a n => exact hfit.elim
    | readInputRegister a n => exact hfit.elim
  | true =>
    rw [if_pos rfl]
    cases c with
    | writeCoil a v =>
      exact iff_of_true (writeCoil_broadcast hfit h hb) (show (5 : UChar) ≠ 23 by decide)
    | writeHoldingRegister a v =>
      exact iff_of_true (writeHoldingRegister_broadcast hfit h hb) (show (6 : UChar) ≠ 23 by decide)
    | writeMultipleCoils a n buf =>
      exact iff_of_true (writeMultipleCoils_broadcast hfit h hb) (show (15 : UChar) ≠ 23 by decide)
    | writeMultipleHoldingRegister a n buf =>
      exact iff_of_true (writeMultipleHoldingRegister_broadcast hfit h hb)
        (show (16 : UChar) ≠ 23 by decide)
    | readWriteMultipleHoldingRegister ra rn buf wa wn =>
      exact iff_of_false (readWrite_broadcast hfit h hb) fun hne => hne rfl
    | readCoils a n => exact hfit.elim
    | readDiscreteInputs a n => exact hfit.elim
    | readHoldingRegister a n => exact hfit.elim
    | readInputRegister a n => exact hfit.elim

/-- A call that slave 1 has answered with its function code and some bytes. -/
def replied (c : MasterCall) (data : List UChar) : Master :=
  { static .initial with
    ucMBMasterDestAddress := 1
    ucMasterRTUSndBuf := Mem.ofList (1 :: c.req.pdu) fun _ => 0
    usMasterSendPDULength := c.req.usLength
    ucMasterRTURcvBuf := Mem.ofList (1 :: c.request.code :: data) fun _ => 0
    usLength := data.length + 1
    ucMBFrame := .rcvBuf }

theorem answering_replied (c : MasterCall) (data : List UChar) :
    Answering c (replied c data) := by
  have hsnd := Mem.holds_ofList (1 :: c.req.pdu) (fun _ => 0)
  rw [Mem.holds_cons] at hsnd
  have hrequest : (replied c data).ctx.pucPDUSndBuf.Holds 0 c.req.pdu :=
    (Mem.holds_at (k := 1) (j := 0)).mpr hsnd.2
  exact ⟨hrequest, rfl, rfl, fun hb => absurd hb Bool.false_ne_true⟩

/-- A register write whose reply repeats it. -/
theorem reflects_repeated :
    Reflects (.writeHoldingRegister 2 7)
      (replied (.writeHoldingRegister 2 7) [0x00, 0x02, 0x00, 0x07]) :=
  (reflects_iff (.writeHoldingRegister 2 7) _ (show Inside mRegHoldingNregs 2 1 by decide)
    (answering_replied _ _)).mpr fun _ => by decide

/-- Function 23 with a reply that ends behind its function code. -/
theorem not_reflects :
    ∃ c s, MasterCall.WriteFits c ∧ Answering c s ∧ ¬ Reflects c s := by
  let c : MasterCall := .readWriteMultipleHoldingRegister 0 1 (fun _ => 7) 0 1
  have hin : Inside mRegHoldingNregs 0 1 := by decide
  have hone : 1 ≤ BitVec.toNat (1 : UShort) := by decide
  refine ⟨c, replied c [], ⟨⟨hone, hin⟩, hone, hin⟩, answering_replied c [], fun h => ?_⟩
  rw [reflects_unicast (answering_replied c []) rfl] at h
  have hread := h .initial rfl 0 (by decide)
  exact absurd hread (by decide)

end Master

end FreeModbus
