import FreeModbus.Master.Functions

/-!
# Exceptions are atomic

A handler checks its request before it writes, so one that returns an exception
has written nothing.  Function 23 differs, on both sides: it writes first and
checks the range it reads after that.  When that range lies outside the map, it
refuses a request that is half carried out.
-/

namespace FreeModbus

open ByteMemory

/-! ## Slave -/

/-- The coils and the holding registers are as before. -/
def SlaveApp.SameOutputs (app app' : SlaveApp) : Prop :=
  app'.ucSCoilBuf = app.ucSCoilBuf ∧ app'.usSRegHoldBuf = app.usSRegHoldBuf

/-- A result that is an exception comes with the outputs as before. -/
def SlaveAtomic (app : SlaveApp) (res : FuncResult SlaveApp) : Prop :=
  res.eStatus ≠ .none → app.SameOutputs res.app

/-- A request of function 23 with the write inside the map and the read outside, that writes a
value other than the one there. -/
def HalfDone (app : SlaveApp) (frame : Buf) (usLen : Nat) : Prop :=
  10 ≤ usLen ∧ readwriteOk (wordAt frame 3) (wordAt frame 7) (frame 9) ∧
    inRange (wordAt frame 5) (wordAt frame 7) sRegHoldingStart sRegHoldingNregs ∧
    ¬ inRange (wordAt frame 1) (wordAt frame 3) sRegHoldingStart sRegHoldingNregs ∧
    ∃ j < (wordAt frame 7).toNat,
      wordAt frame (10 + 2 * j) ≠ app.usSRegHoldBuf ((wordAt frame 5).toNat + j)

/-- A callback that changes the data only if it raises no error. -/
def WritesLast (cb : SlaveApp → Buf → UShort → UShort → RegResult SlaveApp) : Prop :=
  ∀ app buf a n, (cb app buf (a + 1) n).eStatus ≠ .enoerr → (cb app buf (a + 1) n).app = app

/-- A callback that never changes the data. -/
def ReadsOnly (cb : SlaveApp → Buf → UShort → UShort → RegResult SlaveApp) : Prop :=
  ∀ app buf a n, (cb app buf (a + 1) n).app = app

theorem eMBRegCoilsCB_readsOnly : ReadsOnly fun app buf a n => eMBRegCoilsCB app buf a n .read := by
  intro app buf a n
  by_cases h : inRange a n sCoilStart sCoilNcoils
  · simp only [eMBRegCoilsCB_read app buf a n h]
  · simp only [eMBRegCoilsCB_enoreg app buf a n .read h]

theorem eMBRegHoldingCB_readsOnly :
    ReadsOnly fun app buf a n => eMBRegHoldingCB app buf a n .read := by
  intro app buf a n
  by_cases h : inRange a n sRegHoldingStart sRegHoldingNregs
  · simp only [eMBRegHoldingCB_read app buf a n h]
  · simp only [eMBRegHoldingCB_enoreg app buf a n .read h]

theorem eMBRegInputCB_readsOnly : ReadsOnly eMBRegInputCB := by
  intro app buf a n
  by_cases h : inRange a n sRegInputStart sRegInputNregs
  · rw [eMBRegInputCB_eq app buf a n h]
  · rw [eMBRegInputCB_enoreg app buf a n h]

theorem eMBRegDiscreteCB_readsOnly : ReadsOnly eMBRegDiscreteCB := by
  intro app buf a n
  by_cases h : inRange a n sDiscreteInputStart sDiscreteInputNdiscretes
  · rw [eMBRegDiscreteCB_eq app buf a n h]
  · rw [eMBRegDiscreteCB_enoreg app buf a n h]

theorem eMBRegCoilsCB_writesLast :
    WritesLast fun app buf a n => eMBRegCoilsCB app buf a n .write := by
  intro app buf a n
  by_cases h : inRange a n sCoilStart sCoilNcoils
  · simp only [eMBRegCoilsCB_write app buf a n h]
    exact fun hne => absurd rfl hne
  · simp only [eMBRegCoilsCB_enoreg app buf a n .write h]
    exact fun _ => trivial

theorem eMBRegHoldingCB_writesLast :
    WritesLast fun app buf a n => eMBRegHoldingCB app buf a n .write := by
  intro app buf a n
  by_cases h : inRange a n sRegHoldingStart sRegHoldingNregs
  · simp only [eMBRegHoldingCB_write app buf a n h]
    exact fun hne => absurd rfl hne
  · simp only [eMBRegHoldingCB_enoreg app buf a n .write h]
    exact fun _ => trivial

section Slave

variable {app app' : SlaveApp} {frame frame' : Buf} {usLen usLen' : Nat} {e : MBException}
  {cb : SlaveApp → Buf → UShort → UShort → RegResult SlaveApp}

theorem sameOutputs_holding {regs : Mem UShort} :
    app.SameOutputs { app with usSRegHoldBuf := regs } ↔ regs = app.usSRegHoldBuf :=
  ⟨And.right, fun h => ⟨rfl, h⟩⟩

theorem slaveAtomic_unchanged : SlaveAtomic app ⟨e, frame, usLen, app⟩ := fun _ => ⟨rfl, rfl⟩

theorem slaveAtomic_none : SlaveAtomic app ⟨.none, frame, usLen, app'⟩ := fun h => absurd rfl h

/-- A handler that returns after its callback. -/
theorem slaveAtomic_callback {reg : RegResult SlaveApp}
    (h : reg.eStatus ≠ .enoerr → reg.app = app) :
    SlaveAtomic app (if reg.eStatus ≠ .enoerr then
      ⟨prveMBError2Exception reg.eStatus, frame, usLen, reg.app⟩
      else ⟨.none, frame', usLen', reg.app⟩) := by
  split
  · rename_i herr
    rw [h herr]
    exact slaveAtomic_unchanged
  · exact slaveAtomic_none

theorem funcRead_atomic {code : UChar} {cntOk : UShort → Bool} {nBytes : UShort → UChar}
    {dataLen : UShort → Nat} (hcb : ReadsOnly cb) :
    SlaveAtomic app (funcRead code cntOk nBytes dataLen cb app frame usLen) := by
  unfold funcRead
  split
  · dsimp only
    split
    · exact slaveAtomic_callback fun _ => hcb _ _ _ _
    · exact slaveAtomic_unchanged
  · exact slaveAtomic_unchanged

theorem funcWriteMultiple_atomic {usLenMin cntMax : Nat} {verify : UShort → UChar}
    (hcb : WritesLast cb) :
    SlaveAtomic app (funcWriteMultiple usLenMin cntMax verify cb app frame usLen) := by
  unfold funcWriteMultiple
  split
  · dsimp only
    split
    · exact slaveAtomic_callback (hcb _ _ _ _)
    · exact slaveAtomic_unchanged
  · exact slaveAtomic_unchanged

theorem eMBFuncWriteCoil_atomic : SlaveAtomic app (eMBFuncWriteCoil app frame usLen) := by
  unfold eMBFuncWriteCoil
  split
  · dsimp only
    split
    · exact slaveAtomic_callback (eMBRegCoilsCB_writesLast _ _ _ _)
    · exact slaveAtomic_unchanged
  · exact slaveAtomic_unchanged

theorem eMBFuncWriteHoldingRegister_atomic :
    SlaveAtomic app (eMBFuncWriteHoldingRegister app frame usLen) := by
  unfold eMBFuncWriteHoldingRegister
  split
  · exact slaveAtomic_callback (eMBRegHoldingCB_writesLast _ _ _ _)
  · exact slaveAtomic_unchanged

/-- Function 23 is refused with the data as before, unless it is half done. -/
theorem eMBFuncReadWrite_atomic_iff :
    SlaveAtomic app (eMBFuncReadWriteMultipleHoldingRegister app frame usLen) ↔
      ¬ HalfDone app frame usLen := by
  by_cases hlen : 10 ≤ usLen
  · by_cases hok : readwriteOk (wordAt frame 3) (wordAt frame 7) (frame 9)
    · by_cases hin : inRange (wordAt frame 5) (wordAt frame 7) sRegHoldingStart sRegHoldingNregs
      · by_cases hinr :
          inRange (wordAt frame 1) (wordAt frame 3) sRegHoldingStart sRegHoldingNregs
        · have hres := eMBFuncReadWrite_ok app hlen rfl rfl rfl rfl hok hin hinr
          exact iff_of_true (fun h => absurd hres.1 h) fun h => h.2.2.2.1 hinr
        · obtain ⟨hres, happ⟩ := eMBFuncReadWrite_enoregRead app hlen rfl rfl rfl rfl hok hin hinr
          have hne : MBException.illegalDataAddress ≠ .none := nofun
          have hhalf : HalfDone app frame usLen ↔ _ :=
            ⟨fun h => h.2.2.2.2, fun h => ⟨hlen, hok, hin, hinr, h⟩⟩
          rw [SlaveAtomic, hres, happ, imp_iff_right hne, sameOutputs_holding, writeRegs_eq_self,
            hhalf]
          simp only [wordAt_at, not_exists, not_and, not_not]
      · rw [eMBFuncReadWrite_enoregWrite app hlen rfl rfl hok hin]
        exact iff_of_true slaveAtomic_unchanged fun h => hin h.2.2.1
    · rw [eMBFuncReadWrite_bad app hlen hok]
      exact iff_of_true slaveAtomic_unchanged fun h => hok h.2.1
  · rw [eMBFuncReadWrite_short app (Nat.lt_of_not_le hlen)]
    exact iff_of_true slaveAtomic_unchanged fun h => hlen h.1

/-- The built-in handlers of the slave. -/
theorem slaveDispatch_atomic_iff :
    SlaveAtomic app (slaveDispatch xFuncHandlers app frame usLen) ↔
      ¬ (frame 0 = mbFuncReadwriteMultipleRegisters ∧ HalfDone app frame usLen) := by
  cases hfind : findHandler (frame 0) xFuncHandlers with
  | none =>
    simp only [slaveDispatch, mbPduFuncOff, hfind]
    refine iff_of_true slaveAtomic_unchanged fun h => ?_
    rw [h.1] at hfind
    cases hfind
  | some pxHandler =>
    rw [slaveDispatch_of rfl hfind]
    have hother : frame 0 ≠ mbFuncReadwriteMultipleRegisters →
        SlaveAtomic app (pxHandler app frame usLen) → (SlaveAtomic app (pxHandler app frame usLen) ↔
          ¬ (frame 0 = mbFuncReadwriteMultipleRegisters ∧ HalfDone app frame usLen)) :=
      fun hne h => iff_of_true h fun h' => hne h'.1
    rcases findHandler_xFuncHandlers hfind with ⟨hc, rfl⟩ | ⟨hc, rfl⟩ | ⟨hc, rfl⟩ | ⟨hc, rfl⟩ |
      ⟨hc, rfl⟩ | ⟨hc, rfl⟩ | ⟨hc, rfl⟩ | ⟨hc, rfl⟩ | ⟨hc, rfl⟩ | ⟨hc, rfl⟩ <;> rw [hc] at hother ⊢
    · exact hother (by decide) slaveAtomic_none
    · exact hother (by decide) (funcRead_atomic eMBRegInputCB_readsOnly)
    · exact hother (by decide) (funcRead_atomic eMBRegHoldingCB_readsOnly)
    · exact hother (by decide) (funcWriteMultiple_atomic eMBRegHoldingCB_writesLast)
    · exact hother (by decide) eMBFuncWriteHoldingRegister_atomic
    · rw [eMBFuncReadWrite_atomic_iff, eq_self, true_and]
    · exact hother (by decide) (funcRead_atomic eMBRegCoilsCB_readsOnly)
    · exact hother (by decide) eMBFuncWriteCoil_atomic
    · exact hother (by decide) (funcWriteMultiple_atomic eMBRegCoilsCB_writesLast)
    · exact hother (by decide) (funcRead_atomic eMBRegDiscreteCB_readsOnly)

end Slave

/-! ## Master -/

/-- The mirror is as before. -/
def MasterApp.SameMirror (app app' : MasterApp) : Prop :=
  app'.ucMDiscInBuf = app.ucMDiscInBuf ∧ app'.ucMCoilBuf = app.ucMCoilBuf ∧
    app'.usMRegInBuf = app.usMRegInBuf ∧ app'.usMRegHoldBuf = app.usMRegHoldBuf

/-- A result that is an exception comes with the mirror as before. -/
def MasterAtomic (app : MasterApp) (res : FuncResult MasterApp) : Prop :=
  res.eStatus ≠ .none → app.SameMirror res.app

/-- A reply to a request of function 23 with the write inside the mirror and the read outside,
that writes a value other than the one there. -/
def MirrorHalfDone (ctx : MasterCtx) (app : MasterApp) (frame : Buf) (usLen : Nat) : Prop :=
  ReadWriteStores ctx frame usLen ∧
    ¬ inRange (wordAt ctx.pucPDUSndBuf 1) (wordAt ctx.pucPDUSndBuf 3) 0 mRegHoldingNregs ∧
    ∃ j < (wordAt ctx.pucPDUSndBuf 7).toNat, wordAt ctx.pucPDUSndBuf (10 + 2 * j) ≠
      app.usMRegHoldBuf.row (rowOffset ctx.ucMBMasterDestAddress mRegHoldingNregs)
        ((wordAt ctx.pucPDUSndBuf 5).toNat + j)

section Master

variable {ctx : MasterCtx} {app : MasterApp} {frame : Buf} {usLen : Nat}

theorem sameMirror_of_eq {app' : MasterApp} (h : app' = app) : app.SameMirror app' := by
  rw [h]
  exact ⟨rfl, rfl, rfl, rfl⟩

theorem sameMirror_holding {regs : Plane UShort} :
    app.SameMirror { app with usMRegHoldBuf := regs } ↔ regs = app.usMRegHoldBuf :=
  ⟨fun h => h.2.2.2, fun h => ⟨rfl, rfl, rfl, h⟩⟩

/-- Function 23 with the read outside the mirror has written by the time it is refused. -/
theorem eMBMasterFuncReadWrite_enoregRead (hs : ReadWriteStores ctx frame usLen)
    (hinr : ¬ inRange (wordAt ctx.pucPDUSndBuf 1) (wordAt ctx.pucPDUSndBuf 3) 0
      mRegHoldingNregs) :
    (eMBMasterFuncReadWriteMultipleHoldingRegister ctx app frame usLen).app =
      (eMBMasterRegHoldingCB ctx.ucMBMasterDestAddress app (ctx.pucPDUSndBuf.at 10)
        (wordAt ctx.pucPDUSndBuf 5 + 1) (wordAt ctx.pucPDUSndBuf 7)).2 := by
  obtain ⟨hb, hlen, hcnt, hin⟩ := hs
  have hok := (eMBMasterRegHoldingCB_checks.status ctx.ucMBMasterDestAddress app
    (ctx.pucPDUSndBuf.at 10) _ _).mpr hin
  unfold eMBMasterFuncReadWriteMultipleHoldingRegister
  simp only [hb, Bool.false_eq_true, if_false, mbPduSizeMin, mbPduMasterFuncReadSizeMin, hlen,
    if_true, mbPduFuncReadwriteReadAddrOff, mbPduFuncReadwriteReadRegcntOff,
    mbPduFuncReadwriteWriteAddrOff, mbPduFuncReadwriteWriteRegcntOff,
    mbPduFuncReadwriteWriteValuesOff, mbPduDataOff, hcnt, hok, stored_app]
  exact eMBMasterRegHoldingCB_checks.unchanged hinr

/-- The write of function 23 changes nothing exactly if the mirror holds its words already. -/
theorem sameMirror_write_iff {k : UChar} {buf : Buf} {a n : UShort}
    (h : inRange a n 0 mRegHoldingNregs) :
    app.SameMirror (eMBMasterRegHoldingCB k app buf (a + 1) n).2 ↔ ∀ j < n.toNat,
      wordAt buf (2 * j) =
        app.usMRegHoldBuf.row (rowOffset k mRegHoldingNregs) (a.toNat + j) := by
  rw [eMBMasterRegHoldingCB_eq k app buf h, sameMirror_holding, Plane.setRow_eq_self,
    writeRegs_eq_self]

theorem eMBMasterFuncReadWrite_atomic_iff :
    MasterAtomic app (eMBMasterFuncReadWriteMultipleHoldingRegister ctx app frame usLen) ↔
      ¬ MirrorHalfDone ctx app frame usLen := by
  obtain ⟨haccepts, hkeeps⟩ :=
    eMBMasterFuncReadWriteMultipleHoldingRegister_meets ctx app frame usLen
  by_cases hs : ReadWriteStores ctx frame usLen
  · by_cases hinr : inRange (wordAt ctx.pucPDUSndBuf 1) (wordAt ctx.pucPDUSndBuf 3) 0
      mRegHoldingNregs
    · have hnone := haccepts.mpr (Or.inr (Or.inr ⟨hs, hinr⟩))
      exact iff_of_true (fun h => absurd hnone h) fun h => h.2.1 hinr
    · have hrefused := mt haccepts.mp (by
        rintro (hb | hlen | hin)
        · exact absurd (hs.1.symm.trans hb) Bool.false_ne_true
        · exact absurd hs.2.1 (Nat.not_le.mpr hlen)
        · exact hinr hin.2)
      have hhalf : MirrorHalfDone ctx app frame usLen ↔ _ :=
        ⟨fun h => h.2.2, fun h => ⟨hs, hinr, h⟩⟩
      rw [MasterAtomic, imp_iff_right hrefused, eMBMasterFuncReadWrite_enoregRead hs hinr,
        sameMirror_write_iff hs.2.2.2, hhalf]
      simp only [wordAt_at, not_exists, not_and, not_not]
  · exact iff_of_true (fun _ => sameMirror_of_eq (hkeeps hs)) fun h => hs h.1

/-- But for function 23, what is stored is accepted. -/
theorem accepts_of_stores (hc : frame 0 ≠ mbFuncReadwriteMultipleRegisters)
    (h : Stores ctx frame usLen) : Accepts ctx frame usLen := by
  unfold Stores at h
  unfold Accepts
  split at h
  · simp only [‹(frame 0).toNat = _›]
    exact Or.inr h
  · simp only [‹(frame 0).toNat = _›]
    exact Or.inr h
  · simp only [‹(frame 0).toNat = _›]
    exact Or.inr h
  · simp only [‹(frame 0).toNat = _›]
    exact Or.inr h
  · simp only [‹(frame 0).toNat = _›]
    exact h
  · simp only [‹(frame 0).toNat = _›]
    exact h
  · simp only [‹(frame 0).toNat = _›]
    exact h
  · simp only [‹(frame 0).toNat = _›]
    exact h
  · exact absurd (BitVec.eq_of_toNat_eq ‹(frame 0).toNat = 23›) hc
  · exact h.elim

/-- The built-in handlers of the master. -/
theorem masterDispatch_atomic_iff :
    MasterAtomic app (masterDispatch ctx app frame usLen) ↔
      ¬ (frame 0 = mbFuncReadwriteMultipleRegisters ∧ MirrorHalfDone ctx app frame usLen) := by
  by_cases hc : frame 0 = mbFuncReadwriteMultipleRegisters
  · rw [masterDispatch_of hc rfl, eMBMasterFuncReadWrite_atomic_iff, and_iff_right hc]
  · obtain ⟨haccepts, hkeeps⟩ := masterDispatch_meets ctx app frame usLen
    refine iff_of_true (fun h => sameMirror_of_eq (hkeeps fun hs => ?_)) fun h => hc h.1
    exact h (haccepts.mpr (accepts_of_stores hc hs))

end Master

/-! ## Both sides -/

/-- An exception leaves coils, registers and mirror as before exactly if the request is not one
of function 23 that is half carried out. -/
theorem exceptions_atomic_iff (app : SlaveApp) (ctx : MasterCtx) (mapp : MasterApp) (frame : Buf)
    (usLen : Nat) :
    (SlaveAtomic app (slaveDispatch xFuncHandlers app frame usLen) ↔
        ¬ (frame 0 = mbFuncReadwriteMultipleRegisters ∧ HalfDone app frame usLen)) ∧
      (MasterAtomic mapp (masterDispatch ctx mapp frame usLen) ↔
        ¬ (frame 0 = mbFuncReadwriteMultipleRegisters ∧ MirrorHalfDone ctx mapp frame usLen)) :=
  ⟨slaveDispatch_atomic_iff, masterDispatch_atomic_iff⟩

/-- Function 23: read register 200, which no map has, and write 7 to register 0. -/
def readOutside : Buf := Mem.ofList [0x17, 0, 0xC8, 0, 1, 0, 0, 0, 1, 2, 0, 7] fun _ => 0

/-- The reply to it, with two data bytes. -/
def readOutsideReply : Buf := Mem.ofList [0x17, 2, 0, 5] fun _ => 0

/-- The slave refuses the request after register 0 was written, and so does the master with
the reply. -/
theorem exceptions_not_atomic :
    ¬ SlaveAtomic .initial (slaveDispatch xFuncHandlers .initial readOutside 12) ∧
      ¬ MasterAtomic .initial
        (masterDispatch ⟨1, false, readOutside⟩ .initial readOutsideReply 4) := by
  have hs : (slaveDispatch xFuncHandlers .initial readOutside 12).app.usSRegHoldBuf 0 = 7 := by
    decide
  have hm : (masterDispatch ⟨1, false, readOutside⟩ .initial readOutsideReply 4).app.usMRegHoldBuf
      0 = 7 := by decide
  refine ⟨fun h => ?_, fun h => ?_⟩
  · have hsame := congrFun (h (by decide)).2 0
    rw [hs] at hsame
    exact absurd hsame (by decide)
  · have hsame := congrFun (h (by decide)).2.2.2 0
    rw [hm] at hsame
    exact absurd hsame (by decide)

end FreeModbus
