import FreeModbus.Slave.Store

/-!
# What a request's effect depends on

A handler is local when two receive buffers that agree on the received bytes are
served alike: the same exception, the same registers and coils, the same reply.

The reads and the single writes take only bytes below the length they check.
The handlers of functions 15, 16 and 23 check the length of the header and take
the length of the data from a field inside it.  `Overread` says when such a
request passes every check with bytes announced that were not received.  That is
the only case where locality fails: two buffers that differ in the first missing
byte then leave different registers.
-/

namespace FreeModbus

open ByteMemory DataModel

/-- The effect of the handler depends on the first `usLen` bytes of the frame. -/
def Local (pxHandler : SlaveHandler) (app : SlaveApp) (frame : Buf) (usLen : Nat) : Prop :=
  ∀ frame', AgreeBelow usLen frame frame' →
    (pxHandler app frame usLen).answer = (pxHandler app frame' usLen).answer

/-- The checks of a multiple write pass. -/
abbrev writeOk (cntMax : Nat) (verify : UShort → UChar) (n : UShort) (ucByteCount : UChar) :
    Prop :=
  1 ≤ n.toNat ∧ n.toNat ≤ cntMax ∧ ucByteCount = verify n

/-- A multiple write that passes all checks and announces bytes behind the received
ones. -/
abbrev OverreadMultiple (cntMax size : Nat) (verify : UShort → UChar) (frame : Buf)
    (usLen : Nat) : Prop :=
  6 ≤ usLen ∧ writeOk cntMax verify (wordAt frame 3) (frame 5) ∧
    inRange (wordAt frame 1) (wordAt frame 3) 0 size ∧ usLen < 6 + (frame 5).toNat

/-- The same of function 23. -/
abbrev OverreadReadWrite (frame : Buf) (usLen : Nat) : Prop :=
  10 ≤ usLen ∧ readwriteOk (wordAt frame 3) (wordAt frame 7) (frame 9) ∧
    inRange (wordAt frame 5) (wordAt frame 7) sRegHoldingStart sRegHoldingNregs ∧
      usLen < 10 + (frame 9).toNat

/-- The handler of the code consumes bytes that were not received. -/
def Overread (code : UChar) (frame : Buf) (usLen : Nat) : Prop :=
  (code = mbFuncWriteMultipleCoils ∧
      OverreadMultiple mbPduFuncWriteMulCoilcntMax sCoilNcoils ucNBytes frame usLen) ∨
    (code = mbFuncWriteMultipleRegisters ∧
      OverreadMultiple mbPduFuncWriteMulRegcntMax sRegHoldingNregs
        (fun n => (2 * n).setWidth 8) frame usLen) ∨
    (code = mbFuncReadwriteMultipleRegisters ∧ OverreadReadWrite frame usLen)

/-- The codes of the data handlers. -/
def dataCodes : List UChar :=
  [mbFuncReadCoils, mbFuncReadDiscreteInputs, mbFuncReadHoldingRegister,
    mbFuncReadInputRegister, mbFuncWriteSingleCoil, mbFuncWriteRegister,
    mbFuncWriteMultipleCoils, mbFuncWriteMultipleRegisters, mbFuncReadwriteMultipleRegisters]

/-! ## Buffers that agree -/

section Agree

variable {usLen k : Nat} {frame frame' : Buf}

theorem wordAt_agree (h : AgreeBelow usLen frame frame') (hk : k + 2 ≤ usLen) :
    wordAt frame' k = wordAt frame k :=
  wordAt_congr (h k (by omega)).symm (h (k + 1) (by omega)).symm

theorem agree_at (h : AgreeBelow usLen frame frame') {n : Nat} (hk : k + n ≤ usLen) :
    AgreeBelow n (frame.at k) (frame'.at k) :=
  fun i _ => h (k + i) (by omega)

/-- A refusal looks the same whatever frame it leaves. -/
theorem answer_refused {app : SlaveApp} {e : MBException} (he : e ≠ .none) (usLen' : Nat) :
    (FuncResult.mk e frame usLen app).answer = (FuncResult.mk e frame' usLen' app).answer := by
  simp [FuncResult.answer, he]

/-- A reply inside the received bytes looks the same on both buffers. -/
theorem answer_echo {app : SlaveApp} (h : AgreeBelow usLen frame frame') (hk : k ≤ usLen) :
    (FuncResult.mk .none frame k app).answer = (FuncResult.mk .none frame' k app).answer := by
  have hs : slice frame 0 k = slice frame' 0 k := slice_congr fun i _ => by
    rw [Nat.zero_add]
    exact h i (by omega)
  simp [FuncResult.answer, hs]

/-- The buffer up to `k`, the byte `v` there, zeros behind it. -/
def cutAt (buf : Buf) (k : Nat) (v : UChar) : Buf := fun i =>
  if i < k then buf i else if i = k then v else 0

theorem cutAt_agree (buf : Buf) (k : Nat) (v : UChar) : AgreeBelow k buf (cutAt buf k v) := by
  intro i hi
  simp [cutAt, hi]

theorem cutAt_at {j : Nat} (h : j ≤ k) (buf : Buf) (v : UChar) :
    (cutAt buf k v).at j = cutAt (buf.at j) (k - j) v := by
  funext i
  simp only [Mem.at, cutAt, show (j + i < k) = (i < k - j) by simp; omega,
    show (j + i = k) = (i = k - j) by simp; omega]

end Agree

/-! ## Reads and single writes -/

/-- A read is local when its callback fills the buffer without looking at it. -/
theorem funcRead_local {code : UChar} {cntOk : UShort → Bool} {nBytes : UShort → UChar}
    {dataLen : UShort → Nat} {cb : SlaveApp → Buf → UShort → UShort → RegResult SlaveApp}
    {app : SlaveApp}
    (hcb : ∀ a n, cntOk n = true →
      (∃ g : Buf → Buf, (∀ buf, cb app buf (a + 1) n = ⟨.enoerr, g buf, app⟩) ∧
        ∀ buf buf', slice (g buf) 0 (dataLen n) = slice (g buf') 0 (dataLen n)) ∨
      ∀ buf, cb app buf (a + 1) n = ⟨.enoreg, buf, app⟩) (frame : Buf) (usLen : Nat) :
    Local (funcRead code cntOk nBytes dataLen cb) app frame usLen := by
  intro frame' h
  by_cases hlen : usLen = 5
  · subst hlen
    have ha : wordAt frame' 1 = wordAt frame 1 := wordAt_agree h (by omega)
    have hn : wordAt frame' 3 = wordAt frame 3 := wordAt_agree h (by omega)
    cases hok : cntOk (wordAt frame 3) with
    | false =>
      rw [funcRead_badCount _ _ _ hok, funcRead_badCount _ _ _ (hn ▸ hok)]
      exact answer_refused (by decide) _
    | true =>
      rcases hcb (wordAt frame 1) _ hok with ⟨g, hg, hslice⟩ | hno
      · have hp := fun buf => hslice buf frame
        obtain ⟨h1, h2, h3⟩ := funcRead_ok code nBytes dataLen rfl rfl hok hg hp
        obtain ⟨h1', h2', h3'⟩ := funcRead_ok code nBytes dataLen ha hn hok hg hp
        rw [answer_none h1 h3, answer_none h1' h3', h2, h2']
      · obtain ⟨h1, h2⟩ := funcRead_enoreg code nBytes dataLen rfl rfl hok hno
        obtain ⟨h1', h2'⟩ := funcRead_enoreg code nBytes dataLen ha hn hok hno
        rw [answer_illegal h1, answer_illegal h1', h2, h2']
  · rw [funcRead_badLen _ _ _ hlen, funcRead_badLen _ _ _ hlen]
    exact answer_refused (by decide) _

theorem eMBFuncReadCoils_local (app : SlaveApp) (frame : Buf) (usLen : Nat) :
    Local eMBFuncReadCoils app frame usLen := by
  apply funcRead_local
  intro a n hok
  have hcnt : 1 ≤ n.toNat ∧ n.toNat < 2000 := of_decide_eq_true hok
  by_cases h : inRange a n sCoilStart sCoilNcoils
  · refine Or.inl ⟨_, fun buf => eMBRegCoilsCB_read app buf a n h, fun buf buf' => ?_⟩
    rw [toNat_ucNBytes (by omega), slice_readBitsCB, slice_readBitsCB]
  · exact Or.inr fun buf => eMBRegCoilsCB_enoreg app buf a n .read h

theorem eMBFuncReadDiscreteInputs_local (app : SlaveApp) (frame : Buf) (usLen : Nat) :
    Local eMBFuncReadDiscreteInputs app frame usLen := by
  apply funcRead_local
  intro a n hok
  have hcnt : 1 ≤ n.toNat ∧ n.toNat < 2000 := of_decide_eq_true hok
  by_cases h : inRange a n sDiscreteInputStart sDiscreteInputNdiscretes
  · refine Or.inl ⟨_, fun buf => eMBRegDiscreteCB_eq app buf a n h, fun buf buf' => ?_⟩
    rw [toNat_ucNBytes (by omega), slice_readBitsCB, slice_readBitsCB]
  · exact Or.inr fun buf => eMBRegDiscreteCB_enoreg app buf a n h

theorem eMBFuncReadHoldingRegister_local (app : SlaveApp) (frame : Buf) (usLen : Nat) :
    Local eMBFuncReadHoldingRegister app frame usLen := by
  apply funcRead_local
  intro a n _
  by_cases h : inRange a n sRegHoldingStart sRegHoldingNregs
  · refine Or.inl ⟨_, fun buf => eMBRegHoldingCB_read app buf a n h, fun buf buf' => ?_⟩
    rw [Nat.mul_comm, slice_readRegs, slice_readRegs]
  · exact Or.inr fun buf => eMBRegHoldingCB_enoreg app buf a n .read h

theorem eMBFuncReadInputRegister_local (app : SlaveApp) (frame : Buf) (usLen : Nat) :
    Local eMBFuncReadInputRegister app frame usLen := by
  apply funcRead_local
  intro a n _
  by_cases h : inRange a n sRegInputStart sRegInputNregs
  · refine Or.inl ⟨_, fun buf => eMBRegInputCB_eq app buf a n h, fun buf buf' => ?_⟩
    rw [Nat.mul_comm, slice_readRegs, slice_readRegs]
  · exact Or.inr fun buf => eMBRegInputCB_enoreg app buf a n h

theorem eMBFuncWriteCoil_local (app : SlaveApp) (frame : Buf) (usLen : Nat) :
    Local eMBFuncWriteCoil app frame usLen := by
  intro frame' h
  by_cases hlen : usLen = 5
  · subst hlen
    have ha : wordAt frame' 1 = wordAt frame 1 := wordAt_agree h (by omega)
    have h3 : frame' 3 = frame 3 := (h 3 (by omega)).symm
    have h4 : frame' 4 = frame 4 := (h 4 (by omega)).symm
    by_cases hval : frame 4 = 0x00 ∧ (frame 3 = 0xFF ∨ frame 3 = 0x00)
    · have hv : frame 3 = if decide (frame 3 = 0xFF) then 0xFF else 0x00 := by
        rcases hval.2 with hff | h00
        · simp [hff]
        · simp [h00]
      by_cases hin : inRange (wordAt frame 1) 1 sCoilStart sCoilNcoils
      · rw [eMBFuncWriteCoil_ok rfl hv hval.1 hin,
          eMBFuncWriteCoil_ok ha (h3.trans hv) (h4.trans hval.1) hin]
        exact answer_echo h (Nat.le_refl 5)
      · rw [eMBFuncWriteCoil_enoreg rfl hv hval.1 hin,
          eMBFuncWriteCoil_enoreg ha (h3.trans hv) (h4.trans hval.1) hin]
        exact answer_refused (by decide) _
    · rw [eMBFuncWriteCoil_badValue hval, eMBFuncWriteCoil_badValue (by rwa [h3, h4])]
      exact answer_refused (by decide) _
  · rw [eMBFuncWriteCoil_badLen hlen, eMBFuncWriteCoil_badLen hlen]
    exact answer_refused (by decide) _

theorem eMBFuncWriteHoldingRegister_local (app : SlaveApp) (frame : Buf) (usLen : Nat) :
    Local eMBFuncWriteHoldingRegister app frame usLen := by
  intro frame' h
  by_cases hlen : usLen = 5
  · subst hlen
    have ha : wordAt frame' 1 = wordAt frame 1 := wordAt_agree h (by omega)
    by_cases hin : inRange (wordAt frame 1) 1 sRegHoldingStart sRegHoldingNregs
    · have hw : ∀ regs, writeRegs (frame'.at 3) 1 (wordAt frame 1).toNat regs 0 =
          writeRegs (frame.at 3) 1 (wordAt frame 1).toNat regs 0 := by
        intro regs
        apply writeRegs_congr
        intro j hj
        rw [Nat.zero_add]
        exact (h (3 + j) (by omega)).symm
      rw [eMBFuncWriteHoldingRegister_ok rfl hin, eMBFuncWriteHoldingRegister_ok ha hin, hw]
      exact answer_echo h (Nat.le_refl 5)
    · rw [eMBFuncWriteHoldingRegister_enoreg rfl hin, eMBFuncWriteHoldingRegister_enoreg ha hin]
      exact answer_refused (by decide) _
  · rw [eMBFuncWriteHoldingRegister_badLen hlen, eMBFuncWriteHoldingRegister_badLen hlen]
    exact answer_refused (by decide) _

/-! ## Multiple writes -/

section Multiple

variable {cntMax size : Nat} {verify : UShort → UChar}
  {cb : SlaveApp → Buf → UShort → UShort → RegResult SlaveApp}
  (upd : SlaveApp → Buf → UShort → UShort → SlaveApp) {app : SlaveApp} {frame : Buf}
  {usLen : Nat}

/-- A multiple write is local unless it overreads, when its callback takes as many bytes as
announced. -/
theorem funcWriteMultiple_local
    (hin : ∀ buf a n, inRange a n 0 size →
      cb app buf (a + 1) n = ⟨.enoerr, buf, upd app buf a n⟩)
    (hout : ∀ buf a n, ¬ inRange a n 0 size → cb app buf (a + 1) n = ⟨.enoreg, buf, app⟩)
    (hupd : ∀ buf buf' a n, inRange a n 0 size → AgreeBelow (verify n).toNat buf buf' →
      upd app buf a n = upd app buf' a n)
    (hover : ¬ OverreadMultiple cntMax size verify frame usLen) :
    Local (funcWriteMultiple 6 cntMax verify cb) app frame usLen := by
  intro frame' h
  by_cases hlen : 6 ≤ usLen
  · have ha : wordAt frame' 1 = wordAt frame 1 := wordAt_agree h (by omega)
    have hn : wordAt frame' 3 = wordAt frame 3 := wordAt_agree h (by omega)
    have hbc : frame' 5 = frame 5 := (h 5 (by omega)).symm
    by_cases hok : writeOk cntMax verify (wordAt frame 3) (frame 5)
    · by_cases hrange : inRange (wordAt frame 1) (wordAt frame 3) 0 size
      · have hall : 6 + (frame 5).toNat ≤ usLen :=
          Nat.le_of_not_lt fun hlt => hover ⟨hlen, hok, hrange, hlt⟩
        have hdata : AgreeBelow (verify (wordAt frame 3)).toNat (frame.at 6) (frame'.at 6) := by
          rw [← hok.2.2]
          exact agree_at h hall
        rw [funcWriteMultiple_ok hlen rfl rfl hok (hin _ _ _ hrange),
          funcWriteMultiple_ok hlen ha hn (hbc ▸ hok) (hin _ _ _ hrange),
          hupd _ _ _ _ hrange hdata]
        exact answer_echo h (by omega)
      · rw [funcWriteMultiple_enoreg hlen rfl rfl hok (hout _ _ _ hrange),
          funcWriteMultiple_enoreg hlen ha hn (hbc ▸ hok) (hout _ _ _ hrange)]
        exact answer_refused (by decide) _
    · rw [funcWriteMultiple_bad hlen hok,
        funcWriteMultiple_bad hlen (by rw [hn, hbc]; exact hok)]
      exact answer_refused (by decide) _
  · rw [funcWriteMultiple_short (by omega), funcWriteMultiple_short (by omega)]
    exact answer_refused (by decide) _

/-- A multiple write that overreads is not local, when its callback leaves different stores for
different bytes at each place below the announced number. -/
theorem funcWriteMultiple_not_local
    (hin : ∀ buf a n, inRange a n 0 size →
      cb app buf (a + 1) n = ⟨.enoerr, buf, upd app buf a n⟩)
    (hdiff : ∀ buf a n k, inRange a n 0 size → k < (verify n).toNat →
      (upd app (cutAt buf k 0) a n).store ≠ (upd app (cutAt buf k 1) a n).store)
    (hover : OverreadMultiple cntMax size verify frame usLen) :
    ¬ Local (funcWriteMultiple 6 cntMax verify cb) app frame usLen := by
  obtain ⟨hlen, hok, hrange, hlt⟩ := hover
  intro hlocal
  have hstore : ∀ v, (funcWriteMultiple 6 cntMax verify cb app frame usLen).answer.store =
      (upd app (cutAt (frame.at 6) (usLen - 6) v) (wordAt frame 1) (wordAt frame 3)).store := by
    intro v
    have h := cutAt_agree frame usLen v
    have ha : wordAt (cutAt frame usLen v) 1 = wordAt frame 1 := wordAt_agree h (by omega)
    have hn : wordAt (cutAt frame usLen v) 3 = wordAt frame 3 := wordAt_agree h (by omega)
    have hbc : cutAt frame usLen v 5 = frame 5 := (h 5 (by omega)).symm
    rw [hlocal _ h, funcWriteMultiple_ok hlen ha hn (hbc ▸ hok) (hin _ _ _ hrange),
      cutAt_at hlen]
    rfl
  have hk : usLen - 6 < (verify (wordAt frame 3)).toNat := by
    rw [← hok.2.2]
    omega
  exact hdiff _ _ _ _ hrange hk ((hstore 0).symm.trans (hstore 1))

end Multiple

/-- The data after a coil write. -/
def updCoils (app : SlaveApp) (buf : Buf) (a n : UShort) : SlaveApp :=
  { app with
    ucSCoilBuf := writeBitsCB buf (a.toNat / 8) (a.toNat % 8) n.toNat app.ucSCoilBuf }

/-- The data after a register write. -/
def updHoldings (app : SlaveApp) (buf : Buf) (a n : UShort) : SlaveApp :=
  { app with usSRegHoldBuf := writeRegs buf n.toNat a.toNat app.usSRegHoldBuf 0 }

section Differ

variable (app : SlaveApp) (buf : Buf) {a n : UShort} {k : Nat}

/-- The unused bits of the last byte are zero in a buffer cut below it. -/
theorem cutAt_pad {v : UChar} (hv : v = 0 ∨ v = 1) {m : Nat} (hk : k < byteCount m) :
    ∀ j, m ≤ j → j < 8 * byteCount m → bitAt (cutAt buf k v) j = false := by
  intro j hj hlt
  have hkj : 8 * k < j := by unfold byteCount at hk; omega
  unfold bitAt cutAt
  rw [if_neg (by omega)]
  by_cases heq : j / 8 = k
  · rw [if_pos heq]
    rcases hv with rfl | rfl
    · exact BitVec.getLsbD_zero
    · simp [BitVec.getLsbD_one, show j % 8 ≠ 0 by omega]
  · rw [if_neg heq]
    exact BitVec.getLsbD_zero

/-- The coil that a coil write takes from the byte `v` at which the buffer is cut. -/
theorem updCoils_cutAt {v : UChar} (hv : v = 0 ∨ v = 1) (h : inRange a n sCoilStart sCoilNcoils)
    (hk : k < byteCount n.toNat) :
    (updCoils app (cutAt buf k v) a n).store.coils.get (a.toNat + 8 * k) = v.getLsbD 0 := by
  have h8 : 8 * k < n.toNat := by unfold byteCount at hk; omega
  have hlt : a.toNat + 8 * k < sCoilNcoils := Nat.lt_of_lt_of_le (by omega) h.2
  have hbyte : bitAt (cutAt buf k v) (8 * k) = v.getLsbD 0 := by
    rw [bitAt, show 8 * k / 8 = k by omega, show 8 * k % 8 = 0 by omega]
    simp [cutAt]
  refine (bitCells_get (updCoils app (cutAt buf k v) a n).ucSCoilBuf hlt).trans ?_
  rw [updCoils, bitAt_writeBitsCB (cutAt_pad buf hv hk), if_pos (by omega),
    show a.toNat + 8 * k - (8 * (a.toNat / 8) + a.toNat % 8) = 8 * k by omega, hbyte]

theorem updCoils_differ (h : inRange a n sCoilStart sCoilNcoils) (hk : k < byteCount n.toNat) :
    (updCoils app (cutAt buf k 0) a n).store ≠ (updCoils app (cutAt buf k 1) a n).store := by
  intro heq
  have h1 := congrArg (fun s => s.coils.get (a.toNat + 8 * k)) heq
  simp only [updCoils_cutAt app buf (Or.inl rfl) h hk,
    updCoils_cutAt app buf (Or.inr rfl) h hk] at h1
  exact absurd h1 (by decide)

/-- The register that a register write takes from the word at which the buffer is cut. -/
theorem updHoldings_cutAt (v : UChar) (h : inRange a n sRegHoldingStart sRegHoldingNregs)
    (hk : k < 2 * n.toNat) :
    (updHoldings app (cutAt buf k v) a n).store.holdings.get (a.toNat + k / 2) =
      wordAt (cutAt buf k v) (2 * (k / 2)) := by
  have hlt : a.toNat + k / 2 < sRegHoldingNregs := Nat.lt_of_lt_of_le (by omega) h.2
  refine (wordCells_get (updHoldings app (cutAt buf k v) a n).usSRegHoldBuf hlt).trans ?_
  have hw := writeRegs_apply (cutAt buf k v) n.toNat a.toNat app.usSRegHoldBuf 0
    (a.toNat + k / 2)
  rwa [if_pos (by omega), Nat.zero_add, Nat.add_sub_cancel_left] at hw

theorem wordAt_cutAt_ne :
    wordAt (cutAt buf k 0) (2 * (k / 2)) ≠ wordAt (cutAt buf k 1) (2 * (k / 2)) := by
  intro heq
  have h1 := congrArg BitVec.toNat heq
  simp only [wordAt, wordOf_toNat] at h1
  rcases Nat.mod_two_eq_zero_or_one k with h | h
  · have hk : 2 * (k / 2) = k := by omega
    rw [hk] at h1
    simp [cutAt] at h1
  · have hk : 2 * (k / 2) + 1 = k := by omega
    rw [hk] at h1
    simp [cutAt, show 2 * (k / 2) < k by omega] at h1

theorem updHoldings_differ (h : inRange a n sRegHoldingStart sRegHoldingNregs)
    (hk : k < 2 * n.toNat) :
    (updHoldings app (cutAt buf k 0) a n).store ≠
      (updHoldings app (cutAt buf k 1) a n).store := by
  intro heq
  have h1 := congrArg (fun s => s.holdings.get (a.toNat + k / 2)) heq
  simp only [updHoldings_cutAt app buf _ h hk] at h1
  exact wordAt_cutAt_ne buf h1

end Differ

theorem eMBFuncWriteMultipleCoils_local (app : SlaveApp) (frame : Buf) (usLen : Nat) :
    Local eMBFuncWriteMultipleCoils app frame usLen ↔
      ¬ OverreadMultiple mbPduFuncWriteMulCoilcntMax sCoilNcoils ucNBytes frame usLen := by
  have hin := fun buf a n => eMBRegCoilsCB_write app buf a n
  have hbytes : ∀ a n, inRange a n sCoilStart sCoilNcoils →
      (ucNBytes n).toNat = byteCount n.toNat := by
    intro a n h
    have hn : a.toNat + n.toNat ≤ 64 := h.2
    exact toNat_ucNBytes (by omega)
  constructor
  · intro hlocal hover
    refine funcWriteMultiple_not_local updCoils hin ?_ hover hlocal
    intro buf a n k h hk
    rw [hbytes a n h] at hk
    exact updCoils_differ app buf h hk
  · intro hover
    refine funcWriteMultiple_local updCoils hin
      (fun buf a n => eMBRegCoilsCB_enoreg app buf a n .write) ?_ hover
    intro buf buf' a n h hagree
    rw [hbytes a n h] at hagree
    rw [updCoils, updCoils, writeBitsCB_congr hagree]

theorem eMBFuncWriteMultipleHoldingRegister_local (app : SlaveApp) (frame : Buf) (usLen : Nat) :
    Local eMBFuncWriteMultipleHoldingRegister app frame usLen ↔
      ¬ OverreadMultiple mbPduFuncWriteMulRegcntMax sRegHoldingNregs
        (fun n => (2 * n).setWidth 8) frame usLen := by
  have hin := fun buf a n => eMBRegHoldingCB_write app buf a n
  have hbytes : ∀ a n : UShort, inRange a n sRegHoldingStart sRegHoldingNregs →
      ((2 * n).setWidth 8 : UChar).toNat = 2 * n.toNat := by
    intro a n h
    have hn : a.toNat + n.toNat ≤ 100 := h.2
    rw [BitVec.mul_comm, setWidth_mul_two, BitVec.toNat_ofNat]
    omega
  constructor
  · intro hlocal hover
    refine funcWriteMultiple_not_local updHoldings hin ?_ hover hlocal
    intro buf a n k h hk
    rw [hbytes a n h] at hk
    exact updHoldings_differ app buf h hk
  · intro hover
    refine funcWriteMultiple_local updHoldings hin
      (fun buf a n => eMBRegHoldingCB_enoreg app buf a n .write) ?_ hover
    intro buf buf' a n h hagree
    rw [hbytes a n h] at hagree
    rw [updHoldings, updHoldings, writeRegs_congr]
    intro j hj
    rw [Nat.zero_add]
    exact hagree j hj

/-! ## Read and write -/

/-- Function 23 with its write range inside the map has written, whatever becomes of the
read. -/
theorem eMBFuncReadWrite_app (app : SlaveApp) {frame : Buf} {usLen : Nat} (hlen : 10 ≤ usLen)
    {wa wn : UShort} (hwa : wordAt frame 5 = wa) (hwn : wordAt frame 7 = wn)
    (hok : readwriteOk (wordAt frame 3) wn (frame 9))
    (hin : inRange wa wn sRegHoldingStart sRegHoldingNregs) :
    (eMBFuncReadWriteMultipleHoldingRegister app frame usLen).app =
      updHoldings app (frame.at 10) wa wn := by
  by_cases hinr : inRange (wordAt frame 1) (wordAt frame 3) sRegHoldingStart sRegHoldingNregs
  · exact (eMBFuncReadWrite_ok app hlen rfl rfl hwa hwn hok hin hinr).2.1
  · exact (eMBFuncReadWrite_enoregRead app hlen rfl rfl hwa hwn hok hin hinr).2

theorem eMBFuncReadWrite_not_local {app : SlaveApp} {frame : Buf} {usLen : Nat}
    (hover : OverreadReadWrite frame usLen) :
    ¬ Local eMBFuncReadWriteMultipleHoldingRegister app frame usLen := by
  obtain ⟨hlen, hok, hrange, hlt⟩ := hover
  intro hlocal
  have hstore : ∀ v,
      (eMBFuncReadWriteMultipleHoldingRegister app frame usLen).answer.store =
        (updHoldings app (cutAt (frame.at 10) (usLen - 10) v) (wordAt frame 5)
          (wordAt frame 7)).store := by
    intro v
    have h := cutAt_agree frame usLen v
    have hrn : wordAt (cutAt frame usLen v) 3 = wordAt frame 3 := wordAt_agree h (by omega)
    have hwa : wordAt (cutAt frame usLen v) 5 = wordAt frame 5 := wordAt_agree h (by omega)
    have hwn : wordAt (cutAt frame usLen v) 7 = wordAt frame 7 := wordAt_agree h (by omega)
    have hbc : cutAt frame usLen v 9 = frame 9 := (h 9 (by omega)).symm
    have happ := eMBFuncReadWrite_app app hlen hwa hwn (by rwa [hrn, hbc]) hrange
    rw [hlocal _ h, FuncResult.answer, happ, cutAt_at hlen]
  have hbytes : 2 * (wordAt frame 7).toNat = (frame 9).toNat := hok.2.2.2.2
  exact updHoldings_differ app (frame.at 10) hrange (by omega : usLen - 10 < _)
    ((hstore 0).symm.trans (hstore 1))

theorem eMBFuncReadWrite_local {app : SlaveApp} {frame : Buf} {usLen : Nat}
    (hover : ¬ OverreadReadWrite frame usLen) :
    Local eMBFuncReadWriteMultipleHoldingRegister app frame usLen := by
  intro frame' h
  by_cases hlen : 10 ≤ usLen
  · have hra : wordAt frame' 1 = wordAt frame 1 := wordAt_agree h (by omega)
    have hrn : wordAt frame' 3 = wordAt frame 3 := wordAt_agree h (by omega)
    have hwa : wordAt frame' 5 = wordAt frame 5 := wordAt_agree h (by omega)
    have hwn : wordAt frame' 7 = wordAt frame 7 := wordAt_agree h (by omega)
    have hbc : frame' 9 = frame 9 := (h 9 (by omega)).symm
    by_cases hok : readwriteOk (wordAt frame 3) (wordAt frame 7) (frame 9)
    · by_cases hin : inRange (wordAt frame 5) (wordAt frame 7) sRegHoldingStart sRegHoldingNregs
      · have hall : 10 + (frame 9).toNat ≤ usLen :=
          Nat.le_of_not_lt fun hlt => hover ⟨hlen, hok, hin, hlt⟩
        have hbytes : 2 * (wordAt frame 7).toNat = (frame 9).toNat := hok.2.2.2.2
        have hw : writeRegs (frame'.at 10) (wordAt frame 7).toNat (wordAt frame 5).toNat
            app.usSRegHoldBuf 0 =
            writeRegs (frame.at 10) (wordAt frame 7).toNat (wordAt frame 5).toNat
              app.usSRegHoldBuf 0 := by
          apply writeRegs_congr
          intro j hj
          rw [Nat.zero_add]
          exact (h (10 + j) (by omega)).symm
        by_cases hinr : inRange (wordAt frame 1) (wordAt frame 3) sRegHoldingStart
            sRegHoldingNregs
        · obtain ⟨h1, h2, h3⟩ := eMBFuncReadWrite_ok app hlen rfl rfl rfl rfl hok hin hinr
          obtain ⟨h1', h2', h3'⟩ := eMBFuncReadWrite_ok app hlen hra hrn hwa hwn
            (hbc ▸ hok) hin hinr
          rw [answer_none h1 h3, answer_none h1' h3', h2, h2', hw]
        · obtain ⟨h1, h2⟩ := eMBFuncReadWrite_enoregRead app hlen rfl rfl rfl rfl hok hin
            hinr
          obtain ⟨h1', h2'⟩ := eMBFuncReadWrite_enoregRead app hlen hra hrn hwa hwn
            (hbc ▸ hok) hin hinr
          rw [answer_illegal h1, answer_illegal h1', h2, h2', hw]
      · rw [eMBFuncReadWrite_enoregWrite app hlen rfl rfl hok hin,
          eMBFuncReadWrite_enoregWrite app hlen hwa hwn (by rwa [hrn, hbc]) hin]
        exact answer_refused (by decide) _
    · rw [eMBFuncReadWrite_bad app hlen hok, eMBFuncReadWrite_bad app hlen (by rwa [hrn, hwn, hbc])]
      exact answer_refused (by decide) _
  · rw [eMBFuncReadWrite_short app (by omega), eMBFuncReadWrite_short app (by omega)]
    exact answer_echo h (Nat.le_refl usLen)

/-! ## All data handlers -/

theorem not_overread_of_ne {code : UChar} {frame : Buf} {usLen : Nat}
    (h15 : code ≠ mbFuncWriteMultipleCoils) (h16 : code ≠ mbFuncWriteMultipleRegisters)
    (h23 : code ≠ mbFuncReadwriteMultipleRegisters) : ¬ Overread code frame usLen := by
  rintro (⟨h, -⟩ | ⟨h, -⟩ | ⟨h, -⟩)
  · exact h15 h
  · exact h16 h
  · exact h23 h

theorem overread_coils {frame : Buf} {usLen : Nat}
    (h : Overread mbFuncWriteMultipleCoils frame usLen) :
    OverreadMultiple mbPduFuncWriteMulCoilcntMax sCoilNcoils ucNBytes frame usLen := by
  rcases h with ⟨-, h⟩ | ⟨h, -⟩ | ⟨h, -⟩
  · exact h
  · exact absurd h (by decide)
  · exact absurd h (by decide)

theorem overread_holdings {frame : Buf} {usLen : Nat}
    (h : Overread mbFuncWriteMultipleRegisters frame usLen) :
    OverreadMultiple mbPduFuncWriteMulRegcntMax sRegHoldingNregs (fun n => (2 * n).setWidth 8)
      frame usLen := by
  rcases h with ⟨h, -⟩ | ⟨-, h⟩ | ⟨h, -⟩
  · exact absurd h (by decide)
  · exact h
  · exact absurd h (by decide)

theorem overread_readWrite {frame : Buf} {usLen : Nat}
    (h : Overread mbFuncReadwriteMultipleRegisters frame usLen) :
    OverreadReadWrite frame usLen := by
  rcases h with ⟨h, -⟩ | ⟨h, -⟩ | ⟨-, h⟩
  · exact absurd h (by decide)
  · exact absurd h (by decide)
  · exact h

/-- The effect of a data handler depends on the received bytes alone unless it consumes bytes
that were not received. -/
theorem local_iff {code : UChar} {pxHandler : SlaveHandler} (hcode : code ∈ dataCodes)
    (hfind : findHandler code xFuncHandlers = some pxHandler) (app : SlaveApp) (frame : Buf)
    (usLen : Nat) : Local pxHandler app frame usLen ↔ ¬ Overread code frame usLen := by
  simp only [dataCodes, List.mem_cons, List.not_mem_nil, or_false] at hcode
  rcases hcode with rfl | rfl | rfl | rfl | rfl | rfl | rfl | rfl | rfl
  · obtain rfl : eMBFuncReadCoils = pxHandler := Option.some.inj hfind
    exact iff_of_true (eMBFuncReadCoils_local app frame usLen)
      (not_overread_of_ne (by decide) (by decide) (by decide))
  · obtain rfl : eMBFuncReadDiscreteInputs = pxHandler := Option.some.inj hfind
    exact iff_of_true (eMBFuncReadDiscreteInputs_local app frame usLen)
      (not_overread_of_ne (by decide) (by decide) (by decide))
  · obtain rfl : eMBFuncReadHoldingRegister = pxHandler := Option.some.inj hfind
    exact iff_of_true (eMBFuncReadHoldingRegister_local app frame usLen)
      (not_overread_of_ne (by decide) (by decide) (by decide))
  · obtain rfl : eMBFuncReadInputRegister = pxHandler := Option.some.inj hfind
    exact iff_of_true (eMBFuncReadInputRegister_local app frame usLen)
      (not_overread_of_ne (by decide) (by decide) (by decide))
  · obtain rfl : eMBFuncWriteCoil = pxHandler := Option.some.inj hfind
    exact iff_of_true (eMBFuncWriteCoil_local app frame usLen)
      (not_overread_of_ne (by decide) (by decide) (by decide))
  · obtain rfl : eMBFuncWriteHoldingRegister = pxHandler := Option.some.inj hfind
    exact iff_of_true (eMBFuncWriteHoldingRegister_local app frame usLen)
      (not_overread_of_ne (by decide) (by decide) (by decide))
  · obtain rfl : eMBFuncWriteMultipleCoils = pxHandler := Option.some.inj hfind
    rw [eMBFuncWriteMultipleCoils_local]
    exact not_congr ⟨fun h => Or.inl ⟨rfl, h⟩, overread_coils⟩
  · obtain rfl : eMBFuncWriteMultipleHoldingRegister = pxHandler := Option.some.inj hfind
    rw [eMBFuncWriteMultipleHoldingRegister_local]
    exact not_congr ⟨fun h => Or.inr (Or.inl ⟨rfl, h⟩), overread_holdings⟩
  · obtain rfl : eMBFuncReadWriteMultipleHoldingRegister = pxHandler := Option.some.inj hfind
    constructor
    · intro hlocal hover
      exact eMBFuncReadWrite_not_local (overread_readWrite hover) hlocal
    · intro hover
      exact eMBFuncReadWrite_local fun h => hover (Or.inr (Or.inr ⟨rfl, h⟩))

/-- A write of one coil whose data byte was not received takes whatever lies there. -/
theorem eMBFuncWriteMultipleCoils_overread :
    let frame : UChar → Buf := fun v => Mem.ofList [15, 0, 0, 0, 1, 1, v] fun _ => 0
    AgreeBelow 6 (frame 0) (frame 1) ∧
      (eMBFuncWriteMultipleCoils .initial (frame 0) 6).answer ≠
        (eMBFuncWriteMultipleCoils .initial (frame 1) 6).answer := by
  constructor
  · unfold AgreeBelow
    decide
  · intro h
    have hcoil := congrArg (fun answer => answer.store.coils.get 0) h
    exact absurd hcoil (by decide)

/-- The same request with its data byte received. -/
theorem local_iff_received :
    Local eMBFuncWriteMultipleCoils .initial (Mem.ofList [15, 0, 0, 0, 1, 1, 1] fun _ => 0) 7 :=
  (local_iff (show (15 : UChar) ∈ dataCodes by decide) rfl .initial _ 7).mpr (by
    rintro (⟨-, -, -, -, h⟩ | ⟨h, -⟩ | ⟨h, -⟩)
    · exact absurd h (by decide)
    · exact absurd h (by decide)
    · exact absurd h (by decide))

end FreeModbus
