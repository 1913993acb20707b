import FreeModbus.Slave.Locality

/-!
# The replies of the slave

A request of one of the data functions is refused with exception 2 or 3, or answered
by a reply of the function's layout: code, byte count and data for what is read, the
first five bytes of the request for what is only written.

What a request has to have is said by its layout: a header, and behind the byte count,
where there is one, as many bytes of data.  The handlers check the length of the header
alone.  So a request that ends before its data is answered like a whole one, if it
passes the checks, and the handler of function 23, which has no branch for a request
below its header, sends that one back as it came.
-/

namespace FreeModbus

open ByteMemory

/-- The functions that reply with data. -/
def readCodes : List UChar :=
  [mbFuncReadCoils, mbFuncReadDiscreteInputs, mbFuncReadHoldingRegister, mbFuncReadInputRegister,
    mbFuncReadwriteMultipleRegisters]

/-- The functions that repeat the start of the request. -/
def writeCodes : List UChar :=
  [mbFuncWriteSingleCoil, mbFuncWriteRegister, mbFuncWriteMultipleCoils,
    mbFuncWriteMultipleRegisters]

/-- The length of a request by its layout: up to the byte count and the data that it announces,
or code, address and one more word. -/
def requestSize (code : UChar) (frame : Buf) : Nat :=
  if code = mbFuncWriteMultipleCoils ∨ code = mbFuncWriteMultipleRegisters then
    mbPduFuncWriteMulValuesOff + (frame mbPduFuncWriteMulBytecntOff).toNat
  else if code = mbFuncReadwriteMultipleRegisters then
    mbPduFuncReadwriteWriteValuesOff + (frame mbPduFuncReadwriteBytecntOff).toNat
  else mbPduFuncReadCntOff + 2

/-- The number of data bytes in the reply to a read of `q` items. -/
def replyBytes (code : UChar) (q : UShort) : Nat :=
  if code = mbFuncReadCoils ∨ code = mbFuncReadDiscreteInputs then byteCount q.toNat
  else 2 * q.toNat

/-- The first `usLen` bytes of the frame are a normal reply to the request in `frame`. -/
inductive NormalReply (frame : Buf) (res : FuncResult SlaveApp) : Prop where
  | data : frame 0 ∈ readCodes → res.pucFrame 0 = frame 0 →
      (res.pucFrame 1).toNat = replyBytes (frame 0) (wordAt frame 3) →
      res.usLen = 2 + (res.pucFrame 1).toNat → NormalReply frame res
  | echo : frame 0 ∈ writeCodes → res.usLen = 5 → slice res.pucFrame 0 5 = slice frame 0 5 →
      NormalReply frame res

/-- A request is refused, or gets a normal reply. -/
inductive Replied (frame : Buf) (res : FuncResult SlaveApp) : Prop where
  | refused : res.eStatus = .illegalDataAddress ∨ res.eStatus = .illegalDataValue →
      Replied frame res
  | normal : res.eStatus = .none → NormalReply frame res → Replied frame res

/-- A request of `usLen` bytes is refused or answered, and one that is too short for its function
is not answered. -/
structure Answered (frame : Buf) (usLen : Nat) (res : FuncResult SlaveApp) : Prop where
  replied : Replied frame res
  notShort : usLen < requestSize (frame 0) frame → res.eStatus ≠ .none

/-- The request is of function 23 and shorter than its header, or it passes all checks of its
handler and ends before the data that it announces. -/
def ShortAccepted (frame : Buf) (usLen : Nat) : Prop :=
  (frame 0 = mbFuncReadwriteMultipleRegisters ∧ usLen < mbPduFuncReadwriteWriteValuesOff) ∨
    (Overread (frame 0) frame usLen ∧ (frame 0 = mbFuncReadwriteMultipleRegisters →
      inRange (wordAt frame 1) (wordAt frame 3) sRegHoldingStart sRegHoldingNregs))

/-! ## Refusals -/

/-- A callback that knows no other error than a range outside its map. -/
def RangeError (cb : SlaveApp → Buf → UShort → UShort → RegResult SlaveApp) : Prop :=
  ∀ app buf a n, (cb app buf a n).eStatus = .enoerr ∨ (cb app buf a n).eStatus = .enoreg

theorem eMBRegInputCB_error : RangeError eMBRegInputCB := by
  intro app buf a n
  unfold eMBRegInputCB
  dsimp only
  split
  · exact Or.inl rfl
  · exact Or.inr rfl

theorem eMBRegHoldingCB_error (eMode : MBRegisterMode) :
    RangeError fun app buf a n => eMBRegHoldingCB app buf a n eMode := by
  intro app buf a n
  unfold eMBRegHoldingCB
  dsimp only
  split
  · cases eMode with
    | read => exact Or.inl rfl
    | write => exact Or.inl rfl
  · exact Or.inr rfl

theorem eMBRegCoilsCB_error (eMode : MBRegisterMode) :
    RangeError fun app buf a n => eMBRegCoilsCB app buf a n eMode := by
  intro app buf a n
  unfold eMBRegCoilsCB
  dsimp only
  split
  · cases eMode with
    | read => exact Or.inl rfl
    | write => exact Or.inl rfl
  · exact Or.inr rfl

theorem eMBRegDiscreteCB_error : RangeError eMBRegDiscreteCB := by
  intro app buf a n
  unfold eMBRegDiscreteCB
  dsimp only
  split
  · exact Or.inl rfl
  · exact Or.inr rfl

/-- A write leaves the message buffer. -/
theorem eMBRegHoldingCB_write_buf (app : SlaveApp) (buf : Buf) (a n : UShort) :
    (eMBRegHoldingCB app buf a n .write).pucRegBuffer = buf := by
  unfold eMBRegHoldingCB
  dsimp only
  split
  · rfl
  · rfl

/-- The byte count of a register reply. -/
theorem regCount_toNat {n : UShort} (h : n.toNat ≤ 0x7D) :
    ((n * 2).setWidth 8 : UChar).toNat = 2 * n.toNat := by
  rw [setWidth_mul_two, BitVec.toNat_ofNat]
  omega

section Replies

variable {frame frame' : Buf} {usLen : Nat} {app : SlaveApp}

theorem replied_illegalDataValue :
    Replied frame ⟨.illegalDataValue, frame', usLen, app⟩ := .refused (Or.inr rfl)

/-- The error of a callback is exception 2. -/
theorem replied_error {e : MBErrorCode} (he : e = .enoerr ∨ e = .enoreg) (hne : e ≠ .enoerr) :
    Replied frame ⟨prveMBError2Exception e, frame', usLen, app⟩ := by
  rcases he with rfl | rfl
  · exact absurd rfl hne
  · exact .refused (Or.inl rfl)

/-- Code, byte count and as many bytes of data. -/
theorem replied_data {code nBytes : UChar} {dataLen : Nat} {base buf : Buf}
    (hcode : frame 0 = code) (hread : code ∈ readCodes)
    (hcount : nBytes.toNat = replyBytes code (wordAt frame 3))
    (hdata : dataLen = replyBytes code (wordAt frame 3)) :
    Replied frame ⟨.none,
      Mem.splice (Function.update (Function.update base 0 code) 1 nBytes) 2 buf, 2 + dataLen,
      app⟩ := by
  have h0 : Mem.splice (Function.update (Function.update base 0 code) 1 nBytes) 2 buf 0 = code := by
    rw [Mem.splice_lt (by decide), Function.update_of_ne (by decide), Function.update_self]
  have h1 : Mem.splice (Function.update (Function.update base 0 code) 1 nBytes) 2 buf 1 =
      nBytes := by
    rw [Mem.splice_lt (by decide), Function.update_self]
  subst hcode
  have hbytes := (congrArg BitVec.toNat h1).trans hcount
  exact .normal rfl (.data hread h0 hbytes (congrArg (2 + ·) (hdata.trans hbytes.symm)))

/-- A reply that repeats the first five bytes of the request. -/
theorem replied_echo (hwrite : frame 0 ∈ writeCodes) (h : AgreeBelow 5 frame' frame) :
    Replied frame ⟨.none, frame', 5, app⟩ := by
  refine .normal rfl (.echo hwrite rfl (slice_congr fun i hi => ?_))
  rw [Nat.zero_add]
  exact h i hi

/-! ## Handlers -/

theorem funcRead_replied {code : UChar} {cntOk : UShort → Bool} {nBytes : UShort → UChar}
    {dataLen : UShort → Nat} {cb : SlaveApp → Buf → UShort → UShort → RegResult SlaveApp}
    (hcode : frame 0 = code) (hread : code ∈ readCodes) (hcb : RangeError cb)
    (hbytes : ∀ n, cntOk n = true → (nBytes n).toNat = replyBytes code n ∧
      dataLen n = replyBytes code n) :
    Replied frame (funcRead code cntOk nBytes dataLen cb app frame usLen) := by
  unfold funcRead
  split
  · rename_i hlen
    dsimp only
    split
    · rename_i hok
      obtain ⟨hcount, hlength⟩ := hbytes _ hok
      split
      · exact replied_error (hcb _ _ _ _) ‹_›
      · exact replied_data hcode hread hcount hlength
    · exact replied_illegalDataValue
  · exact replied_illegalDataValue

theorem eMBFuncWriteCoil_replied (hcode : frame 0 = mbFuncWriteSingleCoil) :
    Replied frame (eMBFuncWriteCoil app frame usLen) := by
  unfold eMBFuncWriteCoil
  split
  · rename_i hlen
    dsimp only
    split
    · split
      · exact replied_error (eMBRegCoilsCB_error .write _ _ _ _) ‹_›
      · rw [hlen]
        exact replied_echo (hcode ▸ by decide) fun i _ => rfl
    · exact replied_illegalDataValue
  · exact replied_illegalDataValue

theorem eMBFuncWriteHoldingRegister_replied (hcode : frame 0 = mbFuncWriteRegister) :
    Replied frame (eMBFuncWriteHoldingRegister app frame usLen) := by
  unfold eMBFuncWriteHoldingRegister
  split
  · rename_i hlen
    dsimp only
    split
    · exact replied_error (eMBRegHoldingCB_error .write _ _ _ _) ‹_›
    · rename_i hst
      rw [hlen]
      refine replied_echo (hcode ▸ by decide) ?_
      rw [eMBRegHoldingCB_write_buf, Mem.splice_at]
      exact fun i _ => rfl
  · exact replied_illegalDataValue

theorem funcWriteMultiple_replied {code : UChar} {usLenMin cntMax : Nat}
    {verify : UShort → UChar} {cb : SlaveApp → Buf → UShort → UShort → RegResult SlaveApp}
    (hcode : frame 0 = code) (hwrite : code ∈ writeCodes) (hcb : RangeError cb) :
    Replied frame (funcWriteMultiple usLenMin cntMax verify cb app frame usLen) := by
  subst hcode
  unfold funcWriteMultiple
  split
  · dsimp only
    split
    · split
      · exact replied_error (hcb _ _ _ _) ‹_›
      · exact replied_echo hwrite fun i hi => Mem.splice_lt (Nat.lt_of_lt_of_le hi (by decide))
    · exact replied_illegalDataValue
  · exact replied_illegalDataValue

/-- Function 23 with a request that has its header. -/
theorem eMBFuncReadWrite_replied (hcode : frame 0 = mbFuncReadwriteMultipleRegisters)
    (hlen : 10 ≤ usLen) :
    Replied frame (eMBFuncReadWriteMultipleHoldingRegister app frame usLen) := by
  unfold eMBFuncReadWriteMultipleHoldingRegister
  split
  · dsimp only
    split
    · rename_i hok
      have hcnt : (wordAt frame 3).toNat ≤ 0x7D := hok.2.1
      split
      · split
        · exact replied_data hcode (by decide) (regCount_toNat hcnt) rfl
        · exact replied_error (eMBRegHoldingCB_error .read _ _ _ _) ‹_›
      · exact replied_error (eMBRegHoldingCB_error .write _ _ _ _) ‹_›
    · exact replied_illegalDataValue
  · exact absurd hlen ‹_›

end Replies

/-! ## Requests that are too short -/

section Short

variable {frame : Buf} {usLen : Nat} {app : SlaveApp}

/-- A read that is answered has its five bytes. -/
theorem funcRead_len {code : UChar} {cntOk : UShort → Bool} {nBytes : UShort → UChar}
    {dataLen : UShort → Nat} {cb : SlaveApp → Buf → UShort → UShort → RegResult SlaveApp}
    (h : (funcRead code cntOk nBytes dataLen cb app frame usLen).eStatus = .none) : usLen = 5 := by
  by_contra hlen
  rw [funcRead_badLen _ _ _ hlen] at h
  cases h

theorem eMBFuncWriteCoil_len (h : (eMBFuncWriteCoil app frame usLen).eStatus = .none) :
    usLen = 5 := by
  by_contra hlen
  rw [eMBFuncWriteCoil_badLen hlen] at h
  cases h

theorem eMBFuncWriteHoldingRegister_len
    (h : (eMBFuncWriteHoldingRegister app frame usLen).eStatus = .none) : usLen = 5 := by
  by_contra hlen
  rw [eMBFuncWriteHoldingRegister_badLen hlen] at h
  cases h

/-- A multiple write is answered when it passes the checks. -/
theorem funcWriteMultiple_none_iff {cntMax size : Nat} {verify : UShort → UChar}
    {cb : SlaveApp → Buf → UShort → UShort → RegResult SlaveApp}
    (upd : SlaveApp → Buf → UShort → UShort → SlaveApp)
    (hin : ∀ buf a n, inRange a n 0 size →
      cb app buf (a + 1) n = ⟨.enoerr, buf, upd app buf a n⟩)
    (hout : ∀ buf a n, ¬ inRange a n 0 size → cb app buf (a + 1) n = ⟨.enoreg, buf, app⟩) :
    (funcWriteMultiple 6 cntMax verify cb app frame usLen).eStatus = .none ↔
      6 ≤ usLen ∧ writeOk cntMax verify (wordAt frame 3) (frame 5) ∧
        inRange (wordAt frame 1) (wordAt frame 3) 0 size := by
  by_cases hlen : 6 ≤ usLen
  · by_cases hok : writeOk cntMax verify (wordAt frame 3) (frame 5)
    · by_cases hrange : inRange (wordAt frame 1) (wordAt frame 3) 0 size
      · rw [funcWriteMultiple_ok hlen rfl rfl hok (hin _ _ _ hrange)]
        exact iff_of_true rfl ⟨hlen, hok, hrange⟩
      · rw [funcWriteMultiple_enoreg hlen rfl rfl hok (hout _ _ _ hrange)]
        exact iff_of_false nofun fun h => hrange h.2.2
    · rw [funcWriteMultiple_bad hlen hok]
      exact iff_of_false nofun fun h => hok h.2.1
  · rw [funcWriteMultiple_short (Nat.lt_of_not_le hlen)]
    exact iff_of_false nofun fun h => hlen h.1

/-- Function 23 is answered when its header is not there, or when it passes the checks. -/
theorem eMBFuncReadWrite_none_iff :
    (eMBFuncReadWriteMultipleHoldingRegister app frame usLen).eStatus = .none ↔
      usLen < 10 ∨ (10 ≤ usLen ∧ readwriteOk (wordAt frame 3) (wordAt frame 7) (frame 9) ∧
        inRange (wordAt frame 5) (wordAt frame 7) sRegHoldingStart sRegHoldingNregs ∧
        inRange (wordAt frame 1) (wordAt frame 3) sRegHoldingStart sRegHoldingNregs) := by
  by_cases hlen : 10 ≤ usLen
  · rw [or_iff_right (Nat.not_lt.mpr hlen)]
    by_cases hok : readwriteOk (wordAt frame 3) (wordAt frame 7) (frame 9)
    · by_cases hin : inRange (wordAt frame 5) (wordAt frame 7) sRegHoldingStart sRegHoldingNregs
      · by_cases hinr : inRange (wordAt frame 1) (wordAt frame 3) sRegHoldingStart
            sRegHoldingNregs
        · exact iff_of_true (eMBFuncReadWrite_ok app hlen rfl rfl rfl rfl hok hin hinr).1
            ⟨hlen, hok, hin, hinr⟩
        · rw [(eMBFuncReadWrite_enoregRead app hlen rfl rfl rfl rfl hok hin hinr).1]
          exact iff_of_false nofun fun h => hinr h.2.2.2
      · rw [eMBFuncReadWrite_enoregWrite app hlen rfl rfl hok hin]
        exact iff_of_false nofun fun h => hin h.2.2.1
    · rw [eMBFuncReadWrite_bad app hlen hok]
      exact iff_of_false nofun fun h => hok h.2.1
  · rw [eMBFuncReadWrite_short app (Nat.lt_of_not_le hlen)]
    exact iff_of_true rfl (Or.inl (Nat.lt_of_not_le hlen))

/-- A request of a function with five bytes that is answered is not too short. -/
theorem not_short_of_len {code : UChar} (hcode : frame 0 = code) (hlen : usLen = 5)
    (hsize : requestSize code frame = 5) : ¬ usLen < requestSize (frame 0) frame := by
  rw [hcode, hsize]
  exact Nat.not_lt.mpr hlen.ge

/-- A request of another function than 15, 16 and 23 does not end before its data. -/
theorem not_shortAccepted {code : UChar} (hcode : frame 0 = code)
    (h15 : code ≠ mbFuncWriteMultipleCoils) (h16 : code ≠ mbFuncWriteMultipleRegisters)
    (h23 : code ≠ mbFuncReadwriteMultipleRegisters) : ¬ ShortAccepted frame usLen := by
  rintro (⟨h, -⟩ | ⟨h, -⟩)
  · exact h23 (hcode.symm.trans h)
  · rw [hcode] at h
    exact not_overread_of_ne h15 h16 h23 h

/-- A multiple write that is too short is answered when it passes the checks. -/
theorem funcWriteMultiple_short_iff {cntMax size : Nat} {verify : UShort → UChar}
    {cb : SlaveApp → Buf → UShort → UShort → RegResult SlaveApp}
    (upd : SlaveApp → Buf → UShort → UShort → SlaveApp)
    (hin : ∀ buf a n, inRange a n 0 size →
      cb app buf (a + 1) n = ⟨.enoerr, buf, upd app buf a n⟩)
    (hout : ∀ buf a n, ¬ inRange a n 0 size → cb app buf (a + 1) n = ⟨.enoreg, buf, app⟩) :
    usLen < 6 + (frame 5).toNat ∧
        (funcWriteMultiple 6 cntMax verify cb app frame usLen).eStatus = .none ↔
      OverreadMultiple cntMax size verify frame usLen := by
  rw [funcWriteMultiple_none_iff upd hin hout]
  constructor
  · rintro ⟨hlt, hlen, hok, hrange⟩
    exact ⟨hlen, hok, hrange, hlt⟩
  · rintro ⟨hlen, hok, hrange, hlt⟩
    exact ⟨hlt, hlen, hok, hrange⟩

theorem writeMultipleCoils_short_iff (hcode : frame 0 = mbFuncWriteMultipleCoils) :
    usLen < requestSize (frame 0) frame ∧
        (eMBFuncWriteMultipleCoils app frame usLen).eStatus = .none ↔
      ShortAccepted frame usLen := by
  have hsize : requestSize mbFuncWriteMultipleCoils frame = 6 + (frame 5).toNat := rfl
  have hiff : usLen < 6 + (frame 5).toNat ∧
      (eMBFuncWriteMultipleCoils app frame usLen).eStatus = .none ↔
        OverreadMultiple mbPduFuncWriteMulCoilcntMax sCoilNcoils ucNBytes frame usLen :=
    funcWriteMultiple_short_iff updCoils (fun buf a n => eMBRegCoilsCB_write app buf a n)
      fun buf a n => eMBRegCoilsCB_enoreg app buf a n .write
  rw [ShortAccepted, hcode, hsize]
  refine hiff.trans ⟨fun h => Or.inr ⟨Or.inl ⟨rfl, h⟩, fun h23 => absurd h23 (by decide)⟩, ?_⟩
  rintro (⟨h23, -⟩ | ⟨h, -⟩)
  · exact absurd h23 (by decide)
  · exact overread_coils h

theorem writeMultipleHoldingRegister_short_iff (hcode : frame 0 = mbFuncWriteMultipleRegisters) :
    usLen < requestSize (frame 0) frame ∧
        (eMBFuncWriteMultipleHoldingRegister app frame usLen).eStatus = .none ↔
      ShortAccepted frame usLen := by
  have hsize : requestSize mbFuncWriteMultipleRegisters frame = 6 + (frame 5).toNat := rfl
  have hiff : usLen < 6 + (frame 5).toNat ∧
      (eMBFuncWriteMultipleHoldingRegister app frame usLen).eStatus = .none ↔
        OverreadMultiple mbPduFuncWriteMulRegcntMax sRegHoldingNregs
          (fun n => (2 * n).setWidth 8) frame usLen :=
    funcWriteMultiple_short_iff updHoldings (fun buf a n => eMBRegHoldingCB_write app buf a n)
      fun buf a n => eMBRegHoldingCB_enoreg app buf a n .write
  rw [ShortAccepted, hcode, hsize]
  refine hiff.trans
    ⟨fun h => Or.inr ⟨Or.inr (Or.inl ⟨rfl, h⟩), fun h23 => absurd h23 (by decide)⟩, ?_⟩
  rintro (⟨h23, -⟩ | ⟨h, -⟩)
  · exact absurd h23 (by decide)
  · exact overread_holdings h

theorem readWrite_short_iff (hcode : frame 0 = mbFuncReadwriteMultipleRegisters) :
    usLen < requestSize (frame 0) frame ∧
        (eMBFuncReadWriteMultipleHoldingRegister app frame usLen).eStatus = .none ↔
      ShortAccepted frame usLen := by
  have hsize : requestSize mbFuncReadwriteMultipleRegisters frame = 10 + (frame 9).toNat := rfl
  rw [eMBFuncReadWrite_none_iff, ShortAccepted, hcode, hsize]
  constructor
  · rintro ⟨hlt, hshort | ⟨hlen, hok, hin, hinr⟩⟩
    · exact Or.inl ⟨rfl, hshort⟩
    · exact Or.inr ⟨Or.inr (Or.inr ⟨rfl, hlen, hok, hin, hlt⟩), fun _ => hinr⟩
  · rintro (⟨-, hshort⟩ | ⟨hover, hinr⟩)
    · have hlt : usLen < 10 := hshort
      exact ⟨Nat.lt_add_right _ hlt, Or.inl hlt⟩
    · obtain ⟨hlen, hok, hin, hlt⟩ := overread_readWrite hover
      exact ⟨hlt, Or.inr ⟨hlen, hok, hin, hinr rfl⟩⟩

end Short

/-! ## All data handlers -/

section Dispatch

variable {frame : Buf} {usLen : Nat} {app : SlaveApp}

/-- The reply to a bit read. -/
theorem bitReply {code : UChar} (hcode : code = mbFuncReadCoils ∨ code = mbFuncReadDiscreteInputs)
    (n : UShort) (h : decide (1 ≤ n.toNat ∧ n.toNat < mbPduFuncReadCoilcntMax) = true) :
    (ucNBytes n).toNat = replyBytes code n ∧ (ucNBytes n).toNat = replyBytes code n := by
  have hn : 1 ≤ n.toNat ∧ n.toNat < 2000 := of_decide_eq_true h
  have hcount : (ucNBytes n).toNat = replyBytes code n := by
    rw [replyBytes, if_pos hcode, toNat_ucNBytes (by omega)]
  exact ⟨hcount, hcount⟩

/-- The reply to a register read. -/
theorem regReply {code : UChar}
    (hcode : ¬ (code = mbFuncReadCoils ∨ code = mbFuncReadDiscreteInputs)) {n : UShort}
    (hn : n.toNat ≤ 0x7D) :
    ((n * 2).setWidth 8 : UChar).toNat = replyBytes code n ∧
      n.toNat * 2 = replyBytes code n := by
  rw [replyBytes, if_neg hcode]
  exact ⟨regCount_toNat hn, Nat.mul_comm _ _⟩

/-- Every request of a data function is refused or gets a normal reply, except one of function 23
without its header. -/
theorem slaveDispatch_replied (hcode : frame 0 ∈ dataCodes)
    (hlen : ¬ (frame 0 = mbFuncReadwriteMultipleRegisters ∧ usLen < 10)) :
    Replied frame (slaveDispatch xFuncHandlers app frame usLen) := by
  cases hfind : findHandler (frame 0) xFuncHandlers with
  | none =>
    have hall : ∀ code ∈ dataCodes, (findHandler code xFuncHandlers).isSome = true := by decide
    have hsome := hall _ hcode
    rw [hfind] at hsome
    cases hsome
  | some pxHandler =>
    rw [slaveDispatch_of rfl hfind]
    rcases findHandler_xFuncHandlers hfind with
        ⟨hc, rfl⟩ | ⟨hc, rfl⟩ | ⟨hc, rfl⟩ | ⟨hc, rfl⟩ | ⟨hc, rfl⟩ | ⟨hc, rfl⟩ | ⟨hc, rfl⟩ |
        ⟨hc, rfl⟩ | ⟨hc, rfl⟩ | ⟨hc, rfl⟩
    · rw [hc] at hcode
      exact absurd hcode (by decide)
    · exact funcRead_replied hc (by decide) eMBRegInputCB_error
        fun n h => regReply (by decide) (Nat.le_of_lt (of_decide_eq_true h).2)
    · exact funcRead_replied hc (by decide) (eMBRegHoldingCB_error .read)
        fun n h => regReply (by decide) (of_decide_eq_true h).2
    · exact funcWriteMultiple_replied hc (by decide) (eMBRegHoldingCB_error .write)
    · exact eMBFuncWriteHoldingRegister_replied hc
    · exact eMBFuncReadWrite_replied hc (Nat.le_of_not_lt fun h => hlen ⟨hc, h⟩)
    · exact funcRead_replied hc (by decide) (eMBRegCoilsCB_error .read)
        (bitReply (Or.inl rfl))
    · exact eMBFuncWriteCoil_replied hc
    · exact funcWriteMultiple_replied hc (by decide) (eMBRegCoilsCB_error .write)
    · exact funcRead_replied hc (by decide) eMBRegDiscreteCB_error
        (bitReply (Or.inr rfl))

/-- The requests that are too short and answered all the same. -/
theorem slaveDispatch_short_iff (hcode : frame 0 ∈ dataCodes) :
    usLen < requestSize (frame 0) frame ∧
        (slaveDispatch xFuncHandlers app frame usLen).eStatus = .none ↔
      ShortAccepted frame usLen := by
  simp only [dataCodes, List.mem_cons, List.not_mem_nil, or_false] at hcode
  rcases hcode with hc | hc | hc | hc | hc | hc | hc | hc | hc <;>
    rw [slaveDispatch_of hc rfl]
  · exact iff_of_false (fun h => not_short_of_len hc (funcRead_len h.2) rfl h.1)
      (not_shortAccepted hc (by decide) (by decide) (by decide))
  · exact iff_of_false (fun h => not_short_of_len hc (funcRead_len h.2) rfl h.1)
      (not_shortAccepted hc (by decide) (by decide) (by decide))
  · exact iff_of_false (fun h => not_short_of_len hc (funcRead_len h.2) rfl h.1)
      (not_shortAccepted hc (by decide) (by decide) (by decide))
  · exact iff_of_false (fun h => not_short_of_len hc (funcRead_len h.2) rfl h.1)
      (not_shortAccepted hc (by decide) (by decide) (by decide))
  · exact iff_of_false (fun h => not_short_of_len hc (eMBFuncWriteCoil_len h.2) rfl h.1)
      (not_shortAccepted hc (by decide) (by decide) (by decide))
  · exact iff_of_false (fun h => not_short_of_len hc (eMBFuncWriteHoldingRegister_len h.2) rfl h.1)
      (not_shortAccepted hc (by decide) (by decide) (by decide))
  · exact writeMultipleCoils_short_iff hc
  · exact writeMultipleHoldingRegister_short_iff hc
  · exact readWrite_short_iff hc

end Dispatch

/-- Every request of a data function is refused with exception 2 or 3 or gets a normal reply, and
is not answered if it is too short, exactly if it is not a request of function 23 below the length
of its header, nor one that passes all checks and ends before the data that it announces. -/
theorem slave_reply_iff (app : SlaveApp) (frame : Buf) (usLen : Nat)
    (hcode : frame 0 ∈ dataCodes) :
    Answered frame usLen (slaveDispatch xFuncHandlers app frame usLen) ↔
      ¬ ShortAccepted frame usLen := by
  have hshort : usLen < requestSize (frame 0) frame ∧
      (slaveDispatch xFuncHandlers app frame usLen).eStatus = .none ↔ ShortAccepted frame usLen :=
    slaveDispatch_short_iff hcode
  constructor
  · intro hans hacc
    obtain ⟨hlen, hnone⟩ := hshort.mpr hacc
    exact hans.notShort hlen hnone
  · intro hacc
    exact ⟨slaveDispatch_replied hcode fun h => hacc (Or.inl h),
      fun hlen hnone => hacc (hshort.mp ⟨hlen, hnone⟩)⟩

/-- A write of one coil with its data byte is answered. -/
theorem slave_reply_write : Answered (Mem.ofList [15, 0, 0, 0, 1, 1, 1] fun _ => 0) 7
    (slaveDispatch xFuncHandlers .initial (Mem.ofList [15, 0, 0, 0, 1, 1, 1] fun _ => 0) 7) :=
  (slave_reply_iff .initial _ 7 (by decide)).mpr (by
    rintro (⟨h, -⟩ | ⟨h, -⟩)
    · exact absurd h (by decide)
    · exact absurd (overread_coils h).2.2.2 (by decide))

/-- The same write without its data byte is answered too, and so is a request of function 23 that
has its code only. -/
theorem slave_reply_short :
    ¬ Answered (Mem.ofList [15, 0, 0, 0, 1, 1] fun _ => 0) 6
        (slaveDispatch xFuncHandlers .initial (Mem.ofList [15, 0, 0, 0, 1, 1] fun _ => 0) 6) ∧
      ¬ Answered (Mem.ofList [0x17] fun _ => 0) 1
        (slaveDispatch xFuncHandlers .initial (Mem.ofList [0x17] fun _ => 0) 1) :=
  ⟨fun h => h.notShort (by decide) (by decide), fun h => h.notShort (by decide) rfl⟩

end FreeModbus
