import FreeModbus.RegisterMaps
import FreeModbus.Slave.Functions

/-!
# The slave as a register store

The arrays of the application are a `Store` of the data model.  A request that
is well formed and dispatched to its handler does to that store what `exec`
says, and the handler builds the reply that the data model prescribes.

`serve_answer` is the statement for one request, one case per handler.
`serveAll_eq_execAll` carries it to sequences of requests, with any bytes behind
each request in the receive buffer.
-/

namespace FreeModbus

open ByteMemory DataModel

/-- The sizes of the slave's maps. -/
def slaveShape : Shape where
  coils := sCoilNcoils
  discretes := sDiscreteInputNdiscretes
  inputs := sRegInputNregs
  holdings := sRegHoldingNregs

/-- The store that the arrays of the application represent. -/
def SlaveApp.store (app : SlaveApp) : Store slaveShape where
  coils := bitCells sCoilNcoils app.ucSCoilBuf
  discretes := bitCells sDiscreteInputNdiscretes app.ucSDiscInBuf
  inputs := wordCells sRegInputNregs app.usSRegInBuf
  holdings := wordCells sRegHoldingNregs app.usSRegHoldBuf

/-- The quantities the slave serves.  Both ranges of function 23 are inside the map. -/
def WellFormed : Request → Prop
  | .readCoils _ n => 1 ≤ n.toNat ∧ n.toNat < 2000
  | .readDiscretes _ n => 1 ≤ n.toNat ∧ n.toNat < 2000
  | .readHoldings _ n => 1 ≤ n.toNat ∧ n.toNat ≤ 125
  | .readInputs _ n => 1 ≤ n.toNat ∧ n.toNat < 125
  | .writeCoil _ _ => True
  | .writeHolding _ _ => True
  | .writeCoils _ vs => 1 ≤ vs.length ∧ vs.length ≤ 1968
  | .writeHoldings _ vs => 1 ≤ vs.length ∧ vs.length ≤ 120
  | .readWriteHoldings ra rn wa vs =>
      (1 ≤ rn.toNat ∧ rn.toNat ≤ 125) ∧ (1 ≤ vs.length ∧ vs.length ≤ 121) ∧
        Inside slaveShape.holdings wa vs.length ∧ Inside slaveShape.holdings ra rn.toNat

/-! ## Answers -/

/-- What is seen of a served request: the exception, the store after it, and the reply
PDU when there is no exception. -/
@[ext] structure Answer where
  exception : MBException
  store : Store slaveShape
  reply : Option (List UChar)

/-- The answer of the data model. -/
def answerOf (s : Store slaveShape) (r : Request) : Answer :=
  match s.exec r with
  | some (reply, s') => ⟨.none, s', some (reply.pdu r)⟩
  | none => ⟨.illegalDataAddress, s, none⟩

/-- The answer of a handler. -/
def FuncResult.answer (res : FuncResult SlaveApp) : Answer where
  exception := res.eStatus
  store := res.app.store
  reply := if res.eStatus = .none then some (slice res.pucFrame 0 res.usLen) else none

/-- A request served by the handler of its code.  `left` is what lies behind the PDU in
the receive buffer. -/
def serve (app : SlaveApp) (r : Request) (left : Buf) : FuncResult SlaveApp :=
  slaveDispatch xFuncHandlers app (Mem.ofList r.pdu left) r.pdu.length

/-- A sequence of requests, each served on the state the one before it leaves. -/
def serveAll : SlaveApp → List (Request × Buf) → List Answer
  | _, [] => []
  | app, (r, left) :: rs =>
      (serve app r left).answer :: serveAll (serve app r left).app rs

/-- The answers of the data model to a sequence of requests. -/
def execAll : Store slaveShape → List Request → List Answer
  | _, [] => []
  | s, r :: rs => answerOf s r :: execAll (s.after r) rs

theorem answerOf_some {s s' : Store slaveShape} {r : Request} {reply : Reply}
    (h : s.exec r = some (reply, s')) : answerOf s r = ⟨.none, s', some (reply.pdu r)⟩ := by
  simp [answerOf, h]

theorem answerOf_none {s : Store slaveShape} {r : Request} (h : s.exec r = none) :
    answerOf s r = ⟨.illegalDataAddress, s, none⟩ := by
  simp [answerOf, h]

/-- The store of an answer is the store after the request. -/
theorem answerOf_store (s : Store slaveShape) (r : Request) :
    (answerOf s r).store = s.after r := by
  unfold answerOf Store.after
  cases s.exec r <;> rfl

theorem answer_none {res : FuncResult SlaveApp} {reply : List UChar} (h : res.eStatus = .none)
    (hr : slice res.pucFrame 0 res.usLen = reply) :
    res.answer = ⟨.none, res.app.store, some reply⟩ := by
  simp [FuncResult.answer, h, hr]

theorem answerOf_ite {s s' : Store slaveShape} {r : Request} {reply : Reply} {inside : Prop}
    [Decidable inside] (h : s.exec r = if inside then some (reply, s') else none) :
    answerOf s r =
      if inside then ⟨.none, s', some (reply.pdu r)⟩ else ⟨.illegalDataAddress, s, none⟩ := by
  by_cases hin : inside
  · rw [if_pos hin, answerOf_some (h.trans (if_pos hin))]
  · rw [if_neg hin, answerOf_none (h.trans (if_neg hin))]

theorem answer_illegal {res : FuncResult SlaveApp} (h : res.eStatus = .illegalDataAddress) :
    res.answer = ⟨.illegalDataAddress, res.app.store, none⟩ := by
  simp [FuncResult.answer, h]

/-! ## Reads -/

section Reads

variable {code : UChar} {cntOk : UShort → Bool} {nBytes : UShort → UChar}
  {dataLen : UShort → Nat} {cb : SlaveApp → Buf → UShort → UShort → RegResult SlaveApp}
  {app : SlaveApp} {r : Request} {a n : UShort} {frame : Buf}

/-- A read whose callback fills in the payload of the data model gives its answer. -/
theorem funcRead_answer (inside : Prop) [Decidable inside] (payload : List UChar) {reply : Reply}
    {g : Buf → Buf}
    (hframe : frame.Holds 0 (code :: (wordBytes a ++ wordBytes n))) (hok : cntOk n = true)
    (hexec : app.store.exec r = if inside then some (reply, app.store) else none)
    (hin : inside → ∀ buf, cb app buf (a + 1) n = ⟨.enoerr, g buf, app⟩)
    (hout : ¬ inside → ∀ buf, cb app buf (a + 1) n = ⟨.enoreg, buf, app⟩)
    (hg : inside → ∀ buf, slice (g buf) 0 (dataLen n) = payload)
    (hreply : inside → reply.pdu r = code :: nBytes n :: payload) :
    (funcRead code cntOk nBytes dataLen cb app frame 5).answer = answerOf app.store r := by
  rw [Mem.holds_cons, Mem.holds_append] at hframe
  have ha := wordAt_of_holds hframe.2.1
  have hn := wordAt_of_holds hframe.2.2
  by_cases h : inside
  · obtain ⟨h1, h2, h3⟩ := funcRead_ok code nBytes dataLen ha hn hok (hin h) (hg h)
    rw [answer_none h1 h3, h2, answerOf_some (hexec.trans (if_pos h)), hreply h]
  · obtain ⟨h1, h2⟩ := funcRead_enoreg code nBytes dataLen ha hn hok (hout h)
    rw [answer_illegal h1, h2, answerOf_none (hexec.trans (if_neg h))]

end Reads

variable {app : SlaveApp} {frame : Buf}

theorem eMBFuncReadCoils_answer {a n : UShort} (hwf : WellFormed (.readCoils a n))
    (hframe : frame.Holds 0 (Request.readCoils a n).pdu) :
    (eMBFuncReadCoils app frame 5).answer = answerOf app.store (.readCoils a n) := by
  have hcnt : 1 ≤ n.toNat ∧ n.toNat < 2000 := hwf
  apply funcRead_answer (Inside slaveShape.coils a n.toNat)
    (packBools (app.store.coils.load a.toNat n.toNat)) hframe (decide_eq_true hcnt) rfl
  · intro h buf
    exact eMBRegCoilsCB_read app buf a n (inRange_zero.mpr h)
  · intro h buf
    exact eMBRegCoilsCB_enoreg app buf a n .read fun hr => h (inRange_zero.mp hr)
  · intro h buf
    rw [toNat_ucNBytes (by omega)]
    exact slice_readBitsCB_load h app.ucSCoilBuf buf
  · intro _
    simp only [Reply.pdu, Cells.load_length, ucNBytes_eq (show n.toNat < 2040 by omega)]
    rfl

theorem eMBFuncReadDiscreteInputs_answer {a n : UShort} (hwf : WellFormed (.readDiscretes a n))
    (hframe : frame.Holds 0 (Request.readDiscretes a n).pdu) :
    (eMBFuncReadDiscreteInputs app frame 5).answer = answerOf app.store (.readDiscretes a n) := by
  have hcnt : 1 ≤ n.toNat ∧ n.toNat < 2000 := hwf
  apply funcRead_answer (Inside slaveShape.discretes a n.toNat)
    (packBools (app.store.discretes.load a.toNat n.toNat)) hframe (decide_eq_true hcnt) rfl
  · intro h buf
    exact eMBRegDiscreteCB_eq app buf a n (inRange_zero.mpr h)
  · intro h buf
    exact eMBRegDiscreteCB_enoreg app buf a n fun hr => h (inRange_zero.mp hr)
  · intro h buf
    rw [toNat_ucNBytes (by omega)]
    exact slice_readBitsCB_load h app.ucSDiscInBuf buf
  · intro _
    simp only [Reply.pdu, Cells.load_length, ucNBytes_eq (show n.toNat < 2040 by omega)]
    rfl

theorem eMBFuncReadHoldingRegister_answer {a n : UShort} (hwf : WellFormed (.readHoldings a n))
    (hframe : frame.Holds 0 (Request.readHoldings a n).pdu) :
    (eMBFuncReadHoldingRegister app frame 5).answer = answerOf app.store (.readHoldings a n) := by
  have hcnt : 1 ≤ n.toNat ∧ n.toNat ≤ 125 := hwf
  apply funcRead_answer (Inside slaveShape.holdings a n.toNat)
    (packWordList (app.store.holdings.load a.toNat n.toNat)) hframe (decide_eq_true hcnt) rfl
  · intro h buf
    exact eMBRegHoldingCB_read app buf a n (inRange_zero.mpr h)
  · intro h buf
    exact eMBRegHoldingCB_enoreg app buf a n .read fun hr => h (inRange_zero.mp hr)
  · intro h buf
    rw [Nat.mul_comm]
    exact slice_readRegs_load h app.usSRegHoldBuf buf
  · intro _
    simp only [Reply.pdu, Cells.load_length, setWidth_mul_two]
    rfl

theorem eMBFuncReadInputRegister_answer {a n : UShort} (hwf : WellFormed (.readInputs a n))
    (hframe : frame.Holds 0 (Request.readInputs a n).pdu) :
    (eMBFuncReadInputRegister app frame 5).answer = answerOf app.store (.readInputs a n) := by
  have hcnt : 1 ≤ n.toNat ∧ n.toNat < 125 := hwf
  apply funcRead_answer (Inside slaveShape.inputs a n.toNat)
    (packWordList (app.store.inputs.load a.toNat n.toNat)) hframe (decide_eq_true hcnt) rfl
  · intro h buf
    exact eMBRegInputCB_eq app buf a n (inRange_zero.mpr h)
  · intro h buf
    exact eMBRegInputCB_enoreg app buf a n fun hr => h (inRange_zero.mp hr)
  · intro h buf
    rw [Nat.mul_comm]
    exact slice_readRegs_load h app.usSRegInBuf buf
  · intro _
    simp only [Reply.pdu, Cells.load_length, setWidth_mul_two]
    rfl

/-! ## Writes -/

theorem packBools_one (v : Bool) : packBools [v] = [if v then 1 else 0] := by
  cases v <;> rfl

theorem packWordList_one (v : UShort) : packWordList [v] = wordBytes v := by
  simp [packWordList, packWords]

/-- The buffer of a single coil. -/
theorem coilBuf_holds (v : Bool) : (coilBuf v).Holds 0 (packBools [v]) := by
  rw [packBools_one, Mem.holds_cons]
  exact ⟨rfl, rfl⟩

section Writes

variable (app) (a : UShort) {buf : Buf}

theorem store_writeCoils {vs : List Bool} (h : buf.Holds 0 (packBools vs)) :
    SlaveApp.store { app with
      ucSCoilBuf := writeBitsCB buf (a.toNat / 8) (a.toNat % 8) vs.length app.ucSCoilBuf } =
    { app.store with coils := app.store.coils.put a.toNat vs } := by
  unfold SlaveApp.store
  simp only [bitCells_writeBitsCB h]
  rfl

theorem store_writeHoldings {vs : List UShort} (h : buf.Holds 0 (packWordList vs)) :
    SlaveApp.store { app with
      usSRegHoldBuf := writeRegs buf vs.length a.toNat app.usSRegHoldBuf 0 } =
    { app.store with holdings := app.store.holdings.put a.toNat vs } := by
  unfold SlaveApp.store
  simp only [wordCells_writeRegs h]
  rfl

end Writes

/-- A write that keeps its frame and cuts it to five bytes gives the answer of the data
model. -/
theorem written_answer {r : Request} {inside : Prop} [Decidable inside] {app' : SlaveApp}
    {s' : Store slaveShape} {res : FuncResult SlaveApp} {usLen : Nat}
    (hframe : frame.Holds 0 r.pdu) (hstore : app'.store = s')
    (hexec : app.store.exec r = if inside then some (.written, s') else none)
    (hin : inside → res = ⟨.none, frame, 5, app'⟩)
    (hout : ¬ inside → res = ⟨.illegalDataAddress, frame, usLen, app⟩) :
    res.answer = answerOf app.store r := by
  rw [Request.pdu, Mem.holds_append, Mem.Holds, Request.head_length] at hframe
  rw [answerOf_ite hexec]
  by_cases h : inside
  · rw [if_pos h, hin h, answer_none rfl hframe.1, hstore]
    rfl
  · rw [if_neg h, hout h]
    rfl

theorem eMBFuncWriteCoil_answer {a : UShort} {v : Bool}
    (hframe : frame.Holds 0 (Request.writeCoil a v).pdu) :
    (eMBFuncWriteCoil app frame 5).answer = answerOf app.store (.writeCoil a v) := by
  have hfields := hframe
  simp only [Request.pdu, Request.head, Request.tail, List.append_nil, Mem.holds_cons,
    Mem.holds_append] at hfields
  obtain ⟨-, hw, hv, hz, -⟩ := hfields
  have ha := wordAt_of_holds hw
  apply written_answer hframe (store_writeCoils app a (coilBuf_holds v)) rfl
  · intro h
    exact eMBFuncWriteCoil_ok ha hv hz (inRange_zero.mpr h)
  · intro h
    exact eMBFuncWriteCoil_enoreg ha hv hz fun hr => h (inRange_zero.mp hr)

theorem eMBFuncWriteHoldingRegister_answer {a v : UShort}
    (hframe : frame.Holds 0 (Request.writeHolding a v).pdu) :
    (eMBFuncWriteHoldingRegister app frame 5).answer = answerOf app.store (.writeHolding a v) := by
  have hfields := hframe
  simp only [Request.pdu, Request.head, Request.tail, List.append_nil, Mem.holds_cons,
    Mem.holds_append] at hfields
  obtain ⟨-, hw, hv⟩ := hfields
  have ha := wordAt_of_holds hw
  have hbuf : (frame.at 3).Holds 0 (packWordList [v]) := by
    rw [packWordList_one, Mem.holds_at]
    exact hv
  apply written_answer hframe (store_writeHoldings app a hbuf) rfl
  · intro h
    exact eMBFuncWriteHoldingRegister_ok ha (inRange_zero.mpr h)
  · intro h
    exact eMBFuncWriteHoldingRegister_enoreg ha fun hr => h (inRange_zero.mp hr)

/-- The length of a list as a `USHORT`. -/
theorem toNat_ofNat_length {n : Nat} (h : n < 65536) : (BitVec.ofNat 16 n).toNat = n :=
  (BitVec.toNat_ofNat n 16).trans (Nat.mod_eq_of_lt h)

theorem eMBFuncWriteMultipleCoils_answer {a : UShort} {vs : List Bool} {usLen : Nat}
    (hwf : WellFormed (.writeCoils a vs)) (hframe : frame.Holds 0 (Request.writeCoils a vs).pdu)
    (hmin : 6 ≤ usLen) :
    (eMBFuncWriteMultipleCoils app frame usLen).answer =
      answerOf app.store (.writeCoils a vs) := by
  have hcnt : 1 ≤ vs.length ∧ vs.length ≤ 1968 := hwf
  have hlen : (BitVec.ofNat 16 vs.length).toNat = vs.length := toNat_ofNat_length (by omega)
  have hfields := hframe
  simp only [Request.pdu, Request.head, Request.tail, Mem.holds_cons,
    Mem.holds_append] at hfields
  obtain ⟨⟨-, hw, hn⟩, hbc, hdata⟩ := hfields
  have ha := wordAt_of_holds hw
  have hn := wordAt_of_holds hn
  have hbytes : frame 5 = ucNBytes (BitVec.ofNat 16 vs.length) := by
    rw [ucNBytes_eq (by omega), hlen]
    exact hbc
  have hok : 1 ≤ (BitVec.ofNat 16 vs.length).toNat ∧
      (BitVec.ofNat 16 vs.length).toNat ≤ mbPduFuncWriteMulCoilcntMax ∧
      frame 5 = ucNBytes (BitVec.ofNat 16 vs.length) := by
    rw [hlen]
    exact ⟨hcnt.1, hcnt.2, hbytes⟩
  have hbuf : (frame.at 6).Holds 0 (packBools vs) := Mem.holds_at.mpr hdata
  apply written_answer hframe (store_writeCoils app a hbuf) rfl
  · intro h
    have hcb := eMBRegCoilsCB_write app (frame.at 6) a _ (inRange_zero.mpr (hlen.symm ▸ h))
    rw [hlen] at hcb
    exact funcWriteMultiple_ok hmin ha hn hok hcb
  · intro h
    have hcb := eMBRegCoilsCB_enoreg app (frame.at 6) a _ .write
      fun hr => h (hlen ▸ inRange_zero.mp hr)
    exact funcWriteMultiple_enoreg hmin ha hn hok hcb

theorem eMBFuncWriteMultipleHoldingRegister_answer {a : UShort} {vs : List UShort} {usLen : Nat}
    (hwf : WellFormed (.writeHoldings a vs))
    (hframe : frame.Holds 0 (Request.writeHoldings a vs).pdu) (hmin : 6 ≤ usLen) :
    (eMBFuncWriteMultipleHoldingRegister app frame usLen).answer =
      answerOf app.store (.writeHoldings a vs) := by
  have hcnt : 1 ≤ vs.length ∧ vs.length ≤ 120 := hwf
  have hlen : (BitVec.ofNat 16 vs.length).toNat = vs.length := toNat_ofNat_length (by omega)
  have hfields := hframe
  simp only [Request.pdu, Request.head, Request.tail, Mem.holds_cons,
    Mem.holds_append] at hfields
  obtain ⟨⟨-, hw, hn⟩, hbc, hdata⟩ := hfields
  have ha := wordAt_of_holds hw
  have hn := wordAt_of_holds hn
  have hbytes : frame 5 = (2 * BitVec.ofNat 16 vs.length).setWidth 8 := by
    rw [BitVec.mul_comm, setWidth_mul_two, hlen]
    exact hbc
  have hok : 1 ≤ (BitVec.ofNat 16 vs.length).toNat ∧
      (BitVec.ofNat 16 vs.length).toNat ≤ mbPduFuncWriteMulRegcntMax ∧
      frame 5 = (2 * BitVec.ofNat 16 vs.length).setWidth 8 := by
    rw [hlen]
    exact ⟨hcnt.1, hcnt.2, hbytes⟩
  have hbuf : (frame.at 6).Holds 0 (packWordList vs) := Mem.holds_at.mpr hdata
  apply written_answer hframe (store_writeHoldings app a hbuf) rfl
  · intro h
    have hcb := eMBRegHoldingCB_write app (frame.at 6) a _ (inRange_zero.mpr (hlen.symm ▸ h))
    rw [hlen] at hcb
    exact funcWriteMultiple_ok hmin ha hn hok hcb
  · intro h
    have hcb := eMBRegHoldingCB_enoreg app (frame.at 6) a _ .write
      fun hr => h (hlen ▸ inRange_zero.mp hr)
    exact funcWriteMultiple_enoreg hmin ha hn hok hcb

theorem eMBFuncReadWriteMultipleHoldingRegister_answer {ra rn wa : UShort} {vs : List UShort}
    {usLen : Nat} (hwf : WellFormed (.readWriteHoldings ra rn wa vs))
    (hframe : frame.Holds 0 (Request.readWriteHoldings ra rn wa vs).pdu) (hmin : 10 ≤ usLen) :
    (eMBFuncReadWriteMultipleHoldingRegister app frame usLen).answer =
      answerOf app.store (.readWriteHoldings ra rn wa vs) := by
  obtain ⟨hrcnt, hwcnt, hwin, hrin⟩ := hwf
  have hlen : (BitVec.ofNat 16 vs.length).toNat = vs.length := toNat_ofNat_length (by omega)
  simp only [Request.pdu, Request.head, Request.tail, Mem.holds_cons,
    Mem.holds_append] at hframe
  obtain ⟨⟨-, hra, hrn⟩, hwa, hwn, hbc, hdata⟩ := hframe
  have hra := wordAt_of_holds hra
  have hrn := wordAt_of_holds hrn
  have hwa := wordAt_of_holds hwa
  have hwn := wordAt_of_holds hwn
  have hbc : frame 9 = BitVec.ofNat 8 (2 * vs.length) := hbc
  have hbytes : (frame 9).toNat = 2 * vs.length := by
    rw [hbc, BitVec.toNat_ofNat]
    omega
  have hok : readwriteOk rn (BitVec.ofNat 16 vs.length) (frame 9) := by
    rw [readwriteOk, hlen, hbytes]
    omega
  have hbuf : (frame.at 10).Holds 0 (packWordList vs) := Mem.holds_at.mpr hdata
  obtain ⟨h1, h2, h3⟩ := eMBFuncReadWrite_ok app hmin hra hrn hwa hwn hok
    (inRange_zero.mpr (hlen.symm ▸ hwin)) (inRange_zero.mpr hrin)
  rw [hlen] at h2 h3
  have hstore := store_writeHoldings app wa hbuf
  have hread : packWords rn.toNat (fun j =>
      writeRegs (frame.at 10) vs.length wa.toNat app.usSRegHoldBuf 0 (ra.toNat + j)) =
      packWordList ((app.store.holdings.put wa.toNat vs).load ra.toNat rn.toNat) := by
    rw [packWordList_load]
    refine packWords_congr fun j hj => ?_
    have hj : ra.toNat + j < sRegHoldingNregs := Nat.lt_of_lt_of_le (by omega) hrin
    rw [← wordCells_get (writeRegs (frame.at 10) vs.length wa.toNat app.usSRegHoldBuf 0) hj,
      wordCells_writeRegs hbuf]
    rfl
  have hexec : app.store.exec (.readWriteHoldings ra rn wa vs) = _ := if_pos ⟨hwin, hrin⟩
  rw [answer_none h1 h3, h2, answerOf_some hexec, hstore, hread]
  simp only [Reply.pdu, Cells.load_length, setWidth_mul_two]
  rfl

/-! ## Any request -/

/-- A well formed request in the receive buffer gets the answer of the data model from
the handler of its code. -/
theorem slaveDispatch_answer {r : Request} (hwf : WellFormed r) (hframe : frame.Holds 0 r.pdu) :
    (slaveDispatch xFuncHandlers app frame r.pdu.length).answer = answerOf app.store r := by
  have hcode : frame 0 = r.code := by
    obtain ⟨l, hl⟩ := r.pdu_cons
    rw [hl, Mem.holds_cons] at hframe
    exact hframe.1
  cases r with
  | readCoils a n =>
    rw [slaveDispatch_of hcode rfl]
    exact eMBFuncReadCoils_answer hwf hframe
  | readDiscretes a n =>
    rw [slaveDispatch_of hcode rfl]
    exact eMBFuncReadDiscreteInputs_answer hwf hframe
  | readHoldings a n =>
    rw [slaveDispatch_of hcode rfl]
    exact eMBFuncReadHoldingRegister_answer hwf hframe
  | readInputs a n =>
    rw [slaveDispatch_of hcode rfl]
    exact eMBFuncReadInputRegister_answer hwf hframe
  | writeCoil a v =>
    rw [slaveDispatch_of hcode rfl]
    exact eMBFuncWriteCoil_answer hframe
  | writeHolding a v =>
    rw [slaveDispatch_of hcode rfl]
    exact eMBFuncWriteHoldingRegister_answer hframe
  | writeCoils a vs =>
    rw [slaveDispatch_of hcode rfl]
    exact eMBFuncWriteMultipleCoils_answer hwf hframe (by simp [Request.pdu, Request.tail]; omega)
  | writeHoldings a vs =>
    rw [slaveDispatch_of hcode rfl]
    exact eMBFuncWriteMultipleHoldingRegister_answer hwf hframe
      (by simp [Request.pdu, Request.tail]; omega)
  | readWriteHoldings ra rn wa vs =>
    rw [slaveDispatch_of hcode rfl]
    exact eMBFuncReadWriteMultipleHoldingRegister_answer hwf hframe
      (by simp [Request.pdu, Request.tail]; omega)

theorem serve_answer (app : SlaveApp) {r : Request} (hwf : WellFormed r) (left : Buf) :
    (serve app r left).answer = answerOf app.store r :=
  slaveDispatch_answer hwf (Mem.holds_ofList r.pdu left)

theorem serve_store (app : SlaveApp) {r : Request} (hwf : WellFormed r) (left : Buf) :
    (serve app r left).app.store = app.store.after r := by
  rw [← answerOf_store, ← serve_answer app hwf left]
  rfl

/-! ## Any sequence of requests -/

/-- The slave serves every sequence of well formed requests as the data model does. -/
theorem serveAll_eq_execAll (app : SlaveApp) (rs : List (Request × Buf))
    (hwf : ∀ p ∈ rs, WellFormed p.1) :
    serveAll app rs = execAll app.store (rs.map Prod.fst) := by
  induction rs generalizing app with
  | nil => rfl
  | cons p rs ih =>
    obtain ⟨r, left⟩ := p
    have hr : WellFormed r := hwf (r, left) (List.mem_cons_self ..)
    have hrs : ∀ p ∈ rs, WellFormed p.1 := fun p hp => hwf p (List.mem_cons_of_mem _ hp)
    rw [serveAll, List.map_cons, execAll, serve_answer app hr left, ih _ hrs,
      serve_store app hr left]

/-- A write of three coils, then a read of four around them, at start-up. -/
theorem serveAll_write_read :
    (serveAll .initial
      [(.writeCoils 7 [true, false, true], fun _ => 0), (.readCoils 6 4, fun _ => 0)]).map
        Answer.reply = [some [15, 0, 7, 0, 3], some [1, 1, 0b1010]] := by
  rw [serveAll_eq_execAll .initial _ ?_]
  · decide
  · intro p hp
    simp only [List.mem_cons, List.not_mem_nil, or_false] at hp
    rcases hp with rfl | rfl
    · exact ⟨by decide, by decide⟩
    · exact ⟨by decide, by decide⟩

end FreeModbus
