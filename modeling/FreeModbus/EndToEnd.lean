import FreeModbus.Master.Functions
import FreeModbus.Master.Requests
import FreeModbus.Slave.Store

/-!
# Master and slave, end to end

A request function writes a PDU, a slave serves it, and the handler of the
master stores the reply in the mirror.  The two halves agree: the mirror takes
over what the data model says (`Store.absorb`), so after the exchange it holds
what the slave holds on every item the request addressed.

The proof has three parts.  The bytes of the request are the PDU of the data
model (`MasterCall.pdu_eq`), the slave answers it as the data model does
(`slaveDispatch_answer`), and the handlers of the master absorb that answer
(`masterDispatch_absorbs`, one case a request kind).
-/

namespace FreeModbus

open ByteMemory DataModel

/-- Every count is at least one and every range lies inside the configured maps. -/
def Fits : Request → Prop
  | .readCoils a n => 1 ≤ n.toNat ∧ Inside slaveShape.coils a n.toNat
  | .readDiscretes a n => 1 ≤ n.toNat ∧ Inside slaveShape.discretes a n.toNat
  | .readHoldings a n => 1 ≤ n.toNat ∧ Inside slaveShape.holdings a n.toNat
  | .readInputs a n => 1 ≤ n.toNat ∧ Inside slaveShape.inputs a n.toNat
  | .writeCoil a _ => Inside slaveShape.coils a 1
  | .writeHolding a _ => Inside slaveShape.holdings a 1
  | .writeCoils a vs => 1 ≤ vs.length ∧ Inside slaveShape.coils a vs.length
  | .writeHoldings a vs => 1 ≤ vs.length ∧ Inside slaveShape.holdings a vs.length
  | .readWriteHoldings ra rn wa vs =>
      (1 ≤ rn.toNat ∧ Inside slaveShape.holdings ra rn.toNat) ∧
        (1 ≤ vs.length ∧ Inside slaveShape.holdings wa vs.length)

/-- The slave serves every request that fits. -/
theorem Fits.wellFormed {r : Request} (h : Fits r) : WellFormed r := by
  cases r with
  | readCoils a n =>
    have hin : a.toNat + n.toNat ≤ 64 := h.2
    exact ⟨h.1, by omega⟩
  | readDiscretes a n =>
    have hin : a.toNat + n.toNat ≤ 16 := h.2
    exact ⟨h.1, by omega⟩
  | readHoldings a n =>
    have hin : a.toNat + n.toNat ≤ 100 := h.2
    exact ⟨h.1, by omega⟩
  | readInputs a n =>
    have hin : a.toNat + n.toNat ≤ 100 := h.2
    exact ⟨h.1, by omega⟩
  | writeCoil a v => trivial
  | writeHolding a v => trivial
  | writeCoils a vs =>
    have hin : a.toNat + vs.length ≤ 64 := h.2
    exact ⟨h.1, by omega⟩
  | writeHoldings a vs =>
    have hin : a.toNat + vs.length ≤ 100 := h.2
    exact ⟨h.1, by omega⟩
  | readWriteHoldings ra rn wa vs =>
    obtain ⟨⟨hr, hrin⟩, hw, hwin⟩ := h
    have hr' : ra.toNat + rn.toNat ≤ 100 := hrin
    have hw' : wa.toNat + vs.length ≤ 100 := hwin
    exact ⟨⟨hr, by omega⟩, ⟨hw, by omega⟩, hwin, hrin⟩

/-- The data model answers every request that fits. -/
theorem Fits.exec {r : Request} (h : Fits r) (s : Store slaveShape) :
    ∃ reply s', s.exec r = some (reply, s') := by
  cases r with
  | readCoils a n => exact ⟨_, _, if_pos h.2⟩
  | readDiscretes a n => exact ⟨_, _, if_pos h.2⟩
  | readHoldings a n => exact ⟨_, _, if_pos h.2⟩
  | readInputs a n => exact ⟨_, _, if_pos h.2⟩
  | writeCoil a v => exact ⟨_, _, if_pos h⟩
  | writeHolding a v => exact ⟨_, _, if_pos h⟩
  | writeCoils a vs => exact ⟨_, _, if_pos h.2⟩
  | writeHoldings a vs => exact ⟨_, _, if_pos h.2⟩
  | readWriteHoldings ra rn wa vs => exact ⟨_, _, if_pos ⟨h.2.2, h.1.2⟩⟩

/-! ## The master absorbs a reply -/

/-- The handler of the master takes the reply to `r` for a success and absorbs it in row `k`. -/
def Absorbs (k : UChar) (r : Request) (reply : Reply) (app : MasterApp)
    (res : FuncResult MasterApp) : Prop :=
  res.eStatus = .none ∧ UpdatesRow k (fun s => s.absorb r reply) app res.app

section Absorb

variable {ctx : MasterCtx} {app : MasterApp} {frame : Buf} {s s' : Store slaveShape}
  {reply : Reply}

/-- A read whose callback absorbs the payload absorbs the reply. -/
theorem masterFuncRead_absorbs {bytecntOk : UShort → UChar → Bool} {cb : MasterCallback}
    {r : Request} {code bytes : UChar} {a n : UShort} {payload : List UChar} {usLen : Nat}
    (hb : ctx.xFrameIsBroadcast = false)
    (hsnd : ctx.pucPDUSndBuf.Holds 0 (code :: (wordBytes a ++ wordBytes n)))
    (hframe : frame.Holds 0 (code :: bytes :: payload)) (hlen : 2 ≤ usLen)
    (hok : 1 ≤ n.toNat ∧ bytecntOk n bytes)
    (hcb : ∀ buf : Buf, buf.Holds 0 payload →
      ∃ app', cb ctx.ucMBMasterDestAddress app buf (a + 1) n = (.enoerr, app') ∧
        UpdatesRow ctx.ucMBMasterDestAddress (fun s => s.absorb r reply) app app') :
    Absorbs ctx.ucMBMasterDestAddress r reply app
      (masterFuncRead bytecntOk cb ctx app frame usLen) := by
  rw [Mem.holds_cons, Mem.holds_append] at hsnd
  rw [Mem.holds_cons, Mem.holds_cons] at hframe
  obtain ⟨-, hbytes, hdata⟩ := hframe
  obtain ⟨app', heq, hup⟩ := hcb (frame.at 2) (Mem.holds_at.mpr hdata)
  rw [masterFuncRead_ok hb hlen (wordAt_of_holds hsnd.2.1) (wordAt_of_holds hsnd.2.2)
    (hbytes.symm ▸ hok) heq]
  exact ⟨rfl, hup⟩

/-- The byte count of a bit read, as the slave sends it. -/
theorem bitBytecnt_ok {n : UShort} (h : n.toNat < 2040) :
    bitBytecnt n (BitVec.ofNat 8 (byteCount n.toNat)) = true :=
  decide_eq_true (ucNBytes_eq h)

/-- The byte count of a register read, as the slave sends it. -/
theorem regBytecnt_ok {n : UShort} (h : n.toNat < 128) :
    regBytecnt n (BitVec.ofNat 8 (2 * n.toNat)) = true := by
  apply decide_eq_true
  rw [BitVec.toNat_ofNat]
  omega

theorem eMBMasterFuncReadCoils_absorbs {a n : UShort} (hfit : Fits (.readCoils a n))
    (hb : ctx.xFrameIsBroadcast = false)
    (hsnd : ctx.pucPDUSndBuf.Holds 0 (Request.readCoils a n).pdu)
    (hexec : s.exec (.readCoils a n) = some (reply, s'))
    (hframe : frame.Holds 0 (reply.pdu (.readCoils a n))) :
    Absorbs ctx.ucMBMasterDestAddress (.readCoils a n) reply app
      (eMBMasterFuncReadCoils ctx app frame (reply.pdu (.readCoils a n)).length) := by
  obtain ⟨hin, rfl, -⟩ := of_exec hexec
  have hn : n.toNat < 2040 := Nat.lt_of_le_of_lt hfit.wellFormed.2.le (by decide)
  rw [Reply.pdu, Cells.load_length] at hframe ⊢
  refine masterFuncRead_absorbs hb hsnd hframe (Nat.le_add_left 2 _)
    ⟨hfit.1, bitBytecnt_ok hn⟩ fun buf hbuf => ?_
  exact eMBMasterRegCoilsCB_ok _ app hbuf (Cells.load_length _ _ _).symm
    (by rw [Cells.load_length]; exact hin)

theorem eMBMasterFuncReadDiscreteInputs_absorbs {a n : UShort} (hfit : Fits (.readDiscretes a n))
    (hb : ctx.xFrameIsBroadcast = false)
    (hsnd : ctx.pucPDUSndBuf.Holds 0 (Request.readDiscretes a n).pdu)
    (hexec : s.exec (.readDiscretes a n) = some (reply, s'))
    (hframe : frame.Holds 0 (reply.pdu (.readDiscretes a n))) :
    Absorbs ctx.ucMBMasterDestAddress (.readDiscretes a n) reply app
      (eMBMasterFuncReadDiscreteInputs ctx app frame (reply.pdu (.readDiscretes a n)).length) := by
  obtain ⟨hin, rfl, -⟩ := of_exec hexec
  have hn : n.toNat < 2040 := Nat.lt_of_le_of_lt hfit.wellFormed.2.le (by decide)
  rw [Reply.pdu, Cells.load_length] at hframe ⊢
  refine masterFuncRead_absorbs hb hsnd hframe (Nat.le_add_left 2 _)
    ⟨hfit.1, bitBytecnt_ok hn⟩ fun buf hbuf => ?_
  exact eMBMasterRegDiscreteCB_ok _ app hbuf (Cells.load_length _ _ _).symm
    (by rw [Cells.load_length]; exact hin)

theorem eMBMasterFuncReadHoldingRegister_absorbs {a n : UShort} (hfit : Fits (.readHoldings a n))
    (hb : ctx.xFrameIsBroadcast = false)
    (hsnd : ctx.pucPDUSndBuf.Holds 0 (Request.readHoldings a n).pdu)
    (hexec : s.exec (.readHoldings a n) = some (reply, s'))
    (hframe : frame.Holds 0 (reply.pdu (.readHoldings a n))) :
    Absorbs ctx.ucMBMasterDestAddress (.readHoldings a n) reply app
      (eMBMasterFuncReadHoldingRegister ctx app frame (reply.pdu (.readHoldings a n)).length) := by
  obtain ⟨hin, rfl, -⟩ := of_exec hexec
  have hn : n.toNat < 128 := Nat.lt_of_le_of_lt hfit.wellFormed.2 (by decide)
  rw [Reply.pdu, Cells.load_length] at hframe ⊢
  refine masterFuncRead_absorbs hb hsnd hframe (Nat.le_add_left 2 _)
    ⟨hfit.1, regBytecnt_ok hn⟩ fun buf hbuf => ?_
  exact eMBMasterRegHoldingCB_ok _ app hbuf (Cells.load_length _ _ _).symm
    (by rw [Cells.load_length]; exact hin)

theorem eMBMasterFuncReadInputRegister_absorbs {a n : UShort} (hfit : Fits (.readInputs a n))
    (hb : ctx.xFrameIsBroadcast = false)
    (hsnd : ctx.pucPDUSndBuf.Holds 0 (Request.readInputs a n).pdu)
    (hexec : s.exec (.readInputs a n) = some (reply, s'))
    (hframe : frame.Holds 0 (reply.pdu (.readInputs a n))) :
    Absorbs ctx.ucMBMasterDestAddress (.readInputs a n) reply app
      (eMBMasterFuncReadInputRegister ctx app frame (reply.pdu (.readInputs a n)).length) := by
  obtain ⟨hin, rfl, -⟩ := of_exec hexec
  have hn : n.toNat < 128 := Nat.lt_of_lt_of_le hfit.wellFormed.2 (by decide)
  rw [Reply.pdu, Cells.load_length] at hframe ⊢
  refine masterFuncRead_absorbs hb hsnd hframe (Nat.le_add_left 2 _)
    ⟨hfit.1, regBytecnt_ok hn⟩ fun buf hbuf => ?_
  exact eMBMasterRegInputCB_ok _ app hbuf (Cells.load_length _ _ _).symm
    (by rw [Cells.load_length]; exact hin)

theorem eMBMasterFuncWriteCoil_absorbs {a : UShort} {v : Bool} (hfit : Fits (.writeCoil a v))
    (hexec : s.exec (.writeCoil a v) = some (reply, s'))
    (hframe : frame.Holds 0 (reply.pdu (.writeCoil a v))) :
    Absorbs ctx.ucMBMasterDestAddress (.writeCoil a v) reply app
      (eMBMasterFuncWriteCoil ctx app frame (reply.pdu (.writeCoil a v)).length) := by
  obtain ⟨-, rfl, -⟩ := of_exec hexec
  simp only [Reply.pdu, Request.head, Mem.holds_cons, Mem.holds_append] at hframe
  obtain ⟨-, hw, hv, hz, -⟩ := hframe
  obtain ⟨app', heq, hup⟩ :=
    eMBMasterRegCoilsCB_ok ctx.ucMBMasterDestAddress app (n := 1) (coilBuf_holds v) rfl hfit
  rw [show Reply.pdu (.writeCoil a v) .written = (Request.writeCoil a v).head from rfl,
    Request.head_length, eMBMasterFuncWriteCoil_ok (wordAt_of_holds hw) hv hz heq]
  exact ⟨rfl, hup⟩

theorem eMBMasterFuncWriteHoldingRegister_absorbs {a v : UShort} (hfit : Fits (.writeHolding a v))
    (hexec : s.exec (.writeHolding a v) = some (reply, s'))
    (hframe : frame.Holds 0 (reply.pdu (.writeHolding a v))) :
    Absorbs ctx.ucMBMasterDestAddress (.writeHolding a v) reply app
      (eMBMasterFuncWriteHoldingRegister ctx app frame (reply.pdu (.writeHolding a v)).length) := by
  obtain ⟨-, rfl, -⟩ := of_exec hexec
  simp only [Reply.pdu, Request.head, Mem.holds_cons, Mem.holds_append] at hframe
  obtain ⟨-, hw, hv⟩ := hframe
  have hbuf : (frame.at 3).Holds 0 (packWordList [v]) := by
    rw [packWordList_one, Mem.holds_at]
    exact hv
  obtain ⟨app', heq, hup⟩ :=
    eMBMasterRegHoldingCB_ok ctx.ucMBMasterDestAddress app (n := 1) hbuf rfl hfit
  rw [show Reply.pdu (.writeHolding a v) .written = (Request.writeHolding a v).head from rfl,
    Request.head_length, eMBMasterFuncWriteHoldingRegister_ok (wordAt_of_holds hw) heq]
  exact ⟨rfl, hup⟩

theorem eMBMasterFuncWriteMultipleCoils_absorbs {a : UShort} {vs : List Bool}
    (hfit : Fits (.writeCoils a vs))
    (hsnd : ctx.pucPDUSndBuf.Holds 0 (Request.writeCoils a vs).pdu)
    (hexec : s.exec (.writeCoils a vs) = some (reply, s'))
    (hframe : frame.Holds 0 (reply.pdu (.writeCoils a vs))) :
    Absorbs ctx.ucMBMasterDestAddress (.writeCoils a vs) reply app
      (eMBMasterFuncWriteMultipleCoils ctx app frame (reply.pdu (.writeCoils a vs)).length) := by
  have hcnt : vs.length ≤ 1968 := hfit.wellFormed.2
  have hlen : (BitVec.ofNat 16 vs.length).toNat = vs.length := toNat_ofNat_length (by omega)
  obtain ⟨hin, rfl, -⟩ := of_exec hexec
  simp only [Reply.pdu, Request.head, Mem.holds_cons, Mem.holds_append] at hframe
  simp only [Request.pdu, Request.head, Request.tail, Mem.holds_cons, Mem.holds_append] at hsnd
  obtain ⟨-, hw, hn⟩ := hframe
  obtain ⟨-, hbc, hdata⟩ := hsnd
  have hbytes : ucNBytes (BitVec.ofNat 16 vs.length) = ctx.pucPDUSndBuf 5 := by
    rw [ucNBytes_eq (by omega), hlen]
    exact hbc.symm
  have hbuf : (ctx.pucPDUSndBuf.at 6).Holds 0 (packBools vs) := Mem.holds_at.mpr hdata
  obtain ⟨app', heq, hup⟩ := eMBMasterRegCoilsCB_ok ctx.ucMBMasterDestAddress app hbuf hlen hin
  rw [show Reply.pdu (.writeCoils a vs) .written = (Request.writeCoils a vs).head from rfl,
    Request.head_length, eMBMasterFuncWriteMultipleCoils_ok (Or.inl rfl) (wordAt_of_holds hw)
      (wordAt_of_holds hn) ⟨hlen.symm ▸ hfit.1, hbytes⟩ heq]
  exact ⟨rfl, hup⟩

theorem eMBMasterFuncWriteMultipleHoldingRegister_absorbs {a : UShort} {vs : List UShort}
    (hfit : Fits (.writeHoldings a vs))
    (hsnd : ctx.pucPDUSndBuf.Holds 0 (Request.writeHoldings a vs).pdu)
    (hexec : s.exec (.writeHoldings a vs) = some (reply, s')) :
    Absorbs ctx.ucMBMasterDestAddress (.writeHoldings a vs) reply app
      (eMBMasterFuncWriteMultipleHoldingRegister ctx app frame
        (reply.pdu (.writeHoldings a vs)).length) := by
  have hcnt : vs.length ≤ 120 := hfit.wellFormed.2
  have hlen : (BitVec.ofNat 16 vs.length).toNat = vs.length := toNat_ofNat_length (by omega)
  obtain ⟨hin, rfl, -⟩ := of_exec hexec
  simp only [Request.pdu, Request.head, Request.tail, Mem.holds_cons, Mem.holds_append] at hsnd
  obtain ⟨⟨-, hw, hn⟩, hbc, hdata⟩ := hsnd
  have hbc : ctx.pucPDUSndBuf 5 = BitVec.ofNat 8 (2 * vs.length) := hbc
  have hbytes : (ctx.pucPDUSndBuf 5).toNat = 2 * (BitVec.ofNat 16 vs.length).toNat := by
    rw [hbc, hlen, BitVec.toNat_ofNat]
    omega
  have hbuf : (ctx.pucPDUSndBuf.at 6).Holds 0 (packWordList vs) := Mem.holds_at.mpr hdata
  obtain ⟨app', heq, hup⟩ := eMBMasterRegHoldingCB_ok ctx.ucMBMasterDestAddress app hbuf hlen hin
  rw [show Reply.pdu (.writeHoldings a vs) .written = (Request.writeHoldings a vs).head from rfl,
    Request.head_length, eMBMasterFuncWriteMultipleHoldingRegister_ok (Or.inl rfl)
      (wordAt_of_holds hw) (wordAt_of_holds hn) hbytes heq]
  exact ⟨rfl, hup⟩

theorem eMBMasterFuncReadWriteMultipleHoldingRegister_absorbs {ra rn wa : UShort}
    {vs : List UShort} (hfit : Fits (.readWriteHoldings ra rn wa vs))
    (hb : ctx.xFrameIsBroadcast = false)
    (hsnd : ctx.pucPDUSndBuf.Holds 0 (Request.readWriteHoldings ra rn wa vs).pdu)
    (hexec : s.exec (.readWriteHoldings ra rn wa vs) = some (reply, s'))
    (hframe : frame.Holds 0 (reply.pdu (.readWriteHoldings ra rn wa vs))) :
    Absorbs ctx.ucMBMasterDestAddress (.readWriteHoldings ra rn wa vs) reply app
      (eMBMasterFuncReadWriteMultipleHoldingRegister ctx app frame
        (reply.pdu (.readWriteHoldings ra rn wa vs)).length) := by
  obtain ⟨⟨-, hrle⟩, ⟨-, hwle⟩, -⟩ := hfit.wellFormed
  have hlen : (BitVec.ofNat 16 vs.length).toNat = vs.length := toNat_ofNat_length (by omega)
  obtain ⟨⟨hwin, hrin⟩, rfl, -⟩ := of_exec hexec
  simp only [Request.pdu, Request.head, Request.tail, Mem.holds_cons, Mem.holds_append] at hsnd
  obtain ⟨⟨-, hra, hrn⟩, hwa, hwn, -, hdata⟩ := hsnd
  rw [Reply.pdu, Cells.load_length] at hframe ⊢
  rw [Mem.holds_cons, Mem.holds_cons] at hframe
  obtain ⟨-, hbc, hread⟩ := hframe
  have hbc : frame 1 = BitVec.ofNat 8 (2 * rn.toNat) := hbc
  have hbytes : 2 * rn.toNat = (frame 1).toNat := by
    rw [hbc, BitVec.toNat_ofNat]
    omega
  have hbuf : (ctx.pucPDUSndBuf.at 10).Holds 0 (packWordList vs) := Mem.holds_at.mpr hdata
  have hbuf' : (frame.at 2).Holds 0 _ := Mem.holds_at.mpr hread
  obtain ⟨app₁, heq₁, hup₁⟩ :=
    eMBMasterRegHoldingCB_ok ctx.ucMBMasterDestAddress app hbuf hlen hwin
  obtain ⟨app', heq, hup⟩ := eMBMasterRegHoldingCB_ok ctx.ucMBMasterDestAddress app₁ hbuf'
    (Cells.load_length _ _ _).symm (by rw [Cells.load_length]; exact hrin)
  rw [List.length_cons, List.length_cons,
    eMBMasterFuncReadWriteMultipleHoldingRegister_ok hb (Nat.le_add_left 2 _)
    (wordAt_of_holds hra) (wordAt_of_holds hrn) (wordAt_of_holds hwa) (wordAt_of_holds hwn) hbytes
    heq₁ heq]
  exact ⟨rfl, hup₁.trans hup⟩

/-- The handler for the reply's function code absorbs the reply of the device. -/
theorem masterDispatch_absorbs {r : Request} (hfit : Fits r) (hb : ctx.xFrameIsBroadcast = false)
    (hsnd : ctx.pucPDUSndBuf.Holds 0 r.pdu) (hexec : s.exec r = some (reply, s'))
    (hframe : frame.Holds 0 (reply.pdu r)) :
    Absorbs ctx.ucMBMasterDestAddress r reply app
      (masterDispatch ctx app frame (reply.pdu r).length) := by
  have hcode : frame 0 = r.code := by
    obtain ⟨l, hl⟩ := reply.pdu_cons r
    rw [hl, Mem.holds_cons] at hframe
    exact hframe.1
  cases r with
  | readCoils a n =>
    rw [masterDispatch_of hcode rfl]
    exact eMBMasterFuncReadCoils_absorbs hfit hb hsnd hexec hframe
  | readDiscretes a n =>
    rw [masterDispatch_of hcode rfl]
    exact eMBMasterFuncReadDiscreteInputs_absorbs hfit hb hsnd hexec hframe
  | readHoldings a n =>
    rw [masterDispatch_of hcode rfl]
    exact eMBMasterFuncReadHoldingRegister_absorbs hfit hb hsnd hexec hframe
  | readInputs a n =>
    rw [masterDispatch_of hcode rfl]
    exact eMBMasterFuncReadInputRegister_absorbs hfit hb hsnd hexec hframe
  | writeCoil a v =>
    rw [masterDispatch_of hcode rfl]
    exact eMBMasterFuncWriteCoil_absorbs hfit hexec hframe
  | writeHolding a v =>
    rw [masterDispatch_of hcode rfl]
    exact eMBMasterFuncWriteHoldingRegister_absorbs hfit hexec hframe
  | writeCoils a vs =>
    rw [masterDispatch_of hcode rfl]
    exact eMBMasterFuncWriteMultipleCoils_absorbs hfit hsnd hexec hframe
  | writeHoldings a vs =>
    rw [masterDispatch_of hcode rfl]
    exact eMBMasterFuncWriteMultipleHoldingRegister_absorbs hfit hsnd hexec
  | readWriteHoldings ra rn wa vs =>
    rw [masterDispatch_of hcode rfl]
    exact eMBMasterFuncReadWriteMultipleHoldingRegister_absorbs hfit hb hsnd hexec hframe

end Absorb

/-! ## The exchange -/

/-- The PDU of a request that fits is short. -/
theorem Fits.pdu_length {r : Request} (h : Fits r) : r.pdu.length < 512 := by
  cases r with
  | writeCoils a vs =>
    have hin : a.toNat + vs.length ≤ 64 := h.2
    simp [Request.pdu, Request.tail, byteCount]
    omega
  | writeHoldings a vs =>
    have hin : a.toNat + vs.length ≤ 100 := h.2
    simp [Request.pdu, Request.tail]
    omega
  | readWriteHoldings ra rn wa vs =>
    have hin : wa.toNat + vs.length ≤ 100 := h.2.2
    simp [Request.pdu, Request.tail]
    omega
  | _ => simp [Request.pdu, Request.tail]

/-- What an exchange leaves. -/
structure Exchange where
  slave : FuncResult SlaveApp
  master : FuncResult MasterApp

/-- A call writes its PDU into the send buffer, the slave gets `usLength` bytes of it and serves
them, and the master handles the reply.  The buffers are what the exchange finds in them. -/
def exchange (k : UChar) (c : MasterCall) (slave : SlaveApp) (master : MasterApp)
    (sndBuf slaveBuf rcvBuf : Buf) : Exchange :=
  let snd := sndBuf.write 0 c.req.pdu
  let usLength := c.req.usLength.toNat
  let res := slaveDispatch xFuncHandlers slave (Mem.ofList (slice snd 0 usLength) slaveBuf) usLength
  let reply := slice res.pucFrame 0 res.usLen
  { slave := res
    master := masterDispatch ⟨k, false, snd⟩ master (Mem.ofList reply rcvBuf) res.usLen }

/-- The slave that got a request answered it, if the answer has a reply. -/
theorem FuncResult.answer_eq {res : FuncResult SlaveApp} {s : Store slaveShape}
    {reply : List UChar} (h : res.answer = ⟨.none, s, some reply⟩) :
    res.eStatus = .none ∧ res.app.store = s ∧ slice res.pucFrame 0 res.usLen = reply := by
  have hst : res.eStatus = .none := (congrArg Answer.exception h).trans rfl
  have hreply : res.answer.reply = some reply := (congrArg Answer.reply h).trans rfl
  rw [FuncResult.answer, if_pos hst] at hreply
  exact ⟨hst, (congrArg Answer.store h).trans rfl, Option.some.inj hreply⟩

/-- For every request inside the maps the exchange succeeds on both sides, and the mirror of the
slave then agrees with the slave on the items addressed and is unchanged elsewhere. -/
theorem exchange_agrees (k : UChar) {c : MasterCall} (hc : c.Proper) (hfit : Fits c.request)
    (slave : SlaveApp) (master : MasterApp) (sndBuf slaveBuf rcvBuf : Buf) :
    let e := exchange k c slave master sndBuf slaveBuf rcvBuf
    c.req.illArg = false ∧ e.slave.eStatus = .none ∧ e.master.eStatus = .none ∧
      UpdatesRow k (fun row => Store.overlay c.request e.slave.app.store row) master
        e.master.app := by
  intro e
  have hpdu : c.req.pdu = c.request.pdu := MasterCall.pdu_eq hc
  have hlen : c.req.usLength.toNat = c.request.pdu.length := by
    rw [MasterCall.usLength_eq (hpdu ▸ hfit.pdu_length), hpdu]
  have hsnd : (sndBuf.write 0 c.req.pdu).Holds 0 c.request.pdu := by
    rw [hpdu]
    exact Mem.holds_write ..
  obtain ⟨reply, s', hexec⟩ := hfit.exec slave.store
  have hres : e.slave.answer = ⟨.none, s', some (reply.pdu c.request)⟩ := by
    rw [← answerOf_some hexec, ← slaveDispatch_answer hfit.wellFormed (Mem.holds_ofList ..)]
    simp only [e, exchange, hlen]
    rw [show slice _ 0 _ = c.request.pdu from hsnd]
  obtain ⟨hst, hstore, hreply⟩ := FuncResult.answer_eq hres
  have husLen : e.slave.usLen = (reply.pdu c.request).length := by
    rw [← hreply, slice_length]
  have hfin : e.master = masterDispatch ⟨k, false, sndBuf.write 0 c.req.pdu⟩ master
      (Mem.ofList (reply.pdu c.request) rcvBuf) (reply.pdu c.request).length := by
    rw [← husLen, ← hreply]
    rfl
  have habs : Absorbs k c.request reply master e.master := by
    rw [hfin]
    exact masterDispatch_absorbs hfit rfl hsnd hexec (Mem.holds_ofList ..)
  refine ⟨MasterCall.not_illArg hc, hst, habs.1, ?_⟩
  rw [hstore]
  have hrow := habs.2
  simp only [absorb_exec hexec] at hrow
  exact hrow

/-- Slave 3 is asked to write two registers from address 98 on and to read the last three. -/
theorem exchange_agrees_readWrite :
    let c : MasterCall := .readWriteMultipleHoldingRegister 97 3 (fun _ => 7) 98 2
    let e := exchange 3 c .initial .initial (fun _ => 0) (fun _ => 0) (fun _ => 0)
    e.master.eStatus = .none ∧ (e.master.app.row 3).holdings.get 99 = 7 ∧
      (e.master.app.row 2).holdings.get 99 = 0 := by
  intro c e
  have hfit : Fits c.request := ⟨⟨by decide, by decide⟩, by decide, by decide⟩
  obtain ⟨-, -, hst, hrow⟩ := exchange_agrees 3 (c := c) trivial hfit .initial .initial
    (fun _ => 0) (fun _ => 0) (fun _ => 0)
  refine ⟨hst, ?_, ?_⟩
  · rw [hrow 3]
    decide
  · rw [hrow 2]
    decide

end FreeModbus
