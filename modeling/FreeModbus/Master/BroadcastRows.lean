import FreeModbus.Master.Reflection
import FreeModbus.Slave.Store

/-!
# The execution of a broadcast

After the convert delay `EV_MASTER_EXECUTE` finds the request itself where `ucMBFrame`
points, and its handler runs on it once for every slave.  The handler of a write
checks the range that the request names: inside the map the row of every slave gets
what the request says, as if it were a store of its own, and outside the handler
refuses the request for every slave.  The handler of a read leaves a broadcast alone.
-/

namespace FreeModbus

open ByteMemory DataModel Transition

/-! ## Requests -/

/-- A write with proper arguments, and no more data than the send buffer has room for. -/
def MasterCall.BroadcastWrite : MasterCall → Prop
  | .writeCoil _ v => v = 0xFF00 ∨ v = 0x0000
  | .writeHoldingRegister _ _ => True
  | .writeMultipleCoils _ n buf => (1 ≤ n.toNat ∧ n.toNat ≤ 1952) ∧
      ∀ j, n.toNat ≤ j → j < 8 * byteCount n.toNat → bitAt buf j = false
  | .writeMultipleHoldingRegister _ n _ => 1 ≤ n.toNat ∧ n.toNat ≤ 122
  | _ => False

/-- A request of function 1, 2, 3 or 4. -/
def MasterCall.BroadcastRead : MasterCall → Prop
  | .readCoils _ _ => True
  | .readDiscreteInputs _ _ => True
  | .readHoldingRegister _ _ => True
  | .readInputRegister _ _ => True
  | _ => False

/-- The range that a write names is inside the map. -/
def MasterCall.InMap : MasterCall → Prop
  | .writeCoil a _ => Inside mCoilNcoils a 1
  | .writeHoldingRegister a _ => Inside mRegHoldingNregs a 1
  | .writeMultipleCoils a n _ => Inside mCoilNcoils a n.toNat
  | .writeMultipleHoldingRegister a n _ => Inside mRegHoldingNregs a n.toNat
  | _ => False

instance : ∀ c : MasterCall, Decidable c.InMap
  | .writeCoil a _ => inferInstanceAs (Decidable (Inside mCoilNcoils a 1))
  | .writeHoldingRegister a _ => inferInstanceAs (Decidable (Inside mRegHoldingNregs a 1))
  | .writeMultipleCoils a n _ => inferInstanceAs (Decidable (Inside mCoilNcoils a n.toNat))
  | .writeMultipleHoldingRegister a n _ =>
      inferInstanceAs (Decidable (Inside mRegHoldingNregs a n.toNat))
  | .readCoils _ _ => isFalse id
  | .readDiscreteInputs _ _ => isFalse id
  | .readHoldingRegister _ _ => isFalse id
  | .readInputRegister _ _ => isFalse id
  | .readWriteMultipleHoldingRegister _ _ _ _ _ => isFalse id

/-- What the handler of a write returns for every slave. -/
def MasterCall.broadcastStatus (c : MasterCall) : MBException :=
  if c.InMap then .none else .illegalDataAddress

/-- What a broadcast leaves of the mirror: the row of every slave holds what the request writes
and is as it was elsewhere, or the request was outside the map and no row has changed. -/
def MasterCall.Broadcasts (c : MasterCall) (app app' : MasterApp) : Prop :=
  if c.InMap then
    ∀ k : UChar, 1 ≤ k.toNat → k.toNat ≤ mbMasterTotalSlaveNum →
      (app.row k).exec c.request = some (.written, app'.row k)
  else app' = app

theorem after_of_exec {σ : Shape} {row row' : Store σ} {r : Request} {reply : Reply}
    (h : row.exec r = some (reply, row')) : row.after r = row' := by
  rw [Store.after, h]

/-- A write inside the map is executed by every store. -/
theorem MasterCall.BroadcastWrite.exec {c : MasterCall} (hw : c.BroadcastWrite) (hin : c.InMap)
    (row : Store masterShape) : row.exec c.request = some (.written, row.after c.request) := by
  have hexec : ∃ row', row.exec c.request = some (.written, row') := by
    cases c with
    | writeCoil a v => exact ⟨_, if_pos hin⟩
    | writeHoldingRegister a v => exact ⟨_, if_pos hin⟩
    | writeMultipleCoils a n buf =>
      refine ⟨_, if_pos ?_⟩
      rw [List.length_map, List.length_range]
      exact hin
    | writeMultipleHoldingRegister a n buf =>
      refine ⟨_, if_pos ?_⟩
      rw [List.length_map, List.length_range]
      exact hin
    | _ => exact hw.elim
  obtain ⟨row', heq⟩ := hexec
  rw [after_of_exec heq]
  exact heq

/-- A row that was updated as the request says. -/
theorem UpdatesRow.after {k : UChar} {f : Store masterShape → Store masterShape}
    {app app' : MasterApp} {r : Request} (h : UpdatesRow k f app app')
    (hf : ∀ row : Store masterShape, row.exec r = some (.written, f row)) :
    UpdatesRow k (fun row => row.after r) app app' := by
  intro k'
  rw [h k', ← after_of_exec (hf (app.row k))]

namespace Master

variable {s : Master} {c : MasterCall} {pxHandler : MasterHandler}
  {w : UChar → MasterApp → MasterApp} {a n v : UShort}

/-! ## Handlers -/

/-- For every slave the handler writes what the call asks for in the row of that slave, or refuses
the request. -/
structure HandledBy (c : MasterCall) (s : Master) (pxHandler : MasterHandler)
    (w : UChar → MasterApp → MasterApp) : Prop where
  run : ∀ k app, pxHandler { s.ctx with ucMBMasterDestAddress := k } app s.frame
    s.usMasterSendPDULength.toNat =
      ⟨c.broadcastStatus, s.frame, s.usMasterSendPDULength.toNat, w k app⟩
  inside : c.InMap → ∀ k app, UpdatesRow k (fun row => row.after c.request) app (w k app)
  outside : ¬ c.InMap → ∀ k app, w k app = app

/-- A handler whose checks the request passes, so that its callback decides. -/
theorem handledBy_of_stored {cb : MasterCallback} {size : Nat} {buf : Buf}
    (hcb : ChecksRange cb size) (hin : c.InMap ↔ inRange a n 0 size)
    (hrun : ∀ k app, pxHandler { s.ctx with ucMBMasterDestAddress := k } app s.frame
      s.usMasterSendPDULength.toNat =
        stored s.frame s.usMasterSendPDULength.toNat (cb k app buf (a + 1) n))
    (hup : c.InMap → ∀ k app, ∃ app', cb k app buf (a + 1) n = (.enoerr, app') ∧
      UpdatesRow k (fun row => row.after c.request) app app') :
    HandledBy c s pxHandler fun k app => (cb k app buf (a + 1) n).2 where
  run k app := by
    rw [hrun, stored_checks hcb, MasterCall.broadcastStatus]
    simp only [hin]
  inside h k app := by
    obtain ⟨app', heq, hrow⟩ := hup h k app
    rw [heq]
    exact hrow
  outside h k app := hcb.unchanged (mt hin.mpr h)

theorem writeCoil_handled (hw : (MasterCall.writeCoil a v).BroadcastWrite)
    (h : Answering (.writeCoil a v) s) (hb : s.xFrameIsBroadcast = true) :
    HandledBy (.writeCoil a v) s eMBMasterFuncWriteCoil fun k app =>
      (eMBMasterRegCoilsCB k app (coilBuf (decide (v = 0xFF00))) (a + 1) 1).2 := by
  obtain ⟨ha, -, hv, hz⟩ := request_single h.request
  rw [← h.frame_eq hb] at ha hv hz
  have hvalue : frame s 3 = (if decide (v = 0xFF00) then 0xFF else 0x00) ∧ frame s 4 = 0x00 := by
    rw [hv, hz]
    rcases hw with rfl | rfl
    · decide
    · decide
  have hlen : s.usMasterSendPDULength.toNat = 5 := congrArg BitVec.toNat h.length
  have hin : (MasterCall.writeCoil a v).InMap ↔ inRange a 1 0 mCoilNcoils :=
    (inRange_zero (n := 1)).symm
  refine handledBy_of_stored eMBMasterRegCoilsCB_checks hin (fun k app => ?_) fun hin k app => ?_
  · rw [hlen]
    exact eMBMasterFuncWriteCoil_passes ha hvalue.1 hvalue.2
  · obtain ⟨app', heq, hrow⟩ :=
      eMBMasterRegCoilsCB_ok k app (n := 1) (coilBuf_holds (decide (v = 0xFF00))) rfl hin
    exact ⟨app', heq, hrow.after fun row => if_pos hin⟩

theorem writeHoldingRegister_handled (h : Answering (.writeHoldingRegister a v) s)
    (hb : s.xFrameIsBroadcast = true) :
    HandledBy (.writeHoldingRegister a v) s eMBMasterFuncWriteHoldingRegister fun k app =>
      (eMBMasterRegHoldingCB k app (s.frame.at 3) (a + 1) 1).2 := by
  have hrequest := h.request
  rw [← h.frame_eq hb] at hrequest
  obtain ⟨ha, -, -, -⟩ := request_single hrequest
  have hdata : (s.frame.at 3).Holds 0 (packWordList [v]) := by
    simp only [MasterCall.req, eMBMasterReqWriteHoldingRegister, Mem.holds_cons,
      Mem.holds_append] at hrequest
    rw [packWordList_one, Mem.holds_at]
    exact hrequest.2.2
  have hlen : s.usMasterSendPDULength.toNat = 5 := congrArg BitVec.toNat h.length
  have hin : (MasterCall.writeHoldingRegister a v).InMap ↔ inRange a 1 0 mRegHoldingNregs :=
    (inRange_zero (n := 1)).symm
  refine handledBy_of_stored eMBMasterRegHoldingCB_checks hin (fun k app => ?_) fun hin k app => ?_
  · rw [hlen]
    exact eMBMasterFuncWriteHoldingRegister_passes ha
  · obtain ⟨app', heq, hrow⟩ := eMBMasterRegHoldingCB_ok k app (n := 1) hdata rfl hin
    exact ⟨app', heq, hrow.after fun row => if_pos hin⟩

theorem writeMultipleCoils_handled {buf : Buf}
    (hw : (MasterCall.writeMultipleCoils a n buf).BroadcastWrite)
    (h : Answering (.writeMultipleCoils a n buf) s) (hb : s.xFrameIsBroadcast = true) :
    HandledBy (.writeMultipleCoils a n buf) s eMBMasterFuncWriteMultipleCoils fun k app =>
      (eMBMasterRegCoilsCB k app (s.ctx.pucPDUSndBuf.at 6) (a + 1) n).2 := by
  obtain ⟨⟨hpos, hmax⟩, hpad⟩ := hw
  obtain ⟨ha, hn, hcount, -⟩ := request_writeMultipleCoils h.request
  rw [← h.frame_eq hb] at ha hn
  have hdata : (s.ctx.pucPDUSndBuf.at 6).Holds 0
      (packBools ((List.range n.toNat).map (bitAt buf))) := by
    have hrequest := h.request
    simp only [MasterCall.req, eMBMasterReqWriteMultipleCoils, Mem.holds_cons, Mem.holds_append]
      at hrequest
    rw [← packBools_range hpad, ← toNat_ucNBytes (by omega : n.toNat < 2040), Mem.holds_at]
    exact hrequest.2.2.2
  have hlen : n.toNat = ((List.range n.toNat).map (bitAt buf)).length := by
    rw [List.length_map, List.length_range]
  refine handledBy_of_stored eMBMasterRegCoilsCB_checks inRange_zero.symm (fun k app => ?_)
    fun hin k app => ?_
  · exact eMBMasterFuncWriteMultipleCoils_passes (Or.inr hb) ha hn ⟨hpos, hcount.symm⟩
  · have hin' : Inside mCoilNcoils a ((List.range n.toNat).map (bitAt buf)).length := hlen ▸ hin
    obtain ⟨app', heq, hrow⟩ := eMBMasterRegCoilsCB_ok k app hdata hlen hin'
    exact ⟨app', heq, hrow.after fun row => if_pos hin'⟩

theorem writeMultipleHoldingRegister_handled {buf : Mem UShort}
    (hw : (MasterCall.writeMultipleHoldingRegister a n buf).BroadcastWrite)
    (h : Answering (.writeMultipleHoldingRegister a n buf) s) (hb : s.xFrameIsBroadcast = true) :
    HandledBy (.writeMultipleHoldingRegister a n buf) s eMBMasterFuncWriteMultipleHoldingRegister
      fun k app => (eMBMasterRegHoldingCB k app (s.ctx.pucPDUSndBuf.at 6) (a + 1) n).2 := by
  have hmax : n.toNat ≤ 122 := hw.2
  obtain ⟨ha, hn, hcount, -⟩ := request_writeMultipleHoldingRegister h.request
  have hbytes : (s.ctx.pucPDUSndBuf 5).toNat = 2 * n.toNat := by
    rw [hcount, setWidth_mul_two, BitVec.toNat_ofNat]
    omega
  have hdata : (s.ctx.pucPDUSndBuf.at 6).Holds 0
      (packWordList ((List.range n.toNat).map buf)) := by
    have hrequest := h.request
    simp only [MasterCall.req, eMBMasterReqWriteMultipleHoldingRegister, Mem.holds_cons,
      Mem.holds_append] at hrequest
    rw [← packWordList_range, Mem.holds_at]
    exact hrequest.2.2.2
  have hlen : n.toNat = ((List.range n.toNat).map buf).length := by
    rw [List.length_map, List.length_range]
  refine handledBy_of_stored eMBMasterRegHoldingCB_checks inRange_zero.symm (fun k app => ?_)
    fun hin k app => ?_
  · exact eMBMasterFuncWriteMultipleHoldingRegister_passes (Or.inr hb) ha hn hbytes
  · have hin' : Inside mRegHoldingNregs a ((List.range n.toNat).map buf).length := hlen ▸ hin
    obtain ⟨app', heq, hrow⟩ := eMBMasterRegHoldingCB_ok k app hdata hlen hin'
    exact ⟨app', heq, hrow.after fun row => if_pos hin'⟩

/-- Every write that may be broadcast has such a handler. -/
theorem broadcastWrite_handled (hw : c.BroadcastWrite)
    (h : Answering c s) (hb : s.xFrameIsBroadcast = true) :
    ∃ pxHandler w, findHandler c.request.code xMasterFuncHandlers = some pxHandler ∧
      HandledBy c s pxHandler w := by
  cases c with
  | writeCoil a v => exact ⟨_, _, rfl, writeCoil_handled hw h hb⟩
  | writeHoldingRegister a v => exact ⟨_, _, rfl, writeHoldingRegister_handled h hb⟩
  | writeMultipleCoils a n buf => exact ⟨_, _, rfl, writeMultipleCoils_handled hw h hb⟩
  | writeMultipleHoldingRegister a n buf =>
    exact ⟨_, _, rfl, writeMultipleHoldingRegister_handled hw h hb⟩
  | _ => exact hw.elim

/-! ## All slaves -/

/-- The loop over the slaves updates every row once. -/
theorem HandledBy.broadcasts (h : HandledBy c s pxHandler w) (hw : c.BroadcastWrite)
    (app : MasterApp) :
    c.Broadcasts app ((List.range mbMasterTotalSlaveNum).foldl
      (fun app j => w (BitVec.ofNat 8 (j + 1)) app) app) := by
  unfold MasterCall.Broadcasts
  split
  · rename_i hin
    intro k h1 h16
    let row : MasterApp → Nat → Store masterShape := fun app j => app.row (BitVec.ofNat 8 (j + 1))
    let write : MasterApp → Nat → MasterApp := fun app j => w (BitVec.ofNat 8 (j + 1)) app
    have hstep : ∀ app i j, i < mbMasterTotalSlaveNum → j < mbMasterTotalSlaveNum →
        row (write app j) i = if i = j then (row app i).after c.request else row app i := by
      intro app i j hi hj
      show (w _ app).row _ = _
      rw [h.inside hin (BitVec.ofNat 8 (j + 1)) app (BitVec.ofNat 8 (i + 1))]
      rcases Nat.lt_trichotomy i j with hlt | rfl | hgt
      · rw [if_neg (ofNat_succ_ne hlt hj), if_neg (Nat.ne_of_lt hlt)]
      · rw [if_pos rfl, if_pos rfl]
      · rw [if_neg (ofNat_succ_ne hgt hi).symm, if_neg (Nat.ne_of_gt hgt)]
    have hlt : k.toNat - 1 < mbMasterTotalSlaveNum := by omega
    have hrow : row _ _ = _ := sweep_rows row write (·.after c.request) hstep app (k.toNat - 1) hlt
    simp only [row, write, ofNat_pred_succ h1] at hrow
    rw [hrow]
    exact hw.exec hin _
  · rename_i hout
    refine List.foldlRecOn (motive := fun t => t = app) _ _ rfl fun t ht j _ => ?_
    rw [h.outside hout, ht]

/-- The execution of a broadcast write. -/
theorem executeFrame_broadcastWrite (hw : c.BroadcastWrite) (h : Answering c s)
    (hb : s.xFrameIsBroadcast = true) :
    s.executeFrame.eException = c.broadcastStatus.code ∧
      c.Broadcasts s.app s.executeFrame.app := by
  obtain ⟨pxHandler, w, hfind, hrun⟩ := broadcastWrite_handled hw h hb
  have hhandler : s.executeFrame = callHandlerAll pxHandler s.fetched := by
    rw [executeFrame_handler (not_exceptionFrame h.code), h.code, hfind]
    exact if_pos hb
  obtain ⟨hex, happ⟩ := callHandlerAll_app (s := s.fetched) hrun.run
  rw [hhandler, happ]
  exact ⟨hex, hrun.broadcasts hw s.app⟩

/-- The execution of a broadcast read. -/
theorem executeFrame_broadcastRead (hr : c.BroadcastRead) (h : Answering c s)
    (hb : s.xFrameIsBroadcast = true) : s.executeFrame.app = s.app := by
  refine executeFrame_app ?_
  have hno : ∀ {bytecntOk size}, ¬ ReadStores s.ctx s.frame s.executedLen bytecntOk size :=
    fun hst => absurd (hst.1.symm.trans hb) Bool.false_ne_true
  have hcode := h.code
  cases c with
  | readCoils a n =>
    rw [Stores, show s.frame 0 = 1 from hcode]
    exact hno
  | readDiscreteInputs a n =>
    rw [Stores, show s.frame 0 = 2 from hcode]
    exact hno
  | readHoldingRegister a n =>
    rw [Stores, show s.frame 0 = 3 from hcode]
    exact hno
  | readInputRegister a n =>
    rw [Stores, show s.frame 0 = 4 from hcode]
    exact hno
  | _ => exact hr.elim

end Master

end FreeModbus
