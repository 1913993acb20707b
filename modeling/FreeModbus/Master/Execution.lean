import FreeModbus.Master.Phases

/-!
# The execution of a frame

`EV_MASTER_EXECUTE` takes the exception of an exception reply, or runs the handler
for the function code of the frame: once, or for every slave after a broadcast.
What comes out is said by `Accepts` and `Stores`, the conditions of the handlers.
-/

namespace FreeModbus

open ByteMemory

/-- The frame has the exception bit. -/
def ExceptionFrame (frame : Buf) : Prop := frame mbPduFuncOff >>> 7 ≠ 0

instance (frame : Buf) : Decidable (ExceptionFrame frame) := by
  unfold ExceptionFrame
  infer_instance

namespace Master

variable {s : Master}

/-! ## The cases of the execution -/

/-- An exception reply is not given to a handler. -/
theorem executeFrame_exception (h : ExceptionFrame s.frame) :
    s.executeFrame = { s with
      ucFunctionCode := s.frame mbPduFuncOff
      eException := s.frame mbPduDataOff } := if_pos h

/-- The state in which the handler is looked up. -/
def fetched (s : Master) : Master :=
  { s with
    ucFunctionCode := s.frame mbPduFuncOff
    eException := MBException.illegalFunction.code }

/-- Any other frame is given to the handler for its function code. -/
theorem executeFrame_handler (h : ¬ ExceptionFrame s.frame) :
    s.executeFrame =
      match findHandler (s.frame mbPduFuncOff) xMasterFuncHandlers with
      | none => s.fetched
      | some pxHandler =>
          if s.xFrameIsBroadcast then callHandlerAll pxHandler s.fetched
          else callHandler pxHandler s.fetched := if_neg h

theorem setFrame_log (s : Master) (frame : Buf) : (s.setFrame frame).log = s.log := by
  unfold setFrame
  split <;> rfl

/-! ## What is recorded -/

theorem callHandler_log (pxHandler : MasterHandler) (s : Master) :
    ∃ n, (callHandler pxHandler s).log = List.replicate n .handled ++ s.log := by
  unfold callHandler
  dsimp only
  split
  · exact ⟨1, congrArg (MasterEvent.handled :: ·) (setFrame_log s _)⟩
  · exact ⟨0, setFrame_log s _⟩

theorem callHandlerAll_log (pxHandler : MasterHandler) (s : Master) :
    ∃ n, (callHandlerAll pxHandler s).log = List.replicate n .handled ++ s.log := by
  unfold callHandlerAll
  refine List.foldlRecOn (motive := fun t : Master =>
    ∃ n, t.log = List.replicate n .handled ++ s.log) _ _ ?_ fun t ⟨n, hn⟩ j _ => ?_
  · exact ⟨0, rfl⟩
  obtain ⟨m, hm⟩ := callHandler_log pxHandler
    { t with ucMBMasterDestAddress := BitVec.ofNat 8 (j + 1) }
  have hlog : List.replicate m .handled ++ t.log = List.replicate (m + n) .handled ++ s.log := by
    rw [hn, ← List.append_assoc, List.replicate_append_replicate]
  exact ⟨m + n, hm.trans hlog⟩

/-- The execution of a frame records handlers that succeed, and nothing else. -/
theorem executeFrame_log (s : Master) :
    ∃ n, s.executeFrame.log = List.replicate n .handled ++ s.log := by
  by_cases h : ExceptionFrame s.frame
  · rw [executeFrame_exception h]
    exact ⟨0, rfl⟩
  · rw [executeFrame_handler h]
    split
    · exact ⟨0, rfl⟩
    · split
      · exact callHandlerAll_log _ s.fetched
      · exact callHandler_log _ s.fetched

/-! ## One slave -/

/-- What the handler for the frame gives. -/
def dispatched (s : Master) : FuncResult MasterApp :=
  masterDispatch s.ctx s.app s.frame s.usLength

/-- A reply to a unicast request is given to the handler for its function code. -/
theorem executeFrame_unicast (h : ¬ ExceptionFrame s.frame) (hb : s.xFrameIsBroadcast = false) :
    s.executeFrame.eException = s.dispatched.eStatus.code ∧
      s.executeFrame.app = s.dispatched.app ∧
      (s.dispatched.eStatus = .none → s.executeFrame.log = .handled :: s.log) := by
  rw [executeFrame_handler h]
  unfold dispatched masterDispatch
  cases hfind : findHandler (s.frame mbPduFuncOff) xMasterFuncHandlers with
  | none => exact ⟨rfl, rfl, nofun⟩
  | some pxHandler =>
    dsimp only
    rw [if_neg (Bool.eq_false_iff.mp hb)]
    unfold callHandler
    dsimp only
    split
    · exact ⟨rfl, rfl, fun _ => congrArg (MasterEvent.handled :: ·) (setFrame_log s.fetched _)⟩
    · rename_i hsome
      exact ⟨rfl, rfl, fun hnone => absurd hnone hsome⟩

end Master

end FreeModbus
