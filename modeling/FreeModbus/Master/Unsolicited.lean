import FreeModbus.Master.Execution

/-!
# Frames that answer no request

A frame that was completely received while the run resource is free is executed
like any other: destination address, broadcast flag and send buffer are what the
last request left.  `snapshot` is the mirror at the moment such a frame came in,
and stays until the next frame or the end of a convert delay.

A frame that `Stores` does not hold of leaves the mirror as it was.  The other
frames are the ones that `Harmless` excludes.
-/

namespace FreeModbus

open ByteMemory EventFlags Transition

/-! ## Handlers -/

/-- The handler gives the frame and its length back as they were. -/
def Echoes (h : MasterHandler) : Prop :=
  ∀ ctx app frame usLen, ∃ eStatus app', h ctx app frame usLen = ⟨eStatus, frame, usLen, app'⟩

theorem stored_echo (frame : Buf) (usLen : Nat) (reg : MBErrorCode × MasterApp) :
    ∃ eStatus app', stored frame usLen reg = ⟨eStatus, frame, usLen, app'⟩ := by
  unfold stored
  split
  · exact ⟨_, _, rfl⟩
  · exact ⟨_, _, rfl⟩

theorem masterFuncRead_echoes (bytecntOk : UShort → UChar → Bool) (cb : MasterCallback) :
    Echoes (masterFuncRead bytecntOk cb) := by
  intro ctx app frame usLen
  unfold masterFuncRead
  split
  · exact ⟨_, _, rfl⟩
  · split
    · dsimp only
      split
      · exact stored_echo ..
      · exact ⟨_, _, rfl⟩
    · exact ⟨_, _, rfl⟩

theorem eMBMasterFuncWriteCoil_echoes : Echoes eMBMasterFuncWriteCoil := by
  intro ctx app frame usLen
  unfold eMBMasterFuncWriteCoil
  split
  · dsimp only
    split
    · exact stored_echo ..
    · exact ⟨_, _, rfl⟩
  · exact ⟨_, _, rfl⟩

theorem eMBMasterFuncWriteHoldingRegister_echoes : Echoes eMBMasterFuncWriteHoldingRegister := by
  intro ctx app frame usLen
  unfold eMBMasterFuncWriteHoldingRegister
  split
  · exact stored_echo ..
  · exact ⟨_, _, rfl⟩

theorem eMBMasterFuncWriteMultipleCoils_echoes : Echoes eMBMasterFuncWriteMultipleCoils := by
  intro ctx app frame usLen
  unfold eMBMasterFuncWriteMultipleCoils
  split
  · dsimp only
    split
    · exact stored_echo ..
    · exact ⟨_, _, rfl⟩
  · exact ⟨_, _, rfl⟩

theorem eMBMasterFuncWriteMultipleHoldingRegister_echoes :
    Echoes eMBMasterFuncWriteMultipleHoldingRegister := by
  intro ctx app frame usLen
  unfold eMBMasterFuncWriteMultipleHoldingRegister
  split
  · dsimp only
    split
    · exact stored_echo ..
    · exact ⟨_, _, rfl⟩
  · exact ⟨_, _, rfl⟩

theorem eMBMasterFuncReadWriteMultipleHoldingRegister_echoes :
    Echoes eMBMasterFuncReadWriteMultipleHoldingRegister := by
  intro ctx app frame usLen
  unfold eMBMasterFuncReadWriteMultipleHoldingRegister
  split
  · exact ⟨_, _, rfl⟩
  · split
    · dsimp only
      split
      · split
        · exact stored_echo ..
        · exact stored_echo ..
      · exact ⟨_, _, rfl⟩
    · exact ⟨_, _, rfl⟩

/-- Function 17 alone changes the frame, and it never changes the mirror. -/
theorem echoes_of_findHandler {code : UChar} {h : MasterHandler}
    (hfind : findHandler code xMasterFuncHandlers = some h) :
    Echoes h ∨ h = masterReportSlaveID := by
  rcases findHandler_xMasterFuncHandlers hfind with
      ⟨-, rfl⟩ | ⟨-, rfl⟩ | ⟨-, rfl⟩ | ⟨-, rfl⟩ | ⟨-, rfl⟩ | ⟨-, rfl⟩ | ⟨-, rfl⟩ | ⟨-, rfl⟩ |
      ⟨-, rfl⟩ | ⟨-, rfl⟩
  · exact Or.inr rfl
  · exact Or.inl (masterFuncRead_echoes _ _)
  · exact Or.inl (masterFuncRead_echoes _ _)
  · exact Or.inl eMBMasterFuncWriteMultipleHoldingRegister_echoes
  · exact Or.inl eMBMasterFuncWriteHoldingRegister_echoes
  · exact Or.inl eMBMasterFuncReadWriteMultipleHoldingRegister_echoes
  · exact Or.inl (masterFuncRead_echoes _ _)
  · exact Or.inl eMBMasterFuncWriteCoil_echoes
  · exact Or.inl eMBMasterFuncWriteMultipleCoils_echoes
  · exact Or.inl (masterFuncRead_echoes _ _)

instance (ctx : MasterCtx) (frame : Buf) (usLen : Nat) : Decidable (Stores ctx frame usLen) := by
  unfold Stores ReadStores WriteCoilStores WriteRegStores WriteCoilsStores WriteRegsStores
    ReadWriteStores
  split <;> infer_instance

namespace Master

variable {s s' : Master}

/-! ## Broadcasts -/

/-- The length with which the handler is called. -/
def executedLen (s : Master) : Nat :=
  if s.xFrameIsBroadcast then s.usMasterSendPDULength.toNat else s.usLength

theorem setFrame_frame (s : Master) : s.setFrame s.frame = s := by
  unfold setFrame
  split
  · rename_i hf
    have hframe : s.frame = s.ucMasterRTURcvBuf.at mbSerPduPduOff := by rw [frame, hf]
    rw [hframe, Mem.splice_at]
  · rename_i hf
    have hframe : s.frame = s.ucMasterRTUSndBuf.at mbSerPduPduOff := by rw [frame, hf]
    rw [hframe, Mem.splice_at]
  · rfl

/-- What a handler that stores nothing may change: the destination address, the exception and
the log. -/
def Idles (s s' : Master) : Prop :=
  ∃ dest ex log, s' = { s with
    ucMBMasterDestAddress := dest
    eException := ex
    log := log }

theorem Idles.refl (s : Master) : Idles s s := ⟨_, _, _, rfl⟩

theorem Idles.trans {s₁ s₂ s₃ : Master} (h : Idles s₁ s₂) (h' : Idles s₂ s₃) : Idles s₁ s₃ := by
  obtain ⟨_, _, _, rfl⟩ := h
  obtain ⟨_, _, _, rfl⟩ := h'
  exact ⟨_, _, _, rfl⟩

theorem Idles.app (h : Idles s s') : s'.app = s.app := by
  obtain ⟨_, _, _, rfl⟩ := h
  rfl

/-- The destination address does not decide whether a reply is stored. -/
theorem Idles.stores_iff (h : Idles s s') :
    Stores s'.ctx s'.frame s'.usLength ↔ Stores s.ctx s.frame s.usLength := by
  obtain ⟨_, _, _, rfl⟩ := h
  exact Iff.rfl

/-- One call of a handler that echoes the frame and stores nothing. -/
theorem callHandler_idles {pxHandler : MasterHandler} (he : Echoes pxHandler)
    (happ : (pxHandler s.ctx s.app s.frame s.usLength).app = s.app) :
    Idles s (callHandler pxHandler s) := by
  obtain ⟨eStatus, app', heq⟩ := he s.ctx s.app s.frame s.usLength
  rw [heq] at happ
  have happ : app' = s.app := happ
  unfold callHandler
  dsimp only
  rw [heq, happ]
  dsimp only
  rw [setFrame_frame]
  split
  · exact ⟨_, _, _, rfl⟩
  · exact ⟨_, _, _, rfl⟩

/-- The calls of such a handler for all slaves. -/
theorem callHandlerAll_idles {pxHandler : MasterHandler} (he : Echoes pxHandler)
    (happ : ∀ t, Idles { s with usLength := s.usMasterSendPDULength.toNat } t →
      (pxHandler t.ctx t.app t.frame t.usLength).app = t.app) :
    Idles { s with usLength := s.usMasterSendPDULength.toNat } (callHandlerAll pxHandler s) := by
  refine List.foldlRecOn (motive := Idles _) _ _ (.refl _) fun t ht j _ => ?_
  have hdest : Idles _ { t with ucMBMasterDestAddress := BitVec.ofNat 8 (j + 1) } :=
    ht.trans ⟨_, _, _, rfl⟩
  exact hdest.trans (callHandler_idles he (happ _ hdest))

theorem callHandler_app (pxHandler : MasterHandler) (s : Master) :
    (callHandler pxHandler s).app = (pxHandler s.ctx s.app s.frame s.usLength).app := by
  unfold callHandler
  dsimp only
  split <;> rfl

/-- Function 17 stores nothing, for no slave. -/
theorem callHandlerAll_reportSlaveID (s : Master) :
    (callHandlerAll masterReportSlaveID s).app = s.app :=
  List.foldlRecOn (motive := fun t : Master => t.app = s.app) _ _ rfl
    fun _ ht _ _ => (callHandler_app masterReportSlaveID _).trans ht

/-! ## The execution of a frame that stores nothing -/

/-- A frame that `Stores` does not hold of leaves the mirror as it was. -/
theorem executeFrame_app (h : ¬ Stores s.ctx s.frame s.executedLen) :
    s.executeFrame.app = s.app := by
  by_cases hex : ExceptionFrame s.frame
  · rw [executeFrame_exception hex]
  · cases hb : s.xFrameIsBroadcast with
    | false =>
      rw [executedLen, hb] at h
      rw [(executeFrame_unicast hex hb).2.1]
      exact (masterDispatch_meets s.ctx s.app s.frame s.usLength).2 h
    | true =>
      rw [executedLen, hb, if_pos rfl] at h
      rw [executeFrame_handler hex]
      cases hfind : findHandler (s.frame mbPduFuncOff) xMasterFuncHandlers with
      | none => rfl
      | some pxHandler =>
        dsimp only
        rw [if_pos hb]
        rcases echoes_of_findHandler hfind with he | rfl
        · refine (callHandlerAll_idles (s := s.fetched) he fun t ht => ?_).app
          have hns := mt ht.stores_iff.mp h
          have hcode : t.frame mbPduFuncOff = s.frame mbPduFuncOff := by
            obtain ⟨_, _, _, rfl⟩ := ht
            rfl
          rw [← masterDispatch_of hcode hfind]
          exact (masterDispatch_meets ..).2 hns
        · exact callHandlerAll_reportSlaveID s.fetched

/-! ## Steps -/

/-- A frame that is executed after a frame came in unsolicited stores nothing. -/
def Harmless (s : Master) : MasterAction → Prop
  | .poll junk =>
      s.snapshot ≠ none → s.polled junk = some .execute → ¬ Stores s.ctx s.frame s.executedLen
  | _ => True

instance (s : Master) : ∀ a : MasterAction, Decidable (s.Harmless a)
  | .byte _ => isTrue trivial
  | .timer => isTrue trivial
  | .txReady => isTrue trivial
  | .poll _ => by unfold Harmless; infer_instance
  | .refuse _ _ => isTrue trivial
  | .take _ _ => isTrue trivial
  | .fill _ => isTrue trivial
  | .submit _ => isTrue trivial
  | .finish _ => isTrue trivial

/-- The mirror is as it was when the last unsolicited frame came in. -/
def MirrorKept (s : Master) : Prop := ∀ app, s.snapshot = some app → s.app = app

/-- The mirror is untouched, and the snapshot at most taken anew or dropped. -/
structure Untouched (s s' : Master) : Prop where
  app : s'.app = s.app
  snapshot : s'.snapshot = s.snapshot ∨ s'.snapshot = none ∨ s'.snapshot = some s.app

theorem Untouched.refl (s : Master) : Untouched s s := ⟨rfl, Or.inl rfl⟩

theorem Untouched.mirrorKept (h : Untouched s s') (hk : MirrorKept s) : MirrorKept s' := by
  intro app hsnap
  rw [h.app]
  rcases h.snapshot with heq | hnone | hsome
  · exact hk app (heq.symm.trans hsnap)
  · rw [hnone] at hsnap
    cases hsnap
  · exact Option.some.inj (hsome.symm.trans hsnap)

theorem PortStep.untouched (h : PortStep s s') : Untouched s s' := ⟨h.app, h.snapshot⟩

/-- A poll of an event other than `EV_MASTER_EXECUTE`. -/
theorem handle_untouched {ev : Option MBMasterEventType} (hev : ev ≠ some .execute)
    (hs : s.handle ev = some s') : Untouched s s' := by
  cases handled_of_handle hs with
  | nothing => exact .refl s
  | failed => exact absurd rfl hev
  | executed => exact absurd rfl hev
  | _ => exact ⟨rfl, Or.inl rfl⟩

/-- A poll of `EV_MASTER_EXECUTE` executes the frame and leaves the snapshot. -/
theorem pollExecute_app (s : Master) :
    s.pollExecute.app = s.executeFrame.app ∧ s.pollExecute.snapshot = s.snapshot := by
  obtain ⟨_, _, _, _, _, _, _, _, hex⟩ := executeFrame_executes s
  have hsnap : s.executeFrame.snapshot = s.snapshot := (congrArg Master.snapshot hex).trans rfl
  have hcases := pollExecute_cases s
  generalize s.executeFrame = t at hsnap hcases ⊢
  rcases hcases with ⟨-, heq⟩ | ⟨-, heq⟩
  · rw [heq]
    exact ⟨rfl, hsnap⟩
  · rw [heq]
    exact ⟨rfl, hsnap⟩

theorem MirrorKept.poll (h : MirrorKept s) {junk : Option MBMasterEventType}
    (hok : s.Harmless (.poll junk)) (hst : s.eMBMasterPoll junk = some s') : MirrorKept s' := by
  rcases poll_cases hst with ⟨-, rfl⟩ | ⟨-, -, hst⟩
  · exact h
  · by_cases hev : s.polled junk = some .execute
    · rw [hev, Master.handle] at hst
      split at hst
      · cases hst
      · cases hst
        obtain ⟨happ, hsnap⟩ := pollExecute_app s.drained
        intro app hs
        have hs : s.snapshot = some app := hsnap.symm.trans hs
        have hsome : s.snapshot ≠ none := hs ▸ Option.some_ne_none app
        have hns := hok hsome hev
        exact happ.trans ((executeFrame_app (s := s.drained) hns).trans (h app hs))
    · exact (handle_untouched (s := s.drained) hev hst).mirrorKept h

/-- Every harmless step keeps the mirror since the last unsolicited frame. -/
theorem MirrorKept.step (h : MirrorKept s) {a : MasterAction} (hok : s.Harmless a)
    (hst : s.step a = some s') : MirrorKept s' := by
  cases a with
  | byte ucByte => exact (portStep_byte hst).untouched.mirrorKept h
  | timer => exact (portStep_timer hst).untouched.mirrorKept h
  | txReady => exact (portStep_txReady hst).untouched.mirrorKept h
  | poll junk => exact h.poll hok hst
  | refuse i q =>
    obtain ⟨_, -, rfl, -⟩ := refuse_cases hst
    exact h
  | take i q =>
    obtain ⟨-, -, -, rfl⟩ := take_cases hst
    exact h
  | fill i =>
    obtain ⟨q, -, rfl⟩ := fill_cases hst
    exact h
  | submit i =>
    obtain ⟨q, -, rfl⟩ := submit_cases hst
    exact h
  | finish i =>
    obtain ⟨q, _, _, -, -, -, rfl⟩ := finish_cases hst
    exact h

/-! ## Whole runs -/

/-- In every run that is harmless, a frame that comes in while the run resource is free leaves
the mirror as it was. -/
theorem mirror_kept {s : Master} {app : MasterApp} (h : ReachableBy Started step Harmless s)
    (hs : s.snapshot = some app) : s.app = app := by
  have hkept : MirrorKept s := by
    refine h.invariant ?_ fun s a s' hk hok hst => hk.step hok hst
    intro s hs app hsnap
    obtain ⟨app₀, rfl⟩ := hs
    cases hsnap
  exact hkept app hs

/-! ## The condition is needed -/

/-- A write is made and answered, and then slave 1 sends a frame with a PDU that nobody asked
for. -/
def unsolicited (pdu : List UChar) : List MasterAction :=
  [.timer, .poll none] ++ sendOne ++ answerOne ++ [.finish 0] ++ (slaveFrame pdu).map .byte ++
    [.timer, .poll none, .poll none]

/-- Register 2 of slave 1 in the snapshot and in the mirror after some actions. -/
def registerAfter (as : List MasterAction) : Option (Option UShort × UShort) :=
  (run step (static .initial).eMBMasterInit.eMBMasterEnable.2 as).map fun s =>
    (s.snapshot.map fun app => app.usMRegHoldBuf 2, s.app.usMRegHoldBuf 2)

/-- After a write of 7 was answered, slave 1 sends a frame that says 9. -/
theorem mirror_not_kept :
    ¬ ∀ s app, Reachable Started step s → s.snapshot = some app → s.app = app := by
  intro h
  have hrun : registerAfter (unsolicited [6, 0, 2, 0, 9]) = some (some 7, 9) := by
    decide +kernel
  obtain ⟨s, hs, heq⟩ := Option.map_eq_some_iff.mp hrun
  obtain ⟨hsnap, hreg⟩ := Prod.mk.inj heq
  obtain ⟨app, happ, hold⟩ := Option.map_eq_some_iff.mp hsnap
  have hkept := h s app (Reachable.of_run (.start ⟨_, rfl⟩) hs) happ
  rw [hkept, hold] at hreg
  cases hreg

/-- The same with a register that the map does not have. -/
theorem mirror_kept_outside :
    ∃ s app, ReachableBy Started step Harmless s ∧ s.snapshot = some app ∧ s.app = app := by
  have hall : AllSteps step Harmless (static .initial).eMBMasterInit.eMBMasterEnable.2
      (unsolicited [6, 0, 200, 0, 9]) := by decide +kernel
  have hrun : registerAfter (unsolicited [6, 0, 200, 0, 9]) = some (some 7, 7) := by
    decide +kernel
  obtain ⟨s, hs, heq⟩ := Option.map_eq_some_iff.mp hrun
  obtain ⟨app, happ, -⟩ := Option.map_eq_some_iff.mp (Prod.mk.inj heq).1
  have hreach : ReachableBy Started step Harmless s :=
    ReachableBy.of_run (.start ⟨_, rfl⟩) hall hs
  exact ⟨s, app, hreach, happ, mirror_kept hreach happ⟩

end Master

end FreeModbus
