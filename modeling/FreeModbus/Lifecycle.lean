import FreeModbus.Lib.Transition
import FreeModbus.Master.Restart
import FreeModbus.Port.Timer
import FreeModbus.Slave.Disable

/-!
# Initialisation

`eMBInit` and `eMBMasterInit`, and the calls that turn the stack on and off, on the static
data that they assign: the state, the address and the mode of the slave, and the pointers
to the functions of the transport.

Both functions assign before they know whether they succeed: the address first, then the
pointers, then come the fallible initialisers of the port.  Only state and mode wait for
success.  So a call that fails leaves what it had assigned, also in a stack that is
enabled.

What the initialisers of the port return is a parameter (`PortInit`).  Whether the ASCII
mode of the slave is compiled in is another.
-/

namespace FreeModbus

open Transition

/-- `eMBMode`. -/
inductive MBMode where
  | rtu
  | ascii
  | tcp
deriving Repr, DecidableEq

/-- `eMBParity`. -/
inductive MBParity where
  | none
  | odd
  | even
deriving Repr, DecidableEq

/-! ## The port -/

/-- What the initialisers of a port return. -/
structure PortInit where
  /-- `xMBPortSerialInit` or `xMBMasterPortSerialInit`. -/
  xMBPortSerialInit : (ucPort : UChar) → (ulBaudRate : ULong) → (ucDataBits : UChar) →
    (eParity : MBParity) → Bool
  /-- `xMBPortTimersInit` or `xMBMasterPortTimersInit`. -/
  xMBPortTimersInit : (usTimeOut50us : UShort) → Bool
  /-- `xMBPortEventInit` or `xMBMasterPortEventInit`. -/
  xMBPortEventInit : Bool

/-- The arguments that `eMBInit` and `eMBMasterInit` pass on to the port. -/
structure SerialConfig where
  ucPort : UChar
  ulBaudRate : ULong
  eParity : MBParity

/-- `MB_ASCII_TIMEOUT_SEC`. -/
abbrev mbAsciiTimeoutSec : Nat := 1

/-- `eMBRTUInit` and `eMBMasterRTUInit`, which are the same. -/
def eMBRTUInit (port : PortInit) (c : SerialConfig) : MBErrorCode :=
  if ¬ port.xMBPortSerialInit c.ucPort c.ulBaudRate 8 c.eParity then .eporterr
  else if ¬ port.xMBPortTimersInit ((usTimerT35_50us c.ulBaudRate).setWidth 16) then .eporterr
  else .enoerr

/-- `eMBASCIIInit`.  It also sets `ucMBLFCharacter`, before it can fail. -/
def eMBASCIIInit (port : PortInit) (c : SerialConfig) : MBErrorCode :=
  if ¬ port.xMBPortSerialInit c.ucPort c.ulBaudRate 7 c.eParity then .eporterr
  else if ¬ port.xMBPortTimersInit (BitVec.ofNat 16 (mbAsciiTimeoutSec * 20000)) then .eporterr
  else .enoerr

/-- The initialisers of the port that `eMBRTUInit` calls succeed. -/
def PortInit.RtuReady (port : PortInit) (c : SerialConfig) : Prop :=
  port.xMBPortSerialInit c.ucPort c.ulBaudRate 8 c.eParity = true ∧
    port.xMBPortTimersInit ((usTimerT35_50us c.ulBaudRate).setWidth 16) = true

/-- The initialisers of the port that `eMBASCIIInit` calls succeed. -/
def PortInit.AsciiReady (port : PortInit) (c : SerialConfig) : Prop :=
  port.xMBPortSerialInit c.ucPort c.ulBaudRate 7 c.eParity = true ∧
    port.xMBPortTimersInit (BitVec.ofNat 16 (mbAsciiTimeoutSec * 20000)) = true

theorem eMBRTUInit_enoerr {port : PortInit} {c : SerialConfig} :
    eMBRTUInit port c = .enoerr ↔ port.RtuReady c := by
  simp only [eMBRTUInit, PortInit.RtuReady]
  cases port.xMBPortSerialInit c.ucPort c.ulBaudRate 8 c.eParity with
  | false => simp
  | true =>
    cases port.xMBPortTimersInit ((usTimerT35_50us c.ulBaudRate).setWidth 16) with
    | false => simp
    | true => simp

theorem eMBASCIIInit_enoerr {port : PortInit} {c : SerialConfig} :
    eMBASCIIInit port c = .enoerr ↔ port.AsciiReady c := by
  simp only [eMBASCIIInit, PortInit.AsciiReady]
  cases port.xMBPortSerialInit c.ucPort c.ulBaudRate 7 c.eParity with
  | false => simp
  | true =>
    cases port.xMBPortTimersInit (BitVec.ofNat 16 (mbAsciiTimeoutSec * 20000)) with
    | false => simp
    | true => simp

/-! ## Pointers -/

/-- The pointers to the functions of a transport, and the callbacks for the port.  `none` is
`NULL`. -/
structure FramePointers (F : Type) where
  pvMBFrameStartCur : Option F
  pvMBFrameStopCur : Option F
  peMBFrameSendCur : Option F
  peMBFrameReceiveCur : Option F
  pvMBFrameCloseCur : Option F
  pxMBFrameCBByteReceived : Option F
  pxMBFrameCBTransmitterEmpty : Option F
  pxMBPortCBTimerExpired : Option F
deriving Repr, DecidableEq

/-- The pointers before they are assigned. -/
def FramePointers.null {F : Type} : FramePointers F where
  pvMBFrameStartCur := none
  pvMBFrameStopCur := none
  peMBFrameSendCur := none
  peMBFrameReceiveCur := none
  pvMBFrameCloseCur := none
  pxMBFrameCBByteReceived := none
  pxMBFrameCBTransmitterEmpty := none
  pxMBPortCBTimerExpired := none

/-- The functions that the pointers of the slave can point to. -/
inductive SlaveFunction where
  | eMBRTUStart
  | eMBRTUStop
  | eMBRTUSend
  | eMBRTUReceive
  | xMBRTUReceiveFSM
  | xMBRTUTransmitFSM
  | xMBRTUTimerT35Expired
  | eMBASCIIStart
  | eMBASCIIStop
  | eMBASCIISend
  | eMBASCIIReceive
  | xMBASCIIReceiveFSM
  | xMBASCIITransmitFSM
  | xMBASCIITimerT1SExpired
deriving Repr, DecidableEq

/-- The assignments of `eMBInit` in mode `MB_RTU`, without `MB_PORT_HAS_CLOSE`. -/
def slaveRtuPointers : FramePointers SlaveFunction where
  pvMBFrameStartCur := some .eMBRTUStart
  pvMBFrameStopCur := some .eMBRTUStop
  peMBFrameSendCur := some .eMBRTUSend
  peMBFrameReceiveCur := some .eMBRTUReceive
  pvMBFrameCloseCur := none
  pxMBFrameCBByteReceived := some .xMBRTUReceiveFSM
  pxMBFrameCBTransmitterEmpty := some .xMBRTUTransmitFSM
  pxMBPortCBTimerExpired := some .xMBRTUTimerT35Expired

/-- The assignments of `eMBInit` in mode `MB_ASCII`. -/
def slaveAsciiPointers : FramePointers SlaveFunction where
  pvMBFrameStartCur := some .eMBASCIIStart
  pvMBFrameStopCur := some .eMBASCIIStop
  peMBFrameSendCur := some .eMBASCIISend
  peMBFrameReceiveCur := some .eMBASCIIReceive
  pvMBFrameCloseCur := none
  pxMBFrameCBByteReceived := some .xMBASCIIReceiveFSM
  pxMBFrameCBTransmitterEmpty := some .xMBASCIITransmitFSM
  pxMBPortCBTimerExpired := some .xMBASCIITimerT1SExpired

/-- The functions that the pointers of the master can point to. -/
inductive MasterFunction where
  | eMBMasterRTUStart
  | eMBMasterRTUStop
  | eMBMasterRTUSend
  | eMBMasterRTUReceive
  | xMBMasterRTUReceiveFSM
  | xMBMasterRTUTransmitFSM
  | xMBMasterRTUTimerExpired
deriving Repr, DecidableEq

/-- The assignments of `eMBMasterInit` in mode `MB_RTU`. -/
def masterRtuPointers : FramePointers MasterFunction where
  pvMBFrameStartCur := some .eMBMasterRTUStart
  pvMBFrameStopCur := some .eMBMasterRTUStop
  peMBFrameSendCur := some .eMBMasterRTUSend
  peMBFrameReceiveCur := some .eMBMasterRTUReceive
  pvMBFrameCloseCur := none
  pxMBFrameCBByteReceived := some .xMBMasterRTUReceiveFSM
  pxMBFrameCBTransmitterEmpty := some .xMBMasterRTUTransmitFSM
  pxMBPortCBTimerExpired := some .xMBMasterRTUTimerExpired

/-! ## Slave -/

/-- The static data of `mb.c` that the calls of the application assign. -/
structure SlaveStack where
  ucMBAddress : UChar
  eMBCurrentMode : MBMode
  eMBState : MBState
  pointers : FramePointers SlaveFunction
deriving DecidableEq

namespace SlaveStack

/-- The static data before the first call. -/
def static : SlaveStack where
  ucMBAddress := 0
  eMBCurrentMode := .rtu
  eMBState := .notInitialized
  pointers := .null

section Calls

variable (mbSlaveAsciiEnabled : Bool)

/-- The `switch` of `eMBInit`. -/
def selectMode (port : PortInit) (s : SlaveStack) (eMode : MBMode) (c : SerialConfig) :
    MBErrorCode × SlaveStack :=
  match eMode with
  | .rtu => (eMBRTUInit port c, { s with pointers := slaveRtuPointers })
  | .ascii =>
      if mbSlaveAsciiEnabled then
        (eMBASCIIInit port c, { s with pointers := slaveAsciiPointers })
      else (.einval, s)
  | .tcp => (.einval, s)

/-- The address that `eMBInit` refuses. -/
def AddressRefused (ucSlaveAddress : UChar) : Prop :=
  ucSlaveAddress = mbAddressBroadcast ∨
    ucSlaveAddress < mbAddressMin ∨ mbAddressMax < ucSlaveAddress

instance (ucSlaveAddress : UChar) : Decidable (AddressRefused ucSlaveAddress) :=
  inferInstanceAs (Decidable (_ ∨ _))

/-- `eMBInit`. -/
def eMBInit (port : PortInit) (s : SlaveStack) (eMode : MBMode) (ucSlaveAddress : UChar)
    (c : SerialConfig) : MBErrorCode × SlaveStack :=
  if AddressRefused ucSlaveAddress then (.einval, s)
  else
    let (eStatus, s₁) :=
      selectMode mbSlaveAsciiEnabled port { s with ucMBAddress := ucSlaveAddress } eMode c
    if eStatus = .enoerr then
      if ¬ port.xMBPortEventInit then (.eporterr, s₁)
      else (eStatus, { s₁ with eMBCurrentMode := eMode, eMBState := .disabled })
    else (eStatus, s₁)

/-- `eMBEnable`. -/
def eMBEnable (s : SlaveStack) : MBErrorCode × SlaveStack :=
  if s.eMBState = .disabled then (.enoerr, { s with eMBState := .enabled }) else (.eillstate, s)

/-- `eMBDisable`. -/
def eMBDisable (s : SlaveStack) : MBErrorCode × SlaveStack :=
  if s.eMBState = .enabled then (.enoerr, { s with eMBState := .disabled })
  else if s.eMBState = .disabled then (.enoerr, s)
  else (.eillstate, s)

/-- `eMBClose`. -/
def eMBClose (s : SlaveStack) : MBErrorCode × SlaveStack :=
  if s.eMBState = .disabled then (.enoerr, s) else (.eillstate, s)

/-- The calls of the application. -/
inductive Call where
  | init (port : PortInit) (eMode : MBMode) (ucSlaveAddress : UChar) (c : SerialConfig)
  | enable
  | disable
  | close

/-- What a call returns, and the stack after it. -/
def call (s : SlaveStack) : Call → MBErrorCode × SlaveStack
  | .init port eMode ucSlaveAddress c => s.eMBInit mbSlaveAsciiEnabled port eMode ucSlaveAddress c
  | .enable => s.eMBEnable
  | .disable => s.eMBDisable
  | .close => s.eMBClose

/-- A call is always enabled. -/
def step (s : SlaveStack) (a : Call) : Option SlaveStack := some (s.call mbSlaveAsciiEnabled a).2

end Calls

/-! ### What a failed call leaves -/

/-- The pointers of a mode that is compiled in. -/
def modePointers (mbSlaveAsciiEnabled : Bool) : MBMode → Option (FramePointers SlaveFunction)
  | .rtu => some slaveRtuPointers
  | .ascii => if mbSlaveAsciiEnabled then some slaveAsciiPointers else none
  | .tcp => none

/-- The initialisers of the port succeed that are called in the mode. -/
def PortReady (mbSlaveAsciiEnabled : Bool) (port : PortInit) (eMode : MBMode)
    (c : SerialConfig) : Prop :=
  port.xMBPortEventInit = true ∧
    match eMode with
    | .rtu => port.RtuReady c
    | .ascii => mbSlaveAsciiEnabled = true ∧ port.AsciiReady c
    | .tcp => False

/-- There is nothing to change: the address is the current one, and the pointers are those of the
mode, or the mode has none. -/
def Repeats (mbSlaveAsciiEnabled : Bool) (s : SlaveStack) (eMode : MBMode)
    (ucSlaveAddress : UChar) : Prop :=
  ucSlaveAddress = s.ucMBAddress ∧
    ∀ p, modePointers mbSlaveAsciiEnabled eMode = some p → s.pointers = p

/-- A call of `eMBInit` that returns an error changes nothing. -/
def FailureHarmless (mbSlaveAsciiEnabled : Bool) (s : SlaveStack) : Call → Prop
  | .init port eMode ucSlaveAddress c =>
      let (eStatus, s') := s.call mbSlaveAsciiEnabled (.init port eMode ucSlaveAddress c)
      eStatus ≠ .enoerr → s' = s
  | _ => True

/-- A call of `eMBInit` is refused for its address, finds the port ready or has nothing to
change. -/
def HarmlessInit (mbSlaveAsciiEnabled : Bool) (s : SlaveStack) : Call → Prop
  | .init port eMode ucSlaveAddress c =>
      AddressRefused ucSlaveAddress ∨ PortReady mbSlaveAsciiEnabled port eMode c ∨
        Repeats mbSlaveAsciiEnabled s eMode ucSlaveAddress
  | _ => True

variable {mbSlaveAsciiEnabled : Bool} {port : PortInit} {s : SlaveStack} {eMode : MBMode}
  {ucSlaveAddress : UChar} {c : SerialConfig}

/-- The switch assigns the pointers of the mode, if it has any. -/
theorem selectMode_snd (s : SlaveStack) : (selectMode mbSlaveAsciiEnabled port s eMode c).2 =
    { s with pointers := (modePointers mbSlaveAsciiEnabled eMode).getD s.pointers } := by
  unfold selectMode modePointers
  cases eMode with
  | rtu => rfl
  | tcp => rfl
  | ascii =>
    cases mbSlaveAsciiEnabled with
    | true => rfl
    | false => rfl

theorem selectMode_fst (s : SlaveStack) :
    (port.xMBPortEventInit = true ∧
      (selectMode mbSlaveAsciiEnabled port s eMode c).1 = .enoerr) ↔
        PortReady mbSlaveAsciiEnabled port eMode c := by
  refine and_congr_right fun _ => ?_
  unfold selectMode
  cases eMode with
  | rtu => exact eMBRTUInit_enoerr
  | tcp => exact iff_of_false (fun h => by cases h) id
  | ascii =>
    cases mbSlaveAsciiEnabled with
    | true => exact eMBASCIIInit_enoerr.trans (and_iff_right rfl).symm
    | false => exact iff_of_false (fun h => by cases h) fun h => by cases h.1

/-- Where the port is not ready the call fails, and leaves what was assigned before. -/
theorem eMBInit_fails (haddr : ¬ AddressRefused ucSlaveAddress)
    (hport : ¬ PortReady mbSlaveAsciiEnabled port eMode c) :
    (s.eMBInit mbSlaveAsciiEnabled port eMode ucSlaveAddress c).1 ≠ .enoerr ∧
      (s.eMBInit mbSlaveAsciiEnabled port eMode ucSlaveAddress c).2 = { s with
        ucMBAddress := ucSlaveAddress
        pointers := (modePointers mbSlaveAsciiEnabled eMode).getD s.pointers } := by
  rw [← selectMode_fst { s with ucMBAddress := ucSlaveAddress }, not_and] at hport
  have hleft : (selectMode mbSlaveAsciiEnabled port { s with ucMBAddress := ucSlaveAddress }
    eMode c).2 = _ := selectMode_snd _
  rw [eMBInit, if_neg haddr]
  dsimp only
  split
  · have hevent : ¬ port.xMBPortEventInit = true := fun hevent => hport hevent ‹_›
    rw [if_pos hevent]
    exact ⟨(fun h => by cases h), hleft⟩
  · exact ⟨‹_›, hleft⟩

/-- Where it is ready the call succeeds. -/
theorem eMBInit_succeeds (haddr : ¬ AddressRefused ucSlaveAddress)
    (hport : PortReady mbSlaveAsciiEnabled port eMode c) :
    s.eMBInit mbSlaveAsciiEnabled port eMode ucSlaveAddress c = (.enoerr, { s with
      ucMBAddress := ucSlaveAddress
      eMBCurrentMode := eMode
      eMBState := .disabled
      pointers := (modePointers mbSlaveAsciiEnabled eMode).getD s.pointers }) := by
  obtain ⟨hevent, hok⟩ := (selectMode_fst { s with ucMBAddress := ucSlaveAddress }).mpr hport
  rw [eMBInit, if_neg haddr]
  dsimp only
  rw [if_pos hok, if_neg (not_not_intro hevent), hok, selectMode_snd]

theorem repeats_iff : Repeats mbSlaveAsciiEnabled s eMode ucSlaveAddress ↔
    { s with
      ucMBAddress := ucSlaveAddress
      pointers := (modePointers mbSlaveAsciiEnabled eMode).getD s.pointers } = s := by
  obtain ⟨addr, mode, state, pointers⟩ := s
  unfold Repeats
  cases modePointers mbSlaveAsciiEnabled eMode with
  | none => simp
  | some p => simp [eq_comm]

theorem failureHarmless_init (s : SlaveStack) :
    FailureHarmless mbSlaveAsciiEnabled s (.init port eMode ucSlaveAddress c) ↔
      HarmlessInit mbSlaveAsciiEnabled s (.init port eMode ucSlaveAddress c) := by
  unfold FailureHarmless HarmlessInit call
  dsimp only
  by_cases haddr : AddressRefused ucSlaveAddress
  · have hrefused : s.eMBInit mbSlaveAsciiEnabled port eMode ucSlaveAddress c = (.einval, s) :=
      if_pos haddr
    rw [hrefused]
    exact iff_of_true (fun _ => rfl) (Or.inl haddr)
  · by_cases hport : PortReady mbSlaveAsciiEnabled port eMode c
    · rw [eMBInit_succeeds haddr hport]
      exact iff_of_true (fun h => absurd rfl h) (Or.inr (Or.inl hport))
    · obtain ⟨hfail, hleft⟩ := eMBInit_fails (s := s) haddr hport
      rw [hleft, repeats_iff, or_iff_right haddr, or_iff_right hport]
      exact ⟨fun h => h hfail, fun h _ => h⟩

theorem failureHarmless_iff (s : SlaveStack) (a : Call) :
    FailureHarmless mbSlaveAsciiEnabled s a ↔ HarmlessInit mbSlaveAsciiEnabled s a := by
  cases a with
  | init port eMode ucSlaveAddress c => exact failureHarmless_init s
  | enable => exact Iff.rfl
  | disable => exact Iff.rfl
  | close => exact Iff.rfl

/-! ### The pointers that are called -/

/-- An initialised stack has functions to start and to stop the transport. -/
def Callable (s : SlaveStack) : Prop :=
  s.eMBState ≠ .notInitialized →
    s.pointers.pvMBFrameStartCur.isSome ∧ s.pointers.pvMBFrameStopCur.isSome

theorem callable_modePointers {p : FramePointers SlaveFunction}
    (h : modePointers mbSlaveAsciiEnabled eMode = some p) :
    p.pvMBFrameStartCur.isSome ∧ p.pvMBFrameStopCur.isSome := by
  cases eMode with
  | rtu =>
    cases h
    exact ⟨rfl, rfl⟩
  | ascii =>
    obtain ⟨-, rfl⟩ : mbSlaveAsciiEnabled = true ∧ slaveAsciiPointers = p := by
      simpa [modePointers] using h
    exact ⟨rfl, rfl⟩
  | tcp => cases h

/-- In a mode in which the port can be ready there are pointers. -/
theorem PortReady.modePointers (h : PortReady mbSlaveAsciiEnabled port eMode c) :
    ∃ p, modePointers mbSlaveAsciiEnabled eMode = some p := by
  cases eMode with
  | rtu => exact ⟨_, rfl⟩
  | ascii => exact ⟨_, if_pos h.2.1⟩
  | tcp => exact h.2.elim

theorem callable_init (h : Callable s) :
    Callable (s.eMBInit mbSlaveAsciiEnabled port eMode ucSlaveAddress c).2 := by
  by_cases haddr : AddressRefused ucSlaveAddress
  · rw [eMBInit, if_pos haddr]
    exact h
  · by_cases hport : PortReady mbSlaveAsciiEnabled port eMode c
    · obtain ⟨p, hp⟩ := hport.modePointers
      rw [eMBInit_succeeds haddr hport, hp]
      exact fun _ => callable_modePointers hp
    · rw [(eMBInit_fails haddr hport).2]
      intro hinit
      cases hp : SlaveStack.modePointers mbSlaveAsciiEnabled eMode with
      | none => exact h hinit
      | some p => exact callable_modePointers hp

theorem callable_step {a : Call} {s' : SlaveStack} (h : Callable s)
    (hst : s.step mbSlaveAsciiEnabled a = some s') : Callable s' := by
  cases hst
  cases a with
  | init port eMode ucSlaveAddress c => exact callable_init h
  | enable =>
    dsimp only [call]
    unfold eMBEnable
    split
    · next hstate => exact fun _ => h fun h => by cases hstate.symm.trans h
    · exact h
  | disable =>
    dsimp only [call]
    unfold eMBDisable
    split
    · next hstate => exact fun _ => h fun h => by cases hstate.symm.trans h
    · split
      · exact h
      · exact h
  | close =>
    dsimp only [call]
    unfold eMBClose
    split
    · exact h
    · exact h

/-- Neither `eMBEnable` nor `eMBDisable` calls a null pointer, also behind a failed call. -/
theorem callable {t : SlaveStack} (h : Reachable (· = static) (step mbSlaveAsciiEnabled) t) :
    Callable t :=
  h.invariant (by rintro s rfl; exact fun h => absurd rfl h) fun _ _ _ hs _ => callable_step hs

end SlaveStack

/-! ## Master -/

/-- The static data of `mb_m.c` that the calls of the application assign, and the run resource. -/
structure MasterStack where
  eMBState : MBMasterState
  pointers : FramePointers MasterFunction
  xMasterRunRes : Nat
deriving DecidableEq

namespace MasterStack

/-- The static data before the first call. -/
def static : MasterStack where
  eMBState := .notInitialized
  pointers := .null
  xMasterRunRes := 0

/-- The `switch` of `eMBMasterInit`.  Only the RTU mode is compiled in. -/
def selectMode (port : PortInit) (s : MasterStack) (eMode : MBMode) (c : SerialConfig) :
    MBErrorCode × MasterStack :=
  match eMode with
  | .rtu => (eMBRTUInit port c, { s with pointers := masterRtuPointers })
  | .ascii => (.einval, s)
  | .tcp => (.einval, s)

/-- `vMBMasterOsResInit`. -/
def vMBMasterOsResInit (s : MasterStack) : MasterStack := { s with xMasterRunRes := 1 }

/-- `eMBMasterInit`. -/
def eMBMasterInit (port : PortInit) (s : MasterStack) (eMode : MBMode) (c : SerialConfig) :
    MBErrorCode × MasterStack :=
  let (eStatus, s₁) := selectMode port s eMode c
  if eStatus = .enoerr then
    if ¬ port.xMBPortEventInit then (.eporterr, s₁.vMBMasterOsResInit)
    else (eStatus, vMBMasterOsResInit { s₁ with eMBState := .disabled })
  else (eStatus, s₁)

/-- `eMBMasterEnable`. -/
def eMBMasterEnable (s : MasterStack) : MBErrorCode × MasterStack :=
  if s.eMBState = .disabled then (.enoerr, { s with eMBState := .enabled }) else (.eillstate, s)

/-- `eMBMasterDisable`. -/
def eMBMasterDisable (s : MasterStack) : MBErrorCode × MasterStack :=
  if s.eMBState = .enabled ∨ s.eMBState = .established then
    (.enoerr, { s with eMBState := .disabled })
  else if s.eMBState = .disabled then (.enoerr, s)
  else (.eillstate, s)

/-- `eMBMasterClose`. -/
def eMBMasterClose (s : MasterStack) : MBErrorCode × MasterStack :=
  if s.eMBState = .disabled then (.enoerr, s) else (.eillstate, s)

/-- `EV_MASTER_READY` of `eMBMasterPoll`. -/
def pollReady (s : MasterStack) : MBErrorCode × MasterStack :=
  if s.eMBState ≠ .enabled ∧ s.eMBState ≠ .established then (.eillstate, s)
  else (.enoerr, { s with eMBState := .established })

/-- The calls of the application, and a poll that handles `EV_MASTER_READY`. -/
inductive Call where
  | init (port : PortInit) (eMode : MBMode) (c : SerialConfig)
  | enable
  | disable
  | close
  | ready

/-- What a call returns, and the stack after it. -/
def call (s : MasterStack) : Call → MBErrorCode × MasterStack
  | .init port eMode c => s.eMBMasterInit port eMode c
  | .enable => s.eMBMasterEnable
  | .disable => s.eMBMasterDisable
  | .close => s.eMBMasterClose
  | .ready => s.pollReady

/-- A call is always enabled. -/
def step (s : MasterStack) (a : Call) : Option MasterStack := some (s.call a).2

/-! ### What a failed call leaves -/

/-- The initialisers of the port succeed. -/
def PortReady (port : PortInit) (c : SerialConfig) : Prop :=
  port.xMBPortEventInit = true ∧ port.RtuReady c

/-- A call of `eMBMasterInit` that returns an error changes neither state nor pointers. -/
def FailureHarmless (s : MasterStack) : Call → Prop
  | .init port eMode c =>
      let (eStatus, s') := s.call (.init port eMode c)
      eStatus ≠ .enoerr → s'.eMBState = s.eMBState ∧ s'.pointers = s.pointers
  | _ => True

/-- A call of `eMBMasterInit` asks for a mode that is not compiled in, finds the port ready or
the pointers assigned. -/
def HarmlessInit (s : MasterStack) : Call → Prop
  | .init port eMode c => eMode ≠ .rtu ∨ PortReady port c ∨ s.pointers = masterRtuPointers
  | _ => True

variable {port : PortInit} {s : MasterStack} {c : SerialConfig}

/-- Where the port is not ready the call fails, with the pointers assigned. -/
theorem eMBMasterInit_fails (hport : ¬ PortReady port c) :
    (s.eMBMasterInit port .rtu c).1 ≠ .enoerr ∧
      (s.eMBMasterInit port .rtu c).2.eMBState = s.eMBState ∧
      (s.eMBMasterInit port .rtu c).2.pointers = masterRtuPointers := by
  rw [PortReady, ← eMBRTUInit_enoerr, not_and] at hport
  unfold eMBMasterInit selectMode
  dsimp only
  split
  · have hevent : ¬ port.xMBPortEventInit = true := fun hevent => hport hevent ‹_›
    rw [if_pos hevent]
    exact ⟨(fun h => by cases h), rfl, rfl⟩
  · exact ⟨‹_›, rfl, rfl⟩

/-- Where it is ready the call succeeds. -/
theorem eMBMasterInit_succeeds (hport : PortReady port c) :
    s.eMBMasterInit port .rtu c = (.enoerr,
      { eMBState := .disabled, pointers := masterRtuPointers, xMasterRunRes := 1 }) := by
  obtain ⟨hevent, hready⟩ := hport
  unfold eMBMasterInit selectMode
  dsimp only
  rw [eMBRTUInit_enoerr.mpr hready, if_pos rfl, if_neg (not_not_intro hevent)]
  rfl

theorem failureHarmless_rtu :
    FailureHarmless s (.init port .rtu c) ↔ HarmlessInit s (.init port .rtu c) := by
  unfold FailureHarmless HarmlessInit call
  dsimp only
  rw [or_iff_right (not_not_intro rfl)]
  by_cases hport : PortReady port c
  · rw [eMBMasterInit_succeeds hport]
    exact iff_of_true (fun h => absurd rfl h) (Or.inl hport)
  · obtain ⟨hfail, hstate, hleft⟩ := eMBMasterInit_fails (s := s) hport
    rw [hstate, hleft, or_iff_right hport]
    exact ⟨fun h => (h hfail).2.symm, fun h _ => ⟨rfl, h.symm⟩⟩

theorem failureHarmless_iff (s : MasterStack) (a : Call) :
    FailureHarmless s a ↔ HarmlessInit s a := by
  cases a with
  | init port eMode c =>
    cases eMode with
    | rtu => exact failureHarmless_rtu
    | ascii => exact iff_of_true (fun _ => ⟨rfl, rfl⟩) (Or.inl fun h => by cases h)
    | tcp => exact iff_of_true (fun _ => ⟨rfl, rfl⟩) (Or.inl fun h => by cases h)
  | enable => exact Iff.rfl
  | disable => exact Iff.rfl
  | close => exact Iff.rfl
  | ready => exact Iff.rfl

end MasterStack

/-! ## Runs

The calls of `Slave` and `Master` are those of the stack, in RTU mode, on a port whose
initialisers succeed. -/

/-- The slave has state and address of the stack, and the stack is in RTU mode once it is
initialised. -/
def Slave.OnStack (s : Slave) (t : SlaveStack) : Prop :=
  s.eMBState = t.eMBState ∧ s.ucMBAddress = t.ucMBAddress ∧
    (t.eMBState ≠ .notInitialized → t.eMBCurrentMode = .rtu ∧ t.pointers = slaveRtuPointers)

namespace Slave

variable {s : Slave} {t : SlaveStack}

theorem onStack_static (app : SlaveApp) : OnStack (static app) .static :=
  ⟨rfl, rfl, fun h => absurd rfl h⟩

theorem onStack_eMBInit {mbSlaveAsciiEnabled : Bool} {port : PortInit} {c : SerialConfig}
    (hport : SlaveStack.PortReady mbSlaveAsciiEnabled port .rtu c) (h : s.OnStack t)
    (ucSlaveAddress : UChar) :
    (s.eMBInit ucSlaveAddress).1 =
        (t.eMBInit mbSlaveAsciiEnabled port .rtu ucSlaveAddress c).1 ∧
      (s.eMBInit ucSlaveAddress).2.OnStack
        (t.eMBInit mbSlaveAsciiEnabled port .rtu ucSlaveAddress c).2 := by
  by_cases haddr : SlaveStack.AddressRefused ucSlaveAddress
  · have hrefused : s.eMBInit ucSlaveAddress = (.einval, s) := if_pos haddr
    rw [SlaveStack.eMBInit, if_pos haddr, hrefused]
    exact ⟨rfl, h⟩
  · have haccepted : s.eMBInit ucSlaveAddress =
        (.enoerr, { s with ucMBAddress := ucSlaveAddress, eMBState := .disabled }) := if_neg haddr
    rw [SlaveStack.eMBInit_succeeds haddr hport, haccepted]
    exact ⟨rfl, rfl, rfl, fun _ => ⟨rfl, rfl⟩⟩

theorem onStack_eMBEnable (h : s.OnStack t) :
    s.eMBEnable.1 = t.eMBEnable.1 ∧ s.eMBEnable.2.OnStack t.eMBEnable.2 := by
  obtain ⟨hstate, haddr, hmode⟩ := h
  unfold eMBEnable SlaveStack.eMBEnable
  rw [hstate]
  split
  · next hdisabled =>
      exact ⟨rfl, rfl, haddr, fun _ => hmode fun h => by cases hdisabled.symm.trans h⟩
  · exact ⟨rfl, hstate, haddr, hmode⟩

theorem onStack_eMBDisable (h : s.OnStack t) :
    s.eMBDisable.1 = t.eMBDisable.1 ∧ s.eMBDisable.2.OnStack t.eMBDisable.2 := by
  obtain ⟨hstate, haddr, hmode⟩ := h
  unfold eMBDisable SlaveStack.eMBDisable
  rw [hstate]
  split
  · next henabled =>
      exact ⟨rfl, rfl, haddr, fun _ => hmode fun h => by cases henabled.symm.trans h⟩
  · split
    · exact ⟨rfl, hstate, haddr, hmode⟩
    · exact ⟨rfl, hstate, haddr, hmode⟩

/-- A call of the application, of `eMBInit` in RTU mode. -/
def stackCall (s : Slave) : SlaveStack.Call → MBErrorCode × Slave
  | .init _ _ ucSlaveAddress _ => s.eMBInit ucSlaveAddress
  | .enable => s.eMBEnable
  | .disable => s.eMBDisable
  | .close => if s.eMBState = .disabled then (.enoerr, s) else (.eillstate, s)

/-- The port initialises, in RTU mode. -/
def FindsPort (mbSlaveAsciiEnabled : Bool) : SlaveStack.Call → Prop
  | .init port eMode _ c => eMode = .rtu ∧ SlaveStack.PortReady mbSlaveAsciiEnabled port .rtu c
  | _ => True

theorem onStack_call {mbSlaveAsciiEnabled : Bool} {a : SlaveStack.Call}
    (hport : FindsPort mbSlaveAsciiEnabled a) (h : s.OnStack t) :
    (s.stackCall a).1 = (t.call mbSlaveAsciiEnabled a).1 ∧
      (s.stackCall a).2.OnStack (t.call mbSlaveAsciiEnabled a).2 := by
  cases a with
  | init port eMode ucSlaveAddress c =>
    obtain ⟨rfl, hport⟩ := hport
    exact onStack_eMBInit hport h ucSlaveAddress
  | enable => exact onStack_eMBEnable h
  | disable => exact onStack_eMBDisable h
  | close =>
    dsimp only [stackCall, SlaveStack.call]
    rw [SlaveStack.eMBClose, h.1]
    split
    · exact ⟨rfl, h⟩
    · exact ⟨rfl, h⟩

/-- On such a port the calls of a run leave the slave on the stack. -/
theorem onStack_run {mbSlaveAsciiEnabled : Bool} {as : List SlaveStack.Call}
    (hport : ∀ a ∈ as, FindsPort mbSlaveAsciiEnabled a) {t' : SlaveStack} (h : s.OnStack t)
    (hrun : run (SlaveStack.step mbSlaveAsciiEnabled) t as = some t') :
    (as.foldl (fun s a => (s.stackCall a).2) s).OnStack t' := by
  refine run_relates (fun s t a t' ha hs hst => ?_) hport h hrun
  cases hst
  exact (onStack_call ha hs).2

end Slave

/-- The master has the state of the stack, and the stack is in RTU mode once it is
initialised. -/
def Master.OnStack (s : Master) (t : MasterStack) : Prop :=
  s.eMBState = t.eMBState ∧ (t.eMBState ≠ .notInitialized → t.pointers = masterRtuPointers)

namespace Master

variable {s : Master} {t : MasterStack}

theorem onStack_static (app : MasterApp) : OnStack (static app) .static :=
  ⟨rfl, fun h => absurd rfl h⟩

theorem onStack_eMBMasterInit {port : PortInit} {c : SerialConfig}
    (hport : MasterStack.PortReady port c) :
    (t.eMBMasterInit port .rtu c).1 = .enoerr ∧
      s.eMBMasterInit.OnStack (t.eMBMasterInit port .rtu c).2 := by
  rw [MasterStack.eMBMasterInit_succeeds hport]
  exact ⟨rfl, rfl, fun _ => rfl⟩

theorem onStack_eMBMasterEnable (h : s.OnStack t) :
    s.eMBMasterEnable.1 = t.eMBMasterEnable.1 ∧
      s.eMBMasterEnable.2.OnStack t.eMBMasterEnable.2 := by
  obtain ⟨hstate, hmode⟩ := h
  unfold eMBMasterEnable MasterStack.eMBMasterEnable
  rw [hstate]
  split
  · next hdisabled => exact ⟨rfl, rfl, fun _ => hmode fun h => by cases hdisabled.symm.trans h⟩
  · exact ⟨rfl, hstate, hmode⟩

theorem onStack_eMBMasterDisable (h : s.OnStack t) :
    s.eMBMasterDisable.1 = t.eMBMasterDisable.1 ∧
      s.eMBMasterDisable.2.OnStack t.eMBMasterDisable.2 := by
  obtain ⟨hstate, hmode⟩ := h
  unfold eMBMasterDisable MasterStack.eMBMasterDisable
  rw [hstate]
  split
  · next hon =>
      refine ⟨rfl, rfl, fun _ => hmode fun h => ?_⟩
      rw [h] at hon
      exact hon.elim (fun h => by cases h) fun h => by cases h
  · split
    · exact ⟨rfl, hstate, hmode⟩
    · exact ⟨rfl, hstate, hmode⟩

/-- A call of the application, of `eMBMasterInit` in RTU mode, or `EV_MASTER_READY` of a poll. -/
def stackCall (s : Master) : MasterStack.Call → MBErrorCode × Master
  | .init _ _ _ => (.enoerr, s.eMBMasterInit)
  | .enable => s.eMBMasterEnable
  | .disable => s.eMBMasterDisable
  | .close => if s.eMBState = .disabled then (.enoerr, s) else (.eillstate, s)
  | .ready =>
      if s.eMBState ≠ .enabled ∧ s.eMBState ≠ .established then (.eillstate, s)
      else (.enoerr, { s with eMBState := .established })

/-- The port initialises, in RTU mode. -/
def FindsPort : MasterStack.Call → Prop
  | .init port eMode c => eMode = .rtu ∧ MasterStack.PortReady port c
  | _ => True

theorem onStack_call {a : MasterStack.Call} (hport : FindsPort a) (h : s.OnStack t) :
    (s.stackCall a).1 = (t.call a).1 ∧ (s.stackCall a).2.OnStack (t.call a).2 := by
  cases a with
  | init port eMode c =>
    obtain ⟨rfl, hport⟩ := hport
    obtain ⟨hok, hinit⟩ := onStack_eMBMasterInit (s := s) (t := t) hport
    exact ⟨hok.symm, hinit⟩
  | enable => exact onStack_eMBMasterEnable h
  | disable => exact onStack_eMBMasterDisable h
  | close =>
    dsimp only [stackCall, MasterStack.call]
    rw [MasterStack.eMBMasterClose, h.1]
    split
    · exact ⟨rfl, h⟩
    · exact ⟨rfl, h⟩
  | ready =>
    dsimp only [stackCall, MasterStack.call]
    rw [MasterStack.pollReady, h.1]
    split
    · exact ⟨rfl, h⟩
    · next hon =>
      refine ⟨rfl, rfl, fun _ => h.2 fun hnot => hon ?_⟩
      rw [hnot]
      exact ⟨(fun h => by cases h), (fun h => by cases h)⟩

/-- On such a port the calls of a run leave the master on the stack. -/
theorem onStack_run {as : List MasterStack.Call} (hport : ∀ a ∈ as, FindsPort a)
    {t' : MasterStack} (h : s.OnStack t) (hrun : run MasterStack.step t as = some t') :
    (as.foldl (fun s a => (s.stackCall a).2) s).OnStack t' := by
  refine run_relates (fun s t a t' ha hs hst => ?_) hport h hrun
  cases hst
  exact (onStack_call ha hs).2

end Master

/-- In every run of calls, no call of `eMBInit` or `eMBMasterInit` that fails changes anything
if and only if each is refused before it assigns, finds the port ready or finds assigned what it
assigns. -/
theorem failed_init_iff (mbSlaveAsciiEnabled : Bool) (as : List SlaveStack.Call)
    (bs : List MasterStack.Call) :
    (AllSteps (SlaveStack.step mbSlaveAsciiEnabled)
        (SlaveStack.FailureHarmless mbSlaveAsciiEnabled) .static as ↔
      AllSteps (SlaveStack.step mbSlaveAsciiEnabled)
        (SlaveStack.HarmlessInit mbSlaveAsciiEnabled) .static as) ∧
    (AllSteps MasterStack.step MasterStack.FailureHarmless .static bs ↔
      AllSteps MasterStack.step MasterStack.HarmlessInit .static bs) :=
  ⟨allSteps_congr SlaveStack.failureHarmless_iff,
    allSteps_congr MasterStack.failureHarmless_iff⟩

/-- A port whose serial line initialises as given, and nothing else fails. -/
def portSerial (initialises : Bool) : PortInit where
  xMBPortSerialInit _ _ _ _ := initialises
  xMBPortTimersInit _ := true
  xMBPortEventInit := true

/-- Port 1 with 9600 baud and even parity. -/
def serial9600 : SerialConfig where
  ucPort := 1
  ulBaudRate := 9600
  eParity := .even

/-- The calls that start a slave with address 1. -/
def startOne : List SlaveStack.Call := [.init (portSerial true) .rtu 1 serial9600, .enable]

/-- An enabled slave with address 1, in RTU mode, has address 2 after a call that fails, or the
pointers of the ASCII mode.  A master has the pointers of the RTU mode after a call that fails. -/
theorem failed_init_assigns :
    (∃ s, run (SlaveStack.step false) .static startOne = some s ∧
      s.eMBState = .enabled ∧ s.ucMBAddress = 1 ∧
      s.eMBInit false (portSerial false) .rtu 2 serial9600 =
        (.eporterr, { s with ucMBAddress := 2 })) ∧
    (∃ s, run (SlaveStack.step true) .static startOne = some s ∧
      s.eMBState = .enabled ∧ s.pointers = slaveRtuPointers ∧
      s.eMBInit true (portSerial false) .ascii 1 serial9600 =
        (.eporterr, { s with pointers := slaveAsciiPointers }) ∧
      slaveAsciiPointers ≠ slaveRtuPointers) ∧
    MasterStack.static.eMBMasterInit (portSerial false) .rtu serial9600 =
      (.eporterr, { MasterStack.static with pointers := masterRtuPointers }) ∧
    MasterStack.static.pointers ≠ masterRtuPointers := by
  refine ⟨⟨_, rfl, rfl, rfl, rfl⟩, ⟨_, rfl, rfl, rfl, rfl, ?_⟩, rfl, ?_⟩
  · decide
  · decide

end FreeModbus
