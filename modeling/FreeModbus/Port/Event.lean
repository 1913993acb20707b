import FreeModbus.Base
import FreeModbus.Lib.EventFlags

/-!
# The event queues

`portevent.c` and `portevent_m.c`.  The queue of `eMBPoll` is one word of flags
of the kernel's event object, and so is the queue of `eMBMasterPoll`, which also
carries the results of requests.  The kernel's part is `EventFlags`: a send ORs
into the word, a receive returns and clears the flags of its mask.

A get compares the received flags with single constants.  When several flags
were set it assigns nothing and has cleared them all.  The last section says what
that costs.
-/

namespace FreeModbus

open EventFlags EventFlags.Channel

/-! ## Slave -/

/-- `eMBEventType`. -/
inductive MBEventType where
  | ready
  | frameReceived
  | execute
  | frameSent
deriving Repr, DecidableEq

/-- The place of an event in the word: `EV_READY = 1<<0` and so on. -/
def MBEventType.bit : MBEventType → Nat
  | .ready => 0
  | .frameReceived => 1
  | .execute => 2
  | .frameSent => 3

/-- The events, in the order of the mask and of the `switch`. -/
def MBEventType.all : List MBEventType := [.ready, .frameReceived, .execute, .frameSent]

/-- The slave's queue. -/
def slaveChannel : Channel MBEventType 32 :=
  .ofEvents MBEventType.bit MBEventType.all
    (by intro e; cases e <;> decide) (by intro e; cases e <;> decide)
    (by intro e e' h; cases e <;> cases e' <;> first | rfl | cases h)

/-- `xMBPortEventPost`. -/
def xMBPortEventPost (flags : BitVec 32) (eEvent : MBEventType) : BitVec 32 :=
  slaveChannel.post flags eEvent

/-- `xMBPortEventGet` when it returns: the event assigned to `*eEvent`, if any, and the
flags left. -/
def xMBPortEventGet (flags : BitVec 32) : Option MBEventType × BitVec 32 :=
  slaveChannel.get flags

example : slaveChannel.mask = 0xF := by decide

/-! ## Master -/

/-- The events of `eMBMasterEventType` that `eMBMasterPoll` consumes. -/
inductive MBMasterEventType where
  | ready
  | frameReceived
  | execute
  | frameSent
  | errorProcess
deriving Repr, DecidableEq

/-- The place of an event in the word: `EV_MASTER_READY = 1<<0` and so on. -/
def MBMasterEventType.bit : MBMasterEventType → Nat
  | .ready => 0
  | .frameReceived => 1
  | .execute => 2
  | .frameSent => 3
  | .errorProcess => 4

/-- The events, in the order of the mask and of the `switch`. -/
def MBMasterEventType.all : List MBMasterEventType :=
  [.ready, .frameReceived, .execute, .frameSent, .errorProcess]

/-- The master's queue. -/
def masterChannel : Channel MBMasterEventType 32 :=
  .ofEvents MBMasterEventType.bit MBMasterEventType.all
    (by intro e; cases e <;> decide) (by intro e; cases e <;> decide)
    (by intro e e' h; cases e <;> cases e' <;> first | rfl | cases h)

/-- `xMBMasterPortEventPost` of an event of the poll loop. -/
def xMBMasterPortEventPost (flags : BitVec 32) (eEvent : MBMasterEventType) : BitVec 32 :=
  masterChannel.post flags eEvent

/-- `xMBMasterPortEventGet` when it returns: the event assigned to `*eEvent`, if any, and
the flags left. -/
def xMBMasterPortEventGet (flags : BitVec 32) : Option MBMasterEventType × BitVec 32 :=
  masterChannel.get flags

example : masterChannel.mask = 0x1F := by decide

/-! ## Results of requests

The same word of flags carries the results of requests from the callbacks of
`portevent_m.c` to the thread that waits in `eMBMasterWaitRequestFinish`. -/

/-- The events of `eMBMasterEventType` that `eMBMasterWaitRequestFinish` consumes. -/
inductive MBMasterResult where
  | processSucess
  | errorRespondTimeout
  | errorReceiveData
  | errorExecuteFunction
deriving Repr, DecidableEq

/-- The place of a result in the word: `EV_MASTER_PROCESS_SUCESS = 1<<5` and so on. -/
def MBMasterResult.bit : MBMasterResult → Nat
  | .processSucess => 5
  | .errorRespondTimeout => 6
  | .errorReceiveData => 7
  | .errorExecuteFunction => 8

/-- The results, in the order of the mask and of the `switch`. -/
def MBMasterResult.all : List MBMasterResult :=
  [.processSucess, .errorRespondTimeout, .errorReceiveData, .errorExecuteFunction]

/-- The results in the master's word of flags. -/
def resultChannel : Channel MBMasterResult 32 :=
  .ofEvents MBMasterResult.bit MBMasterResult.all
    (by intro r; cases r <;> decide) (by intro r; cases r <;> decide)
    (by intro r r' h; cases r <;> cases r' <;> first | rfl | cases h)

/-- Events and results have different flags. -/
theorem masterChannel_apart : masterChannel.Apart resultChannel := by
  intro e r
  show e.bit ≠ r.bit
  cases e <;> cases r <;> decide

/-- `eMBMasterReqErrCode`. -/
inductive MBMasterReqErrCode where
  | noErr
  | noReg
  | illArg
  | revData
  | timedout
  | masterBusy
  | exeFun
deriving Repr, DecidableEq

/-- The code for a result. -/
def MBMasterResult.code : MBMasterResult → MBMasterReqErrCode
  | .processSucess => .noErr
  | .errorRespondTimeout => .timedout
  | .errorReceiveData => .revData
  | .errorExecuteFunction => .exeFun

/-- `eMBMasterWaitRequestFinish` when it returns: the code, and the flags left.  The code is
`MB_MRE_NO_ERR` unless the received word is that of one of the results. -/
def eMBMasterWaitRequestFinish (flags : BitVec 32) : MBMasterReqErrCode × BitVec 32 :=
  let (recvedEvent, flags') := resultChannel.get flags
  match recvedEvent with
  | some r => (r.code, flags')
  | none => (.noErr, flags')

/-- What a wait leaves of the flags. -/
theorem eMBMasterWaitRequestFinish_flags (flags : BitVec 32) :
    (eMBMasterWaitRequestFinish flags).2 = (resultChannel.get flags).2 := by
  unfold eMBMasterWaitRequestFinish
  dsimp only
  split <;> rfl

/-- A wait that finds one result returns its code. -/
theorem eMBMasterWaitRequestFinish_of_only {flags : BitVec 32} {r : MBMasterResult}
    (h : resultChannel.Only flags r) : (eMBMasterWaitRequestFinish flags).1 = r.code := by
  have hget := resultChannel.get_of_only h
  unfold eMBMasterWaitRequestFinish
  dsimp only
  rw [hget]

/-! ## What a queue loses

Sequences of posts and gets, and what it means that they lose nothing, are those
of `EventFlags.Channel`, at the two channels whose `post` and `get` are the
functions above. -/

/-- Every get that returns assigns one pending event and leaves the others pending, and every
post is delivered. -/
def Lossless {E : Type} (C : Channel E 32) (flags : BitVec 32) (ops : List (Op E)) : Prop :=
  C.AtGets C.GetExact flags ops ∧ C.PostsDelivered flags ops

/-- A queue loses or garbles no event of a sequence of posts and gets exactly when no get that
returns finds two events pending. -/
theorem portEvent_lossless_iff (flags : BitVec 32) (slaveOps : List (Op MBEventType))
    (masterOps : List (Op MBMasterEventType)) :
    (Lossless slaveChannel flags slaveOps ↔
      slaveChannel.AtGets slaveChannel.AtMostOne flags slaveOps) ∧
    (Lossless masterChannel flags masterOps ↔
      masterChannel.AtGets masterChannel.AtMostOne flags masterOps) :=
  ⟨slaveChannel.lossless_iff flags slaveOps, masterChannel.lossless_iff flags masterOps⟩

/-- Two events posted before a get: it assigns none of them, and both are gone. -/
theorem portEvent_lossy :
    ¬ Lossless slaveChannel 0 [.post .frameReceived, .post .execute, .get] ∧
      ¬ Lossless masterChannel 0 [.post .frameReceived, .post .frameSent, .get] := by
  constructor
  · rintro ⟨⟨hget, -⟩, -⟩
    obtain ⟨e, he, -⟩ := hget ⟨.execute, by decide⟩
    exact absurd he (by cases e <;> decide)
  · rintro ⟨⟨hget, -⟩, -⟩
    obtain ⟨e, he, -⟩ := hget ⟨.frameSent, by decide⟩
    exact absurd he (by cases e <;> decide)

end FreeModbus
