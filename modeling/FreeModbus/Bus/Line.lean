import FreeModbus.Lib.LeadsTo
import FreeModbus.Master.Concluding
import FreeModbus.Slave.Serving

/-!
# The bus

One master and any number of slaves on one line, each of them the state machine of its
own module.  A byte that a transmitter puts on the line is heard by every other party
whose receiver is enabled.  The parties move one at a time, in any order.

`Timely` says what the parties may count on.  There is no noise.  The timer of t3.5
expires in silence only.  The response timeout and the convert delay are longer than the
slaves need: they expire when every slave is at rest.  Nobody is slow to poll: a slave
begins with its reply when the others are done with the request.  The threads that call
the request functions take turns: a request is made when the one before has returned and
the slaves are at rest.
-/

namespace FreeModbus

open ByteMemory EventFlags EventFlags.Channel Transition

/-- The parties on a line. -/
structure Bus (ι : Type) where
  master : Master
  slaves : ι → Slave

/-- A step of one party. -/
inductive BusAction (ι : Type) where
  | master (a : MasterAction)
  | slave (i : ι) (a : SlaveAction)

/-- Bytes on the line, as a slave takes them. -/
def Slave.hears (x : Slave) (bytes : List UChar) : Slave :=
  if x.xRxEnable then x.heard bytes else x

/-- Bytes on the line, as the master takes them. -/
def Master.hears (s : Master) (bytes : List UChar) : Master :=
  if s.xRxEnable then s.heard bytes else s

/-- The transmitter of the master has put a byte of its frame on the line and is not done. -/
def Master.Talking (s : Master) : Prop := s.xTxEnable = true ∧ s.line ≠ []

/-- The call has returned. -/
def CallState.Returned : CallState → Prop
  | .returned _ _ => True
  | _ => False

namespace Bus

variable {ι : Type} [DecidableEq ι]

/-- One step of a party, where it is enabled there.  The others hear what it sends. -/
def step (b : Bus ι) : BusAction ι → Option (Bus ι)
  | .master a => (b.master.step a).map fun s =>
      { master := s
        slaves := fun i => (b.slaves i).hears (s.line.drop b.master.line.length) }
  | .slave i a => ((b.slaves i).step a).map fun x =>
      { master := b.master.hears (x.sent.drop (b.slaves i).sent.length)
        slaves := Function.update
          (fun j => (b.slaves j).hears (x.sent.drop (b.slaves i).sent.length)) i x }

/-- No frame is on the line. -/
def Silent (b : Bus ι) : Prop := ¬ b.master.Talking ∧ ∀ i, ¬ (b.slaves i).Talking

/-- Every slave is at rest. -/
def Rested (b : Bus ι) : Prop := ∀ i, (b.slaves i).AtRest

/-- At most one transmitter is on. -/
structure OneTalker (b : Bus ι) : Prop where
  master : b.master.xTxEnable = true → ∀ i, (b.slaves i).xTxEnable = false
  slaves : ∀ i j, (b.slaves i).xTxEnable = true → (b.slaves j).xTxEnable = true → i = j

/-- The call `j` may be made: the calls before it have returned and the slaves are at rest. -/
def Turn (client : Nat → MasterRequest) (b : Bus ι) (j : Nat) (q : MasterRequest) : Prop :=
  q = client j ∧ (∀ k < j, (b.master.calls k).Returned) ∧ b.Rested

/-- What the parties may count on, where call `j` makes the request `client j`. -/
def Timely (client : Nat → MasterRequest) (b : Bus ι) : BusAction ι → Prop
  | .master (.byte _) => False
  | .master .timer => b.Silent ∧ (b.master.eMasterCurTimerMode = .t35 ∨ b.Rested)
  | .master (.take j q) => b.Turn client j q
  | .master (.refuse j q) => b.Turn client j q
  | .master _ => True
  | .slave _ (.byte _) => False
  | .slave _ .timer => b.Silent
  | .slave i .txReady => (b.slaves i).pucSndBufferCur = 0 → ∀ j, j ≠ i → (b.slaves j).AtRest
  | .slave _ (.poll _) => True

end Bus

/-! ## What is sent by a step -/

namespace Slave

variable {x x' : Slave} {a : SlaveAction}

theorem eMBRTUSend_sent (x : Slave) (own : UChar) : (x.eMBRTUSend own).2.sent = x.sent := by
  unfold eMBRTUSend
  split <;> rfl

theorem pollExecute_sent (x : Slave) : x.pollExecute.sent = x.sent := by
  have hframe := buildErrorFrame_frame x.callHandler
  unfold pollExecute
  dsimp only
  split
  · rw [eMBRTUSend_sent, hframe]
    rfl
  · rfl

theorem pollFrameReceived_sent (x : Slave) : x.pollFrameReceived.sent = x.sent := by
  have hrec : x.eMBRTUReceive.2.sent = x.sent := by
    unfold eMBRTUReceive
    split <;> rfl
  unfold pollFrameReceived
  dsimp only
  split
  · exact hrec
  · exact hrec

/-- An expiry and a poll send nothing. -/
theorem timerPoll_sent (ha : TimerPoll a) (h : x.step a = some x') : x'.sent = x.sent := by
  cases a with
  | byte b => exact ha.elim
  | txReady => exact ha.elim
  | timer =>
    obtain ⟨-, rfl⟩ := timer_cases h
    unfold xMBRTUTimerT35Expired
    dsimp only
    split <;> rfl
  | poll junk =>
    rcases eMBPoll_cases h with ⟨-, rfl⟩ | ⟨-, -, hhandle⟩
    · rfl
    · rcases handle_cases hhandle with ⟨-, -, rfl⟩ | ⟨-, rfl⟩ | ⟨-, -, rfl⟩
      · rfl
      · exact pollFrameReceived_sent _
      · exact pollExecute_sent _

@[simp] theorem hears_nil (x : Slave) : x.hears [] = x := by
  unfold hears
  split <;> rfl

theorem hears_on (h : x.xRxEnable = true) (bytes : List UChar) :
    x.hears bytes = x.heard bytes := if_pos h

/-- What is heard in two parts. -/
theorem heard_hears {s : Slave} (h : s.xRxEnable = true) (bytes more : List UChar) :
    (s.heard bytes).hears more = s.heard (bytes ++ more) := by
  rw [hears_on ((heard_same s bytes).1.trans h), heard, heard, heard, List.foldl_append]

end Slave

namespace Master

variable {s s' : Master} {a : MasterAction} {i : Nat} {q : MasterRequest}

@[simp] theorem hears_nil (s : Master) : s.hears [] = s := by
  unfold hears
  split <;> rfl

theorem hears_on (h : s.xRxEnable = true) (bytes : List UChar) :
    s.hears bytes = s.heard bytes := if_pos h

theorem timerExpired_line (s : Master) : s.xMBMasterRTUTimerExpired.line = s.line := by
  have hrcv : s.timerExpiredRcv.line = s.line := by
    unfold timerExpiredRcv
    dsimp only
    split <;> rfl
  have hsnd : ∀ t : Master, t.timerExpiredSnd.line = t.line := by
    intro t
    unfold timerExpiredSnd
    dsimp only
    split
    · split <;> rfl
    · rfl
    · rfl
  have hend : s.xMBMasterRTUTimerExpired.line = s.timerExpiredRcv.timerExpiredSnd.line := by
    unfold xMBMasterRTUTimerExpired
    dsimp only
    split <;> rfl
  rw [hend, hsnd, hrcv]

/-- A poll leaves the line as it is, or begins a new frame. -/
theorem poll_line {junk : Option MBMasterEventType} (h : s.step (.poll junk) = some s') :
    s'.line = s.line ∨ s'.line = [] := by
  have hexec : ∀ t : Master, t.executeFrame.line = t.line := by
    intro t
    obtain ⟨_, _, _, _, _, _, _, _, heq⟩ := executeFrame_executes t
    rw [heq]
  rcases poll_cases h with ⟨-, rfl⟩ | ⟨-, -, hhandle⟩
  · exact Or.inl rfl
  · generalize s.polled junk = ev at hhandle
    cases handled_of_handle hhandle with
    | failed => exact Or.inl (hexec s.drained)
    | executed => exact Or.inl (hexec s.drained)
    | activated => exact Or.inr rfl
    | nothing => exact Or.inl rfl
    | ready => exact Or.inl rfl
    | accepted => exact Or.inl rfl
    | rejected => exact Or.inl rfl
    | unsent => exact Or.inl rfl
    | error => exact Or.inl rfl

/-- Only the transmitter sends. -/
theorem sends_nothing (ha : a.By i q) (htx : a ≠ .txReady) (h : s.step a = some s') :
    s'.line.drop s.line.length = [] := by
  have hline : s'.line = s.line ∨ s'.line = [] := by
    cases a with
    | byte b => exact ha.elim
    | txReady => exact absurd rfl htx
    | timer =>
      obtain ⟨-, rfl⟩ := timer_cases h
      exact Or.inl (timerExpired_line s)
    | poll junk => exact poll_line h
    | refuse j q' =>
      obtain ⟨_, -, rfl, -⟩ := refuse_cases h
      exact Or.inl rfl
    | take j q' =>
      obtain ⟨-, -, -, rfl⟩ := take_cases h
      exact Or.inl rfl
    | fill j =>
      obtain ⟨_, -, rfl⟩ := fill_cases h
      exact Or.inl rfl
    | submit j =>
      obtain ⟨_, -, rfl⟩ := submit_cases h
      exact Or.inl rfl
    | finish j =>
      obtain ⟨_, _, _, -, -, -, rfl⟩ := finish_cases h
      exact Or.inl rfl
  rcases hline with heq | heq
  · rw [heq]
    exact List.drop_length
  · rw [heq]
    exact List.drop_nil

end Master

/-! ## What a step does to the parties -/

namespace Bus

section

variable {ι : Type} {b : Bus ι}

/-- A slave at rest has no step. -/
theorem resting_still {client : Nat → MasterRequest} {i : ι} {a : SlaveAction}
    (h : (b.slaves i).Resting) (hok : b.Timely client (.slave i a)) :
    (b.slaves i).step a = none := by
  cases a with
  | byte c => exact hok.elim
  | timer => exact h.not_timerPoll (a := .timer) trivial
  | poll junk => exact h.not_timerPoll (a := .poll junk) trivial
  | txReady =>
    rw [Slave.step, h.quiet.tx]
    rfl

/-- A line on which no slave sends. -/
theorem oneTalker_of_off (h : ∀ i, (b.slaves i).xTxEnable = false) : b.OneTalker where
  master _ := h
  slaves i _ hi _ := absurd (hi.symm.trans (h i)) (by decide)

end

variable {ι : Type} [DecidableEq ι] {b b' : Bus ι} {i : ι}

theorem master_of_step {a : MasterAction} (h : b.step (.master a) = some b') :
    b.master.step a = some b'.master ∧ b'.slaves = fun i =>
      (b.slaves i).hears (b'.master.line.drop b.master.line.length) := by
  obtain ⟨s, hst, rfl⟩ := Option.map_eq_some_iff.mp h
  exact ⟨hst, rfl⟩

theorem slave_of_step {a : SlaveAction} (h : b.step (.slave i a) = some b') :
    ∃ x, (b.slaves i).step a = some x ∧
      b'.master = b.master.hears (x.sent.drop (b.slaves i).sent.length) ∧
      b'.slaves = Function.update
        (fun j => (b.slaves j).hears (x.sent.drop (b.slaves i).sent.length)) i x := by
  obtain ⟨x, hst, rfl⟩ := Option.map_eq_some_iff.mp h
  exact ⟨x, hst, rfl, rfl⟩

/-- A step of the master that sends nothing leaves the slaves alone. -/
theorem step_master {a : MasterAction} {j : Nat} {q : MasterRequest} (ha : a.By j q)
    (htx : a ≠ .txReady) (h : b.step (.master a) = some b') :
    b.master.step a = some b'.master ∧ b'.slaves = b.slaves := by
  obtain ⟨hst, hslaves⟩ := master_of_step h
  refine ⟨hst, ?_⟩
  rw [hslaves, Master.sends_nothing ha htx hst]
  exact funext fun i => Slave.hears_nil _

/-- An expiry or a poll of a slave leaves the other parties alone. -/
theorem step_slave {a : SlaveAction} (ha : Slave.TimerPoll a)
    (h : b.step (.slave i a) = some b') :
    ∃ x, (b.slaves i).step a = some x ∧ b'.master = b.master ∧
      b'.slaves = Function.update b.slaves i x := by
  obtain ⟨x, hst, hmaster, hslaves⟩ := slave_of_step h
  refine ⟨x, hst, ?_⟩
  rw [hmaster, hslaves, Slave.timerPoll_sent ha hst, List.drop_length]
  refine ⟨Master.hears_nil _, ?_⟩
  simp only [Slave.hears_nil]

theorem step_of_master {a : MasterAction} {s : Master} (h : b.master.step a = some s) :
    ∃ b', b.step (.master a) = some b' := ⟨_, congrArg (Option.map _) h⟩

theorem step_of_slave {a : SlaveAction} {x : Slave} (h : (b.slaves i).step a = some x) :
    ∃ b', b.step (.slave i a) = some b' := ⟨_, congrArg (Option.map _) h⟩

end Bus

end FreeModbus
