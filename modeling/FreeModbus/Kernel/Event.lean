import FreeModbus.Kernel.Ipc
import FreeModbus.Lib.BlockingFlags
import Mathlib.Data.Fintype.Basic

/-!
# The kernel's event object

`rt_event_send`, `rt_event_recv` and the reset of `rt_event_control`, with any number of
threads that receive.  A send goes through the suspended threads once and resumes those
whose condition the flags meet, which may clear flags before the next thread is looked at.

The object is a blocking receive on sticky flags, as it is meant: every trace of it is one
of the object of `Blocking`, where a receive takes effect at one moment.
-/

namespace FreeModbus

open Blocking BlockingFlags Transition Waiters

/-! ## Options -/

/-- `RT_EVENT_FLAG_AND`. -/
def rtEventFlagAnd : BitVec 8 := 0x01

/-- `RT_EVENT_FLAG_OR`. -/
def rtEventFlagOr : BitVec 8 := 0x02

/-- `RT_EVENT_FLAG_CLEAR`. -/
def rtEventFlagClear : BitVec 8 := 0x04

/-- The test of an option. -/
def hasFlag (option flag : BitVec 8) : Bool := option &&& flag ≠ 0

/-- What a receive with these arguments asks for. -/
def request (set : BitVec 32) (option : BitVec 8) : Receive 32 where
  mask := set
  all := hasFlag option rtEventFlagAnd
  clear := hasFlag option rtEventFlagClear

/-- One of AND and OR is among the options. -/
def Asks (option : BitVec 8) : Prop :=
  hasFlag option rtEventFlagAnd = true ∨ hasFlag option rtEventFlagOr = true

/-! ## The object -/

variable {ι : Type}

/-- `struct rt_event`, its threads, and the `set` and `option` of the call a thread is in. -/
structure RtEvent (ι : Type) where
  set : BitVec 32
  parent : Waiters ι (BitVec 32 × BitVec 8)

namespace RtEvent

variable [DecidableEq ι]

/-- A thread whose condition is met is resumed, with the flags that it gets. -/
def resume (e : RtEvent ι) (i : ι) (eventSet : BitVec 32) : RtEvent ι :=
  let thread := { e.parent.thread i with eventSet }
  { set := if hasFlag thread.eventInfo rtEventFlagClear then e.set &&& ~~~eventSet else e.set
    parent := rtThreadResume
      { e.parent with thread := Function.update e.parent.thread i thread } i }

/-- One turn of the loop of `rt_event_send`. -/
def sendThread (e : RtEvent ι) (i : ι) : RtEvent ι :=
  let thread := e.parent.thread i
  if hasFlag thread.eventInfo rtEventFlagAnd then
    if thread.eventSet &&& e.set = thread.eventSet then e.resume i thread.eventSet else e
  else if hasFlag thread.eventInfo rtEventFlagOr then
    if thread.eventSet &&& e.set ≠ 0 then e.resume i (thread.eventSet &&& e.set) else e
  else e

/-- `rt_event_send`. -/
def rtEventSend (e : RtEvent ι) (set : BitVec 32) : RtEvent ι :=
  if set = 0 then e
  else e.parent.suspendThread.foldl sendThread { e with set := e.set ||| set }

/-- The check of `rt_event_recv`; without AND and OR an assertion fails. -/
def recvStatus (eventSet set : BitVec 32) (option : BitVec 8) : Option Bool :=
  if hasFlag option rtEventFlagAnd then some (eventSet &&& set = set)
  else if hasFlag option rtEventFlagOr then some (eventSet &&& set ≠ 0)
  else none

/-- `rt_event_recv`, up to its return or its wait. -/
def rtEventRecv (currentPriority : ι → Nat) (e : RtEvent ι) (i : ι) (set : BitVec 32)
    (option : BitVec 8) (timeout : Int) :
    Option (RtEvent ι × Option (Except RtError (BitVec 32))) :=
  let thread := { e.parent.thread i with error := none }
  if set = 0 then some (e, some (.error .error))
  else
    match recvStatus e.set set option with
    | none => none
    | some true => some (
        { set := if hasFlag option rtEventFlagClear then e.set &&& ~~~set else e.set
          parent := { e.parent with thread := Function.update e.parent.thread i thread } },
        some (.ok (e.set &&& set)))
    | some false =>
        if timeout = 0 then some (
          { e with parent := { e.parent with
            thread := Function.update e.parent.thread i { thread with error := some .etimeout } } },
          some (.error .etimeout))
        else some (
          { e with
            parent := e.parent.waits currentPriority i
              { thread with eventSet := set, eventInfo := option } (set, option) timeout },
          none)

/-- `rt_event_recv` after its wait. -/
def rtEventRecvReturn (e : RtEvent ι) (i : ι) :
    Option (RtEvent ι × Except RtError (BitVec 32)) :=
  match e.parent.call i, (e.parent.thread i).stat with
  | some _, .ready => some (
      { e with parent := { e.parent with call := Function.update e.parent.call i none } },
      match (e.parent.thread i).error with
      | some err => .error err
      | none => .ok (e.parent.thread i).eventSet)
  | _, _ => none

/-- `rt_event_control` with `RT_IPC_CMD_RESET`. -/
def rtEventReset (e : RtEvent ι) : RtEvent ι where
  set := 0
  parent := rtIpcListResumeAll e.parent

/-- `rt_event_init`, with threads that run. -/
def rtEventInit (flag : RtIpcFlag) (thread : ι → RtThread) : RtEvent ι where
  set := 0
  parent := .init flag thread

end RtEvent

/-! ## Steps -/

/-- What can happen to the object.  A send may come from a thread or from an interrupt. -/
inductive EventAction (ι : Type) where
  | send (set : BitVec 32)
  | recv (i : ι) (set : BitVec 32) (option : BitVec 8) (timeout : Int)
  | timeout (i : ι)
  | reset
  | ret (i : ι)

/-- The thread that calls. -/
def EventAction.caller : EventAction ι → Option ι
  | .recv i _ _ _ => some i
  | _ => none

/-- What is seen of the object. -/
abbrev EventLabel (ι : Type) : Type := Label (BitVec 32) ι (BitVec 32) (Receive 32) (BitVec 32)

namespace RtEvent

variable [DecidableEq ι] (currentPriority : ι → Nat)

/-- One step.  A thread calls only when it runs and is in no call. -/
def step (e : RtEvent ι) : EventAction ι → Option (RtEvent ι)
  | .send set => some (e.rtEventSend set)
  | .recv i set option timeout =>
      match e.parent.call i, (e.parent.thread i).stat with
      | none, .ready => (rtEventRecv currentPriority e i set option timeout).map Prod.fst
      | _, _ => none
  | .timeout i => (rtThreadTimeout e.parent i).map fun parent => { e with parent }
  | .reset => some e.rtEventReset
  | .ret i => e.rtEventRecvReturn i |>.map Prod.fst

/-- What a step shows; a call with an empty set has no effect. -/
def label (e : RtEvent ι) : EventAction ι → List (EventLabel ι)
  | .send set => if set = 0 then [] else [.update set]
  | .recv i set option timeout =>
      if set = 0 then []
      else
        match rtEventRecv currentPriority e i set option timeout with
        | some (_, some result) =>
            [.call i (request set option), .ret i (request set option) result.toOption]
        | _ => [.call i (request set option)]
  | .timeout _ => []
  | .reset => [.reset 0]
  | .ret i =>
      match e.parent.call i, e.rtEventRecvReturn i with
      | some (set, option), some (_, result) => [.ret i (request set option) result.toOption]
      | _, _ => []

/-! ## What it is meant to be -/

/-- The object that it is meant to be. -/
def meant (e : RtEvent ι) : Object (BitVec 32) ι (Receive 32) (BitVec 32) :=
  FreeModbus.meant (fun c => request c.1 c.2) RtThread.eventSet e.set e.parent

/-- What a suspended thread asks for. -/
def asked (e : RtEvent ι) (i : ι) : Receive 32 :=
  request (e.parent.thread i).eventSet (e.parent.thread i).eventInfo

/-- The suspended threads are those of the list, and each has left what it asks for. -/
structure Asking (e : RtEvent ι) : Prop where
  queued : e.parent.Queued
  filled : ∀ i, (e.parent.thread i).stat = .suspend →
    e.parent.call i = some ((e.parent.thread i).eventSet, (e.parent.thread i).eventInfo)
  asks : ∀ i, (e.parent.thread i).stat = .suspend → Asks (e.parent.thread i).eventInfo

/-- And no thread is suspended whose condition is met. -/
structure Waiting (e : RtEvent ι) : Prop extends Asking e where
  unmet : ∀ i, (e.parent.thread i).stat = .suspend → ¬ (e.asked i).Holds e.set

end RtEvent

/-! ## One thread of a send -/

theorem recvStatus_eq {option : BitVec 8} (h : Asks option) (eventSet set : BitVec 32) :
    RtEvent.recvStatus eventSet set option =
      some (decide ((request set option).Holds eventSet)) := by
  unfold RtEvent.recvStatus Receive.Holds request EventFlags.received
  cases hand : hasFlag option rtEventFlagAnd with
  | true => simp
  | false =>
    have hor : hasFlag option rtEventFlagOr = true := by simpa [Asks, hand] using h
    simp [hor]

theorem asks_of_recvStatus {option : BitVec 8} {eventSet set : BitVec 32} {b : Bool}
    (h : RtEvent.recvStatus eventSet set option = some b) : Asks option := by
  unfold RtEvent.recvStatus at h
  split at h
  · exact Or.inl ‹_›
  · split at h
    · exact Or.inr ‹_›
    · cases h

namespace RtEvent

variable [DecidableEq ι] {currentPriority : ι → Nat} {e e' : RtEvent ι} {i j : ι}

/-- The thread's receive takes effect. -/
def took (e : RtEvent ι) (i : ι) : RtEvent ι where
  set := (e.asked i).left e.set
  parent := leave e.parent i
    { e.parent.thread i with eventSet := EventFlags.received e.set (e.asked i).mask }

/-- To clear the flags that were got clears all flags that were asked for. -/
theorem clear_received (flags mask : BitVec 32) :
    flags &&& ~~~(flags &&& mask) = flags &&& ~~~mask := by
  ext k hk
  simp only [BitVec.getElem_and, BitVec.getElem_not]
  cases flags[k] <;> simp

theorem resume_received (h : (e.parent.thread i).stat = .suspend) :
    e.resume i (EventFlags.received e.set (e.parent.thread i).eventSet) = e.took i := by
  unfold resume took
  dsimp only
  rw [rtThreadResume_suspended (by simpa using h)]
  simp only [leave, asked, request, Receive.left, EventFlags.cleared, EventFlags.received,
    clear_received, Function.update_self, Function.update_idem]
  rfl

/-- A turn of the loop takes the thread's receive exactly when its condition is met. -/
theorem sendThread_eq (h : (e.parent.thread i).stat = .suspend)
    (hasks : Asks (e.parent.thread i).eventInfo) :
    e.sendThread i = if (e.asked i).Holds e.set then e.took i else e := by
  have hcomm : (e.parent.thread i).eventSet &&& e.set =
      EventFlags.received e.set (e.parent.thread i).eventSet := BitVec.and_comm ..
  unfold sendThread
  dsimp only
  rw [hcomm]
  cases hand : hasFlag (e.parent.thread i).eventInfo rtEventFlagAnd with
  | true =>
    have hholds : (e.asked i).Holds e.set ↔
        EventFlags.received e.set (e.parent.thread i).eventSet = (e.parent.thread i).eventSet := by
      simp [asked, request, Receive.Holds, hand]
    rw [if_pos rfl]
    by_cases hq : (e.asked i).Holds e.set
    · rw [if_pos hq, if_pos (hholds.mp hq), ← resume_received h, hholds.mp hq]
    · rw [if_neg hq, if_neg (mt hholds.mpr hq)]
  | false =>
    have hor : hasFlag (e.parent.thread i).eventInfo rtEventFlagOr = true := by
      simpa [Asks, hand] using hasks
    have hholds : (e.asked i).Holds e.set ↔
        EventFlags.received e.set (e.parent.thread i).eventSet ≠ 0 := by
      simp [asked, request, Receive.Holds, hand]
    rw [if_neg Bool.false_ne_true, if_pos hor, resume_received h]
    by_cases hq : (e.asked i).Holds e.set
    · rw [if_pos hq, if_pos (hholds.mp hq)]
    · rw [if_neg hq, if_neg (mt hholds.mpr hq)]

/-- A turn of the loop that takes is a take of the object as it is meant. -/
theorem runs_took (h : e.Asking) (hi : (e.parent.thread i).stat = .suspend)
    (hq : (e.asked i).Holds e.set) : (flagSpec 32).Runs e.meant [] (e.took i).meant :=
  runs_resume (D := flagSpec 32) (h.filled i hi) hi (h.queued.noError i hi) hq rfl

theorem Asking.leave {x : BitVec 32} {t : RtThread} (h : e.Asking) :
    Asking { set := x, parent := e.parent.leave i t } where
  queued := h.queued.leave
  filled j hj := by
    obtain ⟨hne, hj⟩ := suspended_of_leave hj
    dsimp only
    rw [leave_thread_of_ne hne]
    exact h.filled j hj
  asks j hj := by
    obtain ⟨hne, hj⟩ := suspended_of_leave hj
    dsimp only
    rw [leave_thread_of_ne hne]
    exact h.asks j hj

/-! ## Sends -/

/-- The loop of `rt_event_send`, from any of its turns on: it leaves nobody suspended whose
condition is met, and what it does is to take receives. -/
theorem sendLoop {rest : List ι} (h : e.Asking) (hrest : rest.Nodup)
    (hmem : ∀ i ∈ rest, (e.parent.thread i).stat = .suspend)
    (hpast : ∀ i, (e.parent.thread i).stat = .suspend → i ∉ rest → ¬ (e.asked i).Holds e.set) :
    (rest.foldl sendThread e).Waiting ∧
      (flagSpec 32).Runs e.meant [] (rest.foldl sendThread e).meant := by
  induction rest generalizing e with
  | nil => exact ⟨⟨h, fun i hi => hpast i hi List.not_mem_nil⟩, .nil⟩
  | cons i rest ih =>
    obtain ⟨hi, hrest⟩ := List.nodup_cons.mp hrest
    have hsuspended := hmem i List.mem_cons_self
    rw [List.foldl_cons, sendThread_eq hsuspended (h.asks i hsuspended)]
    by_cases hq : (e.asked i).Holds e.set
    · rw [if_pos hq]
      have hkeep : ∀ j, j ≠ i → (e.took i).parent.thread j = e.parent.thread j := fun j hne =>
        leave_thread_of_ne hne
      obtain ⟨hwaiting, htrace⟩ := ih (e := e.took i) h.leave hrest
        (fun j hj => by
          rw [hkeep j (fun heq => hi (heq ▸ hj))]
          exact hmem j (List.mem_cons_of_mem _ hj))
        (fun j hj hnot => by
          obtain ⟨hne, hj⟩ := suspended_of_leave hj
          have hasked : (e.took i).asked j = e.asked j := by
            unfold asked
            rw [hkeep j hne]
          rw [hasked]
          refine mt Receive.Holds.of_left (hpast j hj fun hin => ?_)
          rcases List.mem_cons.mp hin with heq | hin
          · exact hne heq
          · exact hnot hin)
      exact ⟨hwaiting, (runs_took h hsuspended hq).trans htrace⟩
    · rw [if_neg hq]
      refine ih h hrest (fun j hj => hmem j (List.mem_cons_of_mem _ hj)) fun j hj hnot => ?_
      by_cases hne : j = i
      · exact hne ▸ hq
      · exact hpast j hj fun hin => (List.mem_cons.mp hin).elim hne hnot

/-- Nobody is left waiting for what holds, and the object as it is meant has a run to the new
state that shows the same. -/
def Matches (e : RtEvent ι) (shown : List (EventLabel ι)) (e' : RtEvent ι) : Prop :=
  e'.Waiting ∧ (flagSpec 32).Runs e.meant shown e'.meant

theorem rtEventSend_matches (h : e.Waiting) (set : BitVec 32) :
    e.Matches (if set = 0 then [] else [Label.update set]) (e.rtEventSend set) := by
  unfold rtEventSend
  by_cases hset : set = 0
  · rw [if_pos hset, if_pos hset]
    exact ⟨h, .nil⟩
  · rw [if_neg hset, if_neg hset]
    have hsend : (flagSpec 32).Runs e.meant [Label.update set]
        { e with set := e.set ||| set }.meant := Spec.runs_update
    obtain ⟨hwaiting, htrace⟩ := sendLoop (e := { e with set := e.set ||| set })
      ⟨h.queued, h.filled, h.asks⟩ h.queued.nodup (fun i => (h.queued.mem_iff i).mp)
      (fun i hi hnot => absurd ((h.queued.mem_iff i).mpr hi) hnot)
    exact ⟨hwaiting, hsend.trans htrace⟩

/-! ## Receives -/

/-- A running thread may change its part, and flags may be cleared. -/
theorem Waiting.run {x : BitVec 32} {t : RtThread} {c : Option (BitVec 32 × BitVec 8)}
    (h : e.Waiting) (hready : (e.parent.thread i).stat = .ready) (ht : t.stat = .ready)
    (htimer : t.threadTimer = (e.parent.thread i).threadTimer)
    (hx : ∀ q : Receive 32, ¬ q.Holds e.set → ¬ q.Holds x) :
    Waiting {
      set := x
      parent := { e.parent with
        thread := Function.update e.parent.thread i t
        call := Function.update e.parent.call i c } } := by
  refine ⟨⟨h.queued.run hready ht htimer, fun j hj => ?_, fun j hj => ?_⟩, fun j hj => ?_⟩
  · obtain ⟨hne, hj⟩ := suspended_of_update ht j hj
    simpa [hne] using h.filled j hj
  · obtain ⟨hne, hj⟩ := suspended_of_update ht j hj
    simpa [hne] using h.asks j hj
  · obtain ⟨hne, hj⟩ := suspended_of_update ht j hj
    simpa [hne, asked] using hx _ (h.unmet j hj)

/-- In no call, it stays in none. -/
theorem Waiting.in_no_call {x : BitVec 32} {t : RtThread} (h : e.Waiting)
    (hcall : e.parent.call i = none) (hready : (e.parent.thread i).stat = .ready)
    (ht : t.stat = .ready) (htimer : t.threadTimer = (e.parent.thread i).threadTimer)
    (hx : ∀ q : Receive 32, ¬ q.Holds e.set → ¬ q.Holds x) :
    Waiting {
      set := x
      parent := { e.parent with thread := Function.update e.parent.thread i t } } := by
  have hself : Function.update e.parent.call i none = e.parent.call := by
    rw [← hcall, Function.update_eq_self]
  have hrun := h.run (c := none) hready ht htimer hx
  rw [hself] at hrun
  exact hrun

/-- A running thread may go to wait for what does not hold. -/
theorem Waiting.waits {t : RtThread} {timeout : Int} (h : e.Waiting)
    (hready : (e.parent.thread i).stat = .ready) (ht : t.stat = .ready) (herror : t.error = none)
    (hasks : Asks t.eventInfo) (hq : ¬ (request t.eventSet t.eventInfo).Holds e.set) :
    Waiting { e with
      parent := e.parent.waits currentPriority i t (t.eventSet, t.eventInfo) timeout } := by
  refine ⟨⟨h.queued.waits hready ht herror, fun j hj => ?_, fun j hj => ?_⟩, fun j hj => ?_⟩
  all_goals
    dsimp only [asked] at hj ⊢
    rw [waits_eq ht] at hj ⊢
    by_cases hne : j = i
  · subst hne
    simp
  · simpa [hne] using h.filled j (by simpa [hne] using hj)
  · subst hne
    simpa using hasks
  · simpa [hne] using h.asks j (by simpa [hne] using hj)
  · subst hne
    simpa using hq
  · simpa [hne, asked] using h.unmet j (by simpa [hne] using hj)

/-- What a call comes to. -/
inductive RecvOutcome (currentPriority : ι → Nat) (e : RtEvent ι) (i : ι) (set : BitVec 32)
    (option : BitVec 8) (timeout : Int) :
    RtEvent ι → Option (Except RtError (BitVec 32)) → Prop where
  | empty : set = 0 → RecvOutcome currentPriority e i set option timeout e (some (.error .error))
  | atOnce : set ≠ 0 → (request set option).Holds e.set →
      RecvOutcome currentPriority e i set option timeout {
        set := (request set option).left e.set
        parent := { e.parent with
          thread := Function.update e.parent.thread i { e.parent.thread i with error := none } } }
        (some (.ok (EventFlags.received e.set set)))
  | refused : set ≠ 0 → ¬ (request set option).Holds e.set → timeout = 0 →
      RecvOutcome currentPriority e i set option timeout { e with
        parent := { e.parent with
          thread := Function.update e.parent.thread i
            { e.parent.thread i with error := some .etimeout } } }
        (some (.error .etimeout))
  | waits : set ≠ 0 → Asks option → ¬ (request set option).Holds e.set → timeout ≠ 0 →
      RecvOutcome currentPriority e i set option timeout { e with
        parent := e.parent.waits currentPriority i
          { e.parent.thread i with error := none, eventSet := set, eventInfo := option }
          (set, option) timeout } none

theorem rtEventRecv_outcome {set : BitVec 32} {option : BitVec 8} {timeout : Int}
    {result : Option (Except RtError (BitVec 32))}
    (h : rtEventRecv currentPriority e i set option timeout = some (e', result)) :
    RecvOutcome currentPriority e i set option timeout e' result := by
  unfold rtEventRecv at h
  dsimp only at h
  by_cases hset : set = 0
  · rw [if_pos hset] at h
    cases h
    exact .empty hset
  rw [if_neg hset] at h
  cases hstatus : recvStatus e.set set option with
  | none =>
    rw [hstatus] at h
    cases h
  | some b =>
    have hasks := asks_of_recvStatus hstatus
    have hb := (recvStatus_eq hasks e.set set).symm.trans hstatus
    rw [hstatus] at h
    cases b with
    | true =>
      cases h
      exact .atOnce hset (by simpa using hb)
    | false =>
      have hq : ¬ (request set option).Holds e.set := by simpa using hb
      by_cases htime : timeout = 0
      · simp only [if_pos htime] at h
        cases h
        exact .refused hset hq htime
      · simp only [if_neg htime] at h
        cases h
        exact .waits hset hasks hq htime

/-- A call by a thread that runs and is in no call. -/
theorem step_recv {set : BitVec 32} {option : BitVec 8} {timeout : Int}
    (h : e.step currentPriority (.recv i set option timeout) = some e') :
    e.parent.call i = none ∧ (e.parent.thread i).stat = .ready ∧
      ∃ result, rtEventRecv currentPriority e i set option timeout = some (e', result) := by
  cases hcall : e.parent.call i with
  | some _ => simp [step, hcall] at h
  | none =>
    cases hready : (e.parent.thread i).stat with
    | suspend => simp [step, hcall, hready] at h
    | ready =>
      simp only [step, hcall, hready] at h
      obtain ⟨⟨e₁, result⟩, hrecv, rfl⟩ := Option.map_eq_some_iff.mp h
      exact ⟨rfl, rfl, result, hrecv⟩

theorem rtEventRecv_matches {set : BitVec 32} {option : BitVec 8} {timeout : Int}
    (h : e.Waiting) (hst : e.step currentPriority (.recv i set option timeout) = some e') :
    e.Matches (e.label currentPriority (.recv i set option timeout)) e' := by
  obtain ⟨hcall, hready, result, hrecv⟩ := step_recv hst
  have hidle : e.meant.calls i = .idle := calls_idle hcall
  unfold label
  dsimp only
  rw [hrecv]
  cases rtEventRecv_outcome hrecv with
  | empty hset =>
    rw [if_pos hset]
    exact ⟨h, .nil⟩
  | atOnce hset hq =>
    rw [if_neg hset]
    refine ⟨h.in_no_call hcall hready hready rfl fun q hnot hleft => hnot hleft.of_left, ?_⟩
    have hmeant : RtEvent.meant {
        set := (request set option).left e.set
        parent := { e.parent with
          thread := Function.update e.parent.thread i
            { e.parent.thread i with error := none } } } =
        { e.meant with state := (request set option).left e.set } := meant_run hcall
    rw [hmeant]
    exact Spec.runs_at_once (D := flagSpec 32) hidle hq
  | refused hset hq htime =>
    rw [if_neg hset]
    refine ⟨h.in_no_call hcall hready hready rfl fun q hnot => hnot, ?_⟩
    have hmeant : RtEvent.meant { e with
        parent := { e.parent with
          thread := Function.update e.parent.thread i
            { e.parent.thread i with error := some .etimeout } } } = e.meant :=
      meant_run (x := e.set) hcall
    rw [hmeant]
    exact Spec.runs_refused (D := flagSpec 32) hidle hq
  | waits hset hasks hq htime =>
    rw [if_neg hset]
    have hrun : (flagSpec 32).Runs e.meant _ (RtEvent.meant { e with
        parent := e.parent.waits currentPriority i
          { e.parent.thread i with error := none, eventSet := set, eventInfo := option }
          (set, option) timeout }) := runs_waits hcall hready
    exact ⟨h.waits hready hready rfl hasks hq, hrun⟩

/-! ## Ends of receives -/

theorem rtThreadTimeout_matches
    (h : e.Waiting) (hst : e.step currentPriority (.timeout i) = some e') : e.Matches [] e' := by
  obtain ⟨s, hs, rfl⟩ := Option.map_eq_some_iff.mp hst
  obtain ⟨hi, rfl⟩ := rtThreadTimeout_eq hs
  refine ⟨⟨h.toAsking.leave, fun j hj => ?_⟩, ?_⟩
  · obtain ⟨hne, hj⟩ := suspended_of_leave hj
    rw [asked, leave_thread_of_ne hne]
    exact h.unmet j hj
  · exact runs_timeout (D := flagSpec 32) (h.filled i hi) (h.unmet i hi) hs

theorem rtEventReset_matches (h : e.Waiting) : e.Matches [.reset 0] e.rtEventReset := by
  have hstat : ∀ i, (e.rtEventReset.parent.thread i).stat ≠ .suspend := resumeAll_stat h.queued
  refine ⟨⟨⟨h.queued.resumeAll, fun i hi => absurd hi (hstat i), fun i hi => absurd hi (hstat i)⟩,
    fun i hi => absurd hi (hstat i)⟩, ?_⟩
  exact runs_resumeAll h.queued

theorem rtEventRecvReturn_matches
    (h : e.Waiting) (hst : e.step currentPriority (.ret i) = some e') :
    e.Matches (e.label currentPriority (.ret i)) e' := by
  cases hcall : e.parent.call i with
  | none => simp [step, rtEventRecvReturn, hcall] at hst
  | some c =>
    cases hready : (e.parent.thread i).stat with
    | suspend => simp [step, rtEventRecvReturn, hcall, hready] at hst
    | ready =>
      simp only [step, rtEventRecvReturn, hcall, hready, Option.map_some,
        Option.some.injEq] at hst
      have hrun := h.run (x := e.set) (c := none) hready hready rfl fun q hnot => hnot
      rw [Function.update_eq_self, hst] at hrun
      refine ⟨hrun, ?_⟩
      subst hst
      have hreturn : (flagSpec 32).Runs e.meant _ _ := runs_return (D := flagSpec 32) hcall hready
      simp only [label, rtEventRecvReturn, hcall, hready]
      cases herror : (e.parent.thread i).error with
      | none =>
        rw [herror] at hreturn
        exact hreturn
      | some err =>
        rw [herror] at hreturn
        exact hreturn

/-! ## Every step -/

/-- Whatever happens, the object does what is meant, and no thread is left waiting for what
holds. -/
theorem step_matches {a : EventAction ι} (h : e.Waiting)
    (hst : e.step currentPriority a = some e') : e.Matches (e.label currentPriority a) e' := by
  cases a with
  | send set =>
    cases hst
    exact rtEventSend_matches h set
  | recv i set option timeout => exact rtEventRecv_matches h hst
  | timeout i => exact rtThreadTimeout_matches h hst
  | reset =>
    cases hst
    exact rtEventReset_matches h
  | ret i => exact rtEventRecvReturn_matches h hst

/-! ## The order of the list -/

theorem sendThread_sublist : (e.sendThread i).parent.suspendThread.Sublist
    e.parent.suspendThread ∧ (e.sendThread i).parent.flag = e.parent.flag := by
  have hresume : ∀ eventSet, (e.resume i eventSet).parent.suspendThread.Sublist
      e.parent.suspendThread ∧ (e.resume i eventSet).parent.flag = e.parent.flag := fun x => by
    unfold resume rtThreadResume
    dsimp only
    split
    · exact ⟨List.erase_sublist, rfl⟩
    · exact ⟨.refl _, rfl⟩
  unfold sendThread
  dsimp only
  split
  · split
    · exact hresume _
    · exact ⟨.refl _, rfl⟩
  · split
    · split
      · exact hresume _
      · exact ⟨.refl _, rfl⟩
    · exact ⟨.refl _, rfl⟩

theorem foldl_sendThread_sublist (rest : List ι) :
    (rest.foldl sendThread e).parent.suspendThread.Sublist e.parent.suspendThread ∧
      (rest.foldl sendThread e).parent.flag = e.parent.flag := by
  induction rest generalizing e with
  | nil => exact ⟨.refl _, rfl⟩
  | cons i rest ih =>
    rw [List.foldl_cons]
    exact ⟨ih.1.trans sendThread_sublist.1, ih.2.trans sendThread_sublist.2⟩

theorem step_moves {a : EventAction ι} (h : e.Waiting)
    (hst : e.step currentPriority a = some e') :
    Moves currentPriority e.parent e'.parent a.caller := by
  cases a with
  | send set =>
    cases hst
    unfold rtEventSend
    split
    · exact .off rfl (.refl _)
    · have hloop := foldl_sendThread_sublist (e := { e with set := e.set ||| set })
        e.parent.suspendThread
      exact .off hloop.2 hloop.1
  | recv i set option timeout =>
    obtain ⟨-, hready, result, hrecv⟩ := step_recv hst
    cases rtEventRecv_outcome hrecv with
    | waits =>
      dsimp only
      rw [waits_eq (t := { e.parent.thread i with
        error := none
        eventSet := set
        eventInfo := option }) hready]
      exact .on i rfl rfl rfl
    | _ => exact .off rfl (.refl _)
  | timeout i =>
    obtain ⟨s, hs, rfl⟩ := Option.map_eq_some_iff.mp hst
    obtain ⟨-, rfl⟩ := rtThreadTimeout_eq hs
    exact .off rfl List.erase_sublist
  | reset =>
    cases hst
    rw [rtEventReset, rtIpcListResumeAll_eq h.queued]
    exact .off rfl (List.nil_sublist _)
  | ret i =>
    obtain ⟨⟨e₁, result⟩, hret, rfl⟩ := Option.map_eq_some_iff.mp hst
    unfold rtEventRecvReturn at hret
    split at hret
    · cases hret
      exact .off rfl (.refl _)
    · cases hret

/-- The caller runs, so it is not on the list. -/
theorem caller_not_mem {a : EventAction ι} (h : e.Waiting)
    (hst : e.step currentPriority a = some e') (hi : a.caller = some i) :
    i ∉ e.parent.suspendThread := by
  cases a with
  | recv j set option timeout =>
    cases hi
    rw [h.queued.mem_iff, (step_recv hst).2.1]
    exact fun hs => by cases hs
  | _ => cases hi

end RtEvent

/-! ## Results -/

section Results

variable [DecidableEq ι] {currentPriority : ι → Nat} {flag : RtIpcFlag} {thread : ι → RtThread}

omit [DecidableEq ι] in
theorem RtEvent.rtEventInit_waiting : (RtEvent.rtEventInit flag thread).Waiting where
  queued := init_queued
  filled _ h := by cases h
  asks _ h := by cases h
  unmet _ h := by cases h

/-- Nobody waits for what holds, and those who wait are in their order. -/
def RtEvent.Ordered (currentPriority : ι → Nat) (r : Stamped (RtEvent ι) ι) : Prop :=
  r.state.Waiting ∧ InOrder currentPriority r.state.parent r.since r.clock

theorem RtEvent.Ordered.step {r r' : Stamped (RtEvent ι) ι} {a : EventAction ι}
    (h : RtEvent.Ordered currentPriority r)
    (hst : r.step (RtEvent.step currentPriority) EventAction.caller a = some r') :
    RtEvent.Ordered currentPriority r' := by
  obtain ⟨hwaiting, horder⟩ := h
  obtain ⟨e', he', rfl⟩ := Option.map_eq_some_iff.mp hst
  exact ⟨(RtEvent.step_matches hwaiting he').1,
    horder.step (RtEvent.step_moves hwaiting he') fun i => RtEvent.caller_not_mem hwaiting he'⟩

/-- Whatever sends, receives, time-outs and resets follow each other: no thread is left waiting
whose condition the flags meet, and the waiting threads are in the order in which they are
served. -/
theorem event_waiting {r : Stamped (RtEvent ι) ι}
    (h : Transition.Reachable (fun r => r.state = RtEvent.rtEventInit flag thread)
      (Stamped.step (RtEvent.step currentPriority) EventAction.caller) r) :
    RtEvent.Ordered currentPriority r := by
  refine h.invariant (fun r hr => ?_) fun r a r' hr _ hst => hr.step hst
  rw [RtEvent.Ordered, hr]
  exact ⟨RtEvent.rtEventInit_waiting, ⟨fun i hi => (List.not_mem_nil hi).elim, .nil⟩⟩

/-- The priorities of two threads. -/
def highAndLow : Bool → Nat
  | true => 1
  | false => 2

/-- Two threads wait for one flag; a send resumes the one with the higher priority, which
clears it. -/
theorem event_waiting_contended : ∃ r : Stamped (RtEvent Bool) Bool,
    r.state.parent.suspendThread = [false] ∧ RtEvent.Ordered highAndLow r := by
  have h : Transition.Reachable
      (fun r => r.state = RtEvent.rtEventInit .prio fun _ => RtThread.running)
      (Stamped.step (RtEvent.step highAndLow) EventAction.caller) _ :=
    .next (a := EventAction.send 1)
      (.next (a := EventAction.recv true 1 (rtEventFlagOr ||| rtEventFlagClear) (-1))
        (.next (a := EventAction.recv false 1 (rtEventFlagOr ||| rtEventFlagClear) (-1))
          (.start (s := ⟨RtEvent.rtEventInit .prio fun _ => RtThread.running, 0, fun _ => 0⟩) rfl)
          trivial rfl) trivial rfl) trivial rfl
  exact ⟨_, rfl, event_waiting h⟩

/-- What the object shows in any run the object that is meant can show. -/
theorem RtEvent.simulated {tr : List (EventLabel ι)} {e : RtEvent ι}
    (h : Traces (RtEvent.step currentPriority) (RtEvent.label currentPriority)
      (RtEvent.rtEventInit flag thread) tr e) :
    (flagSpec 32).Runs { state := 0, calls := fun _ => .idle } tr e.meant := by
  obtain ⟨x, htr, -, rfl⟩ := h.simulates (R := fun e x => e.Waiting ∧ e.meant = x)
    (fun e x a e' he hst => by
      obtain ⟨he, rfl⟩ := he
      obtain ⟨hwaiting, htrace⟩ := RtEvent.step_matches he hst
      exact ⟨_, htrace, hwaiting, rfl⟩)
    ⟨RtEvent.rtEventInit_waiting, rfl⟩
  exact htr

/-- Every run of the object shows what the object that is meant can show, in which a receive
takes effect at one moment; and no flag is got by more clearing receives than it was sent. -/
theorem event_simulates [Fintype ι] {tr : List (EventLabel ι)} {e : RtEvent ι}
    (h : Traces (RtEvent.step currentPriority) (RtEvent.label currentPriority)
      (RtEvent.rtEventInit flag thread) tr e) :
    (flagSpec 32).Runs { state := 0, calls := fun _ => .idle } tr e.meant ∧
      ∀ b, (flagWeight b).takes tr ≤ (flagWeight b).puts tr := by
  refine ⟨RtEvent.simulated h, fun b => ?_⟩
  have hcount := (flagWeight b).taken_le (RtEvent.simulated h)
  have hzero : (flagWeight b).inside (0 : BitVec 32) = 0 := by simp [flagWeight]
  rw [Weight.present_idle, hzero] at hcount
  omega

/-- Two threads wait for one flag, and get it one after the other. -/
def contention : List (EventLabel Bool) :=
  [.call false ⟨1, false, true⟩, .call true ⟨1, false, true⟩, .update 1,
    .ret true ⟨1, false, true⟩ (some 1), .update 1, .ret false ⟨1, false, true⟩ (some 1)]

theorem event_simulates_contention : ∃ e : RtEvent Bool,
    (flagSpec 32).Runs { state := 0, calls := fun _ => .idle } contention e.meant ∧
      ∀ b, (flagWeight b).takes contention ≤ (flagWeight b).puts contention := by
  have h : Traces (RtEvent.step highAndLow) (RtEvent.label highAndLow)
      (RtEvent.rtEventInit .prio fun _ => RtThread.running) _ _ :=
    .snoc (a := EventAction.ret false) (.snoc (a := EventAction.send 1)
      (.snoc (a := EventAction.ret true) (.snoc (a := EventAction.send 1)
        (.snoc (a := EventAction.recv true 1 (rtEventFlagOr ||| rtEventFlagClear) (-1))
          (.snoc (a := EventAction.recv false 1 (rtEventFlagOr ||| rtEventFlagClear) (-1))
            .nil rfl) rfl) rfl) rfl) rfl) rfl
  exact ⟨_, event_simulates h⟩

end Results

end FreeModbus
