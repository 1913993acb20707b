import FreeModbus.Kernel.Event
import FreeModbus.Lib.ChannelReceiver
import FreeModbus.Port.Event

/-!
# The event queues over the kernel

`xMBPortEventPost` and `xMBPortEventGet` are calls of `rt_event_send` and `rt_event_recv`.
Elsewhere they are single steps on a word of flags (`Port.Event`).  Here the calls of the
kernel take their time, and the word of the master has two receivers; what the receivers see
is still what single posts and gets give them, each get between its call and its return.
-/

namespace FreeModbus

open Blocking BlockingFlags EventFlags EventFlags.Channel Transition

/-! ## The calls -/

/-- The options of the receives in `portevent.c` and `portevent_m.c`. -/
def portEventOption : BitVec 8 := rtEventFlagOr ||| rtEventFlagClear

/-- What happens to a queue: a post, a receiver's call, and its return. -/
inductive PortAction (E ι : Type) where
  | post (e : E)
  | get (i : ι)
  | ret (i : ι)

/-- The calls of the kernel.  The receivers wait for ever. -/
def portAction {E ι : Type} (code : E → BitVec 32) (mask : ι → BitVec 32) :
    PortAction E ι → EventAction ι
  | .post e => .send (code e)
  | .get i => .recv i (mask i) portEventOption (-1)
  | .ret i => .ret i

/-- The receivers of the master's word. -/
inductive MasterReceiver where
  | poll
  | request
deriving Repr, DecidableEq

/-- `xMBPortEventPost` and `xMBPortEventGet`. -/
def slavePortAction : PortAction MBEventType Unit → EventAction Unit :=
  portAction slaveChannel.code fun _ => slaveChannel.mask

/-- `xMBMasterPortEventPost` and `xMBMasterPortEventGet`, the callbacks that post the result of
a request, and the receive of `eMBMasterWaitRequestFinish`. -/
def masterPortAction :
    PortAction (MBMasterEventType ⊕ MBMasterResult) MasterReceiver → EventAction MasterReceiver :=
  portAction (Sum.elim masterChannel.code resultChannel.code) fun i => match i with
    | .poll => masterChannel.mask
    | .request => resultChannel.mask

/-! ## What they show -/

variable {E ι : Type} [DecidableEq ι] {currentPriority : ι → Nat} {flag : RtIpcFlag}
  {thread : ι → RtThread} {tr : List (EventLabel ι)} {e e' : RtEvent ι}
  {code : E → BitVec 32} {mask : ι → BitVec 32}

/-- The receives are those of a channel's receiver. -/
theorem request_portEvent (C : Channel E 32) : request C.mask portEventOption = C.receive := by
  have hand : hasFlag portEventOption rtEventFlagAnd = false := by decide
  have hclear : hasFlag portEventOption rtEventFlagClear = true := by decide
  rw [request, hand, hclear, receive]

/-- Nobody's timer runs, and no call has failed. -/
def Patient (e : RtEvent ι) : Prop :=
  ∀ i, (e.parent.thread i).threadTimer = false ∧
    ((e.parent.call i).isSome → (e.parent.thread i).error = none)

theorem Patient.resume {i : ι} (h : Patient e) (eventSet : BitVec 32) :
    Patient (e.resume i eventSet) := by
  intro j
  unfold RtEvent.resume Waiters.rtThreadResume
  dsimp only
  by_cases hne : j = i
  · subst hne
    split
    · exact ⟨by simp, by simpa using (h j).2⟩
    · exact ⟨by simpa using (h j).1, by simpa using (h j).2⟩
  · split
    · rw [Waiters.leave_thread_of_ne hne]
      simpa [hne] using h j
    · simpa [hne] using h j

theorem Patient.sendThread {i : ι} (h : Patient e) : Patient (e.sendThread i) := by
  unfold RtEvent.sendThread
  dsimp only
  split
  · split
    · exact h.resume _
    · exact h
  · split
    · split
      · exact h.resume _
      · exact h
    · exact h

theorem Patient.rtEventSend (h : Patient e) (set : BitVec 32) : Patient (e.rtEventSend set) := by
  unfold RtEvent.rtEventSend
  split
  · exact h
  · have hloop : ∀ (rest : List ι) (e : RtEvent ι), Patient e →
        Patient (rest.foldl RtEvent.sendThread e) := fun rest => by
      induction rest with
      | nil => exact fun _ he => he
      | cons i rest ih => exact fun _ he => ih _ he.sendThread
    exact hloop _ _ h

/-- What a port's call shows when it does not fail. -/
inductive PortLabel (code : E → BitVec 32) (mask : ι → BitVec 32) : EventLabel ι → Prop where
  | post (ev : E) : PortLabel code mask (.update (code ev))
  | get (i : ι) : PortLabel code mask (.call i (request (mask i) portEventOption))
  | ret (i : ι) (q : Receive 32) (flags : BitVec 32) : PortLabel code mask (.ret i q (some flags))

/-- A port's call leaves nobody to fail, and does not fail. -/
theorem Patient.step {a : PortAction E ι} (h : Patient e)
    (hst : e.step currentPriority (portAction code mask a) = some e') :
    Patient e' ∧ ∀ l ∈ e.label currentPriority (portAction code mask a),
      PortLabel code mask l := by
  cases a with
  | post ev =>
    cases hst
    refine ⟨h.rtEventSend _, fun l hl => ?_⟩
    simp only [portAction, RtEvent.label] at hl
    split at hl
    · cases hl
    · rw [List.mem_singleton.mp hl]
      exact .post ev
  | get i =>
    obtain ⟨hcall, hready, result, hrecv⟩ := RtEvent.step_recv hst
    simp only [portAction, RtEvent.label, hrecv]
    cases RtEvent.rtEventRecv_outcome hrecv with
    | empty hset =>
      rw [if_pos hset]
      exact ⟨h, fun l hl => by cases hl⟩
    | atOnce hset hq =>
      rw [if_neg hset]
      refine ⟨fun j => ?_, ?_⟩
      · by_cases hne : j = i
        · subst hne
          simpa using (h j).1
        · simpa [hne] using h j
      · rintro l (_ | ⟨_, _ | ⟨_, hl⟩⟩)
        · exact .get i
        · exact .ret ..
        · cases hl
    | refused _ _ htime => cases htime
    | waits hset hasks hq htime =>
      rw [if_neg hset]
      refine ⟨fun j => ?_, ?_⟩
      · dsimp only
        rw [Waiters.waits_eq (t := { e.parent.thread i with
          error := none
          eventSet := mask i
          eventInfo := portEventOption }) hready]
        by_cases hne : j = i
        · subst hne
          simp
        · simpa [hne] using h j
      · rintro l (_ | ⟨_, hl⟩)
        · exact .get i
        · cases hl
  | ret i =>
    simp only [portAction, RtEvent.step] at hst
    obtain ⟨⟨e₁, result⟩, hret, rfl⟩ := Option.map_eq_some_iff.mp hst
    simp only [portAction, RtEvent.label, hret]
    unfold RtEvent.rtEventRecvReturn at hret
    cases hcall : e.parent.call i with
    | none => simp [hcall] at hret
    | some c =>
      have herror := (h i).2 (by simp [hcall])
      split at hret
      · cases hret
        refine ⟨fun j => ⟨(h j).1, fun hj => ?_⟩, fun l hl => ?_⟩
        · by_cases hne : j = i
          · subst hne
            simp at hj
          · exact (h j).2 (by simpa [hne] using hj)
        · rw [List.mem_singleton.mp hl, herror]
          exact .ret ..
      · cases hret

/-- A run of the object in which all calls are those of a port. -/
def PortRun (currentPriority : ι → Nat) (action : PortAction E ι → EventAction ι)
    (e : RtEvent ι) : List (EventLabel ι) → RtEvent ι → Prop :=
  Traces (fun e a => RtEvent.step currentPriority e (action a))
    (fun e a => RtEvent.label currentPriority e (action a)) e

/-- It is a run of the object in which no call fails. -/
theorem PortRun.traces (h : PortRun currentPriority (portAction code mask)
      (RtEvent.rtEventInit flag thread) tr e) :
    Traces (RtEvent.step currentPriority) (RtEvent.label currentPriority)
      (RtEvent.rtEventInit flag thread) tr e ∧
      Patient e ∧ ∀ l ∈ tr, PortLabel code mask l := by
  induction h with
  | nil => exact ⟨.nil, fun i => ⟨rfl, fun h => by cases h⟩, fun l hl => by cases hl⟩
  | snoc _ hst ih =>
    obtain ⟨htr, hpatient, hlabels⟩ := ih
    obtain ⟨hpatient', hlabels'⟩ := hpatient.step hst
    refine ⟨htr.snoc hst, hpatient', fun l hl => ?_⟩
    exact (List.mem_append.mp hl).elim (hlabels l) (hlabels' l)

/-- What a run with this receiver of a channel comes to: the events posted and the results of
the receiver's gets are those of single posts and gets, each get between its call and its
return, no get fails, and at most one has its result and has not returned. -/
structure IsQueue (C : Channel E 32) (p : ι) (tr : List (EventLabel ι)) (e : RtEvent ι) :
    Prop where
  ops : ∃ ops : List (Op E), C.Behaves p ops tr e.meant
  noFailure : ∀ q, Label.ret p q none ∉ tr

theorem PortRun.isQueue {E' : Type} {C : Channel E' 32} {p : ι}
    (h : PortRun currentPriority (portAction code mask) (RtEvent.rtEventInit flag thread) tr e)
    (hcode : ∀ ev, (∃ e, code ev = C.code e) ∨ code ev &&& C.mask = 0#32)
    (hmask : ∀ i, if i = p then mask i = C.mask else mask i &&& C.mask = 0#32) :
    IsQueue C p tr e := by
  obtain ⟨htr, -, hlabels⟩ := h.traces
  refine ⟨(exists_ops (RtEvent.simulated htr) fun l hl => ?_).1, fun q hq => ?_⟩
  · cases hlabels l hl with
    | post ev => exact hcode ev
    | get i =>
      have hi := hmask i
      unfold Uses
      dsimp only
      split
      · rw [if_pos ‹_›] at hi
        rw [hi, request_portEvent]
      · rw [if_neg ‹_›] at hi
        exact hi
    | ret i q flags => trivial
  · cases hlabels _ hq

/-! ## The two words -/

/-- The slave's queue over the kernel is the one of `Port.Event`. -/
theorem slave_portEvent {currentPriority : Unit → Nat} {thread : Unit → RtThread}
    {tr : List (EventLabel Unit)} {e : RtEvent Unit}
    (h : PortRun currentPriority slavePortAction (RtEvent.rtEventInit flag thread) tr e) :
    IsQueue slaveChannel () tr e :=
  PortRun.isQueue h (fun ev => Or.inl ⟨ev, rfl⟩) fun _ => by rw [if_pos rfl]

/-- The poll thread waits, and gets the event that is posted then. -/
theorem slave_portEvent_waits : ∃ e, IsQueue slaveChannel ()
    [.call () slaveChannel.receive, .update 1, .ret () slaveChannel.receive (some 1)] e := by
  have h : PortRun (fun _ => 0) slavePortAction
      (RtEvent.rtEventInit .prio fun _ => RtThread.running) _ _ :=
    Traces.snoc (a := PortAction.ret ()) (.snoc (a := PortAction.post .ready)
      (.snoc (a := PortAction.get ()) .nil rfl) rfl) rfl
  exact ⟨_, slave_portEvent h⟩

/-- And so are the two queues of the master's word. -/
theorem master_portEvent {currentPriority : MasterReceiver → Nat}
    {thread : MasterReceiver → RtThread} {tr : List (EventLabel MasterReceiver)}
    {e : RtEvent MasterReceiver}
    (h : PortRun currentPriority masterPortAction (RtEvent.rtEventInit flag thread) tr e) :
    IsQueue masterChannel .poll tr e ∧ IsQueue resultChannel .request tr e := by
  have hevent : ∀ ev, masterChannel.code ev &&& resultChannel.mask = 0#32 := fun ev => by
    cases ev with
    | _ => decide
  have hresult : ∀ r, resultChannel.code r &&& masterChannel.mask = 0#32 := fun r => by
    cases r with
    | _ => decide
  have hmasks : resultChannel.mask &&& masterChannel.mask = 0#32 := by decide
  have hmasks' : masterChannel.mask &&& resultChannel.mask = 0#32 := by decide
  constructor
  · refine PortRun.isQueue h (fun ev => ?_) fun i => ?_
    · cases ev with
      | inl ev => exact Or.inl ⟨ev, rfl⟩
      | inr r => exact Or.inr (hresult r)
    · cases i with
      | poll => rw [if_pos rfl]
      | request => exact hmasks
  · refine PortRun.isQueue h (fun ev => ?_) fun i => ?_
    · cases ev with
      | inl ev => exact Or.inr (hevent ev)
      | inr r => exact Or.inl ⟨r, rfl⟩
    · cases i with
      | poll => exact hmasks'
      | request => rw [if_pos rfl]

/-- A result is posted while both receivers wait, and goes to the one that it is for. -/
def requestDone : List (EventLabel MasterReceiver) :=
  [.call .poll masterChannel.receive, .call .request resultChannel.receive, .update 0x20,
    .ret .request resultChannel.receive (some 0x20)]

theorem master_portEvent_done : ∃ e, IsQueue masterChannel .poll requestDone e ∧
    IsQueue resultChannel .request requestDone e := by
  have h : PortRun (fun _ => 0) masterPortAction
      (RtEvent.rtEventInit .prio fun _ => RtThread.running) _ _ :=
    Traces.snoc (a := PortAction.ret .request) (.snoc (a := PortAction.post (.inr .processSucess))
      (.snoc (a := PortAction.get .request) (.snoc (a := PortAction.get .poll)
        .nil rfl) rfl) rfl) rfl
  exact ⟨_, master_portEvent h⟩

end FreeModbus
