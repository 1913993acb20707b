import FreeModbus.Lib.Blocking
import Mathlib.Data.List.Perm.Basic
import Mathlib.Data.List.Sort

/-!
# Suspended threads

What `ipc.c` and `thread.c` do with the threads that wait for an object of the kernel.  A
thread that waits is put at the end of the object's list, or before the first one with a
lower priority, which is a greater number.  It leaves the list when it is resumed, or when
its timer fires.

The interrupts are disabled in each of these functions, so each is one step.
-/

namespace FreeModbus

/-- `RT_IPC_FLAG_FIFO` and `RT_IPC_FLAG_PRIO`. -/
inductive RtIpcFlag where
  | fifo
  | prio
deriving Repr, DecidableEq

/-- The errors that a blocking call returns: `-RT_ERROR` and `-RT_ETIMEOUT`. -/
inductive RtError where
  | error
  | etimeout
deriving Repr, DecidableEq

/-- `RT_THREAD_READY` and `RT_THREAD_SUSPEND`. -/
inductive ThreadStat where
  | ready
  | suspend
deriving Repr, DecidableEq

/-! ## The list -/

variable {ι : Type}

/-- Where `rt_ipc_list_suspend` puts a thread: `currentPriority` gives the priorities. -/
def place (flag : RtIpcFlag) (currentPriority : ι → Nat) (list : List ι) (thread : ι) : List ι :=
  match flag with
  | .fifo => list ++ [thread]
  | .prio => list.orderedInsert (fun i j => currentPriority i < currentPriority j) thread

variable {flag : RtIpcFlag} {currentPriority : ι → Nat} {list : List ι} {thread : ι}

theorem place_perm (flag : RtIpcFlag) (currentPriority : ι → Nat) (list : List ι) (thread : ι) :
    (place flag currentPriority list thread).Perm (thread :: list) := by
  cases flag with
  | fifo => exact List.perm_append_singleton thread list
  | prio => exact List.perm_orderedInsert _ thread list

theorem mem_place {i : ι} :
    i ∈ place flag currentPriority list thread ↔ i = thread ∨ i ∈ list := by
  rw [(place_perm flag currentPriority list thread).mem_iff, List.mem_cons]

/-- `i` is served before `j`: it has the higher priority, where that counts, or it came first. -/
def Before (flag : RtIpcFlag) (currentPriority since : ι → Nat) (i j : ι) : Prop :=
  match flag with
  | .fifo => since i < since j
  | .prio => currentPriority i < currentPriority j ∨
      (currentPriority i = currentPriority j ∧ since i < since j)

/-- An insertion keeps a relation between the members of a list, where it places the new one
among the others as the relation has it. -/
theorem pairwise_orderedInsert {α : Type*} {ins r : α → α → Prop} [DecidableRel ins] {x : α}
    {list : List α} (h : list.Pairwise r)
    (hins : ∀ j ∈ list, ins x j → r x j ∧ ∀ k ∈ list, r j k → r x k)
    (hnot : ∀ j ∈ list, ¬ ins x j → r j x) : (list.orderedInsert ins x).Pairwise r := by
  induction list with
  | nil => exact List.pairwise_singleton ..
  | cons j list ih =>
    obtain ⟨hj, hlist⟩ := List.pairwise_cons.mp h
    rw [List.orderedInsert]
    by_cases hx : ins x j
    · rw [if_pos hx]
      obtain ⟨hfirst, hrest⟩ := hins j List.mem_cons_self hx
      refine List.pairwise_cons.mpr ⟨fun k hk => ?_, h⟩
      rcases List.mem_cons.mp hk with rfl | hk'
      · exact hfirst
      · exact hrest k hk (hj k hk')
    · rw [if_neg hx]
      refine List.pairwise_cons.mpr ⟨fun k hk => ?_, ih hlist (fun k hk hxk => ?_) fun k hk =>
        hnot k (List.mem_cons_of_mem _ hk)⟩
      · have hk' := (List.perm_orderedInsert ins x list).mem_iff.mp hk
        rcases List.mem_cons.mp hk' with rfl | hk'
        · exact hnot j List.mem_cons_self hx
        · exact hj k hk'
      · obtain ⟨hfirst, hrest⟩ := hins k (List.mem_cons_of_mem _ hk) hxk
        exact ⟨hfirst, fun m hm => hrest m (List.mem_cons_of_mem _ hm)⟩

/-- A thread that came last finds its place in the order. -/
theorem pairwise_place {since : ι → Nat}
    (h : list.Pairwise (Before flag currentPriority since))
    (hlast : ∀ i ∈ list, since i < since thread) :
    (place flag currentPriority list thread).Pairwise (Before flag currentPriority since) := by
  cases flag with
  | fifo =>
    refine List.pairwise_append.mpr ⟨h, List.pairwise_singleton .., fun i hi j hj => ?_⟩
    rw [List.mem_singleton.mp hj]
    exact hlast i hi
  | prio =>
    refine pairwise_orderedInsert h (fun j _ hprio => ⟨Or.inl hprio, ?_⟩)
      fun j hj hprio => ?_
    · rintro k - (hlt | ⟨heq, -⟩)
      · exact Or.inl (Nat.lt_trans hprio hlt)
      · exact Or.inl (heq ▸ hprio)
    · rcases Nat.lt_or_eq_of_le (Nat.le_of_not_lt hprio) with hlt | heq
      · exact Or.inl hlt
      · exact Or.inr ⟨heq, hlast j hj⟩

/-! ## The threads -/

/-- `struct rt_thread`, as far as a thread's wait is concerned. -/
structure RtThread where
  stat : ThreadStat
  error : Option RtError
  eventSet : BitVec 32
  eventInfo : BitVec 8
  /-- `thread_timer` is started. -/
  threadTimer : Bool

/-- A thread that runs. -/
def RtThread.running : RtThread where
  stat := .ready
  error := none
  eventSet := 0
  eventInfo := 0
  threadTimer := false

/-- An object's list, the threads, and the call of the object that a thread is in. -/
structure Waiters (ι C : Type) where
  flag : RtIpcFlag
  suspendThread : List ι
  thread : ι → RtThread
  call : ι → Option C

variable [DecidableEq ι] {C : Type}

namespace Waiters

/-- `rt_thread_suspend`. -/
def rtThreadSuspend (s : Waiters ι C) (i : ι) : Waiters ι C :=
  if (s.thread i).stat = .ready then
    { s with
      thread := Function.update s.thread i
        { s.thread i with stat := .suspend, threadTimer := false } }
  else s

/-- `rt_ipc_list_suspend`. -/
def rtIpcListSuspend (currentPriority : ι → Nat) (s : Waiters ι C) (i : ι) : Waiters ι C :=
  { rtThreadSuspend s i with suspendThread := place s.flag currentPriority s.suspendThread i }

/-- The timer of a timed wait. -/
def startTimer (s : Waiters ι C) (i : ι) (timeout : Int) : Waiters ι C :=
  if timeout > 0 then
    { s with thread := Function.update s.thread i { s.thread i with threadTimer := true } }
  else s

/-- The thread is taken off the list and continues as `t`. -/
def leave (s : Waiters ι C) (i : ι) (t : RtThread) : Waiters ι C :=
  { s with
    suspendThread := s.suspendThread.erase i
    thread := Function.update s.thread i { t with stat := .ready, threadTimer := false } }

/-- `rt_thread_resume`. -/
def rtThreadResume (s : Waiters ι C) (i : ι) : Waiters ι C :=
  if (s.thread i).stat = .suspend then s.leave i (s.thread i) else s

/-- One turn of `rt_ipc_list_resume_all`. -/
def resumeError (s : Waiters ι C) (i : ι) : Waiters ι C :=
  rtThreadResume
    { s with thread := Function.update s.thread i { s.thread i with error := some .error } } i

/-- `rt_ipc_list_resume_all`. -/
def rtIpcListResumeAll (s : Waiters ι C) : Waiters ι C := s.suspendThread.foldl resumeError s

/-- `rt_thread_timeout`, which is called when the thread's timer fires. -/
def rtThreadTimeout (s : Waiters ι C) (i : ι) : Option (Waiters ι C) :=
  if (s.thread i).threadTimer then
    -- the assertion on the thread's state
    if (s.thread i).stat = .suspend then
      some (s.leave i { s.thread i with error := some .etimeout })
    else none
  else none

/-- An object on which no thread waits. -/
def init (flag : RtIpcFlag) (thread : ι → RtThread) : Waiters ι C where
  flag
  suspendThread := []
  thread i := { thread i with stat := .ready, threadTimer := false }
  call _ := none

/-- What the list means: it has the threads that are suspended, and each of them is in a call
and has no error yet. -/
structure Queued (s : Waiters ι C) : Prop where
  nodup : s.suspendThread.Nodup
  mem_iff : ∀ i, i ∈ s.suspendThread ↔ (s.thread i).stat = .suspend
  inCall : ∀ i, (s.thread i).stat = .suspend → (s.call i).isSome
  noError : ∀ i, (s.thread i).stat = .suspend → (s.thread i).error = none
  timed : ∀ i, (s.thread i).threadTimer = true → (s.thread i).stat = .suspend

variable {s : Waiters ι C} {i j : ι} {t : RtThread}

/-- Who is suspended beside a thread that runs. -/
theorem suspended_of_update (ht : t.stat = .ready) (j : ι)
    (h : (Function.update s.thread i t j).stat = .suspend) :
    j ≠ i ∧ (s.thread j).stat = .suspend := by
  have hne : j ≠ i := by
    rintro rfl
    rw [Function.update_self, ht] at h
    cases h
  rw [Function.update_of_ne hne] at h
  exact ⟨hne, h⟩

omit [DecidableEq ι] in
theorem init_queued {flag : RtIpcFlag} {thread : ι → RtThread} :
    (init flag thread : Waiters ι C).Queued where
  nodup := List.nodup_nil
  mem_iff _ := iff_of_false List.not_mem_nil fun h => by cases h
  inCall _ h := by cases h
  noError _ h := by cases h
  timed _ h := by cases h

/-! ## A thread that leaves -/

@[simp] theorem leave_call : (s.leave i t).call = s.call := rfl

@[simp] theorem leave_suspendThread : (s.leave i t).suspendThread = s.suspendThread.erase i := rfl

@[simp] theorem leave_thread_self :
    (s.leave i t).thread i = { t with stat := .ready, threadTimer := false } :=
  Function.update_self ..

theorem leave_thread_of_ne (h : j ≠ i) : (s.leave i t).thread j = s.thread j :=
  Function.update_of_ne h ..

/-- Who is suspended after a thread has left was so before. -/
theorem suspended_of_leave (h : ((s.leave i t).thread j).stat = .suspend) :
    j ≠ i ∧ (s.thread j).stat = .suspend := suspended_of_update rfl j h

theorem Queued.leave (h : s.Queued) : (s.leave i t).Queued where
  nodup := h.nodup.erase i
  mem_iff j := by
    by_cases hne : j = i
    · subst hne
      simp [h.nodup.mem_erase_iff]
    · rw [leave_suspendThread, leave_thread_of_ne hne, ← h.mem_iff j, h.nodup.mem_erase_iff]
      simp [hne]
  inCall j hj := h.inCall j (suspended_of_leave hj).2
  noError j hj := by
    obtain ⟨hne, hj⟩ := suspended_of_leave hj
    rw [leave_thread_of_ne hne]
    exact h.noError j hj
  timed j hj := by
    by_cases hne : j = i
    · subst hne
      rw [leave_thread_self] at hj
      cases hj
    · rw [leave_thread_of_ne hne] at hj ⊢
      exact h.timed j hj

theorem rtThreadResume_suspended (h : (s.thread i).stat = .suspend) :
    s.rtThreadResume i = s.leave i (s.thread i) := if_pos h

theorem resumeError_suspended (h : (s.thread i).stat = .suspend) :
    s.resumeError i = s.leave i { s.thread i with error := some .error } := by
  unfold resumeError
  rw [rtThreadResume_suspended (by simpa using h)]
  simp [Waiters.leave]

/-- A thread whose timer fires is suspended, and leaves with an error. -/
theorem rtThreadTimeout_eq {s' : Waiters ι C} (h : s.rtThreadTimeout i = some s') :
    (s.thread i).stat = .suspend ∧
      s' = s.leave i { s.thread i with error := some .etimeout } := by
  unfold rtThreadTimeout at h
  split at h
  · split at h
    · cases h
      exact ⟨‹_›, rfl⟩
    · cases h
  · cases h

/-- What `rt_ipc_list_resume_all` does, all turns together. -/
theorem rtIpcListResumeAll_eq (h : s.Queued) :
    s.rtIpcListResumeAll = { s with
      suspendThread := []
      thread := fun i => if (s.thread i).stat = .suspend then
        { s.thread i with stat := .ready, error := some .error, threadTimer := false }
        else s.thread i } := by
  unfold rtIpcListResumeAll
  generalize hlist : s.suspendThread = list
  induction list generalizing s with
  | nil =>
    have hnone : ∀ i, (s.thread i).stat ≠ .suspend := fun i hi => by
      have hmem := (h.mem_iff i).mpr hi
      rw [hlist] at hmem
      cases hmem
    rw [List.foldl_nil]
    simp [hnone, ← hlist]
  | cons i list ih =>
    have hi : (s.thread i).stat = .suspend := (h.mem_iff i).mp (hlist ▸ List.mem_cons_self)
    rw [List.foldl_cons, resumeError_suspended hi, ih h.leave (by simp [hlist])]
    refine congrArg (fun thread => { s with suspendThread := [], thread }) (funext fun j => ?_)
    by_cases hne : j = i
    · subst hne
      simp [hi]
    · rw [leave_thread_of_ne hne]

theorem resumeAll_stat (h : s.Queued) (i : ι) :
    (s.rtIpcListResumeAll.thread i).stat ≠ .suspend := by
  rw [rtIpcListResumeAll_eq h]
  dsimp only
  split
  · exact fun hs => by cases hs
  · assumption

theorem Queued.resumeAll (h : s.Queued) : s.rtIpcListResumeAll.Queued where
  nodup := by simp [rtIpcListResumeAll_eq h]
  mem_iff i := iff_of_false (by simp [rtIpcListResumeAll_eq h]) (resumeAll_stat h i)
  inCall i hi := absurd hi (resumeAll_stat h i)
  noError i hi := absurd hi (resumeAll_stat h i)
  timed i hi := by
    rw [rtIpcListResumeAll_eq h] at hi
    dsimp only at hi
    split at hi
    · cases hi
    · exact absurd (h.timed i hi) ‹_›

/-! ## A thread that waits -/

/-- A running thread, as `t`, goes to wait in the call `c`. -/
def waits (currentPriority : ι → Nat) (s : Waiters ι C) (i : ι) (t : RtThread) (c : C)
    (timeout : Int) : Waiters ι C :=
  startTimer (rtIpcListSuspend currentPriority { s with
    thread := Function.update s.thread i t
    call := Function.update s.call i (some c) } i) i timeout

variable {currentPriority : ι → Nat} {c : C} {timeout : Int}

theorem waits_eq (ht : t.stat = .ready) :
    s.waits currentPriority i t c timeout = { s with
      suspendThread := place s.flag currentPriority s.suspendThread i
      thread := Function.update s.thread i
        { t with stat := .suspend, threadTimer := decide (timeout > 0) }
      call := Function.update s.call i (some c) } := by
  unfold waits startTimer rtIpcListSuspend rtThreadSuspend
  by_cases htime : timeout > 0
  · simp [ht, htime]
  · simp [ht, htime]

/-- A running thread may change its part, as long as it runs. -/
theorem Queued.run {c : Option C} (h : s.Queued) (hready : (s.thread i).stat = .ready)
    (ht : t.stat = .ready) (htimer : t.threadTimer = (s.thread i).threadTimer) :
    Queued { s with
      thread := Function.update s.thread i t
      call := Function.update s.call i c } := by
  have hother : ∀ j, (Function.update s.thread i t j).stat = .suspend →
      j ≠ i ∧ (s.thread j).stat = .suspend := suspended_of_update ht
  refine ⟨h.nodup, fun j => ?_, fun j hj => ?_, fun j hj => ?_, fun j hj => ?_⟩
  · by_cases hne : j = i
    · subst hne
      simpa [ht, hready] using h.mem_iff j
    · simpa [hne] using h.mem_iff j
  · obtain ⟨hne, hj⟩ := hother j hj
    simpa [hne] using h.inCall j hj
  · obtain ⟨hne, hj⟩ := hother j hj
    simpa [hne] using h.noError j hj
  · by_cases hne : j = i
    · subst hne
      have hj' := h.timed j (by simpa [htimer] using hj)
      rw [hready] at hj'
      cases hj'
    · simpa [hne] using h.timed j (by simpa [hne] using hj)

theorem Queued.waits (h : s.Queued) (hready : (s.thread i).stat = .ready) (ht : t.stat = .ready)
    (herror : t.error = none) : (s.waits currentPriority i t c timeout).Queued := by
  rw [waits_eq ht]
  have hnot : i ∉ s.suspendThread := fun hi => by
    rw [h.mem_iff, hready] at hi
    cases hi
  refine ⟨?_, fun j => ?_, fun j hj => ?_, fun j hj => ?_, fun j hj => ?_⟩
  · exact (place_perm ..).nodup_iff.mpr (List.nodup_cons.mpr ⟨hnot, h.nodup⟩)
  · by_cases hne : j = i
    · subst hne
      simp [mem_place]
    · simpa [mem_place, hne] using h.mem_iff j
  · by_cases hne : j = i
    · subst hne
      simp
    · simpa [hne] using h.inCall j (by simpa [hne] using hj)
  · by_cases hne : j = i
    · subst hne
      simpa using herror
    · simpa [hne] using h.noError j (by simpa [hne] using hj)
  · by_cases hne : j = i
    · subst hne
      simp
    · simpa [hne] using h.timed j (by simpa [hne] using hj)

end Waiters

/-! ## Who came when -/

/-- A state of an object, with the time of each thread's last call. -/
structure Stamped (S ι : Type) where
  state : S
  clock : Nat
  since : ι → Nat

/-- The times after a call at `clock`. -/
def called (since : ι → Nat) (clock : Nat) : Option ι → ι → Nat
  | some i => Function.update since i clock
  | none => since

/-- A step, and the clock.  `caller` is the thread that makes a call. -/
def Stamped.step {S A : Type} (step : S → A → Option S) (caller : A → Option ι) (r : Stamped S ι)
    (a : A) : Option (Stamped S ι) :=
  (step r.state a).map fun state =>
    { state, clock := r.clock + 1, since := called r.since r.clock (caller a) }

/-- The threads of the list came before `clock` and are in the order in which they are
served. -/
structure InOrder (currentPriority : ι → Nat) (s : Waiters ι C) (since : ι → Nat)
    (clock : Nat) : Prop where
  past : ∀ i ∈ s.suspendThread, since i < clock
  ordered : s.suspendThread.Pairwise (Before s.flag currentPriority since)

/-- A step takes threads off the list, or puts a caller that runs in its place. -/
inductive Moves (currentPriority : ι → Nat) (s s' : Waiters ι C) (caller : Option ι) : Prop where
  | off : s'.flag = s.flag → s'.suspendThread.Sublist s.suspendThread →
      Moves currentPriority s s' caller
  | on (i : ι) : caller = some i → s'.flag = s.flag →
      s'.suspendThread = place s.flag currentPriority s.suspendThread i →
      Moves currentPriority s s' caller

/-- Such a step keeps the order. -/
theorem InOrder.step {s s' : Waiters ι C} {since : ι → Nat} {clock : Nat} {caller : Option ι}
    (h : InOrder currentPriority s since clock) (hmoves : Moves currentPriority s s' caller)
    (hcaller : ∀ i, caller = some i → i ∉ s.suspendThread) :
    InOrder currentPriority s' (called since clock caller) (clock + 1) := by
  have hkeep : ∀ i ∈ s.suspendThread, called since clock caller i = since i := fun i hi => by
    cases caller with
    | none => rfl
    | some j =>
      have hne : i ≠ j := by
        rintro rfl
        exact hcaller i rfl hi
      exact Function.update_of_ne hne ..
  have hpast : ∀ i ∈ s.suspendThread, called since clock caller i < clock :=
    fun i hi => hkeep i hi ▸ h.past i hi
  have hordered : s.suspendThread.Pairwise
      (Before s.flag currentPriority (called since clock caller)) := by
    refine h.ordered.imp_of_mem fun {i j} hi hj hbefore => ?_
    unfold Before at hbefore ⊢
    rw [hkeep i hi, hkeep j hj]
    exact hbefore
  cases hmoves with
  | off hflag hsub =>
    refine ⟨fun i hi => Nat.lt_succ_of_lt (hpast i (hsub.subset hi)), ?_⟩
    rw [hflag]
    exact hordered.sublist hsub
  | on i hi hflag hplace =>
    subst hi
    have hnow : called since clock (some i) i = clock := Function.update_self ..
    refine ⟨fun j hj => ?_, ?_⟩
    · rw [hplace] at hj
      rcases mem_place.mp hj with rfl | hj
      · exact lt_of_eq_of_lt hnow (Nat.lt_succ_self _)
      · exact Nat.lt_succ_of_lt (hpast j hj)
    · rw [hflag, hplace]
      exact pairwise_place hordered fun j hj => hnow.symm ▸ hpast j hj

/-! ## What the calls are meant to be -/

section Meaning

open Blocking

variable {σ U Q R : Type} (ask : C → Q) (result : RtThread → R)

/-- Where a thread is with its request: `ask` gives what its call asks for, and `result` what
it gets. -/
def requestOf (call : Option C) (thread : RtThread) : Call Q R :=
  match call with
  | none => .idle
  | some c =>
      if thread.stat = .suspend then .waits (ask c)
      else
        match thread.error with
        | none => .got (ask c) (result thread)
        | some _ => .failed (ask c)

/-- The object that is meant. -/
def meant (x : σ) (s : Waiters ι C) : Object σ ι Q R where
  state := x
  calls i := requestOf ask result (s.call i) (s.thread i)

variable {ask result} {D : Spec σ U Q R} {x x' : σ} {s s' : Waiters ι C} {i : ι} {t : RtThread}
  {c : C} {currentPriority : ι → Nat} {timeout : Int}

theorem requestOf_ready (h : t.stat = .ready) :
    requestOf ask result (some c) t = match t.error with
      | none => .got (ask c) (result t)
      | some _ => .failed (ask c) := by
  rw [requestOf, h]
  exact if_neg fun hs => by cases hs

/-- A change of one thread's part is one of its request. -/
theorem meant_update {call : Option C} (hthread : s'.thread = Function.update s.thread i t)
    (hcall : s'.call = Function.update s.call i call) :
    meant ask result x' s' = {
      state := x'
      calls := Function.update (meant ask result x s).calls i (requestOf ask result call t) } := by
  refine congrArg (Object.mk _) (funext fun j => ?_)
  by_cases hne : j = i
  · subst hne
    simp [hthread, hcall]
  · simp [hthread, hcall, hne, meant]

theorem meant_leave : meant ask result x' (s.leave i t) = {
    state := x'
    calls := Function.update (meant ask result x s).calls i
      (requestOf ask result (s.call i) { t with stat := .ready, threadTimer := false }) } :=
  meant_update rfl (Function.update_eq_self ..).symm

omit [DecidableEq ι] in
theorem calls_idle (h : s.call i = none) : (meant ask result x s).calls i = .idle := by
  simp only [meant, h]
  rfl

omit [DecidableEq ι] in
theorem calls_waits (hcall : s.call i = some c) (hi : (s.thread i).stat = .suspend) :
    (meant ask result x s).calls i = .waits (ask c) := by
  simp only [meant, hcall]
  exact if_pos hi

/-- A thread that is in no call may change its part. -/
theorem meant_run (h : s.call i = none) :
    meant ask result x' { s with thread := Function.update s.thread i t } =
      { meant ask result x s with state := x' } := by
  have hself : Function.update s.call i none = s.call := by rw [← h, Function.update_eq_self]
  have hmeant : meant ask result x' { s with thread := Function.update s.thread i t } = _ :=
    meant_update (x := x) rfl hself.symm
  have hidle : requestOf ask result none t = (meant ask result x s).calls i := (calls_idle h).symm
  rw [hmeant, hidle, Function.update_eq_self]

theorem runs_waits (h : s.call i = none) (ht : t.stat = .ready) :
    D.Runs (meant ask result x s) [.call i (ask c)]
      (meant ask result x (s.waits currentPriority i t c timeout)) := by
  have hparent : s.waits currentPriority i t c timeout = _ := Waiters.waits_eq ht
  have hmeant : meant ask result x (s.waits currentPriority i t c timeout) = _ :=
    meant_update (x := x) (congrArg Waiters.thread hparent) (congrArg Waiters.call hparent)
  rw [hmeant]
  exact Spec.runs_call (calls_idle h)

theorem runs_timeout (hcall : s.call i = some c) (hq : ¬ D.Holds (ask c) x)
    (hst : s.rtThreadTimeout i = some s') :
    D.Runs (meant ask result x s) [] (meant ask result x s') := by
  obtain ⟨hi, rfl⟩ := Waiters.rtThreadTimeout_eq hst
  rw [meant_leave (x := x), hcall]
  exact Spec.runs_fail (calls_waits hcall hi) hq

/-- A thread is resumed with what its request gives. -/
theorem runs_resume (hcall : s.call i = some c) (hi : (s.thread i).stat = .suspend)
    (herror : t.error = none) (hq : D.Holds (ask c) x)
    (hresult : result { t with stat := .ready, threadTimer := false } = D.gives (ask c) x) :
    D.Runs (meant ask result x s) [] (meant ask result (D.left (ask c) x) (s.leave i t)) := by
  have hgot : requestOf ask result (some c) { t with stat := .ready, threadTimer := false } =
      .got (ask c) (D.gives (ask c) x) := by
    rw [requestOf_ready rfl, hresult]
    dsimp only
    rw [herror]
  rw [meant_leave (x := x), hcall, hgot]
  exact Spec.runs_take (calls_waits hcall hi) hq

theorem runs_resumeAll (h : s.Queued) :
    D.Runs (meant ask result x s) [.reset x']
      (meant ask result x' s.rtIpcListResumeAll) := by
  have hmeant : meant ask result x' s.rtIpcListResumeAll =
      { state := x', calls := fun i => Spec.aborted ((meant ask result x s).calls i) } := by
    refine congrArg (Object.mk _) (funext fun i => ?_)
    rw [Waiters.rtIpcListResumeAll_eq h]
    simp only [meant]
    cases hcall : s.call i with
    | none => rfl
    | some c =>
      by_cases hi : (s.thread i).stat = .suspend
      · simp only [requestOf, if_pos hi]
        rfl
      · simp only [requestOf, if_neg hi]
        cases (s.thread i).error with
        | _ => rfl
  rw [hmeant]
  exact Spec.runs_reset

/-- A call returns its result, or the thread's error. -/
theorem runs_return (hcall : s.call i = some c) (hready : (s.thread i).stat = .ready) :
    D.Runs (meant ask result x s)
      [.ret i (ask c) (match (s.thread i).error with
        | none => some (result (s.thread i))
        | some _ => none)]
      (meant ask result x { s with call := Function.update s.call i none }) := by
  have hwhere : (meant ask result x s).calls i =
      match (s.thread i).error with
      | none => .got (ask c) (result (s.thread i))
      | some _ => .failed (ask c) := by
    simp only [meant, hcall]
    exact requestOf_ready hready
  have hmeant : meant ask result x { s with call := Function.update s.call i none } = _ :=
    meant_update (x := x) (Function.update_eq_self i s.thread).symm rfl
  rw [hmeant]
  cases herror : (s.thread i).error with
  | none =>
    rw [herror] at hwhere
    exact Spec.runs_got hwhere
  | some err =>
    rw [herror] at hwhere
    exact Spec.runs_failed hwhere

end Meaning

end FreeModbus
