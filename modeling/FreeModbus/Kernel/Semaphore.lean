import FreeModbus.Kernel.Ipc

/-!
# The kernel's semaphore

`rt_sem_take`, `rt_sem_release` and the reset of `rt_sem_control`.  A release with waiting
threads does not count up: it hands what it releases to the first of them.

The run resource of the master, `xMasterRunRes`, is such a semaphore with the value one.
-/

namespace FreeModbus

open Blocking Transition Waiters

/-! ## What is meant -/

/-- A count that is released and taken.  It is kept in sixteen bits. -/
def countSpec : Spec (BitVec 16) Unit Unit Unit where
  update _ value := value + 1
  Holds _ value := value ≠ 0
  gives _ _ := ()
  left _ value := value - 1

/-- Every release puts one in, and every take that succeeds takes one. -/
def countWeight : Weight countSpec where
  inside value := value.toNat
  put _ := 1
  taken _ _ := 1
  update_le _ value := by
    have hadd : (value + 1).toNat ≤ value.toNat + 1 := by
      rw [BitVec.toNat_add]
      exact Nat.mod_le ..
    exact hadd
  take_le _ value h := by
    have hsub : (value - 1).toNat + 1 ≤ value.toNat := by
      have hne : value ≠ 0 := h
      bv_omega
    exact hsub

/-! ## The object -/

variable {ι : Type}

/-- `struct rt_semaphore` and its threads. -/
structure RtSem (ι : Type) where
  value : BitVec 16
  parent : Waiters ι Unit

namespace RtSem

variable [DecidableEq ι]

/-- `rt_sem_take`, up to its return or its wait. -/
def rtSemTake (currentPriority : ι → Nat) (s : RtSem ι) (i : ι) (time : Int) :
    RtSem ι × Option (Except RtError Unit) :=
  if s.value ≠ 0 then ({ s with value := s.value - 1 }, some (.ok ()))
  else if time = 0 then (s, some (.error .etimeout))
  else
    ({ s with
      parent := s.parent.waits currentPriority i { s.parent.thread i with error := none } () time },
      none)

/-- `rt_sem_take` after its wait. -/
def rtSemTakeReturn (s : RtSem ι) (i : ι) : Option (RtSem ι × Except RtError Unit) :=
  match s.parent.call i, (s.parent.thread i).stat with
  | some _, .ready => some (
      { s with parent := { s.parent with call := Function.update s.parent.call i none } },
      match (s.parent.thread i).error with
      | some err => .error err
      | none => .ok ())
  | _, _ => none

/-- `rt_sem_release`. -/
def rtSemRelease (s : RtSem ι) : RtSem ι :=
  match s.parent.suspendThread with
  | i :: _ => { s with parent := s.parent.rtThreadResume i }
  | [] => { s with value := s.value + 1 }

/-- `rt_sem_control` with `RT_IPC_CMD_RESET`. -/
def rtSemReset (s : RtSem ι) (value : BitVec 32) : RtSem ι where
  value := value.setWidth 16
  parent := s.parent.rtIpcListResumeAll

/-- `rt_sem_init`, with threads that run. -/
def rtSemInit (value : BitVec 32) (flag : RtIpcFlag) (thread : ι → RtThread) : RtSem ι where
  value := value.setWidth 16
  parent := .init flag thread

end RtSem

/-! ## Steps -/

/-- What can happen to the semaphore. -/
inductive SemAction (ι : Type) where
  | release
  | take (i : ι) (time : Int)
  | timeout (i : ι)
  | reset (value : BitVec 32)
  | ret (i : ι)

/-- The thread that calls. -/
def SemAction.caller : SemAction ι → Option ι
  | .take i _ => some i
  | _ => none

/-- What is seen of it. -/
abbrev SemLabel (ι : Type) : Type := Label (BitVec 16) ι Unit Unit Unit

namespace RtSem

variable [DecidableEq ι] (currentPriority : ι → Nat)

/-- One step.  A thread calls only when it runs and is in no call. -/
def step (s : RtSem ι) : SemAction ι → Option (RtSem ι)
  | .release => some s.rtSemRelease
  | .take i time =>
      match s.parent.call i, (s.parent.thread i).stat with
      | none, .ready => some (s.rtSemTake currentPriority i time).1
      | _, _ => none
  | .timeout i => (s.parent.rtThreadTimeout i).map fun parent => { s with parent }
  | .reset value => some (s.rtSemReset value)
  | .ret i => s.rtSemTakeReturn i |>.map Prod.fst

/-- What a step shows. -/
def label (s : RtSem ι) : SemAction ι → List (SemLabel ι)
  | .release => [.update ()]
  | .take i time =>
      match (s.rtSemTake currentPriority i time).2 with
      | some result => [.call i (), .ret i () result.toOption]
      | none => [.call i ()]
  | .timeout _ => []
  | .reset value => [.reset (value.setWidth 16)]
  | .ret i =>
      match s.rtSemTakeReturn i with
      | some (_, result) => [.ret i () result.toOption]
      | none => []

/-! ## What it is meant to be -/

/-- The object that it is meant to be. -/
def meant (s : RtSem ι) : Object (BitVec 16) ι Unit Unit :=
  FreeModbus.meant id (fun _ => ()) s.value s.parent

/-- The suspended threads are those of the list, and there are none while there is something to
take. -/
structure Waiting (s : RtSem ι) : Prop where
  queued : s.parent.Queued
  unmet : ∀ i, (s.parent.thread i).stat = .suspend → s.value = 0

/-- Nobody is left waiting for what is there, and the object as it is meant has a run to the
new state that shows the same. -/
def Matches (s : RtSem ι) (shown : List (SemLabel ι)) (s' : RtSem ι) : Prop :=
  s'.Waiting ∧ countSpec.Runs s.meant shown s'.meant

variable {currentPriority} {s s' : RtSem ι} {i : ι}

/-- A release is meant to count up, and what it counts is taken by the first thread that
waits. -/
theorem rtSemRelease_matches (h : s.Waiting) : s.Matches [.update ()] s.rtSemRelease := by
  have hupdate : countSpec.Runs s.meant [.update ()] { s with value := s.value + 1 }.meant :=
    Spec.runs_update
  unfold rtSemRelease
  cases hlist : s.parent.suspendThread with
  | nil =>
    refine ⟨⟨h.queued, fun i hi => ?_⟩, hupdate⟩
    have hmem := (h.queued.mem_iff i).mpr hi
    rw [hlist] at hmem
    cases hmem
  | cons i list =>
    have hi : (s.parent.thread i).stat = .suspend :=
      (h.queued.mem_iff i).mp (hlist ▸ List.mem_cons_self)
    have hzero := h.unmet i hi
    obtain ⟨_, hcall⟩ := Option.isSome_iff_exists.mp (h.queued.inCall i hi)
    dsimp only
    rw [rtThreadResume_suspended hi]
    refine ⟨⟨h.queued.leave, fun j hj => h.unmet j (suspended_of_leave hj).2⟩, ?_⟩
    have hone : s.value + 1 ≠ 0 := by
      rw [hzero]
      decide
    have htake : countSpec.Runs { s with value := s.value + 1 }.meant []
        (RtSem.meant
          { value := s.value + 1 - 1, parent := s.parent.leave i (s.parent.thread i) }) :=
      runs_resume hcall hi (h.queued.noError i hi) hone rfl
    rw [BitVec.add_sub_cancel] at htake
    exact hupdate.trans htake

/-- A take by a thread that runs and is in no call. -/
theorem step_take {time : Int} (h : s.step currentPriority (.take i time) = some s') :
    s.parent.call i = none ∧ (s.parent.thread i).stat = .ready ∧
      s' = (s.rtSemTake currentPriority i time).1 := by
  cases hcall : s.parent.call i with
  | some _ => simp [step, hcall] at h
  | none =>
    cases hready : (s.parent.thread i).stat with
    | suspend => simp [step, hcall, hready] at h
    | ready =>
      simp only [step, hcall, hready, Option.some.injEq] at h
      exact ⟨rfl, rfl, h.symm⟩

theorem rtSemTake_matches {time : Int} (h : s.Waiting)
    (hst : s.step currentPriority (.take i time) = some s') :
    s.Matches (s.label currentPriority (.take i time)) s' := by
  obtain ⟨hcall, hready, rfl⟩ := step_take hst
  have hidle : s.meant.calls i = .idle := calls_idle hcall
  unfold label rtSemTake
  dsimp only
  by_cases hvalue : s.value ≠ 0
  · rw [if_pos hvalue]
    refine ⟨⟨h.queued, fun j hj => absurd (h.unmet j hj) hvalue⟩, ?_⟩
    exact Spec.runs_at_once (D := countSpec) hidle hvalue
  · rw [if_neg hvalue]
    by_cases htime : time = 0
    · rw [if_pos htime]
      exact ⟨h, Spec.runs_refused (D := countSpec) hidle hvalue⟩
    · rw [if_neg htime]
      refine ⟨⟨h.queued.waits hready hready rfl, fun j hj => not_not.mp hvalue⟩, ?_⟩
      exact runs_waits (D := countSpec) hcall hready

theorem rtThreadTimeout_matches (h : s.Waiting)
    (hst : s.step currentPriority (.timeout i) = some s') : s.Matches [] s' := by
  obtain ⟨parent, hs, rfl⟩ := Option.map_eq_some_iff.mp hst
  obtain ⟨hi, rfl⟩ := rtThreadTimeout_eq hs
  obtain ⟨_, hcall⟩ := Option.isSome_iff_exists.mp (h.queued.inCall i hi)
  refine ⟨⟨h.queued.leave, fun j hj => h.unmet j (suspended_of_leave hj).2⟩, ?_⟩
  exact runs_timeout (D := countSpec) hcall (not_not.mpr (h.unmet i hi)) hs

theorem rtSemReset_matches (h : s.Waiting) (value : BitVec 32) :
    s.Matches [.reset (value.setWidth 16)] (s.rtSemReset value) :=
  ⟨⟨h.queued.resumeAll, fun i hi => absurd hi (resumeAll_stat h.queued i)⟩,
    runs_resumeAll h.queued⟩

theorem rtSemTakeReturn_matches (h : s.Waiting)
    (hst : s.step currentPriority (.ret i) = some s') :
    s.Matches (s.label currentPriority (.ret i)) s' := by
  cases hcall : s.parent.call i with
  | none => simp [step, rtSemTakeReturn, hcall] at hst
  | some c =>
    cases hready : (s.parent.thread i).stat with
    | suspend => simp [step, rtSemTakeReturn, hcall, hready] at hst
    | ready =>
      simp only [step, rtSemTakeReturn, hcall, hready, Option.map_some,
        Option.some.injEq] at hst
      subst hst
      have hqueued := h.queued.run (i := i) (t := s.parent.thread i) (c := none) hready hready rfl
      rw [Function.update_eq_self] at hqueued
      refine ⟨⟨hqueued, h.unmet⟩, ?_⟩
      have hreturn : countSpec.Runs s.meant _ _ := runs_return (D := countSpec) hcall hready
      simp only [label, rtSemTakeReturn, hcall, hready]
      cases herror : (s.parent.thread i).error with
      | none =>
        rw [herror] at hreturn
        exact hreturn
      | some err =>
        rw [herror] at hreturn
        exact hreturn

/-- Whatever happens, the semaphore does what is meant, and no thread is left waiting for what
is there. -/
theorem step_matches {a : SemAction ι} (h : s.Waiting)
    (hst : s.step currentPriority a = some s') : s.Matches (s.label currentPriority a) s' := by
  cases a with
  | release =>
    cases hst
    exact rtSemRelease_matches h
  | take i time => exact rtSemTake_matches h hst
  | timeout i => exact rtThreadTimeout_matches h hst
  | reset value =>
    cases hst
    exact rtSemReset_matches h value
  | ret i => exact rtSemTakeReturn_matches h hst

/-! ## The order of the list -/

theorem step_moves {a : SemAction ι} (h : s.Waiting)
    (hst : s.step currentPriority a = some s') :
    Moves currentPriority s.parent s'.parent a.caller := by
  cases a with
  | release =>
    cases hst
    unfold rtSemRelease
    cases hlist : s.parent.suspendThread with
    | nil => exact .off rfl (.refl _)
    | cons i list =>
      have hi : (s.parent.thread i).stat = .suspend :=
        (h.queued.mem_iff i).mp (hlist ▸ List.mem_cons_self)
      dsimp only
      rw [rtThreadResume_suspended hi]
      exact .off rfl List.erase_sublist
  | take i time =>
    obtain ⟨-, hready, rfl⟩ := step_take hst
    unfold rtSemTake
    split
    · exact .off rfl (.refl _)
    · split
      · exact .off rfl (.refl _)
      · dsimp only
        rw [waits_eq (t := { s.parent.thread i with error := none }) hready]
        exact .on i rfl rfl rfl
  | timeout i =>
    obtain ⟨parent, hs, rfl⟩ := Option.map_eq_some_iff.mp hst
    obtain ⟨-, rfl⟩ := rtThreadTimeout_eq hs
    exact .off rfl List.erase_sublist
  | reset value =>
    cases hst
    rw [rtSemReset, rtIpcListResumeAll_eq h.queued]
    exact .off rfl (List.nil_sublist _)
  | ret i =>
    obtain ⟨⟨s₁, result⟩, hret, rfl⟩ := Option.map_eq_some_iff.mp hst
    unfold rtSemTakeReturn at hret
    split at hret
    · cases hret
      exact .off rfl (.refl _)
    · cases hret

/-- The caller runs, so it is not on the list. -/
theorem caller_not_mem {a : SemAction ι} (h : s.Waiting)
    (hst : s.step currentPriority a = some s') (hi : a.caller = some i) :
    i ∉ s.parent.suspendThread := by
  cases a with
  | take j time =>
    cases hi
    rw [h.queued.mem_iff, (step_take hst).2.1]
    exact fun hs => by cases hs
  | _ => cases hi

end RtSem

/-! ## Results -/

section Results

variable [DecidableEq ι] {currentPriority : ι → Nat} {value : BitVec 32} {flag : RtIpcFlag}
  {thread : ι → RtThread}

omit [DecidableEq ι] in
theorem RtSem.rtSemInit_waiting : (RtSem.rtSemInit value flag thread).Waiting where
  queued := init_queued
  unmet _ h := by cases h

/-- Nobody waits for what is there, and those who wait are in their order. -/
def RtSem.Ordered (currentPriority : ι → Nat) (r : Stamped (RtSem ι) ι) : Prop :=
  r.state.Waiting ∧ InOrder currentPriority r.state.parent r.since r.clock

theorem RtSem.Ordered.step {r r' : Stamped (RtSem ι) ι} {a : SemAction ι}
    (h : RtSem.Ordered currentPriority r)
    (hst : r.step (RtSem.step currentPriority) SemAction.caller a = some r') :
    RtSem.Ordered currentPriority r' := by
  obtain ⟨hwaiting, horder⟩ := h
  obtain ⟨s', hs', rfl⟩ := Option.map_eq_some_iff.mp hst
  exact ⟨(RtSem.step_matches hwaiting hs').1,
    horder.step (RtSem.step_moves hwaiting hs') fun i => RtSem.caller_not_mem hwaiting hs'⟩

/-- Whatever releases, takes, time-outs and resets follow each other: no thread waits while there
is something to take, and the waiting threads are in the order in which they are served. -/
theorem sem_waiting {r : Stamped (RtSem ι) ι}
    (h : Reachable (fun r => r.state = RtSem.rtSemInit value flag thread)
      (Stamped.step (RtSem.step currentPriority) SemAction.caller) r) :
    RtSem.Ordered currentPriority r := by
  refine h.invariant (fun r hr => ?_) fun r a r' hr _ hst => hr.step hst
  rw [RtSem.Ordered, hr]
  exact ⟨RtSem.rtSemInit_waiting, ⟨fun i hi => (List.not_mem_nil hi).elim, .nil⟩⟩

/-- One thread has the run resource, and another waits for it. -/
theorem sem_waiting_contended : ∃ r : Stamped (RtSem Bool) Bool,
    r.state.parent.suspendThread = [false] ∧ RtSem.Ordered (fun _ => 10) r := by
  have h : Reachable (fun r => r.state = RtSem.rtSemInit 1 .prio fun _ => RtThread.running)
      (Stamped.step (RtSem.step fun _ => 10) SemAction.caller) _ :=
    .next (a := SemAction.take false (-1))
      (.next (a := SemAction.take true 0)
        (.start (s := ⟨RtSem.rtSemInit 1 .prio fun _ => RtThread.running, 0, fun _ => 0⟩) rfl)
        trivial rfl) trivial rfl
  exact ⟨_, rfl, sem_waiting h⟩

/-- What the semaphore shows in any run the object that is meant can show, in which a take
takes effect at one moment; and no more takes succeed than its first value and the releases
allow. -/
theorem sem_simulates [Fintype ι] {tr : List (SemLabel ι)} {s : RtSem ι}
    (h : Traces (RtSem.step currentPriority) (RtSem.label currentPriority)
      (RtSem.rtSemInit value flag thread) tr s) :
    countSpec.Runs { state := value.setWidth 16, calls := fun _ => .idle } tr s.meant ∧
      countWeight.takes tr ≤ countWeight.puts tr + (value.setWidth 16).toNat := by
  obtain ⟨x, htr, -, rfl⟩ := h.simulates (R := fun s x => s.Waiting ∧ s.meant = x)
    (fun s x a s' hs hst => by
      obtain ⟨hs, rfl⟩ := hs
      obtain ⟨hwaiting, htrace⟩ := RtSem.step_matches hs hst
      exact ⟨_, htrace, hwaiting, rfl⟩)
    ⟨RtSem.rtSemInit_waiting, rfl⟩
  have hruns : countSpec.Runs { state := value.setWidth 16, calls := fun _ => .idle } tr s.meant :=
    htr
  refine ⟨hruns, ?_⟩
  have hcount := countWeight.taken_le hruns
  have hinside : countWeight.inside (value.setWidth 16) = (value.setWidth 16).toNat := rfl
  rw [Weight.present_idle, hinside] at hcount
  omega

/-- The run resource goes from one thread to another, which waits for it. -/
def handOver : List (SemLabel Bool) :=
  [.call true (), .ret true () (some ()), .call false (), .update (), .ret false () (some ())]

theorem sem_simulates_handOver : ∃ s : RtSem Bool,
    countSpec.Runs { state := 1, calls := fun _ => .idle } handOver s.meant ∧
      countWeight.takes handOver ≤ countWeight.puts handOver + 1 := by
  have h : Traces (RtSem.step fun _ => 10) (RtSem.label fun _ => 10)
      (RtSem.rtSemInit 1 .prio fun _ => RtThread.running) _ _ :=
    .snoc (a := SemAction.ret false) (.snoc (a := SemAction.release)
      (.snoc (a := SemAction.take false (-1)) (.snoc (a := SemAction.take true 0)
        .nil rfl) rfl) rfl) rfl
  exact ⟨_, sem_simulates h⟩

end Results

end FreeModbus
