import FreeModbus.Master.Run

/-!
# What a call may return

The outcome of a call is judged by the log.  A result is what the log says has to
lie between the post of the request and the return (`transaction`).  A call that
posts its request finds no result of an earlier one (`Fresh`), and a call that
returns takes the one result that was completed since.
-/

namespace FreeModbus

open List

/-! ## Results that are not taken yet -/

/-- The results that were completed since the last return. -/
def pendingResults : List MasterEvent → List MBMasterResult
  | [] => []
  | .completed r :: log => r :: pendingResults log
  | .returned _ _ :: _ => []
  | .posted _ :: log => pendingResults log
  | .transmitted _ :: log => pendingResults log
  | .received _ :: log => pendingResults log
  | .handled :: log => pendingResults log
  | .error _ :: log => pendingResults log

/-- No call posts a request before the result of the one before it was taken, and every call
that returns takes one result. -/
def Fresh : List MasterEvent → Prop
  | [] => True
  | .posted _ :: log => pendingResults log = [] ∧ Fresh log
  | .returned _ code :: log => (∃ r, pendingResults log = [r] ∧ r.code = code) ∧ Fresh log
  | .completed _ :: log => Fresh log
  | .transmitted _ :: log => Fresh log
  | .received _ :: log => Fresh log
  | .handled :: log => Fresh log
  | .error _ :: log => Fresh log

/-- What happens in the course of a transaction. -/
def MasterEvent.Inner : MasterEvent → Prop
  | .transmitted _ => True
  | .received _ => True
  | .handled => True
  | .error _ => True
  | .posted _ => False
  | .completed _ => False
  | .returned _ _ => False

theorem pendingResults_inner {es : List MasterEvent} (h : ∀ e ∈ es, e.Inner)
    (log : List MasterEvent) : pendingResults (es ++ log) = pendingResults log := by
  induction es with
  | nil => rfl
  | cons e es ih =>
    obtain ⟨he, hes⟩ := List.forall_mem_cons.mp h
    cases e with
    | posted => exact he.elim
    | completed => exact he.elim
    | returned => exact he.elim
    | transmitted => exact ih hes
    | received => exact ih hes
    | handled => exact ih hes
    | error => exact ih hes

theorem fresh_inner {es log : List MasterEvent} (h : ∀ e ∈ es, e.Inner) (hlog : Fresh log) :
    Fresh (es ++ log) := by
  induction es with
  | nil => exact hlog
  | cons e es ih =>
    obtain ⟨he, hes⟩ := List.forall_mem_cons.mp h
    cases e with
    | posted => exact he.elim
    | completed => exact he.elim
    | returned => exact he.elim
    | transmitted => exact ih hes
    | received => exact ih hes
    | handled => exact ih hes
    | error => exact ih hes

/-! ## The outcome of a call -/

/-- What has happened, newest first, when the request of a call completes with a result. -/
def transaction (i : Nat) (q : MasterRequest) : MBMasterResult → List MasterEvent
  | .processSucess =>
      [.handled, .received q.ucSndAddr, .transmitted q.frame, .posted i]
  | .errorRespondTimeout => [.error .respondTimeout, .posted i]
  | .errorReceiveData => [.error .receiveData, .posted i]
  | .errorExecuteFunction => [.error .executeFunction, .posted i]

theorem transaction_error (i : Nat) (q : MasterRequest) (errorType : MBMasterErrorEventType) :
    transaction i q errorType.result = [.error errorType, .posted i] := by
  cases errorType <;> rfl

/-- A call returned a code: without the run resource, or at the end of its own transaction. -/
def Outcome (i : Nat) (q : MasterRequest) (code : MBMasterReqErrCode) (log : List MasterEvent) :
    Prop :=
  code = .illArg ∨ code = .masterBusy ∨
    ∃ r : MBMasterResult, r.code = code ∧
      (.returned i code :: .completed r :: transaction i q r) <+ log

theorem Outcome.mono {i : Nat} {q : MasterRequest} {code : MBMasterReqErrCode}
    {log log' : List MasterEvent} (h : Outcome i q code log) (hlog : log <+ log') :
    Outcome i q code log' := by
  rcases h with harg | hbusy | ⟨r, hr, hsub⟩
  · exact Or.inl harg
  · exact Or.inr (Or.inl hbusy)
  · exact Or.inr (Or.inr ⟨r, hr, hsub.trans hlog⟩)

namespace Master

/-- Every unicast call that returned has the outcome of its own transaction, and no result was
left over for a later call. -/
structure OwnOutcome (s : Master) : Prop where
  own : ∀ i q code, s.calls i = .returned q code → q.ucSndAddr ≠ mbAddressBroadcast →
    Outcome i q code s.log
  fresh : Fresh s.log

end Master

end FreeModbus
