import FreeModbus.Lib.Simulation
import Mathlib.Algebra.BigOperators.Group.Finset.Basic
import Mathlib.Algebra.Order.BigOperators.Group.Finset
import Mathlib.Algebra.Ring.Nat

/-!
# Blocking calls on a shared object

An object that any number of threads update and make requests of, as it is meant: a request
is called, takes effect at one moment, and returns later.  The moment is one at which the
request's condition holds; a request fails only at a moment at which it does not.

A trace shows the updates, the calls and the returns.  What requests take out of the object
is not more than what was put in (`Weight.taken_le`).
-/

namespace Blocking

open Transition

/-- What updates and requests mean for the state of an object. -/
structure Spec (σ U Q R : Type) where
  update : U → σ → σ
  /-- The condition of a request. -/
  Holds : Q → σ → Prop
  gives : Q → σ → R
  left : Q → σ → σ

/-- Where a thread is with its request. -/
inductive Call (Q R : Type) where
  | idle
  | waits (q : Q)
  | got (q : Q) (r : R)
  | failed (q : Q)

/-- The object, and where its threads are. -/
structure Object (σ ι Q R : Type) where
  state : σ
  calls : ι → Call Q R

/-- An update, and the parts of a request. -/
inductive Action (σ ι U Q : Type) where
  | update (u : U)
  | reset (s : σ)
  | call (i : ι) (q : Q)
  /-- The request takes effect. -/
  | take (i : ι)
  | fail (i : ι)
  | ret (i : ι)

/-- What is seen of it. -/
inductive Label (σ ι U Q R : Type) where
  | update (u : U)
  | reset (s : σ)
  | call (i : ι) (q : Q)
  /-- The request returns with a result, or fails. -/
  | ret (i : ι) (q : Q) (r : Option R)

variable {σ ι U Q R : Type} [DecidableEq ι]

namespace Spec

variable (D : Spec σ U Q R)

/-- A reset fails the requests that wait. -/
def aborted : Call Q R → Call Q R
  | .waits q => .failed q
  | c => c

open Classical in
/-- One step. -/
noncomputable def step (x : Object σ ι Q R) : Action σ ι U Q → Option (Object σ ι Q R)
  | .update u => some { x with state := D.update u x.state }
  | .reset s => some { state := s, calls := fun i => aborted (x.calls i) }
  | .call i q =>
      match x.calls i with
      | .idle => some { x with calls := Function.update x.calls i (.waits q) }
      | _ => none
  | .take i =>
      match x.calls i with
      | .waits q =>
          if D.Holds q x.state then some {
            state := D.left q x.state
            calls := Function.update x.calls i (.got q (D.gives q x.state)) }
          else none
      | _ => none
  | .fail i =>
      match x.calls i with
      | .waits q =>
          if D.Holds q x.state then none
          else some { x with calls := Function.update x.calls i (.failed q) }
      | _ => none
  | .ret i =>
      match x.calls i with
      | .got _ _ => some { x with calls := Function.update x.calls i .idle }
      | .failed _ => some { x with calls := Function.update x.calls i .idle }
      | _ => none

/-- What a step shows. -/
def label (x : Object σ ι Q R) : Action σ ι U Q → List (Label σ ι U Q R)
  | .update u => [.update u]
  | .reset s => [.reset s]
  | .call i q => [.call i q]
  | .take _ => []
  | .fail _ => []
  | .ret i =>
      match x.calls i with
      | .got q r => [.ret i q (some r)]
      | .failed q => [.ret i q none]
      | _ => []

/-- The runs of the object. -/
abbrev Runs : Object σ ι Q R → List (Label σ ι U Q R) → Object σ ι Q R → Prop :=
  Traces D.step label

variable {D} {x y : Object σ ι Q R} {i : ι} {q : Q} {r : R} {u : U} {s : σ}

/-! ## One step -/

/-- What a step can be. -/
inductive StepTo (D : Spec σ U Q R) (x : Object σ ι Q R) :
    Action σ ι U Q → Object σ ι Q R → Prop where
  | update (u : U) : StepTo D x (.update u) { x with state := D.update u x.state }
  | reset (s : σ) :
      StepTo D x (.reset s) { state := s, calls := fun i => aborted (x.calls i) }
  | call {i : ι} {q : Q} : x.calls i = .idle →
      StepTo D x (.call i q) { x with calls := Function.update x.calls i (.waits q) }
  | take {i : ι} {q : Q} : x.calls i = .waits q → D.Holds q x.state →
      StepTo D x (.take i) {
        state := D.left q x.state
        calls := Function.update x.calls i (.got q (D.gives q x.state)) }
  | fail {i : ι} {q : Q} : x.calls i = .waits q → ¬ D.Holds q x.state →
      StepTo D x (.fail i) { x with calls := Function.update x.calls i (.failed q) }
  | got {i : ι} {q : Q} {r : R} : x.calls i = .got q r →
      StepTo D x (.ret i) { x with calls := Function.update x.calls i .idle }
  | failed {i : ι} {q : Q} : x.calls i = .failed q →
      StepTo D x (.ret i) { x with calls := Function.update x.calls i .idle }

theorem stepTo {a : Action σ ι U Q} (h : D.step x a = some y) : StepTo D x a y := by
  cases a with
  | update u =>
    cases h
    exact .update u
  | reset s =>
    cases h
    exact .reset s
  | call i q =>
    cases hc : x.calls i with
    | idle =>
      simp only [step, hc] at h
      cases h
      exact .call hc
    | _ => simp [step, hc] at h
  | take i =>
    cases hc : x.calls i with
    | waits q =>
      by_cases hq : D.Holds q x.state
      · simp only [step, hc, if_pos hq] at h
        cases h
        exact .take hc hq
      · simp [step, hc, hq] at h
    | _ => simp [step, hc] at h
  | fail i =>
    cases hc : x.calls i with
    | waits q =>
      by_cases hq : D.Holds q x.state
      · simp [step, hc, hq] at h
      · simp only [step, hc, if_neg hq] at h
        cases h
        exact .fail hc hq
    | _ => simp [step, hc] at h
  | ret i =>
    cases hc : x.calls i with
    | got q r =>
      simp only [step, hc] at h
      cases h
      exact .got hc
    | failed q =>
      simp only [step, hc] at h
      cases h
      exact .failed hc
    | _ => simp [step, hc] at h

theorem runs_update : D.Runs x [.update u] { x with state := D.update u x.state } :=
  .single (a := Action.update u) rfl

theorem runs_reset : D.Runs x [.reset s] { state := s, calls := fun i => aborted (x.calls i) } :=
  .single (a := Action.reset s) rfl

theorem runs_call (h : x.calls i = .idle) :
    D.Runs x [.call i q] { x with calls := Function.update x.calls i (.waits q) } := by
  refine .single (a := Action.call i q) ?_
  simp only [step, h]

theorem runs_take (h : x.calls i = .waits q) (hq : D.Holds q x.state) :
    D.Runs x [] {
      state := D.left q x.state
      calls := Function.update x.calls i (.got q (D.gives q x.state)) } := by
  refine .single (a := Action.take i) ?_
  simp only [step, h, if_pos hq]

theorem runs_fail (h : x.calls i = .waits q) (hq : ¬ D.Holds q x.state) :
    D.Runs x [] { x with calls := Function.update x.calls i (.failed q) } := by
  refine .single (a := Action.fail i) ?_
  simp only [step, h, if_neg hq]

theorem runs_got (h : x.calls i = .got q r) :
    D.Runs x [.ret i q (some r)] { x with calls := Function.update x.calls i .idle } := by
  have hst : D.step x (.ret i) = some { x with calls := Function.update x.calls i .idle } := by
    simp only [step, h]
  have hlabel : label (U := U) x (.ret i) = [.ret i q (some r)] := by simp only [label, h]
  exact hlabel ▸ Traces.single hst

theorem runs_failed (h : x.calls i = .failed q) :
    D.Runs x [.ret i q none] { x with calls := Function.update x.calls i .idle } := by
  have hst : D.step x (.ret i) = some { x with calls := Function.update x.calls i .idle } := by
    simp only [step, h]
  have hlabel : label (U := U) x (.ret i) = [.ret i q none] := by simp only [label, h]
  exact hlabel ▸ Traces.single hst

/-! ## Requests without a wait -/

/-- A call that comes back leaves the thread idle. -/
theorem idle_again {c : Call Q R} (h : x.calls i = .idle) :
    Function.update (Function.update x.calls i c) i .idle = x.calls := by
  rw [Function.update_idem, ← h, Function.update_eq_self]

/-- A request that takes effect in its call. -/
theorem runs_at_once (h : x.calls i = .idle) (hq : D.Holds q x.state) :
    D.Runs x [.call i q, .ret i q (some (D.gives q x.state))]
      { x with state := D.left q x.state } := by
  have htake := runs_take (x := { x with calls := Function.update x.calls i (.waits q) })
    (Function.update_self ..) hq
  have hret := runs_got (D := D) (x := {
    state := D.left q x.state
    calls := Function.update x.calls i (.got q (D.gives q x.state)) }) (Function.update_self ..)
  rw [Function.update_idem] at htake
  rw [idle_again h] at hret
  exact ((runs_call h).trans htake).trans hret

/-- A request that fails in its call. -/
theorem runs_refused (h : x.calls i = .idle) (hq : ¬ D.Holds q x.state) :
    D.Runs x [.call i q, .ret i q none] x := by
  have hfail := runs_fail (x := { x with calls := Function.update x.calls i (.waits q) })
    (Function.update_self ..) hq
  have hret := runs_failed (D := D)
    (x := { x with calls := Function.update x.calls i (.failed q) }) (Function.update_self ..)
  rw [Function.update_idem] at hfail
  rw [idle_again h] at hret
  exact ((runs_call h).trans hfail).trans hret

end Spec

/-! ## Nothing is taken that was not put in -/

/-- A measure of what is in the object: what updates put in, and what requests take out. -/
structure Weight (D : Spec σ U Q R) where
  inside : σ → Nat
  put : U → Nat
  taken : Q → R → Nat
  update_le : ∀ u s, inside (D.update u s) ≤ inside s + put u
  take_le : ∀ q s, D.Holds q s → inside (D.left q s) + taken q (D.gives q s) ≤ inside s

namespace Weight

variable {D : Spec σ U Q R} (W : Weight D)

/-- What a label puts in. -/
def putBy : Label σ ι U Q R → Nat
  | .update u => W.put u
  | .reset s => W.inside s
  | _ => 0

/-- What a label shows to be taken. -/
def takenBy : Label σ ι U Q R → Nat
  | .ret _ q (some r) => W.taken q r
  | _ => 0

/-- What a call has taken and not returned. -/
def held : Call Q R → Nat
  | .got q r => W.taken q r
  | _ => 0

/-- What is put in over a trace. -/
def puts (tr : List (Label σ ι U Q R)) : Nat := (tr.map W.putBy).sum

/-- What is taken over a trace. -/
def takes (tr : List (Label σ ι U Q R)) : Nat := (tr.map W.takenBy).sum

omit [DecidableEq ι] in
theorem puts_append (tr tr' : List (Label σ ι U Q R)) :
    W.puts (tr ++ tr') = W.puts tr + W.puts tr' := by
  rw [puts, List.map_append, List.sum_append, puts, puts]

omit [DecidableEq ι] in
theorem takes_append (tr tr' : List (Label σ ι U Q R)) :
    W.takes (tr ++ tr') = W.takes tr + W.takes tr' := by
  rw [takes, List.map_append, List.sum_append, takes, takes]

variable [Fintype ι] {x y : Object σ ι Q R} {tr : List (Label σ ι U Q R)}

/-- What is in the object or with a call. -/
def present (x : Object σ ι Q R) : Nat := ∑ i, W.held (x.calls i) + W.inside x.state

/-- The calls hold more or less where one of them changes. -/
theorem sum_held_update (calls : ι → Call Q R) (i : ι) (c : Call Q R) :
    ∑ j, W.held (Function.update calls i c j) + W.held (calls i) =
      ∑ j, W.held (calls j) + W.held c := by
  have hrest : ∑ j ∈ Finset.univ.erase i, W.held (Function.update calls i c j) =
      ∑ j ∈ Finset.univ.erase i, W.held (calls j) :=
    Finset.sum_congr rfl fun j hj => by rw [Function.update_of_ne (Finset.ne_of_mem_erase hj)]
  have hnew := Finset.add_sum_erase Finset.univ
    (fun j => W.held (Function.update calls i c j)) (Finset.mem_univ i)
  have hold := Finset.add_sum_erase Finset.univ (fun j => W.held (calls j)) (Finset.mem_univ i)
  simp only [Function.update_self] at hnew hold
  omega

omit [DecidableEq ι] [Fintype ι] in
theorem held_aborted (c : Call Q R) : W.held (Spec.aborted c) = W.held c := by
  cases c with
  | _ => rfl

/-- A change of a call and the state adds what it shows to be put in, and takes away what it
shows to be taken. -/
theorem present_update {i : ι} {c : Call Q R} {s : σ} {l : List (Label σ ι U Q R)}
    (h : W.held c + W.inside s + W.takes l ≤
      W.held (x.calls i) + W.inside x.state + W.puts l) :
    W.present { state := s, calls := Function.update x.calls i c } + W.takes l ≤
      W.present x + W.puts l := by
  have hsum := W.sum_held_update x.calls i c
  unfold present
  dsimp only
  omega

/-- What a step shows to be put in and taken bounds what is present. -/
theorem present_step {a : Action σ ι U Q} (h : D.step x a = some y) :
    W.present y + W.takes (Spec.label x a) ≤ W.present x + W.puts (Spec.label x a) := by
  cases Spec.stepTo h with
  | update u =>
    have hupdate := W.update_le u x.state
    simp only [present, takes, puts, Spec.label, List.map_cons, List.map_nil, List.sum_cons,
      List.sum_nil, putBy, takenBy]
    omega
  | reset s =>
    simp only [present, takes, puts, Spec.label, List.map_cons, List.map_nil, List.sum_cons,
      List.sum_nil, putBy, takenBy, held_aborted]
    omega
  | call hc => exact W.present_update (by rw [hc]; exact Nat.le_refl _)
  | @take i q hc hq =>
    refine W.present_update ?_
    have htake := W.take_le q x.state hq
    rw [hc]
    simp only [held, Spec.label, takes, puts, List.map_nil, List.sum_nil]
    omega
  | fail hc => exact W.present_update (by rw [hc]; exact Nat.le_refl _)
  | got hc =>
    refine W.present_update ?_
    simp only [hc, Spec.label, held, takes, puts, List.map_cons, List.map_nil, List.sum_cons,
      List.sum_nil, putBy, takenBy]
    omega
  | failed hc =>
    refine W.present_update ?_
    simp only [hc, Spec.label, held, takes, puts, List.map_cons, List.map_nil, List.sum_cons,
      List.sum_nil, putBy, takenBy]
    omega

/-- No more is taken over a run than was there or was put in. -/
theorem taken_le (h : D.Runs x tr y) :
    W.present y + W.takes tr ≤ W.present x + W.puts tr := by
  induction h with
  | nil => exact Nat.le_refl _
  | snoc _ hst ih =>
    have hstep := W.present_step hst
    rw [takes_append, puts_append]
    omega

omit [DecidableEq ι] in
/-- At the start nothing is with a call. -/
theorem present_idle (s : σ) :
    W.present { state := s, calls := fun _ : ι => (Call.idle : Call Q R) } = W.inside s := by
  simp [present, held]

end Weight

end Blocking
