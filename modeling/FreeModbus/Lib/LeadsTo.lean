import FreeModbus.Lib.Transition
import Mathlib.Algebra.BigOperators.Group.Finset.Basic
import Mathlib.Algebra.Order.BigOperators.Group.Finset

/-!
# Progress

`LeadsTo step ok Q P s` says that from `s` on, whatever steps that meet `ok` are
taken, `P` comes to hold, and `Q` holds up to there.  Where `P` does not hold yet
some such step can be taken, so a system that only stops when it has to gets to `P`.
It is an inductive predicate, so there is no infinite run that avoids `P`.

`LeadsTo.of_rank` is the rule for a stage: a rank that every step lowers.
`LeadsTo.trans` chains the stages.  Where one goal leads to the next for ever, every
reachable state is on the way to one of them (`leadsTo_of_reachable`), so `Q` holds there
(`LeadsTo.holds_now`).
-/

namespace Transition

variable {S A : Type*} {init : S → Prop} {step : S → A → Option S} {ok : S → A → Prop}

/-- Every run of steps that meet `ok` comes to `P`, and up to there `Q` holds. -/
inductive LeadsTo (step : S → A → Option S) (ok : S → A → Prop) (Q P : S → Prop) : S → Prop where
  | now {s : S} : P s → LeadsTo step ok Q P s
  | later {s : S} : Q s → (∃ a s', ok s a ∧ step s a = some s') →
      (∀ a s', ok s a → step s a = some s' → LeadsTo step ok Q P s') → LeadsTo step ok Q P s

namespace LeadsTo

variable {Q P R : S → Prop} {s : S}

theorem trans (h : LeadsTo step ok Q P s) (hnext : ∀ t, P t → LeadsTo step ok Q R t) :
    LeadsTo step ok Q R s := by
  induction h with
  | now hp => exact hnext _ hp
  | later hq hen _ ih => exact .later hq hen ih

theorem mono (h : LeadsTo step ok Q P s) (hp : ∀ t, P t → R t) : LeadsTo step ok Q R s :=
  h.trans fun t ht => .now (hp t ht)

/-- A stage with a rank: while the goal is not reached some step can be taken, and every step
lowers the rank or reaches the goal. -/
theorem of_wellFounded {α : Type*} {r : α → α → Prop} (hwf : WellFounded r) (Inv : α → S → Prop)
    (hstage : ∀ n s, Inv n s → Q s ∧ (∃ a s', ok s a ∧ step s a = some s') ∧
      ∀ a s', ok s a → step s a = some s' → P s' ∨ ∃ m, r m n ∧ Inv m s') :
    ∀ n s, Inv n s → LeadsTo step ok Q P s := by
  intro n
  induction n using hwf.induction with
  | _ n ih =>
    intro s hs
    obtain ⟨hq, hen, hstep⟩ := hstage n s hs
    refine .later hq hen fun a s' hok hst => ?_
    rcases hstep a s' hok hst with hp | ⟨m, hm, hinv⟩
    · exact .now hp
    · exact ih m hm s' hinv

/-- The same with a number for the rank. -/
theorem of_rank (Inv : Nat → S → Prop)
    (hstage : ∀ n s, Inv n s → Q s ∧ (∃ a s', ok s a ∧ step s a = some s') ∧
      ∀ a s', ok s a → step s a = some s' → P s' ∨ ∃ m < n, Inv m s') :
    ∀ n s, Inv n s → LeadsTo step ok Q P s :=
  of_wellFounded Nat.lt_wfRel.wf Inv hstage

/-- What holds on the way and at its end holds now. -/
theorem holds_now (h : LeadsTo step ok Q P s) (hq : ∀ t, P t → Q t) : Q s := by
  cases h with
  | now hp => exact hq s hp
  | later hs _ _ => exact hs

/-- Some run of steps that meet `ok` ends in the goal. -/
theorem exists_run (h : LeadsTo step ok Q P s) :
    ∃ t, ReachableBy (· = s) step ok t ∧ P t := by
  induction h with
  | now hp => exact ⟨_, .start rfl, hp⟩
  | later _ hen _ ih =>
    obtain ⟨a, s', hok, hst⟩ := hen
    obtain ⟨t, hrun, ht⟩ := ih a s' hok hst
    exact ⟨t, hrun.cons hok hst, ht⟩

end LeadsTo

section Goals

variable {Q : S → Prop} {P : Nat → S → Prop} {s : S}

/-- Where each goal leads to the next one, every reachable state is on the way to a goal. -/
theorem leadsTo_of_reachable (hinit : ∀ s, init s → P 0 s)
    (hnext : ∀ n s, P n s → LeadsTo step ok Q (P (n + 1)) s)
    (hapart : ∀ n s, P n s → ¬ P (n + 1) s) (h : ReachableBy init step ok s) :
    ∃ n, LeadsTo step ok Q (P n) s := by
  induction h with
  | start hs => exact ⟨0, .now (hinit _ hs)⟩
  | next _ hok hst ih =>
    obtain ⟨n, hn⟩ := ih
    cases hn with
    | later _ _ hall => exact ⟨n, hall _ _ hok hst⟩
    | now hp =>
      cases hnext n _ hp with
      | now hp' => exact absurd hp' (hapart n _ hp)
      | later _ _ hall => exact ⟨n + 1, hall _ _ hok hst⟩

/-- Every goal is followed by all later ones. -/
theorem LeadsTo.later_goal (hnext : ∀ n s, P n s → LeadsTo step ok Q (P (n + 1)) s) {n : Nat}
    (h : LeadsTo step ok Q (P n) s) (k : Nat) : LeadsTo step ok Q (P (n + k)) s := by
  induction k with
  | zero => exact h
  | succ k ih => exact ih.trans fun t ht => hnext (n + k) t ht

end Goals

/-! ## Parts -/

section Parts

variable {ι X : Type*} [Fintype ι] [DecidableEq ι] {P : ι → Nat → X → Prop} {rank : ι → Nat}
  {part : ι → X} {i : ι} {m : Nat} {x : X}

theorem sum_update_lt (h : m < rank i) : ∑ j, Function.update rank i m j < ∑ j, rank j := by
  refine Finset.sum_lt_sum (fun j _ => ?_) ⟨i, Finset.mem_univ i, ?_⟩
  · by_cases hj : j = i
    · subst hj
      rw [Function.update_self]
      exact Nat.le_of_lt h
    · rw [Function.update_of_ne hj]
  · rw [Function.update_self]
    exact h

/-- The rank of a system of parts is the sum of theirs.  It falls where that of one part falls. -/
theorem parts_step (h : ∀ j, P j (rank j) (part j)) (hm : m < rank i) (hx : P i m x) :
    ∃ rank' : ι → Nat, (∀ j, P j (rank' j) (Function.update part i x j)) ∧
      ∑ j, rank' j < ∑ j, rank j := by
  refine ⟨Function.update rank i m, fun j => ?_, sum_update_lt hm⟩
  by_cases hj : j = i
  · subst hj
    rw [Function.update_self, Function.update_self]
    exact hx
  · rw [Function.update_of_ne hj, Function.update_of_ne hj]
    exact h j

omit [DecidableEq ι] in
/-- A rank that is not zero comes from a part. -/
theorem exists_pos_of_sum (h : 0 < ∑ j, rank j) : ∃ j, 0 < rank j := by
  by_contra hno
  have hzero : ∀ j, rank j = 0 := fun j => Nat.eq_zero_of_not_pos fun hj => hno ⟨j, hj⟩
  rw [Finset.sum_eq_zero fun j _ => hzero j] at h
  exact Nat.lt_irrefl 0 h

end Parts

end Transition
