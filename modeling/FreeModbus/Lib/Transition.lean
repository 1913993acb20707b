import Mathlib.Logic.Relation

/-!
# Guarded transition systems

A system is given by its initial states and a partial step function: an action
is enabled where `step s a` is `some s'`.  One definition serves replay (`run`)
and proof (`ReachableBy`).

Runs are restricted by a condition `ok` on the state before a step and the
action taken.  `ReachableBy init step ok` holds of the states that end a run
whose steps all meet `ok`, and `Reachable init step` of the states that end
any run.
-/

namespace Transition

variable {S A : Type*} {init : S → Prop} {step : S → A → Option S} {ok : S → A → Prop}

/-! ## Reachable states -/

/-- The states that end a run whose steps all meet `ok`. -/
inductive ReachableBy (init : S → Prop) (step : S → A → Option S) (ok : S → A → Prop) :
    S → Prop where
  | start {s : S} : init s → ReachableBy init step ok s
  | next {s s' : S} {a : A} :
      ReachableBy init step ok s → ok s a → step s a = some s' → ReachableBy init step ok s'

/-- The states that end any run. -/
abbrev Reachable (init : S → Prop) (step : S → A → Option S) : S → Prop :=
  ReachableBy init step fun _ _ => True

/-- What holds initially and is kept by every step that meets `ok` holds of every
state reached by such steps. -/
theorem ReachableBy.invariant {Inv : S → Prop} (hinit : ∀ s, init s → Inv s)
    (hstep : ∀ s a s', Inv s → ok s a → step s a = some s' → Inv s') {s : S}
    (h : ReachableBy init step ok s) : Inv s := by
  induction h with
  | start hs => exact hinit _ hs
  | next _ hok hst ih => exact hstep _ _ _ ih hok hst

/-- A step before a run. -/
theorem ReachableBy.cons {s s' t : S} {a : A} (hok : ok s a) (hst : step s a = some s')
    (h : ReachableBy (· = s') step ok t) : ReachableBy (· = s) step ok t := by
  induction h with
  | start heq =>
    cases heq
    exact .next (.start rfl) hok hst
  | next _ hok' hst' ih => exact .next ih hok' hst'

/-! ## Replay -/

/-- Replay a list of actions.  `none` if one of them is not enabled. -/
def run (step : S → A → Option S) : S → List A → Option S
  | s, [] => some s
  | s, a :: as => (step s a).bind fun s' => run step s' as

/-- Every step of a replay meets `ok`. -/
def AllSteps (step : S → A → Option S) (ok : S → A → Prop) : S → List A → Prop
  | _, [] => True
  | s, a :: as => ok s a ∧ ∀ s', step s a = some s' → AllSteps step ok s' as

instance decidableAllSteps [∀ s a, Decidable (ok s a)] :
    ∀ (s : S) (as : List A), Decidable (AllSteps step ok s as)
  | _, [] => isTrue trivial
  | s, a :: as =>
      match h : step s a with
      | none => decidable_of_iff (ok s a) (by simp [AllSteps, h])
      | some s' =>
          have := decidableAllSteps s' as
          decidable_of_iff (ok s a ∧ AllSteps step ok s' as) (by simp [AllSteps, h])

theorem AllSteps.mono {ok' : S → A → Prop} (himp : ∀ s a, ok s a → ok' s a) :
    ∀ {s : S} {as : List A}, AllSteps step ok s as → AllSteps step ok' s as
  | _, [], _ => trivial
  | _, _ :: _, h => ⟨himp _ _ h.1, fun s' hs' => (h.2 s' hs').mono himp⟩

theorem allSteps_congr {ok' : S → A → Prop} (h : ∀ s a, ok s a ↔ ok' s a) {s : S}
    {as : List A} : AllSteps step ok s as ↔ AllSteps step ok' s as :=
  ⟨AllSteps.mono fun s a => (h s a).mp, AllSteps.mono fun s a => (h s a).mpr⟩

/-- Every state of a replay meets `P`. -/
def AllStates (step : S → A → Option S) (P : S → Prop) : S → List A → Prop
  | s, [] => P s
  | s, a :: as => P s ∧ ∀ s', step s a = some s' → AllStates step P s' as

@[simp] theorem run_nil (s : S) : run step s [] = some s := rfl

theorem run_cons (s : S) (a : A) (as : List A) :
    run step s (a :: as) = (step s a).bind fun s' => run step s' as := rfl

theorem run_append (s : S) (as bs : List A) :
    run step s (as ++ bs) = (run step s as).bind fun s' => run step s' bs := by
  induction as generalizing s with
  | nil => rfl
  | cons a as ih =>
    cases h : step s a with
    | none => simp [run_cons, h]
    | some s' => simp [run_cons, h, ih]

/-- A replay of two lists goes through a state between them. -/
theorem run_append_eq_some {s t : S} {as bs : List A} (h : run step s (as ++ bs) = some t) :
    ∃ s', run step s as = some s' ∧ run step s' bs = some t := by
  rw [run_append] at h
  exact Option.bind_eq_some_iff.mp h

/-- A relation that each step keeps is kept by a replay. -/
theorem run_relates {T : Type*} {R : T → S → Prop} {f : T → A → T} {p : A → Prop}
    (hstep : ∀ t s a s', p a → R t s → step s a = some s' → R (f t a) s') {as : List A}
    (has : ∀ a ∈ as, p a) {t : T} {s s' : S} (h : R t s) (hrun : run step s as = some s') :
    R (as.foldl f t) s' := by
  induction as generalizing t s with
  | nil =>
    cases hrun
    exact h
  | cons a as ih =>
    obtain ⟨s₁, hst, hrun⟩ := Option.bind_eq_some_iff.mp hrun
    rw [List.forall_mem_cons] at has
    exact ih has.2 (hstep t s a s₁ has.1 h hst) hrun

/-- A condition on the actions alone. -/
theorem AllSteps.of_forall {p : A → Prop} : ∀ {as : List A} (s : S), (∀ a ∈ as, p a) →
    AllSteps step (fun _ a => p a) s as
  | [], _, _ => trivial
  | _ :: _, _, h =>
      ⟨(List.forall_mem_cons.mp h).1, fun s' _ => of_forall s' (List.forall_mem_cons.mp h).2⟩

theorem AllStates.head {P : S → Prop} {s : S} {as : List A} (h : AllStates step P s as) : P s := by
  cases as with
  | nil => exact h
  | cons a as => exact h.1

/-- Where a step keeps `P` exactly if it meets `ok`, the states of a replay meet `P` exactly if
its steps meet `ok`. -/
theorem allStates_iff {P : S → Prop}
    (hstep : ∀ s a s', P s → step s a = some s' → (P s' ↔ ok s a)) {s t : S} {as : List A}
    (hs : P s) (hrun : run step s as = some t) :
    AllStates step P s as ↔ AllSteps step ok s as := by
  induction as generalizing s with
  | nil => exact iff_of_true hs trivial
  | cons a as ih =>
    obtain ⟨s₁, hst, hrun⟩ := Option.bind_eq_some_iff.mp hrun
    constructor
    · intro h
      have hs₁ := (h.2 s₁ hst).head
      refine ⟨(hstep s a s₁ hs hst).mp hs₁, fun s' hs' => ?_⟩
      cases hst.symm.trans hs'
      exact (ih hs₁ hrun).mp (h.2 _ hst)
    · intro h
      have hs₁ := (hstep s a s₁ hs hst).mpr h.1
      refine ⟨hs, fun s' hs' => ?_⟩
      cases hst.symm.trans hs'
      exact (ih hs₁ hrun).mpr (h.2 _ hst)

/-- A replay from a reachable state ends in a reachable state. -/
theorem ReachableBy.of_run {s s' : S} (h : ReachableBy init step ok s) :
    ∀ {as : List A}, AllSteps step ok s as → run step s as = some s' →
      ReachableBy init step ok s' := by
  intro as
  induction as generalizing s with
  | nil =>
    intro _ hr
    cases hr
    exact h
  | cons a as ih =>
    intro hall hr
    cases hst : step s a with
    | none => simp [run_cons, hst] at hr
    | some s₁ =>
      rw [run_cons, hst] at hr
      exact ih (.next h hall.1 hst) (hall.2 s₁ hst) hr

/-- The unrestricted case: every replay reaches a reachable state. -/
theorem Reachable.of_run {s s' : S} (h : Reachable init step s) {as : List A}
    (hr : run step s as = some s') : Reachable init step s' := by
  have hall : ∀ (as : List A) (s : S), AllSteps step (fun _ _ => True) s as := by
    intro as
    induction as with
    | nil => intro _; trivial
    | cons a as ih => intro s; exact ⟨trivial, fun s' _ => ih s'⟩
  exact ReachableBy.of_run h (hall as s) hr

/-! ## Repeating a step -/

/-- `s'` is what is left when `f` is repeated from `s` on for as long as `on` holds. -/
inductive Until (on : S → Bool) (f : S → S) : S → S → Prop where
  | stop {s : S} : on s = false → Until on f s s
  | next {s s' : S} : on s = true → Until on f (f s) s' → Until on f s s'

section Until

variable {T : Type*} {on : S → Bool} {f : S → S} {on' : T → Bool} {g : T → T}

/-- A machine that mirrors another one stops where that one stops. -/
theorem Until.simulate {R : S → T → Prop} (hon : ∀ s t, R s t → on s = on' t)
    (hstep : ∀ s t, R s t → on' t = true → R (f s) (g t)) {t t' : T} (h : Until on' g t t') :
    ∀ {s : S}, R s t → ∃ s', Until on f s s' ∧ R s' t' := by
  induction h with
  | stop hoff =>
    intro s hr
    exact ⟨s, .stop ((hon s _ hr).trans hoff), hr⟩
  | next hton _ ih =>
    intro s hr
    obtain ⟨s', huntil, hr'⟩ := ih (hstep s _ hr hton)
    exact ⟨s', .next ((hon s _ hr).trans hton) huntil, hr'⟩

end Until

/-! ## Sweeps -/

/-- A sweep over the first `n` indices establishes at every index what the step at that index
establishes and the other steps keep. -/
theorem sweep {n : Nat} {P : Nat → S → Prop} {f : S → Nat → S}
    (hat : ∀ s j, j < n → P j (f s j))
    (hkeep : ∀ s i j, i < j → j < n → P i s → P i (f s j)) (s : S) :
    ∀ i < n, P i ((List.range n).foldl f s) := by
  have hall : ∀ m ≤ n, ∀ i < m, P i ((List.range m).foldl f s) := by
    intro m
    induction m with
    | zero => exact fun _ i hi => absurd hi (Nat.not_lt_zero i)
    | succ m ih =>
      intro hm i hi
      rw [List.range_succ, List.foldl_append]
      rcases Nat.lt_or_eq_of_le (Nat.le_of_lt_succ hi) with hlt | rfl
      · exact hkeep _ i m hlt hm (ih (Nat.le_of_succ_le hm) i hlt)
      · exact hat _ i hm
  exact hall n (Nat.le_refl n)

/-- A sweep that updates one row a step updates every row once. -/
theorem sweep_rows {R : Type*} {n : Nat} (row : S → Nat → R) (f : S → Nat → S) (g : R → R)
    (hstep : ∀ s i j, i < n → j < n →
      row (f s j) i = if i = j then g (row s i) else row s i) (s : S) :
    ∀ i < n, row ((List.range n).foldl f s) i = g (row s i) := by
  intro i hi
  have hall : ∀ m ≤ n, row ((List.range m).foldl f s) i =
      if i < m then g (row s i) else row s i := by
    intro m
    induction m with
    | zero => exact fun _ => (if_neg (Nat.not_lt_zero i)).symm
    | succ m ih =>
      intro hm
      rw [List.range_succ, List.foldl_append, List.foldl_cons, List.foldl_nil, hstep _ i m hi hm,
        ih (Nat.le_of_succ_le hm)]
      rcases Nat.lt_trichotomy i m with hlt | rfl | hgt
      · rw [if_neg (Nat.ne_of_lt hlt), if_pos hlt, if_pos (Nat.lt_succ_of_lt hlt)]
      · rw [if_pos rfl, if_neg (Nat.lt_irrefl i), if_pos (Nat.lt_succ_self i)]
      · rw [if_neg (Nat.ne_of_gt hgt), if_neg (Nat.lt_asymm hgt), if_neg (Nat.not_lt.mpr hgt)]
  exact (hall n (Nat.le_refl n)).trans (if_pos hi)

end Transition
