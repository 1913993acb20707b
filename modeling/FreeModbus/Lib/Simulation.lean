import FreeModbus.Lib.Transition
import Mathlib.Data.List.Induction

/-!
# Traces and forward simulation

A step may be seen from outside as a list of labels; a silent step shows none.
`Traces step label s tr t` says that a run from `s` to `t` shows `tr`.

A system simulates another along a relation if each step of the other is matched by a
run of its own that shows the same labels.  Then it shows every trace of the other
(`Traces.simulates`).
-/

namespace Transition

variable {S A L T B : Type*}

/-- The traces of the runs from `s`, with the states they end in. -/
inductive Traces (step : S → A → Option S) (label : S → A → List L) (s : S) :
    List L → S → Prop where
  | nil : Traces step label s [] s
  | snoc {tr : List L} {t u : S} {a : A} : Traces step label s tr t → step t a = some u →
      Traces step label s (tr ++ label t a) u

namespace Traces

variable {step : S → A → Option S} {label : S → A → List L} {s t u : S} {tr tr' : List L} {a : A}

theorem single (hst : step s a = some t) : Traces step label s (label s a) t :=
  .snoc .nil hst

theorem trans (h : Traces step label s tr t) (h' : Traces step label t tr' u) :
    Traces step label s (tr ++ tr') u := by
  induction h' with
  | nil =>
    rw [List.append_nil]
    exact h
  | snoc _ hst ih =>
    rw [← List.append_assoc]
    exact ih.snoc hst

/-- What a replay shows. -/
def shown (step : S → A → Option S) (label : S → A → List L) : S → List A → List L
  | _, [] => []
  | s, a :: as => label s a ++
      match step s a with
      | some s' => shown step label s' as
      | none => []

/-- A replay is a trace. -/
theorem of_run (label : S → A → List L) {as : List A} (h : run step s as = some t) :
    Traces step label s (shown step label s as) t := by
  induction as generalizing s with
  | nil =>
    cases h
    exact .nil
  | cons a as ih =>
    obtain ⟨s', hst, hrun⟩ := Option.bind_eq_some_iff.mp h
    rw [shown, hst]
    exact (single hst).trans (ih hrun)

/-- A trace in two parts, where each step shows one label. -/
theorem of_append (hlabel : ∀ s a, ∃ l, label s a = [l])
    (h : Traces step label s (tr ++ tr') u) :
    ∃ t, Traces step label s tr t ∧ Traces step label t tr' u := by
  induction tr' using List.reverseRecOn generalizing u with
  | nil =>
    rw [List.append_nil] at h
    exact ⟨u, h, .nil⟩
  | append_singleton tr' l ih =>
    rw [← List.append_assoc] at h
    generalize htr : tr ++ tr' ++ [l] = tr'' at h
    cases h with
    | nil => exact absurd htr (by simp)
    | @snoc _ u' _ a h hst =>
      obtain ⟨l', hl'⟩ := hlabel u' a
      rw [hl'] at htr
      obtain ⟨rfl, hl⟩ := List.append_inj' htr rfl
      obtain ⟨t, hleft, hright⟩ := ih h
      refine ⟨t, hleft, ?_⟩
      rw [hl, ← hl']
      exact hright.snoc hst

/-- A trace of one label is one step, where each step shows one label. -/
theorem of_singleton {l : L} (hlabel : ∀ s a, ∃ l, label s a = [l])
    (h : Traces step label s [l] u) : ∃ a, step s a = some u ∧ label s a = [l] := by
  generalize htr : [l] = tr at h
  cases h with
  | nil => cases htr
  | @snoc tr t _ a h hst =>
    obtain ⟨l', hl'⟩ := hlabel t a
    rw [hl'] at htr
    obtain ⟨rfl, hl⟩ := List.append_inj' (show [] ++ [l] = tr ++ [l'] from htr) rfl
    generalize hnil : ([] : List L) = tr at h
    cases h with
    | nil => exact ⟨a, hst, rfl⟩
    | @snoc tr t' _ a' _ _ =>
      obtain ⟨l'', hl''⟩ := hlabel t' a'
      rw [hl''] at hnil
      exact absurd hnil (by simp)

variable {stepB : T → B → Option T} {labelB : T → B → List L} {R : S → T → Prop} {x : T}

/-- Forward simulation. -/
theorem simulates
    (hsim : ∀ s x a s', R s x → step s a = some s' →
      ∃ x', Traces stepB labelB x (label s a) x' ∧ R s' x')
    (h : Traces step label s tr t) (hR : R s x) :
    ∃ y, Traces stepB labelB x tr y ∧ R t y := by
  induction h with
  | nil => exact ⟨x, .nil, hR⟩
  | snoc _ hst ih =>
    obtain ⟨y, htr, hy⟩ := ih
    obtain ⟨y', hmatch, hy'⟩ := hsim _ _ _ _ hy hst
    exact ⟨y', htr.trans hmatch, hy'⟩

end Traces

end Transition
