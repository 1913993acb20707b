import Mathlib.Algebra.Group.Nat.Even

/-!
# A stream cut into pairs

A list taken two items at a time, with an item left over where its length is odd.  The
pairs and the item left over are what a reader of the stream has to keep: how they change
with one more item does not depend on more than them.
-/

namespace Pairs

variable {α : Type*}

/-- The pairs of a list, from its start on. -/
def pairs : List α → List (α × α)
  | a :: b :: l => (a, b) :: pairs l
  | _ => []

/-- The last item of a list of odd length. -/
def leftOver : List α → Option α
  | _ :: _ :: l => leftOver l
  | [a] => some a
  | [] => none

/-- The items of a list of pairs, in order. -/
def unpair : List (α × α) → List α
  | (a, b) :: l => a :: b :: unpair l
  | [] => []

@[simp] theorem pairs_cons_cons (a b : α) (l : List α) :
    pairs (a :: b :: l) = (a, b) :: pairs l := rfl

@[simp] theorem leftOver_cons_cons (a b : α) (l : List α) :
    leftOver (a :: b :: l) = leftOver l := rfl

/-- With nothing left over the next item is left over. -/
theorem snoc_of_none {l : List α} (h : leftOver l = none) (c : α) :
    pairs (l ++ [c]) = pairs l ∧ leftOver (l ++ [c]) = some c := by
  induction l using pairs.induct with
  | case1 a b l ih =>
    obtain ⟨hp, hl⟩ := ih h
    simp [hp, hl]
  | case2 l hne =>
    cases l with
    | nil => exact ⟨rfl, rfl⟩
    | cons a l =>
      cases l with
      | nil => cases h
      | cons b l => exact absurd rfl (hne a b l)

/-- An item left over makes a pair with the next one. -/
theorem snoc_of_some {l : List α} {a : α} (h : leftOver l = some a) (c : α) :
    pairs (l ++ [c]) = pairs l ++ [(a, c)] ∧ leftOver (l ++ [c]) = none := by
  induction l using pairs.induct with
  | case1 a' b l ih =>
    obtain ⟨hp, hl⟩ := ih h
    simp [hp, hl]
  | case2 l hne =>
    cases l with
    | nil => cases h
    | cons a' l =>
      cases l with
      | nil =>
        cases h
        exact ⟨rfl, rfl⟩
      | cons b l => exact absurd rfl (hne a' b l)

theorem length_of_none {l : List α} (h : leftOver l = none) :
    l.length = 2 * (pairs l).length := by
  induction l using pairs.induct with
  | case1 a b l ih =>
    have hl := ih h
    simp only [pairs_cons_cons, List.length_cons]
    omega
  | case2 l hne =>
    cases l with
    | nil => rfl
    | cons a l =>
      cases l with
      | nil => cases h
      | cons b l => exact absurd rfl (hne a b l)

theorem length_of_some {l : List α} {a : α} (h : leftOver l = some a) :
    l.length = 2 * (pairs l).length + 1 := by
  induction l using pairs.induct with
  | case1 a' b l ih =>
    have hl := ih h
    simp only [pairs_cons_cons, List.length_cons]
    omega
  | case2 l hne =>
    cases l with
    | nil => cases h
    | cons a' l =>
      cases l with
      | nil => rfl
      | cons b l => exact absurd rfl (hne a' b l)

/-- The number of pairs. -/
theorem pairs_length (l : List α) : (pairs l).length = l.length / 2 := by
  cases h : leftOver l with
  | none =>
    have hl := length_of_none h
    omega
  | some a =>
    have hl := length_of_some h
    omega

/-- Nothing is left over of a list of even length. -/
theorem leftOver_eq_none {l : List α} : leftOver l = none ↔ Even l.length := by
  rw [Nat.even_iff]
  cases h : leftOver l with
  | none =>
    have hl := length_of_none h
    exact iff_of_true rfl (by omega)
  | some a =>
    have hl := length_of_some h
    exact iff_of_false nofun (by omega)

@[simp] theorem pairs_unpair (l : List (α × α)) : pairs (unpair l) = l := by
  induction l with
  | nil => rfl
  | cons p l ih =>
    obtain ⟨a, b⟩ := p
    simp [unpair, ih]

@[simp] theorem leftOver_unpair (l : List (α × α)) : leftOver (unpair l) = none := by
  induction l with
  | nil => rfl
  | cons p l ih => exact ih

@[simp] theorem unpair_length (l : List (α × α)) : (unpair l).length = 2 * l.length := by
  have h := length_of_none (leftOver_unpair l)
  rwa [pairs_unpair] at h

/-- Both items of a pair are items of the list. -/
theorem mem_of_mem_pairs {l : List α} {p : α × α} (h : p ∈ pairs l) : p.1 ∈ l ∧ p.2 ∈ l := by
  induction l using pairs.induct with
  | case1 a b l ih =>
    rw [pairs_cons_cons, List.mem_cons] at h
    rcases h with rfl | h
    · simp
    · obtain ⟨h1, h2⟩ := ih h
      simp [h1, h2]
  | case2 l hne =>
    cases l with
    | nil => cases h
    | cons a l =>
      cases l with
      | nil => cases h
      | cons b l => exact absurd rfl (hne a b l)

/-- The items of the pairs of a list are items of the pairs. -/
theorem mem_unpair {l : List (α × α)} {a : α} (h : a ∈ unpair l) :
    ∃ p ∈ l, a = p.1 ∨ a = p.2 := by
  induction l with
  | nil => cases h
  | cons p l ih =>
    obtain ⟨b, c⟩ := p
    simp only [unpair, List.mem_cons] at h
    rcases h with rfl | rfl | h
    · exact ⟨_, List.mem_cons_self, Or.inl rfl⟩
    · exact ⟨_, List.mem_cons_self, Or.inr rfl⟩
    · obtain ⟨p, hp, ha⟩ := ih h
      exact ⟨p, List.mem_cons_of_mem _ hp, ha⟩

end Pairs
