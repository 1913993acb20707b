import FreeModbus.Lib.ByteMemory

/-!
# Checked access to memory

An array of `size` items behind a pointer, read and written only inside.  A program
over checked accesses has no result once an access falls outside, and where it has
one it is the result of the same program over plain memory.

That is stated as `onlyIf`: what a checked program computes is what the plain one
computes, under the condition that its indices are inside.  The rules put the
conditions of the parts of a program together.
-/

namespace ByteMemory

variable {α β : Type*}

/-! ## Results under a condition -/

/-- A result that is there only under a condition. -/
def onlyIf (p : Prop) [Decidable p] (a : α) : Option α := if p then some a else none

section OnlyIf

variable {p q : Prop} [Decidable p] [Decidable q] {a : α} {b : β}

theorem onlyIf_pos (h : p) : onlyIf p a = some a := if_pos h

theorem onlyIf_neg (h : ¬ p) : onlyIf p a = none := if_neg h

@[simp] theorem onlyIf_isSome : (onlyIf p a).isSome = true ↔ p := by
  by_cases h : p
  · rw [onlyIf_pos h]
    exact iff_of_true rfl h
  · rw [onlyIf_neg h]
    exact iff_of_false Bool.false_ne_true h

/-- A result under a condition, with a result under a further condition after it. -/
theorem onlyIf_bind (f : α → Option β) (h : p → f a = onlyIf q b) :
    (onlyIf p a).bind f = onlyIf (p ∧ q) b := by
  by_cases hp : p
  · rw [onlyIf_pos hp, Option.bind_some, h hp]
    by_cases hq : q
    · rw [onlyIf_pos hq, onlyIf_pos ⟨hp, hq⟩]
    · rw [onlyIf_neg hq, onlyIf_neg fun hpq => hq hpq.2]
  · rw [onlyIf_neg hp, onlyIf_neg fun hpq => hp hpq.1, Option.bind_none]

theorem onlyIf_bind_onlyIf (f : α → β) :
    ((onlyIf p a).bind fun a' => onlyIf q (f a')) = onlyIf (p ∧ q) (f a) :=
  onlyIf_bind _ fun _ => rfl

theorem onlyIf_map (f : α → β) : (onlyIf p a).map f = onlyIf p (f a) := by
  by_cases h : p
  · rw [onlyIf_pos h, onlyIf_pos h, Option.map_some]
  · rw [onlyIf_neg h, onlyIf_neg h, Option.map_none]

theorem onlyIf_congr (h : p ↔ q) : onlyIf p a = onlyIf q a := by
  simp only [onlyIf, h]

theorem some_eq_onlyIf (h : p) : some a = onlyIf p a := (onlyIf_pos h).symm

end OnlyIf

/-! ## Accesses -/

/-- `m[i]` is read, in an array of `size` items. -/
def Mem.readIn (size : Nat) (m : Mem α) (i : Nat) : Option α := onlyIf (i < size) (m i)

/-- `m[i]` is written, in an array of `size` items. -/
def Mem.writeIn (size : Nat) (m : Mem α) (i : Nat) (a : α) : Option (Mem α) :=
  onlyIf (i < size) (Function.update m i a)

/-- A list is written item by item from index `k` on. -/
def Mem.writeListIn (size : Nat) : Mem α → Nat → List α → Option (Mem α)
  | m, _, [] => some m
  | m, k, a :: l => (m.writeIn size k a).bind fun m' => Mem.writeListIn size m' (k + 1) l

/-- A list is written exactly if its last item is inside. -/
theorem Mem.writeListIn_eq (size : Nat) (l : List α) (m : Mem α) (k : Nat) :
    m.writeListIn size k l = onlyIf (l = [] ∨ k + l.length ≤ size) (m.write k l) := by
  induction l generalizing m k with
  | nil => exact some_eq_onlyIf (Or.inl rfl)
  | cons a l ih =>
    rw [Mem.writeListIn, Mem.writeIn,
      onlyIf_bind (fun m' => Mem.writeListIn size m' (k + 1) l) fun _ => ih _ _]
    refine onlyIf_congr ?_
    cases l with
    | nil =>
      simp only [true_or, and_true, reduceCtorEq, false_or, List.length_cons, List.length_nil]
      omega
    | cons b l =>
      simp only [reduceCtorEq, false_or, List.length_cons]
      omega

/-- The `n` items from index `k` on are read one by one. -/
def Mem.readListIn (size : Nat) (m : Mem α) : (k n : Nat) → Option (List α)
  | _, 0 => some []
  | k, n + 1 =>
      (m.readIn size k).bind fun a => (Mem.readListIn size m (k + 1) n).map fun l => a :: l

/-- A list is read exactly if its last item is inside. -/
theorem Mem.readListIn_eq (size : Nat) (m : Mem α) (k n : Nat) :
    m.readListIn size k n = onlyIf (n = 0 ∨ k + n ≤ size) (slice m k n) := by
  induction n generalizing k with
  | zero => exact some_eq_onlyIf (Or.inl rfl)
  | succ n ih =>
    rw [Mem.readListIn, Mem.readIn, onlyIf_bind _ fun _ => by rw [ih, onlyIf_map], slice_succ]
    exact onlyIf_congr (by omega)

end ByteMemory
