import FreeModbus.Lib.Blocking
import FreeModbus.Lib.EventFlags

/-!
# Blocking receives on sticky flags

The flags of an event object as a `Blocking.Spec`: sends are the updates and receives the
requests.  Where receives clear what they get, no flag is got more often than it was sent.
-/

namespace BlockingFlags

open Blocking EventFlags

variable {w : Nat}

/-- What a receive asks for. -/
structure Receive (w : Nat) where
  mask : BitVec w
  /-- All flags of the mask, or any. -/
  all : Bool
  clear : Bool

/-- The condition of a receive. -/
def Receive.Holds (q : Receive w) (flags : BitVec w) : Prop :=
  if q.all then received flags q.mask = q.mask else received flags q.mask ≠ 0

instance (q : Receive w) (flags : BitVec w) : Decidable (q.Holds flags) := by
  unfold Receive.Holds
  infer_instance

/-- What a receive leaves. -/
def Receive.left (q : Receive w) (flags : BitVec w) : BitVec w :=
  if q.clear then cleared flags q.mask else flags

theorem Receive.of_left_getLsbD {p : Receive w} {flags : BitVec w} {k : Nat}
    (h : (p.left flags).getLsbD k = true) : flags.getLsbD k = true := by
  unfold Receive.left at h
  split at h
  · simp only [cleared, BitVec.getLsbD_and, Bool.and_eq_true] at h
    exact h.1
  · exact h

/-- A condition that flags meet was met before some of them were cleared. -/
theorem Receive.Holds.of_left {p q : Receive w} {flags : BitVec w} (h : q.Holds (p.left flags)) :
    q.Holds flags := by
  unfold Receive.Holds at h ⊢
  split at h
  · rw [if_pos ‹_›]
    refine BitVec.eq_of_getLsbD_eq fun k hk => ?_
    have hbit := congrArg (·.getLsbD k) h
    simp only [received, BitVec.getLsbD_and] at hbit ⊢
    cases hmask : q.mask.getLsbD k with
    | false => rw [Bool.and_false]
    | true =>
      rw [hmask, Bool.and_true] at hbit
      rw [Receive.of_left_getLsbD hbit, Bool.and_true]
  · rw [if_neg ‹_›]
    refine fun hzero => h (BitVec.eq_of_getLsbD_eq fun k hk => ?_)
    rw [received, BitVec.getLsbD_and]
    cases hleft : (p.left flags).getLsbD k with
    | false => simp
    | true =>
      have hbit := congrArg (·.getLsbD k) hzero
      rw [received, BitVec.getLsbD_and, Receive.of_left_getLsbD hleft] at hbit
      exact hbit

/-- Sends and receives of flags. -/
def flagSpec (w : Nat) : Spec (BitVec w) (BitVec w) (Receive w) (BitVec w) where
  update set flags := send flags set
  Holds := Receive.Holds
  gives q flags := received flags q.mask
  left := Receive.left

/-- A clearing receive takes what it leaves no more. -/
theorem Receive.take_flag (q : Receive w) (flags : BitVec w) (b : Nat) :
    ((q.left flags).getLsbD b).toNat + (q.clear && (received flags q.mask).getLsbD b).toNat =
      (flags.getLsbD b).toNat := by
  by_cases hb : b < w
  · cases hq : q.clear with
    | false => simp [Receive.left, hq]
    | true =>
      simp only [Receive.left, hq, received, cleared, BitVec.getLsbD_and,
        BitVec.getLsbD_not, hb, decide_true, Bool.true_and, if_true]
      cases flags.getLsbD b <;> cases q.mask.getLsbD b <;> rfl
  · simp [BitVec.getLsbD_of_ge _ _ (Nat.le_of_not_lt hb)]

/-- One flag: sends put it in, and clearing receives take it. -/
def flagWeight (b : Nat) : Weight (flagSpec w) where
  inside flags := (flags.getLsbD b).toNat
  put set := (set.getLsbD b).toNat
  taken q got := (q.clear && got.getLsbD b).toNat
  update_le set flags := by
    have hor : ((send flags set).getLsbD b).toNat ≤
        (flags.getLsbD b).toNat + (set.getLsbD b).toNat := by
      rw [send, BitVec.getLsbD_or]
      cases flags.getLsbD b <;> cases set.getLsbD b <;> decide
    exact hor
  take_le q flags _ := (q.take_flag flags b).le

end BlockingFlags
