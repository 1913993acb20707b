import FreeModbus.Lib.ByteMemory
import FreeModbus.Lib.Transition

/-!
# The two ends of a serial line

A transmitter puts a number of items of its buffer on the line, one a turn, and
turns itself off in the turn after the last.  A receiver with room for `size`
items writes what comes in into its buffer, from the start of it for the first
item of a frame.

What a transmitter sends, a receiver that is idle has in its buffer.
-/

namespace SerialLine

open ByteMemory Transition

variable {α : Type*}

/-! ## Transmitter -/

/-- A transmitter: `count` items from index `cur` of `buf` on are still to be sent. -/
structure Transmitter (α : Type*) where
  buf : Mem α
  cur : Nat
  count : Nat
  on : Bool
  line : List α

/-- One turn. -/
def Transmitter.turn (t : Transmitter α) : Transmitter α :=
  if t.count ≠ 0 then
    { t with cur := t.cur + 1, count := t.count - 1, line := t.line ++ [t.buf t.cur] }
  else { t with on := false }

theorem Transmitter.turn_item {t : Transmitter α} (h : t.count ≠ 0) : t.turn =
    { t with cur := t.cur + 1, count := t.count - 1, line := t.line ++ [t.buf t.cur] } :=
  if_pos h

theorem Transmitter.turn_done {t : Transmitter α} (h : t.count = 0) :
    t.turn = { t with on := false } :=
  if_neg (not_not_intro h)

/-- A transmitter that is on sends what it has to send. -/
theorem Transmitter.runs {t : Transmitter α} (hon : t.on = true) :
    ∃ t', Until Transmitter.on Transmitter.turn t t' ∧
      t'.line = t.line ++ slice t.buf t.cur t.count := by
  obtain ⟨buf, cur, count, on, line⟩ := t
  induction count generalizing cur line with
  | zero =>
    refine ⟨⟨buf, cur, 0, false, line⟩, .next hon (.stop rfl), ?_⟩
    exact (List.append_nil line).symm
  | succ count ih =>
    obtain ⟨t', huntil, hline⟩ := ih (cur + 1) (line ++ [buf cur]) hon
    refine ⟨t', .next hon huntil, ?_⟩
    rw [hline, slice_succ, List.append_assoc, List.singleton_append]

/-! ## Receiver -/

/-- What a receiver does with the next item: nothing, begin a frame, or go on with it. -/
inductive Mode where
  | deaf
  | idle
  | receiving
deriving Repr, DecidableEq

/-- A receiver: `pos` items of the frame are in `buf`. -/
structure Receiver (α : Type*) where
  mode : Mode
  buf : Mem α
  pos : Nat

/-- An item comes in. -/
def Receiver.take (size : Nat) (r : Receiver α) (a : α) : Receiver α :=
  match r.mode with
  | .deaf => r
  | .idle => { mode := .receiving, buf := Function.update r.buf 0 a, pos := 1 }
  | .receiving =>
      if r.pos < size then
        { r with buf := Function.update r.buf r.pos a, pos := r.pos + 1 }
      else { r with mode := .deaf }

/-- Items that fit are written behind those that are there. -/
theorem Receiver.takes_receiving {size : Nat} : ∀ (l : List α) {r : Receiver α},
    r.mode = .receiving → r.pos + l.length ≤ size →
      l.foldl (Receiver.take size) r = ⟨.receiving, r.buf.write r.pos l, r.pos + l.length⟩
  | [], ⟨_, _, _⟩, rfl, _ => rfl
  | a :: l, ⟨mode, buf, pos⟩, hmode, hlen => by
      cases hmode
      rw [List.length_cons] at hlen
      dsimp only at hlen
      have hlt : pos < size := by omega
      have hfirst : Receiver.take size ⟨.receiving, buf, pos⟩ a =
          ⟨.receiving, Function.update buf pos a, pos + 1⟩ := if_pos hlt
      have hfit : pos + 1 + l.length ≤ size := by omega
      rw [List.foldl_cons, hfirst, takes_receiving l rfl hfit, Mem.write, List.length_cons,
        Nat.add_assoc, Nat.add_comm 1]

/-- An idle receiver has a frame that fits in its buffer. -/
theorem Receiver.takes {size : Nat} {l : List α} {r : Receiver α} (hidle : r.mode = .idle)
    (h1 : 1 ≤ l.length) (hlen : l.length ≤ size) :
    l.foldl (Receiver.take size) r = ⟨.receiving, r.buf.write 0 l, l.length⟩ := by
  cases l with
  | nil => exact absurd h1 (Nat.not_succ_le_zero 0)
  | cons a l =>
    have hfirst : r.take size a = ⟨.receiving, Function.update r.buf 0 a, 1⟩ := by
      rw [Receiver.take, hidle]
    rw [List.length_cons] at hlen
    have hfit : 1 + l.length ≤ size := by omega
    rw [List.foldl_cons, hfirst, takes_receiving l rfl hfit, Mem.write, List.length_cons,
      Nat.add_comm 1]

end SerialLine
