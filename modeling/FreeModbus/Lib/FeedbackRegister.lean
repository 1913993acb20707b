import Mathlib.Data.Bool.Basic
import Mathlib.Data.Nat.Bits
import Mathlib.Logic.Function.Iterate

/-!
# Feedback registers

A register of `w` bits that absorbs a stream of bits, one a step: the bit is
added to the lowest place, the register moves one place down, and if a one falls
out the feedback word is added.  That is a division of polynomials over the two
element field, and the register is a remainder.

All is linear, so the register after a corrupted stream differs from the one
after the stream itself by the register after the error alone.  An error goes
undetected exactly if it leaves zero.  Three kinds of errors do not: a burst that
fits the register, an odd number of ones if the feedback word has an odd number
of them, and two ones at a distance that is not a period.
-/

namespace FeedbackRegister

variable {w : Nat}

/-! ## Steps -/

/-- The register with a bit in its lowest place. -/
def bitOf (w : Nat) (b : Bool) : BitVec w := (BitVec.ofBool b).setWidth w

/-- One step without input. -/
def shift (poly r : BitVec w) : BitVec w :=
  if r.getLsbD 0 then (r >>> 1) ^^^ poly else r >>> 1

/-- One step with an input bit. -/
def feed (poly r : BitVec w) (b : Bool) : BitVec w := shift poly (r ^^^ bitOf w b)

/-- The register after a stream. -/
def feedAll (poly r : BitVec w) (bits : List Bool) : BitVec w := bits.foldl (feed poly) r

variable (poly : BitVec w)

theorem getLsbD_bitOf (b : Bool) {i : Nat} (hi : i < w) :
    (bitOf w b).getLsbD i = (decide (i = 0) && b) := by
  rw [bitOf, BitVec.getLsbD_setWidth, BitVec.getLsbD_ofBool]
  simp [hi]

@[simp] theorem bitOf_false : bitOf w false = 0 := by
  apply BitVec.eq_of_getLsbD_eq
  intro i hi
  rw [getLsbD_bitOf _ hi]
  simp

theorem bitOf_xor (a b : Bool) : bitOf w (a ^^ b) = bitOf w a ^^^ bitOf w b := by
  apply BitVec.eq_of_getLsbD_eq
  intro i hi
  rw [BitVec.getLsbD_xor, getLsbD_bitOf _ hi, getLsbD_bitOf _ hi, getLsbD_bitOf _ hi]
  cases decide (i = 0) <;> simp

/-! ## Linearity -/

@[simp] theorem shift_zero : shift poly 0 = 0 := by
  simp [shift]

theorem shift_xor (r s : BitVec w) : shift poly (r ^^^ s) = shift poly r ^^^ shift poly s := by
  apply BitVec.eq_of_getLsbD_eq
  intro i hi
  unfold shift
  rw [BitVec.getLsbD_xor]
  cases r.getLsbD 0 <;> cases s.getLsbD 0 <;>
    simp [BitVec.ushiftRight_xor_distrib, Bool.xor_left_comm, Bool.xor_comm]

theorem iterate_shift_zero (n : Nat) : (shift poly)^[n] 0 = 0 :=
  Function.iterate_fixed (shift_zero poly) n

theorem iterate_shift_xor (n : Nat) (r s : BitVec w) :
    (shift poly)^[n] (r ^^^ s) = (shift poly)^[n] r ^^^ (shift poly)^[n] s := by
  induction n generalizing r s with
  | zero => rfl
  | succ n ih => rw [Function.iterate_succ_apply, shift_xor, ih]; rfl

theorem feed_xor (r s : BitVec w) (a b : Bool) :
    feed poly (r ^^^ s) (a ^^ b) = feed poly r a ^^^ feed poly s b := by
  unfold feed
  rw [← shift_xor, bitOf_xor]
  congr 1
  ac_rfl

/-- The register after the sum of two streams. -/
theorem feedAll_xor (r s : BitVec w) : ∀ {a b : List Bool}, a.length = b.length →
    feedAll poly (r ^^^ s) (List.zipWith xor a b) = feedAll poly r a ^^^ feedAll poly s b := by
  intro a
  induction a generalizing r s with
  | nil =>
    intro b h
    rw [List.length_eq_zero_iff.mp h.symm]
    rfl
  | cons x a ih =>
    intro b h
    cases b with
    | nil => cases h
    | cons y b =>
      have hstep := ih (feed poly r x) (feed poly s y) (Nat.succ.inj h)
      rw [← feed_xor] at hstep
      exact hstep

theorem feedAll_append (r : BitVec w) (a b : List Bool) :
    feedAll poly r (a ++ b) = feedAll poly (feedAll poly r a) b := List.foldl_append

@[simp] theorem feed_false (r : BitVec w) : feed poly r false = shift poly r := by
  rw [feed, bitOf_false]
  exact congrArg (shift poly) BitVec.xor_zero

theorem feedAll_replicate_false (r : BitVec w) (n : Nat) :
    feedAll poly r (List.replicate n false) = (shift poly)^[n] r := by
  induction n generalizing r with
  | zero => rfl
  | succ n ih =>
    rw [List.replicate_succ, Function.iterate_succ_apply, ← feed_false]
    exact ih _

/-! ## The register as a word -/

/-- A word with zeros in its `n` lowest places only moves down. -/
theorem iterate_shift_high : ∀ {n : Nat} {r : BitVec w}, (∀ i < n, r.getLsbD i = false) →
    (shift poly)^[n] r = r >>> n
  | 0, r, _ => by simp
  | n + 1, r, h => by
      have h0 : shift poly r = r >>> 1 := by
        simp [shift, h 0 (Nat.succ_pos n)]
      rw [Function.iterate_succ_apply, h0, iterate_shift_high, ← BitVec.shiftRight_add,
        Nat.add_comm 1]
      intro i hi
      rw [BitVec.getLsbD_ushiftRight]
      exact h _ (by omega)

/-- The first `w` bits of a stream as a word, the first one lowest. -/
def word (w : Nat) : List Bool → BitVec w
  | [] => 0
  | b :: bits => bitOf w b ^^^ (word w bits <<< 1)

theorem getLsbD_word (bits : List Bool) {i : Nat} (hi : i < w) :
    (word w bits).getLsbD i = bits.getD i false := by
  induction bits generalizing i with
  | nil => simp [word]
  | cons b bits ih =>
    rw [word, BitVec.getLsbD_xor, getLsbD_bitOf _ hi, BitVec.getLsbD_shiftLeft]
    cases i with
    | zero => simp
    | succ i => simp [hi, ih (Nat.lt_of_succ_lt hi)]

/-- A word that is moved up and then shifted is there again, if nothing fell out. -/
theorem shift_word {bits : List Bool} (h : bits.length < w) :
    shift poly (word w bits <<< 1) = word w bits := by
  have hlow : ∀ i < 1, (word w bits <<< 1).getLsbD i = false := by
    intro i hi
    rw [BitVec.getLsbD_shiftLeft]
    simp [hi]
  have hshift := iterate_shift_high poly hlow
  rw [Function.iterate_one] at hshift
  rw [hshift]
  apply BitVec.eq_of_getLsbD_eq
  intro i hi
  rw [BitVec.getLsbD_ushiftRight, BitVec.getLsbD_shiftLeft]
  by_cases hlast : 1 + i < w
  · simp [hlast]
  · have hlen : bits.length ≤ i := by omega
    rw [getLsbD_word _ hi]
    simp [hlast, List.getElem?_eq_none hlen]

/-- A stream that fits the register can be added to it at once. -/
theorem feedAll_eq_iterate {bits : List Bool} (h : bits.length ≤ w) (r : BitVec w) :
    feedAll poly r bits = (shift poly)^[bits.length] (r ^^^ word w bits) := by
  induction bits generalizing r with
  | nil => simp [feedAll, word]
  | cons b bits ih =>
    have hword := shift_word poly (Nat.lt_of_succ_le h)
    have hstep : shift poly (r ^^^ word w (b :: bits)) = feed poly r b ^^^ word w bits := by
      rw [word, ← BitVec.xor_assoc, shift_xor, hword, feed]
    rw [List.length_cons, Function.iterate_succ_apply, hstep]
    exact ih (Nat.le_of_succ_le h) _

/-! ## Bursts -/

/-- The feedback word has a one in its highest place. -/
def Monic : Prop := poly.msb = true

variable {poly}

/-- Nothing but zero is shifted to zero. -/
theorem Monic.shift_eq_zero (hp : Monic poly) {r : BitVec w} (h : shift poly r = 0) : r = 0 := by
  unfold shift at h
  split at h
  · have hmsb := congrArg BitVec.msb (BitVec.xor_eq_zero_iff.mp h)
    rw [hp] at hmsb
    simp at hmsb
  · rename_i hlow
    apply BitVec.eq_of_getLsbD_eq
    intro i hi
    cases i with
    | zero => simpa using hlow
    | succ i =>
      have hbit := congrArg (BitVec.getLsbD · i) h
      simpa [BitVec.getLsbD_ushiftRight, Nat.add_comm 1] using hbit

theorem Monic.iterate_eq_zero (hp : Monic poly) {n : Nat} {r : BitVec w}
    (h : (shift poly)^[n] r = 0) : r = 0 := by
  induction n generalizing r with
  | zero => exact h
  | succ n ih => exact hp.shift_eq_zero (ih h)

/-- A burst no longer than the register leaves a remainder. -/
theorem Monic.burst_ne_zero (hp : Monic poly) {i j : Nat} {burst : List Bool}
    (hlen : burst.length ≤ w) (hone : true ∈ burst) :
    feedAll poly 0 (List.replicate i false ++ burst ++ List.replicate j false) ≠ 0 := by
  intro h
  have hzero_xor : 0 ^^^ word w burst = word w burst := BitVec.zero_xor
  rw [feedAll_append, feedAll_append, feedAll_replicate_false, feedAll_replicate_false,
    iterate_shift_zero, feedAll_eq_iterate poly hlen, hzero_xor] at h
  have hzero := hp.iterate_eq_zero (hp.iterate_eq_zero h)
  obtain ⟨k, hk, hget⟩ := List.mem_iff_getElem.mp hone
  have hbit := getLsbD_word burst (Nat.lt_of_lt_of_le hk hlen)
  simp [hzero, List.getElem?_eq_getElem hk, hget] at hbit

/-! ## Parity -/

/-- The parity of the `n` lowest bits. -/
def parityBelow (r : BitVec w) : Nat → Bool
  | 0 => false
  | n + 1 => parityBelow r n ^^ r.getLsbD n

/-- The parity of a word. -/
def parity (r : BitVec w) : Bool := parityBelow r w

theorem parity_xor (r s : BitVec w) : parity (r ^^^ s) = (parity r ^^ parity s) := by
  have h : ∀ n, parityBelow (r ^^^ s) n = (parityBelow r n ^^ parityBelow s n) := by
    intro n
    induction n with
    | zero => rfl
    | succ n ih =>
      simp only [parityBelow, ih, BitVec.getLsbD_xor, Bool.xor_assoc, Bool.xor_left_comm]
  exact h w

/-- Moving down loses the parity of the lowest bit. -/
theorem parity_ushiftRight (r : BitVec w) : parity (r >>> 1) = (parity r ^^ r.getLsbD 0) := by
  have h : ∀ n, (parityBelow (r >>> 1) n ^^ r.getLsbD 0) = parityBelow r (n + 1) := by
    intro n
    induction n with
    | zero => simp [parityBelow]
    | succ n ih =>
      rw [parityBelow, parityBelow, ← ih, BitVec.getLsbD_ushiftRight, Nat.add_comm 1,
        Bool.xor_assoc, Bool.xor_assoc, Bool.xor_comm (r.getLsbD 0)]
  have hlast : parityBelow r (w + 1) = parity r := by
    rw [parityBelow, BitVec.getLsbD_of_ge r w (Nat.le_refl w), Bool.xor_false]
    rfl
  rw [← hlast, ← h w, Bool.xor_assoc, Bool.xor_self, Bool.xor_false]
  rfl

/-- With an odd feedback word steps keep the parity. -/
theorem parity_shift (hodd : parity poly = true) (r : BitVec w) :
    parity (shift poly r) = parity r := by
  unfold shift
  cases hlow : r.getLsbD 0 with
  | true =>
    rw [if_pos rfl, parity_xor, parity_ushiftRight, hodd, hlow]
    simp
  | false =>
    rw [if_neg Bool.false_ne_true, parity_ushiftRight, hlow]
    simp

theorem parity_bitOf (hw : 0 < w) (b : Bool) : parity (bitOf w b) = b := by
  have h : ∀ n, n < w → parityBelow (bitOf w b) (n + 1) = b := by
    intro n
    induction n with
    | zero => intro hn; simp [parityBelow, getLsbD_bitOf b hn]
    | succ n ih =>
      intro hn
      rw [parityBelow, ih (Nat.lt_of_succ_lt hn), getLsbD_bitOf b hn]
      simp
  obtain ⟨n, rfl⟩ := Nat.exists_eq_add_one.mpr hw
  exact h n (Nat.lt_succ_self n)

/-- The parity of the register is that of the ones it absorbed. -/
theorem parity_feedAll (hodd : parity poly = true) (bits : List Bool) (r : BitVec w) :
    parity (feedAll poly r bits) = (parity r ^^ (bits.count true).bodd) := by
  have hw : 0 < w := by
    cases w with
    | zero => cases hodd
    | succ w => exact Nat.succ_pos w
  induction bits generalizing r with
  | nil => simp [feedAll]
  | cons b bits ih =>
    have hfeed : parity (feed poly r b) = (parity r ^^ b) := by
      rw [feed, parity_shift hodd, parity_xor, parity_bitOf hw]
    have hrest := ih (feed poly r b)
    rw [hfeed] at hrest
    cases b with
    | true =>
      rw [List.count_cons_self, Nat.bodd_succ, ← Bool.true_xor, ← Bool.xor_assoc]
      exact hrest
    | false =>
      rw [List.count_cons_of_ne (by decide)]
      rw [Bool.xor_false] at hrest
      exact hrest

/-- An odd number of ones leaves a remainder. -/
theorem odd_ne_zero (hodd : parity poly = true) {bits : List Bool}
    (h : bits.count true % 2 = 1) : feedAll poly 0 bits ≠ 0 := by
  intro hz
  have hpar := parity_feedAll hodd bits 0
  have hzero : parity (0 : BitVec w) = false := by
    have hxor := parity_xor (0 : BitVec w) 0
    rwa [BitVec.xor_self, Bool.xor_self] at hxor
  rw [hz, hzero, Bool.false_xor] at hpar
  rw [Nat.mod_two_of_bodd, ← hpar] at h
  cases h

/-! ## Pairs -/

/-- A stream without ones only shifts. -/
theorem feedAll_of_count_zero {bits : List Bool} (h : bits.count true = 0) (r : BitVec w) :
    feedAll poly r bits = (shift poly)^[bits.length] r := by
  have hall : bits = List.replicate bits.length false := by
    refine List.eq_replicate_iff.mpr ⟨rfl, fun b hb => ?_⟩
    cases b with
    | true => exact absurd hb (List.count_eq_zero.mp h)
    | false => rfl
  rw [hall, feedAll_replicate_false, List.length_replicate]

/-- A single one cancels the register only where it has become that one. -/
theorem Monic.single (hp : Monic poly) {bits : List Bool} (h : bits.count true = 1) {r : BitVec w}
    (hz : feedAll poly r bits = 0) :
    ∃ k < bits.length, (shift poly)^[k] r = bitOf w true := by
  induction bits generalizing r with
  | nil => cases h
  | cons b bits ih =>
    cases b with
    | true =>
      rw [List.count_cons_self] at h
      have hrest : feedAll poly (feed poly r true) bits = 0 := hz
      rw [feedAll_of_count_zero (Nat.succ.inj h)] at hrest
      have hr := hp.shift_eq_zero (hp.iterate_eq_zero hrest)
      exact ⟨0, Nat.succ_pos _, BitVec.xor_eq_zero_iff.mp hr⟩
    | false =>
      rw [List.count_cons_of_ne (by decide)] at h
      have hrest : feedAll poly (feed poly r false) bits = 0 := hz
      rw [feed_false] at hrest
      obtain ⟨k, hk, heq⟩ := ih h hrest
      exact ⟨k + 1, Nat.succ_lt_succ hk, heq⟩

/-- Two ones leave a remainder, unless their distance is a period of the register. -/
theorem Monic.pair_ne_zero (hp : Monic poly) {bits : List Bool} (h : bits.count true = 2)
    (hperiod : ∀ k, 0 < k → k < bits.length → (shift poly)^[k] (bitOf w true) ≠ bitOf w true) :
    feedAll poly 0 bits ≠ 0 := by
  induction bits with
  | nil => cases h
  | cons b bits ih =>
    intro hz
    have hrest : feedAll poly (feed poly 0 b) bits = 0 := hz
    cases b with
    | true =>
      rw [List.count_cons_self] at h
      have hfeed : feed poly 0 true = shift poly (bitOf w true) :=
        congrArg (shift poly) BitVec.zero_xor
      rw [hfeed] at hrest
      obtain ⟨k, hk, heq⟩ := hp.single (Nat.succ.inj h) hrest
      exact hperiod (k + 1) (Nat.succ_pos k) (Nat.succ_lt_succ hk) heq
    | false =>
      rw [List.count_cons_of_ne (by decide)] at h
      rw [feed_false, shift_zero] at hrest
      exact ih h (fun k hk hlt => hperiod k hk (Nat.lt_succ_of_lt hlt)) hrest

/-- The next `n` words of the register all differ from `goal`. -/
def avoids (poly goal : BitVec w) : Nat → BitVec w → Bool
  | 0, _ => true
  | n + 1, r => shift poly r != goal && avoids poly goal n (shift poly r)

theorem avoids_iterate {goal : BitVec w} : ∀ {n : Nat} {r : BitVec w},
    avoids poly goal n r = true → ∀ k, 0 < k → k ≤ n → (shift poly)^[k] r ≠ goal
  | 0, _, _, k, hk, hn => absurd hk (Nat.not_lt.mpr hn)
  | n + 1, r, h, k, hk, hn => by
      rw [avoids, Bool.and_eq_true, bne_iff_ne] at h
      obtain ⟨k, rfl⟩ := Nat.exists_eq_add_one.mpr hk
      rw [Function.iterate_succ_apply]
      cases k with
      | zero => exact h.1
      | succ k => exact avoids_iterate h.2 (k + 1) (Nat.succ_pos k) (Nat.le_of_succ_le_succ hn)

end FeedbackRegister
