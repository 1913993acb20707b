import Mathlib.Logic.Function.Basic
import Mathlib.Tactic.IntervalCases

/-!
# Memory behind a pointer

`Mem α` is memory seen through a pointer `p`: `m i` is `p[i]`.  There is no
length.  An access past the end of an array reads or writes whatever lies
behind it, as it does through a C pointer, and a statement about the array
speaks of the indices inside it.

The second half reads byte memory as a sequence of bits, least significant bit
of each byte first, and packs bits and big endian words into bytes.
-/

namespace ByteMemory

variable {α : Type*}

/-- Memory seen through a pointer. -/
abbrev Mem (α : Type*) := Nat → α

/-! ## Pointers into memory -/

/-- The memory seen through the pointer advanced by `k`. -/
def Mem.at (m : Mem α) (k : Nat) : Mem α := fun i => m (k + i)

/-- `m` after the memory behind the pointer advanced by `k` has become `v`. -/
def Mem.splice (m : Mem α) (k : Nat) (v : Mem α) : Mem α :=
  fun i => if i < k then m i else v (i - k)

/-- A list laid over the start of memory. -/
def Mem.ofList : List α → Mem α → Mem α
  | [], m => m
  | a :: as, m => fun i => if i = 0 then a else Mem.ofList as (fun j => m (j + 1)) (i - 1)

theorem Mem.splice_lt {m v : Mem α} {k i : Nat} (h : i < k) : m.splice k v i = m i := by
  simp [Mem.splice, h]

theorem Mem.splice_add (m v : Mem α) (k i : Nat) : m.splice k v (k + i) = v i := by
  simp [Mem.splice]

/-- Putting back what was there changes nothing. -/
@[simp] theorem Mem.splice_at (m : Mem α) (k : Nat) : m.splice k (m.at k) = m := by
  funext i
  by_cases h : i < k
  · simp [Mem.splice, h]
  · simp [Mem.splice, Mem.at, h, Nat.add_sub_cancel' (Nat.le_of_not_lt h)]

/-- An item written behind the advanced pointer. -/
theorem Mem.splice_update (m v : Mem α) (k i : Nat) (a : α) :
    m.splice k (Function.update v i a) = Function.update (m.splice k v) (k + i) a := by
  funext j
  by_cases hj : j = k + i
  · rw [hj, Mem.splice_add, Function.update_self, Function.update_self]
  · rw [Function.update_of_ne hj, Mem.splice, Mem.splice]
    by_cases hk : j < k
    · rw [if_pos hk, if_pos hk]
    · rw [if_neg hk, if_neg hk, Function.update_of_ne (by omega)]

/-- A write in front of the advanced pointer is not seen through it. -/
theorem Mem.at_update_of_lt {m : Mem α} {i k : Nat} (h : i < k) (a : α) :
    Mem.at (Function.update m i a) k = m.at k :=
  funext fun _ => Function.update_of_ne (by omega) _ _

/-! ## Slices -/

/-- The `n` items from index `k` on. -/
def slice (m : Mem α) (k n : Nat) : List α := (List.range n).map fun i => m (k + i)

@[simp] theorem slice_length (m : Mem α) (k n : Nat) : (slice m k n).length = n := by
  simp [slice]

@[simp] theorem slice_zero (m : Mem α) (k : Nat) : slice m k 0 = [] := rfl

theorem slice_getElem (m : Mem α) (k n : Nat) {i : Nat} (h : i < (slice m k n).length) :
    (slice m k n)[i] = m (k + i) := by
  simp [slice]

theorem slice_succ (m : Mem α) (k n : Nat) : slice m k (n + 1) = m k :: slice m (k + 1) n := by
  simp [slice, List.range_succ_eq_map, Function.comp_def, Nat.add_comm, Nat.add_left_comm]

theorem slice_add (m : Mem α) (k n l : Nat) :
    slice m k (n + l) = slice m k n ++ slice m (k + n) l := by
  simp [slice, List.range_add, Function.comp_def, Nat.add_assoc]

theorem slice_congr {m m' : Mem α} {k k' n : Nat} (h : ∀ i < n, m (k + i) = m' (k' + i)) :
    slice m k n = slice m' k' n := by
  simp only [slice]
  exact List.map_congr_left fun i hi => h i (List.mem_range.mp hi)

@[simp] theorem slice_at (m : Mem α) (k l n : Nat) : slice (m.at k) l n = slice m (k + l) n := by
  simp [slice, Mem.at, Nat.add_assoc]

/-- Memory that holds a list from index `k` on, read at one place of it. -/
theorem getElem_of_slice {m : Mem α} {k : Nat} {l : List α} (h : slice m k l.length = l) {i : Nat}
    (hi : i < l.length) : m (k + i) = l[i] := by
  have h1 := slice_getElem m k l.length (i := i) (by simpa using hi)
  rw [← h1]
  exact List.getElem_of_eq h _

theorem Mem.ofList_getElem : ∀ (l : List α) (m : Mem α) {i : Nat} (h : i < l.length),
    Mem.ofList l m i = l[i]
  | [], _, _, h => absurd h (Nat.not_lt_zero _)
  | _ :: _, _, 0, _ => rfl
  | _ :: as, m, i + 1, h => by
      simpa [Mem.ofList] using Mem.ofList_getElem as (fun j => m (j + 1)) (Nat.lt_of_succ_lt_succ h)

theorem slice_ofList (l : List α) (m : Mem α) : slice (Mem.ofList l m) 0 l.length = l := by
  apply List.ext_getElem (slice_length _ _ _)
  intro i h1 h2
  rw [slice_getElem, Nat.zero_add, Mem.ofList_getElem l m h2]

theorem slice_splice (m v : Mem α) (k n : Nat) : slice (m.splice k v) k n = slice v 0 n := by
  refine slice_congr fun i _ => ?_
  rw [Mem.splice_add, Nat.zero_add]

/-- Memory holds a list from index `k` on. -/
def Mem.Holds (m : Mem α) (k : Nat) (l : List α) : Prop := slice m k l.length = l

@[simp] theorem Mem.holds_nil (m : Mem α) (k : Nat) : m.Holds k [] := rfl

@[simp] theorem Mem.holds_cons {m : Mem α} {k : Nat} {a : α} {l : List α} :
    m.Holds k (a :: l) ↔ m k = a ∧ m.Holds (k + 1) l := by
  simp [Mem.Holds, slice_succ]

theorem Mem.holds_append {m : Mem α} : ∀ {k : Nat} {l l' : List α},
    m.Holds k (l ++ l') ↔ m.Holds k l ∧ m.Holds (k + l.length) l'
  | _, [], _ => by simp
  | k, a :: l, l' => by
      rw [List.cons_append, Mem.holds_cons, Mem.holds_cons, Mem.holds_append, List.length_cons,
        and_assoc, show k + (l.length + 1) = k + 1 + l.length by omega]

theorem Mem.holds_ofList (l : List α) (m : Mem α) : (Mem.ofList l m).Holds 0 l := slice_ofList l m

theorem Mem.holds_at {m : Mem α} {k j : Nat} {l : List α} :
    (m.at k).Holds j l ↔ m.Holds (k + j) l := by
  simp [Mem.Holds]

theorem Mem.Holds.congr {m m' : Mem α} {k k' : Nat} {l : List α} (h : m.Holds k l)
    (heq : ∀ i < l.length, m (k + i) = m' (k' + i)) : m'.Holds k' l := by
  rw [Mem.Holds, ← slice_congr heq]
  exact h

/-- An item written outside a list that memory holds. -/
theorem Mem.Holds.update {m : Mem α} {k i : Nat} {l : List α} (h : m.Holds k l)
    (hi : i < k ∨ k + l.length ≤ i) (a : α) : Mem.Holds (Function.update m i a) k l := by
  refine h.congr fun j hj => ?_
  rw [Function.update_of_ne (by omega)]

/-- A list written item by item from index `k` on. -/
def Mem.write : Mem α → Nat → List α → Mem α
  | m, _, [] => m
  | m, k, a :: l => Mem.write (Function.update m k a) (k + 1) l

theorem Mem.write_outside : ∀ (l : List α) (m : Mem α) (k : Nat) {i : Nat},
    (i < k ∨ k + l.length ≤ i) → m.write k l i = m i
  | [], _, _, _, _ => rfl
  | a :: l, m, k, i, h => by
      rw [List.length_cons] at h
      rw [Mem.write, Mem.write_outside l _ (k + 1) (by omega), Function.update_of_ne (by omega)]

theorem Mem.holds_write : ∀ (l : List α) (m : Mem α) (k : Nat), (m.write k l).Holds k l
  | [], _, _ => rfl
  | a :: l, m, k => by
      rw [Mem.holds_cons, Mem.write, Mem.write_outside l _ (k + 1) (by omega),
        Function.update_self]
      exact ⟨rfl, Mem.holds_write l _ (k + 1)⟩

/-- Two memories agree on the first `n` items. -/
def AgreeBelow (n : Nat) (m m' : Mem α) : Prop := ∀ i < n, m i = m' i

/-! ## Bits of a byte memory -/

/-- Bit `i` of byte memory, least significant bit of each byte first. -/
def bitAt (m : Mem (BitVec 8)) (i : Nat) : Bool := (m (i / 8)).getLsbD (i % 8)

theorem bitAt_mul_add (m : Mem (BitVec 8)) (k : Nat) {j : Nat} (hj : j < 8) :
    bitAt m (8 * k + j) = (m k).getLsbD j := by
  unfold bitAt
  rw [show (8 * k + j) / 8 = k by omega, show (8 * k + j) % 8 = j by omega]

theorem bitAt_congr {m m' : Mem (BitVec 8)} {i : Nat} (h : m (i / 8) = m' (i / 8)) :
    bitAt m i = bitAt m' i := by
  simp [bitAt, h]

@[simp] theorem bitAt_at (m : Mem (BitVec 8)) (k i : Nat) :
    bitAt (m.at k) i = bitAt m (8 * k + i) := by
  unfold bitAt Mem.at
  rw [show (8 * k + i) / 8 = k + i / 8 by omega, show (8 * k + i) % 8 = i % 8 by omega]

theorem bitAt_splice_lt {m v : Mem (BitVec 8)} {k i : Nat} (h : i < 8 * k) :
    bitAt (m.splice k v) i = bitAt m i :=
  bitAt_congr (Mem.splice_lt (by omega))

theorem bitAt_splice_ge {m v : Mem (BitVec 8)} {k i : Nat} (h : 8 * k ≤ i) :
    bitAt (m.splice k v) i = bitAt v (i - 8 * k) := by
  unfold bitAt Mem.splice
  rw [if_neg (by omega), show i / 8 - k = (i - 8 * k) / 8 by omega,
    show i % 8 = (i - 8 * k) % 8 by omega]

/-! ## Packing -/

/-- The byte with the given bits. -/
def byteOf (f : Nat → Bool) : BitVec 8 :=
  BitVec.ofBoolListLE [f 0, f 1, f 2, f 3, f 4, f 5, f 6, f 7]

theorem getLsbD_byteOf (f : Nat → Bool) {j : Nat} (hj : j < 8) : (byteOf f).getLsbD j = f j := by
  have h1 : (byteOf f).getLsbD j = [f 0, f 1, f 2, f 3, f 4, f 5, f 6, f 7].getD j false :=
    BitVec.getLsbD_ofBoolListLE
  rw [h1]
  interval_cases j <;> rfl

/-- The number of bytes that `n` bits take. -/
def byteCount (n : Nat) : Nat := (n + 7) / 8

/-- `n` bits packed into bytes, least significant bit first, the rest of the last
byte zero. -/
def packBits (n : Nat) (f : Nat → Bool) : List (BitVec 8) :=
  (List.range (byteCount n)).map fun j => byteOf fun t => decide (8 * j + t < n) && f (8 * j + t)

@[simp] theorem packBits_length (n : Nat) (f : Nat → Bool) :
    (packBits n f).length = byteCount n := by
  simp [packBits]

/-- Memory holds the packing of `n` bits when its bits are those bits followed by
zeros. -/
theorem slice_eq_packBits {m : Mem (BitVec 8)} {k n : Nat} {f : Nat → Bool}
    (h : ∀ i < 8 * byteCount n, bitAt m (8 * k + i) = (decide (i < n) && f i)) :
    slice m k (byteCount n) = packBits n f := by
  unfold slice packBits
  refine List.map_congr_left fun j hj => ?_
  have hlt : j < byteCount n := List.mem_range.mp hj
  apply BitVec.eq_of_getLsbD_eq
  intro t ht
  rw [getLsbD_byteOf _ ht, ← bitAt_mul_add m (k + j) ht,
    show 8 * (k + j) + t = 8 * k + (8 * j + t) by omega]
  exact h (8 * j + t) (by omega)

/-- The bits of memory that holds the packing of `n` bits. -/
theorem bitAt_of_packBits {m : Mem (BitVec 8)} {k n : Nat} {f : Nat → Bool}
    (h : m.Holds k (packBits n f)) {i : Nat} (hi : i < 8 * byteCount n) :
    bitAt m (8 * k + i) = (decide (i < n) && f i) := by
  have hj : i / 8 < (packBits n f).length := by simp; omega
  have h1 : m (k + i / 8) = (packBits n f)[i / 8] := getElem_of_slice h hj
  have h2 : 8 * k + i = 8 * (k + i / 8) + i % 8 := by omega
  have h3 : 8 * (i / 8) + i % 8 = i := by omega
  rw [h2, bitAt_mul_add _ _ (by omega), h1]
  simp only [packBits, List.getElem_map, List.getElem_range]
  rw [getLsbD_byteOf _ (by omega), h3]

/-! ## Big endian words -/

/-- The word with the given high and low byte. -/
def wordOf (hi lo : BitVec 8) : BitVec 16 := hi.setWidth 16 <<< 8 ||| lo.setWidth 16

/-- The two bytes of a word, high byte first. -/
def wordBytes (w : BitVec 16) : List (BitVec 8) := [(w >>> 8).setWidth 8, w.setWidth 8]

/-- The big endian word at index `k`. -/
def wordAt (m : Mem (BitVec 8)) (k : Nat) : BitVec 16 := wordOf (m k) (m (k + 1))

@[simp] theorem wordBytes_length (w : BitVec 16) : (wordBytes w).length = 2 := rfl

theorem wordOf_bytes (w : BitVec 16) : wordOf ((w >>> 8).setWidth 8) (w.setWidth 8) = w := by
  apply BitVec.eq_of_getLsbD_eq
  intro i hi
  by_cases h : i < 8
  · simp [wordOf, h, hi]
  · simp [wordOf, h, hi, show i - 8 < 8 by omega, show 8 + (i - 8) = i by omega]

theorem wordOf_toNat (hi lo : BitVec 8) : (wordOf hi lo).toNat = hi.toNat * 256 + lo.toNat := by
  have h1 : hi.toNat <<< 8 % 2 ^ 16 = hi.toNat <<< 8 := by
    have := hi.isLt
    rw [Nat.shiftLeft_eq]
    omega
  simp only [wordOf, BitVec.toNat_or, BitVec.toNat_shiftLeft, BitVec.toNat_setWidth_of_le
    (show 8 ≤ 16 by decide), h1]
  rw [← Nat.shiftLeft_add_eq_or_of_lt lo.isLt, Nat.shiftLeft_eq]

theorem wordOf_high (hi lo : BitVec 8) : (wordOf hi lo >>> 8).setWidth 8 = hi := by
  apply BitVec.eq_of_toNat_eq
  rw [BitVec.toNat_setWidth, BitVec.toNat_ushiftRight, wordOf_toNat, Nat.shiftRight_eq_div_pow]
  have := hi.isLt
  have := lo.isLt
  omega

theorem wordOf_low (hi lo : BitVec 8) : (wordOf hi lo &&& 0xFF).setWidth 8 = lo := by
  apply BitVec.eq_of_toNat_eq
  rw [BitVec.toNat_setWidth, BitVec.toNat_and, wordOf_toNat]
  have hmask : (hi.toNat * 256 + lo.toNat) &&& (0xFF : BitVec 16).toNat =
      (hi.toNat * 256 + lo.toNat) % 2 ^ 8 := Nat.and_two_pow_sub_one_eq_mod _ 8
  rw [hmask]
  have := lo.isLt
  omega

/-- A word is zero when both its bytes are. -/
theorem wordOf_eq_zero {hi lo : BitVec 8} : wordOf hi lo = 0 ↔ hi = 0 ∧ lo = 0 := by
  constructor
  · intro h
    have h1 := wordOf_high hi lo
    have h2 := wordOf_low hi lo
    rw [h] at h1 h2
    exact ⟨h1.symm, h2.symm⟩
  · rintro ⟨rfl, rfl⟩
    rfl

theorem wordAt_at (m : Mem (BitVec 8)) (k j : Nat) : wordAt (m.at k) j = wordAt m (k + j) := rfl

theorem wordAt_congr {m m' : Mem (BitVec 8)} {k k' : Nat} (h0 : m k = m' k')
    (h1 : m (k + 1) = m' (k' + 1)) : wordAt m k = wordAt m' k' := by
  simp [wordAt, h0, h1]

/-- Memory that holds the bytes of a word holds the word. -/
theorem wordAt_of_holds {m : Mem (BitVec 8)} {k : Nat} {w : BitVec 16}
    (h : m.Holds k (wordBytes w)) : wordAt m k = w := by
  simp only [wordBytes, Mem.holds_cons] at h
  rw [wordAt, h.1, h.2.1, wordOf_bytes]

/-- `n` words packed into bytes. -/
def packWords (n : Nat) (f : Nat → BitVec 16) : List (BitVec 8) :=
  (List.range n).flatMap fun j => wordBytes (f j)

theorem packWords_succ (n : Nat) (f : Nat → BitVec 16) :
    packWords (n + 1) f = wordBytes (f 0) ++ packWords n fun j => f (j + 1) := by
  simp [packWords, List.range_succ_eq_map, List.flatMap_map]

@[simp] theorem packWords_length : ∀ (n : Nat) (f : Nat → BitVec 16),
    (packWords n f).length = 2 * n
  | 0, _ => rfl
  | n + 1, f => by
      rw [packWords_succ, List.length_append, wordBytes_length, packWords_length n]
      omega

theorem packWords_congr {n : Nat} {f g : Nat → BitVec 16} (h : ∀ j < n, f j = g j) :
    packWords n f = packWords n g := by
  simp only [packWords, List.flatMap]
  rw [List.map_congr_left fun j hj => by rw [h j (List.mem_range.mp hj)]]

theorem packBits_congr {n : Nat} {f g : Nat → Bool} (h : ∀ i < n, f i = g i) :
    packBits n f = packBits n g := by
  have hb : ∀ i, (decide (i < n) && f i) = (decide (i < n) && g i) := by
    intro i
    by_cases hi : i < n
    · rw [h i hi]
    · simp [hi]
  simp only [packBits, hb]

/-- The words of memory that holds packed words. -/
theorem wordAt_of_packWords {m : Mem (BitVec 8)} : ∀ {n k : Nat} {f : Nat → BitVec 16},
    m.Holds k (packWords n f) → ∀ j < n, wordAt m (k + 2 * j) = f j
  | 0, _, _, _, _, hj => absurd hj (Nat.not_lt_zero _)
  | n + 1, k, f, h, j, hj => by
      rw [packWords_succ, Mem.holds_append] at h
      cases j with
      | zero => exact wordAt_of_holds h.1
      | succ j =>
        rw [show k + 2 * (j + 1) = k + 2 + 2 * j by omega]
        exact wordAt_of_packWords h.2 j (Nat.lt_of_succ_lt_succ hj)

end ByteMemory
