import FreeModbus.Lib.ByteMemory

/-!
# The data model of a register device

A device has four maps: coils and discrete inputs of one bit, input and holding
registers of one word.  A request reads a range of one map, writes a range of
one map, or writes and then reads holding registers.  `Store.exec` is the
meaning of a request.  It is defined for every size of the maps, and `none` is
its answer to a range that is not inside the map.

`Request.pdu` and `Reply.pdu` are the byte formats: words high byte first, bits
least significant first with zeros behind the last one.
-/

namespace DataModel

open ByteMemory

/-! ## Maps of a fixed size -/

/-- `N` items, by address. -/
abbrev Cells (N : Nat) (α : Type) := Fin N → α

namespace Cells

variable {N : Nat} {α : Type}

/-- The item at an address, the default outside the map. -/
def get [Inhabited α] (c : Cells N α) (i : Nat) : α := if h : i < N then c ⟨i, h⟩ else default

/-- The `n` items from address `a` on. -/
def load [Inhabited α] (c : Cells N α) (a n : Nat) : List α :=
  (List.range n).map fun j => c.get (a + j)

/-- The map with a list written from address `a` on. -/
def put [Inhabited α] (c : Cells N α) (a : Nat) (vs : List α) : Cells N α := fun i =>
  if a ≤ i.val ∧ i.val < a + vs.length then vs.getD (i.val - a) default else c i

@[simp] theorem load_length [Inhabited α] (c : Cells N α) (a n : Nat) :
    (c.load a n).length = n := by
  simp [load]

theorem load_getD [Inhabited α] (c : Cells N α) (a : Nat) {n j : Nat} (hj : j < n) (d : α) :
    (c.load a n).getD j d = c.get (a + j) := by
  simp [load, List.getD_eq_getElem?_getD, hj]

theorem get_of_lt [Inhabited α] (c : Cells N α) {i : Nat} (h : i < N) : c.get i = c ⟨i, h⟩ :=
  dif_pos h

end Cells

/-! ## Stores -/

/-- The sizes of the four maps. -/
structure Shape where
  coils : Nat
  discretes : Nat
  inputs : Nat
  holdings : Nat

/-- The four maps of a device. -/
@[ext] structure Store (σ : Shape) where
  coils : Cells σ.coils Bool
  discretes : Cells σ.discretes Bool
  inputs : Cells σ.inputs (BitVec 16)
  holdings : Cells σ.holdings (BitVec 16)

/-! ## Requests -/

/-- A request.  Addresses are zero based. -/
inductive Request where
  | readCoils (a n : BitVec 16)
  | readDiscretes (a n : BitVec 16)
  | readHoldings (a n : BitVec 16)
  | readInputs (a n : BitVec 16)
  | writeCoil (a : BitVec 16) (v : Bool)
  | writeHolding (a v : BitVec 16)
  | writeCoils (a : BitVec 16) (vs : List Bool)
  | writeHoldings (a : BitVec 16) (vs : List (BitVec 16))
  | readWriteHoldings (ra rn wa : BitVec 16) (vs : List (BitVec 16))

/-- What a request brings back. -/
inductive Reply where
  | bits (vs : List Bool)
  | words (vs : List (BitVec 16))
  | written

/-- The range `a, …, a + n - 1` is inside a map of size `N`. -/
abbrev Inside (N : Nat) (a : BitVec 16) (n : Nat) : Prop := a.toNat + n ≤ N

/-- The meaning of a request: the reply and the store after it, or `none` for a range
that is not inside the map. -/
def Store.exec {σ : Shape} (s : Store σ) : Request → Option (Reply × Store σ)
  | .readCoils a n =>
      if Inside σ.coils a n.toNat then some (.bits (s.coils.load a.toNat n.toNat), s) else none
  | .readDiscretes a n =>
      if Inside σ.discretes a n.toNat then
        some (.bits (s.discretes.load a.toNat n.toNat), s)
      else none
  | .readHoldings a n =>
      if Inside σ.holdings a n.toNat then
        some (.words (s.holdings.load a.toNat n.toNat), s)
      else none
  | .readInputs a n =>
      if Inside σ.inputs a n.toNat then some (.words (s.inputs.load a.toNat n.toNat), s) else none
  | .writeCoil a v =>
      if Inside σ.coils a 1 then
        some (.written, { s with coils := s.coils.put a.toNat [v] })
      else none
  | .writeHolding a v =>
      if Inside σ.holdings a 1 then
        some (.written, { s with holdings := s.holdings.put a.toNat [v] })
      else none
  | .writeCoils a vs =>
      if Inside σ.coils a vs.length then
        some (.written, { s with coils := s.coils.put a.toNat vs })
      else none
  | .writeHoldings a vs =>
      if Inside σ.holdings a vs.length then
        some (.written, { s with holdings := s.holdings.put a.toNat vs })
      else none
  | .readWriteHoldings ra rn wa vs =>
      if Inside σ.holdings wa vs.length ∧ Inside σ.holdings ra rn.toNat then
        let holdings := s.holdings.put wa.toNat vs
        some (.words (holdings.load ra.toNat rn.toNat), { s with holdings := holdings })
      else none

/-- The store after a request.  A request that is not inside the map changes nothing. -/
def Store.after {σ : Shape} (s : Store σ) (r : Request) : Store σ :=
  match s.exec r with
  | some (_, s') => s'
  | none => s

/-! ## Byte formats -/

/-- The function code of a request. -/
def Request.code : Request → BitVec 8
  | .readCoils _ _ => 1
  | .readDiscretes _ _ => 2
  | .readHoldings _ _ => 3
  | .readInputs _ _ => 4
  | .writeCoil _ _ => 5
  | .writeHolding _ _ => 6
  | .writeCoils _ _ => 15
  | .writeHoldings _ _ => 16
  | .readWriteHoldings _ _ _ _ => 23

/-- Bits packed into bytes. -/
def packBools (vs : List Bool) : List (BitVec 8) := packBits vs.length fun i => vs.getD i false

/-- Words packed into bytes. -/
def packWordList (vs : List (BitVec 16)) : List (BitVec 8) :=
  packWords vs.length fun i => vs.getD i 0

/-- The first five bytes of a request: code, address, and count or value. -/
def Request.head : Request → List (BitVec 8)
  | .readCoils a n => 1 :: (wordBytes a ++ wordBytes n)
  | .readDiscretes a n => 2 :: (wordBytes a ++ wordBytes n)
  | .readHoldings a n => 3 :: (wordBytes a ++ wordBytes n)
  | .readInputs a n => 4 :: (wordBytes a ++ wordBytes n)
  | .writeCoil a v => 5 :: (wordBytes a ++ [if v then 0xFF else 0x00, 0x00])
  | .writeHolding a v => 6 :: (wordBytes a ++ wordBytes v)
  | .writeCoils a vs => 15 :: (wordBytes a ++ wordBytes (BitVec.ofNat 16 vs.length))
  | .writeHoldings a vs => 16 :: (wordBytes a ++ wordBytes (BitVec.ofNat 16 vs.length))
  | .readWriteHoldings ra rn _ _ => 23 :: (wordBytes ra ++ wordBytes rn)

/-- What follows the first five bytes. -/
def Request.tail : Request → List (BitVec 8)
  | .writeCoils _ vs => BitVec.ofNat 8 (byteCount vs.length) :: packBools vs
  | .writeHoldings _ vs => BitVec.ofNat 8 (2 * vs.length) :: packWordList vs
  | .readWriteHoldings _ _ wa vs =>
      wordBytes wa ++ (wordBytes (BitVec.ofNat 16 vs.length) ++
        (BitVec.ofNat 8 (2 * vs.length) :: packWordList vs))
  | _ => []

/-- The PDU of a request. -/
def Request.pdu (r : Request) : List (BitVec 8) := r.head ++ r.tail

/-- The PDU that answers a request.  A write is answered by the head of the request. -/
def Reply.pdu (r : Request) : Reply → List (BitVec 8)
  | .bits vs => r.code :: BitVec.ofNat 8 (byteCount vs.length) :: packBools vs
  | .words vs => r.code :: BitVec.ofNat 8 (2 * vs.length) :: packWordList vs
  | .written => r.head

@[simp] theorem packBools_length (vs : List Bool) : (packBools vs).length = byteCount vs.length :=
  packBits_length _ _

@[simp] theorem packWordList_length (vs : List (BitVec 16)) :
    (packWordList vs).length = 2 * vs.length :=
  packWords_length _ _

@[simp] theorem Request.head_length (r : Request) : r.head.length = 5 := by
  cases r <;> simp [head]

/-- A PDU starts with the function code. -/
theorem Request.pdu_cons (r : Request) : ∃ l, r.pdu = r.code :: l := by
  cases r <;> exact ⟨_, rfl⟩

theorem Reply.pdu_cons (reply : Reply) (r : Request) : ∃ l, reply.pdu r = r.code :: l := by
  cases reply with
  | written => cases r <;> exact ⟨_, rfl⟩
  | _ => exact ⟨_, rfl⟩

/-- Loaded bits, packed. -/
theorem packBools_load {N : Nat} (c : Cells N Bool) (a n : Nat) :
    packBools (c.load a n) = packBits n fun i => c.get (a + i) := by
  unfold packBools
  rw [Cells.load_length]
  exact packBits_congr fun i hi => Cells.load_getD c a hi false

/-- Loaded words, packed. -/
theorem packWordList_load {N : Nat} (c : Cells N (BitVec 16)) (a n : Nat) :
    packWordList (c.load a n) = packWords n fun i => c.get (a + i) := by
  unfold packWordList
  rw [Cells.load_length]
  exact packWords_congr fun i hi => Cells.load_getD c a hi 0

end DataModel
