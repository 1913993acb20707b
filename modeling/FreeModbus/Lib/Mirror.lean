import FreeModbus.Lib.DataModel

/-!
# A mirror of a device

The client of a device keeps a copy of the device's maps.  When a request has
been answered it takes over what the answer says: the items that were read, and
the items that it asked to be written.

`Store.absorb` is that update, computed from request and reply alone.
`absorb_exec` says what it achieves when the reply is the device's own: the
mirror agrees with the device on the addressed items and is unchanged elsewhere.
-/

namespace DataModel

open ByteMemory

/-- The four maps. -/
inductive Space where
  | coils
  | discretes
  | inputs
  | holdings
deriving Repr, DecidableEq

/-- The range of `n` items from address `a` on. -/
abbrev InRange (a : BitVec 16) (n i : Nat) : Prop := a.toNat ≤ i ∧ i < a.toNat + n

/-- The request addresses item `i` of a map. -/
def Request.Addresses : Request → Space → Nat → Prop
  | .readCoils a n, .coils, i => InRange a n.toNat i
  | .readDiscretes a n, .discretes, i => InRange a n.toNat i
  | .readHoldings a n, .holdings, i => InRange a n.toNat i
  | .readInputs a n, .inputs, i => InRange a n.toNat i
  | .writeCoil a _, .coils, i => InRange a 1 i
  | .writeHolding a _, .holdings, i => InRange a 1 i
  | .writeCoils a vs, .coils, i => InRange a vs.length i
  | .writeHoldings a vs, .holdings, i => InRange a vs.length i
  | .readWriteHoldings ra rn wa vs, .holdings, i => InRange ra rn.toNat i ∨ InRange wa vs.length i
  | _, _, _ => False

instance : ∀ (r : Request) (sp : Space) (i : Nat), Decidable (r.Addresses sp i) := by
  intro r sp i
  unfold Request.Addresses
  split <;> infer_instance

variable {σ τ : Shape}

/-- `dst` with the items that a request addresses taken from `src`. -/
def Store.overlay (r : Request) (src : Store σ) (dst : Store τ) : Store τ where
  coils := fun i => if r.Addresses .coils i then src.coils.get i else dst.coils i
  discretes := fun i => if r.Addresses .discretes i then src.discretes.get i else dst.discretes i
  inputs := fun i => if r.Addresses .inputs i then src.inputs.get i else dst.inputs i
  holdings := fun i => if r.Addresses .holdings i then src.holdings.get i else dst.holdings i

/-- What a mirror takes over from an answered request. -/
def Store.absorb (dst : Store τ) : Request → Reply → Store τ
  | .readCoils a _, .bits vs => { dst with coils := dst.coils.put a.toNat vs }
  | .readDiscretes a _, .bits vs => { dst with discretes := dst.discretes.put a.toNat vs }
  | .readHoldings a _, .words vs => { dst with holdings := dst.holdings.put a.toNat vs }
  | .readInputs a _, .words vs => { dst with inputs := dst.inputs.put a.toNat vs }
  | .writeCoil a v, _ => { dst with coils := dst.coils.put a.toNat [v] }
  | .writeHolding a v, _ => { dst with holdings := dst.holdings.put a.toNat [v] }
  | .writeCoils a vs, _ => { dst with coils := dst.coils.put a.toNat vs }
  | .writeHoldings a vs, _ => { dst with holdings := dst.holdings.put a.toNat vs }
  | .readWriteHoldings ra _ wa vs, .words ws =>
      { dst with holdings := (dst.holdings.put wa.toNat vs).put ra.toNat ws }
  | _, _ => dst

/-- A request that is answered is inside the map. -/
theorem of_exec {inside : Prop} [Decidable inside] {p q : Reply × Store σ}
    (h : (if inside then some p else none) = some q) : inside ∧ p.1 = q.1 ∧ p.2 = q.2 := by
  by_cases hin : inside
  · rw [if_pos hin] at h
    cases h
    exact ⟨hin, rfl, rfl⟩
  · rw [if_neg hin] at h
    cases h

section Cells

variable {N M : Nat} {α : Type} [Inhabited α]

/-- An item after a list was written. -/
theorem Cells.put_apply (c : Cells N α) (a : BitVec 16) (vs : List α) (i : Fin N) :
    c.put a.toNat vs i =
      if InRange a vs.length i then vs.getD (i - a.toNat) default else c i := rfl

/-- Writing what was loaded elsewhere copies the range. -/
theorem Cells.put_load (c : Cells N α) (d : Cells M α) (a : BitVec 16) (n : Nat) (i : Fin N) :
    c.put a.toNat (d.load a.toNat n) i = if InRange a n i then d.get i else c i := by
  rw [Cells.put_apply, Cells.load_length]
  by_cases h : InRange a n i
  · rw [if_pos h, if_pos h, Cells.load_getD d a.toNat (by omega), Nat.add_sub_of_le h.1]
  · rw [if_neg h, if_neg h]

/-- Writing a list copies the range of any map it was written to. -/
theorem Cells.put_put (c : Cells N α) (d : Cells M α) (a : BitVec 16) {vs : List α}
    (h : Inside M a vs.length) (i : Fin N) :
    c.put a.toNat vs i = if InRange a vs.length i then (d.put a.toNat vs).get i else c i := by
  rw [Cells.put_apply]
  by_cases hin : InRange a vs.length i
  · have hlt : (i : Nat) < M := by omega
    rw [if_pos hin, if_pos hin, Cells.get_of_lt _ hlt, Cells.put_apply, if_pos hin]
  · rw [if_neg hin, if_neg hin]

end Cells

/-- A mirror that absorbs the reply of the device agrees with the device on what the request
addressed, and is unchanged elsewhere. -/
theorem absorb_exec {s s' : Store σ} {r : Request} {reply : Reply}
    (h : s.exec r = some (reply, s')) (dst : Store τ) :
    dst.absorb r reply = Store.overlay r s' dst := by
  cases r with
  | readCoils a n =>
    obtain ⟨-, rfl, rfl⟩ := of_exec h
    exact Store.ext (funext (Cells.put_load _ _ a _)) rfl rfl rfl
  | readDiscretes a n =>
    obtain ⟨-, rfl, rfl⟩ := of_exec h
    exact Store.ext rfl (funext (Cells.put_load _ _ a _)) rfl rfl
  | readHoldings a n =>
    obtain ⟨-, rfl, rfl⟩ := of_exec h
    exact Store.ext rfl rfl rfl (funext (Cells.put_load _ _ a _))
  | readInputs a n =>
    obtain ⟨-, rfl, rfl⟩ := of_exec h
    exact Store.ext rfl rfl (funext (Cells.put_load _ _ a _)) rfl
  | writeCoil a v =>
    obtain ⟨hin, rfl, rfl⟩ := of_exec h
    exact Store.ext (funext (Cells.put_put _ _ a hin)) rfl rfl rfl
  | writeHolding a v =>
    obtain ⟨hin, rfl, rfl⟩ := of_exec h
    exact Store.ext rfl rfl rfl (funext (Cells.put_put _ _ a hin))
  | writeCoils a vs =>
    obtain ⟨hin, rfl, rfl⟩ := of_exec h
    exact Store.ext (funext (Cells.put_put _ _ a hin)) rfl rfl rfl
  | writeHoldings a vs =>
    obtain ⟨hin, rfl, rfl⟩ := of_exec h
    exact Store.ext rfl rfl rfl (funext (Cells.put_put _ _ a hin))
  | readWriteHoldings ra rn wa vs =>
    obtain ⟨⟨hwin, hrin⟩, rfl, rfl⟩ := of_exec h
    refine Store.ext rfl rfl rfl (funext fun i => ?_)
    show (dst.holdings.put wa.toNat vs).put ra.toNat _ i =
      if InRange ra rn.toNat i ∨ InRange wa vs.length i then
        (s.holdings.put wa.toNat vs).get i
      else dst.holdings i
    rw [Cells.put_load]
    by_cases hr : InRange ra rn.toNat i
    · rw [if_pos hr, if_pos (Or.inl hr)]
    · rw [if_neg hr, Cells.put_put dst.holdings s.holdings wa hwin]
      by_cases hw : InRange wa vs.length i
      · rw [if_pos hw, if_pos (Or.inr hw)]
      · rw [if_neg hw, if_neg (not_or.mpr ⟨hr, hw⟩)]

end DataModel
