import FreeModbus.Lib.Mirror
import Mathlib.Logic.Function.Basic

/-!
# Devices and the mirrors of them

A client makes requests to devices on one line and keeps a mirror for every address.
`Plant` is what devices and mirrors hold, and `Serves` is one request: a device executes
it and the mirror of that device takes over what was addressed, or the device refuses
it, or there is no device.  Every device and every mirror executes a broadcast.

After any number of requests the mirrors agree with the devices on all items that a
request with an answer addressed (`runs_coherent`), whatever they held before.
-/

namespace DataModel

/-! ## Items -/

/-- The number of items of a map. -/
def Shape.size (σ : Shape) : Space → Nat
  | .coils => σ.coils
  | .discretes => σ.discretes
  | .inputs => σ.inputs
  | .holdings => σ.holdings

/-- An item of a map. -/
def Store.item {σ : Shape} (s : Store σ) : Space → Nat → Bool ⊕ BitVec 16
  | .coils, i => .inl (s.coils.get i)
  | .discretes, i => .inl (s.discretes.get i)
  | .inputs, i => .inr (s.inputs.get i)
  | .holdings, i => .inr (s.holdings.get i)

section Items

variable {σ τ : Shape} {s s' : Store σ} {t t' : Store τ} {r : Request} {reply : Reply} {sp : Space}
  {i : Nat}

theorem Cells.get_ite {N : Nat} {α : Type} [Inhabited α] {p : Nat → Prop} [DecidablePred p]
    {f : Nat → α} {c : Cells N α} (hi : i < N) :
    Cells.get (fun j : Fin N => if p j then f j else c j) i = if p i then f i else c.get i := by
  rw [Cells.get_of_lt _ hi, Cells.get_of_lt _ hi]

/-- An overlay has the items addressed from the one store and the others from the other. -/
theorem overlay_item (r : Request) (src : Store σ) (dst : Store τ) (hi : i < τ.size sp) :
    (Store.overlay r src dst).item sp i =
      if r.Addresses sp i then src.item sp i else dst.item sp i := by
  cases sp with
  | coils => exact (congrArg Sum.inl (Cells.get_ite hi)).trans (apply_ite Sum.inl ..)
  | discretes => exact (congrArg Sum.inl (Cells.get_ite hi)).trans (apply_ite Sum.inl ..)
  | inputs => exact (congrArg Sum.inr (Cells.get_ite hi)).trans (apply_ite Sum.inr ..)
  | holdings => exact (congrArg Sum.inr (Cells.get_ite hi)).trans (apply_ite Sum.inr ..)

theorem Cells.get_put_of_not {N : Nat} {α : Type} [Inhabited α] (c : Cells N α) {a : BitVec 16}
    {vs : List α} (h : ¬ InRange a vs.length i) : (c.put a.toNat vs).get i = c.get i := by
  by_cases hi : i < N
  · rw [Cells.get_of_lt _ hi, Cells.get_of_lt _ hi, Cells.put_apply, if_neg h]
  · rw [Cells.get, Cells.get, dif_neg hi, dif_neg hi]

/-- A request leaves the items alone that it does not address. -/
theorem exec_item (h : s.exec r = some (reply, s')) (hno : ¬ r.Addresses sp i) :
    s'.item sp i = s.item sp i := by
  cases r with
  | readCoils a n =>
    obtain ⟨-, -, rfl⟩ := of_exec h
    rfl
  | readDiscretes a n =>
    obtain ⟨-, -, rfl⟩ := of_exec h
    rfl
  | readHoldings a n =>
    obtain ⟨-, -, rfl⟩ := of_exec h
    rfl
  | readInputs a n =>
    obtain ⟨-, -, rfl⟩ := of_exec h
    rfl
  | writeCoil a v =>
    obtain ⟨-, -, rfl⟩ := of_exec h
    cases sp with
    | coils => exact congrArg Sum.inl (Cells.get_put_of_not _ hno)
    | _ => rfl
  | writeHolding a v =>
    obtain ⟨-, -, rfl⟩ := of_exec h
    cases sp with
    | holdings => exact congrArg Sum.inr (Cells.get_put_of_not _ hno)
    | _ => rfl
  | writeCoils a vs =>
    obtain ⟨-, -, rfl⟩ := of_exec h
    cases sp with
    | coils => exact congrArg Sum.inl (Cells.get_put_of_not _ hno)
    | _ => rfl
  | writeHoldings a vs =>
    obtain ⟨-, -, rfl⟩ := of_exec h
    cases sp with
    | holdings => exact congrArg Sum.inr (Cells.get_put_of_not _ hno)
    | _ => rfl
  | readWriteHoldings ra rn wa vs =>
    obtain ⟨-, -, rfl⟩ := of_exec h
    cases sp with
    | holdings => exact congrArg Sum.inr (Cells.get_put_of_not _ fun hw => hno (Or.inr hw))
    | _ => rfl

theorem Cells.get_put_eq {N M : Nat} {α : Type} [Inhabited α] {c : Cells N α} {d : Cells M α}
    {a : BitVec 16} {vs : List α} (hN : Inside N a vs.length) (hM : Inside M a vs.length)
    (h : InRange a vs.length i) : (c.put a.toNat vs).get i = (d.put a.toNat vs).get i := by
  have hiN : i < N := by omega
  have hiM : i < M := by omega
  rw [Cells.get_of_lt _ hiN, Cells.get_of_lt _ hiM, Cells.put_apply, Cells.put_apply, if_pos h,
    if_pos h]

/-- Two stores that executed one write hold the same where it addressed them. -/
theorem written_item (h : s.exec r = some (.written, s')) (h' : t.exec r = some (.written, t'))
    (ha : r.Addresses sp i) : s'.item sp i = t'.item sp i := by
  cases r with
  | readCoils a n => cases (of_exec h).2.1
  | readDiscretes a n => cases (of_exec h).2.1
  | readHoldings a n => cases (of_exec h).2.1
  | readInputs a n => cases (of_exec h).2.1
  | readWriteHoldings ra rn wa vs => cases (of_exec h).2.1
  | writeCoil a v =>
    obtain ⟨hin, -, rfl⟩ := of_exec h
    obtain ⟨hin', -, rfl⟩ := of_exec h'
    cases sp with
    | coils => exact congrArg Sum.inl (Cells.get_put_eq hin hin' ha)
    | _ => exact ha.elim
  | writeHolding a v =>
    obtain ⟨hin, -, rfl⟩ := of_exec h
    obtain ⟨hin', -, rfl⟩ := of_exec h'
    cases sp with
    | holdings => exact congrArg Sum.inr (Cells.get_put_eq hin hin' ha)
    | _ => exact ha.elim
  | writeCoils a vs =>
    obtain ⟨hin, -, rfl⟩ := of_exec h
    obtain ⟨hin', -, rfl⟩ := of_exec h'
    cases sp with
    | coils => exact congrArg Sum.inl (Cells.get_put_eq hin hin' ha)
    | _ => exact ha.elim
  | writeHoldings a vs =>
    obtain ⟨hin, -, rfl⟩ := of_exec h
    obtain ⟨hin', -, rfl⟩ := of_exec h'
    cases sp with
    | holdings => exact congrArg Sum.inr (Cells.get_put_eq hin hin' ha)
    | _ => exact ha.elim

end Items

/-! ## Requests to a plant -/

/-- What the devices hold, and the mirrors by address. -/
structure Plant (ι K : Type) (σ τ : Shape) where
  devices : ι → Store σ
  mirror : K → Store τ

/-- How a request ends. -/
inductive Ending where
  | done
  | refused
  | absent
  /-- No request is made. -/
  | rejected
deriving Repr, DecidableEq

variable {ι K : Type} [DecidableEq ι] [DecidableEq K] {σ τ : Shape} {address : ι → K} {all : K}

/-- A request for the device with address `k`, or for every device where `k` is `all`. -/
inductive Serves (address : ι → K) (all : K) (P : Plant ι K σ τ) :
    Option (K × Request) → Ending → Plant ι K σ τ → Prop where
  | rejected : Serves address all P none .rejected P
  | absent {k : K} {r : Request} : k ≠ all → (∀ j, address j ≠ k) →
      Serves address all P (some (k, r)) .absent P
  | refused {t : ι} {r : Request} : (P.devices t).exec r = none →
      Serves address all P (some (address t, r)) .refused P
  | done {t : ι} {r : Request} {reply : Reply} {s : Store σ} :
      (P.devices t).exec r = some (reply, s) →
      Serves address all P (some (address t, r)) .done
        { devices := Function.update P.devices t s
          mirror := Function.update P.mirror (address t)
            (Store.overlay r s (P.mirror (address t))) }
  | nowhere {r : Request} : (∀ j, (P.devices j).exec r = none) →
      (∀ k, (P.mirror k).exec r = none) → Serves address all P (some (all, r)) .refused P
  | everywhere {r : Request} {devices : ι → Store σ} {mirror : K → Store τ} :
      (∀ j, (P.devices j).exec r = some (.written, devices j)) →
      (∀ k, (P.mirror k).exec r = some (.written, mirror k)) →
      Serves address all P (some (all, r)) .done ⟨devices, mirror⟩

/-- The first `n` of a sequence of requests, with how they end. -/
inductive Runs (address : ι → K) (all : K) (requests : Nat → Option (K × Request))
    (endings : Nat → Ending) (P : Plant ι K σ τ) : Nat → Plant ι K σ τ → Prop where
  | start : Runs address all requests endings P 0 P
  | next {n : Nat} {P₁ P₂ : Plant ι K σ τ} : Runs address all requests endings P n P₁ →
      Serves address all P₁ (requests n) (endings n) P₂ →
      Runs address all requests endings P (n + 1) P₂

variable {requests : Nat → Option (K × Request)} {endings endings' : Nat → Ending}
  {P P' : Plant ι K σ τ} {n : Nat}

/-- A run depends on the endings of its own requests only. -/
theorem Runs.congr (h : Runs address all requests endings P n P')
    (heq : ∀ m < n, endings' m = endings m) : Runs address all requests endings' P n P' := by
  induction h with
  | start => exact .start
  | next _ hs ih =>
    refine .next (ih fun m hm => heq m (Nat.lt_succ_of_lt hm)) ?_
    rw [heq _ (Nat.lt_succ_self _)]
    exact hs

/-- Each request of a run was made to some plant. -/
theorem Runs.serves (h : Runs address all requests endings P n P') {m : Nat} (hm : m < n) :
    ∃ P₁ P₂ : Plant ι K σ τ, Serves address all P₁ (requests m) (endings m) P₂ := by
  induction h with
  | start => exact absurd hm (Nat.not_lt_zero m)
  | next _ hs ih =>
    rcases Nat.lt_succ_iff_lt_or_eq.mp hm with hlt | rfl
    · exact ih hlt
    · exact ⟨_, _, hs⟩

/-- A request that was done has addressed this item of device `j`. -/
def Touched (address : ι → K) (all : K) (requests : Nat → Option (K × Request))
    (endings : Nat → Ending) (n : Nat) (j : ι) (sp : Space) (i : Nat) : Prop :=
  ∃ m < n, ∃ k r, requests m = some (k, r) ∧ endings m = .done ∧ (k = address j ∨ k = all) ∧
    r.Addresses sp i

/-- The mirrors agree with the devices on a set of items. -/
def Coherent (address : ι → K) (touched : ι → Space → Nat → Prop) (P : Plant ι K σ τ) : Prop :=
  ∀ j sp i, i < τ.size sp → touched j sp i →
    (P.mirror (address j)).item sp i = (P.devices j).item sp i

/-- One request adds the items that it addresses, and takes none away. -/
theorem coherent_serves {q : Option (K × Request)} {o : Ending} {touched : ι → Space → Nat → Prop}
    (hone : Function.Injective address) (hall : ∀ j, address j ≠ all)
    (hs : Serves address all P q o P') (h : Coherent address touched P) :
    Coherent address (fun j sp i => touched j sp i ∨ ∃ k r, q = some (k, r) ∧ o = .done ∧
      (k = address j ∨ k = all) ∧ r.Addresses sp i) P' := by
  have hsame : o ≠ .done → Coherent address (fun j sp i => touched j sp i ∨ ∃ k r,
      q = some (k, r) ∧ o = .done ∧ (k = address j ∨ k = all) ∧ r.Addresses sp i) P := by
    intro ho j sp i hi ht
    rcases ht with ht | ⟨k, r, -, hdone, -⟩
    · exact h j sp i hi ht
    · exact absurd hdone ho
  cases hs with
  | rejected => exact hsame fun ho => by cases ho
  | absent => exact hsame fun ho => by cases ho
  | refused => exact hsame fun ho => by cases ho
  | nowhere => exact hsame fun ho => by cases ho
  | @done t r reply s hexec =>
    intro j sp i hi ht
    show (Function.update P.mirror (address t) _ (address j)).item sp i =
      (Function.update P.devices t s j).item sp i
    by_cases hj : j = t
    · subst hj
      rw [Function.update_self, Function.update_self, overlay_item _ _ _ hi]
      by_cases ha : r.Addresses sp i
      · rw [if_pos ha]
      · rw [if_neg ha, exec_item hexec ha]
        rcases ht with ht | ⟨k, r', hq, -, -, ha'⟩
        · exact h j sp i hi ht
        · cases hq
          exact absurd ha' ha
    · rw [Function.update_of_ne (hone.ne hj), Function.update_of_ne hj]
      rcases ht with ht | ⟨k, r', hq, -, hk, -⟩
      · exact h j sp i hi ht
      · cases hq
        exact (hk.elim (fun hk => hj (hone hk).symm) (hall t)).elim
  | @everywhere r devices mirror hdev hmir =>
    intro j sp i hi ht
    by_cases ha : r.Addresses sp i
    · exact written_item (hmir (address j)) (hdev j) ha
    · show (mirror (address j)).item sp i = (devices j).item sp i
      rw [exec_item (hmir (address j)) ha, exec_item (hdev j) ha]
      rcases ht with ht | ⟨k, r', hq, -, -, ha'⟩
      · exact h j sp i hi ht
      · cases hq
        exact absurd ha' ha

/-- The mirrors agree with the devices on all that was addressed. -/
theorem runs_coherent (hone : Function.Injective address) (hall : ∀ j, address j ≠ all)
    (h : Runs address all requests endings P n P') :
    Coherent address (Touched address all requests endings n) P' := by
  induction h with
  | start =>
    rintro j sp i hi ⟨m, hm, -⟩
    exact absurd hm (Nat.not_lt_zero m)
  | @next n P₁ P₂ _ hs ih =>
    intro j sp i hi ⟨m, hm, hrest⟩
    refine coherent_serves hone hall hs ih j sp i hi ?_
    rcases Nat.lt_succ_iff_lt_or_eq.mp hm with hlt | rfl
    · exact Or.inl ⟨m, hlt, hrest⟩
    · exact Or.inr hrest

end DataModel
