/-!
# Sticky event flags

An event object of a real time kernel is a word of flags.  A send ORs bits into
the word.  A receive of a mask with the options OR and CLEAR returns the bits
of the mask that are set and clears all of them at once.  It waits while none
is set.

A *channel* reads such a word as a set of events, one bit per event, and
decodes the received word back into one event.  The last section says when a
channel loses nothing: exactly when every receive finds one event pending.
-/

namespace EventFlags

variable {w : Nat} {E : Type}

/-- OR bits into the flags. -/
def send (flags set : BitVec w) : BitVec w := flags ||| set

/-- What a receive of `mask` returns. -/
def received (flags mask : BitVec w) : BitVec w := flags &&& mask

/-- What a receive of `mask` with CLEAR leaves. -/
def cleared (flags mask : BitVec w) : BitVec w := flags &&& ~~~mask

/-! ## Channels -/

/-- Events carried by one flag each, with the receiver's mask and decoder. -/
structure Channel (E : Type) (w : Nat) where
  /-- The flag of an event. -/
  bit : E → Nat
  /-- The word an event is posted as. -/
  code : E → BitVec w
  /-- The flags the receiver waits for. -/
  mask : BitVec w
  /-- The event a received word is taken for, if it is taken for any. -/
  decode : BitVec w → Option E
  /-- The word of an event has its flag and no other. -/
  code_bit : ∀ e i, (code e).getLsbD i = decide (i = bit e)
  /-- Different events have different flags. -/
  bit_inj : ∀ e e', bit e = bit e' → e = e'
  /-- The mask has the flags of the events and no others. -/
  mask_bit : ∀ i, mask.getLsbD i = true ↔ ∃ e, bit e = i
  /-- A word is taken for an event exactly when it is the word of that event. -/
  decode_eq : ∀ x e, decode x = some e ↔ x = code e

namespace Channel

/-! ## Channels from a list of events -/

/-- The mask with the flags of the listed events. -/
def maskOf (bit : E → Nat) (all : List E) : BitVec w :=
  all.foldr (fun e mask => BitVec.twoPow w (bit e) ||| mask) 0#w

/-- A `switch` on a received word whose cases are the listed events. -/
def switchOf (bit : E → Nat) (all : List E) (x : BitVec w) : Option E :=
  all.find? fun e => decide (x = BitVec.twoPow w (bit e))

theorem getLsbD_twoPow {k : Nat} (hk : k < w) (i : Nat) :
    (BitVec.twoPow w k).getLsbD i = decide (i = k) := by
  rw [BitVec.getLsbD_twoPow, Bool.eq_iff_iff]
  simp [hk, eq_comm]

theorem getLsbD_maskOf {bit : E → Nat} (hlt : ∀ e, bit e < w) (i : Nat) : ∀ all : List E,
    (maskOf bit all : BitVec w).getLsbD i = true ↔ ∃ e ∈ all, bit e = i
  | [] => by simp [maskOf]
  | e :: all => by
      have ih := getLsbD_maskOf hlt i all
      unfold maskOf at ih ⊢
      rw [List.foldr_cons, BitVec.getLsbD_or, Bool.or_eq_true, getLsbD_twoPow (hlt e),
        decide_eq_true_eq, ih]
      simp [eq_comm]

theorem twoPow_inj {bit : E → Nat} (hlt : ∀ e, bit e < w)
    (hinj : ∀ e e', bit e = bit e' → e = e') {e e' : E}
    (h : BitVec.twoPow w (bit e) = BitVec.twoPow w (bit e')) : e = e' := by
  have h1 := congrArg (BitVec.getLsbD · (bit e)) h
  simp only [getLsbD_twoPow (hlt _), decide_true, true_eq_decide_iff] at h1
  exact hinj e e' h1

theorem switchOf_eq_some_iff {bit : E → Nat} {all : List E} (hall : ∀ e, e ∈ all)
    (hlt : ∀ e, bit e < w) (hinj : ∀ e e', bit e = bit e' → e = e') (x : BitVec w) (e : E) :
    switchOf bit all x = some e ↔ x = BitVec.twoPow w (bit e) := by
  have hfound : ∀ {x : BitVec w} {e : E}, switchOf bit all x = some e →
      x = BitVec.twoPow w (bit e) := by
    intro x e h
    unfold switchOf at h
    have h1 := List.find?_some h
    exact of_decide_eq_true h1
  constructor
  · exact hfound
  · rintro rfl
    cases hf : switchOf bit all (BitVec.twoPow w (bit e)) with
    | none =>
      unfold switchOf at hf
      have hno := List.find?_eq_none.mp hf e (hall e)
      simp at hno
    | some e' => rw [twoPow_inj hlt hinj (hfound hf)]

/-- The channel of events with one flag each, received with a mask of all of them and decoded
by a `switch` over all of them. -/
def ofEvents (bit : E → Nat) (all : List E) (hall : ∀ e, e ∈ all) (hlt : ∀ e, bit e < w)
    (hinj : ∀ e e', bit e = bit e' → e = e') : Channel E w where
  bit := bit
  code e := BitVec.twoPow w (bit e)
  mask := maskOf bit all
  decode := switchOf bit all
  code_bit e i := getLsbD_twoPow (hlt e) i
  bit_inj := hinj
  mask_bit i := (getLsbD_maskOf hlt i all).trans (by simp [hall])
  decode_eq := switchOf_eq_some_iff hall hlt hinj

variable (C : Channel E w)

/-- The event is pending. -/
def Pending (flags : BitVec w) (e : E) : Prop := flags.getLsbD (C.bit e) = true

instance (flags : BitVec w) (e : E) : Decidable (C.Pending flags e) :=
  inferInstanceAs (Decidable (flags.getLsbD (C.bit e) = true))

/-- The event a receive takes the pending flags for. -/
def assigned (flags : BitVec w) : Option E := C.decode (received flags C.mask)

/-- Post an event. -/
def post (flags : BitVec w) (e : E) : BitVec w := send flags (C.code e)

/-- A get that returns: the event it is taken for, if any, and the flags left. -/
def get (flags : BitVec w) : Option E × BitVec w := (C.assigned flags, cleared flags C.mask)

theorem pending_post (flags : BitVec w) (e e' : E) :
    C.Pending (C.post flags e) e' ↔ C.Pending flags e' ∨ e' = e := by
  unfold Pending post send
  rw [BitVec.getLsbD_or, C.code_bit, Bool.or_eq_true, decide_eq_true_eq]
  constructor
  · rintro (h | h)
    · exact Or.inl h
    · exact Or.inr (C.bit_inj _ _ h)
  · rintro (h | h)
    · exact Or.inl h
    · exact Or.inr (congrArg C.bit h)

theorem not_pending_get (flags : BitVec w) (e : E) : ¬ C.Pending (C.get flags).2 e := by
  have hm : C.mask.getLsbD (C.bit e) = true := (C.mask_bit _).mpr ⟨e, rfl⟩
  simp [Pending, get, cleared, hm]

/-- The received word is the word of `e` exactly when `e` alone is pending. -/
theorem received_eq_code_iff (flags : BitVec w) (e : E) :
    received flags C.mask = C.code e ↔ ∀ e', C.Pending flags e' ↔ e' = e := by
  have hmask : ∀ e', C.mask.getLsbD (C.bit e') = true := fun e' => (C.mask_bit _).mpr ⟨e', rfl⟩
  constructor
  · intro h e'
    have h1 := congrArg (BitVec.getLsbD · (C.bit e')) h
    simp only [received, BitVec.getLsbD_and, hmask, Bool.and_true, C.code_bit] at h1
    unfold Pending
    rw [h1, decide_eq_true_eq]
    exact ⟨C.bit_inj _ _, congrArg C.bit⟩
  · intro h
    apply BitVec.eq_of_getLsbD_eq
    intro i _
    rw [received, BitVec.getLsbD_and, C.code_bit]
    cases hm : C.mask.getLsbD i with
    | false =>
      have hne : i ≠ C.bit e := fun hi => by simp [hi, hmask e] at hm
      simp [hne]
    | true =>
      obtain ⟨e', rfl⟩ := (C.mask_bit i).mp hm
      rw [Bool.and_true, Bool.eq_iff_iff, decide_eq_true_eq]
      exact (h e').trans ⟨congrArg C.bit, C.bit_inj _ _⟩

/-- A receive is taken for `e` exactly when `e` alone is pending. -/
theorem assigned_eq_some_iff (flags : BitVec w) (e : E) :
    C.assigned flags = some e ↔ ∀ e', C.Pending flags e' ↔ e' = e :=
  (C.decode_eq _ _).trans (C.received_eq_code_iff flags e)

/-- A receive returns: some event is pending. -/
def Returns (flags : BitVec w) : Prop := ∃ e, C.Pending flags e

/-- A receive waits exactly when no flag of the mask is set. -/
theorem returns_iff (flags : BitVec w) : C.Returns flags ↔ received flags C.mask ≠ 0#w := by
  constructor
  · rintro ⟨e, hp⟩ hz
    have h1 := congrArg (BitVec.getLsbD · (C.bit e)) hz
    have hm : C.mask.getLsbD (C.bit e) = true := (C.mask_bit _).mpr ⟨e, rfl⟩
    have hp : flags.getLsbD (C.bit e) = true := hp
    simp [received, hm, hp] at h1
  · intro hne
    refine Classical.byContradiction fun hno => hne ?_
    apply BitVec.eq_of_getLsbD_eq
    intro i _
    rw [received, BitVec.getLsbD_and, BitVec.getLsbD_zero]
    cases hm : C.mask.getLsbD i with
    | false => rw [Bool.and_false]
    | true =>
      obtain ⟨e, rfl⟩ := (C.mask_bit i).mp hm
      rw [Bool.and_true]
      exact Bool.eq_false_iff.mpr fun hp => hno ⟨e, hp⟩

instance (flags : BitVec w) : Decidable (C.Returns flags) :=
  decidable_of_iff _ (C.returns_iff flags).symm

/-- A get leaves nothing pending. -/
theorem not_returns_get (flags : BitVec w) : ¬ C.Returns (C.get flags).2 :=
  fun ⟨e, h⟩ => C.not_pending_get flags e h

/-- `e` and nothing else is pending. -/
def Only (flags : BitVec w) (e : E) : Prop := ∀ e', C.Pending flags e' ↔ e' = e

theorem Only.returns {C : Channel E w} {flags : BitVec w} {e : E} (h : C.Only flags e) :
    C.Returns flags := ⟨e, (h e).mpr rfl⟩

theorem only_post {flags : BitVec w} (h : ¬ C.Returns flags) (e : E) :
    C.Only (C.post flags e) e := by
  intro e'
  rw [C.pending_post]
  exact ⟨fun h' => h'.resolve_left fun hp => h ⟨e', hp⟩, Or.inr⟩

/-- A get that finds only `e` is taken for `e`. -/
theorem get_of_only {flags : BitVec w} {e : E} (h : C.Only flags e) :
    (C.get flags).1 = some e :=
  (C.assigned_eq_some_iff flags e).mpr h

/-- A get that is taken for an event has found only that event. -/
theorem only_of_get {flags : BitVec w} {e : E} (h : (C.get flags).1 = some e) :
    C.Only flags e :=
  (C.assigned_eq_some_iff flags e).mp h

/-! ## Two channels on one word -/

section Apart

variable {E' : Type} (D : Channel E' w)

/-- No flag belongs to both channels. -/
def Apart : Prop := ∀ e e', C.bit e ≠ D.bit e'

variable {C D}

theorem Apart.symm (h : C.Apart D) : D.Apart C := fun e' e heq => h e e' heq.symm

/-- A post on one channel leaves the other as it is. -/
theorem Apart.pending_post (h : C.Apart D) (flags : BitVec w) (e : E) (e' : E') :
    C.Pending (D.post flags e') e ↔ C.Pending flags e := by
  unfold Pending post send
  rw [BitVec.getLsbD_or, D.code_bit, decide_eq_false (h e e'), Bool.or_false]

/-- A get on one channel leaves the other as it is. -/
theorem Apart.pending_get (h : C.Apart D) (flags : BitVec w) (e : E) :
    C.Pending (D.get flags).2 e ↔ C.Pending flags e := by
  have hout : D.mask.getLsbD (C.bit e) = false := by
    rw [Bool.eq_false_iff]
    intro hin
    obtain ⟨e', he'⟩ := (D.mask_bit _).mp hin
    exact h e e' he'.symm
  unfold Pending get cleared
  rw [BitVec.getLsbD_and, BitVec.getLsbD_not, hout, Bool.not_false, Bool.and_true]
  by_cases hlt : C.bit e < w
  · simp [hlt]
  · simp [hlt, BitVec.getLsbD_of_ge _ _ (Nat.le_of_not_lt hlt)]

end Apart

/-! ## Sequences of posts and gets -/

/-- What happens to a channel: a post of an event, or a get by the consumer. -/
inductive Op (E : Type) where
  | post (e : E)
  | get

/-- `P` holds of the flags at every get of the sequence that returns.  A get that finds
nothing waits and changes nothing. -/
def AtGets (P : BitVec w → Prop) : BitVec w → List (Op E) → Prop
  | _, [] => True
  | flags, .post e :: ops => AtGets P (C.post flags e) ops
  | flags, .get :: ops => (C.Returns flags → P flags) ∧ AtGets P (C.get flags).2 ops

/-- A get is exact: it is taken for an event that was pending, and the events
pending beside that one stay pending. -/
def GetExact (flags : BitVec w) : Prop :=
  ∃ e, (C.get flags).1 = some e ∧ C.Pending flags e ∧
    ∀ e', e' ≠ e → C.Pending flags e' → C.Pending (C.get flags).2 e'

/-- `e` is delivered by a get of the sequence, or still pending at its end. -/
def Delivered (e : E) : BitVec w → List (Op E) → Prop
  | flags, [] => C.Pending flags e
  | flags, .post e' :: ops => Delivered e (C.post flags e') ops
  | flags, .get :: ops =>
      (C.get flags).1 = some e ∨ Delivered e (C.get flags).2 ops

/-- Every posted event is delivered after its post. -/
def PostsDelivered : BitVec w → List (Op E) → Prop
  | _, [] => True
  | flags, .post e :: ops =>
      C.Delivered e (C.post flags e) ops ∧ PostsDelivered (C.post flags e) ops
  | flags, .get :: ops => PostsDelivered (C.get flags).2 ops

/-- No two events are pending. -/
def AtMostOne (flags : BitVec w) : Prop :=
  ∀ e e', C.Pending flags e → C.Pending flags e' → e = e'

/-- A get that returns is exact exactly when no two events are pending: it clears them
together. -/
theorem getExact_iff (flags : BitVec w) (hret : C.Returns flags) :
    C.GetExact flags ↔ C.AtMostOne flags := by
  constructor
  · rintro ⟨e, ha, -, -⟩ e₁ e₂ h₁ h₂
    have hall := (C.assigned_eq_some_iff flags e).mp ha
    rw [(hall e₁).mp h₁, (hall e₂).mp h₂]
  · intro hone
    obtain ⟨e, hp⟩ := hret
    have hall : ∀ e', C.Pending flags e' ↔ e' = e :=
      fun e' => ⟨fun h => hone e' e h hp, fun h => h ▸ hp⟩
    refine ⟨e, (C.assigned_eq_some_iff flags e).mpr hall, hp, ?_⟩
    intro e' hne hp'
    exact absurd (hone e' e hp' hp) hne

theorem atGets_congr {P Q : BitVec w → Prop} (h : ∀ flags, C.Returns flags → (P flags ↔ Q flags)) :
    ∀ (flags : BitVec w) (ops : List (Op E)), C.AtGets P flags ops ↔ C.AtGets Q flags ops
  | _, [] => Iff.rfl
  | flags, .post e :: ops => atGets_congr h (C.post flags e) ops
  | flags, .get :: ops =>
      and_congr (forall_congr' fun hret => h flags hret)
        (atGets_congr h (C.get flags).2 ops)

/-- A pending event is delivered when no get finds two events pending. -/
theorem delivered_of_atMostOne (e : E) :
    ∀ (flags : BitVec w) (ops : List (Op E)), C.AtGets C.AtMostOne flags ops →
      C.Pending flags e → C.Delivered e flags ops
  | _, [], _, hp => hp
  | flags, .post e' :: ops, h, hp =>
      delivered_of_atMostOne e (C.post flags e') ops h
        ((C.pending_post flags e' e).mpr (Or.inl hp))
  | flags, .get :: ops, h, hp => by
      have hone := h.1 ⟨e, hp⟩
      refine Or.inl (C.get_of_only fun e' => ?_)
      exact ⟨fun h' => hone e' e h' hp, fun h' => h' ▸ hp⟩

theorem postsDelivered_of_atMostOne :
    ∀ (flags : BitVec w) (ops : List (Op E)), C.AtGets C.AtMostOne flags ops →
      C.PostsDelivered flags ops
  | _, [], _ => trivial
  | flags, .post e :: ops, h =>
      ⟨C.delivered_of_atMostOne e _ ops h ((C.pending_post flags e e).mpr (Or.inr rfl)),
        postsDelivered_of_atMostOne _ ops h⟩
  | flags, .get :: ops, h => postsDelivered_of_atMostOne (C.get flags).2 ops h.2

/-- Nothing is lost or garbled in a sequence of posts and gets exactly when no get that
returns finds two events pending. -/
theorem lossless_iff (flags : BitVec w) (ops : List (Op E)) :
    (C.AtGets C.GetExact flags ops ∧ C.PostsDelivered flags ops) ↔
      C.AtGets C.AtMostOne flags ops := by
  have h := C.atGets_congr C.getExact_iff flags ops
  constructor
  · intro hl
    exact h.mp hl.1
  · intro hs
    exact ⟨h.mpr hs, C.postsDelivered_of_atMostOne flags ops hs⟩

end Channel

end EventFlags
