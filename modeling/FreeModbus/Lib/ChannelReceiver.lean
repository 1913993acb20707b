import FreeModbus.Lib.BlockingFlags

/-!
# The receiver of a channel

A channel of an event object has one receiver, which waits for any flag of the channel and
clears them.  The other threads leave the channel's flags alone, except that they post its
events.  Then the receiver sees what a sequence of single posts and gets would give it,
although its calls take time and others act meanwhile (`exists_ops`).  The sequence keeps the
order of the trace: each get stands between the call that it answers and the return of that
call (`Placed`).
-/

namespace EventFlags.Channel

variable {w : Nat} {E : Type} (C : Channel E w)

/-! ## What posts and gets give -/

/-- The flags after an operation.  A get that finds nothing changes nothing. -/
def apply (flags : BitVec w) : Op E → BitVec w
  | .post e => C.post flags e
  | .get => (C.get flags).2

/-- The flags after operations. -/
def after (flags : BitVec w) (ops : List (Op E)) : BitVec w := ops.foldl C.apply flags

/-- What an operation gives the receiver. -/
def given (flags : BitVec w) : Op E → List (Option E)
  | .post _ => []
  | .get => if C.Returns flags then [(C.get flags).1] else []

/-- What the gets that return assign, in their order. -/
def results : BitVec w → List (Op E) → List (Option E)
  | _, [] => []
  | flags, op :: ops => C.given flags op ++ results (C.apply flags op) ops

/-- The events posted. -/
def posts (ops : List (Op E)) : List E :=
  ops.filterMap fun op => match op with
    | .post e => some e
    | .get => none

theorem results_concat (flags : BitVec w) (ops : List (Op E)) (op : Op E) :
    C.results flags (ops ++ [op]) = C.results flags ops ++ C.given (C.after flags ops) op := by
  induction ops generalizing flags with
  | nil => exact List.append_nil _
  | cons op' ops ih =>
    rw [List.cons_append, results, ih, results, List.append_assoc]
    rfl

theorem after_concat (flags : BitVec w) (ops : List (Op E)) (op : Op E) :
    C.after flags (ops ++ [op]) = C.apply (C.after flags ops) op := List.foldl_concat ..

/-! ## The place of a get -/

/-- What concerns the receiver of a channel.  All but the get is seen from outside. -/
inductive Moment (E : Type) where
  | post (e : E)
  | call
  /-- The call gets what its return assigns. -/
  | get (r : Option E)
  | ret (r : Option E)
  | fail

/-- The operation of a moment. -/
def Moment.op : Moment E → Option (Op E)
  | .post e => some (.post e)
  | .get _ => some .get
  | .call => none
  | .ret _ => none
  | .fail => none

/-- A moment that a trace shows. -/
def Moment.seen : Moment E → Bool
  | .get _ => false
  | _ => true

/-- Where the receiver is with its call. -/
inductive Stand (E : Type) where
  | idle
  | waits
  | got (r : Option E)

/-- The moments lead the receiver there: each of its calls gets once and then returns that, or
fails. -/
inductive Spans : List (Moment E) → Stand E → Prop where
  | nil : Spans [] .idle
  | post {ms : List (Moment E)} {c : Stand E} (e : E) : Spans ms c → Spans (ms ++ [.post e]) c
  | call {ms : List (Moment E)} : Spans ms .idle → Spans (ms ++ [.call]) .waits
  | get {ms : List (Moment E)} (r : Option E) :
      Spans ms .waits → Spans (ms ++ [.get r]) (.got r)
  | ret {ms : List (Moment E)} {r : Option E} :
      Spans ms (.got r) → Spans (ms ++ [.ret r]) .idle
  | fail {ms : List (Moment E)} : Spans ms .waits → Spans (ms ++ [.fail]) .idle

/-! ## Flags of the mask -/

section Masked

variable {C} {flags flags' set : BitVec w}

theorem received_send (flags set mask : BitVec w) :
    received (send flags set) mask = received flags mask ||| received set mask := by
  unfold received send
  ext k hk
  simp only [BitVec.getElem_and, BitVec.getElem_or, Bool.and_or_distrib_right]

theorem received_cleared (flags mask : BitVec w) : received (cleared flags mask) mask = 0#w := by
  unfold received cleared
  ext k hk
  simp only [BitVec.getElem_and, BitVec.getElem_not, BitVec.getElem_zero]
  cases flags[k] <;> cases mask[k] <;> rfl

/-- A receive of other flags leaves those of the mask. -/
theorem received_cleared_of_apart {mask mask' : BitVec w} (h : mask' &&& mask = 0#w) :
    received (cleared flags mask') mask = received flags mask := by
  unfold received cleared
  ext k hk
  have hbit : (mask'[k] && mask[k]) = false := by
    rw [← BitVec.getElem_and, h, BitVec.getElem_zero]
  simp only [BitVec.getElem_and, BitVec.getElem_not]
  cases hm : mask'[k] with
  | false => simp
  | true =>
    rw [hm, Bool.true_and] at hbit
    simp [hbit]

/-- A get depends on the flags of the mask only. -/
theorem given_congr (h : received flags C.mask = received flags' C.mask) (op : Op E) :
    C.given flags op = C.given flags' op := by
  cases op with
  | post e => rfl
  | get =>
    have hreturns : C.Returns flags ↔ C.Returns flags' := by
      rw [C.returns_iff, C.returns_iff, h]
    have hget : (C.get flags).1 = (C.get flags').1 := congrArg C.decode h
    unfold given
    simp only [hget, hreturns]

/-- The word of an event is not among flags beside the mask. -/
theorem decode_of_apart (h : set &&& C.mask = 0#w) : C.decode set = none := by
  cases hd : C.decode set with
  | none => rfl
  | some e =>
    have hbit := congrArg (·.getLsbD (C.bit e)) h
    have hm : C.mask.getLsbD (C.bit e) = true := (C.mask_bit _).mpr ⟨e, rfl⟩
    rw [(C.decode_eq _ _).mp hd] at hbit
    simp [C.code_bit, hm] at hbit

end Masked

/-! ## The receiver -/

/-- What the receiver asks for. -/
def receive : BlockingFlags.Receive w where
  mask := C.mask
  all := false
  clear := true

theorem receive_holds_iff (flags : BitVec w) : C.receive.Holds flags ↔ C.Returns flags := by
  rw [C.returns_iff]
  exact Iff.of_eq (if_neg Bool.false_ne_true)

section Receiver

open Blocking BlockingFlags Transition

variable {ι : Type} [DecidableEq ι] (p : ι)

/-- What is seen of flags. -/
abbrev FlagLabel (ι : Type) (w : Nat) : Type := Label (BitVec w) ι (BitVec w) (Receive w) (BitVec w)

/-- Where a thread is with its receive. -/
abbrev FlagCall (w : Nat) : Type := Call (Receive w) (BitVec w)

/-- The channel has `p` as its receiver. -/
def Uses : FlagLabel ι w → Prop
  | .update set => (∃ e, set = C.code e) ∨ set &&& C.mask = 0#w
  | .reset _ => False
  | .call i q => if i = p then q = C.receive else q.mask &&& C.mask = 0#w
  | .ret _ _ _ => True

/-- The events posted in a trace. -/
def posted (tr : List (FlagLabel ι w)) : List E :=
  tr.filterMap fun l => match l with
    | .update set => C.decode set
    | _ => none

/-- What the returns of the receiver's calls assign, in their order. -/
def assigns (tr : List (FlagLabel ι w)) : List (Option E) :=
  tr.filterMap fun l => match l with
    | .ret i _ (some flags) => if i = p then some (C.decode flags) else none
    | _ => none

/-- What the receiver has got and not returned yet. -/
def held (c : FlagCall w) : List (Option E) :=
  match c with
  | .got _ flags => [C.decode flags]
  | _ => []

/-- The moment that a label shows. -/
def moment : FlagLabel ι w → Option (Moment E)
  | .update set => (C.decode set).map .post
  | .reset _ => none
  | .call i _ => if i = p then some .call else none
  | .ret i _ (some flags) => if i = p then some (.ret (C.decode flags)) else none
  | .ret i _ none => if i = p then some .fail else none

/-- Where a call is.  One that is about to fail still waits. -/
def stand : FlagCall w → Stand E
  | .idle => .idle
  | .waits _ => .waits
  | .got _ flags => .got (C.decode flags)
  | .failed _ => .waits

/-- One sequence of moments does `ops`, shows the trace, and leads to where the call is. -/
def Placed (ops : List (Op E)) (tr : List (FlagLabel ι w)) (c : FlagCall w) : Prop :=
  ∃ ms : List (Moment E), ms.filterMap Moment.op = ops ∧
    ms.filter Moment.seen = tr.filterMap (C.moment p) ∧ Spans ms (C.stand c)

/-- The calls are those of a channel that `p` receives. -/
def CallsUse (calls : ι → FlagCall w) : Prop :=
  ∀ i q, (calls i = .waits q ∨ ∃ flags, calls i = .got q flags) →
    if i = p then q = C.receive else q.mask &&& C.mask = 0#w

/-- A trace and its state are those of a sequence of posts and gets. -/
structure Behaves (ops : List (Op E)) (tr : List (FlagLabel ι w))
    (x : Object (BitVec w) ι (Receive w) (BitVec w)) : Prop where
  posted : posts ops = C.posted tr
  results : C.results 0#w ops = C.assigns p tr ++ C.held (x.calls p)
  flags : received x.state C.mask = received (C.after 0#w ops) C.mask
  /-- Each get lies between the call that it answers and its return. -/
  places : C.Placed p ops tr (x.calls p)

variable {C p} {ops : List (Op E)} {tr : List (FlagLabel ι w)}
  {x y : Object (BitVec w) ι (Receive w) (BitVec w)} {i : ι}

omit [DecidableEq ι] in
theorem posted_append (tr tr' : List (FlagLabel ι w)) :
    C.posted (tr ++ tr') = C.posted tr ++ C.posted tr' := List.filterMap_append ..

theorem assigns_append (tr tr' : List (FlagLabel ι w)) :
    C.assigns p (tr ++ tr') = C.assigns p tr ++ C.assigns p tr' := List.filterMap_append ..

theorem posts_concat (ops : List (Op E)) (op : Op E) :
    posts (ops ++ [op]) = posts ops ++ posts [op] := List.filterMap_append ..

/-- A label that shows a moment. -/
theorem Placed.shown {c c' : FlagCall w} {l : FlagLabel ι w} {m : Moment E}
    (h : C.Placed p ops tr c) (hl : C.moment p l = some m) (hm : m.seen = true)
    (hspans : ∀ ms, Spans ms (C.stand c) → Spans (ms ++ [m]) (C.stand c')) :
    C.Placed p (ops ++ m.op.toList) (tr ++ [l]) c' := by
  obtain ⟨ms, rfl, hseen, hms⟩ := h
  refine ⟨ms ++ [m], ?_, ?_, hspans ms hms⟩
  · cases hop : m.op <;> simp [hop]
  · rw [List.filter_append, List.filterMap_append, hseen]
    simp [hl, hm]

/-- A label that shows a call or a return. -/
theorem Placed.part {c c' : FlagCall w} {l : FlagLabel ι w} {m : Moment E}
    (h : C.Placed p ops tr c) (hl : C.moment p l = some m) (hm : m.seen = true)
    (hop : m.op = none) (hspans : ∀ ms, Spans ms (C.stand c) → Spans (ms ++ [m]) (C.stand c')) :
    C.Placed p ops (tr ++ [l]) c' := by
  have hshown := h.shown hl hm hspans
  rw [hop, Option.toList_none, List.append_nil] at hshown
  exact hshown

/-- Labels of other threads. -/
theorem Placed.hidden {c : FlagCall w} {l : List (FlagLabel ι w)} (h : C.Placed p ops tr c)
    (hl : l.filterMap (C.moment p) = []) : C.Placed p ops (tr ++ l) c := by
  obtain ⟨ms, hops, hseen, hms⟩ := h
  refine ⟨ms, hops, ?_, hms⟩
  rw [List.filterMap_append, hl, List.append_nil, hseen]

/-- A call that waits gets. -/
theorem Placed.got {q q' : Receive w} (h : C.Placed p ops tr (.waits q)) (flags : BitVec w) :
    C.Placed p (ops ++ [.get]) tr (.got q' flags) := by
  obtain ⟨ms, rfl, hseen, hms⟩ := h
  refine ⟨ms ++ [.get (C.decode flags)], ?_, ?_, hms.get _⟩
  · rw [List.filterMap_append]
    rfl
  · rw [List.filter_append, hseen]
    exact List.append_nil _

/-- A change of one call keeps the use of the channel if the new call does. -/
theorem CallsUse.update {c : FlagCall w} (h : C.CallsUse p x.calls)
    (hc : ∀ q, (c = .waits q ∨ ∃ flags, c = .got q flags) →
      if i = p then q = C.receive else q.mask &&& C.mask = 0#w) :
    C.CallsUse p (Function.update x.calls i c) := by
  intro j q hj
  by_cases hne : j = i
  · subst hne
    rw [Function.update_self] at hj
    exact hc q hj
  · rw [Function.update_of_ne hne] at hj
    exact h j q hj

theorem CallsUse.idle (h : C.CallsUse p x.calls) (i : ι) :
    C.CallsUse p (Function.update x.calls i .idle) :=
  h.update (by
    rintro q' (heq | ⟨flags, heq⟩)
    · cases heq
    · cases heq)

/-- A step that neither posts nor gets. -/
theorem Behaves.silent {l : List (FlagLabel ι w)} (h : C.Behaves p ops tr x)
    (hposted : C.posted l = [])
    (hheld : C.assigns p l ++ C.held (y.calls p) = C.held (x.calls p))
    (hflags : received y.state C.mask = received x.state C.mask)
    (hplaces : C.Placed p ops (tr ++ l) (y.calls p)) : C.Behaves p ops (tr ++ l) y where
  posted := by rw [h.posted, posted_append, hposted, List.append_nil]
  results := by rw [h.results, assigns_append, List.append_assoc, hheld]
  flags := hflags.trans h.flags
  places := hplaces

/-- A part of the receiver's call. -/
theorem Behaves.own {l : List (FlagLabel ι w)} {c : FlagCall w} (h : C.Behaves p ops tr x)
    (hposted : C.posted l = []) (hheld : C.assigns p l ++ C.held c = C.held (x.calls p))
    (hplaces : C.Placed p ops (tr ++ l) c) :
    C.Behaves p ops (tr ++ l) { x with calls := Function.update x.calls p c } := by
  have hcall : Function.update x.calls p c p = c := Function.update_self ..
  exact h.silent hposted ((congrArg (C.assigns p l ++ C.held ·) hcall).trans hheld) rfl
    ((congrArg (C.Placed p ops (tr ++ l)) hcall).mpr hplaces)

/-- A part of another thread's call. -/
theorem Behaves.other {l : List (FlagLabel ι w)} {c : FlagCall w} (h : C.Behaves p ops tr x)
    (hi : i ≠ p) (hposted : C.posted l = []) (hassigns : C.assigns p l = [])
    (hmoment : l.filterMap (C.moment p) = []) :
    C.Behaves p ops (tr ++ l) { x with calls := Function.update x.calls i c } := by
  have hcall : Function.update x.calls i c p = x.calls p := Function.update_of_ne (Ne.symm hi) ..
  refine h.silent hposted ?_ rfl ?_
  · rw [hassigns, List.nil_append]
    exact congrArg C.held hcall
  · exact (congrArg (C.Placed p ops (tr ++ l)) hcall).mpr (h.places.hidden hmoment)

theorem Behaves.send {set : BitVec w} (h : C.Behaves p ops tr x)
    (huses : (∃ e, set = C.code e) ∨ set &&& C.mask = 0#w) :
    ∃ ops', C.Behaves p ops' (tr ++ [.update set]) { x with state := send x.state set } := by
  rcases huses with ⟨e, rfl⟩ | hapart
  · have hdecode : C.decode (C.code e) = some e := (C.decode_eq _ _).mpr rfl
    refine ⟨ops ++ [.post e], ?_, ?_, ?_, ?_⟩
    · rw [posts_concat, h.posted, posted_append]
      simp [posts, Channel.posted, hdecode]
    · rw [results_concat, h.results, assigns_append]
      simp [given, assigns]
    · rw [received_send, h.flags, after_concat]
      exact (received_send ..).symm
    · have hmoment : C.moment p (.update (C.code e)) = some (.post e) :=
        congrArg (Option.map Moment.post) hdecode
      exact h.places.shown hmoment rfl fun _ hms => hms.post e
  · have hdecode : C.decode set = none := decode_of_apart hapart
    refine ⟨ops, h.silent ?_ (by simp [assigns]) ?_ (h.places.hidden ?_)⟩
    · simp [Channel.posted, hdecode]
    · have hzero : received set C.mask = 0#w := hapart
      rw [received_send, hzero, BitVec.or_zero]
    · simp [moment, hdecode]

theorem Behaves.take {q : Receive w} (h : C.Behaves p ops tr x) (hwaits : x.calls i = .waits q)
    (hq : q.Holds x.state) (huses : if i = p then q = C.receive else q.mask &&& C.mask = 0#w) :
    ∃ ops', C.Behaves p ops' tr {
      state := q.left x.state
      calls := Function.update x.calls i (.got q (received x.state q.mask)) } := by
  by_cases hi : i = p
  · subst hi
    rw [if_pos rfl] at huses
    subst huses
    have hreturns : C.Returns x.state := (C.receive_holds_iff _).mp hq
    have hgiven : C.given (C.after 0#w ops) .get = [C.decode (received x.state C.mask)] := by
      rw [given_congr h.flags.symm]
      exact if_pos hreturns
    have hplaces := h.places
    rw [hwaits] at hplaces
    refine ⟨ops ++ [.get], ?_, ?_, ?_, ?_⟩
    · rw [posts_concat, h.posted]
      exact List.append_nil _
    · rw [results_concat, h.results, hgiven, hwaits]
      simp [held, receive]
    · rw [after_concat]
      exact (received_cleared ..).trans (received_cleared ..).symm
    · have hcall := Function.update_self i (Call.got C.receive (received x.state C.mask)) x.calls
      exact (congrArg (C.Placed i _ tr) hcall).mpr (hplaces.got _)
  · rw [if_neg hi] at huses
    refine ⟨ops, h.posted, ?_, ?_, ?_⟩
    · rw [h.results]
      dsimp only
      rw [Function.update_of_ne (Ne.symm hi)]
    · refine Eq.trans ?_ h.flags
      unfold Receive.left
      split
      · exact received_cleared_of_apart huses
      · rfl
    · have hcall :=
        Function.update_of_ne (Ne.symm hi) (Call.got q (received x.state q.mask)) x.calls
      exact (congrArg (C.Placed p ops tr) hcall).mpr h.places

/-- A step keeps what the receiver sees, as long as the channel has the receiver. -/
theorem Behaves.step {a : Action (BitVec w) ι (BitVec w) (Receive w)} (h : C.Behaves p ops tr x)
    (hcalls : C.CallsUse p x.calls) (hst : (flagSpec w).step x a = some y)
    (huses : ∀ l ∈ Spec.label x a, C.Uses p l) :
    (∃ ops', C.Behaves p ops' (tr ++ Spec.label x a) y) ∧ C.CallsUse p y.calls := by
  cases Spec.stepTo hst with
  | update set => exact ⟨h.send (huses _ List.mem_cons_self), hcalls⟩
  | reset s => exact (huses _ List.mem_cons_self).elim
  | @call i q hc =>
    have huse : if i = p then q = C.receive else q.mask &&& C.mask = 0#w :=
      huses _ List.mem_cons_self
    refine ⟨⟨ops, ?_⟩, hcalls.update ?_⟩
    · by_cases hi : i = p
      · subst hi
        have hplaces := h.places
        rw [hc] at hplaces
        refine h.own rfl (by simp [assigns, held, Spec.label, hc]) ?_
        exact hplaces.part (m := .call) (by simp [moment]) rfl rfl fun _ hms => hms.call
      · exact h.other hi rfl rfl (by simp [moment, Spec.label, hi])
    · rintro q' (heq | ⟨flags, heq⟩)
      · cases heq
        exact huse
      · cases heq
  | @take i q hc hq =>
    have huse := hcalls i q (Or.inl hc)
    obtain ⟨ops', hbehaves⟩ := h.take hc hq huse
    refine ⟨⟨ops', (List.append_nil tr).symm ▸ hbehaves⟩, hcalls.update ?_⟩
    rintro q' (heq | ⟨flags, heq⟩)
    · cases heq
    · cases heq
      exact huse
  | @fail i q hc hq =>
    refine ⟨⟨ops, ?_⟩, hcalls.update ?_⟩
    · by_cases hi : i = p
      · subst hi
        have hplaces := h.places
        rw [hc] at hplaces
        exact h.own rfl (by simp [assigns, held, Spec.label, hc]) (hplaces.hidden rfl)
      · exact h.other hi rfl rfl rfl
    · rintro q' (heq | ⟨flags, heq⟩)
      · cases heq
      · cases heq
  | @got i q flags hc =>
    have hlabel : Spec.label x (.ret i) = [(.ret i q (some flags) : FlagLabel ι w)] := by
      simp only [Spec.label, hc]
    rw [hlabel]
    refine ⟨⟨ops, ?_⟩, hcalls.idle i⟩
    by_cases hi : i = p
    · subst hi
      have hplaces := h.places
      rw [hc] at hplaces
      refine h.own rfl (by simp [assigns, held, hc]) ?_
      exact hplaces.part (m := .ret _) (by simp [moment]) rfl rfl fun _ hms => hms.ret
    · exact h.other hi rfl (by simp [assigns, hi]) (by simp [moment, hi])
  | @failed i q hc =>
    have hlabel : Spec.label x (.ret i) = [(.ret i q none : FlagLabel ι w)] := by
      simp only [Spec.label, hc]
    rw [hlabel]
    refine ⟨⟨ops, ?_⟩, hcalls.idle i⟩
    by_cases hi : i = p
    · subst hi
      have hplaces := h.places
      rw [hc] at hplaces
      refine h.own rfl (by simp [assigns, held, hc]) ?_
      exact hplaces.part (m := .fail) (by simp [moment]) rfl rfl fun _ hms => hms.fail
    · exact h.other hi rfl rfl (by simp [moment, hi])

/-- A trace of the object is one of single posts and gets, for the receiver of a channel. -/
theorem exists_ops
    (h : (flagSpec w).Runs { state := 0#w, calls := fun _ => Call.idle } tr x)
    (huses : ∀ l ∈ tr, C.Uses p l) :
    (∃ ops, C.Behaves p ops tr x) ∧ C.CallsUse p x.calls := by
  induction h with
  | nil =>
    refine ⟨⟨[], rfl, rfl, rfl, [], rfl, rfl, .nil⟩, ?_⟩
    rintro i q (heq | ⟨flags, heq⟩)
    · cases heq
    · cases heq
  | snoc _ hst ih =>
    obtain ⟨⟨ops, hbehaves⟩, hcalls⟩ := ih fun l hl => huses l (List.mem_append_left _ hl)
    exact hbehaves.step hcalls hst fun l hl => huses l (List.mem_append_right _ hl)

end Receiver

end EventFlags.Channel
