import FreeModbus.Lib.SerialLine

/-!
# A serial line cut by silences

On a line without delimiters a frame ends where the line falls silent.  What a
receiver sees is a sequence of signals: items, and expiries of a timer that every
item starts anew.  The silences cut the items into segments.

A program that takes items as a `Receiver` does and hands over what it has at each
silence (`Segmenter`) hands over exactly the segments that fit its buffer, without
the first one if it starts deaf (`Segmenter.outputs_eq`).
-/

namespace SerialLine

open ByteMemory

variable {α β σ A : Type*}

/-! ## Runs with outputs -/

/-- The outputs of a program that may give one in each step.  `none` if a step is not enabled. -/
def outputs (step : σ → A → Option (σ × Option β)) : σ → List A → Option (List β)
  | _, [] => some []
  | s, a :: l => (step s a).bind fun r => (outputs step r.1 l).map (r.2.toList ++ ·)

section Outputs

variable {step : σ → A → Option (σ × Option β)} {s s' : σ} {a : A}

theorem outputs_cons (h : step s a = some (s', none)) (l : List A) :
    outputs step s (a :: l) = outputs step s' l := by
  rw [outputs, h, Option.bind_some]
  cases outputs step s' l with
  | none => rfl
  | some out => rfl

theorem outputs_cons_some {b : β} (h : step s a = some (s', some b)) (l : List A) :
    outputs step s (a :: l) = (outputs step s' l).map (b :: ·) := by
  rw [outputs, h, Option.bind_some]
  rfl

theorem outputs_cons_none (h : step s a = none) (l : List A) :
    outputs step s (a :: l) = none := by
  rw [outputs, h, Option.bind_none]

/-- The outputs of a run, step by step. -/
theorem outputs_cons_eq_some {l : List A} {out : List β}
    (h : outputs step s (a :: l) = some out) :
    ∃ s' o rest, step s a = some (s', o) ∧ outputs step s' l = some rest ∧
      out = o.toList ++ rest := by
  rw [outputs] at h
  obtain ⟨⟨s', o⟩, hstep, h⟩ := Option.bind_eq_some_iff.mp h
  obtain ⟨rest, hrest, rfl⟩ := Option.map_eq_some_iff.mp h
  exact ⟨s', o, rest, hstep, hrest, rfl⟩

end Outputs

/-! ## Signals -/

/-- What is seen of a line. -/
inductive Signal (α : Type*) where
  | item (a : α)
  /-- The line has been silent until the timer expired. -/
  | silence
deriving Repr, DecidableEq

/-- A timer that items start and silences stop runs at every silence.  It runs at the
beginning if `armed`. -/
def Timed : (armed : Bool) → List (Signal α) → Bool
  | _, [] => true
  | _, .item _ :: l => Timed true l
  | armed, .silence :: l => armed && Timed false l

/-- The segments that silences end, where the items `cur` were there before. -/
def segmentsFrom : (cur : List α) → List (Signal α) → List (List α)
  | _, [] => []
  | cur, .item a :: l => segmentsFrom (cur ++ [a]) l
  | cur, .silence :: l => cur :: segmentsFrom [] l

/-- The segments that silences end.  The items behind the last silence are none yet. -/
def segments (l : List (Signal α)) : List (List α) := segmentsFrom [] l

theorem segmentsFrom_silence (pre l : List (Signal α)) (cur : List α) :
    segmentsFrom cur (pre ++ .silence :: l) =
      segmentsFrom cur (pre ++ [.silence]) ++ segments l := by
  induction pre generalizing cur with
  | nil => rfl
  | cons x pre ih =>
    cases x with
    | item a => exact ih _
    | silence => exact congrArg (cur :: ·) (ih [])

/-- The segments behind the first, cut at a later silence. -/
theorem drop_segments (pre l : List (Signal α)) :
    (segments (pre ++ .silence :: l)).drop 1 =
      (segments (pre ++ [.silence])).drop 1 ++ segments l := by
  have hne : ∀ cur : List α, 1 ≤ (segmentsFrom cur (pre ++ [.silence])).length := by
    induction pre with
    | nil => exact fun _ => Nat.le_refl 1
    | cons x pre ih =>
      intro cur
      cases x with
      | item a => exact ih _
      | silence => exact Nat.succ_le_succ (Nat.zero_le _)
  rw [segments, segmentsFrom_silence]
  exact List.drop_append_of_le_length (hne [])

theorem segmentsFrom_items (seg cur : List α) (l : List (Signal α)) :
    segmentsFrom cur (seg.map .item ++ .silence :: l) = (cur ++ seg) :: segments l := by
  induction seg generalizing cur with
  | nil =>
    rw [List.append_nil]
    rfl
  | cons a seg ih =>
    rw [List.map_cons, List.cons_append, segmentsFrom, ih, List.append_assoc,
      List.singleton_append]

theorem timed_silence (armed : Bool) (pre l : List (Signal α)) :
    Timed armed (pre ++ .silence :: l) = (Timed armed (pre ++ [.silence]) && Timed false l) := by
  induction pre generalizing armed with
  | nil =>
    cases armed with
    | true => rfl
    | false => rfl
  | cons x pre ih =>
    cases x with
    | item a => exact ih true
    | silence =>
      rw [List.cons_append, List.cons_append, Timed, Timed, ih false, Bool.and_assoc]

theorem timed_items {seg : List α} (hne : seg ≠ []) (armed : Bool) (l : List (Signal α)) :
    Timed armed (seg.map .item ++ .silence :: l) = Timed false l := by
  cases seg with
  | nil => exact absurd rfl hne
  | cons a seg =>
    rw [List.map_cons, List.cons_append, Timed]
    induction seg with
    | nil => rfl
    | cons b seg ih => exact ih (List.cons_ne_nil _ _)

/-! ## Receivers that a silence ends -/

/-- A receiver in a buffer of `size` items, at a point where the current segment is `cur`. -/
inductive Receiver.AtSegment (size : Nat) (r : Receiver α) : (armed : Bool) → List α → Prop where
  | empty : r.mode = .idle → AtSegment size r false []
  | fits {cur : List α} : r.mode = .receiving → r.pos = cur.length → r.buf.Holds 0 cur →
      cur.length ≤ size → AtSegment size r true cur
  | overlong {cur : List α} : r.mode = .deaf → size < cur.length → AtSegment size r true cur

/-- One more item. -/
theorem Receiver.AtSegment.take {size : Nat} {r : Receiver α} {armed : Bool} {cur : List α}
    (hsize : 0 < size) (h : r.AtSegment size armed cur) (a : α) :
    (r.take size a).AtSegment size true (cur ++ [a]) := by
  cases h with
  | empty hmode =>
    have htake : r.take size a = ⟨.receiving, Function.update r.buf 0 a, 1⟩ := by
      rw [Receiver.take, hmode]
    have hfirst : Mem.Holds (Function.update r.buf 0 a) 0 [a] :=
      Mem.holds_cons.mpr ⟨Function.update_self .., Mem.holds_nil ..⟩
    rw [htake]
    exact .fits rfl rfl hfirst hsize
  | fits hmode hpos hbuf hlen =>
    rcases Nat.lt_or_eq_of_le hlen with hlt | hfull
    · have htake : r.take size a =
          { r with buf := Function.update r.buf r.pos a, pos := r.pos + 1 } := by
        rw [Receiver.take, hmode]
        exact if_pos (hpos ▸ hlt)
      rw [htake]
      refine .fits hmode ?_ ?_ ?_
      · rw [List.length_append, ← hpos]
        rfl
      · rw [Mem.holds_append, Nat.zero_add, Mem.holds_cons, ← hpos]
        exact ⟨hbuf.update (Or.inr (by omega)) a, Function.update_self .., Mem.holds_nil ..⟩
      · rw [List.length_append]
        exact hlt
    · have htake : r.take size a = { r with mode := .deaf } := by
        rw [Receiver.take, hmode]
        exact if_neg (by omega)
      rw [htake]
      refine .overlong rfl ?_
      rw [List.length_append, hfull]
      exact Nat.lt_succ_self size
  | overlong hmode hlen =>
    have htake : r.take size a = r := by
      rw [Receiver.take, hmode]
    rw [htake]
    refine .overlong hmode ?_
    rw [List.length_append]
    exact Nat.lt_succ_of_lt hlen

/-- What a receiver has to hand over. -/
def Receiver.content (r : Receiver α) : Option (List α) :=
  if r.mode = .receiving then some (slice r.buf 0 r.pos) else none

theorem Receiver.AtSegment.content {size : Nat} {r : Receiver α} {cur : List α}
    (h : r.AtSegment size true cur) :
    r.content.toList = if cur.length ≤ size then [cur] else [] := by
  unfold Receiver.content
  cases h with
  | fits hmode hpos hbuf hlen =>
    rw [if_pos hmode, if_pos hlen, hpos]
    exact congrArg (fun c => [c]) hbuf
  | overlong hmode hlen =>
    rw [hmode, if_neg (Nat.not_le.mpr hlen)]
    rfl

/-- A program that takes items as a receiver does, starts its timer with each of them, and hands
over at a silence what it has. -/
structure Segmenter (size : Nat) (step : σ → Signal α → Option (σ × Option β))
    (view : σ → Receiver α) (armed : σ → Bool) (content : β → List α) : Prop where
  item (s : σ) (a : α) : ∃ s', step s (.item a) = some (s', none) ∧
    view s' = (view s).take size a ∧ armed s' = true
  unarmed (s : σ) : armed s = false → step s .silence = none
  silence (s : σ) : armed s = true → ∃ s' o, step s .silence = some (s', o) ∧
    (view s').mode = .idle ∧ armed s' = false ∧ o.map content = (view s).content

namespace Segmenter

variable {size : Nat} {step : σ → Signal α → Option (σ × Option β)} {view : σ → Receiver α}
  {armed : σ → Bool} {content : β → List α} {s : σ}

/-- A program that ends the segment with `expired`, and goes on with `handle` where it was
receiving. -/
theorem of_expired {step : σ → Signal α → Option (σ × Option σ)} {content : σ → List α}
    {expired handle : σ → σ}
    (hitem : ∀ s a, ∃ s', step s (.item a) = some (s', none) ∧
      view s' = (view s).take size a ∧ armed s' = true)
    (hunarmed : ∀ s, armed s = false → step s .silence = none)
    (hframe : ∀ s, armed s = true → (view s).mode = .receiving →
      step s .silence = some (handle (expired s), some (expired s)))
    (hquiet : ∀ s, armed s = true → (view s).mode ≠ .receiving →
      step s .silence = some (expired s, none))
    (hexpired : ∀ s, view (expired s) = { view s with mode := .idle } ∧ armed (expired s) = false)
    (hhandle : ∀ s, view (handle s) = view s ∧ armed (handle s) = armed s)
    (hcontent : ∀ s, content s = slice (view s).buf 0 (view s).pos) :
    Segmenter size step view armed content := by
  refine ⟨hitem, hunarmed, fun s harmed => ?_⟩
  obtain ⟨hview, hoff⟩ := hexpired s
  by_cases hmode : (view s).mode = .receiving
  · refine ⟨_, _, hframe s harmed hmode, ?_, (hhandle _).2.trans hoff, ?_⟩
    · rw [(hhandle _).1, hview]
    · rw [Receiver.content, if_pos hmode, Option.map_some, hcontent, hview]
  · refine ⟨_, _, hquiet s harmed hmode, congrArg Receiver.mode hview, hoff, ?_⟩
    rw [Receiver.content, if_neg hmode]
    rfl

/-- An expiry, and the signals that follow it. -/
theorem outputs_silence (h : Segmenter size step view armed content) (harmed : armed s = true)
    (l : List (Signal α)) : ∃ s', (view s').mode = .idle ∧ armed s' = false ∧
      (outputs step s (.silence :: l)).map (List.map content) =
        ((outputs step s' l).map (List.map content)).map ((view s).content.toList ++ ·) := by
  obtain ⟨s', o, hstep, hidle, hoff, hcontent⟩ := h.silence s harmed
  refine ⟨s', hidle, hoff, ?_⟩
  rw [← hcontent]
  cases o with
  | none =>
    rw [outputs_cons hstep]
    cases outputs step s' l with
    | none => rfl
    | some out => rfl
  | some b =>
    rw [outputs_cons_some hstep]
    cases outputs step s' l with
    | none => rfl
    | some out => rfl

/-- From within a segment on, the segments that fit are handed over. -/
theorem outputs_atSegment (hsize : 0 < size) (h : Segmenter size step view armed content)
    (l : List (Signal α)) {cur : List α} (hcur : (view s).AtSegment size (armed s) cur) :
    (outputs step s l).map (List.map content) =
      if Timed (armed s) l then some ((segmentsFrom cur l).filter (·.length ≤ size)) else none := by
  induction l generalizing s cur with
  | nil => rfl
  | cons x l ih =>
    cases x with
    | item a =>
      obtain ⟨s', hstep, hview, harmed⟩ := h.item s a
      have hnext : (view s').AtSegment size (armed s') (cur ++ [a]) := by
        rw [hview, harmed]
        exact hcur.take hsize a
      rw [outputs_cons hstep, ih hnext, harmed]
      rfl
    | silence =>
      cases harmed : armed s with
      | false =>
        rw [outputs_cons_none (h.unarmed s harmed)]
        rfl
      | true =>
        rw [harmed] at hcur
        obtain ⟨s', hidle, hoff, hout⟩ := h.outputs_silence harmed l
        have hnext : (view s').AtSegment size (armed s') [] := by
          rw [hoff]
          exact .empty hidle
        have hfilter : (segmentsFrom cur (.silence :: l)).filter (·.length ≤ size) =
            (view s).content.toList ++ (segments l).filter (·.length ≤ size) := by
          rw [hcur.content, segmentsFrom, List.filter_cons]
          by_cases hlen : cur.length ≤ size
          · rw [if_pos hlen, if_pos (decide_eq_true hlen)]
            rfl
          · rw [if_neg hlen, if_neg (by simpa using hlen)]
            rfl
        rw [hout, ih hnext, hoff, hfilter, Timed, Bool.true_and]
        cases Timed false l with
        | false => rfl
        | true => rfl

/-- A program that starts deaf with its timer running hands over all segments that fit but the
first. -/
theorem outputs_eq (hsize : 0 < size) (h : Segmenter size step view armed content)
    (hdeaf : (view s).mode = .deaf) (harmed : armed s = true) (l : List (Signal α)) :
    (outputs step s l).map (List.map content) =
      if Timed true l then some (((segments l).drop 1).filter (·.length ≤ size)) else none := by
  have hfrom : ∀ cur, (outputs step s l).map (List.map content) =
      if Timed true l then some (((segmentsFrom cur l).drop 1).filter (·.length ≤ size))
      else none := by
    induction l generalizing s with
    | nil => exact fun _ => rfl
    | cons x l ih =>
      intro cur
      cases x with
      | item a =>
        obtain ⟨s', hstep, hview, harmed'⟩ := h.item s a
        have htake : (view s).take size a = view s := by
          rw [Receiver.take, hdeaf]
        rw [outputs_cons hstep, ih (by rw [hview, htake, hdeaf]) harmed' (cur ++ [a])]
        rfl
      | silence =>
        obtain ⟨s', hidle, hoff, hout⟩ := h.outputs_silence harmed l
        have hnext : (view s').AtSegment size (armed s') [] := by
          rw [hoff]
          exact .empty hidle
        have hnone : (view s).content = none := by
          rw [Receiver.content, hdeaf]
          rfl
        rw [hout, h.outputs_atSegment hsize l hnext, hoff, hnone]
        cases hl : Timed false l with
        | false => simp [Timed, hl]
        | true => simp [Timed, hl, segmentsFrom]
  exact hfrom []

/-- A line on which silences come only while the timer runs is enabled. -/
theorem outputs_isSome (hsize : 0 < size) (h : Segmenter size step view armed content)
    (hdeaf : (view s).mode = .deaf) (harmed : armed s = true) {l : List (Signal α)}
    (htimed : Timed true l = true) : ∃ out, outputs step s l = some out := by
  have heq := h.outputs_eq hsize hdeaf harmed l
  rw [if_pos htimed] at heq
  obtain ⟨out, hout, -⟩ := Option.map_eq_some_iff.mp heq
  exact ⟨out, hout⟩

/-- What such a program hands over leaves room in the buffer exactly if no segment but the first
just fills it. -/
theorem room_iff (hsize : 0 < size) (h : Segmenter size step view armed content)
    (hdeaf : (view s).mode = .deaf) (harmed : armed s = true) {l : List (Signal α)}
    {out : List β} (hout : outputs step s l = some out) :
    (∀ b ∈ out, (content b).length < size) ↔
      ∀ seg ∈ (segments l).drop 1, seg.length ≠ size := by
  have heq := h.outputs_eq hsize hdeaf harmed l
  rw [hout, Option.map_some] at heq
  obtain ⟨-, hcontent⟩ := Option.ite_none_right_eq_some.mp heq.symm
  have hmap : (∀ b ∈ out, (content b).length < size) ↔
      ∀ seg ∈ out.map content, seg.length < size := by
    simp only [List.forall_mem_map]
  rw [hmap, ← Option.some.inj hcontent]
  simp only [List.mem_filter, decide_eq_true_eq]
  constructor
  · intro hall seg hseg hfull
    exact Nat.lt_irrefl size (hfull ▸ hall seg ⟨hseg, Nat.le_of_eq hfull⟩)
  · intro hall seg hseg
    exact Nat.lt_of_le_of_ne hseg.2 (hall seg hseg.1)

end Segmenter

end SerialLine
