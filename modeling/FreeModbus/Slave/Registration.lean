import FreeModbus.Lib.Transition
import FreeModbus.Slave.Functions
import Mathlib.Data.List.Nodup
import Mathlib.Data.List.TakeWhile

/-!
# Registration of handlers

`eMBRegisterCB` of `mb.c`.  It puts a handler into the first entry of the table
that is free or has that handler already, and it clears the first entry of a
code.  The dispatch takes the first entry of a code and stops at a free entry.

So the table is a map from codes to handlers as long as its entries in use come
before the free ones, with no code and no handler twice (`Compact`).  A call is
`Orderly` when it keeps the table like that.  Any other call makes the dispatch
differ from the map at once.
-/

namespace FreeModbus

open Transition

/-! ## `eMBRegisterCB` -/

section Table

variable {H : Type}

/-- The loop with a handler: the first entry that is free or has the handler is overwritten.
`none` when there is no such entry. -/
def installHandler [DecidableEq H] (ucFunctionCode : UChar) (pxHandler : H) :
    List (MBFunctionHandler H) → Option (List (MBFunctionHandler H))
  | [] => none
  | e :: es =>
      if e.pxHandler = none ∨ e.pxHandler = some pxHandler then
        some (⟨ucFunctionCode, some pxHandler⟩ :: es)
      else (installHandler ucFunctionCode pxHandler es).map (e :: ·)

/-- The loop without a handler: the first entry of the code is cleared. -/
def clearHandler (ucFunctionCode : UChar) :
    List (MBFunctionHandler H) → List (MBFunctionHandler H)
  | [] => []
  | e :: es =>
      if e.ucFunctionCode = ucFunctionCode then ⟨0, none⟩ :: es
      else e :: clearHandler ucFunctionCode es

/-- The arguments of a call. -/
structure RegisterCall (H : Type) where
  ucFunctionCode : UChar
  pxHandler : Option H

/-- `eMBRegisterCB`: the error code, and the table it leaves. -/
def eMBRegisterCB [DecidableEq H] (table : List (MBFunctionHandler H)) (call : RegisterCall H) :
    MBErrorCode × List (MBFunctionHandler H) :=
  if 0 < call.ucFunctionCode ∧ call.ucFunctionCode ≤ 127 then
    match call.pxHandler with
    | some pxHandler =>
        match installHandler call.ucFunctionCode pxHandler table with
        | some table' => (.enoerr, table')
        | none => (.enores, table)
    | none => (.enoerr, clearHandler call.ucFunctionCode table)
  else (.einval, table)

section Call

variable [DecidableEq H] {table table' : List (MBFunctionHandler H)} {c : UChar} {h : H}

theorem eMBRegisterCB_install (hcode : 0 < c ∧ c ≤ 127)
    (hi : installHandler c h table = some table') :
    eMBRegisterCB table ⟨c, some h⟩ = (.enoerr, table') := by
  simp only [eMBRegisterCB, if_pos hcode, hi]

theorem eMBRegisterCB_full (hcode : 0 < c ∧ c ≤ 127) (hi : installHandler c h table = none) :
    eMBRegisterCB table ⟨c, some h⟩ = (.enores, table) := by
  simp only [eMBRegisterCB, if_pos hcode, hi]

theorem eMBRegisterCB_clear (table : List (MBFunctionHandler H)) (hcode : 0 < c ∧ c ≤ 127) :
    eMBRegisterCB table ⟨c, none⟩ = (.enoerr, clearHandler c table) := by
  simp only [eMBRegisterCB, if_pos hcode]

theorem eMBRegisterCB_einval (table : List (MBFunctionHandler H)) {call : RegisterCall H}
    (hcode : ¬ (0 < call.ucFunctionCode ∧ call.ucFunctionCode ≤ 127)) :
    eMBRegisterCB table call = (.einval, table) := if_neg hcode

/-- A call without resources changes nothing. -/
theorem eMBRegisterCB_enores {call : RegisterCall H}
    (hst : (eMBRegisterCB table call).1 = .enores) : (eMBRegisterCB table call).2 = table := by
  obtain ⟨c, pxHandler⟩ := call
  by_cases hcode : 0 < c ∧ c ≤ 127
  · cases pxHandler with
    | none =>
      rw [eMBRegisterCB_clear _ hcode] at hst
      cases hst
    | some h =>
      cases hi : installHandler c h table with
      | none => rw [eMBRegisterCB_full hcode hi]
      | some table' =>
        rw [eMBRegisterCB_install hcode hi] at hst
        cases hst
  · rw [eMBRegisterCB_einval _ hcode]

end Call

/-! ## Compact tables -/

/-- An entry in use. -/
def entryOf (p : UChar × H) : MBFunctionHandler H := ⟨p.1, some p.2⟩

/-- The entries in use, then `k` free ones. -/
def packed (live : List (UChar × H)) (k : Nat) : List (MBFunctionHandler H) :=
  live.map entryOf ++ List.replicate k ⟨0, none⟩

/-- Entries in use with no code and no handler twice. -/
structure Compact (live : List (UChar × H)) : Prop where
  codes_ne_zero : ∀ p ∈ live, p.1 ≠ 0
  codes : (live.map Prod.fst).Nodup
  handlers : (live.map Prod.snd).Nodup

/-- A call registers a handler that is in no entry for a code that is in no entry, or the
handler that the code has already, or finds no free entry; or it removes a code and the entries
behind that of the code are free. -/
def Orderly (table : List (MBFunctionHandler H)) (call : RegisterCall H) : Prop :=
  0 < call.ucFunctionCode ∧ call.ucFunctionCode ≤ 127 →
    match call.pxHandler with
    | some pxHandler =>
        ⟨call.ucFunctionCode, some pxHandler⟩ ∈ table ∨
          ((∀ e ∈ table, e.pxHandler ≠ some pxHandler) ∧
            ((∀ e ∈ table, e.pxHandler ≠ none) ∨
              ∀ e ∈ table, e.ucFunctionCode ≠ call.ucFunctionCode))
    | none =>
        ∀ e ∈ (table.dropWhile (·.ucFunctionCode ≠ call.ucFunctionCode)).tail, e.pxHandler = none

section Compact

variable {live before after : List (UChar × H)} {p : UChar × H} {c code : UChar} {h : H} {k : Nat}
  {rest : List (MBFunctionHandler H)}

/-- The other entries have other codes and other handlers. -/
theorem Compact.others (hc : Compact (before ++ p :: after)) :
    ∀ q ∈ before ++ after, q.1 ≠ p.1 ∧ q.2 ≠ p.2 := by
  have hcodes := hc.codes
  have hhandlers := hc.handlers
  rw [List.map_append, List.map_cons, List.nodup_middle, ← List.map_append, List.nodup_cons]
    at hcodes hhandlers
  intro q hq
  constructor
  · intro heq
    exact hcodes.1 (heq ▸ List.mem_map_of_mem hq)
  · intro heq
    exact hhandlers.1 (heq ▸ List.mem_map_of_mem hq)

theorem findHandler_entryOf : findHandler code (entryOf p :: rest) =
    if p.1 = 0 then none else if p.1 = code then some p.2 else findHandler code rest := rfl

theorem mem_packed {e : MBFunctionHandler H} :
    e ∈ packed live k ↔ (∃ p ∈ live, entryOf p = e) ∨ k ≠ 0 ∧ e = ⟨0, none⟩ := by
  rw [packed, List.mem_append, List.mem_map, List.mem_replicate]

/-- Entries of other codes are passed over. -/
theorem findHandler_pass (hne : ∀ p ∈ live, p.1 ≠ 0 ∧ p.1 ≠ code) :
    findHandler code (live.map entryOf ++ rest) = findHandler code rest := by
  induction live with
  | nil => rfl
  | cons p live ih =>
    have hp := hne p (List.mem_cons_self ..)
    rw [List.map_cons, List.cons_append, findHandler_entryOf, if_neg hp.1, if_neg hp.2]
    exact ih fun q hq => hne q (List.mem_cons_of_mem _ hq)

/-- A code in use is found, whatever stands behind. -/
theorem findHandler_live (hc : Compact live) (hmem : (code, h) ∈ live) :
    findHandler code (live.map entryOf ++ rest) = some h := by
  obtain ⟨before, after, rfl⟩ := List.append_of_mem hmem
  have hpass : ∀ p ∈ before, p.1 ≠ 0 ∧ p.1 ≠ code := fun p hp =>
    ⟨hc.codes_ne_zero p (List.mem_append_left _ hp),
      (hc.others p (List.mem_append_left _ hp)).1⟩
  have hne : code ≠ 0 := hc.codes_ne_zero _ hmem
  rw [List.map_append, List.append_assoc, findHandler_pass hpass, List.map_cons, List.cons_append,
    findHandler_entryOf, if_neg hne, if_pos rfl]

theorem findHandler_free : findHandler code (⟨0, none⟩ :: rest) = none := if_pos rfl

theorem findHandler_replicate :
    findHandler code (List.replicate k (⟨0, none⟩ : MBFunctionHandler H)) = none := by
  cases k with
  | zero => rfl
  | succ k => exact findHandler_free

/-- A code that is not in use is not found. -/
theorem findHandler_packed_none (hc : Compact live) (hne : ∀ p ∈ live, p.1 ≠ code) :
    findHandler code (packed live k) = none := by
  rw [packed, findHandler_pass fun p hp => ⟨hc.codes_ne_zero p hp, hne p hp⟩,
    findHandler_replicate]

/-- In a compact table a code is found exactly with the handler it is in use with. -/
theorem findHandler_packed_iff (hc : Compact live) :
    findHandler code (packed live k) = some h ↔ (code, h) ∈ live := by
  constructor
  · intro hf
    rcases mem_packed.mp (mem_of_findHandler hf) with ⟨p, hp, heq⟩ | ⟨-, heq⟩
    · cases heq
      exact hp
    · cases heq
  · exact findHandler_live hc

/-- Two compact tables with the same handlers for a code. -/
theorem findHandler_packed_congr {live' : List (UChar × H)} {k' : Nat} (hc : Compact live)
    (hc' : Compact live') (hiff : ∀ h, (code, h) ∈ live' ↔ (code, h) ∈ live) :
    findHandler code (packed live' k') = findHandler code (packed live k) := by
  apply Option.ext
  intro h
  rw [findHandler_packed_iff hc, findHandler_packed_iff hc', hiff]

/-- The loop without a handler passes entries of other codes. -/
theorem clearHandler_pass (hne : ∀ p ∈ live, p.1 ≠ c) :
    clearHandler c (live.map entryOf ++ rest) = live.map entryOf ++ clearHandler c rest := by
  induction live with
  | nil => rfl
  | cons p live ih =>
    have hp : (entryOf p).ucFunctionCode ≠ c := hne p (List.mem_cons_self ..)
    rw [List.map_cons, List.cons_append, clearHandler, if_neg hp,
      ih fun q hq => hne q (List.mem_cons_of_mem _ hq), List.cons_append]

theorem clearHandler_replicate (hc0 : c ≠ 0) :
    clearHandler c (List.replicate k (⟨0, none⟩ : MBFunctionHandler H)) =
      List.replicate k ⟨0, none⟩ := by
  induction k with
  | zero => rfl
  | succ k ih => rw [List.replicate_succ, clearHandler, if_neg (Ne.symm hc0), ih]

/-- The entry of a code in use becomes free. -/
theorem clearHandler_live (hc : Compact (before ++ p :: after)) :
    clearHandler p.1 (packed (before ++ p :: after) k) =
      before.map entryOf ++ ⟨0, none⟩ :: packed after k := by
  have hpass : ∀ q ∈ before, q.1 ≠ p.1 := fun q hq => (hc.others q (List.mem_append_left _ hq)).1
  have hcond : (entryOf p).ucFunctionCode = p.1 := rfl
  rw [packed, List.map_append, List.append_assoc, clearHandler_pass hpass, List.map_cons,
    List.cons_append, clearHandler, if_pos hcond]
  rfl

variable [DecidableEq H]

/-- The loop with a handler passes entries of other handlers. -/
theorem installHandler_pass (hne : ∀ p ∈ live, p.2 ≠ h) :
    installHandler c h (live.map entryOf ++ rest) =
      (installHandler c h rest).map (live.map entryOf ++ ·) := by
  induction live with
  | nil => simp
  | cons p live ih =>
    have hp : ¬ ((entryOf p).pxHandler = none ∨ (entryOf p).pxHandler = some h) := by
      rintro (hnone | hsome)
      · cases hnone
      · exact hne p (List.mem_cons_self ..) (Option.some.inj hsome)
    rw [List.map_cons, List.cons_append, installHandler, if_neg hp,
      ih fun q hq => hne q (List.mem_cons_of_mem _ hq), Option.map_map]
    rfl

/-- A handler in use gets the new code. -/
theorem installHandler_live (hc : Compact (before ++ p :: after)) :
    installHandler c p.2 (packed (before ++ p :: after) k) =
      some (packed (before ++ (c, p.2) :: after) k) := by
  have hpass : ∀ q ∈ before, q.2 ≠ p.2 := fun q hq =>
    (hc.others q (List.mem_append_left _ hq)).2
  have hcond : (entryOf p).pxHandler = none ∨ (entryOf p).pxHandler = some p.2 := Or.inr rfl
  rw [packed, List.map_append, List.append_assoc, installHandler_pass hpass, List.map_cons,
    List.cons_append, installHandler, if_pos hcond]
  simp [packed, entryOf]

/-- A new handler gets the first free entry. -/
theorem installHandler_free (hne : ∀ p ∈ live, p.2 ≠ h) :
    installHandler c h (packed live (k + 1)) = some (packed (live ++ [(c, h)]) k) := by
  rw [packed, installHandler_pass hne, List.replicate_succ, installHandler, if_pos (Or.inl rfl)]
  simp [packed, entryOf]

/-- In a full table there is no place for a new handler. -/
theorem installHandler_full (hne : ∀ p ∈ live, p.2 ≠ h) :
    installHandler c h (packed live 0) = none := by
  rw [packed, installHandler_pass hne]
  rfl

end Compact

/-! ## What a call does to a compact table -/

section Course

variable {H : Type}

/-- The ways a call with a valid code can go. -/
inductive Course (live : List (UChar × H)) : Nat → RegisterCall H → Prop where
  | again {c : UChar} {h : H} {k : Nat} : (c, h) ∈ live → Course live k ⟨c, some h⟩
  | moved {c c' : UChar} {h : H} {k : Nat} {before after : List (UChar × H)} :
      live = before ++ (c', h) :: after → c' ≠ c → Course live k ⟨c, some h⟩
  | full {c : UChar} {h : H} : (∀ p ∈ live, p.2 ≠ h) → Course live 0 ⟨c, some h⟩
  | fresh {c : UChar} {h : H} {k : Nat} : (∀ p ∈ live, p.2 ≠ h) → (∀ p ∈ live, p.1 ≠ c) →
      Course live (k + 1) ⟨c, some h⟩
  | hidden {c : UChar} {h h' : H} {k : Nat} : (∀ p ∈ live, p.2 ≠ h) → (c, h') ∈ live →
      Course live (k + 1) ⟨c, some h⟩
  | absent {c : UChar} {k : Nat} : (∀ p ∈ live, p.1 ≠ c) → Course live k ⟨c, none⟩
  | last {c : UChar} {h : H} {k : Nat} {before : List (UChar × H)} :
      live = before ++ [(c, h)] → Course live k ⟨c, none⟩
  | middle {c : UChar} {h : H} {q : UChar × H} {k : Nat} {before after : List (UChar × H)} :
      live = before ++ (c, h) :: q :: after → Course live k ⟨c, none⟩

variable {live : List (UChar × H)} {c : UChar} {h : H} {k : Nat} {call : RegisterCall H}

theorem course [DecidableEq H] (live : List (UChar × H)) (k : Nat) (call : RegisterCall H) :
    Course live k call := by
  obtain ⟨c, pxHandler⟩ := call
  cases pxHandler with
  | some h =>
    by_cases hlive : ∃ p ∈ live, p.2 = h
    · obtain ⟨⟨c', h'⟩, hmem, rfl⟩ := hlive
      by_cases hcc : c' = c
      · exact .again (hcc ▸ hmem)
      · obtain ⟨before, after, hsplit⟩ := List.append_of_mem hmem
        exact .moved hsplit hcc
    · have hnew : ∀ p ∈ live, p.2 ≠ h := fun p hp heq => hlive ⟨p, hp, heq⟩
      cases k with
      | zero => exact .full hnew
      | succ k =>
        by_cases hused : ∃ p ∈ live, p.1 = c
        · obtain ⟨⟨c', h'⟩, hmem, rfl⟩ := hused
          exact .hidden hnew hmem
        · exact .fresh hnew fun p hp heq => hused ⟨p, hp, heq⟩
  | none =>
    by_cases hused : ∃ p ∈ live, p.1 = c
    · obtain ⟨⟨c', h'⟩, hmem, rfl⟩ := hused
      obtain ⟨before, after, hsplit⟩ := List.append_of_mem hmem
      cases after with
      | nil => exact .last hsplit
      | cons q after => exact .middle hsplit
    · exact .absent fun p hp heq => hused ⟨p, hp, heq⟩

/-- The call changes what is found in the table as it would change a map. -/
def ChangesMap [DecidableEq H] (table : List (MBFunctionHandler H)) (call : RegisterCall H) :
    Prop :=
  ∀ code, findHandler code (eMBRegisterCB table call).2 =
    if (eMBRegisterCB table call).1 = .enoerr ∧ call.ucFunctionCode = code then call.pxHandler
    else findHandler code table

/-- Removing what stood in the middle keeps a table compact. -/
theorem Compact.sublist (hc : Compact live) {live' : List (UChar × H)} (h : live'.Sublist live) :
    Compact live' :=
  ⟨fun p hp => hc.codes_ne_zero p (h.subset hp), hc.codes.sublist (h.map _),
    hc.handlers.sublist (h.map _)⟩

theorem Compact.push (hc : Compact live) (hc0 : c ≠ 0) (hnew : ∀ p ∈ live, p.2 ≠ h)
    (hcode : ∀ p ∈ live, p.1 ≠ c) : Compact (live ++ [(c, h)]) := by
  constructor
  · intro p hp
    rcases List.mem_append.mp hp with hp | hp
    · exact hc.codes_ne_zero p hp
    · rw [List.mem_singleton.mp hp]
      exact hc0
  · rw [List.map_append, List.map_singleton, ← List.concat_eq_append, List.nodup_concat]
    exact ⟨fun hmem => by
      obtain ⟨p, hp, heq⟩ := List.mem_map.mp hmem
      exact hcode p hp heq, hc.codes⟩
  · rw [List.map_append, List.map_singleton, ← List.concat_eq_append, List.nodup_concat]
    exact ⟨fun hmem => by
      obtain ⟨p, hp, heq⟩ := List.mem_map.mp hmem
      exact hnew p hp heq, hc.handlers⟩

variable {c' : UChar} {h' : H} {q : UChar × H} {before after : List (UChar × H)}

/-! ### Orderly calls -/

theorem valid_ne_zero (hcode : 0 < c ∧ c ≤ 127) : c ≠ 0 := by
  rintro rfl
  exact absurd hcode.1 (by decide)

theorem orderly_again (hmem : (c, h) ∈ live) : Orderly (packed live k) ⟨c, some h⟩ :=
  fun _ => Or.inl (mem_packed.mpr (Or.inl ⟨_, hmem, rfl⟩))

theorem handler_new (hnew : ∀ p ∈ live, p.2 ≠ h) :
    ∀ e ∈ packed live k, e.pxHandler ≠ some h := by
  intro e he
  rcases mem_packed.mp he with ⟨p, hp, rfl⟩ | ⟨-, rfl⟩
  · exact fun heq => hnew p hp (Option.some.inj heq)
  · exact nofun

theorem code_unused (hcode : 0 < c ∧ c ≤ 127) (hunused : ∀ p ∈ live, p.1 ≠ c) :
    ∀ e ∈ packed live k, e.ucFunctionCode ≠ c := by
  intro e he
  rcases mem_packed.mp he with ⟨p, hp, rfl⟩ | ⟨-, rfl⟩
  · exact hunused p hp
  · exact Ne.symm (valid_ne_zero hcode)

theorem orderly_full (hnew : ∀ p ∈ live, p.2 ≠ h) : Orderly (packed live 0) ⟨c, some h⟩ := by
  refine fun _ => Or.inr ⟨handler_new hnew, Or.inl fun e he => ?_⟩
  rcases mem_packed.mp he with ⟨p, hp, rfl⟩ | ⟨h0, -⟩
  · exact nofun
  · exact absurd rfl h0

theorem orderly_fresh (hnew : ∀ p ∈ live, p.2 ≠ h) (hunused : ∀ p ∈ live, p.1 ≠ c) :
    Orderly (packed live k) ⟨c, some h⟩ :=
  fun hcode => Or.inr ⟨handler_new hnew, Or.inr (code_unused hcode hunused)⟩

theorem orderly_absent (hunused : ∀ p ∈ live, p.1 ≠ c) : Orderly (packed live k) ⟨c, none⟩ := by
  intro hcode e he
  have hnil : (packed live k).dropWhile (·.ucFunctionCode ≠ c) = [] :=
    List.dropWhile_eq_nil_iff.mpr fun e he => decide_eq_true (code_unused hcode hunused e he)
  rw [hnil] at he
  cases he

/-- The entries behind that of a code. -/
theorem behind (hc : Compact (before ++ (c, h) :: after)) :
    ((packed (before ++ (c, h) :: after) k).dropWhile (·.ucFunctionCode ≠ c)).tail =
      packed after k := by
  have hpass : ∀ e ∈ before.map entryOf, decide (e.ucFunctionCode ≠ c) = true := by
    intro e he
    obtain ⟨p, hp, rfl⟩ := List.mem_map.mp he
    exact decide_eq_true (hc.others p (List.mem_append_left _ hp)).1
  rw [packed, List.map_append, List.append_assoc, List.dropWhile_append_of_pos hpass, List.map_cons,
    List.cons_append, List.dropWhile_cons_of_neg (by simp [entryOf])]
  rfl

theorem orderly_last (hc : Compact (before ++ [(c, h)])) :
    Orderly (packed (before ++ [(c, h)]) k) ⟨c, none⟩ := by
  intro _ e he
  rw [behind hc] at he
  rcases mem_packed.mp he with ⟨p, hp, rfl⟩ | ⟨-, rfl⟩
  · cases hp
  · rfl

theorem not_orderly_moved (hc : Compact (before ++ (c', h) :: after)) (hcode : 0 < c ∧ c ≤ 127)
    (hne : c' ≠ c) : ¬ Orderly (packed (before ++ (c', h) :: after) k) ⟨c, some h⟩ := by
  intro ho
  have hmem : (c', h) ∈ before ++ (c', h) :: after := by simp
  rcases ho hcode with hin | ⟨hnew, -⟩
  · rcases mem_packed.mp hin with ⟨p, hp, heq⟩ | ⟨-, heq⟩
    · cases heq
      rcases List.mem_cons.mp (List.perm_middle.mem_iff.mp hp) with heq | hp
      · exact hne (congrArg Prod.fst heq).symm
      · exact (hc.others _ hp).2 rfl
    · cases heq
  · exact hnew _ (mem_packed.mpr (Or.inl ⟨_, hmem, rfl⟩)) rfl

theorem not_orderly_hidden (hcode : 0 < c ∧ c ≤ 127) (hnew : ∀ p ∈ live, p.2 ≠ h)
    (hmem : (c, h') ∈ live) : ¬ Orderly (packed live (k + 1)) ⟨c, some h⟩ := by
  intro ho
  rcases ho hcode with hin | ⟨-, hfull | hunused⟩
  · exact handler_new hnew _ hin rfl
  · exact hfull _ (mem_packed.mpr (Or.inr ⟨Nat.succ_ne_zero k, rfl⟩)) rfl
  · exact hunused _ (mem_packed.mpr (Or.inl ⟨_, hmem, rfl⟩)) rfl

theorem not_orderly_middle (hc : Compact (before ++ (c, h) :: q :: after))
    (hcode : 0 < c ∧ c ≤ 127) :
    ¬ Orderly (packed (before ++ (c, h) :: q :: after) k) ⟨c, none⟩ := by
  intro ho
  have hfree := ho hcode (entryOf q) (by
    rw [behind hc]
    exact mem_packed.mpr (Or.inl ⟨q, List.mem_cons_self .., rfl⟩))
  cases hfree

section Steps

variable [DecidableEq H]

/-! ### Calls that keep the table compact -/

theorem changesMap_again (hc : Compact live) (hcode : 0 < c ∧ c ≤ 127) (hmem : (c, h) ∈ live) :
    ChangesMap (packed live k) ⟨c, some h⟩ ∧
      (eMBRegisterCB (packed live k) ⟨c, some h⟩).2 = packed live k := by
  obtain ⟨before, after, rfl⟩ := List.append_of_mem hmem
  have hres := eMBRegisterCB_install hcode (installHandler_live (c := c) (k := k) hc)
  refine ⟨fun code => ?_, by rw [hres]⟩
  rw [hres]
  by_cases hcc : c = code
  · rw [if_pos ⟨rfl, hcc⟩, ← hcc]
    exact findHandler_live hc hmem
  · rw [if_neg fun h => hcc h.2]

theorem changesMap_fresh (hc : Compact live) (hcode : 0 < c ∧ c ≤ 127)
    (hnew : ∀ p ∈ live, p.2 ≠ h) (hunused : ∀ p ∈ live, p.1 ≠ c) :
    ChangesMap (packed live (k + 1)) ⟨c, some h⟩ ∧
      (eMBRegisterCB (packed live (k + 1)) ⟨c, some h⟩).2 = packed (live ++ [(c, h)]) k := by
  have hc' := hc.push (valid_ne_zero hcode) hnew hunused
  have hres := eMBRegisterCB_install hcode (installHandler_free (c := c) (k := k) hnew)
  refine ⟨fun code => ?_, by rw [hres]⟩
  rw [hres]
  by_cases hcc : c = code
  · rw [if_pos ⟨rfl, hcc⟩, ← hcc]
    exact findHandler_live hc' (List.mem_append_right _ (List.mem_singleton_self _))
  · rw [if_neg fun h => hcc h.2]
    refine findHandler_packed_congr hc hc' fun h' => ?_
    rw [List.mem_append, List.mem_singleton, Prod.mk.injEq]
    exact or_iff_left fun heq => hcc heq.1.symm

theorem changesMap_absent (hc : Compact live) (hcode : 0 < c ∧ c ≤ 127)
    (hunused : ∀ p ∈ live, p.1 ≠ c) :
    ChangesMap (packed live k) ⟨c, none⟩ ∧
      (eMBRegisterCB (packed live k) ⟨c, none⟩).2 = packed live k := by
  have hclear : clearHandler c (packed live k) = packed live k := by
    rw [packed, clearHandler_pass hunused, clearHandler_replicate (valid_ne_zero hcode)]
  have hres := eMBRegisterCB_clear (packed live k) hcode
  rw [hclear] at hres
  refine ⟨fun code => ?_, by rw [hres]⟩
  rw [hres]
  by_cases hcc : c = code
  · rw [if_pos ⟨rfl, hcc⟩, ← hcc]
    exact findHandler_packed_none hc hunused
  · rw [if_neg fun h => hcc h.2]

theorem changesMap_last (hc : Compact (before ++ [(c, h)])) (hcode : 0 < c ∧ c ≤ 127) :
    ChangesMap (packed (before ++ [(c, h)]) k) ⟨c, none⟩ ∧
      (eMBRegisterCB (packed (before ++ [(c, h)]) k) ⟨c, none⟩).2 = packed before (k + 1) := by
  have hc' := hc.sublist (List.sublist_append_left before [(c, h)])
  have hres := eMBRegisterCB_clear (packed (before ++ [(c, h)]) k) hcode
  have hclear : clearHandler c (packed (before ++ [(c, h)]) k) = packed before (k + 1) :=
    clearHandler_live hc
  rw [hclear] at hres
  refine ⟨fun code => ?_, by rw [hres]⟩
  rw [hres]
  by_cases hcc : c = code
  · rw [if_pos ⟨rfl, hcc⟩, ← hcc]
    exact findHandler_packed_none hc' fun p hp => (hc.others p (List.mem_append_left _ hp)).1
  · rw [if_neg fun h => hcc h.2]
    refine findHandler_packed_congr hc hc' fun h' => ?_
    rw [List.mem_append, List.mem_singleton, Prod.mk.injEq]
    exact (or_iff_left fun heq => hcc heq.1.symm).symm

/-! ### Calls that do not -/

/-- A handler that gets another code is no longer found under its own. -/
theorem not_changesMap_moved (hc : Compact (before ++ (c', h) :: after))
    (hcode : 0 < c ∧ c ≤ 127) (hne : c' ≠ c) :
    ¬ ChangesMap (packed (before ++ (c', h) :: after) k) ⟨c, some h⟩ := by
  intro hch
  have hres := eMBRegisterCB_install hcode (installHandler_live (c := c) (k := k) hc)
  have hfind := hch c'
  rw [hres, if_neg fun h => hne h.2.symm,
    (findHandler_packed_iff hc).mpr (List.mem_append_right _ (List.mem_cons_self ..))] at hfind
  rcases mem_packed.mp (mem_of_findHandler hfind) with ⟨p, hp, heq⟩ | ⟨-, heq⟩
  · cases heq
    rcases List.mem_cons.mp (List.perm_middle.mem_iff.mp hp) with heq | hp
    · exact hne (congrArg Prod.fst heq)
    · exact (hc.others _ hp).1 rfl
  · cases heq

/-- A second handler for a code is hidden by the first. -/
theorem not_changesMap_hidden (hc : Compact live) (hcode : 0 < c ∧ c ≤ 127)
    (hnew : ∀ p ∈ live, p.2 ≠ h) (hmem : (c, h') ∈ live) :
    ¬ ChangesMap (packed live (k + 1)) ⟨c, some h⟩ := by
  intro hch
  have hres := eMBRegisterCB_install hcode (installHandler_free (c := c) (k := k) hnew)
  have hfind := hch c
  rw [hres, if_pos ⟨rfl, rfl⟩, packed, List.map_append, List.append_assoc,
    findHandler_live hc hmem] at hfind
  exact hnew _ hmem (Option.some.inj hfind)

/-- A free entry hides those behind it. -/
theorem not_changesMap_middle (hc : Compact (before ++ (c, h) :: q :: after))
    (hcode : 0 < c ∧ c ≤ 127) :
    ¬ ChangesMap (packed (before ++ (c, h) :: q :: after) k) ⟨c, none⟩ := by
  intro hch
  have hmem : q ∈ before ++ (c, h) :: q :: after := by simp
  have hres := eMBRegisterCB_clear (packed (before ++ (c, h) :: q :: after) k) hcode
  have hclear : clearHandler c (packed (before ++ (c, h) :: q :: after) k) =
      before.map entryOf ++ ⟨0, none⟩ :: packed (q :: after) k := clearHandler_live hc
  have hqc : q.1 ≠ c := (hc.others q (by simp)).1
  have hsplit : before ++ (c, h) :: q :: after = (before ++ [(c, h)]) ++ q :: after := by simp
  have hpass : ∀ p ∈ before, p.1 ≠ 0 ∧ p.1 ≠ q.1 := by
    intro p hp
    refine ⟨hc.codes_ne_zero p (List.mem_append_left _ hp), ?_⟩
    rw [hsplit] at hc
    exact (hc.others p (by simp [hp])).1
  have hfind := hch q.1
  rw [hres, hclear, if_neg fun h => hqc h.2.symm, findHandler_pass hpass, findHandler_free,
    (findHandler_packed_iff hc).mpr hmem] at hfind
  cases hfind

/-! ### One call -/

/-- From a compact table a call changes the map exactly if it is orderly, and an orderly call
leaves a compact table. -/
theorem orderly_step (hc : Compact live) (call : RegisterCall H) :
    (ChangesMap (packed live k) call ↔ Orderly (packed live k) call) ∧
      (Orderly (packed live k) call → ∃ live' k', Compact live' ∧
        (eMBRegisterCB (packed live k) call).2 = packed live' k') := by
  by_cases hcode : 0 < call.ucFunctionCode ∧ call.ucFunctionCode ≤ 127
  · cases course live k call with
    | again hmem =>
      obtain ⟨hch, hres⟩ := changesMap_again (k := k) hc hcode hmem
      exact ⟨iff_of_true hch (orderly_again hmem), fun _ => ⟨live, k, hc, hres⟩⟩
    | moved hsplit hne =>
      rw [hsplit] at hc ⊢
      have hno := not_orderly_moved (k := k) hc hcode hne
      exact ⟨iff_of_false (not_changesMap_moved hc hcode hne) hno, fun ho => absurd ho hno⟩
    | full hnew =>
      have hres := eMBRegisterCB_full hcode (installHandler_full hnew)
      rw [ChangesMap, hres]
      exact ⟨iff_of_true (fun code => rfl) (orderly_full hnew), fun _ => ⟨live, 0, hc, rfl⟩⟩
    | @fresh c h k hnew hunused =>
      obtain ⟨hch, hres⟩ := changesMap_fresh (k := k) hc hcode hnew hunused
      exact ⟨iff_of_true hch (orderly_fresh hnew hunused),
        fun _ => ⟨_, k, hc.push (valid_ne_zero hcode) hnew hunused, hres⟩⟩
    | @hidden c h h' k hnew hmem =>
      have hno := not_orderly_hidden (k := k) hcode hnew hmem
      exact ⟨iff_of_false (not_changesMap_hidden hc hcode hnew hmem) hno, fun ho => absurd ho hno⟩
    | absent hunused =>
      obtain ⟨hch, hres⟩ := changesMap_absent (k := k) hc hcode hunused
      exact ⟨iff_of_true hch (orderly_absent hunused), fun _ => ⟨live, k, hc, hres⟩⟩
    | @last c h k before hsplit =>
      rw [hsplit] at hc ⊢
      obtain ⟨hch, hres⟩ := changesMap_last (k := k) hc hcode
      exact ⟨iff_of_true hch (orderly_last hc),
        fun _ => ⟨before, k + 1, hc.sublist (List.sublist_append_left _ _), hres⟩⟩
    | middle hsplit =>
      rw [hsplit] at hc ⊢
      have hno := not_orderly_middle (k := k) hc hcode
      exact ⟨iff_of_false (not_changesMap_middle hc hcode) hno, fun ho => absurd ho hno⟩
  · have hres := eMBRegisterCB_einval (packed live k) hcode
    rw [ChangesMap, hres]
    exact ⟨iff_of_true (fun code => rfl) fun hvalid => absurd hvalid hcode,
      fun _ => ⟨live, k, hc, rfl⟩⟩

end Steps

end Course

/-! ## Sequences of calls -/

section Sequences

variable {H : Type} [DecidableEq H]

/-- The table, and what was called, latest call first, with the error code returned. -/
structure Registration (H : Type) where
  table : List (MBFunctionHandler H)
  calls : List (RegisterCall H × MBErrorCode)

/-- One more call. -/
def Registration.register (s : Registration H) (call : RegisterCall H) : Registration H where
  table := (eMBRegisterCB s.table call).2
  calls := (call, (eMBRegisterCB s.table call).1) :: s.calls

/-- The handler that the last successful call for a code gave it, or the built-in one. -/
def Registration.handlerOf (builtin : List (MBFunctionHandler H)) (s : Registration H)
    (code : UChar) : Option H :=
  match s.calls.find? fun r => r.1.ucFunctionCode = code ∧ r.2 = .enoerr with
  | some r => r.1.pxHandler
  | none => findHandler code builtin

/-- The call keeps the table the map that the calls describe, changes what is found for its own
code only, and changes nothing when it returns `MB_ENORES`. -/
structure ActsAsMap (builtin : List (MBFunctionHandler H)) (s : Registration H)
    (call : RegisterCall H) : Prop where
  found : ∀ code,
    findHandler code (s.register call).table = (s.register call).handlerOf builtin code
  others : ∀ code, code ≠ call.ucFunctionCode →
    findHandler code (s.register call).table = findHandler code s.table
  enores : (eMBRegisterCB s.table call).1 = .enores → (s.register call).table = s.table

/-- The transitions. -/
def registerStep (s : Registration H) (call : RegisterCall H) : Option (Registration H) :=
  some (s.register call)

variable {builtin : List (MBFunctionHandler H)} {s : Registration H} {call : RegisterCall H}

theorem handlerOf_register (code : UChar) : (s.register call).handlerOf builtin code =
    if (eMBRegisterCB s.table call).1 = .enoerr ∧ call.ucFunctionCode = code then call.pxHandler
    else s.handlerOf builtin code := by
  simp only [Registration.handlerOf, Registration.register, List.find?_cons]
  by_cases h : (eMBRegisterCB s.table call).1 = .enoerr ∧ call.ucFunctionCode = code
  · rw [if_pos h, decide_eq_true (And.comm.mp h)]
  · rw [if_neg h, decide_eq_false (mt And.comm.mp h)]

/-- A call acts as on a map exactly if it changes the table like one. -/
theorem actsAsMap_iff (hs : ∀ code, findHandler code s.table = s.handlerOf builtin code) :
    ActsAsMap builtin s call ↔ ChangesMap s.table call := by
  constructor
  · intro h code
    have hfound := h.found code
    rwa [handlerOf_register, ← hs] at hfound
  · intro h
    refine ⟨fun code => ?_, fun code hne => ?_, eMBRegisterCB_enores⟩
    · rw [handlerOf_register, ← hs]
      exact h code
    · exact (h code).trans (if_neg fun heq => hne heq.2.symm)

/-- From a compact table that is the map of the calls so far, all further calls act as on a map
exactly if all are orderly. -/
theorem actsAsMap_iff_orderly (calls : List (RegisterCall H)) :
    ∀ {s : Registration H}, (∃ live k, Compact live ∧ s.table = packed live k) →
      (∀ code, findHandler code s.table = s.handlerOf builtin code) →
      (AllSteps registerStep (ActsAsMap builtin) s calls ↔
        AllSteps registerStep (fun s call => Orderly s.table call) s calls) := by
  induction calls with
  | nil => exact fun _ _ => Iff.rfl
  | cons call calls ih =>
    rintro s ⟨live, k, hc, htable⟩ hs
    have hstep := orderly_step (k := k) hc call
    rw [← htable, ← actsAsMap_iff hs] at hstep
    have hrest : ActsAsMap builtin s call → Orderly s.table call →
        (AllSteps registerStep (ActsAsMap builtin) (s.register call) calls ↔
          AllSteps registerStep (fun s call => Orderly s.table call) (s.register call) calls) :=
      fun hact ho => ih (hstep.2 ho) hact.found
    constructor
    · rintro ⟨hact, hall⟩
      have ho := hstep.1.mp hact
      refine ⟨ho, fun s' hs' => ?_⟩
      cases hs'
      exact (hrest hact ho).mp (hall _ rfl)
    · rintro ⟨ho, hall⟩
      have hact := hstep.1.mpr ho
      refine ⟨hact, fun s' hs' => ?_⟩
      cases hs'
      exact (hrest hact ho).mpr (hall _ rfl)

end Sequences

end Table

/-! ## The table of the slave -/

/-- A `pxMBFunctionHandler`: one of the handlers of the stack, or an application's function at
some address. -/
inductive HandlerPtr where
  | reportSlaveID
  | readInputRegister
  | readHoldingRegister
  | writeMultipleHoldingRegister
  | writeHoldingRegister
  | readWriteMultipleHoldingRegister
  | readCoils
  | writeCoil
  | writeMultipleCoils
  | readDiscreteInputs
  | application (address : Nat)
deriving Repr, DecidableEq

/-- The function behind a pointer. -/
def HandlerPtr.deref (application : Nat → SlaveHandler) : HandlerPtr → SlaveHandler
  | .reportSlaveID => eMBFuncReportSlaveID
  | .readInputRegister => eMBFuncReadInputRegister
  | .readHoldingRegister => eMBFuncReadHoldingRegister
  | .writeMultipleHoldingRegister => eMBFuncWriteMultipleHoldingRegister
  | .writeHoldingRegister => eMBFuncWriteHoldingRegister
  | .readWriteMultipleHoldingRegister => eMBFuncReadWriteMultipleHoldingRegister
  | .readCoils => eMBFuncReadCoils
  | .writeCoil => eMBFuncWriteCoil
  | .writeMultipleCoils => eMBFuncWriteMultipleCoils
  | .readDiscreteInputs => eMBFuncReadDiscreteInputs
  | .application address => application address

/-- The entries of `xFuncHandlers` in use at the start. -/
def builtinHandlers : List (UChar × HandlerPtr) :=
  [(mbFuncOtherReportSlaveid, .reportSlaveID),
   (mbFuncReadInputRegister, .readInputRegister),
   (mbFuncReadHoldingRegister, .readHoldingRegister),
   (mbFuncWriteMultipleRegisters, .writeMultipleHoldingRegister),
   (mbFuncWriteRegister, .writeHoldingRegister),
   (mbFuncReadwriteMultipleRegisters, .readWriteMultipleHoldingRegister),
   (mbFuncReadCoils, .readCoils),
   (mbFuncWriteSingleCoil, .writeCoil),
   (mbFuncWriteMultipleCoils, .writeMultipleCoils),
   (mbFuncReadDiscreteInputs, .readDiscreteInputs)]

/-- `xFuncHandlers`, as pointers. -/
def xFuncHandlerPtrs : List (MBFunctionHandler HandlerPtr) :=
  packed builtinHandlers (mbFuncHandlersMax - 10)

theorem xFuncHandlerPtrs_deref (application : Nat → SlaveHandler) :
    xFuncHandlerPtrs.map (.map (HandlerPtr.deref application)) = xFuncHandlers := rfl

theorem compact_builtinHandlers : Compact builtinHandlers where
  codes_ne_zero := by decide
  codes := by decide
  handlers := by decide

/-- `eMBPoll` with the table of a registration, on a request. -/
def Registration.dispatch (s : Registration HandlerPtr) (application : Nat → SlaveHandler) :
    SlaveHandler :=
  slaveDispatch (s.table.map (.map (HandlerPtr.deref application)))

/-- The call keeps the dispatch a map: a code runs the handler that the last successful call for
it registered, or the built-in one, and is illegal if there is none. -/
structure DispatchesAsMap (s : Registration HandlerPtr) (call : RegisterCall HandlerPtr) :
    Prop where
  acts : ActsAsMap xFuncHandlerPtrs s call
  runs : ∀ application app pucFrame usLen,
    (s.register call).dispatch application app pucFrame usLen =
      match (s.register call).handlerOf xFuncHandlerPtrs (pucFrame mbPduFuncOff) with
      | some pxHandler => pxHandler.deref application app pucFrame usLen
      | none => { eStatus := .illegalFunction, pucFrame := pucFrame, usLen := usLen, app := app }

theorem dispatchesAsMap_iff {s : Registration HandlerPtr} {call : RegisterCall HandlerPtr} :
    DispatchesAsMap s call ↔ ActsAsMap xFuncHandlerPtrs s call := by
  refine ⟨DispatchesAsMap.acts, fun h => ⟨h, fun application app pucFrame usLen => ?_⟩⟩
  rw [Registration.dispatch, slaveDispatch, findHandler_map, h.found]
  cases (s.register call).handlerOf xFuncHandlerPtrs (pucFrame mbPduFuncOff) with
  | none => rfl
  | some pxHandler => rfl

/-- Nothing was registered yet. -/
def Registration.initial : Registration HandlerPtr := ⟨xFuncHandlerPtrs, []⟩

/-- The calls of a sequence all keep the dispatch a map exactly if all of them are orderly. -/
theorem registration_iff (calls : List (RegisterCall HandlerPtr)) :
    AllSteps registerStep DispatchesAsMap .initial calls ↔
      AllSteps registerStep (fun s call => Orderly s.table call) .initial calls := by
  have hiff : AllSteps registerStep (ActsAsMap xFuncHandlerPtrs) .initial calls ↔
      AllSteps registerStep (fun s call => Orderly s.table call) .initial calls :=
    actsAsMap_iff_orderly calls ⟨_, _, compact_builtinHandlers, rfl⟩ fun code => rfl
  rw [← hiff]
  exact ⟨AllSteps.mono fun s call => dispatchesAsMap_iff.mp,
    AllSteps.mono fun s call => dispatchesAsMap_iff.mpr⟩

/-- After the handler of function 3 is removed, function 1 is illegal: its entry stands behind
the free one. -/
theorem registration_not_map :
    ¬ AllSteps registerStep DispatchesAsMap .initial [⟨mbFuncReadHoldingRegister, none⟩] := by
  intro h
  have hothers := h.1.acts.others mbFuncReadCoils (by decide)
  exact absurd hothers (by decide)

end FreeModbus
