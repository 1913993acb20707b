import FreeModbus.Segmentation
import FreeModbus.Slave.AsciiGrammar

/-!
# The length assertion of the receive routines

`eMBRTUReceive`, `eMBMasterRTUReceive` and `eMBASCIIReceive` begin with the assertion that
the receive position is below `MB_SER_PDU_SIZE_MAX`.  The guard against an overflow is in
the receive machines, and it lets the position reach `MB_SER_PDU_SIZE_MAX`: a frame of the
full size is handed over, and the assertion fails on it.

So the assertion says that no frame on the line has just that size: 256 bytes between two
expiries in RTU mode, a data block of 512 characters in ASCII mode.
-/

namespace FreeModbus

open ByteMemory SerialLine Pairs

/-! ## RTU -/

/-- The segments of a line that fill the buffer to its end. -/
def FillsBuffer (line : List (Signal UChar)) : Prop :=
  ∃ segment ∈ (segments line).drop 1, segment.length = mbSerPduSizeMax

theorem not_fillsBuffer {line : List (Signal UChar)} :
    ¬ FillsBuffer line ↔ ∀ segment ∈ (segments line).drop 1, segment.length ≠ mbSerPduSizeMax := by
  simp [FillsBuffer]

namespace Slave

/-- The assertion of `eMBRTUReceive`. -/
def LengthAsserted (s : Slave) : Prop := s.usRcvBufferPos < mbSerPduSizeMax

theorem lengthAsserted_iff (s : Slave) {line : List (Signal UChar)} {calls : List Slave}
    (h : outputs signal s.eMBRTUStart line = some calls) :
    (∀ r ∈ calls, r.LengthAsserted) ↔ ¬ FillsBuffer line := by
  have hlen : ∀ r : Slave, r.rcvBytes.length = r.usRcvBufferPos := fun r => slice_length ..
  have hroom := segmenter.room_iff (by decide) rfl rfl h
  simp only [hlen] at hroom
  exact hroom.trans not_fillsBuffer.symm

end Slave

namespace Master

/-- The assertion of `eMBMasterRTUReceive`. -/
def LengthAsserted (s : Master) : Prop := s.usMasterRcvBufferPos < mbSerPduSizeMax

theorem lengthAsserted_iff (s : Master) {line : List (Signal UChar)} {calls : List Master}
    (h : outputs signal s.eMBMasterRTUStart line = some calls) :
    (∀ r ∈ calls, r.LengthAsserted) ↔ ¬ FillsBuffer line := by
  have hlen : ∀ r : Master, r.rcvBytes.length = r.usMasterRcvBufferPos := fun r => slice_length ..
  have hroom := segmenter.room_iff (by decide) rfl rfl h
  simp only [hlen] at hroom
  exact hroom.trans not_fillsBuffer.symm

end Master

/-! ## ASCII -/

/-- A line with a frame whose data block fills the buffer to its end. -/
def FillsBufferAscii (line : List (Signal UChar)) : Prop :=
  ∃ before data after, line = before ++ ((Ascii.asciiFrame data).map .item ++ after) ∧
    Ascii.DataBlock data ∧ data.length = 2 * mbSerPduSizeMax

/-- A frame behind more of the line is a frame of the line. -/
theorem FillsBufferAscii.append {line : List (Signal UChar)} (h : FillsBufferAscii line)
    (pre : List (Signal UChar)) : FillsBufferAscii (pre ++ line) := by
  obtain ⟨before, data, after, rfl, hdata⟩ := h
  exact ⟨pre ++ before, data, after, (List.append_assoc ..).symm, hdata⟩

namespace Ascii

/-- The assertion of `eMBASCIIReceive`. -/
def LengthAsserted (s : Ascii) : Prop := s.usRcvBufferPos < mbSerPduSizeMax

/-- A character, or an expiry where the timer runs.  After a character that makes the machine post
`EV_FRAME_RECEIVED`, the state is put out in which `eMBASCIIReceive` is called. -/
def signal (s : Ascii) : Signal UChar → Option (Ascii × Option Ascii)
  | .item ucByte =>
      let s₁ := s.xMBASCIIReceiveFSM ucByte
      if s₁.output = s.output ++ [.post .frameReceived] then some (s₁, some s₁)
      else some (s₁, none)
  | .silence => if s.xTimer then some (s.xMBASCIITimerT1SExpired, none) else none

variable {s : Ascii} {line : List (Signal UChar)} {calls : List Ascii}

/-- A data block that has been read fills the buffer where the assertion fails. -/
theorem Reads.full_iff {data : List UChar} (h : s.Reads data) (hblock : DataBlock data) :
    ¬ s.LengthAsserted ↔ data.length = 2 * mbSerPduSizeMax := by
  have hpos := h.pos
  have hlen := hblock.room
  rw [decoded_length] at hpos
  rw [LengthAsserted, hpos]
  omega

/-! ### Signals -/

theorem signal_item_post {c : UChar}
    (h : (s.xMBASCIIReceiveFSM c).output = s.output ++ [.post .frameReceived]) :
    s.signal (.item c) = some (s.xMBASCIIReceiveFSM c, some (s.xMBASCIIReceiveFSM c)) :=
  if_pos h

theorem signal_item {c : UChar} {o : Option Ascii} {s' : Ascii}
    (h : s.signal (.item c) = some (s', o)) :
    s' = s.xMBASCIIReceiveFSM c ∧
      ((o = some s' ∧ s'.output = s.output ++ [.post .frameReceived]) ∨ o = none) := by
  by_cases hpost : (s.xMBASCIIReceiveFSM c).output = s.output ++ [.post .frameReceived]
  · cases h.symm.trans (signal_item_post hpost)
    exact ⟨rfl, Or.inl ⟨rfl, hpost⟩⟩
  · cases h.symm.trans (if_neg hpost)
    exact ⟨rfl, Or.inr rfl⟩

theorem signal_silence {o : Option Ascii} {s' : Ascii} (h : s.signal .silence = some (s', o)) :
    s' = s.xMBASCIITimerT1SExpired ∧ o = none := by
  obtain ⟨-, h⟩ := Option.ite_none_right_eq_some.mp h
  cases h
  exact ⟨rfl, rfl⟩

theorem signal_ucMBLFCharacter {x : Signal UChar} {o : Option Ascii} {s' : Ascii}
    (h : s.signal x = some (s', o)) : s'.ucMBLFCharacter = s.ucMBLFCharacter := by
  cases x with
  | item c =>
    rw [(signal_item h).1]
    exact receiveFSM_ucMBLFCharacter s c
  | silence => rw [(signal_silence h).1, timerT1SExpired_eq]

/-! ### Runs -/

/-- Where the assertion fails, the line has a frame that fills the buffer.  `chars` came in since
the last expiry. -/
theorem fillsBuffer_of_call (hlf : s.ucMBLFCharacter = mbAsciiDefaultLf) {chars : List UChar}
    (htracks : s.Tracks chars) (hout : outputs signal s line = some calls) {r : Ascii}
    (hr : r ∈ calls) (hfull : ¬ r.LengthAsserted) :
    FillsBufferAscii (chars.map .item ++ line) := by
  induction line generalizing s chars calls with
  | nil =>
    cases hout
    cases hr
  | cons x line ih =>
    obtain ⟨s', o, rest, hstep, hrest, rfl⟩ := outputs_cons_eq_some hout
    have hlf' := (signal_ucMBLFCharacter hstep).trans hlf
    cases x with
    | silence =>
      obtain ⟨rfl, rfl⟩ := signal_silence hstep
      have hidle : Tracks s.xMBASCIITimerT1SExpired [] := by
        rw [timerT1SExpired_eq]
        exact .idle [] rfl
      exact ((ih hlf' hidle hrest hr).append [.silence]).append (chars.map .item)
    | item c =>
      obtain ⟨rfl, hcall⟩ := signal_item hstep
      have htracks' := htracks.character hlf c
      have hmap : chars.map .item ++ .item c :: line =
          (chars ++ [c]).map Signal.item ++ line := by
        rw [List.map_append, List.append_assoc]
        rfl
      rw [hmap]
      rcases hcall with ⟨rfl, hpost⟩ | rfl
      · rcases List.mem_cons.mp hr with rfl | hr
        · obtain ⟨before, data, hchars, hblock, hreads⟩ := announced_last hlf htracks hpost
          refine ⟨before.map .item, data, line, ?_, hblock, (hreads.full_iff hblock).mp hfull⟩
          rw [hchars, List.map_append, List.append_assoc]
        · exact ih hlf' htracks' hrest hr
      · exact ih hlf' htracks' hrest hr

/-- What items leave, and put out, before the rest of a line. -/
theorem outputs_items (hout : outputs signal s line = some calls) {chars : List UChar}
    {after : List (Signal UChar)} (hline : line = chars.map .item ++ after) :
    ∃ pre rest, outputs signal (chars.foldl xMBASCIIReceiveFSM s) after = some rest ∧
      calls = pre ++ rest := by
  induction chars generalizing s line calls with
  | nil =>
    cases hline
    exact ⟨[], calls, hout, rfl⟩
  | cons c chars ih =>
    cases hline
    obtain ⟨s', o, rest, hstep, hrest, rfl⟩ := outputs_cons_eq_some hout
    obtain ⟨rfl, -⟩ := signal_item hstep
    obtain ⟨pre, rest', hrest', rfl⟩ := ih hrest rfl
    exact ⟨o.toList ++ pre, rest', hrest', (List.append_assoc ..).symm⟩

/-- Characters alone are always enabled. -/
theorem outputs_chars (s : Ascii) (chars : List UChar) :
    ∃ calls, outputs signal s (chars.map .item) = some calls := by
  induction chars generalizing s with
  | nil => exact ⟨[], rfl⟩
  | cons c chars ih =>
    obtain ⟨calls, hcalls⟩ := ih (s.xMBASCIIReceiveFSM c)
    by_cases hpost : (s.xMBASCIIReceiveFSM c).output = s.output ++ [.post .frameReceived]
    · refine ⟨s.xMBASCIIReceiveFSM c :: calls, ?_⟩
      rw [List.map_cons, outputs_cons_some (signal_item_post hpost), hcalls]
      rfl
    · refine ⟨calls, ?_⟩
      rw [List.map_cons, outputs_cons (if_neg hpost), hcalls]

/-- At the end of a frame that fills the buffer the assertion fails. -/
theorem call_of_frame (hlf : s.ucMBLFCharacter = mbAsciiDefaultLf) {data : List UChar}
    (hblock : DataBlock data) (hfull : data.length = 2 * mbSerPduSizeMax)
    {after : List (Signal UChar)}
    (hout : outputs signal s ((asciiFrame data).map .item ++ after) = some calls) :
    ∃ r ∈ calls, ¬ r.LengthAsserted := by
  have hsplit : (asciiFrame data).map Signal.item ++ after =
      (asciiFrame data).dropLast.map .item ++ (.item mbAsciiDefaultLf :: after) := by
    rw [asciiFrame_dropLast, asciiFrame, List.map_append, List.append_assoc]
    rfl
  have hlast : (asciiFrame data).foldl xMBASCIIReceiveFSM s =
      ((asciiFrame data).dropLast.foldl xMBASCIIReceiveFSM s).xMBASCIIReceiveFSM
        mbAsciiDefaultLf := by
    rw [asciiFrame_dropLast, asciiFrame, List.foldl_append]
    rfl
  obtain ⟨hreads, hsilent, hpost⟩ := receives_frame hlf hblock
  rw [hlast] at hreads hpost
  obtain ⟨pre, rest, hrest, rfl⟩ := outputs_items hout hsplit
  obtain ⟨s', o, rest', hstep, -, rfl⟩ := outputs_cons_eq_some hrest
  rw [← hsilent] at hpost
  cases hstep.symm.trans (signal_item_post hpost)
  exact ⟨_, List.mem_append_right _ List.mem_cons_self, (hreads.full_iff hblock).mpr hfull⟩

/-- Where the line has such a frame, the assertion fails. -/
theorem call_of_fillsBuffer (hlf : s.ucMBLFCharacter = mbAsciiDefaultLf)
    (hfill : FillsBufferAscii line) (hout : outputs signal s line = some calls) :
    ∃ r ∈ calls, ¬ r.LengthAsserted := by
  obtain ⟨before, data, after, rfl, hblock, hfull⟩ := hfill
  induction before generalizing s calls with
  | nil => exact call_of_frame hlf hblock hfull hout
  | cons x before ih =>
    obtain ⟨s', o, rest, hstep, hrest, rfl⟩ := outputs_cons_eq_some hout
    obtain ⟨r, hr, hbad⟩ := ih ((signal_ucMBLFCharacter hstep).trans hlf) hrest
    exact ⟨r, List.mem_append_right _ hr, hbad⟩

theorem lengthAsserted_iff (s : Ascii)
    (h : outputs signal s.eMBASCIIInit.eMBASCIIStart line = some calls) :
    (∀ r ∈ calls, r.LengthAsserted) ↔ ¬ FillsBufferAscii line := by
  have hlf : s.eMBASCIIInit.eMBASCIIStart.ucMBLFCharacter = mbAsciiDefaultLf := rfl
  constructor
  · intro hall hfill
    obtain ⟨r, hr, hbad⟩ := call_of_fillsBuffer hlf hfill h
    exact hbad (hall r hr)
  · intro hno r hr
    by_contra hbad
    exact hno (fillsBuffer_of_call hlf (.idle [] rfl) h hr hbad)

end Ascii

/-! ## The three routines -/

/-- From the start on, the assertion holds at every call of a receive routine exactly if no
segment of the line, and in ASCII mode no data block, just fills the buffer. -/
theorem receive_assertion_iff (line : List (Signal UChar)) :
    (∀ (s : Slave) (calls : List Slave),
      outputs Slave.signal s.eMBRTUStart line = some calls →
        ((∀ r ∈ calls, r.LengthAsserted) ↔ ¬ FillsBuffer line)) ∧
    (∀ (s : Master) (calls : List Master),
      outputs Master.signal s.eMBMasterRTUStart line = some calls →
        ((∀ r ∈ calls, r.LengthAsserted) ↔ ¬ FillsBuffer line)) ∧
    ∀ (s : Ascii) (calls : List Ascii),
      outputs Ascii.signal s.eMBASCIIInit.eMBASCIIStart line = some calls →
        ((∀ r ∈ calls, r.LengthAsserted) ↔ ¬ FillsBufferAscii line) :=
  ⟨fun s _ => s.lengthAsserted_iff, fun s _ => s.lengthAsserted_iff,
    fun s _ => s.lengthAsserted_iff⟩

/-- A line with a segment of 256 bytes. -/
def fullLine : List (Signal UChar) :=
  .silence :: ((List.replicate mbSerPduSizeMax 0).map .item ++ [.silence])

/-- A line with a data block of 512 characters `0`. -/
def fullLineAscii : List (Signal UChar) :=
  (Ascii.asciiFrame (List.replicate (2 * mbSerPduSizeMax) 0x30)).map .item

theorem fullLine_timed : Timed true fullLine = true := by
  have hne : List.replicate mbSerPduSizeMax (0 : UChar) ≠ [] := List.cons_ne_nil _ _
  rw [fullLine, Timed, Bool.true_and, timed_items hne]
  rfl

theorem fullLine_fillsBuffer : FillsBuffer fullLine := by
  have hseg : segments fullLine = [[], List.replicate mbSerPduSizeMax 0] :=
    congrArg (List.cons []) (segmentsFrom_items _ [] [])
  refine ⟨List.replicate mbSerPduSizeMax 0, ?_, List.length_replicate⟩
  rw [hseg]
  exact List.mem_singleton_self _

theorem fullLineAscii_fillsBuffer : FillsBufferAscii fullLineAscii := by
  refine ⟨[], List.replicate (2 * mbSerPduSizeMax) 0x30, [], ?_, ?_, List.length_replicate⟩
  · rw [List.append_nil]
    rfl
  · constructor
    · exact fun h => absurd (List.eq_of_mem_replicate h) (by decide)
    · exact fun h => absurd (List.eq_of_mem_replicate h) (by decide)
    · exact Nat.le_of_eq List.length_replicate

theorem exists_failing {σ : Type*} {P : σ → Prop} {Q : Prop} {calls : List σ}
    (h : (∀ r ∈ calls, P r) ↔ ¬ Q) (hq : Q) : ∃ r ∈ calls, ¬ P r := by
  by_contra hno
  simp only [not_exists, not_and, not_not] at hno
  exact h.mp hno hq

/-- On these lines the assertion fails in each of the three routines. -/
theorem receive_assertion_full :
    (∃ calls, outputs Slave.signal (Slave.static .initial).eMBRTUStart fullLine = some calls ∧
      ∃ r ∈ calls, ¬ r.LengthAsserted) ∧
    (∃ calls, outputs Master.signal (Master.static .initial).eMBMasterRTUStart fullLine =
      some calls ∧ ∃ r ∈ calls, ¬ r.LengthAsserted) ∧
    ∃ calls, outputs Ascii.signal Ascii.silent fullLineAscii = some calls ∧
      ∃ r ∈ calls, ¬ r.LengthAsserted := by
  refine ⟨?_, ?_, ?_⟩
  · obtain ⟨calls, hcalls⟩ := Slave.segmenter.outputs_isSome (by decide)
      (s := (Slave.static .initial).eMBRTUStart) rfl rfl fullLine_timed
    exact ⟨calls, hcalls, exists_failing (Slave.lengthAsserted_iff _ hcalls)
      fullLine_fillsBuffer⟩
  · obtain ⟨calls, hcalls⟩ := Master.segmenter.outputs_isSome (by decide)
      (s := (Master.static .initial).eMBMasterRTUStart) rfl rfl fullLine_timed
    exact ⟨calls, hcalls, exists_failing (Master.lengthAsserted_iff _ hcalls)
      fullLine_fillsBuffer⟩
  · obtain ⟨calls, hcalls⟩ := Ascii.outputs_chars Ascii.silent
      (Ascii.asciiFrame (List.replicate (2 * mbSerPduSizeMax) 0x30))
    exact ⟨calls, hcalls, Ascii.call_of_fillsBuffer rfl fullLineAscii_fillsBuffer hcalls⟩

end FreeModbus
