import FreeModbus.Slave.AsciiFraming

/-!
# The grammar of ASCII frames

Which character sequences the ASCII receiver takes for a frame.

What it announces is always a colon, a data block and CR LF (`announced_frame`).  The
data block is not checked: a character that is no hexadecimal digit is decoded as `0xFF`,
and a high nibble that is pending when the CR comes is dropped.  A data block of either
kind is accepted where the bytes decoded from it happen to have the checksum zero
(`Misread`), and only there the grammar is left.
-/

namespace FreeModbus

open ByteMemory Transition Pairs

/-! ## The bytes that hexadecimal digits spell -/

/-- The value of a hexadecimal digit. -/
def hexValue (c : UChar) : Nat := hexDigits.idxOf c

/-- The bytes that hexadecimal digits spell, the high digit first. -/
def spelled (data : List UChar) : List UChar :=
  (pairs data).map fun p => BitVec.ofNat 8 (16 * hexValue p.1 + hexValue p.2)

theorem pairByte_of_hex : ∀ a ∈ hexDigits, ∀ b ∈ hexDigits,
    pairByte (a, b) = BitVec.ofNat 8 (16 * hexValue a + hexValue b) := by
  decide +kernel

/-- Hexadecimal digits are decoded as the bytes they spell. -/
theorem decoded_of_hex {data : List UChar} (h : ∀ c ∈ data, c ∈ hexDigits) :
    decoded data = spelled data := by
  refine List.map_congr_left fun p hp => ?_
  obtain ⟨h1, h2⟩ := mem_of_mem_pairs hp
  exact pairByte_of_hex _ (h _ h1) _ (h _ h2)

namespace Ascii

variable {s : Ascii} {data : List UChar} {c : UChar}

/-! ## What the receiver has seen -/

/-- The characters received so far, in each receive state: since the last colon a data block,
and behind it a CR where the receiver waits for the LF. -/
inductive Tracks (s : Ascii) : List UChar → Prop where
  | idle (chars : List UChar) : s.eRcvState = .idle → Tracks s chars
  | rcv (before : List UChar) {data : List UChar} : s.eRcvState = .rcv → DataBlock data →
      s.Reads data → Tracks s (before ++ (asciiColon :: data))
  | waitEof (before : List UChar) {data : List UChar} : s.eRcvState = .waitEof →
      DataBlock data → s.Reads data →
      Tracks s (before ++ (asciiColon :: data ++ [mbAsciiDefaultCr]))

/-- A data block that fills the buffer is given up at the next character. -/
theorem Reads.overflow (h : s.Reads data) (hrcv : s.eRcvState = .rcv) (hcolon : c ≠ asciiColon)
    (hcr : c ≠ mbAsciiDefaultCr) (hfull : data.length = 2 * mbSerPduSizeMax) :
    (s.xMBASCIIReceiveFSM c).eRcvState = .idle := by
  obtain ⟨hpos, -, hnib⟩ := h
  have hnone : leftOver data = none := leftOver_eq_none.mpr ⟨mbSerPduSizeMax, by omega⟩
  rw [hnone] at hnib
  have hge : ¬ s.usRcvBufferPos < mbSerPduSizeMax := by
    rw [hpos, decoded_length]
    omega
  have hhigh : s.eBytePos = .highNibble := hnib
  simp only [xMBASCIIReceiveFSM, hrcv, if_neg hcolon, if_neg hcr, decodeCharacter,
    vMBPortTimersEnable, hhigh, if_neg hge, vMBPortTimersDisable]

/-- A colon starts a data block. -/
theorem Tracks.colon (hlf : s.ucMBLFCharacter = mbAsciiDefaultLf) (chars : List UChar) :
    Tracks (s.xMBASCIIReceiveFSM asciiColon) (chars ++ [asciiColon]) := by
  obtain ⟨hreads, hrcv, -⟩ := receiveFSM_colon hlf
  exact .rcv chars hrcv .nil hreads

/-- One more character. -/
theorem Tracks.character {chars : List UChar} (hlf : s.ucMBLFCharacter = mbAsciiDefaultLf)
    (h : Tracks s chars) (c : UChar) : Tracks (s.xMBASCIIReceiveFSM c) (chars ++ [c]) := by
  rcases eq_or_ne c asciiColon with rfl | hcolon
  · exact .colon hlf chars
  · cases h with
    | idle _ hst =>
      refine .idle _ ?_
      simp only [xMBASCIIReceiveFSM, hst, if_neg hcolon]
    | @rcv before data hst hblock hreads =>
      rcases eq_or_ne c mbAsciiDefaultCr with rfl | hcr
      · rw [List.append_assoc, receiveFSM_cr hst]
        exact .waitEof before rfl hblock (hreads.of_eq rfl rfl rfl)
      · rcases Nat.lt_or_eq_of_le hblock.room with hlt | hfull
        · obtain ⟨hreads', hst', -⟩ := hreads.character hst hcolon hcr hlt
          rw [List.append_assoc]
          exact .rcv before hst' (hblock.snoc hcolon hcr hlt) hreads'
        · exact .idle _ (hreads.overflow hst hcolon hcr hfull)
    | waitEof before hst hblock hreads =>
      refine .idle _ ?_
      unfold xMBASCIIReceiveFSM
      rw [hst]
      dsimp only
      split
      · rfl
      · rfl

/-- Every sequence of characters, from an idle receiver on. -/
theorem tracks (hlf : s.ucMBLFCharacter = mbAsciiDefaultLf) (hidle : s.eRcvState = .idle)
    (chars : List UChar) : Tracks (chars.foldl xMBASCIIReceiveFSM s) chars := by
  induction chars using List.reverseRecOn with
  | nil => exact .idle [] hidle
  | append_singleton chars c ih =>
    rw [List.foldl_append]
    exact ih.character ((foldl_receiveFSM_ucMBLFCharacter s chars).trans hlf) c

/-! ## Announced frames -/

/-- The last character makes the receiver post `EV_FRAME_RECEIVED`. -/
def Announces (s : Ascii) (chars : List UChar) : Prop :=
  (chars.foldl xMBASCIIReceiveFSM s).output =
    (chars.dropLast.foldl xMBASCIIReceiveFSM s).output ++ [.post .frameReceived]

theorem decodeCharacter_output (s : Ascii) (c : UChar) :
    (s.decodeCharacter c).output = s.output := by
  unfold decodeCharacter
  split
  · split
    · rfl
    · rfl
  · rfl

/-- Only the LF that ends a frame is announced. -/
theorem waitEof_of_post
    (h : (s.xMBASCIIReceiveFSM c).output = s.output ++ [.post .frameReceived]) :
    s.eRcvState = .waitEof ∧ c = s.ucMBLFCharacter := by
  have hne : s.output ≠ s.output ++ [.post .frameReceived] := by simp
  unfold xMBASCIIReceiveFSM at h
  cases hst : s.eRcvState with
  | idle =>
    rw [hst] at h
    dsimp only at h
    split at h
    · exact absurd h hne
    · exact absurd h hne
  | rcv =>
    rw [hst] at h
    dsimp only at h
    split at h
    · exact absurd h hne
    · split at h
      · exact absurd h hne
      · rw [decodeCharacter_output] at h
        exact absurd h hne
  | waitEof =>
    rw [hst] at h
    dsimp only at h
    split at h
    · exact ⟨rfl, ‹_›⟩
    · split at h
      · exact absurd h hne
      · exact absurd h hne

/-- A character that is announced ends a frame, whose data block has been read. -/
theorem announced_last {chars : List UChar} (hlf : s.ucMBLFCharacter = mbAsciiDefaultLf)
    (htracks : s.Tracks chars)
    (h : (s.xMBASCIIReceiveFSM c).output = s.output ++ [.post .frameReceived]) :
    ∃ before data, chars ++ [c] = before ++ asciiFrame data ∧ DataBlock data ∧
      (s.xMBASCIIReceiveFSM c).Reads data := by
  obtain ⟨hwait, hc⟩ := waitEof_of_post h
  rw [hlf] at hc
  rw [hc]
  cases htracks with
  | idle _ hst => cases hst.symm.trans hwait
  | rcv _ hst => cases hst.symm.trans hwait
  | @waitEof before data hst hblock hreads =>
    refine ⟨before, data, List.append_assoc .., hblock, hreads.of_eq ?_ ?_ ?_⟩
    · simp [xMBASCIIReceiveFSM, hst, hlf, post, vMBPortTimersDisable]
    · simp [xMBASCIIReceiveFSM, hst, hlf, post, vMBPortTimersDisable]
    · simp [xMBASCIIReceiveFSM, hst, hlf, post, vMBPortTimersDisable]

/-- What is announced ends with a frame, whose data block has been read. -/
theorem announced_frame (hlf : s.ucMBLFCharacter = mbAsciiDefaultLf)
    (hidle : s.eRcvState = .idle) {chars : List UChar} (h : s.Announces chars) :
    ∃ before data, chars = before ++ asciiFrame data ∧ DataBlock data ∧
      (chars.foldl xMBASCIIReceiveFSM s).Reads data := by
  cases chars using List.reverseRecOn with
  | nil =>
    rw [Announces] at h
    simp at h
  | append_singleton chars c =>
    have hlf' := (foldl_receiveFSM_ucMBLFCharacter s chars).trans hlf
    rw [Announces, List.dropLast_concat, List.foldl_append] at h
    rw [List.foldl_append]
    exact announced_last hlf' (tracks hlf hidle chars) h

/-! ## The law -/

/-- A frame of the grammar: its data block consists of an even number, at least six and at most
512, of hexadecimal digits. -/
structure HexBlock (data : List UChar) : Prop where
  even : Even data.length
  least : 6 ≤ data.length
  most : data.length ≤ 512
  hex : ∀ c ∈ data, c ∈ hexDigits

/-- If the last of the characters is announced and `eMBASCIIReceive` then returns a frame, the
characters since the last colon are a frame of the grammar, and what is returned are the bytes
that they spell without the checksum. -/
def AcceptsGrammar (s : Ascii) (chars : List UChar) : Prop :=
  s.Announces chars → ∀ f, (chars.foldl xMBASCIIReceiveFSM s).eMBASCIIReceive = .ok f →
    ∃ before data, chars = before ++ asciiFrame data ∧ asciiColon ∉ data ∧ HexBlock data ∧
      ∃ lrc, spelled data = f.bytes ++ [lrc]

/-- The characters end with a frame that has the checksum zero, as the receiver decodes it, and
whose data block has an odd length or a character that is no hexadecimal digit. -/
def Misread (chars : List UChar) : Prop :=
  ∃ before data, chars = before ++ asciiFrame data ∧ DataBlock data ∧ 6 ≤ data.length ∧
    prvucMBLRCList (decoded data) = 0 ∧ (¬ Even data.length ∨ ∃ c ∈ data, c ∉ hexDigits)

/-- What follows the last occurrence of an item is determined. -/
theorem eq_of_last {a : UChar} {l l' before before' : List UChar} (h : a ∉ l) (h' : a ∉ l')
    (heq : before ++ a :: l = before' ++ a :: l') : l = l' := by
  rcases List.append_eq_append_iff.mp heq with ⟨m, -, hm⟩ | ⟨m, -, hm⟩
  · cases m with
    | nil => exact (List.cons.inj hm).2
    | cons c m =>
      rw [(List.cons.inj hm).2] at h
      exact absurd (List.mem_append_right m List.mem_cons_self) h
  · cases m with
    | nil => exact (List.cons.inj hm).2.symm
    | cons c m =>
      rw [(List.cons.inj hm).2] at h'
      exact absurd (List.mem_append_right m List.mem_cons_self) h'

/-- The data block of the frame at the end is determined. -/
theorem data_unique {before before' data' : List UChar} (h : asciiColon ∉ data)
    (h' : asciiColon ∉ data') (heq : before ++ asciiFrame data = before' ++ asciiFrame data') :
    data = data' := by
  have hend : ∀ {l : List UChar}, asciiColon ∉ l →
      asciiColon ∉ l ++ [mbAsciiDefaultCr] ++ [mbAsciiDefaultLf] := by
    intro l hl
    rw [List.append_assoc, List.mem_append]
    exact fun hmem => hmem.elim hl (by decide)
  have hlast := eq_of_last (hend h) (hend h') heq
  exact (List.append_inj' (List.append_inj' hlast rfl).1 rfl).1

/-- A frame is announced from every state. -/
theorem announces_frame (hlf : s.ucMBLFCharacter = mbAsciiDefaultLf) (hblock : DataBlock data)
    (before : List UChar) : s.Announces (before ++ asciiFrame data) ∧
      ((before ++ asciiFrame data).foldl xMBASCIIReceiveFSM s).Reads data := by
  have hlf' := (foldl_receiveFSM_ucMBLFCharacter s before).trans hlf
  obtain ⟨hreads, hsilent, hpost⟩ := receives_frame hlf' hblock
  have hne : asciiFrame data ≠ [] := by simp [asciiFrame]
  rw [Announces, List.dropLast_append_of_ne_nil hne, List.foldl_append, List.foldl_append,
    hsilent]
  exact ⟨hpost, hreads⟩

/-- From an idle receiver on, what is accepted is a frame of the grammar, except where it is one
of the data blocks that are misread. -/
theorem acceptsGrammar_iff (s : Ascii) (hs : Reachable Started step s)
    (hidle : s.eRcvState = .idle) (chars : List UChar) :
    s.AcceptsGrammar chars ↔ ¬ Misread chars := by
  have hlf := lf_of_reachable hs
  constructor
  · rintro h ⟨before, data, rfl, hblock, hlen, hlrc, hbad⟩
    obtain ⟨hann, hreads⟩ := announces_frame hlf hblock before
    obtain ⟨f, hf⟩ := hreads.receive_ok.mpr ⟨hlen, hlrc⟩
    obtain ⟨before', data', heq, hcolon, hhex, -⟩ := h hann f hf
    cases data_unique hblock.colon hcolon heq
    rcases hbad with hodd | ⟨c, hc, hno⟩
    · exact hodd hhex.even
    · exact hno (hhex.hex c hc)
  · intro h hann f hf
    obtain ⟨before, data, rfl, hblock, hreads⟩ := announced_frame hlf hidle hann
    obtain ⟨hlen, hlrc⟩ := hreads.receive_ok.mp ⟨f, hf⟩
    have hgood : Even data.length ∧ ∀ c ∈ data, c ∈ hexDigits := by
      by_contra hbad
      refine h ⟨before, data, rfl, hblock, hlen, hlrc, ?_⟩
      rw [not_and_or] at hbad
      simpa only [not_forall, exists_prop] using hbad
    obtain ⟨b, hb⟩ := hreads.receive_bytes hf
    rw [decoded_of_hex hgood.2] at hb
    exact ⟨before, data, rfl, hblock.colon, ⟨hgood.1, hlen, hblock.room, hgood.2⟩, b, hb⟩

/-- A started slave. -/
def silent : Ascii := (static fun _ => 0).eMBASCIIInit.eMBASCIIStart

theorem silent_reachable : Reachable Started step silent := .start ⟨fun _ => 0⟩

/-- The frame `:0100FF` is one of the grammar. -/
theorem acceptsGrammar_iff_ok :
    silent.AcceptsGrammar (asciiFrame [0x30, 0x31, 0x30, 0x30, 0x46, 0x46]) ↔
      ¬ Misread (asciiFrame [0x30, 0x31, 0x30, 0x30, 0x46, 0x46]) :=
  acceptsGrammar_iff silent silent_reachable rfl _

/-- In `:0100XX` the last two characters are decoded as the checksum `FF`. -/
theorem acceptsGrammar_misread :
    ¬ silent.AcceptsGrammar (asciiFrame [0x30, 0x31, 0x30, 0x30, 0x58, 0x58]) := by
  intro h
  have hblock : DataBlock [0x30, 0x31, 0x30, 0x30, 0x58, 0x58] := ⟨by decide, by decide, by decide⟩
  obtain ⟨hann, hreads⟩ := announces_frame (s := silent) rfl hblock []
  obtain ⟨f, hf⟩ := hreads.receive_ok.mpr ⟨by decide, by decide⟩
  obtain ⟨before, data, heq, hcolon, hhex, -⟩ := h hann f hf
  cases data_unique hblock.colon hcolon (show [] ++ asciiFrame _ = _ from heq)
  exact absurd (hhex.hex 0x58 (by decide)) (by decide)

end Ascii

end FreeModbus
