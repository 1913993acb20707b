import FreeModbus.Slave.AsciiGrammar

/-!
# The character timer

The timer of the ASCII machine watches over the gaps between the characters of a frame, and
`xMBASCIITimerT1SExpired` asserts that it expires within one.  Each transition of the
character machine that ends a frame stops the timer, except one: a character behind the CR
that is neither LF nor a colon makes the machine idle and leaves the timer on.

So the timer runs exactly within a frame in the runs without such a character, and in no
other run.
-/

namespace FreeModbus

open Transition

namespace Ascii

/-- The assertion of `xMBASCIITimerT1SExpired`. -/
def ExpiryAsserted (s : Ascii) : Prop := s.eRcvState = .rcv ∨ s.eRcvState = .waitEof

/-- The timer runs exactly within a frame, so an expiry meets its assertion. -/
structure TimerInFrame (s : Ascii) : Prop where
  timer : s.xTimer = true ↔ s.eRcvState = .rcv ∨ s.eRcvState = .waitEof
  expiry (s' : Ascii) : s.step .timer = some s' → s.ExpiryAsserted

/-- The character received, if any, is not one that deletes a frame behind its CR. -/
def KeepsFrame (s : Ascii) : Action → Prop
  | .character ucByte =>
      s.eRcvState = .waitEof → ucByte = s.ucMBLFCharacter ∨ ucByte = asciiColon
  | .timer => True
  | .txReady => True
  | .send _ _ => True

variable {s s' : Ascii}

theorem timerInFrame_iff :
    TimerInFrame s ↔ (s.xTimer = true ↔ s.eRcvState = .rcv ∨ s.eRcvState = .waitEof) := by
  constructor
  · exact TimerInFrame.timer
  · exact fun h => ⟨h, fun _ hst => h.mp (timer_cases hst).1⟩

/-- What the timer and the receive state do not see. -/
theorem timerInFrame_congr (ht : s'.xTimer = s.xTimer) (hr : s'.eRcvState = s.eRcvState) :
    TimerInFrame s' ↔ TimerInFrame s := by
  rw [timerInFrame_iff, timerInFrame_iff, ht, hr]

theorem timerInFrame_on (ht : s.xTimer = true) (hr : s.eRcvState = .rcv ∨ s.eRcvState = .waitEof) :
    TimerInFrame s :=
  timerInFrame_iff.mpr (iff_of_true ht hr)

theorem timerInFrame_off (ht : s.xTimer = false) (hr : s.eRcvState = .idle) : TimerInFrame s := by
  refine timerInFrame_iff.mpr (iff_of_false ?_ ?_)
  · rw [ht]
    exact Bool.false_ne_true
  · rw [hr]
    rintro (h | h)
    · cases h
    · cases h

/-! ## Steps -/

/-- A character of the data block. -/
theorem timerInFrame_decodeCharacter (ht : s.xTimer = true) (hr : s.eRcvState = .rcv)
    (c : UChar) : TimerInFrame (s.decodeCharacter c) := by
  unfold decodeCharacter
  split
  · split
    · exact timerInFrame_on ht (Or.inl hr)
    · exact timerInFrame_off rfl rfl
  · exact timerInFrame_on ht (Or.inl hr)

theorem timerInFrame_rcv (hr : s.eRcvState = .rcv) (c : UChar) :
    TimerInFrame (s.xMBASCIIReceiveFSM c) := by
  unfold xMBASCIIReceiveFSM
  rw [hr]
  dsimp only
  split
  · exact timerInFrame_on rfl (Or.inl hr)
  · split
    · exact timerInFrame_on rfl (Or.inr rfl)
    · exact timerInFrame_decodeCharacter (s := s.vMBPortTimersEnable) rfl hr c

/-- Behind the CR the timer is stopped by an LF, kept running by a colon, and forgotten by any
other character. -/
theorem timerInFrame_waitEof (ht : s.xTimer = true) (hr : s.eRcvState = .waitEof) (c : UChar) :
    TimerInFrame (s.xMBASCIIReceiveFSM c) ↔ c = s.ucMBLFCharacter ∨ c = asciiColon := by
  unfold xMBASCIIReceiveFSM
  rw [hr]
  dsimp only
  by_cases hlf : c = s.ucMBLFCharacter
  · rw [if_pos hlf]
    exact iff_of_true (timerInFrame_off rfl rfl) (Or.inl hlf)
  · rw [if_neg hlf]
    by_cases hcolon : c = asciiColon
    · rw [if_pos hcolon]
      exact iff_of_true (timerInFrame_on rfl (Or.inl rfl)) (Or.inr hcolon)
    · rw [if_neg hcolon]
      refine iff_of_false (fun h => ?_) (not_or.mpr ⟨hlf, hcolon⟩)
      rcases h.timer.mp ht with hst | hst
      · cases hst
      · cases hst

theorem timerInFrame_idle (h : TimerInFrame s) (hr : s.eRcvState = .idle) (c : UChar) :
    TimerInFrame (s.xMBASCIIReceiveFSM c) := by
  unfold xMBASCIIReceiveFSM
  rw [hr]
  dsimp only
  split
  · exact timerInFrame_on rfl (Or.inl rfl)
  · exact h

theorem timerInFrame_transmitFSM :
    TimerInFrame s.xMBASCIITransmitFSM ↔ TimerInFrame s := by
  unfold xMBASCIITransmitFSM
  cases s.eSndState with
  | start => exact timerInFrame_congr rfl rfl
  | finish => exact timerInFrame_congr rfl rfl
  | notify => exact timerInFrame_congr rfl rfl
  | idle => exact timerInFrame_congr rfl rfl
  | data =>
    dsimp only
    split
    · unfold sendNibble
      cases s.eBytePos with
      | highNibble => exact timerInFrame_congr rfl rfl
      | lowNibble => exact timerInFrame_congr rfl rfl
    · exact timerInFrame_congr rfl rfl

theorem timerInFrame_send {addr : UChar} {n : Nat} :
    TimerInFrame (s.eMBASCIISend addr n).2 ↔ TimerInFrame s := by
  unfold eMBASCIISend
  split
  · exact timerInFrame_congr rfl rfl
  · exact Iff.rfl

/-- A step keeps the timer to the frame exactly if it does not delete a frame behind its CR. -/
theorem timerInFrame_step {a : Action} (h : TimerInFrame s) (hst : s.step a = some s') :
    TimerInFrame s' ↔ KeepsFrame s a := by
  cases a with
  | character c =>
    obtain ⟨-, rfl⟩ := character_cases hst
    cases hr : s.eRcvState with
    | idle => exact iff_of_true (timerInFrame_idle h hr c) fun hw => by cases hr.symm.trans hw
    | rcv => exact iff_of_true (timerInFrame_rcv hr c) fun hw => by cases hr.symm.trans hw
    | waitEof =>
      have ht := h.timer.mpr (Or.inr hr)
      rw [timerInFrame_waitEof ht hr]
      exact ⟨fun hc _ => hc, fun hc => hc hr⟩
  | timer =>
    obtain ⟨-, rfl⟩ := timer_cases hst
    rw [timerT1SExpired_eq]
    exact iff_of_true (timerInFrame_off rfl rfl) trivial
  | txReady =>
    obtain ⟨-, rfl⟩ := txReady_cases hst
    exact iff_of_true (timerInFrame_transmitFSM.mpr h) trivial
  | send addr pdu =>
    obtain ⟨-, rfl⟩ := send_cases hst
    have hput : TimerInFrame (s.putPdu pdu) ↔ TimerInFrame s := timerInFrame_congr rfl rfl
    exact iff_of_true (timerInFrame_send.mpr (hput.mpr h)) trivial

theorem timerInFrame_started (h : Started s) : TimerInFrame s := by
  obtain ⟨buf⟩ := h
  exact timerInFrame_off rfl rfl

/-! ## Runs -/

/-- In a run from the start on the timer runs exactly within a frame, in every state, if and only
if no step deletes a frame behind its CR. -/
theorem ascii_timer_iff (s t : Ascii) (as : List Action) (hs : Started s)
    (hrun : run step s as = some t) :
    AllStates step TimerInFrame s as ↔ AllSteps step KeepsFrame s as :=
  allStates_iff (fun _ _ _ => timerInFrame_step) (timerInFrame_started hs) hrun

/-- A colon, CR and LF. -/
theorem ascii_timer_iff_empty_frame :
    AllStates step TimerInFrame silent [.character 0x3A, .character 0x0D, .character 0x0A] ↔
      AllSteps step KeepsFrame silent [.character 0x3A, .character 0x0D, .character 0x0A] :=
  ascii_timer_iff silent _ _ ⟨fun _ => 0⟩ rfl

/-- After a colon, CR and an `X` the timer runs, and expires, in an idle machine. -/
theorem ascii_timer_idle :
    ∃ s s', Reachable Started step s ∧ s.step .timer = some s' ∧ s.xTimer = true ∧
      s.eRcvState = .idle ∧ ¬ s.ExpiryAsserted := by
  have hrun : run step silent [.character 0x3A, .character 0x0D, .character 0x58] = some _ := rfl
  refine ⟨_, _, Reachable.of_run silent_reachable hrun, rfl, rfl, rfl, ?_⟩
  rintro (h | h)
  · cases h
  · cases h

end Ascii

end FreeModbus
