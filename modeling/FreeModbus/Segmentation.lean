import FreeModbus.Framing
import FreeModbus.Lib.LineSignals
import FreeModbus.Master.Line

/-!
# RTU segmentation

Which frames slave and master take from the line.  There is no delimiter: a frame is
what lies between two expiries of the t3.5 timer.  Both receive machines are segmenters of
the line that start deaf, and the check of length and CRC is one of the segment alone.

An upper layer that calls the receive routine at each `EV_FRAME_RECEIVED`, before the next
byte, gets exactly the frames of the segments behind the first expiry.
-/

namespace FreeModbus

open ByteMemory SerialLine

/-! ## Frames of the line -/

/-- What the receive routines check. -/
def Checks (segment : List UChar) : Prop :=
  mbSerPduSizeMin ≤ segment.length ∧ usMBCRC16List segment = 0

instance (segment : List UChar) : Decidable (Checks segment) :=
  inferInstanceAs (Decidable (_ ∧ _))

/-- Address and PDU of a segment: without the first byte and the last two. -/
def stripped (segment : List UChar) : UChar × List UChar :=
  (segment.headD 0, (segment.drop 1).take (segment.length - 3))

/-- The frames of a line: the segments behind the first silence that fit the buffer and have the
CRC residue zero, without address and CRC. -/
def framesOf (line : List (Signal UChar)) : List (UChar × List UChar) :=
  (((segments line).drop 1).filter fun segment =>
    segment.length ≤ mbSerPduSizeMax ∧ Checks segment).map stripped

/-- A frame in the buffer, read the way the receive routines do. -/
theorem stripped_slice (buf : Buf) {n : Nat} (h : mbSerPduSizeMin ≤ n) :
    stripped (slice buf 0 n) = (buf 0, slice buf 1 (n - 3)) := by
  obtain ⟨m, rfl⟩ := Nat.exists_eq_add_of_le' (Nat.le_trans (by decide : 3 ≤ mbSerPduSizeMin) h)
  have hlen : (slice buf 1 m).length = m := slice_length ..
  rw [stripped, slice_length, slice_succ, Nat.zero_add, slice_add, List.headD_cons,
    List.drop_one, List.tail_cons, Nat.add_sub_cancel, List.take_left' hlen]

/-- The accepted ones of what is handed over. -/
theorem filterMap_accepts {σ : Type*} {content : σ → List UChar}
    {accepts : σ → Option (UChar × List UChar)}
    (h : ∀ s, accepts s = if Checks (content s) then some (stripped (content s)) else none)
    (out : List σ) :
    out.filterMap accepts = ((out.map content).filter (Checks ·)).map stripped := by
  induction out with
  | nil => rfl
  | cons s out ih =>
    rw [List.filterMap_cons, h, List.map_cons, List.filter_cons, ih]
    by_cases hs : Checks (content s)
    · rw [if_pos hs, if_pos (decide_eq_true hs)]
      rfl
    · rw [if_neg hs, if_neg (by simpa using hs)]

/-- What a segmenter hands over from its start on, checked. -/
theorem outputs_accepts {σ : Type*} {step : σ → Signal UChar → Option (σ × Option σ)}
    {view : σ → Receiver UChar} {armed : σ → Bool} {content : σ → List UChar}
    {accepts : σ → Option (UChar × List UChar)}
    (hseg : Segmenter mbSerPduSizeMax step view armed content)
    (h : ∀ s, accepts s = if Checks (content s) then some (stripped (content s)) else none)
    {s : σ} (hdeaf : (view s).mode = .deaf) (harmed : armed s = true)
    (line : List (Signal UChar)) :
    (outputs step s line).map (List.filterMap accepts) =
      if Timed true line then some (framesOf line) else none := by
  have hcontent : (outputs step s line).map (List.filterMap accepts) =
      ((outputs step s line).map (List.map content)).map fun segs =>
        (segs.filter (Checks ·)).map stripped := by
    cases outputs step s line with
    | none => rfl
    | some out => exact congrArg some (filterMap_accepts h out)
  rw [hcontent, hseg.outputs_eq (by decide) hdeaf harmed]
  cases Timed true line with
  | false => rfl
  | true =>
    rw [if_pos rfl, if_pos rfl, Option.map_some, List.filter_filter, framesOf]
    simp only [Bool.decide_and, Bool.and_comm]

/-- A segment that does not fit leaves the line as if it had not been there. -/
theorem framesOf_overlong {long : List UChar} (hlong : mbSerPduSizeMax < long.length)
    (before after : List (Signal UChar)) :
    framesOf (before ++ .silence :: (long.map .item ++ .silence :: after)) =
      framesOf (before ++ .silence :: after) := by
  have hseg : segments (long.map .item ++ .silence :: after) = long :: segments after :=
    segmentsFrom_items long [] after
  have hdrop : ¬ (long.length ≤ mbSerPduSizeMax ∧ Checks long) :=
    fun h => Nat.not_le.mpr hlong h.1
  rw [framesOf, framesOf, drop_segments, drop_segments before after, hseg, List.filter_append,
    List.filter_append, List.filter_cons_of_neg (by simpa using hdrop)]

theorem timed_overlong {long : List UChar} (hlong : mbSerPduSizeMax < long.length)
    (before after : List (Signal UChar)) :
    Timed true (before ++ .silence :: (long.map .item ++ .silence :: after)) =
      Timed true (before ++ .silence :: after) := by
  have hne : long ≠ [] := List.ne_nil_of_length_pos (Nat.zero_lt_of_lt hlong)
  rw [timed_silence, timed_items hne, ← timed_silence]

/-! ## Slave -/

namespace Slave

/-- The event that `xMBRTUTimerT35Expired` posts. -/
def expiryPosts (s : Slave) : List MBEventType :=
  match s.eRcvState with
  | .init => [.ready]
  | .rcv => [.frameReceived]
  | .error => []
  | .idle => []

/-- A byte, or an expiry where the timer runs.  An `EV_FRAME_RECEIVED` that it posts is processed
by `eMBRTUReceive` at once, in the state that is put out. -/
def signal (s : Slave) : Signal UChar → Option (Slave × Option Slave)
  | .item ucByte => some (s.xMBRTUReceiveFSM ucByte, none)
  | .silence =>
      if s.xTimer then
        let s₁ := s.xMBRTUTimerT35Expired
        if .frameReceived ∈ s.expiryPosts then some (s₁.eMBRTUReceive.2, some s₁)
        else some (s₁, none)
      else none

/-- The address and the PDU that `eMBRTUReceive` returns. -/
def accepts (s : Slave) : Option (UChar × List UChar) :=
  match s.eMBRTUReceive with
  | (.enoerr, s₁) => some (s₁.ucRcvAddress, slice s₁.ucRTUBuf mbSerPduPduOff s₁.usLength)
  | (_, _) => none

/-- What is accepted of a line.  `none` if it expects an expiry while the timer is off. -/
def acceptedFrames (s : Slave) (line : List (Signal UChar)) : Option (List (UChar × List UChar)) :=
  (outputs signal s line).map (List.filterMap accepts)

/-- The bytes that `eMBRTUReceive` checks. -/
def rcvBytes (s : Slave) : List UChar := slice s.ucRTUBuf 0 s.usRcvBufferPos

theorem receiver_receive (s : Slave) : s.eMBRTUReceive.2.receiver = s.receiver := by
  unfold eMBRTUReceive
  split
  · rfl
  · rfl

theorem xTimer_receive (s : Slave) : s.eMBRTUReceive.2.xTimer = s.xTimer := by
  unfold eMBRTUReceive
  split
  · rfl
  · rfl

theorem xTimer_receiveFSM (s : Slave) (ucByte : UChar) :
    (s.xMBRTUReceiveFSM ucByte).xTimer = true := by
  unfold xMBRTUReceiveFSM
  split
  · rfl
  · rfl
  · rfl
  · split
    · rfl
    · rfl

theorem frameReceived_mem_expiryPosts {s : Slave} :
    .frameReceived ∈ s.expiryPosts ↔ s.receiver.mode = .receiving := by
  have hmode : s.receiver.mode = s.eRcvState.mode := rfl
  rw [hmode, expiryPosts]
  cases s.eRcvState with
  | init => decide
  | idle => decide
  | rcv => decide
  | error => decide

theorem segmenter : Segmenter mbSerPduSizeMax signal receiver xTimer rcvBytes := by
  refine .of_expired (fun s ucByte =>
    ⟨_, rfl, receiver_receiveFSM s ucByte, xTimer_receiveFSM s ucByte⟩) ?_ ?_ ?_
    (fun s => ⟨receiver_expired s, rfl⟩) (fun s => ⟨receiver_receive s, xTimer_receive s⟩)
    fun _ => rfl
  · intro s hoff
    simp only [signal, hoff]
    rfl
  · intro s htimer hmode
    simp only [signal, htimer, if_true, if_pos (frameReceived_mem_expiryPosts.mpr hmode)]
  · intro s htimer hmode
    simp only [signal, htimer, if_true, if_neg (mt frameReceived_mem_expiryPosts.mp hmode)]

theorem accepts_eq (s : Slave) :
    s.accepts = if Checks s.rcvBytes then some (stripped s.rcvBytes) else none := by
  have hchecks : Checks s.rcvBytes ↔
      mbSerPduSizeMin ≤ s.usRcvBufferPos ∧ usMBCRC16 s.ucRTUBuf s.usRcvBufferPos = 0 := by
    rw [Checks, rcvBytes, slice_length]
    rfl
  unfold accepts eMBRTUReceive
  by_cases h : Checks s.rcvBytes
  · rw [if_pos h, if_pos (hchecks.mp h), rcvBytes, stripped_slice _ (hchecks.mp h).1]
    rfl
  · rw [if_neg h, if_neg (mt hchecks.mpr h)]

end Slave

/-! ## Master -/

namespace Master

/-- A byte, or an expiry where the timer runs.  An `EV_MASTER_FRAME_RECEIVED` that it posts is
processed by `eMBMasterRTUReceive` at once, in the state that is put out. -/
def signal (s : Master) : Signal UChar → Option (Master × Option Master)
  | .item ucByte => some (s.xMBMasterRTUReceiveFSM ucByte, none)
  | .silence =>
      if s.xTimer then
        let s₁ := s.xMBMasterRTUTimerExpired
        if .frameReceived ∈ s.expiryPosts then some (s₁.eMBMasterRTUReceive.2, some s₁)
        else some (s₁, none)
      else none

/-- The address and the PDU that `eMBMasterRTUReceive` returns. -/
def accepts (s : Master) : Option (UChar × List UChar) :=
  match s.eMBMasterRTUReceive with
  | (.enoerr, s₁) => some (s₁.ucRcvAddress, slice s₁.frame 0 s₁.usLength)
  | (_, _) => none

/-- What is accepted of a line.  `none` if it expects an expiry while the timer is off. -/
def acceptedFrames (s : Master) (line : List (Signal UChar)) :
    Option (List (UChar × List UChar)) :=
  (outputs signal s line).map (List.filterMap accepts)

/-- The bytes that `eMBMasterRTUReceive` checks. -/
def rcvBytes (s : Master) : List UChar := slice s.ucMasterRTURcvBuf 0 s.usMasterRcvBufferPos

theorem receiver_receive (s : Master) : s.eMBMasterRTUReceive.2.receiver = s.receiver := by
  unfold eMBMasterRTUReceive
  split
  · rfl
  · rfl

theorem xTimer_receive (s : Master) : s.eMBMasterRTUReceive.2.xTimer = s.xTimer := by
  unfold eMBMasterRTUReceive
  split
  · rfl
  · rfl

theorem xTimer_receiveFSM (s : Master) (ucByte : UChar) :
    (s.xMBMasterRTUReceiveFSM ucByte).xTimer = true := by
  unfold xMBMasterRTUReceiveFSM
  split
  · rfl
  · rfl
  · rfl
  · split
    · rfl
    · rfl

theorem xTimer_timerExpired (s : Master) : s.xMBMasterRTUTimerExpired.xTimer = false := by
  unfold xMBMasterRTUTimerExpired
  dsimp only
  split
  · rfl
  · rfl

theorem frameReceived_mem_expiryPosts {s : Master} :
    .frameReceived ∈ s.expiryPosts ↔ s.receiver.mode = .receiving := by
  have hmode : s.receiver.mode = s.eRcvState.mode := rfl
  rw [hmode, expiryPosts]
  cases s.eRcvState <;> cases s.eSndState <;>
    by_cases hm : s.eMasterCurTimerMode = .convertDelay <;> simp [hm, MBMasterRcvState.mode]

theorem segmenter : Segmenter mbSerPduSizeMax signal receiver xTimer rcvBytes := by
  refine .of_expired (fun s ucByte =>
    ⟨_, rfl, receiver_receiveFSM s ucByte, xTimer_receiveFSM s ucByte⟩) ?_ ?_ ?_
    (fun s => ⟨receiver_expired s, xTimer_timerExpired s⟩)
    (fun s => ⟨receiver_receive s, xTimer_receive s⟩) fun _ => rfl
  · intro s hoff
    simp only [signal, hoff]
    rfl
  · intro s htimer hmode
    simp only [signal, htimer, if_true, if_pos (frameReceived_mem_expiryPosts.mpr hmode)]
  · intro s htimer hmode
    simp only [signal, htimer, if_true, if_neg (mt frameReceived_mem_expiryPosts.mp hmode)]

theorem accepts_eq (s : Master) :
    s.accepts = if Checks s.rcvBytes then some (stripped s.rcvBytes) else none := by
  have hchecks : Checks s.rcvBytes ↔ mbSerPduSizeMin ≤ s.usMasterRcvBufferPos ∧
      usMBCRC16 s.ucMasterRTURcvBuf s.usMasterRcvBufferPos = 0 := by
    rw [Checks, rcvBytes, slice_length]
    rfl
  unfold accepts eMBMasterRTUReceive
  by_cases h : Checks s.rcvBytes
  · rw [if_pos h, if_pos (hchecks.mp h), rcvBytes, stripped_slice _ (hchecks.mp h).1]
    exact congrArg (fun p => some (_, p)) (slice_at ..)
  · rw [if_neg h, if_neg (mt hchecks.mpr h)]

end Master

/-! ## Both machines -/

/-- From their start on, whatever the state before it, both machines accept exactly the frames of
the line, and a segment that does not fit the buffer leaves no trace. -/
theorem rtu_segmentation :
    (∀ (s : Slave) (line : List (Signal UChar)), s.eMBRTUStart.acceptedFrames line =
      if Timed true line then some (framesOf line) else none) ∧
    (∀ (s : Master) (line : List (Signal UChar)), s.eMBMasterRTUStart.acceptedFrames line =
      if Timed true line then some (framesOf line) else none) ∧
    ∀ (before after : List (Signal UChar)) (long : List UChar), mbSerPduSizeMax < long.length →
      (∀ s : Slave, s.eMBRTUStart.acceptedFrames
          (before ++ .silence :: (long.map .item ++ .silence :: after)) =
        s.eMBRTUStart.acceptedFrames (before ++ .silence :: after)) ∧
      ∀ s : Master, s.eMBMasterRTUStart.acceptedFrames
          (before ++ .silence :: (long.map .item ++ .silence :: after)) =
        s.eMBMasterRTUStart.acceptedFrames (before ++ .silence :: after) := by
  have hslave : ∀ (s : Slave) (line : List (Signal UChar)), s.eMBRTUStart.acceptedFrames line =
      if Timed true line then some (framesOf line) else none :=
    fun s => outputs_accepts Slave.segmenter Slave.accepts_eq rfl rfl
  have hmaster : ∀ (s : Master) (line : List (Signal UChar)),
      s.eMBMasterRTUStart.acceptedFrames line =
        if Timed true line then some (framesOf line) else none :=
    fun s => outputs_accepts Master.segmenter Master.accepts_eq rfl rfl
  refine ⟨hslave, hmaster, fun before after long hlong => ⟨fun s => ?_, fun s => ?_⟩⟩
  · rw [hslave, hslave, timed_overlong hlong, framesOf_overlong hlong]
  · rw [hmaster, hmaster, timed_overlong hlong, framesOf_overlong hlong]

end FreeModbus
