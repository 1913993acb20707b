import FreeModbus.Master.Rtu
import Mathlib.Algebra.Order.Field.Rat
import Mathlib.Data.Rat.Cast.Order
import Mathlib.Tactic.Linarith
import Mathlib.Tactic.NormNum
import Mathlib.Tactic.Ring

/-!
# The end of frame timer

`eMBRTUInit` and `eMBMasterRTUInit` take the time of 3.5 characters from the baud rate, in
units of 50 microseconds, and `porttimer.c` and `porttimer_m.c` turn it into ticks of the
kernel.  Both divisions round down.

The slave adds one tick, and so does `xMBMasterPortTimersInit`.  But the master sets the
ticks anew each time it starts the timer, and `vMBMasterPortTimersT35Enable` adds none.  So
the slave always waits long enough, and the master only where nothing was rounded off.
-/

namespace FreeModbus

/-- `ULONG`. -/
abbrev ULong := BitVec 32

/-! ## The kernel's timer -/

/-- `RT_TICK_PER_SECOND`. -/
abbrev rtTickPerSecond : Nat := 10000

/-- What the port uses of an `rt_timer`. -/
structure RtTimer where
  initTick : Nat
  active : Bool
deriving Repr, DecidableEq

namespace RtTimer

/-- `rt_timer_init`. -/
def rtTimerInit (time : Nat) : RtTimer where
  initTick := time
  active := false

/-- `rt_timer_control` with `RT_TIMER_CTRL_SET_TIME`. -/
def rtTimerSetTime (timer : RtTimer) (time : Nat) : RtTimer := { timer with initTick := time }

/-- `rt_timer_start`. -/
def rtTimerStart (timer : RtTimer) : RtTimer := { timer with active := true }

/-- `rt_timer_stop`. -/
def rtTimerStop (timer : RtTimer) : RtTimer := { timer with active := false }

end RtTimer

open RtTimer

/-- The ticks of a time in units of 50 microseconds. -/
def ticksOf50us (usTimeOut50us : UShort) : Nat :=
  50 * usTimeOut50us.toNat / (1000 * 1000 / rtTickPerSecond)

/-- `usTimerT35_50us` of `eMBRTUInit` and `eMBMasterRTUInit`. -/
def usTimerT35_50us (ulBaudRate : ULong) : ULong :=
  if 19200 < ulBaudRate then 35 else (7 * 220000) / (2 * ulBaudRate)

/-! ## `porttimer.c` -/

/-- `xMBPortTimersInit`. -/
def xMBPortTimersInit (usTim1Timerout50us : UShort) : RtTimer :=
  rtTimerInit (ticksOf50us usTim1Timerout50us + 1)

/-- The calls of the slave on its timer. -/
inductive SlaveTimerCall where
  | enable
  | disable
deriving Repr, DecidableEq

/-- `vMBPortTimersEnable` and `vMBPortTimersDisable`. -/
def SlaveTimerCall.apply (timer : RtTimer) : SlaveTimerCall → RtTimer
  | .enable => timer.rtTimerStart
  | .disable => timer.rtTimerStop

/-- The timer that `eMBRTUInit` leaves, where the serial port initialises. -/
def eMBRTUInitTimer (ulBaudRate : ULong) : RtTimer :=
  xMBPortTimersInit ((usTimerT35_50us ulBaudRate).setWidth 16)

/-! ## `porttimer_m.c` -/

/-- `MB_MASTER_DELAY_MS_CONVERT`. -/
abbrev mbMasterDelayMsConvert : Nat := 200

/-- `MB_MASTER_TIMEOUT_MS_RESPOND`. -/
abbrev mbMasterTimeoutMsRespond : Nat := 100

/-- The static data of `porttimer_m.c`, and the mode that it sets. -/
structure MasterTimer where
  usT35TimeOut50us : UShort
  timer : RtTimer
  eMasterCurTimerMode : MBMasterTimerMode
deriving Repr, DecidableEq

/-- `xMBMasterPortTimersInit`. -/
def xMBMasterPortTimersInit (eMasterCurTimerMode : MBMasterTimerMode) (usTimeOut50us : UShort) :
    MasterTimer where
  usT35TimeOut50us := usTimeOut50us
  timer := rtTimerInit (ticksOf50us usTimeOut50us + 1)
  eMasterCurTimerMode := eMasterCurTimerMode

namespace MasterTimer

/-- The three functions that start the timer: for a number of ticks, in a mode. -/
def enable (s : MasterTimer) (timerTick : Nat) (mode : MBMasterTimerMode) : MasterTimer :=
  { s with
    timer := (s.timer.rtTimerSetTime timerTick).rtTimerStart
    eMasterCurTimerMode := mode }

/-- `vMBMasterPortTimersT35Enable`. -/
def t35Enable (s : MasterTimer) : MasterTimer := s.enable (ticksOf50us s.usT35TimeOut50us) .t35

/-- `vMBMasterPortTimersConvertDelayEnable`. -/
def convertDelayEnable (s : MasterTimer) : MasterTimer :=
  s.enable (mbMasterDelayMsConvert * rtTickPerSecond / 1000) .convertDelay

/-- `vMBMasterPortTimersRespondTimeoutEnable`. -/
def respondTimeoutEnable (s : MasterTimer) : MasterTimer :=
  s.enable (mbMasterTimeoutMsRespond * rtTickPerSecond / 1000) .respondTimeout

/-- `vMBMasterPortTimersDisable`. -/
def disable (s : MasterTimer) : MasterTimer := { s with timer := s.timer.rtTimerStop }

end MasterTimer

/-- The calls of the master on its timer. -/
inductive MasterTimerCall where
  | t35Enable
  | convertDelayEnable
  | respondTimeoutEnable
  | disable
deriving Repr, DecidableEq

/-- The function that is called. -/
def MasterTimerCall.apply (s : MasterTimer) : MasterTimerCall → MasterTimer
  | .t35Enable => s.t35Enable
  | .convertDelayEnable => s.convertDelayEnable
  | .respondTimeoutEnable => s.respondTimeoutEnable
  | .disable => s.disable

/-- The timer that `eMBMasterRTUInit` leaves, where the serial port initialises. -/
def eMBMasterRTUInitTimer (eMasterCurTimerMode : MBMasterTimerMode) (ulBaudRate : ULong) :
    MasterTimer :=
  xMBMasterPortTimersInit eMasterCurTimerMode ((usTimerT35_50us ulBaudRate).setWidth 16)

/-! ## Ticks -/

/-- The ticks that the slave starts its timer with, after any calls. -/
def slaveTicks (ulBaudRate : ULong) (calls : List SlaveTimerCall) : Nat :=
  ((calls.foldl SlaveTimerCall.apply (eMBRTUInitTimer ulBaudRate)).rtTimerStart).initTick

/-- The ticks that the master starts its timer with for the end of a frame, after any calls. -/
def masterTicks (mode : MBMasterTimerMode) (ulBaudRate : ULong) (calls : List MasterTimerCall) :
    Nat :=
  (calls.foldl MasterTimerCall.apply
    (eMBMasterRTUInitTimer mode ulBaudRate)).t35Enable.timer.initTick

/-- The time of a number of ticks, in microseconds. -/
def tickTime (ticks : Nat) : ℚ := ticks * (1000000 / rtTickPerSecond)

/-- The time of 3.5 characters of eleven bits, in microseconds, and the fixed time above 19200
baud. -/
def t35Time (ulBaudRate : ULong) : ℚ :=
  if ulBaudRate.toNat ≤ 19200 then 38500000 / ulBaudRate.toNat else 1750

/-- No call changes the ticks of the slave. -/
theorem slaveTicks_eq (b : ULong) (calls : List SlaveTimerCall) :
    slaveTicks b calls = ticksOf50us ((usTimerT35_50us b).setWidth 16) + 1 := by
  have hall : ∀ (calls : List SlaveTimerCall) (timer : RtTimer),
      (calls.foldl SlaveTimerCall.apply timer).initTick = timer.initTick := by
    intro calls
    induction calls with
    | nil => exact fun _ => rfl
    | cons call calls ih =>
      intro timer
      rw [List.foldl_cons, ih]
      cases call with
      | enable => rfl
      | disable => rfl
  exact hall calls (eMBRTUInitTimer b)

/-- The master keeps the time of 3.5 characters, and takes the ticks from it. -/
theorem masterTicks_eq (mode : MBMasterTimerMode) (b : ULong) (calls : List MasterTimerCall) :
    masterTicks mode b calls = ticksOf50us ((usTimerT35_50us b).setWidth 16) := by
  have hall : ∀ (calls : List MasterTimerCall) (s : MasterTimer),
      (calls.foldl MasterTimerCall.apply s).usT35TimeOut50us = s.usT35TimeOut50us := by
    intro calls
    induction calls with
    | nil => exact fun _ => rfl
    | cons call calls ih =>
      intro s
      rw [List.foldl_cons, ih]
      cases call with
      | t35Enable => rfl
      | convertDelayEnable => rfl
      | respondTimeoutEnable => rfl
      | disable => rfl
  exact congrArg ticksOf50us (hall calls (eMBMasterRTUInitTimer mode b))

/-! ## Rounding -/

/-- The reload value for a baud rate that has no fixed one. -/
theorem toNat_usTimerT35_50us {b : ULong} (hb : b.toNat ≤ 19200) :
    (usTimerT35_50us b).toNat = 770000 / b.toNat := by
  have hslow : ¬ (19200 : ULong) < b := by
    rw [BitVec.lt_def]
    exact Nat.not_lt.mpr hb
  have hnum : (7 * 220000 : ULong).toNat = 1540000 := by decide
  have htwo : (2 * b).toNat = 2 * b.toNat := by
    have h2 : (2 : ULong).toNat = 2 := by decide
    rw [BitVec.toNat_mul, h2]
    omega
  rw [usTimerT35_50us, if_neg hslow, BitVec.toNat_udiv, hnum, htwo, ← Nat.div_div_eq_div_mul]

/-- Up to 19200 baud the ticks are the exact time, rounded down once. -/
theorem ticks_slow {b : ULong} (h12 : 12 ≤ b.toNat) (hb : b.toNat ≤ 19200) :
    ticksOf50us ((usTimerT35_50us b).setWidth 16) = 385000 / b.toNat := by
  have hfits : 770000 / b.toNat < 2 ^ 16 := by
    have hle : 770000 / b.toNat ≤ 770000 / 12 := Nat.div_le_div_left h12 (by decide)
    exact Nat.lt_of_le_of_lt hle (by decide)
  have hhalf : 50 * (770000 / b.toNat) / (1000 * 1000 / rtTickPerSecond) =
      770000 / b.toNat / 2 := by
    rw [show 1000 * 1000 / rtTickPerSecond = 50 * 2 by decide]
    exact Nat.mul_div_mul_left _ _ (by decide)
  rw [ticksOf50us, BitVec.toNat_setWidth, toNat_usTimerT35_50us hb, Nat.mod_eq_of_lt hfits, hhalf,
    Nat.div_div_eq_div_mul, Nat.mul_comm, ← Nat.div_div_eq_div_mul]

/-- Above 19200 baud they are those of 1750 microseconds, rounded down. -/
theorem ticks_fast {b : ULong} (hb : 19200 < b.toNat) :
    ticksOf50us ((usTimerT35_50us b).setWidth 16) = 17 := by
  have hfast : (19200 : ULong) < b := by
    rw [BitVec.lt_def]
    exact hb
  rw [usTimerT35_50us, if_pos hfast]
  rfl

/-- A number of ticks is long enough for a baud rate up to 19200. -/
theorem t35Time_le_slow {b : ULong} (h12 : 12 ≤ b.toNat) (hb : b.toNat ≤ 19200) (ticks : Nat) :
    t35Time b ≤ tickTime ticks ↔ 385000 ≤ ticks * b.toNat := by
  have hpos : (0 : ℚ) < b.toNat := by exact_mod_cast Nat.lt_of_lt_of_le (by decide) h12
  have htime : tickTime ticks * b.toNat = 100 * ((ticks * b.toNat : Nat) : ℚ) := by
    rw [tickTime]
    push_cast
    ring
  rw [t35Time, if_pos hb, div_le_iff₀ hpos, htime]
  constructor
  · intro h
    have h' : (385000 : ℚ) ≤ ((ticks * b.toNat : Nat) : ℚ) := by linarith only [h]
    exact_mod_cast h'
  · intro h
    have h' : (385000 : ℚ) ≤ ((ticks * b.toNat : Nat) : ℚ) := by exact_mod_cast h
    linarith only [h']

/-- Above 19200 baud it takes 18 ticks. -/
theorem t35Time_le_fast {b : ULong} (hb : 19200 < b.toNat) (ticks : Nat) :
    t35Time b ≤ tickTime ticks ↔ 18 ≤ ticks := by
  rw [t35Time, if_neg (Nat.not_le.mpr hb), tickTime]
  constructor
  · intro h
    by_contra hlt
    have hle : (ticks : ℚ) ≤ 17 := by exact_mod_cast Nat.le_of_lt_succ (Nat.not_le.mp hlt)
    norm_num at h
    linarith only [h, hle]
  · intro h
    have hle : (18 : ℚ) ≤ ticks := by exact_mod_cast h
    norm_num
    linarith only [hle]

/-- The quotient rounded down reaches the dividend only where it divides. -/
theorem le_div_mul_iff {n d : Nat} : n ≤ n / d * d ↔ d ∣ n := by
  constructor
  · intro h
    exact ⟨n / d, by rw [Nat.mul_comm]; exact Nat.le_antisymm h (Nat.div_mul_le_self n d)⟩
  · intro h
    exact Nat.le_of_eq (Nat.div_mul_cancel h).symm

/-! ## Slave and master -/

/-- The ticks of the slave are long enough. -/
theorem t35Time_le_slave {b : ULong} (h12 : 12 ≤ b.toNat) :
    t35Time b ≤ tickTime (ticksOf50us ((usTimerT35_50us b).setWidth 16) + 1) := by
  rcases Nat.lt_or_ge 19200 b.toNat with hfast | hslow
  · rw [t35Time_le_fast hfast, ticks_fast hfast]
  · rw [t35Time_le_slow h12 hslow, ticks_slow h12 hslow]
    have hpos : 0 < b.toNat := Nat.lt_of_lt_of_le (by decide) h12
    rw [Nat.mul_comm]
    exact Nat.le_of_lt (Nat.lt_mul_div_succ 385000 hpos)

/-- Those of the master are so only up to 19200 baud and where the time is a whole number of
ticks. -/
theorem t35Time_le_master {b : ULong} (h12 : 12 ≤ b.toNat) :
    t35Time b ≤ tickTime (ticksOf50us ((usTimerT35_50us b).setWidth 16)) ↔
      b.toNat ≤ 19200 ∧ b.toNat ∣ 385000 := by
  rcases Nat.lt_or_ge 19200 b.toNat with hfast | hslow
  · rw [t35Time_le_fast hfast, ticks_fast hfast]
    exact iff_of_false (by decide) fun h => Nat.not_le.mpr hfast h.1
  · rw [t35Time_le_slow h12 hslow, ticks_slow h12 hslow, le_div_mul_iff]
    exact (and_iff_right hslow).symm

/-- For no baud rate do slave and master wait for the same number of ticks and both long enough:
the slave waits long enough, and one tick longer than the master, which does so only where the
time of 3.5 characters is a whole number of ticks. -/
theorem t35_ticks (b : ULong) (h12 : 12 ≤ b.toNat) (mode : MBMasterTimerMode)
    (calls : List SlaveTimerCall) (masterCalls : List MasterTimerCall) :
    ¬ (t35Time b ≤ tickTime (slaveTicks b calls) ∧
        t35Time b ≤ tickTime (masterTicks mode b masterCalls) ∧
        slaveTicks b calls = masterTicks mode b masterCalls) ∧
      t35Time b ≤ tickTime (slaveTicks b calls) ∧
      (t35Time b ≤ tickTime (masterTicks mode b masterCalls) ↔
        b.toNat ≤ 19200 ∧ b.toNat ∣ 385000) ∧
      slaveTicks b calls = masterTicks mode b masterCalls + 1 := by
  rw [slaveTicks_eq, masterTicks_eq]
  refine ⟨?_, t35Time_le_slave h12, t35Time_le_master h12, rfl⟩
  rintro ⟨-, -, h⟩
  exact Nat.succ_ne_self _ h

/-- At 9600 baud the master waits 40 ticks, which is less than 3.5 characters. -/
theorem t35_ticks_9600 :
    ¬ (t35Time 9600 ≤ tickTime (slaveTicks 9600 []) ∧
        t35Time 9600 ≤ tickTime (masterTicks .t35 9600 []) ∧
        slaveTicks 9600 [] = masterTicks .t35 9600 []) ∧
      t35Time 9600 ≤ tickTime (slaveTicks 9600 []) ∧
      (t35Time 9600 ≤ tickTime (masterTicks .t35 9600 []) ↔
        (9600 : ULong).toNat ≤ 19200 ∧ (9600 : ULong).toNat ∣ 385000) ∧
      slaveTicks 9600 [] = masterTicks .t35 9600 [] + 1 :=
  t35_ticks 9600 (by decide) .t35 [] []

/-- At 115200 baud the master waits for 1700 microseconds. -/
theorem t35_ticks_115200 :
    tickTime (masterTicks .t35 115200 []) = 1700 ∧
      tickTime (masterTicks .t35 115200 []) < t35Time 115200 ∧
      slaveTicks 115200 [] ≠ masterTicks .t35 115200 [] := by
  have hfast : 19200 < (115200 : ULong).toNat := by decide
  have hmaster : tickTime (masterTicks .t35 115200 []) = 1700 := by
    rw [masterTicks_eq, ticks_fast hfast]
    norm_num [tickTime]
  have htime : t35Time 115200 = 1750 := if_neg (Nat.not_le.mpr hfast)
  refine ⟨hmaster, ?_, ?_⟩
  · rw [hmaster, htime]
    norm_num
  · rw [slaveTicks_eq, masterTicks_eq]
    exact Nat.succ_ne_self _

end FreeModbus
