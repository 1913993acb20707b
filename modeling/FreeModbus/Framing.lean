import FreeModbus.Lib.SerialLine
import FreeModbus.Master.Sending
import FreeModbus.Slave.Transaction

/-!
# RTU framing

What one side sends the other side receives.  The transmit machines of slave and
master are transmitters of the serial line, the receive machines are receivers,
and what goes over the line is address, PDU and CRC.
-/

namespace FreeModbus

open ByteMemory SerialLine Transition

/-- A PDU on the line. -/
def rtuFrame (a : UChar) (p : List UChar) : List UChar :=
  (a :: p) ++ crcBytes (usMBCRC16List (a :: p))

theorem rtuFrame_length (a : UChar) (p : List UChar) : (rtuFrame a p).length = p.length + 3 := by
  simp [rtuFrame, crcBytes]

theorem rtuFrame_crc (a : UChar) (p : List UChar) : usMBCRC16List (rtuFrame a p) = 0 :=
  (usMBCRC16List_eq_zero (a :: p) _ _).mpr rfl

/-- Address and PDU lie where the frame does. -/
theorem holds_rtuFrame {b : Buf} {a : UChar} {p : List UChar} (h : b.Holds 0 (rtuFrame a p)) :
    b 0 = a ∧ b.Holds 1 p := by
  rw [rtuFrame, Mem.holds_append, Mem.holds_cons] at h
  exact h.1

/-- The frame passes the length and CRC check. -/
theorem rtuFrame_valid {b : Buf} {a : UChar} {p : List UChar} (h1 : 1 ≤ p.length)
    (h : b.Holds 0 (rtuFrame a p)) :
    mbSerPduSizeMin ≤ p.length + 3 ∧ usMBCRC16 b (p.length + 3) = 0 := by
  constructor
  · exact Nat.add_le_add_right h1 3
  · rw [← rtuFrame_length a p]
    exact (congrArg usMBCRC16List h).trans (rtuFrame_crc a p)

/-- An idle receiver with the room of the frame buffers has the frame in its buffer. -/
theorem takes_rtuFrame {r : Receiver UChar} (hidle : r.mode = .idle) (a : UChar)
    {p : List UChar} (h253 : p.length ≤ 253) :
    ((rtuFrame a p).foldl (Receiver.take mbSerPduSizeMax) r).pos = p.length + 3 ∧
      ((rtuFrame a p).foldl (Receiver.take mbSerPduSizeMax) r).buf.Holds 0 (rtuFrame a p) := by
  have hlen := rtuFrame_length a p
  have hpos : 1 ≤ (rtuFrame a p).length := by
    rw [hlen]
    exact Nat.le_add_left 1 _
  have hfits : (rtuFrame a p).length ≤ mbSerPduSizeMax := by
    rw [hlen]
    exact Nat.add_le_add_right h253 3
  rw [Receiver.takes hidle hpos hfits]
  exact ⟨hlen, Mem.holds_write _ _ 0⟩

/-! ## Slave -/

/-- What the receive machine does in a state. -/
def MBRcvState.mode : MBRcvState → Mode
  | .init => .deaf
  | .idle => .idle
  | .rcv => .receiving
  | .error => .deaf

namespace Slave

/-- The receive machine. -/
def receiver (s : Slave) : Receiver UChar where
  mode := s.eRcvState.mode
  buf := s.ucRTUBuf
  pos := s.usRcvBufferPos

/-- The transmit machine. -/
def transmitter (s : Slave) : Transmitter UChar where
  buf := s.ucRTUBuf
  cur := s.pucSndBufferCur
  count := s.usSndBufferCount
  on := s.xTxEnable
  line := s.sent

/-- `eMBRTUReceive` returns the PDU and the address it is for. -/
structure Gets (s : Slave) (a : UChar) (p : List UChar) : Prop where
  status : s.eMBRTUReceive.1 = .enoerr
  address : s.eMBRTUReceive.2.ucRcvAddress = a
  length : s.eMBRTUReceive.2.usLength = p.length
  pdu : (s.eMBRTUReceive.2.ucRTUBuf.at mbSerPduPduOff).Holds 0 p

variable {s : Slave} {a : UChar} {p : List UChar}

theorem receiver_receiveFSM (s : Slave) (b : UChar) :
    (s.xMBRTUReceiveFSM b).receiver = s.receiver.take mbSerPduSizeMax b := by
  have hmode : s.receiver.mode = s.eRcvState.mode := rfl
  cases h : s.eRcvState with
  | init =>
    rw [Receiver.take, hmode, xMBRTUReceiveFSM, h]
    rfl
  | error =>
    rw [Receiver.take, hmode, xMBRTUReceiveFSM, h]
    rfl
  | idle =>
    rw [Receiver.take, hmode, xMBRTUReceiveFSM, h]
    rfl
  | rcv =>
    rw [Receiver.take, hmode, xMBRTUReceiveFSM, h]
    by_cases hlt : s.usRcvBufferPos < mbSerPduSizeMax
    · simp only [receiver, hlt, if_true, vMBPortTimersEnable, MBRcvState.mode, h]
    · simp only [receiver, hlt, if_false, vMBPortTimersEnable, MBRcvState.mode]

theorem receiver_foldl (s : Slave) (bytes : List UChar) :
    (bytes.foldl xMBRTUReceiveFSM s).receiver =
      bytes.foldl (Receiver.take mbSerPduSizeMax) s.receiver :=
  (List.foldl_hom receiver (fun s b => (receiver_receiveFSM s b).symm)).symm

/-- The timer leaves the frame in the buffer. -/
theorem receiver_expired (s : Slave) : s.xMBRTUTimerT35Expired.receiver =
    { s.receiver with mode := .idle } := by
  unfold xMBRTUTimerT35Expired
  split
  · rfl
  · rfl
  · rfl
  · rfl

/-- The frame of a PDU in the buffer is received as that PDU. -/
theorem gets_of_holds (h1 : 1 ≤ p.length) (hpos : s.usRcvBufferPos = p.length + 3)
    (hbuf : s.ucRTUBuf.Holds 0 (rtuFrame a p)) : s.Gets a p := by
  have hok := rtuFrame_valid h1 hbuf
  rw [← hpos] at hok
  obtain ⟨haddr, hpdu⟩ := holds_rtuFrame hbuf
  have hres : s.eMBRTUReceive = _ := if_pos hok
  constructor
  · rw [hres]
  · rw [hres]
    exact haddr
  · rw [hres]
    show s.usRcvBufferPos - 1 - 2 = p.length
    omega
  · rw [hres, Mem.holds_at]
    exact hpdu

/-- A slave that waits for a frame receives what it is fed. -/
theorem receives (hidle : s.eRcvState = .idle) (h1 : 1 ≤ p.length) (h253 : p.length ≤ 253) :
    ((rtuFrame a p).foldl xMBRTUReceiveFSM s).xMBRTUTimerT35Expired.Gets a p := by
  have hmode : s.receiver.mode = .idle := congrArg MBRcvState.mode hidle
  obtain ⟨hpos, hbuf⟩ := takes_rtuFrame hmode a h253
  have hrec := receiver_expired ((rtuFrame a p).foldl xMBRTUReceiveFSM s)
  rw [receiver_foldl] at hrec
  rw [← show _ = Receiver.buf _ from congrArg Receiver.buf hrec] at hbuf
  exact gets_of_holds h1 ((congrArg Receiver.pos hrec).trans hpos) hbuf

/-- While it is on, the transmit machine is a transmitter. -/
def Transmits (s : Slave) (t : Transmitter UChar) : Prop :=
  s.transmitter = t ∧ (t.on = true → s.eSndState = .xmit)

theorem transmits_step {t : Transmitter UChar} (h : s.Transmits t) (hon : t.on = true) :
    s.xMBRTUTransmitFSM.Transmits t.turn := by
  obtain ⟨rfl, hsnd⟩ := h
  have hxmit := hsnd hon
  by_cases hc : s.usSndBufferCount = 0
  · have hdone : s.xMBRTUTransmitFSM = { s.post .frameSent with
        xRxEnable := true
        xTxEnable := false
        eSndState := .idle } := by
      simp [xMBRTUTransmitFSM, hxmit, hc, vMBPortSerialEnable]
    rw [hdone, Transmitter.turn_done hc]
    exact ⟨rfl, Bool.noConfusion⟩
  · have hbyte : s.xMBRTUTransmitFSM = { s with
        sent := s.sent ++ [s.ucRTUBuf s.pucSndBufferCur]
        pucSndBufferCur := s.pucSndBufferCur + 1
        usSndBufferCount := s.usSndBufferCount - 1 } := by
      simp only [xMBRTUTransmitFSM, hxmit, ne_eq, hc, not_false_eq_true, if_true,
        xMBPortSerialPutByte]
    rw [hbyte, Transmitter.turn_item hc]
    exact ⟨rfl, fun _ => hxmit⟩

/-- `eMBRTUSend` and the transmit interrupts that follow put the frame on the line. -/
theorem sends (hidle : s.eRcvState = .idle) (hpdu : s.ucRTUBuf.Holds 1 p)
    (hlen : s.usLength = p.length) :
    (s.eMBRTUSend a).1 = .enoerr ∧
      ∃ s', Until xTxEnable xMBRTUTransmitFSM (s.eMBRTUSend a).2 s' ∧
        s'.sent = s.sent ++ rtuFrame a p := by
  have hstatus : (s.eMBRTUSend a).1 = .enoerr := by
    simp only [eMBRTUSend, if_pos hidle]
  have hsend := send_eq hidle a
  have hstart : (s.eMBRTUSend a).2.Transmits (s.eMBRTUSend a).2.transmitter := by
    refine ⟨rfl, fun _ => ?_⟩
    rw [hsend]
  have hon : (s.eMBRTUSend a).2.transmitter.on = true := by
    rw [hsend]
    rfl
  obtain ⟨t', huntil, hline⟩ := Transmitter.runs hon
  have hsim : ∃ s', Until xTxEnable xMBRTUTransmitFSM (s.eMBRTUSend a).2 s' ∧
      s'.Transmits t' :=
    huntil.simulate (fun s t h => congrArg Transmitter.on h.1) (fun s t h => transmits_step h)
      hstart
  obtain ⟨s', huntil', ⟨rfl, -⟩⟩ := hsim
  refine ⟨hstatus, s', huntil', ?_⟩
  have hframe := holds_frame hpdu a
  rw [← hlen] at hframe
  have hcount : 1 + s.usLength + 2 = (rtuFrame a p).length := by
    rw [rtuFrame_length, hlen]
    omega
  rw [show s'.sent = _ from hline, hsend]
  show s.sent ++ slice _ 0 (1 + s.usLength + 2) = _
  rw [hcount]
  exact congrArg (s.sent ++ ·) hframe

end Slave

/-! ## Master -/

/-- What the receive machine of the master does in a state. -/
def MBMasterRcvState.mode : MBMasterRcvState → Mode
  | .init => .deaf
  | .idle => .idle
  | .rcv => .receiving
  | .error => .deaf

namespace Master

/-- The receive machine. -/
def receiver (s : Master) : Receiver UChar where
  mode := s.eRcvState.mode
  buf := s.ucMasterRTURcvBuf
  pos := s.usMasterRcvBufferPos

/-- The transmit machine. -/
def transmitter (s : Master) : Transmitter UChar where
  buf := s.ucMasterRTUSndBuf
  cur := s.pucMasterSndBufferCur
  count := s.usMasterSndBufferCount.toNat
  on := s.xTxEnable
  line := s.line

/-- `eMBMasterRTUReceive` returns the PDU and the address it is from. -/
structure Gets (s : Master) (a : UChar) (p : List UChar) : Prop where
  status : s.eMBMasterRTUReceive.1 = .enoerr
  address : s.eMBMasterRTUReceive.2.ucRcvAddress = a
  length : s.eMBMasterRTUReceive.2.usLength = p.length
  pdu : s.eMBMasterRTUReceive.2.frame.Holds 0 p

variable {s : Master} {a : UChar} {p : List UChar}

theorem receiver_receiveFSM (s : Master) (b : UChar) :
    (s.xMBMasterRTUReceiveFSM b).receiver = s.receiver.take mbSerPduSizeMax b := by
  have hmode : s.receiver.mode = s.eRcvState.mode := rfl
  cases h : s.eRcvState with
  | init =>
    rw [Receiver.take, hmode, xMBMasterRTUReceiveFSM, h]
    rfl
  | error =>
    rw [Receiver.take, hmode, xMBMasterRTUReceiveFSM, h]
    rfl
  | idle =>
    rw [Receiver.take, hmode, xMBMasterRTUReceiveFSM, h]
    rfl
  | rcv =>
    rw [Receiver.take, hmode, xMBMasterRTUReceiveFSM, h]
    by_cases hlt : s.usMasterRcvBufferPos < mbSerPduSizeMax
    · simp only [receiver, hlt, if_true, vMBMasterPortTimersT35Enable, timersEnable,
        MBMasterRcvState.mode, h]
    · simp only [receiver, hlt, if_false, vMBMasterPortTimersT35Enable, timersEnable,
        MBMasterRcvState.mode]

theorem receiver_foldl (s : Master) (bytes : List UChar) :
    (bytes.foldl xMBMasterRTUReceiveFSM s).receiver =
      bytes.foldl (Receiver.take mbSerPduSizeMax) s.receiver :=
  (List.foldl_hom receiver (fun s b => (receiver_receiveFSM s b).symm)).symm

theorem receiver_expiredRcv (s : Master) :
    s.timerExpiredRcv.receiver = { s.receiver with mode := .idle } := by
  unfold timerExpiredRcv
  split
  · rfl
  · rfl
  · rfl
  · rfl

theorem receiver_expiredSnd (s : Master) : s.timerExpiredSnd.receiver = s.receiver := by
  unfold timerExpiredSnd
  split
  · split
    · rfl
    · rfl
  · rfl
  · rfl

/-- The timer leaves the frame in the buffer. -/
theorem receiver_expired (s : Master) : s.xMBMasterRTUTimerExpired.receiver =
    { s.receiver with mode := .idle } := by
  have hend : s.xMBMasterRTUTimerExpired.receiver = s.timerExpiredRcv.timerExpiredSnd.receiver := by
    unfold xMBMasterRTUTimerExpired
    dsimp only
    split
    · rfl
    · rfl
  rw [hend, receiver_expiredSnd, receiver_expiredRcv]

/-- The frame of a PDU in the buffer is received as that PDU. -/
theorem gets_of_holds (h1 : 1 ≤ p.length) (hpos : s.usMasterRcvBufferPos = p.length + 3)
    (hbuf : s.ucMasterRTURcvBuf.Holds 0 (rtuFrame a p)) : s.Gets a p := by
  have hok := rtuFrame_valid h1 hbuf
  rw [← hpos] at hok
  obtain ⟨haddr, hpdu⟩ := holds_rtuFrame hbuf
  have hres : s.eMBMasterRTUReceive = _ := if_pos hok
  constructor
  · rw [hres]
  · rw [hres]
    exact haddr
  · rw [hres]
    show s.usMasterRcvBufferPos - 1 - 2 = p.length
    omega
  · rw [hres]
    exact Mem.holds_at.mpr hpdu

/-- A master that waits for a frame receives what it is fed. -/
theorem receives (hidle : s.eRcvState = .idle) (h1 : 1 ≤ p.length) (h253 : p.length ≤ 253) :
    ((rtuFrame a p).foldl xMBMasterRTUReceiveFSM s).xMBMasterRTUTimerExpired.Gets a p := by
  have hmode : s.receiver.mode = .idle := congrArg MBMasterRcvState.mode hidle
  obtain ⟨hpos, hbuf⟩ := takes_rtuFrame hmode a h253
  have hrec := receiver_expired ((rtuFrame a p).foldl xMBMasterRTUReceiveFSM s)
  rw [receiver_foldl] at hrec
  rw [← show _ = Receiver.buf _ from congrArg Receiver.buf hrec] at hbuf
  exact gets_of_holds h1 ((congrArg Receiver.pos hrec).trans hpos) hbuf

/-- While it is on, the transmit machine is a transmitter. -/
def Transmits (s : Master) (t : Transmitter UChar) : Prop :=
  s.transmitter = t ∧ (t.on = true → s.eSndState = .xmit)

theorem transmits_step {t : Transmitter UChar} (h : s.Transmits t) (hon : t.on = true) :
    s.xMBMasterRTUTransmitFSM.Transmits t.turn := by
  obtain ⟨rfl, hsnd⟩ := h
  have hxmit := hsnd hon
  by_cases hc : s.usMasterSndBufferCount = 0
  · have hcount : s.transmitter.count = 0 := congrArg BitVec.toNat hc
    rw [xMBMasterRTUTransmitFSM_done hxmit hc, Transmitter.turn_done hcount]
    exact ⟨rfl, Bool.noConfusion⟩
  · have hcount : s.transmitter.count ≠ 0 := fun h0 => hc (BitVec.eq_of_toNat_eq h0)
    rw [xMBMasterRTUTransmitFSM_byte hxmit hc, Transmitter.turn_item hcount]
    refine ⟨?_, fun _ => rfl⟩
    have hpred := toNat_pred hc
    simp only [transmitter, hpred]

/-- `eMBMasterRTUSend` where it activates the transmitter. -/
theorem send_eq (ha : a.toNat ≤ mbMasterTotalSlaveNum) (hidle : s.eRcvState = .idle)
    (n : UShort) : s.eMBMasterRTUSend a n = (.enoerr, { s with
      pucMasterSndBufferCur := 0
      ucMasterRTUSndBuf :=
        sendBuf { s with ucMBMasterDestAddress := a, usMasterSendPDULength := n }
      usMasterSndBufferCount := 1 + n + 2
      eSndState := .xmit
      line := []
      xRxEnable := false
      xTxEnable := true }) := by
  simp only [eMBMasterRTUSend, if_neg (Nat.not_lt.mpr ha), if_pos hidle]
  rfl

/-- `eMBMasterRTUSend` and the transmit interrupts that follow put the frame on the line. -/
theorem sends (ha : a.toNat ≤ mbMasterTotalSlaveNum) (hidle : s.eRcvState = .idle)
    (hpdu : s.ucMasterRTUSndBuf.Holds 1 p) {n : UShort} (hlen : n.toNat = p.length)
    (h253 : p.length ≤ 253) :
    (s.eMBMasterRTUSend a n).1 = .enoerr ∧
      ∃ s', Until xTxEnable xMBMasterRTUTransmitFSM (s.eMBMasterRTUSend a n).2 s' ∧
        s'.line = rtuFrame a p := by
  have hsend := send_eq ha hidle n
  have hstart : (s.eMBMasterRTUSend a n).2.Transmits (s.eMBMasterRTUSend a n).2.transmitter := by
    refine ⟨rfl, fun _ => ?_⟩
    rw [hsend]
  have hon : (s.eMBMasterRTUSend a n).2.transmitter.on = true := by
    rw [hsend]
    rfl
  obtain ⟨t', huntil, hline⟩ := Transmitter.runs hon
  have hsim : ∃ s', Until xTxEnable xMBMasterRTUTransmitFSM (s.eMBMasterRTUSend a n).2 s' ∧
      s'.Transmits t' :=
    huntil.simulate (fun s t h => congrArg Transmitter.on h.1) (fun s t h => transmits_step h)
      hstart
  obtain ⟨s', huntil', ⟨rfl, -⟩⟩ := hsim
  refine ⟨congrArg Prod.fst hsend, s', huntil', ?_⟩
  have hframe : (sendBuf { s with ucMBMasterDestAddress := a, usMasterSendPDULength := n }).Holds 0
      (rtuFrame a p) := holds_sendBuf hpdu hlen (Nat.add_le_add_right h253 3)
  have h1 : (1 : UShort).toNat = 1 := rfl
  have h2 : (2 : UShort).toNat = 2 := rfl
  have hcount : (1 + n + 2).toNat = (rtuFrame a p).length := by
    rw [BitVec.toNat_add, BitVec.toNat_add, hlen, h1, h2, rtuFrame_length]
    omega
  rw [show s'.line = _ from hline, hsend]
  show [] ++ slice _ 0 (1 + n + 2).toNat = _
  rw [hcount]
  exact hframe

end Master

/-! ## Both directions -/

/-- What the slave sends for a PDU in its buffer, a master that waits receives as that PDU from
that address, and what the master sends for a PDU in its send buffer, a slave that waits receives
as that PDU for that address. -/
theorem framing_round_trip (a : UChar) (p : List UChar) :
    (1 ≤ p.length → p.length ≤ 253 →
      ∀ s : Slave, s.eRcvState = .idle → s.ucRTUBuf.Holds 1 p → s.usLength = p.length →
        (s.eMBRTUSend a).1 = .enoerr ∧
        ∃ s' bytes, Until Slave.xTxEnable Slave.xMBRTUTransmitFSM (s.eMBRTUSend a).2 s' ∧
          s'.sent = s.sent ++ bytes ∧ bytes.length = p.length + 3 ∧
          ∀ m : Master, m.eRcvState = .idle →
            (bytes.foldl Master.xMBMasterRTUReceiveFSM m).xMBMasterRTUTimerExpired.Gets a p) ∧
    (a.toNat ≤ mbMasterTotalSlaveNum → 1 ≤ p.length → p.length ≤ 250 →
      ∀ (m : Master) (n : UShort), m.eRcvState = .idle → m.ucMasterRTUSndBuf.Holds 1 p →
        n.toNat = p.length →
        (m.eMBMasterRTUSend a n).1 = .enoerr ∧
        ∃ m', Until Master.xTxEnable Master.xMBMasterRTUTransmitFSM
            (m.eMBMasterRTUSend a n).2 m' ∧
          ∀ s : Slave, s.eRcvState = .idle →
            (m'.line.foldl Slave.xMBRTUReceiveFSM s).xMBRTUTimerT35Expired.Gets a p) := by
  constructor
  · intro h1 h253 s hidle hpdu hlen
    obtain ⟨hstatus, s', huntil, hsent⟩ := Slave.sends hidle hpdu hlen
    exact ⟨hstatus, s', rtuFrame a p, huntil, hsent, rtuFrame_length a p,
      fun m hm => Master.receives hm h1 h253⟩
  · intro ha h1 h250 m n hidle hpdu hlen
    have h253 : p.length ≤ 253 := Nat.le_trans h250 (by decide)
    obtain ⟨hstatus, m', huntil, hline⟩ := Master.sends ha hidle hpdu hlen h253
    refine ⟨hstatus, m', huntil, fun s hs => ?_⟩
    rw [hline]
    exact Slave.receives hs h1 h253

/-- A slave that is to send an exception reply. -/
def Slave.replying : Slave :=
  { Slave.static .initial with
    eRcvState := .idle
    ucRTUBuf := Mem.ofList [0, 0x83, 2] fun _ => 0
    usLength := 2 }

/-- A master that waits for one. -/
def Master.awaiting : Master := { Master.static .initial with eRcvState := .idle }

/-- The reply crosses the line. -/
theorem framing_round_trip_reply :
    ∃ bytes : List UChar, bytes.length = 5 ∧
      (bytes.foldl Master.xMBMasterRTUReceiveFSM
        Master.awaiting).xMBMasterRTUTimerExpired.Gets 1 [0x83, 2] := by
  obtain ⟨-, -, bytes, -, -, hlen, hgets⟩ :=
    (framing_round_trip 1 [0x83, 2]).1 (by decide) (by decide) Slave.replying rfl (by rfl) rfl
  exact ⟨bytes, hlen, hgets _ rfl⟩

end FreeModbus
