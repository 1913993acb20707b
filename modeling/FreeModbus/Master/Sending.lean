import FreeModbus.Master.Phases

/-!
# What the transmitter puts on the line

A request that a call has written into the send buffer is `Loaded`.  Handling
`EV_MASTER_FRAME_SENT` puts address and CRC around it, and from then on
(`Sending`) the bytes on the line and the bytes still to be sent make up the frame
of the request, until the transmitter is done.
-/

namespace FreeModbus

open ByteMemory

/-- The PDU of a request and what goes around it fit in `ucMasterRTUSndBuf`. -/
def MasterRequest.Fits (q : MasterRequest) : Prop :=
  1 + q.call.req.pdu.length + mbSerPduSizeCrc ≤ mbPduSizeMax

instance (q : MasterRequest) : Decidable q.Fits := by
  unfold MasterRequest.Fits
  infer_instance

/-- The length of a request that fits. -/
theorem MasterRequest.Fits.usLength {q : MasterRequest} (h : q.Fits) :
    q.call.req.usLength.toNat = q.call.req.pdu.length := by
  have hlt : 1 + q.call.req.pdu.length + 2 ≤ 253 := h
  exact MasterCall.usLength_eq (by omega)

theorem MasterRequest.frame_length (q : MasterRequest) :
    q.frame.length = 1 + q.call.req.pdu.length + 2 := by
  simp only [frame, crcBytes, List.length_append, List.length_cons, List.length_nil]
  omega

namespace Master

/-- The request is in the send buffer. -/
structure Loaded (q : MasterRequest) (s : Master) : Prop where
  fits : q.Fits
  addr : s.ucMBMasterDestAddress = q.ucSndAddr
  pdu : s.ucMasterRTUSndBuf.Holds 1 q.call.req.pdu
  len : s.usMasterSendPDULength = q.call.req.usLength

/-- The frame of the request is being sent: this much is on the line, the rest is to come. -/
structure Sending (q : MasterRequest) (s : Master) : Prop where
  dest : s.ucMBMasterDestAddress = q.ucSndAddr
  addr : s.ucMasterRTUSndBuf mbSerPduAddrOff = q.ucSndAddr
  frame : s.line ++ slice s.ucMasterRTUSndBuf s.pucMasterSndBufferCur
    s.usMasterSndBufferCount.toNat = q.frame

variable {q : MasterRequest} {s s' : Master}

theorem loaded_fillSndBuf (s : Master) (h : q.Fits) : Loaded q (s.fillSndBuf q) :=
  ⟨h, rfl, Mem.holds_write .., rfl⟩

/-- The send buffer when the transmitter is activated for a PDU in it. -/
theorem holds_sendBuf {p : List UChar} (hpdu : s.ucMasterRTUSndBuf.Holds 1 p)
    (hlen : s.usMasterSendPDULength.toNat = p.length) (hfit : p.length + 3 ≤ 256) :
    s.sendBuf.Holds 0 ((s.ucMBMasterDestAddress :: p) ++
      crcBytes (usMBCRC16List (s.ucMBMasterDestAddress :: p))) := by
  have h1 : (1 : UShort).toNat = 1 := rfl
  have hcount : (1 + s.usMasterSendPDULength).toNat = 1 + p.length := by
    rw [BitVec.toNat_add, hlen, h1]
    omega
  have hnext : (1 + s.usMasterSendPDULength + 1).toNat = 1 + p.length + 1 := by
    rw [BitVec.toNat_add, hcount, h1]
    omega
  have hbuf : s.sendBuf = Mem.write (Function.update s.ucMasterRTUSndBuf 0 s.ucMBMasterDestAddress)
      (1 + p.length) (crcBytes (usMBCRC16
        (Function.update s.ucMasterRTUSndBuf 0 s.ucMBMasterDestAddress) (1 + p.length))) := by
    simp only [sendBuf, hcount, hnext]
    rfl
  rw [hbuf]
  exact FreeModbus.holds_frame hpdu s.ucMBMasterDestAddress

/-- The fields of the request stay. -/
theorem Loaded.same (h : Loaded q s) (hd : s'.ucMBMasterDestAddress = s.ucMBMasterDestAddress)
    (hb : s'.ucMasterRTUSndBuf = s.ucMasterRTUSndBuf)
    (hl : s'.usMasterSendPDULength = s.usMasterSendPDULength) : Loaded q s' :=
  ⟨h.fits, hd.trans h.addr, hb ▸ h.pdu, hl.trans h.len⟩

/-- The counter when the transmitter is activated. -/
theorem Loaded.count (h : Loaded q s) :
    (1 + s.usMasterSendPDULength).toNat = 1 + q.call.req.pdu.length := by
  have hfit : 1 + q.call.req.pdu.length + 2 ≤ 253 := h.fits
  have h1 : (1 : UShort).toNat = 1 := rfl
  rw [h.len, BitVec.toNat_add, h.fits.usLength, h1]
  omega

/-- The send buffer then holds the frame of the request. -/
theorem Loaded.holds_frame (h : Loaded q s) : s.sendBuf.Holds 0 q.frame := by
  have hfit : 1 + q.call.req.pdu.length + 2 ≤ 253 := h.fits
  have hlen : s.usMasterSendPDULength.toNat = q.call.req.pdu.length := by
    rw [h.len, h.fits.usLength]
  have hframe := holds_sendBuf h.pdu hlen (by omega)
  rw [h.addr] at hframe
  exact hframe

/-- Handling `EV_MASTER_FRAME_SENT` begins to send the request that is loaded. -/
theorem Loaded.sending (h : Loaded q s) (ha : q.ucSndAddr.toNat ≤ mbMasterTotalSlaveNum)
    (hr : s.eRcvState = .idle) : Sending q s.pollFrameSent := by
  have hfit : 1 + q.call.req.pdu.length + 2 ≤ 253 := h.fits
  have h2 : (2 : UShort).toNat = 2 := rfl
  have hcount : (1 + s.usMasterSendPDULength + 2).toNat = q.frame.length := by
    rw [BitVec.toNat_add, h.count, h2, q.frame_length]
    omega
  have hhold := h.holds_frame
  rw [pollFrameSent_ok (h.addr ▸ ha) hr]
  refine ⟨h.addr, ?_, ?_⟩
  · have hhead : s.sendBuf.Holds 0 (q.ucSndAddr :: (q.call.req.pdu ++
        crcBytes (usMBCRC16List (q.ucSndAddr :: q.call.req.pdu)))) := hhold
    rw [Mem.holds_cons] at hhead
    exact hhead.1
  · show [] ++ slice s.sendBuf 0 (1 + s.usMasterSendPDULength + 2).toNat = q.frame
    rw [hcount, List.nil_append]
    exact hhold

/-- The counter where there are bytes left. -/
theorem toNat_pred {usCount : UShort} (hc : usCount ≠ 0) :
    (usCount - 1).toNat = usCount.toNat - 1 := by
  have hpos : usCount.toNat ≠ 0 := fun hz => hc (BitVec.eq_of_toNat_eq hz)
  have h1 : (1 : UShort).toNat = 1 := rfl
  have hlt := usCount.isLt
  rw [BitVec.toNat_sub, h1]
  omega

/-- A turn of the transmitter with bytes left moves one byte to the line. -/
theorem Sending.byte (h : Sending q s) (hs : s.eSndState = .xmit)
    (hc : s.usMasterSndBufferCount ≠ 0) : Sending q s.xMBMasterRTUTransmitFSM := by
  have hpos : s.usMasterSndBufferCount.toNat ≠ 0 := fun hz => hc (BitVec.eq_of_toNat_eq hz)
  have hsucc : s.usMasterSndBufferCount.toNat = s.usMasterSndBufferCount.toNat - 1 + 1 := by
    omega
  rw [xMBMasterRTUTransmitFSM_byte hs hc]
  refine ⟨h.dest, h.addr, ?_⟩
  have hframe := h.frame
  rw [hsucc, slice_succ] at hframe
  show s.line ++ [_] ++ slice s.ucMasterRTUSndBuf (s.pucMasterSndBufferCur + 1)
    (s.usMasterSndBufferCount - 1).toNat = q.frame
  rw [toNat_pred hc, List.append_assoc]
  exact hframe

/-- The transmitter is done when the whole frame is on the line. -/
theorem Sending.done (h : Sending q s) (hc : s.usMasterSndBufferCount = 0) :
    s.line = q.frame := by
  have hframe := h.frame
  rw [hc] at hframe
  exact (List.append_nil _).symm.trans hframe

/-- What was sent was a broadcast if the request was one. -/
theorem Sending.broadcast (h : Sending q s) : s.sentBroadcast = decide (q.ucSndAddr = 0) := by
  rw [sentBroadcast, h.addr]
  rfl

end Master

end FreeModbus
