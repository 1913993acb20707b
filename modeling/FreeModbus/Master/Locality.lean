import FreeModbus.Master.Functions
import FreeModbus.Slave.Locality

/-!
# What the master takes from a reply

A handler of the master that reads is local when two receive buffers that agree on
the received bytes are handled alike: the same exception, the same mirror.

The handlers check that the reply has a byte count and that it is the one of the
request.  None checks that so many bytes were received.  A reply that passes and
ends before its data is the only case where locality fails: two buffers that differ
in the first missing byte then leave different mirrors.
-/

namespace FreeModbus

open ByteMemory DataModel

/-- The replies from which a handler takes data. -/
inductive ReadReply where
  | coils
  | discretes
  | inputs
  | holdings
  | readWrite
deriving Repr, DecidableEq

/-- The handler of a reply. -/
def ReadReply.handler : ReadReply → MasterHandler
  | .coils => eMBMasterFuncReadCoils
  | .discretes => eMBMasterFuncReadDiscreteInputs
  | .inputs => eMBMasterFuncReadInputRegister
  | .holdings => eMBMasterFuncReadHoldingRegister
  | .readWrite => eMBMasterFuncReadWriteMultipleHoldingRegister

/-- The handler takes the data of the reply: every check passes, and the ranges of the request
are inside the maps. -/
def ReadReply.Takes (ctx : MasterCtx) (frame : Buf) (usLen : Nat) : ReadReply → Prop
  | .coils => ReadStores ctx frame usLen bitBytecnt mCoilNcoils
  | .discretes => ReadStores ctx frame usLen bitBytecnt mDiscreteInputNdiscretes
  | .inputs => ReadStores ctx frame usLen regBytecnt mRegInputNregs
  | .holdings => ReadStores ctx frame usLen regBytecnt mRegHoldingNregs
  | .readWrite => ReadWriteStores ctx frame usLen ∧
      inRange (wordAt ctx.pucPDUSndBuf 1) (wordAt ctx.pucPDUSndBuf 3) 0 mRegHoldingNregs

/-- Exception and mirror depend on the first `usLen` bytes of the frame. -/
def ReplyLocal (pxHandler : MasterHandler) (ctx : MasterCtx) (app : MasterApp) (frame : Buf)
    (usLen : Nat) : Prop :=
  ∀ frame', AgreeBelow usLen frame frame' →
    (pxHandler ctx app frame usLen).eStatus = (pxHandler ctx app frame' usLen).eStatus ∧
      (pxHandler ctx app frame usLen).app = (pxHandler ctx app frame' usLen).app

/-! ## Callbacks -/

section Cut

variable (buf : Buf) {n k : Nat}

/-- A register write depends on every byte of its data. -/
theorem writeRegs_cutAt_ne (i : Nat) (regs : Mem UShort) (hk : k < 2 * n) :
    writeRegs (cutAt buf k 0) n i regs 0 ≠ writeRegs (cutAt buf k 1) n i regs 0 := by
  intro heq
  have hreg : ∀ v, writeRegs (cutAt buf k v) n i regs 0 (i + k / 2) =
      wordAt (cutAt buf k v) (2 * (k / 2)) := by
    intro v
    have hin : i ≤ i + k / 2 ∧ i + k / 2 < i + n := by omega
    rw [writeRegs_apply, if_pos hin, Nat.zero_add, Nat.add_sub_cancel_left]
  have h1 := congrFun heq (i + k / 2)
  rw [hreg, hreg] at h1
  exact wordAt_cutAt_ne buf h1

/-- A bit write depends on every byte of its data. -/
theorem writeBitsCB_cutAt_ne (i o : Nat) (bits : Buf) (hk : k < byteCount n) :
    writeBitsCB (cutAt buf k 0) i o n bits ≠ writeBitsCB (cutAt buf k 1) i o n bits := by
  intro heq
  have hbit : ∀ v : UChar, v = 0 ∨ v = 1 →
      bitAt (writeBitsCB (cutAt buf k v) i o n bits) (8 * i + o + 8 * k) = v.getLsbD 0 := by
    intro v hv
    have hin : 8 * i + o ≤ 8 * i + o + 8 * k ∧ 8 * i + o + 8 * k < 8 * i + o + n := by
      unfold byteCount at hk
      omega
    have hbyte := bitAt_mul_add (cutAt buf k v) k (show 0 < 8 by decide)
    rw [bitAt_writeBitsCB (cutAt_pad buf hv hk), if_pos hin, Nat.add_sub_cancel_left]
    rw [Nat.add_zero] at hbyte
    rw [hbyte]
    simp [cutAt]
  have h0 := hbit 0 (Or.inl rfl)
  rw [heq, hbit 1 (Or.inr rfl)] at h0
  exact absurd h0 (by decide)

end Cut

/-- Inside the map a callback takes the bytes of its data, all of them and no more. -/
structure TakesBytes (cb : MasterCallback) (size : Nat) (bytes : Nat → Nat) : Prop where
  agree : ∀ k app buf buf' a n, inRange a n 0 size → AgreeBelow (bytes n.toNat) buf buf' →
    cb k app buf (a + 1) n = cb k app buf' (a + 1) n
  differ : ∀ k app buf a n i, inRange a n 0 size → i < bytes n.toNat →
    (cb k app (cutAt buf i 0) (a + 1) n).2 ≠ (cb k app (cutAt buf i 1) (a + 1) n).2

theorem eMBMasterRegHoldingCB_takes :
    TakesBytes eMBMasterRegHoldingCB mRegHoldingNregs (2 * ·) := by
  constructor
  · intro k app buf buf' a n h hagree
    rw [eMBMasterRegHoldingCB_eq k app buf h, eMBMasterRegHoldingCB_eq k app buf' h,
      writeRegs_congr]
    intro j hj
    rw [Nat.zero_add]
    exact hagree j hj
  · intro k app buf a n i h hi heq
    rw [eMBMasterRegHoldingCB_eq k app _ h, eMBMasterRegHoldingCB_eq k app _ h] at heq
    have hrow := congrArg (fun app' => app'.usMRegHoldBuf.row (rowOffset k mRegHoldingNregs)) heq
    simp only [Plane.row_setRow] at hrow
    exact writeRegs_cutAt_ne buf _ _ hi hrow

theorem eMBMasterRegInputCB_takes : TakesBytes eMBMasterRegInputCB mRegInputNregs (2 * ·) := by
  constructor
  · intro k app buf buf' a n h hagree
    rw [eMBMasterRegInputCB_eq k app buf h, eMBMasterRegInputCB_eq k app buf' h, writeRegs_congr]
    intro j hj
    rw [Nat.zero_add]
    exact hagree j hj
  · intro k app buf a n i h hi heq
    rw [eMBMasterRegInputCB_eq k app _ h, eMBMasterRegInputCB_eq k app _ h] at heq
    have hrow := congrArg (fun app' => app'.usMRegInBuf.row (rowOffset k mRegInputNregs)) heq
    simp only [Plane.row_setRow] at hrow
    exact writeRegs_cutAt_ne buf _ _ hi hrow

theorem eMBMasterRegCoilsCB_takes : TakesBytes eMBMasterRegCoilsCB mCoilNcoils byteCount := by
  constructor
  · intro k app buf buf' a n h hagree
    rw [eMBMasterRegCoilsCB_eq k app buf h, eMBMasterRegCoilsCB_eq k app buf' h,
      writeBitsCB_congr hagree]
  · intro k app buf a n i h hi heq
    rw [eMBMasterRegCoilsCB_eq k app _ h, eMBMasterRegCoilsCB_eq k app _ h] at heq
    have hrow := congrArg (fun app' => app'.ucMCoilBuf.row (rowOffset k (mCoilNcoils / 8))) heq
    simp only [Plane.row_setRow] at hrow
    exact writeBitsCB_cutAt_ne buf _ _ _ hi hrow

theorem eMBMasterRegDiscreteCB_takes :
    TakesBytes eMBMasterRegDiscreteCB mDiscreteInputNdiscretes byteCount := by
  constructor
  · intro k app buf buf' a n h hagree
    rw [eMBMasterRegDiscreteCB_eq k app buf h, eMBMasterRegDiscreteCB_eq k app buf' h,
      writeBitsCB_congr hagree]
  · intro k app buf a n i h hi heq
    rw [eMBMasterRegDiscreteCB_eq k app _ h, eMBMasterRegDiscreteCB_eq k app _ h] at heq
    have hrow := congrArg
      (fun app' => app'.ucMDiscInBuf.row (rowOffset k (mDiscreteInputNdiscretes / 8))) heq
    simp only [Plane.row_setRow] at hrow
    exact writeBitsCB_cutAt_ne buf _ _ _ hi hrow

/-! ## Reads -/

section Reads

variable {ctx : MasterCtx} {app : MasterApp} {frame frame' : Buf} {usLen size : Nat}
  {cb : MasterCallback} {bytes : Nat → Nat} {bytecntOk : UShort → UChar → Bool}

/-- A callback on buffers that agree on its data. -/
theorem TakesBytes.congr (htakes : TakesBytes cb size bytes) (hcb : ChecksRange cb size)
    {k : UChar} {buf buf' : Buf} {a n : UShort}
    (h : inRange a n 0 size → AgreeBelow (bytes n.toNat) buf buf') :
    cb k app buf (a + 1) n = cb k app buf' (a + 1) n := by
  by_cases hin : inRange a n 0 size
  · exact htakes.agree k app buf buf' a n hin (h hin)
  · have h1 := hcb k app buf a n
    have h2 := hcb k app buf' a n
    rw [if_neg hin] at h1 h2
    rw [h1, h2]

/-- What a handler stores does not depend on the frame that it leaves. -/
theorem stored_congr {reg reg' : MBErrorCode × MasterApp} (h : reg = reg') :
    (stored frame usLen reg).eStatus = (stored frame' usLen reg').eStatus ∧
      (stored frame usLen reg).app = (stored frame' usLen reg').app := by
  subst h
  unfold stored
  split
  · exact ⟨rfl, rfl⟩
  · exact ⟨rfl, rfl⟩

/-- A read whose byte count is the length of its data is local unless data is missing. -/
theorem masterFuncRead_local (hcb : ChecksRange cb size) (htakes : TakesBytes cb size bytes)
    (hbytes : ∀ {a n : UShort} {b}, inRange a n 0 size → bytecntOk n b → b.toNat = bytes n.toNat) :
    ReplyLocal (masterFuncRead bytecntOk cb) ctx app frame usLen ↔
      ¬ (ReadStores ctx frame usLen bytecntOk size ∧ usLen < 2 + (frame 1).toNat) := by
  constructor
  · rintro hlocal ⟨⟨hb, hlen, hok, hin⟩, hshort⟩
    have happ : ∀ v, (masterFuncRead bytecntOk cb ctx app frame usLen).app =
        (cb ctx.ucMBMasterDestAddress app (cutAt (frame.at 2) (usLen - 2) v)
          (wordAt ctx.pucPDUSndBuf 1 + 1) (wordAt ctx.pucPDUSndBuf 3)).2 := by
      intro v
      have hcut := cutAt_agree frame usLen v
      have hok' := hok
      rw [hcut 1 (by omega)] at hok'
      rw [(hlocal _ hcut).2, masterFuncRead_ok hb hlen rfl rfl hok' (hcb.eq_ok hin _ _ _),
        cutAt_at hlen]
    have hk : usLen - 2 < bytes (wordAt ctx.pucPDUSndBuf 3).toNat := by
      rw [← hbytes hin hok.2]
      omega
    exact htakes.differ _ _ _ _ _ _ hin hk ((happ 0).symm.trans (happ 1))
  · intro hall frame' h
    unfold masterFuncRead
    split
    · exact ⟨rfl, rfl⟩
    · rename_i hb
      split
      · rename_i hlen
        have h1 : frame' 1 = frame 1 := (h 1 hlen).symm
        simp only [mbPduDataOff, h1]
        split
        · rename_i hok
          refine stored_congr (htakes.congr hcb fun hin => ?_)
          have henough : 2 + (frame 1).toNat ≤ usLen :=
            Nat.le_of_not_lt fun hlt => hall ⟨⟨Bool.eq_false_iff.mpr hb, hlen, hok, hin⟩, hlt⟩
          rw [hbytes hin hok.2] at henough
          exact agree_at h henough
        · exact ⟨rfl, rfl⟩
      · exact ⟨rfl, rfl⟩

/-- The byte count of a bit read is the number of bytes of its data. -/
theorem bitBytecnt_toNat {a n : UShort} {b : UChar} (hsize : size < 2040)
    (hin : inRange a n 0 size) (h : bitBytecnt n b) : b.toNat = byteCount n.toNat := by
  have hb : ucNBytes n = b := of_decide_eq_true h
  have hn : n.toNat < 2040 := by
    obtain ⟨-, hle⟩ := hin
    omega
  rw [← hb, toNat_ucNBytes hn]

/-- The byte count of a register read is the number of bytes of its data. -/
theorem regBytecnt_toNat {n : UShort} {b : UChar} (h : regBytecnt n b) : b.toNat = 2 * n.toNat :=
  (of_decide_eq_true h : 2 * n.toNat = b.toNat).symm

/-- Function 23 is local unless data of the read is missing. -/
theorem eMBMasterFuncReadWrite_local :
    ReplyLocal eMBMasterFuncReadWriteMultipleHoldingRegister ctx app frame usLen ↔
      ¬ ((ReadWriteStores ctx frame usLen ∧
        inRange (wordAt ctx.pucPDUSndBuf 1) (wordAt ctx.pucPDUSndBuf 3) 0 mRegHoldingNregs) ∧
          usLen < 2 + (frame 1).toNat) := by
  have hcb := eMBMasterRegHoldingCB_checks
  have htakes := eMBMasterRegHoldingCB_takes
  constructor
  · rintro hlocal ⟨⟨⟨hb, hlen, hok, hwin⟩, hrin⟩, hshort⟩
    have happ : ∀ v,
        (eMBMasterFuncReadWriteMultipleHoldingRegister ctx app frame usLen).app =
        (eMBMasterRegHoldingCB ctx.ucMBMasterDestAddress
          (eMBMasterRegHoldingCB ctx.ucMBMasterDestAddress app (ctx.pucPDUSndBuf.at 10)
            (wordAt ctx.pucPDUSndBuf 5 + 1) (wordAt ctx.pucPDUSndBuf 7)).2
          (cutAt (frame.at 2) (usLen - 2) v)
          (wordAt ctx.pucPDUSndBuf 1 + 1) (wordAt ctx.pucPDUSndBuf 3)).2 := by
      intro v
      have hcut := cutAt_agree frame usLen v
      have hok' := hok
      rw [hcut 1 (by omega)] at hok'
      rw [(hlocal _ hcut).2, eMBMasterFuncReadWriteMultipleHoldingRegister_ok hb hlen rfl rfl rfl
        rfl hok' (hcb.eq_ok hwin _ _ _) (hcb.eq_ok hrin _ _ _), cutAt_at hlen]
    have hk : usLen - 2 < 2 * (wordAt ctx.pucPDUSndBuf 3).toNat := by omega
    exact htakes.differ _ _ _ _ _ _ hrin hk ((happ 0).symm.trans (happ 1))
  · intro hall frame' h
    unfold eMBMasterFuncReadWriteMultipleHoldingRegister
    split
    · exact ⟨rfl, rfl⟩
    · rename_i hb
      split
      · rename_i hlen
        have h1 : frame' 1 = frame 1 := (h 1 hlen).symm
        simp only [mbPduDataOff, h1]
        split
        · rename_i hok
          split
          · rename_i hw
            refine stored_congr (htakes.congr hcb fun hrin => ?_)
            have hwin := (hcb.status _ _ _ _ _).mp hw
            have henough : 2 + (frame 1).toNat ≤ usLen := Nat.le_of_not_lt fun hlt =>
              hall ⟨⟨⟨Bool.eq_false_iff.mpr hb, hlen, hok, hwin⟩, hrin⟩, hlt⟩
            rw [← hok] at henough
            exact agree_at h henough
          · exact stored_congr rfl
        · exact ⟨rfl, rfl⟩
      · exact ⟨rfl, rfl⟩

end Reads

/-- A handler takes received bytes only, exactly if no data is missing in a reply from which it
takes data. -/
theorem reply_local_iff (r : ReadReply) (ctx : MasterCtx) (app : MasterApp) (frame : Buf)
    (usLen : Nat) :
    ReplyLocal r.handler ctx app frame usLen ↔
      ¬ (r.Takes ctx frame usLen ∧ usLen < 2 + (frame 1).toNat) := by
  cases r with
  | coils =>
    exact masterFuncRead_local eMBMasterRegCoilsCB_checks eMBMasterRegCoilsCB_takes
      (bitBytecnt_toNat (by decide))
  | discretes =>
    exact masterFuncRead_local eMBMasterRegDiscreteCB_checks eMBMasterRegDiscreteCB_takes
      (bitBytecnt_toNat (by decide))
  | inputs =>
    exact masterFuncRead_local eMBMasterRegInputCB_checks eMBMasterRegInputCB_takes
      fun _ => regBytecnt_toNat
  | holdings =>
    exact masterFuncRead_local eMBMasterRegHoldingCB_checks eMBMasterRegHoldingCB_takes
      fun _ => regBytecnt_toNat
  | readWrite => exact eMBMasterFuncReadWrite_local

/-- A read of one holding register of slave 1 waits for its reply. -/
def readOne : MasterCtx where
  ucMBMasterDestAddress := 1
  xFrameIsBroadcast := false
  pucPDUSndBuf := Mem.ofList [0x03, 0x00, 0x00, 0x00, 0x01] fun _ => 0

/-- A reply that ends with its byte count is stored with whatever lies behind it. -/
theorem reply_not_local : ¬ ReplyLocal ReadReply.holdings.handler readOne .initial
    (Mem.ofList [0x03, 0x02] fun _ => 0) 2 := by
  intro h
  have hagree : AgreeBelow 2 (Mem.ofList [0x03, 0x02] fun _ => 0 : Buf)
      (Mem.ofList [0x03, 0x02, 0x00, 0x07] fun _ => 0) := by
    intro i hi
    interval_cases i
    · rfl
    · rfl
  have hreg := congrArg (fun app => (app.row 1).holdings.get 0) (h _ hagree).2
  exact absurd hreg (by decide)

end FreeModbus
