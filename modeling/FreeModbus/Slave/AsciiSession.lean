import FreeModbus.Lib.LeadsTo
import FreeModbus.Slave.AsciiSlave

/-!
# The ASCII slave on its line

A client puts the frames of requests on the line, one after the other: for this slave, for
all slaves, or for another one.  The parties move in any order.  `Timely` says what they may
count on: the client waits until the slave is done with the frame before, and the character
timer does not expire within a frame.

`ascii_session` says what comes of it: the store of the data model, and on the line the
frames of its responses.
-/

namespace FreeModbus

open ByteMemory DataModel EventFlags Transition

/-! ## The line -/

/-- The frame of a request to an address. -/
def askFrame (ask : UChar × Request) : List UChar :=
  Ascii.asciiFrame (encoded (Ascii.serialPdu ask.1 ask.2.pdu))

/-- The store after a request on the line. -/
def taken (own : UChar) (σ : Store slaveShape) (ask : UChar × Request) : Store slaveShape :=
  if ask.1 = own ∨ ask.1 = mbAddressBroadcast then σ.after ask.2 else σ

/-- The frame that answers a request on the line, if any does. -/
def answered (own : UChar) (σ : Store slaveShape) (ask : UChar × Request) : List UChar :=
  if ask.1 = own then Ascii.asciiFrame (encoded (Ascii.serialPdu own (response σ ask.2))) else []

/-- A slave, and a client that puts the frames of requests on the line. -/
structure AsciiLine where
  slave : AsciiSlave
  /-- What is left of the frame on the line. -/
  rest : List UChar
  /-- The number of frames so far. -/
  asked : Nat

/-- What can happen on the line. -/
inductive AsciiLineAction where
  | ask
  | character
  | timer
  | txReady
  | poll (junk : Option MBEventType)

/-- A character on the line, as the slave takes it. -/
def AsciiSlave.hears (s : AsciiSlave) (ucByte : UChar) : AsciiSlave :=
  if s.link.xRxEnable then s.withLink (s.link.xMBASCIIReceiveFSM ucByte) else s

namespace AsciiLine

/-- One step, where frame `n` is that of `asks n`. -/
def step (asks : Nat → UChar × Request) (b : AsciiLine) : AsciiLineAction → Option AsciiLine
  | .ask => some { b with rest := askFrame (asks b.asked), asked := b.asked + 1 }
  | .character =>
      match b.rest with
      | [] => none
      | ucByte :: rest => some { b with slave := b.slave.hears ucByte, rest := rest }
  | .timer => (b.slave.step .timer).map fun x => { b with slave := x }
  | .txReady => (b.slave.step .txReady).map fun x => { b with slave := x }
  | .poll junk => (b.slave.step (.poll junk)).map fun x => { b with slave := x }

/-- What the parties may count on. -/
def Timely (b : AsciiLine) : AsciiLineAction → Prop
  | .ask => b.rest = [] ∧ b.slave.AtRest
  | .timer => b.rest = []
  | _ => True

end AsciiLine

namespace AsciiSlave

variable {own : UChar} {σ : Store slaveShape} {out : List UChar} {ask : UChar × Request}
  {s x x' : AsciiSlave} {n : Nat} {rest : List UChar}

/-! ## From the first character of a frame to rest -/

/-- A slave that is on, with what stays the same. -/
structure Base (own : UChar) (x : AsciiSlave) : Prop where
  enabled : x.eMBState = .enabled
  address : x.ucMBAddress = own
  table : x.xFuncHandlers = FreeModbus.xFuncHandlers
  lf : x.link.ucMBLFCharacter = mbAsciiDefaultLf

/-- A slave with an idle receiver, that has this store and has sent these characters. -/
structure Waits (own : UChar) (σ : Store slaveShape) (out : List UChar) (x : AsciiSlave) :
    Prop where
  base : Base own x
  rcv : x.link.eRcvState = .idle
  rx : x.link.xRxEnable = true
  tx : x.link.xTxEnable = false
  timer : x.link.xTimer = false
  store : x.app.store = σ
  sent : x.sent = out

/-- No event is pending, too. -/
structure Quiet (own : UChar) (σ : Store slaveShape) (out : List UChar) (x : AsciiSlave) :
    Prop where
  waits : Waits own σ out x
  event : ¬ slaveChannel.Returns x.xSlaveOsEvent

/-- A slave whose transmitter is on, with these characters to come. -/
structure Talks (own : UChar) (σ : Store slaveShape) (out chars : List UChar) (x : AsciiSlave) :
    Prop where
  base : Base own x
  rcv : x.link.eRcvState = .idle
  tx : x.link.xTxEnable = true
  timer : x.link.xTimer = false
  store : x.app.store = σ
  sent : x.sent ++ chars = out
  sends : x.link.Sends chars
  event : ¬ slaveChannel.Returns x.xSlaveOsEvent

/-- The slave serves a frame, in at most so many steps. -/
inductive Serving (own : UChar) (σ : Store slaveShape) (out : List UChar)
    (ask : UChar × Request) : Nat → AsciiSlave → List UChar → Prop where
  | hearing {s : AsciiSlave} {chars rest : List UChar} : Quiet own σ out s →
      chars ++ rest = askFrame ask → rest ≠ [] →
      Serving own σ out ask (rest.length + (answered own σ ask).length + 5)
        { s with link := chars.foldl Ascii.xMBASCIIReceiveFSM s.link } rest
  | received {x : AsciiSlave} : Waits own σ out x →
      slaveChannel.Only x.xSlaveOsEvent .frameReceived →
      x.link.Reads (encoded (Ascii.serialPdu ask.1 ask.2.pdu)) →
      Serving own σ out ask ((answered own σ ask).length + 4) x []
  | execute {x : AsciiSlave} : Waits own σ out x → slaveChannel.Only x.xSlaveOsEvent .execute →
      ask.1 = own ∨ ask.1 = mbAddressBroadcast → x.Holding asciiTransport ask.2 →
      x.ucRcvAddress = ask.1 → x.ucMBFrame = true →
      Serving own σ out ask ((answered own σ ask).length + 3) x []
  | sending {x : AsciiSlave} {chars : List UChar} :
      Talks own (taken own σ ask) (out ++ answered own σ ask) chars x →
      Serving own σ out ask (chars.length + 2) x []
  | sent {x : AsciiSlave} : Waits own (taken own σ ask) (out ++ answered own σ ask) x →
      slaveChannel.Only x.xSlaveOsEvent .frameSent → Serving own σ out ask 1 x []

/-- The slave is done with the frame. -/
def Served (own : UChar) (σ : Store slaveShape) (out : List UChar) (ask : UChar × Request)
    (x : AsciiSlave) : Prop :=
  Quiet own (taken own σ ask) (out ++ answered own σ ask) x

/-! ## Hearing -/

theorem askFrame_data (hwf : WellFormed ask.2) :
    Ascii.DataBlock (encoded (Ascii.serialPdu ask.1 ask.2.pdu)) := by
  refine .encoded ?_
  have hlen := hwf.pdu_length
  rw [mbPduSizeMax] at hlen
  rw [Ascii.serialPdu_length, mbSerPduSizeMax]
  omega

theorem Quiet.lf (hq : Quiet own σ out s) : s.link.ucMBLFCharacter = mbAsciiDefaultLf :=
  hq.waits.base.lf

/-- What hearing leaves alone. -/
theorem heard_same (l : Ascii) (chars : List UChar) :
    (chars.foldl Ascii.xMBASCIIReceiveFSM l).xRxEnable = l.xRxEnable ∧
      (chars.foldl Ascii.xMBASCIIReceiveFSM l).xTxEnable = l.xTxEnable := by
  obtain ⟨_, _, _, _, _, _, heq, -⟩ := Ascii.foldl_receiveFSM_frame l chars
  rw [heq]
  exact ⟨rfl, rfl⟩

/-- A character, as it is taken within a frame. -/
theorem hears_eq (hrx : s.link.xRxEnable = true) (chars : List UChar) (c : UChar) :
    hears { s with link := chars.foldl Ascii.xMBASCIIReceiveFSM s.link } c =
      withLink { s with link := chars.foldl Ascii.xMBASCIIReceiveFSM s.link }
        ((chars ++ [c]).foldl Ascii.xMBASCIIReceiveFSM s.link) := by
  rw [List.foldl_append]
  exact if_pos ((heard_same s.link chars).1.trans hrx)

/-- A character before the last one. -/
theorem hears_more (hq : Quiet own σ out s) (hwf : WellFormed ask.2) {chars : List UChar}
    {c : UChar} (hframe : chars ++ c :: rest = askFrame ask) (hrest : rest ≠ []) :
    hears { s with link := chars.foldl Ascii.xMBASCIIReceiveFSM s.link } c =
      { s with link := (chars ++ [c]).foldl Ascii.xMBASCIIReceiveFSM s.link } := by
  have hbefore := Ascii.foldl_output_of_prefix hq.lf (askFrame_data hwf) hframe (by simp)
  have hframe' : (chars ++ [c]) ++ rest = askFrame ask := by
    rw [List.append_assoc]
    exact hframe
  have hbehind := Ascii.foldl_output_of_prefix hq.lf (askFrame_data hwf) hframe' hrest
  rw [hears_eq hq.waits.rx, withLink]
  simp only [hbefore, hbehind, List.drop_length]
  rfl

/-- The last character announces the frame. -/
theorem hears_last (hq : Quiet own σ out s) (hwf : WellFormed ask.2) {chars : List UChar}
    {c : UChar} (hframe : chars ++ [c] = askFrame ask) :
    Serving own σ out ask ((answered own σ ask).length + 4)
      (hears { s with link := chars.foldl Ascii.xMBASCIIReceiveFSM s.link } c) [] := by
  have hdata := askFrame_data hwf
  have hbefore := Ascii.foldl_output_of_prefix hq.lf hdata hframe (by simp)
  have hall := Ascii.foldl_asciiFrame hq.lf hdata
  obtain ⟨hreads, -, -⟩ := Ascii.receives_frame (s := s.link) hq.lf hdata
  obtain ⟨_, _, _, _, _, _, hblock, -⟩ := Ascii.foldl_receiveFSM_frame s.link
    (asciiColon :: encoded (Ascii.serialPdu ask.1 ask.2.pdu))
  rw [hears_eq hq.waits.rx, hframe, askFrame]
  rw [hblock] at hall
  rw [hall] at hreads ⊢
  have hdrop : (s.link.output ++ [AsciiOutput.post .frameReceived]).drop s.link.output.length =
      [.post .frameReceived] := List.drop_left
  refine .received ⟨⟨hq.waits.base.enabled, hq.waits.base.address, hq.waits.base.table, hq.lf⟩,
    rfl, hq.waits.rx, hq.waits.tx, rfl, hq.waits.store, ?_⟩ ?_ hreads
  · show characters (s.link.output ++ [.post .frameReceived]) = out
    rw [characters_post]
    exact hq.waits.sent
  · simp only [withLink, hbefore, hdrop]
    exact slaveChannel.only_post hq.event _

/-! ## Polls -/

/-- The slave reads the frame, and executes it if it is for it. -/
theorem poll_received (hx : Waits own σ out x)
    (honly : slaveChannel.Only x.xSlaveOsEvent .frameReceived)
    (hreads : x.link.Reads (encoded (Ascii.serialPdu ask.1 ask.2.pdu)))
    {junk : Option MBEventType} (hst : x.step (.poll junk) = some x') :
    Serving own σ out ask ((answered own σ ask).length + 3) x' [] ∨ Served own σ out ask x' := by
  have hpdu : 1 ≤ ask.2.pdu.length := by
    obtain ⟨l, hl⟩ := ask.2.pdu_cons
    rw [hl]
    exact Nat.le_add_left ..
  obtain ⟨f, hf, haddr, hlen, hholds⟩ := hreads.gets hpdu
  have hframe : f.pucFrame = x.link.ucASCIIBuf.at mbSerPduPduOff := by
    unfold Ascii.eMBASCIIReceive at hf
    split at hf
    · cases hf
      rfl
    · cases hf
  have hleft := slaveChannel.not_returns_get x.xSlaveOsEvent
  have hpoll : x.step (.poll junk) = some (Stack.pollFrameReceived asciiTransport
      { x with xSlaveOsEvent := (slaveChannel.get x.xSlaveOsEvent).2 }) :=
    Stack.eMBPoll_of_only hx.base.enabled honly junk
  rw [hpoll] at hst
  have hrec : asciiTransport.peMBFrameReceiveCur x.link =
      (.ok (ask.1, ask.2.pdu.length), x.link) := by
    simp only [asciiTransport, hf, Except.map, haddr, hlen]
  simp only [Stack.pollFrameReceived, hrec] at hst
  by_cases hus : ask.1 = own ∨ ask.1 = mbAddressBroadcast
  · left
    have hus' : ask.1 = x.ucMBAddress ∨ ask.1 = mbAddressBroadcast := hx.base.address ▸ hus
    rw [if_pos hus'] at hst
    cases hst
    refine .execute ⟨⟨hx.base.enabled, hx.base.address, hx.base.table, hx.base.lf⟩, hx.rcv, hx.rx,
      hx.tx, hx.timer, hx.store, hx.sent⟩ (slaveChannel.only_post hleft _) hus
      ⟨hx.base.table, ?_, rfl⟩ rfl rfl
    rw [hframe] at hholds
    exact hholds
  · right
    have hus' : ¬ (ask.1 = x.ucMBAddress ∨ ask.1 = mbAddressBroadcast) := hx.base.address ▸ hus
    rw [if_neg hus'] at hst
    cases hst
    have hstore : taken own σ ask = σ := if_neg hus
    have hans : answered own σ ask = [] := if_neg fun h => hus (Or.inl h)
    rw [Served, hstore, hans, List.append_nil]
    exact ⟨⟨⟨hx.base.enabled, hx.base.address, hx.base.table, hx.base.lf⟩, hx.rcv, hx.rx,
      hx.tx, hx.timer, hx.store, hx.sent⟩, hleft⟩

/-- The slave executes a request and starts to send the response, if it is for it alone. -/
theorem poll_execute (hown : own ≠ mbAddressBroadcast) (hwf : WellFormed ask.2)
    (hx : Waits own σ out x) (honly : slaveChannel.Only x.xSlaveOsEvent .execute)
    (hus : ask.1 = own ∨ ask.1 = mbAddressBroadcast) (hhold : x.Holding asciiTransport ask.2)
    (hrcv : x.ucRcvAddress = ask.1) (hptr : x.ucMBFrame = true)
    {junk : Option MBEventType} (hst : x.step (.poll junk) = some x') :
    Serving own σ out ask ((answered own σ ask).length + 2) x' [] ∨ Served own σ out ask x' := by
  have hleft := slaveChannel.not_returns_get x.xSlaveOsEvent
  let y : AsciiSlave := { x with xSlaveOsEvent := (slaveChannel.get x.xSlaveOsEvent).2 }
  have hpoll : x.step (.poll junk) = some (Stack.pollExecute asciiTransport y) :=
    (Stack.eMBPoll_of_only hx.base.enabled honly junk).trans (if_pos hptr)
  obtain rfl : Stack.pollExecute asciiTransport y = x' := Option.some.inj (hpoll.symm.trans hst)
  have hy : Stack.Holding asciiTransport y ask.2 := ⟨hhold.table, hhold.frame, hhold.length⟩
  have hstore : taken own σ ask = y.app.store.after ask.2 := by
    rw [taken, if_pos hus, ← hx.store]
  rcases hus with hone | hall
  · left
    have hans : answered own σ ask =
        Ascii.asciiFrame (encoded (Ascii.serialPdu own (response y.app.store ask.2))) := by
      rw [answered, if_pos hone, ← hx.store]
    have hne : y.ucRcvAddress ≠ mbAddressBroadcast := by
      show x.ucRcvAddress ≠ mbAddressBroadcast
      rw [hrcv, hone]
      exact hown
    obtain ⟨buf, app, code, ex, happ, hresp, heq⟩ := hy.pollExecute_reply hwf hne
    have hbuf : (asciiTransport.setFrame y.link buf).ucASCIIBuf.Holds 1
        (response y.app.store ask.2) := by
      have hslice := slice_splice y.link.ucASCIIBuf buf 1 (response y.app.store ask.2).length
      exact hslice.trans hresp
    obtain ⟨buf', hbuf', hsend⟩ := Ascii.send_eq (s := asciiTransport.setFrame y.link buf)
      (a := own) hx.rcv hbuf
    have hlen : 1 + (response y.app.store ask.2).length + 1 =
        (Ascii.serialPdu own (response y.app.store ask.2)).length := by
      rw [Ascii.serialPdu_length]
      omega
    have hown' : y.ucMBAddress = own := hx.base.address
    have hlink : (asciiTransport.peMBFrameSendCur (asciiTransport.setFrame y.link buf) own
        (response y.app.store ask.2).length).2 = _ := congrArg Prod.snd hsend
    rw [heq, hown', hlink]
    refine .sending ⟨⟨hx.base.enabled, rfl, hx.base.table, hx.base.lf⟩, hx.rcv, rfl,
      hx.timer, happ.trans hstore.symm, ?_, ?_, hleft⟩
    · exact congrArg (· ++ answered own σ ask) hx.sent
    · rw [hans]
      exact .colon rfl hbuf' hlen
  · right
    have hcast : y.ucRcvAddress = mbAddressBroadcast := hrcv.trans hall
    obtain ⟨buf, app, code, len, ex, happ, heq⟩ := hy.pollExecute_broadcast hwf hcast
    have hans : answered own σ ask = [] := if_neg fun h => hown (h.symm.trans hall)
    rw [Served, hans, List.append_nil, heq]
    exact ⟨⟨⟨hx.base.enabled, hx.base.address, hx.base.table, hx.base.lf⟩, hx.rcv, hx.rx,
      hx.tx, hx.timer, happ.trans hstore.symm, hx.sent⟩, hleft⟩

/-- An event that `eMBPoll` does nothing about is polled. -/
theorem poll_ignored {e : MBEventType} (he : e = .ready ∨ e = .frameSent) (hx : Waits own σ out x)
    (honly : slaveChannel.Only x.xSlaveOsEvent e) {junk : Option MBEventType}
    (hst : x.step (.poll junk) = some x') : Quiet own σ out x' := by
  have hpoll : x.step (.poll junk) =
      some { x with xSlaveOsEvent := (slaveChannel.get x.xSlaveOsEvent).2 } := by
    refine (Stack.eMBPoll_of_only hx.base.enabled honly junk).trans ?_
    rcases he with rfl | rfl
    · rfl
    · rfl
  rw [hpoll] at hst
  cases hst
  exact ⟨⟨⟨hx.base.enabled, hx.base.address, hx.base.table, hx.base.lf⟩, hx.rcv, hx.rx, hx.tx,
    hx.timer, hx.store, hx.sent⟩, slaveChannel.not_returns_get _⟩

/-! ## Turns of the transmitter -/

theorem withLink_put {l : Ascii} {c : UChar} (h : l.output = s.link.output ++ [.put c]) :
    s.withLink l = { s with link := l } := by
  have hdrop : l.output.drop s.link.output.length = [.put c] := by
    rw [h, List.drop_left]
  rw [withLink, hdrop]
  rfl

theorem withLink_post {l : Ascii} {e : MBEventType}
    (h : l.output = s.link.output ++ [.post e]) :
    s.withLink l = { s with
      link := l
      xSlaveOsEvent := slaveChannel.post s.xSlaveOsEvent e } := by
  have hdrop : l.output.drop s.link.output.length = [.post e] := by
    rw [h, List.drop_left]
  rw [withLink, hdrop]
  rfl

/-- A turn sends a character. -/
theorem Talks.put {c : UChar} (h : Talks own σ out (c :: rest) x)
    (hst : x.step .txReady = some x') : Talks own σ out rest x' := by
  obtain ⟨hsends, cur, count, st, nibble, heq⟩ := h.sends.put h.base.lf
  have hstep : x.step .txReady = some (x.withLink x.link.xMBASCIITransmitFSM) := if_pos h.tx
  rw [hstep, withLink_put (congrArg Ascii.output heq), heq] at hst
  rw [heq] at hsends
  cases hst
  refine ⟨⟨h.base.enabled, h.base.address, h.base.table, h.base.lf⟩, h.rcv, h.tx, h.timer,
    h.store, ?_, hsends, h.event⟩
  have hsent := h.sent
  rw [List.append_cons] at hsent
  exact (congrArg (· ++ rest) (characters_put ..)).trans hsent

/-- The last turn turns it off. -/
theorem Talks.finished (h : Talks own σ out [] x) (hst : x.step .txReady = some x') :
    Waits own σ out x' ∧ slaveChannel.Only x'.xSlaveOsEvent .frameSent := by
  have heq := h.sends.finished
  have hstep : x.step .txReady = some (x.withLink x.link.xMBASCIITransmitFSM) := if_pos h.tx
  rw [hstep, withLink_post (congrArg Ascii.output heq), heq] at hst
  cases hst
  refine ⟨⟨⟨h.base.enabled, h.base.address, h.base.table, h.base.lf⟩, h.rcv, rfl, rfl, h.timer,
    h.store, ?_⟩, slaveChannel.only_post h.event _⟩
  have hsent := h.sent
  rw [List.append_nil] at hsent
  exact (characters_post ..).trans hsent

end AsciiSlave

namespace AsciiLine

open AsciiSlave

variable {asks : Nat → UChar × Request} {own : UChar} {σ : Store slaveShape} {out : List UChar}
  {ask : UChar × Request} {b b' : AsciiLine} {a : AsciiLineAction} {n : Nat}

/-! ## Steps on the line -/

/-- With nothing on the line and an event pending, a slave with an idle receiver only polls. -/
theorem only_poll (hx : Waits own σ out b.slave) (hret : slaveChannel.Returns b.slave.xSlaveOsEvent)
    (hrest : b.rest = []) (hok : b.Timely a) (hst : step asks b a = some b') :
    ∃ junk x', b.slave.step (.poll junk) = some x' ∧ b' = ⟨x', [], b.asked⟩ := by
  cases a with
  | ask => exact absurd hret hok.2.event
  | character => simp [step, hrest] at hst
  | timer => simp [step, AsciiSlave.step, hx.timer] at hst
  | txReady => simp [step, AsciiSlave.step, hx.tx] at hst
  | poll junk =>
    obtain ⟨x', hx', rfl⟩ := Option.map_eq_some_iff.mp hst
    exact ⟨junk, x', hx', hrest ▸ rfl⟩

/-- A slave that hears a frame does nothing else. -/
theorem only_character {s : AsciiSlave} (hq : Quiet own σ out s) {chars : List UChar}
    (hslave : b.slave = { s with link := chars.foldl Ascii.xMBASCIIReceiveFSM s.link })
    (hrest : b.rest ≠ []) (hok : b.Timely a) (hst : step asks b a = some b') :
    ∃ c rest, b.rest = c :: rest ∧ b' = ⟨b.slave.hears c, rest, b.asked⟩ := by
  cases a with
  | ask => exact absurd hok.1 hrest
  | timer => exact absurd hok hrest
  | txReady =>
    have htx : b.slave.link.xTxEnable = false := by
      rw [hslave]
      exact (heard_same s.link chars).2.trans hq.waits.tx
    simp [step, AsciiSlave.step, htx] at hst
  | poll junk =>
    obtain ⟨x', hx', -⟩ := Option.map_eq_some_iff.mp hst
    have hwaits : b.slave.step (.poll junk) = none := by
      have hen : b.slave.eMBState = .enabled := by
        rw [hslave]
        exact hq.waits.base.enabled
      have hevent : ¬ slaveChannel.Returns b.slave.xSlaveOsEvent := by
        rw [hslave]
        exact hq.event
      exact Stack.eMBPoll_waits hen hevent junk
    cases hwaits.symm.trans hx'
  | character =>
    cases hr : b.rest with
    | nil => exact absurd hr hrest
    | cons c rest =>
      simp only [step, hr] at hst
      exact ⟨c, rest, rfl, (Option.some.inj hst).symm⟩

/-- A slave that sends does nothing else. -/
theorem only_txReady {chars : List UChar} (hx : Talks own σ out chars b.slave) (hrest : b.rest = [])
    (hok : b.Timely a) (hst : step asks b a = some b') :
    ∃ x', b.slave.step .txReady = some x' ∧ b' = ⟨x', [], b.asked⟩ := by
  cases a with
  | ask => exact absurd (hx.tx.symm.trans hok.2.tx) (by decide)
  | character => simp [step, hrest] at hst
  | timer => simp [step, AsciiSlave.step, hx.timer] at hst
  | poll junk =>
    obtain ⟨x', hx', -⟩ := Option.map_eq_some_iff.mp hst
    cases (Stack.eMBPoll_waits hx.base.enabled hx.event junk).symm.trans hx'
  | txReady =>
    obtain ⟨x', hx', rfl⟩ := Option.map_eq_some_iff.mp hst
    exact ⟨x', hx', hrest ▸ rfl⟩

/-- Every step leads to a later stage, or the slave is done. -/
theorem serving_step (hown : own ≠ mbAddressBroadcast) (hwf : WellFormed ask.2)
    (h : Serving own σ out ask n b.slave b.rest) (hok : b.Timely a)
    (hst : step asks b a = some b') : b'.asked = b.asked ∧
      ((b'.rest = [] ∧ Served own σ out ask b'.slave) ∨
        ∃ m < n, Serving own σ out ask m b'.slave b'.rest) := by
  obtain ⟨x, rest, k⟩ := b
  cases h with
  | @hearing s chars rest hq hframe hne =>
    obtain ⟨c, rest', hrest, rfl⟩ := only_character hq rfl hne hok hst
    cases hrest
    refine ⟨rfl, Or.inr ?_⟩
    by_cases hlast : rest' = []
    · subst hlast
      exact ⟨_, by rw [List.length_singleton]; omega, hears_last hq hwf hframe⟩
    · refine ⟨rest'.length + (answered own σ ask).length + 5, ?_, ?_⟩
      · rw [List.length_cons]
        omega
      show Serving own σ out ask _ (hears _ c) rest'
      rw [hears_more hq hwf hframe hlast]
      refine .hearing hq ?_ hlast
      rw [List.append_assoc]
      exact hframe
  | received hx honly hreads =>
    obtain ⟨junk, x', hx', rfl⟩ := only_poll hx honly.returns rfl hok hst
    refine ⟨rfl, ?_⟩
    rcases poll_received hx honly hreads hx' with hnext | hdone
    · exact Or.inr ⟨_, Nat.lt_succ_self _, hnext⟩
    · exact Or.inl ⟨rfl, hdone⟩
  | execute hx honly hus hhold hrcv hptr =>
    obtain ⟨junk, x', hx', rfl⟩ := only_poll hx honly.returns rfl hok hst
    refine ⟨rfl, ?_⟩
    rcases poll_execute hown hwf hx honly hus hhold hrcv hptr hx' with hnext | hdone
    · exact Or.inr ⟨_, Nat.lt_succ_self _, hnext⟩
    · exact Or.inl ⟨rfl, hdone⟩
  | @sending _ chars hx =>
    obtain ⟨x', hx', rfl⟩ := only_txReady hx rfl hok hst
    refine ⟨rfl, Or.inr ?_⟩
    cases chars with
    | nil =>
      obtain ⟨hwaits, honly⟩ := hx.finished hx'
      exact ⟨1, Nat.lt_succ_self 1, .sent hwaits honly⟩
    | cons c chars => exact ⟨_, Nat.lt_succ_self _, .sending (hx.put hx')⟩
  | sent hx honly =>
    obtain ⟨junk, x', hx', rfl⟩ := only_poll hx honly.returns rfl hok hst
    exact ⟨rfl, Or.inl ⟨rfl, poll_ignored (Or.inr rfl) hx honly hx'⟩⟩

/-- Until it is done the slave can go on. -/
theorem serving_enabled (h : Serving own σ out ask n b.slave b.rest) :
    ∃ a b', b.Timely a ∧ step asks b a = some b' := by
  obtain ⟨x, rest, k⟩ := b
  have hpoll : ∀ {e : MBEventType}, x.eMBState = .enabled →
      slaveChannel.Only x.xSlaveOsEvent e →
      (∃ x', Stack.handle asciiTransport
        { x with xSlaveOsEvent := (slaveChannel.get x.xSlaveOsEvent).2 } (some e) = some x') →
      ∃ a b', Timely ⟨x, rest, k⟩ a ∧ step asks ⟨x, rest, k⟩ a = some b' := by
    intro e hen honly ⟨x', hx'⟩
    refine ⟨.poll none, ⟨x', rest, k⟩, trivial, ?_⟩
    have hst : x.step (.poll none) = some x' :=
      (Stack.eMBPoll_of_only hen honly none).trans hx'
    rw [step, hst]
    rfl
  cases h with
  | @hearing s chars rest hq hframe hne =>
    cases rest with
    | nil => exact absurd rfl hne
    | cons c rest => exact ⟨.character, _, trivial, rfl⟩
  | received hx honly => exact hpoll hx.base.enabled honly ⟨_, rfl⟩
  | execute hx honly _ _ _ hptr => exact hpoll hx.base.enabled honly ⟨_, if_pos hptr⟩
  | sent hx honly => exact hpoll hx.base.enabled honly ⟨_, rfl⟩
  | sending hx =>
    refine ⟨.txReady, ⟨x.withLink x.link.xMBASCIITransmitFSM, [], k⟩, trivial, ?_⟩
    have hst : x.step .txReady = some (x.withLink x.link.xMBASCIITransmitFSM) := if_pos hx.tx
    rw [step, hst]
    rfl

/-! ## Any number of frames -/

/-- The store after `n` frames. -/
def storeAfter (own : UChar) (σ : Store slaveShape) (asks : Nat → UChar × Request) :
    Nat → Store slaveShape
  | 0 => σ
  | n + 1 => taken own (storeAfter own σ asks n) (asks n)

/-- The characters that answer `n` frames. -/
def sentAfter (own : UChar) (σ : Store slaveShape) (asks : Nat → UChar × Request) :
    Nat → List UChar
  | 0 => []
  | n + 1 => sentAfter own σ asks n ++ answered own (storeAfter own σ asks n) (asks n)

/-- The slave is done with the first `n` frames. -/
structure Done (own : UChar) (σ : Store slaveShape) (asks : Nat → UChar × Request) (n : Nat)
    (b : AsciiLine) : Prop where
  asked : b.asked = n
  rest : b.rest = []
  slave : Quiet own (storeAfter own σ asks n) (sentAfter own σ asks n) b.slave

/-- What is sent so far is the beginning of what answers the frames so far. -/
def Answers (own : UChar) (σ : Store slaveShape) (asks : Nat → UChar × Request)
    (b : AsciiLine) : Prop :=
  b.slave.sent <+: sentAfter own σ asks b.asked

theorem serving_sent (hwf : WellFormed ask.2) {x : AsciiSlave} {rest : List UChar}
    (h : Serving own σ out ask n x rest) : x.sent <+: out ++ answered own σ ask := by
  cases h with
  | @hearing s chars rest hq hframe hne =>
    have hout := Ascii.foldl_output_of_prefix hq.lf (askFrame_data hwf) hframe hne
    have hsent : sent { s with link := chars.foldl Ascii.xMBASCIIReceiveFSM s.link } = s.sent :=
      congrArg characters hout
    rw [hsent, hq.waits.sent]
    exact List.prefix_append ..
  | received hx =>
    rw [hx.sent]
    exact List.prefix_append ..
  | execute hx =>
    rw [hx.sent]
    exact List.prefix_append ..
  | sending hx => exact ⟨_, hx.sent⟩
  | sent hx => rw [hx.sent]

/-- A slave that is done takes the next frame, and nothing else happens. -/
theorem only_ask (h : Done own σ asks n b) (hst : step asks b a = some b') :
    a = .ask ∧ b' = { b with rest := askFrame (asks n), asked := n + 1 } := by
  have hw := h.slave.waits
  cases a with
  | ask =>
    refine ⟨rfl, (Option.some.inj hst).symm.trans ?_⟩
    rw [h.asked]
  | character => simp [step, h.rest] at hst
  | timer => simp [step, AsciiSlave.step, hw.timer] at hst
  | txReady => simp [step, AsciiSlave.step, hw.tx] at hst
  | poll junk =>
    obtain ⟨x', hx', -⟩ := Option.map_eq_some_iff.mp hst
    cases (Stack.eMBPoll_waits hw.base.enabled h.slave.event junk).symm.trans hx'

theorem Done.answers (h : Done own σ asks n b) : Answers own σ asks b := by
  rw [Answers, h.slave.waits.sent, h.asked]

/-- From one frame to the next. -/
theorem done_next (hown : own ≠ mbAddressBroadcast) (hwf : ∀ j, WellFormed (asks j).2) (n : Nat)
    (b : AsciiLine) (h : Done own σ asks n b) :
    LeadsTo (step asks) Timely (Answers own σ asks) (Done own σ asks (n + 1)) b := by
  let Inv (m : Nat) (t : AsciiLine) : Prop := t.asked = n + 1 ∧
    Serving own (storeAfter own σ asks n) (sentAfter own σ asks n) (asks n) m t.slave t.rest
  have hserves : ∀ m t, Inv m t →
      LeadsTo (step asks) Timely (Answers own σ asks) (Done own σ asks (n + 1)) t := by
    refine LeadsTo.of_rank Inv fun m t ⟨hasked, hs⟩ => ⟨?_, serving_enabled hs, ?_⟩
    · rw [Answers, hasked]
      exact serving_sent (hwf n) hs
    · intro a t' hok hst
      obtain ⟨hsame, ⟨hrest, hdone⟩ | ⟨m', hlt, hs'⟩⟩ := serving_step hown (hwf n) hs hok hst
      · exact Or.inl ⟨hsame.trans hasked, hrest, hdone⟩
      · exact Or.inr ⟨m', hlt, hsame.trans hasked, hs'⟩
  refine .later h.answers ⟨.ask, _, ⟨h.rest, h.slave.event, h.slave.waits.tx⟩, rfl⟩ ?_
  intro a b' _ hst
  obtain ⟨-, rfl⟩ := only_ask h hst
  have hne : askFrame (asks n) ≠ [] := by simp [askFrame, Ascii.asciiFrame]
  exact hserves _ _ ⟨rfl, .hearing h.slave (List.nil_append _) hne⟩

/-- A started slave has announced that it is ready. -/
theorem started_eq {s : AsciiSlave} (h : s.Started) : s.ucMBAddress ≠ mbAddressBroadcast ∧
    Waits s.ucMBAddress s.app.store [] s ∧ slaveChannel.Only s.xSlaveOsEvent .ready := by
  obtain ⟨app, buf, own, hok⟩ := h
  have hown : ¬ (own = mbAddressBroadcast ∨ own < mbAddressMin ∨ mbAddressMax < own) := by
    intro hbad
    rw [eMBInit, if_pos hbad] at hok
    cases hok
  rw [eMBInit, if_neg hown]
  refine ⟨fun h => hown (Or.inl h), ⟨⟨rfl, rfl, rfl, rfl⟩, rfl, rfl, rfl, rfl, rfl, rfl⟩, ?_⟩
  have hnone : ¬ slaveChannel.Returns 0 := by decide
  exact slaveChannel.only_post hnone .ready

/-- The slave is on its way to the first frame once it was started. -/
theorem started_leadsTo {s : AsciiSlave} (h : s.Started) :
    LeadsTo (step asks) Timely (Answers s.ucMBAddress s.app.store asks)
      (Done s.ucMBAddress s.app.store asks 0) ⟨s, [], 0⟩ := by
  obtain ⟨-, hw, honly⟩ := started_eq h
  have hsent : Answers s.ucMBAddress s.app.store asks ⟨s, [], 0⟩ := by
    rw [Answers, hw.sent]
    exact List.nil_prefix
  refine .later hsent ?_ ?_
  · let x : AsciiSlave := { s with xSlaveOsEvent := (slaveChannel.get s.xSlaveOsEvent).2 }
    have hst : s.step (.poll none) = some x :=
      Stack.eMBPoll_of_only hw.base.enabled honly none
    refine ⟨.poll none, ⟨x, [], 0⟩, trivial, ?_⟩
    rw [step, hst]
    rfl
  · intro a b' hok hst
    obtain ⟨junk, x', hx', rfl⟩ := only_poll (b := ⟨s, [], 0⟩) hw honly.returns rfl hok hst
    exact .now ⟨rfl, rfl, poll_ignored (Or.inl rfl) hw honly hx'⟩

/-- The goal of a session: the slave is at rest behind `n` frames. -/
def Behind (own : UChar) (σ : Store slaveShape) (asks : Nat → UChar × Request) (n : Nat)
    (b : AsciiLine) : Prop :=
  b.asked = n ∧ b.rest = [] ∧ b.slave.AtRest ∧ b.slave.app.store = storeAfter own σ asks n ∧
    b.slave.sent = sentAfter own σ asks n

theorem Done.behind (h : Done own σ asks n b) : Behind own σ asks n b :=
  ⟨h.asked, h.rest, ⟨h.slave.event, h.slave.waits.tx⟩, h.slave.waits.store, h.slave.waits.sent⟩

/-- Only the client counts on. -/
theorem asked_step (hst : step asks b a = some b') :
    b'.asked = b.asked ∨ b'.asked = b.asked + 1 := by
  cases a with
  | ask =>
    cases hst
    exact Or.inr rfl
  | character =>
    cases hr : b.rest with
    | nil => simp [step, hr] at hst
    | cons c rest =>
      simp only [step, hr] at hst
      cases hst
      exact Or.inl rfl
  | timer =>
    obtain ⟨x', -, rfl⟩ := Option.map_eq_some_iff.mp hst
    exact Or.inl rfl
  | txReady =>
    obtain ⟨x', -, rfl⟩ := Option.map_eq_some_iff.mp hst
    exact Or.inl rfl
  | poll junk =>
    obtain ⟨x', -, rfl⟩ := Option.map_eq_some_iff.mp hst
    exact Or.inl rfl

theorem asked_le_run (hrun : ReachableBy (· = b) (step asks) Timely b') : b.asked ≤ b'.asked := by
  induction hrun with
  | start heq =>
    cases heq
    exact Nat.le_refl _
  | next _ _ hst ih =>
    rcases asked_step hst with hsame | hmore
    · rw [hsame]
      exact ih
    · rw [hmore]
      exact Nat.le_succ_of_le ih

/-- A step on the way behind the frames so far leads on to there. -/
theorem onTheWay_step (hown : own ≠ mbAddressBroadcast) (hwf : ∀ j, WellFormed (asks j).2)
    (h : LeadsTo (step asks) Timely (Answers own σ asks) (Done own σ asks b.asked) b)
    (hok : b.Timely a) (hst : step asks b a = some b') :
    LeadsTo (step asks) Timely (Answers own σ asks) (Done own σ asks b'.asked) b' := by
  cases h with
  | now hd =>
    have hnext : b'.asked = b.asked + 1 := by
      rw [(only_ask hd hst).2]
    rw [hnext]
    cases done_next hown hwf b.asked b hd with
    | now hd' => exact absurd hd'.asked (Nat.ne_of_lt (Nat.lt_succ_self _))
    | later _ _ hall => exact hall a b' hok hst
  | later _ _ hall =>
    have hb' := hall a b' hok hst
    obtain ⟨t, hto, ht⟩ := hb'.exists_run
    have hle := asked_le_run hto
    rw [ht.asked] at hle
    rcases asked_step hst with hsame | hmore
    · rw [hsame]
      exact hb'
    · omega

theorem done_from_start {s : AsciiSlave} (h : s.Started) (hwf : ∀ j, WellFormed (asks j).2)
    (n : Nat) :
    LeadsTo (step asks) Timely (Answers s.ucMBAddress s.app.store asks)
      (Done s.ucMBAddress s.app.store asks n) ⟨s, [], 0⟩ := by
  have hall := LeadsTo.later_goal (done_next (started_eq h).1 hwf) (started_leadsTo h) n
  rw [Nat.zero_add] at hall
  exact hall

/-- A started slave with the address 1. -/
def atOne : AsciiSlave := ((static .initial fun _ => 0).eMBInit 1).2.eMBEnable.2

theorem atOne_started : atOne.Started := .intro .initial (fun _ => 0) 1 rfl

/-- A client that writes 7 to a register of slave 1 again and again. -/
def writes (_ : Nat) : UChar × Request := (1, .writeHolding 2 7)

/-- Whatever the order of the steps, a started slave comes to the end of the first `n` frames.  Its
store is then what the data model makes of the requests in turn, and the characters it has sent
are those of the frames that answer them.  Up to there it has sent the beginning of that. -/
theorem ascii_session {s : AsciiSlave} (h : s.Started) (hwf : ∀ j, WellFormed (asks j).2)
    (n : Nat) :
    LeadsTo (step asks) Timely (Answers s.ucMBAddress s.app.store asks)
      (Behind s.ucMBAddress s.app.store asks n) ⟨s, [], 0⟩ :=
  (done_from_start h hwf n).mono fun _ hb => hb.behind

/-- The first write is answered with `:010600020007F0`. -/
theorem ascii_session_writes :
    LeadsTo (step writes) Timely (Answers atOne.ucMBAddress atOne.app.store writes) (fun b =>
      b.slave.AtRest ∧ b.slave.sent = [0x3A, 0x30, 0x31, 0x30, 0x36, 0x30, 0x30, 0x30, 0x32, 0x30,
        0x30, 0x30, 0x37, 0x46, 0x30, 0x0D, 0x0A]) ⟨atOne, [], 0⟩ := by
  have hwf : ∀ j, WellFormed (writes j).2 := fun _ => trivial
  refine (ascii_session atOne_started hwf 1).mono fun b hb => ⟨hb.2.2.1, hb.2.2.2.2.trans ?_⟩
  decide

/-- In every reachable state what is sent so far is the beginning of the answers to the frames so
far, and the slave is on the way to rest behind those frames. -/
theorem ascii_session_reachable {s : AsciiSlave} (h : s.Started)
    (hwf : ∀ j, WellFormed (asks j).2)
    (hrun : ReachableBy (· = ⟨s, [], 0⟩) (step asks) Timely b) :
    Answers s.ucMBAddress s.app.store asks b ∧
      LeadsTo (step asks) Timely (Answers s.ucMBAddress s.app.store asks)
        (Behind s.ucMBAddress s.app.store asks b.asked) b := by
  have hway : LeadsTo (step asks) Timely (Answers s.ucMBAddress s.app.store asks)
      (Done s.ucMBAddress s.app.store asks b.asked) b := by
    induction hrun with
    | start heq =>
      cases heq
      exact started_leadsTo h
    | next _ hok hst ih => exact onTheWay_step (started_eq h).1 hwf ih hok hst
  exact ⟨hway.holds_now fun _ hd => hd.answers, hway.mono fun _ hd => hd.behind⟩

/-- The state behind two writes. -/
theorem ascii_session_reachable_writes : ∃ b,
    ReachableBy (· = ⟨atOne, [], 0⟩) (step writes) Timely b ∧ b.asked = 2 ∧
      b.slave.sent <+: sentAfter 1 atOne.app.store writes 2 := by
  have hwf : ∀ j, WellFormed (writes j).2 := fun _ => trivial
  obtain ⟨b, hrun, hdone⟩ := (done_from_start atOne_started hwf 2).exists_run
  have hanswers := (ascii_session_reachable atOne_started hwf hrun).1
  rw [Answers, hdone.asked] at hanswers
  exact ⟨b, hrun, hdone.asked, hanswers⟩

end AsciiLine

end FreeModbus
