import FreeModbus.Bus.Calls

/-!
# A session on the bus

A client makes one request after the other, for ever.  The bus refines the plant over
every session (`session_refines`).  With that come the agreement of the mirrors with the
slaves (`session_coherent`), the code of every call (`session_codes`), that no two
transmitters are ever on (`session_oneTalker`), and that no call waits for ever
(`session_returns`).
-/

namespace FreeModbus

open ByteMemory DataModel EventFlags EventFlags.Channel Transition

namespace Bus

variable {ι : Type} [DecidableEq ι] {b b' : Bus ι} {client : Nat → MasterRequest} {n : Nat}
  {P : Tables ι}

/-! ## Any number of calls -/

/-- `n` calls took the bus from `b` to `b'`, and made as many requests to the plant, which took it
to `P`: each call has returned the code of its request. -/
structure RanAs (client : Nat → MasterRequest) (n : Nat) (b : Bus ι) (endings : Nat → Ending)
    (P : Tables ι) (b' : Bus ι) : Prop where
  address : b'.address = b.address
  runs : Runs b.address mbAddressBroadcast (fun j => (client j).asked) endings b.tables n P
  calls : ∀ j < n, b'.master.calls j = .returned (client j) (endingCode (endings j))
  holds : b'.Holds P

def Ran (client : Nat → MasterRequest) (n : Nat) (b b' : Bus ι) : Prop :=
  ∃ endings P, RanAs client n b endings P b'

theorem RanAs.next {b₀ : Bus ι} {endings : Nat → Ending} (h : b₀.RanAs client n endings P b)
    (hcall : b.Follows (client n) n P b') : b₀.Ran client (n + 1) b' := by
  obtain ⟨haddress', hearlier, o, P', hcode, hserves, hP'⟩ := hcall
  let endings' := Function.update endings n o
  have hsame : ∀ j < n, endings' j = endings j := fun j hj =>
    Function.update_of_ne (Nat.ne_of_lt hj) ..
  have hlast : endings' n = o := Function.update_self ..
  rw [h.address] at haddress' hserves
  rw [← hlast] at hserves
  refine ⟨endings', P', haddress', .next (h.runs.congr hsame) hserves, fun j hj => ?_, hP'⟩
  rcases Nat.lt_succ_iff_lt_or_eq.mp hj with hlt | rfl
  · rw [hearlier j hlt, hsame j hlt]
    exact h.calls j hlt
  · rw [hlast]
    exact hcode

end Bus

/-! ## A bus that was started -/

/-- A slave behind its start. -/
def Slave.waiting (app : SlaveApp) (own : UChar) : Slave :=
  { static app with
    ucMBAddress := own
    eMBState := .enabled
    eRcvState := .idle
    xRxEnable := true }

theorem Slave.resting_waiting (app : SlaveApp) {own : UChar} (hown : own ≠ mbAddressBroadcast) :
    (waiting app own).Resting :=
  have hnone : ¬ slaveChannel.Returns 0 := by decide
  ⟨⟨rfl, hown, rfl, rfl, rfl, hnone, rfl, rfl⟩, rfl⟩

/-- A bus of parties behind their start is calm. -/
theorem Bus.calm_started {ι : Type} (app : MasterApp) (apps : ι → SlaveApp) {own : ι → UChar}
    (hown : ∀ j, own j ≠ mbAddressBroadcast) (hone : Function.Injective own) :
    Calm 0 ⟨Master.established app, fun j => Slave.waiting (apps j) (own j)⟩ where
  control := Master.control_established app
  results := (Master.idleFor_established app 0).results
  free := (Master.idleFor_established app 0).free
  made _ hj := absurd hj (Nat.not_lt_zero _)
  unmade _ _ := rfl
  resting j := Slave.resting_waiting (apps j) (hown j)
  apart := hone

/-- A bus of two slaves with the addresses 1 and 2. -/
def Bus.ofTwo : Bus (Fin 2) :=
  ⟨Master.established .initial, fun j => Slave.waiting .initial (if j = 0 then 1 else 2)⟩

theorem Bus.ofTwo_calm : Bus.ofTwo.Calm 0 := calm_started _ _ (by decide) (by decide)

theorem Master.writeOne_sound : writeOne.Sound :=
  Or.inr ⟨by decide, trivial, trivial, fun h => absurd h (by decide)⟩

/-! ## Sessions -/

namespace Bus

variable {ι : Type} [DecidableEq ι] [Fintype ι] {b b₀ : Bus ι} {client : Nat → MasterRequest}

/-- The end of the first `n` calls. -/
abbrev Reached (client : Nat → MasterRequest) (b₀ : Bus ι) (n : Nat) (b : Bus ι) : Prop :=
  b.Calm n ∧ b₀.Ran client n b

omit [Fintype ι] in
theorem reached_zero (h : b₀.Calm 0) : Reached client b₀ 0 b₀ :=
  ⟨h, fun _ => .rejected, b₀.tables, rfl, .start, fun _ hj => absurd hj (Nat.not_lt_zero _),
    b₀.holds_tables⟩

theorem reached_next (hsound : ∀ j, (client j).Sound) (n : Nat) (b : Bus ι)
    (h : Reached client b₀ n b) :
    LeadsTo step (Timely client) OneTalker (Reached client b₀ (n + 1)) b := by
  obtain ⟨hcalm, endings, P, hran⟩ := h
  exact (hcalm.leadsTo (hsound n) hran.holds).mono fun _ hnext => ⟨hnext.1, hran.next hnext.2⟩

omit [Fintype ι] in
theorem reached_apart (n : Nat) (b : Bus ι) (h : Reached client b₀ n b) :
    ¬ Reached client b₀ (n + 1) b := by
  intro h'
  have hreturned := h'.1.made n (Nat.lt_succ_self n)
  rw [h.1.unmade n (Nat.le_refl n)] at hreturned
  exact hreturned

theorem reached_from_start (h : b₀.Calm 0) (hsound : ∀ j, (client j).Sound) (n : Nat) :
    LeadsTo step (Timely client) OneTalker (Reached client b₀ n) b₀ := by
  have hall := LeadsTo.later_goal (reached_next hsound) (.now (reached_zero h)) n
  rw [Nat.zero_add] at hall
  exact hall

/-- Every reachable state is on the way to the end of some calls. -/
theorem reached_of_run (h : b₀.Calm 0) (hsound : ∀ j, (client j).Sound)
    (hrun : ReachableBy (· = b₀) step (Timely client) b) :
    ∃ m, LeadsTo step (Timely client) OneTalker (Reached client b₀ m) b := by
  refine leadsTo_of_reachable ?_ (reached_next hsound) reached_apart hrun
  rintro _ rfl
  exact reached_zero h

/-- Whatever the order of the steps, the bus comes to the end of the first `n` calls.  The tables of
the slaves and the mirrors are then what the requests, made one after the other, make of them in
the plant, and each call has returned the code of its request.  Up to there at most one
transmitter was on at a time. -/
theorem session_refines (h : b₀.Calm 0) (hsound : ∀ j, (client j).Sound) (n : Nat) :
    LeadsTo step (Timely client) OneTalker (fun b => b.Calm n ∧ ∃ endings P,
      Runs b₀.address mbAddressBroadcast (fun j => (client j).asked) endings b₀.tables n P ∧
      (∀ j < n, b.master.calls j = .returned (client j) (endingCode (endings j))) ∧
      b.Holds P) b₀ :=
  (reached_from_start h hsound n).mono fun _ ⟨hcalm, endings, P, hran⟩ =>
    ⟨hcalm, endings, P, hran.runs, hran.calls, hran.holds⟩

/-- Two calls write a register of the first of two slaves. -/
theorem session_refines_writes :
    LeadsTo step (Timely fun _ => Master.writeOne) OneTalker (fun b => b.Calm 2 ∧ ∃ endings P,
      Runs ofTwo.address mbAddressBroadcast (fun _ => Master.writeOne.asked) endings ofTwo.tables
        2 P ∧
      (∀ j < 2, b.master.calls j = .returned Master.writeOne (endingCode (endings j))) ∧
      b.Holds P) ofTwo :=
  session_refines ofTwo_calm (fun _ => Master.writeOne_sound) 2

/-- At the end of any number of calls a mirror agrees with its slave on every item that a call with
`MB_MRE_NO_ERR` addressed, be it to read or to write. -/
theorem session_coherent (h : b₀.Calm 0) (hsound : ∀ j, (client j).Sound) (n : Nat) :
    LeadsTo step (Timely client) OneTalker (fun b => b.Calm n ∧ ∀ j sp i,
      (b₀.address j).toNat ≤ mbMasterTotalSlaveNum → i < masterShape.size sp →
      (∃ m < n, b.master.calls m = .returned (client m) .noErr ∧
        ((client m).ucSndAddr = b₀.address j ∨ (client m).ucSndAddr = mbAddressBroadcast) ∧
        (client m).call.request.Addresses sp i) →
      (b.master.app.row (b₀.address j)).item sp i = (b.slaves j).app.store.item sp i) b₀ := by
  refine (reached_from_start h hsound n).mono fun b ⟨hcalm, endings, P, hran⟩ =>
    ⟨hcalm, fun j sp i h16 hi ⟨m, hm, hcode, haddr, hitem⟩ => ?_⟩
  have hcast : ∀ j, b₀.address j ≠ mbAddressBroadcast := fun j => (h.resting j).quiet.address
  have hdone : endings m = .done := by
    rw [hran.calls m hm] at hcode
    cases hend : endings m with
    | done => rfl
    | _ =>
      rw [hend] at hcode
      cases hcode
  have hasked : (client m).asked = some ((client m).ucSndAddr, (client m).call.request) := by
    refine if_neg fun hq => ?_
    obtain ⟨_, _, hserves⟩ := hran.runs.serves hm
    rw [hdone, MasterRequest.asked, if_pos hq] at hserves
    cases hserves
  have h1 : 1 ≤ (b₀.address j).toNat :=
    Nat.one_le_iff_ne_zero.mpr fun hzero => hcast j (BitVec.eq_of_toNat_eq hzero)
  rw [hran.holds.mirror _ h1 h16, hran.holds.devices j]
  exact runs_coherent h.apart hcast hran.runs j sp i hi
    ⟨m, hm, _, _, hasked, hdone, haddr, hitem⟩

/-- Register 2 of the slave that was written to. -/
theorem session_coherent_writes :
    LeadsTo step (Timely fun _ => Master.writeOne) OneTalker (fun b => b.Calm 2 ∧
      (b.master.calls 0 = .returned Master.writeOne .noErr →
        (b.master.app.row 1).item .holdings 2 = (b.slaves 0).app.store.item .holdings 2)) ofTwo :=
  (session_coherent ofTwo_calm (fun _ => Master.writeOne_sound) 2).mono fun _ ⟨hcalm, hall⟩ =>
    ⟨hcalm, fun hcode => hall 0 .holdings 2 (by decide) (by decide)
      ⟨0, Nat.two_pos, hcode, Or.inl rfl, by decide⟩⟩

/-- The code of a call says what became of its request: the arguments were refused, no slave has the
address, the request is inside the maps, or it is not. -/
theorem session_codes (h : b₀.Calm 0) (hsound : ∀ j, (client j).Sound) (n : Nat) :
    LeadsTo step (Timely client) OneTalker (fun b => b.Calm n ∧ ∀ m < n,
      b.master.calls m = .returned (client m) ((client m).codeOn b₀.address)) b₀ := by
  refine (reached_from_start h hsound n).mono fun b ⟨hcalm, endings, P, hran⟩ =>
    ⟨hcalm, fun m hm => ?_⟩
  obtain ⟨_, _, hserves⟩ := hran.runs.serves hm
  rw [hran.calls m hm, MasterRequest.codeOn_of_serves (hsound m) hserves]

/-- Three requests: to a slave, past the end of its map, and to an address that nobody has. -/
theorem session_codes_three :
    let client : Nat → MasterRequest := fun j =>
      if j = 0 then Master.writeOne else
      if j = 1 then ⟨2, .readCoils 60 5⟩ else ⟨9, .readInputRegister 0 1⟩
    LeadsTo step (Timely client) OneTalker (fun b => b.Calm 3 ∧
      b.master.calls 0 = .returned (client 0) .noErr ∧
      b.master.calls 1 = .returned (client 1) .exeFun ∧
      b.master.calls 2 = .returned (client 2) .timedout) ofTwo := by
  intro client
  have hsound : ∀ j, (client j).Sound := by
    intro j
    show (if j = 0 then Master.writeOne else
      if j = 1 then ⟨2, .readCoils 60 5⟩ else ⟨9, .readInputRegister 0 1⟩ : MasterRequest).Sound
    split
    · exact Master.writeOne_sound
    · split
      · exact Or.inr ⟨by decide, trivial, ⟨by decide, by decide⟩, fun h => absurd h (by decide)⟩
      · exact Or.inr ⟨by decide, trivial, ⟨by decide, by decide⟩, fun h => absurd h (by decide)⟩
  exact (session_codes ofTwo_calm hsound 3).mono fun b ⟨hcalm, hcodes⟩ =>
    ⟨hcalm, hcodes 0 (by decide), hcodes 1 (by decide), hcodes 2 (by decide)⟩

/-- In every reachable state at most one transmitter is on. -/
theorem session_oneTalker (h : b₀.Calm 0) (hsound : ∀ j, (client j).Sound)
    (hrun : ReachableBy (· = b₀) step (Timely client) b) : b.OneTalker := by
  obtain ⟨m, hm⟩ := reached_of_run h hsound hrun
  exact hm.holds_now fun _ hb => hb.1.oneTalker

/-- The state behind two writes. -/
theorem session_oneTalker_writes : ∃ b, ReachableBy (· = ofTwo) step
    (Timely fun _ => Master.writeOne) b ∧ b.Calm 2 ∧ b.OneTalker := by
  have hsound : ∀ j : Nat, ((fun _ => Master.writeOne) j).Sound := fun _ => Master.writeOne_sound
  obtain ⟨b, hrun, hreached⟩ := (reached_from_start ofTwo_calm hsound 2).exists_run
  exact ⟨b, hrun, hreached.1, session_oneTalker ofTwo_calm hsound hrun⟩

/-- From every reachable state each call comes to its return, and the slaves to rest. -/
theorem session_returns (h : b₀.Calm 0) (hsound : ∀ j, (client j).Sound)
    (hrun : ReachableBy (· = b₀) step (Timely client) b) (n : Nat) :
    LeadsTo step (Timely client) OneTalker
      (fun b => b.Rested ∧ ∃ code, b.master.calls n = .returned (client n) code) b := by
  obtain ⟨m, hm⟩ := reached_of_run h hsound hrun
  refine (LeadsTo.later_goal (reached_next hsound) hm (n + 1)).mono
    fun b' ⟨hcalm, endings, P, hran⟩ => ⟨fun j => (hcalm.resting j).atRest, _, hran.calls n ?_⟩
  omega

/-- The tenth write, from the state behind two. -/
theorem session_returns_writes : ∃ b, ReachableBy (· = ofTwo) step
    (Timely fun _ => Master.writeOne) b ∧ b.Calm 2 ∧
      LeadsTo step (Timely fun _ => Master.writeOne) OneTalker (fun b => b.Rested ∧
        ∃ code, b.master.calls 9 = .returned Master.writeOne code) b := by
  have hsound : ∀ j : Nat, ((fun _ => Master.writeOne) j).Sound := fun _ => Master.writeOne_sound
  obtain ⟨b, hrun, hreached⟩ := (reached_from_start ofTwo_calm hsound 2).exists_run
  exact ⟨b, hrun, hreached.1, session_returns ofTwo_calm hsound hrun 9⟩

end Bus

end FreeModbus
