import FreeModbus.Master.Line

/-!
# Expiries across restarts

`eMBMasterDisable` and `eMBMasterEnable` may come at any time.  `eMBMasterRTUStart`
sets the receiver back and leaves the transmitter as it was, so after a restart in
the middle of a transaction the first expiry finds a transmitter that is still
sending, or still waiting for a response.
-/

namespace FreeModbus

open Transition

/-- What can happen to the master when it is also started and stopped. -/
inductive LifeAction where
  | enable
  | disable
  | act (a : MasterAction)

namespace Master

/-! ## Start and stop -/

/-- `eMBMasterRTUStop`. -/
def eMBMasterRTUStop (s : Master) : Master :=
  (s.vMBMasterPortSerialEnable false false).vMBMasterPortTimersDisable

/-- `eMBMasterDisable`. -/
def eMBMasterDisable (s : Master) : MBErrorCode × Master :=
  if s.eMBState = .enabled ∨ s.eMBState = .established then
    (.enoerr, { s.eMBMasterRTUStop with eMBState := .disabled })
  else if s.eMBState = .disabled then (.enoerr, s)
  else (.eillstate, s)

/-- One step of the master, or a call of `eMBMasterEnable` or `eMBMasterDisable`. -/
def lifeStep (s : Master) : LifeAction → Option Master
  | .enable => some s.eMBMasterEnable.2
  | .disable => some s.eMBMasterDisable.2
  | .act a => s.step a

/-- A master that `eMBMasterInit` has initialised, with any mirror. -/
def Initialized (s : Master) : Prop := ∃ app, s = (static app).eMBMasterInit

/-- The assertion of `xMBMasterRTUTimerExpired` on `eSndState` holds, and the call posts at most
one event. -/
def ExpiryLegal (s : Master) : Prop :=
  (s.eSndState = .xfwr ∨ s.eSndState = .idle) ∧ s.expiryPosts.length ≤ 1

instance (s : Master) : Decidable s.ExpiryLegal := by
  unfold ExpiryLegal
  infer_instance

/-- The stack is not enabled in the middle of a transaction, except in the convert delay, and no
poll puts a request on the line while the timer of an earlier one runs. -/
def Settled (s : Master) : LifeAction → Prop
  | .enable => s.eMBState = .disabled →
      s.eSndState = .idle ∨ (s.eSndState = .xfwr ∧ s.xFrameIsBroadcast = true)
  | .act (.poll junk) => s.Unhurried junk
  | _ => True

variable {s s' : Master} {l : Line}

/-! ## The line across restarts -/

theorem OnLine.enable (h : OnLine s l) (hok : s.Settled .enable) :
    ∃ l', OnLine s.eMBMasterEnable.2 l' := by
  unfold eMBMasterEnable
  split
  · rename_i hoff
    exact ⟨.starting, .starting (Or.inl rfl) ⟨rfl, rfl, rfl⟩ rfl rfl (hok hoff)⟩
  · exact ⟨l, h⟩

theorem OnLine.disable (h : OnLine s l) : ∃ l', OnLine s.eMBMasterDisable.2 l' := by
  unfold eMBMasterDisable
  split
  · exact ⟨.off, .off rfl ⟨rfl, rfl, rfl⟩⟩
  · split
    · exact ⟨l, h⟩
    · exact ⟨l, h⟩

/-- Every step of the master leads to a place of the line. -/
theorem OnLine.step (h : OnLine s l) (ha : Addressed s) {a : MasterAction}
    (hok : s.Settled (.act a)) (hst : s.step a = some s') : ∃ l', OnLine s' l' := by
  cases a with
  | byte ucByte =>
    obtain ⟨hrx, rfl⟩ := byte_cases hst
    rcases h.byte hrx ucByte with hl | ⟨-, hl⟩
    · exact ⟨_, hl⟩
    · exact ⟨_, hl⟩
  | timer =>
    obtain ⟨ht, rfl⟩ := timer_cases hst
    exact ⟨_, h.timer ht⟩
  | txReady =>
    obtain ⟨htx, rfl⟩ := txReady_cases hst
    rcases h.transmit htx with hl | hl
    · exact ⟨_, hl⟩
    · exact ⟨_, hl⟩
  | poll junk =>
    rcases h.poll ha.dest hok hst with hl | ⟨hl, -⟩
    · exact ⟨_, hl⟩
    · exact ⟨_, hl⟩
  | refuse i q => exact ⟨l, h.call hst trivial⟩
  | take i q => exact ⟨l, h.call hst trivial⟩
  | fill i => exact ⟨l, h.call hst trivial⟩
  | submit i => exact ⟨l, h.call hst trivial⟩
  | finish i => exact ⟨l, h.call hst trivial⟩

/-- The master stands somewhere on the line, and its addresses are those of slaves. -/
def Placed (s : Master) : Prop := (∃ l, OnLine s l) ∧ Addressed s

theorem Placed.lifeStep (h : Placed s) {a : LifeAction} (hok : s.Settled a)
    (hst : s.lifeStep a = some s') : Placed s' := by
  obtain ⟨⟨l, hl⟩, ha⟩ := h
  cases a with
  | enable =>
    cases hst
    refine ⟨hl.enable hok, ?_⟩
    unfold eMBMasterEnable
    split
    · exact ⟨ha.dest, ha.taken⟩
    · exact ha
  | disable =>
    cases hst
    refine ⟨hl.disable, ?_⟩
    unfold eMBMasterDisable
    split
    · exact ⟨ha.dest, ha.taken⟩
    · split
      · exact ha
      · exact ha
  | act a => exact ⟨hl.step ha hok hst, ha.step hst⟩

/-! ## Expiries -/

/-- Where the master stands on the line, an expiry is legal. -/
theorem OnLine.expiryLegal (h : OnLine s l) (ht : s.xTimer = true) : s.ExpiryLegal := by
  obtain ⟨e, he, -⟩ := h.expiryPosts ht
  refine ⟨?_, by rw [he]; exact Nat.le_refl 1⟩
  cases h with
  | off _ hp => exact absurd (hp.timer.symm.trans ht) Bool.false_ne_true
  | starting _ _ _ _ hs => exact hs.elim Or.inr fun hs => Or.inl hs.1
  | quiet _ _ _ hs => exact Or.inr hs
  | receiving _ _ _ _ hs => exact Or.inr hs
  | sending _ hp => exact absurd (hp.timer.symm.trans ht) Bool.false_ne_true
  | waiting _ _ _ _ hs => exact Or.inl hs

theorem placed_of_settled (h : ReachableBy Initialized lifeStep Settled s) : Placed s := by
  refine h.invariant ?_ fun s a s' hp hok hst => hp.lifeStep hok hst
  rintro s ⟨app, rfl⟩
  exact ⟨⟨.off, .off rfl ⟨rfl, rfl, rfl⟩⟩, Nat.zero_le _, nofun⟩

/-- In every run whose restarts and requests are settled, every expiry is legal. -/
theorem expiryLegal_of_settled (h : ReachableBy Initialized lifeStep Settled s)
    (ht : s.xTimer = true) : s.ExpiryLegal := by
  obtain ⟨⟨l, hl⟩, -⟩ := placed_of_settled h
  exact hl.expiryLegal ht

/-! ## Restarts -/

instance (s : Master) : ∀ a : LifeAction, Decidable (s.Settled a)
  | .enable => by unfold Settled; infer_instance
  | .disable => isTrue trivial
  | .act (.poll junk) => inferInstanceAs (Decidable (s.Unhurried junk))
  | .act (.byte _) => isTrue trivial
  | .act .timer => isTrue trivial
  | .act .txReady => isTrue trivial
  | .act (.refuse _ _) => isTrue trivial
  | .act (.take _ _) => isTrue trivial
  | .act (.fill _) => isTrue trivial
  | .act (.submit _) => isTrue trivial
  | .act (.finish _) => isTrue trivial

/-- Whether the timer runs after some actions, the assertion, and what an expiry posts. -/
def expiryAfter (as : List LifeAction) : Option (Bool × Bool × List MBMasterEventType) :=
  (run lifeStep (static .initial).eMBMasterInit as).map fun s =>
    (s.xTimer, s.ExpiryLegal, s.expiryPosts)

/-- The stack is restarted while the response to a request is awaited. -/
def restarted : List LifeAction :=
  [.enable, .act .timer, .act (.poll none)] ++ sendOne.map .act ++ [.disable, .enable]

/-- The first expiry then posts that the stack is ready and that the response timed out. -/
theorem expiry_not_legal :
    ¬ ∀ s, Reachable Initialized lifeStep s → s.xTimer = true → s.ExpiryLegal := by
  intro h
  have hrun : expiryAfter restarted = some (true, false, [.ready, .errorProcess]) := by
    decide +kernel
  obtain ⟨s, hs, heq⟩ := Option.map_eq_some_iff.mp hrun
  have hbad : decide s.ExpiryLegal = false := congrArg (fun r => r.2.1) heq
  exact of_decide_eq_false hbad
    (h s (Reachable.of_run (.start ⟨_, rfl⟩) hs) (congrArg Prod.fst heq))

/-- After a restart on a silent bus the expiry of the response timeout is legal. -/
theorem expiryLegal_sendOne : ∃ s, ReachableBy Initialized lifeStep Settled s ∧
    s.xTimer = true ∧ s.expiryPosts = [.errorProcess] ∧ s.ExpiryLegal := by
  have hall : AllSteps lifeStep Settled (static .initial).eMBMasterInit
      ([.enable, .disable, .enable, .act .timer, .act (.poll none)] ++ sendOne.map .act) := by
    decide +kernel
  have hrun : expiryAfter
      ([.enable, .disable, .enable, .act .timer, .act (.poll none)] ++ sendOne.map .act) =
      some (true, true, [.errorProcess]) := by decide +kernel
  obtain ⟨s, hs, heq⟩ := Option.map_eq_some_iff.mp hrun
  have hreach : ReachableBy Initialized lifeStep Settled s :=
    ReachableBy.of_run (.start ⟨_, rfl⟩) hall hs
  have ht : s.xTimer = true := congrArg Prod.fst heq
  exact ⟨s, hreach, ht, congrArg (fun r => r.2.2) heq, expiryLegal_of_settled hreach ht⟩

end Master

end FreeModbus
