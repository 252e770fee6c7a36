import CallStake.Governance.Lifecycle

/-!
# What a payload does to the contract

The action of a proposal, on the whole contract and not on the docket alone.

* `PayloadFits`: the action returns. `performAction_iff`: what it leaves.
* `CreditFails`: the treasury can pay a spend that its recipient cannot be credited with.
  `performAction_failed`: an action that fails leaves the contract as it is, except there.
* `executeProposal_iff`: when an execution returns, and what it leaves.

`simulate_execution` repeats the preconditions and the effects of an execution apart from the executor, and
promises that `would_succeed` means an execution without error. It looks at the status of the proposal only.

* `simulateExecution`: the dry run, and `entryOf`: the entry that it reports on.
* `DryRunAgrees`: what it is for.
* `dry_run_agrees_iff`: a proposal that has succeeded also needs that the contract is not paused, that its
  window is open, that its payload fits, and that no hash is recorded under the name of an upgrade.
-/

namespace CallStake.Governance

section Payload

variable {w w' : World} {t : ProposalType} {p : Proposal} {id : Nat} {auth : Auth} {u : Unit}
  {e : Fault GovernanceError}

/-- The treasury can pay `amount`. -/
def CanDebit (s : Storage) (amount : Int) (asset : Asset) : Prop :=
  amount ≤ s.treasury.balanceOf asset ∧ InRange (s.treasury.balanceOf asset - amount)

/-- `holder` can be credited with `amount`. -/
def CanCredit (s : Storage) (holder : Address) (amount : Int) : Prop :=
  0 < amount ∧ InRange (balanceOf s.token holder + amount)

/-- What an action needs. -/
def PayloadFits (s : Storage) : ProposalType → Prop
  | .treasurySpend recipient amount asset _ => CanDebit s amount asset ∧ CanCredit s recipient amount
  | _ => True

/-- The treasury can pay, but the recipient cannot be credited. -/
def CreditFails (s : Storage) : ProposalType → Prop
  | .treasurySpend recipient amount asset _ => CanDebit s amount asset ∧ ¬ CanCredit s recipient amount
  | _ => False

/-- The contract with the amount of a spend taken from the treasury. -/
def World.debited (w : World) : ProposalType → World
  | .treasurySpend _ amount asset _ => { w with
      store.treasury.assets := w.store.treasury.assets.insert asset (w.store.treasury.balanceOf asset - amount) }
  | _ => w

/-- The contract after an action. -/
def World.performed (w : World) : ProposalType → World
  | .parameterChange parameter _ proposed => { w with
      store.parameter.parameters := w.store.parameter.parameters.insert parameter proposed }
  | .treasurySpend recipient amount asset purpose =>
    (w.debited (.treasurySpend recipient amount asset purpose)).setBalance recipient
      (balanceOf w.store.token recipient + amount)
  | .featureToggle feature enabled => { w with
      store.parameter.features := w.store.parameter.features.insert feature enabled }
  | .contractUpgrade contractName newHash => { w with
      store.parameter.upgrades := w.store.parameter.upgrades.insert contractName newHash }
  | .signalProposal _ | .custom _ => w

theorem performAction_iff :
    performAction t w = (.ok u, w') ↔ PayloadFits w.store t ∧ w.performed t = w' := by
  cases t with
  | treasurySpend =>
    simp [performAction, spendTreasury, addBalance_ok, and_assoc, PayloadFits, CanDebit, CanCredit, InRange,
      World.performed, World.debited]
  | _ => simp [performAction, PayloadFits, World.performed]

/-- An action that fails is a spend. The treasury is debited where only the credit fails. -/
theorem performAction_failed (h : performAction t w = (.error e, w')) :
    ¬ PayloadFits w.store t ∧ (¬ CreditFails w.store t ∧ w' = w ∨ CreditFails w.store t ∧ w' = w.debited t) := by
  cases t with
  | treasurySpend recipient amount asset =>
    simp only [performAction, spendTreasury, Tx.bind_error, load_error, load_ok, Tx.failIf_error,
      Tx.failIf_ok, not_lt, lift_error, ExceptT.stM_eq, lift_ok, checkedSubR_ok,
      save_error, save_ok, exists_eq_left', exists_const, false_or, ↓existsAndEq, and_true] at h
    rcases h with ⟨hlt, -, rfl⟩ | ⟨hle, ⟨hsub, rfl⟩ | ⟨hr, h⟩⟩
    · have hn : ¬ CanDebit w.store amount asset := fun hd => absurd hd.1 (Int.not_le.mpr hlt)
      exact ⟨fun hf => hn hf.1, .inl ⟨fun hc => hn hc.1, rfl⟩⟩
    · have hn : ¬ CanDebit w.store amount asset := fun hd => by
        rw [checkedSubR_ok.mpr ⟨hd.2.1, hd.2.2, rfl⟩] at hsub
        cases hsub
      exact ⟨fun hf => hn hf.1, .inl ⟨fun hc => hn hc.1, rfl⟩⟩
    · obtain ⟨hw, hc⟩ := addBalance_error h
      have hn : ¬ CanCredit w.store recipient amount := fun hcredit => hc hcredit.1 hcredit.2
      exact ⟨fun hf => hn hf.2, .inr ⟨⟨⟨hle, hr⟩, hn⟩, hw⟩⟩
  | _ => simp [performAction] at h

/-- The contract after an action that is logged. -/
def World.applied (w : World) (p : Proposal) : World :=
  { w.performed p.proposalType with
    log := .applied p.id p.status p.executionDeadline w.ledger.timestamp :: w.log }

@[simp] theorem performed_ledger : (w.performed t).ledger = w.ledger := by
  cases t <;> rfl

@[simp] theorem performed_log : (w.performed t).log = w.log := by
  cases t <;> rfl

@[simp] theorem performed_proposal : (w.performed t).store.proposal = w.store.proposal := by
  cases t <;> rfl

theorem executeProposalAction_iff :
    executeProposalAction p w = (.ok u, w') ↔ PayloadFits w.store p.proposalType ∧ w.applied p = w' := by
  simp [executeProposalAction, performAction_iff, record, and_assoc, World.applied]

/-- What an execution needs apart from its payload. -/
structure Executable (w : World) (p : Proposal) : Prop where
  succeeded : p.status = .succeeded
  ready : u64Add p.votingEnds w.store.config.governanceConfig.executionDelay ≤ w.ledger.timestamp
  live : w.ledger.timestamp ≤ p.executionDeadline

theorem Proposals.executeProposal_iff {executor : Address} {status : ProposalStatus}
    (hw : w.docket.WellFormed) :
    Proposals.executeProposal auth id executor w = (.ok status, w') ↔
      auth executor = true ∧ ∃ p, w.docket.proposals.lookup id = some p ∧ Executable w p ∧
        PayloadFits w.store p.proposalType ∧ .executed = status ∧
        (w.applied p).putProposal (p.markExecuted w.ledger.timestamp) = w' := by
  simp only [Proposals.executeProposal, ne_eq, Tx.bind_ok, requireAuth_ok, getProposal_ok,
    Tx.failIf_ok, Decidable.not_not, load_ok, timestamp_ok, not_lt, putProposal_ok, Tx.pure_ok,
    executeProposalAction_iff, exists_const, ↓existsAndEq, true_and, exists_eq_left', and_assoc,
    exists_and_left]
  refine and_congr_right fun _ => exists_congr fun p => and_congr_right fun hp => ?_
  -- the proposal is still stored when it is marked
  have hstored : ((w.applied p).store.proposal.state.proposals.lookup p.id).isSome = true := by
    have hlook : w.store.proposal.state.proposals.lookup p.id = some p := by
      rw [hw.keyed id p hp]
      exact hp
    simp [World.applied, hlook]
  constructor
  · rintro ⟨hs, hready, hlive, hfits, -, hx⟩
    exact ⟨⟨hs, hready, hlive⟩, hfits, hx⟩
  · rintro ⟨⟨hs, hready, hlive⟩, hfits, hx⟩
    exact ⟨hs, hready, hlive, hfits, hstored, hx⟩

theorem executeProposal_iff {executor : Address} {status : ProposalStatus} (hw : w.docket.WellFormed) :
    executeProposal auth id executor w = (.ok status, w') ↔
      w.store.core.initialized = true ∧ w.store.core.paused = false ∧ auth executor = true ∧
        ∃ p, w.docket.proposals.lookup id = some p ∧ Executable w p ∧
        PayloadFits w.store p.proposalType ∧ .executed = status ∧
        (w.applied p).putProposal (p.markExecuted w.ledger.timestamp) = w' := by
  simp [executeProposal, Proposals.executeProposal_iff hw]

end Payload

/-! ## Dry runs -/

/-- What a dry run returns. -/
structure ExecutionSimulationResult where
  proposalId : Nat
  simulationTimestamp : Nat
  wouldSucceed : Bool
  oldValue : Int
  newValue : Int
  deriving DecidableEq

def parameterOf (s : Storage) (key : Bytes) : Int := (s.parameter.parameters.lookup key).getD 0

def featureOf (s : Storage) (name : Bytes) : Bool := (s.parameter.features.lookup name).getD false

/-- The old and the new value that a dry run reports. -/
def projected (s : Storage) : ProposalType → Int × Int
  | .parameterChange key _ newVal => (parameterOf s key, newVal)
  | .treasurySpend _ amount asset _ =>
    (s.treasury.balanceOf asset, saturatingSub (s.treasury.balanceOf asset) amount)
  | .featureToggle name enabled => ((featureOf s name).toInt, enabled.toInt)
  | .contractUpgrade .. => (0, 1)
  | .signalProposal _ => (0, 0)
  | .custom _ => (0, 0)

def simulateExecution (proposalId : Nat) : G ExecutionSimulationResult := do
  requireInitialized
  let proposal ← Proposals.getProposal proposalId
  let values ← load fun s => projected s proposal.proposalType
  let now ← timestamp
  return ⟨proposalId, now, decide (proposal.status = .succeeded), values.1, values.2⟩

/-- The entry that a payload writes, as a number. The entry of an upgrade is `1` once it has a hash; a signal
and a custom payload have no entry. -/
def entryOf (s : Storage) : ProposalType → Int
  | .parameterChange key .. => parameterOf s key
  | .treasurySpend _ _ asset _ => s.treasury.balanceOf asset
  | .featureToggle name _ => (featureOf s name).toInt
  | .contractUpgrade name _ => if (s.parameter.upgrades.lookup name).isSome then 1 else 0
  | .signalProposal _ | .custom _ => 0

/-- A dry run says what an execution by anyone who authorizes it does. -/
structure DryRunAgrees (w : World) (id : Nat) : Prop where
  succeeds (r : ExecutionSimulationResult) (w₁ : World) : simulateExecution id w = (.ok r, w₁) →
    r.wouldSucceed = true → ∀ (auth : Auth) (executor : Address), auth executor = true →
    ∃ p w', w.docket.proposals.lookup id = some p ∧
      executeProposal auth id executor w = (.ok .executed, w') ∧
      entryOf w.store p.proposalType = r.oldValue ∧ entryOf w'.store p.proposalType = r.newValue
  fails (r : ExecutionSimulationResult) (w₁ : World) : simulateExecution id w = (.ok r, w₁) →
    r.wouldSucceed = false → ∀ (auth : Auth) (executor : Address),
    ∃ e w', executeProposal auth id executor w = (.error e, w')

/-- What a dry run does not look at. -/
structure Foreseen (w : World) (p : Proposal) : Prop where
  unpaused : w.store.core.paused = false
  executable : Executable w p
  fits : PayloadFits w.store p.proposalType
  fresh (name newHash : Bytes) : p.proposalType = .contractUpgrade name newHash →
    w.store.parameter.upgrades.lookup name = none

section DryRun

variable {w w' : World} {p : Proposal} {t : ProposalType} {id : Nat}

theorem simulateExecution_ok {r : ExecutionSimulationResult} :
    simulateExecution id w = (.ok r, w') ↔ w.store.core.initialized = true ∧
      ∃ p, w.docket.proposals.lookup id = some p ∧
        ⟨id, w.ledger.timestamp, decide (p.status = .succeeded), (projected w.store p.proposalType).1,
          (projected w.store p.proposalType).2⟩ = r ∧ w = w' := by
  simp only [simulateExecution, Tx.bind_ok, requireInitialized_ok, getProposal_ok, load_ok, timestamp_ok,
    Tx.pure_ok, ↓existsAndEq, exists_const, exists_eq_left', true_and, and_assoc, exists_and_left]
  rfl

/-- The reported values are those of an action that fits, but for an upgrade of a recorded name. -/
theorem entries_projected (hfits : PayloadFits w.store t) :
    entryOf (w.performed t).store t = (projected w.store t).2 ∧
      (entryOf w.store t = (projected w.store t).1 ↔
        ∀ name newHash, t = .contractUpgrade name newHash → w.store.parameter.upgrades.lookup name = none) := by
  cases t with
  | parameterChange =>
    refine ⟨?_, by simp [entryOf, projected]⟩
    simp [entryOf, projected, World.performed, parameterOf]
  | treasurySpend _ _ asset =>
    obtain ⟨⟨-, hmin, hmax⟩, -⟩ := hfits
    refine ⟨?_, by simp [entryOf, projected]⟩
    change ((w.store.treasury.assets.insert asset _).lookup asset).getD 0 = saturatingSub _ _
    rw [AList.lookup_insert, saturatingSub_eq hmin hmax]
    rfl
  | featureToggle =>
    refine ⟨?_, by simp [entryOf, projected]⟩
    simp [entryOf, projected, World.performed, featureOf]
  | contractUpgrade =>
    refine ⟨by simp [entryOf, projected, World.performed], ?_⟩
    simp [entryOf, projected]
  | signalProposal | custom =>
    simp [entryOf, projected]

theorem entryOf_applied (w : World) (p q : Proposal) (t : ProposalType) :
    entryOf ((w.applied p).putProposal q).store t = entryOf (w.performed p.proposalType).store t := by
  cases t <;> rfl

end DryRun

/-- A dry run of a reachable contract agrees with every execution exactly when a proposal that has succeeded
meets what the dry run does not look at. -/
theorem dry_run_agrees_iff {ledger : Ledger} {w : World} {id : Nat}
    (h : Reaches Step (World.deployed ledger) w) :
    DryRunAgrees w id ↔ ∀ p, w.docket.proposals.lookup id = some p → w.store.core.initialized = true →
      p.status = .succeeded → Foreseen w p := by
  have hwf : w.docket.WellFormed := h.invariant (I := fun w => w.docket.WellFormed) (wellFormed_start ledger)
    fun _ _ _ hw hs => wellFormed_step hw hs
  constructor
  · intro ha p hp hi hs
    have hr : simulateExecution id w = (.ok _, w) := simulateExecution_ok.mpr ⟨hi, p, hp, rfl, rfl⟩
    obtain ⟨p', w', hp', hx, hold, -⟩ := ha.succeeds _ _ hr (decide_eq_true hs) (fun _ => true) ⟨0⟩ rfl
    cases hp.symm.trans hp'
    obtain ⟨-, hpaused, -, q, hq, hexec, hfits, -, -⟩ := (executeProposal_iff hwf).mp hx
    cases hp.symm.trans hq
    exact ⟨hpaused, hexec, hfits, (entries_projected hfits).2.mp hold⟩
  · intro hall
    constructor
    · intro r w₁ hr hsucceeds auth executor hauth
      obtain ⟨hi, p, hp, rfl, rfl⟩ := simulateExecution_ok.mp hr
      obtain ⟨hpaused, hexec, hfits, hfresh⟩ := hall p hp hi (of_decide_eq_true hsucceeds)
      obtain ⟨hnew, hold⟩ := entries_projected hfits
      refine ⟨p, _, hp, (executeProposal_iff hwf).mpr ⟨hi, hpaused, hauth, p, hp, hexec, hfits, rfl, rfl⟩,
        hold.mpr hfresh, ?_⟩
      rw [entryOf_applied]
      exact hnew
    · intro r w₁ hr hfails auth executor
      obtain ⟨hi, p, hp, rfl, rfl⟩ := simulateExecution_ok.mp hr
      rcases hx : executeProposal auth id executor w with ⟨e | status, w'⟩
      · exact ⟨e, w', rfl⟩
      · obtain ⟨-, -, -, q, hq, hexec, -⟩ := (executeProposal_iff hwf).mp hx
        cases hp.symm.trans hq
        exact absurd hexec.succeeded (of_decide_eq_false hfails)

namespace Sample

/-- A spend is voted of which the treasury cannot pay the half any more. -/
def unfundedRun : List Event :=
  [callBy admin initializeCall, callBy admin (.direct admin (.setTreasuryAsset ⟨[67], none⟩ 10000)),
    callBy community (.stake community 20000),
    callBy community (propose community (.treasurySpend mallory 1000 ⟨[67], none⟩ [112])),
    callBy admin (.direct admin (.setTreasuryAsset ⟨[67], none⟩ 400)),
    atTime 100, callBy community (.castVote 1 community .inFavor), atTime 700000,
    call (.finalizeProposal 1)]

end Sample

open Sample in
/-- The dry run of a proposal that is still open agrees: it fails, and so do all executions. -/
theorem open_proposal_agrees : DryRunAgrees (deployedRun (unfundedRun.take 4)) 1 := by
  have hreach : Reaches Step (World.deployed ⟨0, 0⟩) (deployedRun (unfundedRun.take 4)) :=
    Reaches.of_along (by decide +kernel)
  refine (dry_run_agrees_iff hreach).mpr fun p hp _ hs => ?_
  have hstatus : ((deployedRun (unfundedRun.take 4)).docket.proposals.lookup 1).map (·.status) =
      some .pending := by decide +kernel
  rw [hp] at hstatus
  cases hs.symm.trans (Option.some.inj hstatus)

open Sample in
/-- A spend that the treasury cannot pay would succeed. -/
theorem unfunded_spend_would_succeed :
    (∃ w', simulateExecution 1 (deployedRun unfundedRun) = (.ok ⟨1, 700000, true, 400, -600⟩, w')) ∧
    (executeProposal (fun _ => true) 1 community (deployedRun unfundedRun)).1 = .error (err .insufficientBalance) ∧
    ¬ ∀ w id, Reaches Step (World.deployed ⟨0, 0⟩) w → DryRunAgrees w id := by
  have hsim : simulateExecution 1 (deployedRun unfundedRun) = (.ok ⟨1, 700000, true, 400, -600⟩, _) :=
    Prod.ext (by decide +kernel) rfl
  have hexec : (executeProposal (fun _ => true) 1 community (deployedRun unfundedRun)).1 =
      .error (err .insufficientBalance) := by decide +kernel
  refine ⟨⟨_, hsim⟩, hexec, fun hall => ?_⟩
  have hreach : Reaches Step (World.deployed ⟨0, 0⟩) (deployedRun unfundedRun) := Reaches.of_along (by decide +kernel)
  obtain ⟨p, w', -, hx, -⟩ := (hall _ 1 hreach).succeeds _ _ hsim rfl (fun _ => true) community rfl
  rw [hx] at hexec
  cases hexec

end CallStake.Governance
