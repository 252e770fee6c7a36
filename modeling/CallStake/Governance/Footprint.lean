import CallStake.Governance.Entrypoints

/-!
# What each entrypoint of the governance contract can write

The parts of the world a call may change. Everything else is as it was, whether the call succeeds or
fails, so an invariant about some parts needs only the calls that write them.

* `Region`, `Region.read`: the parts of the world.
* `invoke_writes`: a call writes nothing outside of its footprint.
-/

namespace CallStake.Governance

/-- The parts of the storage, the deposits and the log. `metadata` and `depositConfig` are parts of
`token` and `config` that few entrypoints write. -/
inductive Region where
  | core
  | token
  | metadata
  | config
  | depositConfig
  | proposal
  | snapshots
  | delegation
  | parameter
  | reputation
  | timelock
  | announcements
  | capability
  | treasury
  | committees
  | shadow
  | deposit
  | log
  deriving DecidableEq

namespace Region

/-- What a region holds. -/
def Carrier : Region → Type
  | core => CoreStorage
  | token => TokenStorage
  | metadata => Option TokenMetadata
  | config => ConfigStorage
  | depositConfig => DepositConfig
  | proposal => ProposalsState
  | snapshots => Store Nat (Store Address Int)
  | delegation => DelegationState
  | parameter => ParameterStorage
  | reputation => ReputationStorage
  | timelock => Option Timelock
  | announcements => List AdminTimelockEntry
  | capability => Capabilities.CapabilityStorage
  | treasury => Treasury
  | committees => Committees.CommitteesState
  | shadow => Option ShadowModeState
  | deposit => Store Nat Address × Store Nat Int
  | log => List LogEntry

def read : (r : Region) → World → r.Carrier
  | core, w => w.store.core
  | token, w => w.store.token
  | metadata, w => w.store.token.metadata
  | config, w => w.store.config
  | depositConfig, w => w.store.config.depositConfig
  | proposal, w => w.store.proposal.state
  | snapshots, w => w.store.proposal.voteSnapshots
  | delegation, w => w.store.delegation
  | parameter, w => w.store.parameter
  | reputation, w => w.store.reputation
  | timelock, w => w.store.timelock.timelock
  | announcements, w => w.store.timelock.adminPendingActions
  | capability, w => w.store.capability
  | treasury, w => w.store.treasury
  | committees, w => w.store.committees
  | shadow, w => w.store.shadow
  | deposit, w => (w.store.lockedDeposit, w.held)
  | log, w => w.log

end Region

/-- The two worlds differ at most in the regions `rs`. -/
structure SameOutside (rs : List Region) (w w' : World) : Prop where
  ledger : w'.ledger = w.ledger
  same : ∀ r, r ∉ rs → r.read w' = r.read w

instance (rs : List Region) : IsPreorder World (SameOutside rs) where
  refl _ := ⟨rfl, fun _ _ => rfl⟩
  trans _ _ _ h h' := ⟨h'.ledger.trans h.ledger, fun r hr => (h'.same r hr).trans (h.same r hr)⟩

/-- `x` writes at most the regions `rs`. -/
abbrev Writes {α : Type} (rs : List Region) (x : G α) : Prop := Tx.Within (SameOutside rs) x

/-! ## Primitives -/

-- the proofs that instance resolution builds grow with the length of a computation
set_option synthInstance.maxSize 1000000000

open Tx

section Guards

variable {R : World → World → Prop} [IsPreorder World R] {α : Type} {auth : Auth} {caller addr : Address}

instance (g : Storage → α) : Within R (load g) := within_gets _

instance : Within R timestamp := within_gets _

instance (r : Res α) : Within R (lift r : G α) := within_ofExcept _

instance : Within R (requireAuth auth addr : G Unit) := within_failIf _ _

instance : Within R requireInitialized := by
  unfold requireInitialized
  infer_instance

instance : Within R requireNotPaused := by
  unfold requireNotPaused
  infer_instance

instance : Within R storedAdmin := by
  unfold storedAdmin
  infer_instance

instance : Within R (requireAdminIdentity caller) := by
  unfold requireAdminIdentity
  infer_instance

instance : Within R (requireAdmin auth caller) := by
  unfold requireAdmin
  infer_instance

instance : Within R requireNoTimelockBypass := by
  unfold requireNoTimelockBypass
  infer_instance

instance {capability : Capabilities.Capability} : Within R (requireCapability auth caller capability) := by
  unfold requireCapability
  infer_instance

instance : Within R getDistributionState := by
  unfold getDistributionState
  infer_instance

end Guards

section Primitives

variable {α : Type} {rs : List Region}

/-- A write of the storage writes the regions in which the two storages differ. -/
theorem writes_save {g : Storage → Storage}
    (h : ∀ (w : World) (r : Region), r ∉ rs → r.read { w with store := g w.store } = r.read w) :
    Writes rs (save g) := ⟨fun w => ⟨rfl, h w⟩⟩

instance [h : Fact (.core ∈ rs)] (g : Storage → CoreStorage) : Writes rs (save fun s => { s with core := g s }) :=
  writes_save fun w r hr => by cases r <;> first | rfl | exact absurd h.out hr

instance [h : Fact (.token ∈ rs)] (g : Storage → TokenStorage)
    [hg : Fact (∀ s, (g s).metadata = s.token.metadata)] : Writes rs (save fun s => { s with token := g s }) :=
  writes_save fun w r hr => by cases r <;> first | rfl | exact hg.out _ | exact absurd h.out hr

instance : Fact (∀ s : Storage, s.token.metadata = s.token.metadata) := ⟨fun _ => rfl⟩

instance [h : Fact (.config ∈ rs)] (g : Storage → ConfigStorage)
    [hg : Fact (∀ s, (g s).depositConfig = s.config.depositConfig)] :
    Writes rs (save fun s => { s with config := g s }) :=
  writes_save fun w r hr => by cases r <;> first | rfl | exact hg.out _ | exact absurd h.out hr

instance [h : Fact (.config ∈ rs)] [h' : Fact (.depositConfig ∈ rs)] (g : Storage → ConfigStorage) :
    Writes rs (save fun s => { s with config := g s }) :=
  writes_save fun w r hr => by cases r <;> first | rfl | exact absurd h.out hr | exact absurd h'.out hr

instance : Fact (∀ s : Storage, s.config.depositConfig = s.config.depositConfig) := ⟨fun _ => rfl⟩

instance [h : Fact (.proposal ∈ rs)] (g : Storage → ProposalsState) :
    Writes rs (save fun s => { s with proposal.state := g s }) :=
  writes_save fun w r hr => by cases r <;> first | rfl | exact absurd h.out hr

instance [h : Fact (.delegation ∈ rs)] (g : Storage → DelegationState) :
    Writes rs (save fun s => { s with delegation := g s }) :=
  writes_save fun w r hr => by cases r <;> first | rfl | exact absurd h.out hr

instance [h : Fact (.parameter ∈ rs)] (g : Storage → ParameterStorage) :
    Writes rs (save fun s => { s with parameter := g s }) :=
  writes_save fun w r hr => by cases r <;> first | rfl | exact absurd h.out hr

instance [h : Fact (.reputation ∈ rs)] (g : Storage → ReputationStorage) :
    Writes rs (save fun s => { s with reputation := g s }) :=
  writes_save fun w r hr => by cases r <;> first | rfl | exact absurd h.out hr

instance [h : Fact (.timelock ∈ rs)] (g : Storage → Option Timelock) :
    Writes rs (save fun s => { s with timelock.timelock := g s }) :=
  writes_save fun w r hr => by cases r <;> first | rfl | exact absurd h.out hr

instance [h : Fact (.announcements ∈ rs)] (g : Storage → List AdminTimelockEntry) :
    Writes rs (save fun s => { s with timelock.adminPendingActions := g s }) :=
  writes_save fun w r hr => by cases r <;> first | rfl | exact absurd h.out hr

instance [h : Fact (.capability ∈ rs)] (g : Storage → Capabilities.CapabilityStorage) :
    Writes rs (save fun s => { s with capability := g s }) :=
  writes_save fun w r hr => by cases r <;> first | rfl | exact absurd h.out hr

instance [h : Fact (.treasury ∈ rs)] (g : Storage → Treasury) :
    Writes rs (save fun s => { s with treasury := g s }) :=
  writes_save fun w r hr => by cases r <;> first | rfl | exact absurd h.out hr

instance [h : Fact (.committees ∈ rs)] (g : Storage → Committees.CommitteesState) :
    Writes rs (save fun s => { s with committees := g s }) :=
  writes_save fun w r hr => by cases r <;> first | rfl | exact absurd h.out hr

instance [h : Fact (.shadow ∈ rs)] (g : Storage → Option ShadowModeState) :
    Writes rs (save fun s => { s with shadow := g s }) :=
  writes_save fun w r hr => by cases r <;> first | rfl | exact absurd h.out hr

instance [h : Fact (.log ∈ rs)] (entry : LogEntry) : Writes rs (record entry) where
  moves w := ⟨rfl, fun r hr => by cases r <;> first | rfl | exact absurd h.out hr⟩

/-- More regions allow more. -/
theorem Writes.mono {rs' : List Region} {x : G α} (h : Writes rs x) (hs : rs ⊆ rs') :
    Writes rs' x where
  moves w := ⟨(h.moves w).ledger, fun r hr => (h.moves w).same r fun hm => hr (hs hm)⟩

end Primitives

/-! ## Shared parts -/

section Parts

variable {rs : List Region} {auth : Auth} {holder user : Address} {amount : Int} {id : Nat}

section Token

variable [Fact (.token ∈ rs)]

instance : Writes rs (trackHolder holder) := by
  have : Fact (∀ s : Storage, (s.token.track holder).metadata = s.token.metadata) := ⟨fun _ => track_metadata _ _⟩
  unfold trackHolder
  infer_instance

instance (a : Int) : Fact (∀ s : Storage, (s.token.setBalance holder a).metadata = s.token.metadata) :=
  ⟨fun _ => setBalance_metadata _ _ _⟩

instance (a : Int) : Fact (∀ s : Storage, (s.token.setStaked holder a).metadata = s.token.metadata) :=
  ⟨fun _ => setStaked_metadata _ _ _⟩

instance : Writes rs (addBalance holder amount) := by
  unfold addBalance
  infer_instance

instance : Writes rs (subtractBalance holder amount) := by
  unfold subtractBalance
  infer_instance

instance : Writes rs (addStakedBalance holder amount) := by
  unfold addStakedBalance
  infer_instance

instance : Writes rs (subtractStakedBalance holder amount) := by
  unfold subtractStakedBalance
  infer_instance

instance {category : VestingCategory} {startTime cliffSeconds durationSeconds : Nat} :
    Writes rs (createSchedule holder category amount startTime cliffSeconds durationSeconds) := by
  unfold createSchedule
  infer_instance

end Token

section Reputation

variable [Fact (.reputation ∈ rs)]

instance {count : ParticipationHistory → ParticipationHistory} :
    Writes rs (Reputation.recordActivity user count) := by
  unfold Reputation.recordActivity
  infer_instance

instance {voteType : VoteType} : Writes rs (Reputation.recordVote user id voteType) := by
  unfold Reputation.recordVote
  infer_instance

instance : Writes rs (Reputation.recordProposalOutcome id) := by
  unfold Reputation.recordProposalOutcome
  infer_instance

end Reputation

instance : Writes rs (Proposals.getProposal id) := by
  unfold Proposals.getProposal
  infer_instance

instance [Fact (.proposal ∈ rs)] {proposal : Proposal} : Writes rs (Proposals.putProposal proposal) := by
  unfold Proposals.putProposal
  infer_instance

instance [h : Fact (.proposal ∈ rs)] [h' : Fact (.snapshots ∈ rs)] (p : Proposal) (snapshot : Store Address Int) :
    Writes rs (save (Proposals.storeNew p snapshot)) :=
  writes_save fun w r hr => by cases r <;> first | rfl | exact absurd h.out hr | exact absurd h'.out hr

instance [Fact (.token ∈ rs)] [Fact (.log ∈ rs)] : Writes rs (creditDeposit id holder amount) := by
  unfold creditDeposit
  infer_instance

section Deposit

variable [h : Fact (.deposit ∈ rs)]

instance : Writes rs (removeLock id) where
  moves w := ⟨rfl, fun r hr => by cases r <;> first | rfl | exact absurd h.out hr⟩

instance : Writes rs (noteHeld id amount) where
  moves w := ⟨rfl, fun r hr => by cases r <;> first | rfl | exact absurd h.out hr⟩

instance [Fact (.token ∈ rs)] [Fact (.log ∈ rs)] {totalVotes totalSupply : Int} {treasury : Address} :
    Writes rs (settleProposalDeposit id totalVotes totalSupply treasury) := by
  unfold settleProposalDeposit
  refine within_bind inferInstance fun locked => ?_
  cases locked <;> infer_instance

instance [Fact (.token ∈ rs)] [Fact (.log ∈ rs)] : Writes rs (lockProposalDeposit id holder) := by
  have (g : Storage → _) : Writes rs (save fun s => { s with lockedDeposit := g s }) :=
    writes_save fun w r hr => by cases r <;> first | rfl | exact absurd h.out hr
  unfold lockProposalDeposit
  infer_instance

end Deposit

/-- What an execution may write: the proposal, what its action writes, and the log. -/
@[reducible] def executionRegions : List Region := [.proposal, .parameter, .treasury, .token, .log]

instance : Writes rs Timelock.getTimelock := by
  unfold Timelock.getTimelock
  infer_instance

instance [Fact (.timelock ∈ rs)] {timelock : Timelock} : Writes rs (Timelock.putTimelock timelock) := by
  unfold Timelock.putTimelock
  infer_instance

section Execution

variable [Fact (.proposal ∈ rs)] [Fact (.parameter ∈ rs)] [Fact (.treasury ∈ rs)] [Fact (.token ∈ rs)]
  [Fact (.log ∈ rs)]

/-- The regions that the action of a proposal may write. -/
instance (proposalType : ProposalType) : Writes rs (performAction proposalType) := by
  unfold performAction spendTreasury
  split <;> infer_instance

instance {proposal : Proposal} : Writes rs (executeProposalAction proposal) := by
  unfold executeProposalAction
  infer_instance

instance {executor : Address} : Writes rs (Proposals.executeProposal auth id executor) := by
  unfold Proposals.executeProposal
  infer_instance

variable [Fact (.timelock ∈ rs)]

instance {timelock : Timelock} {action : QueuedAction} : Writes rs (Timelock.runEntry timelock action) := by
  unfold Timelock.runEntry Proposals.executeProposalActionById Proposals.markProposalExecuted
  infer_instance

instance {executor : Address} : Writes rs (Timelock.executeQueuedAction auth id executor) := by
  unfold Timelock.executeQueuedAction Timelock.findAction Timelock.requireOpen
  infer_instance

instance {executor : Address} (ids : List Nat) : Writes rs (Timelock.executeEach auth executor ids) := by
  induction ids with
  | nil => exact within_pure _
  | cons id ids ih =>
    unfold Timelock.executeEach
    infer_instance

end Execution

instance [Fact (.announcements ∈ rs)] {actionId : Nat} {caller : Address} :
    Writes rs (Timelock.executeAdminAction auth actionId caller) := by
  unfold Timelock.executeAdminAction Timelock.findAdminAction Timelock.requireOpenEntry Timelock.replaceEntry
  infer_instance

instance {caller : Address} {actionType : Symbol} :
    Writes [.timelock, .announcements] (Timelock.queueAdminAction caller actionType) := by
  unfold Timelock.queueAdminAction
  infer_instance

end Parts

/-! ## Entrypoints -/

/-- The regions that an action of the administrator may write. -/
def AdminAction.footprint : AdminAction → List Region
  | .setTreasuryAsset .. | .treasurySpend .. | .createBudget .. | .treasuryBudget .. |
    .recurringPayment .. | .setRebalanceTarget .. => [.treasury]
  | .configureGovernance .. | .categoryThresholds .. => [.config]
  | .createCommittee .. | .dissolveCommittee .. | .committeeOverride .. => [.committees]
  | .setGuardian .. => [.core]
  | .grantCapability .. | .revokeCapability .. => [.capability]
  | .enterShadowMode .. | .shadowModePromote => [.shadow]
  | .updateTimelockDelay .. => [.timelock]
  | .vestingSchedule .. => [.token]

/-- The regions that a call may write. -/
def Call.footprint : Call → List Region
  | .initializeGovernance .. => [.core, .token, .metadata, .config, .proposal, .delegation, .parameter,
      .reputation, .treasury, .committees]
  | .proposeKeyRotation .. | .acceptKeyRotation .. | .cancelKeyRotation .. |
    .emergencyRevokeAdmin .. | .setContractPaused .. | .enforceAdminTimelock .. => [.core]
  | .cancelShadowMode .. => [.shadow]
  | .stake .. | .unstake .. | .setVoteLock .. | .releaseVestedTokens .. |
    .accrueLiquidityRewards .. | .claimLiquidityRewards .. | .setLiquidityMiningConfig .. => [.token]
  | .updateReputationConfig .. => [.config]
  | .refreshReputation .. => [.reputation]
  | .delegateVotingPower .. | .undelegateVotingPower .. => [.delegation]
  | .setDepositConfig .. => [.config, .depositConfig]
  | .createProposal .. => [.proposal, .snapshots, .token, .deposit, .log, .reputation]
  | .castVote .. | .castReputationWeightedVote .. => [.proposal, .reputation]
  | .finalizeProposal .. => .reputation :: .deposit :: executionRegions
  | .executeProposal .. => executionRegions
  | .cancelProposal .. | .reclaimExpiredProposal .. | .cleanupProposals .. => [.proposal]
  | .withdrawProposal .. => [.proposal, .token, .deposit, .log]
  | .initializeTimelock .. => [.timelock, .core]
  | .queueAction .. | .extendExecutionWindow .. => [.timelock]
  | .executeQueuedAction .. | .executeMultipleActions .. | .emergencyExecute .. |
    .emergencyUnblockAction .. => .timelock :: executionRegions
  | .cancelQueuedAction .. => [.timelock, .proposal]
  | .cancelAdminAction .. => [.announcements]
  | .direct _ action => action.footprint
  | .queue .. => [.timelock, .announcements]
  | .timelocked _ _ action => .announcements :: action.footprint

section Entrypoints

variable {auth : Auth} {caller : Address} {rs : List Region}

instance (request : AdminRequest) : Writes [.timelock, .announcements] (invokeQueue auth caller request) := by
  cases request <;> exact within_bind inferInstance fun _ => inferInstance

section Parts

variable {α : Type} {actionId : Nat} {x : G α}

instance [Fact (.treasury ∈ rs)] {f : Treasury → Nat → Res (Treasury × α)} : Writes rs (onTreasury f) :=
  within_bind inferInstance fun _ => within_bind inferInstance fun _ =>
    within_bind inferInstance fun (_, _) => inferInstance

instance [Fact (.committees ∈ rs)] {f : Committees.CommitteesState → Nat → Res (Committees.CommitteesState × α)} :
    Writes rs (onCommittees f) :=
  within_bind inferInstance fun _ => within_bind inferInstance fun _ =>
    within_bind inferInstance fun (_, _) => inferInstance

theorem writes_direct (hx : Writes rs x) : Writes rs (direct auth caller x) := by
  unfold direct
  infer_instance

theorem writes_timelocked [Fact (.announcements ∈ rs)] (hx : Writes rs x) :
    Writes rs (timelocked auth caller actionId x) := by
  unfold timelocked
  infer_instance

theorem writes_timelockedByCaller [Fact (.announcements ∈ rs)] (hx : Writes rs x) :
    Writes rs (timelockedByCaller auth caller actionId x) := by
  unfold timelockedByCaller
  infer_instance

end Parts

theorem writes_perform (action : AdminAction) :
    Writes action.footprint (action.perform auth caller) := by
  cases action
  all_goals
    simp [AdminAction.perform, AdminAction.footprint, writeTreasuryAsset, writeTreasurySpend,
      Proposals.configureGovernance, Proposals.setCategoryThresholds, writeCommittee, writeDissolution,
      writeOverride, writeGuardian, writeGrant, eraseGrant, writeBudget, writeBudgetApproval,
      writeRecurringPayment, ShadowMode.enterShadowMode, ShadowMode.promoteFromShadowMode,
      Timelock.updateTimelockDelay, addVestingSchedule, writeRebalanceTarget]
    infer_instance

/-- The entrypoints of an action are guards in front of the action. -/
theorem writes_invokeDirect (action : AdminAction) :
    Writes action.footprint (invokeDirect auth caller action) := by
  have hx : Writes action.footprint (action.perform auth caller) := writes_perform action
  cases action
  case configureGovernance | enterShadowMode =>
    have := within_of_void hx
    simp only [invokeDirect, configureGovernance, enterShadowMode]
    infer_instance
  case categoryThresholds | grantCapability | revokeCapability | shadowModePromote | setGuardian |
      updateTimelockDelay | vestingSchedule =>
    simp only [AdminAction.perform] at hx
    simp [invokeDirect, setCategoryThresholds, grantCapability, revokeCapability, promoteFromShadowMode,
      setGuardian, updateTimelockDelay, createVestingSchedule]
    infer_instance
  all_goals exact within_void (writes_direct (within_of_void hx))

theorem writes_invokeTimelocked {actionId : Nat} (action : AdminAction) :
    Writes (.announcements :: action.footprint) (invokeTimelocked auth caller actionId action) := by
  have hx : Writes (.announcements :: action.footprint) (action.perform auth caller) :=
    (writes_perform action).mono (List.subset_cons_self _ _)
  cases action
  case configureGovernance | enterShadowMode =>
    exact within_void (writes_timelockedByCaller (within_of_void hx))
  case categoryThresholds | grantCapability | revokeCapability | shadowModePromote =>
    exact writes_timelockedByCaller hx
  case setGuardian | updateTimelockDelay | vestingSchedule => exact writes_timelocked hx
  all_goals exact within_void (writes_timelocked (within_of_void hx))

instance writes_initializeDistribution [Fact (.token ∈ rs)] {recipients : DistributionRecipients}
    {totalSupply : Int} {rewardBps : Nat} {minClaimThreshold : Int} : Writes rs
      (initializeDistribution recipients totalSupply rewardBps minClaimThreshold) := by
  unfold initializeDistribution
  infer_instance

/-- A call writes nothing outside of its footprint. -/
theorem invoke_writes (auth : Auth) (c : Call) : Writes c.footprint (invoke auth c) := by
  cases c
  case direct caller action => exact writes_invokeDirect action
  case timelocked caller actionId action => exact writes_invokeTimelocked action
  case initializeGovernance admin name symbol decimals totalSupply recipients =>
    have (metadata : TokenMetadata) : Writes [.core, .token, .metadata, .config, .proposal, .delegation, .parameter,
        .reputation, .treasury, .committees] (save (Storage.reset admin metadata)) :=
      writes_save fun w r hr => by cases r <;> first | rfl | simp at hr
    simp only [invoke, Call.footprint, initializeGovernance]
    infer_instance
  all_goals
    simp [invoke, Call.footprint, proposeKeyRotation, acceptKeyRotation, cancelKeyRotation,
      emergencyRevokeAdmin, setContractPaused, enforceAdminTimelock, cancelShadowMode,
      ShadowMode.cancelShadowMode, stake, Token.stake, unstake, Token.unstake, setVoteLock, releaseVestedTokens,
      accrueLiquidityRewards, rewardForVolume, reserveLiquidityRewards, claimLiquidityRewards,
      claimReservedLiquidityRewards, setLiquidityMiningConfig, putDistributionState, updateReputationConfig,
      refreshReputation, Reputation.refreshStaleReputation, delegateVotingPower, undelegateVotingPower,
      setDepositConfig, createProposal, Proposals.createProposal, Reputation.recordProposalCreation, castVote,
      Proposals.castVote, castReputationWeightedVote, finalizeProposal, Proposals.finalizeProposal,
      referenceSupply, getTotalSupply, executeProposal, cancelProposal, Proposals.cancelProposal,
      withdrawProposal, Proposals.withdrawProposal, reclaimExpiredProposal, Proposals.reclaimExpiredProposal,
      cleanupProposals, Proposals.cleanupTerminalProposals, initializeTimelock, Timelock.initializeTimelock,
      writeGuardian, queueAction, Timelock.queueAction, executeQueuedAction, executeMultipleActions,
      Timelock.executeMultipleActions, cancelQueuedAction, Timelock.cancelQueuedAction, Timelock.findAction,
      Timelock.requireOpen, emergencyExecute, Timelock.emergencyExecute, emergencyUnblockAction,
      Timelock.emergencyUnblockAction, extendExecutionWindow, Timelock.extendExecutionWindow, cancelAdminAction,
      Timelock.cancelAdminAction, Timelock.findAdminAction, Timelock.requireOpenEntry, Timelock.replaceEntry]
    infer_instance

end Entrypoints

end CallStake.Governance
