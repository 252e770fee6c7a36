import CallStake.Governance.AdminActions

/-!
# The governance contract as a system

The entrypoints of the contract that can change its state, and the runs of the contract: calls in any
order by anyone, and ledgers that close in between.

* `initializeGovernance` (`initialize`): the first life of the contract, or the next one after the
  guardian revoked the administrator. `Storage.reset` says what of an earlier life it clears; the
  timelock, the grants, the guardian, the locked deposits, the vesting schedules, the pending rewards, the
  vote locks and the snapshots stay.
* `Event`, `next`: a call is a transaction (`Tx.exec`), so a failed one leaves the state as it was. The
  entrypoints of committees and of treasury maintenance that are not modelled one by one are the
  event `maintenance`: it writes what they write, with any values.
-/

namespace CallStake.Governance

open Capabilities (Capability)

/-! ## Initialization -/

/-- What `initialize` writes before the distribution. The vesting schedules, the pending rewards and the vote
locks of an earlier life stay: what is written for them is the entry of the instance storage, and their getters
read the one of the persistent storage first. -/
def Storage.reset (admin : Address) (metadata : TokenMetadata) (s : Storage) : Storage :=
  { s with
    core.admin := some admin
    token := { s.token with metadata := some metadata, balances := ∅, stakedBalances := ∅, holders := [] }
    treasury := .empty
    committees := Committees.emptyCommitteesState
    config.governanceConfig := defaultGovernanceConfig
    proposal.state := emptyProposalsState
    delegation := ⟨∅, []⟩
    reputation := ⟨⟨∅, []⟩, ∅⟩
    parameter := ⟨∅, ∅, ∅⟩ }

/-- `initialize`. -/
def initializeGovernance (auth : Auth) (admin : Address) (name symbol : Bytes) (decimals : Nat)
    (totalSupply : Int) (recipients : DistributionRecipients) : G Unit := do
  requireAuth auth admin
  let initialized ← load (·.core.initialized)
  Tx.failIf (initialized = true) (err .alreadyInitialized)
  Tx.failIf (totalSupply ≤ 0) (err .invalidSupply)
  Tx.failIf (name = [] ∨ symbol = []) (err .invalidMetadata)
  save (Storage.reset admin { name, symbol, decimals, totalSupply })
  let _ ← initializeDistribution recipients totalSupply DEFAULT_LIQUIDITY_REWARD_BPS
    DEFAULT_MIN_CLAIM_THRESHOLD
  save fun s => { s with core.initialized := true, core.paused := false }
  trackHolder recipients.team
  trackHolder recipients.earlyInvestors
  trackHolder recipients.communityRewards
  trackHolder recipients.treasury
  trackHolder recipients.publicSale
  save fun s => { s with core.treasuryAddress := some recipients.treasury }

/-- What `initialize` writes after the distribution. -/
def Storage.started (recipients : DistributionRecipients) (s : Storage) : Storage :=
  { s with
    core.initialized := true
    core.paused := false
    core.treasuryAddress := some recipients.treasury
    token := ((((s.token.track recipients.team).track recipients.earlyInvestors).track
      recipients.communityRewards).track recipients.treasury).track recipients.publicSale }

theorem initializeGovernance_ok {auth : Auth} {admin : Address} {name symbol : Bytes}
    {decimals : Nat} {totalSupply : Int} {recipients : DistributionRecipients} {w w' : World}
    {u : Unit} :
    initializeGovernance auth admin name symbol decimals totalSupply recipients w = (.ok u, w') ↔
      (auth admin = true ∧ w.store.core.initialized = false ∧ 0 < totalSupply ∧ ¬ (name = [] ∨ symbol = [])) ∧
      ∃ distribution w₁,
        initializeDistribution recipients totalSupply DEFAULT_LIQUIDITY_REWARD_BPS
          DEFAULT_MIN_CLAIM_THRESHOLD
          { w with store := w.store.reset admin { name, symbol, decimals, totalSupply } } =
          (.ok distribution, w₁) ∧
        { w₁ with store := w₁.store.started recipients } = w' := by
  simp only [initializeGovernance, trackHolder, bind_requireAuth_ok, bind_load_ok, Tx.bind_failIf_ok, bind_save_ok]
  rw [Tx.bind_ok]
  simp only [bind_save_ok, save_ok]
  constructor
  · rintro ⟨ha, hi, hs, hn, distribution, w₁, hd, rfl⟩
    exact ⟨⟨ha, Bool.not_eq_true _ ▸ hi, Int.not_le.mp hs, hn⟩, distribution, w₁, hd, rfl⟩
  · rintro ⟨⟨ha, hi, hs, hn⟩, distribution, w₁, hd, rfl⟩
    exact ⟨ha, Bool.not_eq_true _ ▸ hi, Int.not_le.mpr hs, hn, distribution, w₁, hd, rfl⟩

/-! ## Calls -/

/-- The entrypoints with their arguments. -/
inductive Call where
  | initializeGovernance (admin : Address) (name symbol : Bytes) (decimals : Nat) (totalSupply : Int)
      (recipients : DistributionRecipients)
  | proposeKeyRotation (admin newAdmin : Address)
  | acceptKeyRotation (newAdmin : Address)
  | cancelKeyRotation (admin : Address)
  | emergencyRevokeAdmin (guardian : Address)
  | setContractPaused (admin : Address) (paused : Bool)
  | enforceAdminTimelock (admin : Address)
  | cancelShadowMode (admin : Address)
  | stake (user : Address) (amount : Int)
  | unstake (user : Address) (amount : Int)
  | setVoteLock (admin holder : Address) (activeVotes : Nat)
  | releaseVestedTokens (beneficiary : Address)
  | accrueLiquidityRewards (admin beneficiary : Address) (tradingVolume : Int)
  | claimLiquidityRewards (beneficiary : Address)
  | setLiquidityMiningConfig (admin : Address) (rewardBps : Nat) (minClaimThreshold : Int)
  | updateReputationConfig (admin : Address) (config : ReputationConfig)
  | refreshReputation (user : Address)
  | delegateVotingPower (delegator delegate : Address)
  | undelegateVotingPower (delegator : Address)
  | setDepositConfig (admin : Address) (config : DepositConfig)
  | createProposal (proposer : Address) (proposalType : ProposalType)
      (title description executionPayload : Bytes) (category : ProposalCategory)
      (useQuadraticVoting : Bool)
  | castVote (proposalId : Nat) (voter : Address) (voteType : VoteType)
  | castReputationWeightedVote (proposalId : Nat) (voter : Address) (voteType : VoteType)
  | finalizeProposal (proposalId : Nat)
  | executeProposal (proposalId : Nat) (executor : Address)
  | cancelProposal (proposalId : Nat) (canceller : Address)
  | withdrawProposal (proposalId : Nat) (proposer : Address)
  | reclaimExpiredProposal (proposalId : Nat) (caller : Address)
  | cleanupProposals (cursor limit : Nat)
  | initializeTimelock (admin : Address) (minDelay maxDelay : Nat) (guardian : Address)
  | queueAction (proposalId : Nat)
  | executeQueuedAction (actionId : Nat) (executor : Address)
  | executeMultipleActions (actionIds : List Nat) (executor : Address)
  | cancelQueuedAction (actionId : Nat) (canceller : Address)
  | emergencyExecute (actionId : Nat) (guardian : Address)
  | emergencyUnblockAction (actionId : Nat) (guardian : Address)
  | extendExecutionWindow (admin : Address) (actionId extensionSeconds : Nat)
  | cancelAdminAction (actionId : Nat) (canceller : Address)
  | direct (caller : Address) (action : AdminAction)
  | queue (caller : Address) (request : AdminRequest)
  | timelocked (caller : Address) (actionId : Nat) (action : AdminAction)

def invoke (auth : Auth) : Call → G Unit
  | .initializeGovernance admin name symbol decimals totalSupply recipients =>
    initializeGovernance auth admin name symbol decimals totalSupply recipients
  | .proposeKeyRotation admin newAdmin => proposeKeyRotation auth admin newAdmin
  | .acceptKeyRotation newAdmin => acceptKeyRotation newAdmin
  | .cancelKeyRotation admin => cancelKeyRotation auth admin
  | .emergencyRevokeAdmin guardian => emergencyRevokeAdmin auth guardian
  | .setContractPaused admin paused => setContractPaused auth admin paused
  | .enforceAdminTimelock admin => enforceAdminTimelock auth admin
  | .cancelShadowMode admin => cancelShadowMode auth admin
  | .stake user amount => stake auth user amount
  | .unstake user amount => unstake auth user amount
  | .setVoteLock admin holder activeVotes => setVoteLock auth admin holder activeVotes
  | .releaseVestedTokens beneficiary => Tx.void (releaseVestedTokens auth beneficiary)
  | .accrueLiquidityRewards admin beneficiary tradingVolume =>
    Tx.void (accrueLiquidityRewards auth admin beneficiary tradingVolume)
  | .claimLiquidityRewards beneficiary => Tx.void (claimLiquidityRewards auth beneficiary)
  | .setLiquidityMiningConfig admin rewardBps minClaimThreshold =>
    Tx.void (setLiquidityMiningConfig auth admin rewardBps minClaimThreshold)
  | .updateReputationConfig admin config => Tx.void (updateReputationConfig auth admin config)
  | .refreshReputation user => Tx.void (refreshReputation user)
  | .delegateVotingPower delegator delegate => delegateVotingPower auth delegator delegate
  | .undelegateVotingPower delegator => undelegateVotingPower auth delegator
  | .setDepositConfig admin config => setDepositConfig auth admin config
  | .createProposal proposer proposalType title description executionPayload category quadratic =>
    Tx.void (createProposal auth proposer proposalType title description executionPayload category
      quadratic)
  | .castVote proposalId voter voteType => castVote auth proposalId voter voteType
  | .castReputationWeightedVote proposalId voter voteType =>
    castReputationWeightedVote auth proposalId voter voteType
  | .finalizeProposal proposalId => Tx.void (finalizeProposal auth proposalId)
  | .executeProposal proposalId executor => Tx.void (executeProposal auth proposalId executor)
  | .cancelProposal proposalId canceller => Tx.void (cancelProposal auth proposalId canceller)
  | .withdrawProposal proposalId proposer => Tx.void (withdrawProposal auth proposalId proposer)
  | .reclaimExpiredProposal proposalId caller => reclaimExpiredProposal auth proposalId caller
  | .cleanupProposals cursor limit => Tx.void (cleanupProposals cursor limit)
  | .initializeTimelock admin minDelay maxDelay guardian =>
    Tx.void (initializeTimelock auth admin minDelay maxDelay guardian)
  | .queueAction proposalId => Tx.void (queueAction proposalId)
  | .executeQueuedAction actionId executor => executeQueuedAction auth actionId executor
  | .executeMultipleActions actionIds executor =>
    Tx.void (executeMultipleActions auth actionIds executor)
  | .cancelQueuedAction actionId canceller => cancelQueuedAction auth actionId canceller
  | .emergencyExecute actionId guardian => emergencyExecute auth actionId guardian
  | .emergencyUnblockAction actionId guardian => emergencyUnblockAction auth actionId guardian
  | .extendExecutionWindow admin actionId extensionSeconds =>
    Tx.void (extendExecutionWindow auth admin actionId extensionSeconds)
  | .cancelAdminAction actionId canceller => cancelAdminAction auth actionId canceller
  | .direct caller action => invokeDirect auth caller action
  | .queue caller request => Tx.void (invokeQueue auth caller request)
  | .timelocked caller actionId action => invokeTimelocked auth caller actionId action

/-! ## Runs -/

/-- What can happen next: a call with its authorizations, the next ledger, or a call of one of the
entrypoints of committees and treasury maintenance. -/
inductive Event where
  | call (auth : Auth) (c : Call)
  | advance (ledger : Ledger)
  | maintenance (treasury : Treasury) (committees : Committees.CommitteesState) (rewardBps : Nat)
      (minClaimThreshold : Int)

/-- The storage with other books of the treasury, other committees and another reward rate. -/
def Storage.maintain (treasury : Treasury) (committees : Committees.CommitteesState)
    (rewardBps : Nat) (minClaimThreshold : Int) (s : Storage) : Storage :=
  { s with
    treasury, committees
    token.distribution := s.token.distribution.map fun d =>
      { d with liquidityRewardBps := rewardBps, minClaimThreshold } }

def next (w : World) : Event → World
  | .call auth c => (invoke auth c).exec w
  | .advance ledger => { w with ledger }
  | .maintenance treasury committees rewardBps minClaimThreshold =>
    { w with store := w.store.maintain treasury committees rewardBps minClaimThreshold }

/-- The ledger never goes back. -/
def Allowed (w : World) : Event → Prop
  | .advance ledger => w.ledger.Before ledger
  | _ => True

instance (w : World) (ev : Event) : Decidable (Allowed w ev) :=
  match ev with
  | .call _ _ => inferInstanceAs (Decidable True)
  | .advance ledger => inferInstanceAs (Decidable (w.ledger.Before ledger))
  | .maintenance .. => inferInstanceAs (Decidable True)

def Step (w : World) (ev : Event) (w' : World) : Prop := Allowed w ev ∧ w' = next w ev

/-- A contract that was just deployed. -/
def World.deployed (ledger : Ledger) : World := ⟨ledger, .deployed, ∅, []⟩

/-- The world after a list of events. -/
def run (w : World) (evs : List Event) : World := evs.foldl next w

/-- A step is a call that returned, a call that failed and changed nothing, the next ledger, or
maintenance. -/
theorem Step.cases {w w' : World} {ev : Event} (h : Step w ev w') :
    (∃ auth c, ev = .call auth c ∧ invoke auth c w = (.ok (), w')) ∨
    (∃ auth c, ev = .call auth c ∧ w' = w) ∨
    (∃ ledger, ev = .advance ledger ∧ w.ledger.Before ledger ∧ w' = { w with ledger }) ∨
    ∃ treasury committees rewardBps minClaimThreshold,
      ev = .maintenance treasury committees rewardBps minClaimThreshold ∧
      w' = { w with store := w.store.maintain treasury committees rewardBps minClaimThreshold } := by
  obtain ⟨hallowed, rfl⟩ := h
  cases ev with
  | call auth c =>
    rcases Tx.exec_cases (invoke auth c) w with ⟨a, ha⟩ | h
    · exact .inl ⟨auth, c, rfl, ha⟩
    · exact .inr (.inl ⟨auth, c, rfl, h⟩)
  | advance ledger => exact .inr (.inr (.inl ⟨ledger, rfl, hallowed, rfl⟩))
  | maintenance t c r m => exact .inr (.inr (.inr ⟨t, c, r, m, rfl, rfl⟩))

/-! ## A small contract -/

/-! The contract of the concrete runs: five recipients, and a supply of a hundred thousand. -/

namespace Sample

def admin : Address := ⟨1⟩
def team : Address := ⟨2⟩
def investors : Address := ⟨3⟩
def community : Address := ⟨4⟩
def treasury : Address := ⟨5⟩
def sale : Address := ⟨6⟩
def mallory : Address := ⟨7⟩
def guardian : Address := ⟨8⟩

def recipients : DistributionRecipients := ⟨team, investors, community, treasury, sale⟩

/-- A call that everyone authorized. -/
def call (c : Call) : Event := .call (fun _ => true) c

/-- A call that one address authorized. -/
def callBy (caller : Address) (c : Call) : Event := .call (fun a => a = caller) c

def initializeCall : Call := .initializeGovernance admin [67] [67] 7 100000 recipients

def signal : ProposalType := .signalProposal [104, 105]

def propose (proposer : Address) (proposalType : ProposalType) : Call :=
  .createProposal proposer proposalType [116] [100] [] .general false

/-- The time in seconds, at the ledger of the same number. -/
def atTime (seconds : Nat) : Event := .advance ⟨seconds, seconds⟩

/-- The run of `evs` on a contract that was deployed at the first ledger. -/
def deployedRun (evs : List Event) : World := run (World.deployed ⟨0, 0⟩) evs

end Sample

end CallStake.Governance
