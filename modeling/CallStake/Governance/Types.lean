import CallStake.Governance.Committees
import CallStake.Governance.Treasury
import CallStake.Shared.Capabilities

/-!
# The governance contract: storage and environment

The data of the `governance` contract. The storage is one record, grouped by the part of the contract
that owns the entries. An entry that is only ever read with a default holds the default while it is
unset; an entry that is tested for presence or removed is an `Option` or the absence of a key.

* `Storage`: everything the contract keeps, and what `initialize` leaves of an earlier life of it.
* `World`: the storage, the ledger, the amounts behind the locked deposits and a log of the deposits
  and of the actions that were applied. The last two are not stored by the contract.
-/

namespace CallStake.Governance

open Tx

open Capabilities (CapabilityStorage)
open Committees (CommitteesState)

/-! ## Token and distribution -/

/-- The governance token. -/
structure TokenMetadata where
  name : Bytes
  symbol : Bytes
  decimals : Nat
  totalSupply : Int

/-- Whose tokens a schedule vests. -/
inductive VestingCategory where
  | team
  | earlyInvestors
  | custom
  deriving DecidableEq

/-- Who gets the initial allocations. -/
structure DistributionRecipients where
  team : Address
  earlyInvestors : Address
  communityRewards : Address
  treasury : Address
  publicSale : Address

/-- The shares of the supply. -/
structure DistributionAllocation where
  team : Int
  earlyInvestors : Int
  communityRewards : Int
  liquidityMining : Int
  treasury : Int
  publicSale : Int

/-- The allocations, and what of the liquidity share was claimed. -/
structure DistributionState where
  allocation : DistributionAllocation
  liquidityReserved : Int
  liquidityClaimed : Int
  liquidityRewardBps : Nat
  minClaimThreshold : Int

/-- Tokens that are released over time. -/
structure VestingSchedule where
  beneficiary : Address
  category : VestingCategory
  totalAmount : Int
  releasedAmount : Int
  startTime : Nat
  cliffSeconds : Nat
  durationSeconds : Nat
  deriving DecidableEq

/-! ## Proposals -/

/-- The categories with a bond of their own. -/
inductive ProposalCategory where
  | parameterChange
  | contractUpgrade
  | treasuryTransfer
  | general
  deriving DecidableEq

/-- The thresholds of a category. -/
structure CategoryThreshold where
  quorumBps : Nat
  supermajorityBps : Nat

/-- What a proposal asks for. -/
inductive ProposalType where
  | parameterChange (parameter : Bytes) (current proposed : Int)
  | treasurySpend (recipient : Address) (amount : Int) (asset : Asset) (purpose : Bytes)
  | featureToggle (feature : Bytes) (enabled : Bool)
  | contractUpgrade (contractName wasmHash : Bytes)
  | signalProposal (text : Bytes)
  | custom (executor : Address)

/-- How far a proposal has come. -/
inductive ProposalStatus where
  | pending
  | active
  | succeeded
  | failed
  | executed
  | cancelled
  | expired
  | withdrawn
  deriving DecidableEq

/-- The votes on a proposal. -/
inductive VoteType where
  | inFavor
  | against
  | abstain
  deriving DecidableEq

/-- A vote, with its power. -/
structure Vote where
  voter : Address
  voteType : VoteType
  votingPower : Int
  timestamp : Nat

/-- A proposal, with its votes. -/
structure Proposal where
  id : Nat
  proposer : Address
  proposalType : ProposalType
  title : Bytes
  description : Bytes
  executionPayload : Bytes
  votingStarts : Nat
  votingEnds : Nat
  votesFor : Int
  votesAgainst : Int
  votesAbstain : Int
  status : ProposalStatus
  voters : Store Address Vote
  voterList : List Address
  executedAt : Option Nat
  discussionEndsAt : Nat
  category : ProposalCategory
  useQuadraticVoting : Bool
  quadraticTotalSupply : Int
  executionDeadline : Nat

/-- Thresholds and periods of proposals. -/
structure GovernanceConfig where
  minProposalThreshold : Int
  votingPeriod : Nat
  votingDelay : Nat
  quorumThreshold : Nat
  approvalThreshold : Nat
  executionDelay : Nat
  discussionDuration : Nat

def defaultGovernanceConfig : GovernanceConfig where
  minProposalThreshold := 1000
  votingPeriod := 7 * 24 * 60 * 60
  votingDelay := 60
  quorumThreshold := 1000
  approvalThreshold := 5000
  executionDelay := 0
  discussionDuration := 0

/-- Power that a holder has given to another. -/
structure VoteDelegation where
  delegator : Address
  delegate : Address
  delegatedPower : Int
  active : Bool

/-- All delegations. -/
structure DelegationState where
  delegations : Store Address VoteDelegation
  delegators : List Address

/-- All proposals. -/
structure ProposalsState where
  proposals : Store Nat Proposal
  proposalIds : List Nat
  nextProposalId : Nat

def emptyProposalsState : ProposalsState := ⟨∅, [], 1⟩

def EXECUTION_WINDOW : Nat := 7 * 24 * 60 * 60
def BPS_DENOMINATOR : Int := 10000
def MAX_PARAMETER_VALUE : Int := 1000000000000000000
def MAX_ACTION_STRING_LEN : Nat := 256

/-- `proposal_deposit::DepositConfig`. -/
structure DepositConfig where
  amount : Int
  minParticipationBps : Nat

def DepositConfig.defaultConfig : DepositConfig := ⟨1000, 500⟩

/-! ## Reputation -/

/-- The tiers of a reputation. -/
inductive ReputationTier where
  | bronze
  | silver
  | gold
  | platinum

/-- How long nobody has looked after a parameter. -/
inductive StalenessLevel where
  | auto
  | active
  | aging
  | stale
  | critical

/-- How reputations are kept. -/
structure ReputationConfig where
  decayEnabled : Bool
  stalePenaltyEnabled : Bool
  defaultTier : ReputationTier

def ReputationConfig.defaultConfig : ReputationConfig := ⟨true, true, .bronze⟩

/-- What a user has taken part in. -/
structure ParticipationHistory where
  proposalsCreated : Nat
  proposalsSucceeded : Nat
  votesCast : Nat
  votesAlignedWithOutcome : Nat
  committeeMemberships : Nat
  committeeDecisionsApproved : Nat
  delegationsReceived : Nat
  totalTokensDelegated : Int

/-- The badges a participant can earn. -/
inductive Badge where
  | activeVoter (votes : Nat)
  | proposalAuthor (successfulProposals : Nat)
  | committeeMember (name : Bytes)
  | earlyAdopter
  | topDelegator
  | consistentParticipant (months : Nat)
  deriving DecidableEq

/-- The reputation of a user. -/
structure GovernanceReputation where
  user : Address
  reputationScore : Nat
  participationHistory : ParticipationHistory
  badges : List Badge
  lastActivity : Nat
  decayRate : Nat
  tier : ReputationTier
  graceOverride : Nat
  stalenessOverride : StalenessLevel

/-- All reputations. -/
structure ReputationState where
  reputations : Store Address GovernanceReputation
  users : List Address

/-! ## Timelock -/

/-- The actions of the governance multi-sig. -/
inductive ActionType where
  | treasurySpend
  | parameterChange
  | contractUpgrade
  | emergencyPause
  | custom
  deriving DecidableEq

/-- An action that waits for its delay. -/
structure QueuedAction where
  id : Nat
  actionType : ActionType
  proposalId : Nat
  executionPayload : Bytes
  queuedAt : Nat
  executionAvailable : Nat
  executed : Bool
  cancelled : Bool

/-- The queue, and the delays by kind of action. -/
structure Timelock where
  queuedActions : List QueuedAction
  delayConfig : Store ActionType Nat
  minDelay : Nat
  maxDelay : Nat
  guardian : Address
  nextActionId : Nat

/-- An action of the administrator that was announced. -/
structure AdminTimelockEntry where
  id : Nat
  actionType : Symbol
  caller : Address
  queuedAt : Nat
  executionAvailable : Nat
  executed : Bool
  cancelled : Bool

def STUCK_GRACE_PERIOD : Nat := 86400
def ADMIN_ACTION_DELAY : Nat := 2 * 86400

/-- `shadow_mode::ShadowModeState`. -/
structure ShadowModeState where
  trialEndsAt : Nat
  newWasmHash : Bytes
  promoted : Bool

/-! ## Storage -/

/-- Who governs the contract. -/
structure CoreStorage where
  initialized : Bool
  admin : Option Address
  pendingAdmin : Option Address
  guardian : Option Address
  enforceAdminTimelock : Bool
  paused : Bool
  treasuryAddress : Option Address

/-- The governance token: who holds it, and what is still to be distributed. -/
structure TokenStorage where
  metadata : Option TokenMetadata
  balances : Store Address Int
  stakedBalances : Store Address Int
  holders : List Address
  pendingRewards : Store Address Int
  vestingSchedules : Store Address VestingSchedule
  distribution : Option DistributionState
  voteLocks : Store Address Nat

/-- What is configured. -/
structure ConfigStorage where
  governanceConfig : GovernanceConfig
  categoryThresholds : Store ProposalCategory CategoryThreshold
  depositConfig : DepositConfig
  reputationConfig : ReputationConfig

/-- The proposals with the snapshots they vote by. -/
structure ProposalStorage where
  state : ProposalsState
  voteSnapshots : Store Nat (Store Address Int)

/-- What an executed proposal may set. -/
structure ParameterStorage where
  parameters : Store Bytes Int
  features : Store Bytes Bool
  upgrades : Store Bytes Bytes

/-- The entries of reputations. -/
structure ReputationStorage where
  state : ReputationState
  voteRecords : Store (Address × Nat) VoteType

/-- The entries of both queues. -/
structure TimelockStorage where
  timelock : Option Timelock
  adminPendingActions : List AdminTimelockEntry

/-- The storage of the contract. -/
structure Storage where
  core : CoreStorage
  token : TokenStorage
  config : ConfigStorage
  proposal : ProposalStorage
  delegation : DelegationState
  parameter : ParameterStorage
  reputation : ReputationStorage
  timelock : TimelockStorage
  capability : CapabilityStorage
  treasury : Treasury
  committees : CommitteesState
  shadow : Option ShadowModeState
  /-- `DepositKey::LockedDeposit`: the proposer whose deposit is locked for a proposal. -/
  lockedDeposit : Store Nat Address

/-- A contract that was deployed and not yet initialized. -/
def Storage.deployed : Storage where
  core := ⟨false, none, none, none, false, false, none⟩
  token := ⟨none, ∅, ∅, [], ∅, ∅, none, ∅⟩
  config := ⟨defaultGovernanceConfig, ∅, .defaultConfig, .defaultConfig⟩
  proposal := ⟨emptyProposalsState, ∅⟩
  delegation := ⟨∅, []⟩
  parameter := ⟨∅, ∅, ∅⟩
  reputation := ⟨⟨∅, []⟩, ∅⟩
  timelock := ⟨none, []⟩
  capability := .empty
  treasury := .empty
  committees := Committees.emptyCommitteesState
  shadow := none
  lockedDeposit := ∅

/-! ## The world of a call -/

/-- What happened to deposits and proposals: a deposit was debited, a deposit was credited when it was
settled, and the action of a proposal was applied, with the status and the deadline that the proposal
had and the time. -/
inductive LogEntry where
  | depositLocked (proposalId : Nat) (proposer : Address) (amount : Int)
  | depositCredited (proposalId : Nat) (recipient : Address) (amount : Int)
  | applied (proposalId : Nat) (status : ProposalStatus) (deadline now : Nat)

/-- The log has its newest entry first; `held` has the amounts behind the locked deposits. -/
structure World where
  ledger : Ledger
  store : Storage
  held : Store Nat Int
  log : List LogEntry

/-- A computation of the contract. -/
abbrev G := Tx World (Fault GovernanceError)

section Primitives

variable {α : Type}

def load (f : Storage → α) : G α := Tx.gets fun w => f w.store

def save (f : Storage → Storage) : G Unit := Tx.modify fun w => { w with store := f w.store }

/-- `env.ledger().timestamp()`. -/
def timestamp : G Nat := Tx.gets fun w => w.ledger.timestamp

def record (entry : LogEntry) : G Unit := Tx.modify fun w => { w with log := entry :: w.log }

/-- A result that was computed without the storage. -/
def lift (r : Res α) : G α := Tx.ofExcept r

section Run

variable {w w' : World} {a : α} {u : Unit} {n : Nat} {e : Fault GovernanceError}

@[simp] theorem load_ok {f : Storage → α} : (load f : G α) w = (.ok a, w') ↔ f w.store = a ∧ w = w' := gets_ok

@[simp] theorem load_error {f : Storage → α} : ¬ (load f : G α) w = (.error e, w') := gets_error

@[simp] theorem save_ok {f : Storage → Storage} :
    (save f : G Unit) w = (.ok u, w') ↔ { w with store := f w.store } = w' := modify_ok

@[simp] theorem save_error {f : Storage → Storage} : ¬ (save f : G Unit) w = (.error e, w') := modify_error

@[simp] theorem timestamp_ok : (timestamp : G Nat) w = (.ok n, w') ↔ w.ledger.timestamp = n ∧ w = w' := gets_ok

@[simp] theorem timestamp_error : ¬ (timestamp : G Nat) w = (.error e, w') := gets_error

@[simp] theorem record_ok {entry : LogEntry} :
    (record entry : G Unit) w = (.ok u, w') ↔ { w with log := entry :: w.log } = w' := modify_ok

@[simp] theorem record_error {entry : LogEntry} : ¬ (record entry : G Unit) w = (.error e, w') := modify_error

@[simp] theorem lift_ok {r : Res α} : (lift r : G α) w = (.ok a, w') ↔ r = .ok a ∧ w = w' := ofExcept_ok

@[simp] theorem lift_error {r : Res α} : (lift r : G α) w = (.error e, w') ↔ r = .error e ∧ w = w' := ofExcept_error

/-! A sequence that starts with a primitive. -/

section Peel

variable {β : Type} {b : β}

theorem bind_load_ok {f : Storage → α} {k : α → G β} :
    (load f >>= k) w = (.ok b, w') ↔ k (f w.store) w = (.ok b, w') := Iff.rfl

theorem bind_save_ok {f : Storage → Storage} {k : Unit → G β} :
    (save f >>= k) w = (.ok b, w') ↔ k () { w with store := f w.store } = (.ok b, w') := Iff.rfl

end Peel

end Run

end Primitives

end CallStake.Governance
