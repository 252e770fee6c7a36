import CallStake.Governance.Voting

/-!
# The end of a proposal (`proposals`)

How a proposal is decided, how its action is applied, and the ways in which it ends otherwise.

* `finalizeProposal` decides, applies the action at once when there is no delay, and settles the
  deposit. What the execution and the settlement return is dropped, their writes are kept.
* `withdrawProposal` refunds the deposit in its own way; `cancelProposal`, `reclaimExpiredProposal`
  and `cleanupProposals` leave it.
-/

namespace CallStake.Governance

open Tx

/-! ## Configuration -/

namespace Proposals

def configureGovernance (config : GovernanceConfig) : G GovernanceConfig := do
  failIf (config.minProposalThreshold ≤ 0 ∨ config.votingPeriod = 0 ∨
    10000 < config.quorumThreshold ∨ 10000 < config.approvalThreshold) (err .invalidGovernanceConfig)
  save fun s => { s with config.governanceConfig := config }
  return config

def setCategoryThresholds (auth : Auth) (admin : Address) (category : ProposalCategory)
    (threshold : CategoryThreshold) : G Unit := do
  requireAdmin auth admin
  failIf (10000 < threshold.quorumBps ∨ 10000 < threshold.supermajorityBps)
    (err .invalidGovernanceConfig)
  save fun s => { s with
    config.categoryThresholds := s.config.categoryThresholds.insert category threshold }

end Proposals

def configureGovernance (auth : Auth) (admin : Address) (config : GovernanceConfig) :
    G GovernanceConfig := do
  requireInitialized
  requireCapability auth admin .parameterChange
  requireNoTimelockBypass
  Proposals.configureGovernance config

def setCategoryThresholds (auth : Auth) (admin : Address) (category : ProposalCategory)
    (threshold : CategoryThreshold) : G Unit := do
  requireInitialized
  requireCapability auth admin .parameterChange
  requireNoTimelockBypass
  Proposals.setCategoryThresholds auth admin category threshold

/-- The quorum and the approval threshold of a category. -/
def resolveCategoryThresholds (config : ConfigStorage) (category : ProposalCategory) : Nat × Nat :=
  let global := config.governanceConfig
  match config.categoryThresholds.lookup category with
  | some t =>
    (if 0 < t.quorumBps then t.quorumBps else global.quorumThreshold,
      if 0 < t.supermajorityBps then t.supermajorityBps else global.approvalThreshold)
  | none => (global.quorumThreshold, global.approvalThreshold)

/-! ## Execution -/

/-- A spend that was voted: the treasury is debited, and the recipient gets governance tokens. -/
def spendTreasury (recipient : Address) (amount : Int) (asset : Asset) : G Unit := do
  let treasury ← load (·.treasury)
  failIf (treasury.balanceOf asset < amount) (err .insufficientBalance)
  let difference ← lift (checkedSubR (treasury.balanceOf asset) amount)
  save fun s => { s with treasury.assets := treasury.assets.insert asset difference }
  addBalance recipient amount

def performAction : ProposalType → G Unit
  | .parameterChange parameter _ proposed => save fun s => { s with
      parameter.parameters := s.parameter.parameters.insert parameter proposed }
  | .treasurySpend recipient amount asset _ => spendTreasury recipient amount asset
  | .featureToggle feature enabled => save fun s => { s with
      parameter.features := s.parameter.features.insert feature enabled }
  | .contractUpgrade contractName newHash => save fun s => { s with
      parameter.upgrades := s.parameter.upgrades.insert contractName newHash }
  | .signalProposal _ => pure ()
  | .custom _ => pure ()

/-- The effect of a proposal. It looks neither at the status nor at the time; `Proposals.executeProposal` does
before. -/
def executeProposalAction (proposal : Proposal) : G Unit := do
  performAction proposal.proposalType
  let now ← timestamp
  record (.applied proposal.id proposal.status proposal.executionDeadline now)

/-- `proposal` after it was executed at `now`. -/
def Proposal.markExecuted (proposal : Proposal) (now : Nat) : Proposal :=
  { proposal with status := .executed, executedAt := some now }

namespace Proposals

def executeProposal (auth : Auth) (proposalId : Nat) (executor : Address) : G ProposalStatus := do
  requireAuth auth executor
  let proposal ← getProposal proposalId
  failIf (proposal.status ≠ .succeeded) (err .proposalNotApproved)
  let config ← load (·.config.governanceConfig)
  let now ← timestamp
  failIf (now < u64Add proposal.votingEnds config.executionDelay) (err .invalidDuration)
  failIf (proposal.executionDeadline < now) (err .proposalExpired)
  executeProposalAction proposal
  putProposal (proposal.markExecuted now)
  return .executed

def executeProposalActionById (proposalId : Nat) : G Unit := do
  let proposal ← getProposal proposalId
  executeProposalAction proposal

def markProposalExecuted (proposalId : Nat) : G Unit := do
  let proposal ← getProposal proposalId
  let now ← timestamp
  putProposal (proposal.markExecuted now)

end Proposals

def executeProposal (auth : Auth) (proposalId : Nat) (executor : Address) : G ProposalStatus := do
  requireInitialized
  requireNotPaused
  Proposals.executeProposal auth proposalId executor

/-! ## Finalization -/

/-- `votes_for + votes_against + votes_abstain`. -/
def Proposal.totalVotes (p : Proposal) : Int := saturatingAdd (saturatingAdd p.votesFor p.votesAgainst) p.votesAbstain

/-- The supply that a quorum is a part of. -/
def referenceSupply (proposal : Proposal) : G Int :=
  if proposal.useQuadraticVoting = true ∧ 0 < proposal.quadraticTotalSupply then
    pure proposal.quadraticTotalSupply
  else do
    let ts ← getTotalSupply
    failIf (ts ≤ 0) (err .invalidSupply)
    return ts

/-- The outcome of a vote. -/
def outcome (proposal : Proposal) (supply : Int) (quorumBps approvalBps : Nat) : ProposalStatus :=
  let castVotes := saturatingAdd proposal.votesFor proposal.votesAgainst
  if saturatingMul supply quorumBps ≤ saturatingMul proposal.totalVotes BPS_DENOMINATOR ∧
      0 < castVotes ∧
      saturatingMul castVotes approvalBps ≤ saturatingMul proposal.votesFor BPS_DENOMINATOR then
    .succeeded
  else .failed

namespace Proposals

def finalizeProposal (auth : Auth) (proposalId : Nat) : G ProposalStatus := do
  let proposal ← getProposal proposalId
  let now ← timestamp
  failIf (now < proposal.votingEnds) (err .invalidDuration)
  failIf (proposal.status ≠ .pending ∧ proposal.status ≠ .active) (err .proposalNotActive)
  let config ← load (·.config)
  let (quorumBps, approvalBps) := resolveCategoryThresholds config proposal.category
  let supply ← referenceSupply proposal
  let status := outcome proposal supply quorumBps approvalBps
  putProposal { proposal with status }
  if status = .succeeded ∧ config.governanceConfig.executionDelay = 0 then do
    let _ ← Tx.attempt (executeProposal auth proposalId proposal.proposer)
  else pure ()
  return status

end Proposals

def finalizeProposal (auth : Auth) (proposalId : Nat) : G ProposalStatus := do
  requireInitialized
  requireNotPaused
  let status ← Proposals.finalizeProposal auth proposalId
  let _ ← Tx.attempt (Reputation.recordProposalOutcome proposalId)
  let proposal ← load (·.proposal.state.proposals.lookup proposalId)
  let proposal ← Tx.ofOption proposal .panic
  let totalSupply ← load fun s => (s.token.metadata.map (·.totalSupply)).getD 0
  let treasury ← load fun s => s.core.treasuryAddress.getD proposal.proposer
  let _ ← Tx.attempt (settleProposalDeposit proposalId proposal.totalVotes totalSupply treasury)
  return status

/-! ## Other ends -/

namespace Proposals

def cancelProposal (auth : Auth) (proposalId : Nat) (canceller : Address) : G ProposalStatus := do
  requireAuth auth canceller
  let proposal ← getProposal proposalId
  let admin ← storedAdmin
  let guardian ← load (·.core.guardian)
  failIf (canceller ≠ proposal.proposer ∧ canceller ≠ admin ∧ guardian ≠ some canceller)
    (err .unauthorized)
  failIf (proposal.status = .executed) (err .invalidCommitteeAction)
  putProposal { proposal with status := .cancelled }
  return .cancelled

def withdrawProposal (auth : Auth) (proposalId : Nat) (proposer : Address) : G ProposalStatus := do
  requireAuth auth proposer
  let proposal ← getProposal proposalId
  failIf (proposer ≠ proposal.proposer) (err .unauthorized)
  failIf (proposal.status = .withdrawn) (err .proposalAlreadyWithdrawn)
  failIf (proposal.status ≠ .pending) (err .proposalNotActive)
  putProposal { proposal with status := .withdrawn }
  let config ← load (·.config.depositConfig)
  let locked ← load (·.lockedDeposit.lookup proposalId)
  if 0 < config.amount ∧ locked = some proposer then do
    let _ ← Tx.attempt (creditDeposit proposalId proposer config.amount)
    removeLock proposalId
  else pure ()
  return .withdrawn

def reclaimExpiredProposal (auth : Auth) (proposalId : Nat) (caller : Address) : G Unit := do
  requireAuth auth caller
  let proposal ← getProposal proposalId
  failIf (proposal.status ≠ .succeeded ∧ proposal.status ≠ .expired) (err .proposalNotApproved)
  let now ← timestamp
  failIf (now ≤ proposal.executionDeadline) (err .invalidDuration)
  save fun s => { s with
    proposal.state.proposals := s.proposal.state.proposals.erase proposalId
    proposal.state.proposalIds := s.proposal.state.proposalIds.erase proposalId }

def effectiveStatus (now : Nat) (proposal : Proposal) : ProposalStatus :=
  if proposal.status = .succeeded ∧ proposal.executionDeadline < now then .expired
  else proposal.status

end Proposals

/-- Nothing happens any more to a proposal of this status. -/
def ProposalStatus.terminal : ProposalStatus → Bool
  | .failed | .executed | .cancelled | .expired | .withdrawn => true
  | .pending | .active | .succeeded => false

namespace Proposals

/-- Removes the terminal proposals of a list, at most `limit` of them; returns what is left of the
proposals and of the list, and how many were removed. -/
def cleanupFrom (now : Nat) : Nat → Store Nat Proposal → List Nat →
    Res (Store Nat Proposal × List Nat × Nat)
  | 0, proposals, ids => .ok (proposals, ids, 0)
  | _ + 1, proposals, [] => .ok (proposals, [], 0)
  | limit + 1, proposals, id :: ids => do
    let proposal ← Res.ofOption (proposals.lookup id) .proposalNotFound
    if (effectiveStatus now proposal).terminal = true then do
      let (proposals, ids, removed) ← cleanupFrom now limit (proposals.erase id) ids
      return (proposals, ids, removed + 1)
    else do
      let (proposals, ids, removed) ← cleanupFrom now (limit + 1) proposals ids
      return (proposals, id :: ids, removed)

def cleanupTerminalProposals (cursor limit : Nat) : G Nat := do
  failIf (limit = 0 ∨ 50 < limit) (err .invalidAmount)
  let state ← load (·.proposal.state)
  let now ← timestamp
  let (proposals, ids, removed) ←
    lift (cleanupFrom now limit state.proposals (state.proposalIds.drop cursor))
  save fun s => { s with
    proposal.state.proposals := proposals
    proposal.state.proposalIds := state.proposalIds.take cursor ++ ids }
  return removed

end Proposals

def cancelProposal (auth : Auth) (proposalId : Nat) (canceller : Address) : G ProposalStatus := do
  requireInitialized
  Proposals.cancelProposal auth proposalId canceller

def withdrawProposal (auth : Auth) (proposalId : Nat) (proposer : Address) : G ProposalStatus := do
  requireInitialized
  requireNotPaused
  Proposals.withdrawProposal auth proposalId proposer

def reclaimExpiredProposal (auth : Auth) (proposalId : Nat) (caller : Address) : G Unit := do
  requireInitialized
  requireNotPaused
  Proposals.reclaimExpiredProposal auth proposalId caller

def cleanupProposals (cursor limit : Nat) : G Nat := do
  requireInitialized
  Proposals.cleanupTerminalProposals cursor limit

end CallStake.Governance
