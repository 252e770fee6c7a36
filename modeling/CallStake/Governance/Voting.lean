import CallStake.Governance.Reputation
import CallStake.Governance.Token

/-!
# Voting (`proposals`, `voting`, `proposal_deposit`)

From the power of a holder to the tally of a proposal.

* `Proposals.createProposal`: the powers of all holders are kept for the votes on the proposal
  (`takeSnapshots`).
* `castVote` counts the power that was kept, or its square root; `castReputationWeightedVote` counts
  the power that was kept times the reputation, also where votes count by their square root.
* `lockProposalDeposit`, `settleProposalDeposit`: the lock has no amount; the settlement reads the
  amount from the present configuration.
-/

namespace CallStake.Governance

open Tx Res

/-! ## Delegation -/

/-- The delegation of `user`, if it is in force. -/
def DelegationState.activeOf (d : DelegationState) (user : Address) : Option VoteDelegation :=
  (d.delegations.lookup user).filter (·.active)

/-- What the delegators gave to `user`. -/
def delegatedTo (d : DelegationState) (user : Address) : Int :=
  d.delegators.foldl (fun delegated delegator =>
    match d.delegations.lookup delegator with
    | some v =>
      if v.active = true ∧ v.delegate = user then saturatingAdd delegated v.delegatedPower
      else delegated
    | none => delegated) 0

/-- The own stake, unless it is delegated, and the stakes delegated to the holder, as large as they were when
they were delegated. -/
def getEffectiveVotingPower (s : Storage) (user : Address) : Int :=
  let own := if (s.delegation.activeOf user).isSome then 0 else stakedOf s.token user
  saturatingAdd own (delegatedTo s.delegation user)

def delegateVotingPower (auth : Auth) (delegator delegate : Address) : G Unit := do
  requireInitialized
  requireAuth auth delegator
  failIf (delegator = delegate) (err .invalidProposal)
  let state ← load (·.delegation)
  failIf ((state.activeOf delegator).isSome = true) (err .invalidCommitteeAction)
  let power ← load fun s => stakedOf s.token delegator
  failIf (power ≤ 0) (err .noVotingPower)
  save fun s => { s with
    delegation.delegations := state.delegations.insert delegator
      { delegator, delegate, delegatedPower := power, active := true }
    delegation.delegators :=
      if delegator ∈ state.delegators then state.delegators else state.delegators ++ [delegator] }

def undelegateVotingPower (auth : Auth) (delegator : Address) : G Unit := do
  requireInitialized
  requireAuth auth delegator
  let state ← load (·.delegation)
  let d ← Tx.ofOption (state.delegations.lookup delegator) (err .crossCommitteeRequestNotFound)
  save fun s => { s with
    delegation.delegations := state.delegations.insert delegator { d with active := false } }

/-! ## Deposits (`proposal_deposit`) -/

/-- The amount behind the lock of a proposal, which the contract does not keep. -/
def noteHeld (proposalId : Nat) (amount : Int) : G Unit :=
  Tx.modify fun w => { w with held := w.held.insert proposalId amount }

def lockProposalDeposit (proposalId : Nat) (proposer : Address) : G Unit := do
  let config ← load (·.config.depositConfig)
  if config.amount = 0 then pure ()
  else do
    subtractBalance proposer config.amount
    save fun s => { s with lockedDeposit := s.lockedDeposit.insert proposalId proposer }
    noteHeld proposalId config.amount
    record (.depositLocked proposalId proposer config.amount)

/-- A deposit is paid out. -/
def creditDeposit (proposalId : Nat) (recipient : Address) (amount : Int) : G Unit := do
  addBalance recipient amount
  record (.depositCredited proposalId recipient amount)

/-- The record of the lock is removed. -/
def removeLock (proposalId : Nat) : G Unit :=
  Tx.modify fun w => { w with
    store.lockedDeposit := w.store.lockedDeposit.erase proposalId
    held := w.held.erase proposalId }

/-- Whether a settlement refunds. -/
def thresholdMet (config : DepositConfig) (totalVotes totalSupply : Int) : Bool :=
  decide (0 < totalSupply ∧ config.minParticipationBps ≤ (saturatingMul totalVotes 10000).tdiv totalSupply)

def settleProposalDeposit (proposalId : Nat) (totalVotes totalSupply : Int) (treasury : Address) :
    G Unit := do
  let locked ← load (·.lockedDeposit.lookup proposalId)
  match locked with
  | none => pure ()
  | some proposer => do
    let config ← load (·.config.depositConfig)
    let recipient := if thresholdMet config totalVotes totalSupply = true then proposer else treasury
    creditDeposit proposalId recipient config.amount
    removeLock proposalId

def setDepositConfig (auth : Auth) (admin : Address) (config : DepositConfig) : G Unit := do
  requireInitialized
  requireCapability auth admin .parameterChange
  requireAdmin auth admin
  failIf (config.amount ≤ 0 ∨ 10000 < config.minParticipationBps) (err .invalidGovernanceConfig)
  save fun s => { s with config.depositConfig := config }

/-! ## Proposals -/

namespace Proposals

/-- `is_within_parameter_bounds`. -/
def isWithinParameterBounds (value : Int) : Prop :=
  -MAX_PARAMETER_VALUE ≤ value ∧ value ≤ MAX_PARAMETER_VALUE
  deriving Decidable

/-- A name or a text of a proposal: neither empty nor too long. -/
def requireText (text : Bytes) : Res Unit := do
  failIf (text = []) .invalidProposal
  failIf (sanitizeString text MAX_ACTION_STRING_LEN = false) .invalidProposal

def validateProposal (treasury : Treasury) : ProposalType → Res Unit
  | .parameterChange parameter current proposed => do
    requireText parameter
    failIf (¬ isWithinParameterBounds current ∨ ¬ isWithinParameterBounds proposed)
      .proposalParameterOutOfRange
    if 0 < current then do
      let delta ← checkedSubR proposed current
      let doubled ← checkedMulR (delta.natAbs : Int) 2
      failIf (current ≤ doubled) .invalidProposal
    else pure ()
  | .treasurySpend _ amount asset purpose => do
    failIf (sanitizeString purpose MAX_ACTION_STRING_LEN = false) .invalidProposal
    let bal := treasury.balanceOf asset
    failIf (amount ≤ 0 ∨ bal < amount ∨ bal < saturatingMul amount 10) .budgetExceeded
  | .featureToggle feature _ => requireText feature
  | .contractUpgrade name hash => do
    requireText name
    failIf (hash.length ≠ 32) .invalidProposal
    failIf (hash.all (· = 0) = true) .invalidProposal
  | .signalProposal text => requireText text
  | .custom _ => pure ()

def validateExecutionPayload (proposalType : ProposalType) (payload : Bytes) : Res Unit :=
  match proposalType with
  | .contractUpgrade .. => failIf (payload.length ≠ 32) .invalidProposal
  | .treasurySpend .. | .parameterChange .. =>
    failIf (payload ≠ [] ∧ payload.head? ≠ some 0x01) .invalidProposal
  | .custom _ => failIf (payload = []) .invalidProposal
  | _ => pure ()

/-- The powers of the holders that have some, and, where votes count by their square root, the sum
of the square roots. -/
def takeSnapshots (s : Storage) (useQuadraticVoting : Bool) : Store Address Int × Int :=
  s.token.holders.foldl (fun (snapshots, quadraticTotalSupply) h =>
    let p := getEffectiveVotingPower s h
    if 0 < p then
      (snapshots.insert h p,
        if useQuadraticVoting = true then saturatingAdd quadraticTotalSupply (isqrt p)
        else quadraticTotalSupply)
    else (snapshots, quadraticTotalSupply)) (∅, 0)

/-- The proposal that is stored at its creation. -/
def newProposal (s : Storage) (now : Nat) (proposer : Address) (proposalType : ProposalType)
    (title description executionPayload : Bytes) (category : ProposalCategory)
    (useQuadraticVoting : Bool) : Proposal :=
  let config := s.config.governanceConfig
  let votingStarts := u64Add now config.votingDelay
  let votingEnds := u64Add votingStarts config.votingPeriod
  { id := s.proposal.state.nextProposalId, proposer, proposalType, title, description,
    executionPayload, votingStarts, votingEnds
    votesFor := 0, votesAgainst := 0, votesAbstain := 0
    status := .pending, voters := ∅, voterList := [], executedAt := none
    discussionEndsAt := if 0 < config.discussionDuration then u64Add now config.discussionDuration else 0
    category, useQuadraticVoting
    quadraticTotalSupply := (takeSnapshots s useQuadraticVoting).2
    executionDeadline := u64Add votingEnds EXECUTION_WINDOW }

/-- `proposal` is stored under the next identifier. -/
def storeNew (proposal : Proposal) (snapshots : Store Address Int) (s : Storage) : Storage :=
  { s with
    proposal.voteSnapshots := s.proposal.voteSnapshots.insert proposal.id snapshots
    proposal.state.proposals := s.proposal.state.proposals.insert proposal.id proposal
    proposal.state.proposalIds := s.proposal.state.proposalIds ++ [proposal.id]
    proposal.state.nextProposalId := u64Add proposal.id 1 }

def createProposal (auth : Auth) (proposer : Address) (proposalType : ProposalType)
    (title description executionPayload : Bytes) (category : ProposalCategory)
    (useQuadraticVoting : Bool) : G Nat := do
  requireAuth auth proposer
  failIf (title = [] ∨ description = []) (err .invalidProposal)
  failIf (sanitizeString title 256 = false) (err .invalidProposal)
  failIf (sanitizeString description 4096 = false) (err .invalidProposal)
  let s ← load id
  failIf (getEffectiveVotingPower s proposer < s.config.governanceConfig.minProposalThreshold)
    (err .noVotingPower)
  lift (validateProposal s.treasury proposalType)
  lift (validateExecutionPayload proposalType executionPayload)
  let now ← timestamp
  let proposal := newProposal s now proposer proposalType title description executionPayload category
    useQuadraticVoting
  save (storeNew proposal (takeSnapshots s useQuadraticVoting).1)
  return proposal.id

def getProposal (proposalId : Nat) : G Proposal := do
  let proposal ← load (·.proposal.state.proposals.lookup proposalId)
  Tx.ofOption proposal (err .proposalNotFound)

def putProposal (proposal : Proposal) : G Unit := do
  let present ← load fun s => (s.proposal.state.proposals.lookup proposal.id).isSome
  failIf (present = false) (err .proposalNotFound)
  save fun s => { s with
    proposal.state.proposals := s.proposal.state.proposals.insert proposal.id proposal }

end Proposals

def createProposal (auth : Auth) (proposer : Address) (proposalType : ProposalType)
    (title description executionPayload : Bytes) (category : ProposalCategory)
    (useQuadraticVoting : Bool) : G Nat := do
  requireInitialized
  requireNotPaused
  let proposalId ← Proposals.createProposal auth proposer proposalType title description
    executionPayload category useQuadraticVoting
  lockProposalDeposit proposalId proposer
  let _ ← Tx.attempt (Reputation.recordProposalCreation proposer)
  return proposalId

/-! ## Votes -/

/-- `get_vote_snapshot`. -/
def getVoteSnapshot (s : Storage) (proposalId : Nat) (voter : Address) : Option Int :=
  (s.proposal.voteSnapshots.lookup proposalId).bind (·.lookup voter)

/-- The votes of a type. -/
def Proposal.tally (p : Proposal) : VoteType → Int
  | .inFavor => p.votesFor
  | .against => p.votesAgainst
  | .abstain => p.votesAbstain

def Proposal.setTally (p : Proposal) (sum : Int) : VoteType → Proposal
  | .inFavor => { p with votesFor := sum }
  | .against => { p with votesAgainst := sum }
  | .abstain => { p with votesAbstain := sum }

/-- The proposal with a vote recorded and the tally of its type set to `sum`. -/
def Proposal.addVote (p : Proposal) (vote : Vote) (sum : Int) : Proposal :=
  let voted : Proposal := { p with
    voters := p.voters.insert vote.voter vote
    voterList := p.voterList ++ [vote.voter]
    status := if p.status = .pending then .active else p.status }
  voted.setTally sum vote.voteType

section AddVote

variable (p : Proposal) (vote : Vote) (sum : Int)

@[simp] theorem Proposal.addVote_id : (p.addVote vote sum).id = p.id := by
  cases h : vote.voteType <;> simp [addVote, setTally, h]

@[simp] theorem Proposal.addVote_proposer : (p.addVote vote sum).proposer = p.proposer := by
  cases h : vote.voteType <;> simp [addVote, setTally, h]

@[simp] theorem Proposal.addVote_status :
    (p.addVote vote sum).status = if p.status = .pending then .active else p.status := by
  cases h : vote.voteType <;> simp [addVote, setTally, h]

@[simp] theorem Proposal.addVote_voters :
    (p.addVote vote sum).voters = p.voters.insert vote.voter vote := by
  cases h : vote.voteType <;> simp [addVote, setTally, h]

@[simp] theorem Proposal.addVote_voterList :
    (p.addVote vote sum).voterList = p.voterList ++ [vote.voter] := by
  cases h : vote.voteType <;> simp [addVote, setTally, h]

@[simp] theorem Proposal.addVote_useQuadraticVoting :
    (p.addVote vote sum).useQuadraticVoting = p.useQuadraticVoting := by
  cases h : vote.voteType <;> simp [addVote, setTally, h]

@[simp] theorem Proposal.addVote_quadraticTotalSupply :
    (p.addVote vote sum).quadraticTotalSupply = p.quadraticTotalSupply := by
  cases h : vote.voteType <;> simp [addVote, setTally, h]

theorem Proposal.addVote_tally (t : VoteType) :
    (p.addVote vote sum).tally t = if t = vote.voteType then sum else p.tally t := by
  cases h : vote.voteType <;> cases t <;> simp [addVote, setTally, tally, h]

end AddVote

/-- Whether `voter` may vote now, which both ways of voting ask. -/
def requireVotable (proposal : Proposal) (voter : Address) (now : Nat) : Res Unit := do
  failIf (0 < proposal.discussionEndsAt ∧ now < proposal.discussionEndsAt)
    .discussionPeriodActive
  failIf (now < proposal.votingStarts) .votingNotStarted
  failIf (proposal.votingEnds ≤ now) .votingEnded
  failIf (proposal.status ≠ .pending ∧ proposal.status ≠ .active) .proposalNotActive
  failIf ((proposal.voters.lookup voter).isSome = true) .alreadyVoted

theorem requireVotable_ok {p : Proposal} {voter : Address} {now : Nat} {u : Unit}
    (h : requireVotable p voter now = .ok u) :
    (p.status = .pending ∨ p.status = .active) ∧ p.voters.lookup voter = none := by
  simp [requireVotable] at h
  obtain ⟨-, -, -, hstatus, hnew⟩ := h
  by_cases hp : p.status = .pending
  · exact ⟨.inl hp, hnew⟩
  · exact ⟨.inr (hstatus hp), hnew⟩

/-- What a vote of raw power `rawPower` counts. -/
def votePower (proposal : Proposal) (rawPower : Int) : Res Int := do
  failIf (rawPower ≤ 0) .noVotingPower
  if proposal.useQuadraticVoting = true then do
    failIf (isqrt rawPower ≤ 0) .noVotingPower
    return isqrt rawPower
  else pure rawPower

namespace Proposals

def castVote (auth : Auth) (proposalId : Nat) (voter : Address) (voteType : VoteType) : G Unit := do
  requireAuth auth voter
  let proposal ← getProposal proposalId
  let now ← timestamp
  lift (requireVotable proposal voter now)
  let rawPower ← load fun s => (getVoteSnapshot s proposalId voter).getD 0
  let power ← lift (votePower proposal rawPower)
  let sum ← lift (checkedAddR (proposal.tally voteType) power)
  putProposal (proposal.addVote { voter, voteType, votingPower := power, timestamp := now } sum)

end Proposals

def castVote (auth : Auth) (proposalId : Nat) (voter : Address) (voteType : VoteType) : G Unit := do
  requireInitialized
  requireNotPaused
  Proposals.castVote auth proposalId voter voteType
  let _ ← Tx.attempt (Reputation.recordVote voter proposalId voteType)

/-- What a vote counts with its reputation. -/
def reputationPower (tokenPower : Int) (reputationScore : Nat) : Res Int := do
  failIf (tokenPower ≤ 0) .noVotingPower
  let product ← checkedMulR tokenPower (u32Add 10000 (reputationScore / 2) : Nat)
  return product.tdiv 10000

/-- The reputation is the one that is stored; the tally saturates. -/
def castReputationWeightedVote (auth : Auth) (proposalId : Nat) (voter : Address)
    (voteType : VoteType) : G Unit := do
  requireInitialized
  requireAuth auth voter
  let proposal ← Proposals.getProposal proposalId
  let now ← timestamp
  lift (requireVotable proposal voter now)
  let tokenPower ← load fun s => (getVoteSnapshot s proposalId voter).getD 0
  let reputationScore ← load fun s =>
    (Reputation.getGovernanceReputation s now voter).reputationScore
  let weighted ← lift (reputationPower tokenPower reputationScore)
  Proposals.putProposal (proposal.addVote
    { voter, voteType, votingPower := weighted, timestamp := now }
    (saturatingAdd (proposal.tally voteType) weighted))
  Reputation.recordVote voter proposalId voteType

end CallStake.Governance
