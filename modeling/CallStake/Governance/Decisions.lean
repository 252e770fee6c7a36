import CallStake.Governance.Types

/-!
# Decisions and elections of committees (`committees`)

A member proposes a decision, the members vote, and a decision that carries is executed by one of them. An
election replaces the members, also while decisions are open.

* `finalizeElection`: the ballots that are still valid are counted, and the best candidates take the seats.
* `World`, `Event`, `next`: runs of the entrypoints. Balances, budgets and stakes change in between by any
  other part of the contract (`outside`). The guards of the entrypoints (the contract is initialized, the
  caller is the administrator) are left out: they only refuse calls.
-/

namespace CallStake.Governance

open Res

namespace Committees

abbrev invalidElectionVote : GovernanceError := .invalidCommitteeAction

/-! ## Decisions -/

def ensureCommitteeActive (committee : Committee) (now : Nat) : Res Unit := do
  failIf (committee.active = false) .committeeInactive
  failIf (∃ termEnd ∈ committee.termEnd, termEnd ≤ now) .committeeTermEnded

/-- The decision that is stored when it is proposed. -/
def newDecision (decisionId : Nat) (proposal : Bytes) (action : CommitteeAction) (now : Nat) :
    CommitteeDecision :=
  { decisionId, proposal, votesFor := 0, votesAgainst := 0, votesAbstain := 0, status := .voting
    executedAt := none, proposedAt := now, action, votes := ∅ }

def CommitteesState.put (state : CommitteesState) (committeeId : Nat) (committee : Committee) :
    CommitteesState :=
  { state with committees := state.committees.insert committeeId committee }

def proposeDecision (state : CommitteesState) (committeeId : Nat) (proposer : Address) (proposal : Bytes)
    (action : CommitteeAction) (now : Nat) : Res (CommitteesState × CommitteeDecision) := do
  failIf (proposal = []) .invalidCommitteeAction
  let committee ← getCommittee state committeeId
  ensureCommitteeActive committee now
  failIf (proposer ∉ committee.members) .unauthorized
  let decision := newDecision state.nextDecisionId proposal action now
  let committee := { committee with
    decisions := committee.decisions ++ [decision]
    performanceMetrics.totalDecisions := u32Add committee.performanceMetrics.totalDecisions 1 }
  return ({ state.put committeeId committee with
    nextDecisionId := u64Add state.nextDecisionId 1 }, decision)

/-- `find_decision_index`, with the decision that is there. -/
def findDecision (decisions : List CommitteeDecision) (decisionId : Nat) :
    Res (Nat × CommitteeDecision) := do
  let index ← Res.ofOption (decisions.findIdx? (·.decisionId = decisionId)) .committeeDecisionNotFound
  let decision ← Res.ofOption decisions[index]? .committeeDecisionNotFound
  return (index, decision)

/-- The decision with one more vote in its counters. -/
def CommitteeDecision.count (decision : CommitteeDecision) (voter : Address) (vote : VoteType) :
    CommitteeDecision :=
  let decision := { decision with votes := decision.votes.insert voter vote }
  match vote with
  | .inFavor => { decision with votesFor := u32Add decision.votesFor 1 }
  | .against => { decision with votesAgainst := u32Add decision.votesAgainst 1 }
  | .abstain => { decision with votesAbstain := u32Add decision.votesAbstain 1 }

/-- The status after a vote in a committee of `size` members. -/
def CommitteeDecision.settle (decision : CommitteeDecision) (size : Nat) : CommitteeDecision :=
  let majority := size / 2 + 1
  let totalVotes := u32Add (u32Add decision.votesFor decision.votesAgainst) decision.votesAbstain
  if majority ≤ decision.votesFor then { decision with status := .approved }
  else if majority ≤ decision.votesAgainst then { decision with status := .rejected }
  else if totalVotes = size then
    { decision with
      status := if decision.votesAgainst < decision.votesFor then .approved else .rejected }
  else decision

/-- The counters of a decision are compared with the number of present members. -/
def voteOnDecision (state : CommitteesState) (committeeId decisionId : Nat) (voter : Address)
    (vote : VoteType) : Res (CommitteesState × CommitteeDecision) := do
  let committee ← getCommittee state committeeId
  failIf (voter ∉ committee.members) .unauthorized
  let (index, decision) ← findDecision committee.decisions decisionId
  failIf (decision.status ≠ .voting) .committeeDecisionNotOpen
  failIf ((decision.votes.lookup voter).isSome = true) .alreadyVoted
  let decision := (decision.count voter vote).settle committee.members.length
  return (state.put committeeId { committee with decisions := committee.decisions.set index decision }, decision)

/-! ## Authority -/

def REWARD_KEY : Bytes := "liquidity_reward_bps".toUTF8.toList
def THRESHOLD_KEY : Bytes := "min_claim_threshold".toUTF8.toList

/-- The change in percents. -/
def pctChange (current proposed : Int) : Res Nat := do
  failIf (current ≤ 0) .invalidCommitteeAction
  let diff ← if current ≤ proposed then checkedSubR proposed current else checkedSubR current proposed
  let scaled ← checkedMulR diff 100
  let pct ← checkedDivR scaled current
  failIf (pct < 0 ∨ (u32Max : Int) < pct) .arithmeticOverflow
  return pct.toNat

/-- A setting that changes is listed, and does not change by more than the authority allows. -/
def settingAllowed (parameters : List Bytes) (key : Bytes) (maxChangePct : Nat) (current proposed : Int) :
    Res Unit :=
  if proposed = current then .ok ()
  else do
    failIf (key ∉ parameters) .noCommitteeAuthority
    let pct ← pctChange current proposed
    failIf (maxChangePct < pct) .noCommitteeAuthority

def validateRewardConfigAuthority (distribution : Option DistributionState) (parameters : List Bytes)
    (maxChangePct rewardBps : Nat) (minClaimThreshold : Int) : Res Unit := do
  let state ← Res.ofOption distribution .notInitialized
  settingAllowed parameters REWARD_KEY maxChangePct state.liquidityRewardBps rewardBps
  settingAllowed parameters THRESHOLD_KEY maxChangePct state.minClaimThreshold minClaimThreshold
  failIf (rewardBps = state.liquidityRewardBps ∧ minClaimThreshold = state.minClaimThreshold)
    .invalidCommitteeAction

/-- The first authority that covers the action decides; for reward settings, the first authority over
parameters does, also when it does not cover them. -/
def verifyCommitteeAuthority (distribution : Option DistributionState) (action : CommitteeAction) :
    List Authority → Res Unit
  | [] => .error (err .noCommitteeAuthority)
  | authority :: rest =>
    match authority, action with
    | .treasurySpend maxAmount category, .treasurySpend _ amount _ category' _ =>
      if amount ≤ maxAmount ∧ category' = category then .ok ()
      else verifyCommitteeAuthority distribution action rest
    | .grantApproval maxGrantSize, .grantApproval _ amount _ _ _ =>
      if amount ≤ maxGrantSize then .ok () else verifyCommitteeAuthority distribution action rest
    | .parameterAdjustment parameters maxChangePct, .rewardConfigUpdate rewardBps minClaimThreshold =>
      validateRewardConfigAuthority distribution parameters maxChangePct rewardBps minClaimThreshold
    | .emergencyAction actionTypes, .emergencyAction actionType _ =>
      if actionType ∈ actionTypes then .ok () else verifyCommitteeAuthority distribution action rest
    | .veto proposalTypes, .veto proposalType _ =>
      if proposalType ∈ proposalTypes then .ok () else verifyCommitteeAuthority distribution action rest
    | _, _ => verifyCommitteeAuthority distribution action rest

/-! ## Execution -/

/-- What the actions of committees act on. -/
structure Books where
  treasury : Treasury
  distribution : Option DistributionState

def updateRewardConfig (distribution : Option DistributionState) (rewardBps : Nat)
    (minClaimThreshold : Int) : Res DistributionState := do
  failIf (rewardBps = 0 ∨ minClaimThreshold ≤ 0) .invalidRewardConfig
  let state ← Res.ofOption distribution .notInitialized
  return { state with liquidityRewardBps := rewardBps, minClaimThreshold }

def executeDecisionAction (books : Books) (executedAt : Nat) : CommitteeAction → Res Books
  | .treasurySpend recipient amount asset category purpose
  | .grantApproval recipient amount asset category purpose => do
    let (treasury, _) ← books.treasury.executeSpend recipient amount asset category purpose none executedAt
    return { books with treasury }
  | .rewardConfigUpdate rewardBps minClaimThreshold => do
    let state ← updateRewardConfig books.distribution rewardBps minClaimThreshold
    return { books with distribution := some state }
  | .emergencyAction _ details => do
    failIf (details = []) .invalidCommitteeAction
    return books
  | .veto _ reason => do
    failIf (reason = []) .invalidCommitteeAction
    return books

def updateAvgDecisionTime (metrics : PerformanceMetrics) (decision : CommitteeDecision)
    (executedAt : Nat) : Res PerformanceMetrics :=
  let executionTime := executedAt - decision.proposedAt
  if metrics.decisionsExecuted = 0 then .ok { metrics with avgDecisionTime := executionTime }
  else do
    let priorCount := metrics.decisionsExecuted - 1
    let accumulated ← checkedMulR metrics.avgDecisionTime priorCount
    let updatedTotal ← checkedAddR accumulated executionTime
    let avg ← checkedDivR updatedTotal metrics.decisionsExecuted
    failIf (avg < 0 ∨ (u64Max : Int) < avg) .arithmeticOverflow
    return { metrics with avgDecisionTime := avg.toNat }

/-- The authorities of the committee cover the action, which acts on the treasury or on the reward settings
(`Books`). -/
def executeDecision (state : CommitteesState) (books : Books) (committeeId decisionId : Nat)
    (executor : Address) (now : Nat) : Res (CommitteesState × Books × CommitteeDecision) := do
  let committee ← getCommittee state committeeId
  ensureCommitteeActive committee now
  failIf (executor ≠ committee.chair ∧ executor ∉ committee.members) .unauthorized
  let (index, decision) ← findDecision committee.decisions decisionId
  failIf (decision.status ≠ .approved) .committeeDecisionNotOpen
  verifyCommitteeAuthority books.distribution decision.action committee.delegatedAuthorities
  let books ← executeDecisionAction books now decision.action
  let decision := { decision with status := .executed, executedAt := some now }
  let metrics ← updateAvgDecisionTime { committee.performanceMetrics with
    decisionsExecuted := u32Add committee.performanceMetrics.decisionsExecuted 1 } decision now
  return (state.put committeeId { committee with
      decisions := committee.decisions.set index decision, performanceMetrics := metrics },
    books, decision)

def APPROVAL_RATING_BPS : Nat := 10000

def setCommunityApprovalRating (state : CommitteesState) (committeeId rating : Nat) :
    Res (CommitteesState × Committee) := do
  failIf (APPROVAL_RATING_BPS < rating) .invalidApprovalRating
  let committee ← getCommittee state committeeId
  let committee := { committee with performanceMetrics.communityApprovalRating := rating }
  return (state.put committeeId committee, committee)

/-! ## Elections -/

def getElection (state : CommitteesState) (committeeId : Nat) : Res CommitteeElection :=
  Res.ofOption (state.elections.lookup committeeId) .committeeElectionNotFound

def CommitteesState.putElection (state : CommitteesState) (committeeId : Nat)
    (election : CommitteeElection) : CommitteesState :=
  { state with elections := state.elections.insert committeeId election }

def startElection (state : CommitteesState) (committeeId positionsAvailable durationDays
    minParticipation : Nat) (quorumStakeThreshold : Int) (now : Nat) :
    Res (CommitteesState × CommitteeElection) := do
  let committee ← getCommittee state committeeId
  ensureCommitteeActive committee now
  failIf (positionsAvailable < 3 ∨ committee.maxMembers < positionsAvailable ∨ durationDays = 0)
    .invalidCommitteeConfig
  failIf (quorumStakeThreshold < 0) .invalidCommitteeConfig
  failIf (∃ existing ∈ state.elections.lookup committeeId, now < existing.electionEnd)
    .invalidCommitteeConfig
  let election : CommitteeElection :=
    { committeeId, candidates := [], votes := ∅, electionStart := now
      electionEnd := u64Add now (durationDays * 86400), positionsAvailable, minParticipation
      quorumStakeThreshold }
  return (state.putElection committeeId election, election)

def nominateForCommittee (state : CommitteesState) (staked : Address → Int) (committeeId : Nat)
    (nominee nominator : Address) (now : Nat) : Res (CommitteesState × CommitteeElection) := do
  let election ← getElection state committeeId
  failIf (election.electionEnd ≤ now) .committeeElectionNotActive
  failIf (staked nominator ≤ 0) .unauthorized
  let election := if nominee ∈ election.candidates then election
    else { election with candidates := election.candidates ++ [nominee] }
  return (state.putElection committeeId election, election)

def voteInElection (state : CommitteesState) (staked : Address → Int) (committeeId : Nat)
    (voter candidate : Address) (now : Nat) : Res (CommitteesState × CommitteeElection) := do
  let election ← getElection state committeeId
  failIf (now < election.electionStart ∨ election.electionEnd ≤ now) .committeeElectionNotActive
  failIf (candidate ∉ election.candidates) invalidElectionVote
  failIf (staked voter ≤ 0) invalidElectionVote
  failIf ((election.votes.lookup voter).isSome = true) .alreadyVoted
  let election := { election with votes := election.votes.insert voter candidate }
  return (state.putElection committeeId election, election)

/-- The votes of an election, counted. -/
structure ElectionTally where
  candidateVotes : Store Address Int
  validVotes : Nat
  totalStakeWeight : Int
  rejectedVotes : Nat

/-- One ballot. It counts if its voter is still staked and its candidate is on the list. -/
def tallyBallot (election : CommitteeElection) (staked : Address → Int) (tally : ElectionTally)
    (voter candidate : Address) : Res ElectionTally :=
  let votingPower := staked voter
  if votingPower ≤ 0 ∨ candidate ∉ election.candidates then
    .ok { tally with rejectedVotes := u32Add tally.rejectedVotes 1 }
  else do
    let votes ← checkedAddR ((tally.candidateVotes.lookup candidate).getD 0) votingPower
    let totalStakeWeight ← checkedAddR tally.totalStakeWeight votingPower
    return { tally with
      candidateVotes := tally.candidateVotes.insert candidate votes
      validVotes := u32Add tally.validVotes 1
      totalStakeWeight }

def tallyElectionVotesWithValidation (election : CommitteeElection) (staked : Address → Int) :
    Res ElectionTally :=
  election.votes.entries.foldlM (fun tally e => tallyBallot election staked tally e.1 e.2) ⟨∅, 0, 0, 0⟩

/-- The first of the candidates with the most votes, less those who have a seat. -/
def bestCandidate (candidateVotes : Store Address Int) (winners : List Address)
    (candidates : List Address) : Option Address × Int :=
  candidates.foldl (fun best candidate =>
    if candidate ∈ winners then best
    else
      let votes := (candidateVotes.lookup candidate).getD 0
      if best.2 < votes then (some candidate, votes) else best) (none, i128Min)

/-- The best candidate takes a seat until no seat or no candidate is left. -/
def selectLoop (candidateVotes : Store Address Int) (candidates : List Address) :
    Nat → List Address → List Address
  | 0, winners => winners
  | seats + 1, winners =>
    match (bestCandidate candidateVotes winners candidates).1 with
    | some candidate => selectLoop candidateVotes candidates seats (winners ++ [candidate])
    | none => winners

def selectElectionWinners (election : CommitteeElection) (candidateVotes : Store Address Int) :
    List Address :=
  selectLoop candidateVotes election.candidates election.positionsAvailable []

/-- How an election ended. -/
inductive ElectionStatus where
  | succeeded
  | failedQuorumParticipation
  | failedQuorumStake
  | failedInsufficientWinners
  deriving DecidableEq

/-- How an election ended. -/
structure ElectionResult where
  status : ElectionStatus
  winners : List Address
  validVotes : Nat
  totalStakeWeight : Int
  rejectedVotes : Nat

def ElectionTally.result (tally : ElectionTally) (status : ElectionStatus) (winners : List Address) :
    ElectionResult :=
  ⟨status, winners, tally.validVotes, tally.totalStakeWeight, tally.rejectedVotes⟩

def finalizeElection (state : CommitteesState) (staked : Address → Int) (committeeId now : Nat) :
    Res (CommitteesState × ElectionResult) := do
  let election ← getElection state committeeId
  failIf (now < election.electionEnd) .committeeElectionNotActive
  let tally ← tallyElectionVotesWithValidation election staked
  let closed := { state with elections := state.elections.erase committeeId }
  if 0 < election.minParticipation ∧ tally.validVotes < election.minParticipation then
    return (closed, tally.result .failedQuorumParticipation [])
  else if 0 < election.quorumStakeThreshold ∧ tally.totalStakeWeight < election.quorumStakeThreshold then
    return (closed, tally.result .failedQuorumStake [])
  else
    let winners := selectElectionWinners election tally.candidateVotes
    match winners with
    | chair :: _ :: _ :: _ => do
      let committee ← getCommittee state committeeId
      return (closed.put committeeId { committee with members := winners, chair }, tally.result .succeeded winners)
    | _ => return (closed, tally.result .failedInsufficientWinners [])

/-! ## Runs -/

/-- `executed` lists the decisions that were executed, by committee; it is not stored by the contract. -/
structure World where
  now : Nat
  committees : CommitteesState
  books : Books
  staked : Address → Int
  executed : List (Nat × Nat)

def World.deployed (now : Nat) (books : Books) : World := ⟨now, emptyCommitteesState, books, fun _ => 0, []⟩

abbrev C (α : Type) := Tx World (Fault GovernanceError) α

/-- An operation on the registry of committees. -/
def registry {α : Type} (f : World → Res (CommitteesState × α)) : C Unit := do
  let r ← Tx.gets f
  let (committees, _) ← Tx.ofExcept r
  Tx.modify fun w => { w with committees }

/-- The entrypoints with their arguments. -/
inductive Call where
  | createCommittee (name description : Bytes) (initialMembers : List Address) (chair : Address)
      (maxMembers : Nat) (authorities : List Authority) (termDurationDays : Option Nat)
  | proposeDecision (committeeId : Nat) (proposer : Address) (proposal : Bytes) (action : CommitteeAction)
  | voteOnDecision (committeeId decisionId : Nat) (voter : Address) (vote : VoteType)
  | executeDecision (committeeId decisionId : Nat) (executor : Address)
  | startElection (committeeId positionsAvailable durationDays minParticipation : Nat)
      (quorumStakeThreshold : Int)
  | nominateForCommittee (committeeId : Nat) (nominee nominator : Address)
  | voteInElection (committeeId : Nat) (voter candidate : Address)
  | finalizeElection (committeeId : Nat)
  | setCommunityApprovalRating (committeeId rating : Nat)
  | overrideDecision (committeeId decisionId : Nat)
  | dissolveCommittee (committeeId : Nat)

def executeCommitteeDecision (auth : Auth) (committeeId decisionId : Nat) (executor : Address) :
    C Unit := do
  requireAuth auth executor
  let w ← Tx.gets id
  let (committees, books, _) ← Tx.ofExcept
    (executeDecision w.committees w.books committeeId decisionId executor w.now)
  Tx.modify fun w => { w with committees, books }
  Tx.modify fun w => { w with executed := (committeeId, decisionId) :: w.executed }

def invoke (auth : Auth) : Call → C Unit
  | .createCommittee name description initialMembers chair maxMembers authorities termDurationDays =>
    registry fun w => createCommittee w.committees name description initialMembers chair maxMembers
      authorities termDurationDays w.now
  | .proposeDecision committeeId proposer proposal action => do
    requireAuth auth proposer
    registry fun w => proposeDecision w.committees committeeId proposer proposal action w.now
  | .voteOnDecision committeeId decisionId voter vote => do
    requireAuth auth voter
    registry fun w => voteOnDecision w.committees committeeId decisionId voter vote
  | .executeDecision committeeId decisionId executor =>
    executeCommitteeDecision auth committeeId decisionId executor
  | .startElection committeeId positionsAvailable durationDays minParticipation quorumStakeThreshold =>
    registry fun w => startElection w.committees committeeId positionsAvailable durationDays
      minParticipation quorumStakeThreshold w.now
  | .nominateForCommittee committeeId nominee nominator => do
    requireAuth auth nominee
    requireAuth auth nominator
    registry fun w => nominateForCommittee w.committees w.staked committeeId nominee nominator w.now
  | .voteInElection committeeId voter candidate => do
    requireAuth auth voter
    registry fun w => voteInElection w.committees w.staked committeeId voter candidate w.now
  | .finalizeElection committeeId =>
    registry fun w => finalizeElection w.committees w.staked committeeId w.now
  | .setCommunityApprovalRating committeeId rating =>
    registry fun w => setCommunityApprovalRating w.committees committeeId rating
  | .overrideDecision committeeId decisionId =>
    registry fun w => overrideDecision w.committees committeeId decisionId
  | .dissolveCommittee committeeId =>
    registry fun w => dissolveCommittee w.committees committeeId w.now

/-- A call, the time goes on, or other entrypoints change the treasury and the stakes. -/
inductive Event where
  | call (auth : Auth) (c : Call)
  | advance (now : Nat)
  | outside (books : Books) (staked : Address → Int)

def next (w : World) : Event → World
  | .call auth c => (invoke auth c).exec w
  | .advance now => { w with now }
  | .outside books staked => { w with books, staked }

/-- The clock never goes back. -/
def Allowed (w : World) : Event → Prop
  | .advance now => w.now ≤ now
  | .call .. | .outside .. => True

def Step (w : World) (ev : Event) (w' : World) : Prop := Allowed w ev ∧ w' = next w ev

instance (w : World) : (ev : Event) → Decidable (Allowed w ev)
  | .advance now => inferInstanceAs (Decidable (w.now ≤ now))
  | .call .. | .outside .. => isTrue trivial

def run (w : World) (evs : List Event) : World := evs.foldl next w

/-- A list of events that are allowed and meet `C` where their turn comes is a run that meets `C`. -/
theorem reaches_run {C : World → Event → Prop} {w : World} {evs : List Event}
    (h : Reaches.Along next (fun w ev => C w ev ∧ Allowed w ev) w evs) :
    Reaches (fun w ev w' => C w ev ∧ Step w ev w') w (run w evs) :=
  (Reaches.of_along h).mono fun _ _ _ ⟨⟨hC, ha⟩, he⟩ => ⟨hC, ha, he⟩

end Committees

end CallStake.Governance
