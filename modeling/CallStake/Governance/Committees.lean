import CallStake.Governance.Basic

/-!
# Committees (`committees`)

The registry of committees, and the operations on it that go through the admin timelock: a committee
is created, one of its decisions is overridden, it is dissolved.
-/

namespace CallStake.Governance

namespace Committees

/-- What a committee may decide. -/
inductive Authority where
  | treasurySpend (maxAmount : Int) (category : Bytes)
  | parameterAdjustment (parameters : List Bytes) (maxChangePct : Nat)
  | grantApproval (maxGrantSize : Int)
  | emergencyAction (actionTypes : List Bytes)
  | veto (proposalTypes : List Bytes)
  deriving DecidableEq

/-- What a decision does when it is executed. -/
inductive CommitteeAction where
  | treasurySpend (recipient : Address) (amount : Int) (asset : Asset) (category purpose : Bytes)
  | rewardConfigUpdate (rewardBps : Nat) (minClaimThreshold : Int)
  | grantApproval (recipient : Address) (amount : Int) (asset : Asset) (category purpose : Bytes)
  | emergencyAction (actionType details : Bytes)
  | veto (proposalType reason : Bytes)

/-- The votes on a decision. -/
inductive VoteType where
  | inFavor
  | against
  | abstain
  deriving DecidableEq

/-- How far a decision has come. -/
inductive DecisionStatus where
  | voting
  | approved
  | rejected
  | executed
  | overridden
  deriving DecidableEq

/-- A decision that the members vote on. -/
structure CommitteeDecision where
  decisionId : Nat
  proposal : Bytes
  votesFor : Nat
  votesAgainst : Nat
  votesAbstain : Nat
  status : DecisionStatus
  executedAt : Option Nat
  proposedAt : Nat
  action : CommitteeAction
  votes : Store Address VoteType

/-- The record of a committee. -/
structure PerformanceMetrics where
  totalDecisions : Nat
  decisionsExecuted : Nat
  avgDecisionTime : Nat
  communityApprovalRating : Nat
  overriddenDecisions : Nat

/-- A committee, with its members and decisions. -/
structure Committee where
  id : Nat
  name : Bytes
  description : Bytes
  members : List Address
  chair : Address
  maxMembers : Nat
  delegatedAuthorities : List Authority
  formationDate : Nat
  termEnd : Option Nat
  decisions : List CommitteeDecision
  performanceMetrics : PerformanceMetrics
  active : Bool
  dissolvedAt : Option Nat

/-- An election of members. -/
structure CommitteeElection where
  committeeId : Nat
  candidates : List Address
  votes : Store Address Address
  electionStart : Nat
  electionEnd : Nat
  positionsAvailable : Nat
  minParticipation : Nat
  quorumStakeThreshold : Int

/-- All committees and elections. -/
structure CommitteesState where
  committees : Store Nat Committee
  committeeIds : List Nat
  elections : Store Nat CommitteeElection
  nextCommitteeId : Nat
  nextDecisionId : Nat

def emptyCommitteesState : CommitteesState := ⟨∅, [], ∅, 1, 1⟩

def getCommittee (state : CommitteesState) (committeeId : Nat) : Res Committee :=
  Res.ofOption (state.committees.lookup committeeId) .committeeNotFound

/-- The check of one entry in `validate_authorities`. -/
def Authority.valid : Authority → Bool
  | .treasurySpend maxAmount category => decide (0 < maxAmount) && !category.isEmpty
  | .parameterAdjustment parameters maxChangePct => !parameters.isEmpty && decide (0 < maxChangePct)
  | .grantApproval maxGrantSize => decide (0 < maxGrantSize)
  | .emergencyAction actionTypes => !actionTypes.isEmpty
  | .veto proposalTypes => !proposalTypes.isEmpty

def validateAuthorities (authorities : List Authority) : Res Unit := do
  Res.failIf (authorities = []) .invalidCommitteeConfig
  Res.failIf (authorities.all Authority.valid = false) .invalidCommitteeConfig

/-- `days as u64 * 86_400` after `now`. A term of no days is refused. -/
def termEndOf (now : Nat) : Option Nat → Res (Option Nat)
  | some 0 => .error (err .invalidDuration)
  | some days => .ok (some (u64Add now (days * 86400)))
  | none => .ok none

def createCommittee (state : CommitteesState) (name description : Bytes)
    (initialMembers : List Address) (chair : Address) (maxMembers : Nat)
    (authorities : List Authority) (termDurationDays : Option Nat) (now : Nat) :
    Res (CommitteesState × Committee) := do
  Res.failIf (name = [] ∨ description = []) .invalidCommitteeConfig
  Res.failIf (initialMembers = [] ∨ maxMembers < initialMembers.length ∨
    ¬ (3 ≤ maxMembers ∧ maxMembers ≤ 15)) .invalidCommitteeConfig
  Res.failIf (chair ∉ initialMembers ∨ ¬ initialMembers.Nodup) .invalidCommitteeConfig
  validateAuthorities authorities
  let termEnd ← termEndOf now termDurationDays
  let committee : Committee :=
    { id := state.nextCommitteeId, name, description, members := initialMembers, chair, maxMembers,
      delegatedAuthorities := authorities, formationDate := now, termEnd, decisions := [],
      performanceMetrics := ⟨0, 0, 0, 0, 0⟩, active := true, dissolvedAt := none }
  return ({ state with
    committees := state.committees.insert committee.id committee
    committeeIds := state.committeeIds ++ [committee.id]
    nextCommitteeId := u64Add state.nextCommitteeId 1 }, committee)

/-- The first decision with the id is replaced by its overridden form. -/
def overrideFirst (decisionId : Nat) :
    List CommitteeDecision → Res (List CommitteeDecision × CommitteeDecision)
  | [] => .error (err .committeeDecisionNotFound)
  | decision :: rest =>
    if decision.decisionId = decisionId then do
      Res.failIf (decision.status = .rejected ∨ decision.status = .overridden)
        .committeeDecisionNotOpen
      let overridden := { decision with status := .overridden }
      return (overridden :: rest, overridden)
    else do
      let (decisions, overridden) ← overrideFirst decisionId rest
      return (decision :: decisions, overridden)

def overrideDecision (state : CommitteesState) (committeeId decisionId : Nat) :
    Res (CommitteesState × CommitteeDecision) := do
  let committee ← getCommittee state committeeId
  let (decisions, decision) ← overrideFirst decisionId committee.decisions
  let metrics := { committee.performanceMetrics with
    overriddenDecisions := u32Add committee.performanceMetrics.overriddenDecisions 1 }
  return ({ state with
    committees := state.committees.insert committeeId
      { committee with decisions, performanceMetrics := metrics } }, decision)

def dissolveCommittee (state : CommitteesState) (committeeId now : Nat) :
    Res (CommitteesState × Committee) := do
  let committee ← getCommittee state committeeId
  Res.failIf (committee.active = false) .committeeInactive
  let committee := { committee with active := false, dissolvedAt := some now }
  return ({ state with
    committees := state.committees.insert committeeId committee
    elections := state.elections.erase committeeId }, committee)

end Committees

end CallStake.Governance
