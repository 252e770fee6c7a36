import CallStake.Governance.Admin

/-!
# Reputation (`reputation`)

A score for each participant, from what it did and from how long ago that was.

* `calculateReputationScore`: points for proposals, votes, committees, delegations and badges, less the
  decay of the tier and the penalty for staleness; never more than `MAX_REPUTATION`.
* `recordProposalCreation`, `recordVote`, `recordProposalOutcome`: the counters. The score they store is
  the one of the counters before.
-/

namespace CallStake.Governance

namespace Reputation

def MAX_REPUTATION : Nat := 10000
def PRECISION : Int := 10000
def SECS_PER_DAY : Nat := 86400

/-! ## Tiers and staleness -/

def decayRateBps : ReputationTier → Nat
  | .bronze => 50
  | .silver => 30
  | .gold => 20
  | .platinum => 10

def gracePeriodDays : ReputationTier → Nat
  | .bronze => 30
  | .silver => 60
  | .gold => 90
  | .platinum => 180

def maxDecayDays : ReputationTier → Nat
  | .bronze => 90
  | .silver => 180
  | .gold => 270
  | .platinum => 365

def detectStaleness (now lastActivity : Nat) : StalenessLevel :=
  if now ≤ lastActivity then .active
  else
    let inactiveDays := (now - lastActivity) / SECS_PER_DAY
    if inactiveDays ≤ 30 then .active
    else if inactiveDays ≤ 90 then .aging
    else if inactiveDays ≤ 180 then .stale
    else .critical

def resolveStaleness (now : Nat) (rep : GovernanceReputation) : StalenessLevel :=
  match rep.stalenessOverride with
  | .auto => detectStaleness now rep.lastActivity
  | level => level

def stalenessPenaltyMultiplier : StalenessLevel → Nat
  | .auto | .active => 10000
  | .aging => 8000
  | .stale => 5000
  | .critical => 2000

/-- The tier of a history. The sum of the counters traps when it overflows. -/
def computeTier (rep : GovernanceReputation) : Res ReputationTier :=
  let p := rep.participationHistory
  let totalActions := p.proposalsCreated + p.votesCast + p.committeeMemberships + p.delegationsReceived
  if u32Max < totalActions then .error .panic
  else if 500 ≤ totalActions then .ok .platinum
  else if 200 ≤ totalActions then .ok .gold
  else if 50 ≤ totalActions then .ok .silver
  else .ok .bronze

/-! ## Scores -/

/-- A participant without a record. -/
def newReputation (config : ReputationConfig) (now : Nat) (user : Address) : GovernanceReputation where
  user := user
  reputationScore := 0
  participationHistory := ⟨0, 0, 0, 0, 0, 0, 0, 0⟩
  badges := []
  lastActivity := now
  decayRate := 10
  tier := config.defaultTier
  graceOverride := 0
  stalenessOverride := .auto

def getGovernanceReputation (s : Storage) (now : Nat) (user : Address) : GovernanceReputation :=
  (s.reputation.state.reputations.lookup user).getD
    (newReputation s.config.reputationConfig now user)

def badgeBonus : Badge → Nat
  | .activeVoter _ => 200
  | .proposalAuthor successfulProposals => min 500 (u32Mul successfulProposals 100)
  | .committeeMember _ => 300
  | .earlyAdopter => 500
  | .topDelegator => 400
  | .consistentParticipant months => min 600 (u32Mul months 50)

def calculateBadgeBonus (badges : List Badge) : Nat :=
  min 2000 (badges.foldl (fun bonus badge => u32Add bonus (badgeBonus badge)) 0)

def applyTieredDecay (config : ReputationConfig) (now score lastActivity graceOverride : Nat)
    (tier : ReputationTier) : Nat :=
  if config.decayEnabled = false then score
  else if now ≤ lastActivity then score
  else
    let inactiveDays := (now - lastActivity) / SECS_PER_DAY
    let grace := if 0 < graceOverride then graceOverride else gracePeriodDays tier
    if inactiveDays = 0 ∨ inactiveDays ≤ grace then score
    else
      let cappedDays := min (inactiveDays - grace) (maxDecayDays tier)
      let retentionFactor := 10000 - decayRateBps tier
      (fun decayed => decayed * retentionFactor / 10000)^[cappedDays] score

/-- A rate in basis points of `whole`, and zero when there is nothing to rate. -/
def rateBps (part whole : Nat) : Nat := if whole = 0 then 0 else u32Mul part 10000 / whole

def calculateReputationScore (s : Storage) (now : Nat) (user : Address) : Nat :=
  let rep := getGovernanceReputation s now user
  let h := rep.participationHistory
  let config := s.config.reputationConfig
  let score := min 2000 (u32Mul h.proposalsCreated 100)
  let score := u32Add score
    (min 2000 (u32Mul (rateBps h.proposalsSucceeded h.proposalsCreated) 2 / 10))
  let score := u32Add score (min 2000 (u32Mul h.votesCast 20))
  let score := u32Add score (min 2000 (u32Mul (rateBps h.votesAlignedWithOutcome h.votesCast) 2 / 10))
  let score := u32Add score (min 1000 (u32Mul h.committeeMemberships 200))
  let score := u32Add score (min 1000 (u32Mul h.delegationsReceived 50))
  let score := u32Add score (calculateBadgeBonus rep.badges)
  let score := applyTieredDecay config now score rep.lastActivity rep.graceOverride rep.tier
  let score :=
    if config.stalePenaltyEnabled = true then
      score * stalenessPenaltyMultiplier (resolveStaleness now rep) / 10000
    else score
  min MAX_REPUTATION score

/-! ## Records -/

/-- A badge is awarded once. -/
def awardBadge (badges : List Badge) (earned : Prop) [Decidable earned] (badge : Badge) : List Badge :=
  if earned ∧ badge ∉ badges then badges ++ [badge] else badges

def checkAndAwardBadges (rep : GovernanceReputation) : GovernanceReputation :=
  let h := rep.participationHistory
  let badges := awardBadge rep.badges (50 ≤ h.votesCast) (.activeVoter 50)
  let badges := awardBadge badges (10 ≤ h.proposalsSucceeded) (.proposalAuthor 10)
  let badges := awardBadge badges (100000 * PRECISION ≤ h.totalTokensDelegated) .topDelegator
  { rep with badges }

def upsertRep (state : ReputationState) (user : Address) (rep : GovernanceReputation) :
    ReputationState where
  reputations := state.reputations.insert user rep
  users := if (state.reputations.lookup user).isSome then state.users else state.users ++ [user]

/-- The record of an activity: the counters, the time, the tier, the score and the badges. -/
def recordActivity (user : Address) (count : ParticipationHistory → ParticipationHistory) : G Unit := do
  let now ← timestamp
  let rep ← load fun s => getGovernanceReputation s now user
  let rep := { rep with participationHistory := count rep.participationHistory, lastActivity := now }
  let tier ← lift (computeTier rep)
  let reputationScore ← load fun s => calculateReputationScore s now user
  let rep := checkAndAwardBadges { rep with tier, reputationScore }
  save fun s => { s with reputation.state := upsertRep s.reputation.state user rep }

def recordProposalCreation (user : Address) : G Unit :=
  recordActivity user fun h => { h with proposalsCreated := u32Add h.proposalsCreated 1 }

/-- `record_vote`: one more vote. -/
def recordVote (user : Address) (proposalId : Nat) (voteType : VoteType) : G Unit := do
  recordActivity user fun h => { h with votesCast := u32Add h.votesCast 1 }
  save fun s => { s with
    reputation.voteRecords := s.reputation.voteRecords.insert (user, proposalId) voteType }

/-- Whether the vote was on the side that the outcome took. -/
def aligned (voteType : VoteType) (outcome : Bool) : Bool :=
  match voteType, outcome with
  | .inFavor, true => true
  | .against, false => true
  | _, _ => false

/-- The records of the proposer and of the voters, each read from the storage before. -/
def outcomeRecords (s : Storage) (now : Nat) (proposal : Proposal) : ReputationState :=
  let outcome := decide (proposal.status = .succeeded ∨ proposal.status = .executed)
  let state := s.reputation.state
  let state :=
    if outcome = true then
      let rep := getGovernanceReputation s now proposal.proposer
      let h := rep.participationHistory
      upsertRep state proposal.proposer { rep with
        participationHistory := { h with proposalsSucceeded := u32Add h.proposalsSucceeded 1 }
        reputationScore := calculateReputationScore s now proposal.proposer }
    else state
  proposal.voterList.foldl (fun state voter =>
    match proposal.voters.lookup voter with
    | some vote =>
      if aligned vote.voteType outcome = true then
        let rep := getGovernanceReputation s now voter
        let h := rep.participationHistory
        upsertRep state voter { rep with
          participationHistory := { h with votesAlignedWithOutcome := u32Add h.votesAlignedWithOutcome 1 }
          reputationScore := calculateReputationScore s now voter }
      else state
    | none => state) state

def recordProposalOutcome (proposalId : Nat) : G Unit := do
  let proposal ← load fun s => s.proposal.state.proposals.lookup proposalId
  let proposal ← Tx.ofOption proposal (err .proposalNotFound)
  let now ← timestamp
  save fun s => { s with reputation.state := outcomeRecords s now proposal }

def refreshStaleReputation (user : Address) : G Nat := do
  let now ← timestamp
  let rep ← load fun s => getGovernanceReputation s now user
  let tier ← lift (computeTier rep)
  let reputationScore ← load fun s => calculateReputationScore s now user
  save fun s => { s with
    reputation.state := upsertRep s.reputation.state user { rep with tier, reputationScore } }
  load fun s => (getGovernanceReputation s now user).reputationScore

end Reputation

def updateReputationConfig (auth : Auth) (admin : Address) (config : ReputationConfig) :
    G ReputationConfig := do
  requireAdmin auth admin
  save fun s => { s with config.reputationConfig := config }
  return config

def refreshReputation (user : Address) : G Nat := do
  requireInitialized
  Reputation.refreshStaleReputation user

end CallStake.Governance
