import CallStake.Governance.Basic

/-!
# Conviction voting (`conviction_voting`)

Pools of funds, the proposals that ask for a part of one, and the votes whose weight grows with the time
that they stand. A proposal is funded when the conviction of its voters reaches its threshold.

* `Call`, `Event`, `next`: the entrypoints, and the runs of the contract. The guards of the entrypoints
  (the contract is initialized, the caller is the administrator) are left out: they only refuse calls.
* `Move`: what a call that returned did, one constructor for each entrypoint.
-/

namespace CallStake.Governance

namespace Conviction

/-! ## State -/

def PRECISION : Int := 10000
def DECAY_SCALE : Int := 1000000000000
def MIN_DECAY_RATE : Nat := 1
def MAX_DECAY_RATE : Nat := 999
def DAY : Nat := 86400

/-- How convictions are weighed. -/
structure ConvictionCalibration where
  penaltyThresholdDays : Nat
  penaltyMultiplier : Nat
  rewardBonusPct : Nat
  maxConvictionCap : Int
  decayRateBps : Nat

/-- `ConvictionCalibration::default()`. -/
def ConvictionCalibration.standard : ConvictionCalibration := ⟨0, 1, 0, 0, 50⟩

/-- How far a conviction proposal has come. -/
inductive ConvictionStatus where
  | active
  | funded
  | cancelled
  | expired
  deriving DecidableEq

/-- Tokens that a voter has committed, and since when. -/
structure ConvictionVote where
  voter : Address
  tokensCommitted : Int
  voteStarted : Nat
  lastConvictionUpdate : Nat
  currentConviction : Int

structure ConvictionProposal where
  id : Nat
  proposer : Address
  title : Bytes
  requestedAmount : Int
  beneficiary : Address
  convictionAccumulated : Int
  convictionThreshold : Int
  status : ConvictionStatus
  votes : Store Address ConvictionVote
  voters : List Address
  fundingGranted : Int

/-- Funds, and the proposals that ask for them. -/
structure ConvictionVotingPool where
  poolId : Nat
  fundingAmount : Int
  refillRate : Int
  refillPeriod : Nat
  proposals : Store Nat ConvictionProposal
  proposalIds : List Nat
  totalConviction : Int
  lastRefill : Nat

/-- All pools. -/
structure ConvictionState where
  pools : Store Nat ConvictionVotingPool
  poolIds : List Nat
  nextPoolId : Nat
  nextProposalId : Nat

def emptyConvictionState : ConvictionState := ⟨∅, [], 1, 1⟩

/-- What happened to the funds of a pool. -/
inductive FundEntry where
  | opened (poolId : Nat) (amount : Int)
  /-- The refill returned `amount`; `saturated` says that the pool could not take all of it. -/
  | refilled (poolId : Nat) (amount : Int) (saturated : Bool)
  | paid (poolId proposalId : Nat)

/-- The log has its newest entry first. -/
structure World where
  now : Nat
  state : ConvictionState
  calibration : ConvictionCalibration
  log : List FundEntry

def World.deployed (now : Nat) : World := ⟨now, emptyConvictionState, .standard, []⟩

abbrev C (α : Type) := Tx World (Fault GovernanceError) α

/-! ## Weights -/

/-- `pow_fixed_point`; the exponent has 32 bits, so 32 rounds are enough. -/
def powFixedPointLoop (scale : Int) : Nat → Int → Int → Nat → Int
  | 0, result, _, _ => result
  | fuel + 1, result, base, exponent =>
    if exponent = 0 then result
    else powFixedPointLoop scale fuel
      (if exponent % 2 = 1 then (saturatingMul result base).tdiv scale else result)
      ((saturatingMul base base).tdiv scale) (exponent / 2)

def powFixedPoint (base : Int) (exponent : Nat) (scale : Int) : Int := powFixedPointLoop scale 32 scale base exponent

/-- The weight after the decay of `days` days. -/
def applyDecay (calibration : ConvictionCalibration) (days : Nat) (conviction : Int) : Int :=
  if MIN_DECAY_RATE ≤ calibration.decayRateBps ∧ calibration.decayRateBps ≤ MAX_DECAY_RATE then
    let decayFactor : Int := 1000 - calibration.decayRateBps
    let decayFactorScaled := (saturatingMul decayFactor DECAY_SCALE).tdiv 1000
    let decayMultiplierScaled := powFixedPoint decayFactorScaled (days % 2 ^ 32) DECAY_SCALE
    (saturatingMul conviction decayMultiplierScaled).tdiv DECAY_SCALE
  else conviction

/-- A young vote weighs less. -/
def applyPenalty (calibration : ConvictionCalibration) (days : Nat) (conviction : Int) : Int :=
  if 0 < calibration.penaltyThresholdDays ∧ days < calibration.penaltyThresholdDays ∧
      1 < calibration.penaltyMultiplier then
    saturatingSub conviction (conviction.tdiv calibration.penaltyMultiplier)
  else conviction

def applyBonus (calibration : ConvictionCalibration) (days : Nat) (conviction : Int) : Int :=
  if 0 < calibration.rewardBonusPct ∧ calibration.penaltyThresholdDays ≤ days then
    saturatingAdd conviction
      (((checkedMul conviction calibration.rewardBonusPct).getD 0).tdiv 100)
  else conviction

/-- A weight is capped. -/
def applyCap (calibration : ConvictionCalibration) (conviction : Int) : Int :=
  if 0 < calibration.maxConvictionCap ∧ calibration.maxConvictionCap < conviction then
    calibration.maxConvictionCap
  else conviction

/-- The weight of a vote, from its tokens, its age and the calibration. -/
def calculateConviction (tokens : Int) (timeElapsed : Nat) (calibration : ConvictionCalibration) : Int :=
  let days := timeElapsed / DAY
  if days = 0 then 0
  else
    let conviction := (saturatingMul tokens (isqrt days)).tdiv 1000
    applyCap calibration (applyBonus calibration days (applyPenalty calibration days
      (applyDecay calibration days conviction)))

def calculateConvictionThreshold (requestedAmount totalPool totalConviction : Int) : Res Int := do
  Res.failIf (requestedAmount ≤ 0 ∨ totalPool ≤ 0) .invalidAmount
  let amountScaled ← checkedMulR requestedAmount PRECISION
  let amountRatio := amountScaled.tdiv totalPool
  let square ← checkedMulR amountRatio amountRatio
  let product ← checkedMulR (square.tdiv PRECISION) totalConviction
  return max 1000 ((saturatingMul product 200).tdiv (PRECISION * 100))

def updateVoteConviction (now : Nat) (calibration : ConvictionCalibration) (vote : ConvictionVote) :
    ConvictionVote :=
  { vote with
    currentConviction := calculateConviction vote.tokensCommitted (now - vote.voteStarted) calibration
    lastConvictionUpdate := now }

def updateConvictionVote (now : Nat) (calibration : ConvictionCalibration) (vote : ConvictionVote)
    (newTokens : Int) : Res ConvictionVote :=
  if vote.tokensCommitted < newTokens then
    .ok { vote with
      tokensCommitted := newTokens, voteStarted := now, lastConvictionUpdate := now
      currentConviction := 0 }
  else if newTokens < vote.tokensCommitted then do
    let vote := updateVoteConviction now calibration vote
    let scaled ← checkedMulR newTokens PRECISION
    let reductionRatio := scaled.tdiv vote.tokensCommitted
    let product ← checkedMulR vote.currentConviction reductionRatio
    return { vote with currentConviction := product.tdiv PRECISION, tokensCommitted := newTokens }
  else .ok vote

def applyVoteSwitchDecay (tokens : Int) : Int := saturatingSub tokens (tokens.tdiv 10)

/-! ## Operations -/

def getPool (poolId : Nat) : C ConvictionVotingPool := do
  let pool ← Tx.gets (·.state.pools.lookup poolId)
  Tx.ofOption pool (err .convictionPoolNotFound)

def ConvictionVotingPool.getProposal (pool : ConvictionVotingPool) (proposalId : Nat) :
    C ConvictionProposal :=
  Tx.ofOption (pool.proposals.lookup proposalId) (err .proposalNotFound)

/-- The world with another pool. -/
def World.putPool (w : World) (poolId : Nat) (pool : ConvictionVotingPool) : World :=
  { w with state.pools := w.state.pools.insert poolId pool }

/-- The pool with another proposal. -/
def ConvictionVotingPool.put (pool : ConvictionVotingPool) (proposalId : Nat)
    (proposal : ConvictionProposal) : ConvictionVotingPool :=
  { pool with proposals := pool.proposals.insert proposalId proposal }

def World.note (w : World) (entry : FundEntry) : World := { w with log := entry :: w.log }

/-- The pool that is stored at its creation. -/
def newPool (w : World) (fundingAmount refillRate : Int) (refillPeriod : Nat) : ConvictionVotingPool :=
  { poolId := w.state.nextPoolId, fundingAmount, refillRate, refillPeriod, proposals := ∅,
    proposalIds := [], totalConviction := 0, lastRefill := w.now }

def createConvictionPool (fundingAmount refillRate : Int) (refillPeriod : Nat) : C Nat := do
  Tx.failIf (fundingAmount ≤ 0 ∨ refillRate < 0 ∨ refillPeriod = 0) (err .invalidCommitteeConfig)
  let poolId ← Tx.gets (·.state.nextPoolId)
  Tx.modify fun w =>
    { w.putPool poolId (newPool w fundingAmount refillRate refillPeriod) with
      state.poolIds := w.state.poolIds ++ [poolId]
      state.nextPoolId := u64Add poolId 1 }
  Tx.modify (·.note (.opened poolId fundingAmount))
  return poolId

/-- The proposal that is stored at its creation. -/
def newProposal (proposalId : Nat) (proposer : Address) (title : Bytes) (requestedAmount : Int)
    (beneficiary : Address) (threshold : Int) : ConvictionProposal :=
  { id := proposalId, proposer, title, requestedAmount, beneficiary, convictionAccumulated := 0,
    convictionThreshold := threshold, status := .active, votes := ∅, voters := [], fundingGranted := 0 }

def createConvictionProposal (auth : Auth) (poolId : Nat) (proposer : Address) (title : Bytes)
    (requestedAmount : Int) (beneficiary : Address) : C Nat := do
  requireAuth auth proposer
  Tx.failIf (requestedAmount ≤ 0 ∨ title = []) (err .invalidProposal)
  let pool ← getPool poolId
  Tx.failIf (pool.fundingAmount < requestedAmount) (err .insufficientBalance)
  let proposalId ← Tx.gets (·.state.nextProposalId)
  let threshold ← Tx.ofExcept (calculateConvictionThreshold requestedAmount pool.fundingAmount
    (if 0 < pool.totalConviction then pool.totalConviction else 1000))
  let proposal := newProposal proposalId proposer title requestedAmount beneficiary threshold
  Tx.modify fun w =>
    { w.putPool poolId { pool.put proposalId proposal with
        proposalIds := pool.proposalIds ++ [proposalId] } with
      state.nextProposalId := u64Add proposalId 1 }
  return proposalId

/-- The proposal with the vote of `voter` recorded. -/
def ConvictionProposal.addVote (p : ConvictionProposal) (voter : Address) (vote : ConvictionVote)
    (voters : List Address) : ConvictionProposal :=
  { p with votes := p.votes.insert voter vote, voters }

/-- A vote that starts now. -/
def newVote (now : Nat) (voter : Address) (tokens : Int) : ConvictionVote :=
  { voter, tokensCommitted := tokens, voteStarted := now, lastConvictionUpdate := now
    currentConviction := 0 }

def voteConviction (auth : Auth) (poolId proposalId : Nat) (voter : Address) (tokensToCommit : Int) :
    C Unit := do
  requireAuth auth voter
  Tx.failIf (tokensToCommit ≤ 0) (err .invalidAmount)
  let pool ← getPool poolId
  let proposal ← pool.getProposal proposalId
  Tx.failIf (proposal.status ≠ .active) (err .proposalNotActive)
  let w ← Tx.gets id
  let proposal ← match proposal.votes.lookup voter with
    | some existing => do
      let vote ← Tx.ofExcept (updateConvictionVote w.now w.calibration existing tokensToCommit)
      pure (proposal.addVote voter vote proposal.voters)
    | none => pure (proposal.addVote voter (newVote w.now voter tokensToCommit)
        (proposal.voters ++ [voter]))
  Tx.modify (·.putPool poolId (pool.put proposalId proposal))

/-- The votes of the voters, each brought up to date, and the sum of their weights. -/
def updateVotes (now : Nat) (calibration : ConvictionCalibration) (voters : List Address)
    (votes : Store Address ConvictionVote) : Store Address ConvictionVote × Int :=
  voters.foldl (fun (votes, total) voter =>
    match votes.lookup voter with
    | some vote =>
      let vote := updateVoteConviction now calibration vote
      (votes.insert voter vote, saturatingAdd total vote.currentConviction)
    | none => (votes, total)) (votes, 0)

/-- `execute_conviction_funding_internal`. -/
def executeFunding (pool : ConvictionVotingPool) (proposal : ConvictionProposal) :
    Res (ConvictionVotingPool × ConvictionProposal) := do
  Res.failIf (proposal.convictionAccumulated < proposal.convictionThreshold) .invalidCommitteeAction
  Res.failIf (pool.fundingAmount < proposal.requestedAmount) .insufficientBalance
  return ({ pool with fundingAmount := saturatingSub pool.fundingAmount proposal.requestedAmount },
    { proposal with status := .funded, fundingGranted := proposal.requestedAmount })

/-- The weights are counted along the list of voters, and a proposal that reaches its threshold is funded;
`executeConvictionFunding` funds without a look at the status. -/
def updateProposalConviction (poolId proposalId : Nat) : C Int := do
  let pool ← getPool poolId
  let proposal ← pool.getProposal proposalId
  let w ← Tx.gets id
  let (votes, totalConviction) := updateVotes w.now w.calibration proposal.voters proposal.votes
  let proposal := { proposal with votes, convictionAccumulated := totalConviction }
  if proposal.convictionThreshold ≤ totalConviction ∧ proposal.status = .active then do
    let (pool, proposal) ← Tx.ofExcept (executeFunding pool proposal)
    Tx.modify (·.putPool poolId (pool.put proposalId proposal))
    Tx.modify (·.note (.paid poolId proposalId))
  else Tx.modify (·.putPool poolId (pool.put proposalId proposal))
  return totalConviction

def executeConvictionFunding (poolId proposalId : Nat) : C Unit := do
  let pool ← getPool poolId
  let proposal ← pool.getProposal proposalId
  let (pool, proposal) ← Tx.ofExcept (executeFunding pool proposal)
  Tx.modify (·.putPool poolId (pool.put proposalId proposal))
  Tx.modify (·.note (.paid poolId proposalId))

/-- The proposal without the vote of `voter`, who stays in the list. -/
def ConvictionProposal.dropVote (p : ConvictionProposal) (voter : Address) (vote : ConvictionVote) :
    ConvictionProposal :=
  { p with
    votes := p.votes.erase voter
    convictionAccumulated := saturatingSub p.convictionAccumulated vote.currentConviction }

def changeConvictionVote (auth : Auth) (poolId fromProposal toProposal : Nat) (voter : Address) :
    C Unit := do
  requireAuth auth voter
  let pool ← getPool poolId
  let source ← pool.getProposal fromProposal
  let vote ← Tx.ofOption (source.votes.lookup voter) (err .crossCommitteeRequestNotFound)
  let target ← pool.getProposal toProposal
  let now ← Tx.gets (·.now)
  let target := target.addVote voter (newVote now voter (applyVoteSwitchDecay vote.tokensCommitted))
    (if voter ∈ target.voters then target.voters else target.voters ++ [voter])
  Tx.modify (·.putPool poolId
    ((pool.put fromProposal (source.dropVote voter vote)).put toProposal target))

def refillConvictionPool (poolId : Nat) : C Int := do
  let pool ← getPool poolId
  let now ← Tx.gets (·.now)
  let elapsed := now - pool.lastRefill
  if elapsed < pool.refillPeriod then return 0
  else do
    let refillAmount := saturatingMul pool.refillRate (elapsed / pool.refillPeriod : Nat)
    Tx.modify (·.putPool poolId { pool with
      fundingAmount := saturatingAdd pool.fundingAmount refillAmount, lastRefill := now })
    Tx.modify (·.note (.refilled poolId refillAmount
      (decide (i128Max < pool.fundingAmount + refillAmount))))
    return refillAmount

def withdrawConvictionVote (auth : Auth) (poolId proposalId : Nat) (voter : Address) : C Int := do
  requireAuth auth voter
  let pool ← getPool poolId
  let proposal ← pool.getProposal proposalId
  let vote ← Tx.ofOption (proposal.votes.lookup voter) (err .crossCommitteeRequestNotFound)
  Tx.modify (·.putPool poolId (pool.put proposalId (proposal.dropVote voter vote)))
  return vote.currentConviction

def putConvictionCalibration (config : ConvictionCalibration) : C Unit := do
  Tx.failIf (config.decayRateBps < MIN_DECAY_RATE ∨ MAX_DECAY_RATE < config.decayRateBps)
    (err .invalidGovernanceConfig)
  Tx.modify fun w => { w with calibration := config }

def setConvictionCalibration (config : ConvictionCalibration) : C Unit := do
  Tx.failIf (config.penaltyMultiplier = 0 ∨ 100 < config.rewardBonusPct) (err .invalidGovernanceConfig)
  putConvictionCalibration config

def setConvictionDecayRate (rate : Nat) : C Unit := do
  Tx.failIf (rate < MIN_DECAY_RATE ∨ MAX_DECAY_RATE < rate) (err .invalidGovernanceConfig)
  Tx.modify fun w => { w with calibration.decayRateBps := rate }

/-! ## Runs -/

/-- The entrypoints with their arguments. -/
inductive Call where
  | createConvictionPool (fundingAmount refillRate : Int) (refillPeriod : Nat)
  | createConvictionProposal (poolId : Nat) (proposer : Address) (title : Bytes) (requestedAmount : Int)
      (beneficiary : Address)
  | voteConviction (poolId proposalId : Nat) (voter : Address) (tokensToCommit : Int)
  | updateProposalConviction (poolId proposalId : Nat)
  | executeConvictionFunding (poolId proposalId : Nat)
  | changeConvictionVote (poolId fromProposal toProposal : Nat) (voter : Address)
  | refillConvictionPool (poolId : Nat)
  | withdrawConvictionVote (poolId proposalId : Nat) (voter : Address)
  | setConvictionCalibration (config : ConvictionCalibration)
  | setConvictionDecayRate (rate : Nat)

def invoke (auth : Auth) : Call → C Unit
  | .createConvictionPool fundingAmount refillRate refillPeriod =>
    Tx.void (createConvictionPool fundingAmount refillRate refillPeriod)
  | .createConvictionProposal poolId proposer title requestedAmount beneficiary =>
    Tx.void (createConvictionProposal auth poolId proposer title requestedAmount beneficiary)
  | .voteConviction poolId proposalId voter tokensToCommit =>
    voteConviction auth poolId proposalId voter tokensToCommit
  | .updateProposalConviction poolId proposalId => Tx.void (updateProposalConviction poolId proposalId)
  | .executeConvictionFunding poolId proposalId => executeConvictionFunding poolId proposalId
  | .changeConvictionVote poolId fromProposal toProposal voter =>
    changeConvictionVote auth poolId fromProposal toProposal voter
  | .refillConvictionPool poolId => Tx.void (refillConvictionPool poolId)
  | .withdrawConvictionVote poolId proposalId voter =>
    Tx.void (withdrawConvictionVote auth poolId proposalId voter)
  | .setConvictionCalibration config => setConvictionCalibration config
  | .setConvictionDecayRate rate => setConvictionDecayRate rate

/-- A call, or the time goes on. -/
inductive Event where
  | call (auth : Auth) (c : Call)
  | advance (now : Nat)

def next (w : World) : Event → World
  | .call auth c => (invoke auth c).exec w
  | .advance now => { w with now }

/-- The clock never goes back, and the funds of a new pool are a number of 128 bits. -/
def Allowed (w : World) : Event → Prop
  | .call _ (.createConvictionPool fundingAmount ..) => fundingAmount ≤ i128Max
  | .call .. => True
  | .advance now => w.now ≤ now

instance (w : World) : (ev : Event) → Decidable (Allowed w ev)
  | .call _ (.createConvictionPool fundingAmount _ _) =>
    inferInstanceAs (Decidable (fundingAmount ≤ i128Max))
  | .call _ (.createConvictionProposal ..) | .call _ (.voteConviction ..)
  | .call _ (.updateProposalConviction ..) | .call _ (.executeConvictionFunding ..)
  | .call _ (.changeConvictionVote ..) | .call _ (.refillConvictionPool ..)
  | .call _ (.withdrawConvictionVote ..) | .call _ (.setConvictionCalibration ..)
  | .call _ (.setConvictionDecayRate ..) => isTrue trivial
  | .advance now => inferInstanceAs (Decidable (w.now ≤ now))

def Step (w : World) (ev : Event) (w' : World) : Prop := Allowed w ev ∧ w' = next w ev

def run (w : World) (evs : List Event) : World := evs.foldl next w

/-- A list of events that are allowed and meet `C` where their turn comes is a run that meets `C`. -/
theorem reaches_run {C : World → Event → Prop} {w : World} {evs : List Event}
    (h : Reaches.Along next (fun w ev => C w ev ∧ Allowed w ev) w evs) :
    Reaches (fun w ev w' => C w ev ∧ Step w ev w') w (run w evs) :=
  (Reaches.of_along h).mono fun _ _ _ ⟨⟨hC, ha⟩, he⟩ => ⟨hC, ha, he⟩

/-! ## Moves -/

/-- The proposal is stored in the pool, and the pool in the world. -/
structure Found (w : World) (poolId proposalId : Nat) (pool : ConvictionVotingPool)
    (p : ConvictionProposal) : Prop where
  pooled : w.state.pools.lookup poolId = some pool
  stored : pool.proposals.lookup proposalId = some p

/-- The pool and the proposal after the proposal was funded. -/
structure Funds (pool : ConvictionVotingPool) (p : ConvictionProposal) (pool' : ConvictionVotingPool)
    (p' : ConvictionProposal) : Prop where
  reached : p.convictionThreshold ≤ p.convictionAccumulated
  covered : p.requestedAmount ≤ pool.fundingAmount
  pool : pool' = { pool with fundingAmount := saturatingSub pool.fundingAmount p.requestedAmount }
  proposal : p' = { p with status := .funded, fundingGranted := p.requestedAmount }

/-- The proposal with its votes brought up to date. -/
def ConvictionProposal.updated (p : ConvictionProposal) (now : Nat)
    (calibration : ConvictionCalibration) : ConvictionProposal :=
  { p with
    votes := (updateVotes now calibration p.voters p.votes).1
    convictionAccumulated := (updateVotes now calibration p.voters p.votes).2 }

/-- What a call that returned did. -/
inductive Move (w : World) : Call → World → Prop where
  | openPool {amount refillRate : Int} {refillPeriod : Nat} {w' : World} (hpos : 0 < amount)
      (hrate : 0 ≤ refillRate) (hnow : w'.now = w.now)
      (hpools : w'.state.pools = w.state.pools.insert w.state.nextPoolId
        (newPool w amount refillRate refillPeriod))
      (hlog : w'.log = .opened w.state.nextPoolId amount :: w.log) :
      Move w (.createConvictionPool amount refillRate refillPeriod) w'
  | propose {poolId : Nat} {proposer beneficiary : Address} {title : Bytes} {amount threshold : Int}
      {pool : ConvictionVotingPool} {proposalIds : List Nat} {w' : World}
      (hpool : w.state.pools.lookup poolId = some pool) (hpos : 0 < amount) (hnow : w'.now = w.now)
      (hpools : w'.state.pools = w.state.pools.insert poolId
        { pool.put w.state.nextProposalId (newProposal w.state.nextProposalId proposer title amount
            beneficiary threshold) with proposalIds })
      (hlog : w'.log = w.log) :
      Move w (.createConvictionProposal poolId proposer title amount beneficiary) w'
  | vote {poolId proposalId : Nat} {voter : Address} {tokens : Int} {pool : ConvictionVotingPool}
      {p : ConvictionProposal} {vote : ConvictionVote} {w' : World} (hp : Found w poolId proposalId pool p)
      (hactive : p.status = .active) (htokens : 0 < vote.tokensCommitted)
      (h : w' = w.putPool poolId (pool.put proposalId (p.addVote voter vote
        (if (p.votes.lookup voter).isSome = true then p.voters else p.voters ++ [voter])))) :
      Move w (.voteConviction poolId proposalId voter tokens) w'
  | update {poolId proposalId : Nat} {pool : ConvictionVotingPool} {p : ConvictionProposal} {w' : World}
      (hp : Found w poolId proposalId pool p)
      (h : w' = w.putPool poolId (pool.put proposalId (p.updated w.now w.calibration))) :
      Move w (.updateProposalConviction poolId proposalId) w'
  | updateFund {poolId proposalId : Nat} {pool pool' : ConvictionVotingPool} {p p' : ConvictionProposal}
      {w' : World} (hp : Found w poolId proposalId pool p) (hactive : p.status = .active)
      (hf : Funds pool (p.updated w.now w.calibration) pool' p')
      (h : w' = (w.putPool poolId (pool'.put proposalId p')).note (.paid poolId proposalId)) :
      Move w (.updateProposalConviction poolId proposalId) w'
  | fund {poolId proposalId : Nat} {pool pool' : ConvictionVotingPool} {p p' : ConvictionProposal}
      {w' : World} (hp : Found w poolId proposalId pool p) (hf : Funds pool p pool' p')
      (h : w' = (w.putPool poolId (pool'.put proposalId p')).note (.paid poolId proposalId)) :
      Move w (.executeConvictionFunding poolId proposalId) w'
  | change {poolId fromProposal toProposal : Nat} {voter : Address} {pool : ConvictionVotingPool}
      {source target : ConvictionProposal} {vote : ConvictionVote} {w' : World}
      (hs : Found w poolId fromProposal pool source) (ht : Found w poolId toProposal pool target)
      (hv : source.votes.lookup voter = some vote)
      (h : w' = w.putPool poolId ((pool.put fromProposal (source.dropVote voter vote)).put toProposal
        (target.addVote voter (newVote w.now voter (applyVoteSwitchDecay vote.tokensCommitted))
          (if voter ∈ target.voters then target.voters else target.voters ++ [voter])))) :
      Move w (.changeConvictionVote poolId fromProposal toProposal voter) w'
  | refill {poolId refills : Nat} {pool : ConvictionVotingPool} {amount : Int} {w' : World}
      (hpool : w.state.pools.lookup poolId = some pool)
      (hamount : amount = saturatingMul pool.refillRate refills)
      (h : w' = (w.putPool poolId { pool with
        fundingAmount := saturatingAdd pool.fundingAmount amount, lastRefill := w.now }).note
        (.refilled poolId amount (decide (i128Max < pool.fundingAmount + amount)))) :
      Move w (.refillConvictionPool poolId) w'
  | withdraw {poolId proposalId : Nat} {voter : Address} {pool : ConvictionVotingPool}
      {p : ConvictionProposal} {vote : ConvictionVote} {w' : World} (hp : Found w poolId proposalId pool p)
      (hv : p.votes.lookup voter = some vote)
      (h : w' = w.putPool poolId (pool.put proposalId (p.dropVote voter vote))) :
      Move w (.withdrawConvictionVote poolId proposalId voter) w'
  | other {c : Call} {w' : World} (hpools : w'.state.pools = w.state.pools) (hlog : w'.log = w.log) : Move w c w'

section Moves

variable {w w' : World} {auth : Auth} {poolId proposalId : Nat}

@[simp] theorem getPool_ok {pool : ConvictionVotingPool} : getPool poolId w = (.ok pool, w') ↔
    w.state.pools.lookup poolId = some pool ∧ w = w' := by
  simp [getPool]

@[simp] theorem getProposal_ok {pool : ConvictionVotingPool} {p : ConvictionProposal} :
    pool.getProposal proposalId w = (.ok p, w') ↔ pool.proposals.lookup proposalId = some p ∧ w = w' := by
  simp [ConvictionVotingPool.getProposal]

theorem executeFunding_ok {pool pool' : ConvictionVotingPool} {p p' : ConvictionProposal} :
    executeFunding pool p = .ok (pool', p') ↔ Funds pool p pool' p' := by
  simp only [executeFunding, Res.bind_ok, Res.failIf_ok, Res.pure_ok, Prod.mk.injEq, Int.not_lt]
  constructor
  · rintro ⟨_, h1, _, h2, rfl, rfl⟩
    exact ⟨h1, h2, rfl, rfl⟩
  · rintro ⟨h1, h2, rfl, rfl⟩
    exact ⟨(), h1, (), h2, rfl, rfl⟩

theorem updateConvictionVote_tokens {now : Nat} {calibration : ConvictionCalibration}
    {vote vote' : ConvictionVote} {tokens : Int} (hpos : 0 < tokens)
    (h : updateConvictionVote now calibration vote tokens = .ok vote') : 0 < vote'.tokensCommitted := by
  unfold updateConvictionVote at h
  split at h
  · cases h
    exact hpos
  · split at h
    · simp only [Res.bind_ok, Res.pure_ok] at h
      obtain ⟨_, -, _, -, rfl⟩ := h
      exact hpos
    · cases h
      omega

theorem voteConviction_move {voter : Address} {tokens : Int} {u : Unit}
    (h : voteConviction auth poolId proposalId voter tokens w = (.ok u, w')) :
    Move w (.voteConviction poolId proposalId voter tokens) w' := by
  simp only [voteConviction, Tx.bind_ok, requireAuth_ok, Tx.failIf_ok, getPool_ok, getProposal_ok, Tx.gets_ok] at h
  obtain ⟨_, _, ⟨-, rfl⟩, _, _, ⟨hpos, rfl⟩, pool, _, ⟨hpool, rfl⟩, p, _, ⟨hp, rfl⟩, _, _, ⟨hactive, rfl⟩,
    _, _, ⟨rfl, rfl⟩, hvote⟩ := h
  rw [not_not] at hactive
  rw [Int.not_le] at hpos
  cases hv : p.votes.lookup voter with
  | none =>
    simp [hv] at hvote
    obtain ⟨_, _, ⟨rfl, rfl⟩, rfl⟩ := hvote
    have htokens : 0 < (newVote w.now voter tokens).tokensCommitted := hpos
    exact .vote ⟨hpool, hp⟩ hactive htokens (by simp [hv])
  | some existing =>
    simp only [hv, Tx.bind_ok, Tx.ofExcept_ok, Tx.pure_ok, Tx.modify_ok] at hvote
    obtain ⟨vote, _, ⟨hupdate, rfl⟩, _, _, ⟨rfl, rfl⟩, rfl⟩ := hvote
    exact .vote ⟨hpool, hp⟩ hactive (updateConvictionVote_tokens hpos hupdate) (by simp [hv])

/-- An update that returned stored the proposal with its votes brought up to date, and funded it or not. -/
theorem updateProposalConviction_ok {n : Int}
    (h : updateProposalConviction poolId proposalId w = (.ok n, w')) :
    ∃ pool p, Found w poolId proposalId pool p ∧
      (w' = w.putPool poolId (pool.put proposalId (p.updated w.now w.calibration)) ∨
        p.status = .active ∧ ∃ pool' p', Funds pool (p.updated w.now w.calibration) pool' p' ∧
          w' = (w.putPool poolId (pool'.put proposalId p')).note (.paid poolId proposalId)) := by
  simp only [updateProposalConviction, Tx.bind_ok, getPool_ok, getProposal_ok, Tx.gets_ok] at h
  obtain ⟨pool, _, ⟨hpool, rfl⟩, p, _, ⟨hp, rfl⟩, _, _, ⟨rfl, rfl⟩, h⟩ := h
  refine ⟨pool, p, ⟨hpool, hp⟩, ?_⟩
  split at h
  · rename_i hreached
    simp only [Tx.bind_ok, Tx.ofExcept_ok, Tx.modify_ok, Tx.pure_ok] at h
    obtain ⟨⟨pool', p'⟩, _, ⟨hf, rfl⟩, _, _, rfl, _, _, rfl, -, rfl⟩ := h
    exact .inr ⟨hreached.2, pool', p', executeFunding_ok.mp hf, rfl⟩
  · simp at h
    obtain ⟨_, _, rfl, -, rfl⟩ := h
    exact .inl rfl

theorem move_of_call {c : Call} (h : invoke auth c w = (.ok (), w')) : Move w c w' := by
  cases c
  case createConvictionPool amount refillRate refillPeriod =>
    obtain ⟨_, h⟩ := Tx.void_ok.mp h
    simp [createConvictionPool] at h
    obtain ⟨⟨hpos, hrate, -⟩, -, rfl⟩ := h
    exact .openPool hpos hrate rfl rfl rfl
  case createConvictionProposal poolId proposer title amount beneficiary =>
    obtain ⟨_, h⟩ := Tx.void_ok.mp h
    simp [createConvictionProposal] at h
    obtain ⟨-, ⟨hpos, -⟩, pool, hpool, -, threshold, -, -, rfl⟩ := h
    exact .propose hpool hpos rfl rfl rfl
  case voteConviction => exact voteConviction_move h
  case updateProposalConviction =>
    obtain ⟨_, h⟩ := Tx.void_ok.mp h
    obtain ⟨pool, p, hp, rfl | ⟨hactive, pool', p', hf, rfl⟩⟩ := updateProposalConviction_ok h
    · exact .update hp rfl
    · exact .updateFund hp hactive hf rfl
  case executeConvictionFunding =>
    simp [invoke, executeConvictionFunding] at h
    obtain ⟨pool, hpool, p, hp, pool', p', hf, rfl⟩ := h
    exact .fund ⟨hpool, hp⟩ (executeFunding_ok.mp hf) rfl
  case changeConvictionVote =>
    simp [invoke, changeConvictionVote] at h
    obtain ⟨-, pool, hpool, source, hs, vote, hv, target, ht, rfl⟩ := h
    exact .change ⟨hpool, hs⟩ ⟨hpool, ht⟩ hv rfl
  case refillConvictionPool =>
    obtain ⟨_, h⟩ := Tx.void_ok.mp h
    simp only [refillConvictionPool, Tx.bind_ok, getPool_ok, Tx.gets_ok] at h
    obtain ⟨pool, _, ⟨hpool, rfl⟩, _, _, ⟨rfl, rfl⟩, h⟩ := h
    split at h
    · obtain ⟨-, rfl⟩ := Tx.pure_ok.mp h
      exact .other rfl rfl
    · simp at h
      obtain ⟨_, _, rfl, _, _, rfl, -, rfl⟩ := h
      exact .refill hpool rfl rfl
  case withdrawConvictionVote =>
    obtain ⟨_, h⟩ := Tx.void_ok.mp h
    simp [withdrawConvictionVote] at h
    obtain ⟨-, pool, hpool, p, hp, vote, hv, -, h⟩ := h
    exact .withdraw ⟨hpool, hp⟩ hv h.symm
  case setConvictionCalibration =>
    simp [invoke, setConvictionCalibration, putConvictionCalibration] at h
    obtain ⟨-, -, rfl⟩ := h
    exact .other rfl rfl
  case setConvictionDecayRate =>
    simp [invoke, setConvictionDecayRate] at h
    obtain ⟨-, rfl⟩ := h
    exact .other rfl rfl

/-- A step is a move by a call, or leaves the pools and the log as they were. -/
theorem Step.cases {ev : Event} (h : Step w ev w') :
    (∃ auth c, ev = .call auth c ∧ Move w c w') ∨ w'.state.pools = w.state.pools ∧ w'.log = w.log := by
  obtain ⟨-, rfl⟩ := h
  cases ev with
  | call auth c =>
    rcases Tx.exec_cases (invoke auth c) w with ⟨u, hc⟩ | hsame
    · exact .inl ⟨auth, c, rfl, move_of_call hc⟩
    · exact .inr ⟨by rw [next, hsame], by rw [next, hsame]⟩
  | advance => exact .inr ⟨rfl, rfl⟩

end Moves

namespace Sample

def proposer : Address := ⟨1⟩
def alice : Address := ⟨2⟩
def bob : Address := ⟨3⟩

/-- A call that one address authorized. -/
def callBy (caller : Address) (c : Call) : Event := .call (fun a => a = caller) c

/-- A pool of ten thousand, a proposal that asks for a hundred of it, and a vote for the proposal. -/
def proposedRun : List Event :=
  [callBy proposer (.createConvictionPool 10000 500 DAY),
    callBy proposer (.createConvictionProposal 1 proposer [103] 100 proposer),
    callBy alice (.voteConviction 1 1 alice 10000000)]

end Sample

end Conviction

end CallStake.Governance
