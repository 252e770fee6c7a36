import CallStake.Lib.Sorting
import CallStake.Oracle.Feeds

/-!
# Consensus of the oracles

Registered oracles submit prices. At the end of a round the price is the median of the submissions, each counted
as often as its oracle has weight; the oracles are then rated by how far they were off, and those with a low
reputation may go.
-/

namespace CallStake.Oracle

def SECONDS_PER_WEEK : Nat := 604800

/-! ## Reputation -/

def saveOracleStats (oracle : Address) (stats : OracleReputation) : O Unit :=
  setPanel fun p => { p with oracleStats := p.oracleStats.insert oracle stats }

/-- The reputation of an oracle that has submitted prices. -/
def ratedReputation (stats : OracleReputation) : O Nat := do
  let now ← timestamp
  let weighted ← plainU32 (stats.accurateSubmissions * 60)
  let accuracyScore := weighted / stats.totalSubmissions
  let deviationPenalty := min (stats.avgDeviation.tdiv 1000) 30
  let deviationScore := saturatingSub 30 deviationPenalty
  let sinceSlash ← subU64 now stats.lastSlash
  let consistencyScore : Int := if SECONDS_PER_WEEK < sinceSlash then 10 else 0
  let total ← plain (accuracyScore + deviationScore)
  let total ← plain (total + consistencyScore)
  return (max 0 (min total 100)).toNat

def calculateReputation (oracle : Address) : O Nat := do
  let stats ← load (·.getOracleStats oracle)
  if stats.totalSubmissions = 0 then return 50 else ratedReputation stats

def weightOf (reputation : Nat) : Nat :=
  if 90 ≤ reputation ∧ reputation ≤ 100 then 10
  else if 75 ≤ reputation ∧ reputation ≤ 89 then 5
  else if 60 ≤ reputation ∧ reputation ≤ 74 then 2
  else if 50 ≤ reputation ∧ reputation ≤ 59 then 1
  else 0

def adjustOracleWeight (oracle : Address) : O Unit := do
  let reputation ← calculateReputation oracle
  let stats ← load (·.getOracleStats oracle)
  saveOracleStats oracle { stats with weight := weightOf reputation, reputationScore := reputation }

/-- A deviation of up to 5% is accurate. -/
def trackOracleAccuracy (oracle : Address) (submittedPrice consensusPrice : Int) : O Unit := do
  let stats ← load (·.getOracleStats oracle)
  let total ← plainU32 (stats.totalSubmissions + 1)
  let deviation ← deviationBps submittedPrice consensusPrice consensusPrice
  let totalDev ← plain (stats.avgDeviation * ((total - 1 : Nat) : Int))
  let sum ← plain (totalDev + deviation)
  let avgDeviation ← div sum total
  let accurate ← plainU32 (stats.accurateSubmissions + if deviation ≤ 500 then 1 else 0)
  saveOracleStats oracle
    { stats with totalSubmissions := total, avgDeviation, accurateSubmissions := accurate }

/-- A slash for a major deviation. -/
def slashOracle (oracle : Address) : O Unit := do
  let now ← timestamp
  let stats ← load (·.getOracleStats oracle)
  saveOracleStats oracle { stats with reputationScore := stats.reputationScore - 20, lastSlash := now }

/-- Whether fewer than half of at least a hundred submissions were accurate. -/
def inaccurate (stats : OracleReputation) : O Bool :=
  if 100 ≤ stats.totalSubmissions then do
    let weighted ← plainU32 (stats.accurateSubmissions * 100)
    return decide (weighted / stats.totalSubmissions < 50)
  else return false

def shouldRemoveOracle (oracle : Address) : O Bool := do
  let stats ← load (·.getOracleStats oracle)
  let bad ← inaccurate stats
  if bad then return true
  else do
    let reputation ← calculateReputation oracle
    return decide (reputation < 50)

/-! ## Oracles and their submissions -/

def registerOracle (auth : Auth) (admin oracle : Address) : O Unit := do
  requireAuth auth admin
  requireAdmin admin
  let oracles ← load (·.panel.oracles)
  Tx.failIf (oracle ∈ oracles) (err .oracleAlreadyExists)
  setPanel fun p => { p with oracles := p.oracles ++ [oracle] }
  saveOracleStats oracle Storage.defaultReputation

/-- The oracle leaves the list. -/
def removeOracleInternal (oracle : Address) : O Unit :=
  setPanel fun p => { p with oracles := p.oracles.filter (· ≠ oracle) }

def removeOracle (auth : Auth) (admin oracle : Address) : O Unit := do
  requireAuth auth admin
  requireAdmin admin
  removeOracleInternal oracle

def submitPrice (auth : Auth) (oracle : Address) (price : Int) : O Unit := do
  requireNotPaused
  requireAuth auth oracle
  Tx.failIf (price ≤ 0) (err .invalidPrice)
  let oracles ← load (·.panel.oracles)
  Tx.failIf (oracle ∉ oracles) (err .oracleNotFound)
  let stats ← load (·.getOracleStats oracle)
  Tx.failIf (stats.weight = 0) (err .lowReputation)
  let now ← timestamp
  setPanel fun p => { p with priceSubmissions := p.priceSubmissions ++ [⟨oracle, price, now⟩] }

/-! ## The round -/

/-- Every submission as often as its oracle has weight, and at least once. -/
def Storage.weightedPrices (s : Storage) (submissions : List PriceSubmission) : List Int :=
  submissions.flatMap fun sub => List.replicate (max (s.getOracleStats sub.oracle).weight 1) sub.price

/-- The middle of a sorted list, or the mean of the two in the middle. -/
def middle (sorted : List Int) : O Int :=
  if sorted.length % 2 = 0 then do
    let below ← Tx.ofOption sorted[sorted.length / 2 - 1]? .panic
    let above ← Tx.ofOption sorted[sorted.length / 2]? .panic
    let sum ← plain (below + above)
    return sum.tdiv 2
  else Tx.ofOption sorted[sorted.length / 2]? .panic

def weightedMedian (submissions : List PriceSubmission) : O Int := do
  let prices ← load (·.weightedPrices submissions)
  middle (bubbleSort id prices)

/-- How a submission is judged. -/
def judge (consensusPrice : Int) (sub : PriceSubmission) : O Unit := do
  trackOracleAccuracy sub.oracle sub.price consensusPrice
  let deviation ← deviationBps sub.price consensusPrice consensusPrice
  Tx.when (2000 < deviation) (slashOracle sub.oracle)

/-- The oracles that should go, as their weights are adjusted. -/
def adjustAll : List Address → O (List Address)
  | [] => return []
  | oracle :: oracles => do
    adjustOracleWeight oracle
    let remove ← shouldRemoveOracle oracle
    let rest ← adjustAll oracles
    return if remove then oracle :: rest else rest

def calculateConsensus : O Int := do
  let submissions ← load (·.panel.priceSubmissions)
  let oracles ← load (·.panel.oracles)
  Tx.failIf (submissions = []) (err .insufficientOracles)
  let consensusPrice ← weightedMedian submissions
  Tx.each (judge consensusPrice) submissions
  let removed ← adjustAll oracles
  Tx.when (2 ≤ oracles.length - removed.length) (Tx.each removeOracleInternal removed)
  let now ← timestamp
  setPanel fun p => { p with
    consensusPrice := some ⟨consensusPrice, now, submissions.length⟩
    priceSubmissions := [] }
  return consensusPrice

end CallStake.Oracle
