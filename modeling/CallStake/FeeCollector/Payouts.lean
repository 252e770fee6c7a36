import CallStake.FeeCollector.Fees

/-!
# Payouts of the fee collector

The entrypoints that move tokens out of the contract or reset a ledger, and the audit that compares the
treasury with the tokens that the contract holds.

* `withdrawTreasuryFees` and `distributeWaterfall` debit the treasury, `payoutInsurance` the insurance,
  `claimFees` the pending fees of one provider.
* `triggerRevenueShareSnapshot` empties a pool and moves no tokens.
* A claim may be paid in another token (`tryClaimInPreferredCurrency`); what is asked of that token is that
  the contract holds enough of it.
-/

namespace CallStake.FeeCollector

open Tx

variable {τ : Type}

/-! ## Treasury -/

def queueWithdrawal (auth : Auth) (recipient token : Address) (amount : Int) : F τ Unit := do
  requireInitialized
  requireNotPaused
  let admin ← getAdmin
  requireAuth auth admin
  failIf (amount ≤ 0) (err .invalidAmount)
  validateTokenMetadataForToken token
  let books ← load (·.books)
  failIf (books.treasury token < amount) (err .insufficientTreasuryBalance)
  let queuedAt ← timestamp
  failIf (u64Max < queuedAt + SECONDS_PER_DAY) (err .arithmeticOverflow)
  save fun s => { s with payouts.queuedWithdrawal := some { recipient, token, amount, queuedAt } }

def withdrawTreasuryFees (env : Env τ) (recipient token : Address) (amount : Int) : F τ Unit := do
  requireInitialized
  requireNotPaused
  let admin ← getAdmin
  requireAuth env.auth admin
  validateTokenMetadataForToken token
  let stored ← load (·.payouts.queuedWithdrawal)
  let queued ← Tx.ofOption
    (stored.filter fun q => q.recipient = recipient ∧ q.token = token ∧ q.amount = amount)
    (err .withdrawalNotQueued)
  let now ← timestamp
  failIf (u64Max < queued.queuedAt + SECONDS_PER_DAY) (err .arithmeticOverflow)
  failIf (now < queued.queuedAt + SECONDS_PER_DAY) (err .timelockNotElapsed)
  let books ← load (·.books)
  failIf (books.treasury token < amount) (err .insufficientTreasuryBalance)
  let newBalance ← orOverflow (checkedSub (books.treasury token) amount)
  tryTransfer env token env.self recipient amount
  setTreasuryBalance token newBalance
  save fun s => { s with payouts.queuedWithdrawal := none }

/-! ## Waterfall -/

/-- One pass of the sort over the neighbours of a list that starts with `x`: the tier of lower priority
value moves to the front. The second component says whether a pair was swapped. -/
def bubbleFrom (x : WaterfallTier) : List WaterfallTier → List WaterfallTier × Bool
  | [] => ([x], false)
  | y :: rest =>
    if y.priority < x.priority then (y :: (bubbleFrom x rest).1, true)
    else (x :: (bubbleFrom y rest).1, (bubbleFrom y rest).2)

/-- Passes until one swaps nothing. -/
def sortPasses : Nat → List WaterfallTier → List WaterfallTier
  | 0, tiers => tiers
  | _ + 1, [] => []
  | passes + 1, x :: rest =>
    if (bubbleFrom x rest).2 = true then sortPasses passes (bubbleFrom x rest).1 else x :: rest

/-- A list of `n` tiers is in order after `n` passes. -/
def sortByPriority (tiers : List WaterfallTier) : List WaterfallTier := sortPasses tiers.length tiers

/-- What a tier gets of the remaining funds; `none` if its minimum is not met. -/
def WaterfallTier.allocation (tier : WaterfallTier) (remaining : Int) : Option Int :=
  if tier.targetAmount ≤ remaining then some tier.targetAmount
  else if tier.minimumAmount ≤ remaining then some remaining
  else none

def WaterfallTier.result (tier : WaterfallTier) (allocated : Int) : WaterfallTierResult :=
  ⟨tier.name, tier.recipient, tier.priority, allocated⟩

/-- The tiers in order. Returns what was distributed in all, and the results. -/
def payTiers (env : Env τ) (token : Address) :
    List WaterfallTier → (remaining totalDistributed : Int) → F τ (Int × List WaterfallTierResult)
  | [], _, totalDistributed => return (totalDistributed, [])
  | tier :: tiers, remaining, totalDistributed =>
    match tier.allocation remaining with
    | none => do
      let (distributed, results) ← payTiers env token tiers remaining totalDistributed
      return (distributed, tier.result 0 :: results)
    | some allocated => do
      tryTransfer env token env.self tier.recipient allocated
      let remaining ← orOverflow (checkedSub remaining allocated)
      let totalDistributed ← orOverflow (checkedAdd totalDistributed allocated)
      let (distributed, results) ← payTiers env token tiers remaining totalDistributed
      return (distributed, tier.result allocated :: results)

def distributeWaterfall (env : Env τ) (token : Address) (totalAmount : Int) :
    F τ (List WaterfallTierResult) := do
  requireInitialized
  requireNotPaused
  let admin ← getAdmin
  requireAuth env.auth admin
  failIf (totalAmount ≤ 0) (err .invalidAmount)
  let config ← load (·.config.waterfallConfig)
  let tiers ← Tx.ofOption config (err .waterfallNotConfigured)
  let books ← load (·.books)
  failIf (books.treasury token < totalAmount) (err .insufficientTreasuryBalance)
  let (totalDistributed, results) ← payTiers env token (sortByPriority tiers) totalAmount 0
  let newBalance ← orOverflow (checkedSub (books.treasury token) totalDistributed)
  setTreasuryBalance token newBalance
  return results

/-! ## Insurance -/

def setInsuranceBalance (token : Address) (balance : Int) : F τ Unit :=
  save fun s => { s with books.insuranceBalance := s.books.insuranceBalance.insert token balance }

def depositInsuranceFund (env : Env τ) (src token : Address) (amount : Int) : F τ Unit := do
  requireInitialized
  requireNotPaused
  requireAuth env.auth src
  failIf (amount ≤ 0) (err .invalidAmount)
  tryTransfer env token src env.self amount
  let books ← load (·.books)
  let newBalance ← orOverflow (checkedAdd (books.insurance token) amount)
  setInsuranceBalance token newBalance

/-- A cap of zero is no cap. -/
def payoutInsurance (env : Env τ) (caller recipient token : Address) (amount : Int) (claimId : Bytes) :
    F τ Unit := do
  requireInitialized
  requireNotPaused
  requireAuthorizedCaller env.auth caller
  failIf (amount ≤ 0) (err .invalidAmount)
  let processed ← load (·.payouts.processedClaims.lookup claimId)
  failIf (processed.isSome = true) (err .claimAlreadyProcessed)
  let cap ← load (·.config.insurancePayoutCaps.lookup token)
  failIf (0 < cap.getD 0 ∧ cap.getD 0 < amount) (err .payoutExceedsCap)
  let books ← load (·.books)
  failIf (books.insurance token < amount) (err .insufficientInsuranceBalance)
  let newBalance ← orOverflow (checkedSub (books.insurance token) amount)
  setInsuranceBalance token newBalance
  save fun s => { s with payouts.processedClaims := s.payouts.processedClaims.insert claimId () }
  tryTransfer env token env.self recipient amount

/-! ## Claims of providers -/

def setPendingFees (provider token : Address) (amount : Int) : F τ Unit :=
  save fun s => { s with books.pendingFees := s.books.pendingFees.insert (provider, token) amount }

def PayoutStorage.epochRebate (p : PayoutStorage) (token : Address) (day : Nat) : Int :=
  (p.epochRebateDistributed.lookup (token, day)).getD 0

def addEpochRebateDistributed (token : Address) (day : Nat) (amount : Int) : F τ Unit :=
  save fun s => { s with
    payouts.epochRebateDistributed := s.payouts.epochRebateDistributed.insert (token, day)
      (saturatingAdd (s.payouts.epochRebate token day) amount) }

/-- A claim cut to what the cap of the day leaves. There is no cap on a day without fees. -/
def cappedClaim (s : Storage) (token : Address) (day : Nat) (requested : Int) : Int :=
  let epochFees := s.trades.dailyFees token day
  if 0 < epochFees then
    let epochCap := ((checkedMul epochFees s.config.maxRebateBps).map (·.tdiv 10000)).getD i128Max
    min (saturatingSub epochCap (s.payouts.epochRebate token day)) requested
  else requested

/-- The amount in the preferred token, if the oracle has a rate and there is something to pay. -/
def convertedAmount (oracle : Oracle) (oracleContract : Option Address) (sourceToken prefToken : Address)
    (sourceAmount : Int) : Option Int := do
  let oracleAddr ← oracleContract
  let rate ← (oracle.getRate oracleAddr sourceToken prefToken).filter (0 < ·)
  let scaled ← checkedMul sourceAmount rate
  let prefAmount := scaled.tdiv ORACLE_RATE_PRECISION
  if prefAmount ≤ 0 then none else some prefAmount

/-- `none` if the claim is not settled here. After the pending fees are reset a failed transfer traps. -/
def tryClaimInPreferredCurrency (env : Env τ) (provider sourceToken : Address) (sourceAmount : Int)
    (prefToken : Address) : F τ (Option Int) := do
  let oracleContract ← load (·.config.oracleContract)
  let prefBalance ← ownBalance env prefToken
  match (convertedAmount env.oracle oracleContract sourceToken prefToken sourceAmount).filter
      (· ≤ prefBalance) with
  | none => return none
  | some prefAmount => do
    setPendingFees provider sourceToken 0
    Tx.mapErr (fun _ => .panic)
      (invokeToken (env.tokens.transfer prefToken env.self provider prefAmount))
    return some prefAmount

/-- The preferred token, if it is another than the one that is claimed. -/
def preferredToken (s : Storage) (provider token : Address) : Option Address :=
  (s.payouts.payoutCurrency.lookup provider).filter (· ≠ token)

/-- The payment in the preferred token; `none` if there is no such payment. -/
def claimConverted (env : Env τ) (provider token : Address) (amount : Int) : F τ (Option Int) := do
  let pref ← load (preferredToken · provider token)
  match pref with
  | some prefToken =>
    if 0 < amount then tryClaimInPreferredCurrency env provider token amount prefToken else return none
  | none => return none

/-- The payment of a claim: in the preferred token if that succeeds, else in the token itself. -/
def settleClaim (env : Env τ) (provider token : Address) (amount : Int) : F τ Unit := do
  let converted ← claimConverted env provider token amount
  match converted with
  | some _ => return ()
  | none => do
    Tx.when (0 < amount) (tryTransfer env token env.self provider amount)
    setPendingFees provider token 0

def claimFees (env : Env τ) (provider token : Address) : F τ Int := do
  requireInitialized
  requireNotPaused
  validateTokenMetadataForToken token
  requireAuth env.auth provider
  let s ← load id
  let requested := s.books.pending provider token
  if 0 < requested then do
    let now ← timestamp
    let day := now / SECONDS_PER_DAY
    let amount := cappedClaim s token day requested
    Tx.when (0 < amount ∧ 0 < s.trades.dailyFees token day) (addEpochRebateDistributed token day amount)
    settleClaim env provider token amount
    return amount
  else return 0

/-! ## Revenue share -/

/-- `clear_revenue_share_pool`. -/
def clearRevenueSharePool (token : Address) : F τ Unit :=
  save fun s => { s with
    books.revenueSharePool := s.books.revenueSharePool.erase token
    payouts.revenueSharePoolIndex := s.payouts.revenueSharePoolIndex.filter (· ≠ token) }

/-- The pool is reset; the tokens stay where they are. -/
def triggerRevenueShareSnapshot (auth : Auth) (caller token : Address) : F τ Unit := do
  let _ ← requireAdmin auth
  requireAuth auth caller
  let books ← load (·.books)
  let seq ← sequence
  Tx.when (0 < books.pool token) do
    save fun s => { s with payouts.lastRevenueShareSnapshot := some seq }
    clearRevenueSharePool token

/-! ## Audit -/

/-- The entry of a token, if the treasury is not what the contract holds of it. -/
def balanceMismatch (env : Env τ) (w : World τ) (token : Address) : Option BalanceMismatch :=
  let expected := w.store.books.treasury token
  let actual := env.tokens.balance token env.self w.token
  if actual = expected then none
  else some { token, expected, actual, delta := saturatingSub actual expected }

def auditBalances (env : Env τ) (tokens : List Address) : F τ (List BalanceMismatch) := do
  requireInitialized
  failIf (MAX_AUDIT_TOKENS < tokens.length) (err .iterationLimitExceeded)
  let w ← Tx.gets id
  return tokens.filterMap (balanceMismatch env w)

end CallStake.FeeCollector
