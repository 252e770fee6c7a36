import CallStake.FeeCollector.Types

/-!
# Settings of the fee collector

The entrypoints that write settings, requests and records, and none of the ledgers.

* `requireAdmin`: the stored administrator authorized the call; `requireStoredAdmin` also compares it with
  the argument.
* `bumpConfigVersion`: called by four of the writers of the fee configuration (`setFeeRate`, `setBurnRate`,
  `setFeeOptimizationConfig`, `updateNetworkConditions`), and not by `setProtocolToken`.
-/

namespace CallStake.FeeCollector

open Tx

variable {τ : Type}

/-! ## Guards -/

def requireInitialized : F τ Unit := do
  let initialized ← load (·.config.initialized)
  failIf (initialized = false) (err .notInitialized)

def requireNotPaused : F τ Unit := do
  let paused ← load (·.config.paused)
  failIf (paused = true) (err .contractPaused)

/-- `get_admin(&env)`, which traps if there is none. -/
def getAdmin : F τ Address := do
  let admin ← load (·.config.admin)
  Tx.ofOption admin .panic

/-- `let admin = get_admin(&env); admin.require_auth()`, after the check of `is_initialized`. -/
def requireAdmin (auth : Auth) : F τ Address := do
  requireInitialized
  let admin ← getAdmin
  requireAuth auth admin
  return admin

/-- The stored administrator authorized the call and is the one that the caller names. -/
def requireStoredAdmin (auth : Auth) (admin : Address) : F τ Unit := do
  let stored ← requireAdmin auth
  failIf (stored ≠ admin) (err .unauthorized)

/-- The caller authorized the call and is the administrator or on the list of authorized callers. -/
def requireAuthorizedCaller (auth : Auth) (caller : Address) : F τ Unit := do
  requireAuth auth caller
  let admin ← getAdmin
  let callers ← load (·.config.authorizedCallers)
  failIf (caller ≠ admin ∧ callers.lookup caller = none) (err .unauthorizedCaller)

/-! ## Administration -/

def init (auth : Auth) (admin : Address) : F τ Unit := do
  requireAuth auth admin
  let initialized ← load (·.config.initialized)
  failIf (initialized = true) (err .alreadyInitialized)
  save fun s => { s with
    config.admin := some admin, config.initialized := true
    config.contractVersion := FEE_COLLECTOR_VERSION }

/-- The code that runs after an upgrade is another; what this one stores is the version. -/
def upgrade (auth : Auth) (newVersion : Nat) : F τ Unit := do
  let _ ← requireAdmin auth
  let currentVersion ← load (·.config.contractVersion)
  failIf (newVersion ≤ currentVersion) (err .incompatibleContractVersion)
  save fun s => { s with config.contractVersion := newVersion }

def setPaused (auth : Auth) (paused : Bool) : F τ Unit := do
  let _ ← requireAdmin auth
  save fun s => { s with config.paused := paused }

def authorizeCaller (auth : Auth) (caller : Address) : F τ Unit := do
  let _ ← requireAdmin auth
  save fun s => { s with config.authorizedCallers := s.config.authorizedCallers.insert caller () }

def revokeCaller (auth : Auth) (caller : Address) : F τ Unit := do
  let _ ← requireAdmin auth
  save fun s => { s with config.authorizedCallers := s.config.authorizedCallers.erase caller }

def setOracleContract (auth : Auth) (oracleContract : Address) : F τ Unit := do
  let _ ← requireAdmin auth
  save fun s => { s with config.oracleContract := some oracleContract }

def setInsurancePayoutCap (auth : Auth) (caller token : Address) (maxCap : Int) : F τ Unit := do
  requireInitialized
  requireAuth auth caller
  let admin ← getAdmin
  failIf (caller ≠ admin) (err .unauthorizedCaller)
  failIf (maxCap < 0) (err .invalidAmount)
  save fun s => { s with config.insurancePayoutCaps := s.config.insurancePayoutCaps.insert token maxCap }

/-! ## The fee configuration -/

/-- `wrapping_add(1)` on 32 bits. -/
def bumpConfigVersion : F τ Unit :=
  save fun s => { s with config.configVersion := (s.config.configVersion + 1) % 2 ^ 32 }

def setFeeRate (auth : Auth) (newRateBps : Nat) : F τ Unit := do
  let _ ← requireAdmin auth
  failIf (MAX_FEE_RATE_BPS < newRateBps) (err .feeRateTooHigh)
  failIf (newRateBps < MIN_FEE_RATE_BPS) (err .feeRateTooLow)
  save fun s => { s with config.feeRate := newRateBps }
  bumpConfigVersion

def setBurnRate (auth : Auth) (newRateBps : Nat) : F τ Unit := do
  let _ ← requireAdmin auth
  failIf (MAX_BURN_RATE_BPS < newRateBps) (err .burnRateTooHigh)
  save fun s => { s with config.burnRate := newRateBps }
  bumpConfigVersion

def setFeeOptimizationConfig (auth : Auth) (admin : Address) (config : FeeOptimizationConfig) :
    F τ Unit := do
  requireStoredAdmin auth admin
  failIf (config.maxDynamicRateBps < MIN_FEE_RATE_BPS ∨ MAX_FEE_RATE_BPS < config.maxDynamicRateBps ∨
      10000 < config.congestionSensitivityBps ∨ config.minEffectiveRateBps < MIN_FEE_RATE_BPS ∨
      10 < config.maxRetryAttempts)
    (err .invalidFeeConfiguration)
  save fun s => { s with config.feeOptimizationConfig := config }
  bumpConfigVersion

def updateNetworkConditions (auth : Auth) (admin : Address) (scoreBps : Nat) : F τ Unit := do
  requireStoredAdmin auth admin
  failIf (10000 < scoreBps) (err .networkConditionInvalid)
  save fun s => { s with config.networkConditionScore := scoreBps }
  bumpConfigVersion

/-- The address of zeros, which stands for no protocol token. -/
def zeroAddress : Address := ⟨0⟩

def setProtocolToken (auth : Auth) (token : Option Address) : F τ Unit := do
  let _ ← requireAdmin auth
  save fun s => { s with config.protocolToken := some (token.getD zeroAddress) }

def setCongestionConfig (auth : Auth) (config : CongestionConfig) : F τ Unit := do
  let _ ← requireAdmin auth
  failIf (config.minMultiplierBps = 0 ∨ config.maxMultiplierBps < config.minMultiplierBps ∨
      config.defaultMultiplierBps < config.minMultiplierBps ∨
      config.maxMultiplierBps < config.defaultMultiplierBps)
    (err .invalidMultiplierBounds)
  save fun s => { s with config.congestionConfig := config }

def setCongestionSignal (auth : Auth) (caller : Address) (multiplierBps : Nat) : F τ Unit := do
  requireInitialized
  requireAuthorizedCaller auth caller
  let config ← load (·.config.congestionConfig)
  failIf (multiplierBps < config.minMultiplierBps ∨ config.maxMultiplierBps < multiplierBps)
    (err .invalidMultiplierBounds)
  let updatedAt ← timestamp
  save fun s => { s with config.congestionSignal := some ⟨multiplierBps, updatedAt⟩ }

def setVolumeDiscountConfig (auth : Auth) (admin : Address) (tiers : List VolumeTier) : F τ Unit := do
  requireStoredAdmin auth admin
  failIf (tiers.length < 3) (err .invalidFeeConfiguration)
  failIf (∃ tier ∈ tiers, tier.volumeThresholdUsd < 0 ∨ tier.discountBps = 0 ∨
      MAX_FEE_RATE_BPS < tier.discountBps)
    (err .invalidFeeConfiguration)
  save fun s => { s with config.volumeDiscountConfig := some tiers }

def setForecastConfig (auth : Auth) (admin : Address) (config : ForecastConfigData) : F τ Unit := do
  requireStoredAdmin auth admin
  failIf (config.epochCadenceDays = 0 ∨ config.windowDays = 0) (err .invalidFeeConfiguration)
  save fun s => { s with config.forecastConfig := config }

def setRevenueShareRateBps (auth : Auth) (rateBps : Nat) : F τ Unit := do
  let _ ← requireAdmin auth
  failIf (10000 < rateBps) (err .invalidAmount)
  save fun s => { s with config.revenueShareRateBps := rateBps }

def setWaterfallConfig (auth : Auth) (tiers : List WaterfallTier) : F τ Unit := do
  let _ ← requireAdmin auth
  save fun s => { s with config.waterfallConfig := some tiers }

def setReferralFeeShare (auth : Auth) (admin : Address) (shareBps : Nat) : F τ Unit := do
  requireStoredAdmin auth admin
  failIf (10000 < shareBps) (err .invalidFeeConfiguration)
  save fun s => { s with config.referralFeeShareBps := shareBps }

def setMaxRebateBps (auth : Auth) (bps : Nat) : F τ Unit := do
  let _ ← requireAdmin auth
  failIf (10000 < bps) (err .invalidFeeConfiguration)
  save fun s => { s with config.maxRebateBps := bps }

def FeeSplitPolicy.validate (policy : FeeSplitPolicy) : F τ Unit := do
  failIf (u32Max < policy.protocolBps + policy.providerBps) (err .arithmeticOverflow)
  failIf (policy.protocolBps + policy.providerBps ≠ BPS_TOTAL) (err .invalidFeeConfiguration)

def setFeeSplitPolicy (auth : Auth) (protocolBps providerBps : Nat) : F τ Unit := do
  let _ ← requireAdmin auth
  FeeSplitPolicy.validate ⟨protocolBps, providerBps⟩
  save fun s => { s with config.feeSplitPolicy := ⟨protocolBps, providerBps⟩ }

/-- `call_stake_common::token_metadata::validate(..).is_ok()`. -/
def TokenMetadata.valid (metadata : TokenMetadata) : Prop :=
  metadata.decimals ≤ 18 ∧ 1 ≤ metadata.symbol.length ∧ metadata.symbol.length ≤ 12 ∧
    metadata.name ≠ [] ∧ metadata.name.length ≤ 64

instance (metadata : TokenMetadata) : Decidable metadata.valid := inferInstanceAs (Decidable (_ ∧ _ ∧ _ ∧ _ ∧ _))

def registerToken (auth : Auth) (admin token : Address) (metadata : TokenMetadata) : F τ Unit := do
  requireStoredAdmin auth admin
  failIf (¬metadata.valid) (err .invalidTokenMetadata)
  save fun s => { s with config.tokenMetadata := s.config.tokenMetadata.insert token metadata }

/-- A token that is not registered passes. -/
def validateTokenMetadataForToken (token : Address) : F τ Unit := do
  let metadata ← load (·.config.tokenMetadata.lookup token)
  failIf (∃ m ∈ metadata, ¬m.valid) (err .invalidTokenMetadata)

/-! ## Requests and records -/

def queueFailedFeeCollection (auth : Auth) (admin : Address) (failed : FailedFeeCollection) :
    F τ Unit := do
  requireStoredAdmin auth admin
  save fun s => { s with
    payouts.failedFeeCollections := s.payouts.failedFeeCollections.insert failed.id failed }

def setPayoutCurrency (auth : Auth) (provider preferredToken : Address) : F τ Unit := do
  requireInitialized
  requireAuth auth provider
  save fun s => { s with payouts.payoutCurrency := s.payouts.payoutCurrency.insert provider preferredToken }

def clearPayoutCurrency (auth : Auth) (provider : Address) : F τ Unit := do
  requireInitialized
  requireAuth auth provider
  save fun s => { s with payouts.payoutCurrency := s.payouts.payoutCurrency.erase provider }

def setReferrer (referee referrer : Address) : F τ Unit :=
  save fun s => { s with trades.referrer := s.trades.referrer.insert referee referrer }

def registerReferral (auth : Auth) (referrer referee : Address) : F τ Unit := do
  requireInitialized
  requireAuth auth referee
  failIf (referrer = referee) (err .selfReferralNotAllowed)
  let existing ← load (·.trades.referrer.lookup referee)
  failIf (existing.isSome = true) (err .referralAlreadyRegistered)
  setReferrer referee referrer

def adminOverrideReferral (auth : Auth) (admin referrer referee : Address) : F τ Unit := do
  requireStoredAdmin auth admin
  failIf (referrer = referee) (err .selfReferralNotAllowed)
  setReferrer referee referrer

/-! ## Earnings of providers -/

def addProviderDailyFeeShares (provider : Address) (day : Nat) (amount : Int) : F τ Unit :=
  save fun s => { s with
    earnings.dailyFeeShares := s.earnings.dailyFeeShares.insert (provider, day)
      (saturatingAdd ((s.earnings.dailyFeeShares.lookup (provider, day)).getD 0) amount)
    earnings.firstDay := if (s.earnings.firstDay.lookup provider).isSome = true then s.earnings.firstDay
      else s.earnings.firstDay.insert provider day
    earnings.totalEarnings := s.earnings.totalEarnings.insert provider
      (saturatingAdd ((s.earnings.totalEarnings.lookup provider).getD 0) amount)
    earnings.index := if provider ∈ s.earnings.index then s.earnings.index
      else s.earnings.index ++ [provider] }

def recordProviderFeeShare (auth : Auth) (caller provider : Address) (amount : Int) : F τ Unit := do
  requireInitialized
  requireAuthorizedCaller auth caller
  failIf (amount ≤ 0) (err .invalidAmount)
  let now ← timestamp
  addProviderDailyFeeShares provider (now / SECONDS_PER_DAY) amount

def FeeSplitPolicy.split (policy : FeeSplitPolicy) (gross : Int) : F τ (Int × Int) := do
  failIf (gross < 0) (err .invalidAmount)
  let scaled ← orOverflow (checkedMul gross policy.protocolBps)
  let protocolShare := scaled.tdiv BPS_TOTAL
  let providerShare ← orOverflow (checkedSub gross protocolShare)
  return (protocolShare, providerShare)

def recordProviderGrossFeeShare (auth : Auth) (caller provider : Address) (grossAmount : Int) :
    F τ (Int × Int) := do
  requireInitialized
  requireAuthorizedCaller auth caller
  failIf (grossAmount ≤ 0) (err .invalidAmount)
  let policy ← load (·.config.feeSplitPolicy)
  let (protocolAmount, providerAmount) ← policy.split grossAmount
  if 0 < providerAmount then do
    let now ← timestamp
    addProviderDailyFeeShares provider (now / SECONDS_PER_DAY) providerAmount
    return (protocolAmount, providerAmount)
  else return (protocolAmount, providerAmount)

end CallStake.FeeCollector
