import CallStake.Lib.Store
import CallStake.Shared.Host

/-!
# The fee collector: storage and environment

The data of the `fee_collector` contract. The storage is one record, grouped by the part of the contract
that owns the entries. An entry that is only ever read with a default holds the default while it is
unset; an entry that is tested for presence or removed is an `Option` or the absence of a key.

* `Books`: the four ledgers that share the token account of the contract.
* `Storage`: everything the contract keeps, with its temporary entries (`cache`).
* `World τ`: the storage, the ledger and the state `τ` of the token contracts.
* `Env τ`: what a call sees of its host; the oracle answers by what it is asked (`Oracle`).

Left out: the lock against reentrancy, which nothing in the contract takes; the report of the last error,
which the host rolls back with the call that made it; events.
-/

namespace CallStake.FeeCollector

open Tx

/-! ## Errors -/

/-- The errors of the fee collector. -/
inductive ContractError where
  | alreadyInitialized
  | notInitialized
  | unauthorized
  | invalidAmount
  | insufficientTreasuryBalance
  | withdrawalNotQueued
  | timelockNotElapsed
  | arithmeticOverflow
  | feeRateTooHigh
  | feeRateTooLow
  | oracleNotConfigured
  | oracleConversionFailed
  | feeRoundedToZero
  | burnRateTooHigh
  | invalidFeeConfiguration
  | networkConditionInvalid
  | failedCollectionNotFound
  | retryLimitExceeded
  | iterationLimitExceeded
  | waterfallNotConfigured
  | invalidMultiplierBounds
  | selfReferralNotAllowed
  | referralAlreadyRegistered
  | incompatibleContractVersion
  | unauthorizedCaller
  | invalidTokenMetadata
  | payoutExceedsCap
  | insufficientInsuranceBalance
  | claimAlreadyProcessed
  | contractPaused
  | insufficientTokenBalance
  | insufficientTokenAllowance
  | tokenOperationFailed
  deriving DecidableEq

/-- `impl From<shared::TokenFailure> for ContractError`. -/
def ContractError.ofTokenFailure : TokenFailure → ContractError
  | .unauthorized => .unauthorized
  | .insufficientBalance => .insufficientTokenBalance
  | .insufficientAllowance => .insufficientTokenAllowance
  | .invalidRequest | .overflow | .otherContractError _ | .hostError => .tokenOperationFailed

/-! ## Stored values -/

/-- Tiers are funded in ascending order of `priority`. -/
structure WaterfallTier where
  name : Bytes
  priority : Nat
  targetAmount : Int
  minimumAmount : Int
  recipient : Address

/-- What a tier gets. -/
structure WaterfallTierResult where
  name : Bytes
  recipient : Address
  priority : Nat
  allocated : Int
  deriving DecidableEq

/-- Bounds of the dynamic rate, and of the retries. -/
structure FeeOptimizationConfig where
  maxDynamicRateBps : Nat
  congestionSensitivityBps : Nat
  minEffectiveRateBps : Nat
  maxRetryAttempts : Nat
  deriving DecidableEq

/-- A collection that can be tried again. -/
structure FailedFeeCollection where
  id : Bytes
  trader : Address
  token : Address
  tradeAmount : Int
  tradeAsset : Asset
  retryCount : Nat
  lastError : Bytes
  deriving DecidableEq

/-- A withdrawal from the treasury that waits. -/
structure QueuedWithdrawal where
  recipient : Address
  token : Address
  amount : Int
  queuedAt : Nat

/-- The volume of a trader in a month. -/
structure MonthlyTradeVolume where
  monthBucket : Nat
  volumeUsd : Int

/-- A discount from a volume on. -/
structure VolumeTier where
  volumeThresholdUsd : Int
  discountBps : Nat

/-- Which days a forecast looks at. -/
structure ForecastConfigData where
  epochCadenceDays : Nat
  windowDays : Nat

/-- Bounds of the congestion multiplier. -/
structure CongestionConfig where
  minMultiplierBps : Nat
  maxMultiplierBps : Nat
  stalenessThresholdSecs : Nat
  defaultMultiplierBps : Nat

/-- The multiplier, and when it was reported. -/
structure CongestionSignal where
  multiplierBps : Nat
  updatedAt : Nat

/-- The shares of the protocol and of the provider. -/
structure FeeSplitPolicy where
  protocolBps : Nat
  providerBps : Nat

/-- How a token is shown. -/
structure TokenMetadata where
  symbol : Bytes
  name : Bytes
  decimals : Nat

/-- A token whose stored treasury balance is not what the contract holds. -/
structure BalanceMismatch where
  token : Address
  expected : Int
  actual : Int
  delta : Int
  deriving DecidableEq

/-- The part of the configuration that a fee collection reads through the cache. -/
structure TxFeeConfigCache where
  optimizationConfig : FeeOptimizationConfig
  networkScore : Nat
  burnRate : Nat
  protocolToken : Option Address
  deriving DecidableEq

/-! ## Constants -/

def MAX_FEE_RATE_BPS : Nat := 100
def MIN_FEE_RATE_BPS : Nat := 1
def DEFAULT_FEE_RATE_BPS : Nat := 30
def DEFAULT_BURN_RATE_BPS : Nat := 1000
def MAX_BURN_RATE_BPS : Nat := 10000
def LEDGERS_PER_MONTH_APPROX : Nat := 518400
def SILVER_TIER_VOLUME_USD : Int := 10000 * 10000000
def GOLD_TIER_VOLUME_USD : Int := 50000 * 10000000
def SILVER_DISCOUNT_BPS : Nat := 5
def GOLD_DISCOUNT_BPS : Nat := 10
def DEFAULT_REVENUE_SHARE_RATE_BPS : Nat := 2000
def DEFAULT_MAX_REBATE_BPS : Nat := 8000
def SECONDS_PER_DAY : Nat := 86400
def MAX_BATCH_FEE_SIZE : Nat := 20
def MAX_AUDIT_TOKENS : Nat := 20
def BPS_TOTAL : Nat := 10000
def FEE_COLLECTOR_VERSION : Nat := 2
def ORACLE_RATE_PRECISION : Int := 1000000

def defaultFeeOptimizationConfig : FeeOptimizationConfig := ⟨100, 50, MIN_FEE_RATE_BPS, 3⟩
def defaultCongestionConfig : CongestionConfig := ⟨10000, 50000, 300, 10000⟩
def defaultForecastConfig : ForecastConfigData := ⟨1, 7⟩
def defaultFeeSplitPolicy : FeeSplitPolicy := ⟨3000, 7000⟩

/-! ## Storage -/

/-- Settings, written by the administrator. -/
structure ConfigStorage where
  initialized : Bool
  admin : Option Address
  contractVersion : Nat
  paused : Bool
  authorizedCallers : Store Address Unit
  oracleContract : Option Address
  feeRate : Nat
  burnRate : Nat
  networkConditionScore : Nat
  feeOptimizationConfig : FeeOptimizationConfig
  protocolToken : Option Address
  configVersion : Nat
  congestionConfig : CongestionConfig
  congestionSignal : Option CongestionSignal
  volumeDiscountConfig : Option (List VolumeTier)
  forecastConfig : ForecastConfigData
  revenueShareRateBps : Nat
  referralFeeShareBps : Nat
  maxRebateBps : Nat
  waterfallConfig : Option (List WaterfallTier)
  feeSplitPolicy : FeeSplitPolicy
  insurancePayoutCaps : Store Address Int
  tokenMetadata : Store Address TokenMetadata

/-- The ledgers. `pendingFees` is by provider and token. -/
structure Books where
  treasuryBalance : Store Address Int
  insuranceBalance : Store Address Int
  revenueSharePool : Store Address Int
  pendingFees : Store (Address × Address) Int

/-- What accompanies the ledgers: requests, processed claims, totals. -/
structure PayoutStorage where
  queuedWithdrawal : Option QueuedWithdrawal
  processedClaims : Store Bytes Unit
  epochRebateDistributed : Store (Address × Nat) Int
  revenueSharePoolIndex : List Address
  lastRevenueShareSnapshot : Option Nat
  payoutCurrency : Store Address Address
  failedFeeCollections : Store Bytes FailedFeeCollection

/-- What is kept of traders, and the fees of each day by token. -/
structure TradeStorage where
  hasTraded : Store Address Unit
  monthlyTradeVolume : Store Address MonthlyTradeVolume
  referrer : Store Address Address
  dailyFeeTotal : Store (Address × Nat) Int
  lastForecastDay : Store Address Nat

/-- The earnings of providers, by day and in total. -/
structure EarningsStorage where
  dailyFeeShares : Store (Address × Nat) Int
  firstDay : Store Address Nat
  totalEarnings : Store Address Int
  index : List Address

/-- `cache` is temporary storage, by the last digit of the version of the configuration. -/
structure Storage where
  config : ConfigStorage
  books : Books
  payouts : PayoutStorage
  trades : TradeStorage
  earnings : EarningsStorage
  cache : Store Nat TxFeeConfigCache

/-- Before `initialize`. -/
def Storage.deployed : Storage where
  config :=
    { initialized := false, admin := none, contractVersion := 1, paused := false, authorizedCallers := ∅,
      oracleContract := none, feeRate := DEFAULT_FEE_RATE_BPS, burnRate := DEFAULT_BURN_RATE_BPS,
      networkConditionScore := 0, feeOptimizationConfig := defaultFeeOptimizationConfig,
      protocolToken := none, configVersion := 0, congestionConfig := defaultCongestionConfig,
      congestionSignal := none, volumeDiscountConfig := none, forecastConfig := defaultForecastConfig,
      revenueShareRateBps := DEFAULT_REVENUE_SHARE_RATE_BPS, referralFeeShareBps := 0,
      maxRebateBps := DEFAULT_MAX_REBATE_BPS, waterfallConfig := none,
      feeSplitPolicy := defaultFeeSplitPolicy, insurancePayoutCaps := ∅, tokenMetadata := ∅ }
  books := ⟨∅, ∅, ∅, ∅⟩
  payouts := ⟨none, ∅, ∅, [], none, ∅, ∅⟩
  trades := ⟨∅, ∅, ∅, ∅, ∅⟩
  earnings := ⟨∅, ∅, ∅, []⟩
  cache := ∅

/-! ## The world of a call -/

/-- The ledger, the storage and the tokens. -/
structure World (τ : Type) where
  ledger : Ledger
  store : Storage
  token : τ

/-- The answers of an oracle contract at the time of a call; `none` is a failed invocation. -/
structure Oracle where
  getRate : Address → Address → Address → Option Int
  convertToBase : Address → Int → Asset → Option Int

/-- The token contracts, the oracle, the address of the contract, and who authorized the call. -/
structure Env (τ : Type) where
  tokens : Tokens τ
  oracle : Oracle
  self : Address
  auth : Auth

abbrev F (τ : Type) := Tx (World τ) (Fault ContractError)

section Primitives

variable {τ α : Type}

abbrev err (e : ContractError) : Fault ContractError := .err e

/-- Reads of the storage. -/
def load (f : Storage → α) : F τ α := Tx.gets fun w => f w.store

/-- Writes of the storage. -/
def save (f : Storage → Storage) : F τ Unit := Tx.modify fun w => { w with store := f w.store }

/-- `env.ledger().timestamp()`. -/
def timestamp : F τ Nat := Tx.gets fun w => w.ledger.timestamp

/-- `env.ledger().sequence()`. -/
def sequence : F τ Nat := Tx.gets fun w => w.ledger.sequence

/-- The result of a checked operation. -/
def orOverflow (o : Option α) : F τ α := Tx.ofOption o (err .arithmeticOverflow)

/-- The result of a token invocation; a failed one has no effect. -/
def invokeToken (op : τ → Except InvokeFailure τ) : Tx (World τ) InvokeFailure Unit := fun w =>
  match op w.token with
  | .ok t => (.ok (), { w with token := t })
  | .error e => (.error e, w)

/-- `map_result(token.try_transfer(..)).map_err(ContractError::from)?`. -/
def tryTransfer (env : Env τ) (token src dst : Address) (amount : Int) : F τ Unit :=
  Tx.mapErr (fun e => err (.ofTokenFailure (classify e)))
    (invokeToken (env.tokens.transfer token src dst amount))

/-- `map_result(token.try_burn(..)).map_err(ContractError::from)?`. -/
def tryBurn (env : Env τ) (token src : Address) (amount : Int) : F τ Unit :=
  Tx.mapErr (fun e => err (.ofTokenFailure (classify e)))
    (invokeToken (env.tokens.burn token src amount))

/-- `token.balance(env.current_contract_address())`. -/
def ownBalance (env : Env τ) (token : Address) : F τ Int := Tx.gets fun w => env.tokens.balance token env.self w.token

/-! ## What a primitive did -/

section Run

variable {w w' : World τ} {a : α} {u : Unit} {n : Nat} {env : Env τ} {token src dst : Address}
  {amount : Int}

@[simp] theorem load_ok {f : Storage → α} : (load f : F τ α) w = (.ok a, w') ↔ f w.store = a ∧ w = w' := gets_ok

@[simp] theorem save_ok {f : Storage → Storage} :
    (save f : F τ Unit) w = (.ok u, w') ↔ { w with store := f w.store } = w' := modify_ok

@[simp] theorem timestamp_ok : (timestamp : F τ Nat) w = (.ok n, w') ↔ w.ledger.timestamp = n ∧ w = w' := gets_ok

@[simp] theorem sequence_ok : (sequence : F τ Nat) w = (.ok n, w') ↔ w.ledger.sequence = n ∧ w = w' := gets_ok

@[simp] theorem orOverflow_ok {o : Option α} :
    (orOverflow o : F τ α) w = (.ok a, w') ↔ o = some a ∧ w = w' := ofOption_ok

@[simp] theorem ownBalance_ok {b : Int} : ownBalance env token w = (.ok b, w') ↔
    env.tokens.balance token env.self w.token = b ∧ w = w' := gets_ok

theorem invokeToken_ok {op : τ → Except InvokeFailure τ} :
    invokeToken op w = (.ok u, w') ↔ ∃ t, op w.token = .ok t ∧ { w with token := t } = w' := by
  unfold invokeToken
  cases op w.token <;> simp

/-- A transfer that returned moved the tokens, and only them. -/
@[simp] theorem tryTransfer_ok : tryTransfer env token src dst amount w = (.ok u, w') ↔
    ∃ t, env.tokens.transfer token src dst amount w.token = .ok t ∧ { w with token := t } = w' := by
  rw [tryTransfer, mapErr_ok, invokeToken_ok]

@[simp] theorem tryBurn_ok : tryBurn env token src amount w = (.ok u, w') ↔
    ∃ t, env.tokens.burn token src amount w.token = .ok t ∧ { w with token := t } = w' := by
  rw [tryBurn, mapErr_ok, invokeToken_ok]

/-! A sequence that starts with a primitive. -/

section Peel

variable {β : Type} {b : β}

theorem bind_load_ok {f : Storage → α} {k : α → F τ β} :
    (load f >>= k) w = (.ok b, w') ↔ k (f w.store) w = (.ok b, w') := Iff.rfl

theorem bind_save_ok {f : Storage → Storage} {k : Unit → F τ β} :
    (save f >>= k) w = (.ok b, w') ↔ k () { w with store := f w.store } = (.ok b, w') := Iff.rfl

theorem bind_timestamp_ok {k : Nat → F τ β} :
    (timestamp >>= k) w = (.ok b, w') ↔ k w.ledger.timestamp w = (.ok b, w') := Iff.rfl

theorem bind_sequence_ok {k : Nat → F τ β} :
    (sequence >>= k) w = (.ok b, w') ↔ k w.ledger.sequence w = (.ok b, w') := Iff.rfl

theorem bind_orOverflow_ok {o : Option α} {k : α → F τ β} :
    (orOverflow o >>= k) w = (.ok b, w') ↔ ∃ a, o = some a ∧ k a w = (.ok b, w') := bind_ofOption_ok

theorem bind_tryTransfer_ok {k : Unit → F τ β} :
    (tryTransfer env token src dst amount >>= k) w = (.ok b, w') ↔
      ∃ t, env.tokens.transfer token src dst amount w.token = .ok t ∧ k () { w with token := t } = (.ok b, w') := by
  simp only [bind_ok, tryTransfer_ok]
  constructor
  · rintro ⟨_, _, ⟨t, ht, rfl⟩, h⟩; exact ⟨t, ht, h⟩
  · rintro ⟨t, ht, h⟩; exact ⟨(), _, ⟨t, ht, rfl⟩, h⟩

end Peel

end Run

end Primitives

end CallStake.FeeCollector
