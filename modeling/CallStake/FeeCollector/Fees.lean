import CallStake.FeeCollector.Settings

/-!
# The collection of fees (`collect_fee`, `fee_cache`, `rebates`)

The rate of a trade comes from the settings, the congestion, the monthly volume of the trader and the cached
part of the configuration. Of the fee, one part is burned, one goes to the referrer, one to the pool of the
revenue share, and the rest to the treasury.

* `loadTxFeeConfig`: the cached configuration, or the stored one, which is cached on the way. The key is the
  last digit of the version.
* `getFeeRateForUser`, `effectiveFeeRateCached`: the rate; `feeAndBurnAmounts`: the fee and what is burned.
-/

namespace CallStake.FeeCollector

variable {τ : Type}

/-! ## Cache -/

/-- The configuration that is cached. -/
def ConfigStorage.txFeeConfig (config : ConfigStorage) : TxFeeConfigCache where
  optimizationConfig := config.feeOptimizationConfig
  networkScore := config.networkConditionScore
  burnRate := config.burnRate
  protocolToken := config.protocolToken

/-- `versioned_cache_key`. -/
def ConfigStorage.cacheKey (config : ConfigStorage) : Nat := config.configVersion % 10

/-- `load_tx_fee_config`, through `tx_cache_or_compute`. -/
def loadTxFeeConfig : F τ TxFeeConfigCache := do
  let config ← load (·.config)
  let cached ← load (·.cache.lookup config.cacheKey)
  match cached with
  | some value => return value
  | none => do
    save fun s => { s with cache := s.cache.insert config.cacheKey config.txFeeConfig }
    return config.txFeeConfig

/-! ## Rates -/

def currentEffectiveMultiplier (config : ConfigStorage) (now : Nat) : Nat :=
  match config.congestionSignal with
  | some signal =>
    if config.congestionConfig.stalenessThresholdSecs < now - signal.updatedAt then
      config.congestionConfig.defaultMultiplierBps
    else max config.congestionConfig.minMultiplierBps
      (min config.congestionConfig.maxMultiplierBps signal.multiplierBps)
  | none => config.congestionConfig.defaultMultiplierBps

/-- The volume of the present month; the volume of another month is removed. -/
def activeMonthlyTradeVolume (user : Address) : F τ (Option MonthlyTradeVolume) := do
  let volume ← load (·.trades.monthlyTradeVolume.lookup user)
  let seq ← sequence
  match volume with
  | some volume =>
    if volume.monthBucket = seq / LEDGERS_PER_MONTH_APPROX then return some volume
    else do
      save fun s => { s with trades.monthlyTradeVolume := s.trades.monthlyTradeVolume.erase user }
      return none
  | none => return none

def getActiveVolumeUsd (user : Address) : F τ Int := do
  let volume ← activeMonthlyTradeVolume user
  return (volume.map (·.volumeUsd)).getD 0

/-- The largest discount of a tier that the volume reaches. -/
def bestDiscount (volumeUsd : Int) (tiers : List VolumeTier) : Nat :=
  tiers.foldl (fun best tier =>
    if tier.volumeThresholdUsd ≤ volumeUsd ∧ best < tier.discountBps then tier.discountBps else best) 0

/-- The discount on the base rate: by the configured tiers, or by the two default ones. -/
def volumeDiscount (config : Option (List VolumeTier)) (volumeUsd : Int) : Nat :=
  match config with
  | some tiers => bestDiscount volumeUsd tiers
  | none =>
    if GOLD_TIER_VOLUME_USD ≤ volumeUsd then GOLD_DISCOUNT_BPS
    else if SILVER_TIER_VOLUME_USD ≤ volumeUsd then SILVER_DISCOUNT_BPS
    else 0

/-- The base rate times the multiplier, cut to 32 bits. -/
def adjustedBaseRate (feeRate multiplier : Nat) : Nat := min (feeRate * multiplier) u64Max / 10000 % 2 ^ 32

def getFeeRateForUser (user : Address) : F τ Nat := do
  let config ← load (·.config)
  let now ← timestamp
  let volumeUsd ← getActiveVolumeUsd user
  return max (adjustedBaseRate config.feeRate (currentEffectiveMultiplier config now) -
    volumeDiscount config.volumeDiscountConfig volumeUsd) MIN_FEE_RATE_BPS

/-- `effective_fee_rate_cached`. -/
def effectiveFeeRateCached (baseRate : Nat) (token : Address) (cache : TxFeeConfigCache) : Nat :=
  let config := cache.optimizationConfig
  let networkAdjustment := min (cache.networkScore * config.congestionSensitivityBps) u64Max / 10000 % 2 ^ 32
  let feeRate := min (max (u32Add baseRate networkAdjustment) config.minEffectiveRateBps)
    (min config.maxDynamicRateBps MAX_FEE_RATE_BPS)
  if cache.protocolToken = some token then max (feeRate / 2) MIN_FEE_RATE_BPS else feeRate

def feeAmountFloor (tradeAmount : Int) (feeRateBps : Nat) : Option Int :=
  (checkedMul tradeAmount feeRateBps).map (·.tdiv 10000)

/-- The fee of a trade and the part of it that is burned. -/
def feeAndBurnAmounts (tradeAmount : Int) (feeRateBps burnRateBps : Nat) : Option (Int × Int) := do
  let fee ← feeAmountFloor tradeAmount feeRateBps
  let scaled ← checkedMul fee burnRateBps
  return (fee, scaled.tdiv 10000)

/-- `fee_rate_for_user`. -/
def feeRateForUser (user : Address) : F τ Nat := do
  requireInitialized
  getFeeRateForUser user

/-- `monthly_trade_volume`. -/
def monthlyTradeVolume (user : Address) : F τ Int := do
  requireInitialized
  getActiveVolumeUsd user

def currentDynamicFeeRate (trader token : Address) : F τ Nat := do
  let cache ← loadTxFeeConfig
  let baseRate ← getFeeRateForUser trader
  return effectiveFeeRateCached baseRate token cache

/-! ## Volume and forecast -/

def recordTradeVolume (env : Env τ) (user : Address) (tradeAsset : Asset) (amount : Int) : F τ Unit := do
  let oracle ← load (·.config.oracleContract)
  let oracleContract ← Tx.ofOption oracle (err .oracleNotConfigured)
  let usdVolume ← Tx.ofOption (env.oracle.convertToBase oracleContract amount tradeAsset)
    (err .oracleConversionFailed)
  let seq ← sequence
  let active ← activeMonthlyTradeVolume user
  let updated ← orOverflow (checkedAdd ((active.map (·.volumeUsd)).getD 0) usdVolume)
  save fun s => { s with
    trades.monthlyTradeVolume := s.trades.monthlyTradeVolume.insert user
      ⟨seq / LEDGERS_PER_MONTH_APPROX, updated⟩ }

def TradeStorage.dailyFees (t : TradeStorage) (token : Address) (day : Nat) : Int :=
  (t.dailyFeeTotal.lookup (token, day)).getD 0

def addDailyFeeTotal (token : Address) (day : Nat) (amount : Int) : F τ Unit :=
  save fun s => { s with
    trades.dailyFeeTotal := s.trades.dailyFeeTotal.insert (token, day)
      (saturatingAdd (s.trades.dailyFees token day) amount) }

/-- The total of the days of the window that have fees, and their number. -/
def windowTotals (t : TradeStorage) (token : Address) (currentDay window : Nat) : Int × Nat :=
  (List.range window).foldl (fun (total, days) i =>
    let dailyTotal := t.dailyFees token (currentDay - i)
    if 0 < dailyTotal then (saturatingAdd total dailyTotal, u64Add days 1) else (total, days)) (0, 0)

/-- The average of the days with fees, for one epoch. -/
def projectedFees (t : TradeStorage) (token : Address) (currentDay : Nat) (config : ForecastConfigData) :
    Int :=
  let (total, days) := windowTotals t token currentDay config.windowDays
  if days = 0 then 0 else (checkedMul (total.tdiv days) config.epochCadenceDays).getD 0

def setLastForecastDay (token : Address) (day : Nat) : F τ Unit :=
  save fun s => { s with trades.lastForecastDay := s.trades.lastForecastDay.insert token day }

def triggerFeeForecast (auth : Auth) (admin token : Address) : F τ Int := do
  requireStoredAdmin auth admin
  let config ← load (·.config.forecastConfig)
  let now ← timestamp
  let trades ← load (·.trades)
  let currentDay := now / SECONDS_PER_DAY
  setLastForecastDay token currentDay
  return projectedFees trades token currentDay config

/-- The fees of the day grow, and a forecast is due after each epoch. -/
def recordDailyFee (token : Address) (feeAmount : Int) : F τ Unit := do
  let now ← timestamp
  let currentDay := now / SECONDS_PER_DAY
  addDailyFeeTotal token currentDay feeAmount
  let config ← load (·.config.forecastConfig)
  let lastForecastDay ← load (·.trades.lastForecastDay.lookup token)
  Tx.when (u64Add (lastForecastDay.getD 0) config.epochCadenceDays ≤ currentDay)
    (setLastForecastDay token currentDay)

/-! ## Ledgers -/

def Books.treasury (b : Books) (token : Address) : Int := (b.treasuryBalance.lookup token).getD 0
def Books.insurance (b : Books) (token : Address) : Int := (b.insuranceBalance.lookup token).getD 0
def Books.pool (b : Books) (token : Address) : Int := (b.revenueSharePool.lookup token).getD 0
def Books.pending (b : Books) (provider token : Address) : Int := (b.pendingFees.lookup (provider, token)).getD 0

def setTreasuryBalance (token : Address) (balance : Int) : F τ Unit :=
  save fun s => { s with books.treasuryBalance := s.books.treasuryBalance.insert token balance }

def addRevenueSharePool (token : Address) (amount : Int) : F τ Unit :=
  save fun s => { s with
    books.revenueSharePool := s.books.revenueSharePool.insert token (saturatingAdd (s.books.pool token) amount)
    payouts.revenueSharePoolIndex :=
      if 0 < amount ∧ token ∉ s.payouts.revenueSharePoolIndex then s.payouts.revenueSharePoolIndex ++ [token]
      else s.payouts.revenueSharePoolIndex }

/-! ## Collection -/

/-- `amount * bps / 10000`, or nothing on overflow. -/
def shareOf (amount : Int) (bps : Nat) : Int := ((checkedMul amount bps).map (·.tdiv 10000)).getD 0

/-- The referrer gets a share of the fee, at most what is left of it. Returns what is left then. -/
def payReferral (env : Env τ) (trader token : Address) (feeAmount distributable : Int) : F τ Int := do
  let referrer ← load (·.trades.referrer.lookup trader)
  let bps ← load (·.config.referralFeeShareBps)
  match referrer with
  | some referrer =>
    let referralAmount := min (shareOf feeAmount bps) distributable
    if 0 < referralAmount then do
      tryTransfer env token env.self referrer referralAmount
      return saturatingSub distributable referralAmount
    else return distributable
  | none => return distributable

/-- The pool gets its share of what is distributed, at most what is left; the treasury gets the rest. -/
def creditLedgers (token : Address) (distributable remaining : Int) : F τ Unit := do
  let rate ← load (·.config.revenueShareRateBps)
  let revenueShareAmount := min (shareOf distributable rate) remaining
  let treasuryCredit := saturatingSub remaining revenueShareAmount
  Tx.when (0 < revenueShareAmount) (addRevenueSharePool token revenueShareAmount)
  let books ← load (·.books)
  let updated ← orOverflow (checkedAdd (books.treasury token) treasuryCredit)
  setTreasuryBalance token updated

/-- The fee moves from the trader to the contract, and is burned and distributed. -/
def takeFee (env : Env τ) (trader token : Address) (feeAmount burnAmount : Int) : F τ Unit := do
  tryTransfer env token trader env.self feeAmount
  let distributable ← orOverflow (checkedSub feeAmount burnAmount)
  Tx.when (0 < burnAmount) (tryBurn env token env.self burnAmount)
  let remaining ← payReferral env trader token feeAmount distributable
  creditLedgers token distributable remaining

/-- One collection; the first trade of a trader is free. -/
def collectFeeWithRecovery (env : Env τ) (trader token : Address) (tradeAmount : Int)
    (tradeAsset : Asset) : F τ Int := do
  requireInitialized
  requireNotPaused
  requireAuth env.auth trader
  Tx.failIf (tradeAmount ≤ 0) (err .invalidAmount)
  let traded ← load (·.trades.hasTraded.lookup trader)
  if traded = none then do
    save fun s => { s with trades.hasTraded := s.trades.hasTraded.insert trader () }
    let _ ← Tx.attempt (recordTradeVolume env trader tradeAsset tradeAmount)
    return 0
  else do
    let cache ← loadTxFeeConfig
    let baseRate ← getFeeRateForUser trader
    let feeRate := effectiveFeeRateCached baseRate token cache
    let (feeAmount, burnAmount) ← orOverflow (feeAndBurnAmounts tradeAmount feeRate cache.burnRate)
    Tx.failIf (feeAmount ≤ 0) (err .feeRoundedToZero)
    takeFee env trader token feeAmount burnAmount
    recordTradeVolume env trader tradeAsset tradeAmount
    recordDailyFee token feeAmount
    return feeAmount

/-- `collect_fee`: the error is reported as it is. -/
def collectFee (env : Env τ) (trader token : Address) (tradeAmount : Int) (tradeAsset : Asset) :
    F τ Int := collectFeeWithRecovery env trader token tradeAmount tradeAsset

/-- A trade of a batch. -/
structure BatchFeeInput where
  trader : Address
  token : Address
  tradeAmount : Int
  tradeAsset : Asset

/-- The collections of a batch. -/
def collectAll (env : Env τ) : List BatchFeeInput → F τ (List Int)
  | [] => return []
  | item :: items => do
    let fee ← collectFeeWithRecovery env item.trader item.token item.tradeAmount item.tradeAsset
    let fees ← collectAll env items
    return fee :: fees

def batchCollectFees (env : Env τ) (items : List BatchFeeInput) : F τ (List Int) := do
  Tx.failIf (items.length = 0 ∨ MAX_BATCH_FEE_SIZE < items.length) (err .invalidAmount)
  let _ ← loadTxFeeConfig
  collectAll env items

/-- `retry_failed_fee_collection`. A limit of no attempts traps. -/
def retryFailedFeeCollection (env : Env τ) (admin : Address) (id : Bytes) : F τ Int := do
  requireStoredAdmin env.auth admin
  let stored ← load (·.payouts.failedFeeCollections.lookup id)
  let failed ← Tx.ofOption stored (err .failedCollectionNotFound)
  let maxAttempts ← load (·.config.feeOptimizationConfig.maxRetryAttempts)
  Tx.failIf (maxAttempts = 0) .panic
  Tx.failIf (maxAttempts ≤ failed.retryCount) (err .retryLimitExceeded)
  save fun s => { s with
    payouts.failedFeeCollections := s.payouts.failedFeeCollections.insert failed.id
      { failed with retryCount := u32Add failed.retryCount 1 } }
  let fee ← collectFeeWithRecovery env failed.trader failed.token failed.tradeAmount failed.tradeAsset
  save fun s => { s with payouts.failedFeeCollections := s.payouts.failedFeeCollections.erase id }
  return fee

end CallStake.FeeCollector
