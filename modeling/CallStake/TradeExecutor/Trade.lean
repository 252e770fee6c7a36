import CallStake.TradeExecutor.Types

/-!
# A market copy trade

The limits on a trade, the gates of `trade_executor::risk_gates`, and what is recorded of it.
-/

namespace CallStake.TradeExecutor

section Limits

variable {ξ : Type}

/-! ## The circuit breaker -/

def resetCircuitBreaker : T ξ Unit :=
  saveExposure fun e => { e with circuitBreakerActive := false, circuitBreakerLedger := none }

/-- Whether a breaker that was activated has run out. -/
def breakerExpired (now : Nat) (activated : Option Nat) : Prop :=
  CIRCUIT_BREAKER_DURATION_LEDGERS ≤ now - activated.getD now
  deriving Decidable

def activatedBreaker : T ξ Bool := do
  let activated ← load (·.exposure.circuitBreakerLedger)
  let now ← sequence
  Tx.when (breakerExpired now activated) resetCircuitBreaker
  return decide (¬ breakerExpired now activated)

/-- The breaker, which resets itself after its time. -/
def marketCircuitBreakerActive : T ξ Bool := do
  let active ← load (·.exposure.circuitBreakerActive)
  if active then activatedBreaker else return false

/-! ## Open interest and positions -/

/-- The open interest stays within its limit. -/
def checkOpenInterestLimit (pair : Address) (amount : Int) : T ξ Unit := do
  let limit ← load (·.config.maxOpenInterestPerPair)
  let current ← load (·.openInterest pair)
  Tx.failIf (0 < limit ∧ limit < (checkedAdd current amount).getD i128Max) (err .openInterestLimitReached)

def increaseOpenInterest (pair : Address) (amount : Int) : T ξ Unit := do
  let current ← load (·.openInterest pair)
  saveExposure fun e => { e with
    openInterest := e.openInterest.insert pair ((checkedAdd current amount).getD i128Max) }

def decreaseOpenInterest (pair : Address) (amount : Int) : T ξ Unit := do
  let current ← load (·.openInterest pair)
  saveExposure fun e => { e with
    openInterest := e.openInterest.insert pair (max (saturatingSub current amount) 0) }

def incrementUserPositionCount (user : Address) : T ξ Unit := do
  let count ← load (·.userPositionCount user)
  saveExposure fun e => { e with userPositionCount := e.userPositionCount.insert user (u32Add count 1) }

def decrementUserPositionCount (user : Address) : T ξ Unit := do
  let count ← load (·.userPositionCount user)
  saveExposure fun e => { e with userPositionCount := e.userPositionCount.insert user (count - 1) }

/-- A user has a limited number of positions. -/
def checkPositionCap (user : Address) (exempt : Bool) : T ξ Unit := do
  let count ← load (·.userPositionCount user)
  let cap ← load (·.config.maxOpenPositions)
  Tx.failIf (exempt = false ∧ cap ≤ count) (err .tooManyOpenPositions)

/-! ## The daily volume -/

/-- `timestamp / 86_400`. -/
def dayOf (timestamp : Nat) : Nat := timestamp / 86400

/-- The volume of the user on the day, with the trade. -/
def Storage.newVolume (s : Storage) (today : Nat) (user : Address) (amount : Int) : Int :=
  (checkedAdd (if s.dailyVolumeDay user = today then s.dailyVolume user else 0) amount).getD i128Max

/-- `check_daily_volume`: the volume is counted at once. -/
def checkDailyVolume (limit : Int) (user : Address) (amount : Int) : T ξ Unit :=
  Tx.when (0 < limit) do
    let now ← timestamp
    let volume ← load (·.newVolume (dayOf now) user amount)
    Tx.failIf (limit < volume) (err .dailyVolumeLimitExceeded)
    saveExposure fun e => { e with dailyVolume := e.dailyVolume.insert user volume }
    saveExposure fun e => { e with dailyVolumeDay := e.dailyVolumeDay.insert user (dayOf now) }

end Limits

/-! ## Gates -/

/-- What is missing for the amount and the fee. -/
def shortfall (available amount fee : Int) : Option InsufficientBalanceDetail :=
  match checkedAdd amount fee with
  | none => some ⟨i128Max, available⟩
  | some required => if required ≤ available then none else some ⟨required, available⟩

/-- The percentage of a balance, or the explicit amount if it comes to nothing. -/
def percentOf (balance : Int) (pctBps : Nat) (explicitAmount : Int) : Int :=
  let computed := ((checkedMul balance pctBps).map (·.tdiv 10000)).getD 0
  if computed ≤ 0 then explicitAmount else computed

section Gates

variable {ξ : Type} (X : Externals ξ)

/-- `check_user_balance`: the amount and the fee. -/
def checkUserBalance (user token : Address) (amount fee : Int) : T ξ (Option InsufficientBalanceDetail) := do
  let available ← view (X.balance token user)
  return shortfall available amount fee

/-- The amount as a part of the portfolio. -/
def resolvePercent (user token : Address) (explicitAmount : Int) (pctBps : Nat) : T ξ Int := do
  let balance ← view (X.balance token user)
  return percentOf balance pctBps explicitAmount

/-- Without a percentage, or without an oracle, the explicit amount. -/
def resolveTradeAmount (user token : Address) (explicitAmount : Int) : Option Nat → T ξ Int
  | none => return explicitAmount
  | some pctBps => do
    Tx.failIf (MAX_POSITION_PCT_BPS < pctBps) (err .positionPctTooHigh)
    let oracle ← load (·.config.oracle)
    if oracle = none then return explicitAmount else resolvePercent X user token explicitAmount pctBps

/-- The position limit that is asked of the portfolio. -/
def maxPositions (exempt : Bool) : Nat := if exempt then u32Max else MAX_POSITIONS_PER_USER

/-- The id is that of the position in the portfolio. -/
def validateAndRecordPosition (portfolio user : Address) (exempt : Bool) : T ξ Nat := fun w =>
  match X.validateAndRecord portfolio user (maxPositions exempt) w.ext with
  | some (id, ext) => (.ok id, { w with ext })
  | none => (.error (err .positionLimitReached), w)

end Gates

/-! ## The trade -/

/-- What a trade is asked with. -/
structure TradeInput where
  user : Address
  token : Address
  amount : Int
  portfolioPctBps : Option Nat

/-- What a batch reads once. -/
structure BatchExecutionContext where
  portfolio : Address
  estimatedFee : Int
  dailyLimit : Int
  circuitBreakerActive : Bool

section Trade

variable {ξ : Type} (X : Externals ξ)

def breakerFor : Option BatchExecutionContext → T ξ Bool
  | some ctx => return ctx.circuitBreakerActive
  | none => marketCircuitBreakerActive

def dailyLimitFor : Option BatchExecutionContext → T ξ Int
  | some ctx => return ctx.dailyLimit
  | none => load (·.config.dailyVolumeLimit)

def portfolioFor : Option BatchExecutionContext → T ξ Address
  | some ctx => return ctx.portfolio
  | none => do
    let portfolio ← load (·.config.userPortfolio)
    Tx.ofOption portfolio (err .notInitialized)

def feeFor : Option BatchExecutionContext → T ξ Int
  | some ctx => return ctx.estimatedFee
  | none => load (·.config.copyTradeEstimatedFee)

def clearShortfall (user : Address) : T ξ Unit :=
  saveExposure fun e => { e with lastInsufficientBalance := e.lastInsufficientBalance.erase user }

/-- The balance covers the amount but not the fee, or neither. -/
def feeFallback (user token : Address) (amount : Int) (detail : InsufficientBalanceDetail) : T ξ Bool := do
  let short ← checkUserBalance X user token amount 0
  if short = none then do
    clearShortfall user
    return true
  else do
    saveExposure fun e => { e with lastInsufficientBalance := e.lastInsufficientBalance.insert user detail }
    Tx.fail (err .insufficientBalance)

/-- Whether the fee is to be taken of what is received. -/
def checkBalance (user token : Address) (amount fee : Int) : T ξ Bool := do
  let short ← checkUserBalance X user token amount fee
  match short with
  | none => do
    clearShortfall user
    return false
  | some detail => feeFallback X user token amount detail

/-- The portfolio records the position, and the executor counts it. -/
def openPosition (portfolio : Address) (t : TradeInput) (exempt : Bool) : T ξ Unit := do
  let id ← validateAndRecordPosition X portfolio t.user exempt
  note (.opened t.user id (some (t.token, t.amount)))
  increaseOpenInterest t.token t.amount
  incrementUserPositionCount t.user

def countFeeDeducted (user : Address) : T ξ Unit :=
  saveReceipts fun r => { r with feeDeductedFromReceived :=
    r.feeDeductedFromReceived.insert user (u64Add ((r.feeDeductedFromReceived.lookup user).getD 0) 1) }

def recordTradeReceipt (user token : Address) (amount : Int) : T ξ Nat := do
  let price ← load (·.sdexPrice token)
  let now ← timestamp
  let receiptId ← load (·.receipts.nextTradeReceiptId)
  saveReceipts fun r => { r with
    tradeReceipts := r.tradeReceipts.insert receiptId ⟨user, token, amount, price, now, receiptId⟩
    nextTradeReceiptId := u64Add receiptId 1 }
  return receiptId

/-- The receipt of a trade, and the order that waits for its confirmation. -/
def recordTrade (t : TradeInput) (effectiveAmount : Int) : T ξ Unit := do
  let receiptId ← recordTradeReceipt t.user t.token effectiveAmount
  let now ← sequence
  saveReceipts fun r => { r with
    pendingTradeConfirmation := some ⟨now, receiptId, t.user, effectiveAmount, u32Add now TRADE_TIMEOUT_LEDGERS,
      .executedAwaitingConfirmation⟩ }

/-- What is checked before the lock is taken. -/
def admitTrade (t : TradeInput) (ctx : Option BatchExecutionContext) : T ξ Unit := do
  Tx.failIf (t.amount ≤ 0) (err .invalidAmount)
  let minimum ← load (·.minTradeSize t.token)
  Tx.failIf (t.amount < minimum) (err .belowMinimumTradeSize)
  let active ← breakerFor ctx
  Tx.failIf (active = true) (err .circuitBreakerActive)
  checkOpenInterestLimit t.token t.amount
  let locked ← Tx.gets (·.locked)
  Tx.failIf (locked = true) (err .reentrancyDetected)

/-- What comes between the volume and the position. The result is the amount and whether the fee is to be taken of
what is received. -/
def gateTrade (t : TradeInput) (fee : Int) (exempt : Bool) : T ξ (Int × Bool) := do
  checkPositionCap t.user exempt
  let amount ← resolveTradeAmount X t.user t.token t.amount t.portfolioPctBps
  let fallback ← checkBalance X t.user t.token amount fee
  return (amount, fallback)

/-- The writes of a trade that is accepted. -/
def settleTrade (t : TradeInput) (ctx : Option BatchExecutionContext) : T ξ Unit := do
  let portfolio ← portfolioFor ctx
  let exempt ← load (·.exempt t.user)
  let fee ← feeFor ctx
  let (amount, fallback) ← gateTrade X t fee exempt
  openPosition X portfolio t exempt
  Tx.when (fallback = true ∧ 0 < fee) (countFeeDeducted t.user)
  recordTrade t amount

/-- Every way out of the computation releases the lock. -/
def withLock {α : Type} (x : T ξ α) : T ξ α := fun w =>
  ((x { w with locked := true }).1, { (x { w with locked := true }).2 with locked := false })

/-- The routine that all ways to trade share. A trade of a batch gets the settings that the batch has read. -/
def executeMarketCopyTrade (t : TradeInput) (ctx : Option BatchExecutionContext) : T ξ Unit := do
  admitTrade t ctx
  withLock do
    let limit ← dailyLimitFor ctx
    checkDailyVolume limit t.user t.amount
    settleTrade X t ctx

/-- With the authorization of the user. -/
def executeAuthorizedTrade (env : Env) (t : TradeInput) (ctx : Option BatchExecutionContext) : T ξ Unit := do
  requireAuth env.auth t.user
  executeMarketCopyTrade X t ctx

end Trade

end CallStake.TradeExecutor
