import CallStake.TradeExecutor.Queue

/-!
# The other ways to trade, and the ways to close a position

* `executeCopyTrade`: a market trade, or a limit order. `checkPendingLimitOrders`: the limit orders that are due.
* `trade_executor::dca`: a plan of trades at intervals.
* `trade_executor::triggers`: a position is closed at a stop loss, a take profit or a trailing stop.
-/

namespace CallStake.TradeExecutor

open Tx

/-! ## Market trades and limit orders -/

/-- The two types of orders. -/
inductive OrderType where
  | market
  | limit

/-- What protects a call from replay. -/
structure ReplayParams where
  nonce : Nat
  txHash : Bytes
  expiryTs : Nat

section Trades

variable {ξ : Type} (X : Externals ξ) (env : Env)

def verifyAndCommit (user : Address) (replay : ReplayParams) : T ξ Unit := do
  let now ← timestamp
  Tx.mapErr (Fault.map mapReplayError) (Tx.zoom (·.store.replay) (fun r w => { w with store.replay := r })
    (ReplayProtection.verifyAndCommit now user replay.nonce replay.txHash replay.expiryTs))

def requireFeatureEnabled (name : Symbol) : T ξ Unit := do
  let enabled ← load (·.isFlagEnabled name)
  failIf (enabled = false) (err .featureDisabled)

def FEAT_COPY_TRADE : Symbol := "copy_trade"
def FEAT_DCA : Symbol := "dca"

def storePendingOrder (order : PendingLimitOrder) : T ξ Unit :=
  saveOrders fun o => { o with
    pendingLimitOrderIds := o.pendingLimitOrderIds ++ [order.orderId]
    pendingLimitOrders := o.pendingLimitOrders.insert order.orderId order }

/-- A limit order must be covered with its fee. -/
def requireBalance (t : TradeInput) (fee : Int) : T ξ Unit := do
  let short ← checkUserBalance X t.user t.token t.amount fee
  match short with
  | none => clearShortfall t.user
  | some detail => do
    saveExposure fun e => { e with
      lastInsufficientBalance := e.lastInsufficientBalance.insert t.user detail }
    Tx.fail (err .insufficientBalance)

def nextLimitOrderId : T ξ Nat := do
  let id ← load (·.orders.nextLimitOrderId)
  failIf (u64Max < id + 1) .panic
  saveOrders fun o => { o with nextLimitOrderId := id + 1 }
  return id

def placeLimitOrder (t : TradeInput) (limitPrice : Option Int) : T ξ Unit := do
  requireAuth env.auth t.user
  failIf (t.amount ≤ 0) (err .invalidAmount)
  let price ← Tx.ofOption limitPrice (err .invalidAmount)
  failIf (price ≤ 0) (err .invalidAmount)
  let minimum ← load (·.minTradeSize t.token)
  failIf (t.amount < minimum) (err .belowMinimumTradeSize)
  let fee ← load (·.config.copyTradeEstimatedFee)
  requireBalance X t fee
  let id ← nextLimitOrderId
  let now ← sequence
  storePendingOrder ⟨id, t.user, t.token, t.amount, t.portfolioPctBps, price, u32Add now TRADE_TIMEOUT_LEDGERS⟩

def placeOrder (t : TradeInput) (orderType : OrderType) (limitPrice : Option Int) : T ξ Unit :=
  match orderType with
  | .market => executeAuthorizedTrade X env t none
  | .limit => placeLimitOrder X env t limitPrice

def executeCopyTrade (t : TradeInput) (orderType : OrderType) (limitPrice : Option Int) (replay : ReplayParams) :
    T ξ Unit := do
  let paused ← load (·.config.paused)
  failIf (paused = true) (err .contractPaused)
  verifyAndCommit t.user replay
  requireFeatureEnabled FEAT_COPY_TRADE
  placeOrder X env t orderType limitPrice

def PendingLimitOrder.input (o : PendingLimitOrder) : TradeInput := ⟨o.user, o.token, o.amount, o.portfolioPctBps⟩

def removePendingOrder (id : Nat) : T ξ Unit :=
  saveOrders fun o => { o with pendingLimitOrders := o.pendingLimitOrders.erase id }

/-- An order of the token. Whether it was processed, and whether it stays. -/
def checkOrder (now : Nat) (price : Int) (order : PendingLimitOrder) (id : Nat) : T ξ (Bool × Bool) :=
  if order.expiresAtLedger ≤ now then do
    removePendingOrder id
    return (true, false)
  else if price ≤ order.limitPrice then do
    executeMarketCopyTrade X order.input none
    removePendingOrder id
    return (true, false)
  else return (false, true)

def processOrder (token : Address) (price : Int) (id : Nat) : T ξ (Bool × Bool) := do
  let order ← load (·.orders.pendingLimitOrders.lookup id)
  let now ← sequence
  match order with
  | none => return (false, false)
  | some order => if order.token ≠ token then return (false, true) else checkOrder X now price order id

/-- The ids that stay, and how many orders were processed. -/
def processOrders (token : Address) (price : Int) : List Nat → T ξ (List Nat × Nat)
  | [] => return ([], 0)
  | id :: ids => do
    let (processed, stays) ← processOrder X token price id
    let (nextIds, count) ← processOrders token price ids
    return (if stays then id :: nextIds else nextIds, if processed then u32Add count 1 else count)

def checkPendingLimitOrders (token : Address) : T ξ Nat := do
  let price ← load (·.config.sdexPrice.lookup token)
  let price ← Tx.ofOption price (err .oracleUnavailable)
  let ids ← load (·.orders.pendingLimitOrderIds)
  let (nextIds, processed) ← processOrders X token price ids
  saveOrders fun o => { o with pendingLimitOrderIds := nextIds }
  return processed

/-! ## Batches -/

/-- A trade of a batch. -/
structure BatchTradeInput where
  user : Address
  token : Address
  amount : Int

def BatchTradeInput.input (t : BatchTradeInput) : TradeInput := ⟨t.user, t.token, t.amount, none⟩

/-- How a trade of a batch ended. -/
structure BatchTradeResult where
  ok : Bool
  errorCode : Nat
  atomicRollback : Bool
  deriving DecidableEq

def BatchTradeResult.of : Except ContractError Unit → BatchTradeResult
  | .ok () => ⟨true, 0, false⟩
  | .error e => ⟨false, e.code, false⟩

def prepareBatchContext : T ξ BatchExecutionContext := do
  let portfolio ← load (·.config.userPortfolio)
  let portfolio ← Tx.ofOption portfolio (err .notInitialized)
  let fee ← load (·.config.copyTradeEstimatedFee)
  let limit ← load (·.config.dailyVolumeLimit)
  let active ← marketCircuitBreakerActive
  return ⟨portfolio, fee, limit, active⟩

/-- The trades one after the other. `run` executes one. -/
def batchTrades (run : TradeInput → T ξ Unit) : List BatchTradeInput → T ξ (List BatchTradeResult)
  | [] => return []
  | t :: ts => do
    let result ← Tx.attempt (run t.input)
    let results ← batchTrades run ts
    return .of result :: results

/-- A pair of user and token may come only once. The source compares the hashes of the pairs. -/
def batchExecuteAtomic (trades : List BatchTradeInput) (atomic : Bool) : T ξ (List BatchTradeResult) := do
  failIf (trades = [] ∨ MAX_BATCH_SIZE < trades.length) (err .invalidAmount)
  failIf (¬ (trades.map fun t => (t.user, t.token)).Nodup) (err .invalidAmount)
  let ctx ← prepareBatchContext
  let results ← batchTrades (fun t => executeAuthorizedTrade X env t (some ctx)) trades
  failIf (atomic = true ∧ ∃ r ∈ results, r.ok = false) .panic
  return results

/-- Trades in one call, each of which may fail by itself. -/
def batchExecute (trades : List BatchTradeInput) : T ξ (List BatchTradeResult) :=
  batchExecuteAtomic X env trades false

/-! ## Plans -/

def executeDCACopyTrade (user : Address) (signalId : Nat) (totalAmount : Int)
    (numIntervals intervalLedgers signalExpiryLedger : Nat) : T ξ Unit := do
  requireAuth env.auth user
  failIf (totalAmount ≤ 0 ∨ numIntervals = 0 ∨ intervalLedgers = 0) (err .invalidAmount)
  let plan ← load (·.orders.dcaPlans.lookup (user, signalId))
  failIf (plan.isSome = true) (err .dcaPlanAlreadyExists)
  let now ← sequence
  failIf (0 < signalExpiryLedger ∧ signalExpiryLedger ≤ now) (err .signalExpired)
  let amount := totalAmount.tdiv numIntervals
  failIf (amount ≤ 0) (err .invalidAmount)
  saveOrders fun o => { o with
    dcaPlans := o.dcaPlans.insert (user, signalId)
      ⟨amount, numIntervals, numIntervals, now, intervalLedgers, signalExpiryLedger, 0⟩ }

/-- The position of an interval. It is not counted. -/
def openInterval (user : Address) : Option Address → T ξ Unit
  | none => return ()
  | some portfolio => do
    let exempt ← load (·.exempt user)
    let id ← validateAndRecordPosition X portfolio user exempt
    note (.opened user id none)

/-- The rest of the plan is stored, or the plan is complete. -/
def storePlan (user : Address) (signalId : Nat) (plan : DCAPlan) (now : Nat) : T ξ Bool :=
  if plan.remainingIntervals = 0 then do
    saveOrders fun o => { o with dcaPlans := o.dcaPlans.erase (user, signalId) }
    return true
  else do
    let nextIntervalLedger ← plainU32 (now + plan.intervalLedgers)
    saveOrders fun o => { o with
      dcaPlans := o.dcaPlans.insert (user, signalId) { plan with nextIntervalLedger } }
    return false

def executeDCAInterval (user : Address) (signalId : Nat) : T ξ Bool := do
  requireFeatureEnabled FEAT_DCA
  let portfolio ← load (·.config.userPortfolio)
  let plan ← load (·.orders.dcaPlans.lookup (user, signalId))
  let plan ← Tx.ofOption plan (err .dcaPlanNotFound)
  let now ← sequence
  -- the removal of an expired plan is undone with the call
  failIf (0 < plan.signalExpiryLedger ∧ plan.signalExpiryLedger ≤ now) (err .signalExpired)
  failIf (now < plan.nextIntervalLedger) (err .intervalNotDue)
  openInterval X user portfolio
  let executedAmount ← plain (plan.executedAmount + plan.amountPerInterval)
  let remainingIntervals ← subU32 plan.remainingIntervals 1
  storePlan user signalId { plan with executedAmount, remainingIntervals } now

def cancelDCAPlan (user : Address) (signalId : Nat) : T ξ Unit := do
  requireAuth env.auth user
  let plan ← load (·.orders.dcaPlans.lookup (user, signalId))
  let _ ← Tx.ofOption plan (err .dcaPlanNotFound)
  saveOrders fun o => { o with dcaPlans := o.dcaPlans.erase (user, signalId) }

/-! ## Swaps -/

/-- `map_pair_error`, of what `validate_pair_for_route` finds. -/
def validatePair (registry router src dst : Address) : T ξ Unit := do
  failIf (src = dst) (err .identicalAssets)
  let srcRegistered ← Tx.gets fun w => X.isRegistered registry src w.ext
  failIf (srcRegistered = false) (err .assetNotRegistered)
  let dstRegistered ← Tx.gets fun w => X.isRegistered registry dst w.ext
  failIf (dstRegistered = false) (err .assetNotRegistered)
  let ask ← Tx.gets fun w => X.getBestAsk router src dst w.ext
  failIf (¬ ∃ a ∈ ask, 0 < a.1 ∧ 0 < a.2) (err .unsupportedPair)

def validatePairBeforeSwap (router src dst : Address) : T ξ Unit := do
  let registry ← load (·.config.assetRegistry)
  match registry with
  | none => return ()
  | some registry => validatePair X registry router src dst

/-- `check_liquidity` without slippage. -/
def checkLiquidity (router src dst : Address) (required entryPrice : Int) : T ξ Unit := do
  let ask ← view (X.getBestAsk router src dst)
  failIf (ask.2 = 0 ∨ ask.2 < required) (err .insufficientLiquidity)
  failIf (((checkedMul entryPrice 10000).getD i128Max).tdiv 10000 < ask.1) (err .insufficientLiquidity)

def ROUTER_ALLOWANCE_LEDGERS : Nat := 1000000

def executeSdexSwap (router src dst : Address) (amount minReceived : Int) : T ξ Int := do
  failIf (amount ≤ 0 ∨ minReceived < 0) (err .invalidAmount)
  checkLiquidity X router src dst amount minReceived
  let now ← sequence
  failIf (u32Max < now + ROUTER_ALLOWANCE_LEDGERS) (err .invalidAmount)
  tryInvoke (X.approve src router amount (now + ROUTER_ALLOWANCE_LEDGERS))
  let before ← view (X.balance dst env.contract)
  tryInvoke (X.swap router env.contract src dst amount minReceived)
  let after ← view (X.balance dst env.contract)
  let received := (checkedSub after before).getD 0
  failIf (received < minReceived) (err .slippageExceeded)
  return received

/-! ## Closing a position -/

/-- What a cancellation of a trade needs. -/
structure CancelParams where
  user : Address
  tradeId : Nat
  fromToken : Address
  toToken : Address
  amount : Int
  minReceived : Int
  entryPrice : Int

/-- The position is closed in the portfolio and no longer counted. -/
def closePosition (portfolio : Address) (p : CancelParams) (pnl : Int) : T ξ Unit := do
  invoke (X.closePosition portfolio p.user p.tradeId pnl)
  note (.closed p.user p.tradeId)
  decreaseOpenInterest p.fromToken p.amount
  decrementUserPositionCount p.user

/-- What is left of the exit price over the value at the entry. -/
def realizedPnl (p : CancelParams) (exitPrice : Int) : T ξ Int := do
  let product ← Tx.ofOption (checkedMul p.amount p.entryPrice) (err .invalidAmount)
  plain (exitPrice - product.tdiv 10000000)

/-- A swap (`trade_executor::sdex`) that closes a position. -/
def cancelCopyTrade (caller : Address) (p : CancelParams) (replay : ReplayParams) : T ξ Unit := do
  verifyAndCommit p.user replay
  requireAuth env.auth caller
  failIf (caller ≠ p.user) (err .unauthorized)
  let portfolio ← load (·.config.userPortfolio)
  let portfolio ← Tx.ofOption portfolio (err .notInitialized)
  let exists' ← view (X.hasPosition portfolio p.user p.tradeId)
  failIf (exists' = false) (err .tradeNotFound)
  let router ← load (·.config.sdexRouter)
  let router ← Tx.ofOption router (err .notInitialized)
  validatePairBeforeSwap X router p.fromToken p.toToken
  let exitPrice ← executeSdexSwap X env router p.fromToken p.toToken p.amount p.minReceived
  let pnl ← realizedPnl p exitPrice
  closePosition X portfolio p pnl

/-! ## Triggers -/

def MAX_ORACLE_PRICE_AGE_SECS : Nat := 300

def fetchOracleAndPortfolio : T ξ (Address × Address) := do
  let oracle ← load (·.config.oracle)
  let oracle ← Tx.ofOption oracle (err .notInitialized)
  let portfolio ← load (·.config.stopLossPortfolio)
  let portfolio ← Tx.ofOption portfolio (err .notInitialized)
  return (oracle, portfolio)

def fetchCurrentPrice (oracle : Address) (assetPair : Nat) : T ξ Int := do
  let updatedAt ← view (X.getPriceTimestamp oracle assetPair)
  failIf (updatedAt = 0) (err .oracleUnavailable)
  let now ← timestamp
  failIf (MAX_ORACLE_PRICE_AGE_SECS < now - updatedAt) (err .oraclePriceStale)
  view (X.getPrice oracle assetPair)

/-- The open interest is left alone. -/
def closePositionKeeper (portfolio user : Address) (tradeId assetPair : Nat) : T ξ Unit := do
  invoke (X.closePositionKeeper portfolio env.contract user tradeId assetPair)
  note (.closed user tradeId)
  decrementUserPositionCount user

/-- The position is closed if the trigger is reached. -/
def closeIf (reached : Prop) [Decidable reached] (portfolio user : Address) (tradeId assetPair : Nat) :
    T ξ Bool := do
  Tx.when reached (closePositionKeeper X env portfolio user tradeId assetPair)
  return decide reached

def checkAndTriggerStopLoss (user : Address) (tradeId assetPair : Nat) : T ξ Bool := do
  let contracts ← fetchOracleAndPortfolio
  let stopLoss ← load (·.thresholds.stopLoss.lookup (user, tradeId))
  let stopLoss ← Tx.ofOption stopLoss (err .notInitialized)
  let price ← fetchCurrentPrice X contracts.1 assetPair
  closeIf X env (price ≤ stopLoss) contracts.2 user tradeId assetPair

/-- A stop loss that is reached too comes first. -/
def checkAndTriggerTakeProfit (user : Address) (tradeId assetPair : Nat) : T ξ Bool := do
  let contracts ← fetchOracleAndPortfolio
  let takeProfit ← load (·.thresholds.takeProfit.lookup (user, tradeId))
  let takeProfit ← Tx.ofOption takeProfit (err .notInitialized)
  let price ← fetchCurrentPrice X contracts.1 assetPair
  let stopLoss ← load (·.thresholds.stopLoss.lookup (user, tradeId))
  closeIf X env (¬ (∃ s ∈ stopLoss, price ≤ s) ∧ takeProfit ≤ price) contracts.2 user tradeId assetPair

def updateTrailingPeak (user : Address) (tradeId : Nat) (price : Int) : T ξ Int := do
  let peak ← load fun s => (s.thresholds.trailPeak.lookup (user, tradeId)).getD 0
  Tx.when (peak < price) (saveThresholds fun t => { t with
    trailPeak := t.trailPeak.insert (user, tradeId) price })
  return max peak price

def checkAndTriggerTrailingStop (user : Address) (tradeId assetPair : Nat) : T ξ Bool := do
  let contracts ← fetchOracleAndPortfolio
  let trail ← load (·.thresholds.trailBps.lookup (user, tradeId))
  let peak ← load (·.thresholds.trailPeak.lookup (user, tradeId))
  let trailBps ← Tx.ofOption (peak.bind fun _ => trail) (err .notInitialized)
  let price ← fetchCurrentPrice X contracts.1 assetPair
  let peak ← updateTrailingPeak user tradeId price
  closeIf X env (price ≤ (clamp (peak * (10000 - trailBps))).tdiv 10000) contracts.2 user tradeId assetPair

def setStopLossPrice (user : Address) (tradeId : Nat) (price : Int) : T ξ Unit := do
  requireAuth env.auth user
  saveThresholds fun t => { t with stopLoss := t.stopLoss.insert (user, tradeId) price }

def setTakeProfitPrice (user : Address) (tradeId : Nat) (price : Int) : T ξ Unit := do
  requireAuth env.auth user
  saveThresholds fun t => { t with takeProfit := t.takeProfit.insert (user, tradeId) price }

def setTrailingStop (user : Address) (tradeId trailBps : Nat) (initialPrice : Int) : T ξ Unit := do
  requireAuth env.auth user
  saveThresholds fun t => { t with
    trailBps := t.trailBps.insert (user, tradeId) trailBps
    trailPeak := t.trailPeak.insert (user, tradeId) initialPrice }

end Trades

end CallStake.TradeExecutor
