import CallStake.Common.ReplayProtection

/-!
# The trade executor: storage and environment

The data of the `trade_executor` contract. The storage is one record, grouped by what the entries are for; an entry
that is only ever read with a default holds the default while it is unset.

* `Config`: what the administrator sets. `Exposure`: open interest, positions, daily volumes, the circuit breaker.
* `Receipts`, `Orders`, `Thresholds`, `Queue`: what accompanies a trade, and what is to be traded later.
* `Externals`: the contracts that the executor calls, as functions on their joint state `ξ`. A view reads it.
* `Entry`: what happened, in the journal of the world, which no function reads.

Left out: events, and the entries that no modelled function uses (the SDEX fills, the callbacks of settlements). What
only the confirmation of trades reads is in `Confirmation`. A receipt holds what is hashed in place of the hash.
-/

namespace CallStake.TradeExecutor

/-! ## Errors -/

/-- The errors of the executor. -/
inductive ContractError where
  | notInitialized
  | positionLimitReached
  | insufficientBalance
  | invalidAmount
  | reentrancyDetected
  | unauthorized
  | tradeNotFound
  | slippageExceeded
  | positionPctTooHigh
  | oraclePriceStale
  | oracleUnavailable
  | dailyVolumeLimitExceeded
  | oracleNotWhitelisted
  | cannotRemoveLastOracle
  | openInterestLimitReached
  | dcaPlanNotFound
  | dcaPlanAlreadyExists
  | signalExpired
  | intervalNotDue
  | networkCongestion
  | insufficientLiquidity
  | circuitBreakerActive
  | featureDisabled
  | replayDetected
  | belowMinimumTradeSize
  | gracePeriodExpired
  | queuedTradeNotFound
  | notTradeOwner
  | maxRetriesExceeded
  | confirmationDepthNotReached
  | tooManyOpenPositions
  | nonceAlreadyUsed
  | tradeExpired
  | contractPaused
  | assetNotRegistered
  | identicalAssets
  | unsupportedPair
  | assetRegistryNotConfigured
  | insufficientAllowance
  | tokenOperationFailed
  deriving DecidableEq

/-- `e as u32`. -/
def ContractError.code (e : ContractError) : Nat := e.ctorIdx + 1

def ContractError.ofTokenFailure : TokenFailure → ContractError
  | .unauthorized => .unauthorized
  | .insufficientBalance => .insufficientBalance
  | .insufficientAllowance => .insufficientAllowance
  | .invalidRequest | .overflow | .otherContractError _ | .hostError => .tokenOperationFailed

/-- `map_replay_error`. -/
def mapReplayError : ReplayProtection.ReplayError → ContractError
  | .expired => .tradeExpired
  | .invalidNonce | .duplicateTx => .nonceAlreadyUsed

/-! ## Stored values -/

/-- By how much a balance was too small. -/
structure InsufficientBalanceDetail where
  required : Int
  available : Int

/-- An order that waits for its price. -/
structure PendingLimitOrder where
  orderId : Nat
  user : Address
  token : Address
  amount : Int
  portfolioPctBps : Option Nat
  limitPrice : Int
  expiresAtLedger : Nat

/-- A trade that waits. -/
structure QueuedTrade where
  queuedTradeId : Nat
  user : Address
  token : Address
  amount : Int
  queuedAtLedger : Nat
  portfolioPctBps : Option Nat
  retryCount : Nat

/-- A dead letter. -/
structure FailedTrade where
  tradeId : Nat
  user : Address
  token : Address
  amount : Int
  portfolioPctBps : Option Nat
  failureCode : Nat
  retryCount : Nat
  deadLetteredAtLedger : Nat

/-- A plan of trades at intervals. -/
structure DCAPlan where
  amountPerInterval : Int
  remainingIntervals : Nat
  totalIntervals : Nat
  nextIntervalLedger : Nat
  intervalLedgers : Nat
  signalExpiryLedger : Nat
  executedAmount : Int

/-- What the hash of a receipt is taken of. -/
structure TradeReceipt where
  user : Address
  token : Address
  amount : Int
  price : Int
  timestamp : Nat
  receiptId : Nat

/-- How far a trade has come. -/
inductive TradeStatus where
  | pending
  | partiallyFilled
  | executedAwaitingConfirmation
  | filled
  | failed
  deriving DecidableEq

/-- A trade that waits for its confirmation. -/
structure TradeOrder where
  executionLedger : Nat
  tradeId : Nat
  user : Address
  amount : Int
  expiresAtLedger : Nat
  status : TradeStatus
  deriving DecidableEq

/-! ## Storage -/

def MAX_POSITIONS_PER_USER : Nat := 20
def MAX_POSITION_PCT_BPS : Nat := 2000
def DEFAULT_ESTIMATED_COPY_TRADE_FEE : Int := 500000
def MAX_BATCH_SIZE : Nat := 10
def DEFAULT_MIN_TRADE_SIZE : Int := 1000
def DEFAULT_MAX_OPEN_POSITIONS : Nat := 50
def CIRCUIT_BREAKER_DURATION_LEDGERS : Nat := 720
def TRADE_TIMEOUT_LEDGERS : Nat := 120
def DEFAULT_GRACE_PERIOD_LEDGERS : Nat := 10
def DEFAULT_MAX_RETRY_COUNT : Nat := 3
def DEFAULT_DEAD_LETTER_RETENTION_LEDGERS : Nat := 518400

/-- What the administrator sets. -/
structure Config where
  admin : Option Address
  paused : Bool
  userPortfolio : Option Address
  stopLossPortfolio : Option Address
  oracle : Option Address
  sdexRouter : Option Address
  assetRegistry : Option Address
  copyTradeEstimatedFee : Int
  positionLimitExempt : Store Address Bool
  maxOpenPositions : Nat
  dailyVolumeLimit : Int
  maxOpenInterestPerPair : Int
  minTradeSize : Store Address Int
  sdexPrice : Store Address Int
  featureFlags : Store Symbol Bool
  tradeGracePeriod : Nat
  maxRetryCount : Nat
  deadLetterRetentionLedgers : Nat

/-- Open interest, volumes and the circuit breaker. -/
structure Exposure where
  openInterest : Store Address Int
  userPositionCount : Store Address Nat
  dailyVolume : Store Address Int
  dailyVolumeDay : Store Address Nat
  lastInsufficientBalance : Store Address InsufficientBalanceDetail
  circuitBreakerActive : Bool
  circuitBreakerLedger : Option Nat

/-- `feeDeductedFromReceived` counts the trades of a user whose fee was taken of what was received. -/
structure Receipts where
  feeDeductedFromReceived : Store Address Nat
  tradeReceipts : Store Nat TradeReceipt
  nextTradeReceiptId : Nat
  pendingTradeConfirmation : Option TradeOrder

/-- Limit orders and plans. -/
structure Orders where
  nextLimitOrderId : Nat
  pendingLimitOrders : Store Nat PendingLimitOrder
  pendingLimitOrderIds : List Nat
  dcaPlans : Store (Address × Nat) DCAPlan

/-- Prices at which a position is closed, by user and trade. -/
structure Thresholds where
  stopLoss : Store (Address × Nat) Int
  takeProfit : Store (Address × Nat) Int
  trailBps : Store (Address × Nat) Nat
  trailPeak : Store (Address × Nat) Int

/-- Queued trades and dead letters. -/
structure Queue where
  queuedTrades : Store Nat QueuedTrade
  nextQueuedTradeId : Nat
  queuedTradeIds : List Nat
  deadLetterTrades : Store Nat FailedTrade
  deadLetterIds : Store Address (List Nat)
  deadLetterAllIds : List Nat

/-- The storage of the contract. -/
structure Storage where
  config : Config
  exposure : Exposure
  receipts : Receipts
  orders : Orders
  thresholds : Thresholds
  queue : Queue
  replay : ReplayProtection.ReplayStorage

def Config.deployed : Config where
  admin := none
  paused := false
  userPortfolio := none
  stopLossPortfolio := none
  oracle := none
  sdexRouter := none
  assetRegistry := none
  copyTradeEstimatedFee := DEFAULT_ESTIMATED_COPY_TRADE_FEE
  positionLimitExempt := ∅
  maxOpenPositions := DEFAULT_MAX_OPEN_POSITIONS
  dailyVolumeLimit := 0
  maxOpenInterestPerPair := 0
  minTradeSize := ∅
  sdexPrice := ∅
  featureFlags := ∅
  tradeGracePeriod := DEFAULT_GRACE_PERIOD_LEDGERS
  maxRetryCount := DEFAULT_MAX_RETRY_COUNT
  deadLetterRetentionLedgers := DEFAULT_DEAD_LETTER_RETENTION_LEDGERS

/-- The storage of a contract that was just deployed. -/
def Storage.deployed : Storage where
  config := .deployed
  exposure := ⟨∅, ∅, ∅, ∅, ∅, false, none⟩
  receipts := ⟨∅, ∅, 1, none⟩
  orders := ⟨1, ∅, [], ∅⟩
  thresholds := ⟨∅, ∅, ∅, ∅⟩
  queue := ⟨∅, 1, [], ∅, ∅, []⟩
  replay := .empty

/-! ### Entries with their defaults -/

namespace Storage

variable (s : Storage)

def exempt (user : Address) : Bool := (s.config.positionLimitExempt.lookup user).getD false

def minTradeSize (token : Address) : Int := (s.config.minTradeSize.lookup token).getD DEFAULT_MIN_TRADE_SIZE

/-- A flag that is not set is enabled. -/
def isFlagEnabled (name : Symbol) : Bool := (s.config.featureFlags.lookup name).getD true

def openInterest (pair : Address) : Int := (s.exposure.openInterest.lookup pair).getD 0

def userPositionCount (user : Address) : Nat := (s.exposure.userPositionCount.lookup user).getD 0

def dailyVolume (user : Address) : Int := (s.exposure.dailyVolume.lookup user).getD 0

def dailyVolumeDay (user : Address) : Nat := (s.exposure.dailyVolumeDay.lookup user).getD 0

def sdexPrice (token : Address) : Int := (s.config.sdexPrice.lookup token).getD 0

def deadLetterIds (user : Address) : List Nat := (s.queue.deadLetterIds.lookup user).getD []

end Storage

/-! ## Environment -/

/-- The contracts that the executor calls, as functions on their joint state. `none` is a call that failed, which
ends the transaction unless it is tried. A call that records a position tells the id it has in the portfolio, of
which the executor makes no use. -/
structure Externals (ξ : Type) where
  balance : (token user : Address) → ξ → Option Int
  approve : (token spender : Address) → (amount : Int) → (expiration : Nat) → ξ → Except InvokeFailure ξ
  getBestAsk : (router src dst : Address) → ξ → Option (Int × Int)
  swap : (router contract src dst : Address) → (amount minOut : Int) → ξ → Except InvokeFailure ξ
  isRegistered : (registry asset : Address) → ξ → Bool
  validateAndRecord : (portfolio user : Address) → (maxPositions : Nat) → ξ → Option (Nat × ξ)
  hasPosition : (portfolio user : Address) → (id : Nat) → ξ → Option Bool
  closePosition : (portfolio user : Address) → (id : Nat) → (pnl : Int) → ξ → Option ξ
  closePositionKeeper : (portfolio contract user : Address) → (id assetPair : Nat) → ξ → Option ξ
  getPriceTimestamp : (oracle : Address) → (assetPair : Nat) → ξ → Option Nat
  getPrice : (oracle : Address) → (assetPair : Nat) → ξ → Option Int

/-- What happened to a position or a queued trade. A position tells what was added to the open interest for it. What a
call did to a queued trade is entered by the step, once the call is accepted (`call`); `executed` and `failed` are the
results of an execution, `deadLettered` and `pruned` the events that the executor publishes. -/
inductive Entry where
  | opened (user : Address) (id : Nat) (added : Option (Address × Int))
  | closed (user : Address) (id : Nat)
  | queued (id : Nat) (ledger : Nat)
  | executed (id : Nat) (ledger : Nat)
  | failed (id : Nat) (ledger : Nat)
  | cancelled (id : Nat) (ledger : Nat)
  | deadLettered (id : Nat)
  | requeued (id : Nat) (ledger : Nat)
  | discarded (id : Nat)
  | pruned (id : Nat)
  deriving DecidableEq

/-- The id of the queued trade that the entry is about. -/
def Entry.subject : Entry → Option Nat
  | .opened .. | .closed .. => none
  | .queued id _ | .executed id _ | .failed id _ | .cancelled id _ | .deadLettered id | .requeued id _
  | .discarded id | .pruned id => some id

/-- `locked` is the lock in the temporary storage. -/
structure World (ξ : Type) where
  ledger : Ledger
  store : Storage
  ext : ξ
  locked : Bool
  journal : List Entry

/-- Who signs, and the own address. -/
structure Env where
  auth : Auth
  contract : Address

abbrev T (ξ : Type) := Tx (World ξ) (Fault ContractError)

/-! ## Primitives -/

section Primitives

variable {ξ α : Type}

def err (e : ContractError) : Fault ContractError := .err e

def load (f : Storage → α) : T ξ α := Tx.gets fun w => f w.store

def save (f : Storage → Storage) : T ξ Unit := Tx.modify fun w => { w with store := f w.store }

def saveExposure (f : Exposure → Exposure) : T ξ Unit := save fun s => { s with exposure := f s.exposure }

def saveReceipts (f : Receipts → Receipts) : T ξ Unit := save fun s => { s with receipts := f s.receipts }

def saveOrders (f : Orders → Orders) : T ξ Unit := save fun s => { s with orders := f s.orders }

def saveThresholds (f : Thresholds → Thresholds) : T ξ Unit := save fun s => { s with thresholds := f s.thresholds }

def saveQueue (f : Queue → Queue) : T ξ Unit := save fun s => { s with queue := f s.queue }

def timestamp : T ξ Nat := Tx.gets (·.ledger.timestamp)

def sequence : T ξ Nat := Tx.gets (·.ledger.sequence)

/-- Something is entered in the journal. -/
def note (e : Entry) : T ξ Unit := Tx.modify fun w => { w with journal := e :: w.journal }

/-- Something is entered in the journal, with the ledger. -/
def World.enter (w : World ξ) (e : Nat → Entry) : World ξ := { w with journal := e w.ledger.sequence :: w.journal }

def enter (e : Nat → Entry) : T ξ Unit := Tx.modify (·.enter e)

/-- A view of another contract, which traps if it fails. -/
def view (f : ξ → Option α) : T ξ α := fun w => (Tx.ofOption (f w.ext) .panic : T ξ α) w

/-- A call of another contract, which traps if it fails. -/
def invoke (f : ξ → Option ξ) : T ξ Unit := fun w =>
  match f w.ext with
  | some ext => (.ok (), { w with ext })
  | none => (.error .panic, w)

/-- `map_result(try_..)`. -/
def tryInvoke (f : ξ → Except InvokeFailure ξ) : T ξ Unit := fun w =>
  match f w.ext with
  | .ok ext => (.ok (), { w with ext })
  | .error e => (.error (err (.ofTokenFailure (classify e))), w)

/-- A plain operation on `i128`, which traps on overflow. -/
def plain (x : Int) : T ξ Int := Tx.ofOption (checked x) .panic

/-- A plain `+` on `u32`, which traps on overflow. -/
def plainU32 (n : Nat) : T ξ Nat := Tx.ofOption (if n ≤ u32Max then some n else none) .panic

/-- A plain `-` on `u32`, which traps below zero. -/
def subU32 (a b : Nat) : T ξ Nat := Tx.ofOption (if b ≤ a then some (a - b) else none) .panic

def requireAdmin (env : Env) : T ξ Unit := do
  let admin ← load (·.config.admin)
  let admin ← Tx.ofOption admin (err .notInitialized)
  requireAuth env.auth admin

end Primitives

end CallStake.TradeExecutor
