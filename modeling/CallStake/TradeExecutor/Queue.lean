import CallStake.TradeExecutor.Trade

/-!
# Queued trades

A trade may be queued, and is executed once its grace period is over. A trade that fails too often goes to the
dead-letter queue, from where the administrator takes it back or throws it away.
-/

namespace CallStake.TradeExecutor

section Queue

variable {ξ : Type} (X : Externals ξ) (env : Env)

/-! ## Index lists -/

/-- The list without the first place where the id stands. -/
def removeId (id : Nat) (ids : List Nat) : List Nat := ids.erase id

def nextQueuedTradeId : T ξ Nat := do
  let id ← load (·.queue.nextQueuedTradeId)
  saveQueue fun q => { q with nextQueuedTradeId := u64Add id 1 }
  return id

def storeQueuedTrade (trade : QueuedTrade) : T ξ Unit :=
  saveQueue fun q => { q with
    queuedTrades := q.queuedTrades.insert trade.queuedTradeId trade
    queuedTradeIds := q.queuedTradeIds ++ [trade.queuedTradeId] }

/-- The trade is no longer queued. The index is left alone. -/
def removeQueuedTrade (id : Nat) : T ξ Unit := saveQueue fun q => { q with queuedTrades := q.queuedTrades.erase id }

def gracePeriodElapsed (grace now queuedAtLedger : Nat) : Prop := grace ≤ now - queuedAtLedger
  deriving Decidable

/-- The dead letter is removed, with its places in the indices. -/
def removeDeadLetter (user : Address) (id : Nat) : T ξ Unit := do
  saveQueue fun q => { q with deadLetterTrades := q.deadLetterTrades.erase id }
  let ids ← load (·.deadLetterIds user)
  saveQueue fun q => { q with deadLetterIds := q.deadLetterIds.insert user (removeId id ids) }
  saveQueue fun q => { q with deadLetterAllIds := removeId id q.deadLetterAllIds }

/-- `dead_letter_trade_internal`. The entry in the journal is the event `trade_dead_lettered`. -/
def deadLetterTrade (trade : QueuedTrade) (failureCode : Nat) : T ξ Unit := do
  let now ← sequence
  saveQueue fun q => { q with
    deadLetterTrades := q.deadLetterTrades.insert trade.queuedTradeId
      ⟨trade.queuedTradeId, trade.user, trade.token, trade.amount, trade.portfolioPctBps, failureCode,
        u32Add trade.retryCount 1, now⟩ }
  let ids ← load (·.deadLetterIds trade.user)
  saveQueue fun q => { q with
    deadLetterIds := q.deadLetterIds.insert trade.user (ids ++ [trade.queuedTradeId]) }
  saveQueue fun q => { q with deadLetterAllIds := q.deadLetterAllIds ++ [trade.queuedTradeId] }
  note (.deadLettered trade.queuedTradeId)

/-! ## Queueing -/

/-- `queue_copy_trade`: executed after the grace period. -/
def queueCopyTrade (user token : Address) (amount : Int) (portfolioPctBps : Option Nat) : T ξ Nat := do
  requireAuth env.auth user
  let exempt ← load (·.exempt user)
  checkPositionCap user exempt
  let id ← nextQueuedTradeId
  let now ← sequence
  storeQueuedTrade ⟨id, user, token, amount, now, portfolioPctBps, 0⟩
  return id

/-- `cancel_queued_trade`: by its user, in the grace period. -/
def cancelQueuedTrade (user : Address) (id : Nat) : T ξ Unit := do
  requireAuth env.auth user
  let trade ← load (·.queue.queuedTrades.lookup id)
  let trade ← Tx.ofOption trade (err .queuedTradeNotFound)
  Tx.failIf (trade.user ≠ user) (err .notTradeOwner)
  let grace ← load (·.config.tradeGracePeriod)
  let now ← sequence
  Tx.failIf (gracePeriodElapsed grace now trade.queuedAtLedger) (err .gracePeriodExpired)
  removeQueuedTrade id
  saveQueue fun q => { q with queuedTradeIds := removeId id q.queuedTradeIds }

/-! ## Execution -/

def QueuedTrade.input (trade : QueuedTrade) : TradeInput :=
  ⟨trade.user, trade.token, trade.amount, trade.portfolioPctBps⟩

/-- A trade that failed is tried again, or goes to the dead-letter queue. Whether it stays in the queue. -/
def retryOrDeadLetter (trade : QueuedTrade) (id : Nat) (e : ContractError) : T ξ Bool := do
  let maxRetries ← load (·.config.maxRetryCount)
  let retries := u32Add trade.retryCount 1
  if maxRetries ≤ retries then do
    deadLetterTrade trade e.code
    removeQueuedTrade id
    return false
  else do
    saveQueue fun q => { q with queuedTrades := q.queuedTrades.insert id { trade with retryCount := retries } }
    return true

/-- What the result of an execution is entered as. -/
def Entry.ofAttempt (id now : Nat) : Except ContractError Unit → Entry
  | .ok () => .executed id now
  | .error _ => .failed id now

/-- Whether the trade was executed, and whether it stays in the queue. -/
def concludeAttempt (trade : QueuedTrade) (id : Nat) : Except ContractError Unit → T ξ (Bool × Bool)
  | .ok () => do
    removeQueuedTrade id
    return (true, false)
  | .error e => do
    let stays ← retryOrDeadLetter trade id e
    return (false, stays)

/-- The result is entered before anything is done about it. -/
def settleAttempt (trade : QueuedTrade) (id : Nat) (result : Except ContractError Unit) : T ξ (Bool × Bool) := do
  let now ← sequence
  note (.ofAttempt id now result)
  concludeAttempt trade id result

/-- A trade of the queue. `run` executes it. -/
def attemptTrade (run : TradeInput → T ξ Unit) (trade : QueuedTrade) (id : Nat) : T ξ (Bool × Bool) := do
  let grace ← load (·.config.tradeGracePeriod)
  let now ← sequence
  if gracePeriodElapsed grace now trade.queuedAtLedger then do
    let result ← Tx.attempt (run trade.input)
    settleAttempt trade id result
  else return (false, true)

/-- An id of the index. One without a trade is dropped. -/
def processQueuedTrade (run : TradeInput → T ξ Unit) (id : Nat) : T ξ (Bool × Bool) := do
  let trade ← load (·.queue.queuedTrades.lookup id)
  match trade with
  | none => return (false, false)
  | some trade => attemptTrade run trade id

/-- The ids that remain, and the number of trades that were executed. -/
def processQueue (run : TradeInput → T ξ Unit) : List Nat → T ξ (List Nat × Nat)
  | [] => return ([], 0)
  | id :: ids => do
    let (executed, stays) ← processQueuedTrade run id
    let (remaining, count) ← processQueue run ids
    return (if stays then id :: remaining else remaining, if executed then u32Add count 1 else count)

/-- The queue, with the routine that trades. -/
def executeQueue (run : TradeInput → T ξ Unit) : T ξ Nat := do
  let ids ← load (·.queue.queuedTradeIds)
  let (remaining, executed) ← processQueue run ids
  saveQueue fun q => { q with queuedTradeIds := remaining }
  return executed

/-- `execute_queued_trades`: all trades that are due. -/
def executeQueuedTrades : T ξ Nat := executeQueue fun t => executeMarketCopyTrade X t none

/-! ## Dead letters -/

def loadDeadLetter (id : Nat) : T ξ FailedTrade := do
  let failed ← load (·.queue.deadLetterTrades.lookup id)
  Tx.ofOption failed (err .queuedTradeNotFound)

/-- A dead letter joins the queue again. -/
def requeueDeadLetteredTrade (id : Nat) : T ξ Unit := do
  requireAdmin env
  let failed ← loadDeadLetter id
  removeDeadLetter failed.user id
  let now ← sequence
  storeQueuedTrade ⟨id, failed.user, failed.token, failed.amount, now, failed.portfolioPctBps, 0⟩

/-- A dead letter is thrown away. -/
def discardDeadLetteredTrade (id : Nat) : T ξ Unit := do
  requireAdmin env
  let failed ← loadDeadLetter id
  removeDeadLetter failed.user id

/-- A dead letter that is stale is removed. Whether it was. The entry is the event `dead_letter_pruned`. -/
def pruneDeadLetter (retention id : Nat) : T ξ Bool := do
  let failed ← load (·.queue.deadLetterTrades.lookup id)
  let now ← sequence
  match failed with
  | none => return false
  | some failed =>
    if retention ≤ now - failed.deadLetteredAtLedger then do
      removeDeadLetter failed.user id
      note (.pruned id)
      return true
    else return false

/-- `while i < ids.len() && removed < max_entries`. -/
def pruneDeadLetters (retention maxEntries : Nat) : Nat → List Nat → T ξ Nat
  | removed, [] => return removed
  | removed, id :: ids =>
    if removed < maxEntries then do
      let pruned ← pruneDeadLetter retention id
      pruneDeadLetters retention maxEntries (if pruned then u32Add removed 1 else removed) ids
    else return removed

/-- The oldest dead letters are dropped. -/
def pruneDeadLetterQueue (user : Option Address) (maxEntries : Nat) : T ξ Nat := do
  requireAdmin env
  let retention ← load (·.config.deadLetterRetentionLedgers)
  let ids ← load fun s => match user with
    | some user => s.deadLetterIds user
    | none => s.queue.deadLetterAllIds
  pruneDeadLetters retention maxEntries 0 ids

end Queue

end CallStake.TradeExecutor
