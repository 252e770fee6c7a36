import CallStake.TradeExecutor.Entrypoints

/-!
# What the ways to trade write

* `Calm R`: the preorder `R` allows what a trade writes besides the positions and the receipts, and what a swap does.
  `Quiet R`: and what it writes of the receipts.
* `within_executeMarketCopyTrade` and its like: then a call moves along `R` as soon as the trades that it settles do
  (`Settles R`), and the positions that it closes.
* `Queues R`: `R` allows what is written to the queue.
* `within_call`: then any call moves along `R`, with what else opens and closes a position.
* `QueueKept`: a call that is not about the queue leaves the queue and the settings alone (`queueKept_of_call`).
-/

namespace CallStake.TradeExecutor

open Tx

/-! ## Primitives -/

-- the proofs that instance resolution builds grow with the length of a computation
set_option synthInstance.maxSize 1000000000

section Primitives

variable {ξ α : Type} {R : World ξ → World ξ → Prop} [IsPreorder (World ξ) R]

instance within_load (f : Storage → α) : Within R (load f) := within_gets _

instance within_timestamp : Within R (timestamp (ξ := ξ)) := within_gets _

instance within_sequence : Within R (sequence (ξ := ξ)) := within_gets _

instance within_view (f : ξ → Option α) : Within R (view f) :=
  within_of_reads fun w => by
    unfold view
    cases f w.ext <;> rfl

instance within_plain (x : Int) : Within R (plain x) := within_ofOption _ _

instance within_plainU32 (n : Nat) : Within R (plainU32 n) := within_ofOption _ _

instance within_subU32 (a b : Nat) : Within R (subU32 a b) := within_ofOption _ _

instance within_requireAuth (auth : Auth) (a : Address) : Within R (requireAuth auth a : T ξ Unit) :=
  within_failIf _ _

instance within_requireAdmin (env : Env) : Within R (requireAdmin env : T ξ Unit) := by
  unfold requireAdmin
  infer_instance

end Primitives

/-! ## Trades -/

/-- What a trade writes besides the positions and the receipts moves along `R`, and a swap does. -/
class Calm {ξ : Type} (X : outParam (Externals ξ)) (R : World ξ → World ξ → Prop) : Prop where
  exposure : ∀ f : Exposure → Exposure,
    (∀ e, (f e).openInterest = e.openInterest ∧ (f e).userPositionCount = e.userPositionCount ∧
      (f e).circuitBreakerActive = e.circuitBreakerActive ∧ (f e).circuitBreakerLedger = e.circuitBreakerLedger) →
    Within R (saveExposure f)
  breaker : Within R marketCircuitBreakerActive
  orders : ∀ f, Within R (saveOrders f)
  thresholds : ∀ f, Within R (saveThresholds f)
  replay : ∀ w r, R w { w with store.replay := r }
  lock : ∀ w locked, R w { w with locked }
  approve : ∀ token spender amount expiration, Within R (tryInvoke (X.approve token spender amount expiration))
  swap : ∀ router contract src dst amount minOut, Within R (tryInvoke (X.swap router contract src dst amount minOut))

/-- And the receipts do. -/
class Quiet {ξ : Type} (X : outParam (Externals ξ)) (R : World ξ → World ξ → Prop) : Prop extends Calm X R where
  receipts : ∀ f, Within R (saveReceipts f)

section Reads

variable {ξ : Type} {X : Externals ξ} {R : World ξ → World ξ → Prop} [IsPreorder (World ξ) R]

theorem within_marketCircuitBreakerActive (_ : Within R (resetCircuitBreaker (ξ := ξ))) :
    Within R (marketCircuitBreakerActive (ξ := ξ)) := by
  unfold marketCircuitBreakerActive activatedBreaker
  infer_instance

instance within_checkOpenInterestLimit (pair : Address) (amount : Int) :
    Within R (checkOpenInterestLimit pair amount) := by
  unfold checkOpenInterestLimit
  infer_instance

instance within_checkPositionCap (user : Address) (exempt : Bool) : Within R (checkPositionCap user exempt) := by
  unfold checkPositionCap
  infer_instance

instance within_checkUserBalance (user token : Address) (amount fee : Int) :
    Within R (checkUserBalance X user token amount fee) := by
  unfold checkUserBalance
  infer_instance

instance within_resolveTradeAmount (user token : Address) (amount : Int) (pct : Option Nat) :
    Within R (resolveTradeAmount X user token amount pct) := by
  unfold resolveTradeAmount resolvePercent
  split <;> infer_instance

instance within_dailyLimitFor (ctx : Option BatchExecutionContext) : Within R (dailyLimitFor (ξ := ξ) ctx) := by
  unfold dailyLimitFor
  split <;> infer_instance

instance within_portfolioFor (ctx : Option BatchExecutionContext) : Within R (portfolioFor (ξ := ξ) ctx) := by
  unfold portfolioFor
  split <;> infer_instance

instance within_feeFor (ctx : Option BatchExecutionContext) : Within R (feeFor (ξ := ξ) ctx) := by
  unfold feeFor
  split <;> infer_instance

end Reads

attribute [instance] Calm.breaker Calm.orders Calm.thresholds Calm.approve Calm.swap Quiet.receipts

section Trades

variable {ξ α : Type} {X : Externals ξ} {R : World ξ → World ξ → Prop} [IsPreorder (World ξ) R]

/-- What a trade notes of its user moves along `R`. -/
class Notes {ξ : Type} (R : World ξ → World ξ → Prop) : Prop where
  shortfall : ∀ g : Exposure → Store Address InsufficientBalanceDetail,
    Within R (saveExposure fun e => { e with lastInsufficientBalance := g e })
  volume : ∀ g : Exposure → Store Address Int, Within R (saveExposure fun e => { e with dailyVolume := g e })
  day : ∀ g : Exposure → Store Address Nat, Within R (saveExposure fun e => { e with dailyVolumeDay := g e })

attribute [instance] Notes.shortfall Notes.volume Notes.day

omit [IsPreorder (World ξ) R] in
instance [hR : Calm X R] : Notes R where
  shortfall _ := hR.exposure _ fun _ => ⟨rfl, rfl, rfl, rfl⟩
  volume _ := hR.exposure _ fun _ => ⟨rfl, rfl, rfl, rfl⟩
  day _ := hR.exposure _ fun _ => ⟨rfl, rfl, rfl, rfl⟩

instance [Notes R] (limit : Int) (user : Address) (amount : Int) :
    Within R (checkDailyVolume (ξ := ξ) limit user amount) := by
  unfold checkDailyVolume
  infer_instance

instance [Notes R] (user : Address) : Within R (clearShortfall (ξ := ξ) user) := by
  unfold clearShortfall
  infer_instance

instance [Notes R] (t : TradeInput) (fee : Int) (exempt : Bool) : Within R (gateTrade X t fee exempt) := by
  unfold gateTrade checkBalance feeFallback
  refine within_bind inferInstance fun _ => within_bind inferInstance fun _ => within_bind ?_ fun _ => inferInstance
  refine within_bind inferInstance fun short => ?_
  cases short <;> infer_instance

instance [Within R (marketCircuitBreakerActive (ξ := ξ))] (t : TradeInput) (ctx : Option BatchExecutionContext) :
    Within R (admitTrade (ξ := ξ) t ctx) := by
  have : Within R (breakerFor (ξ := ξ) ctx) := by
    unfold breakerFor
    split <;> infer_instance
  unfold admitTrade
  infer_instance

instance within_settleTrade [Notes R] [∀ f, Within R (saveReceipts (ξ := ξ) f)] {t : TradeInput}
    [∀ portfolio exempt, Within R (openPosition X portfolio t exempt)] (ctx : Option BatchExecutionContext) :
    Within R (settleTrade X t ctx) := by
  unfold settleTrade countFeeDeducted recordTrade recordTradeReceipt
  infer_instance

/-- A trade with an amount, after the lock is taken, moves along `R`. -/
class Settles {ξ : Type} (X : Externals ξ) (R : World ξ → World ξ → Prop) : Prop where
  settle : ∀ (t : TradeInput) (ctx : Option BatchExecutionContext), 0 < t.amount → Within R (settleTrade X t ctx)

theorem settles_of_opens [Quiet X R] (hopen : ∀ (t : TradeInput) (portfolio : Address) (exempt : Bool),
    0 < t.amount → Within R (openPosition X portfolio t exempt)) : Settles X R where
  settle t ctx hamount :=
    have := fun portfolio exempt => hopen t portfolio exempt hamount
    within_settleTrade ctx

instance [hR : Calm X R] {x : T ξ α} [hx : Within R x] : Within R (withLock x) where
  moves w := trans_of R (hR.lock w true) (trans_of R (hx.moves _) (hR.lock _ false))

/-- A trade without an amount is refused, so a position that is opened has one. -/
instance within_executeMarketCopyTrade [Calm X R] [hsettle : Settles X R] (t : TradeInput)
    (ctx : Option BatchExecutionContext) : Within R (executeMarketCopyTrade X t ctx) := by
  unfold executeMarketCopyTrade
  by_cases hamount : t.amount ≤ 0
  · have hfail : admitTrade (ξ := ξ) t ctx = Tx.fail (err .invalidAmount) := by
      unfold admitTrade Tx.failIf
      rw [if_pos hamount]
      rfl
    rw [hfail]
    exact within_fail _
  · have := fun ctx => hsettle.settle t ctx (Int.not_le.mp hamount)
    infer_instance

/-! ## The other ways to trade -/

instance [hR : Calm X R] (user : Address) (replay : ReplayParams) :
    Within R (verifyAndCommit (ξ := ξ) user replay) := by
  have h (x : Tx ReplayProtection.ReplayStorage (Fault ReplayProtection.ReplayError) Unit) :
      Within R (zoom (fun w : World ξ => w.store.replay) _ x) := within_zoom x fun r w => hR.replay w r
  unfold verifyAndCommit
  infer_instance

instance (name : Symbol) : Within R (requireFeatureEnabled (ξ := ξ) name) := by
  unfold requireFeatureEnabled
  infer_instance

instance [Calm X R] (t : TradeInput) (fee : Int) : Within R (requireBalance X t fee) := by
  unfold requireBalance
  refine within_bind inferInstance fun short => ?_
  cases short <;> infer_instance

instance [Calm X R] [Settles X R] (env : Env) (t : TradeInput)
    (orderType : OrderType) (limitPrice : Option Int) (replay : ReplayParams) :
    Within R (executeCopyTrade X env t orderType limitPrice replay) := by
  unfold executeCopyTrade
  cases orderType
  · unfold placeOrder executeAuthorizedTrade
    infer_instance
  · unfold placeOrder placeLimitOrder nextLimitOrderId storePendingOrder
    infer_instance

instance [Calm X R] [Settles X R] (token : Address) (price : Int) (id : Nat) :
    Within R (processOrder X token price id) := by
  unfold processOrder checkOrder removePendingOrder
  refine within_bind inferInstance fun order => within_bind inferInstance fun _ => ?_
  cases order <;> infer_instance

instance [Calm X R] [Settles X R] (token : Address) (price : Int) (ids : List Nat) :
    Within R (processOrders X token price ids) := by
  induction ids with
  | nil => exact within_pure _
  | cons id ids ih =>
    unfold processOrders
    infer_instance

instance [Calm X R] [Settles X R] (token : Address) :
    Within R (checkPendingLimitOrders X token) := by
  unfold checkPendingLimitOrders
  infer_instance

instance {run : TradeInput → T ξ Unit} [∀ t, Within R (run t)] (trades : List BatchTradeInput) :
    Within R (batchTrades run trades) := by
  induction trades with
  | nil => exact within_pure _
  | cons t ts ih =>
    unfold batchTrades
    infer_instance

instance [Calm X R] [Settles X R] (env : Env) (trades : List BatchTradeInput) (atomic : Bool) :
    Within R (batchExecuteAtomic X env trades atomic) := by
  unfold batchExecuteAtomic prepareBatchContext executeAuthorizedTrade
  infer_instance

instance [Calm X R] (env : Env) (user : Address) (signalId : Nat)
    (total : Int) (intervals ledgers expiry : Nat) :
    Within R (executeDCACopyTrade (ξ := ξ) env user signalId total intervals ledgers expiry) := by
  unfold executeDCACopyTrade
  infer_instance

instance [Calm X R] (user : Address) (signalId : Nat) (plan : DCAPlan) (now : Nat) :
    Within R (storePlan (ξ := ξ) user signalId plan now) := by
  unfold storePlan
  infer_instance

instance [Calm X R] [∀ user portfolio, Within R (openInterval X user portfolio)] (user : Address) (signalId : Nat) :
    Within R (executeDCAInterval X user signalId) := by
  unfold executeDCAInterval
  infer_instance

instance [Calm X R] (env : Env) (user : Address) (signalId : Nat) :
    Within R (cancelDCAPlan (ξ := ξ) env user signalId) := by
  unfold cancelDCAPlan
  infer_instance

/-! ## Closing a position -/

instance (router src dst : Address) : Within R (validatePairBeforeSwap X router src dst) := by
  unfold validatePairBeforeSwap validatePair
  refine within_bind inferInstance fun registry => ?_
  cases registry <;> infer_instance

instance [Calm X R] {p : CancelParams}
    [∀ portfolio pnl, Within R (closePosition X portfolio p pnl)] (env : Env) (caller : Address)
    (replay : ReplayParams) : Within R (cancelCopyTrade X env caller p replay) := by
  unfold cancelCopyTrade executeSdexSwap checkLiquidity realizedPnl
  infer_instance

section Triggers

variable {env : Env} {user : Address} {tradeId assetPair : Nat}

instance : Within R (fetchOracleAndPortfolio (ξ := ξ)) := by
  unfold fetchOracleAndPortfolio
  infer_instance

instance (oracle : Address) : Within R (fetchCurrentPrice X oracle assetPair) := by
  unfold fetchCurrentPrice
  infer_instance

instance [∀ portfolio, Within R (closePositionKeeper X env portfolio user tradeId assetPair)] :
    Within R (checkAndTriggerStopLoss X env user tradeId assetPair) := by
  unfold checkAndTriggerStopLoss closeIf
  infer_instance

instance [∀ portfolio, Within R (closePositionKeeper X env portfolio user tradeId assetPair)] :
    Within R (checkAndTriggerTakeProfit X env user tradeId assetPair) := by
  unfold checkAndTriggerTakeProfit closeIf
  infer_instance

instance [Calm X R] [∀ portfolio, Within R (closePositionKeeper X env portfolio user tradeId assetPair)] :
    Within R (checkAndTriggerTrailingStop X env user tradeId assetPair) := by
  unfold checkAndTriggerTrailingStop updateTrailingPeak closeIf
  infer_instance

end Triggers

end Trades

/-! ## The queue -/

/-- Writes of the queue move along `R`, and entries about queued trades do. -/
class Queues {ξ : Type} (R : World ξ → World ξ → Prop) : Prop where
  queue : ∀ f, Within R (saveQueue f)
  note : ∀ e : Entry, e.subject ≠ none → Within R (note e)

attribute [instance] Queues.queue

section Queues

variable {ξ : Type} {R : World ξ → World ξ → Prop} [IsPreorder (World ξ) R] [hQ : Queues R] {env : Env}

omit [IsPreorder (World ξ) R] in
theorem within_enter {e : Nat → Entry} (he : ∀ now, (e now).subject ≠ none) : Within R (enter e) :=
  ⟨fun w => (hQ.note (e w.ledger.sequence) (he _)).moves w⟩

instance (id : Nat) : Within R (enter (.queued id)) := within_enter fun _ => nofun

instance (id : Nat) : Within R (enter (.cancelled id)) := within_enter fun _ => nofun

instance (id : Nat) : Within R (enter (.requeued id)) := within_enter fun _ => nofun

instance (id : Nat) : Within R (enter fun _ => .discarded id) := within_enter fun _ => nofun

instance (user token : Address) (amount : Int) (pct : Option Nat) :
    Within R (queueCopyTrade env user token amount pct) := by
  unfold queueCopyTrade nextQueuedTradeId storeQueuedTrade
  infer_instance

instance (user : Address) (id : Nat) : Within R (cancelQueuedTrade env user id) := by
  unfold cancelQueuedTrade removeQueuedTrade
  infer_instance

instance (trade : QueuedTrade) (id : Nat) (result : Except ContractError Unit) :
    Within R (settleAttempt trade id result) := by
  have (now : Nat) := hQ.note (.ofAttempt id now result) (by cases result <;> nofun)
  have (id : Nat) := hQ.note (.deadLettered id) nofun
  unfold settleAttempt concludeAttempt retryOrDeadLetter deadLetterTrade removeQueuedTrade
  split <;> infer_instance

instance {run : TradeInput → T ξ Unit} [∀ t, Within R (run t)] (id : Nat) : Within R (processQueuedTrade run id) := by
  unfold processQueuedTrade attemptTrade
  refine within_bind inferInstance fun trade => ?_
  cases trade <;> infer_instance

instance {run : TradeInput → T ξ Unit} [∀ t, Within R (run t)] (ids : List Nat) : Within R (processQueue run ids) := by
  induction ids with
  | nil => exact within_pure _
  | cons id ids ih =>
    unfold processQueue
    infer_instance

instance {run : TradeInput → T ξ Unit} [∀ t, Within R (run t)] : Within R (executeQueue run) := by
  unfold executeQueue
  infer_instance

instance (user : Address) (id : Nat) : Within R (removeDeadLetter user id) := by
  unfold removeDeadLetter
  infer_instance

instance (id : Nat) : Within R (requeueDeadLetteredTrade env id) := by
  unfold requeueDeadLetteredTrade loadDeadLetter storeQueuedTrade
  infer_instance

instance (id : Nat) : Within R (discardDeadLetteredTrade env id) := by
  unfold discardDeadLetteredTrade loadDeadLetter
  infer_instance

instance (retention id : Nat) : Within R (pruneDeadLetter retention id) := by
  have := hQ.note (.pruned id) nofun
  unfold pruneDeadLetter
  refine within_bind inferInstance fun failed => within_bind inferInstance fun _ => ?_
  cases failed <;> infer_instance

instance (retention maxEntries removed : Nat) (ids : List Nat) :
    Within R (pruneDeadLetters retention maxEntries removed ids) := by
  induction ids generalizing removed with
  | nil => exact within_pure _
  | cons id ids ih =>
    unfold pruneDeadLetters
    infer_instance

instance (user : Option Address) (maxEntries : Nat) :
    Within R (pruneDeadLetterQueue env user maxEntries) := by
  unfold pruneDeadLetterQueue
  infer_instance

end Queues

/-! ## Every call -/

/-- The call is about queued trades or dead letters. -/
def Call.ofQueue : Call → Bool
  | .queueCopyTrade .. | .cancelQueuedTrade .. | .executeQueuedTrades | .requeueDeadLetteredTrade ..
  | .discardDeadLetteredTrade .. | .pruneDeadLetterQueue .. => true
  | _ => false

section Calls

variable {ξ : Type} {X : Externals ξ} {R : World ξ → World ξ → Prop} [IsPreorder (World ξ) R]

instance [Calm X R] [Settles X R] (env : Env) (trades : List BatchTradeInput) :
    Within R (batchExecute X env trades) := by
  unfold batchExecute
  infer_instance

instance [Calm X R] [Settles X R] [Queues R] : Within R (executeQueuedTrades X) := by
  unfold executeQueuedTrades
  infer_instance

instance [Calm X R] (env : Env) (user : Address) (tradeId : Nat) (price : Int) :
    Within R (setStopLossPrice (ξ := ξ) env user tradeId price) := by
  unfold setStopLossPrice
  infer_instance

instance [Calm X R] (env : Env) (user : Address) (tradeId : Nat) (price : Int) :
    Within R (setTakeProfitPrice (ξ := ξ) env user tradeId price) := by
  unfold setTakeProfitPrice
  infer_instance

instance [Calm X R] (env : Env) (user : Address) (tradeId trailBps : Nat) (price : Int) :
    Within R (setTrailingStop (ξ := ξ) env user tradeId trailBps price) := by
  unfold setTrailingStop
  infer_instance

/-- A call moves along `R` when trades do, what is written to the queue, and what opens and closes a position
otherwise. -/
theorem within_call [Calm X R] [Settles X R] {c : Call} (hQ : c.ofQueue = true → Queues R)
    [∀ user portfolio, Within R (openInterval X user portfolio)]
    [∀ portfolio p pnl, Within R (closePosition X portfolio p pnl)]
    [∀ env portfolio user id pair, Within R (closePositionKeeper X env portfolio user id pair)]
    (env : Env) : Within R (call X env c) := by
  unfold call
  cases c with
  | queueCopyTrade | cancelQueuedTrade | executeQueuedTrades | requeueDeadLetteredTrade | discardDeadLetteredTrade
  | pruneDeadLetterQueue =>
    have := hQ rfl
    infer_instance
  | _ => infer_instance

end Calls

/-! ## The queue is kept -/

/-- The queue, the settings and the ledger are the same, and what happened is about positions. -/
structure QueueKept {ξ : Type} (a b : World ξ) : Prop where
  ledger : b.ledger = a.ledger
  config : b.store.config = a.store.config
  queue : b.store.queue = a.store.queue
  journal : ∃ l : List Entry, (∀ e ∈ l, e.subject = none) ∧ b.journal = l ++ a.journal

section QueueKept

variable {ξ : Type}

instance : IsPreorder (World ξ) QueueKept where
  refl _ := ⟨rfl, rfl, rfl, [], nofun, rfl⟩
  trans a b c h h' := by
    obtain ⟨l, hl, hb⟩ := h.journal
    obtain ⟨l', hl', hc⟩ := h'.journal
    refine ⟨h'.ledger.trans h.ledger, h'.config.trans h.config, h'.queue.trans h.queue, l' ++ l, ?_, ?_⟩
    · intro e he
      rcases List.mem_append.mp he with he | he
      · exact hl' e he
      · exact hl e he
    · rw [hc, hb, List.append_assoc]

instance queueKept_saveExposure (f : Exposure → Exposure) : Within QueueKept (saveExposure (ξ := ξ) f) :=
  ⟨fun _ => ⟨rfl, rfl, rfl, [], nofun, rfl⟩⟩

theorem queueKept_note {e : Entry} (he : e.subject = none) : Within QueueKept (note (ξ := ξ) e) :=
  ⟨fun _ => ⟨rfl, rfl, rfl, [e], fun _ he' => List.mem_singleton.mp he' ▸ he, rfl⟩⟩

instance (user : Address) (id : Nat) (added : Option (Address × Int)) :
    Within QueueKept (note (ξ := ξ) (.opened user id added)) := queueKept_note rfl

instance (user : Address) (id : Nat) : Within QueueKept (note (ξ := ξ) (.closed user id)) := queueKept_note rfl

instance (f : ξ → Option ξ) : Within QueueKept (invoke f) := by
  refine ⟨fun w => ?_⟩
  unfold invoke
  split <;> exact ⟨rfl, rfl, rfl, [], nofun, rfl⟩

instance (f : ξ → Except InvokeFailure ξ) : Within QueueKept (tryInvoke f) := by
  refine ⟨fun w => ?_⟩
  unfold tryInvoke
  split <;> exact ⟨rfl, rfl, rfl, [], nofun, rfl⟩

variable (X : Externals ξ)

instance (portfolio user : Address) (exempt : Bool) :
    Within QueueKept (validateAndRecordPosition X portfolio user exempt) := by
  refine ⟨fun w => ?_⟩
  unfold validateAndRecordPosition
  split <;> exact ⟨rfl, rfl, rfl, [], nofun, rfl⟩

theorem queueKept_quiet : Quiet X QueueKept where
  exposure _ _ := inferInstance
  breaker := within_marketCircuitBreakerActive (queueKept_saveExposure _)
  receipts _ := ⟨fun _ => ⟨rfl, rfl, rfl, [], nofun, rfl⟩⟩
  orders _ := ⟨fun _ => ⟨rfl, rfl, rfl, [], nofun, rfl⟩⟩
  thresholds _ := ⟨fun _ => ⟨rfl, rfl, rfl, [], nofun, rfl⟩⟩
  replay _ _ := ⟨rfl, rfl, rfl, [], nofun, rfl⟩
  lock _ _ := ⟨rfl, rfl, rfl, [], nofun, rfl⟩
  approve _ _ _ _ := inferInstance
  swap _ _ _ _ _ _ := inferInstance

instance queueKept_settles : Settles X QueueKept := by
  have := queueKept_quiet X
  refine settles_of_opens fun t portfolio exempt _ => ?_
  unfold openPosition increaseOpenInterest incrementUserPositionCount
  infer_instance

instance (user : Address) (portfolio : Option Address) : Within QueueKept (openInterval X user portfolio) := by
  unfold openInterval
  split <;> infer_instance

instance (portfolio : Address) (p : CancelParams) (pnl : Int) :
    Within QueueKept (closePosition X portfolio p pnl) := by
  unfold closePosition decreaseOpenInterest decrementUserPositionCount
  infer_instance

instance (env : Env) (portfolio user : Address) (tradeId assetPair : Nat) :
    Within QueueKept (closePositionKeeper X env portfolio user tradeId assetPair) := by
  unfold closePositionKeeper decrementUserPositionCount
  infer_instance

instance queueKept_executeMarketCopyTrade (t : TradeInput) (ctx : Option BatchExecutionContext) :
    Within QueueKept (executeMarketCopyTrade X t ctx) :=
  have := queueKept_quiet X
  inferInstance

theorem queueKept_of_call (env : Env) {c : Call} (hc : c.ofQueue = false) : Within QueueKept (call X env c) :=
  have := queueKept_quiet X
  within_call (fun h => Bool.noConfusion (hc.symm.trans h)) env

end QueueKept

end CallStake.TradeExecutor
