import CallStake.TradeExecutor.Orders

/-!
# Entry points and runs

* `Call`, `invoke`: the entry points that trade, queue a trade or close a position.
* `Event`, `Step`: a call, the passing of time, settings of the administrator, and what happens in other contracts.
* `Sample.externals`: other contracts to run with, among them a portfolio.
-/

namespace CallStake.TradeExecutor

/-- The entrypoints with their arguments. -/
inductive Call where
  | executeCopyTrade (t : TradeInput) (orderType : OrderType) (limitPrice : Option Int) (replay : ReplayParams)
  | checkPendingLimitOrders (token : Address)
  | batchExecute (trades : List BatchTradeInput)
  | batchExecuteAtomic (trades : List BatchTradeInput) (atomic : Bool)
  | queueCopyTrade (user token : Address) (amount : Int) (portfolioPctBps : Option Nat)
  | cancelQueuedTrade (user : Address) (id : Nat)
  | executeQueuedTrades
  | requeueDeadLetteredTrade (id : Nat)
  | discardDeadLetteredTrade (id : Nat)
  | pruneDeadLetterQueue (user : Option Address) (maxEntries : Nat)
  | executeDCACopyTrade (user : Address) (signalId : Nat) (totalAmount : Int)
      (numIntervals intervalLedgers signalExpiryLedger : Nat)
  | executeDCAInterval (user : Address) (signalId : Nat)
  | cancelDCAPlan (user : Address) (signalId : Nat)
  | cancelCopyTrade (caller : Address) (p : CancelParams) (replay : ReplayParams)
  | setStopLossPrice (user : Address) (tradeId : Nat) (price : Int)
  | setTakeProfitPrice (user : Address) (tradeId : Nat) (price : Int)
  | setTrailingStop (user : Address) (tradeId trailBps : Nat) (initialPrice : Int)
  | checkAndTriggerStopLoss (user : Address) (tradeId assetPair : Nat)
  | checkAndTriggerTakeProfit (user : Address) (tradeId assetPair : Nat)
  | checkAndTriggerTrailingStop (user : Address) (tradeId assetPair : Nat)

section Runs

variable {ξ : Type} (X : Externals ξ)

/-- The entry point, and what an accepted call is entered as: by its arguments, and by what it returned. -/
def call (env : Env) : Call → T ξ Unit
  | .executeCopyTrade t orderType limitPrice replay => executeCopyTrade X env t orderType limitPrice replay
  | .checkPendingLimitOrders token => Tx.void (checkPendingLimitOrders X token)
  | .batchExecute trades => Tx.void (batchExecute X env trades)
  | .batchExecuteAtomic trades atomic => Tx.void (batchExecuteAtomic X env trades atomic)
  | .queueCopyTrade user token amount pct => do
    let id ← queueCopyTrade env user token amount pct
    enter (.queued id)
  | .cancelQueuedTrade user id => do
    cancelQueuedTrade env user id
    enter (.cancelled id)
  | .executeQueuedTrades => Tx.void (executeQueuedTrades X)
  | .requeueDeadLetteredTrade id => do
    requeueDeadLetteredTrade env id
    enter (.requeued id)
  | .discardDeadLetteredTrade id => do
    discardDeadLetteredTrade env id
    enter fun _ => .discarded id
  | .pruneDeadLetterQueue user maxEntries => Tx.void (pruneDeadLetterQueue env user maxEntries)
  | .executeDCACopyTrade user signalId total intervals ledgers expiry =>
    executeDCACopyTrade env user signalId total intervals ledgers expiry
  | .executeDCAInterval user signalId => Tx.void (executeDCAInterval X user signalId)
  | .cancelDCAPlan user signalId => cancelDCAPlan env user signalId
  | .cancelCopyTrade caller p replay => cancelCopyTrade X env caller p replay
  | .setStopLossPrice user tradeId price => setStopLossPrice env user tradeId price
  | .setTakeProfitPrice user tradeId price => setTakeProfitPrice env user tradeId price
  | .setTrailingStop user tradeId trailBps initialPrice => setTrailingStop env user tradeId trailBps initialPrice
  | .checkAndTriggerStopLoss user tradeId pair => Tx.void (checkAndTriggerStopLoss X env user tradeId pair)
  | .checkAndTriggerTakeProfit user tradeId pair => Tx.void (checkAndTriggerTakeProfit X env user tradeId pair)
  | .checkAndTriggerTrailingStop user tradeId pair =>
    Tx.void (checkAndTriggerTrailingStop X env user tradeId pair)

/-- A call, or something that happens around the executor. -/
inductive Event (ξ : Type) where
  | call (env : Env) (c : Call)
  | advance (ledger : Ledger)
  /-- The administrator sets any settings. -/
  | configure (config : Config)
  /-- The circuit breaker is activated or reset by hand. -/
  | setBreaker (active : Bool) (activated : Option Nat)
  /-- Something happens in the other contracts. -/
  | external (ext : ξ)

def next (w : World ξ) : Event ξ → World ξ
  | .call env c => (call X env c).exec w
  | .advance ledger => { w with ledger }
  | .configure config => { w with store.config := config }
  | .setBreaker active activated => { w with
    store.exposure.circuitBreakerActive := active
    store.exposure.circuitBreakerLedger := activated }
  | .external ext => { w with ext }

def Allowed (w : World ξ) : Event ξ → Prop
  | .advance ledger => w.ledger.Before ledger
  | _ => True

def Step (w : World ξ) (ev : Event ξ) (w' : World ξ) : Prop := Allowed w ev ∧ w' = next X w ev

/-- A contract with settings, and nothing traded yet. -/
def World.start (ledger : Ledger) (config : Config) (ext : ξ) : World ξ :=
  ⟨ledger, { Storage.deployed with config }, ext, false, []⟩

end Runs

namespace Sample

/-- What the other contracts hold: the same balance of every token for everyone, one price, and the positions. -/
structure Contracts where
  balance : Int
  price : Int
  positions : List (Address × Nat)

/-- An id that no position has. -/
def Contracts.freshId (c : Contracts) : Nat := (c.positions.map Prod.snd).sum + 1

def Contracts.close (c : Contracts) (user : Address) (id : Nat) : Option Contracts :=
  if (user, id) ∈ c.positions then some { c with positions := c.positions.filter (· ≠ (user, id)) } else none

/-- Contracts in which a swap costs nothing, and a position is closed if it is open. -/
def externals : Externals Contracts where
  balance _ _ c := some c.balance
  approve _ _ _ _ c := .ok c
  getBestAsk _ _ _ _ := some (0, 1000000000)
  swap _ _ _ _ _ _ c := .ok c
  isRegistered _ _ _ := true
  validateAndRecord _ user _ c := some (c.freshId, { c with positions := (user, c.freshId) :: c.positions })
  hasPosition _ user id c := some (decide ((user, id) ∈ c.positions))
  closePosition _ user id _ c := c.close user id
  closePositionKeeper _ _ user id _ c := c.close user id
  getPriceTimestamp _ _ _ := some 1000
  getPrice _ _ c := some c.price

def admin : Address := ⟨0⟩

def alice : Address := ⟨1⟩

def bob : Address := ⟨2⟩

def token : Address := ⟨10⟩

/-- An executor with a portfolio and an oracle. -/
def config : Config := { Config.deployed with
  admin := some admin
  userPortfolio := some ⟨20⟩
  stopLossPortfolio := some ⟨20⟩
  oracle := some ⟨30⟩
  sdexRouter := some ⟨40⟩ }

def ledger : Ledger := ⟨1000, 10⟩

def env : Env := ⟨fun _ => true, ⟨99⟩⟩

end Sample

end CallStake.TradeExecutor
