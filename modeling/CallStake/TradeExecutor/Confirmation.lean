import CallStake.TradeExecutor.Entrypoints

/-!
# The confirmation of trades

A trade of the market routine leaves an order that waits for its confirmation (`recordTrade`). There is one place for
such an order. It is finalized once enough ledgers have closed, or recorded as partially filled.

* `Desk`: the world, with what only the confirmation reads, and the history of the trades, newest first.
* `DeskEvent`, `DeskStep`: `setDepth`, `finalizeTrade` and `recordPartialFill`, and the events of the world, in any
  order.
-/

namespace CallStake.TradeExecutor

def DEFAULT_CONFIRMATION_DEPTH : Nat := 10

/-- A trade that was filled in part. -/
structure PartialFillRecord where
  requestedAmount : Int
  filledAmount : Int
  remainingAmount : Int
  detectedAtLedger : Nat

/-- What happened to a trade. Of an order it is the one that was found. -/
inductive Milestone where
  | executed (user : Address) (ledger : Nat)
  | finalized (order : TradeOrder) (ledger depth : Nat)
  | partiallyFilled (order : TradeOrder)
  deriving DecidableEq

/-- No function reads `history`. -/
structure Desk (ξ : Type) where
  world : World ξ
  confirmationDepth : Nat
  partialFills : Store (Address × Nat) PartialFillRecord
  history : List Milestone

/-- No trade yet, and the depth is the default. -/
def Desk.start {ξ : Type} (w : World ξ) : Desk ξ := ⟨w, DEFAULT_CONFIRMATION_DEPTH, ∅, []⟩

abbrev K (ξ : Type) := Tx (Desk ξ) (Fault ContractError)

section Desk

variable {ξ : Type}

/-- A call that only concerns the world. -/
def inWorld {α : Type} (x : T ξ α) : K ξ α := Tx.zoom (·.world) (fun w d => { d with world := w }) x

def mark (m : Milestone) : K ξ Unit := Tx.modify fun d => { d with history := m :: d.history }

def setDepth (env : Env) (depth : Nat) : K ξ Unit := do
  inWorld (requireAdmin env)
  Tx.modify fun d => { d with confirmationDepth := depth }

def loadOrder : K ξ TradeOrder := do
  let order ← Tx.gets (·.world.store.receipts.pendingTradeConfirmation)
  Tx.ofOption order (err .tradeNotFound)

def storeOrder (order : TradeOrder) : K ξ Unit :=
  inWorld (saveReceipts fun r => { r with pendingTradeConfirmation := some order })

def finalizeTrade : K ξ Unit := do
  let order ← loadOrder
  Tx.failIf (order.status ≠ .executedAwaitingConfirmation) (err .unauthorized)
  let depth ← Tx.gets (·.confirmationDepth)
  let now ← Tx.gets (·.world.ledger.sequence)
  Tx.failIf (now - order.executionLedger < depth) (err .confirmationDepthNotReached)
  storeOrder { order with status := .filled }
  mark (.finalized order now depth)

/-- Nothing is recorded of a fill of the whole amount. -/
def recordPartialFill (env : Env) (caller user : Address) (tradeId : Nat) (requestedAmount filledAmount : Int) :
    K ξ Unit := do
  Tx.failIf (requestedAmount < 0 ∨ filledAmount < 0 ∨ requestedAmount < filledAmount) (err .invalidAmount)
  requireAuth env.auth caller
  inWorld (requireAdmin env)
  let order ← loadOrder
  Tx.failIf (order.tradeId ≠ tradeId ∨ order.user ≠ user) (err .tradeNotFound)
  Tx.when (filledAmount ≠ requestedAmount) do
    let now ← Tx.gets (·.world.ledger.sequence)
    Tx.modify fun d => { d with
      partialFills := d.partialFills.insert (user, tradeId)
        ⟨requestedAmount, filledAmount, (checkedSub requestedAmount filledAmount).getD requestedAmount, now⟩ }
    storeOrder { order with status := .partiallyFilled }
    mark (.partiallyFilled order)

/-! ## Runs -/

/-- The user of a trade of the market routine. The position of a plan is counted nowhere, and no order waits. -/
def Entry.trader : Entry → Option Address
  | .opened user _ (some _) => some user
  | _ => none

/-- The users of the trades, newest first. -/
def traders (j : List Entry) : List Address := j.filterMap Entry.trader

/-- Those of the trades that were executed between two states. -/
def executedBetween (a b : World ξ) : List Address :=
  (traders b.journal).take ((traders b.journal).length - (traders a.journal).length)

/-- An event of the executor, or of the desk that confirms its trades. -/
inductive DeskEvent (ξ : Type) where
  | world (ev : Event ξ)
  | setDepth (env : Env) (depth : Nat)
  | finalizeTrade
  | recordPartialFill (env : Env) (caller user : Address) (tradeId : Nat) (requestedAmount filledAmount : Int)

variable (X : Externals ξ)

/-- An event of the world, with the trades it executed. -/
def Desk.follow (d : Desk ξ) (w : World ξ) : Desk ξ := { d with
  world := w
  history := (executedBetween d.world w).map (.executed · w.ledger.sequence) ++ d.history }

def nextDesk (d : Desk ξ) : DeskEvent ξ → Desk ξ
  | .world ev => d.follow (next X d.world ev)
  | .setDepth env depth => (setDepth env depth).exec d
  | .finalizeTrade => finalizeTrade.exec d
  | .recordPartialFill env caller user tradeId requestedAmount filledAmount =>
    (recordPartialFill env caller user tradeId requestedAmount filledAmount).exec d

def DeskAllowed (d : Desk ξ) : DeskEvent ξ → Prop
  | .world ev => Allowed d.world ev
  | _ => True

def DeskStep (d : Desk ξ) (ev : DeskEvent ξ) (d' : Desk ξ) : Prop := DeskAllowed d ev ∧ d' = nextDesk X d ev

end Desk

end CallStake.TradeExecutor
