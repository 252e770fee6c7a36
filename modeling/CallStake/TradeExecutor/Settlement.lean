import CallStake.Lib.Store
import CallStake.Shared.Host

/-!
# Settlement orders

`trade_executor::batch_settlement`: an order for an amount is filled in one or several batches, each within the
slippage bounds of the order, until the amount is reached or the order is failed.

* `Event`, `next`, `Step`: calls in any order while ledgers close. The functions are those of a library, so an
  error does not undo what was written before it.

Left out: events, and the views that read an entry back.
-/

namespace CallStake.Settlement

/-! ## Data -/

/-- How far a settlement order has come. -/
inductive SettlementStatus where
  | opened
  | partiallyFilled
  | fullySettled
  | failed
  deriving DecidableEq

/-- A fill of an order. -/
structure FillRecord where
  fillIndex : Nat
  filledAmount : Int
  executionPrice : Int
  ledger : Nat
  isFinal : Bool

/-- What a fill may give and take. -/
structure SlippageBounds where
  minOutput : Int
  maxInput : Int

/-- An order that is settled by fills. -/
structure SettlementOrder where
  orderId : Nat
  user : Address
  requestedAmount : Int
  settledAmount : Int
  status : SettlementStatus
  fillCount : Nat
  createdAtLedger : Nat
  lastFillLedger : Nat
  minOutput : Int
  maxInput : Int

/-- What a batch of fills returns. -/
structure BatchSettlementResult where
  orderId : Nat
  batchFilled : Int
  totalSettled : Int
  remaining : Int
  status : SettlementStatus
  fillIndex : Nat

/-- The errors of the settlement. -/
inductive SettlementError where
  | orderNotFound
  | orderAlreadyClosed
  | invalidFillAmount
  | fillExceedsRemaining
  | orderIdOverflow
  | invalidSlippageBounds
  | slippageBoundsViolated

namespace SettlementOrder

variable (o : SettlementOrder)

/-- What is left to be filled. -/
def remaining : Int := max (saturatingSub o.requestedAmount o.settledAmount) 0

def isClosed : Bool :=
  match o.status with
  | .fullySettled | .failed => true
  | .opened | .partiallyFilled => false

end SettlementOrder

/-- The entries of settlements. -/
structure Storage where
  orders : Store Nat SettlementOrder
  fills : Store (Nat × Nat) FillRecord
  nextOrderId : Nat
  userOrders : Store Address (List Nat)

/-- The storage before the first call. The first order has the id 1. -/
def Storage.deployed : Storage := ⟨∅, ∅, 1, ∅⟩

def Storage.ordersOf (s : Storage) (user : Address) : List Nat := (s.userOrders.lookup user).getD []

/-- The ledger and the storage. -/
structure World where
  ledger : Ledger
  store : Storage

/-! ## Functions -/

abbrev S := Tx World (Fault SettlementError)

def err (e : SettlementError) : Fault SettlementError := .err e

def save (f : Storage → Storage) : S Unit := Tx.modify fun w => { w with store := f w.store }

def nextOrderId : S Nat := do
  let id ← Tx.gets (·.store.nextOrderId)
  Tx.failIf (u64Max < id + 1) (err .orderIdOverflow)
  save fun s => { s with nextOrderId := id + 1 }
  return id

def saveOrder (order : SettlementOrder) : S Unit :=
  save fun s => { s with orders := s.orders.insert order.orderId order }

def loadOrder (orderId : Nat) : S SettlementOrder := do
  let order ← Tx.gets (·.store.orders.lookup orderId)
  Tx.ofOption order (err .orderNotFound)

def saveFill (orderId : Nat) (fill : FillRecord) : S Unit :=
  save fun s => { s with fills := s.fills.insert (orderId, fill.fillIndex) fill }

def appendUserOrder (user : Address) (orderId : Nat) : S Unit :=
  save fun s => { s with userOrders := s.userOrders.insert user (s.ordersOf user ++ [orderId]) }

/-- An open order. -/
def createSettlementOrder (user : Address) (requestedAmount : Int) (slippage : SlippageBounds) : S Nat := do
  Tx.failIf (requestedAmount ≤ 0) (err .invalidFillAmount)
  Tx.failIf (slippage.minOutput < 0 ∨ slippage.maxInput < 0) (err .invalidSlippageBounds)
  let orderId ← nextOrderId
  let ledger ← Tx.gets (·.ledger.sequence)
  saveOrder ⟨orderId, user, requestedAmount, 0, .opened, 0, ledger, 0, slippage.minOutput, slippage.maxInput⟩
  appendUserOrder user orderId
  return orderId

/-- The order with the totals of one more fill. -/
def SettlementOrder.withFill (o : SettlementOrder) (fillAmount : Int) (ledger : Nat) : SettlementOrder :=
  let o := { o with
    settledAmount := (checkedAdd o.settledAmount fillAmount).getD i128Max
    fillCount := u32Add o.fillCount 1
    lastFillLedger := ledger }
  { o with status := if o.remaining = 0 then .fullySettled else .partiallyFilled }

def settleBatch (orderId : Nat) (fillAmount inputAmount executionPrice : Int) : S BatchSettlementResult := do
  Tx.failIf (fillAmount < 0 ∨ inputAmount < 0) (err .invalidFillAmount)
  let order ← loadOrder orderId
  Tx.failIf (order.isClosed = true) (err .orderAlreadyClosed)
  Tx.failIf (fillAmount < order.minOutput ∨ order.maxInput < inputAmount) (err .slippageBoundsViolated)
  Tx.failIf (order.remaining < fillAmount) (err .fillExceedsRemaining)
  let ledger ← Tx.gets (·.ledger.sequence)
  let filled := order.withFill fillAmount ledger
  saveFill orderId ⟨filled.fillCount, fillAmount, executionPrice, ledger, decide (filled.remaining = 0)⟩
  saveOrder filled
  return ⟨orderId, fillAmount, filled.settledAmount, filled.remaining, filled.status, filled.fillCount⟩

/-- The order ends as it is. -/
def failSettlementOrder (orderId : Nat) : S Unit := do
  let order ← loadOrder orderId
  Tx.failIf (order.isClosed = true) (err .orderAlreadyClosed)
  saveOrder { order with status := .failed }

/-! ## Runs -/

/-- The entrypoints with their arguments. -/
inductive Call where
  | createSettlementOrder (user : Address) (requestedAmount : Int) (slippage : SlippageBounds)
  | settleBatch (orderId : Nat) (fillAmount inputAmount executionPrice : Int)
  | failSettlementOrder (orderId : Nat)

/-- The amounts are of the type `i128`. -/
def Call.Typed : Call → Prop
  | .createSettlementOrder _ amount slippage =>
    InRange amount ∧ InRange slippage.minOutput ∧ InRange slippage.maxInput
  | .settleBatch _ fill input price => InRange fill ∧ InRange input ∧ InRange price
  | .failSettlementOrder _ => True

instance : (c : Call) → Decidable c.Typed
  | .createSettlementOrder _ _ _ => inferInstanceAs (Decidable (_ ∧ _ ∧ _))
  | .settleBatch _ _ _ _ => inferInstanceAs (Decidable (_ ∧ _ ∧ _))
  | .failSettlementOrder _ => inferInstanceAs (Decidable True)

def invoke : Call → S Unit
  | .createSettlementOrder user amount slippage => Tx.void (createSettlementOrder user amount slippage)
  | .settleBatch orderId fill input price => Tx.void (settleBatch orderId fill input price)
  | .failSettlementOrder orderId => failSettlementOrder orderId

/-- A call, or the time goes on. -/
inductive Event where
  | call (c : Call)
  | advance (ledger : Ledger)

def next (w : World) : Event → World
  | .call c => (invoke c).settle w
  | .advance ledger => { w with ledger }

def Allowed (w : World) : Event → Prop
  | .call c => c.Typed
  | .advance ledger => w.ledger.Before ledger

instance (w : World) : (ev : Event) → Decidable (Allowed w ev)
  | .call c => inferInstanceAs (Decidable c.Typed)
  | .advance ledger => inferInstanceAs (Decidable (w.ledger.Before ledger))

def Step (w : World) (ev : Event) (w' : World) : Prop := Allowed w ev ∧ w' = next w ev

def World.deployed (ledger : Ledger) : World := ⟨ledger, .deployed⟩

end CallStake.Settlement
