import CallStake.Lib.Store
import CallStake.Shared.Host

/-!
# Iceberg orders

`auto_trade::iceberg`: an order for a total amount, of which only a slice stands on the exchange. When the slice is
filled, the next one is placed.

* `Sdex`: the exchange, as far as the functions depend on it. `World.book`: what stands on it.
* `Event`, `next`, `Step`: calls and fills in any order while ledgers close. The functions are those of a library, so
  an error does not undo what was written before it.

Left out: events, and the views that read an order back.
-/

namespace CallStake.Iceberg

open Tx

/-! ## Data -/

/-- The side of an order. -/
inductive OrderSide where
  | buy
  | sell

/-- How far an order has come. -/
inductive OrderStatus where
  | active
  | partiallyFilled
  | filled
  | cancelled
  | failed
  deriving DecidableEq

/-- What is traded against what. -/
structure AssetPair where
  base : String
  quote : String

/-- An order of which only a part is shown at a time. -/
structure IcebergOrder where
  id : Nat
  user : Address
  pair : AssetPair
  side : OrderSide
  totalAmount : Int
  visibleAmount : Int
  price : Int
  filledAmount : Int
  currentVisibleFilled : Int
  status : OrderStatus
  createdAt : Nat
  avgFillPrice : Int

/-- What a cancellation returns. -/
structure CancellationInfo where
  filledAmount : Int
  remainingAmount : Int
  avgFillPrice : Int

/-- One fill of an order. -/
structure FillEvent where
  orderId : Nat
  filledAmount : Int
  price : Int
  totalFilled : Int

def MAX_VISIBLE_PCT : Nat := 5000
def MIN_VISIBLE_AMOUNT : Int := 1000
def BASIS_POINTS : Int := 10000

/-- The storage of the contract. -/
structure Storage where
  orderCounter : Nat
  orders : Store Nat IcebergOrder
  sdexToIceberg : Store Nat Nat
  currentSdexOrder : Store Nat Nat
  fillHistory : Store Nat (List FillEvent)

def Storage.deployed : Storage := ⟨0, ∅, ∅, ∅, ∅⟩

/-- `get_fill_history`. -/
def Storage.fillsOf (s : Storage) (id : Nat) : List FillEvent := (s.fillHistory.lookup id).getD []

/-- An order on the exchange. -/
structure SdexOrder where
  amount : Int
  filled : Int
  cancelled : Bool

/-- What still stands of an SDEX order. -/
def SdexOrder.unfilled (o : SdexOrder) : Int := if o.cancelled then 0 else o.amount - o.filled

/-- `placed` are the ids that the exchange has given, the last one first. -/
structure World where
  ledger : Ledger
  store : Storage
  book : Store Nat SdexOrder
  placed : List Nat

/-- The exchange: the id that an order gets, with `none` for a trap, and whether an order can be cancelled. -/
structure Sdex where
  place : (timestamp : Nat) → (user : Address) → (pair : AssetPair) → (side : OrderSide) → (amount price : Int) →
    Option Nat
  cancel : Nat → Except String Unit

/-- What stands in the source for an exchange. -/
def Sdex.placeholder : Sdex where
  place timestamp _ _ _ amount price :=
    let sdexOrderId := timestamp + (max amount 0).toNat % 2 ^ 64 + (max price 0).toNat % 2 ^ 64
    if sdexOrderId ≤ u64Max then some sdexOrderId else none
  cancel _ := .ok ()

/-- Who signs, and what the exchange answers. -/
structure Env where
  auth : Auth
  sdex : Sdex

/-! ## Functions -/

abbrev I := Tx World (Fault String)

def err (text : String) : Fault String := .err text

def save (f : Storage → Storage) : I Unit := Tx.modify fun w => { w with store := f w.store }

/-- A plain operation on `i128`, which traps on overflow. -/
def plain (x : Int) : I Int := Tx.ofOption (checked x) .panic

def timestamp : I Nat := Tx.gets (·.ledger.timestamp)

/-- `get_next_order_id`: identifiers count up from one. -/
def getNextOrderId : I Nat := do
  let counter ← Tx.gets (·.store.orderCounter)
  failIf (u64Max < counter + 1) .panic
  save fun s => { s with orderCounter := counter + 1 }
  return counter + 1

def storeIcebergOrder (orderId : Nat) (order : IcebergOrder) : I Unit :=
  save fun s => { s with orders := s.orders.insert orderId order }

/-- `get_iceberg_order`: the order, which must exist. -/
def getIcebergOrder (orderId : Nat) : I IcebergOrder := do
  let order ← Tx.gets (·.store.orders.lookup orderId)
  Tx.ofOption order (err "Order not found")

/-- `map_sdex_to_iceberg`: whose slice an SDEX order is. -/
def mapSdexToIceberg (sdexOrderId icebergId : Nat) : I Unit :=
  save fun s => { s with sdexToIceberg := s.sdexToIceberg.insert sdexOrderId icebergId }

/-- `get_iceberg_from_sdex`: the order of a slice. -/
def getIcebergFromSdex (sdexOrderId : Nat) : I Nat := do
  let icebergId ← Tx.gets (·.store.sdexToIceberg.lookup sdexOrderId)
  Tx.ofOption icebergId (err "SDEX order not mapped")

def storeCurrentSdexOrder (icebergId sdexOrderId : Nat) : I Unit :=
  save fun s => { s with currentSdexOrder := s.currentSdexOrder.insert icebergId sdexOrderId }

/-- `record_fill`: the fill joins the history of the order. -/
def recordFill (orderId : Nat) (filledAmount price : Int) : I Unit := do
  let history ← Tx.gets (·.store.fillsOf orderId)
  let totalFilled ← plain ((history.getLast?.elim 0 (·.totalFilled)) + filledAmount)
  save fun s => { s with
    fillHistory := s.fillHistory.insert orderId (history ++ [⟨orderId, filledAmount, price, totalFilled⟩]) }

/-- `place_sdex_limit_order`: the exchange takes an order. -/
def placeSdexLimitOrder (sdex : Sdex) (user : Address) (pair : AssetPair) (side : OrderSide)
    (amount price : Int) : I Nat := do
  let now ← timestamp
  let id ← Tx.ofOption (sdex.place now user pair side amount price) .panic
  Tx.modify fun w => { w with book := w.book.insert id ⟨amount, 0, false⟩, placed := id :: w.placed }
  return id

/-- A change of an order on the exchange. -/
def World.amend (w : World) (sdexOrderId : Nat) (f : SdexOrder → SdexOrder) : World :=
  match w.book.lookup sdexOrderId with
  | some o => { w with book := w.book.insert sdexOrderId (f o) }
  | none => w

/-- `cancel_sdex_order`: the exchange drops an order. -/
def cancelSdexOrder (sdex : Sdex) (sdexOrderId : Nat) : I Unit := do
  Tx.ofExcept ((sdex.cancel sdexOrderId).mapError err)
  Tx.modify fun w => w.amend sdexOrderId fun o => { o with cancelled := true }

/-- An order is placed, and becomes the current one of the iceberg. -/
def placeFor (sdex : Sdex) (icebergId : Nat) (iceberg : IcebergOrder) (amount price : Int) : I Unit := do
  let sdexOrderId ← placeSdexLimitOrder sdex iceberg.user iceberg.pair iceberg.side amount price
  mapSdexToIceberg sdexOrderId icebergId
  storeCurrentSdexOrder icebergId sdexOrderId

section Calls

variable (env : Env)

/-- `create_iceberg_order`: the order and its first slice. -/
def createIcebergOrder (user : Address) (pair : AssetPair) (side : OrderSide) (totalAmount : Int)
    (visiblePct : Nat) (price : Int) : I Nat := do
  requireAuth env.auth user
  failIf (totalAmount ≤ 0) (err "Invalid total amount")
  failIf (price ≤ 0) (err "Invalid price")
  failIf (visiblePct = 0 ∨ MAX_VISIBLE_PCT < visiblePct) (err "Invalid visible percentage")
  let product ← plain (totalAmount * visiblePct)
  let visibleAmount := product.tdiv BASIS_POINTS
  failIf (visibleAmount < MIN_VISIBLE_AMOUNT) (err "Visible amount too small")
  let orderId ← getNextOrderId
  let sdexOrderId ← placeSdexLimitOrder env.sdex user pair side visibleAmount price
  let now ← timestamp
  storeIcebergOrder orderId
    ⟨orderId, user, pair, side, totalAmount, visibleAmount, price, 0, 0, .active, now, 0⟩
  mapSdexToIceberg sdexOrderId orderId
  storeCurrentSdexOrder orderId sdexOrderId
  return orderId

/-- The amounts and the average price after a fill. -/
def withFill (iceberg : IcebergOrder) (amount fillPrice : Int) : I IcebergOrder := do
  let filledAmount ← plain (iceberg.filledAmount + amount)
  let currentVisibleFilled ← plain (iceberg.currentVisibleFilled + amount)
  let before ← plain (filledAmount - amount)
  let value ← plain (iceberg.avgFillPrice * before)
  let added ← plain (fillPrice * amount)
  let totalValue ← plain (value + added)
  failIf (filledAmount = 0) .panic
  let avgFillPrice ← plain (totalValue.tdiv filledAmount)
  return { iceberg with filledAmount, currentVisibleFilled, avgFillPrice }

/-- The next slice, or the end of the order. -/
def replenish (icebergId : Nat) (iceberg : IcebergOrder) : I IcebergOrder := do
  let remaining ← plain (iceberg.totalAmount - iceberg.filledAmount)
  if 0 < remaining then do
    placeFor env.sdex icebergId iceberg (min remaining iceberg.visibleAmount) iceberg.price
    return { iceberg with currentVisibleFilled := 0, status := .partiallyFilled }
  else return { iceberg with status := .filled }

/-- After a fill that leaves the slice open. -/
def IcebergOrder.begun (iceberg : IcebergOrder) : IcebergOrder :=
  if 0 < iceberg.filledAmount then { iceberg with status := .partiallyFilled } else iceberg

/-- Whether the current visible portion is fully filled is asked of the nominal portion. -/
def checkSlice (icebergId : Nat) (iceberg : IcebergOrder) : I IcebergOrder :=
  if iceberg.visibleAmount ≤ iceberg.currentVisibleFilled then replenish env icebergId iceberg
  else return iceberg.begun

/-- `on_sdex_fill`: a fill is counted, and the next slice placed. -/
def onSdexFill (sdexOrderId : Nat) (filledAmount fillPrice : Int) : I Unit := do
  let icebergId ← getIcebergFromSdex sdexOrderId
  let iceberg ← getIcebergOrder icebergId
  let iceberg ← withFill iceberg filledAmount fillPrice
  recordFill icebergId filledAmount fillPrice
  let iceberg ← checkSlice env icebergId iceberg
  storeIcebergOrder icebergId iceberg

/-- The current order is cancelled on the exchange, if there is one. -/
def cancelCurrent (orderId : Nat) : I Unit := do
  let sdexOrderId ← Tx.gets (·.store.currentSdexOrder.lookup orderId)
  match sdexOrderId with
  | some sdexOrderId => cancelSdexOrder env.sdex sdexOrderId
  | none => return ()

/-- `cancel_iceberg_order`: the slice is taken back, and the order ends. -/
def cancelIcebergOrder (orderId : Nat) (user : Address) : I CancellationInfo := do
  requireAuth env.auth user
  let iceberg ← getIcebergOrder orderId
  failIf (iceberg.user ≠ user) (err "Not order owner")
  failIf (iceberg.status = .filled ∨ iceberg.status = .cancelled) (err "Order not cancellable")
  cancelCurrent env orderId
  storeIcebergOrder orderId { iceberg with status := .cancelled }
  let remaining ← plain (iceberg.totalAmount - iceberg.filledAmount)
  return ⟨iceberg.filledAmount, remaining, iceberg.avgFillPrice⟩

/-- `update_iceberg_price`: the slice is placed again at the new price. -/
def updateIcebergPrice (orderId : Nat) (user : Address) (newPrice : Int) : I Unit := do
  requireAuth env.auth user
  let iceberg ← getIcebergOrder orderId
  failIf (iceberg.user ≠ user) (err "Not order owner")
  failIf (iceberg.status ≠ .active ∧ iceberg.status ≠ .partiallyFilled) (err "Order not active")
  failIf (newPrice ≤ 0) (err "Invalid price")
  cancelCurrent env orderId
  let remainingVisible ← plain (iceberg.visibleAmount - iceberg.currentVisibleFilled)
  let sdexOrderId ←
    placeSdexLimitOrder env.sdex iceberg.user iceberg.pair iceberg.side remainingVisible newPrice
  storeIcebergOrder orderId { iceberg with price := newPrice }
  mapSdexToIceberg sdexOrderId orderId
  storeCurrentSdexOrder orderId sdexOrderId

/-! ## Runs -/

/-- The entrypoints with their arguments. -/
inductive Call where
  | createIcebergOrder (user : Address) (pair : AssetPair) (side : OrderSide) (totalAmount : Int)
      (visiblePct : Nat) (price : Int)
  | cancelIcebergOrder (orderId : Nat) (user : Address)
  | updateIcebergPrice (orderId : Nat) (user : Address) (newPrice : Int)

def invoke : Call → I Unit
  | .createIcebergOrder user pair side total pct price =>
    Tx.void (createIcebergOrder env user pair side total pct price)
  | .cancelIcebergOrder orderId user => Tx.void (cancelIcebergOrder env orderId user)
  | .updateIcebergPrice orderId user price => updateIcebergPrice env orderId user price

/-- The exchange fills an order and reports it. -/
def fillSdexOrder (sdexOrderId : Nat) (amount price : Int) : I Unit := do
  Tx.modify fun w => w.amend sdexOrderId fun o => { o with filled := o.filled + amount }
  onSdexFill env sdexOrderId amount price

end Calls

/-- A call, a fill of an SDEX order, or the time goes on. -/
inductive Event where
  | call (env : Env) (c : Call)
  | fill (env : Env) (sdexOrderId : Nat) (amount price : Int)
  | advance (ledger : Ledger)

/-- What an event leaves; an error keeps what was written before it. -/
def next (w : World) : Event → World
  | .call env c => (invoke env c).settle w
  | .fill env sdexOrderId amount price => (fillSdexOrder env sdexOrderId amount price).settle w
  | .advance ledger => { w with ledger }

/-- Fills are positive, and of orders that are not cancelled, up to their amount. -/
def Allowed (w : World) : Event → Prop
  | .call .. => True
  | .fill _ sdexOrderId amount _ => 0 < amount ∧
    ∃ o ∈ w.book.lookup sdexOrderId, o.cancelled = false ∧ o.filled + amount ≤ o.amount
  | .advance ledger => w.ledger.Before ledger

instance (w : World) : (ev : Event) → Decidable (Allowed w ev)
  | .call .. => inferInstanceAs (Decidable True)
  | .fill _ sdexOrderId _ _ => inferInstanceAs (Decidable (_ ∧ ∃ o ∈ w.book.lookup sdexOrderId, _))
  | .advance ledger => inferInstanceAs (Decidable (w.ledger.Before ledger))

/-- The step relation of the runs. -/
def Step (w : World) (ev : Event) (w' : World) : Prop := Allowed w ev ∧ w' = next w ev

def World.deployed (ledger : Ledger) : World := ⟨ledger, .deployed, ∅, []⟩

end CallStake.Iceberg
