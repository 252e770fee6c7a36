import CallStake.UserPortfolio.Types

/-!
# Opening and closing positions

* `openPosition`, `openPositionWithCapCheck`: a position of a user, the second with a cap on the exposure to an asset.
* `closePosition`, `closePositionKeeper`, `closePositionPartial`: by the user, by the trade executor, and in part.
* `markPositionClosed`: the id moves from the open index to the closed one.
-/

namespace CallStake.UserPortfolio

open Tx

/-! ## Exposure caps -/

def Exposures.exposureOf (e : Exposures) (user : Address) (assetId : Nat) : Int :=
  (e.exposure.lookup (user, assetId)).getD 0

/-- `exposure_cap::check_cap`. -/
def checkCap (user : Address) (assetId : Nat) (newAmount : Int) : P Unit := do
  let cap ← Tx.gets (·.store.exposures.cap.lookup (user, assetId))
  let current ← Tx.gets (·.store.exposures.exposureOf user assetId)
  failIf (∃ c ∈ cap, c < saturatingAdd current newAmount) (err .exposureCapExceeded)

def addExposure (user : Address) (assetId : Nat) (amount : Int) : P Unit :=
  saveExposures fun e => { e with
    exposure := e.exposure.insert (user, assetId) (saturatingAdd (e.exposureOf user assetId) amount) }

/-- `set_asset_exposure_cap`: by the user. -/
def setAssetExposureCap (auth : Auth) (user : Address) (assetId : Nat) (capAmount : Int) : P Unit := do
  requireAuth auth user
  failIf (capAmount ≤ 0) (err .invalidCapAmount)
  saveExposures fun e => { e with cap := e.cap.insert (user, assetId) capAmount }

def removeAssetExposureCap (auth : Auth) (user : Address) (assetId : Nat) : P Unit := do
  requireAuth auth user
  saveExposures fun e => { e with cap := e.cap.erase (user, assetId) }

/-! ## Opening -/

/-- The checks of both ways to open a position. -/
def checkOpening (auth : Auth) (user : Address) (entryPrice amount : Int) : P Unit := do
  requireAuth auth user
  failIf (entryPrice ≤ 0 ∨ amount ≤ 0) .panic
  let config ← Tx.gets (·.store.config)
  failIf (config.kycRequiredMode = true ∧ (config.kycVerified.lookup user).getD false = false) .panic
  failIf ((config.restricted.lookup user).getD false = true) .panic

/-- `NextPositionId`. -/
def nextId : P Nat := do
  let id ← Tx.gets (·.store.book.nextPositionId)
  let id ← Tx.ofOption id .panic
  failIf (u64Max < id + 1) .panic
  saveBook fun b => { b with nextPositionId := some (id + 1) }
  return id

def storePosition (id : Nat) (pos : Position) : P Unit :=
  saveBook fun b => { b with positions := b.positions.insert id pos }

/-- The id goes to the end of the list of all positions and of the open index. -/
def enlist (user : Address) (id : Nat) : P Unit := do
  saveBook fun b => { b with userPositions := b.userPositions.insert user (b.ids user ++ [id]) }
  saveBook fun b => { b with
    userOpenPositions := b.userOpenPositions.insert user ((b.userOpenPositions.lookup user).getD [] ++ [id]) }

/-- `open_position`: without an asset, so without a cap. -/
def openPosition (auth : Auth) (user : Address) (entryPrice amount : Int) : P Nat := do
  checkOpening auth user entryPrice amount
  let id ← nextId
  storePosition id ⟨entryPrice, amount, .open, 0⟩
  let now ← Tx.gets (·.ledger.timestamp)
  saveRecords fun r => { r with positionOpenedAt := r.positionOpenedAt.insert id now }
  enlist user id
  return id

/-- `open_position_with_cap_check`: within the cap. -/
def openPositionWithCapCheck (auth : Auth) (user : Address) (assetId : Nat) (entryPrice amount : Int) : P Nat := do
  checkOpening auth user entryPrice amount
  checkCap user assetId amount
  let id ← nextId
  storePosition id ⟨entryPrice, amount, .open, 0⟩
  saveRecords fun r => { r with positionAsset := r.positionAsset.insert id assetId }
  enlist user id
  addExposure user assetId amount
  return id

/-! ## Closing -/

/-- The invariants that the code can check on one position. -/
def Position.Valid (pos : Position) : Prop := 0 ≤ pos.amount ∧ 0 < pos.entryPrice

instance (pos : Position) : Decidable pos.Valid := inferInstanceAs (Decidable (_ ∧ _))

def assertPositionInvariants (pos : Position) : P Unit := failIf (¬ pos.Valid) .panic

/-- The position, if it is one of the user's and open. -/
def requireOpenPosition (user : Address) (positionId : Nat) : P Position := do
  let ids ← Tx.gets (·.store.book.ids user)
  failIf (positionId ∉ ids) .panic
  let pos ← Tx.gets (·.store.book.positions.lookup positionId)
  let pos ← Tx.ofOption pos .panic
  assertPositionInvariants pos
  failIf (pos.status ≠ .open) (err .positionAlreadyClosed)
  return pos

/-- The closed index is written only if it does not have the id yet. -/
def markPositionClosed (user : Address) (positionId : Nat) : P Unit := do
  saveBook fun b => { b with
    userOpenPositions := b.userOpenPositions.insert user
      (((b.userOpenPositions.lookup user).getD []).filter (· ≠ positionId)) }
  let closedIds ← Tx.gets fun w => (w.store.book.userClosedPositions.lookup user).getD []
  Tx.when (positionId ∉ closedIds) <|
    saveBook fun b => { b with userClosedPositions := b.userClosedPositions.insert user (closedIds ++ [positionId]) }

/-- The CLOSING lock. -/
def lock (positionId : Nat) (pos : Position) : P Unit := storePosition positionId { pos with status := .closing }

/-- The terminal write, and the indexes. -/
def finalize (user : Address) (positionId : Nat) (pos : Position) : P Unit := do
  let closed := { pos with status := .closed }
  assertPositionInvariants closed
  storePosition positionId closed
  markPositionClosed user positionId

/-- `append_tax_event`: a close is recorded. -/
def appendTaxEvent (user : Address) (positionId : Nat) (pos : Position) (exitPrice realizedPnl : Int)
    (assetPair : Nat) : P Unit := do
  let now ← Tx.gets (·.ledger.timestamp)
  saveRecords fun r => { r with
    userTaxEvents := r.userTaxEvents.insert user (r.taxEvents user ++ [{
      positionId
      openTs := (r.positionOpenedAt.lookup positionId).getD 0
      closeTs := now
      entryPrice := pos.entryPrice
      exitPrice
      amount := pos.amount
      realizedPnl
      assetPair }]) }

/-- A profitable close is one more of its streak, any other ends it. -/
def Records.streaked (r : Records) (user : Address) (realizedPnl : Int) : Records :=
  if 0 < realizedPnl then
    let current := u32Add ((r.currentStreak.lookup user).getD 0) 1
    { r with
      currentStreak := r.currentStreak.insert user current
      bestStreak :=
        if (r.bestStreak.lookup user).getD 0 < current then r.bestStreak.insert user current else r.bestStreak }
  else { r with currentStreak := r.currentStreak.insert user 0 }

/-- `close_position`: with the P&L that the user passes. -/
def closePosition (auth : Auth) (user : Address) (positionId : Nat) (realizedPnl exitPrice : Int)
    (assetPair : Nat) : P Unit := do
  requireAuth auth user
  let pos ← requireOpenPosition user positionId
  lock positionId pos
  let realized ← Tx.ofOption (checkedAdd pos.realizedPnl realizedPnl) .panic
  finalize user positionId { pos with realizedPnl := realized }
  appendTaxEvent user positionId pos exitPrice realizedPnl assetPair
  saveRecords (·.streaked user realizedPnl)

/-- The realized P&L stays as it is, and the exit price is unknown. -/
def closePositionKeeper (auth : Auth) (caller user : Address) (positionId assetPair : Nat) : P Unit := do
  requireAuth auth caller
  let tradeExecutor ← Tx.gets (·.store.config.tradeExecutor)
  let tradeExecutor ← Tx.ofOption tradeExecutor .panic
  failIf (caller ≠ tradeExecutor) .panic
  let pos ← requireOpenPosition user positionId
  lock positionId pos
  finalize user positionId pos
  appendTaxEvent user positionId pos 0 0 assetPair

/-- A position of which something was closed: it is finalized when nothing is left. -/
def reduce (user : Address) (positionId : Nat) (pos : Position) : P Unit :=
  if pos.amount = 0 then do
    lock positionId pos
    finalize user positionId pos
  else do
    assertPositionInvariants pos
    storePosition positionId pos

/-- `close_position_partial`: the rest stays open. -/
def closePositionPartial (auth : Auth) (user : Address) (positionId : Nat) (closeAmount realizedPnlDelta : Int) :
    P Int := do
  requireAuth auth user
  failIf (closeAmount ≤ 0) .panic
  let pos ← requireOpenPosition user positionId
  failIf (pos.amount < closeAmount) .panic
  let amount ← Tx.ofOption (checkedSub pos.amount closeAmount) .panic
  let realizedPnl ← Tx.ofOption (checkedAdd pos.realizedPnl realizedPnlDelta) .panic
  reduce user positionId { pos with amount, realizedPnl }
  return amount

/-! ## Cost lots -/

def addCostLot (auth : Auth) (user : Address) (entryPrice amount : Int) : P Unit := do
  requireAuth auth user
  failIf (entryPrice ≤ 0 ∨ amount ≤ 0) .panic
  saveFifo fun f => { f with lots := f.lots.insert user ((f.lots.lookup user).getD [] ++ [⟨entryPrice, amount⟩]) }

/-- `(exit_price - entry_price) * consumed / entry_price`, or 0 if that overflows. -/
def lotPnl (exitPrice : Int) (lot : CostLot) (consumed : Int) : Int :=
  if 0 < lot.entryPrice then
    (((checkedSub exitPrice lot.entryPrice).bind (checkedMul · consumed)).map (·.tdiv lot.entryPrice)).getD 0
  else 0

/-- The lots that are left, what is still to be consumed, and the P&L. -/
def consumeLots (exitPrice : Int) : List CostLot → Int → Int → List CostLot × Int × Int
  | [], remaining, pnl => ([], remaining, pnl)
  | lot :: lots, remaining, pnl =>
    if remaining ≤ 0 then
      let rest := consumeLots exitPrice lots remaining pnl
      (lot :: rest.1, rest.2)
    else
      let consumed := if lot.amount ≤ remaining then lot.amount else remaining
      let leftover := saturatingSub lot.amount consumed
      let rest := consumeLots exitPrice lots (saturatingSub remaining consumed)
        (saturatingAdd pnl (lotPnl exitPrice lot consumed))
      if 0 < leftover then (⟨lot.entryPrice, leftover⟩ :: rest.1, rest.2) else rest

/-- `close_fifo`: the oldest lots are sold first. -/
def closeFifo (auth : Auth) (user : Address) (closeAmount exitPrice : Int) : P Int := do
  requireAuth auth user
  failIf (closeAmount ≤ 0 ∨ exitPrice ≤ 0) .panic
  let lots ← Tx.gets fun w => (w.store.fifo.lots.lookup user).getD []
  let consumed := consumeLots exitPrice lots closeAmount 0
  failIf (0 < consumed.2.1) .panic
  saveFifo fun f => { f with lots := f.lots.insert user consumed.1 }
  saveFifo fun f => { f with
    realizedPnl := f.realizedPnl.insert user (saturatingAdd ((f.realizedPnl.lookup user).getD 0) consumed.2.2) }
  return consumed.2.2

end CallStake.UserPortfolio
