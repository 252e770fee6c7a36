import CallStake.UserPortfolio.Positions

/-!
# The entry points of the user portfolio

* `getPortfolio`, `getTradeHistory`, `getTradeHistoryPage`: they read the indexes, and store them if one is missing
  (`rebuildPositionIndexes`).
* `getPnl`: the P&L of a user; the price of the oracle is an argument, with none for no fresh price.
* `migrateUser`, `migrateBatch`, `registerMigrationUsers`: from the first layout, with one list, to the second.
* `Call`: the entry points that touch positions, lots or caps, and the settings these read. `Event` lets them be
  called in any order while ledgers close.
-/

namespace CallStake.UserPortfolio

def MAX_INLINE_CLOSED_POSITIONS : Nat := 20
def MAX_TRADE_HISTORY_LIMIT : Nat := 50

/-- A position with its id. -/
structure PortfolioPosition where
  positionId : Nat
  position : Position
  deriving DecidableEq

/-- What a user sees of the positions. -/
structure Portfolio where
  openPositions : List PortfolioPosition
  closedPositions : List PortfolioPosition
  closedPositionIds : List Nat

/-- A page of the closed positions. -/
structure TradeHistoryPage where
  entries : List PortfolioPosition
  nextCursor : Option Nat

/-- What `get_pnl` returns. -/
structure PnlSummary where
  realizedPnl : Int
  unrealizedPnl : Option Int
  totalPnl : Int
  roiBps : Int

/-! ## The indexes -/

/-- Those ids whose position has the property. -/
def Book.having (b : Book) (p : Position → Bool) (ids : List Nat) : List Nat :=
  ids.filter fun id => (b.positions.lookup id).any p

/-- The open ids of a list, and the others. -/
def Book.split (b : Book) (ids : List Nat) : List Nat × List Nat :=
  (b.having (·.status = .open) ids, b.having (·.status ≠ .open) ids)

def storeIndexes (user : Address) (indexes : List Nat × List Nat) : P Unit := do
  saveBook fun b => { b with userOpenPositions := b.userOpenPositions.insert user indexes.1 }
  saveBook fun b => { b with userClosedPositions := b.userClosedPositions.insert user indexes.2 }

def rebuildPositionIndexes (user : Address) : P (List Nat × List Nat) := do
  let indexes ← Tx.gets fun w => w.store.book.split (w.store.book.ids user)
  storeIndexes user indexes
  return indexes

/-- The index, or what is rebuilt where it is missing. -/
def orRebuild (user : Address) (index : Option (List Nat)) (side : List Nat × List Nat → List Nat) : P (List Nat) :=
  match index with
  | some ids => return ids
  | none => do
    let indexes ← rebuildPositionIndexes user
    return side indexes

def getOpenPositionIds (user : Address) : P (List Nat) := do
  let index ← Tx.gets (·.store.book.userOpenPositions.lookup user)
  orRebuild user index Prod.fst

def getClosedPositionIds (user : Address) : P (List Nat) := do
  let index ← Tx.gets (·.store.book.userClosedPositions.lookup user)
  orRebuild user index Prod.snd

/-- The position of an id, if it has the status. -/
def Book.entry (b : Book) (status : PositionStatus) (id : Nat) : Option PortfolioPosition :=
  ((b.positions.lookup id).filter (·.status = status)).map (⟨id, ·⟩)

/-! ## Views -/

/-- The closed part of a portfolio, if it is asked for: the positions only if they are few. -/
def getClosed (user : Address) (includeClosed : Bool) : P (List PortfolioPosition × List Nat) :=
  if includeClosed = true then do
    let closedIds ← getClosedPositionIds user
    let closed ← Tx.gets fun w => closedIds.filterMap (w.store.book.entry .closed)
    return (if closedIds.length ≤ MAX_INLINE_CLOSED_POSITIONS then closed else [], closedIds)
  else pure ([], [])

def getPortfolio (user : Address) (includeClosed : Bool) : P Portfolio := do
  let openIds ← getOpenPositionIds user
  let openPositions ← Tx.gets fun w => openIds.filterMap (w.store.book.entry .open)
  let closed ← getClosed user includeClosed
  return ⟨openPositions, closed.1, closed.2⟩

/-- From `index` down, until there is no more room: the entries, and where the next page starts. -/
def pageLoop (pick : Nat → Option PortfolioPosition) : Nat → Nat → List PortfolioPosition × Nat
  | 0, _ => ([], 0)
  | index + 1, 0 => ([], index + 1)
  | index + 1, room + 1 =>
    match pick index with
    | some e =>
      let rest := pageLoop pick index room
      (e :: rest.1, rest.2)
    | none => pageLoop pick index (room + 1)

/-- A cursor is an id, and one that is not in the list is ignored. -/
def getTradeHistory (user : Address) (cursor : Option Nat) (limit : Nat) : P (List PortfolioPosition) :=
  if min limit MAX_TRADE_HISTORY_LIMIT = 0 then return []
  else do
    let closedIds ← getClosedPositionIds user
    let start := (cursor.bind fun c => closedIds.findIdx? (· = c)).getD closedIds.length
    Tx.gets fun w => (pageLoop (fun i => closedIds[i]?.bind (w.store.book.entry .closed)) start
      (min limit MAX_TRADE_HISTORY_LIMIT)).1

/-- A cursor is a place in the list. -/
def getTradeHistoryPage (user : Address) (cursor : Option Nat) (limit : Nat) : P TradeHistoryPage := do
  Tx.failIf (limit = 0 ∨ MAX_TRADE_HISTORY_LIMIT < limit) .panic
  let ids ← getClosedPositionIds user
  let start := cursor.getD ids.length
  Tx.failIf (ids.length < start) .panic
  let positions ← Tx.gets (·.store.book.positions)
  let page := pageLoop (fun i => ids[i]?.bind fun id => (positions.lookup id).map (⟨id, ·⟩)) start limit
  return ⟨page.1, if 0 < page.2 then some page.2 else none⟩

/-! ## P&L -/

/-- A sum that leaves out what would overflow. -/
def addIfFits (sum x : Int) : Int := (checkedAdd sum x).getD sum

/-- The positions of the user that are stored. -/
def Book.positionsOf (b : Book) (user : Address) : List Position := (b.ids user).filterMap b.positions.lookup

/-- The realized P&L of the positions that are not open. -/
def realizedOf (positions : List Position) : Int :=
  positions.foldl (fun sum pos => if pos.status = .open then sum else addIfFits sum pos.realizedPnl) 0

def investedOf (positions : List Position) : Int := positions.foldl (fun sum pos => addIfFits sum pos.amount) 0

/-- The P&L of an open position at a price, if nothing overflows. -/
def unrealizedOf (price : Int) (pos : Position) : Option Int :=
  ((checkedSub price pos.entryPrice).bind (checkedMul · pos.amount)).bind fun p => checked (p.tdiv pos.entryPrice)

def sumUnrealized (price : Int) (positions : List Position) : Int :=
  (positions.filter fun pos => pos.status = .open ∧ pos.entryPrice ≠ 0).foldl
    (fun sum pos => (unrealizedOf price pos).elim sum (addIfFits sum)) 0

def roiBasisPoints (totalPnl totalInvested : Int) : Int :=
  if totalInvested = 0 then 0
  else ((checkedMul totalPnl 10000).bind fun num => checked (num.tdiv totalInvested)).elim 0
    fun q => max (-2147483648) (min 2147483647 q)

/-- `price` is the one of the oracle for its asset pair, if the call succeeds and the price is fresh. -/
def getPnl (price : Address → Nat → Option Int) (user : Address) : P PnlSummary := do
  let oracle ← Tx.gets (·.store.config.oracle)
  let oracle ← Tx.ofOption oracle .panic
  let assetPair ← Tx.gets (·.store.config.oracleAssetPair)
  let positions ← Tx.gets (·.store.book.positionsOf user)
  let fifo ← Tx.gets fun w => (w.store.fifo.realizedPnl.lookup user).getD 0
  let realized := addIfFits (realizedOf positions) fifo
  let unrealized :=
    if ∃ pos ∈ positions, pos.status = .open then (price oracle assetPair).map (sumUnrealized · positions) else some 0
  let total := unrealized.elim realized (addIfFits realized)
  return ⟨realized, unrealized, total, roiBasisPoints total (investedOf positions)⟩

/-! ## Migration -/

/-- The indexes of one user. -/
def migrateUser (user : Address) : P Unit := do
  let migrated ← Tx.gets fun w => (w.store.book.migratedUser.lookup user).isSome
  Tx.when (migrated = false) do
    let ids ← Tx.gets (·.store.book.ids user)
    let positions ← Tx.gets (·.store.book.positions)
    Tx.failIf (∃ id ∈ ids, positions.lookup id = none) .panic
    let indexes ← Tx.gets (·.store.book.split ids)
    Tx.failIf (indexes.1.length + indexes.2.length ≠ ids.length) .panic
    storeIndexes user indexes
    saveBook fun b => { b with migratedUser := b.migratedUser.insert user true }

/-- From the tail of the queue. -/
def migrateBatch (batchSize : Nat) : P Nat := do
  let queue ← Tx.gets (·.store.book.migrationQueue)
  let toProcess := min batchSize queue.length
  Tx.each migrateUser (queue.reverse.take toProcess)
  saveBook fun b => { b with migrationQueue := queue.take (queue.length - toProcess) }
  return toProcess

def registerMigrationUsers (auth : Auth) (users : List Address) : P Unit := do
  requireAdmin auth
  saveBook fun b => { b with migrationQueue := b.migrationQueue ++ users }

def migratePortfolioV1ToV2 (auth : Auth) (batchSize : Nat) : P Nat := do
  requireAdmin auth
  migrateBatch batchSize

/-! ## Entry points -/

/-- `initialize`. -/
def initializePortfolio (auth : Auth) (admin oracle : Address) : P Unit := do
  let initialized ← Tx.gets (·.store.config.initialized)
  Tx.failIf (initialized = true) .panic
  requireAuth auth admin
  saveConfig fun c => { c with initialized := true, admin := some admin, oracle := some oracle, oracleAssetPair := 0 }
  saveBook fun b => { b with nextPositionId := some 1 }

/-- What the administrator sets. -/
inductive Setting where
  | setOracle (oracle : Address)
  | setTradeExecutor (tradeExecutor : Address)
  | setKycStatus (user : Address) (verified : Bool)
  | setKycRequiredMode (required : Bool)
  | setUserRestriction (user : Address) (restricted : Bool)
  | setOracleAssetPair (assetPair : Nat)

def Setting.apply (c : Config) : Setting → Config
  | .setOracle oracle => { c with oracle := some oracle }
  | .setTradeExecutor tradeExecutor => { c with tradeExecutor := some tradeExecutor }
  | .setKycStatus user verified => { c with kycVerified := c.kycVerified.insert user verified }
  | .setKycRequiredMode required => { c with kycRequiredMode := required }
  | .setUserRestriction user restricted => { c with restricted := c.restricted.insert user restricted }
  | .setOracleAssetPair assetPair => { c with oracleAssetPair := assetPair }

def configure (auth : Auth) (s : Setting) : P Unit := do
  requireAdmin auth
  saveConfig (s.apply ·)

/-- The entrypoints with their arguments. -/
inductive Call where
  | initializePortfolio (admin oracle : Address)
  | configure (s : Setting)
  | openPosition (user : Address) (entryPrice amount : Int)
  | openPositionWithCapCheck (user : Address) (assetId : Nat) (entryPrice amount : Int)
  | closePosition (user : Address) (positionId : Nat) (realizedPnl exitPrice : Int) (assetPair : Nat)
  | closePositionKeeper (caller user : Address) (positionId assetPair : Nat)
  | closePositionPartial (user : Address) (positionId : Nat) (closeAmount realizedPnlDelta : Int)
  | getPortfolio (user : Address) (includeClosed : Bool)
  | getTradeHistory (user : Address) (cursor : Option Nat) (limit : Nat)
  | getTradeHistoryPage (user : Address) (cursor : Option Nat) (limit : Nat)
  | registerMigrationUsers (users : List Address)
  | migratePortfolioV1ToV2 (batchSize : Nat)
  | setAssetExposureCap (user : Address) (assetId : Nat) (capAmount : Int)
  | removeAssetExposureCap (user : Address) (assetId : Nat)
  | addCostLot (user : Address) (entryPrice amount : Int)
  | closeFifo (user : Address) (closeAmount exitPrice : Int)

/-- A call that does not enter anything in the journal. -/
def silent {α : Type} (x : P α) : P (Option Entry) := do
  let _ ← x
  return none

/-- The call, and what it is entered as once it is accepted: by its arguments, and by what it returned. -/
def invoke (auth : Auth) : Call → P (Option Entry)
  | .initializePortfolio admin oracle => silent (initializePortfolio auth admin oracle)
  | .configure s => silent (configure auth s)
  | .openPosition user entryPrice amount => do
    let id ← openPosition auth user entryPrice amount
    return some (.opened user id amount)
  | .openPositionWithCapCheck user assetId entryPrice amount => do
    let id ← openPositionWithCapCheck auth user assetId entryPrice amount
    return some (.opened user id amount)
  | .closePosition user positionId realizedPnl exitPrice assetPair => do
    closePosition auth user positionId realizedPnl exitPrice assetPair
    return some (.closed user positionId realizedPnl)
  | .closePositionKeeper caller user positionId assetPair => do
    closePositionKeeper auth caller user positionId assetPair
    return some (.closedByKeeper user positionId)
  | .closePositionPartial user positionId closeAmount realizedPnlDelta => do
    let _ ← closePositionPartial auth user positionId closeAmount realizedPnlDelta
    return some (.partiallyClosed user positionId closeAmount realizedPnlDelta)
  | .getPortfolio user includeClosed => silent (getPortfolio user includeClosed)
  | .getTradeHistory user cursor limit => silent (getTradeHistory user cursor limit)
  | .getTradeHistoryPage user cursor limit => silent (getTradeHistoryPage user cursor limit)
  | .registerMigrationUsers users => silent (registerMigrationUsers auth users)
  | .migratePortfolioV1ToV2 batchSize => silent (migratePortfolioV1ToV2 auth batchSize)
  | .setAssetExposureCap user assetId capAmount => silent (setAssetExposureCap auth user assetId capAmount)
  | .removeAssetExposureCap user assetId => silent (removeAssetExposureCap auth user assetId)
  | .addCostLot user entryPrice amount => silent (addCostLot auth user entryPrice amount)
  | .closeFifo user closeAmount exitPrice => do
    let pnl ← closeFifo auth user closeAmount exitPrice
    return some (.soldFifo user pnl)

/-- A call, or the time goes on. -/
inductive Event where
  | call (auth : Auth) (c : Call)
  | advance (ledger : Ledger)

/-- The entry of an accepted call goes to the journal. -/
def World.enter (w : World) (e : Option Entry) : World := e.elim w w.note

def next (w : World) : Event → World
  | .call auth c => (invoke auth c).record World.enter w
  | .advance ledger => { w with ledger }

def Allowed (w : World) : Event → Prop
  | .call .. => True
  | .advance ledger => w.ledger.Before ledger

instance (w : World) : (ev : Event) → Decidable (Allowed w ev)
  | .call .. => inferInstanceAs (Decidable True)
  | .advance ledger => inferInstanceAs (Decidable (w.ledger.Before ledger))

def Step (w : World) (ev : Event) (w' : World) : Prop := Allowed w ev ∧ w' = next w ev

end CallStake.UserPortfolio
