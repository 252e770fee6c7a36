import CallStake.Oracle.Types

/-!
# Price feeds

The feed of a pair is one price with its time. It is written by `setPrice`, behind the breaker against single
deviating updates (`oracle::price_cb`), and by `updateWithExternalData` from the reports of external oracles.

* `isPaused` (`oracle::admin`), `setFeed`, `addAvailablePair`, `rescalePrice` (`oracle::storage`), `storePrice`
  (`oracle::history`), `onPriceUpdate`: the parts. An update also counts towards the cadence of the feed
  (`oracle::sla`).
* `calculateTwap`, `getTwapDeviation`, `getHistoricalPrice`, `getNormalizedPrice`, `checkOracleHeartbeat`,
  `getFeedHealth`: what is read from them.
-/

namespace CallStake.Oracle

/-! ## Pause -/

/-- `"all"`. -/
def CAT_ALL : Bytes := [97, 108, 108]

def PauseState.active (now : Nat) (st : PauseState) : Bool := st.paused && !st.autoUnpauseAt.any (· ≤ now)

def World.isPaused (w : World) (category : Bytes) : Bool :=
  (w.store.access.pauseStates.lookup CAT_ALL).any (·.active w.ledger.timestamp) ||
    (w.store.access.pauseStates.lookup category).any (·.active w.ledger.timestamp)

def requireNotPaused : O Unit := do
  let paused ← Tx.gets (·.isPaused CAT_ALL)
  Tx.failIf (paused = true) (err .circuitBreakerTripped)

/-! ## Storage of prices -/

/-- `storage::set_price`. -/
def setFeed (pair : AssetPair) (price : Int) : O Unit := do
  let now ← timestamp
  setPrices fun p => { p with feeds := p.feeds.insert pair ⟨price, now⟩ }

def addAvailablePair (pair : AssetPair) : O Unit :=
  setPrices fun p => { p with pairsList := if pair ∈ p.pairsList then p.pairsList else p.pairsList ++ [pair] }

/-- The loop of `pow10`, which stops at the first overflow. -/
def pow10Loop : Nat → Int → Option Int
  | 0, result => some result
  | exp + 1, result => (checkedMul result 10).bind (pow10Loop exp)

def pow10 (exp : Nat) : Option Int := pow10Loop exp 1

/-- `storage::rescale_price`, and `math::normalize_amount` of `shared` with the same body. -/
def rescalePrice (rawPrice : Int) (fromDecimals toDecimals : Nat) : Option Int :=
  if fromDecimals = toDecimals then some rawPrice
  else if fromDecimals < toDecimals then (pow10 (toDecimals - fromDecimals)).bind (checkedMul rawPrice ·)
  else (pow10 (fromDecimals - toDecimals)).map (rawPrice.tdiv ·)

def getNormalizedPrice (pair : AssetPair) (targetDecimals : Nat) : O Int := do
  let feed ← load (·.prices.feeds.lookup pair)
  let feed ← Tx.ofOption feed (err .priceNotFound)
  let decimals ← load (·.prices.feedDecimals.lookup pair)
  Tx.ofOption (rescalePrice feed.price (decimals.getD 7) targetDecimals) (err .conversionOverflow)

/-! ## History -/

def BUCKET_SIZE : Nat := 300
def MAX_BUCKETS : Nat := 2016

/-- `while last < target { remove(last); last += 1 }`. -/
def dropBuckets (pair : AssetPair) (last target : Nat) (history : Store (AssetPair × Nat) Int) :
    Store (AssetPair × Nat) Int :=
  (List.range' last (target - last)).foldl (fun h bucket => h.erase (pair, bucket)) history

def pruneOldData (pair : AssetPair) (currentBucket : Nat) : O Unit :=
  Tx.when (MAX_BUCKETS ≤ currentBucket) do
    let last ← load fun s => (s.monitor.pruned.lookup pair).getD 0
    let target := currentBucket - MAX_BUCKETS
    setPrices fun p => { p with history := dropBuckets pair last target p.history }
    setMonitor fun m => { m with pruned := m.pruned.insert pair (max last target) }

def storePrice (pair : AssetPair) (price : Int) : O Unit := do
  let now ← timestamp
  setPrices fun p => { p with history := p.history.insert (pair, now / BUCKET_SIZE) price }
  pruneOldData pair (now / BUCKET_SIZE)

def getHistoricalPrice (pair : AssetPair) (time : Nat) : O (Option Int) := do
  let now ← timestamp
  let entry ← load (·.prices.history.lookup (pair, time / BUCKET_SIZE))
  return if now < time then none else entry

/-- The prices of the buckets of a window, up to now. -/
def windowPrices (w : World) (pair : AssetPair) (windowSeconds : Nat) : List Int :=
  let start := (w.ledger.timestamp - windowSeconds) / BUCKET_SIZE
  let stop := w.ledger.timestamp / BUCKET_SIZE
  (List.range' start (stop + 1 - start)).filterMap fun bucket => w.store.prices.history.lookup (pair, bucket)

def calculateTwap (pair : AssetPair) (windowSeconds : Nat) : O Int := do
  let prices ← Tx.gets fun w => windowPrices w pair windowSeconds
  Tx.failIf (prices = []) (err .insufficientHistoricalData)
  return (prices.foldl saturatingAdd 0).tdiv prices.length

def getTwapDeviation (pair : AssetPair) (currentPrice : Int) (window : Nat) : O Int := do
  let twap ← calculateTwap pair window
  Tx.failIf (twap = 0) (err .invalidPrice)
  deviationBps currentPrice twap twap

/-! ## Cadence -/

/-- `sla::record_update`. -/
def FeedSlaRecord.updated (r : FeedSlaRecord) (now : Nat) : FeedSlaRecord :=
  if 0 < r.prevUpdateTs ∧ r.prevUpdateTs < now then
    { r with
      intervalSum := u64Add r.intervalSum (now - r.prevUpdateTs)
      intervalCount := u64Add r.intervalCount 1
      prevUpdateTs := now }
  else { r with prevUpdateTs := now }

def onPriceUpdate (pair : AssetPair) : O Unit := do
  let now ← timestamp
  let ledger ← sequence
  let metadata ← load (·.getMetadata pair)
  let count ← plainU32 (metadata.updateCount24h + 1)
  setMonitor fun m => { m with
    metadata := m.metadata.insert pair ⟨now, ledger, count, false, .healthy⟩ }
  let record ← load (·.slaRecord pair)
  setMonitor fun m => { m with slaRecords := m.slaRecords.insert pair (record.updated now) }

/-- How regular the updates of a feed are. -/
structure FeedHealth where
  avgUpdateIntervalSecs : Nat
  expectedIntervalSecs : Nat
  slaBreached : Bool
  intervalCount : Nat

/-- The average is `0` where there is no interval. -/
def getFeedHealth (pair : AssetPair) : O FeedHealth := do
  let r ← load (·.slaRecord pair)
  let avg := r.intervalSum / r.intervalCount
  return ⟨avg, r.expectedIntervalSecs,
    decide (0 < r.expectedIntervalSecs ∧ 0 < avg ∧ r.expectedIntervalSecs < avg), r.intervalCount⟩

def MAX_PRICE_AGE_LEDGERS : Nat := 60
def ORACLE_DEAD_THRESHOLD_LEDGERS : Nat := 1440

def heartbeatStatus (lastUpdateLedger ledgersSinceUpdate : Nat) : OracleStatus :=
  if lastUpdateLedger = 0 ∨ ORACLE_DEAD_THRESHOLD_LEDGERS < ledgersSinceUpdate then .dead
  else if MAX_PRICE_AGE_LEDGERS < ledgersSinceUpdate then .stale
  else .healthy

/-- How old the data of a pair are. -/
structure OracleHealth where
  isHealthy : Bool
  lastUpdateLedger : Nat
  ledgersSinceUpdate : Nat
  status : OracleStatus

/-- A status that is not healthy is remembered, so that it is reported once. -/
def checkOracleHeartbeat (pair : AssetPair) : O OracleHealth := do
  let ledger ← sequence
  let metadata ← load (·.getMetadata pair)
  let since := if metadata.lastUpdateLedger = 0 then u32Max else ledger - metadata.lastUpdateLedger
  let status := heartbeatStatus metadata.lastUpdateLedger since
  Tx.when (status ≠ .healthy ∧ metadata.lastHeartbeatStatus ≠ status)
    (setMonitor fun m => { m with metadata := m.metadata.insert pair { metadata with lastHeartbeatStatus := status } })
  return ⟨status = .healthy, metadata.lastUpdateLedger, since, status⟩

/-! ## The breaker -/

/-- The price that an update is compared with. -/
def Storage.previousPrice (s : Storage) (pair : AssetPair) : Option Int :=
  (s.prices.feeds.lookup pair).bind fun feed => if 0 < feed.price then some feed.price else none

def trip (pair : AssetPair) : O Unit :=
  setMonitor fun m => { m with breakerTripped := m.breakerTripped.insert pair true }

/-- Whether the update deviates by more than the threshold; then the breaker trips. -/
def compareAndTrip (pair : AssetPair) (maxBps : Nat) (prevPrice newPrice : Int) : O Bool := do
  let deviation ← deviationBps newPrice prevPrice prevPrice
  Tx.when (maxBps < asU32 deviation) (trip pair)
  return decide (maxBps < asU32 deviation)

def checkAndTrip (pair : AssetPair) (newPrice : Int) : O Bool := do
  let tripped ← load (·.isTripped pair)
  Tx.failIf (tripped = true) (err .priceDeviationBreakerTripped)
  let maxBps ← load (·.thresholdBps pair)
  let previous ← load (·.previousPrice pair)
  match previous with
  | none => return false
  | some prevPrice => if maxBps = 0 then return false else compareAndTrip pair maxBps prevPrice newPrice

def guardTripped (pair : AssetPair) : O Unit := do
  let tripped ← load (·.isTripped pair)
  Tx.failIf (tripped = true) (err .priceDeviationBreakerTripped)

/-! ## Updates -/

/-- What follows an update that the breaker lets through. -/
def acceptPrice (pair : AssetPair) (price : Int) : O Unit := do
  setFeed pair price
  addAvailablePair pair
  storePrice pair price
  onPriceUpdate pair

/-- An update that trips the breaker is dropped, and the call returns. -/
def setPrice (pair : AssetPair) (price : Int) : O Unit := do
  requireNotPaused
  Tx.failIf (price ≤ 0) (err .invalidAsset)
  let rejected ← checkAndTrip pair price
  Tx.when (rejected = false) (acceptPrice pair price)

def CANONICAL_DECIMALS : Nat := 7

/-- The sum and number of the positive fresh reports, and whether one was stale. -/
structure Reports where
  sum : Int
  count : Int
  anyStale : Bool

/-- One round of the loop over the reports. -/
def Reports.add (s : Storage) (now : Nat) (r : Reports) (p : ExternalPrice) : Except (Fault OracleError) Reports :=
  if s.stalenessWindow p.assetPair ≤ now - p.timestamp then .ok { r with anyStale := true }
  else
    match rescalePrice p.price p.decimals CANONICAL_DECIMALS with
    | none => .error (err .conversionOverflow)
    | some normalized =>
      if 0 < normalized then
        match checkedAdd r.sum normalized with
        | none => .error (err .overflow)
        | some sum => .ok { r with sum, count := r.count + 1 }
      else .ok r

/-- The average of the positive fresh reports. -/
def externalPrice (s : Storage) (now : Nat) (prices : List ExternalPrice) : Except (Fault OracleError) Int := do
  let r ← prices.foldlM (Reports.add s now) ⟨0, 0, false⟩
  if r.count = 0 then .error (err (if r.anyStale then .stalePrice else .insufficientOracles))
  else return r.sum.tdiv r.count

def processExternalPrices (prices : List ExternalPrice) : O Int := do
  Tx.failIf (prices = []) (err .insufficientOracles)
  let now ← timestamp
  let result ← load fun s => externalPrice s now prices
  Tx.ofExcept result

/-- The average of the reports, for whichever pairs, becomes the price of the pair of the first one. -/
def updateWithExternalData (prices : List ExternalPrice) : O Int := do
  let price ← processExternalPrices prices
  match prices.head? with
  | none => return price
  | some first => do
    setFeed first.assetPair price
    onPriceUpdate first.assetPair
    return price

end CallStake.Oracle
