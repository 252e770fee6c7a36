import CallStake.Lib.Sorting
import CallStake.Oracle.Feeds

/-!
# Quotes and the aggregated price

Registered sources submit quotes for a pair. The price of the pair is the median of the quotes that are fresh; a
pair without quotes has the price of its feed.

* `submitPairPrice`: a quote is checked against the fresh ones (`checkDeviation`, `oracle::deviation`) and
  replaces those that are stale.
* `getPriceWithConfidence`, `getPrice`: the median, if the fresh quotes are enough and do not disagree.
-/

namespace CallStake.Oracle

/-- Within the window of the pair. -/
def PriceData.fresh (now window : Nat) (p : PriceData) : Bool := now - p.timestamp < window

/-- The quotes of the pair that are fresh. -/
def World.freshQuotes (w : World) (pair : AssetPair) : List PriceData :=
  (w.store.quotes pair).filter (·.fresh w.ledger.timestamp (w.store.stalenessWindow pair))

/-! ## Submission -/

/-- The smallest and the largest price. -/
def priceRange (prices : List Int) : Int × Int :=
  prices.foldl (fun (lo, hi) p => (if p < lo then p else lo, if hi < p then p else hi)) (i128Max, i128Min)

/-- The check of the range of prices against the threshold that rejects. The other threshold only raises an
alert. -/
def checkRange (rejectBps : Nat) (range : Int × Int) : O Unit :=
  Tx.when (0 < range.1) do
    let spread ← plain (range.2 - range.1)
    let scaled ← plain (spread * 10000)
    let deviation ← div scaled range.1
    Tx.failIf (rejectBps ≠ 0 ∧ rejectBps < asU32 deviation) (err .deviationRejected)

def checkDeviation (pair : AssetPair) (prices : List Int) : O Unit := do
  let alertBps ← load fun s => (s.settings.alertThresholds.lookup pair).getD 0
  let rejectBps ← load fun s => (s.settings.rejectThresholds.lookup pair).getD 0
  Tx.when (¬ (alertBps = 0 ∧ rejectBps = 0 ∨ prices = [])) (checkRange rejectBps (priceRange prices))

def submitPairPrice (auth : Auth) (source : Address) (pair : AssetPair) (price : Int) (confidence : Nat) :
    O Unit := do
  requireNotPaused
  requireAuth auth source
  Tx.failIf (price ≤ 0) (err .invalidPrice)
  let minConfidence ← load (·.settings.minConfidence)
  Tx.failIf (confidence < minConfidence) (err .lowConfidence)
  let weight ← load (·.oracleWeight source)
  Tx.failIf (weight = 0) (err .unauthorized)
  let fresh ← Tx.gets (·.freshQuotes pair)
  checkDeviation pair (fresh.map (·.price) ++ [price])
  let now ← timestamp
  setPrices fun p => { p with quotes := p.quotes.insert pair (fresh ++ [⟨pair, price, now, source, confidence⟩]) }

/-! ## Aggregation -/

/-- The quotes, or the feed as the only one. -/
def readQuotes (contract : Address) (pair : AssetPair) : O (List PriceData) := do
  let quotes ← load (·.quotes pair)
  let feed ← load (·.prices.feeds.lookup pair)
  if quotes = [] then do
    let feed ← Tx.ofOption feed (err .priceNotFound)
    return [⟨pair, feed.price, feed.timestamp, contract, 100⟩]
  else return quotes

/-- `(max - min) * 100 / min > 10`. -/
def checkSpread (lo hi : Int) : O Unit := do
  let spread ← plain (hi - lo)
  let scaled ← plain (spread * 100)
  let percent ← div scaled lo
  Tx.failIf (10 < percent) (err .unreliablePrice)

/-- The median of quotes that are sorted by price. The list has an element at each of the three indices. -/
def median (sorted : List PriceData) : O (Int × Nat) := do
  let medianData ← Tx.ofOption sorted[sorted.length / 2]? .panic
  let lo ← Tx.ofOption sorted[0]? .panic
  let hi ← Tx.ofOption sorted[sorted.length - 1]? .panic
  checkSpread lo.price hi.price
  return (medianData.price, medianData.confidence)

def getPriceWithConfidence (contract : Address) (pair : AssetPair) : O (Int × Nat) := do
  guardTripped pair
  let prices ← readQuotes contract pair
  let now ← timestamp
  let window ← load (·.stalenessWindow pair)
  let fresh := prices.filter (·.fresh now window)
  Tx.failIf (fresh = []) (err .stalePrice)
  let minCount ← load (·.settings.minSourceCount)
  Tx.failIf (0 < minCount ∧ fresh.length < minCount) (err .insufficientSources)
  median (bubbleSort PriceData.price fresh)

def getPrice (contract : Address) (pair : AssetPair) : O Int := do
  let (price, _) ← getPriceWithConfidence contract pair
  return price

end CallStake.Oracle
