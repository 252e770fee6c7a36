import CallStake.Oracle.Feeds

/-!
# Conversion and routes over several pairs

Amounts are converted to the base currency by a feed or along a chain of feeds (`oracle::conversion`), and trades
are routed over up to three pairs (`oracle::multi_hop`). Both keep their results in the temporary storage.

* `searchPath`: the search by breadth for the shortest chain. Every asset enters the queue once, so there are at
  most as many rounds as there are assets in the pairs, and one.
-/

namespace CallStake.Oracle

/-- The asset at the other end of the pair. -/
def AssetPair.other (pair : AssetPair) (current : Asset) : Option Asset :=
  if pair.base = current then some pair.quote
  else if pair.quote = current then some pair.base
  else none

/-! ## Conversion -/

section Conversion

def MAX_PATH_LENGTH : Nat := 3

/-- One neighbour: a path to an asset that was not visited joins the queue. -/
def exploreNeighbour (path : List Asset) (current : Asset) (st : List (List Asset) × List Asset)
    (pair : AssetPair) : List (List Asset) × List Asset :=
  match pair.other current with
  | none => st
  | some next => if next ∈ st.2 then st else (st.1 ++ [path ++ [next]], next :: st.2)

/-- The rounds of `find_conversion_path`, on the queue and the visited assets. -/
def searchPath (pairs : List AssetPair) (target : Asset) : Nat → List (List Asset) → List Asset →
    Except OracleError (List Asset)
  | 0, _, _ => .error .noConversionPath
  | _, [], _ => .error .noConversionPath
  | fuel + 1, path :: queue, visited =>
    if MAX_PATH_LENGTH < path.length then searchPath pairs target fuel queue visited
    else
      match path.getLast? with
      | none => .error .invalidPath
      | some current =>
        if current = target then .ok path
        else
          let st := pairs.foldl (exploreNeighbour path current) (queue, visited)
          searchPath pairs target fuel st.1 st.2

def findConversionPath (s : Storage) (src dst : Asset) : Except OracleError (List Asset) :=
  searchPath s.prices.pairsList dst (2 * s.prices.pairsList.length + 2) [[src]] [src]

/-- The feed of the pair with seven decimals. -/
def normalizedFeed (s : Storage) (pair : AssetPair) : Except OracleError Int :=
  match s.prices.feeds.lookup pair with
  | none => .error .priceNotFound
  | some feed =>
    match rescalePrice feed.price ((s.prices.feedDecimals.lookup pair).getD 7) 7 with
    | none => .error .conversionOverflow
    | some price => .ok price

def convertDirect (s : Storage) (amount : Int) (src dst : Asset) : Except OracleError Int := do
  let price ← normalizedFeed s ⟨src, dst⟩
  match (checkedMul amount price).bind (rescalePrice · 14 7) with
  | none => .error .conversionOverflow
  | some result => return result

/-- Along the assets after the first. -/
def convertAlong (s : Storage) : Int → Asset → List Asset → Except OracleError Int
  | amount, _, [] => .ok amount
  | amount, current, next :: path => do convertAlong s (← convertDirect s amount current next) next path

def convertViaPath (s : Storage) (amount : Int) (src dst : Asset) : Except OracleError Int := do
  let path ← findConversionPath s src dst
  convertAlong s amount src path.tail

/-- `conversion::convert_to_base`. -/
def conversion (s : Storage) (amount : Int) (asset : Asset) : Except OracleError Int :=
  if asset = s.getBaseCurrency then .ok amount
  else
    match convertDirect s amount asset s.getBaseCurrency with
    | .ok result => .ok result
    | .error _ => convertViaPath s amount asset s.getBaseCurrency

def cachedRate (s : Storage) (now : Nat) (asset : Asset) : Option Int :=
  match s.monitor.conversionCache.lookup (asset, s.getBaseCurrency) with
  | none => none
  | some cached => if now - cached.timestamp < 300 then some cached.rate else none

/-- The rate that is kept, `0` for none. -/
def rateOf (amount result : Int) : Int :=
  if 0 < amount then ((checkedMul result 10000000).map (·.tdiv amount)).getD 0 else 0

def convertAndCache (amount : Int) (asset : Asset) : O Int := do
  let now ← timestamp
  let base ← load (·.getBaseCurrency)
  let converted ← load fun s => (conversion s amount asset).mapError err
  let result ← Tx.ofExcept converted
  Tx.when (0 < rateOf amount result) (setMonitor fun m => { m with
    conversionCache := m.conversionCache.insert (asset, base) ⟨rateOf amount result, now⟩ })
  return result

def convertToBase (amount : Int) (asset : Asset) : O Int := do
  let now ← timestamp
  let rate ← load fun s => cachedRate s now asset
  match rate with
  | some rate => Tx.ofOption ((checkedMul amount rate).map (·.tdiv 10000000)) (err .conversionOverflow)
  | none => convertAndCache amount asset

end Conversion

/-! ## Routes -/

section Routes

def PRECISION : Int := 10000000
def MAX_HOPS : Nat := 3
def SLIPPAGE_TOLERANCE_BPS : Nat := 500

/-- The routes from `current`, each with the hops that led to it in front. -/
def routesFrom (graph : List AssetPair) (target : Asset) : Nat → Asset → List AssetPair → List Asset →
    List (List AssetPair)
  | 0, _, _, _ => []
  | hops + 1, current, path, visited =>
    graph.flatMap fun pair =>
      match pair.other current with
      | none => []
      | some next =>
        if next ∈ visited then []
        else if next = target then [path ++ [⟨current, next⟩]]
        else routesFrom graph target hops next (path ++ [⟨current, next⟩]) (next :: visited)

/-- The search by depth for all routes. -/
def findAllPaths (graph : List AssetPair) (src dst : Asset) : List (List AssetPair) :=
  routesFrom graph dst MAX_HOPS src [] [src]

/-- The part of the slippage that grows with the amount. -/
def volumeSlippage (amount : Int) : O Nat :=
  if 1000 * PRECISION < amount then plainU32 (asU32 ((amount.tdiv PRECISION - 1000).tdiv 10000) * 5)
  else return 0

def getPriceWithSlippage (pair : AssetPair) (amount : Int) : O (Int × Nat) := do
  let feed ← load (·.prices.feeds.lookup pair)
  let volume ← volumeSlippage amount
  let slippage ← plainU32 (10 + volume)
  return ((feed.map (·.price)).getD PRECISION, slippage)

/-- The slippage and the fees of the hops, and the amount that comes out. -/
structure RouteCost where
  amount : Int
  slippage : Nat
  fees : Nat

def costAlong : RouteCost → List AssetPair → O RouteCost
  | cost, [] => return cost
  | cost, hop :: path => do
    let fees ← plainU32 (cost.fees + 30)
    let (price, hopSlippage) ← getPriceWithSlippage hop cost.amount
    let slippage ← plainU32 (cost.slippage + hopSlippage)
    let product ← plain (cost.amount * price)
    let product ← plain (product.tdiv PRECISION * (10000 - hopSlippage))
    costAlong ⟨product.tdiv 10000, slippage, fees⟩ path

/-- A route without too much slippage. The liquidity is the same on every hop. -/
def calculatePathCost (path : List AssetPair) (amount : Int) : O (Option LiquidityPath) := do
  let cost ← costAlong ⟨amount, 0, 0⟩ path
  return if SLIPPAGE_TOLERANCE_BPS < cost.slippage then none
    else some ⟨path, if path = [] then i128Max else 1000000 * PRECISION, cost.slippage, cost.fees⟩

/-- Whichever of two routes costs less, the first if they cost the same. -/
def cheaper (best candidate : Option LiquidityPath) : O (Option LiquidityPath) :=
  match candidate, best with
  | none, _ => return best
  | some c, none => do
    let cost ← plainU32 (c.estimatedSlippage + c.totalFees)
    return if cost < u32Max then some c else none
  | some c, some b => do
    let cost ← plainU32 (c.estimatedSlippage + c.totalFees)
    return if cost < b.estimatedSlippage + b.totalFees then some c else some b

def bestPath (amount : Int) : Option LiquidityPath → List (List AssetPair) → O (Option LiquidityPath)
  | best, [] => return best
  | best, path :: paths => do
    let candidate ← calculatePathCost path amount
    let best ← cheaper best candidate
    bestPath amount best paths

def searchRoute (src dst : Asset) (amount : Int) : O LiquidityPath := do
  let graph ← load (·.prices.pairsList)
  let best ← bestPath amount none (findAllPaths graph src dst)
  let path ← Tx.ofOption best (err .noPathFound)
  setMonitor fun m => { m with cachedPaths := m.cachedPaths.insert (src, dst) path }
  return path

def findOptimalPath (src dst : Asset) (amount : Int) : O LiquidityPath := do
  let cached ← load (·.monitor.cachedPaths.lookup (src, dst))
  match cached with
  | some path => return path
  | none => searchRoute src dst amount

def calculateMultiHopPrice : List AssetPair → Int → O Int
  | [], amount => return amount
  | hop :: hops, amount => do
    let (price, slippage) ← getPriceWithSlippage hop amount
    let impact := ((checkedMul amount price).map (·.tdiv PRECISION)).getD 0
    calculateMultiHopPrice hops (((checkedMul impact (10000 - slippage)).map (·.tdiv 10000)).getD 0)

end Routes

end CallStake.Oracle
