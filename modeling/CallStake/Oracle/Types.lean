import CallStake.Lib.Bytes
import CallStake.Lib.Store
import CallStake.Shared.Host

/-!
# The oracle: storage and environment

The data of the `oracle` contract. The storage is one record, grouped by what the entries are for. An entry that
is only ever read with a default holds the default while it is unset, or is read through a function that has it.

* `Prices`: what the contracts that use the oracle trust: feeds, quotes, history, base currency, pairs, decimals.
* `Panel`: the oracles that vote on a price, with their reputations, and the sources of quotes.
* `Settings`, `Access`: what the administrator sets. `Monitor`: the breaker, metadata and caches.

Left out: events, and the time to live of persistent entries, which are restored when they are read. Entries of
the temporary storage may expire (`Event.expire` of the entry points).
-/

namespace CallStake.Oracle

/-! ## Errors -/

/-- The errors of the oracle. -/
inductive OracleError where
  | priceNotFound
  | noConversionPath
  | invalidPath
  | conversionOverflow
  | unauthorized
  | invalidAsset
  | stalePrice
  | oracleNotFound
  | invalidPrice
  | oracleAlreadyExists
  | insufficientOracles
  | lowReputation
  | insufficientHistoricalData
  | unreliablePrice
  | noPathFound
  | slippageExceeded
  | overflow
  | circuitBreakerTripped
  | pendingAdminNotFound
  | pendingAdminExpired
  | insufficientSources
  | priceDeviationBreakerTripped
  | incompatibleContractVersion
  | lowConfidence
  | deviationRejected
  deriving DecidableEq

/-! ## Stored values -/

/-- What is priced in what. -/
structure AssetPair where
  base : Asset
  quote : Asset
  deriving DecidableEq

/-- A price and when it was written. -/
structure PriceFeed where
  price : Int
  timestamp : Nat
  deriving DecidableEq

/-- A quote of a source. -/
structure PriceData where
  assetPair : AssetPair
  price : Int
  timestamp : Nat
  source : Address
  confidence : Nat

/-- The record and the weight of an oracle. -/
structure OracleReputation where
  totalSubmissions : Nat
  accurateSubmissions : Nat
  avgDeviation : Int
  reputationScore : Nat
  weight : Nat
  lastSlash : Nat

/-- A price for the next consensus. -/
structure PriceSubmission where
  oracle : Address
  price : Int
  timestamp : Nat

/-- The last consensus. -/
structure ConsensusPriceData where
  price : Int
  timestamp : Nat
  numOracles : Nat

/-- A report of an external oracle. Its signature is not looked at. -/
structure ExternalPrice where
  assetPair : AssetPair
  price : Int
  timestamp : Nat
  roundId : Nat
  signature : Bytes
  oracleAddress : Address
  decimals : Nat

/-- A rate that was computed before. -/
structure CachedConversion where
  rate : Int
  timestamp : Nat

/-- A route, with its costs. -/
structure LiquidityPath where
  hops : List AssetPair
  totalLiquidity : Int
  estimatedSlippage : Nat
  totalFees : Nat
  deriving DecidableEq

/-- How the heartbeat stands. -/
inductive OracleStatus where
  | healthy
  | stale
  | dead
  deriving DecidableEq

/-- `PriceMetadata`, without the fields that are never written: the average interval and the level of
staleness. -/
structure PriceMetadata where
  lastUpdate : Nat
  lastUpdateLedger : Nat
  updateCount24h : Nat
  isPaused : Bool
  lastHeartbeatStatus : OracleStatus

/-- The intervals between the updates of a feed. -/
structure FeedSlaRecord where
  expectedIntervalSecs : Nat
  intervalSum : Nat
  intervalCount : Nat
  prevUpdateTs : Nat

/-- Whether a category is paused, and until when. -/
structure PauseState where
  paused : Bool
  pausedAt : Nat
  autoUnpauseAt : Option Nat
  reason : Bytes

/-! ## Storage -/

/-- Feeds, quotes, history, base currency and pairs. -/
structure Prices where
  feeds : Store AssetPair PriceFeed
  quotes : Store AssetPair (List PriceData)
  history : Store (AssetPair × Nat) Int
  baseCurrency : Option Asset
  pairsList : List AssetPair
  feedDecimals : Store AssetPair Nat

/-- The oracles, and what they submit. -/
structure Panel where
  oracles : List Address
  oracleStats : Store Address OracleReputation
  priceSubmissions : List PriceSubmission
  consensusPrice : Option ConsensusPriceData
  oracleWeights : Store Address Nat

/-- What the administrator sets. -/
structure Settings where
  minSourceCount : Nat
  minConfidence : Nat
  deviationThresholds : Store AssetPair Nat
  alertThresholds : Store AssetPair Nat
  rejectThresholds : Store AssetPair Nat
  stalenessWindows : Store AssetPair Nat

/-- Who may do what. -/
structure Access where
  admin : Option Address
  guardian : Option Address
  governanceAddress : Option Address
  pendingAdmin : Option Address
  pendingAdminExpiry : Option Nat
  pauseStates : Store Bytes PauseState
  contractVersion : Nat

/-- Breakers, records of updates, and caches. -/
structure Monitor where
  breakerTripped : Store AssetPair Bool
  metadata : Store AssetPair PriceMetadata
  slaRecords : Store AssetPair FeedSlaRecord
  pruned : Store AssetPair Nat
  conversionCache : Store (Asset × Asset) CachedConversion
  cachedPaths : Store (Asset × Asset) LiquidityPath

/-- The storage of the contract. -/
structure Storage where
  prices : Prices
  panel : Panel
  settings : Settings
  access : Access
  monitor : Monitor

/-- The storage of a contract that was just deployed. -/
def Storage.deployed : Storage where
  prices := ⟨∅, ∅, ∅, none, [], ∅⟩
  panel := ⟨[], ∅, [], none, ∅⟩
  settings := ⟨0, 0, ∅, ∅, ∅, ∅⟩
  access := ⟨none, none, none, none, none, ∅, 1⟩
  monitor := ⟨∅, ∅, ∅, ∅, ∅, ∅⟩

/-- The ledger and the storage. -/
structure World where
  ledger : Ledger
  store : Storage

/-- Who authorized the call, and the address of the contract. -/
structure Env where
  auth : Auth
  contract : Address

/-! ### Entries with their defaults -/

namespace Storage

variable (s : Storage) (pair : AssetPair)

/-- `XLM`, the native asset. -/
def defaultBaseCurrency : Asset := ⟨[88, 76, 77], none⟩

def getBaseCurrency : Asset := s.prices.baseCurrency.getD defaultBaseCurrency

def isTripped : Bool := (s.monitor.breakerTripped.lookup pair).getD false

def thresholdBps : Nat := (s.settings.deviationThresholds.lookup pair).getD 0

def DEFAULT_STALENESS_WINDOW_SECS : Nat := 300

def stalenessWindow : Nat := (s.settings.stalenessWindows.lookup pair).getD DEFAULT_STALENESS_WINDOW_SECS

def quotes : List PriceData := (s.prices.quotes.lookup pair).getD []

def oracleWeight (source : Address) : Nat := (s.panel.oracleWeights.lookup source).getD 0

def defaultReputation : OracleReputation := ⟨0, 0, 0, 50, 1, 0⟩

def getOracleStats (oracle : Address) : OracleReputation := (s.panel.oracleStats.lookup oracle).getD defaultReputation

def getMetadata : PriceMetadata := (s.monitor.metadata.lookup pair).getD ⟨0, 0, 0, false, .dead⟩

def slaRecord : FeedSlaRecord := (s.monitor.slaRecords.lookup pair).getD ⟨0, 0, 0, 0⟩

end Storage

/-! ## Primitives -/

abbrev O := Tx World (Fault OracleError)

section Primitives

variable {α : Type}

def err (e : OracleError) : Fault OracleError := .err e

def load (f : Storage → α) : O α := Tx.gets fun w => f w.store

def timestamp : O Nat := Tx.gets (·.ledger.timestamp)

def sequence : O Nat := Tx.gets (·.ledger.sequence)

def setPrices (f : Prices → Prices) : O Unit := Tx.modify fun w => { w with store.prices := f w.store.prices }

def setPanel (f : Panel → Panel) : O Unit := Tx.modify fun w => { w with store.panel := f w.store.panel }

def setSettings (f : Settings → Settings) : O Unit :=
  Tx.modify fun w => { w with store.settings := f w.store.settings }

def setAccess (f : Access → Access) : O Unit := Tx.modify fun w => { w with store.access := f w.store.access }

def setMonitor (f : Monitor → Monitor) : O Unit := Tx.modify fun w => { w with store.monitor := f w.store.monitor }

/-- A plain operation on `i128`, which traps on overflow. -/
def plain (x : Int) : O Int := Tx.ofOption (checked x) .panic

/-- A plain `/` on `i128`, which traps also on a division by zero. -/
def div (x y : Int) : O Int := do
  Tx.failIf (y = 0) .panic
  plain (x.tdiv y)

/-- A plain operation on `u32`, which traps on overflow. -/
def plainU32 (n : Nat) : O Nat := Tx.ofOption (if n ≤ u32Max then some n else none) .panic

/-- A plain `+` on `u64`, which traps on overflow. -/
def plainU64 (n : Nat) : O Nat := Tx.ofOption (if n ≤ u64Max then some n else none) .panic

/-- A plain `-` on `u64`, which traps below zero. -/
def subU64 (a b : Nat) : O Nat := Tx.ofOption (if b ≤ a then some (a - b) else none) .panic

/-- `x as u32`, which keeps the low 32 bits. -/
def asU32 (x : Int) : Nat := (x % 4294967296).toNat

/-- `((a - b).abs() * 10_000) / c`. -/
def deviationBps (a b c : Int) : O Int := do
  let diff ← plain (a - b)
  let abs ← plain diff.natAbs
  let scaled ← plain (abs * 10000)
  div scaled c

def requireAdmin (caller : Address) : O Unit := do
  let admin ← load (·.access.admin)
  let admin ← Tx.ofOption admin (err .unauthorized)
  Tx.failIf (caller ≠ admin) (err .unauthorized)

/-! A sequence that starts with a primitive. -/

section Peel

variable {β : Type} {b : β} {w w' : World}

theorem bind_load_eq (f : Storage → α) (k : α → O β) (w : World) : (load f >>= k) w = k (f w.store) w := rfl

theorem bind_timestamp_eq (k : Nat → O β) (w : World) : (timestamp >>= k) w = k w.ledger.timestamp w := rfl

theorem bind_load_ok {f : Storage → α} {k : α → O β} :
    (load f >>= k) w = (.ok b, w') ↔ k (f w.store) w = (.ok b, w') := Iff.rfl

theorem bind_timestamp_ok {k : Nat → O β} :
    (timestamp >>= k) w = (.ok b, w') ↔ k w.ledger.timestamp w = (.ok b, w') := Iff.rfl

theorem bind_setPanel_ok {f : Panel → Panel} {k : Unit → O β} : (setPanel f >>= k) w = (.ok b, w') ↔
    k () { w with store.panel := f w.store.panel } = (.ok b, w') := Iff.rfl

theorem bind_plain_ok {x : Int} {k : Int → O β} :
    (plain x >>= k) w = (.ok b, w') ↔ InRange x ∧ k x w = (.ok b, w') := Tx.bind_checked_ok

theorem bind_div_ok {x y : Int} {k : Int → O β} : (div x y >>= k) w = (.ok b, w') ↔
    y ≠ 0 ∧ InRange (x.tdiv y) ∧ k (x.tdiv y) w = (.ok b, w') := by
  rw [div, Tx.bind_assoc_eq, Tx.bind_failIf_ok, bind_plain_ok]

end Peel

end Primitives

end CallStake.Oracle
