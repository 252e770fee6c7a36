import CallStake.Lib.Ranking
import CallStake.Shared.Host

/-!
# The leaderboard of providers

`signal_registry::leaderboard`: four lists of providers, one for each metric, that are updated when a signal closes.

* `IndexEntry`, `ProviderPerformance`, and the storage with the four indexes.
* `upsertSorted`: an entry takes its place in an index. `updateLeaderboardIndex`: it does so in all four.

The stake and the profile of the provider, which other modules of the contract store, are arguments of an update.

Left out: events, the lifetimes of the stored values, and the legacy queries.
-/

namespace CallStake.Leaderboard

def MIN_CLOSED_SIGNALS : Nat := 10
def DEFAULT_LEADERBOARD_LIMIT : Nat := 10
def MAX_LEADERBOARD_LIMIT : Nat := 50
def INDEX_CAPACITY : Nat := 100

/-- 100 XLM. -/
def DEFAULT_MINIMUM_STAKE : Int := 100000000

/-! ## Data -/

/-- What providers are ranked by. -/
inductive ProviderMetric where
  | bySuccessRate
  | byTotalAdopters
  | byTotalProfitDelta
  | byStake

/-- A row of the leaderboard. -/
structure ProviderLeaderboardEntry where
  rank : Nat
  provider : Address
  metricValue : Int
  totalSignals : Nat
  verified : Bool

/-- What a provider is ranked by. -/
structure IndexEntry where
  provider : Address
  closedSignals : Nat
  successRate : Nat
  totalAdopters : Nat
  totalProfitDelta : Int
  stakeAmount : Int
  verified : Bool
  registeredAt : Nat
  deriving DecidableEq

/-- The statistics of a provider, as far as an update reads them. -/
structure ProviderPerformance where
  successfulSignals : Nat
  failedSignals : Nat
  totalCopies : Nat
  successRate : Nat
  avgReturn : Int

/-- The index of each metric. -/
structure Storage where
  successRateIndex : List IndexEntry
  adoptersIndex : List IndexEntry
  profitDeltaIndex : List IndexEntry
  stakeIndex : List IndexEntry

def Storage.deployed : Storage := ⟨[], [], [], []⟩

/-- `address.to_string()`. -/
structure Host where
  strkey : Address → String

/-! ## Functions -/

/-- What a metric sorts by. -/
def ProviderMetric.score : ProviderMetric → IndexEntry → Int
  | .bySuccessRate, e => e.successRate
  | .byTotalAdopters, e => e.totalAdopters
  | .byTotalProfitDelta, e => e.totalProfitDelta
  | .byStake, e => e.stakeAmount

/-- The index of a metric. -/
def Storage.index (s : Storage) : ProviderMetric → List IndexEntry
  | .bySuccessRate => s.successRateIndex
  | .byTotalAdopters => s.adoptersIndex
  | .byTotalProfitDelta => s.profitDeltaIndex
  | .byStake => s.stakeIndex

def isQualified (entry : IndexEntry) : Bool := MIN_CLOSED_SIGNALS ≤ entry.closedSignals ∧ 0 < entry.totalAdopters

section Host

variable (host : Host)

/-- `entry` goes in front of `existing`: by descending score, earlier registration, and smaller address. -/
def goesBefore (scoreFn : IndexEntry → Int) (entry existing : IndexEntry) : Bool :=
  if scoreFn existing < scoreFn entry then true
  else if scoreFn existing = scoreFn entry then
    if entry.registeredAt < existing.registeredAt then true
    else if entry.registeredAt = existing.registeredAt then host.strkey entry.provider < host.strkey existing.provider
    else false
  else false

def upsertSorted (index : List IndexEntry) (entry : IndexEntry) (scoreFn : IndexEntry → Int) : List IndexEntry :=
  let without := index.filter (·.provider ≠ entry.provider)
  if isQualified entry then (insertBefore (goesBefore host scoreFn entry) entry without).take INDEX_CAPACITY
  else without

/-- The entry of an update. The number of copies is cut to 32 bits. -/
def entryOf (provider : Address) (stats : ProviderPerformance) (stakeInfo : Option Int) (createdAt : Option Nat) :
    IndexEntry :=
  let stakeAmount := stakeInfo.getD 0
  let closedSignals := u32Add stats.successfulSignals stats.failedSignals
  { provider, closedSignals
    successRate := stats.successRate
    totalAdopters := stats.totalCopies % 2 ^ 32
    totalProfitDelta := clamp (stats.avgReturn * closedSignals)
    stakeAmount
    verified := DEFAULT_MINIMUM_STAKE ≤ stakeAmount
    registeredAt := createdAt.getD 0 }

/-- The entry takes its place in the four indexes. -/
def Storage.upsert (s : Storage) (entry : IndexEntry) : Storage where
  successRateIndex := upsertSorted host s.successRateIndex entry ProviderMetric.bySuccessRate.score
  adoptersIndex := upsertSorted host s.adoptersIndex entry ProviderMetric.byTotalAdopters.score
  profitDeltaIndex := upsertSorted host s.profitDeltaIndex entry ProviderMetric.byTotalProfitDelta.score
  stakeIndex := upsertSorted host s.stakeIndex entry ProviderMetric.byStake.score

def updateLeaderboardIndex (s : Storage) (provider : Address) (stats : ProviderPerformance)
    (stakeInfo : Option Int) (createdAt : Option Nat) : Storage :=
  s.upsert host (entryOf provider stats stakeInfo createdAt)

end Host

def limitOf (limit : Nat) : Nat := if limit = 0 then DEFAULT_LEADERBOARD_LIMIT else min limit MAX_LEADERBOARD_LIMIT

def ProviderMetric.view (m : ProviderMetric) (i : Nat) (e : IndexEntry) : ProviderLeaderboardEntry :=
  ⟨i + 1, e.provider, m.score e, e.closedSignals, e.verified⟩

/-- The first places of an index. -/
def getProviderLeaderboard (s : Storage) (metric : ProviderMetric) (limit : Nat) : List ProviderLeaderboardEntry :=
  ((s.index metric).take (limitOf limit)).mapIdx metric.view

/-! ## Runs -/

/-- A call of `update_leaderboard_index`, with the stake and the time of registration that it finds. -/
structure Update where
  provider : Address
  stats : ProviderPerformance
  stakeInfo : Option Int
  createdAt : Option Nat

def Update.entry (u : Update) : IndexEntry := entryOf u.provider u.stats u.stakeInfo u.createdAt

/-- The updates, the last one first. -/
def run (host : Host) : List Update → Storage
  | [] => .deployed
  | u :: us => updateLeaderboardIndex host (run host us) u.provider u.stats u.stakeInfo u.createdAt

end CallStake.Leaderboard
