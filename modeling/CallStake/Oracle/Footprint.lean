import CallStake.Oracle.Entrypoints

/-!
# What an entry point can write

* `Kept gs a b`: between two states, only the parts of the storage in `gs` differ.
* `Call.writes`: the parts that a call may write. `invoke_within`: it writes no others.
-/

namespace CallStake.Oracle

/-- The groups of fields a call may write. -/
inductive Group where
  | prices
  | panel
  | settings
  | access
  | monitor

/-- Only the given parts of the storage may differ. -/
structure Kept (gs : List Group) (a b : World) : Prop where
  ledger : b.ledger = a.ledger
  prices : .prices ∉ gs → b.store.prices = a.store.prices
  panel : .panel ∉ gs → b.store.panel = a.store.panel
  settings : .settings ∉ gs → b.store.settings = a.store.settings
  access : .access ∉ gs → b.store.access = a.store.access
  monitor : .monitor ∉ gs → b.store.monitor = a.store.monitor

instance (gs : List Group) : IsPreorder World (Kept gs) where
  refl _ := ⟨rfl, fun _ => rfl, fun _ => rfl, fun _ => rfl, fun _ => rfl, fun _ => rfl⟩
  trans _ _ _ h h' := ⟨h'.ledger.trans h.ledger, fun g => (h'.prices g).trans (h.prices g),
    fun g => (h'.panel g).trans (h.panel g), fun g => (h'.settings g).trans (h.settings g),
    fun g => (h'.access g).trans (h.access g), fun g => (h'.monitor g).trans (h.monitor g)⟩

/-! ## Primitives -/

-- the proofs that instance resolution builds grow with the length of a computation
set_option synthInstance.maxSize 1000000000

open Tx

section Primitives

variable {R : World → World → Prop} [IsPreorder World R] {α : Type}

instance within_load (f : Storage → α) : Within R (load f) := within_gets _

instance : Within R timestamp := within_gets _

instance : Within R sequence := within_gets _

instance (auth : Auth) (a : Address) : Within R (requireAuth auth a : O Unit) := within_failIf _ _

instance (x : Int) : Within R (plain x) := within_ofOption _ _

instance (n : Nat) : Within R (plainU32 n) := within_ofOption _ _

instance (n : Nat) : Within R (plainU64 n) := within_ofOption _ _

instance (a b : Nat) : Within R (subU64 a b) := within_ofOption _ _

instance (x y : Int) : Within R (div x y) := by
  unfold div
  infer_instance

instance (a b c : Int) : Within R (deviationBps a b c) := by
  unfold deviationBps
  infer_instance

instance (a : Address) : Within R (requireAdmin a) := by
  unfold requireAdmin
  infer_instance

instance : Within R requireNotPaused := by
  unfold requireNotPaused
  infer_instance

instance {auth : Auth} {a : Address} {write : O Unit} [Within R write] : Within R (authThenAdmin auth a write) := by
  unfold authThenAdmin
  infer_instance

instance {auth : Auth} {a : Address} {write : O Unit} [Within R write] : Within R (adminThenAuth auth a write) := by
  unfold adminThenAuth
  infer_instance

end Primitives

/-! ## Feeds and quotes -/

/-- Writes of prices that leave the feeds and the quotes alone. -/
class KeepsFeeds (R : World → World → Prop) : Prop where
  history : ∀ g : Prices → _, Within R (setPrices fun p => { p with history := g p })
  baseCurrency : ∀ g : Prices → _, Within R (setPrices fun p => { p with baseCurrency := g p })
  pairsList : ∀ g : Prices → _, Within R (setPrices fun p => { p with pairsList := g p })
  feedDecimals : ∀ g : Prices → _, Within R (setPrices fun p => { p with feedDecimals := g p })

/-- Writes of the monitor that leave the breaker alone. -/
class KeepsBreaker (R : World → World → Prop) : Prop where
  metadata : ∀ g : Monitor → _, Within R (setMonitor fun m => { m with metadata := g m })
  slaRecords : ∀ g : Monitor → _, Within R (setMonitor fun m => { m with slaRecords := g m })
  pruned : ∀ g : Monitor → _, Within R (setMonitor fun m => { m with pruned := g m })
  conversionCache : ∀ g : Monitor → _, Within R (setMonitor fun m => { m with conversionCache := g m })
  cachedPaths : ∀ g : Monitor → _, Within R (setMonitor fun m => { m with cachedPaths := g m })

attribute [instance] KeepsFeeds.history KeepsFeeds.baseCurrency KeepsFeeds.pairsList KeepsFeeds.feedDecimals
  KeepsBreaker.metadata KeepsBreaker.slaRecords KeepsBreaker.pruned KeepsBreaker.conversionCache
  KeepsBreaker.cachedPaths

section Feeds

variable {R : World → World → Prop} [IsPreorder World R]

instance [KeepsFeeds R] (pair : AssetPair) : Within R (addAvailablePair pair) := by
  unfold addAvailablePair
  infer_instance

instance [KeepsBreaker R] (pair : AssetPair) : Within R (onPriceUpdate pair) := by
  unfold onPriceUpdate
  infer_instance

instance [KeepsFeeds R] [KeepsBreaker R] (pair : AssetPair) (price : Int) : Within R (storePrice pair price) := by
  unfold storePrice pruneOldData
  infer_instance

instance [KeepsFeeds R] [KeepsBreaker R] (pair : AssetPair) (price : Int) [Within R (setFeed pair price)]
    [Within R (trip pair)] : Within R (setPrice pair price) := by
  have : Within R (checkAndTrip pair price) := by
    unfold checkAndTrip compareAndTrip
    refine within_bind inferInstance fun _ => within_bind inferInstance fun _ => within_bind inferInstance fun _ =>
      within_bind inferInstance fun previous => ?_
    cases previous <;> infer_instance
  unfold setPrice acceptPrice
  infer_instance

instance [∀ pair price, Within R (setFeed pair price)] [KeepsBreaker R] (prices : List ExternalPrice) :
    Within R (updateWithExternalData prices) := by
  unfold updateWithExternalData processExternalPrices
  refine within_bind inferInstance fun _ => ?_
  cases prices.head? <;> infer_instance

instance (pair : AssetPair) (prices : List Int) : Within R (checkDeviation pair prices) := by
  unfold checkDeviation checkRange
  infer_instance

instance [∀ f, Within R (setPrices f)] (auth : Auth) (source : Address) (pair : AssetPair) (price : Int)
    (confidence : Nat) : Within R (submitPairPrice auth source pair price confidence) := by
  unfold submitPairPrice
  infer_instance

instance (contract : Address) (pair : AssetPair) : Within R (getPriceWithConfidence contract pair) := by
  unfold getPriceWithConfidence guardTripped readQuotes median checkSpread
  infer_instance

instance (pair : AssetPair) (window : Nat) : Within R (calculateTwap pair window) := by
  unfold calculateTwap
  infer_instance

instance [KeepsBreaker R] (pair : AssetPair) : Within R (checkOracleHeartbeat pair) := by
  unfold checkOracleHeartbeat
  infer_instance

end Feeds

/-! ## Consensus -/

section Consensus

variable {R : World → World → Prop} [IsPreorder World R]

instance (oracle : Address) : Within R (calculateReputation oracle) := by
  unfold calculateReputation ratedReputation
  infer_instance

instance (oracle : Address) : Within R (shouldRemoveOracle oracle) := by
  unfold shouldRemoveOracle inaccurate
  infer_instance

instance [∀ oracle stats, Within R (saveOracleStats oracle stats)] (oracles : List Address) :
    Within R (adjustAll oracles) := by
  induction oracles with
  | nil => exact within_pure _
  | cons oracle oracles ih =>
    unfold adjustAll adjustOracleWeight
    infer_instance

instance [∀ oracle stats, Within R (saveOracleStats oracle stats)] (price : Int) (sub : PriceSubmission) :
    Within R (judge price sub) := by
  unfold judge trackOracleAccuracy slashOracle
  infer_instance

instance (sorted : List Int) : Within R (middle sorted) := by
  unfold middle
  infer_instance

instance [∀ f, Within R (setPanel f)] : Within R calculateConsensus := by
  have (oracle : Address) (stats : OracleReputation) : Within R (saveOracleStats oracle stats) := by
    unfold saveOracleStats
    infer_instance
  unfold calculateConsensus weightedMedian removeOracleInternal
  infer_instance

end Consensus

/-! ## Routes -/

section Routes

variable {R : World → World → Prop} [IsPreorder World R]

instance [KeepsBreaker R] (amount : Int) (asset : Asset) : Within R (convertToBase amount asset) := by
  unfold convertToBase convertAndCache
  refine within_bind inferInstance fun _ => within_bind inferInstance fun rate => ?_
  cases rate <;> infer_instance

instance (pair : AssetPair) (amount : Int) : Within R (getPriceWithSlippage pair amount) := by
  unfold getPriceWithSlippage volumeSlippage
  infer_instance

instance (cost : RouteCost) (path : List AssetPair) : Within R (costAlong cost path) := by
  induction path generalizing cost with
  | nil => exact within_pure _
  | cons hop path ih =>
    unfold costAlong
    infer_instance

instance (best candidate : Option LiquidityPath) : Within R (cheaper best candidate) := by
  unfold cheaper
  split <;> infer_instance

instance (amount : Int) (best : Option LiquidityPath) (paths : List (List AssetPair)) :
    Within R (bestPath amount best paths) := by
  induction paths generalizing best with
  | nil => exact within_pure _
  | cons path paths ih =>
    unfold bestPath calculatePathCost
    infer_instance

instance [KeepsBreaker R] (src dst : Asset) (amount : Int) : Within R (findOptimalPath src dst amount) := by
  unfold findOptimalPath searchRoute
  refine within_bind inferInstance fun cached => ?_
  cases cached <;> infer_instance

instance (hops : List AssetPair) (amount : Int) : Within R (calculateMultiHopPrice hops amount) := by
  induction hops generalizing amount with
  | nil => exact within_pure _
  | cons hop hops ih =>
    unfold calculateMultiHopPrice
    infer_instance

end Routes

/-! ## Writes -/

section Writes

variable {gs : List Group}

instance [h : Fact (.prices ∈ gs)] (f : Prices → Prices) : Within (Kept gs) (setPrices f) :=
  ⟨fun _ => ⟨rfl, fun g => absurd h.out g, fun _ => rfl, fun _ => rfl, fun _ => rfl, fun _ => rfl⟩⟩

instance [h : Fact (.panel ∈ gs)] (f : Panel → Panel) : Within (Kept gs) (setPanel f) :=
  ⟨fun _ => ⟨rfl, fun _ => rfl, fun g => absurd h.out g, fun _ => rfl, fun _ => rfl, fun _ => rfl⟩⟩

instance [h : Fact (.settings ∈ gs)] (f : Settings → Settings) : Within (Kept gs) (setSettings f) :=
  ⟨fun _ => ⟨rfl, fun _ => rfl, fun _ => rfl, fun g => absurd h.out g, fun _ => rfl, fun _ => rfl⟩⟩

instance [h : Fact (.access ∈ gs)] (f : Access → Access) : Within (Kept gs) (setAccess f) :=
  ⟨fun _ => ⟨rfl, fun _ => rfl, fun _ => rfl, fun _ => rfl, fun g => absurd h.out g, fun _ => rfl⟩⟩

instance [h : Fact (.monitor ∈ gs)] (f : Monitor → Monitor) : Within (Kept gs) (setMonitor f) :=
  ⟨fun _ => ⟨rfl, fun _ => rfl, fun _ => rfl, fun _ => rfl, fun _ => rfl, fun g => absurd h.out g⟩⟩

instance [Fact (.prices ∈ gs)] : KeepsFeeds (Kept gs) := ⟨inferInstance, inferInstance, inferInstance, inferInstance⟩

instance [Fact (.monitor ∈ gs)] : KeepsBreaker (Kept gs) :=
  ⟨inferInstance, inferInstance, inferInstance, inferInstance, inferInstance⟩

instance [Fact (.prices ∈ gs)] (pair : AssetPair) (price : Int) : Within (Kept gs) (setFeed pair price) := by
  unfold setFeed
  infer_instance

instance [Fact (.monitor ∈ gs)] (pair : AssetPair) : Within (Kept gs) (trip pair) := by
  unfold trip
  infer_instance

end Writes

/-! ## Entry points -/

/-- The parts of the storage that a call may write. -/
def Call.writes : Call → List Group
  | .initializeOracle .. => [.access, .prices]
  | .upgrade .. | .pauseCategory .. | .unpauseCategory .. | .setGovernance .. | .applyGovernancePause ..
  | .setGuardian .. | .revokeGuardian .. | .proposeAdminTransfer .. | .acceptAdminTransfer ..
  | .cancelAdminTransfer .. => [.access]
  | .setPrice .. | .updateWithExternalData .. => [.prices, .monitor]
  | .setBaseCurrency .. | .addPair .. | .setFeedDecimals .. | .submitPairPrice .. => [.prices]
  | .resetUpdateDeviationBreaker .. | .convertToBase .. | .checkOracleHeartbeat .. | .findOptimalPath ..
  | .setFeedSla .. => [.monitor]
  | .registerOracle .. | .submitPrice .. | .calculateConsensus | .removeOracle .. | .addPriceSource .. =>
    [.panel]
  | .setUpdateDeviationThreshold .. | .setDeviationThreshold .. | .setMinSourceCount .. | .setMinConfidence ..
  | .setStalenessWindow .. | .setDeviationRejectThreshold .. => [.settings]
  | .getHistoricalPrice .. | .calculateTwap .. | .getPriceDeviation .. | .calculateMultiHopPrice ..
  | .getNormalizedPrice .. | .getFeedHealth .. | .getPrice .. | .getPriceWithConfidence ..
  | .refreshFromSdex .. => []

instance (now : Nat) (duration : Option Nat) {R : World → World → Prop} [IsPreorder World R] :
    Within R (autoUnpause now duration) := by
  unfold autoUnpause
  split <;> infer_instance

theorem invoke_within (env : Env) (c : Call) : Within (Kept c.writes) (invoke env c) := by
  cases c
  all_goals
    simp only [invoke, Call.writes, initializeOracle, upgrade, setUpdateDeviationThreshold,
      resetUpdateDeviationBreaker, setBaseCurrency, addPair, getHistoricalPrice, pauseCategory,
      requireGuardianOrAdmin, unpauseCategory, setGovernance, applyGovernancePause, setAllPaused, setGuardian,
      revokeGuardian, proposeAdminTransfer, acceptAdminTransfer, cancelAdminTransfer, getTwapDeviation, registerOracle,
      saveOracleStats, submitPrice, setFeedDecimals, getNormalizedPrice, setFeedSla, getFeedHealth,
      setDeviationThreshold, removeOracle, removeOracleInternal, getPrice, setMinSourceCount, setMinConfidence,
      setStalenessWindow, setDeviationRejectThreshold, addPriceSource]
    infer_instance

end CallStake.Oracle
