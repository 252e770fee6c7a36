import CallStake.Oracle.Quotes
import CallStake.Oracle.Consensus
import CallStake.Oracle.Routes

/-!
# Entry points of the oracle

* The functions of the administrator, the guardian and the governance contract (`oracle::admin` and the rest of
  the contract).
* `Call`, `invoke`: the entry points with their arguments. Left out are the views that only read an entry back,
  the health probe and the information on the build.
* `Event`, `next`, `Step`: calls in any order, each a transaction; in between, ledgers close and entries of the
  temporary storage expire.
-/

namespace CallStake.Oracle

section Administration

variable (auth : Auth)

def ORACLE_VERSION : Nat := 2

/-- The one-time setup. Nobody has to authorize it. -/
def initializeOracle (admin : Address) (baseCurrency : Asset) : O Unit := do
  let stored ← load (·.access.admin)
  Tx.failIf (stored.isSome = true) .panic
  setAccess fun a => { a with admin := some admin }
  setPrices fun p => { p with baseCurrency := some baseCurrency }
  setAccess fun a => { a with contractVersion := ORACLE_VERSION }

/-- The code that runs after an upgrade is another; what this one stores is the version. -/
def upgrade (newVersion : Nat) : O Unit := do
  let admin ← load (·.access.admin)
  let admin ← Tx.ofOption admin (err .unauthorized)
  requireAuth auth admin
  let currentVersion ← load (·.access.contractVersion)
  Tx.failIf (newVersion ≤ currentVersion) (err .incompatibleContractVersion)
  setAccess fun a => { a with contractVersion := newVersion }

/-- A setter of the contract: the authorization comes first. -/
def authThenAdmin (admin : Address) (write : O Unit) : O Unit := do
  requireAuth auth admin
  requireAdmin admin
  write

/-- A setter of the contract: the administrator is checked first. -/
def adminThenAuth (caller : Address) (write : O Unit) : O Unit := do
  requireAdmin caller
  requireAuth auth caller
  write

/-- The threshold of the breaker. -/
def setUpdateDeviationThreshold (admin : Address) (pair : AssetPair) (maxDeviationBps : Nat) : O Unit :=
  authThenAdmin auth admin (setSettings fun t => { t with
    deviationThresholds := t.deviationThresholds.insert pair maxDeviationBps })

/-- A tripped breaker is reset. -/
def resetUpdateDeviationBreaker (admin : Address) (pair : AssetPair) : O Unit :=
  authThenAdmin auth admin (setMonitor fun m => { m with
    breakerTripped := m.breakerTripped.insert pair false })

/-- Documented as for the administrator only. -/
def setBaseCurrency (asset : Asset) : O Unit := setPrices fun p => { p with baseCurrency := some asset }

/-- `add_pair`: nobody is asked. -/
def addPair (pair : AssetPair) : O Unit := addAvailablePair pair

def setMinSourceCount (admin : Address) (minCount : Nat) : O Unit :=
  authThenAdmin auth admin (setSettings fun t => { t with minSourceCount := minCount })

def setMinConfidence (admin : Address) (minConfidence : Nat) : O Unit :=
  authThenAdmin auth admin (setSettings fun t => { t with minConfidence := minConfidence })

def setStalenessWindow (admin : Address) (pair : AssetPair) (windowSecs : Nat) : O Unit :=
  authThenAdmin auth admin (setSettings fun t => { t with
    stalenessWindows := t.stalenessWindows.insert pair windowSecs })

def setDeviationRejectThreshold (admin : Address) (pair : AssetPair) (thresholdBps : Nat) : O Unit :=
  authThenAdmin auth admin (setSettings fun t => { t with
    rejectThresholds := t.rejectThresholds.insert pair thresholdBps })

def addPriceSource (admin source : Address) (weight : Nat) : O Unit :=
  authThenAdmin auth admin (setPanel fun p => { p with oracleWeights := p.oracleWeights.insert source weight })

def setGovernance (admin governance : Address) : O Unit :=
  authThenAdmin auth admin (setAccess fun a => { a with governanceAddress := some governance })

def setFeedDecimals (caller : Address) (pair : AssetPair) (decimals : Nat) : O Unit :=
  adminThenAuth auth caller (setPrices fun p => { p with feedDecimals := p.feedDecimals.insert pair decimals })

def setFeedSla (caller : Address) (pair : AssetPair) (expectedIntervalSecs : Nat) : O Unit :=
  adminThenAuth auth caller do
    let record ← load (·.slaRecord pair)
    setMonitor fun m => { m with slaRecords := m.slaRecords.insert pair { record with expectedIntervalSecs } }

def setDeviationThreshold (caller : Address) (pair : AssetPair) (thresholdBps : Nat) : O Unit :=
  adminThenAuth auth caller (setSettings fun t => { t with
    alertThresholds := t.alertThresholds.insert pair thresholdBps })

def setGuardian (caller guardian : Address) : O Unit :=
  adminThenAuth auth caller (setAccess fun a => { a with guardian := some guardian })

def revokeGuardian (caller : Address) : O Unit :=
  adminThenAuth auth caller do
    let guardian ← load (·.access.guardian)
    let _ ← Tx.ofOption guardian (err .unauthorized)
    setAccess fun a => { a with guardian := none }

def requireGuardianOrAdmin (caller : Address) : O Unit := do
  let guardian ← load (·.access.guardian)
  if guardian = some caller then return () else requireAdmin caller

/-- When the pause ends by itself. -/
def autoUnpause (now : Nat) : Option Nat → O (Option Nat)
  | none => return none
  | some duration => do
    let time ← plainU64 (now + duration)
    return some time

def pauseCategory (caller : Address) (category : Bytes) (duration : Option Nat) (reason : Bytes) : O Unit := do
  requireGuardianOrAdmin caller
  requireAuth auth caller
  let now ← timestamp
  let autoUnpauseAt ← autoUnpause now duration
  setAccess fun a => { a with pauseStates := a.pauseStates.insert category ⟨true, now, autoUnpauseAt, reason⟩ }

def unpauseCategory (caller : Address) (category : Bytes) : O Unit :=
  adminThenAuth auth caller (setAccess fun a => { a with pauseStates := a.pauseStates.erase category })

/-- `"governance_pause"`. -/
def GOVERNANCE_PAUSE : Bytes := [103, 111, 118, 101, 114, 110, 97, 110, 99, 101, 95, 112, 97, 117, 115, 101]

def setAllPaused (paused : Bool) : O Unit := do
  let now ← timestamp
  setAccess fun a => { a with
    pauseStates := if paused then a.pauseStates.insert CAT_ALL ⟨true, now, none, GOVERNANCE_PAUSE⟩
      else a.pauseStates.erase CAT_ALL }

def applyGovernancePause (paused : Bool) : O Unit := do
  let governance ← load (·.access.governanceAddress)
  let governance ← Tx.ofOption governance (err .unauthorized)
  requireAuth auth governance
  setAllPaused paused

def PENDING_ADMIN_EXPIRY : Nat := 172800

/-- The successor is named. -/
def proposeAdminTransfer (caller newAdmin : Address) : O Unit :=
  adminThenAuth auth caller do
    let now ← timestamp
    let expiresAt ← plainU64 (now + PENDING_ADMIN_EXPIRY)
    setAccess fun a => { a with pendingAdmin := some newAdmin, pendingAdminExpiry := some expiresAt }

def acceptAdminTransfer (caller : Address) : O Unit := do
  requireAuth auth caller
  let pending ← load (·.access.pendingAdmin)
  let pending ← Tx.ofOption pending (err .pendingAdminNotFound)
  Tx.failIf (caller ≠ pending) (err .unauthorized)
  let expiresAt ← load (·.access.pendingAdminExpiry)
  let expiresAt ← Tx.ofOption expiresAt (err .pendingAdminNotFound)
  let now ← timestamp
  -- the clean-up of an expired transfer is undone with the call
  Tx.failIf (expiresAt ≤ now) (err .pendingAdminExpired)
  let admin ← load (·.access.admin)
  let _ ← Tx.ofOption admin (err .unauthorized)
  setAccess fun a => { a with admin := some pending, pendingAdmin := none, pendingAdminExpiry := none }

def cancelAdminTransfer (caller : Address) : O Unit :=
  adminThenAuth auth caller do
    let pending ← load (·.access.pendingAdmin)
    let _ ← Tx.ofOption pending (err .pendingAdminNotFound)
    setAccess fun a => { a with pendingAdmin := none, pendingAdminExpiry := none }

end Administration

/-! ## Calls -/

/-- The entrypoints with their arguments. -/
inductive Call where
  | initializeOracle (admin : Address) (baseCurrency : Asset)
  | upgrade (newVersion : Nat)
  | setPrice (pair : AssetPair) (price : Int)
  | setUpdateDeviationThreshold (admin : Address) (pair : AssetPair) (maxDeviationBps : Nat)
  | resetUpdateDeviationBreaker (admin : Address) (pair : AssetPair)
  | convertToBase (amount : Int) (asset : Asset)
  | setBaseCurrency (asset : Asset)
  | addPair (pair : AssetPair)
  | getHistoricalPrice (pair : AssetPair) (time : Nat)
  | checkOracleHeartbeat (pair : AssetPair)
  | pauseCategory (caller : Address) (category : Bytes) (duration : Option Nat) (reason : Bytes)
  | unpauseCategory (caller : Address) (category : Bytes)
  | setGovernance (admin governance : Address)
  | applyGovernancePause (paused : Bool)
  | setGuardian (caller guardian : Address)
  | revokeGuardian (caller : Address)
  | proposeAdminTransfer (caller newAdmin : Address)
  | acceptAdminTransfer (caller : Address)
  | cancelAdminTransfer (caller : Address)
  | calculateTwap (pair : AssetPair) (windowSeconds : Nat)
  | getPriceDeviation (pair : AssetPair) (currentPrice : Int) (window : Nat)
  | findOptimalPath (src dst : Asset) (amount : Int)
  | calculateMultiHopPrice (path : LiquidityPath) (amount : Int)
  | registerOracle (admin oracle : Address)
  | submitPrice (oracle : Address) (price : Int)
  | calculateConsensus
  | setFeedDecimals (caller : Address) (pair : AssetPair) (decimals : Nat)
  | getNormalizedPrice (pair : AssetPair) (targetDecimals : Nat)
  | setFeedSla (caller : Address) (pair : AssetPair) (expectedIntervalSecs : Nat)
  | getFeedHealth (pair : AssetPair)
  | setDeviationThreshold (caller : Address) (pair : AssetPair) (thresholdBps : Nat)
  | removeOracle (admin oracle : Address)
  | getPrice (pair : AssetPair)
  | getPriceWithConfidence (pair : AssetPair)
  | setMinSourceCount (admin : Address) (minCount : Nat)
  | setMinConfidence (admin : Address) (minConfidence : Nat)
  | setStalenessWindow (admin : Address) (pair : AssetPair) (windowSecs : Nat)
  | setDeviationRejectThreshold (admin : Address) (pair : AssetPair) (thresholdBps : Nat)
  | addPriceSource (admin source : Address) (weight : Nat)
  | submitPairPrice (source : Address) (pair : AssetPair) (price : Int) (confidence : Nat)
  | refreshFromSdex (pair : AssetPair)
  | updateWithExternalData (prices : List ExternalPrice)

/-- The order book that `refresh_from_sdex` asks for is not implemented: the call traps. -/
def invoke (env : Env) : Call → O Unit
  | .initializeOracle admin baseCurrency => initializeOracle admin baseCurrency
  | .upgrade newVersion => upgrade env.auth newVersion
  | .setPrice pair price => setPrice pair price
  | .setUpdateDeviationThreshold admin pair bps => setUpdateDeviationThreshold env.auth admin pair bps
  | .resetUpdateDeviationBreaker admin pair => resetUpdateDeviationBreaker env.auth admin pair
  | .convertToBase amount asset => Tx.void (convertToBase amount asset)
  | .setBaseCurrency asset => setBaseCurrency asset
  | .addPair pair => addPair pair
  | .getHistoricalPrice pair time => Tx.void (getHistoricalPrice pair time)
  | .checkOracleHeartbeat pair => Tx.void (checkOracleHeartbeat pair)
  | .pauseCategory caller category duration reason => pauseCategory env.auth caller category duration reason
  | .unpauseCategory caller category => unpauseCategory env.auth caller category
  | .setGovernance admin governance => setGovernance env.auth admin governance
  | .applyGovernancePause paused => applyGovernancePause env.auth paused
  | .setGuardian caller guardian => setGuardian env.auth caller guardian
  | .revokeGuardian caller => revokeGuardian env.auth caller
  | .proposeAdminTransfer caller newAdmin => proposeAdminTransfer env.auth caller newAdmin
  | .acceptAdminTransfer caller => acceptAdminTransfer env.auth caller
  | .cancelAdminTransfer caller => cancelAdminTransfer env.auth caller
  | .calculateTwap pair windowSeconds => Tx.void (calculateTwap pair windowSeconds)
  | .getPriceDeviation pair currentPrice window => Tx.void (getTwapDeviation pair currentPrice window)
  | .findOptimalPath src dst amount => Tx.void (findOptimalPath src dst amount)
  | .calculateMultiHopPrice path amount => Tx.void (calculateMultiHopPrice path.hops amount)
  | .registerOracle admin oracle => registerOracle env.auth admin oracle
  | .submitPrice oracle price => submitPrice env.auth oracle price
  | .calculateConsensus => Tx.void calculateConsensus
  | .setFeedDecimals caller pair decimals => setFeedDecimals env.auth caller pair decimals
  | .getNormalizedPrice pair targetDecimals => Tx.void (getNormalizedPrice pair targetDecimals)
  | .setFeedSla caller pair secs => setFeedSla env.auth caller pair secs
  | .getFeedHealth pair => Tx.void (getFeedHealth pair)
  | .setDeviationThreshold caller pair bps => setDeviationThreshold env.auth caller pair bps
  | .removeOracle admin oracle => removeOracle env.auth admin oracle
  | .getPrice pair => Tx.void (getPrice env.contract pair)
  | .getPriceWithConfidence pair => Tx.void (getPriceWithConfidence env.contract pair)
  | .setMinSourceCount admin minCount => setMinSourceCount env.auth admin minCount
  | .setMinConfidence admin minConfidence => setMinConfidence env.auth admin minConfidence
  | .setStalenessWindow admin pair secs => setStalenessWindow env.auth admin pair secs
  | .setDeviationRejectThreshold admin pair bps => setDeviationRejectThreshold env.auth admin pair bps
  | .addPriceSource admin source weight => addPriceSource env.auth admin source weight
  | .submitPairPrice source pair price confidence => submitPairPrice env.auth source pair price confidence
  | .refreshFromSdex _ => Tx.fail .panic
  | .updateWithExternalData prices => Tx.void (updateWithExternalData prices)

/-! ## Runs -/

/-- A call, the time goes on, or entries expire. -/
inductive Event where
  | call (env : Env) (c : Call)
  | advance (ledger : Ledger)
  /-- The quotes of the pair, a converted rate and a route are dropped by the host. -/
  | expire (pair : AssetPair) (assets : Asset × Asset)

def next (w : World) : Event → World
  | .call env c => (invoke env c).exec w
  | .advance ledger => { w with ledger }
  | .expire pair assets => { w with
    store.prices.quotes := w.store.prices.quotes.erase pair
    store.monitor.conversionCache := w.store.monitor.conversionCache.erase assets
    store.monitor.cachedPaths := w.store.monitor.cachedPaths.erase assets }

def Allowed (w : World) : Event → Prop
  | .call _ _ => True
  | .advance ledger => w.ledger.Before ledger
  | .expire _ _ => True

instance (w : World) : (ev : Event) → Decidable (Allowed w ev)
  | .call _ _ => inferInstanceAs (Decidable True)
  | .advance ledger => inferInstanceAs (Decidable (w.ledger.Before ledger))
  | .expire _ _ => inferInstanceAs (Decidable True)

def Step (w : World) (ev : Event) (w' : World) : Prop := Allowed w ev ∧ w' = next w ev

def World.deployed (ledger : Ledger) : World := ⟨ledger, .deployed⟩

end CallStake.Oracle
