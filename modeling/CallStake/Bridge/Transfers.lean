import CallStake.Bridge.Types

/-!
# The transfers of the bridge

The entrypoints of the `bridge` contract around its transfers: assets are locked on another chain and
minted here, or burned here and unlocked on another chain.

* `initiate*`, `approve*`, `execute*`, `markTransferFailed`, `retryTransfer`: the life of a transfer. A mint
  happens at execution, a burn at initiation.
* The settings of the administrator and of the governance contract.

The `*_ok` lemmas say what an entrypoint that returned has checked, and the world it leaves.
-/

namespace CallStake.Bridge

open Tx

/-! ## Validators -/

/-- Some address stands at two places of the list. -/
def hasDuplicates : List Address → Bool
  | [] => false
  | v :: validators => v ∈ validators || hasDuplicates validators

def buildValidatorSet (validators : List Address) (requiredSignatures : Nat) : B ValidatorSet := do
  failIf (validators = [] ∨ requiredSignatures = 0 ∨ validators.length < requiredSignatures ∨
    hasDuplicates validators) (.err .invalidValidatorSet)
  return ⟨validators, requiredSignatures⟩

/-- The approvals with the new one. -/
def verifyAndRecordApproval (validatorSet : ValidatorSet) (approvals : List ValidatorApproval)
    (validator : Address) (transferId : Nat) (signature : Bytes) (kind : TransferKind) :
    B (List ValidatorApproval) := do
  failIf (validator ∉ validatorSet.validators) (.err .unauthorizedValidator)
  let used ← load (·.books.usedSignatures.lookup (validator, transferId, kind, signature))
  failIf (used ≠ none) (.err .signatureAlreadyUsed)
  failIf (validator ∈ approvals.map (·.validator)) (.err .signatureAlreadyUsed)
  let now ← timestamp
  setBooks fun b => { b with
    usedSignatures := b.usedSignatures.insert (validator, transferId, kind, signature) () }
  return approvals ++ [⟨validator, signature, now, kind⟩]

def hasQuorum (approvals : List ValidatorApproval) (requiredSignatures : Nat) : Prop :=
  requiredSignatures ≤ approvals.length
  deriving Decidable

/-! ## Shared checks -/

def getConfig : B BridgeConfig := do Tx.ofOption (← load (·.config)) (.err .alreadyInitialized)

def requireAdmin (admin : Address) : B BridgeConfig := do
  let config ← getConfig
  failIf (config.admin ≠ admin) (.err .unauthorizedValidator)
  return config

def getTransfer (transferId : Nat) : B BridgeTransfer := do
  Tx.ofOption (← load (·.books.transfers.lookup transferId)) (.err .transferNotFound)

def storeTransfer (t : BridgeTransfer) : B Unit := setBooks fun b => { b with transfers := b.transfers.insert t.id t }

/-- An empty list of chains allows every chain. -/
def ensureChainAllowed (destinationChain : ChainId) : B Unit := do
  let chains ← load (·.settings.supportedChains)
  failIf (chains ≠ [] ∧ destinationChain ∉ chains) (.err .unsupportedDestinationChain)

def ensureWrappedAssetExists (wrappedAsset : Bytes) : B Unit := do
  let asset ← load (·.settings.wrappedAssets.lookup wrappedAsset)
  failIf (asset = none) (.err .invalidOperation)

/-- The start of the day. -/
def dayBucket (timestamp : Nat) : Nat := timestamp / DAY_SECONDS * DAY_SECONDS

/-- `a.checked_add(b).unwrap_or(i128::MAX)`. -/
def addOrMax (a b : Int) : Int := (checkedAdd a b).getD i128Max

/-- The window of a route at `now`: an expired one starts again. -/
def currentWindow (window : Option WithdrawalWindow) (windowSeconds now : Nat) : WithdrawalWindow :=
  let window := window.getD ⟨now, 0⟩
  if windowSeconds ≤ now - window.windowStart then ⟨now, 0⟩ else window

/-- The volume of the window of a route, which is counted first and bounded then. -/
def checkAggregateWindow (amount : Int) (route : Route) (routeCfg : WithdrawalRouteConfig) : B Unit := do
  let now ← timestamp
  let stored ← load (·.limits.withdrawalWindows.lookup route)
  let window := currentWindow stored routeCfg.windowSeconds now
  let newTotal := addOrMax window.totalVolume amount
  failIf (routeCfg.aggregateWindowLimit < newTotal) (.err .aggregateWindowLimitExceeded)
  setLimits fun l => { l with
    withdrawalWindows := l.withdrawalWindows.insert route ⟨window.windowStart, newTotal⟩ }

/-- The limits of a route that has some: on the message, and on the window. -/
def checkRouteLimits (amount : Int) (route : Route) : B Unit := do
  match ← load (·.settings.withdrawalRouteConfigs.lookup route) with
  | none => pure ()
  | some routeCfg =>
    failIf (0 < routeCfg.perMessageLimit ∧ routeCfg.perMessageLimit < amount)
      (.err .perRouteLimitExceeded)
    Tx.when (0 < routeCfg.aggregateWindowLimit ∧ 0 < routeCfg.windowSeconds)
      (checkAggregateWindow amount route routeCfg)

/-- The volume of the day of `now`: that of an earlier day is forgotten. -/
def currentVolume (volume : Option DailyVolume) (now : Nat) : DailyVolume :=
  let volume := volume.getD ⟨dayBucket now, 0⟩
  if volume.dayStart ≠ dayBucket now then ⟨dayBucket now, 0⟩ else volume

/-- The most that one transfer may move out of a buffer. -/
def dynamicLimit (buffer : Int) : Int := max (buffer.tdiv 10) 1

/-- The limits on one transfer, on the day and on the route. -/
def validateAmountAndLimits (amount : Int) (route : Route) : B Unit := do
  failIf (amount ≤ 0) (.err .invalidAmount)
  let config ← getConfig
  failIf (config.security.maxTransferAmount < amount) (.err .maxTransferExceeded)
  checkRouteLimits amount route
  let now ← timestamp
  let volume := currentVolume (← load (·.limits.dailyVolume)) now
  failIf (config.security.dailyTransferLimit < addOrMax volume.totalAmount amount)
    (.err .dailyLimitExceeded)
  let buffer := (← load (·.settings.liquidityBuffer)).getD i128Max
  failIf (buffer ≠ i128Max ∧ dynamicLimit buffer < amount) (.err .dynamicLiquidityLimitExceeded)
  setLimits fun l => { l with
    dailyVolume := some ⟨volume.dayStart, addOrMax volume.totalAmount amount⟩ }

/-! ## Replay protection -/

def hexChars : List UInt8 := "0123456789abcdef".toUTF8.toList

/-- The bytes as text, two digits each. -/
def hexBytes (buf : Bytes) : Bytes :=
  buf.flatMap fun byte => [hexChars.getD (byte.toNat / 16) 0, hexChars.getD (byte.toNat % 16) 0]

def buildConsumedMessageKey (host : Host) (deploymentId : Address) (origin : Origin) : Bytes :=
  hexBytes (host.sha256 (host.addressXdr deploymentId ++ host.u32Xdr origin.1.code ++
    host.stringXdr origin.2.1 ++ host.u64Xdr origin.2.2)).1

/-- `.expect("deployment id not set")`. -/
def getDeploymentId : B Address := do Tx.ofOption (← load (·.settings.deploymentId)) .panic

/-! ## Lock and mint -/

/-- The next id is taken, and the configuration written back with the one after it. -/
def takeTransferId : B Nat := do
  let config ← getConfig
  let nextTransferId ← plainU64 (config.nextTransferId + 1)
  save fun s => { s with config := some { config with nextTransferId } }
  return config.nextTransferId

/-- A transfer as it is initiated. -/
def BridgeTransfer.initiated (id : Nat) (kind : TransferKind) (user : Address)
    (sourceChain destinationChain : ChainId) (sourceAsset wrappedAsset : Bytes) (amount : Int)
    (sourceTxHash : Bytes) (sourceNonce : Nat) (destinationRecipient : Bytes) (createdAt : Nat) :
    BridgeTransfer where
  id := id
  kind := kind
  user := user
  sourceChain := sourceChain
  destinationChain := destinationChain
  sourceAsset := sourceAsset
  wrappedAsset := wrappedAsset
  amount := amount
  sourceTxHash := sourceTxHash
  sourceNonce := sourceNonce
  destinationRecipient := destinationRecipient
  approvals := []
  status := .pendingValidators
  createdAt := createdAt
  executedAt := none
  failureReason := none
  retryable := false

def initiateLockMint (env : Env) (user : Address) (sourceChain destinationChain : ChainId)
    (sourceAsset wrappedAsset : Bytes) (amount : Int) (sourceTxHash : Bytes) (sourceNonce : Nat)
    (destinationRecipient : Bytes) : B Nat := do
  let paused ← load (·.settings.paused)
  failIf (paused = true) (.err .contractPaused)
  requireAuth env.auth user
  ensureChainAllowed destinationChain
  validateAmountAndLimits amount (sourceChain, destinationChain, wrappedAsset)
  ensureWrappedAssetExists wrappedAsset
  let deploymentId ← getDeploymentId
  let origin := (sourceChain, sourceTxHash, sourceNonce)
  let msgKey := buildConsumedMessageKey env.host deploymentId origin
  let replay ← load (·.books.replayLocks.lookup origin)
  failIf (replay ≠ none) (.err .replayDetected)
  let consumed ← load (·.books.consumedMessages.lookup msgKey)
  failIf (consumed ≠ none) (.err .messageAlreadyConsumed)
  let id ← takeTransferId
  let createdAt ← timestamp
  storeTransfer (.initiated id .lockMint user sourceChain destinationChain sourceAsset wrappedAsset amount
    sourceTxHash sourceNonce destinationRecipient createdAt)
  setBooks fun b => { b with replayLocks := b.replayLocks.insert origin () }
  return id

/-- The body of `approve_lock_mint` and `approve_burn_unlock`. -/
def approveTransfer (env : Env) (kind : TransferKind) (validator : Address) (transferId : Nat)
    (signature : Bytes) : B Unit := do
  requireAuth env.auth validator
  let config ← getConfig
  let transfer ← getTransfer transferId
  failIf (transfer.kind ≠ kind ∨ transfer.status = .completed) (.err .invalidOperation)
  let approvals ← verifyAndRecordApproval config.validatorSet transfer.approvals validator transferId
    signature kind
  let status := if hasQuorum approvals config.security.requiredValidatorSignatures
    then .readyToExecute else transfer.status
  storeTransfer { transfer with approvals, status }

def approveLockMint (env : Env) (validator : Address) (transferId : Nat) (signature : Bytes) : B Unit :=
  approveTransfer env .lockMint validator transferId signature

def executeLockMint (env : Env) (admin : Address) (transferId : Nat) : B Unit := do
  let paused ← load (·.settings.paused)
  failIf (paused = true) (.err .contractPaused)
  let _ ← requireAdmin admin
  requireAuth env.auth admin
  let transfer ← getTransfer transferId
  failIf (transfer.kind ≠ .lockMint) (.err .invalidOperation)
  failIf (transfer.status = .completed) (.err .transferAlreadyExecuted)
  failIf (transfer.status = .failed) (.err .transferPermanentlyFailed)
  failIf (transfer.status ≠ .readyToExecute) (.err .notEnoughValidatorApprovals)
  let balanceKey := (transfer.user, transfer.wrappedAsset)
  let balance ← load fun s => (s.books.wrappedBalances.lookup balanceKey).getD 0
  let newBalance ← plain (balance + transfer.amount)
  setBooks fun b => { b with wrappedBalances := b.wrappedBalances.insert balanceKey newBalance }
  let minted ← load (·.books.totalMinted)
  let newMinted ← plain (minted + transfer.amount)
  setBooks fun b => { b with totalMinted := newMinted }
  let now ← timestamp
  storeTransfer { transfer with status := .completed, executedAt := some now }
  let deploymentId ← getDeploymentId
  Tx.when (transfer.sourceTxHash ≠ []) (setBooks fun b => { b with
    consumedMessages := b.consumedMessages.insert
      (buildConsumedMessageKey env.host deploymentId transfer.origin) () })

/-! ## Burn and unlock -/

def initiateBurnUnlock (env : Env) (user : Address) (sourceChain destinationChain : ChainId)
    (sourceAsset wrappedAsset : Bytes) (amount : Int) (destinationRecipient : Bytes) : B Nat := do
  let paused ← load (·.settings.paused)
  failIf (paused = true) (.err .contractPaused)
  requireAuth env.auth user
  ensureChainAllowed destinationChain
  validateAmountAndLimits amount (sourceChain, destinationChain, wrappedAsset)
  let balanceKey := (user, wrappedAsset)
  let balance ← load fun s => (s.books.wrappedBalances.lookup balanceKey).getD 0
  failIf (balance < amount) (.err .insufficientWrappedBalance)
  let newBalance ← plain (balance - amount)
  setBooks fun b => { b with wrappedBalances := b.wrappedBalances.insert balanceKey newBalance }
  let minted ← load (·.books.totalMinted)
  let newMinted ← plain (minted - amount)
  setBooks fun b => { b with totalMinted := newMinted }
  let id ← takeTransferId
  let createdAt ← timestamp
  storeTransfer (.initiated id .burnUnlock user sourceChain destinationChain sourceAsset wrappedAsset amount
    [] id destinationRecipient createdAt)
  return id

def approveBurnUnlock (env : Env) (validator : Address) (transferId : Nat) (signature : Bytes) : B Unit :=
  approveTransfer env .burnUnlock validator transferId signature

def executeBurnUnlock (env : Env) (admin : Address) (transferId : Nat) : B Unit := do
  let paused ← load (·.settings.paused)
  failIf (paused = true) (.err .contractPaused)
  let config ← requireAdmin admin
  requireAuth env.auth admin
  let transfer ← getTransfer transferId
  failIf (transfer.kind ≠ .burnUnlock) (.err .invalidOperation)
  failIf (transfer.status = .completed) (.err .transferAlreadyExecuted)
  failIf (transfer.status = .failed) (.err .transferPermanentlyFailed)
  failIf (transfer.status ≠ .readyToExecute) (.err .withdrawalNotReady)
  let readyAt ← plainU64 (transfer.createdAt + config.security.withdrawDelaySeconds)
  let now ← timestamp
  failIf (now < readyAt) (.err .withdrawalNotReady)
  storeTransfer { transfer with status := .completed, executedAt := some now }

/-! ## Failure and retry -/

def markTransferFailed (env : Env) (admin : Address) (transferId : Nat) (reason : Bytes)
    (retryable : Bool) : B Unit := do
  let _ ← requireAdmin admin
  requireAuth env.auth admin
  let transfer ← getTransfer transferId
  failIf (transfer.status = .completed ∨ transfer.status = .cancelled) (.err .invalidOperation)
  failIf (transfer.status = .failed ∧ transfer.retryable = false) (.err .transferPermanentlyFailed)
  storeTransfer { transfer with status := .failed, failureReason := some reason, retryable }

def retryTransfer (env : Env) (admin : Address) (transferId : Nat) : B Unit := do
  let _ ← requireAdmin admin
  requireAuth env.auth admin
  let transfer ← getTransfer transferId
  failIf (transfer.status ≠ .failed) (.err .transferNotRetryable)
  failIf (transfer.retryable = false) (.err .transferPermanentlyFailed)
  storeTransfer { transfer with status := .readyToExecute, failureReason := none, retryable := false }

/-! ## Settings -/

def initializeBridge (env : Env) (admin : Address) (validators : List Address)
    (requiredValidatorSignatures : Nat) (maxTransferAmount dailyTransferLimit : Int)
    (withdrawDelaySeconds : Nat) : B Unit := do
  let config ← load (·.config)
  failIf (config ≠ none) (.err .alreadyInitialized)
  requireAuth env.auth admin
  let validatorSet ← buildValidatorSet validators requiredValidatorSignatures
  failIf (maxTransferAmount ≤ 0 ∨ dailyTransferLimit ≤ 0) (.err .invalidAmount)
  let security : SecurityConfig :=
    ⟨maxTransferAmount, dailyTransferLimit, requiredValidatorSignatures, withdrawDelaySeconds⟩
  save fun s => { s with config := some { admin, validatorSet, security, nextTransferId := 1 } }
  let now ← timestamp
  setLimits fun l => { l with dailyVolume := some ⟨dayBucket now, 0⟩ }
  setSettings fun t => { t with deploymentId := some admin }

/-- How a wrapped asset is shown. -/
structure TokenMetadata where
  symbol : Bytes
  name : Bytes
  decimals : Nat

/-- `call_stake_common::token_metadata::validate(..).is_ok()`. -/
def TokenMetadata.Valid (metadata : TokenMetadata) : Prop :=
  metadata.decimals ≤ 18 ∧ 1 ≤ metadata.symbol.length ∧ metadata.symbol.length ≤ 12 ∧
    metadata.name.length ≠ 0 ∧ metadata.name.length ≤ 64

instance (metadata : TokenMetadata) : Decidable metadata.Valid := inferInstanceAs (Decidable (_ ∧ _ ∧ _ ∧ _ ∧ _))

def registerWrappedAsset (env : Env) (admin : Address) (sourceChain : ChainId)
    (sourceAsset wrappedAsset : Bytes) (decimals : Nat) : B Unit := do
  let config ← requireAdmin admin
  requireAuth env.auth admin
  failIf (¬ TokenMetadata.Valid ⟨sourceAsset, sourceAsset, decimals⟩) (.err .invalidTokenMetadata)
  failIf (¬ TokenMetadata.Valid ⟨wrappedAsset, wrappedAsset, decimals⟩) (.err .invalidTokenMetadata)
  setSettings fun t => { t with
    wrappedAssets := t.wrappedAssets.insert wrappedAsset ⟨sourceChain, sourceAsset, wrappedAsset, decimals⟩ }
  save fun s => { s with config := some config }

/-- What the setters of the administrator start with. -/
def asAdmin (env : Env) (admin : Address) : B Unit := do
  let _ ← requireAdmin admin
  requireAuth env.auth admin

def setGovernance (env : Env) (admin governance : Address) : B Unit := do
  asAdmin env admin
  setSettings fun t => { t with governanceAddress := some governance }

def applyGovernancePause (env : Env) (paused : Bool) : B Unit := do
  let governance ← load (·.settings.governanceAddress)
  let governance ← Tx.ofOption governance (.err .unauthorizedValidator)
  requireAuth env.auth governance
  setSettings fun t => { t with paused }

def updateLiquidityBuffer (env : Env) (admin : Address) (buffer : Int) : B Unit := do
  asAdmin env admin
  failIf (buffer < 0) (.err .invalidAmount)
  setSettings fun t => { t with liquidityBuffer := some buffer }

def addSupportedChain (env : Env) (admin : Address) (chain : ChainId) : B Unit := do
  asAdmin env admin
  let chains ← load (·.settings.supportedChains)
  Tx.when (chain ∉ chains) (setSettings fun t => { t with supportedChains := chains ++ [chain] })

def removeSupportedChain (env : Env) (admin : Address) (chain : ChainId) : B Unit := do
  asAdmin env admin
  setSettings fun t => { t with supportedChains := t.supportedChains.filter (· ≠ chain) }

def setDeploymentId (env : Env) (admin deploymentId : Address) : B Unit := do
  asAdmin env admin
  setSettings fun t => { t with deploymentId := some deploymentId }

def setWithdrawalRouteLimit (env : Env) (admin : Address) (route : Route)
    (perMessageLimit aggregateWindowLimit : Int) (windowSeconds : Nat) : B Unit := do
  asAdmin env admin
  failIf (perMessageLimit < 0 ∨ aggregateWindowLimit < 0) (.err .invalidAmount)
  setSettings fun t => { t with
    withdrawalRouteConfigs := t.withdrawalRouteConfigs.insert route
      ⟨perMessageLimit, aggregateWindowLimit, windowSeconds⟩ }
  let window ← load (·.limits.withdrawalWindows.lookup route)
  let now ← timestamp
  Tx.when (window = none) (setLimits fun l => { l with
    withdrawalWindows := l.withdrawalWindows.insert route ⟨now, 0⟩ })

/-! ## What a call that returned did -/

section Peel

variable {β : Type} {b : β} {w w' : World}

theorem bind_getConfig_ok {k : BridgeConfig → B β} : (getConfig >>= k) w = (.ok b, w') ↔
    ∃ config, w.store.config = some config ∧ k config w = (.ok b, w') := bind_ofOption_ok

theorem bind_requireAdmin_ok {admin : Address} {k : BridgeConfig → B β} :
    (requireAdmin admin >>= k) w = (.ok b, w') ↔
      ∃ config, w.store.config = some config ∧ config.admin = admin ∧ k config w = (.ok b, w') := by
  simp only [requireAdmin, bind_assoc_eq, pure_bind_eq, bind_getConfig_ok, bind_failIf_ok, ne_eq, not_not]

theorem bind_getTransfer_ok {id : Nat} {k : BridgeTransfer → B β} :
    (getTransfer id >>= k) w = (.ok b, w') ↔
      ∃ t, w.store.books.transfers.lookup id = some t ∧ k t w = (.ok b, w') := bind_ofOption_ok

theorem bind_storeTransfer_ok {t : BridgeTransfer} {k : Unit → B β} :
    (storeTransfer t >>= k) w = (.ok b, w') ↔
      k () { w with store.books.transfers := w.store.books.transfers.insert t.id t } = (.ok b, w') :=
  Iff.rfl

theorem storeTransfer_ok {t : BridgeTransfer} {u : Unit} : storeTransfer t w = (.ok u, w') ↔
    { w with store.books.transfers := w.store.books.transfers.insert t.id t } = w' := by
  rw [storeTransfer, setBooks_ok]

theorem bind_ensureChainAllowed_ok {chain : ChainId} {k : Unit → B β} :
    (ensureChainAllowed chain >>= k) w = (.ok b, w') ↔
      ¬ (w.store.settings.supportedChains ≠ [] ∧ chain ∉ w.store.settings.supportedChains) ∧
        k () w = (.ok b, w') := bind_failIf_ok

theorem bind_ensureWrappedAssetExists_ok {asset : Bytes} {k : Unit → B β} :
    (ensureWrappedAssetExists asset >>= k) w = (.ok b, w') ↔
      ¬ w.store.settings.wrappedAssets.lookup asset = none ∧ k () w = (.ok b, w') := bind_failIf_ok

theorem bind_getDeploymentId_ok {k : Address → B β} : (getDeploymentId >>= k) w = (.ok b, w') ↔
    ∃ a, w.store.settings.deploymentId = some a ∧ k a w = (.ok b, w') := bind_ofOption_ok

theorem bind_takeTransferId_ok {k : Nat → B β} : (takeTransferId >>= k) w = (.ok b, w') ↔
    ∃ config, w.store.config = some config ∧ config.nextTransferId + 1 ≤ u64Max ∧
      k config.nextTransferId
        { w with store.config := some { config with nextTransferId := config.nextTransferId + 1 } } =
        (.ok b, w') := by
  simp only [takeTransferId, bind_assoc_eq, pure_bind_eq, bind_getConfig_ok, bind_plainU64_ok, bind_save_ok]

end Peel

section Limits

/-- The windows after a transfer on `route` was counted. -/
def chargedWindows (w : World) (amount : Int) (route : Route) : Store Route WithdrawalWindow :=
  match w.store.settings.withdrawalRouteConfigs.lookup route with
  | none => w.store.limits.withdrawalWindows
  | some cfg =>
    if 0 < cfg.aggregateWindowLimit ∧ 0 < cfg.windowSeconds then
      let window := currentWindow (w.store.limits.withdrawalWindows.lookup route) cfg.windowSeconds
        w.ledger.timestamp
      w.store.limits.withdrawalWindows.insert route ⟨window.windowStart, addOrMax window.totalVolume amount⟩
    else w.store.limits.withdrawalWindows

/-- The limits after a transfer was counted. -/
def charged (w : World) (amount : Int) (route : Route) : Limits where
  dailyVolume :=
    let volume := currentVolume w.store.limits.dailyVolume w.ledger.timestamp
    some ⟨volume.dayStart, addOrMax volume.totalAmount amount⟩
  withdrawalWindows := chargedWindows w amount route

/-- The transfer is within all limits. -/
structure Admitted (w : World) (config : BridgeConfig) (amount : Int) (route : Route) : Prop where
  configured : w.store.config = some config
  pos : 0 < amount
  max : amount ≤ config.security.maxTransferAmount
  message : ∀ cfg ∈ w.store.settings.withdrawalRouteConfigs.lookup route,
    0 < cfg.perMessageLimit → amount ≤ cfg.perMessageLimit
  window : ∀ cfg ∈ w.store.settings.withdrawalRouteConfigs.lookup route,
    0 < cfg.aggregateWindowLimit → 0 < cfg.windowSeconds →
      addOrMax (currentWindow (w.store.limits.withdrawalWindows.lookup route) cfg.windowSeconds
        w.ledger.timestamp).totalVolume amount ≤ cfg.aggregateWindowLimit
  day : addOrMax (currentVolume w.store.limits.dailyVolume w.ledger.timestamp).totalAmount amount ≤
    config.security.dailyTransferLimit
  buffer : ∀ buffer ∈ w.store.settings.liquidityBuffer, buffer ≠ i128Max → amount ≤ dynamicLimit buffer

variable {w w' : World} {amount : Int} {route : Route} {u : Unit}

theorem checkRouteLimits_ok (h : checkRouteLimits amount route w = (.ok u, w')) :
    (∀ cfg ∈ w.store.settings.withdrawalRouteConfigs.lookup route,
      (0 < cfg.perMessageLimit → amount ≤ cfg.perMessageLimit) ∧
      (0 < cfg.aggregateWindowLimit → 0 < cfg.windowSeconds →
        addOrMax (currentWindow (w.store.limits.withdrawalWindows.lookup route) cfg.windowSeconds
          w.ledger.timestamp).totalVolume amount ≤ cfg.aggregateWindowLimit)) ∧
    w' = { w with store.limits.withdrawalWindows := chargedWindows w amount route } := by
  unfold checkRouteLimits at h
  rw [bind_load_ok] at h
  unfold chargedWindows
  cases hcfg : w.store.settings.withdrawalRouteConfigs.lookup route with
  | none =>
    simp only [hcfg, pure_ok] at h
    exact ⟨fun cfg hc => (by cases hc), h.2.symm⟩
  | some cfg =>
    simp only [hcfg, bind_failIf_ok, when_ok] at h
    obtain ⟨hmsg, h⟩ := h
    simp only [Option.mem_some_iff, forall_eq']
    split at h
    · rename_i hwin
      simp only [checkAggregateWindow, bind_timestamp_ok, bind_load_ok, bind_failIf_ok, setLimits_ok] at h
      obtain ⟨hle, rfl⟩ := h
      rw [if_pos hwin]
      exact ⟨⟨fun h0 => Int.not_lt.mp fun hlt => hmsg ⟨h0, hlt⟩, fun _ _ => Int.not_lt.mp hle⟩, rfl⟩
    · rename_i hwin
      rw [if_neg hwin]
      exact ⟨⟨fun h0 => Int.not_lt.mp fun hlt => hmsg ⟨h0, hlt⟩, fun h1 h2 => absurd ⟨h1, h2⟩ hwin⟩, h.symm⟩

theorem validateAmountAndLimits_ok (h : validateAmountAndLimits amount route w = (.ok u, w')) :
    ∃ config, Admitted w config amount route ∧ w' = { w with store.limits := charged w amount route } := by
  simp only [validateAmountAndLimits, bind_failIf_ok, bind_getConfig_ok] at h
  obtain ⟨hpos, config, hconfig, hmax, h⟩ := h
  obtain ⟨_, w₁, hroute, h⟩ := Tx.bind_ok.mp h
  obtain ⟨hcfg, rfl⟩ := checkRouteLimits_ok hroute
  simp only [bind_timestamp_ok, bind_load_ok, bind_failIf_ok, setLimits_ok] at h
  obtain ⟨hday, hbuffer, rfl⟩ := h
  refine ⟨config, ⟨hconfig, by omega, by omega, fun cfg hc => (hcfg cfg hc).1, fun cfg hc => (hcfg cfg hc).2,
    Int.not_lt.mp hday, ?_⟩, rfl⟩
  intro buffer hb hne
  rw [Option.mem_def.mp hb] at hbuffer
  exact Int.not_lt.mp fun hlt => hbuffer ⟨hne, hlt⟩

end Limits

section Entrypoints

variable {env : Env} {w w' : World} {u : Unit} {user admin : Address} {sourceChain destinationChain : ChainId}
  {sourceAsset wrappedAsset : Bytes} {amount : Int} {destinationRecipient : Bytes} {id : Nat}

/-- The books and the configuration with a new transfer. -/
def World.opened (w : World) (config : BridgeConfig) (t : BridgeTransfer) : World :=
  { w with
    store.config := some { config with nextTransferId := config.nextTransferId + 1 }
    store.limits := charged w t.amount (t.sourceChain, t.destinationChain, t.wrappedAsset)
    store.books.transfers := w.store.books.transfers.insert t.id t }

/-- The books with a transfer replaced. -/
def World.updated (w : World) (t : BridgeTransfer) : World :=
  { w with store.books.transfers := w.store.books.transfers.insert t.id t }

theorem initiateLockMint_ok {sourceTxHash : Bytes} {sourceNonce : Nat}
    (h : initiateLockMint env user sourceChain destinationChain sourceAsset wrappedAsset amount sourceTxHash
      sourceNonce destinationRecipient w = (.ok id, w')) :
    ∃ config t, t = .initiated config.nextTransferId .lockMint user sourceChain destinationChain sourceAsset
        wrappedAsset amount sourceTxHash sourceNonce destinationRecipient w.ledger.timestamp ∧
      Admitted w config amount (sourceChain, destinationChain, wrappedAsset) ∧
      w.store.books.replayLocks.lookup t.origin = none ∧ id = config.nextTransferId ∧
      w' = { w.opened config t with
        store.books.replayLocks := w.store.books.replayLocks.insert t.origin () } := by
  simp only [initiateLockMint, bind_load_ok, bind_failIf_ok, bind_requireAuth_ok, bind_ensureChainAllowed_ok] at h
  obtain ⟨-, -, -, h⟩ := h
  obtain ⟨_, w₁, hlimits, h⟩ := Tx.bind_ok.mp h
  obtain ⟨config, hadm, rfl⟩ := validateAmountAndLimits_ok hlimits
  simp only [bind_ensureWrappedAssetExists_ok, bind_getDeploymentId_ok, bind_load_ok, bind_failIf_ok,
    bind_takeTransferId_ok, bind_timestamp_ok, bind_storeTransfer_ok, bind_setBooks_ok, pure_ok] at h
  obtain ⟨-, -, -, hreplay, -, config', hconfig', -, rfl, rfl⟩ := h
  obtain rfl : config = config' := Option.some.inj (hadm.configured.symm.trans hconfig')
  exact ⟨config, _, rfl, hadm, not_not.mp hreplay, rfl, rfl⟩

theorem initiateBurnUnlock_ok
    (h : initiateBurnUnlock env user sourceChain destinationChain sourceAsset wrappedAsset amount
      destinationRecipient w = (.ok id, w')) :
    ∃ config t, t = .initiated config.nextTransferId .burnUnlock user sourceChain destinationChain sourceAsset
        wrappedAsset amount [] config.nextTransferId destinationRecipient w.ledger.timestamp ∧
      Admitted w config amount (sourceChain, destinationChain, wrappedAsset) ∧
      amount ≤ (w.store.books.wrappedBalances.lookup (user, wrappedAsset)).getD 0 ∧
      id = config.nextTransferId ∧
      w' = { w.opened config t with
        store.books.wrappedBalances := w.store.books.wrappedBalances.insert (user, wrappedAsset)
          ((w.store.books.wrappedBalances.lookup (user, wrappedAsset)).getD 0 - amount)
        store.books.totalMinted := w.store.books.totalMinted - amount } := by
  simp only [initiateBurnUnlock, bind_load_ok, bind_failIf_ok, bind_requireAuth_ok, bind_ensureChainAllowed_ok] at h
  obtain ⟨-, -, -, h⟩ := h
  obtain ⟨_, w₁, hlimits, h⟩ := Tx.bind_ok.mp h
  obtain ⟨config, hadm, rfl⟩ := validateAmountAndLimits_ok hlimits
  simp only [bind_load_ok, bind_failIf_ok, bind_plain_ok, bind_setBooks_ok, bind_takeTransferId_ok,
    bind_timestamp_ok, bind_storeTransfer_ok, pure_ok] at h
  obtain ⟨hbalance, -, -, config', hconfig', -, rfl, rfl⟩ := h
  obtain rfl : config = config' := Option.some.inj (hadm.configured.symm.trans hconfig')
  exact ⟨config, _, rfl, hadm, Int.not_lt.mp hbalance, rfl, rfl⟩

/-- The approval that a call of `validator` adds. -/
def BridgeTransfer.approved (t : BridgeTransfer) (required : Nat) (approval : ValidatorApproval) :
    BridgeTransfer :=
  { t with
    approvals := t.approvals ++ [approval]
    status := if hasQuorum (t.approvals ++ [approval]) required then .readyToExecute else t.status }

theorem approveTransfer_ok {kind : TransferKind} {validator : Address} {signature : Bytes}
    (h : approveTransfer env kind validator id signature w = (.ok u, w')) :
    ∃ config t, env.auth validator = true ∧ w.store.config = some config ∧
      w.store.books.transfers.lookup id = some t ∧ t.kind = kind ∧ t.status ≠ .completed ∧
      validator ∈ config.validatorSet.validators ∧ validator ∉ t.approvals.map (·.validator) ∧
      w.store.books.usedSignatures.lookup (validator, id, kind, signature) = none ∧
      w' = { w.updated (t.approved config.security.requiredValidatorSignatures
          ⟨validator, signature, w.ledger.timestamp, kind⟩) with
        store.books.usedSignatures := w.store.books.usedSignatures.insert (validator, id, kind, signature) () } := by
  simp only [approveTransfer, verifyAndRecordApproval, bind_requireAuth_ok, bind_getConfig_ok,
    bind_getTransfer_ok, bind_failIf_ok, bind_assoc_eq, pure_bind_eq, bind_load_ok,
    bind_timestamp_ok, bind_setBooks_ok, storeTransfer_ok] at h
  obtain ⟨hauth, config, hconfig, t, ht, hopen, hmem, hused, hnew, rfl⟩ := h
  obtain ⟨hkind, hopen⟩ := not_or.mp hopen
  exact ⟨config, t, hauth, hconfig, ht, not_not.mp hkind, hopen, not_not.mp hmem, hnew, not_not.mp hused, rfl⟩

/-- A transfer that is executed at `now`. -/
def BridgeTransfer.executed (t : BridgeTransfer) (now : Nat) : BridgeTransfer :=
  { t with status := .completed, executedAt := some now }

theorem executeLockMint_ok (h : executeLockMint env admin id w = (.ok u, w')) :
    ∃ config t consumed, env.auth admin = true ∧ w.store.config = some config ∧ config.admin = admin ∧
      w.store.books.transfers.lookup id = some t ∧ t.kind = .lockMint ∧ t.status = .readyToExecute ∧
      w' = { w.updated (t.executed w.ledger.timestamp) with
        store.books.wrappedBalances := w.store.books.wrappedBalances.insert (t.user, t.wrappedAsset)
          ((w.store.books.wrappedBalances.lookup (t.user, t.wrappedAsset)).getD 0 + t.amount)
        store.books.totalMinted := w.store.books.totalMinted + t.amount
        store.books.consumedMessages := consumed } := by
  simp only [executeLockMint, bind_load_ok, bind_failIf_ok, bind_requireAdmin_ok, bind_requireAuth_ok,
    bind_getTransfer_ok, bind_plain_ok, bind_setBooks_ok, bind_timestamp_ok, bind_storeTransfer_ok,
    bind_getDeploymentId_ok, when_ok] at h
  obtain ⟨-, config, hconfig, hadmin, hauth, t, ht, hkind, -, -, hready, -, -, deploymentId, -, h⟩ := h
  split at h
  · obtain rfl := setBooks_ok.mp h
    exact ⟨config, t, _, hauth, hconfig, hadmin, ht, not_not.mp hkind, not_not.mp hready, rfl⟩
  · subst h
    exact ⟨config, t, _, hauth, hconfig, hadmin, ht, not_not.mp hkind, not_not.mp hready, rfl⟩

theorem executeBurnUnlock_ok (h : executeBurnUnlock env admin id w = (.ok u, w')) :
    ∃ config t, env.auth admin = true ∧ w.store.config = some config ∧ config.admin = admin ∧
      w.store.books.transfers.lookup id = some t ∧ t.kind = .burnUnlock ∧ t.status = .readyToExecute ∧
      t.createdAt + config.security.withdrawDelaySeconds ≤ w.ledger.timestamp ∧
      w' = w.updated (t.executed w.ledger.timestamp) := by
  simp only [executeBurnUnlock, bind_load_ok, bind_failIf_ok, bind_requireAdmin_ok, bind_requireAuth_ok,
    bind_getTransfer_ok, bind_plainU64_ok, bind_timestamp_ok, storeTransfer_ok] at h
  obtain ⟨-, config, hconfig, hadmin, hauth, t, ht, hkind, -, -, hready, -, hdelay, rfl⟩ := h
  exact ⟨config, t, hauth, hconfig, hadmin, ht, not_not.mp hkind, not_not.mp hready, Nat.not_lt.mp hdelay, rfl⟩

/-- A transfer that is marked failed. -/
def BridgeTransfer.markedFailed (t : BridgeTransfer) (reason : Bytes) (retryable : Bool) : BridgeTransfer :=
  { t with status := .failed, failureReason := some reason, retryable }

/-- A transfer that is made executable again. -/
def BridgeTransfer.retried (t : BridgeTransfer) : BridgeTransfer :=
  { t with status := .readyToExecute, failureReason := none, retryable := false }

theorem markTransferFailed_ok {reason : Bytes} {retryable : Bool}
    (h : markTransferFailed env admin id reason retryable w = (.ok u, w')) :
    ∃ config t, env.auth admin = true ∧ w.store.config = some config ∧ config.admin = admin ∧
      w.store.books.transfers.lookup id = some t ∧ t.status ≠ .completed ∧ t.status ≠ .cancelled ∧
      (t.status = .failed → t.retryable = true) ∧
      w' = w.updated (t.markedFailed reason retryable) := by
  simp only [markTransferFailed, bind_failIf_ok, bind_requireAdmin_ok, bind_requireAuth_ok,
    bind_getTransfer_ok, storeTransfer_ok] at h
  obtain ⟨config, hconfig, hadmin, hauth, t, ht, hopen, hretry, rfl⟩ := h
  obtain ⟨hcompleted, hcancelled⟩ := not_or.mp hopen
  refine ⟨config, t, hauth, hconfig, hadmin, ht, hcompleted, hcancelled, fun hfailed => ?_, rfl⟩
  exact Bool.not_eq_false _ ▸ fun hfalse => hretry ⟨hfailed, hfalse⟩

theorem retryTransfer_ok (h : retryTransfer env admin id w = (.ok u, w')) :
    ∃ config t, env.auth admin = true ∧ w.store.config = some config ∧ config.admin = admin ∧
      w.store.books.transfers.lookup id = some t ∧ t.status = .failed ∧ t.retryable = true ∧
      w' = w.updated t.retried := by
  simp only [retryTransfer, bind_failIf_ok, bind_requireAdmin_ok, bind_requireAuth_ok,
    bind_getTransfer_ok, storeTransfer_ok, Bool.not_eq_false] at h
  obtain ⟨config, hconfig, hadmin, hauth, t, ht, hfailed, hretry, rfl⟩ := h
  exact ⟨config, t, hauth, hconfig, hadmin, ht, not_not.mp hfailed, hretry, rfl⟩

theorem hasDuplicates_eq_false {validators : List Address} :
    hasDuplicates validators = false ↔ validators.Nodup := by
  induction validators with
  | nil => simp [hasDuplicates]
  | cons v validators ih => simp [hasDuplicates, ih]

theorem initializeBridge_ok {validators : List Address} {required : Nat} {maxTransferAmount limit : Int}
    {delay : Nat}
    (h : initializeBridge env admin validators required maxTransferAmount limit delay w = (.ok u, w')) :
    w.store.config = none ∧ validators.Nodup ∧ 0 < required ∧ required ≤ validators.length ∧ 0 < limit ∧
    w' = { w with
      store.config := some
        ⟨admin, ⟨validators, required⟩, ⟨maxTransferAmount, limit, required, delay⟩, 1⟩
      store.limits.dailyVolume := some ⟨dayBucket w.ledger.timestamp, 0⟩
      store.settings.deploymentId := some admin } := by
  simp only [initializeBridge, buildValidatorSet, bind_load_ok, bind_failIf_ok, bind_requireAuth_ok,
    bind_assoc_eq, pure_bind_eq, bind_save_ok, bind_timestamp_ok, bind_setLimits_ok, setSettings_ok,
    not_or] at h
  obtain ⟨hnone, -, ⟨-, hpos, hle, hnd⟩, ⟨-, hlimit⟩, rfl⟩ := h
  exact ⟨not_not.mp hnone, hasDuplicates_eq_false.mp (Bool.eq_false_iff.mpr hnd), by omega, by omega,
    by omega, rfl⟩

end Entrypoints

end CallStake.Bridge
