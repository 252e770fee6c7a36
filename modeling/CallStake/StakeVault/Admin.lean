import CallStake.StakeVault.Slash

/-!
# Administration

Initialization, upgrades, settings, and the multi-sig flow that takes over the privileged
entrypoints once a configuration is stored.

* The setters differ in what guards them: most are closed by a multi-sig configuration
  (`requireNoMultisig`), some only ask for the administrator, two only for governance.
* `decodeAction`: the payload of a proposal, one tag byte and little-endian arguments, where a
  missing byte counts as `0`.
* `executeAction_ok`: an executed action was approved as `require_can_execute` demands.
-/

namespace CallStake.StakeVault

open Tx

open Multisig (MultisigError MultisigConfig MultisigStorage Proposal)

variable {τ : Type}

/-! ## Initialization and upgrades -/

/-- `initialize`: once. -/
def initializeVault (admin stakeToken signalRegistry : Address) : V τ Unit := do
  let initialized ← load (·.config.initialized)
  failIf (initialized = true) .panic
  save fun s => { s with config := { s.config with
    admin := some admin
    stakeToken := some stakeToken
    signalRegistry := some signalRegistry
    paused := false
    initialized := true
    contractVersion := STAKE_VAULT_VERSION
    layoutVersion := some INITIAL_LAYOUT_VERSION } }

/-- `guard_upgrade`: only a larger version is accepted. -/
def guardUpgrade (newVersion : Nat) : V τ Unit := do
  let currentVersion ← load (·.config.contractVersion)
  failIf (newVersion ≤ currentVersion) (err .incompatibleContractVersion)

/-- The new code takes effect after the call, so only the version is written here. -/
def upgrade (env : Env τ) (newVersion : Nat) : V τ Unit := do
  requireAdmin env
  guardUpgrade newVersion
  save fun s => { s with config.contractVersion := newVersion }

/-- No entry of the persistent storage has a bare symbol as its key. -/
def persistentHas (_ : Symbol) : Bool := false

def guardStorageUpgrade (nextLayoutVersion : Nat) (requiredKeys : List Symbol) : V τ Unit := do
  let v ← load (·.config.layoutVersion)
  let current ← Tx.ofOption v (err .notInitialized)
  failIf (nextLayoutVersion ≠ u32Add current 1) (err .incompatibleContractVersion)
  failIf (requiredKeys.all persistentHas = false) (err .notInitialized)
  save fun s => { s with config.layoutVersion := some nextLayoutVersion }

def upgradeWithMigrationGuard (env : Env τ) (newVersion nextLayoutVersion : Nat)
    (requiredStorageKeys : List Symbol) : V τ Unit := do
  requireAdmin env
  guardUpgrade newVersion
  guardStorageUpgrade nextLayoutVersion requiredStorageKeys
  save fun s => { s with config.contractVersion := newVersion }

/-! ## Settings -/

/-- `.expect("not initialized")` and the authorization of the administrator. -/
def expectAdmin (env : Env τ) : V τ Unit := do
  let a ← load (·.config.admin)
  let admin ← Tx.ofOption a .panic
  requireAuth env.auth admin

/-- `pausable::set_paused`. -/
def setPaused (paused : Bool) : V τ Unit := save fun s => { s with config.paused := paused }

def pause (env : Env τ) : V τ Unit := do
  requireNoMultisig
  expectAdmin env
  setPaused true

def unpause (env : Env τ) : V τ Unit := do
  requireNoMultisig
  expectAdmin env
  setPaused false

def setGovernance (env : Env τ) (admin governance : Address) : V τ Unit := do
  let a ← load (·.config.admin)
  let storedAdmin ← Tx.ofOption a (err .notInitialized)
  requireAuth env.auth admin
  failIf (admin ≠ storedAdmin) (err .unauthorized)
  save fun s => { s with config.governanceAddress := some governance }

/-- Bypasses the multi-sig: a governance decision. -/
def applyGovernancePause (env : Env τ) (paused : Bool) : V τ Unit := do
  let g ← load (·.config.governanceAddress)
  let governance ← Tx.ofOption g (err .unauthorized)
  requireAuth env.auth governance
  setPaused paused

def setTier (tiers : List LockMultiplierTier) (weeks bps : Nat) : List LockMultiplierTier :=
  if tiers.any (·.weeks = weeks) then
    tiers.map fun tier => if tier.weeks = weeks then ⟨weeks, bps⟩ else tier
  else tiers ++ [⟨weeks, bps⟩]

def setLockMultiplierTier (env : Env τ) (weeks bps : Nat) : V τ Unit := do
  requireAdmin env
  failIf (weeks = 0 ∨ (bps : Int) < BPS_DENOMINATOR ∨ MAX_LOCK_MULTIPLIER_BPS < bps)
    (err .invalidLockMultiplierTier)
  save fun s => { s with
    config.lockMultiplierTiers := setTier s.config.lockMultiplierTiers weeks bps }

def setMinimumStakeDuration (env : Env τ) (durationSecs : Nat) : V τ Unit := do
  requireNoMultisig
  requireAdmin env
  save fun s => { s with config.minimumStakeDuration := durationSecs }

def setMinimumStake (env : Env τ) (minimum : Int) : V τ Unit := do
  requireNoMultisig
  expectAdmin env
  save fun s => { s with config.minimumStake := minimum }

def validateCooldown (cooldownSecs : Nat) : V τ Unit :=
  failIf (MAX_WITHDRAWAL_COOLDOWN_SECS < cooldownSecs) (err .invalidCooldown)

def setWithdrawalCooldown (env : Env τ) (cooldownSecs : Nat) : V τ Unit := do
  requireNoMultisig
  requireAdmin env
  validateCooldown cooldownSecs
  save fun s => { s with config.withdrawalCooldownSecs := cooldownSecs }

def validateSlashTiers (minorBps majorBps criticalBps : Nat) : V τ Unit := do
  failIf (10000 < minorBps ∨ 10000 < majorBps ∨ 10000 < criticalBps) (err .invalidSlashTier)
  failIf (majorBps < minorBps ∨ criticalBps < majorBps) (err .invalidSlashTierOrder)

def setSlashTiers (minorBps majorBps criticalBps : Nat) : V τ Unit := do
  validateSlashTiers minorBps majorBps criticalBps
  save fun s => { s with config.slashTierConfig := ⟨minorBps, majorBps, criticalBps⟩ }

def configureSlashTiers (env : Env τ) (minorBps majorBps criticalBps : Nat) : V τ Unit := do
  requireNoMultisig
  requireAdmin env
  setSlashTiers minorBps majorBps criticalBps

def governanceConfigureSlashTiers (env : Env τ) (governance : Address)
    (minorBps majorBps criticalBps : Nat) : V τ Unit := do
  let g ← load (·.config.governanceAddress)
  let storedGovernance ← Tx.ofOption g (err .unauthorized)
  failIf (governance ≠ storedGovernance) (err .unauthorized)
  requireAuth env.auth governance
  setSlashTiers minorBps majorBps criticalBps

/-- Not closed by a multi-sig configuration. -/
def setSlashCooldown (env : Env τ) (ledgers : Nat) : V τ Unit := do
  expectAdmin env
  save fun s => { s with config.slashCooldownLedgers := ledgers }

def setAppealWindow (env : Env τ) (windowSecs : Nat) : V τ Unit := do
  requireNoMultisig
  requireAdmin env
  failIf (MAX_APPEAL_WINDOW_SECS < windowSecs) (err .invalidAppealWindow)
  save fun s => { s with config.appealWindowSecs := windowSecs }

def setMaxUnstakeQueueSize (env : Env τ) (size : Nat) : V τ Unit := do
  requireNoMultisig
  requireAdmin env
  save fun s => { s with config.maxUnstakeQueueSize := size }

/-- `slash_strategy::set_slash_strategy`, with its errors mapped as the entrypoint does. -/
def setSlashStrategy (env : Env τ) (strategyName : Symbol) (cfg : SlashStrategyConfig) :
    V τ Unit := do
  requireAdmin env
  failIf (10000 < cfg.minorBps ∨ 10000 < cfg.majorBps ∨ 10000 < cfg.criticalBps)
    (err .invalidSlashTier)
  failIf (cfg.majorBps < cfg.minorBps ∨ cfg.criticalBps < cfg.majorBps)
    (err .invalidSlashTierOrder)
  failIf (cfg.riskWindowSecs = 0) (err .invalidCooldown)
  save fun s => { s with
    strategy.strategyNames := if strategyName ∈ s.strategy.strategyNames then
      s.strategy.strategyNames else s.strategy.strategyNames ++ [strategyName] }
  save fun s => { s with strategy.strategy := s.strategy.strategy.insert strategyName cfg }

/-! ## Multi-sig -/

/-- An operation of the multi-sig module on its part of the storage. -/
def onMultisig {α : Type} (f : MultisigError → StakeVaultError) (x : Multisig.M α) : V τ α :=
  Tx.mapErr (Fault.map f)
    (Tx.zoom (fun w => w.store.multisig) (fun m w => { w with store.multisig := m }) x)

def setMultisigConfig (env : Env τ) (caller : Address) (config : Option MultisigConfig) :
    V τ Unit := do
  requireAuth env.auth caller
  let a ← load (·.config.admin)
  let admin ← Tx.ofOption a (err .notInitialized)
  failIf (caller ≠ admin) (err .unauthorized)
  match config with
  | some cfg => onMultisig (fun _ => .invalidMultiSigConfig) (Multisig.setConfig cfg)
  | none => onMultisig (fun _ => .invalidMultiSigConfig) Multisig.clearConfig

def proposeAction (env : Env τ) (caller : Address) (payload : Bytes) : V τ Nat := do
  requireAuth env.auth caller
  let now ← timestamp
  onMultisig (fun _ => .unauthorized) (Multisig.propose now caller payload)

def approveError : MultisigError → StakeVaultError
  | .proposalNotFound => .emergencyRequestNotFound
  | .alreadyApproved => .alreadyApproved
  | .proposalExpired => .emergencyRequestExpired
  | _ => .unauthorized

def approveAction (env : Env τ) (caller : Address) (proposalId : Nat) : V τ Nat := do
  requireAuth env.auth caller
  let now ← timestamp
  onMultisig approveError (Multisig.approve now caller proposalId)

/-- The privileged actions, by the tag in the first byte of a payload. -/
inductive Action where
  | pause
  | unpause
  | setMinimumStake (minimum : Int)
  | setMinimumStakeDuration (durationSecs : Nat)
  | configureSlashTiers (minorBps majorBps criticalBps : Nat)
  | setAppealWindow (windowSecs : Nat)
  | setWithdrawalCooldown (cooldownSecs : Nat)
  | resolveAppeal (slashId : Nat) (uphold : Bool)

/-- The little-endian number in `n` bytes of a payload; a byte past its end is `0`. -/
def decodeLe (payload : Bytes) (offset : Nat) : Nat → Nat
  | 0 => 0
  | n + 1 => (payload.getD offset 0).toNat + 256 * decodeLe payload (offset + 1) n

/-- `decode_i128_from_bytes`: sixteen bytes in two's complement. -/
def decodeI128FromBytes (payload : Bytes) (offset : Nat) : Int :=
  let n := decodeLe payload offset 16
  if n < 2 ^ 127 then n else (n : Int) - 2 ^ 128

/-- `x as u32` for a signed 128-bit value. -/
def asU32 (x : Int) : Nat := (x % 2 ^ 32).toNat

/-- `none` for an empty payload and for an unknown tag. -/
def decodeAction (payload : Bytes) : Option Action :=
  match payload with
  | [] => none
  | tag :: _ =>
    match tag.toNat with
    | 0 => some .pause
    | 1 => some .unpause
    | 2 => some (.setMinimumStake (decodeI128FromBytes payload 1))
    | 3 => some (.setMinimumStakeDuration (decodeLe payload 1 8))
    | 4 => some (.configureSlashTiers (asU32 (decodeI128FromBytes payload 1))
        (asU32 (decodeI128FromBytes payload 17)) (asU32 (decodeI128FromBytes payload 33)))
    | 5 => some (.setAppealWindow (decodeLe payload 1 8))
    | 6 => some (.setWithdrawalCooldown (decodeLe payload 1 8))
    | 7 => some (.resolveAppeal (decodeLe payload 1 8) (payload.getD 9 0 = 1))
    | _ => none

/-- The effect of an action. -/
def performAction (env : Env τ) : Action → V τ Unit
  | .pause => setPaused true
  | .unpause => setPaused false
  | .setMinimumStake minimum => save fun s => { s with config.minimumStake := minimum }
  | .setMinimumStakeDuration duration =>
    save fun s => { s with config.minimumStakeDuration := duration }
  | .configureSlashTiers minor major critical => do
    validateSlashTiers minor major critical
    save fun s => { s with config.slashTierConfig := ⟨minor, major, critical⟩ }
  | .setAppealWindow window => do
    failIf (MAX_APPEAL_WINDOW_SECS < window) (err .invalidAppealWindow)
    save fun s => { s with config.appealWindowSecs := window }
  | .setWithdrawalCooldown cooldown => do
    validateCooldown cooldown
    save fun s => { s with config.withdrawalCooldownSecs := cooldown }
  | .resolveAppeal slashId uphold => doResolveAppeal env slashId uphold

def executeError : MultisigError → StakeVaultError
  | .alreadyExecuted => .emergencyRequestNotFound
  | .proposalExpired => .emergencyRequestExpired
  | _ => .unauthorized

def executeAction (env : Env τ) (caller : Address) (proposalId : Nat) : V τ Unit := do
  requireAuth env.auth caller
  let proposal ← onMultisig (fun _ => .emergencyRequestNotFound) (Multisig.getProposal proposalId)
  let now ← timestamp
  onMultisig executeError (Multisig.requireCanExecute now proposal)
  let action ← Tx.ofOption (decodeAction proposal.payload) (err .unauthorized)
  performAction env action
  onMultisig (fun _ => .unauthorized) (Multisig.markExecuted proposalId)

/-! ## What an executed action did -/

section Run

variable {env : Env τ} {w w' : World τ} {u : Unit}

@[simp] theorem onMultisig_ok {α : Type} {a : α} {f : MultisigError → StakeVaultError}
    {x : Multisig.M α} : (onMultisig f x : V τ α) w = (.ok a, w') ↔
      ∃ m, x w.store.multisig = (.ok a, m) ∧ { w with store.multisig := m } = w' := by
  simp [onMultisig]

/-- An executed action belongs to a pending proposal that has enough approvals and has not expired.
The action runs in the world as it is, and then the proposal is closed. -/
theorem executeAction_ok {caller : Address} {proposalId : Nat}
    (h : executeAction env caller proposalId w = (.ok u, w')) :
    ∃ config proposal action, w.store.multisig.config = some config ∧
      w.store.multisig.proposals.lookup proposalId = some proposal ∧
      proposal.status = .pending ∧ config.threshold ≤ proposal.approvals.length ∧
      w.ledger.timestamp ≤ proposal.expiresAt ∧ decodeAction proposal.payload = some action ∧
      ∃ w₁, performAction env action w = (.ok (), w₁) ∧
      ∃ p, w₁.store.multisig.proposals.lookup proposalId = some p ∧
        w' = { w₁ with store.multisig.proposals :=
          w₁.store.multisig.proposals.insert proposalId { p with status := .executed } } := by
  simp only [executeAction, bind_ok, requireAuth_ok, onMultisig_ok, Multisig.getProposal_ok,
    timestamp_ok, Multisig.requireCanExecute_ok, ofOption_ok, Multisig.markExecuted_ok] at h
  obtain ⟨_, _, ⟨-, rfl⟩, proposal, _, ⟨_, ⟨hp, rfl⟩, rfl⟩, _, _, ⟨rfl, rfl⟩, _, _,
    ⟨_, ⟨config, hc, hs, ht, hn, rfl⟩, rfl⟩, action, _, ⟨ha, rfl⟩, _, w₁, hw, _, ⟨p, hp', -, rfl⟩,
    rfl⟩ := h
  exact ⟨config, proposal, action, hc, hp, hs, ht, hn, ha, w₁, hw, p, hp', rfl⟩

end Run

end CallStake.StakeVault
