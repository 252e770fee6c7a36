import CallStake.Shared.Multisig
import CallStake.Shared.RateLimit

/-!
# The stake vault: storage and environment

The data of the `stake_vault` contract. The storage is one record, grouped by the part of the
contract that owns the entries. An entry that is only ever read with a default holds the default
while it is unset; an entry that is tested for presence or removed is an `Option` or the absence of
a key.

* `World τ`: the storage, the ledger, the state `τ` of the token contracts and a log of what the
  contract did outside its storage.
* `Env τ`: what a call sees of its host.
* `tryTransfer`/`tryBurn` return the classified failure of a token; `transfer`/`burn` trap.
-/

namespace CallStake.StakeVault

open Tx

open Multisig (MultisigStorage MultisigConfig)
open RateLimit (RateStorage)

/-! ## Errors -/

/-- The errors of the vault. -/
inductive StakeVaultError where
  | notInitialized
  | unauthorized
  | noStake
  | stakeLocked
  | reentrancyDetected
  | stakeBelowMinimum
  | contractPaused
  | timelockRequired
  | timelockNotElapsed
  | flashLoanDetected
  | invalidSlashTier
  | stakeDurationNotElapsed
  | noDelegatedStake
  | unstakeAlreadyQueued
  | noUnstakeQueued
  | queueEmpty
  | emergencyNotConfigured
  | emergencyRequestAlreadyExists
  | emergencyRequestNotFound
  | emergencyRequestExpired
  | emergencyRequestNotExpired
  | alreadyApproved
  | invalidEmergencyPenalty
  | invalidMultiSigConfig
  | requiresMultisig
  | invalidAppealWindow
  | appealWindowClosed
  | slashNotFound
  | appealAlreadyExists
  | appealAlreadyResolved
  | rateLimitExceeded
  | invalidAmount
  | remainingStakeBelowMinimum
  | incompatibleContractVersion
  | invalidLockMultiplierTier
  | queueFull
  | invalidSlashTierOrder
  | invalidCooldown
  | batchSizeInvalid
  | batchLengthMismatch
  | slashCooldownActive
  | emergencyCooldownActive
  | stakeOverflow
  | insufficientTokenBalance
  | insufficientTokenAllowance
  | tokenOperationFailed
  deriving DecidableEq

/-- `impl From<shared::TokenFailure> for StakeVaultError`. -/
def StakeVaultError.ofTokenFailure : TokenFailure → StakeVaultError
  | .unauthorized => .unauthorized
  | .insufficientBalance => .insufficientTokenBalance
  | .insufficientAllowance => .insufficientTokenAllowance
  | .invalidRequest | .overflow | .otherContractError _ | .hostError => .tokenOperationFailed

/-! ## Stored values -/

/-- How much of a stake a slash takes. -/
inductive SlashSeverity where
  | minor
  | major
  | critical

/-- Basis points slashed per severity (10 000 = 100 %). -/
structure SlashTierConfig where
  minorBps : Nat
  majorBps : Nat
  criticalBps : Nat

def SlashTierConfig.defaultConfig : SlashTierConfig := ⟨500, 3000, 10000⟩

/-- A stake that stays locked for at least `weeks` votes with `bps` basis points of its balance. -/
structure LockMultiplierTier where
  weeks : Nat
  bps : Nat

def defaultLockMultiplierTiers : List LockMultiplierTier := [⟨1, 10000⟩, ⟨4, 12500⟩, ⟨12, 20000⟩]

/-- The own stake of a provider. -/
structure StakeInfoV2 where
  balance : Int
  lockedUntil : Nat
  lastUpdated : Nat
  deriving DecidableEq

/-- A pending unstake request in the queue. -/
structure UnstakeRequest where
  ticket : Nat
  user : Address
  queuedAt : Nat
  deriving DecidableEq

/-- How far an appeal has come. -/
inductive AppealStatus where
  | pending
  | upheld
  | reversed
  deriving DecidableEq

/-- Written once, at the slash. `slashAmount` is the own and the delegated part together. -/
structure SlashRecord where
  slashId : Nat
  provider : Address
  severity : SlashSeverity
  slashAmount : Int
  slashedAt : Nat
  reason : Symbol
  cooldownExpiresAt : Nat

/-- An appeal against a slash. -/
structure SlashAppeal where
  slashId : Nat
  appellant : Address
  evidenceUri : String
  submittedAt : Nat
  status : AppealStatus

/-- Who approves emergencies. -/
structure EmergencyMultiSigConfig where
  admins : List Address
  required : Nat
  penaltyBps : Nat
  timeoutSecs : Nat
  deriving DecidableEq

/-- A request, with its approvals. -/
structure EmergencyRequest where
  staker : Address
  requestedAt : Nat
  approvals : List Address

/-- A reward allocation for a provider in one asset. -/
structure RewardBucket where
  bucketId : Nat
  provider : Address
  asset : Address
  amount : Int
  epoch : Nat

/-- How much a strategy slashes. -/
structure SlashStrategyConfig where
  minorBps : Nat
  majorBps : Nat
  criticalBps : Nat
  riskWindowSecs : Nat
  penaltyWindowSecs : Nat

/-! ## Constants -/

def BPS_DENOMINATOR : Int := 10000
def MAX_LOCK_MULTIPLIER_BPS : Nat := 1000000
def SECS_PER_WEEK : Nat := 604800
def GRACE_PERIOD_SECS : Nat := 86400
def LARGE_WITHDRAWAL_TIMELOCK_SECS : Nat := 3600
def MAX_WITHDRAWAL_COOLDOWN_SECS : Nat := 2592000
def MAX_APPEAL_WINDOW_SECS : Nat := 2592000
def LARGE_WITHDRAWAL_THRESHOLD : Int := 500000000
def DEFAULT_MAX_UNSTAKE_QUEUE_SIZE : Nat := 200
def MAX_BATCH_SIZE : Nat := 100
def MAX_REWARD_BATCH : Nat := 100
def DEFAULT_SLASH_COOLDOWN_LEDGERS : Nat := 100
def STAKE_VAULT_VERSION : Nat := 2
def INITIAL_LAYOUT_VERSION : Nat := 1

/-! ## Storage -/

/-- Settings, written by the administrator, the multi-sig or governance. -/
structure ConfigStorage where
  initialized : Bool
  admin : Option Address
  stakeToken : Option Address
  signalRegistry : Option Address
  governanceAddress : Option Address
  contractVersion : Nat
  layoutVersion : Option Nat
  paused : Bool
  minimumStake : Int
  minimumStakeDuration : Nat
  slashTierConfig : SlashTierConfig
  slashCooldownLedgers : Nat
  appealWindowSecs : Nat
  withdrawalCooldownSecs : Nat
  maxUnstakeQueueSize : Nat
  lockMultiplierTiers : List LockMultiplierTier

/-- Own stakes, and the stakes delegated to each provider with their cached total. -/
structure StakeStorage where
  stakesV2 : Store Address StakeInfoV2
  providerDelegatedStakes : Store Address (Store Address Int)
  providerTotalDelegated : Store Address Int

/-- The entries of slashes and appeals. -/
structure SlashStorage where
  slashCounter : Nat
  slashRecord : Store Nat SlashRecord
  slashAppeal : Store Nat SlashAppeal
  slashedFundsHeld : Store Nat Int
  lastSlashLedger : Store Address Nat

/-- The entries of the unstake queue. -/
structure QueueStorage where
  unstakeQueueTail : Nat
  unstakeQueueHead : Nat
  unstakeQueueEntry : Store Nat UnstakeRequest
  userUnstakeTicket : Store Address Nat

/-- Times and ledgers kept per staker, and the two reentrancy locks. -/
structure GuardStorage where
  stakeBelowMinSince : Store Address Nat
  largeWithdrawalRequestedAt : Store Address Nat
  lastStakeLedger : Store Address Nat
  stakeDepositTimestamps : Store Address Nat
  withdrawLock : Bool
  sharedContractLock : Bool

/-- The entries of emergencies. -/
structure EmergencyStorage where
  emergencyMultiSigConfig : Option EmergencyMultiSigConfig
  emergencyRequest : Store Address EmergencyRequest
  emergencyCooldownSecs : Nat
  lastEmergencyUnstakeAt : Store Address Nat

/-- The entries under `RewardKey`. -/
structure RewardStorage where
  supportedAssets : List Address
  assetTotalDeposited : Store Address Int
  providerAssetBalance : Store (Address × Address) Int
  bucketCounter : Nat
  bucket : Store Nat RewardBucket
  claimed : Store (Address × Nat) Bool

/-- The entries of slash strategies. -/
structure StrategyStorage where
  strategyNames : List Symbol
  strategy : Store Symbol SlashStrategyConfig

/-- The storage of the contract. -/
structure Storage where
  config : ConfigStorage
  stake : StakeStorage
  slash : SlashStorage
  queue : QueueStorage
  guards : GuardStorage
  emergency : EmergencyStorage
  multisig : MultisigStorage
  rate : RateStorage
  reward : RewardStorage
  strategy : StrategyStorage

/-- A contract that was deployed and not yet initialized. -/
def Storage.deployed : Storage where
  config :=
    { initialized := false, admin := none, stakeToken := none, signalRegistry := none,
      governanceAddress := none, contractVersion := 1, layoutVersion := none, paused := false,
      minimumStake := 0, minimumStakeDuration := 0, slashTierConfig := .defaultConfig,
      slashCooldownLedgers := DEFAULT_SLASH_COOLDOWN_LEDGERS, appealWindowSecs := 0,
      withdrawalCooldownSecs := LARGE_WITHDRAWAL_TIMELOCK_SECS,
      maxUnstakeQueueSize := DEFAULT_MAX_UNSTAKE_QUEUE_SIZE,
      lockMultiplierTiers := defaultLockMultiplierTiers }
  stake := ⟨∅, ∅, ∅⟩
  slash := ⟨0, ∅, ∅, ∅, ∅⟩
  queue := ⟨0, 0, ∅, ∅⟩
  guards := ⟨∅, ∅, ∅, ∅, false, false⟩
  emergency := ⟨none, ∅, 0, ∅⟩
  multisig := .empty
  rate := .empty
  reward := ⟨[], ∅, ∅, 0, ∅, ∅⟩
  strategy := ⟨[], ∅⟩

/-! ## The world of a call -/

/-- What the contract did outside its storage: token movements it ordered, and the processed
requests of the unstake queue (`emit_unstake_processed`). -/
inductive LogEntry where
  | transfer (token src dst : Address) (amount : Int)
  | burn (token src : Address) (amount : Int)
  | unstakeProcessed (user : Address) (ticket : Nat) (amount : Int)

/-- The ticket of a processed request. -/
def LogEntry.ticket? : LogEntry → Option Nat
  | .unstakeProcessed _ ticket _ => some ticket
  | _ => none

/-- The log has its newest entry first. -/
structure World (τ : Type) where
  ledger : Ledger
  store : Storage
  token : τ
  log : List LogEntry

/-- The token contracts, the address of the vault, and who authorized the call. -/
structure Env (τ : Type) where
  tokens : Tokens τ
  self : Address
  auth : Auth

abbrev V (τ : Type) := Tx (World τ) (Fault StakeVaultError)

section Primitives

variable {τ α : Type}

abbrev err (e : StakeVaultError) : Fault StakeVaultError := .err e

/-- Reads of the storage. -/
def load (f : Storage → α) : V τ α := Tx.gets fun w => f w.store

/-- Writes of the storage. -/
def save (f : Storage → Storage) : V τ Unit := Tx.modify fun w => { w with store := f w.store }

/-- `env.ledger().timestamp()`. -/
def timestamp : V τ Nat := Tx.gets fun w => w.ledger.timestamp

/-- `env.ledger().sequence()`. -/
def sequence : V τ Nat := Tx.gets fun w => w.ledger.sequence

/-- The result of a token invocation that moves `entry`; a failed one has no effect. -/
def invokeToken (op : τ → Except InvokeFailure τ) (entry : LogEntry) :
    Tx (World τ) InvokeFailure Unit := fun w =>
  match op w.token with
  | .ok t => (.ok (), { w with token := t, log := entry :: w.log })
  | .error e => (.error e, w)

/-- `map_result(token.try_transfer(..)).map_err(StakeVaultError::from)?`. -/
def tryTransfer (env : Env τ) (token src dst : Address) (amount : Int) : V τ Unit :=
  Tx.mapErr (fun e => err (.ofTokenFailure (classify e)))
    (invokeToken (env.tokens.transfer token src dst amount) (.transfer token src dst amount))

/-- `map_result(token.try_burn(..)).map_err(StakeVaultError::from)?`. -/
def tryBurn (env : Env τ) (token src : Address) (amount : Int) : V τ Unit :=
  Tx.mapErr (fun e => err (.ofTokenFailure (classify e)))
    (invokeToken (env.tokens.burn token src amount) (.burn token src amount))

/-- `token.transfer(..)`: a failure of the token traps. -/
def transfer (env : Env τ) (token src dst : Address) (amount : Int) : V τ Unit :=
  Tx.mapErr (fun _ => .panic)
    (invokeToken (env.tokens.transfer token src dst amount) (.transfer token src dst amount))

/-- `token.burn(..)`: a failure of the token traps. -/
def burn (env : Env τ) (token src : Address) (amount : Int) : V τ Unit :=
  Tx.mapErr (fun _ => .panic)
    (invokeToken (env.tokens.burn token src amount) (.burn token src amount))

/-! ## What a primitive did -/

section Run

variable {w w' : World τ} {a : α} {u : Unit} {n : Nat} {e : Fault StakeVaultError} {env : Env τ}
  {token src dst addr : Address} {amount : Int}

@[simp] theorem load_ok {f : Storage → α} : (load f : V τ α) w = (.ok a, w') ↔ f w.store = a ∧ w = w' := gets_ok

@[simp] theorem load_error {f : Storage → α} : ¬ (load f : V τ α) w = (.error e, w') := gets_error

@[simp] theorem save_ok {f : Storage → Storage} :
    (save f : V τ Unit) w = (.ok u, w') ↔ { w with store := f w.store } = w' := modify_ok

@[simp] theorem save_error {f : Storage → Storage} : ¬ (save f : V τ Unit) w = (.error e, w') := modify_error

@[simp] theorem timestamp_ok : (timestamp : V τ Nat) w = (.ok n, w') ↔ w.ledger.timestamp = n ∧ w = w' := gets_ok

@[simp] theorem timestamp_error : ¬ (timestamp : V τ Nat) w = (.error e, w') := gets_error

@[simp] theorem sequence_ok : (sequence : V τ Nat) w = (.ok n, w') ↔ w.ledger.sequence = n ∧ w = w' := gets_ok

@[simp] theorem sequence_error : ¬ (sequence : V τ Nat) w = (.error e, w') := gets_error

theorem invokeToken_ok {op : τ → Except InvokeFailure τ} {entry : LogEntry} :
    invokeToken op entry w = (.ok u, w') ↔
      ∃ t, op w.token = .ok t ∧ { w with token := t, log := entry :: w.log } = w' := by
  unfold invokeToken
  cases op w.token <;> simp

theorem invokeToken_error {op : τ → Except InvokeFailure τ} {entry : LogEntry}
    {f : InvokeFailure} :
    invokeToken op entry w = (.error f, w') ↔ op w.token = .error f ∧ w = w' := by
  unfold invokeToken
  cases op w.token <;> simp

/-- A transfer that returned moved the tokens, and only them. -/
@[simp] theorem tryTransfer_ok : tryTransfer env token src dst amount w = (.ok u, w') ↔
    ∃ t, env.tokens.transfer token src dst amount w.token = .ok t ∧
      { w with token := t, log := .transfer token src dst amount :: w.log } = w' := by
  rw [tryTransfer, mapErr_ok, invokeToken_ok]

@[simp] theorem tryTransfer_error : tryTransfer env token src dst amount w = (.error e, w') ↔
    ∃ f, (env.tokens.transfer token src dst amount w.token = .error f ∧ w = w') ∧
      err (.ofTokenFailure (classify f)) = e := by
  simp [tryTransfer, invokeToken_error]

@[simp] theorem tryBurn_ok : tryBurn env token src amount w = (.ok u, w') ↔
    ∃ t, env.tokens.burn token src amount w.token = .ok t ∧
      { w with token := t, log := .burn token src amount :: w.log } = w' := by
  rw [tryBurn, mapErr_ok, invokeToken_ok]

@[simp] theorem tryBurn_error : tryBurn env token src amount w = (.error e, w') ↔
    ∃ f, (env.tokens.burn token src amount w.token = .error f ∧ w = w') ∧ err (.ofTokenFailure (classify f)) = e := by
  simp [tryBurn, invokeToken_error]

@[simp] theorem transfer_ok : transfer env token src dst amount w = (.ok u, w') ↔
    ∃ t, env.tokens.transfer token src dst amount w.token = .ok t ∧
      { w with token := t, log := .transfer token src dst amount :: w.log } = w' := by
  rw [transfer, mapErr_ok, invokeToken_ok]

@[simp] theorem burn_ok : burn env token src amount w = (.ok u, w') ↔
    ∃ t, env.tokens.burn token src amount w.token = .ok t ∧
      { w with token := t, log := .burn token src amount :: w.log } = w' := by
  rw [burn, mapErr_ok, invokeToken_ok]

/-! A sequence that starts with a primitive. -/

end Run

end Primitives

end CallStake.StakeVault
