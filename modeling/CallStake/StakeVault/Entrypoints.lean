import CallStake.StakeVault.Admin
import CallStake.StakeVault.Emergency
import CallStake.StakeVault.Queue
import CallStake.StakeVault.Reward

/-!
# The vault as a system

The entrypoints of the contract that can change its state, and the runs of the contract: calls in
any order by anyone, ledgers that close in between, and tokens that change hands without the vault.

* `Call`, `invoke`: the state-changing entrypoints (the others are functions of the storage).
* `Event`, `next`: a call is a transaction (`Tx.exec`), so a failed one leaves the state as it was.
-/

namespace CallStake.StakeVault

open Multisig (MultisigConfig)

/-- The entrypoints with their arguments. -/
inductive Call where
  | initializeVault (admin stakeToken signalRegistry : Address)
  | upgrade (newVersion : Nat)
  | upgradeWithMigrationGuard (newVersion nextLayoutVersion : Nat) (requiredKeys : List Symbol)
  | pause
  | unpause
  | setGovernance (admin governance : Address)
  | applyGovernancePause (paused : Bool)
  | depositStake (staker : Address) (amount : Int)
  | setLockMultiplierTier (weeks bps : Nat)
  | setMinimumStakeDuration (durationSecs : Nat)
  | setMinimumStake (minimum : Int)
  | setMultisigConfig (caller : Address) (config : Option MultisigConfig)
  | proposeAction (caller : Address) (payload : Bytes)
  | approveAction (caller : Address) (proposalId : Nat)
  | executeAction (caller : Address) (proposalId : Nat)
  | notifyStakeBelowMinimum (provider : Address)
  | checkSignalSubmissionAllowed (provider : Address)
  | setWithdrawalCooldown (cooldownSecs : Nat)
  | requestWithdrawal (staker : Address)
  | withdrawStake (staker : Address)
  | partialUnstake (staker : Address) (amount : Int)
  | configureSlashTiers (minorBps majorBps criticalBps : Nat)
  | governanceConfigureSlashTiers (governance : Address) (minorBps majorBps criticalBps : Nat)
  | slashStake (caller provider : Address) (severity : SlashSeverity) (reason : Symbol)
  | batchSlashStake (caller : Address) (providers : List Address) (severities : List SlashSeverity)
      (reason : Symbol)
  | setSlashCooldown (ledgers : Nat)
  | setAppealWindow (windowSecs : Nat)
  | appealSlash (appellant : Address) (slashId : Nat) (evidenceUri : String)
  | resolveAppeal (slashId : Nat) (uphold : Bool)
  | batchResolveAppeal (slashIds : List Nat) (upholds : List Bool)
  | configureEmergencyMultisig (caller : Address) (admins : List Address)
      (required penaltyBps timeoutSecs : Nat)
  | requestEmergencyUnstake (staker : Address)
  | approveEmergencyUnstake (signer staker : Address)
  | expireEmergencyRequest (staker : Address)
  | setEmergencyCooldown (caller : Address) (cooldownSecs : Nat)
  | delegateStake (delegator provider : Address) (amount : Int)
  | queueUnstake (staker : Address)
  | setMaxUnstakeQueueSize (size : Nat)
  | processUnstakeQueue (limit : Nat)
  | addRewardAsset (asset : Address)
  | depositReward (depositor provider asset : Address) (amount : Int) (epoch : Nat)
  | batchClaimRewards (provider : Address) (bucketIds : List Nat)
  | setSlashStrategy (strategyName : Symbol) (cfg : SlashStrategyConfig)

variable {τ : Type}

def invoke (env : Env τ) : Call → V τ Unit
  | .initializeVault admin token registry => initializeVault admin token registry
  | .upgrade newVersion => upgrade env newVersion
  | .upgradeWithMigrationGuard newVersion nextLayout keys =>
    upgradeWithMigrationGuard env newVersion nextLayout keys
  | .pause => pause env
  | .unpause => unpause env
  | .setGovernance admin governance => setGovernance env admin governance
  | .applyGovernancePause paused => applyGovernancePause env paused
  | .depositStake staker amount => depositStake env staker amount
  | .setLockMultiplierTier weeks bps => setLockMultiplierTier env weeks bps
  | .setMinimumStakeDuration secs => setMinimumStakeDuration env secs
  | .setMinimumStake minimum => setMinimumStake env minimum
  | .setMultisigConfig caller config => setMultisigConfig env caller config
  | .proposeAction caller payload => Tx.void (proposeAction env caller payload)
  | .approveAction caller proposalId => Tx.void (approveAction env caller proposalId)
  | .executeAction caller proposalId => executeAction env caller proposalId
  | .notifyStakeBelowMinimum provider => notifyStakeBelowMinimum provider
  | .checkSignalSubmissionAllowed provider => checkSignalSubmissionAllowed provider
  | .setWithdrawalCooldown secs => setWithdrawalCooldown env secs
  | .requestWithdrawal staker => requestWithdrawal env staker
  | .withdrawStake staker => Tx.void (withdrawStake env staker)
  | .partialUnstake staker amount => Tx.void (partialUnstake env staker amount)
  | .configureSlashTiers minor major critical => configureSlashTiers env minor major critical
  | .governanceConfigureSlashTiers governance minor major critical =>
    governanceConfigureSlashTiers env governance minor major critical
  | .slashStake caller provider severity reason =>
    Tx.void (slashStake env caller provider severity reason)
  | .batchSlashStake caller providers severities reason =>
    Tx.void (batchSlashStake env caller providers severities reason)
  | .setSlashCooldown ledgers => setSlashCooldown env ledgers
  | .setAppealWindow secs => setAppealWindow env secs
  | .appealSlash appellant slashId uri => appealSlash env appellant slashId uri
  | .resolveAppeal slashId uphold => resolveAppeal env slashId uphold
  | .batchResolveAppeal slashIds upholds => Tx.void (batchResolveAppeal env slashIds upholds)
  | .configureEmergencyMultisig caller admins required penalty timeout =>
    EmergencyUnstake.configureEmergencyMultisig env caller admins required penalty timeout
  | .requestEmergencyUnstake staker => EmergencyUnstake.requestEmergencyUnstake env staker
  | .approveEmergencyUnstake signer staker =>
    EmergencyUnstake.approveEmergencyUnstake env signer staker
  | .expireEmergencyRequest staker => EmergencyUnstake.expireEmergencyRequest staker
  | .setEmergencyCooldown caller secs => EmergencyUnstake.setEmergencyCooldown env caller secs
  | .delegateStake delegator provider amount => delegateStake env delegator provider amount
  | .queueUnstake staker => Tx.void (queueUnstake env staker)
  | .setMaxUnstakeQueueSize size => setMaxUnstakeQueueSize env size
  | .processUnstakeQueue limit => Tx.void (processUnstakeQueue env limit)
  | .addRewardAsset asset => RewardVault.addRewardAsset env asset
  | .depositReward depositor provider asset amount epoch =>
    Tx.void (RewardVault.depositReward env depositor provider asset amount epoch)
  | .batchClaimRewards provider ids => Tx.void (RewardVault.batchClaimRewards env provider ids)
  | .setSlashStrategy name cfg => setSlashStrategy env name cfg

/-! ## Runs -/

/-- What can happen next: a call with its authorizations, the next ledger, or a change of the token
contracts that the vault has no part in. -/
inductive Event (τ : Type) where
  | call (auth : Auth) (c : Call)
  | advance (ledger : Ledger)
  | external (token : τ)

section Runs

variable (T : Tokens τ) (self : Address)

def next (w : World τ) : Event τ → World τ
  | .call auth c => (invoke ⟨T, self, auth⟩ c).exec w
  | .advance ledger => { w with ledger }
  | .external token => { w with token }

def Allowed (w : World τ) : Event τ → Prop
  | .call auth _ => auth self = false
  | .advance ledger => w.ledger.Before ledger
  | .external _ => True

/-- The contract never authorizes a call to itself, and the ledger never goes back. -/
def Step (w : World τ) (ev : Event τ) (w' : World τ) : Prop := Allowed self w ev ∧ w' = next T self w ev

/-- A contract that was just deployed. -/
def World.deployed (ledger : Ledger) (token : τ) : World τ := ⟨ledger, .deployed, token, []⟩

/-- The states of runs from a deployed contract. -/
def Reachable (w : World τ) : Prop := ∃ ledger token, Reaches (Step T self) (World.deployed ledger token) w

instance (w : World τ) (ev : Event τ) : Decidable (Allowed self w ev) :=
  match ev with
  | .call auth _ => inferInstanceAs (Decidable (auth self = false))
  | .advance ledger => inferInstanceAs (Decidable (w.ledger.Before ledger))
  | .external _ => inferInstanceAs (Decidable True)

/-- The world after a list of events. -/
def run (w : World τ) (evs : List (Event τ)) : World τ := evs.foldl (next T self) w

theorem reachable_run {ledger : Ledger} {token : τ} {evs : List (Event τ)}
    (h : Reaches.Along (next T self) (Allowed self) (World.deployed ledger token) evs) :
    Reachable T self (run T self (World.deployed ledger token) evs) :=
  ⟨ledger, token, Reaches.of_along h⟩

end Runs

/-! ## A small vault -/

/-! The vault of the concrete runs: everyone but the vault holds the same amount of the token. -/

namespace Sample

def vault : Address := ⟨0⟩
def admin : Address := ⟨1⟩
def stakeToken : Address := ⟨2⟩
def registry : Address := ⟨3⟩
def alice : Address := ⟨4⟩
def bob : Address := ⟨5⟩

def funds : Balances where
  of _ a := if a = vault then 0 else 2 ^ 126
  bounds _ a := by by_cases h : a = vault <;> simp [h, i128Max]

/-- A token that accepts everything. -/
def freeTokens : Tokens Unit where
  transfer _ _ _ _ _ := .ok ()
  burn _ _ _ _ := .ok ()
  balance _ _ _ := 0

/-- A call that everyone but the vault authorized. -/
def call (c : Call) : Event τ := .call (fun a => a ≠ vault) c

/-- The run of `calls` after the initialization, at the first ledger. -/
def started (T : Tokens τ) (t : τ) (calls : List (Event τ)) : World τ :=
  run T vault (World.deployed ⟨0, 0⟩ t)
    (call (.initializeVault admin stakeToken registry) :: calls)

end Sample

end CallStake.StakeVault
