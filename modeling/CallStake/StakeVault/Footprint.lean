import CallStake.StakeVault.Entrypoints

/-!
# What each entrypoint can write

The parts of the world a call may change. Everything else is as it was, whether the call succeeds or
fails, so an invariant about some parts needs only the calls that write them.

* `Call.footprint`: the regions that a call writes.
* `invoke_writes`: a call writes nothing outside of its footprint.
-/

namespace CallStake.StakeVault

/-- The parts of the storage, and the tokens with the log of their movements. -/
inductive Region where
  | config
  | stake
  | slash
  | queue
  | guards
  | emergency
  | multisig
  | rate
  | reward
  | strategy
  | token
  deriving DecidableEq

variable {τ : Type}

/-- The two worlds differ at most in the regions `rs`. -/
structure SameOutside (rs : List Region) (w w' : World τ) : Prop where
  ledger : w'.ledger = w.ledger
  config : .config ∉ rs → w'.store.config = w.store.config
  stake : .stake ∉ rs → w'.store.stake = w.store.stake
  slash : .slash ∉ rs → w'.store.slash = w.store.slash
  queue : .queue ∉ rs → w'.store.queue = w.store.queue
  guards : .guards ∉ rs → w'.store.guards = w.store.guards
  emergency : .emergency ∉ rs → w'.store.emergency = w.store.emergency
  multisig : .multisig ∉ rs → w'.store.multisig = w.store.multisig
  rate : .rate ∉ rs → w'.store.rate = w.store.rate
  reward : .reward ∉ rs → w'.store.reward = w.store.reward
  strategy : .strategy ∉ rs → w'.store.strategy = w.store.strategy
  token : .token ∉ rs → w'.token = w.token ∧ w'.log = w.log

instance (rs : List Region) : IsPreorder (World τ) (SameOutside rs) where
  refl _ := ⟨rfl, fun _ => rfl, fun _ => rfl, fun _ => rfl, fun _ => rfl, fun _ => rfl, fun _ => rfl,
    fun _ => rfl, fun _ => rfl, fun _ => rfl, fun _ => rfl, fun _ => ⟨rfl, rfl⟩⟩
  trans _ _ _ h h' :=
    ⟨h'.ledger.trans h.ledger, fun n => (h'.config n).trans (h.config n),
      fun n => (h'.stake n).trans (h.stake n), fun n => (h'.slash n).trans (h.slash n),
      fun n => (h'.queue n).trans (h.queue n), fun n => (h'.guards n).trans (h.guards n),
      fun n => (h'.emergency n).trans (h.emergency n),
      fun n => (h'.multisig n).trans (h.multisig n), fun n => (h'.rate n).trans (h.rate n),
      fun n => (h'.reward n).trans (h.reward n), fun n => (h'.strategy n).trans (h.strategy n),
      fun n => ⟨(h'.token n).1.trans (h.token n).1, (h'.token n).2.trans (h.token n).2⟩⟩

/-- `x` writes at most the regions `rs`. -/
abbrev Writes {α : Type} (rs : List Region) (x : V τ α) : Prop := Tx.Within (SameOutside rs) x

/-! ## Primitives -/

-- the proofs that instance resolution builds grow with the length of a computation
set_option synthInstance.maxSize 1000000000

open Tx

section Primitives

variable {R : World τ → World τ → Prop} [IsPreorder (World τ) R] {α : Type}

instance (g : Storage → α) : Within R (load g : V τ α) := within_gets _

instance : Within R (timestamp : V τ Nat) := within_gets _

instance : Within R (sequence : V τ Nat) := within_gets _

instance (auth : Auth) (a : Address) : Within R (requireAuth auth a : V τ Unit) := within_failIf _ _

instance : Within R (getStakeToken : V τ Address) := by
  unfold getStakeToken
  infer_instance

end Primitives

section Writes

variable {rs : List Region} {env : Env τ} {token src dst : Address} {amount : Int}

instance [h : Fact (.token ∈ rs)] (op : τ → Except InvokeFailure τ) (entry : LogEntry) :
    Within (SameOutside rs) (invokeToken op entry) where
  moves w := by
    unfold invokeToken
    split
    · constructor <;> simp [h.out]
    · exact refl_of (SameOutside rs) w

instance [Fact (.token ∈ rs)] : Writes rs (tryTransfer env token src dst amount) := by
  unfold tryTransfer
  infer_instance

instance [Fact (.token ∈ rs)] : Writes rs (tryBurn env token src amount) := by
  unfold tryBurn
  infer_instance

instance [Fact (.token ∈ rs)] : Writes rs (transfer env token src dst amount) := by
  unfold transfer
  infer_instance

instance [Fact (.token ∈ rs)] : Writes rs (burn env token src amount) := by
  unfold burn
  infer_instance

/-- A write of the storage writes the regions in which the two storages differ. -/
theorem writes_save {g : Storage → Storage}
    (h : ∀ w : World τ, SameOutside rs w { w with store := g w.store }) :
    Writes rs (save g : V τ Unit) := ⟨h⟩

/-! Each write of the source replaces one part of the storage. -/

instance [h : Fact (.config ∈ rs)] (g : Storage → ConfigStorage) :
    Writes rs (save fun s => { s with config := g s } : V τ Unit) :=
  writes_save fun _ => by constructor <;> simp [h.out]

instance [h : Fact (.stake ∈ rs)] (g : Storage → StakeStorage) :
    Writes rs (save fun s => { s with stake := g s } : V τ Unit) :=
  writes_save fun _ => by constructor <;> simp [h.out]

instance [h : Fact (.slash ∈ rs)] (g : Storage → SlashStorage) :
    Writes rs (save fun s => { s with slash := g s } : V τ Unit) :=
  writes_save fun _ => by constructor <;> simp [h.out]

instance [h : Fact (.queue ∈ rs)] (g : Storage → QueueStorage) :
    Writes rs (save fun s => { s with queue := g s } : V τ Unit) :=
  writes_save fun _ => by constructor <;> simp [h.out]

instance [h : Fact (.guards ∈ rs)] (g : Storage → GuardStorage) :
    Writes rs (save fun s => { s with guards := g s } : V τ Unit) :=
  writes_save fun _ => by constructor <;> simp [h.out]

instance [h : Fact (.emergency ∈ rs)] (g : Storage → EmergencyStorage) :
    Writes rs (save fun s => { s with emergency := g s } : V τ Unit) :=
  writes_save fun _ => by constructor <;> simp [h.out]

instance [h : Fact (.rate ∈ rs)] (g : Storage → RateLimit.RateStorage) :
    Writes rs (save fun s => { s with rate := g s } : V τ Unit) :=
  writes_save fun _ => by constructor <;> simp [h.out]

instance [h : Fact (.reward ∈ rs)] (g : Storage → RewardStorage) :
    Writes rs (save fun s => { s with reward := g s } : V τ Unit) :=
  writes_save fun _ => by constructor <;> simp [h.out]

instance [h : Fact (.strategy ∈ rs)] (g : Storage → StrategyStorage) :
    Writes rs (save fun s => { s with strategy := g s } : V τ Unit) :=
  writes_save fun _ => by constructor <;> simp [h.out]

end Writes

/-! ## Loops and shared parts -/

section Parts

variable {rs : List Region} {env : Env τ} {staker provider token : Address} {amount : Int}

section Withdraw

variable [Fact (.stake ∈ rs)] [Fact (.guards ∈ rs)] [Fact (.token ∈ rs)]

instance : Writes rs (doWithdraw env staker) := by
  unfold doWithdraw withWithdrawLock doWithdrawLocked checkTimelock
  infer_instance

instance : Writes rs (doPartialUnstake env staker amount) := by
  unfold doPartialUnstake withWithdrawLock doPartialUnstakeLocked checkTimelock
  infer_instance

end Withdraw

instance [Fact (.rate ∈ rs)] : Writes rs (recordStakeChange staker : V τ Unit) := by
  unfold recordStakeChange
  infer_instance

section Slash

variable [Fact (.stake ∈ rs)] [Fact (.slash ∈ rs)] [Fact (.token ∈ rs)]

instance {severity : SlashSeverity} {reason : Symbol} : Writes rs (doSlash env provider severity reason) := by
  unfold doSlash holdOrBurn
  infer_instance

instance {reason : Symbol} (l : List (Address × SlashSeverity)) : Writes rs (slashEntries env reason l) := by
  induction l with
  | nil => exact within_pure _
  | cons e l ih =>
    unfold slashEntries
    infer_instance

instance {slashId : Nat} {uphold : Bool} : Writes rs (doResolveAppeal env slashId uphold) := by
  unfold doResolveAppeal upholdSlash reverseSlash
  infer_instance

instance (l : List (Nat × Bool)) : Writes rs (resolveEntries env l) := by
  induction l with
  | nil => exact within_pure _
  | cons e l ih =>
    unfold resolveEntries
    infer_instance

instance [Fact (.config ∈ rs)] (action : Action) : Writes rs (performAction env action) := by
  unfold performAction setPaused validateSlashTiers validateCooldown
  split <;> infer_instance

end Slash

instance [Fact (.queue ∈ rs)] [Fact (.rate ∈ rs)] [h : Fact (.token ∈ rs)] {head : Nat} {request : UnstakeRequest} :
    Writes rs (finishRequest head request amount : V τ Unit) := by
  have (ticket : Nat) : Writes rs (emitUnstakeProcessed request.user ticket amount : V τ Unit) :=
    ⟨fun _ => by constructor <;> simp [emitUnstakeProcessed, Tx.modify, h.out]⟩
  unfold finishRequest
  infer_instance

instance [Fact (.stake ∈ rs)] [Fact (.queue ∈ rs)] [Fact (.guards ∈ rs)] [Fact (.rate ∈ rs)] [Fact (.token ∈ rs)]
    {limit tail fuel processed head : Nat} : Writes rs (processLoop env limit tail fuel processed head) := by
  induction fuel generalizing processed head with
  | zero => exact within_pure _
  | succ fuel ih =>
    refine within_ite (within_bind inferInstance fun entry => ?_) (within_pure _)
    cases entry with
    | none => exact ih
    | some request =>
      refine within_bind inferInstance fun result => ?_
      cases result <;> infer_instance

instance [Fact (.reward ∈ rs)] [Fact (.token ∈ rs)] (l : List (Address × Int)) :
    Writes rs (RewardVault.payAssets env provider l) := by
  induction l with
  | nil => exact within_pure _
  | cons e l ih =>
    unfold RewardVault.payAssets
    infer_instance

instance {α : Type} [h : Fact (.multisig ∈ rs)] {f : Multisig.MultisigError → StakeVaultError}
    {x : Multisig.M α} : Writes rs (onMultisig f x : V τ α) :=
  within_mapErr _ (within_zoom _ fun _ _ => by constructor <;> simp [h.out])

section Emergency

variable [Fact (.stake ∈ rs)] [Fact (.token ∈ rs)]

instance {penaltyBps : Nat} : Writes rs (EmergencyUnstake.executeEarlyUnstake env staker token penaltyBps) := by
  unfold EmergencyUnstake.executeEarlyUnstake EmergencyUnstake.burnIfPositive EmergencyUnstake.transferIfPositive
  infer_instance

instance [Fact (.emergency ∈ rs)] {signer : Address} :
    Writes rs (EmergencyUnstake.approve env signer staker token) := by
  unfold EmergencyUnstake.approve EmergencyUnstake.getConfig EmergencyUnstake.getRequest
    EmergencyUnstake.removeRequest EmergencyUnstake.saveRequest EmergencyUnstake.setLastUnstakeAt
  infer_instance

end Emergency

end Parts

/-! ## Entrypoints -/

/-- The regions that a call may write. -/
def Call.footprint : Call → List Region
  | .setMultisigConfig .. | .proposeAction .. | .approveAction .. => [.multisig]
  | .executeAction .. => [.config, .stake, .slash, .multisig, .token]
  | .notifyStakeBelowMinimum .. | .checkSignalSubmissionAllowed .. | .requestWithdrawal .. =>
    [.guards]
  | .depositStake .. => [.stake, .guards, .token]
  | .withdrawStake .. | .partialUnstake .. => [.stake, .guards, .rate, .token]
  | .slashStake .. | .batchSlashStake .. | .resolveAppeal .. | .batchResolveAppeal .. =>
    [.stake, .slash, .token]
  | .appealSlash .. => [.slash]
  | .configureEmergencyMultisig .. | .requestEmergencyUnstake .. | .expireEmergencyRequest .. |
    .setEmergencyCooldown .. => [.emergency]
  | .approveEmergencyUnstake .. => [.stake, .emergency, .token]
  | .delegateStake .. => [.stake, .token]
  | .queueUnstake .. => [.queue]
  | .processUnstakeQueue .. => [.stake, .queue, .guards, .rate, .token]
  | .addRewardAsset .. => [.reward]
  | .depositReward .. | .batchClaimRewards .. => [.reward, .token]
  | .setSlashStrategy .. => [.strategy]
  | _ => [.config]

/-- A call writes nothing outside of its footprint. -/
theorem invoke_writes (env : Env τ) (c : Call) : Writes c.footprint (invoke env c) := by
  cases c
  case setMultisigConfig caller config =>
    simp only [invoke, Call.footprint, setMultisigConfig]
    cases config <;> infer_instance
  all_goals
    simp [invoke, Call.footprint, initializeVault, upgrade, guardUpgrade, upgradeWithMigrationGuard,
      guardStorageUpgrade, pause, unpause, setPaused, setGovernance, applyGovernancePause, depositStake,
      setLockMultiplierTier, setMinimumStakeDuration, setMinimumStake, proposeAction, approveAction,
      executeAction, notifyStakeBelowMinimum, checkSignalSubmissionAllowed, setWithdrawalCooldown,
      validateCooldown, requestWithdrawal, withdrawStake, partialUnstake, checkStakeChange, configureSlashTiers,
      governanceConfigureSlashTiers, setSlashTiers, validateSlashTiers, slashStake, batchSlashStake,
      requireSignalRegistry, setSlashCooldown, setAppealWindow, appealSlash, resolveAppeal, batchResolveAppeal,
      delegateStake, queueUnstake, setMaxUnstakeQueueSize, processUnstakeQueue, setSlashStrategy, requireAdmin,
      expectAdmin, requireNoMultisig, requireNotPaused, requireNotLocked,
      EmergencyUnstake.configureEmergencyMultisig, EmergencyUnstake.configure, EmergencyUnstake.requireIsAdmin,
      EmergencyUnstake.requestEmergencyUnstake, EmergencyUnstake.request, EmergencyUnstake.getConfig,
      EmergencyUnstake.getRequest, EmergencyUnstake.saveRequest, EmergencyUnstake.removeRequest,
      EmergencyUnstake.approveEmergencyUnstake, EmergencyUnstake.expireEmergencyRequest,
      EmergencyUnstake.expireRequest, EmergencyUnstake.setEmergencyCooldown, EmergencyUnstake.setCooldown,
      RewardVault.addRewardAsset, RewardVault.depositReward, RewardVault.batchClaimRewards]
    infer_instance

end CallStake.StakeVault
