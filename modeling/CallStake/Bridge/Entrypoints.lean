import CallStake.Bridge.Transfers
import CallStake.Lib.Trace

/-!
# The bridge as a system

The entrypoints of the contract around its transfers, and the runs of the contract.

* `Call`, `invoke`: the entrypoints that can change a transfer, a balance, a limit or a setting.
* `Event`, `next`: a call is a transaction (`Tx.exec`); between calls ledgers close, and never go back.
* `Effect env w c w'`: what a call `c` that returned has checked, and what it did to the configuration and
  the books. `step_effect`: a step has an effect, or leaves the storage alone. Every invariant of the books
  is proved from this one case analysis.
-/

namespace CallStake.Bridge

open Tx Store

/-- The entrypoints with their arguments. -/
inductive Call where
  | initializeBridge (admin : Address) (validators : List Address) (requiredValidatorSignatures : Nat)
      (maxTransferAmount dailyTransferLimit : Int) (withdrawDelaySeconds : Nat)
  | registerWrappedAsset (admin : Address) (sourceChain : ChainId) (sourceAsset wrappedAsset : Bytes)
      (decimals : Nat)
  | initiateLockMint (user : Address) (sourceChain destinationChain : ChainId)
      (sourceAsset wrappedAsset : Bytes) (amount : Int) (sourceTxHash : Bytes) (sourceNonce : Nat)
      (destinationRecipient : Bytes)
  | approveLockMint (validator : Address) (transferId : Nat) (signature : Bytes)
  | executeLockMint (admin : Address) (transferId : Nat)
  | initiateBurnUnlock (user : Address) (sourceChain destinationChain : ChainId)
      (sourceAsset wrappedAsset : Bytes) (amount : Int) (destinationRecipient : Bytes)
  | approveBurnUnlock (validator : Address) (transferId : Nat) (signature : Bytes)
  | executeBurnUnlock (admin : Address) (transferId : Nat)
  | setGovernance (admin governance : Address)
  | applyGovernancePause (paused : Bool)
  | updateLiquidityBuffer (admin : Address) (buffer : Int)
  | addSupportedChain (admin : Address) (chain : ChainId)
  | removeSupportedChain (admin : Address) (chain : ChainId)
  | setDeploymentId (admin deploymentId : Address)
  | setWithdrawalRouteLimit (admin : Address) (route : Route) (perMessageLimit aggregateWindowLimit : Int)
      (windowSeconds : Nat)
  | markTransferFailed (admin : Address) (transferId : Nat) (reason : Bytes) (retryable : Bool)
  | retryTransfer (admin : Address) (transferId : Nat)

def invoke (env : Env) : Call → B Unit
  | .initializeBridge admin validators required maxAmount dailyLimit delay =>
    initializeBridge env admin validators required maxAmount dailyLimit delay
  | .registerWrappedAsset admin sourceChain sourceAsset wrappedAsset decimals =>
    registerWrappedAsset env admin sourceChain sourceAsset wrappedAsset decimals
  | .initiateLockMint user sourceChain destinationChain sourceAsset wrappedAsset amount hash nonce recipient =>
    Tx.void (initiateLockMint env user sourceChain destinationChain sourceAsset wrappedAsset amount hash nonce
      recipient)
  | .approveLockMint validator id signature => approveLockMint env validator id signature
  | .executeLockMint admin id => executeLockMint env admin id
  | .initiateBurnUnlock user sourceChain destinationChain sourceAsset wrappedAsset amount recipient =>
    Tx.void (initiateBurnUnlock env user sourceChain destinationChain sourceAsset wrappedAsset amount recipient)
  | .approveBurnUnlock validator id signature => approveBurnUnlock env validator id signature
  | .executeBurnUnlock admin id => executeBurnUnlock env admin id
  | .setGovernance admin governance => setGovernance env admin governance
  | .applyGovernancePause paused => applyGovernancePause env paused
  | .updateLiquidityBuffer admin buffer => updateLiquidityBuffer env admin buffer
  | .addSupportedChain admin chain => addSupportedChain env admin chain
  | .removeSupportedChain admin chain => removeSupportedChain env admin chain
  | .setDeploymentId admin deploymentId => setDeploymentId env admin deploymentId
  | .setWithdrawalRouteLimit admin route perMessageLimit aggregateWindowLimit windowSeconds =>
    setWithdrawalRouteLimit env admin route perMessageLimit aggregateWindowLimit windowSeconds
  | .markTransferFailed admin id reason retryable => markTransferFailed env admin id reason retryable
  | .retryTransfer admin id => retryTransfer env admin id

/-! ## Runs -/

/-- A call, or the time goes on. -/
inductive Event where
  | call (auth : Auth) (c : Call)
  | advance (ledger : Ledger)

section Runs

variable (host : Host)

def next (w : World) : Event → World
  | .call auth c => (invoke ⟨host, auth⟩ c).exec w
  | .advance ledger => { w with ledger }

/-- The call of the event returns. -/
def Accepted (w : World) : Event → Prop
  | .call auth c => (invoke ⟨host, auth⟩ c w).1 = .ok ()
  | .advance _ => False

instance (w : World) : (ev : Event) → Decidable (Accepted host w ev)
  | .call auth c =>
    match h : (invoke ⟨host, auth⟩ c w).1 with
    | .ok () => isTrue h
    | .error e => isFalse fun ha => by
      rw [Accepted, h] at ha
      cases ha
  | .advance _ => inferInstanceAs (Decidable False)

def Allowed (w : World) : Event → Prop
  | .call _ _ => True
  | .advance ledger => w.ledger.Before ledger

instance (w : World) : (ev : Event) → Decidable (Allowed w ev)
  | .call _ _ => inferInstanceAs (Decidable True)
  | .advance ledger => inferInstanceAs (Decidable (w.ledger.Before ledger))

/-- The step relation of the runs. -/
def Step (w : World) (ev : Event) (w' : World) : Prop := Allowed w ev ∧ w' = next host w ev

/-- A contract that was just deployed. -/
def World.deployed (ledger : Ledger) : World := ⟨ledger, .deployed⟩

end Runs

/-! ## The effect of a call -/

/-- The call is one of the two approvals. -/
def Call.approve : TransferKind → Address → Nat → Bytes → Call
  | .lockMint => .approveLockMint
  | .burnUnlock => .approveBurnUnlock

/-- The call only sets something up. -/
def Call.Setting : Call → Prop
  | .registerWrappedAsset .. | .setGovernance .. | .applyGovernancePause .. | .updateLiquidityBuffer ..
  | .addSupportedChain .. | .removeSupportedChain .. | .setDeploymentId .. | .setWithdrawalRouteLimit .. =>
    True
  | _ => False

/-- The limits after a setting: a route that had no window may get one. -/
def WindowsKept (w : World) (limits : Limits) : Prop :=
  limits = w.store.limits ∨ ∃ route, w.store.limits.withdrawalWindows.lookup route = none ∧
    limits = { w.store.limits with
      withdrawalWindows := w.store.limits.withdrawalWindows.insert route ⟨w.ledger.timestamp, 0⟩ }

/-- What a call did to the configuration and the books, with what it has checked. -/
inductive Effect (env : Env) (w : World) : Call → World → Prop where
  | settled {c : Call} {settings : Settings} {limits : Limits} (hc : c.Setting)
      (hlimits : WindowsKept w limits) :
    Effect env w c { w with store.settings := settings, store.limits := limits }
  | initialized {admin : Address} {validators : List Address} {required : Nat} {maxAmount dailyLimit : Int}
      {delay : Nat} (hnone : w.store.config = none) (hnd : validators.Nodup) (hpos : 0 < required)
      (hle : required ≤ validators.length) (hlimit : 0 < dailyLimit) :
    Effect env w (.initializeBridge admin validators required maxAmount dailyLimit delay)
      { w with
        store.config := some ⟨admin, ⟨validators, required⟩, ⟨maxAmount, dailyLimit, required, delay⟩, 1⟩
        store.limits.dailyVolume := some ⟨dayBucket w.ledger.timestamp, 0⟩
        store.settings.deploymentId := some admin }
  | locked {user : Address} {source destination : ChainId} {asset wrapped : Bytes} {amount : Int}
      {hash : Bytes} {nonce : Nat} {recipient : Bytes} {config : BridgeConfig} {t : BridgeTransfer}
      (ht : t = .initiated config.nextTransferId .lockMint user source destination asset wrapped amount hash
        nonce recipient w.ledger.timestamp)
      (hadm : Admitted w config amount (source, destination, wrapped))
      (hfree : w.store.books.replayLocks.lookup t.origin = none) :
    Effect env w (.initiateLockMint user source destination asset wrapped amount hash nonce recipient)
      { w.opened config t with
        store.books.replayLocks := w.store.books.replayLocks.insert t.origin () }
  | burned {user : Address} {source destination : ChainId} {asset wrapped : Bytes} {amount : Int}
      {recipient : Bytes} {config : BridgeConfig} {t : BridgeTransfer}
      (ht : t = .initiated config.nextTransferId .burnUnlock user source destination asset wrapped amount []
        config.nextTransferId recipient w.ledger.timestamp)
      (hadm : Admitted w config amount (source, destination, wrapped))
      (hfunds : amount ≤ (w.store.books.wrappedBalances.lookup (user, wrapped)).getD 0) :
    Effect env w (.initiateBurnUnlock user source destination asset wrapped amount recipient)
      { w.opened config t with
        store.books.wrappedBalances := w.store.books.wrappedBalances.insert (user, wrapped)
          ((w.store.books.wrappedBalances.lookup (user, wrapped)).getD 0 - amount)
        store.books.totalMinted := w.store.books.totalMinted - amount }
  | approved {kind : TransferKind} {validator : Address} {id : Nat} {signature : Bytes}
      {config : BridgeConfig} {t : BridgeTransfer} (hauth : env.auth validator = true)
      (hconfig : w.store.config = some config) (ht : w.store.books.transfers.lookup id = some t)
      (hkind : t.kind = kind) (hopen : t.status ≠ .completed)
      (hmem : validator ∈ config.validatorSet.validators)
      (hnew : validator ∉ t.approvals.map (·.validator))
      (hunused : w.store.books.usedSignatures.lookup (validator, id, kind, signature) = none) :
    Effect env w (.approve kind validator id signature)
      { w.updated (t.approved config.security.requiredValidatorSignatures
          ⟨validator, signature, w.ledger.timestamp, kind⟩) with
        store.books.usedSignatures := w.store.books.usedSignatures.insert (validator, id, kind, signature) () }
  | minted {admin : Address} {id : Nat} {config : BridgeConfig} {t : BridgeTransfer}
      {consumed : Store Bytes Unit} (hauth : env.auth admin = true) (hconfig : w.store.config = some config)
      (hadmin : config.admin = admin) (ht : w.store.books.transfers.lookup id = some t)
      (hkind : t.kind = .lockMint) (hready : t.status = .readyToExecute) :
    Effect env w (.executeLockMint admin id)
      { w.updated (t.executed w.ledger.timestamp) with
        store.books.wrappedBalances := w.store.books.wrappedBalances.insert (t.user, t.wrappedAsset)
          ((w.store.books.wrappedBalances.lookup (t.user, t.wrappedAsset)).getD 0 + t.amount)
        store.books.totalMinted := w.store.books.totalMinted + t.amount
        store.books.consumedMessages := consumed }
  | unlocked {admin : Address} {id : Nat} {config : BridgeConfig} {t : BridgeTransfer}
      (hauth : env.auth admin = true) (hconfig : w.store.config = some config) (hadmin : config.admin = admin)
      (ht : w.store.books.transfers.lookup id = some t) (hkind : t.kind = .burnUnlock)
      (hready : t.status = .readyToExecute)
      (hdelay : t.createdAt + config.security.withdrawDelaySeconds ≤ w.ledger.timestamp) :
    Effect env w (.executeBurnUnlock admin id) (w.updated (t.executed w.ledger.timestamp))
  | failed {admin : Address} {id : Nat} {reason : Bytes} {retryable : Bool} {config : BridgeConfig}
      {t : BridgeTransfer} (hauth : env.auth admin = true) (hconfig : w.store.config = some config)
      (hadmin : config.admin = admin) (ht : w.store.books.transfers.lookup id = some t)
      (hopen : t.status ≠ .completed) (hcancelled : t.status ≠ .cancelled)
      (hretryable : t.status = .failed → t.retryable = true) :
    Effect env w (.markTransferFailed admin id reason retryable)
      (w.updated (t.markedFailed reason retryable))
  | retried {admin : Address} {id : Nat} {config : BridgeConfig} {t : BridgeTransfer}
      (hauth : env.auth admin = true) (hconfig : w.store.config = some config) (hadmin : config.admin = admin)
      (ht : w.store.books.transfers.lookup id = some t) (hfailed : t.status = .failed)
      (hretryable : t.retryable = true) :
    Effect env w (.retryTransfer admin id)
      (w.updated t.retried)

section Effect

variable {env : Env} {w w' : World} {c : Call} {u : Unit}

theorem bind_asAdmin_ok {admin : Address} {β : Type} {b : β} {k : Unit → B β}
    (h : (asAdmin env admin >>= k) w = (.ok b, w')) : k () w = (.ok b, w') := by
  simp only [asAdmin, bind_assoc_eq, bind_requireAdmin_ok, bind_requireAuth_ok] at h
  obtain ⟨-, -, -, -, h⟩ := h
  exact h

/-- A setting changes the settings and, for a route without a window, the windows. -/
theorem setting_effect (hc : c.Setting) (h : invoke env c w = (.ok u, w')) :
    ∃ settings limits, WindowsKept w limits ∧ w' = { w with store.settings := settings, store.limits := limits } := by
  cases c with
  | registerWrappedAsset =>
    simp only [invoke, registerWrappedAsset, bind_requireAdmin_ok, bind_requireAuth_ok, bind_failIf_ok,
      bind_setSettings_ok] at h
    obtain ⟨config, hconfig, -, -, -, -, h⟩ := h
    obtain rfl := Tx.modify_ok.mp h
    rw [← hconfig]
    exact ⟨_, w.store.limits, .inl rfl, rfl⟩
  | setGovernance =>
    obtain rfl := setSettings_ok.mp (bind_asAdmin_ok h)
    exact ⟨_, w.store.limits, .inl rfl, rfl⟩
  | applyGovernancePause =>
    simp only [invoke, applyGovernancePause, bind_load_ok, bind_ofOption_ok, bind_requireAuth_ok, setSettings_ok] at h
    obtain ⟨-, -, -, rfl⟩ := h
    exact ⟨_, w.store.limits, .inl rfl, rfl⟩
  | updateLiquidityBuffer =>
    obtain ⟨-, h⟩ := Tx.bind_failIf_ok.mp (bind_asAdmin_ok h)
    obtain rfl := setSettings_ok.mp h
    exact ⟨_, w.store.limits, .inl rfl, rfl⟩
  | addSupportedChain =>
    have h := bind_asAdmin_ok h
    simp only [bind_load_ok, when_ok, setSettings_ok] at h
    split at h
    · subst h
      exact ⟨_, w.store.limits, .inl rfl, rfl⟩
    · subst h
      exact ⟨w.store.settings, w.store.limits, .inl rfl, rfl⟩
  | removeSupportedChain =>
    obtain rfl := setSettings_ok.mp (bind_asAdmin_ok h)
    exact ⟨_, w.store.limits, .inl rfl, rfl⟩
  | setDeploymentId =>
    obtain rfl := setSettings_ok.mp (bind_asAdmin_ok h)
    exact ⟨_, w.store.limits, .inl rfl, rfl⟩
  | setWithdrawalRouteLimit _ route =>
    have h := bind_asAdmin_ok h
    simp only [bind_failIf_ok, bind_setSettings_ok, bind_load_ok, bind_timestamp_ok, when_ok, setLimits_ok] at h
    obtain ⟨-, h⟩ := h
    split at h
    · rename_i hnone
      subst h
      exact ⟨_, _, .inr ⟨route, hnone, rfl⟩, rfl⟩
    · subst h
      exact ⟨_, w.store.limits, .inl rfl, rfl⟩
  | _ => cases hc

theorem invoke_effect (h : invoke env c w = (.ok u, w')) : Effect env w c w' := by
  cases c with
  | initializeBridge =>
    obtain ⟨hnone, hnd, hpos, hle, hlimit, rfl⟩ := initializeBridge_ok h
    exact .initialized hnone hnd hpos hle hlimit
  | initiateLockMint =>
    obtain ⟨id, h⟩ := Tx.void_ok.mp h
    obtain ⟨config, t, ht, hadm, hfree, -, rfl⟩ := initiateLockMint_ok h
    exact .locked ht hadm hfree
  | approveLockMint validator id signature =>
    obtain ⟨config, t, hauth, hconfig, ht, hkind, hopen, hmem, hnew, hunused, rfl⟩ := approveTransfer_ok h
    have he : Effect env w (.approve .lockMint validator id signature) _ :=
      .approved hauth hconfig ht hkind hopen hmem hnew hunused
    exact he
  | executeLockMint =>
    obtain ⟨config, t, consumed, hauth, hconfig, hadmin, ht, hkind, hready, rfl⟩ := executeLockMint_ok h
    exact .minted hauth hconfig hadmin ht hkind hready
  | initiateBurnUnlock =>
    obtain ⟨id, h⟩ := Tx.void_ok.mp h
    obtain ⟨config, t, ht, hadm, hfunds, -, rfl⟩ := initiateBurnUnlock_ok h
    exact .burned ht hadm hfunds
  | approveBurnUnlock validator id signature =>
    obtain ⟨config, t, hauth, hconfig, ht, hkind, hopen, hmem, hnew, hunused, rfl⟩ := approveTransfer_ok h
    have he : Effect env w (.approve .burnUnlock validator id signature) _ :=
      .approved hauth hconfig ht hkind hopen hmem hnew hunused
    exact he
  | executeBurnUnlock =>
    obtain ⟨config, t, hauth, hconfig, hadmin, ht, hkind, hready, hdelay, rfl⟩ := executeBurnUnlock_ok h
    exact .unlocked hauth hconfig hadmin ht hkind hready hdelay
  | markTransferFailed =>
    obtain ⟨config, t, hauth, hconfig, hadmin, ht, hopen, hcancelled, hretryable, rfl⟩ := markTransferFailed_ok h
    exact .failed hauth hconfig hadmin ht hopen hcancelled hretryable
  | retryTransfer =>
    obtain ⟨config, t, hauth, hconfig, hadmin, ht, hfailed, hretryable, rfl⟩ := retryTransfer_ok h
    exact .retried hauth hconfig hadmin ht hfailed hretryable
  | _ =>
    obtain ⟨settings, limits, hlimits, rfl⟩ := setting_effect (by trivial) h
    exact .settled (by trivial) hlimits

theorem Accepted.run {host : Host} {auth : Auth} (h : Accepted host w (.call auth c)) :
    invoke ⟨host, auth⟩ c w = (.ok (), next host w (.call auth c)) := by
  rcases hx : invoke ⟨host, auth⟩ c w with ⟨r, w₁⟩
  rw [Accepted, hx] at h
  cases h
  rw [next, exec_of_ok hx]

/-- A step is an accepted call with its effect, or leaves the storage alone. -/
theorem step_effect {host : Host} {ev : Event} (h : Step host w ev w') :
    (∃ auth c, ev = .call auth c ∧ Accepted host w ev ∧ Effect ⟨host, auth⟩ w c w') ∨
      (¬ Accepted host w ev ∧ w'.store = w.store ∧ w.ledger.Before w'.ledger) := by
  obtain ⟨hallowed, rfl⟩ := h
  cases ev with
  | advance => exact .inr ⟨id, rfl, hallowed⟩
  | call auth c =>
    rcases hx : invoke ⟨host, auth⟩ c w with ⟨r, w₁⟩
    cases r with
    | ok u =>
      have hnext : next host w (.call auth c) = w₁ := exec_of_ok hx
      rw [hnext]
      exact .inl ⟨auth, c, rfl, by rw [Accepted, hx], invoke_effect hx⟩
    | error e =>
      have hnext : next host w (.call auth c) = w := exec_of_error hx
      rw [hnext]
      exact .inr ⟨by rw [Accepted, hx]; exact nofun, rfl, Nat.le_refl _, Nat.le_refl _⟩

end Effect

/-! ## One transfer -/

/-- Transfers are stored under their ids, and ids are taken in order. -/
structure Ordered (w : World) : Prop where
  keyed : ∀ id t, w.store.books.transfers.lookup id = some t → t.id = id
  fresh : ∀ id t, w.store.books.transfers.lookup id = some t →
    ∃ config, w.store.config = some config ∧ id < config.nextTransferId

/-- What stays of a transfer for good. -/
structure SameTerms (t t' : BridgeTransfer) : Prop where
  kind : t'.kind = t.kind
  user : t'.user = t.user
  wrappedAsset : t'.wrappedAsset = t.wrappedAsset
  amount : t'.amount = t.amount
  origin : t'.origin = t.origin

/-- What a call `c` in `w` can do to the transfer `id`. -/
inductive Change (env : Env) (w : World) (id : Nat) : Call → Option BridgeTransfer → Option BridgeTransfer →
    Prop where
  | same {c : Call} {o : Option BridgeTransfer} : Change env w id c o o
  | opened {c : Call} {t : BridgeTransfer} (hstatus : t.status = .pendingValidators)
      (happrovals : t.approvals = []) (hpos : 0 < t.amount) : Change env w id c none (some t)
  | approved {kind : TransferKind} {validator : Address} {signature : Bytes} {config : BridgeConfig}
      {t : BridgeTransfer} (now : Nat) (hauth : env.auth validator = true)
      (hconfig : w.store.config = some config) (hkind : t.kind = kind) (hopen : t.status ≠ .completed)
      (hmem : validator ∈ config.validatorSet.validators)
      (hnew : validator ∉ t.approvals.map (·.validator))
      (hunused : w.store.books.usedSignatures.lookup (validator, id, kind, signature) = none) :
    Change env w id (.approve kind validator id signature) (some t)
      (some (t.approved config.security.requiredValidatorSignatures ⟨validator, signature, now, kind⟩))
  | executed {c : Call} {t : BridgeTransfer} (now : Nat) (hready : t.status = .readyToExecute) :
    Change env w id c (some t) (some (t.executed now))
  | failed {c : Call} {t : BridgeTransfer} (reason : Bytes) (retryable : Bool) (hopen : t.status ≠ .completed)
      (hretryable : t.status = .failed → t.retryable = true) :
    Change env w id c (some t) (some (t.markedFailed reason retryable))
  | retried {admin : Address} {config : BridgeConfig} {t : BridgeTransfer} (hauth : env.auth admin = true)
      (hconfig : w.store.config = some config) (hadmin : config.admin = admin) (hfailed : t.status = .failed)
      (hretryable : t.retryable = true) :
    Change env w id (.retryTransfer admin id) (some t)
      (some t.retried)

section Ordered

variable {env : Env} {w w' : World} {c : Call} {host : Host} {ev : Event}

theorem Ordered.deployed (ledger : Ledger) : Ordered (.deployed ledger) where
  keyed id t h := by cases h
  fresh id t h := by cases h

theorem Ordered.of_store (h : Ordered w) (hstore : w'.store = w.store) : Ordered w' where
  keyed id t ht := h.keyed id t (by rw [← hstore]; exact ht)
  fresh id t ht := by rw [hstore] at ht ⊢; exact h.fresh id t ht

/-- The next id is free. -/
theorem Ordered.free (h : Ordered w) {config : BridgeConfig} (hconfig : w.store.config = some config) :
    w.store.books.transfers.lookup config.nextTransferId = none := by
  cases ht : w.store.books.transfers.lookup config.nextTransferId with
  | none => rfl
  | some t =>
    obtain ⟨config', hconfig', hlt⟩ := h.fresh _ t ht
    obtain rfl : config = config' := Option.some.inj (hconfig.symm.trans hconfig')
    exact absurd hlt (Nat.lt_irrefl _)

/-- A new transfer takes the next id. -/
theorem Ordered.opened (h : Ordered w) {config : BridgeConfig} {t : BridgeTransfer}
    (hconfig : w.store.config = some config) (hid : t.id = config.nextTransferId) :
    Ordered (w.opened config t) where
  keyed id t' ht' := by
    simp only [World.opened, lookup_insert_eq] at ht'
    split at ht'
    · rename_i heq
      cases ht'
      exact heq.symm
    · exact h.keyed id t' ht'
  fresh id t' ht' := by
    refine ⟨_, rfl, ?_⟩
    simp only [World.opened, lookup_insert_eq] at ht'
    split at ht'
    · rename_i heq
      rw [heq, hid]
      exact Nat.lt_succ_self _
    · obtain ⟨config', hconfig', hlt⟩ := h.fresh id t' ht'
      obtain rfl : config = config' := Option.some.inj (hconfig.symm.trans hconfig')
      exact Nat.lt_succ_of_lt hlt

/-- A transfer keeps its id. -/
theorem Ordered.updated (h : Ordered w) {id : Nat} {t : BridgeTransfer} (t' : BridgeTransfer)
    (ht : w.store.books.transfers.lookup id = some t) (hid : t'.id = t.id) : Ordered (w.updated t') where
  keyed id' t₁ ht₁ := by
    simp only [World.updated, lookup_insert_eq] at ht₁
    split at ht₁
    · rename_i heq
      cases ht₁
      exact heq.symm
    · exact h.keyed id' t₁ ht₁
  fresh id' t₁ ht₁ := by
    simp only [World.updated, lookup_insert_eq] at ht₁
    split at ht₁
    · rename_i heq
      rw [heq, hid, h.keyed id t ht]
      exact h.fresh id t ht
    · exact h.fresh id' t₁ ht₁

/-- The order depends only on the transfers and the configuration. -/
theorem Ordered.congr (h : Ordered w) (hconfig : w'.store.config = w.store.config)
    (htransfers : w'.store.books.transfers = w.store.books.transfers) : Ordered w' where
  keyed id t ht := h.keyed id t (by rw [← htransfers]; exact ht)
  fresh id t ht := by rw [hconfig]; exact h.fresh id t (by rw [← htransfers]; exact ht)

theorem Ordered.effect (h : Ordered w) (he : Effect env w c w') : Ordered w' := by
  cases he with
  | settled => exact h.congr rfl rfl
  | initialized hnone =>
    refine ⟨h.keyed, fun id t ht => ?_⟩
    obtain ⟨config, hconfig, -⟩ := h.fresh id t ht
    rw [hnone] at hconfig
    cases hconfig
  | locked ht hadm =>
    subst ht
    exact (h.opened hadm.configured rfl).congr rfl rfl
  | burned ht hadm =>
    subst ht
    exact (h.opened hadm.configured rfl).congr rfl rfl
  | @approved kind validator id signature config t _ _ ht =>
    exact (h.updated (t.approved config.security.requiredValidatorSignatures _) ht rfl).congr rfl rfl
  | @minted admin id config t consumed _ _ _ ht =>
    exact (h.updated (t.executed w.ledger.timestamp) ht rfl).congr rfl rfl
  | unlocked _ _ _ ht => exact h.updated _ ht rfl
  | failed _ _ _ ht => exact h.updated _ ht rfl
  | retried _ _ _ ht => exact h.updated _ ht rfl

theorem Ordered.step (h : Ordered w) (hs : Step host w ev w') : Ordered w' := by
  obtain ⟨auth, c, -, -, he⟩ | ⟨-, hstore, -⟩ := step_effect hs
  · exact h.effect he
  · exact h.of_store hstore

/-- An update of one transfer, seen from any id. -/
theorem Change.of_updated (h : Ordered w) {id₀ id : Nat} {t t' : BridgeTransfer}
    (ht : w.store.books.transfers.lookup id₀ = some t) (hid : t'.id = t.id)
    (hc : id = id₀ → Change env w id c (some t) (some t')) :
    Change env w id c (w.store.books.transfers.lookup id)
      ((w.store.books.transfers.insert t'.id t').lookup id) := by
  rw [lookup_insert_eq, hid, h.keyed id₀ t ht]
  by_cases heq : id = id₀
  · rw [if_pos heq, heq, ht]
    rw [← heq]
    exact hc heq
  · rw [if_neg heq]
    exact .same

theorem Change.of_opened (h : Ordered w) {config : BridgeConfig} {t : BridgeTransfer} (id : Nat)
    (hconfig : w.store.config = some config) (hid : t.id = config.nextTransferId)
    (hstatus : t.status = .pendingValidators) (happrovals : t.approvals = []) (hpos : 0 < t.amount) :
    Change env w id c (w.store.books.transfers.lookup id)
      ((w.store.books.transfers.insert t.id t).lookup id) := by
  rw [lookup_insert_eq, hid]
  by_cases heq : id = config.nextTransferId
  · rw [if_pos heq, heq, h.free hconfig]
    exact .opened hstatus happrovals hpos
  · rw [if_neg heq]
    exact .same

theorem Effect.change (h : Ordered w) (he : Effect env w c w') (id : Nat) :
    Change env w id c (w.store.books.transfers.lookup id) (w'.store.books.transfers.lookup id) := by
  cases he with
  | settled => exact .same
  | initialized => exact .same
  | locked ht hadm =>
    subst ht
    exact .of_opened h id hadm.configured rfl rfl rfl hadm.pos
  | burned ht hadm =>
    subst ht
    exact .of_opened h id hadm.configured rfl rfl rfl hadm.pos
  | approved hauth hconfig ht hkind hopen hmem hnew hunused =>
    refine .of_updated h ht rfl fun heq => ?_
    subst heq
    exact .approved _ hauth hconfig hkind hopen hmem hnew hunused
  | minted _ _ _ ht _ hready => exact .of_updated h ht rfl fun _ => .executed _ hready
  | unlocked _ _ _ ht _ hready => exact .of_updated h ht rfl fun _ => .executed _ hready
  | failed _ _ _ ht hopen _ hretryable => exact .of_updated h ht rfl fun _ => .failed _ _ hopen hretryable
  | retried hauth hconfig hadmin ht hfailed hretryable =>
    refine .of_updated h ht rfl fun heq => ?_
    subst heq
    exact .retried hauth hconfig hadmin hfailed hretryable

/-- A transfer is never removed, and keeps its terms. -/
theorem Change.sameTerms {id : Nat} {t : BridgeTransfer} {o' : Option BridgeTransfer}
    (h : Change env w id c (some t) o') : ∃ t', o' = some t' ∧ SameTerms t t' := by
  cases h <;> exact ⟨_, rfl, ⟨rfl, rfl, rfl, rfl, rfl⟩⟩

/-- A completed transfer stays completed. -/
theorem Change.completed {id : Nat} {t : BridgeTransfer} {o' : Option BridgeTransfer}
    (h : Change env w id c (some t) o') (hcompleted : t.status = .completed) :
    ∃ t', o' = some t' ∧ t'.status = .completed := by
  cases h with
  | same => exact ⟨t, rfl, hcompleted⟩
  | approved _ _ _ _ hopen => exact absurd hcompleted hopen
  | executed => exact ⟨_, rfl, rfl⟩
  | failed _ _ hopen => exact absurd hcompleted hopen
  | retried _ _ _ hfailed => rw [hcompleted] at hfailed; cases hfailed

/-- A transfer stays where it is, with its terms. -/
theorem Ordered.kept (h : Ordered w) (hs : Step host w ev w') {id : Nat} {t : BridgeTransfer}
    (ht : w.store.books.transfers.lookup id = some t) :
    ∃ t', w'.store.books.transfers.lookup id = some t' ∧ SameTerms t t' := by
  obtain ⟨auth, c, -, -, he⟩ | ⟨-, hstore, -⟩ := step_effect hs
  · have hch := he.change h id
    rw [ht] at hch
    exact hch.sameTerms
  · rw [hstore]
    exact ⟨t, ht, rfl, rfl, rfl, rfl, rfl⟩

theorem Ordered.completed (h : Ordered w) (hs : Step host w ev w') {id : Nat} {t : BridgeTransfer}
    (ht : w.store.books.transfers.lookup id = some t) (hcompleted : t.status = .completed) :
    ∃ t', w'.store.books.transfers.lookup id = some t' ∧ t'.status = .completed := by
  obtain ⟨auth, c, -, -, he⟩ | ⟨-, hstore, -⟩ := step_effect hs
  · have hch := he.change h id
    rw [ht] at hch
    exact hch.completed hcompleted
  · rw [hstore]
    exact ⟨t, ht, hcompleted⟩

/-- The configuration is written once; only the counter of ids changes after that. -/
theorem Effect.config (he : Effect env w c w') {config : BridgeConfig}
    (hconfig : w.store.config = some config) :
    ∃ n, w'.store.config = some { config with nextTransferId := n } := by
  cases he with
  | initialized hnone => rw [hnone] at hconfig; cases hconfig
  | locked _ hadm =>
    obtain rfl : config = _ := Option.some.inj (hconfig.symm.trans hadm.configured)
    exact ⟨_, rfl⟩
  | burned _ hadm =>
    obtain rfl : config = _ := Option.some.inj (hconfig.symm.trans hadm.configured)
    exact ⟨_, rfl⟩
  | _ => exact ⟨config.nextTransferId, hconfig⟩

end Ordered

/-! ## A small bridge -/

namespace Sample

def admin : Address := ⟨1⟩
def alice : Address := ⟨2⟩
def bob : Address := ⟨3⟩
def validators : List Address := [⟨4⟩, ⟨5⟩, ⟨6⟩]

/-- `ETH` and `wETH`. -/
def eth : Bytes := [69, 84, 72]
def weth : Bytes := [119, 69, 84, 72]

/-- A host whose digests keep short payloads apart. -/
def host : Host where
  sha256 b := ⟨(b ++ List.replicate 32 0).take 32, by simp⟩
  addressXdr a := [UInt8.ofNat a.id]
  u32Xdr := toBeBytes 4
  stringXdr := id
  u64Xdr := toBeBytes 8

/-- A call that everyone authorized. -/
def call (c : Call) : Event := .call (fun _ => true) c

/-- Time passes. -/
def wait (timestamp : Nat) : Event := .advance ⟨timestamp, 0⟩

def lock (amount : Int) (hash : Bytes) (nonce : Nat) : Event :=
  call (.initiateLockMint alice .ethereum .polygon eth weth amount hash nonce [])

def approve (validator : Nat) (id : Nat) : Event := call (.approveLockMint ⟨validator⟩ id [])

def burn (amount : Int) : Event := call (.initiateBurnUnlock alice .polygon .ethereum eth weth amount [])

/-- The run of `evs` after the bridge was set up: three validators, two of which are required. -/
def started (evs : List Event) : List Event :=
  call (.initializeBridge admin validators 2 1000 1000 600) ::
    call (.registerWrappedAsset admin .ethereum eth weth 18) :: evs

/-- The history of a run, newest event first. -/
def history (evs : List Event) : List (World × Event) :=
  (Reaches.visited (next host) (.deployed ⟨0, 0⟩) (started evs)).reverse

def final (evs : List Event) : World := (started evs).foldl (next host) (.deployed ⟨0, 0⟩)

/-- A run whose events meet `C` where their turn comes. -/
theorem trace_of_along {C : World → Event → Prop} {evs : List Event}
    (h : Reaches.Along (next host) (fun w ev => C w ev ∧ Allowed w ev) (.deployed ⟨0, 0⟩) (started evs)) :
    Trace (fun a ev b => C a ev ∧ Step host a ev b) (.deployed ⟨0, 0⟩) (history evs) (final evs) :=
  (Trace.of_along h).mono fun _ _ _ ⟨⟨hC, hallowed⟩, he⟩ => ⟨hC, hallowed, he⟩

/-- A run of calls, and of ledgers in order. -/
theorem trace_of_allowed {evs : List Event}
    (h : Reaches.Along (next host) Allowed (.deployed ⟨0, 0⟩) (started evs)) :
    Trace (Step host) (.deployed ⟨0, 0⟩) (history evs) (final evs) := Trace.of_along h

end Sample

end CallStake.Bridge
