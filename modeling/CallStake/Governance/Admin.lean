import CallStake.Governance.Types

/-!
# Who may call: guards, key rotation, capabilities, shadow mode

The checks that the entrypoints share, and the entrypoints that change who passes them.

* `requireAdmin` takes the authorization of the caller; `requireAdminIdentity` only compares, and the
  authorization is taken by `executeAdminAction`. The host refuses to take the authorization of one
  address twice in one call; here the second time is granted, so a few entrypoints that the host stops
  (`setDepositConfig`, `setCategoryThresholds`, the timelocked shadow mode) get further than they do.
* `acceptKeyRotation` takes no authorization.
* `emergencyRevokeAdmin` leaves the contract uninitialized.
-/

namespace CallStake.Governance

open Tx

open Capabilities (Capability)

/-! ## Guards -/

def requireInitialized : G Unit := do
  let initialized ← load (·.core.initialized)
  failIf (initialized = false) (err .notInitialized)

def requireNotPaused : G Unit := do
  let paused ← load (·.core.paused)
  failIf (paused = true) (err .contractPaused)

def storedAdmin : G Address := do
  let admin ← load (·.core.admin)
  Tx.ofOption admin (err .notInitialized)

def requireAdminIdentity (caller : Address) : G Unit := do
  requireInitialized
  let admin ← storedAdmin
  failIf (admin ≠ caller) (err .unauthorized)

def requireAdmin (auth : Auth) (caller : Address) : G Unit := do
  requireInitialized
  requireAuth auth caller
  requireAdminIdentity caller

def requireNoTimelockBypass : G Unit := do
  let enforced ← load (·.core.enforceAdminTimelock)
  failIf (enforced = true) (err .timelockBypassBlocked)

/-- The holder of a capability, or the stored administrator. -/
def requireCapability (auth : Auth) (caller : Address) (capability : Capability) : G Unit := do
  requireInitialized
  requireAuth auth caller
  let held ← load fun s => Capabilities.hasCapability s.capability caller capability
  if held = true then pure ()
  else do
    let admin ← storedAdmin
    failIf (admin ≠ caller) (err .unauthorized)

def getTotalSupply : G Int := do
  let metadata ← load (·.token.metadata)
  let metadata ← Tx.ofOption metadata (err .notInitialized)
  return metadata.totalSupply

/-! ## Key rotation -/

def proposeKeyRotation (auth : Auth) (admin newAdmin : Address) : G Unit := do
  requireAdmin auth admin
  failIf (newAdmin = admin) (err .invalidMetadata)
  save fun s => { s with core.pendingAdmin := some newAdmin }

def acceptKeyRotation (newAdmin : Address) : G Unit := do
  let pending ← load (·.core.pendingAdmin)
  let pending ← Tx.ofOption pending (err .unauthorized)
  failIf (pending ≠ newAdmin) (err .unauthorized)
  save fun s => { s with core.admin := some newAdmin }
  save fun s => { s with core.pendingAdmin := none }

def cancelKeyRotation (auth : Auth) (admin : Address) : G Unit := do
  requireAdmin auth admin
  save fun s => { s with core.pendingAdmin := none }

def emergencyRevokeAdmin (auth : Auth) (guardian : Address) : G Unit := do
  let stored ← load (·.core.guardian)
  let stored ← Tx.ofOption stored (err .unauthorized)
  failIf (stored ≠ guardian) (err .unauthorized)
  requireAuth auth guardian
  save fun s => { s with core.admin := none }
  save fun s => { s with core.pendingAdmin := none }
  save fun s => { s with core.initialized := false }

def writeGuardian (guardian : Address) : G Unit := save fun s => { s with core.guardian := some guardian }

def setGuardian (auth : Auth) (admin guardian : Address) : G Unit := do
  requireAdmin auth admin
  requireNoTimelockBypass
  writeGuardian guardian

def setContractPaused (auth : Auth) (admin : Address) (paused : Bool) : G Unit := do
  requireCapability auth admin .pause
  save fun s => { s with core.paused := paused }

def enforceAdminTimelock (auth : Auth) (admin : Address) : G Unit := do
  requireAdmin auth admin
  save fun s => { s with core.enforceAdminTimelock := true }

/-! ## Capabilities -/

/-- `capabilities::grant_capability`. -/
def writeGrant (caller target : Address) (capability : Capability) : G Unit :=
  save fun s => { s with
    capability := Capabilities.grantCapability s.capability caller target capability }

/-- `capabilities::revoke_capability`. -/
def eraseGrant (caller target : Address) (capability : Capability) : G Unit :=
  save fun s => { s with
    capability := Capabilities.revokeCapability s.capability caller target capability }

def grantCapability (auth : Auth) (caller target : Address) (capability : Capability) : G Unit := do
  requireInitialized
  requireCapability auth caller .superAdmin
  requireNoTimelockBypass
  writeGrant caller target capability

def revokeCapability (auth : Auth) (caller target : Address) (capability : Capability) : G Unit := do
  requireInitialized
  requireCapability auth caller .superAdmin
  requireNoTimelockBypass
  eraseGrant caller target capability

/-! ## Shadow mode (`shadow_mode`) -/

namespace ShadowMode

def enterShadowMode (auth : Auth) (admin : Address) (newWasmHash : Bytes)
    (trialDurationSeconds : Nat) : G ShadowModeState := do
  requireAdmin auth admin
  failIf (newWasmHash.length ≠ 32) (err .invalidProposal)
  failIf (trialDurationSeconds = 0) (err .invalidDuration)
  let now ← timestamp
  let state := { trialEndsAt := u64Add now trialDurationSeconds, newWasmHash, promoted := false }
  save fun s => { s with shadow := some state }
  return state

def promoteFromShadowMode (auth : Auth) (admin : Address) : G Unit := do
  requireAdmin auth admin
  let state ← load (·.shadow)
  let state ← Tx.ofOption state (err .notInitialized)
  save fun s => { s with shadow := some { state with promoted := true } }

def cancelShadowMode (auth : Auth) (admin : Address) : G Unit := do
  requireAdmin auth admin
  let state ← load (·.shadow)
  failIf (state.isNone = true) (err .notInitialized)
  save fun s => { s with shadow := none }

end ShadowMode

def enterShadowMode (auth : Auth) (admin : Address) (newWasmHash : Bytes)
    (trialDurationSeconds : Nat) : G ShadowModeState := do
  requireInitialized
  requireNoTimelockBypass
  ShadowMode.enterShadowMode auth admin newWasmHash trialDurationSeconds

def promoteFromShadowMode (auth : Auth) (admin : Address) : G Unit := do
  requireInitialized
  requireNoTimelockBypass
  ShadowMode.promoteFromShadowMode auth admin

def cancelShadowMode (auth : Auth) (admin : Address) : G Unit := do
  requireInitialized
  ShadowMode.cancelShadowMode auth admin

/-! ## What passed a guard -/

section Run

variable {w w' : World} {u : Unit} {auth : Auth} {caller addr : Address} {capability : Capability}

@[simp] theorem requireInitialized_ok : requireInitialized w = (.ok u, w') ↔
    w.store.core.initialized = true ∧ w = w' := by
  simp [requireInitialized]

@[simp] theorem requireNotPaused_ok : requireNotPaused w = (.ok u, w') ↔
    w.store.core.paused = false ∧ w = w' := by
  simp [requireNotPaused]

@[simp] theorem storedAdmin_ok : storedAdmin w = (.ok addr, w') ↔
    w.store.core.admin = some addr ∧ w = w' := by
  simp [storedAdmin]

@[simp] theorem requireAdminIdentity_ok : requireAdminIdentity caller w = (.ok u, w') ↔
    (w.store.core.initialized = true ∧ w.store.core.admin = some caller) ∧ w = w' := by
  simp [requireAdminIdentity, and_assoc]

@[simp] theorem requireAdmin_ok : requireAdmin auth caller w = (.ok u, w') ↔
    (w.store.core.initialized = true ∧ auth caller = true ∧ w.store.core.admin = some caller) ∧ w = w' := by
  simp [requireAdmin]
  constructor
  · rintro ⟨hi, ⟨ha, rfl⟩, -, hc⟩
    exact ⟨⟨hi, ha, hc⟩, rfl⟩
  · rintro ⟨⟨hi, ha, hc⟩, rfl⟩
    exact ⟨hi, ⟨ha, rfl⟩, hi, hc⟩

@[simp] theorem requireNoTimelockBypass_ok : requireNoTimelockBypass w = (.ok u, w') ↔
    w.store.core.enforceAdminTimelock = false ∧ w = w' := by
  simp [requireNoTimelockBypass]

/-- A capability check passes for a holder of the capability and for the stored administrator. -/
@[simp] theorem requireCapability_ok : requireCapability auth caller capability w = (.ok u, w') ↔
    (w.store.core.initialized = true ∧ auth caller = true ∧
      (Capabilities.hasCapability w.store.capability caller capability = true ∨
        w.store.core.admin = some caller)) ∧ w = w' := by
  unfold requireCapability
  simp only [bind_ok, requireInitialized_ok, requireAuth_ok, load_ok]
  constructor
  · rintro ⟨_, _, ⟨hi, rfl⟩, _, _, ⟨ha, rfl⟩, held, _, ⟨hheld, rfl⟩, h⟩
    split at h
    · rename_i ht
      exact ⟨⟨hi, ha, .inl (hheld.trans ht)⟩, (Tx.pure_ok.mp h).2⟩
    · simp at h
      exact ⟨⟨hi, ha, .inr h.1⟩, h.2⟩
  · rintro ⟨⟨hi, ha, hc⟩, rfl⟩
    refine ⟨(), _, ⟨hi, rfl⟩, (), _, ⟨ha, rfl⟩, _, _, ⟨rfl, rfl⟩, ?_⟩
    split
    · simp
    · rename_i hn
      simpa using hc.resolve_left hn

@[simp] theorem getTotalSupply_ok {supply : Int} : getTotalSupply w = (.ok supply, w') ↔
    (∃ metadata, w.store.token.metadata = some metadata ∧ metadata.totalSupply = supply) ∧ w = w' := by
  simp [getTotalSupply]
  constructor
  · rintro ⟨metadata, ⟨hm, hw⟩, hs⟩
    exact ⟨⟨metadata, hm, hs⟩, hw⟩
  · rintro ⟨⟨metadata, hm, hs⟩, hw⟩
    exact ⟨metadata, ⟨hm, hw⟩, hs⟩

end Run

end CallStake.Governance
