import CallStake.StakeVault.Slash

/-!
# Emergency unstakes (`emergency_unstake`)

A staker asks for an early unstake; once enough of the configured administrators have approved the
request, the whole stake is paid out less a penalty, which is burned.

* `configure`, `setCooldown`, `request`, `approve`, `expireRequest` and the entrypoints around them.
* `executeEarlyUnstake_ok`: the payout empties the stake and moves its balance out of the vault.
* `approveEmergencyUnstake_ok`: an approval is recorded, or it is the last one and pays.
-/

namespace CallStake.StakeVault

open Tx

namespace EmergencyUnstake

variable {τ : Type}

def getConfig : V τ EmergencyMultiSigConfig := do
  let c ← load (·.emergency.emergencyMultiSigConfig)
  Tx.ofOption c (err .emergencyNotConfigured)

def getRequest (staker : Address) : V τ EmergencyRequest := do
  let r ← load fun s => s.emergency.emergencyRequest.lookup staker
  Tx.ofOption r (err .emergencyRequestNotFound)

def saveRequest (req : EmergencyRequest) : V τ Unit :=
  save fun s => { s with
    emergency.emergencyRequest := s.emergency.emergencyRequest.insert req.staker req }

def removeRequest (staker : Address) : V τ Unit :=
  save fun s => { s with emergency.emergencyRequest := s.emergency.emergencyRequest.erase staker }

def setLastUnstakeAt (staker : Address) (ts : Nat) : V τ Unit :=
  save fun s => { s with
    emergency.lastEmergencyUnstakeAt := s.emergency.lastEmergencyUnstakeAt.insert staker ts }

/-- Seconds left of the cooldown of `staker`. -/
def cooldownRemainingSecs (s : EmergencyStorage) (now : Nat) (staker : Address) : Nat :=
  if s.emergencyCooldownSecs = 0 then 0
  else match s.lastEmergencyUnstakeAt.lookup staker with
    | none => 0
    | some last => u64Add last s.emergencyCooldownSecs - now

def requireIsAdmin (caller : Address) : V τ Unit := do
  let a ← load (·.config.admin)
  let admin ← Tx.ofOption a (err .notInitialized)
  failIf (caller ≠ admin) (err .unauthorized)

def configure (caller : Address) (admins : List Address) (required penaltyBps timeoutSecs : Nat) :
    V τ Unit := do
  requireIsAdmin caller
  failIf (required = 0 ∨ admins.length < required) (err .invalidMultiSigConfig)
  failIf (10000 < penaltyBps) (err .invalidEmergencyPenalty)
  save fun s => { s with
    emergency.emergencyMultiSigConfig := some { admins, required, penaltyBps, timeoutSecs } }

def setCooldown (caller : Address) (cooldownSecs : Nat) : V τ Unit := do
  requireIsAdmin caller
  save fun s => { s with emergency.emergencyCooldownSecs := cooldownSecs }

def request (staker : Address) : V τ Unit := do
  let _ ← getConfig
  let r ← load fun s => s.emergency.emergencyRequest.lookup staker
  failIf (r.isSome = true) (err .emergencyRequestAlreadyExists)
  let now ← timestamp
  let remaining ← load fun s => cooldownRemainingSecs s.emergency now staker
  failIf (0 < remaining) (err .emergencyCooldownActive)
  saveRequest { staker, requestedAt := now, approvals := [] }

/-- The penalty of an early unstake; it never exceeds the stake. -/
def penaltyOf (gross : Int) (penaltyBps : Nat) : Int := min (applyMultiplierBps gross penaltyBps) gross

def burnIfPositive (env : Env τ) (token : Address) (amount : Int) : V τ Unit :=
  if 0 < amount then burn env token env.self amount else pure ()

def transferIfPositive (env : Env τ) (token dst : Address) (amount : Int) : V τ Unit :=
  if 0 < amount then transfer env token env.self dst amount else pure ()

/-- The stake is emptied before the tokens move; a failure of the token traps. -/
def executeEarlyUnstake (env : Env τ) (staker token : Address) (penaltyBps : Nat) : V τ Unit := do
  let stakes ← load (·.stake.stakesV2)
  let info ← Tx.ofOption (stakes.lookup staker) (err .noStake)
  failIf (info.balance = 0) (err .noStake)
  let gross := info.balance
  let penalty := penaltyOf gross penaltyBps
  let net := saturatingSub gross penalty
  let now ← timestamp
  save fun s => { s with stake.stakesV2 := stakes.insert staker ⟨0, 0, now⟩ }
  burnIfPositive env token penalty
  transferIfPositive env token staker net

/-- A request is stale once its timeout has passed. -/
def expired (cfg : EmergencyMultiSigConfig) (req : EmergencyRequest) (now : Nat) : Prop :=
  0 < cfg.timeoutSecs ∧ u64Add req.requestedAt cfg.timeoutSecs < now
  deriving Decidable

def approve (env : Env τ) (signer staker token : Address) : V τ Unit := do
  let cfg ← getConfig
  failIf (signer ∉ cfg.admins) (err .unauthorized)
  let req ← getRequest staker
  let now ← timestamp
  if expired cfg req now then
    removeRequest staker
    Tx.fail (err .emergencyRequestExpired)
  else
    failIf (signer ∈ req.approvals) (err .alreadyApproved)
    let approvals := req.approvals ++ [signer]
    if cfg.required ≤ approvals.length then
      executeEarlyUnstake env staker token cfg.penaltyBps
      removeRequest staker
      setLastUnstakeAt staker now
    else
      saveRequest { req with approvals }

def expireRequest (staker : Address) : V τ Unit := do
  let cfg ← getConfig
  let req ← getRequest staker
  let now ← timestamp
  failIf (¬ expired cfg req now) (err .emergencyRequestNotExpired)
  removeRequest staker

/-! ## Entrypoints -/

def configureEmergencyMultisig (env : Env τ) (caller : Address) (admins : List Address)
    (required penaltyBps timeoutSecs : Nat) : V τ Unit := do
  requireAuth env.auth caller
  configure caller admins required penaltyBps timeoutSecs

/-- The entrypoint of `request`. -/
def requestEmergencyUnstake (env : Env τ) (staker : Address) : V τ Unit := do
  requireAuth env.auth staker
  request staker

/-- The entrypoint of `approve`. -/
def approveEmergencyUnstake (env : Env τ) (signer staker : Address) : V τ Unit := do
  requireAuth env.auth signer
  let token ← getStakeToken
  approve env signer staker token

def expireEmergencyRequest (staker : Address) : V τ Unit := expireRequest staker

def setEmergencyCooldown (env : Env τ) (caller : Address) (cooldownSecs : Nat) : V τ Unit := do
  requireAuth env.auth caller
  setCooldown caller cooldownSecs

/-! ## What an emergency unstake did -/

section Run

variable {env : Env τ} {w w' : World τ} {staker token : Address} {penaltyBps : Nat} {u : Unit}

@[simp] theorem burnIfPositive_ok {amount : Int} :
    burnIfPositive env token amount w = (.ok u, w') ↔
      (0 < amount ∧ ∃ t, env.tokens.burn token env.self amount w.token = .ok t ∧
        w.burned env token amount t = w') ∨ (amount ≤ 0 ∧ w = w') := by
  unfold burnIfPositive
  split
  · rename_i h; simp [h, Int.not_le.mpr h, World.burned]
  · rename_i h; simp [h, Int.not_lt.mp h]

@[simp] theorem transferIfPositive_ok {dst : Address} {amount : Int} :
    transferIfPositive env token dst amount w = (.ok u, w') ↔
      (0 < amount ∧ ∃ t, env.tokens.transfer token env.self dst amount w.token = .ok t ∧
        { w with token := t, log := .transfer token env.self dst amount :: w.log } = w') ∨
      (amount ≤ 0 ∧ w = w') := by
  unfold transferIfPositive
  split
  · rename_i h; simp [h, Int.not_le.mpr h]
  · rename_i h; simp [h, Int.not_lt.mp h]

/-- The world with the stake of `staker` emptied. -/
def World.emptied (w : World τ) (staker : Address) : World τ :=
  { w with store := { w.store with
    stake.stakesV2 := w.store.stake.stakesV2.insert staker ⟨0, 0, w.ledger.timestamp⟩ } }

theorem executeEarlyUnstake_ok :
    executeEarlyUnstake env staker token penaltyBps w = (.ok u, w') ↔
      ∃ info, w.store.stake.stakesV2.lookup staker = some info ∧ info.balance ≠ 0 ∧
        ∃ w₁, burnIfPositive env token (penaltyOf info.balance penaltyBps) (World.emptied w staker) = (.ok (), w₁) ∧
        transferIfPositive env token staker
          (saturatingSub info.balance (penaltyOf info.balance penaltyBps)) w₁ = (.ok u, w') := by
  unfold executeEarlyUnstake World.emptied
  simp only [bind_ok, load_ok, ofOption_ok, failIf_ok, timestamp_ok, save_ok]
  constructor
  · rintro ⟨_, _, ⟨rfl, rfl⟩, info, _, ⟨hi, rfl⟩, _, _, ⟨h0, rfl⟩, _, _, ⟨rfl, rfl⟩, _, _, rfl, _, w₁,
      hb, ht⟩
    exact ⟨info, hi, h0, w₁, hb, ht⟩
  · rintro ⟨info, hi, h0, w₁, hb, ht⟩
    exact ⟨_, _, ⟨rfl, rfl⟩, info, _, ⟨hi, rfl⟩, (), _, ⟨h0, rfl⟩, _, _, ⟨rfl, rfl⟩, (), _, rfl, (), w₁, hb, ht⟩

theorem applyMultiplierBps_nonneg {balance : Int} (bps : Nat) (h : 0 ≤ balance) :
    0 ≤ applyMultiplierBps balance bps := by
  unfold applyMultiplierBps
  cases hm : checkedMul balance bps with
  | none => decide
  | some v =>
    obtain ⟨-, -, rfl⟩ := checkedMul_eq_some.mp hm
    exact Int.tdiv_nonneg (Int.mul_nonneg h (Int.natCast_nonneg bps)) (by decide)

/-- The penalty is a part of the stake. -/
theorem penaltyOf_bounds {gross : Int} (penaltyBps : Nat) (h : 0 ≤ gross) :
    0 ≤ penaltyOf gross penaltyBps ∧ penaltyOf gross penaltyBps ≤ gross := by
  have := applyMultiplierBps_nonneg penaltyBps h
  unfold penaltyOf
  omega

/-- What an accepted approval saw. -/
structure Approvable (w : World τ) (signer staker : Address) (cfg : EmergencyMultiSigConfig)
    (req : EmergencyRequest) : Prop where
  configured : w.store.emergency.emergencyMultiSigConfig = some cfg
  isAdmin : signer ∈ cfg.admins
  requested : w.store.emergency.emergencyRequest.lookup staker = some req
  live : ¬ expired cfg req w.ledger.timestamp
  fresh : signer ∉ req.approvals

/-- An accepted approval was recorded, or it was the last one needed and the stake was paid. -/
theorem approveEmergencyUnstake_ok {signer : Address}
    (h : approveEmergencyUnstake env signer staker w = (.ok u, w')) :
    env.auth signer = true ∧ ∃ token, w.store.config.stakeToken = some token ∧
      ∃ cfg req, Approvable w signer staker cfg req ∧
      ((cfg.required ≤ req.approvals.length + 1 ∧
        ∃ w₁, executeEarlyUnstake env staker token cfg.penaltyBps w = (.ok (), w₁) ∧
        w' = { w₁ with store := { w₁.store with
          emergency.emergencyRequest := w₁.store.emergency.emergencyRequest.erase staker
          emergency.lastEmergencyUnstakeAt :=
            w₁.store.emergency.lastEmergencyUnstakeAt.insert staker w.ledger.timestamp } }) ∨
       (req.approvals.length + 1 < cfg.required ∧
        w' = { w with store := { w.store with
          emergency.emergencyRequest := w.store.emergency.emergencyRequest.insert req.staker
            { req with approvals := req.approvals ++ [signer] } } })) := by
  simp [approveEmergencyUnstake, approve, getConfig, getRequest, and_assoc] at h
  obtain ⟨ha, token, htok, cfg, hc, hm, req, hr, h⟩ := h
  split at h
  · simp at h
  · rename_i hx
    simp only [bind_ok, failIf_ok] at h
    obtain ⟨_, _, ⟨hn, rfl⟩, h⟩ := h
    refine ⟨ha, token, htok, cfg, req, ⟨hc, hm, hr, hx, hn⟩, ?_⟩
    split at h
    · rename_i hle
      simp [removeRequest, setLastUnstakeAt] at h
      obtain ⟨_, w₁, hex, rfl⟩ := h
      exact .inl ⟨by simpa using hle, w₁, hex, rfl⟩
    · rename_i hlt
      simp [saveRequest] at h
      exact .inr ⟨by simpa using hlt, h.symm⟩

end Run

end EmergencyUnstake

end CallStake.StakeVault
