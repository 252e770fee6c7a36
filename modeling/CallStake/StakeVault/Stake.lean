import CallStake.StakeVault.Types

/-!
# Stakes: deposits, withdrawals and delegation

* `depositStake`, `withdrawStake`, `partialUnstake`, `delegateStake`: the entrypoints that move the
  stake token between a user and the vault.
* `doWithdraw`: the withdrawal of the whole stake under the reentrancy lock, shared with the unstake
  queue. `doWithdraw_ok`/`doWithdraw_error`: it pays the whole balance, or leaves everything as it
  was.
* `getVotingPower`, `notifyStakeBelowMinimum`, `checkSignalSubmissionAllowed`, `requestWithdrawal`:
  what else is read off a stake.
-/

namespace CallStake.StakeVault

open Tx

variable {τ : Type}

/-! ## Shared checks -/

/-- `reentrancy::require_not_locked`. -/
def requireNotLocked : V τ Unit := do
  let locked ← load (·.guards.sharedContractLock)
  failIf (locked = true) (err .reentrancyDetected)

def requireNotPaused : V τ Unit := do
  let paused ← load (·.config.paused)
  failIf (paused = true) (err .contractPaused)

def getStakeToken : V τ Address := do
  let token ← load (·.config.stakeToken)
  Tx.ofOption token (err .notInitialized)

/-- The stored info, or the info of a staker who never staked. -/
def infoOf (stakes : Store Address StakeInfoV2) (staker : Address) : StakeInfoV2 :=
  (stakes.lookup staker).getD ⟨0, 0, 0⟩

/-- `get_stake`. -/
def getStake (s : Storage) (staker : Address) : Int := (s.stake.stakesV2.lookup staker).elim 0 (·.balance)

/-- `get_delegated_stake`. -/
def getDelegatedStake (s : Storage) (delegator provider : Address) : Int :=
  (((s.stake.providerDelegatedStakes.lookup provider).getD ∅).lookup delegator).getD 0

/-- `get_total_delegated`. -/
def getTotalDelegated (s : Storage) (provider : Address) : Int :=
  (s.stake.providerTotalDelegated.lookup provider).getD 0

/-- `get_total_stake_for_provider`. -/
def getTotalStakeForProvider (s : Storage) (provider : Address) : Int :=
  saturatingAdd (getStake s provider) (getTotalDelegated s provider)

/-- Basis points of a balance; an overflow of the product gives the largest amount. -/
def applyMultiplierBps (balance : Int) (bps : Nat) : Int :=
  match checkedMul balance bps with
  | some v => v.tdiv BPS_DENOMINATOR
  | none => i128Max

section Checks

variable {w w' : World τ} {u : Unit} {a : Address}

@[simp] theorem requireNotLocked_ok : (requireNotLocked : V τ Unit) w = (.ok u, w') ↔
    w.store.guards.sharedContractLock = false ∧ w = w' := by simp [requireNotLocked]

@[simp] theorem requireNotPaused_ok : (requireNotPaused : V τ Unit) w = (.ok u, w') ↔
    w.store.config.paused = false ∧ w = w' := by simp [requireNotPaused]

@[simp] theorem getStakeToken_ok : (getStakeToken : V τ Address) w = (.ok a, w') ↔
    w.store.config.stakeToken = some a ∧ w = w' := by simp [getStakeToken]

@[simp] theorem getStakeToken_error {e : Fault StakeVaultError} :
    (getStakeToken : V τ Address) w = (.error e, w') ↔
      w.store.config.stakeToken = none ∧ err .notInitialized = e ∧ w = w' := by
  simp [getStakeToken]

end Checks

/-! ## Deposits -/

/-- The lock of a stake after a deposit: a fresh stake is locked for the minimum duration, a top-up
extends the lock that is there. -/
def lockAfterDeposit (current : StakeInfoV2) (now minDuration : Nat) : Nat :=
  if current.balance = 0 then u64Add now minDuration
  else if 0 < minDuration then max current.lockedUntil (u64Add now minDuration)
  else current.lockedUntil

/-- `deposit_stake`: tokens become stake. -/
def depositStake (env : Env τ) (staker : Address) (amount : Int) : V τ Unit := do
  requireNotLocked
  requireAuth env.auth staker
  requireNotPaused
  failIf (amount ≤ 0) (err .noStake)
  let token ← getStakeToken
  let stakes ← load (·.stake.stakesV2)
  let now ← timestamp
  let current := infoOf stakes staker
  let newBalance ← Tx.ofOption (checkedAdd current.balance amount) (err .stakeOverflow)
  let minDuration ← load (·.config.minimumStakeDuration)
  save fun s => { s with
    stake.stakesV2 := stakes.insert staker ⟨newBalance, lockAfterDeposit current now minDuration, now⟩ }
  save fun s => { s with
    guards.stakeDepositTimestamps := s.guards.stakeDepositTimestamps.insert staker now }
  let ledgerSeq ← sequence
  save fun s => { s with
    guards.lastStakeLedger := s.guards.lastStakeLedger.insert staker ledgerSeq }
  tryTransfer env token staker env.self amount

section Deposits

variable {env : Env τ} {w w' : World τ} {u : Unit} {amount : Int} {staker : Address}

/-- The world after a deposit: the tokens moved in, and the stake counts them. -/
def World.afterDeposit (w : World τ) (env : Env τ) (token staker : Address) (amount : Int) (t : τ) :
    World τ :=
  { w with
    store := { w.store with
      stake.stakesV2 := w.store.stake.stakesV2.insert staker
        ⟨(infoOf w.store.stake.stakesV2 staker).balance + amount,
          lockAfterDeposit (infoOf w.store.stake.stakesV2 staker) w.ledger.timestamp
            w.store.config.minimumStakeDuration, w.ledger.timestamp⟩
      guards.stakeDepositTimestamps := w.store.guards.stakeDepositTimestamps.insert staker w.ledger.timestamp
      guards.lastStakeLedger := w.store.guards.lastStakeLedger.insert staker w.ledger.sequence }
    token := t
    log := .transfer token staker env.self amount :: w.log }

theorem depositStake_ok : depositStake env staker amount w = (.ok u, w') ↔
    w.store.guards.sharedContractLock = false ∧ env.auth staker = true ∧
      w.store.config.paused = false ∧ 0 < amount ∧
      ∃ token, w.store.config.stakeToken = some token ∧
      i128Min ≤ (infoOf w.store.stake.stakesV2 staker).balance + amount ∧
      (infoOf w.store.stake.stakesV2 staker).balance + amount ≤ i128Max ∧
      ∃ t, env.tokens.transfer token staker env.self amount w.token = .ok t ∧
        w.afterDeposit env token staker amount t = w' := by
  unfold depositStake World.afterDeposit
  simp [and_assoc]

end Deposits

/-- The tokens of the delegator are credited to the provider's delegated stake. -/
def delegateStake (env : Env τ) (delegator provider : Address) (amount : Int) : V τ Unit := do
  requireAuth env.auth delegator
  requireNotPaused
  failIf (amount ≤ 0) (err .noStake)
  let token ← getStakeToken
  let delegated ← load fun s => (s.stake.providerDelegatedStakes.lookup provider).getD ∅
  let newAmount ← Tx.ofOption (checkedAdd ((delegated.lookup delegator).getD 0) amount)
    (err .stakeOverflow)
  save fun s => { s with
    stake.providerDelegatedStakes :=
      s.stake.providerDelegatedStakes.insert provider (delegated.insert delegator newAmount) }
  let totalDelegated ← load fun s => (s.stake.providerTotalDelegated.lookup provider).getD 0
  let newTotal ← Tx.ofOption (checkedAdd totalDelegated amount) (err .stakeOverflow)
  save fun s => { s with
    stake.providerTotalDelegated := s.stake.providerTotalDelegated.insert provider newTotal }
  tryTransfer env token delegator env.self amount

section Delegations

variable {env : Env τ} {w w' : World τ} {u : Unit} {amount : Int} {delegator provider : Address}

/-- The delegations to a provider. -/
def delegationsOf (s : StakeStorage) (provider : Address) : Store Address Int :=
  (s.providerDelegatedStakes.lookup provider).getD ∅

/-- The cached total of the delegations to a provider. -/
def totalDelegatedOf (s : StakeStorage) (provider : Address) : Int :=
  (s.providerTotalDelegated.lookup provider).getD 0

/-- The world after a delegation: the tokens moved in, and the delegation and the total count
them. -/
def World.afterDelegation (w : World τ) (env : Env τ) (token delegator provider : Address)
    (amount : Int) (t : τ) : World τ :=
  { w with
    store := { w.store with
      stake.providerDelegatedStakes := w.store.stake.providerDelegatedStakes.insert provider
        ((delegationsOf w.store.stake provider).insert delegator
          (((delegationsOf w.store.stake provider).lookup delegator).getD 0 + amount))
      stake.providerTotalDelegated := w.store.stake.providerTotalDelegated.insert provider
        (totalDelegatedOf w.store.stake provider + amount) }
    token := t
    log := .transfer token delegator env.self amount :: w.log }

theorem delegateStake_ok (h : delegateStake env delegator provider amount w = (.ok u, w')) :
    env.auth delegator = true ∧ 0 < amount ∧
      ∃ token, w.store.config.stakeToken = some token ∧
      totalDelegatedOf w.store.stake provider + amount ≤ i128Max ∧
      ∃ t, env.tokens.transfer token delegator env.self amount w.token = .ok t ∧
        w' = w.afterDelegation env token delegator provider amount t := by
  simp [delegateStake, and_assoc] at h
  obtain ⟨ha, -, hpos, token, htok, -, -, -, hmax, t, ht, rfl⟩ := h
  exact ⟨ha, hpos, token, htok, hmax, t, ht, rfl⟩

end Delegations

/-! ## Withdrawals -/

/-- A stake that was deposited in the current ledger; ledger `0` is never suspicious. -/
def sameLedgerDeposit (s : Storage) (staker : Address) (currentLedger : Nat) : Prop :=
  (s.guards.lastStakeLedger.lookup staker).getD 0 = currentLedger ∧ currentLedger ≠ 0
  deriving Decidable

/-- The time-lock of a withdrawal of `amount`: `true` if a request is consumed. -/
def checkTimelock (staker : Address) (amount : Int) (now : Nat) : V τ Bool := do
  if LARGE_WITHDRAWAL_THRESHOLD ≤ amount then
    let requested ← load fun s => s.guards.largeWithdrawalRequestedAt.lookup staker
    let requestedAt ← Tx.ofOption requested (err .timelockRequired)
    let cooldown ← load (·.config.withdrawalCooldownSecs)
    failIf (now < u64Add requestedAt cooldown) (err .timelockNotElapsed)
    return true
  else
    return false

/-- The request of a large withdrawal is used up. -/
def GuardStorage.consume (g : GuardStorage) (staker : Address) (large : Bool) : GuardStorage :=
  if large then
    { g with largeWithdrawalRequestedAt := g.largeWithdrawalRequestedAt.erase staker }
  else g

/-- The tokens are paid before any effect is written. -/
def doWithdrawLocked (env : Env τ) (staker : Address) : V τ Int := do
  let token ← getStakeToken
  let stakes ← load (·.stake.stakesV2)
  let info ← Tx.ofOption (stakes.lookup staker) (err .noStake)
  failIf (info.balance = 0) (err .noStake)
  let now ← timestamp
  failIf (now < info.lockedUntil) (err .stakeLocked)
  let currentLedger ← sequence
  let flashLoan ← load fun s => decide (sameLedgerDeposit s staker currentLedger)
  failIf (flashLoan = true) (err .flashLoanDetected)
  let large ← checkTimelock staker info.balance now
  let amount := info.balance
  tryTransfer env token env.self staker amount
  save fun s => { s with guards := s.guards.consume staker large }
  save fun s => { s with stake.stakesV2 := stakes.insert staker ⟨0, info.lockedUntil, now⟩ }
  return amount

def doPartialUnstakeLocked (env : Env τ) (staker : Address) (amount : Int) : V τ Int := do
  let token ← getStakeToken
  let stakes ← load (·.stake.stakesV2)
  let info ← Tx.ofOption (stakes.lookup staker) (err .noStake)
  failIf (info.balance = 0) (err .noStake)
  failIf (info.balance ≤ amount) (err .invalidAmount)
  let now ← timestamp
  failIf (now < info.lockedUntil) (err .stakeLocked)
  let currentLedger ← sequence
  let flashLoan ← load fun s => decide (sameLedgerDeposit s staker currentLedger)
  failIf (flashLoan = true) (err .flashLoanDetected)
  let large ← checkTimelock staker amount now
  let remaining := info.balance - amount
  let minimumStake ← load (·.config.minimumStake)
  failIf (0 < minimumStake ∧ remaining < minimumStake) (err .remainingStakeBelowMinimum)
  tryTransfer env token env.self staker amount
  save fun s => { s with guards := s.guards.consume staker large }
  save fun s => { s with
    stake.stakesV2 := stakes.insert staker ⟨remaining, info.lockedUntil, now⟩ }
  return amount

/-- `body` under the lock `WithdrawLock`, which is released however `body` ends. -/
def withWithdrawLock {α : Type} (body : V τ α) : V τ α := do
  let locked ← load (·.guards.withdrawLock)
  failIf (locked = true) (err .reentrancyDetected)
  save fun s => { s with guards.withdrawLock := true }
  let result ← Tx.attempt body
  save fun s => { s with guards.withdrawLock := false }
  Tx.ofExcept (result.mapError .err)

/-- `do_withdraw`: the lock around the withdrawal. -/
def doWithdraw (env : Env τ) (staker : Address) : V τ Int := withWithdrawLock (doWithdrawLocked env staker)

def doPartialUnstake (env : Env τ) (staker : Address) (amount : Int) : V τ Int :=
  withWithdrawLock (doPartialUnstakeLocked env staker amount)

/-- `check_rate_limit(.., StakeChange, 0)`, mapped to the error of the vault. -/
def checkStakeChange (staker : Address) : V τ Unit := do
  let now ← timestamp
  let allowed ← load fun s => RateLimit.checkRateLimit s.rate now staker .stakeChange 0
  failIf (allowed = false) (err .rateLimitExceeded)

/-- `record_action(.., StakeChange)`. -/
def recordStakeChange (staker : Address) : V τ Unit := do
  let now ← timestamp
  save fun s => { s with rate := RateLimit.recordAction s.rate now staker .stakeChange }

/-- The authorization is scoped to the staker and the amount. -/
def withdrawStake (env : Env τ) (staker : Address) : V τ Int := do
  requireNotPaused
  checkStakeChange staker
  requireAuth env.auth staker
  let amount ← doWithdraw env staker
  recordStakeChange staker
  return amount

/-- `partial_unstake`: a part of the stake. -/
def partialUnstake (env : Env τ) (staker : Address) (amount : Int) : V τ Int := do
  requireNotPaused
  failIf (amount ≤ 0) (err .invalidAmount)
  checkStakeChange staker
  requireAuth env.auth staker
  let amount ← doPartialUnstake env staker amount
  recordStakeChange staker
  return amount

/-! ## What a withdrawal did -/

section Withdrawals

variable {env : Env τ} {w w' : World τ} {amount n : Int} {staker : Address}
  {e : Fault StakeVaultError}

theorem checkTimelock_ok {now : Nat} {large : Bool} :
    (checkTimelock staker amount now : V τ Bool) w = (.ok large, w') ↔
      (LARGE_WITHDRAWAL_THRESHOLD ≤ amount → ∃ requestedAt,
        w.store.guards.largeWithdrawalRequestedAt.lookup staker = some requestedAt ∧
          u64Add requestedAt w.store.config.withdrawalCooldownSecs ≤ now) ∧
      decide (LARGE_WITHDRAWAL_THRESHOLD ≤ amount) = large ∧ w = w' := by
  unfold checkTimelock
  split
  · rename_i hl
    simp [and_assoc, hl]
    grind
  · rename_i hl
    simp [hl]

theorem checkTimelock_error {now : Nat}
    (h : (checkTimelock staker amount now : V τ Bool) w = (.error e, w')) :
    (∃ x, e = .err x) ∧ w' = w := by
  unfold checkTimelock at h
  split at h
  · simp at h
    grind
  · simp at h

/-- What is checked of a stake before `amount` of it is paid out. -/
structure Withdrawable (w : World τ) (staker : Address) (info : StakeInfoV2) (amount : Int) :
    Prop where
  staked : w.store.stake.stakesV2.lookup staker = some info
  nonzero : info.balance ≠ 0
  unlocked : info.lockedUntil ≤ w.ledger.timestamp
  noFlashLoan : ¬ sameLedgerDeposit w.store staker w.ledger.sequence
  timelock : LARGE_WITHDRAWAL_THRESHOLD ≤ amount → ∃ requestedAt,
    w.store.guards.largeWithdrawalRequestedAt.lookup staker = some requestedAt ∧
      u64Add requestedAt w.store.config.withdrawalCooldownSecs ≤ w.ledger.timestamp

/-- The world after `amount` of a stake was paid to its owner. -/
def World.afterPayout (w : World τ) (env : Env τ) (token staker : Address) (info : StakeInfoV2)
    (amount : Int) (t : τ) : World τ :=
  { w with
    store := { w.store with
      stake.stakesV2 := w.store.stake.stakesV2.insert staker
        ⟨info.balance - amount, info.lockedUntil, w.ledger.timestamp⟩
      guards := w.store.guards.consume staker (LARGE_WITHDRAWAL_THRESHOLD ≤ amount) }
    token := t
    log := .transfer token env.self staker amount :: w.log }

theorem doWithdrawLocked_ok : doWithdrawLocked env staker w = (.ok n, w') ↔
    ∃ token, w.store.config.stakeToken = some token ∧ ∃ info, Withdrawable w staker info n ∧
      info.balance = n ∧ ∃ t, env.tokens.transfer token env.self staker n w.token = .ok t ∧
      w.afterPayout env token staker info n t = w' := by
  unfold doWithdrawLocked
  simp [checkTimelock_ok, and_assoc]
  constructor
  · rintro ⟨token, htok, info, hi, h0, hl, hf, ht, t, htr, rfl, rfl⟩
    exact ⟨token, htok, info, ⟨hi, h0, hl, hf, ht⟩, rfl, t, htr, by simp [World.afterPayout]⟩
  · rintro ⟨token, htok, info, ⟨hi, h0, hl, hf, ht⟩, rfl, t, htr, rfl⟩
    exact ⟨token, htok, info, hi, h0, hl, hf, ht, t, htr, rfl, by simp [World.afterPayout]⟩

theorem doWithdrawLocked_error (h : doWithdrawLocked env staker w = (.error e, w')) :
    (∃ x, e = .err x) ∧ w' = w := by
  simp [doWithdrawLocked, checkTimelock_ok] at h
  grind [checkTimelock_error]

theorem doPartialUnstakeLocked_ok (h : doPartialUnstakeLocked env staker amount w = (.ok n, w')) :
    n = amount ∧ ∃ token, w.store.config.stakeToken = some token ∧
      ∃ info, Withdrawable w staker info amount ∧ amount < info.balance ∧
      ∃ t, env.tokens.transfer token env.self staker amount w.token = .ok t ∧
      w' = w.afterPayout env token staker info amount t := by
  simp [doPartialUnstakeLocked, checkTimelock_ok, and_assoc] at h
  obtain ⟨token, htok, info, hi, h0, hlt, hl, hf, ht, -, t, htr, rfl, rfl⟩ := h
  exact ⟨rfl, token, htok, info, ⟨hi, h0, hl, hf, ht⟩, hlt, t, htr, rfl⟩

/-- The world with the lock `WithdrawLock` set or released. -/
def World.lock (w : World τ) (locked : Bool) : World τ :=
  { w with store := { w.store with guards.withdrawLock := locked } }

theorem World.lock_lock (h : w.store.guards.withdrawLock = false) :
    (w.lock true).lock false = w := by
  obtain ⟨l, ⟨c, st, sl, q, ⟨g1, g2, g3, g4, g5, g6⟩, em, ms, ra, re, str⟩, t, lg⟩ := w
  cases h
  rfl

/-- A payout under the lock is a payout. -/
theorem World.lock_afterPayout {token : Address} {info : StakeInfoV2} {t : τ}
    (h : w.store.guards.withdrawLock = false) :
    ((w.lock true).afterPayout env token staker info n t).lock false = w.afterPayout env token staker info n t := by
  obtain ⟨l, ⟨c, st, sl, q, ⟨g1, g2, g3, g4, g5, g6⟩, em, ms, ra, re, str⟩, tk, lg⟩ := w
  cases h
  unfold World.lock World.afterPayout GuardStorage.consume
  split <;> rfl

theorem withWithdrawLock_ok {α : Type} {a : α} {body : V τ α} :
    withWithdrawLock body w = (.ok a, w') ↔ w.store.guards.withdrawLock = false ∧
      ∃ w₁, body (w.lock true) = (.ok a, w₁) ∧ w₁.lock false = w' := by
  unfold withWithdrawLock
  simp [attempt_ok, World.lock]

/-- A body that fails without a trap and without an effect does so under the lock. -/
theorem withWithdrawLock_error {α : Type} {body : V τ α}
    (hb : ∀ {w₁ e₁ w₂}, body w₁ = (.error e₁, w₂) → (∃ x, e₁ = .err x) ∧ w₂ = w₁)
    (h : withWithdrawLock body w = (.error e, w')) : (∃ x, e = .err x) ∧ w' = w := by
  unfold withWithdrawLock at h
  simp only [bind_error, load_ok, load_error, failIf_error, failIf_ok,
    save_error, save_ok, attempt_error, attempt_ok, ofExcept_error, false_or] at h
  obtain ⟨locked, _, ⟨rfl, rfl⟩, ⟨-, rfl, rfl⟩ | ⟨_, _, ⟨hl, rfl⟩, _, _, rfl, h⟩⟩ := h
  · exact ⟨⟨_, rfl⟩, rfl⟩
  · have hlock : w.store.guards.withdrawLock = false := by simpa using hl
    rcases h with ⟨hp, rfl⟩ | ⟨r, w₁, ⟨a, rfl, -⟩ | ⟨x, rfl, hx⟩, _, _, rfl, hr, rfl⟩
    · obtain ⟨⟨x, hx⟩, -⟩ := hb hp
      cases hx
    · cases hr
    · obtain ⟨-, rfl⟩ := hb hx
      cases hr
      exact ⟨⟨x, rfl⟩, World.lock_lock hlock⟩

/-- A withdrawal pays the whole balance of a stake that may be withdrawn. -/
theorem doWithdraw_ok : doWithdraw env staker w = (.ok n, w') ↔
    w.store.guards.withdrawLock = false ∧ ∃ token, w.store.config.stakeToken = some token ∧
      ∃ info, Withdrawable w staker info n ∧ info.balance = n ∧
      ∃ t, env.tokens.transfer token env.self staker n w.token = .ok t ∧
      w.afterPayout env token staker info n t = w' := by
  unfold doWithdraw
  rw [withWithdrawLock_ok]
  refine and_congr_right fun hl => ?_
  constructor
  · rintro ⟨w₁, hb, rfl⟩
    obtain ⟨token, htok, info, ⟨h1, h2, h3, h4, h5⟩, hn, t, htr, rfl⟩ := doWithdrawLocked_ok.mp hb
    exact ⟨token, htok, info, ⟨h1, h2, h3, h4, h5⟩, hn, t, htr, (World.lock_afterPayout hl).symm⟩
  · rintro ⟨token, htok, info, ⟨h1, h2, h3, h4, h5⟩, hn, t, htr, rfl⟩
    exact ⟨_, doWithdrawLocked_ok.mpr ⟨token, htok, info, ⟨h1, h2, h3, h4, h5⟩, hn, t, htr, rfl⟩,
      World.lock_afterPayout hl⟩

/-- A withdrawal that fails leaves everything as it was. -/
theorem doWithdraw_error (h : doWithdraw env staker w = (.error e, w')) :
    (∃ x, e = .err x) ∧ w' = w :=
  withWithdrawLock_error doWithdrawLocked_error h

theorem doPartialUnstake_ok (h : doPartialUnstake env staker amount w = (.ok n, w')) :
    n = amount ∧ ∃ token, w.store.config.stakeToken = some token ∧
      ∃ info, Withdrawable w staker info amount ∧ amount < info.balance ∧
      ∃ t, env.tokens.transfer token env.self staker amount w.token = .ok t ∧
      w' = w.afterPayout env token staker info amount t := by
  obtain ⟨hl, w₁, hb, rfl⟩ := withWithdrawLock_ok.mp h
  obtain ⟨hn, token, htok, info, ⟨h1, h2, h3, h4, h5⟩, hlt, t, htr, rfl⟩ := doPartialUnstakeLocked_ok hb
  exact ⟨hn, token, htok, info, ⟨h1, h2, h3, h4, h5⟩, hlt, t, htr, World.lock_afterPayout hl⟩

/-- The world after an action of `staker` was counted by the rate limiter. -/
def World.counted (w : World τ) (staker : Address) : World τ :=
  { w with store := { w.store with
    rate := RateLimit.recordAction w.store.rate w.ledger.timestamp staker .stakeChange } }

@[simp] theorem recordStakeChange_ok {u : Unit} :
    (recordStakeChange staker : V τ Unit) w = (.ok u, w') ↔ w.counted staker = w' := by
  simp [recordStakeChange, World.counted]

@[simp] theorem checkStakeChange_ok {u : Unit} :
    (checkStakeChange staker : V τ Unit) w = (.ok u, w') ↔
      RateLimit.checkRateLimit w.store.rate w.ledger.timestamp staker .stakeChange 0 = true ∧ w = w' := by
  simp only [checkStakeChange, bind_ok, timestamp_ok, load_ok, failIf_ok, Bool.not_eq_false]
  constructor
  · rintro ⟨_, _, ⟨rfl, rfl⟩, _, _, ⟨rfl, rfl⟩, h⟩; exact h
  · rintro ⟨h, rfl⟩; exact ⟨_, _, ⟨rfl, rfl⟩, _, _, ⟨rfl, rfl⟩, h, rfl⟩

theorem withdrawStake_ok (h : withdrawStake env staker w = (.ok n, w')) :
    env.auth staker = true ∧ ∃ w₁, doWithdraw env staker w = (.ok n, w₁) ∧ w' = w₁.counted staker := by
  simp [withdrawStake, and_assoc] at h
  obtain ⟨-, -, ha, w₁, hw, rfl⟩ := h
  exact ⟨ha, w₁, hw, rfl⟩

theorem partialUnstake_ok (h : partialUnstake env staker amount w = (.ok n, w')) :
    env.auth staker = true ∧ 0 < amount ∧
      ∃ w₁, doPartialUnstake env staker amount w = (.ok n, w₁) ∧ w' = w₁.counted staker := by
  simp [partialUnstake, and_assoc] at h
  obtain ⟨-, hpos, -, ha, w₁, hw, rfl⟩ := h
  exact ⟨ha, hpos, w₁, hw, rfl⟩

end Withdrawals

/-! ## Other uses of a stake -/

/-- `request_withdrawal`: the cooldown of a large withdrawal starts. -/
def requestWithdrawal (env : Env τ) (staker : Address) : V τ Unit := do
  requireAuth env.auth staker
  requireNotPaused
  let balance ← load fun s => getStake s staker
  if balance < LARGE_WITHDRAWAL_THRESHOLD then
    return ()
  else
    let now ← timestamp
    save fun s => { s with
      guards.largeWithdrawalRequestedAt := s.guards.largeWithdrawalRequestedAt.insert staker now }

def notifyStakeBelowMinimum (provider : Address) : V τ Unit := do
  let minimum ← load (·.config.minimumStake)
  let currentStake ← load fun s => getStake s provider
  if minimum ≤ currentStake then
    return ()
  else
    let now ← timestamp
    save fun s => { s with
      guards.stakeBelowMinSince := if s.guards.stakeBelowMinSince.lookup provider = none then
        s.guards.stakeBelowMinSince.insert provider now else s.guards.stakeBelowMinSince }

def checkSignalSubmissionAllowed (provider : Address) : V τ Unit := do
  let minimum ← load (·.config.minimumStake)
  let currentStake ← load fun s => getStake s provider
  if minimum ≤ currentStake then
    save fun s => { s with guards.stakeBelowMinSince := s.guards.stakeBelowMinSince.erase provider }
  else
    let now ← timestamp
    let belowSince ← load fun s => (s.guards.stakeBelowMinSince.lookup provider).getD now
    failIf (GRACE_PERIOD_SECS < now - belowSince) (err .stakeBelowMinimum)

/-- The multiplier of a lock with `remainingSecs` left: the largest of the tiers it reaches. -/
def lockMultiplierBpsForRemaining (tiers : List LockMultiplierTier) (remainingSecs : Nat) : Nat :=
  let remainingWeeks := (remainingSecs / SECS_PER_WEEK) % 2 ^ 32
  tiers.foldl (fun applicableBps tier =>
    if tier.weeks ≤ remainingWeeks ∧ applicableBps < tier.bps then tier.bps else applicableBps) 0

/-- `get_voting_power`: the stake, multiplied by its lock. -/
def getVotingPower (s : Storage) (now : Nat) (staker : Address) : Int :=
  match s.stake.stakesV2.lookup staker with
  | none => 0
  | some info =>
    if info.balance = 0 then 0
    else if info.lockedUntil = 0 ∨ info.lockedUntil ≤ now then info.balance
    else
      let bps := lockMultiplierBpsForRemaining s.config.lockMultiplierTiers (info.lockedUntil - now)
      if bps = 0 then 0 else applyMultiplierBps info.balance bps

end CallStake.StakeVault
