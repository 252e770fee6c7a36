import CallStake.StakeVault.Stake

/-!
# Slashing and appeals

* The batch entrypoints catch the error of an entry and go on, with the writes that the entry made.
* `doSlash_ok`, `doSlash_error`, `doResolveAppeal_ok`, `doResolveAppeal_error`: everything that a run
  of the two can do. A run that fails changes nothing, unless the token refuses a burn.
-/

namespace CallStake.StakeVault

open Tx

variable {τ : Type}

/-! ## Amounts -/

def SlashTierConfig.bpsFor (cfg : SlashTierConfig) : SlashSeverity → Nat
  | .minor => cfg.minorBps
  | .major => cfg.majorBps
  | .critical => cfg.criticalBps

/-- The slash of an amount: the tier's part of it, at least one unit and at most all of it. -/
def slashPart (amount : Int) (bps : Nat) : Int := min (max (applyMultiplierBps amount bps) 1) amount

/-- What is taken of the own stake. -/
def ownSlash (balance : Int) (bps : Nat) : Int := if 0 < balance then slashPart balance bps else 0

/-- One round of the loop over the delegators: the remaining delegations and the slashed total. -/
def slashDelegator (bps : Nat) (acc : Store Address Int × Int) (delegator : Address) :
    Store Address Int × Int :=
  let dAmount := (acc.1.lookup delegator).getD 0
  if dAmount = 0 then acc
  else
    let dSlash := slashPart dAmount bps
    (acc.1.insert delegator (saturatingSub dAmount dSlash), saturatingAdd acc.2 dSlash)

/-- What is taken of the delegations. -/
def slashDelegations (bps : Nat) (delegated : Store Address Int) : Store Address Int × Int :=
  delegated.keys.foldl (slashDelegator bps) (delegated, 0)

/-- The stakes after a slash of `provider`. The delegations and their cached total are written only
if something was taken from them. -/
def StakeStorage.slashed (s : StakeStorage) (now : Nat) (provider : Address) (bps : Nat)
    (info : StakeInfoV2) : StakeStorage :=
  let delegated := slashDelegations bps (delegationsOf s provider)
  { stakesV2 := s.stakesV2.insert provider
      ⟨saturatingSub info.balance (ownSlash info.balance bps), info.lockedUntil, now⟩
    providerDelegatedStakes :=
      if 0 < delegated.2 then s.providerDelegatedStakes.insert provider delegated.1
      else s.providerDelegatedStakes
    providerTotalDelegated :=
      if 0 < delegated.2 then
        s.providerTotalDelegated.insert provider
          (saturatingSub (totalDelegatedOf s provider) delegated.2)
      else s.providerTotalDelegated }

/-- The amount of a slash: the own and the delegated part, and never nothing. -/
def slashAmount (s : StakeStorage) (provider : Address) (bps : Nat) (info : StakeInfoV2) : Int :=
  let amount := saturatingAdd (ownSlash info.balance bps)
    (slashDelegations bps (delegationsOf s provider)).2
  if amount = 0 then 1 else amount

/-! ## Slashing -/

/-- A provider that was slashed less than `cooldown` ledgers ago. The ledger of the last slash is
stored plus one, `0` is "never". -/
def slashCooldownActive (lastSlashLedger currentLedger cooldown : Nat) : Prop :=
  0 < lastSlashLedger ∧ currentLedger - (lastSlashLedger - 1) < cooldown
  deriving Decidable

/-- The funds of a slash are parked while an appeal is possible, else burned. -/
def holdOrBurn (env : Env τ) (token : Address) (slashId : Nat) (amount : Int)
    (appealWindowSecs : Nat) : V τ Unit :=
  if 0 < appealWindowSecs then
    save fun s => { s with
      slash.slashedFundsHeld := s.slash.slashedFundsHeld.insert slashId amount }
  else
    tryBurn env token env.self amount

/-- Takes a fraction of a provider's own stake and of every stake delegated to it, writes the `SlashRecord`, and
holds the amount for an appeal or, without an appeal window, burns it. -/
def doSlash (env : Env τ) (provider : Address) (severity : SlashSeverity) (reason : Symbol) :
    V τ Int := do
  let token ← getStakeToken
  let currentLedger ← sequence
  let lastSlashLedger ← load fun s => (s.slash.lastSlashLedger.lookup provider).getD 0
  let cooldown ← load (·.config.slashCooldownLedgers)
  failIf (slashCooldownActive lastSlashLedger currentLedger cooldown) (err .slashCooldownActive)
  let cfg ← load (·.config.slashTierConfig)
  let tierBps := cfg.bpsFor severity
  let stakes ← load (·.stake)
  let info ← Tx.ofOption (stakes.stakesV2.lookup provider) (err .noStake)
  failIf (info.balance = 0) (err .noStake)
  let now ← timestamp
  save fun s => { s with stake := stakes.slashed now provider tierBps info }
  let amount := slashAmount stakes provider tierBps info
  let slashId ← load (·.slash.slashCounter)
  save fun s => { s with slash.slashCounter := u64Add slashId 1 }
  save fun s => { s with
    slash.slashRecord := s.slash.slashRecord.insert slashId
      { slashId, provider, severity, slashAmount := amount, slashedAt := now, reason
        cooldownExpiresAt := if 0 < cooldown then u32Add currentLedger cooldown else 0 } }
  save fun s => { s with
    slash.lastSlashLedger := s.slash.lastSlashLedger.insert provider (u32Add currentLedger 1) }
  let appealWindowSecs ← load (·.config.appealWindowSecs)
  holdOrBurn env token slashId amount appealWindowSecs
  return amount

def requireSignalRegistry (caller : Address) : V τ Unit := do
  let registry ← load (·.config.signalRegistry)
  let signalRegistry ← Tx.ofOption registry (err .notInitialized)
  failIf (caller ≠ signalRegistry) (err .unauthorized)

/-- `slash_stake`: by the signal registry. -/
def slashStake (env : Env τ) (caller provider : Address) (severity : SlashSeverity)
    (reason : Symbol) : V τ Int := do
  requireNotLocked
  requireAuth env.auth caller
  requireSignalRegistry caller
  doSlash env provider severity reason

/-- The loop of a batch of slashes: the amount of each entry, `0` for one that failed. -/
def slashEntries (env : Env τ) (reason : Symbol) : List (Address × SlashSeverity) → V τ (List Int)
  | [] => pure []
  | (provider, severity) :: rest => do
    let result ← Tx.attempt (doSlash env provider severity reason)
    let amounts ← slashEntries env reason rest
    return (match result with | .ok amount => amount | .error _ => 0) :: amounts

/-- `batch_slash_stake`: errors of single slashes are counted. -/
def batchSlashStake (env : Env τ) (caller : Address) (providers : List Address)
    (severities : List SlashSeverity) (reason : Symbol) : V τ (List Int) := do
  requireAuth env.auth caller
  requireSignalRegistry caller
  failIf (providers.length = 0 ∨ MAX_BATCH_SIZE < providers.length) (err .batchSizeInvalid)
  failIf (providers.length ≠ severities.length) (err .batchLengthMismatch)
  slashEntries env reason (providers.zip severities)

/-! ## Appeals -/

/-- `appeal_slash`: in the appeal window. -/
def appealSlash (env : Env τ) (appellant : Address) (slashId : Nat) (evidenceUri : String) :
    V τ Unit := do
  requireAuth env.auth appellant
  let r ← load fun s => s.slash.slashRecord.lookup slashId
  let record ← Tx.ofOption r (err .slashNotFound)
  failIf (record.provider ≠ appellant) (err .unauthorized)
  let windowSecs ← load (·.config.appealWindowSecs)
  let now ← timestamp
  failIf (windowSecs = 0 ∨ u64Add record.slashedAt windowSecs < now) (err .appealWindowClosed)
  let appeal ← load fun s => s.slash.slashAppeal.lookup slashId
  failIf (appeal.isSome = true) (err .appealAlreadyExists)
  save fun s => { s with
    slash.slashAppeal := s.slash.slashAppeal.insert slashId
      { slashId, appellant, evidenceUri, submittedAt := now, status := .pending } }

/-- The slash stands: what was held is burned. -/
def upholdSlash (env : Env τ) (token : Address) (slashId : Nat) (held : Int) : V τ Unit := do
  if 0 < held then
    save fun s => { s with slash.slashedFundsHeld := s.slash.slashedFundsHeld.erase slashId }
    tryBurn env token env.self held
  else
    return ()

/-- The slash is undone: the held amount, or without one the recorded amount, is credited to the
provider. -/
def reverseSlash (record : SlashRecord) (slashId : Nat) (held : Int) : V τ Unit := do
  let amountToRestore := if 0 < held then held else record.slashAmount
  let stakes ← load (·.stake.stakesV2)
  let currentInfo := infoOf stakes record.provider
  let restoredBalance := saturatingAdd currentInfo.balance amountToRestore
  let now ← timestamp
  save fun s => { s with
    stake.stakesV2 := stakes.insert record.provider ⟨restoredBalance, currentInfo.lockedUntil, now⟩ }
  save fun s => { s with
    slash.slashedFundsHeld := if 0 < held then s.slash.slashedFundsHeld.erase slashId
      else s.slash.slashedFundsHeld }

def resolvedStatus (uphold : Bool) : AppealStatus := if uphold then .upheld else .reversed

/-- Burns what was held (uphold) or credits it to the provider (reverse). -/
def doResolveAppeal (env : Env τ) (slashId : Nat) (uphold : Bool) : V τ Unit := do
  let r ← load fun s => s.slash.slashRecord.lookup slashId
  let record ← Tx.ofOption r (err .slashNotFound)
  let a ← load fun s => s.slash.slashAppeal.lookup slashId
  let appeal ← Tx.ofOption a (err .slashNotFound)
  failIf (appeal.status ≠ .pending) (err .appealAlreadyResolved)
  let held ← load fun s => (s.slash.slashedFundsHeld.lookup slashId).getD 0
  let token ← getStakeToken
  bif uphold then upholdSlash env token slashId held else reverseSlash record slashId held
  save fun s => { s with
    slash.slashAppeal := s.slash.slashAppeal.insert slashId { appeal with status := resolvedStatus uphold } }

/-- The stored administrator, and its authorization. -/
def requireAdmin (env : Env τ) : V τ Unit := do
  let a ← load (·.config.admin)
  let admin ← Tx.ofOption a (err .notInitialized)
  requireAuth env.auth admin

/-- Privileged entrypoints are closed once a multi-sig configuration is stored. -/
def requireNoMultisig : V τ Unit := do
  let config ← load (·.multisig.config)
  failIf (config.isSome = true) (err .requiresMultisig)

/-- `resolve_appeal`: not while there is a multi-sig. -/
def resolveAppeal (env : Env τ) (slashId : Nat) (uphold : Bool) : V τ Unit := do
  requireNoMultisig
  requireAdmin env
  doResolveAppeal env slashId uphold

/-- The loop of a batch of resolutions: how many succeeded. -/
def resolveEntries (env : Env τ) : List (Nat × Bool) → V τ Nat
  | [] => pure 0
  | (slashId, uphold) :: rest => do
    let result ← Tx.attempt (doResolveAppeal env slashId uphold)
    let processedCount ← resolveEntries env rest
    return (match result with | .ok _ => processedCount + 1 | .error _ => processedCount)

/-- `batch_resolve_appeal`: the multi-sig is not asked for. -/
def batchResolveAppeal (env : Env τ) (slashIds : List Nat) (upholds : List Bool) : V τ Nat := do
  requireAdmin env
  failIf (slashIds.length = 0 ∨ MAX_BATCH_SIZE < slashIds.length) (err .batchSizeInvalid)
  failIf (slashIds.length ≠ upholds.length) (err .batchLengthMismatch)
  resolveEntries env (slashIds.zip upholds)

/-! ## What a slash did -/

section Slashes

variable {env : Env τ} {w w' : World τ} {token provider caller : Address} {severity : SlashSeverity}
  {reason : Symbol} {n : Int} {u : Unit} {e : Fault StakeVaultError}

/-- What is checked of a provider before it is slashed. -/
structure Slashable (w : World τ) (provider : Address) (info : StakeInfoV2) : Prop where
  staked : w.store.stake.stakesV2.lookup provider = some info
  nonzero : info.balance ≠ 0
  cooledDown : ¬ slashCooldownActive ((w.store.slash.lastSlashLedger.lookup provider).getD 0)
    w.ledger.sequence w.store.config.slashCooldownLedgers

def World.slashBps (w : World τ) (severity : SlashSeverity) : Nat := w.store.config.slashTierConfig.bpsFor severity

def World.slashAmount (w : World τ) (provider : Address) (severity : SlashSeverity)
    (info : StakeInfoV2) : Int :=
  StakeVault.slashAmount w.store.stake provider (w.slashBps severity) info

/-- The record of a slash of `provider` in `w`. -/
def World.slashRecordOf (w : World τ) (provider : Address) (severity : SlashSeverity)
    (reason : Symbol) (info : StakeInfoV2) : SlashRecord where
  slashId := w.store.slash.slashCounter
  provider := provider
  severity := severity
  slashAmount := w.slashAmount provider severity info
  slashedAt := w.ledger.timestamp
  reason := reason
  cooldownExpiresAt := if 0 < w.store.config.slashCooldownLedgers then
    u32Add w.ledger.sequence w.store.config.slashCooldownLedgers else 0

/-- The world after the books of a slash were written, before its funds are held or burned. -/
def World.slashed (w : World τ) (provider : Address) (severity : SlashSeverity) (reason : Symbol)
    (info : StakeInfoV2) : World τ :=
  { w with store := { w.store with
    stake := w.store.stake.slashed w.ledger.timestamp provider (w.slashBps severity) info
    slash.slashCounter := u64Add w.store.slash.slashCounter 1
    slash.slashRecord := w.store.slash.slashRecord.insert w.store.slash.slashCounter
      (w.slashRecordOf provider severity reason info)
    slash.lastSlashLedger := w.store.slash.lastSlashLedger.insert provider (u32Add w.ledger.sequence 1) } }

/-- The world with `amount` held under `slashId`. -/
def World.hold (w : World τ) (slashId : Nat) (amount : Int) : World τ :=
  { w with store := { w.store with
    slash.slashedFundsHeld := w.store.slash.slashedFundsHeld.insert slashId amount } }

/-- The world after the vault burned `amount`. -/
def World.burned (w : World τ) (env : Env τ) (token : Address) (amount : Int) (t : τ) : World τ :=
  { w with token := t, log := .burn token env.self amount :: w.log }

theorem holdOrBurn_ok {slashId window : Nat} :
    holdOrBurn env token slashId n window w = (.ok u, w') ↔
      (0 < window ∧ w.hold slashId n = w') ∨
      (window = 0 ∧ ∃ t, env.tokens.burn token env.self n w.token = .ok t ∧ w.burned env token n t = w') := by
  unfold holdOrBurn
  split
  · rename_i h; simp [h, Nat.ne_of_gt h, World.hold]
  · rename_i h; simp [Nat.eq_zero_of_not_pos h, World.burned]

theorem holdOrBurn_error {slashId window : Nat} :
    holdOrBurn env token slashId n window w = (.error e, w') ↔
      window = 0 ∧ w = w' ∧ ∃ f, env.tokens.burn token env.self n w.token = .error f ∧
        err (.ofTokenFailure (classify f)) = e := by
  unfold holdOrBurn
  split
  · rename_i h; simp [Nat.ne_of_gt h]
  · rename_i h
    simp [Nat.eq_zero_of_not_pos h]
    constructor
    · rintro ⟨f, ⟨hf, rfl⟩, he⟩; exact ⟨rfl, f, hf, he⟩
    · rintro ⟨rfl, f, hf, he⟩; exact ⟨f, ⟨hf, rfl⟩, he⟩

/-- A slash that returned wrote its books and held or burned the amount. -/
theorem doSlash_ok : doSlash env provider severity reason w = (.ok n, w') ↔
    ∃ token, w.store.config.stakeToken = some token ∧ ∃ info, Slashable w provider info ∧
      w.slashAmount provider severity info = n ∧
      ((0 < w.store.config.appealWindowSecs ∧
        (w.slashed provider severity reason info).hold w.store.slash.slashCounter n = w') ∨
       (w.store.config.appealWindowSecs = 0 ∧
        ∃ t, env.tokens.burn token env.self n w.token = .ok t ∧
          (w.slashed provider severity reason info).burned env token n t = w')) := by
  unfold doSlash
  simp [holdOrBurn_ok, and_assoc]
  constructor
  · rintro ⟨token, htok, hc, info, hi, h0, h, rfl⟩
    exact ⟨token, htok, info, ⟨hi, h0, hc⟩, rfl, h⟩
  · rintro ⟨token, htok, info, ⟨hi, h0, hc⟩, rfl, h⟩
    exact ⟨token, htok, hc, info, hi, h0, h, rfl⟩

/-- A slash that fails did not pass its checks and changed nothing, or it wrote its books and was
refused the burn. -/
theorem doSlash_error (h : doSlash env provider severity reason w = (.error e, w')) :
    (∃ x, e = .err x) ∧ (((w.store.config.stakeToken = none ∨ ∀ info, ¬ Slashable w provider info) ∧
        w' = w) ∨
      ∃ token, w.store.config.stakeToken = some token ∧ ∃ info, Slashable w provider info ∧
        w.store.config.appealWindowSecs = 0 ∧
        (∃ f, env.tokens.burn token env.self (w.slashAmount provider severity info) w.token = .error f) ∧
        w' = w.slashed provider severity reason info) := by
  simp [doSlash, holdOrBurn_error] at h
  rcases h with ⟨htok, rfl, rfl⟩ | ⟨token, htok, ⟨hc, rfl, rfl⟩ | ⟨hc, ⟨hi, rfl, rfl⟩ |
    ⟨info, hi, ⟨h0, rfl, rfl⟩ | ⟨h0, hwin, rfl, f, hf, rfl⟩⟩⟩⟩
  · exact ⟨⟨_, rfl⟩, .inl ⟨.inl htok, rfl⟩⟩
  · exact ⟨⟨_, rfl⟩, .inl ⟨.inr fun info hs => hs.cooledDown hc, rfl⟩⟩
  · refine ⟨⟨_, rfl⟩, .inl ⟨.inr fun info hs => ?_, rfl⟩⟩
    rw [hs.staked] at hi
    cases hi
  · refine ⟨⟨_, rfl⟩, .inl ⟨.inr fun info' hs => hs.nonzero ?_, rfl⟩⟩
    rw [hs.staked] at hi
    cases hi
    exact h0
  · exact ⟨⟨_, rfl⟩, .inr ⟨token, htok, info, ⟨hi, h0, hc⟩, hwin, ⟨f, hf⟩, rfl⟩⟩

@[simp] theorem requireSignalRegistry_ok :
    (requireSignalRegistry caller : V τ Unit) w = (.ok u, w') ↔
      w.store.config.signalRegistry = some caller ∧ w = w' := by
  simp only [requireSignalRegistry, bind_ok, load_ok, ofOption_ok, failIf_ok, not_not]
  constructor
  · rintro ⟨_, _, ⟨rfl, rfl⟩, r, _, ⟨hr, rfl⟩, rfl, rfl⟩; exact ⟨hr, rfl⟩
  · rintro ⟨hr, rfl⟩; exact ⟨_, _, ⟨rfl, rfl⟩, _, _, ⟨hr, rfl⟩, rfl, rfl⟩

theorem slashStake_ok : slashStake env caller provider severity reason w = (.ok n, w') ↔
    w.store.guards.sharedContractLock = false ∧ env.auth caller = true ∧
      w.store.config.signalRegistry = some caller ∧
      doSlash env provider severity reason w = (.ok n, w') := by
  simp [slashStake, and_assoc]

theorem batchSlashStake_ok {providers : List Address} {severities : List SlashSeverity}
    {amounts : List Int} :
    batchSlashStake env caller providers severities reason w = (.ok amounts, w') ↔
      env.auth caller = true ∧ w.store.config.signalRegistry = some caller ∧
      ¬ (providers.length = 0 ∨ MAX_BATCH_SIZE < providers.length) ∧
      providers.length = severities.length ∧
      slashEntries env reason (providers.zip severities) w = (.ok amounts, w') := by
  simp [batchSlashStake, and_assoc]

end Slashes

/-! ## What a resolution did -/

section Resolutions

variable {env : Env τ} {w w' : World τ} {token : Address} {slashId : Nat} {uphold : Bool} {u : Unit}
  {e : Fault StakeVaultError}

/-- A slash whose appeal waits for its resolution. -/
structure Resolvable (w : World τ) (slashId : Nat) (record : SlashRecord) (appeal : SlashAppeal) :
    Prop where
  recorded : w.store.slash.slashRecord.lookup slashId = some record
  appealed : w.store.slash.slashAppeal.lookup slashId = some appeal
  pending : appeal.status = .pending

/-- What is held for a slash. -/
def heldFor (s : SlashStorage) (slashId : Nat) : Int := (s.slashedFundsHeld.lookup slashId).getD 0

/-- The world without the hold of `slashId`. -/
def World.release (w : World τ) (slashId : Nat) : World τ :=
  { w with store := { w.store with
    slash.slashedFundsHeld := w.store.slash.slashedFundsHeld.erase slashId } }

/-- The world after `amount` was credited to the stake of `provider`. -/
def World.credited (w : World τ) (provider : Address) (amount : Int) : World τ :=
  { w with store := { w.store with
    stake.stakesV2 := w.store.stake.stakesV2.insert provider
      ⟨saturatingAdd (infoOf w.store.stake.stakesV2 provider).balance amount,
        (infoOf w.store.stake.stakesV2 provider).lockedUntil, w.ledger.timestamp⟩ } }

/-- The world after the appeal of a slash was resolved. -/
def World.closed (w : World τ) (slashId : Nat) (appeal : SlashAppeal) (uphold : Bool) : World τ :=
  { w with store := { w.store with
    slash.slashAppeal := w.store.slash.slashAppeal.insert slashId
      { appeal with status := resolvedStatus uphold } } }

theorem upholdSlash_ok {held : Int} : upholdSlash env token slashId held w = (.ok u, w') ↔
    (held ≤ 0 ∧ w = w') ∨ (0 < held ∧ ∃ t, env.tokens.burn token env.self held w.token = .ok t ∧
      (w.release slashId).burned env token held t = w') := by
  unfold upholdSlash
  split
  · rename_i h; simp [Int.not_le.mpr h, h, World.burned, World.release]
  · rename_i h; simp [Int.not_lt.mp h, h]

theorem upholdSlash_error {held : Int} (h : upholdSlash env token slashId held w = (.error e, w')) :
    (∃ x, e = .err x) ∧ 0 < held ∧
      (∃ f, env.tokens.burn token env.self held w.token = .error f) ∧ w' = w.release slashId := by
  unfold upholdSlash at h
  split at h
  · rename_i hh
    simp at h
    obtain ⟨f, ⟨hf, rfl⟩, rfl⟩ := h
    exact ⟨⟨_, rfl⟩, hh, ⟨f, hf⟩, rfl⟩
  · simp at h

theorem reverseSlash_ok {record : SlashRecord} {held : Int} :
    (reverseSlash record slashId held : V τ Unit) w = (.ok u, w') ↔
      (0 < held ∧ (w.credited record.provider held).release slashId = w') ∨
      (held ≤ 0 ∧ w.credited record.provider record.slashAmount = w') := by
  unfold reverseSlash
  by_cases h : 0 < held
  · simp [h, World.release, World.credited, Int.not_le.mpr h]
  · simp [h, World.credited, Int.not_lt.mp h]

theorem reverseSlash_error {record : SlashRecord} {held : Int} :
    ¬ (reverseSlash record slashId held : V τ Unit) w = (.error e, w') := by
  simp [reverseSlash]

/-- A resolution that returned closed the appeal and burned the held funds, or credited them (or,
without held funds, the recorded amount) to the provider. -/
theorem doResolveAppeal_ok (h : doResolveAppeal env slashId uphold w = (.ok u, w')) :
    ∃ token, w.store.config.stakeToken = some token ∧ ∃ record appeal,
      Resolvable w slashId record appeal ∧
      ((uphold = true ∧ heldFor w.store.slash slashId ≤ 0 ∧ w' = w.closed slashId appeal true) ∨
       (uphold = true ∧ 0 < heldFor w.store.slash slashId ∧
        ∃ t, env.tokens.burn token env.self (heldFor w.store.slash slashId) w.token = .ok t ∧
          w' = ((w.release slashId).burned env token (heldFor w.store.slash slashId) t).closed
            slashId appeal true) ∨
       (uphold = false ∧ 0 < heldFor w.store.slash slashId ∧
        w' = ((w.credited record.provider (heldFor w.store.slash slashId)).release slashId).closed
          slashId appeal false) ∨
       (uphold = false ∧ heldFor w.store.slash slashId ≤ 0 ∧
        w' = (w.credited record.provider record.slashAmount).closed slashId appeal false)) := by
  simp [doResolveAppeal, and_assoc] at h
  obtain ⟨record, hr, appeal, ha, hp, token, htok, _, w₁, hw, rfl⟩ := h
  refine ⟨token, htok, record, appeal, ⟨hr, ha, hp⟩, ?_⟩
  cases uphold with
  | true =>
    rcases upholdSlash_ok.mp hw with ⟨h0, rfl⟩ | ⟨h0, t, ht, rfl⟩
    · exact .inl ⟨rfl, h0, rfl⟩
    · exact .inr (.inl ⟨rfl, h0, t, ht, rfl⟩)
  | false =>
    rcases reverseSlash_ok.mp hw with ⟨h0, rfl⟩ | ⟨h0, rfl⟩
    · exact .inr (.inr (.inl ⟨rfl, h0, rfl⟩))
    · exact .inr (.inr (.inr ⟨rfl, h0, rfl⟩))

/-- A resolution that fails did not pass its checks and changed nothing, or it released the hold and
was refused the burn. -/
theorem doResolveAppeal_error (h : doResolveAppeal env slashId uphold w = (.error e, w')) :
    (∃ x, e = .err x) ∧ (((w.store.config.stakeToken = none ∨
        ∀ record appeal, ¬ Resolvable w slashId record appeal) ∧ w' = w) ∨
      ∃ token, w.store.config.stakeToken = some token ∧ ∃ record appeal,
        Resolvable w slashId record appeal ∧ uphold = true ∧ 0 < heldFor w.store.slash slashId ∧
        (∃ f, env.tokens.burn token env.self (heldFor w.store.slash slashId) w.token = .error f) ∧
        w' = w.release slashId) := by
  simp [doResolveAppeal] at h
  rcases h with ⟨hr, rfl, rfl⟩ | ⟨record, hr, ⟨ha, rfl, rfl⟩ | ⟨appeal, ha, ⟨hp, rfl, rfl⟩ |
    ⟨hp, ⟨htok, rfl, rfl⟩ | ⟨token, htok, hw⟩⟩⟩⟩
  · refine ⟨⟨_, rfl⟩, .inl ⟨.inr fun record appeal hx => ?_, rfl⟩⟩
    rw [hx.recorded] at hr
    cases hr
  · refine ⟨⟨_, rfl⟩, .inl ⟨.inr fun record appeal hx => ?_, rfl⟩⟩
    rw [hx.appealed] at ha
    cases ha
  · refine ⟨⟨_, rfl⟩, .inl ⟨.inr fun record' appeal' hx => hp ?_, rfl⟩⟩
    rw [hx.appealed] at ha
    cases ha
    exact hx.pending
  · exact ⟨⟨_, rfl⟩, .inl ⟨.inl htok, rfl⟩⟩
  · cases uphold with
    | true =>
      obtain ⟨hx, h0, hf, rfl⟩ := upholdSlash_error hw
      exact ⟨hx, .inr ⟨token, htok, record, appeal, ⟨hr, ha, hp⟩, rfl, h0, hf, rfl⟩⟩
    | false => exact absurd hw reverseSlash_error

@[simp] theorem requireAdmin_ok : (requireAdmin env : V τ Unit) w = (.ok u, w') ↔
    ∃ admin, w.store.config.admin = some admin ∧ env.auth admin = true ∧ w = w' := by
  simp [requireAdmin, and_assoc]

@[simp] theorem requireNoMultisig_ok : (requireNoMultisig : V τ Unit) w = (.ok u, w') ↔
    w.store.multisig.config = none ∧ w = w' := by
  simp [requireNoMultisig]

theorem resolveAppeal_ok : resolveAppeal env slashId uphold w = (.ok u, w') ↔
    w.store.multisig.config = none ∧
      ∃ admin, w.store.config.admin = some admin ∧ env.auth admin = true ∧
      doResolveAppeal env slashId uphold w = (.ok u, w') := by
  simp [resolveAppeal, and_assoc]

theorem batchResolveAppeal_ok {slashIds : List Nat} {upholds : List Bool} {n : Nat} :
    batchResolveAppeal env slashIds upholds w = (.ok n, w') ↔
      ∃ admin, w.store.config.admin = some admin ∧ env.auth admin = true ∧
      ¬ (slashIds.length = 0 ∨ MAX_BATCH_SIZE < slashIds.length) ∧
      slashIds.length = upholds.length ∧
      resolveEntries env (slashIds.zip upholds) w = (.ok n, w') := by
  simp [batchResolveAppeal, and_assoc]

theorem appealSlash_ok {appellant : Address} {evidenceUri : String}
    (h : appealSlash env appellant slashId evidenceUri w = (.ok u, w')) :
    ∃ record, w.store.slash.slashRecord.lookup slashId = some record ∧
      record.provider = appellant ∧ w.store.slash.slashAppeal.lookup slashId = none ∧
      w.store.config.appealWindowSecs ≠ 0 ∧
      w.ledger.timestamp ≤ u64Add record.slashedAt w.store.config.appealWindowSecs ∧
      w' = { w with store := { w.store with
        slash.slashAppeal := w.store.slash.slashAppeal.insert slashId
          { slashId, appellant, evidenceUri, submittedAt := w.ledger.timestamp
            status := .pending } } } := by
  simp [appealSlash, and_assoc] at h
  obtain ⟨-, record, hr, hp, hw, ht, ha, rfl⟩ := h
  exact ⟨record, hr, hp, ha, hw, ht, rfl⟩

end Resolutions

end CallStake.StakeVault
