import CallStake.StakeVault.Footprint

/-!
# Calls back into the vault while it pays

A payout reads the stakes, calls the token, and then writes the stakes back. Here the token is not a
function of its own state alone: before it answers it calls the vault back, any number of times.

* `payoutWith`: `do_withdraw` and `do_partial_unstake` with a token that calls back; with an empty script
  they are the payouts of the vault (`payoutWith_nil`).
* `Twins`: a vault and the same vault with a payout in flight. `WithdrawLock` is read by the payouts
  alone, so every other call does the same in both (`invoke_twins`).
* `Harmless`: what the lock is for. `payout_harmless_iff`: it is reached exactly when the callbacks that
  would write the stakes are payouts themselves.
-/

namespace CallStake.StakeVault

open Tx

variable {τ : Type}

/-! ## Payouts with callbacks -/

/-- What a token contract does during a transfer: a call of the vault, or a change of its own. -/
inductive Callback (τ : Type) where
  | call (auth : Auth) (c : Call)
  | external (token : τ)

section Payouts

variable (T : Tokens τ) (self : Address)

def callback (w : World τ) : Callback τ → World τ
  | .call auth c => (invoke ⟨T, self, auth⟩ c).exec w
  | .external token => { w with token }

/-- The world after the callbacks of `script`. -/
def reenter (script : List (Callback τ)) (w : World τ) : World τ := script.foldl (callback T self) w

end Payouts

/-- `try_transfer` of a token that calls back before it answers. A transfer that fails takes its callbacks
back with it. -/
def tryTransferWith (env : Env τ) (script : List (Callback τ)) (token src dst : Address) (amount : Int) :
    V τ Unit := do
  tryTransfer env token src dst amount
  Tx.modify (reenter env.tokens env.self script)

def doWithdrawLockedWith (env : Env τ) (script : List (Callback τ)) (staker : Address) : V τ Int := do
  let token ← getStakeToken
  let stakes ← load (·.stake.stakesV2)
  let info ← Tx.ofOption (stakes.lookup staker) (err .noStake)
  failIf (info.balance = 0) (err .noStake)
  let now ← timestamp
  failIf (now < info.lockedUntil) (err .stakeLocked)
  let currentLedger ← sequence
  let flashLoan ← load fun s => decide (sameLedgerDeposit s staker currentLedger)
  failIf (flashLoan = true) (err .flashLoanDetected)
  let large ← checkTimelock staker info.balance now
  let amount := info.balance
  tryTransferWith env script token env.self staker amount
  save fun s => { s with guards := s.guards.consume staker large }
  save fun s => { s with stake.stakesV2 := stakes.insert staker ⟨0, info.lockedUntil, now⟩ }
  return amount

def doPartialUnstakeLockedWith (env : Env τ) (script : List (Callback τ)) (staker : Address)
    (amount : Int) : V τ Int := do
  let token ← getStakeToken
  let stakes ← load (·.stake.stakesV2)
  let info ← Tx.ofOption (stakes.lookup staker) (err .noStake)
  failIf (info.balance = 0) (err .noStake)
  failIf (info.balance ≤ amount) (err .invalidAmount)
  let now ← timestamp
  failIf (now < info.lockedUntil) (err .stakeLocked)
  let currentLedger ← sequence
  let flashLoan ← load fun s => decide (sameLedgerDeposit s staker currentLedger)
  failIf (flashLoan = true) (err .flashLoanDetected)
  let large ← checkTimelock staker amount now
  let remaining := info.balance - amount
  let minimumStake ← load (·.config.minimumStake)
  failIf (0 < minimumStake ∧ remaining < minimumStake) (err .remainingStakeBelowMinimum)
  tryTransferWith env script token env.self staker amount
  save fun s => { s with guards := s.guards.consume staker large }
  save fun s => { s with
    stake.stakesV2 := stakes.insert staker ⟨remaining, info.lockedUntil, now⟩ }
  return amount

/-- The two payouts of the vault. -/
inductive Payout where
  | withdraw
  | part (amount : Int)

/-- `do_withdraw` and `do_partial_unstake` with the callbacks of `script` during the transfer. -/
def payoutWith (env : Env τ) (script : List (Callback τ)) (staker : Address) : Payout → V τ Int
  | .withdraw => withWithdrawLock (doWithdrawLockedWith env script staker)
  | .part amount => withWithdrawLock (doPartialUnstakeLockedWith env script staker amount)

/-- A token that calls nobody back pays as the vault expects. -/
theorem payoutWith_nil (env : Env τ) (staker : Address) (p : Payout) :
    payoutWith env [] staker p =
      match p with
      | .withdraw => doWithdraw env staker
      | .part amount => doPartialUnstake env staker amount := by
  have ht : ∀ token src dst amount, tryTransferWith env [] token src dst amount =
      tryTransfer env token src dst amount := fun token src dst amount => by
    funext w
    rcases h : tryTransfer env token src dst amount w with ⟨_ | _, w'⟩
    · exact bind_of_error h
    · exact bind_of_ok h
  cases p with
  | withdraw => simp only [payoutWith, doWithdraw, doWithdrawLockedWith, doWithdrawLocked, ht]
  | part =>
    simp only [payoutWith, doPartialUnstake, doPartialUnstakeLockedWith, doPartialUnstakeLocked, ht]

/-! ## The vault with and without a payout in flight -/

/-- `u` is `v` with a payout in flight. -/
def Twins (v u : World τ) : Prop := v.store.guards.withdrawLock = false ∧ u = v.lock true

section Twins

variable {env : Env τ} {α : Type}

/-- What ignores the lock. -/
theorem twins_load {f : Storage → α}
    (hf : ∀ s : Storage, f { s with guards.withdrawLock := true } = f s) :
    Tx.Respects Twins (load f : V τ α) :=
  respects_gets fun v _ h => by
    obtain ⟨-, rfl⟩ := h
    exact (hf v.store).symm

/-- What leaves the lock as it is. -/
theorem twins_save {f : Storage → Storage} (hl : ∀ s, (f s).guards.withdrawLock = s.guards.withdrawLock)
    (hf : ∀ s, f { s with guards.withdrawLock := true } = { f s with guards.withdrawLock := true }) :
    Tx.Respects Twins (save f : V τ Unit) :=
  respects_modify fun v _ h => by
    obtain ⟨h0, rfl⟩ := h
    refine ⟨(hl v.store).trans h0, ?_⟩
    simp only [World.lock, hf]

theorem twins_timestamp : Tx.Respects Twins (timestamp : V τ Nat) :=
  respects_gets fun _ _ h => by
    obtain ⟨-, rfl⟩ := h
    rfl

theorem twins_sequence : Tx.Respects Twins (sequence : V τ Nat) :=
  respects_gets fun _ _ h => by
    obtain ⟨-, rfl⟩ := h
    rfl

theorem twins_invokeToken (op : τ → Except InvokeFailure τ) (entry : LogEntry) :
    Tx.Respects Twins (invokeToken op entry) where
  run v _ h := by
    obtain ⟨h0, rfl⟩ := h
    unfold invokeToken
    cases hop : op v.token with
    | ok t =>
      simp [World.lock, hop]
      exact ⟨h0, rfl⟩
    | error e =>
      simp [World.lock, hop]
      exact ⟨h0, rfl⟩

theorem twins_requireAuth (auth : Auth) (a : Address) : Tx.Respects Twins (requireAuth auth a : V τ Unit) :=
  respects_failIf _ _

theorem twins_tryTransfer (token src dst : Address) (amount : Int) :
    Tx.Respects Twins (tryTransfer env token src dst amount) :=
  respects_mapErr _ (twins_invokeToken _ _)

theorem twins_tryBurn (token src : Address) (amount : Int) :
    Tx.Respects Twins (tryBurn env token src amount) :=
  respects_mapErr _ (twins_invokeToken _ _)

theorem twins_getStakeToken : Tx.Respects Twins (getStakeToken : V τ Address) :=
  respects_bind (twins_load fun _ => rfl) fun _ => respects_ofOption _ _

theorem twins_onMultisig {f : Multisig.MultisigError → StakeVaultError} {x : Multisig.M α} :
    Tx.Respects Twins (onMultisig f x : V τ α) := by
  refine respects_mapErr _ ⟨fun v _ h => ?_⟩
  obtain ⟨h0, rfl⟩ := h
  exact ⟨rfl, h0, rfl⟩

theorem twins_depositStake (staker : Address) (amount : Int) :
    Tx.Respects Twins (depositStake env staker amount) := by
  unfold depositStake requireNotLocked requireNotPaused
  repeat' with_reducible first
    | intro _
    | apply respects_bind
    | apply respects_failIf
    | apply respects_ofOption
    | apply twins_requireAuth
    | apply twins_getStakeToken
    | apply twins_tryTransfer
    | apply twins_timestamp
    | apply twins_sequence
  all_goals first
    | exact twins_load fun _ => rfl
    | exact twins_save (fun _ => rfl) fun _ => rfl

theorem twins_delegateStake (delegator provider : Address) (amount : Int) :
    Tx.Respects Twins (delegateStake env delegator provider amount) := by
  unfold delegateStake requireNotPaused
  repeat' with_reducible first
    | intro _
    | apply respects_bind
    | apply respects_failIf
    | apply respects_ofOption
    | apply twins_requireAuth
    | apply twins_getStakeToken
    | apply twins_tryTransfer
  all_goals first
    | exact twins_load fun _ => rfl
    | exact twins_save (fun _ => rfl) fun _ => rfl

theorem twins_doSlash (provider : Address) (severity : SlashSeverity) (reason : Symbol) :
    Tx.Respects Twins (doSlash env provider severity reason) := by
  unfold doSlash holdOrBurn
  repeat' with_reducible first
    | intro _
    | apply respects_bind
    | apply respects_ite
    | apply respects_failIf
    | apply respects_ofOption
    | apply respects_pure
    | apply twins_getStakeToken
    | apply twins_tryBurn
    | apply twins_timestamp
    | apply twins_sequence
  all_goals first
    | exact twins_load fun _ => rfl
    | exact twins_save (fun _ => rfl) fun _ => rfl

theorem twins_slashEntries (reason : Symbol) (entries : List (Address × SlashSeverity)) :
    Tx.Respects Twins (slashEntries env reason entries) := by
  induction entries with
  | nil => exact respects_pure _
  | cons e rest ih =>
    exact respects_bind (respects_attempt (twins_doSlash _ _ _)) fun _ =>
      respects_bind ih fun _ => respects_pure _

theorem twins_upholdSlash (token : Address) (slashId : Nat) (held : Int) :
    Tx.Respects Twins (upholdSlash env token slashId held) :=
  respects_ite (respects_bind (twins_save (fun _ => rfl) fun _ => rfl) fun _ =>
    twins_tryBurn _ _ _) (respects_pure ())

theorem twins_reverseSlash (record : SlashRecord) (slashId : Nat) (held : Int) :
    Tx.Respects Twins (reverseSlash record slashId held : V τ Unit) :=
  respects_bind (twins_load fun _ => rfl) fun _ => respects_bind twins_timestamp fun _ =>
    respects_bind (twins_save (fun _ => rfl) fun _ => rfl) fun _ =>
      twins_save (fun _ => rfl) fun _ => rfl

theorem twins_doResolveAppeal (slashId : Nat) (uphold : Bool) :
    Tx.Respects Twins (doResolveAppeal env slashId uphold) := by
  refine respects_bind (twins_load fun _ => rfl) fun _ => ?_
  refine respects_bind (respects_ofOption _ _) fun _ => ?_
  refine respects_bind (twins_load fun _ => rfl) fun _ => ?_
  refine respects_bind (respects_ofOption _ _) fun _ => ?_
  refine respects_bind (respects_failIf _ _) fun _ => ?_
  refine respects_bind (twins_load fun _ => rfl) fun _ => ?_
  refine respects_bind twins_getStakeToken fun _ => ?_
  refine respects_bind ?_ fun _ => twins_save (fun _ => rfl) fun _ => rfl
  cases uphold
  · exact twins_reverseSlash _ _ _
  · exact twins_upholdSlash _ _ _

theorem twins_resolveEntries (entries : List (Nat × Bool)) :
    Tx.Respects Twins (resolveEntries env entries) := by
  induction entries with
  | nil => exact respects_pure _
  | cons e rest ih =>
    exact respects_bind (respects_attempt (twins_doResolveAppeal _ _)) fun _ =>
      respects_bind ih fun _ => respects_pure _

theorem twins_requireAdmin : Tx.Respects Twins (requireAdmin env) :=
  respects_bind (twins_load fun _ => rfl) fun _ =>
    respects_bind (respects_ofOption _ _) fun _ => twins_requireAuth _ _

theorem twins_requireSignalRegistry (caller : Address) :
    Tx.Respects Twins (requireSignalRegistry caller : V τ Unit) :=
  respects_bind (twins_load fun _ => rfl) fun _ =>
    respects_bind (respects_ofOption _ _) fun _ => respects_failIf _ _

theorem twins_performAction (action : Action) : Tx.Respects Twins (performAction env action) := by
  cases action with
  | resolveAppeal slashId uphold => exact twins_doResolveAppeal slashId uphold
  | configureSlashTiers =>
    exact respects_bind (respects_bind (respects_failIf _ _) fun _ => respects_failIf _ _)
      fun _ => twins_save (fun _ => rfl) fun _ => rfl
  | setWithdrawalCooldown | setAppealWindow =>
    exact respects_bind (respects_failIf _ _) fun _ => twins_save (fun _ => rfl) fun _ => rfl
  | pause | unpause | setMinimumStake | setMinimumStakeDuration =>
    simp only [performAction, setPaused]
    exact twins_save (fun _ => rfl) fun _ => rfl

theorem twins_approve (signer staker token : Address) :
    Tx.Respects Twins (EmergencyUnstake.approve env signer staker token) := by
  unfold EmergencyUnstake.approve EmergencyUnstake.executeEarlyUnstake EmergencyUnstake.burnIfPositive
    EmergencyUnstake.transferIfPositive EmergencyUnstake.getConfig EmergencyUnstake.getRequest
    EmergencyUnstake.removeRequest EmergencyUnstake.saveRequest EmergencyUnstake.setLastUnstakeAt burn
    transfer
  repeat' with_reducible first
    | intro _
    | apply respects_bind
    | apply respects_ite
    | apply respects_failIf
    | apply respects_ofOption
    | apply respects_pure
    | apply respects_fail
    | apply respects_mapErr
    | apply twins_invokeToken
    | apply twins_timestamp
  all_goals first
    | exact twins_load fun _ => rfl
    | exact twins_save (fun _ => rfl) fun _ => rfl

/-- A call that does not take the lock itself. -/
def Call.Unlocked : Call → Bool
  | .withdrawStake .. | .partialUnstake .. | .processUnstakeQueue .. => false
  | _ => true

/-- Where the stakes or the guards are written without the lock of a payout, it is not read either. -/
theorem invoke_twins {c : Call} (hc : c.Unlocked = true)
    (hf : .stake ∈ c.footprint ∨ .guards ∈ c.footprint) : Tx.Respects Twins (invoke env c) := by
  cases c with
  | depositStake staker amount => exact twins_depositStake staker amount
  | slashStake =>
    exact respects_bind (respects_bind (respects_bind (twins_load fun _ => rfl) fun _ =>
      respects_failIf _ _) fun _ => respects_bind (twins_requireAuth _ _) fun _ =>
        respects_bind (twins_requireSignalRegistry _) fun _ => twins_doSlash _ _ _) fun _ =>
          respects_pure _
  | batchSlashStake =>
    exact respects_bind (respects_bind (twins_requireAuth _ _) fun _ =>
      respects_bind (twins_requireSignalRegistry _) fun _ =>
        respects_bind (respects_failIf _ _) fun _ => respects_bind (respects_failIf _ _)
          fun _ => twins_slashEntries _ _) fun _ => respects_pure _
  | resolveAppeal =>
    exact respects_bind (respects_bind (twins_load fun _ => rfl) fun _ => respects_failIf _ _)
      fun _ => respects_bind twins_requireAdmin fun _ => twins_doResolveAppeal _ _
  | batchResolveAppeal =>
    exact respects_bind (respects_bind twins_requireAdmin fun _ =>
      respects_bind (respects_failIf _ _) fun _ => respects_bind (respects_failIf _ _)
        fun _ => twins_resolveEntries _) fun _ => respects_pure _
  | executeAction =>
    exact respects_bind (twins_requireAuth _ _) fun _ => respects_bind twins_onMultisig fun _ =>
      respects_bind twins_timestamp fun _ => respects_bind twins_onMultisig fun _ =>
        respects_bind (respects_ofOption _ _) fun _ => respects_bind (twins_performAction _)
          fun _ => twins_onMultisig
  | approveEmergencyUnstake =>
    exact respects_bind (twins_requireAuth _ _) fun _ => respects_bind twins_getStakeToken
      fun _ => twins_approve _ _ _
  | delegateStake delegator provider amount =>
    exact twins_delegateStake delegator provider amount
  | notifyStakeBelowMinimum =>
    exact respects_bind (twins_load fun _ => rfl) fun _ => respects_bind (twins_load fun _ => rfl)
      fun _ => respects_ite (respects_pure _) (respects_bind twins_timestamp fun _ =>
        twins_save (fun _ => rfl) fun _ => rfl)
  | checkSignalSubmissionAllowed =>
    exact respects_bind (twins_load fun _ => rfl) fun _ => respects_bind (twins_load fun _ => rfl)
      fun _ => respects_ite (twins_save (fun _ => rfl) fun _ => rfl) (respects_bind twins_timestamp
        fun _ => respects_bind (twins_load fun _ => rfl) fun _ => respects_failIf _ _)
  | requestWithdrawal =>
    exact respects_bind (twins_requireAuth _ _) fun _ => respects_bind (respects_bind
      (twins_load fun _ => rfl) fun _ => respects_failIf _ _) fun _ => respects_bind
        (twins_load fun _ => rfl) fun _ => respects_ite (respects_pure _) (respects_bind
          twins_timestamp fun _ => twins_save (fun _ => rfl) fun _ => rfl)
  | withdrawStake | partialUnstake | processUnstakeQueue => cases hc
  | _ => simp [Call.footprint] at hf

end Twins

/-! ## What a callback does -/

section Callbacks

variable {env : Env τ} {u : World τ} {staker : Address} {c : Call}

/-- Under the lock of a payout there is no second one. -/
theorem withWithdrawLock_locked {α : Type} {body : V τ α} (h : u.store.guards.withdrawLock = true) :
    withWithdrawLock body u = (.error (err .reentrancyDetected), u) := by
  simp [withWithdrawLock, h]

/-- Under the lock no request of the queue is paid. -/
theorem processLoop_locked (env : Env τ) (h : u.store.guards.withdrawLock = true)
    (limit tail fuel processed head : Nat) :
    ∃ m h', processLoop env limit tail fuel processed head u = (.ok (m, h'), u) := by
  induction fuel generalizing processed head with
  | zero => exact ⟨_, _, rfl⟩
  | succ fuel ih =>
    rw [processLoop]
    by_cases hlt : processed < limit ∧ head < tail
    · rw [if_pos hlt]
      cases he : u.store.queue.unstakeQueueEntry.lookup head with
      | none =>
        obtain ⟨m, h', hr⟩ := ih processed (u64Add head 1)
        refine ⟨m, h', ?_⟩
        rw [bind_of_ok (load_ok.mpr ⟨he, rfl⟩)]
        exact hr
      | some request =>
        refine ⟨processed, head, ?_⟩
        rw [bind_of_ok (load_ok.mpr ⟨he, rfl⟩)]
        exact bind_of_ok (Tx.attempt_ok.mpr (.inr ⟨_, rfl, withWithdrawLock_locked h⟩))
    · rw [if_neg hlt]
      exact ⟨_, _, rfl⟩

/-- Under the lock the queue pays nothing, and says nothing of the lock. -/
theorem processUnstakeQueue_locked (h : u.store.guards.withdrawLock = true) (limit : Nat) :
    (∀ w', invoke env (.processUnstakeQueue limit) u ≠ (.error (err .reentrancyDetected), w')) ∧
      ∃ head, (invoke env (.processUnstakeQueue limit)).exec u =
        { u with store := { u.store with queue.unstakeQueueHead := head } } := by
  constructor
  · intro w' he
    obtain ⟨m, h', hl⟩ := processLoop_locked env h limit u.store.queue.unstakeQueueTail
      (u.store.queue.unstakeQueueTail - u.store.queue.unstakeQueueHead) 0
      u.store.queue.unstakeQueueHead
    by_cases h0 : limit = 0
    · simp [invoke, Tx.void, processUnstakeQueue, requireNotPaused, h0] at he
    · simp [invoke, Tx.void, processUnstakeQueue, requireNotPaused, h0, hl] at he
  · rcases exec_cases (invoke env (.processUnstakeQueue limit)) u with ⟨a, ha⟩ | h0
    · obtain ⟨n, hn⟩ := Tx.void_ok.mp ha
      rcases processUnstakeQueue_ok hn with h0 | ⟨-, m, h', w₁, hd, hw⟩
      · exact ⟨_, h0⟩
      · obtain ⟨m', h'', hl⟩ := processLoop_locked env h limit u.store.queue.unstakeQueueTail
          (u.store.queue.unstakeQueueTail - u.store.queue.unstakeQueueHead) 0
          u.store.queue.unstakeQueueHead
        rw [hd] at hl
        cases hl
        exact ⟨_, hw⟩
    · exact ⟨_, h0⟩

theorem withdrawStake_locked (h : u.store.guards.withdrawLock = true) {v' : World τ} {n : Int}
    (hv : withdrawStake env staker (u.lock false) = (.ok n, v')) :
    withdrawStake env staker u = (.error (err .reentrancyDetected), u) := by
  simp [withdrawStake, and_assoc] at hv
  obtain ⟨hp, hr, ha, -⟩ := hv
  have h₁ : (requireNotPaused : V τ Unit) u = (.ok (), u) := requireNotPaused_ok.mpr ⟨hp, rfl⟩
  have h₂ : (checkStakeChange staker : V τ Unit) u = (.ok (), u) := checkStakeChange_ok.mpr ⟨hr, rfl⟩
  have h₃ : (requireAuth env.auth staker : V τ Unit) u = (.ok (), u) := requireAuth_ok.mpr ⟨ha, rfl⟩
  rw [withdrawStake, bind_of_ok h₁, bind_of_ok h₂, bind_of_ok h₃]
  exact bind_of_error (withWithdrawLock_locked h)

theorem partialUnstake_locked (h : u.store.guards.withdrawLock = true) {v' : World τ} {n amount : Int}
    (hv : partialUnstake env staker amount (u.lock false) = (.ok n, v')) :
    partialUnstake env staker amount u = (.error (err .reentrancyDetected), u) := by
  simp only [partialUnstake, bind_ok, requireNotPaused_ok, failIf_ok, checkStakeChange_ok,
    requireAuth_ok, exists_const, ↓existsAndEq, true_and, and_assoc, exists_and_left] at hv
  obtain ⟨hp, hpos, hr, ha, -⟩ := hv
  have h₁ : (requireNotPaused : V τ Unit) u = (.ok (), u) := requireNotPaused_ok.mpr ⟨hp, rfl⟩
  have h₂ : (failIf (amount ≤ 0) (err .invalidAmount) : V τ Unit) u = (.ok (), u) := Tx.failIf_ok.mpr ⟨hpos, rfl⟩
  have h₃ : (checkStakeChange staker : V τ Unit) u = (.ok (), u) := checkStakeChange_ok.mpr ⟨hr, rfl⟩
  have h₄ : (requireAuth env.auth staker : V τ Unit) u = (.ok (), u) := requireAuth_ok.mpr ⟨ha, rfl⟩
  rw [partialUnstake, bind_of_ok h₁, bind_of_ok h₂, bind_of_ok h₃, bind_of_ok h₄]
  exact bind_of_error (withWithdrawLock_locked h)

theorem World.lock_unlock (h : u.store.guards.withdrawLock = true) : (u.lock false).lock true = u := by
  obtain ⟨l, ⟨cfg, st, sl, q, ⟨g1, g2, g3, g4, g5, g6⟩, em, ms, ra, re, str⟩, t, lg⟩ := u
  cases h
  rfl

/-- The calls that take the lock of a payout themselves. -/
def Call.IsPayout : Call → Bool
  | .withdrawStake .. | .partialUnstake .. => true
  | _ => false

/-- The calls that may write the stakes without taking the lock as a whole. -/
def Call.Unguarded : Call → Bool
  | .depositStake .. | .slashStake .. | .batchSlashStake .. | .resolveAppeal .. | .batchResolveAppeal ..
  | .executeAction .. | .approveEmergencyUnstake .. | .processUnstakeQueue .. => true
  | _ => false

/-- The call would change the stakes if no payout were in flight. -/
def WouldWrite (env : Env τ) (c : Call) (u : World τ) : Prop :=
  ((invoke env c).exec (u.lock false)).store.stake.stakesV2 ≠ u.store.stake.stakesV2
  deriving Decidable

/-- A call that would write returned. -/
theorem WouldWrite.ok (h : WouldWrite env c u) : ∃ v', invoke env c (u.lock false) = (.ok (), v') := by
  rcases exec_cases (invoke env c) (u.lock false) with ⟨a, ha⟩ | h0
  · exact ⟨_, ha⟩
  · exact absurd (congrArg (fun w : World τ => w.store.stake.stakesV2) h0) h

/-- The stakes are written by the payouts and by the unguarded calls only. -/
theorem WouldWrite.kinds (h : WouldWrite env c u) : c.IsPayout = true ∨ c.Unguarded = true := by
  by_cases hf : .stake ∈ c.footprint
  · cases c with
    | delegateStake =>
      obtain ⟨v', hv⟩ := h.ok
      obtain ⟨-, -, token, -, -, t, -, rfl⟩ := delegateStake_ok hv
      exact absurd (congrArg (fun w : World τ => w.store.stake.stakesV2) (exec_of_ok hv)) h
    | withdrawStake | partialUnstake => exact .inl rfl
    | depositStake | slashStake | batchSlashStake | resolveAppeal | batchResolveAppeal | executeAction
    | approveEmergencyUnstake | processUnstakeQueue => exact .inr rfl
    | _ => simp [Call.footprint] at hf
  · exact absurd (congrArg StakeStorage.stakesV2 (((invoke_writes env c).exec (u.lock false)).stake hf)) h

/-- A second payout is refused, and says why. -/
theorem invoke_payout (h : u.store.guards.withdrawLock = true) (hc : c.IsPayout = true) :
    (invoke env c).exec u = u ∧ (WouldWrite env c u → invoke env c u = (.error (err .reentrancyDetected), u)) := by
  cases c with
  | withdrawStake staker =>
    refine ⟨?_, fun hw => ?_⟩
    · rcases exec_cases (invoke env (.withdrawStake staker)) u with ⟨a, ha⟩ | h0
      · obtain ⟨n, hn⟩ := Tx.void_ok.mp ha
        obtain ⟨-, w₁, hd, -⟩ := withdrawStake_ok hn
        rw [doWithdraw, withWithdrawLock_locked h] at hd
        cases hd
      · exact h0
    · obtain ⟨v', hv⟩ := hw.ok
      obtain ⟨n, hn⟩ := Tx.void_ok.mp hv
      exact bind_of_error (withdrawStake_locked h hn)
  | partialUnstake staker amount =>
    refine ⟨?_, fun hw => ?_⟩
    · rcases exec_cases (invoke env (.partialUnstake staker amount)) u with ⟨a, ha⟩ | h0
      · obtain ⟨n, hn⟩ := Tx.void_ok.mp ha
        obtain ⟨-, -, w₁, hd, -⟩ := partialUnstake_ok hn
        rw [doPartialUnstake, withWithdrawLock_locked h] at hd
        cases hd
      · exact h0
    · obtain ⟨v', hv⟩ := hw.ok
      obtain ⟨n, hn⟩ := Tx.void_ok.mp hv
      exact bind_of_error (partialUnstake_locked h hn)
  | _ => cases hc

/-- Outside the payouts and the queue a callback does what it does without a payout in flight. -/
theorem invoke_unlocked_call (h : u.store.guards.withdrawLock = true) (hc : c.Unlocked = true) :
    ((invoke env c).exec u).store.guards.withdrawLock = true ∧
      ((invoke env c).exec u).store.stake.stakesV2 = ((invoke env c).exec (u.lock false)).store.stake.stakesV2 ∧
      (WouldWrite env c u → (invoke env c u).1 = .ok ()) := by
  by_cases hf : .stake ∈ c.footprint ∨ .guards ∈ c.footprint
  · have ht : Twins (u.lock false) u := ⟨rfl, (World.lock_unlock h).symm⟩
    have hresp : Tx.Respects Twins (invoke env c) := invoke_twins hc hf
    obtain ⟨he, -, hr⟩ := hresp.run _ _ ht
    rcases hu : invoke env c u with ⟨r, u'⟩
    rcases hv : invoke env c (u.lock false) with ⟨r', v'⟩
    rw [hu, hv] at he hr
    change r' = r at he
    change u' = v'.lock true at hr
    subst he hr
    cases r' with
    | ok a =>
      rw [exec_of_ok hu, exec_of_ok hv]
      exact ⟨rfl, rfl, fun _ => rfl⟩
    | error e =>
      rw [exec_of_error hu, exec_of_error hv]
      refine ⟨h, rfl, fun hw => ?_⟩
      obtain ⟨v, hok⟩ := hw.ok
      rw [hv] at hok
      cases hok
  · rw [not_or] at hf
    have hu := (invoke_writes env c).exec u
    have hv := (invoke_writes env c).exec (u.lock false)
    refine ⟨(congrArg GuardStorage.withdrawLock (hu.guards hf.2)).trans h, ?_, fun hw => ?_⟩
    · rw [hu.stake hf.1, hv.stake hf.1]
      rfl
    · exact absurd (congrArg StakeStorage.stakesV2 (hv.stake hf.1)) hw

/-- Every callback keeps the lock; it writes the stakes only if it is unguarded and would do so anyway. -/
theorem callback_locked (h : u.store.guards.withdrawLock = true) :
    ((invoke env c).exec u).store.guards.withdrawLock = true ∧
      (((invoke env c).exec u).store.stake.stakesV2 = u.store.stake.stakesV2 ∨
        c.Unguarded = true ∧ WouldWrite env c u) := by
  by_cases hp : c.IsPayout = true
  · rw [(invoke_payout h hp).1]
    exact ⟨h, .inl rfl⟩
  · cases hu : c.Unlocked with
    | false =>
      cases c with
      | withdrawStake | partialUnstake => exact absurd rfl hp
      | processUnstakeQueue limit =>
        obtain ⟨-, head, he⟩ := processUnstakeQueue_locked h limit
        rw [he]
        exact ⟨h, .inl rfl⟩
      | _ => cases hu
    | true =>
      obtain ⟨hl, hs, -⟩ := invoke_unlocked_call h hu
      refine ⟨hl, ?_⟩
      by_cases hw : WouldWrite env c u
      · exact .inr ⟨(hw.kinds.resolve_left hp), hw⟩
      · rw [hs]
        exact .inl (not_not.mp hw)

end Callbacks

/-! ## Harmless payouts -/

/-- The world in which the token calls back: `n` has left the vault, and the lock is taken. -/
def World.inFlight (w : World τ) (env : Env τ) (staker : Address) (n : Int) : World τ :=
  (do
    let token ← getStakeToken
    tryTransfer env token env.self staker n : V τ Unit).exec (w.lock true)

section Harmless

variable {T : Tokens τ} {self : Address} {script : List (Callback τ)} {w v w' : World τ}
  {staker : Address}

/-- What the lock is for. The payout of `staker` in `w` lets the callbacks of `script` in at `v` and ends in
`w'`. -/
structure Harmless (T : Tokens τ) (vault : Address) (script : List (Callback τ)) (staker : Address)
    (w v w' : World τ) : Prop where
  /-- A callback that would write the stakes is refused. -/
  refused : ∀ u auth c, (u, Callback.call auth c) ∈ Reaches.visited (callback T vault) v script →
    WouldWrite ⟨T, vault, auth⟩ c u → (invoke ⟨T, vault, auth⟩ c u).1 = .error (err .reentrancyDetected)
  /-- The payout changes the entry of the staker only. -/
  others : ∀ a, a ≠ staker → w'.store.stake.stakesV2.lookup a = w.store.stake.stakesV2.lookup a
  /-- The entries that the callbacks left are not overwritten, -/
  kept : ∀ a, a ≠ staker → w'.store.stake.stakesV2.lookup a = (reenter T vault script v).store.stake.stakesV2.lookup a
  /-- and the one that is replaced is the one that was read. -/
  own : (reenter T vault script v).store.stake.stakesV2.lookup staker = w.store.stake.stakesV2.lookup staker

theorem tryTransferWith_ok {env : Env τ} {token src dst : Address} {amount : Int} {u : Unit} :
    tryTransferWith env script token src dst amount w = (.ok u, w') ↔
      ∃ t, env.tokens.transfer token src dst amount w.token = .ok t ∧
        reenter env.tokens env.self script
          { w with token := t, log := .transfer token src dst amount :: w.log } = w' := by
  simp [tryTransferWith]

theorem inFlight_store {env : Env τ} {token : Address} {n : Int} {t : τ}
    (htok : w.store.config.stakeToken = some token)
    (ht : env.tokens.transfer token env.self staker n w.token = .ok t) :
    (w.inFlight env staker n).store = (w.lock true).store := by
  have hg : (getStakeToken : V τ Address) (w.lock true) = (.ok token, w.lock true) := getStakeToken_ok.mpr ⟨htok, rfl⟩
  have he : tryTransfer env token env.self staker n (w.lock true) = (.ok (), _) := tryTransfer_ok.mpr ⟨t, ht, rfl⟩
  unfold World.inFlight
  rw [exec_of_ok ((bind_of_ok hg).trans he)]

/-- A payout replaces the staker's entry in the stakes that it read before the transfer. -/
theorem payoutWith_ok {env : Env τ} {p : Payout} {n : Int}
    (h : payoutWith env script staker p w = (.ok n, w')) :
    (w.inFlight env staker n).store = (w.lock true).store ∧
      ∃ info, w'.store.stake.stakesV2 = w.store.stake.stakesV2.insert staker info := by
  cases p with
  | withdraw =>
    obtain ⟨-, w₁, hb, rfl⟩ := withWithdrawLock_ok.mp h
    simp [doWithdrawLockedWith, checkTimelock_ok, tryTransferWith_ok, and_assoc] at hb
    obtain ⟨token, htok, info, -, -, -, -, -, t, ht, rfl, rfl⟩ := hb
    exact ⟨inFlight_store (w := w) htok ht, _, rfl⟩
  | part =>
    obtain ⟨-, w₁, hb, rfl⟩ := withWithdrawLock_ok.mp h
    simp [doPartialUnstakeLockedWith, checkTimelock_ok, tryTransferWith_ok, and_assoc] at hb
    obtain ⟨token, htok, info, -, -, -, -, -, -, -, t, ht, rfl, rfl⟩ := hb
    exact ⟨inFlight_store (w := w) htok ht, _, rfl⟩

/-- The lock outlasts the callbacks. -/
theorem visited_locked (hv : v.store.guards.withdrawLock = true) :
    ∀ e ∈ Reaches.visited (callback T self) v script, e.1.store.guards.withdrawLock = true := by
  refine Reaches.visited_rule (P := fun u : World τ => u.store.guards.withdrawLock = true) ?_ hv
  intro u cb hu
  cases cb with
  | call => exact (callback_locked hu).1
  | external => exact hu

/-- No callback of an unguarded entrypoint would write the stakes where its turn comes. -/
def Spared (T : Tokens τ) (self : Address) (script : List (Callback τ)) (v : World τ) : Prop :=
  ∀ u auth c, (u, Callback.call auth c) ∈ Reaches.visited (callback T self) v script →
    c.Unguarded = true → ¬ WouldWrite ⟨T, self, auth⟩ c u

/-- Callbacks that are spared leave the stakes as they find them. -/
theorem Spared.stakes (h : Spared T self script v) (hv : v.store.guards.withdrawLock = true) :
    (reenter T self script v).store.stake.stakesV2 = v.store.stake.stakesV2 := by
  refine Reaches.foldl_rule (P := fun u : World τ => u.store.stake.stakesV2 = v.store.stake.stakesV2) ?_ rfl
  rintro ⟨u, cb⟩ he hu
  cases cb with
  | external => exact hu
  | call auth c =>
    have hlocked : ((invoke ⟨T, self, auth⟩ c).exec u).store.stake.stakesV2 = u.store.stake.stakesV2 ∨
        c.Unguarded = true ∧ WouldWrite ⟨T, self, auth⟩ c u := (callback_locked (visited_locked hv _ he)).2
    rcases hlocked with hs | ⟨hc, hw⟩
    · exact hs.trans hu
    · exact absurd hw (h u auth c he hc)

/-- A payout is harmless exactly when no callback of an unguarded entrypoint would write the stakes. -/
theorem payout_harmless_iff (T : Tokens τ) (self : Address) (auth : Auth) (script : List (Callback τ))
    (staker : Address) (p : Payout) (w w' : World τ) (n : Int)
    (h : payoutWith ⟨T, self, auth⟩ script staker p w = (.ok n, w')) :
    Harmless T self script staker w (w.inFlight ⟨T, self, auth⟩ staker n) w' ↔
      Spared T self script (w.inFlight ⟨T, self, auth⟩ staker n) := by
  obtain ⟨hstore, info, hw'⟩ := payoutWith_ok h
  have hv : (w.inFlight ⟨T, self, auth⟩ staker n).store.guards.withdrawLock = true := by rw [hstore]; rfl
  have hs : (w.inFlight ⟨T, self, auth⟩ staker n).store.stake.stakesV2 = w.store.stake.stakesV2 := by
    rw [hstore]
    rfl
  constructor
  · intro hh u auth' c he hc hw
    have hu : u.store.guards.withdrawLock = true := visited_locked hv _ he
    have hr := hh.refused u auth' c he hw
    cases hq : c.Unlocked with
    | true =>
      rw [(invoke_unlocked_call hu hq).2.2 hw] at hr
      cases hr
    | false =>
      cases c with
      | withdrawStake | partialUnstake => cases hc
      | processUnstakeQueue limit =>
        exact (processUnstakeQueue_locked hu limit).1 _ (Prod.ext hr rfl)
      | _ => cases hq
  · intro hsp
    have hend := (hsp.stakes hv).trans hs
    refine ⟨fun u auth' c he hw => ?_, fun a ha => ?_, fun a ha => ?_, ?_⟩
    · rcases hw.kinds with hp | hu
      · rw [(invoke_payout (visited_locked hv _ he) hp).2 hw]
      · exact absurd hw (hsp u auth' c he hu)
    · rw [hw', AList.lookup_insert_ne ha]
    · rw [hw', hend, AList.lookup_insert_ne ha]
    · rw [hend]

end Harmless

/-! ## Two tokens that call back -/

namespace Sample

/-- `alice` has staked `1000`. -/
def aliceStaked : World Unit := started freeTokens () [call (.depositStake alice 1000)]

abbrev payer : Env Unit := ⟨freeTokens, vault, fun a => a ≠ vault⟩

/-- The call of a token that everyone but the vault authorized. -/
def back (c : Call) : Callback Unit := .call payer.auth c

/-- The world after the whole payout to `alice`. -/
def paidWith (script : List (Callback Unit)) : World Unit := (payoutWith payer script alice .withdraw aliceStaked).2

end Sample

open Sample in
/-- A second withdrawal during the payout is refused. -/
theorem second_withdrawal_is_harmless :
    Harmless freeTokens vault [back (.withdrawStake alice)] alice aliceStaked
      (aliceStaked.inFlight payer alice 1000) (paidWith [back (.withdrawStake alice)]) := by
  have h : payoutWith payer [back (.withdrawStake alice)] alice .withdraw aliceStaked =
      (.ok 1000, paidWith [back (.withdrawStake alice)]) := rfl
  refine (payout_harmless_iff freeTokens vault payer.auth _ alice .withdraw _ _ 1000 h).mpr ?_
  intro u auth c he hc
  simp [Reaches.visited] at he
  obtain ⟨-, he⟩ := he
  cases he
  cases hc

open Sample in
/-- A deposit during the payout goes through, and is overwritten. -/
theorem deposit_during_payout_is_lost :
    (¬ ∀ (w w' : World Unit) (script : List (Callback Unit)) (p : Payout) (n : Int),
      Reachable freeTokens vault w → payoutWith payer script alice p w = (.ok n, w') →
      Harmless freeTokens vault script alice w (w.inFlight payer alice n) w') ∧
    (invoke payer (.depositStake bob 500) (aliceStaked.inFlight payer alice 1000)).1 = .ok () ∧
    getStake (reenter freeTokens vault [back (.depositStake bob 500)]
      (aliceStaked.inFlight payer alice 1000)).store bob = 500 ∧
    getStake (paidWith [back (.depositStake bob 500)]).store bob = 0 := by
  have hr : Reachable freeTokens vault aliceStaked := reachable_run _ _ (by decide +kernel)
  have h : payoutWith payer [back (.depositStake bob 500)] alice .withdraw aliceStaked =
      (.ok 1000, paidWith [back (.depositStake bob 500)]) := rfl
  refine ⟨fun hall => ?_, rfl, by decide +kernel, by decide +kernel⟩
  have hkept := (hall _ _ _ _ _ hr h).kept bob (by decide)
  exact absurd hkept (by decide +kernel)

end CallStake.StakeVault
