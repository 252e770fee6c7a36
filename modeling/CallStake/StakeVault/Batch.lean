import CallStake.StakeVault.Amounts

/-!
# Batches against single calls

A batch makes its slashes or resolutions in one transaction and swallows the error of an entry.
Submitted as transactions of their own, entries that fail leave nothing behind; in a batch they leave
what they wrote before they failed. What fails after a write is the burn.

* `Reachable.unlocked`: the vault never takes the shared lock, which only the single slash asks for.
* `slashRefused_iff`, `upholdRefused_iff`: an entry that is not reported changes the storage iff the
  token refuses its burn.
* `batch_equals_fold`: a batch is the fold of the single calls, and its unreported entries change
  nothing, iff no single call is refused its burn.
-/

namespace CallStake.StakeVault

variable {τ : Type}

/-! ## The shared lock -/

section Lock

variable {T : Tokens τ} {self : Address} {env : Env τ} {w w₁ : World τ}

theorem processLoop_unlocked {limit tail fuel processed head m h' : Nat}
    (h : processLoop env limit tail fuel processed head w = (.ok (m, h'), w₁)) :
    w₁.store.guards.sharedContractLock = w.store.guards.sharedContractLock := by
  obtain ⟨m', h₂, w₂, hr, hP⟩ := processLoop_rule env limit tail fuel processed
    (P := fun _ w₁ => w₁.store.guards.sharedContractLock = w.store.guards.sharedContractLock)
    (fun _ _ h _ _ => h)
    (fun head w₂ request amount w₃ h _ _ hd => by
      obtain ⟨-, token, -, info, -, -, t, -, rfl⟩ := doWithdraw_ok.mp hd
      rw [← h]
      unfold World.dequeued World.counted World.afterPayout GuardStorage.consume
      split <;> rfl)
    rfl
  rw [hr] at h
  cases h
  exact hP

/-- No call takes the shared lock. -/
theorem invoke_unlocked (env : Env τ) (c : Call) (w : World τ) :
    ((invoke env c).exec w).store.guards.sharedContractLock = w.store.guards.sharedContractLock := by
  have hpay : ∀ {staker token : Address} {info : StakeInfoV2} {amount : Int} {t : τ},
      ((w.afterPayout env token staker info amount t).counted
        staker).store.guards.sharedContractLock = w.store.guards.sharedContractLock := by
    intros
    unfold World.counted World.afterPayout GuardStorage.consume
    split <;> rfl
  by_cases hg : .guards ∈ c.footprint
  · rcases Tx.exec_cases (invoke env c) w with ⟨u, h⟩ | h
    · generalize (invoke env c).exec w = w' at h
      cases c <;> simp [Call.footprint] at hg
      case depositStake =>
        obtain ⟨-, -, -, -, token, -, -, -, t, -, rfl⟩ := depositStake_ok.mp h
        rfl
      case notifyStakeBelowMinimum =>
        simp [invoke, notifyStakeBelowMinimum] at h
        split at h <;> simp at h <;> rw [← h]
      case checkSignalSubmissionAllowed =>
        simp [invoke, checkSignalSubmissionAllowed] at h
        split at h
        · simp at h; rw [← h]
        · simp at h; rw [← h.1]
      case requestWithdrawal =>
        simp [invoke, requestWithdrawal] at h
        obtain ⟨-, -, h⟩ := h
        split at h <;> simp at h <;> rw [← h]
      case withdrawStake =>
        obtain ⟨n, hn⟩ := Tx.void_ok.mp h
        obtain ⟨-, w₁, hd, rfl⟩ := withdrawStake_ok hn
        obtain ⟨-, token, -, info, -, -, t, -, rfl⟩ := doWithdraw_ok.mp hd
        exact hpay
      case partialUnstake =>
        obtain ⟨n, hn⟩ := Tx.void_ok.mp h
        obtain ⟨-, -, w₁, hd, rfl⟩ := partialUnstake_ok hn
        obtain ⟨-, token, -, info, -, -, t, -, rfl⟩ := doPartialUnstake_ok hd
        exact hpay
      case processUnstakeQueue =>
        obtain ⟨n, hn⟩ := Tx.void_ok.mp h
        rcases processUnstakeQueue_ok hn with rfl | ⟨-, m, h', w₁, hd, rfl⟩
        · rfl
        · exact (processLoop_unlocked hd :)
    · rw [h]
  · rw [((invoke_writes env c).exec w).guards hg]

theorem Reachable.unlocked (h : Reachable T self w) :
    w.store.guards.sharedContractLock = false := by
  obtain ⟨ledger, token, hr⟩ := h
  refine hr.invariant (I := fun w => w.store.guards.sharedContractLock = false) rfl ?_
  rintro a ev b ha ⟨-, rfl⟩
  cases ev with
  | call auth c => exact (invoke_unlocked ⟨T, self, auth⟩ c a).trans ha
  | advance | external => exact ha

end Lock

/-! ## One entry -/

section Entry

variable {T : Tokens τ} {self caller provider : Address} {auth : Auth} {env : Env τ} {w : World τ}
  {severity : SlashSeverity} {reason : Symbol} {slashId : Nat} {uphold : Bool}

/-- An unreported entry of a batch of slashes changes the storage iff the token refuses its burn. -/
theorem slashRefused_iff (ha : Amounts w.store) (reason : Symbol) :
    ¬ SlashRefused env w provider severity ↔
    (slashReport env reason (w, provider, severity) = 0 →
      (slashEntry env reason w (provider, severity)).store = w.store) := by
  unfold slashReport slashEntry
  rcases hd : doSlash env provider severity reason w with ⟨r, w'⟩
  rcases r with e | n
  · rcases (doSlash_error hd).2 with ⟨hn, rfl⟩ | ⟨token, htok, info, hs, hwin, hf, rfl⟩
    · refine iff_of_true ?_ fun _ => rfl
      rintro ⟨token, htok, info, hs, -⟩
      rcases hn with hn | hn
      · rw [htok] at hn; cases hn
      · exact hn info hs
    · refine iff_of_false (fun h => h ⟨token, htok, info, hs, hwin, hf⟩) fun h => ?_
      obtain ⟨h1, h2, h3⟩ := getStake_slashed ha provider severity reason hs
      rw [show (w.slashed provider severity reason info).store = w.store from h rfl, if_pos rfl] at h1
      omega
  · refine iff_of_true (not_slashRefused_of_ok hd) fun h => ?_
    obtain ⟨-, -, info, hs, rfl, -⟩ := doSlash_ok.mp hd
    have hpos := ha.slashAmount_pos severity hs
    exact absurd h (Int.ne_of_gt hpos)

/-- An uncounted entry of a batch of resolutions changes the storage iff the token refuses its
burn. -/
theorem upholdRefused_iff : ¬ UpholdRefused env w slashId uphold ↔
    (Counted env (w, slashId, uphold) = false → (resolveEntry env w (slashId, uphold)).store = w.store) := by
  unfold Counted resolveEntry
  rcases hd : doResolveAppeal env slashId uphold w with ⟨r, w'⟩
  rcases r with e | u
  · rcases (doResolveAppeal_error hd).2 with ⟨hn, rfl⟩ | ⟨token, htok, record, appeal, hr, hu, h0, hf,
      rfl⟩
    · refine iff_of_true ?_ fun _ => rfl
      rintro ⟨token, htok, record, appeal, hr, -⟩
      rcases hn with hn | hn
      · rw [htok] at hn; cases hn
      · exact hn record appeal hr
    · refine iff_of_false (fun h => h ⟨token, htok, record, appeal, hr, hu, h0, hf⟩) fun h => ?_
      have hheld : heldFor (w.release slashId).store.slash slashId = 0 := by
        simp [heldFor, World.release]
      rw [show (w.release slashId).store = w.store from h rfl] at hheld
      omega
  · exact iff_of_true (not_upholdRefused_of_ok hd) fun h => by cases h

/-- A slash as a transaction of its own. -/
def slashEvent (auth : Auth) (caller : Address) (reason : Symbol) (e : Address × SlashSeverity) :
    Event τ :=
  .call auth (.slashStake caller e.1 e.2 reason)

/-- A resolution as a transaction of its own. -/
def resolveEvent (auth : Auth) (e : Nat × Bool) : Event τ := .call auth (.resolveAppeal e.1 e.2)

/-- The single slash passes the checks that come before `doSlash`. -/
structure SlashReady (caller : Address) (w : World τ) : Prop where
  unlocked : w.store.guards.sharedContractLock = false
  registry : w.store.config.signalRegistry = some caller
  amounts : Amounts w.store

/-- The single resolution passes the checks that come before `doResolveAppeal`. -/
structure ResolveReady (auth : Auth) (w : World τ) : Prop where
  noMultisig : w.store.multisig.config = none
  admin : ∃ admin, w.store.config.admin = some admin ∧ auth admin = true

theorem SlashReady.entry {e : Address × SlashSeverity} (h : SlashReady caller w) :
    SlashReady caller (slashEntry env reason w e) := by
  have hwrites : Writes [.stake, .slash, .token] (doSlash env e.1 e.2 reason) := inferInstance
  have hs := hwrites.moves w
  refine ⟨?_, ?_, h.amounts.slashEffect (doSlash_effect env e.1 e.2 reason w)⟩
  · rw [slashEntry, hs.guards (by simp)]; exact h.unlocked
  · rw [slashEntry, hs.config (by simp)]; exact h.registry

theorem ResolveReady.entry {e : Nat × Bool} (h : ResolveReady auth w) :
    ResolveReady auth (resolveEntry env w e) := by
  have hwrites : Writes [.stake, .slash, .token] (doResolveAppeal env e.1 e.2) := inferInstance
  have hs := hwrites.moves w
  refine ⟨?_, ?_⟩
  · rw [resolveEntry, hs.multisig (by simp)]; exact h.noMultisig
  · rw [resolveEntry, hs.config (by simp)]; exact h.admin

/-- Where no burn is refused, a single slash does what the entry of a batch does. -/
theorem next_slashEvent {e : Address × SlashSeverity} (hauth : auth caller = true)
    (h : SlashReady caller w) (hr : ¬ SlashRefused ⟨T, self, auth⟩ w e.1 e.2) :
    next T self w (slashEvent auth caller reason e) = slashEntry ⟨T, self, auth⟩ reason w e := by
  change (Tx.void (slashStake _ _ _ _ _)).exec w = _
  unfold slashEntry
  rcases hd : doSlash ⟨T, self, auth⟩ e.1 e.2 reason w with ⟨r, w'⟩
  rcases r with x | n
  · rcases (doSlash_error hd).2 with ⟨-, rfl⟩ | ⟨token, htok, info, hs, hwin, hf, -⟩
    · rcases Tx.exec_cases (Tx.void (slashStake ⟨T, self, auth⟩ caller e.1 e.2 reason)) w' with
        ⟨u, hu⟩ | hu
      · obtain ⟨n, hn⟩ := Tx.void_ok.mp hu
        obtain ⟨-, -, -, hok⟩ := slashStake_ok.mp hn
        rw [hd] at hok
        cases hok
      · exact hu
    · exact absurd ⟨token, htok, info, hs, hwin, hf⟩ hr
  · exact Tx.exec_of_ok (a := ()) (Tx.void_ok.mpr
      ⟨n, slashStake_ok.mpr ⟨h.unlocked, hauth, h.registry, hd⟩⟩)

/-- Where no burn is refused, a single resolution does what the entry of a batch does. -/
theorem next_resolveEvent {e : Nat × Bool} (h : ResolveReady auth w)
    (hr : ¬ UpholdRefused ⟨T, self, auth⟩ w e.1 e.2) :
    next T self w (resolveEvent auth e) = resolveEntry ⟨T, self, auth⟩ w e := by
  change (resolveAppeal _ _ _).exec w = _
  unfold resolveEntry
  rcases hd : doResolveAppeal ⟨T, self, auth⟩ e.1 e.2 w with ⟨r, w'⟩
  rcases r with x | u
  · rcases (doResolveAppeal_error hd).2 with ⟨-, rfl⟩ | ⟨token, htok, record, appeal, hx, hu, h0, hf, -⟩
    · rcases Tx.exec_cases (resolveAppeal ⟨T, self, auth⟩ e.1 e.2) w' with ⟨u, hu⟩ | hu
      · obtain ⟨-, admin, -, -, hok⟩ := resolveAppeal_ok.mp hu
        rw [hd] at hok
        cases hok
      · exact hu
    · exact absurd ⟨token, htok, record, appeal, hx, hu, h0, hf⟩ hr
  · obtain ⟨admin, hadm, hau⟩ := h.admin
    exact Tx.exec_of_ok (resolveAppeal_ok.mpr ⟨h.noMultisig, admin, hadm, hau, hd⟩)

end Entry

/-! ## Batches -/

section Batches

variable {T : Tokens τ} {self : Address} {w : World τ}

/-- Submitted one by one, no slash is refused its burn. -/
def NoSlashRefused (T : Tokens τ) (self : Address) (auth : Auth) (caller : Address)
    (reason : Symbol) (w : World τ) (entries : List (Address × SlashSeverity)) : Prop :=
  Reaches.Along (fun w e => next T self w (slashEvent auth caller reason e))
    (fun w e => ¬ SlashRefused ⟨T, self, auth⟩ w e.1 e.2) w entries

/-- Submitted one by one, no upheld slash is refused its burn. -/
def NoUpholdRefused (T : Tokens τ) (self : Address) (auth : Auth) (w : World τ)
    (entries : List (Nat × Bool)) : Prop :=
  Reaches.Along (fun w e => next T self w (resolveEvent auth e))
    (fun w e => ¬ UpholdRefused ⟨T, self, auth⟩ w e.1 e.2) w entries

/-- In every reachable state, an accepted batch leaves the storage of the single calls made in its
order, with every entry that it does not report changing nothing, iff no single call is refused its
burn. -/
theorem batch_equals_fold (h : Reachable T self w) (auth : Auth) :
    (∀ caller providers severities reason amounts w',
      batchSlashStake ⟨T, self, auth⟩ caller providers severities reason w = (.ok amounts, w') →
      ((w'.store = (run T self w ((providers.zip severities).map
          (slashEvent auth caller reason))).store ∧
        ∀ e ∈ (slashWorlds ⟨T, self, auth⟩ reason w (providers.zip severities)).zip amounts,
          e.2 = 0 → (slashEntry ⟨T, self, auth⟩ reason e.1.1 e.1.2).store = e.1.1.store) ↔
        NoSlashRefused T self auth caller reason w (providers.zip severities))) ∧
    (∀ slashIds upholds n w', w.store.multisig.config = none →
      batchResolveAppeal ⟨T, self, auth⟩ slashIds upholds w = (.ok n, w') →
      n = (resolveWorlds ⟨T, self, auth⟩ w (slashIds.zip upholds)).countP
        (Counted ⟨T, self, auth⟩) ∧
      ((w'.store = (run T self w ((slashIds.zip upholds).map (resolveEvent auth))).store ∧
        ∀ e ∈ resolveWorlds ⟨T, self, auth⟩ w (slashIds.zip upholds),
          Counted ⟨T, self, auth⟩ e = false → (resolveEntry ⟨T, self, auth⟩ e.1 e.2).store = e.1.store) ↔
        NoUpholdRefused T self auth w (slashIds.zip upholds))) := by
  constructor
  · intro caller providers severities reason amounts w' hb
    obtain ⟨hauth, hreg, -, -, hd⟩ := batchSlashStake_ok.mp hb
    rw [slashEntries_run] at hd
    cases hd
    rw [run, List.foldl_map, ← List.map_prod_left_eq_zip, List.forall_mem_map]
    exact Reaches.foldl_agree_iff World.store (P := SlashReady caller)
      (fun _ _ hr => hr.entry) (fun _ _ hr => next_slashEvent hauth hr)
      (fun _ _ hr => slashRefused_iff hr.amounts reason) ⟨h.unlocked, hreg, h.amounts⟩
  · intro slashIds upholds n w' hm hb
    obtain ⟨admin, hadm, hau, -, -, hd⟩ := batchResolveAppeal_ok.mp hb
    rw [resolveEntries_run] at hd
    cases hd
    refine ⟨rfl, ?_⟩
    rw [run, List.foldl_map]
    exact Reaches.foldl_agree_iff World.store (P := ResolveReady auth)
      (fun _ _ hr => hr.entry) (fun _ _ hr => next_resolveEvent hr)
      (fun _ _ _ => upholdRefused_iff) ⟨hm, admin, hadm, hau⟩

end Batches

namespace Sample

/-- `alice` and `bob` have stakes, and slashes are burned at once. -/
def stakes : List (Event Unit) :=
  [call (.initializeVault admin stakeToken registry), call (.depositStake alice 100), call (.depositStake bob 50)]

/-- A token that accepts everything but burns. -/
def stuckTokens : Tokens Unit where
  transfer _ _ _ _ _ := .ok ()
  burn _ _ _ _ := .error .host
  balance _ _ _ := 0

end Sample

open Sample in
/-- A batch of two slashes does what the two slashes do. -/
theorem batch_equals_fold_burned :
    (batchSlashStake ⟨freeTokens, vault, fun a => a ≠ vault⟩ registry [alice, bob]
        [.critical, .major] "" (run freeTokens vault (World.deployed ⟨0, 0⟩ ()) stakes)).2.store =
      (run freeTokens vault (run freeTokens vault (World.deployed ⟨0, 0⟩ ()) stakes)
        [call (.slashStake registry alice .critical ""), call (.slashStake registry bob .major "")]).store := by
  have hreach : Reachable freeTokens vault (run freeTokens vault (World.deployed ⟨0, 0⟩ ()) stakes) :=
    reachable_run _ _ (by decide +kernel)
  have hok : (batchSlashStake ⟨freeTokens, vault, fun a => a ≠ vault⟩ registry [alice, bob]
      [.critical, .major] "" (run freeTokens vault (World.deployed ⟨0, 0⟩ ()) stakes)).1 =
      .ok [100, 15] := by decide +kernel
  refine (((batch_equals_fold hreach (fun a => a ≠ vault)).1 registry [alice, bob]
    [.critical, .major] "" [100, 15] _ (Prod.ext hok rfl)).mpr ⟨?_, ?_, trivial⟩).1
  all_goals
    rintro ⟨token, -, info, -, -, f, hf⟩
    cases hf

open Sample in
/-- The token refuses the burn: the batch reports nothing and keeps the slash. -/
theorem refused_burn_keeps_the_slash :
    ¬ ∀ (w : World Unit), Reachable stuckTokens vault w →
      ∀ auth caller providers severities reason amounts w',
      batchSlashStake ⟨stuckTokens, vault, auth⟩ caller providers severities reason w = (.ok amounts, w') →
      w'.store = (run stuckTokens vault w ((providers.zip severities).map
        (slashEvent auth caller reason))).store := by
  intro h
  have hok : (batchSlashStake ⟨stuckTokens, vault, fun a => a ≠ vault⟩ registry [alice] [.major] ""
      (run stuckTokens vault (World.deployed ⟨0, 0⟩ ()) stakes)).1 = .ok [0] := by decide +kernel
  have hreach : Reachable stuckTokens vault
      (run stuckTokens vault (World.deployed ⟨0, 0⟩ ()) stakes) :=
    reachable_run _ _ (by decide +kernel)
  have hs := h _ hreach _ _ _ _ _ _ _ (Prod.ext hok rfl)
  exact absurd (congrArg (getStake · alice) hs) (by decide +kernel)

end CallStake.StakeVault
