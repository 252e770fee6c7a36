import CallStake.FeeCollector.Charge
import CallStake.FeeCollector.Parts

/-!
# Retries of a failed collection

A retry counts its attempt in the record and then collects, in one call. When the collection fails, the
call fails and the count is undone with it.

* `Attempts`: a retry that reaches the collection. `retry_returned`: no other one returns, and it
  collects from the storage in which it is counted.
* `QueueSound`, `lookup_of_call`: the records of a run, and what a call does to one of them.
* `Retrying`: a run that keeps the limit and queues the record no more, with the count of failed attempts.
* `attempts_bounded_iff`: they stay below the limit exactly if there are none, because the record was queued
  with its attempts spent.
* `attempts_past_limit`: four failed attempts with a limit of three.
-/

namespace CallStake.FeeCollector

variable {τ : Type}

/-! ## One retry -/

/-- The administrator retries a record that has attempts left. -/
def Storage.Attempts (s : Storage) (auth : Auth) (admin : Address) (id : Bytes) : Prop :=
  s.config.initialized = true ∧ s.config.admin = some admin ∧ auth admin = true ∧
    ∃ failed ∈ s.payouts.failedFeeCollections.lookup id,
      failed.retryCount < s.config.feeOptimizationConfig.maxRetryAttempts

/-- The record, and what is stored once its attempt is counted. -/
def Storage.counted (s : Storage) (failed : FailedFeeCollection) : Storage where
  __ := s
  payouts.failedFeeCollections := s.payouts.failedFeeCollections.insert failed.id
    { failed with retryCount := u32Add failed.retryCount 1 }

section Retry

variable {env : Env τ} {w w' : World τ} {admin : Address} {id : Bytes} {failed : FailedFeeCollection} {fee : Int}

/-- A retry that returned collected from the storage in which it is counted, and removed the record. -/
theorem retry_returned (h : retryFailedFeeCollection env admin id w = (.ok fee, w')) :
    w.store.Attempts env.auth admin id ∧
    ∃ failed w₁, w.store.payouts.failedFeeCollections.lookup id = some failed ∧
      collectFeeWithRecovery env failed.trader failed.token failed.tradeAmount failed.tradeAsset
        { w with store := w.store.counted failed } = (.ok fee, w₁) ∧
      w'.store.config = w₁.store.config ∧ w'.store.payouts.failedFeeCollections =
        w₁.store.payouts.failedFeeCollections.erase id := by
  simp only [retryFailedFeeCollection, bind_requireStoredAdmin_ok, bind_load_ok, Tx.bind_ofOption_ok,
    Tx.bind_failIf_ok, bind_save_ok] at h
  obtain ⟨hinit, hadmin, hauth, failed, hfailed, -, hlimit, h⟩ := h
  obtain ⟨fee', w₁, hcollect, h⟩ := Tx.bind_ok.mp h
  rw [bind_save_ok, Tx.pure_ok] at h
  obtain ⟨rfl, rfl⟩ := h
  exact ⟨⟨hinit, hadmin, hauth, failed, hfailed, Nat.not_le.mp hlimit⟩, failed, w₁, hfailed, hcollect, rfl, rfl⟩

end Retry

/-! ## The records of a run -/

/-- Records are under their own ids, and there are none before there is an administrator, who is not the
contract. -/
structure QueueSound (contract : Address) (s : Storage) : Prop where
  admin : s.config.initialized = true → ∃ a, s.config.admin = some a ∧ a ≠ contract
  queued : ∀ id failed, s.payouts.failedFeeCollections.lookup id = some failed →
    s.config.initialized = true ∧ failed.id = id

section Queue

variable {T : Tokens τ} {contract : Address} {env : Env τ} {w w' : World τ} {c : Call} {u : Unit} {id : Bytes}
  {failed : FailedFeeCollection}

/-- A call leaves the record of `id` as it is, queues another, or removes it after a successful retry. -/
theorem lookup_of_call (h : QueueSound contract w.store) (hr : invoke env c w = (.ok u, w')) (id : Bytes) :
    w'.store.payouts.failedFeeCollections.lookup id = w.store.payouts.failedFeeCollections.lookup id ∨
    (∃ admin failed, c = .queueFailedFeeCollection admin failed ∧ failed.id = id ∧
      w.store.config.initialized = true ∧
      w'.store.payouts.failedFeeCollections.lookup id = some failed) ∨
    ∃ admin, c = .retryFailedFeeCollection admin id ∧ w.store.Attempts env.auth admin id ∧
      w'.store.payouts.failedFeeCollections.lookup id = none := by
  by_cases hwrites : .failures ∈ c.parts
  · obtain ⟨admin, failed, rfl⟩ | ⟨admin, retried, rfl⟩ := Call.of_failures hwrites
    · simp only [invoke, queueFailedFeeCollection, bind_requireStoredAdmin_ok, save_ok] at hr
      obtain ⟨hinit, -, -, rfl⟩ := hr
      by_cases hid : failed.id = id
      · exact .inr (.inl ⟨admin, failed, rfl, hid, hinit, by rw [Store.lookup_insert_eq, if_pos hid.symm]⟩)
      · exact .inl (by rw [Store.lookup_insert_eq, if_neg (Ne.symm hid)])
    · obtain ⟨fee, hretry⟩ := Tx.void_ok.mp hr
      obtain ⟨hattempts, failed, w₁, hfailed, hcollect, -, hrecords⟩ := retry_returned hretry
      have hkeeps : SameParts [] _ w₁ := Tx.Within.of_run inferInstance hcollect
      have hkept := hkeeps.failures List.not_mem_nil
      rw [hrecords, hkept, Store.lookup_erase_eq]
      by_cases hid : id = retried
      · subst hid
        exact .inr (.inr ⟨admin, rfl, hattempts, if_pos rfl⟩)
      · -- the record that is counted is the one that was retried
        rw [if_neg hid, Storage.counted, Store.lookup_insert_eq, if_neg]
        · exact .inl rfl
        · rw [(h.queued _ _ hfailed).2]
          exact hid
  · rw [((invoke_keeps env c).of_run hr).failures hwrites]
    exact .inl rfl

theorem QueueSound.invoke (h : QueueSound contract w.store) (hauth : env.auth contract = false)
    (hr : invoke env c w = (.ok u, w')) : QueueSound contract w'.store := by
  have hadmin : (w.store.config.initialized = true → w'.store.config.initialized = true) ∧
      (w'.store.config.initialized = true → ∃ a, w'.store.config.admin = some a ∧ a ≠ contract) := by
    by_cases hwrites : .admin ∈ c.parts
    · obtain ⟨admin, rfl⟩ := Call.of_admin hwrites
      simp [FeeCollector.invoke, init] at hr
      obtain ⟨hauthorized, -, rfl⟩ := hr
      refine ⟨fun _ => rfl, fun _ => ⟨admin, rfl, ?_⟩⟩
      rintro rfl
      rw [hauth] at hauthorized
      cases hauthorized
    · obtain ⟨hinit, hadmin⟩ := ((invoke_keeps env c).of_run hr).admin hwrites
      rw [hinit, hadmin]
      exact ⟨fun hinit => hinit, h.admin⟩
  refine ⟨hadmin.2, fun id failed hfailed => ?_⟩
  rcases lookup_of_call h hr id with hsame | ⟨_, queued, -, hid, hwas, hqueued⟩ | ⟨_, -, -, hremoved⟩
  · obtain ⟨hwas, hid⟩ := h.queued id failed (hsame.symm.trans hfailed)
    exact ⟨hadmin.1 hwas, hid⟩
  · obtain rfl := Option.some.inj (hqueued.symm.trans hfailed)
    exact ⟨hadmin.1 hwas, hid⟩
  · rw [hremoved] at hfailed
    cases hfailed

theorem QueueSound.step {ev : Event τ} (h : QueueSound contract w.store) (hs : Step T contract w ev w') :
    QueueSound contract w'.store := by
  obtain ⟨hallowed, rfl⟩ := hs
  cases ev with
  | call auth oracle c =>
    rcases Tx.exec_cases (FeeCollector.invoke ⟨T, oracle, contract, auth⟩ c) w with ⟨u, hr⟩ | hsame
    · have hauth : (⟨T, oracle, contract, auth⟩ : Env τ).auth contract = false := hallowed
      exact h.invoke hauth hr
    · change QueueSound contract (Tx.exec _ w).store
      rw [hsame]
      exact h
  | advance => exact ⟨h.admin, h.queued⟩
  | external => exact ⟨h.admin, h.queued⟩
  | evict => exact ⟨h.admin, h.queued⟩

theorem Reachable.queueSound (h : Reachable T contract w) : QueueSound contract w.store := by
  obtain ⟨ledger, token, h⟩ := h
  have hdeployed : QueueSound contract (World.deployed ledger token).store := by
    refine ⟨fun hinit => ?_, fun id failed hfailed => absurd hfailed Store.lookup_empty_ne⟩
    cases hinit
  exact h.invariant (I := fun w => QueueSound contract w.store) hdeployed fun _ _ _ hI hs => hI.step hs

end Queue

/-! ## Runs of retries -/

section Runs

variable (T : Tokens τ) (contract : Address) (id : Bytes)

/-- A retry of the record that reaches the collection, and fails. -/
def FailedAttempt (w : World τ) : Event τ → Prop
  | .call auth oracle c => ∃ admin, c = .retryFailedFeeCollection admin id ∧ w.store.Attempts auth admin id ∧
    ∀ fee w', retryFailedFeeCollection ⟨T, oracle, contract, auth⟩ admin id w ≠ (.ok fee, w')
  | .advance _ | .external _ | .evict _ => False

/-- A call that queues a record under the id. -/
def Queues (w : World τ) : Event τ → Prop
  | .call auth oracle c => ∃ admin failed w', c = .queueFailedFeeCollection admin failed ∧ failed.id = id ∧
    invoke ⟨T, oracle, contract, auth⟩ c w = (.ok (), w')
  | .advance _ | .external _ | .evict _ => False

/-- A step that keeps the limit and queues no record under the id, with the count of failed attempts. -/
structure Retrying (p : World τ × Nat) (ev : Event τ) (p' : World τ × Nat) : Prop where
  step : Step T contract p.1 ev p'.1
  constant : p'.1.store.config.feeOptimizationConfig.maxRetryAttempts =
    p.1.store.config.feeOptimizationConfig.maxRetryAttempts
  kept : ¬ Queues T contract id p.1 ev
  counted : FailedAttempt T contract id p.1 ev ∧ p'.2 = p.2 + 1 ∨ ¬ FailedAttempt T contract id p.1 ev ∧ p'.2 = p.2

/-- There were no failed attempts, and there are none left. -/
structure Spent (limit : Nat) (p : World τ × Nat) : Prop where
  sound : QueueSound contract p.1.store
  constant : p.1.store.config.feeOptimizationConfig.maxRetryAttempts = limit
  spent : ∀ failed ∈ p.1.store.payouts.failedFeeCollections.lookup id, limit ≤ failed.retryCount
  count : p.2 = 0

variable {T contract id} {limit : Nat} {w : World τ} {p p' : World τ × Nat} {ev : Event τ}
  {failed : FailedFeeCollection} {a : Address}

theorem Spent.not_attempts (h : Spent contract id limit p) (auth : Auth) (admin : Address) :
    ¬ p.1.store.Attempts auth admin id := by
  rintro ⟨-, -, -, failed, hfailed, hlimit⟩
  have hspent := h.spent failed hfailed
  rw [h.constant] at hlimit
  omega

theorem Spent.step (h : Spent contract id limit p) (hs : Retrying T contract id p ev p') :
    Spent contract id limit p' := by
  obtain ⟨w', n'⟩ := p'
  obtain ⟨⟨hallowed, hnext⟩, hconstant, hkept, hcounted⟩ := hs
  refine ⟨h.sound.step ⟨hallowed, hnext⟩, hconstant.trans h.constant, ?_, ?_⟩
  · subst hnext
    cases ev with
    | call auth oracle c =>
      rcases Tx.exec_cases (invoke ⟨T, oracle, contract, auth⟩ c) p.1 with ⟨u, hr⟩ | hsame
      · rcases lookup_of_call h.sound hr id with hlookup | ⟨admin, failed, rfl, hid, -, -⟩ | ⟨admin, -, hattempts, -⟩
        · change ∀ failed ∈ (Tx.exec _ p.1).store.payouts.failedFeeCollections.lookup id, _
          rw [hlookup]
          exact h.spent
        · exact absurd ⟨admin, failed, _, rfl, hid, hr⟩ hkept
        · exact absurd hattempts (h.not_attempts _ _)
      · change ∀ failed ∈ (Tx.exec _ p.1).store.payouts.failedFeeCollections.lookup id, _
        rw [hsame]
        exact h.spent
    | advance => exact h.spent
    | external => exact h.spent
    | evict => exact h.spent
  · rcases hcounted with ⟨hattempt, -⟩ | ⟨-, hcount⟩
    · cases ev with
      | call =>
        obtain ⟨admin, -, hattempts, -⟩ := hattempt
        exact absurd hattempts (h.not_attempts _ _)
      | advance => cases hattempt
      | external => cases hattempt
      | evict => cases hattempt
    · exact hcount.trans h.count

/-- While the contract is paused, a retry fails. -/
theorem retry_of_paused {env : Env τ} (hpaused : w.store.config.paused = true) (admin : Address) (fee : Int)
    (w' : World τ) : retryFailedFeeCollection env admin id w ≠ (.ok fee, w') := by
  intro h
  obtain ⟨-, failed, w₁, -, hcollect, -⟩ := retry_returned h
  simp only [collectFeeWithRecovery, bind_requireInitialized_ok, bind_requireNotPaused_ok] at hcollect
  have hrunning : w.store.config.paused = false := hcollect.2.1
  rw [hpaused] at hrunning
  cases hrunning

/-- A retry that fails leaves the world as it was, and is counted here only. -/
theorem retrying_of_paused {auth : Auth} (oracle : Oracle) (hcontract : auth contract = false)
    (hattempts : w.store.Attempts auth a id) (hpaused : w.store.config.paused = true) (n : Nat) :
    Retrying T contract id (w, n) (.call auth oracle (.retryFailedFeeCollection a id)) (w, n + 1) := by
  have hfails : ∀ fee w', retryFailedFeeCollection ⟨T, oracle, contract, auth⟩ a id w ≠ (.ok fee, w') :=
    retry_of_paused hpaused a
  have hsame : w = (invoke ⟨T, oracle, contract, auth⟩ (.retryFailedFeeCollection a id)).exec w := by
    rcases Tx.exec_cases (invoke ⟨T, oracle, contract, auth⟩ (.retryFailedFeeCollection a id)) w with
      ⟨u, hr⟩ | hsame
    · obtain ⟨fee, hretry⟩ := Tx.void_ok.mp hr
      exact absurd hretry (hfails fee _)
    · exact hsame.symm
  refine ⟨⟨hcontract, hsame⟩, rfl, ?_, .inl ⟨⟨a, rfl, hattempts, hfails⟩, rfl⟩⟩
  rintro ⟨_, _, _, hqueue, -⟩
  cases hqueue

/-- Where the record has attempts left, any number of them can fail: the administrator pauses the contract,
and retries. -/
theorem attempts_unbounded (h : QueueSound contract w.store)
    (hfailed : w.store.payouts.failedFeeCollections.lookup id = some failed)
    (hleft : failed.retryCount < w.store.config.feeOptimizationConfig.maxRetryAttempts) (n : Nat) :
    ∃ w', Reaches (Retrying T contract id) (w, 0) (w', n) := by
  obtain ⟨hinit, -⟩ := h.queued id failed hfailed
  obtain ⟨a, hadmin, hother⟩ := h.admin hinit
  let auth : Auth := fun b => b = a
  let oracle : Oracle := ⟨fun _ _ _ => none, fun _ _ _ => none⟩
  have hcontract : auth contract = false := decide_eq_false hother.symm
  have hauth : auth a = true := decide_eq_true rfl
  let paused : World τ := { w with store.config.paused := true }
  have hpause : invoke ⟨T, oracle, contract, auth⟩ (.setPaused true) w = (.ok (), paused) := by
    rw [invoke, setPaused, bind_requireAdmin_ok]
    exact ⟨hinit, a, hadmin, hauth, rfl⟩
  have hfirst : Retrying T contract id (w, 0) (.call auth oracle (.setPaused true)) (paused, 0) := by
    refine ⟨⟨hcontract, (Tx.exec_of_ok hpause).symm⟩, rfl, ?_, .inr ⟨?_, rfl⟩⟩
    · rintro ⟨_, _, _, hqueue, -⟩
      cases hqueue
    · rintro ⟨_, hretry, -⟩
      cases hretry
  refine ⟨paused, ?_⟩
  induction n with
  | zero => exact (Reaches.refl _).tail hfirst
  | succ n ih =>
    have hattempts : paused.store.Attempts auth a id := ⟨hinit, hadmin, hauth, failed, hfailed, hleft⟩
    exact ih.tail (retrying_of_paused oracle hcontract hattempts rfl n)

/-- The failed attempts at a queued record stay within the limit exactly if it was queued with its attempts
spent, so that there are none. -/
theorem attempts_bounded_iff (h : Reachable T contract w)
    (hfailed : w.store.payouts.failedFeeCollections.lookup id = some failed) :
    (∀ p, Reaches (Retrying T contract id) (w, 0) p → p.2 ≤ w.store.config.feeOptimizationConfig.maxRetryAttempts) ↔
    w.store.config.feeOptimizationConfig.maxRetryAttempts ≤ failed.retryCount := by
  constructor
  · intro hbounded
    by_contra hleft
    obtain ⟨w', hreaches⟩ := attempts_unbounded h.queueSound hfailed (Nat.not_le.mp hleft)
      (w.store.config.feeOptimizationConfig.maxRetryAttempts + 1)
    exact absurd (hbounded _ hreaches) (Nat.not_succ_le_self _)
  · intro hspent p hreaches
    have hstart : Spent contract id w.store.config.feeOptimizationConfig.maxRetryAttempts (w, 0) := by
      refine ⟨h.queueSound, rfl, fun stored hstored => ?_, rfl⟩
      obtain rfl := Option.some.inj (hfailed.symm.trans hstored)
      exact hspent
    have hend := hreaches.invariant hstart fun _ _ _ hI hs => hI.step hs
    rw [hend.count]
    exact Nat.zero_le _

end Runs

namespace Sample

/-- The id of a record. -/
def recordId : Bytes := [114]

/-- A collection from `alice` that failed. -/
def failedTrade (retryCount : Nat) : FailedFeeCollection :=
  ⟨recordId, alice, usdc, 1000000, usdcAsset, retryCount, []⟩

/-- The contract after the collection was queued. -/
def queuedWith (retryCount : Nat) : World Balances :=
  deployedRun [trade 1000000, call (.queueFailedFeeCollection admin (failedTrade retryCount))]

/-- A record that was queued with its attempts spent is not tried again. -/
theorem attempts_spent : (queuedWith 3).store.config.feeOptimizationConfig.maxRetryAttempts = 3 ∧
    ∀ p, Reaches (Retrying Balances.tokens collector recordId) (queuedWith 3, 0) p →
      p.2 ≤ (queuedWith 3).store.config.feeOptimizationConfig.maxRetryAttempts := by
  have hqueued : (queuedWith 3).store.payouts.failedFeeCollections.lookup recordId = some (failedTrade 3) := by
    decide +kernel
  refine ⟨by decide +kernel, ?_⟩
  exact (attempts_bounded_iff (reachable_run (by decide +kernel)) hqueued).mpr (by decide +kernel)

/-- The limit is three. While the contract is paused a retry fails and leaves the count of the record at
zero, so a fourth fails as the first did. -/
theorem attempts_past_limit :
    let paused := next Balances.tokens collector (queuedWith 0) (call (.setPaused true))
    let retried := next Balances.tokens collector paused (call (.retryFailedFeeCollection admin recordId))
    Reachable Balances.tokens collector (queuedWith 0) ∧
      (queuedWith 0).store.config.feeOptimizationConfig.maxRetryAttempts = 3 ∧
      (retryFailedFeeCollection sampleEnv admin recordId paused).1 = .error (err .contractPaused) ∧
      retried.store.payouts.failedFeeCollections.lookup recordId = some (failedTrade 0) ∧
      ∃ w, Reaches (Retrying Balances.tokens collector recordId) (queuedWith 0, 0) (w, 4) := by
  have hreachable : Reachable Balances.tokens collector (queuedWith 0) := reachable_run (by decide +kernel)
  have hqueued : (queuedWith 0).store.payouts.failedFeeCollections.lookup recordId = some (failedTrade 0) := by
    decide +kernel
  refine ⟨hreachable, by decide +kernel, by decide +kernel, by decide +kernel, ?_⟩
  exact attempts_unbounded hreachable.queueSound hqueued (by decide +kernel) 4

end Sample

end CallStake.FeeCollector
