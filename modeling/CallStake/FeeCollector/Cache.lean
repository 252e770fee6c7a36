import CallStake.FeeCollector.Footprint

/-!
# What the calls do to the cached configuration

* `Caches`: the cache after a call holds what it held before, and at most the present configuration under
  the present key. This is all that a call does which does not write the configuration (`invoke_caches`).
* `Call.writeConfig`: the configuration that a call writes; such a call does nothing else (`invoke_config`).
-/

namespace CallStake.FeeCollector

open Tx

-- the proofs that instance resolution builds grow with the length of a computation
set_option synthInstance.maxSize 1000000000

variable {τ : Type}

/-- The configuration is the same, and a new entry of the cache is that configuration, under its key. -/
structure Caches (w w' : World τ) : Prop where
  config : w'.store.config.txFeeConfig = w.store.config.txFeeConfig
  key : w'.store.config.cacheKey = w.store.config.cacheKey
  entries : ∀ k v, w'.store.cache.lookup k = some v →
    w.store.cache.lookup k = some v ∨ k = w.store.config.cacheKey ∧ v = w.store.config.txFeeConfig

instance : IsPreorder (World τ) Caches where
  refl _ := ⟨rfl, rfl, fun _ _ h => .inl h⟩
  trans _ _ _ h h' := by
    refine ⟨h'.config.trans h.config, h'.key.trans h.key, fun k v hv => ?_⟩
    rcases h'.entries k v hv with hv | ⟨hk, hv⟩
    · exact h.entries k v hv
    · exact .inr ⟨hk.trans h.key, hv.trans h.config⟩

/-- Code that writes neither the cache nor the configuration. -/
theorem SameOutside.caches {rs : List Region} {w w' : World τ} (h : SameOutside rs w w')
    (hcache : .cache ∉ rs) (hconfig : .feeConfig ∉ rs) : Caches w w' where
  config := h.txFeeConfig hconfig
  key := h.cacheKey hconfig
  entries k v hv := .inl (by rwa [h.cache hcache] at hv)

theorem Writes.caches {α : Type} {rs : List Region} {x : F τ α} (h : Writes rs x)
    (hcache : .cache ∉ rs) (hconfig : .feeConfig ∉ rs) : Tx.Within Caches x :=
  ⟨fun w => (h.moves w).caches hcache hconfig⟩

/-- The entry under the present key, or the present configuration, which is then cached. -/
theorem loadTxFeeConfig_eq (w : World τ) : loadTxFeeConfig w =
    match w.store.cache.lookup w.store.config.cacheKey with
    | some value => (.ok value, w)
    | none => (.ok w.store.config.txFeeConfig, { w with
        store.cache := w.store.cache.insert w.store.config.cacheKey w.store.config.txFeeConfig }) := by
  split
  all_goals
    rename_i hcached
    simp only [loadTxFeeConfig, bind_ok, load_ok]
    refine ⟨_, _, ⟨rfl, rfl⟩, _, _, ⟨rfl, rfl⟩, ?_⟩
    rw [hcached]
    simp

instance caches_loadTxFeeConfig : Tx.Within Caches (loadTxFeeConfig : F τ _) where
  moves w := by
    rw [loadTxFeeConfig_eq]
    split
    · exact refl_of Caches w
    · refine ⟨rfl, rfl, fun k v hv => ?_⟩
      simp only [Store.lookup_insert_eq] at hv
      split at hv
      · cases hv; exact .inr ⟨‹_›, rfl⟩
      · exact .inl hv

/-- Code that writes neither region. -/
instance {ε α : Type} {x : Tx (World τ) ε α} [h : Tx.Within (SameOutside [.books, .token]) x] : Tx.Within Caches x :=
  ⟨fun w => (h.moves w).caches (by simp) (by simp)⟩

instance : Trades (Caches : World τ → World τ → Prop) := ⟨inferInstance, inferInstance, inferInstance, inferInstance⟩

instance : MovesFunds (Caches : World τ → World τ → Prop) := ⟨inferInstance, inferInstance, inferInstance⟩

/-- A call that does not write the configuration caches it at most. -/
theorem invoke_caches (env : Env τ) {c : Call} (hc : .feeConfig ∉ c.footprint) :
    Tx.Within Caches (invoke env c) := by
  by_cases hcache : .cache ∉ c.footprint
  · exact (invoke_writes env c).caches hcache hc
  cases c
  case collectFee | batchCollectFees | currentDynamicFeeRate | retryFailedFeeCollection =>
    simp only [invoke, collectFee, batchCollectFees, currentDynamicFeeRate, retryFailedFeeCollection]
    infer_instance
  all_goals exact absurd (by simp [Call.footprint]) hcache

/-! ## Writers of the configuration -/

/-- `bump_config_version`. -/
def ConfigStorage.bumped (config : ConfigStorage) : ConfigStorage :=
  { config with configVersion := (config.configVersion + 1) % 2 ^ 32 }

/-- What the writers of the cached configuration leave in the settings. The protocol token is written
without a new version. -/
def Call.writeConfig : Call → ConfigStorage → Option ConfigStorage
  | .setFeeRate rate, config => some { config with feeRate := rate }.bumped
  | .setBurnRate rate, config => some { config with burnRate := rate }.bumped
  | .setFeeOptimizationConfig _ c, config => some { config with feeOptimizationConfig := c }.bumped
  | .updateNetworkConditions _ score, config => some { config with networkConditionScore := score }.bumped
  | .setProtocolToken token, config => some { config with protocolToken := some (token.getD zeroAddress) }
  | _, _ => none

section Writers

variable {env : Env τ} {w w' : World τ} {u : Unit} {a : Address} {auth : Auth}

theorem requireInitialized_ok : (requireInitialized : F τ Unit) w = (.ok u, w') ↔
    w.store.config.initialized = true ∧ w = w' := by
  simp [requireInitialized]

theorem getAdmin_ok : (getAdmin : F τ Address) w = (.ok a, w') ↔
    w.store.config.admin = some a ∧ w = w' := by
  simp [getAdmin]

section Peel

variable {β : Type} {b : β} {k : Unit → F τ β}

theorem bind_requireInitialized_ok : (requireInitialized >>= k) w = (.ok b, w') ↔
    w.store.config.initialized = true ∧ k () w = (.ok b, w') := by
  change (failIf (w.store.config.initialized = false) _ >>= k) w = _ ↔ _
  rw [bind_failIf_ok, Bool.not_eq_false]

theorem bind_requireNotPaused_ok : (requireNotPaused >>= k) w = (.ok b, w') ↔
    w.store.config.paused = false ∧ k () w = (.ok b, w') := by
  change (failIf (w.store.config.paused = true) _ >>= k) w = _ ↔ _
  rw [bind_failIf_ok, Bool.not_eq_true]

theorem bind_getAdmin_ok {k : Address → F τ β} : (getAdmin >>= k) w = (.ok b, w') ↔
    ∃ a, w.store.config.admin = some a ∧ k a w = (.ok b, w') := bind_ofOption_ok

theorem bind_requireAdmin_ok {k : Address → F τ β} : (requireAdmin auth >>= k) w = (.ok b, w') ↔
    w.store.config.initialized = true ∧ ∃ a, w.store.config.admin = some a ∧ auth a = true ∧ k a w = (.ok b, w') := by
  simp only [bind_ok, requireAdmin, requireInitialized_ok, getAdmin_ok, requireAuth_ok, pure_ok]
  constructor
  · rintro ⟨a, _, ⟨_, _, ⟨hi, rfl⟩, _, _, ⟨ha, rfl⟩, _, _, ⟨hauth, rfl⟩, rfl, rfl⟩, h⟩
    exact ⟨hi, _, ha, hauth, h⟩
  · rintro ⟨hi, a, ha, hauth, h⟩
    exact ⟨a, w, ⟨(), w, ⟨hi, rfl⟩, a, w, ⟨ha, rfl⟩, (), w, ⟨hauth, rfl⟩, rfl, rfl⟩, h⟩

theorem requireStoredAdmin_ok : (requireStoredAdmin auth a : F τ Unit) w = (.ok u, w') ↔
    w.store.config.initialized = true ∧ w.store.config.admin = some a ∧ auth a = true ∧ w = w' := by
  simp only [requireStoredAdmin, bind_requireAdmin_ok, failIf_ok, not_not]
  constructor
  · rintro ⟨hi, _, ha, hauth, rfl, rfl⟩
    exact ⟨hi, ha, hauth, rfl⟩
  · rintro ⟨hi, ha, hauth, rfl⟩
    exact ⟨hi, a, ha, hauth, rfl, rfl⟩

theorem bind_requireStoredAdmin_ok : (requireStoredAdmin auth a >>= k) w = (.ok b, w') ↔
    w.store.config.initialized = true ∧ w.store.config.admin = some a ∧ auth a = true ∧ k () w = (.ok b, w') := by
  simp only [bind_ok, requireStoredAdmin_ok]
  constructor
  · rintro ⟨_, _, ⟨hi, ha, hauth, rfl⟩, h⟩
    exact ⟨hi, ha, hauth, h⟩
  · rintro ⟨hi, ha, hauth, h⟩
    exact ⟨(), w, ⟨hi, ha, hauth, rfl⟩, h⟩

end Peel

/-- A writer that succeeded wrote its configuration and nothing else. -/
theorem invoke_config {c : Call} {config : ConfigStorage} (hc : c.writeConfig w.store.config = some config)
    (h : invoke env c w = (.ok u, w')) :
    w' = { w with store.config := config } ∧ ∀ rate, c = .setBurnRate rate → rate ≤ MAX_BURN_RATE_BPS := by
  cases c
  case setProtocolToken =>
    cases hc
    simp only [invoke, setProtocolToken, bind_requireAdmin_ok, save_ok] at h
    obtain ⟨-, _, -, -, rfl⟩ := h
    exact ⟨rfl, fun _ he => by cases he⟩
  case setFeeRate =>
    cases hc
    simp only [invoke, setFeeRate, bumpConfigVersion, bind_requireAdmin_ok, bind_failIf_ok, bind_save_ok,
      save_ok] at h
    obtain ⟨-, _, -, -, -, -, rfl⟩ := h
    exact ⟨rfl, fun _ he => by cases he⟩
  case setBurnRate =>
    cases hc
    simp only [invoke, setBurnRate, bumpConfigVersion, bind_requireAdmin_ok, bind_failIf_ok, bind_save_ok,
      save_ok] at h
    obtain ⟨-, _, -, -, hle, rfl⟩ := h
    exact ⟨rfl, fun _ he => by cases he; exact Nat.not_lt.mp hle⟩
  case setFeeOptimizationConfig =>
    cases hc
    simp only [invoke, setFeeOptimizationConfig, bumpConfigVersion, bind_requireStoredAdmin_ok,
      bind_failIf_ok, bind_save_ok, save_ok] at h
    obtain ⟨-, -, -, -, rfl⟩ := h
    exact ⟨rfl, fun _ he => by cases he⟩
  case updateNetworkConditions =>
    cases hc
    simp only [invoke, updateNetworkConditions, bumpConfigVersion, bind_requireStoredAdmin_ok,
      bind_failIf_ok, bind_save_ok, save_ok] at h
    obtain ⟨-, -, -, -, rfl⟩ := h
    exact ⟨rfl, fun _ he => by cases he⟩
  all_goals cases hc

/-- The other calls do not write the configuration. -/
theorem Call.feeConfig_notMem {c : Call} {config : ConfigStorage} (hc : c.writeConfig config = none) :
    .feeConfig ∉ c.footprint := by
  cases c <;> first | (cases hc; done) | simp [Call.footprint, collectRegions]

end Writers

end CallStake.FeeCollector
