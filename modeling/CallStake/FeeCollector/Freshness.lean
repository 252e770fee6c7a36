import CallStake.FeeCollector.Charge

/-!
# When the cached configuration is the stored one

A load answers with the entry under the last digit of the version, which outlives the call that made it. It
is the stored configuration as long as every write of the configuration finds no other entry under the digit
it leaves.

* `Fresh`: the entry under the present key, if there is one, is the present configuration.
* `Invalidates`: the condition on an event. The writers that step the version may meet an entry of ten
  versions ago; the protocol token is written without a new version.
* `Twins`: two worlds that differ in their caches, both fresh; a collection does the same in both.
* `fresh_of_invalidating`: in a run of such events a load returns the stored configuration, and a collection
  charges what it charges without the cache.
* `Sample.protocol_token_is_missed`: after a collection, a new protocol token has no effect.
-/

namespace CallStake.FeeCollector

open Tx

variable {τ : Type}

/-- No entry that a load may return is out of date. -/
def Fresh (s : Storage) : Prop := ∀ v, s.cache.lookup s.config.cacheKey = some v → v = s.config.txFeeConfig

/-- What a call that succeeds leaves as the configuration is not shadowed by an entry that is there. -/
def Invalidates (T : Tokens τ) (contract : Address) (w : World τ) : Event τ → Prop
  | .call auth oracle c => (invoke ⟨T, oracle, contract, auth⟩ c w).1.isOk = true →
    ∀ config ∈ c.writeConfig w.store.config, ∀ v ∈ w.store.cache.lookup config.cacheKey, v = config.txFeeConfig
  | .advance _ | .external _ | .evict _ => True

instance (T : Tokens τ) (contract : Address) (w : World τ) :
    (ev : Event τ) → Decidable (Invalidates T contract w ev)
  | .call _ _ c => inferInstanceAs (Decidable
    (_ → ∀ config ∈ c.writeConfig w.store.config, ∀ v ∈ w.store.cache.lookup config.cacheKey, v = config.txFeeConfig))
  | .advance _ | .external _ | .evict _ => isTrue trivial

section Fresh

variable {w w' : World τ}

/-- A fresh world is one in which a load returns the stored configuration. -/
theorem fresh_iff : Fresh w.store ↔ (loadTxFeeConfig w).1 = .ok w.store.config.txFeeConfig := by
  rw [loadTxFeeConfig_eq]
  unfold Fresh
  cases w.store.cache.lookup w.store.config.cacheKey with
  | none => simp
  | some v => simp

theorem Fresh.caches (h : Fresh w.store) (hw : Caches w w') : Fresh w'.store := by
  intro v hv
  rw [hw.key] at hv
  rw [hw.config]
  rcases hw.entries _ v hv with hv | ⟨-, hv⟩
  · exact h v hv
  · exact hv

theorem Fresh.next {T : Tokens τ} {contract : Address} {ev : Event τ} (h : Fresh w.store)
    (hev : Invalidates T contract w ev) : Fresh (next T contract w ev).store := by
  cases ev with
  | call auth oracle c =>
    rcases exec_cases (invoke ⟨T, oracle, contract, auth⟩ c) w with ⟨u, hr⟩ | hsame
    · cases hc : c.writeConfig w.store.config with
      | none => exact h.caches ((invoke_caches _ (Call.feeConfig_notMem hc)).of_run hr)
      | some config =>
        have hw := (invoke_config hc hr).1
        change Fresh (Tx.exec _ w).store
        rw [hw]
        exact hev (by rw [hr]; rfl) config hc
    · have hnext : FeeCollector.next T contract w (.call auth oracle c) = w := hsame
      rw [hnext]
      exact h
  | advance => exact h
  | external => exact h
  | evict =>
    intro v hv
    simp only [FeeCollector.next, Store.lookup_erase_eq] at hv
    split at hv
    · cases hv
    · exact h v hv

end Fresh

/-! ## A collection without the cache -/

/-- The world with an empty cache. -/
def World.uncached (w : World τ) : World τ := { w with store.cache := ∅ }

/-- The same world up to the cache, and no cache is out of date. -/
structure Twins (w v : World τ) : Prop where
  same : w.uncached = v.uncached
  fresh : Fresh w.store
  fresh' : Fresh v.store

theorem Twins.ledger {w v : World τ} (h : Twins w v) : w.ledger = v.ledger := by
  have := congrArg World.ledger h.same
  exact this

theorem Twins.token {w v : World τ} (h : Twins w v) : w.token = v.token := by
  have := congrArg World.token h.same
  exact this

theorem Twins.uncached {w : World τ} (h : Fresh w.store) : Twins w w.uncached where
  same := rfl
  fresh := h
  fresh' v hv := by cases hv

section Twins

variable {α : Type} {env : Env τ} {trader token user : Address} {amount : Int}

/-- A read of anything but the cache. -/
theorem twins_gets {f : World τ → α} (hf : ∀ w, f w.uncached = f w) :
    Tx.Respects Twins (Tx.gets f : F τ α) := by
  refine respects_gets fun w v h => ?_
  rw [← hf w, h.same, hf v]

theorem twins_load {f : Storage → α} (hf : ∀ w : World τ, f w.uncached.store = f w.store) :
    Tx.Respects Twins (load f : F τ α) := twins_gets hf

/-- A write of anything but the cache and the settings. -/
theorem twins_save {g : Storage → Storage}
    (hg : ∀ w : World τ, g w.uncached.store = { g w.store with cache := ∅ })
    (hcache : ∀ s, (g s).cache = s.cache) (hconfig : ∀ s, (g s).config = s.config) :
    Tx.Respects Twins (save g : F τ Unit) := by
  have hfresh : ∀ s, Fresh s → Fresh (g s) := by
    intro s hs
    unfold Fresh
    rw [hcache, hconfig]
    exact hs
  refine respects_modify fun w v h => ⟨?_, hfresh _ h.fresh, hfresh _ h.fresh'⟩
  have hstore : { g w.store with cache := ∅ } = { g v.store with cache := ∅ } := by
    rw [← hg w, h.same, hg v]
  simp only [World.uncached, hstore, h.ledger, h.token]

theorem twins_invokeToken (op : τ → Except InvokeFailure τ) : Tx.Respects Twins (invokeToken op) where
  run w v h := by
    unfold invokeToken
    rw [h.token]
    split
    · rename_i t _
      have hsame : ({ w with token := t } : World τ).uncached = ({ v with token := t } : World τ).uncached :=
        congrArg (fun u : World τ => { u with token := t }) h.same
      exact ⟨rfl, hsame, h.fresh, h.fresh'⟩
    · exact ⟨rfl, h⟩

/-- A load returns the stored configuration in both worlds. -/
theorem twins_loadTxFeeConfig : Tx.Respects Twins (loadTxFeeConfig : F τ _) where
  run w v h := by
    have hconfig : w.store.config = v.store.config := congrArg (·.store.config) h.same
    refine ⟨?_, ?_, ?_, ?_⟩
    · rw [fresh_iff.mp h.fresh, fresh_iff.mp h.fresh', hconfig]
    · have huncached : ∀ u : World τ, (loadTxFeeConfig u).2.uncached = u.uncached := by
        intro u
        rw [loadTxFeeConfig_eq]
        split <;> rfl
      rw [huncached, huncached, h.same]
    · exact h.fresh.caches (caches_loadTxFeeConfig.moves w)
    · exact h.fresh'.caches (caches_loadTxFeeConfig.moves v)

theorem twins_activeMonthlyTradeVolume :
    Tx.Respects Twins (activeMonthlyTradeVolume user : F τ _) := by
  refine respects_bind (twins_load fun _ => rfl) fun volume =>
    respects_bind (twins_gets fun _ => rfl) fun _ => ?_
  cases volume with
  | none => exact respects_pure _
  | some volume =>
    exact respects_ite (respects_pure _) (respects_bind
      (twins_save (fun _ => rfl) (fun _ => rfl) fun _ => rfl) fun _ => respects_pure _)

theorem twins_getFeeRateForUser : Tx.Respects Twins (getFeeRateForUser user : F τ Nat) :=
  respects_bind (twins_load fun _ => rfl) fun _ => respects_bind (twins_gets fun _ => rfl) fun _ =>
    respects_bind (respects_bind twins_activeMonthlyTradeVolume fun _ => respects_pure _)
      fun _ => respects_pure _

theorem twins_recordTradeVolume {tradeAsset : Asset} :
    Tx.Respects Twins (recordTradeVolume env user tradeAsset amount) :=
  respects_bind (twins_load fun _ => rfl) fun _ => respects_bind (respects_ofOption _ _) fun _ =>
    respects_bind (respects_ofOption _ _) fun _ => respects_bind (twins_gets fun _ => rfl) fun _ =>
      respects_bind twins_activeMonthlyTradeVolume fun _ =>
        respects_bind (respects_ofOption _ _) fun _ =>
          twins_save (fun _ => rfl) (fun _ => rfl) fun _ => rfl

theorem twins_recordDailyFee : Tx.Respects Twins (recordDailyFee token amount : F τ Unit) :=
  respects_bind (twins_gets fun _ => rfl) fun _ =>
    respects_bind (twins_save (fun _ => rfl) (fun _ => rfl) fun _ => rfl) fun _ =>
      respects_bind (twins_load fun _ => rfl) fun _ => respects_bind (twins_load fun _ => rfl) fun _ =>
        respects_when (twins_save (fun _ => rfl) (fun _ => rfl) fun _ => rfl)

theorem twins_payReferral {fee distributable : Int} :
    Tx.Respects Twins (payReferral env trader token fee distributable) := by
  refine respects_bind (twins_load fun _ => rfl) fun referrer =>
    respects_bind (twins_load fun _ => rfl) fun _ => ?_
  cases referrer with
  | none => exact respects_pure _
  | some referrer =>
    exact respects_ite (respects_bind (respects_mapErr _ (twins_invokeToken _)) fun _ =>
      respects_pure _) (respects_pure _)

theorem twins_takeFee {fee burn : Int} : Tx.Respects Twins (takeFee env trader token fee burn) :=
  respects_bind (respects_mapErr _ (twins_invokeToken _)) fun _ =>
    respects_bind (respects_ofOption _ _) fun _ =>
      respects_bind (respects_when (respects_mapErr _ (twins_invokeToken _))) fun _ =>
        respects_bind twins_payReferral fun _ => respects_bind (twins_load fun _ => rfl) fun _ =>
          respects_bind (respects_when (twins_save (fun _ => rfl) (fun _ => rfl) fun _ => rfl))
            fun _ => respects_bind (twins_load fun _ => rfl) fun _ =>
              respects_bind (respects_ofOption _ _) fun _ =>
                twins_save (fun _ => rfl) (fun _ => rfl) fun _ => rfl

/-- A collection does the same in worlds that differ in their caches, as long as these are fresh. -/
theorem twins_collectFee {tradeAsset : Asset} :
    Tx.Respects Twins (collectFee env trader token amount tradeAsset) := by
  refine respects_bind (respects_bind (twins_load fun _ => rfl) fun _ => respects_failIf _ _)
    fun _ => respects_bind (respects_bind (twins_load fun _ => rfl) fun _ => respects_failIf _ _)
      fun _ => respects_bind (respects_failIf _ _) fun _ =>
        respects_bind (respects_failIf _ _) fun _ => respects_bind (twins_load fun _ => rfl)
          fun _ => respects_ite ?_ ?_
  · exact respects_bind (twins_save (fun _ => rfl) (fun _ => rfl) fun _ => rfl) fun _ =>
      respects_bind (respects_attempt twins_recordTradeVolume) fun _ => respects_pure _
  · exact respects_bind twins_loadTxFeeConfig fun _ => respects_bind twins_getFeeRateForUser fun _ =>
      respects_bind (respects_ofOption _ _) fun _ => respects_bind (respects_failIf _ _) fun _ =>
        respects_bind twins_takeFee fun _ => respects_bind twins_recordTradeVolume fun _ =>
          respects_bind twins_recordDailyFee fun _ => respects_pure _

end Twins

/-! ## Runs -/

/-- In a run whose writes of the configuration find no other entry under the digit they leave, a load returns
the stored configuration in every state, and a collection has the same outcome, and the same effects up to
the cache, as from the same state with an empty cache. -/
theorem fresh_of_invalidating {T : Tokens τ} {contract : Address} {ledger : Ledger} {tokens : τ}
    {w : World τ} (h : Reaches (fun w ev w' => Invalidates T contract w ev ∧ Step T contract w ev w')
      (World.deployed ledger tokens) w) :
    (loadTxFeeConfig w).1 = .ok w.store.config.txFeeConfig ∧
    ∀ oracle auth trader token tradeAmount tradeAsset,
      (collectFee ⟨T, oracle, contract, auth⟩ trader token tradeAmount tradeAsset w).1 =
        (collectFee ⟨T, oracle, contract, auth⟩ trader token tradeAmount tradeAsset w.uncached).1 ∧
      (collectFee ⟨T, oracle, contract, auth⟩ trader token tradeAmount tradeAsset w).2.uncached =
        (collectFee ⟨T, oracle, contract, auth⟩ trader token tradeAmount tradeAsset w.uncached).2.uncached := by
  have hfresh : Fresh w.store := by
    refine h.invariant (I := fun w => Fresh w.store) (fun v hv => by cases hv) ?_
    rintro a ev b hfresh ⟨hev, -, rfl⟩
    exact hfresh.next hev
  refine ⟨fresh_iff.mp hfresh, fun oracle auth trader token tradeAmount tradeAsset => ?_⟩
  obtain ⟨hresult, htwins⟩ := twins_collectFee.run w w.uncached (Twins.uncached hfresh)
  exact ⟨hresult, htwins.same⟩

namespace Sample

/-- A new burn rate is charged at once. -/
theorem new_burn_rate_is_charged :
    let w := deployedRun [trade 1000000, trade 1000000, call (.setBurnRate 500)]
    w.store.config.burnRate = 500 ∧ (loadTxFeeConfig w).1 = .ok w.store.config.txFeeConfig :=
  ⟨by decide +kernel, (fresh_of_invalidating (reaches_run (by decide +kernel))).1⟩

/-- The second trade caches a configuration without a protocol token. The trade after the token is set is
charged the whole fee, and would be charged half of it without the cache. -/
theorem protocol_token_is_missed :
    let w := deployedRun [trade 1000000, trade 1000000, call (.setProtocolToken (some usdc))]
    Reachable Balances.tokens collector w ∧
      (loadTxFeeConfig w).1 ≠ .ok w.store.config.txFeeConfig ∧
      (collectFee ⟨Balances.tokens, faceValue, collector, fun a => a ≠ collector⟩ alice usdc 1000000
        usdcAsset w).1 = .ok 3000 ∧
      (collectFee ⟨Balances.tokens, faceValue, collector, fun a => a ≠ collector⟩ alice usdc 1000000
        usdcAsset w.uncached).1 = .ok 1500 := by
  refine ⟨reachable_run (by decide +kernel), by decide +kernel, by decide +kernel, by decide +kernel⟩

end Sample

end CallStake.FeeCollector
