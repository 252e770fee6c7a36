import CallStake.FeeCollector.Freshness
import CallStake.FeeCollector.Split

/-!
# The rate of a trade

The rate is raised by the congestion and by the score of the network, lowered by the volume of the trader,
raised to a floor and cut to a cap. The floor and the cap are settings of one entrypoint, which does not
compare them; the cap is applied last.

* `rateAt`: the rate as a function of volume, score and multiplier. `rate`: the rate of a trader.
* `rateAt_volume`, `rateAt_score`, `rateAt_multiplier`: it is monotone in each of them.
* `RateAsClaimed`: what is claimed of a rate. `rate_as_claimed_iff`: it holds of the settings that a
  collection uses exactly when their floor is at most their cap, or the token has a discount; and of the
  stored ones in runs whose settings have their floor below their cap and are not shadowed by the cache.
-/

namespace CallStake.FeeCollector

variable {τ : Type}

/-! ## Monotonicity -/

/-- The rate before the floor and the cap, for a volume and a multiplier. -/
def baseRateAt (config : ConfigStorage) (volumeUsd : Int) (multiplier : Nat) : Nat :=
  max (adjustedBaseRate config.feeRate multiplier - volumeDiscount config.volumeDiscountConfig volumeUsd)
    MIN_FEE_RATE_BPS

namespace World

/-- The rate of a trade in the token, with the other settings as they are. -/
def rateAt (w : World τ) (token : Address) (volumeUsd : Int) (score multiplier : Nat) : Nat :=
  effectiveFeeRateCached (baseRateAt w.store.config volumeUsd multiplier) token
    { w.store.feeConfig with networkScore := score }

/-- The rate that `collectFee` uses. -/
def rate (w : World τ) (trader token : Address) : Nat :=
  effectiveFeeRateCached (w.baseRate trader) token w.store.feeConfig

end World

theorem bestDiscount_mono {volume volume' : Int} (h : volume ≤ volume') (tiers : List VolumeTier) :
    bestDiscount volume tiers ≤ bestDiscount volume' tiers := by
  have key : ∀ (l : List VolumeTier) (best best' : Nat), best ≤ best' →
      l.foldl (fun best tier =>
        if tier.volumeThresholdUsd ≤ volume ∧ best < tier.discountBps then tier.discountBps else best) best ≤
      l.foldl (fun best tier =>
        if tier.volumeThresholdUsd ≤ volume' ∧ best < tier.discountBps then tier.discountBps else best)
          best' := by
    intro l
    induction l with
    | nil => exact fun _ _ hbest => hbest
    | cons tier l ih =>
      intro best best' hbest
      refine ih _ _ ?_
      dsimp only
      split <;> split <;> omega
  exact key tiers 0 0 (Nat.le_refl 0)

theorem volumeDiscount_mono {volume volume' : Int} (h : volume ≤ volume')
    (config : Option (List VolumeTier)) : volumeDiscount config volume ≤ volumeDiscount config volume' := by
  cases config with
  | some tiers => exact bestDiscount_mono h tiers
  | none =>
    unfold volumeDiscount GOLD_TIER_VOLUME_USD SILVER_TIER_VOLUME_USD GOLD_DISCOUNT_BPS SILVER_DISCOUNT_BPS
    dsimp only
    split_ifs <;> omega

/-- A product that stays small is neither cut to 32 bits nor to 64. -/
theorem scaled_mono {rate n n' : Nat} (hrate : rate ≤ 10000) (h : n ≤ n') (hmax : n' ≤ u32Max) :
    min (rate * n) u64Max / 10000 % 2 ^ 32 ≤ min (rate * n') u64Max / 10000 % 2 ^ 32 := by
  have hle : rate * n ≤ rate * n' := Nat.mul_le_mul_left rate h
  have hbound : rate * n' ≤ 10000 * u32Max := Nat.mul_le_mul hrate hmax
  unfold u32Max at hbound
  unfold u64Max
  omega

/-- The floor, the cap and the discount keep the order of the rates. -/
theorem effectiveFeeRateCached_mono {base base' score score' : Nat} {cache : TxFeeConfigCache}
    (token : Address) (hsensitivity : cache.optimizationConfig.congestionSensitivityBps ≤ 10000)
    (hbase : base ≤ base') (hscore : score ≤ score') (hmax : score' ≤ u32Max) :
    effectiveFeeRateCached base token { cache with networkScore := score } ≤
      effectiveFeeRateCached base' token { cache with networkScore := score' } := by
  have hadjust := scaled_mono hsensitivity hscore hmax
  unfold effectiveFeeRateCached
  dsimp only
  rw [Nat.mul_comm score, Nat.mul_comm score']
  have hsum := min_le_min_right u32Max (Nat.add_le_add hbase hadjust)
  have hrate := min_le_min_right (min cache.optimizationConfig.maxDynamicRateBps MAX_FEE_RATE_BPS)
    (max_le_max_right cache.optimizationConfig.minEffectiveRateBps hsum)
  split
  · exact max_le_max_right MIN_FEE_RATE_BPS (Nat.div_le_div_right hrate)
  · exact hrate

/-! ## The settings of floor and cap -/

/-- What the setter checks. -/
structure FeeOptimizationConfig.Valid (config : FeeOptimizationConfig) : Prop where
  cap_pos : MIN_FEE_RATE_BPS ≤ config.maxDynamicRateBps
  cap_le : config.maxDynamicRateBps ≤ MAX_FEE_RATE_BPS
  sensitivity : config.congestionSensitivityBps ≤ 10000
  floor_pos : MIN_FEE_RATE_BPS ≤ config.minEffectiveRateBps
  retries : config.maxRetryAttempts ≤ 10

/-- What it does not. -/
def FeeOptimizationConfig.Ordered (config : FeeOptimizationConfig) : Prop :=
  config.minEffectiveRateBps ≤ config.maxDynamicRateBps

instance (config : FeeOptimizationConfig) : Decidable config.Ordered := inferInstanceAs (Decidable (_ ≤ _))

/-- The settings of floor and cap, stored and cached, meet a condition. -/
structure OptConfigs (P : FeeOptimizationConfig → Prop) (s : Storage) : Prop where
  stored : P s.config.feeOptimizationConfig
  cached : s.cache.All (P ·.optimizationConfig)

section OptConfigs

variable {P : FeeOptimizationConfig → Prop} {T : Tokens τ} {contract : Address} {env : Env τ}
  {w w' : World τ} {u : Unit} {c : Call}

theorem OptConfigs.used (h : OptConfigs P w.store) : P w.store.feeConfig.optimizationConfig := by
  unfold Storage.feeConfig
  cases hc : w.store.cache.lookup w.store.config.cacheKey with
  | none => exact h.stored
  | some value => exact h.cached _ _ hc

theorem OptConfigs.caches (h : OptConfigs P w.store) (hw : Caches w w') : OptConfigs P w'.store where
  stored := by
    have hsame : w'.store.config.feeOptimizationConfig = w.store.config.feeOptimizationConfig :=
      congrArg (·.optimizationConfig) hw.config
    rw [hsame]
    exact h.stored
  cached k v hv := by
    rcases hw.entries k v hv with hv | ⟨-, rfl⟩
    · exact h.cached k v hv
    · exact h.stored

/-- Settings that were accepted are valid. -/
theorem setFeeOptimizationConfig_valid {auth : Auth} {admin : Address} {config : FeeOptimizationConfig}
    (h : setFeeOptimizationConfig auth admin config w = (.ok u, w')) : config.Valid := by
  simp [setFeeOptimizationConfig, bumpConfigVersion] at h
  obtain ⟨-, -, -, ⟨hcap, hle, hsensitivity, hfloor, hretries⟩, -⟩ := h
  exact ⟨hcap, hle, hsensitivity, hfloor, hretries⟩

theorem OptConfigs.invoke (h : OptConfigs P w.store) (hr : invoke env c w = (.ok u, w'))
    (hnew : ∀ admin config, c = .setFeeOptimizationConfig admin config → config.Valid → P config) :
    OptConfigs P w'.store := by
  cases hc : c.writeConfig w.store.config with
  | none => exact h.caches ((invoke_caches env (Call.feeConfig_notMem hc)).of_run hr)
  | some config =>
    obtain ⟨rfl, -⟩ := invoke_config hc hr
    refine ⟨?_, h.cached⟩
    cases c
    case setFeeOptimizationConfig admin new =>
      cases hc
      exact hnew admin new rfl (setFeeOptimizationConfig_valid hr)
    all_goals first | (cases hc; exact h.stored) | cases hc

theorem OptConfigs.step {ev : Event τ} (h : OptConfigs P w.store) (hs : Step T contract w ev w')
    (hnew : ∀ auth oracle admin config, ev = .call auth oracle (.setFeeOptimizationConfig admin config) →
      config.Valid → P config) : OptConfigs P w'.store := by
  obtain ⟨-, rfl⟩ := hs
  cases ev with
  | call auth oracle c =>
    rcases Tx.exec_cases (FeeCollector.invoke ⟨T, oracle, contract, auth⟩ c) w with ⟨u, hr⟩ | hsame
    · exact h.invoke hr fun admin config hc => hnew auth oracle admin config (congrArg _ hc)
    · change OptConfigs P (Tx.exec _ w).store
      rw [hsame]
      exact h
  | advance => exact h
  | external => exact h
  | evict => exact ⟨h.stored, h.cached.erase⟩

end OptConfigs

/-! ## The rate -/

/-- The base rate is in its bounds, and so are the settings of floor and cap. -/
structure RateSound (s : Storage) : Prop where
  feeRate : s.config.feeRate ≤ MAX_FEE_RATE_BPS
  configs : OptConfigs FeeOptimizationConfig.Valid s

/-- What is claimed of the rate that a collection uses; `config` is the one whose floor is meant. -/
structure RateAsClaimed (w : World τ) (config : TxFeeConfigCache) (trader token : Address) : Prop where
  min_le : MIN_FEE_RATE_BPS ≤ w.rate trader token
  le_max : w.rate trader token ≤ MAX_FEE_RATE_BPS
  floor : config.protocolToken ≠ some token → config.optimizationConfig.minEffectiveRateBps ≤ w.rate trader token
  volume {volume volume' : Int} {score multiplier : Nat} : volume ≤ volume' → score ≤ u32Max →
    multiplier ≤ u32Max → w.rateAt token volume' score multiplier ≤ w.rateAt token volume score multiplier
  score {volume : Int} {score score' multiplier : Nat} : score ≤ score' → score' ≤ u32Max →
    multiplier ≤ u32Max → w.rateAt token volume score multiplier ≤ w.rateAt token volume score' multiplier
  multiplier {volume : Int} {score multiplier multiplier' : Nat} : multiplier ≤ multiplier' →
    score ≤ u32Max → multiplier' ≤ u32Max →
      w.rateAt token volume score multiplier ≤ w.rateAt token volume score multiplier'

section Rate

variable {T : Tokens τ} {contract : Address} {env : Env τ} {w w' : World τ} {u : Unit} {c : Call}
  {trader token : Address}

theorem RateSound.invoke (h : RateSound w.store) (hr : invoke env c w = (.ok u, w')) :
    RateSound w'.store where
  configs := h.configs.invoke hr fun _ _ _ hvalid => hvalid
  feeRate := by
    by_cases hwrites : .rates ∈ c.parts
    · obtain ⟨_, rfl⟩ | ⟨_, rfl⟩ | ⟨_, _, rfl⟩ | ⟨_, _, rfl⟩ | ⟨_, _, rfl⟩ | ⟨_, _, rfl⟩ := Call.of_rates hwrites
      · simp only [FeeCollector.invoke, setFeeRate, bumpConfigVersion, bind_requireAdmin_ok, Tx.bind_failIf_ok,
          bind_save_ok, save_ok] at hr
        obtain ⟨-, _, -, -, hle, -, rfl⟩ := hr
        exact Nat.not_lt.mp hle
      · simp only [FeeCollector.invoke, setCongestionConfig, bind_requireAdmin_ok, Tx.bind_failIf_ok,
          save_ok] at hr
        obtain ⟨-, _, -, -, -, rfl⟩ := hr
        exact h.feeRate
      · simp only [FeeCollector.invoke, setCongestionSignal, bind_requireInitialized_ok] at hr
        have hr := bind_requireAuthorizedCaller_ok hr.2
        simp at hr
        obtain ⟨-, rfl⟩ := hr
        exact h.feeRate
      · obtain ⟨rfl, -⟩ := invoke_config rfl hr
        exact h.feeRate
      · obtain ⟨rfl, -⟩ := invoke_config rfl hr
        exact h.feeRate
      · simp only [FeeCollector.invoke, setVolumeDiscountConfig, bind_requireStoredAdmin_ok, Tx.bind_failIf_ok,
          save_ok] at hr
        obtain ⟨-, -, -, -, -, rfl⟩ := hr
        exact h.feeRate
    · have hsame : w'.store.config.feeRate = w.store.config.feeRate :=
        congrArg RateSettings.feeRate (((invoke_keeps env c).of_run hr).rates hwrites)
      rw [hsame]
      exact h.feeRate

theorem RateSound.step {ev : Event τ} (h : RateSound w.store) (hs : Step T contract w ev w') :
    RateSound w'.store := by
  obtain ⟨-, rfl⟩ := hs
  cases ev with
  | call auth oracle c =>
    rcases Tx.exec_cases (FeeCollector.invoke ⟨T, oracle, contract, auth⟩ c) w with ⟨u, hr⟩ | hsame
    · exact h.invoke hr
    · change RateSound (Tx.exec _ w).store
      rw [hsame]
      exact h
  | advance => exact h
  | external => exact h
  | evict => exact ⟨h.feeRate, h.configs.stored, h.configs.cached.erase⟩

theorem deployed_valid : defaultFeeOptimizationConfig.Valid ∧ defaultFeeOptimizationConfig.Ordered :=
  ⟨⟨by decide, by decide, by decide, by decide, by decide⟩, by decide⟩

theorem OptConfigs.deployed {P : FeeOptimizationConfig → Prop} (h : P defaultFeeOptimizationConfig) :
    OptConfigs P Storage.deployed := ⟨h, Store.all_empty _⟩

theorem Reachable.rateSound (h : Reachable T contract w) : RateSound w.store := by
  obtain ⟨ledger, token, h⟩ := h
  have hdeployed : RateSound (World.deployed ledger token).store :=
    ⟨show DEFAULT_FEE_RATE_BPS ≤ MAX_FEE_RATE_BPS by decide, .deployed deployed_valid.1⟩
  exact h.invariant (I := fun w => RateSound w.store) hdeployed fun _ _ _ hI hs => hI.step hs

/-- The floor of the settings in use is kept exactly where it is at most the cap. -/
theorem floor_le_rate_iff (h : RateSound w.store) :
    (w.store.feeConfig.protocolToken ≠ some token →
      w.store.feeConfig.optimizationConfig.minEffectiveRateBps ≤ w.rate trader token) ↔
    (w.store.feeConfig.protocolToken = some token ∨ w.store.feeConfig.optimizationConfig.Ordered) := by
  have hle := h.configs.used.cap_le
  unfold World.rate effectiveFeeRateCached FeeOptimizationConfig.Ordered
  dsimp only
  by_cases htoken : w.store.feeConfig.protocolToken = some token
  · exact iff_of_true (fun hother => absurd htoken hother) (.inl htoken)
  · simp [htoken]
    omega

/-- Whatever the floor, the rate is in its bounds and monotone. -/
theorem RateSound.as_claimed (h : RateSound w.store) {config : TxFeeConfigCache}
    (hfloor : config.protocolToken ≠ some token →
      config.optimizationConfig.minEffectiveRateBps ≤ w.rate trader token) :
    RateAsClaimed w config trader token where
  min_le := by
    have hcap := h.configs.used.cap_pos
    have hpos := h.configs.used.floor_pos
    unfold World.rate effectiveFeeRateCached
    unfold MIN_FEE_RATE_BPS at *
    unfold MAX_FEE_RATE_BPS
    dsimp only
    split <;> omega
  le_max := effectiveFeeRateCached_le _ _ _
  floor := hfloor
  volume hvolume hscore _ := by
    have hdiscount := volumeDiscount_mono hvolume w.store.config.volumeDiscountConfig
    refine effectiveFeeRateCached_mono token h.configs.used.sensitivity ?_ (Nat.le_refl _) hscore
    unfold baseRateAt
    omega
  score hscore hmax _ := effectiveFeeRateCached_mono token h.configs.used.sensitivity (Nat.le_refl _) hscore hmax
  multiplier hmultiplier hscore hmax := by
    have hscaled := scaled_mono (h.feeRate.trans (by decide)) hmultiplier hmax
    refine effectiveFeeRateCached_mono token h.configs.used.sensitivity ?_ (Nat.le_refl _) hscore
    unfold baseRateAt adjustedBaseRate
    omega

end Rate

/-! ## Runs -/

/-- The settings of floor and cap that a call brings. -/
def Call.optConfig : Call → Option FeeOptimizationConfig
  | .setFeeOptimizationConfig _ config => some config
  | _ => none

/-- Settings that are brought have their floor at most at their cap. -/
def BringsOrdered : Event τ → Prop
  | .call _ _ c => ∀ config ∈ c.optConfig, config.Ordered
  | .advance _ | .external _ | .evict _ => True

instance : (ev : Event τ) → Decidable (BringsOrdered ev)
  | .call _ _ c => inferInstanceAs (Decidable (∀ config ∈ c.optConfig, config.Ordered))
  | .advance _ | .external _ | .evict _ => isTrue trivial

section Runs

variable {T : Tokens τ} {contract : Address} {ledger : Ledger} {tokens : τ}

/-- In every state of a run, the rate is as claimed of the settings in use exactly if the token has a
discount or their floor is at most their cap. In a run that brings no other settings, and in which none is
shadowed by an entry of the cache, the rate is as claimed of the stored settings. -/
theorem rate_as_claimed_iff :
    (∀ w, Reaches (Step T contract) (World.deployed ledger tokens) w → ∀ trader token,
      RateAsClaimed w w.store.feeConfig trader token ↔
        (w.store.feeConfig.protocolToken = some token ∨ w.store.feeConfig.optimizationConfig.Ordered)) ∧
    (∀ w, Reaches (fun w ev w' => (BringsOrdered ev ∧ Invalidates T contract w ev) ∧ Step T contract w ev w')
      (World.deployed ledger tokens) w → ∀ trader token,
      RateAsClaimed w w.store.config.txFeeConfig trader token) := by
  constructor
  · intro w h trader token
    have hsound := Reachable.rateSound ⟨ledger, tokens, h⟩
    rw [← floor_le_rate_iff hsound]
    exact ⟨fun hclaimed => hclaimed.floor, hsound.as_claimed⟩
  · intro w h trader token
    have hsound := Reachable.rateSound ⟨ledger, tokens, h.mono fun _ _ _ hs => hs.2⟩
    have hordered : OptConfigs FeeOptimizationConfig.Ordered w.store := by
      refine h.invariant (I := fun w => OptConfigs FeeOptimizationConfig.Ordered w.store)
        (.deployed deployed_valid.2) ?_
      rintro a ev b hI ⟨⟨hbrings, -⟩, hs⟩
      refine hI.step hs ?_
      rintro auth oracle admin config rfl -
      exact hbrings config rfl
    have hfresh : Fresh w.store := by
      refine h.invariant (I := fun w => Fresh w.store) (fun v hv => by cases hv) ?_
      rintro a ev b hI ⟨⟨-, hev⟩, -, rfl⟩
      exact hI.next hev
    have hused : w.store.feeConfig = w.store.config.txFeeConfig := by
      unfold Storage.feeConfig
      cases hc : w.store.cache.lookup w.store.config.cacheKey with
      | none => rfl
      | some value => exact hfresh value hc
    rw [← hused]
    exact hsound.as_claimed ((floor_le_rate_iff hsound).mpr (.inr hordered.used))

end Runs

namespace Sample

/-- A floor of 20 and a cap of 50. -/
def orderedRun : List (Event Balances) :=
  started [call (.setFeeOptimizationConfig admin ⟨50, 100, 20, 3⟩), trade 1000000, trade 1000000]

/-- The rate of Alice after the trades, by either configuration. -/
theorem ordered_rate :
    let w := run Balances.tokens collector (World.deployed ⟨0, 0⟩ funds) orderedRun
    RateAsClaimed w w.store.feeConfig alice usdc ∧ RateAsClaimed w w.store.config.txFeeConfig alice usdc := by
  have hrun := @reaches_run _ Balances.tokens collector
    (fun w ev => BringsOrdered ev ∧ Invalidates Balances.tokens collector w ev) (World.deployed ⟨0, 0⟩ funds)
    orderedRun (by decide +kernel)
  refine ⟨(rate_as_claimed_iff.1 _ (hrun.mono fun _ _ _ hs => hs.2) _ _).mpr (.inr ?_),
    rate_as_claimed_iff.2 _ hrun _ _⟩
  decide +kernel

/-- A floor of 50 above a cap of 20 is accepted, and a trade is charged 20. -/
theorem cap_below_floor :
    let w := deployedRun [call (.setFeeOptimizationConfig admin ⟨20, 0, 50, 3⟩), trade 1000000]
    Reachable Balances.tokens collector w ∧
      w.store.config.feeOptimizationConfig.minEffectiveRateBps = 50 ∧ w.rate alice usdc = 20 ∧
      (collectFee sampleEnv alice usdc 1000000 usdcAsset w).1 = .ok 2000 ∧
      ¬ RateAsClaimed w w.store.feeConfig alice usdc ∧
      ¬ RateAsClaimed w w.store.config.txFeeConfig alice usdc := by
  refine ⟨reachable_run (by decide +kernel), by decide +kernel, by decide +kernel, by decide +kernel,
    fun h => ?_, fun h => ?_⟩
  · exact absurd (h.floor (by decide +kernel)) (by decide +kernel)
  · exact absurd (h.floor (by decide +kernel)) (by decide +kernel)

end Sample

end CallStake.FeeCollector
