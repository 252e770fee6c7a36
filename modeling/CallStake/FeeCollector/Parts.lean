import CallStake.FeeCollector.Footprint

/-!
# What each entrypoint of the fee collector leaves alone

The settings and the records that few entrypoints write: the administrator, what the rate of a trade is
computed from, the referrals, the failed collections and the earnings.

* `Part`, `Part.read`: the parts. `Call.parts`: those that a call may write.
* `Call.of_admin`, `Call.of_rates` and so on: the calls that may write a part.
* `invoke_keeps`: a call leaves the other parts as they are, whether it succeeds or fails.
-/

namespace CallStake.FeeCollector

variable {τ : Type}

/-- The settings that the rate of a trade is computed from, apart from the protocol token. -/
structure RateSettings where
  feeRate : Nat
  networkConditionScore : Nat
  feeOptimizationConfig : FeeOptimizationConfig
  congestionConfig : CongestionConfig
  congestionSignal : Option CongestionSignal
  volumeDiscountConfig : Option (List VolumeTier)

def ConfigStorage.rates (config : ConfigStorage) : RateSettings where
  feeRate := config.feeRate
  networkConditionScore := config.networkConditionScore
  feeOptimizationConfig := config.feeOptimizationConfig
  congestionConfig := config.congestionConfig
  congestionSignal := config.congestionSignal
  volumeDiscountConfig := config.volumeDiscountConfig

/-- The parts of the storage a call may write. -/
inductive Part where
  | admin
  | rates
  | referrals
  | failures
  | earnings
  deriving DecidableEq

namespace Part

/-- What a part holds. -/
def Carrier : Part → Type
  | admin => Bool × Option Address
  | rates => RateSettings
  | referrals => Store Address Address
  | failures => Store Bytes FailedFeeCollection
  | earnings => EarningsStorage

def read : (p : Part) → Storage → p.Carrier
  | admin, s => (s.config.initialized, s.config.admin)
  | rates, s => s.config.rates
  | referrals, s => s.trades.referrer
  | failures, s => s.payouts.failedFeeCollections
  | earnings, s => s.earnings

end Part

/-- The two worlds agree in all parts but `ps`. -/
structure SameParts (ps : List Part) (w w' : World τ) : Prop where
  same : ∀ p, p ∉ ps → p.read w'.store = p.read w.store

instance (ps : List Part) : IsPreorder (World τ) (SameParts ps) where
  refl _ := ⟨fun _ _ => rfl⟩
  trans _ _ _ h h' := ⟨fun p hp => (h'.same p hp).trans (h.same p hp)⟩

/-- `x` writes at most the parts `ps`. -/
abbrev Keeps {α : Type} (ps : List Part) (x : F τ α) : Prop := Tx.Within (SameParts ps) x

section Parts

variable {ps : List Part} {w w' : World τ}

theorem SameParts.admin (h : SameParts ps w w') (hp : .admin ∉ ps) :
    w'.store.config.initialized = w.store.config.initialized ∧ w'.store.config.admin = w.store.config.admin :=
  Prod.mk.inj (h.same .admin hp)

theorem SameParts.rates (h : SameParts ps w w') (hp : .rates ∉ ps) :
    w'.store.config.rates = w.store.config.rates := h.same .rates hp

theorem SameParts.referrals (h : SameParts ps w w') (hp : .referrals ∉ ps) :
    w'.store.trades.referrer = w.store.trades.referrer := h.same .referrals hp

theorem SameParts.failures (h : SameParts ps w w') (hp : .failures ∉ ps) :
    w'.store.payouts.failedFeeCollections = w.store.payouts.failedFeeCollections := h.same .failures hp

theorem SameParts.earnings (h : SameParts ps w w') (hp : .earnings ∉ ps) :
    w'.store.earnings = w.store.earnings := h.same .earnings hp

end Parts

/-! ## Writes -/

-- the proofs that instance resolution builds grow with the length of a computation
set_option synthInstance.maxSize 1000000000

open Tx

section Writes

variable {ps : List Part}

/-- A write of the storage writes the parts in which the two storages differ. -/
theorem keeps_save {g : Storage → Storage} (h : ∀ s p, p ∉ ps → p.read (g s) = p.read s) :
    Keeps ps (save g : F τ Unit) := ⟨fun w => ⟨h w.store⟩⟩

instance (f g : Storage → ConfigStorage) [hr : Fact (∀ s, (f s).feeRate = (g s).feeRate)]
    [hs : Fact (∀ s, (f s).networkConditionScore = (g s).networkConditionScore)]
    [ho : Fact (∀ s, (f s).feeOptimizationConfig = (g s).feeOptimizationConfig)]
    [hc : Fact (∀ s, (f s).congestionConfig = (g s).congestionConfig)]
    [hc' : Fact (∀ s, (f s).congestionSignal = (g s).congestionSignal)]
    [hv : Fact (∀ s, (f s).volumeDiscountConfig = (g s).volumeDiscountConfig)] :
    Fact (∀ s, (f s).rates = (g s).rates) :=
  ⟨fun s => by simp only [ConfigStorage.rates, hr.out, hs.out, ho.out, hc.out, hc'.out, hv.out]⟩

instance (g : Storage → ConfigStorage) [hi : Fact (.admin ∈ ps ∨ ∀ s, (g s).initialized = s.config.initialized)]
    [ha : Fact (.admin ∈ ps ∨ ∀ s, (g s).admin = s.config.admin)]
    [hr : Fact (.rates ∈ ps ∨ ∀ s, (g s).rates = s.config.rates)] :
    Keeps ps (save fun s => { s with config := g s } : F τ Unit) := by
  refine keeps_save fun s p hp => ?_
  cases p
  case admin => exact Prod.ext (hi.out.resolve_left hp _) (ha.out.resolve_left hp _)
  case rates => exact hr.out.resolve_left hp _
  all_goals rfl

instance (g : Storage → Books) (f : Storage → PayoutStorage)
    [h : Fact (.failures ∈ ps ∨ ∀ s, (f s).failedFeeCollections = s.payouts.failedFeeCollections)] :
    Keeps ps (save fun s => { s with books := g s, payouts := f s } : F τ Unit) :=
  keeps_save fun s p hp => by cases p <;> first | rfl | exact h.out.resolve_left hp _

instance (f : Storage → TradeStorage) [h : Fact (.referrals ∈ ps ∨ ∀ s, (f s).referrer = s.trades.referrer)] :
    Keeps ps (save fun s => { s with trades := f s } : F τ Unit) :=
  keeps_save fun s p hp => by cases p <;> first | rfl | exact h.out.resolve_left hp _

instance [h : Fact (.earnings ∈ ps)] (f : Storage → EarningsStorage) :
    Keeps ps (save fun s => { s with earnings := f s } : F τ Unit) :=
  keeps_save fun s p hp => by cases p <;> first | rfl | exact absurd h.out hp

instance (f : Storage → Store Nat TxFeeConfigCache) : Keeps ps (save fun s => { s with cache := f s } : F τ Unit) :=
  keeps_save fun s p hp => by cases p <;> rfl

instance : Trades (SameParts ps : World τ → World τ → Prop) :=
  ⟨inferInstance, inferInstance, inferInstance, inferInstance⟩

instance : MovesFunds (SameParts ps : World τ → World τ → Prop) := by
  refine ⟨fun op => ⟨fun w => ?_⟩, inferInstance, inferInstance⟩
  unfold invokeToken
  split
  · exact ⟨fun _ _ => rfl⟩
  · exact refl_of (SameParts ps) w

end Writes

/-! ## Entrypoints -/

/-- The parts that a call may write. -/
def Call.parts : Call → List Part
  | .init .. => [.admin]
  | .setFeeRate .. | .setCongestionConfig .. | .setCongestionSignal .. | .setFeeOptimizationConfig .. |
    .updateNetworkConditions .. | .setVolumeDiscountConfig .. => [.rates]
  | .registerReferral .. | .adminOverrideReferral .. => [.referrals]
  | .queueFailedFeeCollection .. | .retryFailedFeeCollection .. => [.failures]
  | .recordProviderFeeShare .. | .recordProviderGrossFeeShare .. => [.earnings]
  | _ => []

section Writers

/-! The calls that may write a part. -/

variable {c : Call}

theorem Call.of_admin (h : .admin ∈ c.parts) : ∃ admin, c = .init admin := by
  cases c
  case init admin => exact ⟨admin, rfl⟩
  all_goals exact absurd h (of_decide_eq_true rfl)

theorem Call.of_rates (h : .rates ∈ c.parts) :
    (∃ newRateBps, c = .setFeeRate newRateBps) ∨ (∃ config, c = .setCongestionConfig config) ∨
    (∃ caller multiplierBps, c = .setCongestionSignal caller multiplierBps) ∨
    (∃ admin config, c = .setFeeOptimizationConfig admin config) ∨
    (∃ admin scoreBps, c = .updateNetworkConditions admin scoreBps) ∨
    ∃ admin tiers, c = .setVolumeDiscountConfig admin tiers := by
  cases c
  case setFeeRate newRateBps => exact .inl ⟨_, rfl⟩
  case setCongestionConfig config => exact .inr (.inl ⟨_, rfl⟩)
  case setCongestionSignal caller multiplierBps => exact .inr (.inr (.inl ⟨_, _, rfl⟩))
  case setFeeOptimizationConfig admin config => exact .inr (.inr (.inr (.inl ⟨_, _, rfl⟩)))
  case updateNetworkConditions admin scoreBps => exact .inr (.inr (.inr (.inr (.inl ⟨_, _, rfl⟩))))
  case setVolumeDiscountConfig admin tiers => exact .inr (.inr (.inr (.inr (.inr ⟨_, _, rfl⟩))))
  all_goals exact absurd h (of_decide_eq_true rfl)

theorem Call.of_referrals (h : .referrals ∈ c.parts) :
    (∃ referrer referee, c = .registerReferral referrer referee) ∨
      ∃ admin referrer referee, c = .adminOverrideReferral admin referrer referee := by
  cases c
  case registerReferral referrer referee => exact .inl ⟨_, _, rfl⟩
  case adminOverrideReferral admin referrer referee => exact .inr ⟨_, _, _, rfl⟩
  all_goals exact absurd h (of_decide_eq_true rfl)

theorem Call.of_failures (h : .failures ∈ c.parts) :
    (∃ admin failed, c = .queueFailedFeeCollection admin failed) ∨
      ∃ admin id, c = .retryFailedFeeCollection admin id := by
  cases c
  case queueFailedFeeCollection admin failed => exact .inl ⟨_, _, rfl⟩
  case retryFailedFeeCollection admin id => exact .inr ⟨_, _, rfl⟩
  all_goals exact absurd h (of_decide_eq_true rfl)

theorem Call.of_earnings (h : .earnings ∈ c.parts) :
    (∃ caller provider amount, c = .recordProviderFeeShare caller provider amount) ∨
      ∃ caller provider grossAmount, c = .recordProviderGrossFeeShare caller provider grossAmount := by
  cases c
  case recordProviderFeeShare caller provider amount => exact .inl ⟨_, _, _, rfl⟩
  case recordProviderGrossFeeShare caller provider grossAmount => exact .inr ⟨_, _, _, rfl⟩
  all_goals exact absurd h (of_decide_eq_true rfl)

end Writers

theorem invoke_keeps (env : Env τ) (c : Call) : Keeps c.parts (invoke env c) := by
  cases c
  all_goals
    simp [invoke, Call.parts, collectFee, batchCollectFees, init, upgrade, setPaused, authorizeCaller,
      revokeCaller, setOracleContract, feeRateForUser, monthlyTradeVolume, getActiveVolumeUsd, auditBalances,
      queueWithdrawal, withdrawTreasuryFees, setInsurancePayoutCap, depositInsuranceFund, payoutInsurance,
      setFeeRate, setBurnRate, bumpConfigVersion, setCongestionConfig, setCongestionSignal,
      setFeeOptimizationConfig, updateNetworkConditions, queueFailedFeeCollection, retryFailedFeeCollection,
      currentDynamicFeeRate, claimFees, addEpochRebateDistributed, recordProviderFeeShare,
      recordProviderGrossFeeShare, FeeSplitPolicy.split, addProviderDailyFeeShares, setFeeSplitPolicy,
      FeeSplitPolicy.validate, setProtocolToken, registerToken, setRevenueShareRateBps,
      triggerRevenueShareSnapshot, clearRevenueSharePool, setWaterfallConfig, distributeWaterfall,
      setPayoutCurrency, clearPayoutCurrency, setVolumeDiscountConfig, setForecastConfig, triggerFeeForecast,
      registerReferral, setReferrer, adminOverrideReferral, setReferralFeeShare, setMaxRebateBps,
      setInsuranceBalance]
    infer_instance

end CallStake.FeeCollector
