import CallStake.FeeCollector.Entrypoints

/-!
# What each entrypoint of the fee collector can write

The parts of the world that the ledgers and the fees of trades depend on. Most entrypoints write none of
them, whether they succeed or fail, so an invariant about these parts needs only the few that do.

* `Region`, `Region.read`: the parts of the world.
* `invoke_writes`: a call writes nothing outside of its footprint.
-/

namespace CallStake.FeeCollector

/-- `feeConfig` is the cached part of the configuration, with its version. -/
inductive Region where
  | feeConfig
  | cache
  | books
  | token
  deriving DecidableEq

variable {τ : Type}

namespace Region

/-- What a region holds. -/
def Carrier (τ : Type) : Region → Type
  | feeConfig => TxFeeConfigCache × Nat
  | cache => Store Nat TxFeeConfigCache
  | books => Books
  | token => τ

def read : (r : Region) → World τ → r.Carrier τ
  | feeConfig, w => (w.store.config.txFeeConfig, w.store.config.configVersion)
  | cache, w => w.store.cache
  | books, w => w.store.books
  | token, w => w.token

end Region

/-- The two worlds differ at most in the regions `rs`, as far as these regions go. -/
structure SameOutside (rs : List Region) (w w' : World τ) : Prop where
  ledger : w'.ledger = w.ledger
  same : ∀ r, r ∉ rs → r.read w' = r.read w

instance (rs : List Region) : IsPreorder (World τ) (SameOutside rs) where
  refl _ := ⟨rfl, fun _ _ => rfl⟩
  trans _ _ _ h h' := ⟨h'.ledger.trans h.ledger, fun r hr => (h'.same r hr).trans (h.same r hr)⟩

section SameOutside

variable {rs : List Region} {w w' : World τ}

theorem SameOutside.books (h : SameOutside rs w w') (hr : .books ∉ rs) :
    w'.store.books = w.store.books := h.same .books hr

theorem SameOutside.token (h : SameOutside rs w w') (hr : .token ∉ rs) : w'.token = w.token := h.same .token hr

theorem SameOutside.cache (h : SameOutside rs w w') (hr : .cache ∉ rs) :
    w'.store.cache = w.store.cache := h.same .cache hr

theorem SameOutside.txFeeConfig (h : SameOutside rs w w') (hr : .feeConfig ∉ rs) :
    w'.store.config.txFeeConfig = w.store.config.txFeeConfig :=
  congrArg Prod.fst (h.same .feeConfig hr)

theorem SameOutside.cacheKey (h : SameOutside rs w w') (hr : .feeConfig ∉ rs) :
    w'.store.config.cacheKey = w.store.config.cacheKey :=
  congrArg (fun c : TxFeeConfigCache × Nat => c.2 % 10) (h.same .feeConfig hr)

end SameOutside

/-- `x` writes at most the regions `rs`. -/
abbrev Writes {α : Type} (rs : List Region) (x : F τ α) : Prop := Tx.Within (SameOutside rs) x

/-! ## Primitives -/

-- the proofs that instance resolution builds grow with the length of a computation
set_option synthInstance.maxSize 1000000000

open Tx

section Primitives

variable {R : World τ → World τ → Prop} [IsPreorder (World τ) R] {α : Type} {env : Env τ} {auth : Auth}
  {a token : Address}

instance (g : Storage → α) : Within R (load g : F τ α) := within_gets _

instance : Within R (timestamp : F τ Nat) := within_gets _

instance : Within R (sequence : F τ Nat) := within_gets _

instance : Within R (ownBalance env token) := within_gets _

instance (o : Option α) : Within R (orOverflow o : F τ α) := within_ofOption _ _

instance : Within R (requireAuth auth a : F τ Unit) := within_failIf _ _

instance : Within R (requireInitialized : F τ Unit) := by
  unfold requireInitialized
  infer_instance

instance : Within R (requireNotPaused : F τ Unit) := by
  unfold requireNotPaused
  infer_instance

instance : Within R (getAdmin : F τ Address) := by
  unfold getAdmin
  infer_instance

instance : Within R (requireAdmin auth : F τ Address) := by
  unfold requireAdmin
  infer_instance

instance : Within R (requireStoredAdmin auth a : F τ Unit) := by
  unfold requireStoredAdmin
  infer_instance

instance : Within R (requireAuthorizedCaller auth a : F τ Unit) := by
  unfold requireAuthorizedCaller
  infer_instance

instance : Within R (validateTokenMetadataForToken token : F τ Unit) := by
  unfold validateTokenMetadataForToken
  infer_instance

end Primitives

/-! ## Shared parts -/

/-- Writes of the records of trades, except of the referrers. -/
class Trades (R : World τ → World τ → Prop) : Prop where
  volume : ∀ g : Storage → _, Within R (save fun s => { s with trades.monthlyTradeVolume := g s })
  fees : ∀ g : Storage → _, Within R (save fun s => { s with trades.dailyFeeTotal := g s })
  forecast : ∀ g : Storage → _, Within R (save fun s => { s with trades.lastForecastDay := g s })
  traded : ∀ g : Storage → _, Within R (save fun s => { s with trades.hasTraded := g s })

/-- Payments, and the ledgers that they are kept in. -/
class MovesFunds (R : World τ → World τ → Prop) : Prop where
  token : ∀ op, Within R (invokeToken op)
  books : ∀ g : Storage → _, Within R (save fun s => { s with books := g s })
  pool : ∀ g h : Storage → _, Within R (save fun s => { s with
    books.revenueSharePool := g s, payouts.revenueSharePoolIndex := h s })

attribute [instance] Trades.volume Trades.fees Trades.forecast Trades.traded
  MovesFunds.token MovesFunds.books MovesFunds.pool

section Parts

variable {R : World τ → World τ → Prop} [IsPreorder (World τ) R] {env : Env τ} {token user trader src dst : Address}
  {amount : Int}

section Trades

variable [Trades R]

instance : Within R (activeMonthlyTradeVolume user : F τ _) := by
  unfold activeMonthlyTradeVolume
  refine within_bind inferInstance fun volume => within_bind inferInstance fun _ => ?_
  cases volume <;> infer_instance

instance : Within R (getFeeRateForUser user : F τ Nat) := by
  unfold getFeeRateForUser getActiveVolumeUsd
  infer_instance

instance {tradeAsset : Asset} : Within R (recordTradeVolume env user tradeAsset amount) := by
  unfold recordTradeVolume
  infer_instance

instance {day : Nat} : Within R (setLastForecastDay token day : F τ Unit) := by
  unfold setLastForecastDay
  infer_instance

instance : Within R (recordDailyFee token amount : F τ Unit) := by
  unfold recordDailyFee addDailyFeeTotal
  infer_instance

end Trades

instance [∀ g : Storage → _, Within R (save fun s => { s with cache := g s })] :
    Within R (loadTxFeeConfig : F τ _) := by
  unfold loadTxFeeConfig
  refine within_bind inferInstance fun config => within_bind inferInstance fun cached => ?_
  cases cached <;> infer_instance

section Funds

variable [MovesFunds R]

instance : Within R (tryTransfer env token src dst amount) := by
  unfold tryTransfer
  infer_instance

instance : Within R (tryBurn env token src amount) := by
  unfold tryBurn
  infer_instance

instance : Within R (setTreasuryBalance token amount : F τ Unit) := by
  unfold setTreasuryBalance
  infer_instance

instance : Within R (setPendingFees user token amount : F τ Unit) := by
  unfold setPendingFees
  infer_instance

instance {feeAmount burnAmount : Int} : Within R (takeFee env trader token feeAmount burnAmount) := by
  have (feeAmount distributable : Int) : Within R (payReferral env trader token feeAmount distributable) := by
    unfold payReferral
    refine within_bind inferInstance fun referrer => within_bind inferInstance fun _ => ?_
    cases referrer <;> infer_instance
  unfold takeFee creditLedgers addRevenueSharePool
  infer_instance

instance [Trades R] [Within R (loadTxFeeConfig : F τ _)] {tradeAsset : Asset} :
    Within R (collectFeeWithRecovery env trader token amount tradeAsset) := by
  unfold collectFeeWithRecovery
  infer_instance

instance [Trades R] [Within R (loadTxFeeConfig : F τ _)] (items : List BatchFeeInput) :
    Within R (collectAll env items) := by
  induction items with
  | nil => exact within_pure _
  | cons item items ih =>
    unfold collectAll
    infer_instance

instance (tiers : List WaterfallTier) (remaining distributed : Int) :
    Within R (payTiers env token tiers remaining distributed) := by
  induction tiers generalizing remaining distributed with
  | nil => exact within_pure _
  | cons tier tiers ih =>
    unfold payTiers
    cases tier.allocation remaining <;> infer_instance

instance : Within R (settleClaim env user token amount) := by
  have (prefToken : Address) : Within R (tryClaimInPreferredCurrency env user token amount prefToken) := by
    refine within_bind inferInstance fun _ => within_bind inferInstance fun _ => ?_
    split <;> infer_instance
  unfold settleClaim claimConverted
  refine within_bind (within_bind inferInstance fun pref => ?_) fun converted => ?_
  · cases pref <;> infer_instance
  · cases converted <;> infer_instance

end Funds

end Parts

/-! ## Writes -/

section Writes

variable {rs : List Region}

/-- A write of the storage writes the regions in which the two storages differ. -/
theorem writes_save {g : Storage → Storage}
    (h : ∀ (w : World τ) (r : Region), r ∉ rs → r.read { w with store := g w.store } = r.read w) :
    Writes rs (save g : F τ Unit) := ⟨fun w => ⟨rfl, h w⟩⟩

instance (f g : Storage → ConfigStorage)
    [ho : Fact (∀ s, (f s).feeOptimizationConfig = (g s).feeOptimizationConfig)]
    [hs : Fact (∀ s, (f s).networkConditionScore = (g s).networkConditionScore)]
    [hb : Fact (∀ s, (f s).burnRate = (g s).burnRate)] [ht : Fact (∀ s, (f s).protocolToken = (g s).protocolToken)] :
    Fact (∀ s, (f s).txFeeConfig = (g s).txFeeConfig) :=
  ⟨fun s => by simp only [ConfigStorage.txFeeConfig, ho.out, hs.out, hb.out, ht.out]⟩

instance (g : Storage → ConfigStorage)
    [h : Fact (.feeConfig ∈ rs ∨ ∀ s, (g s).txFeeConfig = s.config.txFeeConfig)]
    [h' : Fact (.feeConfig ∈ rs ∨ ∀ s, (g s).configVersion = s.config.configVersion)] :
    Writes rs (save fun s => { s with config := g s } : F τ Unit) := by
  refine writes_save fun w r hr => ?_
  cases r
  case feeConfig => exact Prod.ext (h.out.resolve_left hr _) (h'.out.resolve_left hr _)
  all_goals rfl

instance [h : Fact (.books ∈ rs)] (g : Storage → Books) (f : Storage → PayoutStorage) :
    Writes rs (save fun s => { s with books := g s, payouts := f s } : F τ Unit) :=
  writes_save fun w r hr => by cases r <;> first | rfl | exact absurd h.out hr

instance (f : Storage → PayoutStorage) : Writes rs (save fun s => { s with payouts := f s } : F τ Unit) :=
  writes_save fun w r hr => by cases r <;> rfl

instance (f : Storage → TradeStorage) : Writes rs (save fun s => { s with trades := f s } : F τ Unit) :=
  writes_save fun w r hr => by cases r <;> rfl

instance (f : Storage → EarningsStorage) : Writes rs (save fun s => { s with earnings := f s } : F τ Unit) :=
  writes_save fun w r hr => by cases r <;> rfl

instance [h : Fact (.cache ∈ rs)] (f : Storage → Store Nat TxFeeConfigCache) :
    Writes rs (save fun s => { s with cache := f s } : F τ Unit) :=
  writes_save fun w r hr => by cases r <;> first | rfl | exact absurd h.out hr

instance : Trades (SameOutside rs : World τ → World τ → Prop) :=
  ⟨inferInstance, inferInstance, inferInstance, inferInstance⟩

instance [h : Fact (.token ∈ rs)] (op : τ → Except InvokeFailure τ) : Within (SameOutside rs) (invokeToken op) where
  moves w := by
    unfold invokeToken
    split
    · exact ⟨rfl, fun r hr => by cases r <;> first | rfl | exact absurd h.out hr⟩
    · exact refl_of (SameOutside rs) w

instance [Fact (.books ∈ rs)] [Fact (.token ∈ rs)] : MovesFunds (SameOutside rs : World τ → World τ → Prop) :=
  ⟨inferInstance, inferInstance, inferInstance⟩

end Writes

/-! ## Entrypoints -/

/-- What a collection writes. -/
@[reducible] def collectRegions : List Region := [.cache, .books, .token]

/-- The regions that a call may write. -/
def Call.footprint : Call → List Region
  | .setFeeRate .. | .setBurnRate .. | .setFeeOptimizationConfig .. | .updateNetworkConditions .. |
    .setProtocolToken .. => [.feeConfig]
  | .currentDynamicFeeRate .. => [.cache]
  | .collectFee .. | .batchCollectFees .. | .retryFailedFeeCollection .. => collectRegions
  | .withdrawTreasuryFees .. | .depositInsuranceFund .. | .payoutInsurance .. | .claimFees .. |
    .distributeWaterfall .. => [.books, .token]
  | .triggerRevenueShareSnapshot .. => [.books]
  | _ => []

theorem invoke_writes (env : Env τ) (c : Call) : Writes c.footprint (invoke env c) := by
  cases c
  all_goals
    simp [invoke, Call.footprint, collectFee, batchCollectFees, init, upgrade, setPaused, authorizeCaller,
      revokeCaller, setOracleContract, feeRateForUser, monthlyTradeVolume, getActiveVolumeUsd, auditBalances,
      queueWithdrawal, withdrawTreasuryFees, setInsurancePayoutCap, depositInsuranceFund, payoutInsurance,
      setFeeRate, setBurnRate, bumpConfigVersion, setCongestionConfig, setCongestionSignal,
      setFeeOptimizationConfig, updateNetworkConditions, queueFailedFeeCollection, retryFailedFeeCollection,
      currentDynamicFeeRate, claimFees, addEpochRebateDistributed, recordProviderFeeShare,
      recordProviderGrossFeeShare, FeeSplitPolicy.split, addProviderDailyFeeShares, setFeeSplitPolicy,
      FeeSplitPolicy.validate, setProtocolToken, registerToken, setRevenueShareRateBps,
      triggerRevenueShareSnapshot, clearRevenueSharePool, setWaterfallConfig, distributeWaterfall,
      setPayoutCurrency, clearPayoutCurrency, setVolumeDiscountConfig, setForecastConfig, triggerFeeForecast,
      registerReferral, setReferrer, adminOverrideReferral, setReferralFeeShare, setMaxRebateBps,
      setInsuranceBalance]
    infer_instance

end CallStake.FeeCollector
