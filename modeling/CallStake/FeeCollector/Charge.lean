import CallStake.FeeCollector.Cache

/-!
# What a collection charges and where it goes

The fee of a trade as a function of the world before the call, and its parts.

* `World.quote`: the fee of a trade and the part of it that is burned.
* `Storage.referralPart`, `Storage.revenuePart`: the parts of the referrer and of the revenue share.
* `takeFee_ok`: a fee that was taken is burned, paid to the referrer, or credited to a ledger, all of it.
* `collect_spec`: a collection is free, or takes the fee that was quoted.
-/

namespace CallStake.FeeCollector

open Tx

variable {τ : Type}

/-! ## The quote -/

/-- The configuration that `loadTxFeeConfig` returns. -/
def Storage.feeConfig (s : Storage) : TxFeeConfigCache := (s.cache.lookup s.config.cacheKey).getD s.config.txFeeConfig

namespace World

/-- The volume of the trader in the present month. -/
def activeVolume (w : World τ) (user : Address) : Int :=
  match w.store.trades.monthlyTradeVolume.lookup user with
  | some volume =>
    if volume.monthBucket = w.ledger.sequence / LEDGERS_PER_MONTH_APPROX then volume.volumeUsd else 0
  | none => 0

/-- The rate of a trader before the cached part of the configuration is applied. -/
def baseRate (w : World τ) (user : Address) : Nat :=
  max (adjustedBaseRate w.store.config.feeRate
      (currentEffectiveMultiplier w.store.config w.ledger.timestamp) -
    volumeDiscount w.store.config.volumeDiscountConfig (w.activeVolume user)) MIN_FEE_RATE_BPS

/-- The fee of a trade, and the part of it that is burned. -/
def quote (w : World τ) (trader token : Address) (tradeAmount : Int) : Option (Int × Int) :=
  feeAndBurnAmounts tradeAmount
    (effectiveFeeRateCached (w.baseRate trader) token w.store.feeConfig) w.store.feeConfig.burnRate

end World

/-- A load returns the entry under the present key, or the present configuration, and writes the cache at
most. -/
theorem loadTxFeeConfig_ok {w w' : World τ} {c : TxFeeConfigCache}
    (h : loadTxFeeConfig w = (.ok c, w')) :
    c = w.store.feeConfig ∧ ∃ cache, w' = { w with store.cache := cache } := by
  rw [loadTxFeeConfig_eq] at h
  unfold Storage.feeConfig
  split at h
  all_goals
    rename_i hcached
    rw [hcached]
    cases h
    exact ⟨rfl, _, rfl⟩

theorem activeMonthlyTradeVolume_ok {w w' : World τ} {user : Address} {o : Option MonthlyTradeVolume}
    (h : activeMonthlyTradeVolume user w = (.ok o, w')) :
    (o.map (·.volumeUsd)).getD 0 = w.activeVolume user ∧
      ∃ volumes, w' = { w with store.trades.monthlyTradeVolume := volumes } := by
  simp only [activeMonthlyTradeVolume, bind_ok, load_ok, sequence_ok] at h
  obtain ⟨volume, w₁, ⟨hvolume, rfl⟩, seq, w₂, ⟨rfl, rfl⟩, h⟩ := h
  unfold World.activeVolume
  rw [hvolume]
  cases volume with
  | none =>
    obtain ⟨rfl, rfl⟩ := Tx.pure_ok.mp h
    exact ⟨rfl, _, rfl⟩
  | some volume =>
    by_cases hmonth : volume.monthBucket = w.ledger.sequence / LEDGERS_PER_MONTH_APPROX
    · simp [if_pos hmonth] at h
      obtain ⟨rfl, rfl⟩ := h
      exact ⟨by simp [hmonth], _, rfl⟩
    · simp only [if_neg hmonth, bind_ok, save_ok, pure_ok] at h
      obtain ⟨-, -, rfl, rfl, rfl⟩ := h
      exact ⟨by simp [hmonth], _, rfl⟩

theorem getFeeRateForUser_ok {w w' : World τ} {user : Address} {rate : Nat}
    (h : getFeeRateForUser user w = (.ok rate, w')) :
    rate = w.baseRate user ∧ ∃ volumes, w' = { w with store.trades.monthlyTradeVolume := volumes } := by
  simp only [getFeeRateForUser, getActiveVolumeUsd, bind_ok, load_ok, timestamp_ok, pure_ok] at h
  obtain ⟨config, w₁, ⟨rfl, rfl⟩, now, w₂, ⟨rfl, rfl⟩, volume, w₃, ⟨o, w₄, ho, rfl, rfl⟩, rfl, rfl⟩ := h
  obtain ⟨hvolume, hw⟩ := activeMonthlyTradeVolume_ok ho
  exact ⟨by rw [hvolume]; rfl, hw⟩

/-- The fee and the burned part of it, for a burn rate of at most the whole. -/
theorem feeAndBurnAmounts_bounds {tradeAmount fee burn : Int} {rate burnRate : Nat}
    (hburn : burnRate ≤ MAX_BURN_RATE_BPS) (hpos : 0 < fee)
    (h : feeAndBurnAmounts tradeAmount rate burnRate = some (fee, burn)) :
    0 ≤ burn ∧ burn ≤ fee ∧ fee ≤ i128Max := by
  simp only [feeAndBurnAmounts, feeAmountFloor, Option.bind_eq_bind, Option.bind_eq_some_iff,
    Option.map_eq_some_iff, checkedMul_eq_some, Option.pure_def, Option.some.injEq, Prod.mk.injEq] at h
  obtain ⟨_, ⟨product, ⟨-, hmax, rfl⟩, rfl⟩, scaled, ⟨-, -, rfl⟩, rfl, rfl⟩ := h
  generalize tradeAmount * rate = product at *
  have hproduct : 0 ≤ product := by
    by_contra hneg
    have hquot : 0 ≤ (-product).tdiv 10000 := Int.tdiv_nonneg (by omega) (by decide)
    rw [Int.neg_tdiv] at hquot
    omega
  rw [Int.tdiv_eq_ediv_of_nonneg hproduct] at hpos ⊢
  have hrate : (burnRate : Int) ≤ 10000 := by exact_mod_cast hburn
  have hscaled : 0 ≤ product / 10000 * burnRate := Int.mul_nonneg (by omega) (by omega)
  have hle : product / 10000 * burnRate ≤ product / 10000 * 10000 := Int.mul_le_mul_of_nonneg_left hrate (by omega)
  rw [Int.tdiv_eq_ediv_of_nonneg hscaled]
  exact ⟨by omega, by omega, by omega⟩

/-! ## The parts of a fee -/

theorem shareOf_nonneg {amount : Int} (h : 0 ≤ amount) (bps : Nat) : 0 ≤ shareOf amount bps := by
  unfold shareOf
  cases hmul : checkedMul amount bps with
  | none => exact Int.le_refl 0
  | some product =>
    obtain ⟨-, -, rfl⟩ := checkedMul_eq_some.mp hmul
    exact Int.tdiv_nonneg (Int.mul_nonneg h (by omega)) (by decide)

namespace Storage

/-- What the referrer of the trader gets. -/
def referralPart (s : Storage) (trader : Address) (fee distributable : Int) : Int :=
  if (s.trades.referrer.lookup trader).isSome = true then
    min (shareOf fee s.config.referralFeeShareBps) distributable
  else 0

/-- What the pool of the revenue share gets. -/
def revenuePart (s : Storage) (trader : Address) (fee distributable : Int) : Int :=
  min (shareOf distributable s.config.revenueShareRateBps)
    (distributable - s.referralPart trader fee distributable)

section Bounds

variable (s : Storage) (trader : Address) {fee distributable : Int}

theorem referralPart_bounds (hfee : 0 ≤ fee) (h : 0 ≤ distributable) :
    0 ≤ s.referralPart trader fee distributable ∧ s.referralPart trader fee distributable ≤ distributable := by
  have := shareOf_nonneg hfee s.config.referralFeeShareBps
  unfold referralPart
  split <;> omega

theorem revenuePart_bounds (hfee : 0 ≤ fee) (h : 0 ≤ distributable) :
    0 ≤ s.revenuePart trader fee distributable ∧ s.revenuePart trader fee distributable ≤
      distributable - s.referralPart trader fee distributable := by
  have := shareOf_nonneg h s.config.revenueShareRateBps
  have := s.referralPart_bounds trader hfee h
  unfold revenuePart
  omega

end Bounds

end Storage

namespace Books

def setTreasury (b : Books) (token : Address) (balance : Int) : Books :=
  { b with treasuryBalance := b.treasuryBalance.insert token balance }

def setInsurance (b : Books) (token : Address) (balance : Int) : Books :=
  { b with insuranceBalance := b.insuranceBalance.insert token balance }

def addPool (b : Books) (token : Address) (amount : Int) : Books :=
  if 0 < amount then
    { b with revenueSharePool := b.revenueSharePool.insert token (saturatingAdd (b.pool token) amount) }
  else b

section Reads

variable (b : Books) (token k provider : Address) (v : Int)

@[simp] theorem setTreasury_treasury :
    (b.setTreasury token v).treasury k = if k = token then v else b.treasury k := by
  simp only [setTreasury, treasury, Store.lookup_insert_eq]
  split <;> rfl

@[simp] theorem setTreasury_insurance : (b.setTreasury token v).insurance k = b.insurance k := rfl

@[simp] theorem setTreasury_pool : (b.setTreasury token v).pool k = b.pool k := rfl

@[simp] theorem setTreasury_pendingFees : (b.setTreasury token v).pendingFees = b.pendingFees := rfl

@[simp] theorem setInsurance_insurance :
    (b.setInsurance token v).insurance k = if k = token then v else b.insurance k := by
  simp only [setInsurance, insurance, Store.lookup_insert_eq]
  split <;> rfl

@[simp] theorem setInsurance_treasury : (b.setInsurance token v).treasury k = b.treasury k := rfl

@[simp] theorem setInsurance_pool : (b.setInsurance token v).pool k = b.pool k := rfl

@[simp] theorem addPool_treasury : (b.addPool token v).treasury k = b.treasury k := by
  unfold addPool
  split <;> rfl

@[simp] theorem addPool_insurance : (b.addPool token v).insurance k = b.insurance k := by
  unfold addPool
  split <;> rfl

@[simp] theorem addPool_pendingFees : (b.addPool token v).pendingFees = b.pendingFees := by
  unfold addPool
  split <;> rfl

theorem addPool_pool : (b.addPool token v).pool k =
    if 0 < v ∧ k = token then saturatingAdd (b.pool token) v else b.pool k := by
  unfold addPool
  by_cases hv : 0 < v
  · rw [if_pos hv]
    simp [pool, Store.lookup_insert_eq, hv]
    split <;> rfl
  · simp [hv]

end Reads

end Books

section TakeFee

variable {env : Env τ} {trader token : Address} {fee burn distributable remaining r : Int} {u : Unit}
  {w w' : World τ}

theorem payReferral_ok (hT : env.tokens.Exact) (hfee : 0 ≤ fee) (h0 : 0 ≤ distributable)
    (hmax : distributable ≤ i128Max)
    (h : payReferral env trader token fee distributable w = (.ok r, w')) :
    r = distributable - w.store.referralPart trader fee distributable ∧ w'.store = w.store ∧
      ∀ k a, env.tokens.balance k a w'.token = env.tokens.balance k a w.token
        - (if k = token ∧ a = env.self then w.store.referralPart trader fee distributable else 0)
        + (if k = token ∧ w.store.trades.referrer.lookup trader = some a
            then w.store.referralPart trader fee distributable else 0) := by
  have hbounds := w.store.referralPart_bounds trader hfee h0
  simp only [payReferral, bind_ok, load_ok] at h
  obtain ⟨o, w₁, ⟨ho, rfl⟩, bps, w₂, ⟨rfl, rfl⟩, h⟩ := h
  unfold Storage.referralPart at hbounds ⊢
  rw [ho] at hbounds ⊢
  cases o with
  | none =>
    obtain ⟨rfl, rfl⟩ := Tx.pure_ok.mp h
    exact ⟨by simp, rfl, fun k a => by simp⟩
  | some referrer =>
    simp only [Option.isSome_some, if_true] at hbounds ⊢
    generalize min (shareOf fee w.store.config.referralFeeShareBps) distributable = amount at *
    by_cases hpos : 0 < amount
    · simp only [if_pos hpos, bind_ok, tryTransfer_ok, pure_ok] at h
      obtain ⟨-, -, ⟨t, ht, rfl⟩, rfl, rfl⟩ := h
      refine ⟨saturatingSub_part hbounds.1 hbounds.2 hmax, rfl, fun k a => ?_⟩
      rw [hT.transfer ht k a]
      simp only [Option.some.injEq, eq_comm]
    · simp only [if_neg hpos, pure_ok] at h
      obtain ⟨rfl, rfl⟩ := h
      have hzero : amount = 0 := by omega
      simp [hzero]

theorem creditLedgers_ok (h : creditLedgers token distributable remaining w = (.ok u, w')) :
    w'.token = w.token ∧ w'.store.books =
      let share := min (shareOf distributable w.store.config.revenueShareRateBps) remaining
      (w.store.books.addPool token share).setTreasury token
        (w.store.books.treasury token + saturatingSub remaining share) := by
  simp only [creditLedgers, bind_ok, load_ok, when_ok] at h
  obtain ⟨rate, w₁, ⟨rfl, rfl⟩, _, w₂, hpool, books, w₃, ⟨rfl, rfl⟩, updated, w₄, hupdated, h⟩ := h
  set share := min (shareOf distributable w.store.config.revenueShareRateBps) remaining
  have hw₂ : w₂.token = w.token ∧ w₂.store.books = w.store.books.addPool token share := by
    unfold Books.addPool
    split at hpool
    · rename_i hpos
      rw [if_pos hpos]
      cases save_ok.mp hpool
      exact ⟨rfl, rfl⟩
    · rename_i hpos
      rw [if_neg hpos]
      cases hpool
      exact ⟨rfl, rfl⟩
  obtain ⟨hsum, rfl⟩ := orOverflow_ok.mp hupdated
  obtain ⟨-, -, rfl⟩ := checkedAdd_eq_some.mp hsum
  cases save_ok.mp h
  refine ⟨hw₂.1, ?_⟩
  simp only [hw₂.2, Books.addPool_treasury]
  rfl

/-- The fee leaves the trader. What is not burned or paid to the referrer stays with the contract, and
that is what the pool and the treasury are credited with. -/
theorem takeFee_ok (hT : env.tokens.Exact) (hburn : 0 ≤ burn) (hle : burn ≤ fee) (hmax : fee ≤ i128Max)
    (h : takeFee env trader token fee burn w = (.ok u, w')) :
    (w'.store.books =
      let referral := w.store.referralPart trader fee (fee - burn)
      let share := w.store.revenuePart trader fee (fee - burn)
      (w.store.books.addPool token share).setTreasury token
        (w.store.books.treasury token + (fee - burn - referral - share))) ∧
    ∀ k a, env.tokens.balance k a w'.token = env.tokens.balance k a w.token
      - (if k = token ∧ a = trader then fee else 0)
      + (if k = token ∧ a = env.self
          then fee - burn - w.store.referralPart trader fee (fee - burn) else 0)
      + (if k = token ∧ w.store.trades.referrer.lookup trader = some a
          then w.store.referralPart trader fee (fee - burn) else 0) := by
  simp only [takeFee, bind_ok, tryTransfer_ok, orOverflow_ok, checkedSub_eq_some, when_ok] at h
  obtain ⟨-, -, ⟨t, ht, rfl⟩, _, w₁, ⟨⟨-, -, rfl⟩, rfl⟩, _, w₂, hw₂, remaining, w₃, hreferral, hcredit⟩ := h
  have hburned : w₂.store = w.store ∧ ∀ k a, env.tokens.balance k a w₂.token =
      env.tokens.balance k a t - if k = token ∧ a = env.self then burn else 0 := by
    split at hw₂
    · obtain ⟨t₂, ht₂, rfl⟩ := tryBurn_ok.mp hw₂
      exact ⟨rfl, hT.burn ht₂⟩
    · cases hw₂
      have : burn = 0 := by omega
      exact ⟨rfl, fun k a => by simp [this]⟩
  obtain ⟨rfl, hstore, hpaid⟩ := payReferral_ok hT (by omega) (by omega) (by omega) hreferral
  obtain ⟨htoken, hbooks⟩ := creditLedgers_ok hcredit
  rw [hburned.1] at hstore hpaid hbooks
  have hreferral := w.store.referralPart_bounds trader (by omega : 0 ≤ fee)
    (by omega : 0 ≤ fee - burn)
  have hshare := w.store.revenuePart_bounds trader (by omega : 0 ≤ fee)
    (by omega : 0 ≤ fee - burn)
  constructor
  · rw [hbooks, hstore]
    simp only
    rw [← Storage.revenuePart, saturatingSub_part hshare.1 hshare.2 (by omega)]
  · intro k a
    rw [htoken, hpaid, hburned.2, hT.transfer ht]
    by_cases hk : k = token
    · by_cases hself : a = env.self
      · simp [hk, hself]
        omega
      · simp [hk, hself]
    · simp [hk]

end TakeFee

/-! ## A collection -/

section Collect

variable {env : Env τ} {trader token : Address} {tradeAmount fee : Int} {tradeAsset : Asset}
  {w w' : World τ}

/-- A collection moves nothing (the first trade), or takes the fee quoted for the trade. The world in which
it is taken differs from the one before the call in the cache and the volumes only. -/
theorem collect_ok
    (h : collectFeeWithRecovery env trader token tradeAmount tradeAsset w = (.ok fee, w')) :
    env.auth trader = true ∧
    ((w.store.trades.hasTraded.lookup trader = none ∧ w'.store.books = w.store.books ∧
        w'.token = w.token) ∨
      ∃ burn cache volumes w₁, w.store.trades.hasTraded.lookup trader ≠ none ∧
        w.quote trader token tradeAmount = some (fee, burn) ∧ 0 < fee ∧
        takeFee env trader token fee burn { w with
          store.cache := cache, store.trades.monthlyTradeVolume := volumes } = (.ok (), w₁) ∧
        w'.store.books = w₁.store.books ∧ w'.token = w₁.token) := by
  simp only [collectFeeWithRecovery, bind_requireInitialized_ok, bind_requireNotPaused_ok,
    bind_requireAuth_ok, bind_failIf_ok, bind_load_ok] at h
  obtain ⟨-, -, hauth, -, h⟩ := h
  refine ⟨hauth, ?_⟩
  split at h
  · rename_i hfirst
    obtain ⟨r, w₁, hvolume, h⟩ := Tx.bind_ok.mp (bind_save_ok.mp h)
    obtain ⟨rfl, rfl⟩ := Tx.pure_ok.mp h
    have hsame : SameOutside [] _ w₁ := Tx.Within.of_run inferInstance hvolume
    exact .inl ⟨hfirst, hsame.books (by simp), hsame.token (by simp)⟩
  · rename_i hlater
    obtain ⟨c, w₂, hc, h⟩ := Tx.bind_ok.mp h
    obtain ⟨rfl, cache, rfl⟩ := loadTxFeeConfig_ok hc
    obtain ⟨rate, w₃, hrate, h⟩ := Tx.bind_ok.mp h
    obtain ⟨rfl, volumes, rfl⟩ := getFeeRateForUser_ok hrate
    obtain ⟨⟨fee', burn⟩, hquote, h⟩ := bind_orOverflow_ok.mp h
    obtain ⟨hfee, h⟩ := Tx.bind_failIf_ok.mp h
    obtain ⟨_, w₁, htake, h⟩ := Tx.bind_ok.mp h
    obtain ⟨_, w₄, hvolume, h⟩ := Tx.bind_ok.mp h
    obtain ⟨_, w₅, hdaily, h⟩ := Tx.bind_ok.mp h
    obtain ⟨rfl, rfl⟩ := Tx.pure_ok.mp h
    have hvolume : SameOutside [] w₁ w₄ := Tx.Within.of_run inferInstance hvolume
    have hdaily : SameOutside [] w₄ w₅ := Tx.Within.of_run inferInstance hdaily
    refine .inr ⟨burn, cache, volumes, w₁, hlater, hquote, by simpa using hfee, htake, ?_, ?_⟩
    · rw [hdaily.books (by simp), hvolume.books (by simp)]
    · rw [hdaily.token (by simp), hvolume.token (by simp)]

/-- What a collection did, for a burn rate of at most the whole fee: nothing, or the quoted fee left the
trader, and what was not burned or paid to the referrer was credited to the pool and to the treasury. -/
theorem collect_spec (hT : env.tokens.Exact) (hrate : w.store.feeConfig.burnRate ≤ MAX_BURN_RATE_BPS)
    (h : collectFeeWithRecovery env trader token tradeAmount tradeAsset w = (.ok fee, w')) :
    env.auth trader = true ∧
    ((w.store.trades.hasTraded.lookup trader = none ∧ w'.store.books = w.store.books ∧
        w'.token = w.token) ∨
      ∃ burn referral share, w.store.trades.hasTraded.lookup trader ≠ none ∧
        w.quote trader token tradeAmount = some (fee, burn) ∧
        referral = w.store.referralPart trader fee (fee - burn) ∧
        share = w.store.revenuePart trader fee (fee - burn) ∧
        0 ≤ burn ∧ 0 ≤ referral ∧ 0 ≤ share ∧ burn + referral + share ≤ fee ∧ fee ≤ i128Max ∧
        w'.store.books = (w.store.books.addPool token share).setTreasury token
          (w.store.books.treasury token + (fee - burn - referral - share)) ∧
        ∀ k a, env.tokens.balance k a w'.token = env.tokens.balance k a w.token
          - (if k = token ∧ a = trader then fee else 0)
          + (if k = token ∧ a = env.self then fee - burn - referral else 0)
          + (if k = token ∧ w.store.trades.referrer.lookup trader = some a then referral else 0)) := by
  obtain ⟨hauth, hfirst | ⟨burn, cache, volumes, w₁, hlater, hquote, hpos, htake, hbooks, htoken⟩⟩ := collect_ok h
  · exact ⟨hauth, .inl hfirst⟩
  obtain ⟨hburn, hle, hmax⟩ := feeAndBurnAmounts_bounds hrate hpos hquote
  obtain ⟨hbooks₁, hbalance⟩ := takeFee_ok hT hburn hle hmax htake
  have hreferral := w.store.referralPart_bounds trader (by omega : 0 ≤ fee)
    (by omega : 0 ≤ fee - burn)
  have hshare := w.store.revenuePart_bounds trader (by omega : 0 ≤ fee)
    (by omega : 0 ≤ fee - burn)
  refine ⟨hauth, .inr ⟨burn, _, _, hlater, hquote, rfl, rfl, hburn, hreferral.1, hshare.1, by omega, hmax, ?_, ?_⟩⟩
  · rw [hbooks, hbooks₁]
    rfl
  · intro k a
    rw [htoken]
    exact hbalance k a

/-- A retry collects the fee of the record, and writes records only. -/
theorem retry_ok {admin : Address} {id : Bytes}
    (h : retryFailedFeeCollection env admin id w = (.ok fee, w')) :
    ∃ failed records w₁, w.store.payouts.failedFeeCollections.lookup id = some failed ∧
      collectFeeWithRecovery env failed.trader failed.token failed.tradeAmount failed.tradeAsset
        { w with store.payouts.failedFeeCollections := records } = (.ok fee, w₁) ∧
      w'.store.books = w₁.store.books ∧ w'.token = w₁.token := by
  simp only [retryFailedFeeCollection, bind_requireStoredAdmin_ok, bind_load_ok, bind_ofOption_ok,
    bind_failIf_ok, bind_save_ok] at h
  obtain ⟨-, -, -, failed, hfailed, -, -, h⟩ := h
  obtain ⟨fee', w₁, hcollect, h⟩ := Tx.bind_ok.mp h
  rw [bind_save_ok, pure_ok] at h
  obtain ⟨rfl, rfl⟩ := h
  exact ⟨failed, _, w₁, hfailed, hcollect, rfl, rfl⟩

end Collect

end CallStake.FeeCollector
