import CallStake.FeeCollector.Solvency

/-!
# Custody of the fee collector

What happens to the settings and the funds while the administrator and the authorized callers sign nothing.
Traders, providers and referees go on calling, in any order.

* `signed_of_invoke`: all but the calls that are open to everyone ask for it.
* `Kept`: the settings and the queued withdrawal are the same, and the treasury, the insurance and the
  tokens of the contract have not shrunk. `kept_of_unsigned`: so it is after every such run.
-/

namespace CallStake.FeeCollector

variable {τ : Type}

/-- A call carries the authorization of the administrator or of an authorized caller. -/
def ConfigStorage.Signed (config : ConfigStorage) (auth : Auth) : Prop :=
  (∃ a ∈ config.admin, auth a = true) ∨ ∃ a ∈ config.authorizedCallers.keys, auth a = true

instance (config : ConfigStorage) (auth : Auth) : Decidable (config.Signed auth) :=
  inferInstanceAs (Decidable (_ ∨ _))

/-- The calls that anyone can make for an address of theirs. -/
def Call.isOpen : Call → Bool
  | .feeRateForUser .. | .monthlyTradeVolume .. | .auditBalances .. | .depositInsuranceFund .. | .collectFee .. |
    .batchCollectFees .. | .currentDynamicFeeRate .. | .claimFees .. | .setPayoutCurrency .. |
    .clearPayoutCurrency .. | .registerReferral .. => true
  | _ => false

/-! ## Signatures -/

section Signatures

variable {α β : Type} {env : Env τ} {auth : Auth} {w w' : World τ} {a : Address} {b : β}

theorem signed_of_requireAdmin {k : Address → F τ β} (h : (requireAdmin auth >>= k) w = (.ok b, w')) :
    w.store.config.Signed auth := by
  obtain ⟨-, a, ha, hauth, -⟩ := bind_requireAdmin_ok.mp h
  exact .inl ⟨a, ha, hauth⟩

theorem signed_of_requireStoredAdmin {k : Unit → F τ β}
    (h : (requireStoredAdmin auth a >>= k) w = (.ok b, w')) : w.store.config.Signed auth := by
  obtain ⟨-, ha, hauth, -⟩ := bind_requireStoredAdmin_ok.mp h
  exact .inl ⟨a, ha, hauth⟩

theorem signed_of_requireAuthorizedCaller {k : Unit → F τ β}
    (h : (requireAuthorizedCaller auth a >>= k) w = (.ok b, w')) : w.store.config.Signed auth := by
  obtain ⟨_, w₁, hcaller, -⟩ := Tx.bind_ok.mp h
  simp only [requireAuthorizedCaller, bind_requireAuth_ok, bind_getAdmin_ok, bind_load_ok, Tx.failIf_ok] at hcaller
  obtain ⟨hauth, admin, hadmin, hlisted, -⟩ := hcaller
  by_cases ha : a = admin
  · exact .inl ⟨a, ha ▸ hadmin, hauth⟩
  · have hmem : w.store.config.authorizedCallers.lookup a ≠ none := fun hnone => hlisted ⟨ha, hnone⟩
    exact .inr ⟨a, AList.mem_keys.mp (AList.lookup_isSome.mp (Option.isSome_iff_ne_none.mpr hmem)), hauth⟩

/-- A call that is not open is signed, once the contract is initialized. -/
theorem signed_of_invoke {c : Call} {u : Unit} (hc : c.isOpen = false) (hi : w.store.config.initialized = true)
    (h : invoke env c w = (.ok u, w')) : w.store.config.Signed env.auth := by
  cases c
  case upgrade | setPaused | authorizeCaller | revokeCaller | setOracleContract | setFeeRate | setBurnRate |
      setProtocolToken | setCongestionConfig | setRevenueShareRateBps | setWaterfallConfig | setMaxRebateBps |
      setFeeSplitPolicy | triggerRevenueShareSnapshot => exact signed_of_requireAdmin h
  case setFeeOptimizationConfig | updateNetworkConditions | setVolumeDiscountConfig | setForecastConfig |
      setReferralFeeShare | registerToken | queueFailedFeeCollection | adminOverrideReferral =>
    exact signed_of_requireStoredAdmin h
  case retryFailedFeeCollection | triggerFeeForecast =>
    obtain ⟨_, h⟩ := Tx.void_ok.mp h
    exact signed_of_requireStoredAdmin h
  case setCongestionSignal | recordProviderFeeShare =>
    exact signed_of_requireAuthorizedCaller (bind_requireInitialized_ok.mp h).2
  case recordProviderGrossFeeShare =>
    obtain ⟨_, h⟩ := Tx.void_ok.mp h
    exact signed_of_requireAuthorizedCaller (bind_requireInitialized_ok.mp h).2
  case payoutInsurance =>
    exact signed_of_requireAuthorizedCaller (bind_requireNotPaused_ok.mp (bind_requireInitialized_ok.mp h).2).2
  case setInsurancePayoutCap caller token maxCap =>
    simp only [invoke, setInsurancePayoutCap, bind_requireInitialized_ok, bind_requireAuth_ok, bind_getAdmin_ok,
      Tx.bind_failIf_ok] at h
    obtain ⟨-, hauth, admin, hadmin, hcaller, -⟩ := h
    exact .inl ⟨caller, (by rw [hadmin, not_not.mp hcaller]; rfl), hauth⟩
  case queueWithdrawal | withdrawTreasuryFees =>
    simp only [invoke, queueWithdrawal, withdrawTreasuryFees, bind_requireInitialized_ok, bind_requireNotPaused_ok,
      bind_getAdmin_ok, bind_requireAuth_ok] at h
    obtain ⟨-, -, admin, hadmin, hauth, -⟩ := h
    exact .inl ⟨admin, hadmin, hauth⟩
  case distributeWaterfall =>
    obtain ⟨_, h⟩ := Tx.void_ok.mp h
    simp only [distributeWaterfall, bind_requireInitialized_ok, bind_requireNotPaused_ok, bind_getAdmin_ok,
      bind_requireAuth_ok] at h
    obtain ⟨-, -, admin, hadmin, hauth, -⟩ := h
    exact .inl ⟨admin, hadmin, hauth⟩
  case init =>
    simp only [invoke, init, bind_requireAuth_ok, bind_load_ok, Tx.bind_failIf_ok] at h
    exact absurd hi h.2.1
  all_goals cases hc

end Signatures

/-! ## Settings -/

/-- The settings and the queued withdrawal are the same. -/
structure SameSettings (w w' : World τ) : Prop where
  config : w'.store.config = w.store.config
  queued : w'.store.payouts.queuedWithdrawal = w.store.payouts.queuedWithdrawal

instance : IsPreorder (World τ) SameSettings where
  refl _ := ⟨rfl, rfl⟩
  trans _ _ _ h h' := ⟨h'.config.trans h.config, h'.queued.trans h.queued⟩

-- the proofs that instance resolution builds grow with the length of a computation
set_option synthInstance.maxSize 1000000000

section Settings

open Tx

instance (g : Storage → Books) (f : Storage → PayoutStorage)
    [h : Fact (∀ s, (f s).queuedWithdrawal = s.payouts.queuedWithdrawal)] :
    Within SameSettings (save fun s => { s with books := g s, payouts := f s } : F τ Unit) :=
  ⟨fun w => ⟨rfl, h.out w.store⟩⟩

instance (f : Storage → TradeStorage) : Within SameSettings (save fun s => { s with trades := f s } : F τ Unit) :=
  ⟨fun _ => ⟨rfl, rfl⟩⟩

instance (f : Storage → Store Nat TxFeeConfigCache) :
    Within SameSettings (save fun s => { s with cache := f s } : F τ Unit) := ⟨fun _ => ⟨rfl, rfl⟩⟩

instance : Trades (SameSettings : World τ → World τ → Prop) :=
  ⟨inferInstance, inferInstance, inferInstance, inferInstance⟩

instance : MovesFunds (SameSettings : World τ → World τ → Prop) := by
  refine ⟨fun op => ⟨fun w => ?_⟩, inferInstance, inferInstance⟩
  unfold invokeToken
  split
  · exact ⟨rfl, rfl⟩
  · exact refl_of SameSettings w

theorem invoke_sameSettings (env : Env τ) {c : Call} (hc : c.isOpen = true) :
    Within SameSettings (invoke env c) := by
  cases c
  case feeRateForUser | monthlyTradeVolume | auditBalances | depositInsuranceFund | collectFee | batchCollectFees |
      currentDynamicFeeRate | claimFees | setPayoutCurrency | clearPayoutCurrency | registerReferral =>
    simp [invoke, feeRateForUser, monthlyTradeVolume, getActiveVolumeUsd, auditBalances, depositInsuranceFund,
      setInsuranceBalance, collectFee, batchCollectFees, currentDynamicFeeRate, claimFees,
      addEpochRebateDistributed, setPayoutCurrency, clearPayoutCurrency, registerReferral, setReferrer]
    infer_instance
  all_goals cases hc

end Settings

/-! ## Funds -/

/-- The treasury, the insurance and the tokens of the contract have not shrunk. -/
structure Grows (T : Tokens τ) (contract : Address) (w w' : World τ) : Prop where
  treasury : ∀ k, w.store.books.treasury k ≤ w'.store.books.treasury k
  insurance : ∀ k, w.store.books.insurance k ≤ w'.store.books.insurance k
  held : ∀ k, T.balance k contract w.token ≤ T.balance k contract w'.token

section Funds

variable {env : Env τ} {w w₁ w' : World τ} {token : Address} {u : Unit}

theorem Grows.of_same (hbooks : w'.store.books = w.store.books) (htoken : w'.token = w.token) :
    Grows env.tokens env.self w w' := by
  constructor <;> intro k
  · rw [hbooks]
  · rw [hbooks]
  · rw [htoken]

theorem Grows.trans {T : Tokens τ} {contract : Address} (h : Grows T contract w w₁) (h' : Grows T contract w₁ w') :
    Grows T contract w w' :=
  ⟨fun k => (h.treasury k).trans (h'.treasury k), fun k => (h.insurance k).trans (h'.insurance k),
    fun k => (h.held k).trans (h'.held k)⟩

variable (hT : env.tokens.Exact) (hself : env.auth env.self = false)
include hT hself

theorem grows_collect (hburn : BurnBounded w.store) {trader : Address} {tradeAmount fee : Int} {tradeAsset : Asset}
    (h : collectFeeWithRecovery env trader token tradeAmount tradeAsset w = (.ok fee, w')) :
    Grows env.tokens env.self w w' := by
  obtain ⟨hauth, ⟨-, hbooks, htoken⟩ | ⟨burn, referral, share, -, -, -, -, hburned, hreferral, hshare, hsum, -,
    hbooks, hbalance⟩⟩ := collect_spec hT hburn.feeConfig h
  · exact .of_same hbooks htoken
  have htrader : env.self ≠ trader := by
    rintro rfl
    simp [hself] at hauth
  constructor <;> intro k
  · rw [hbooks, Books.setTreasury_treasury, Books.addPool_treasury]
    split
    · rename_i hk
      rw [← hk]
      omega
    · exact le_rfl
  · rw [hbooks, Books.setTreasury_insurance, Books.addPool_insurance]
  · rw [hbalance, if_neg fun h => htrader h.2]
    split <;> split <;> omega

theorem grows_collectAll {items : List BatchFeeInput} {fees : List Int} (hburn : BurnBounded w.store)
    (h : collectAll env items w = (.ok fees, w')) : Grows env.tokens env.self w w' := by
  induction items generalizing w fees with
  | nil =>
    obtain ⟨-, rfl⟩ := Tx.pure_ok.mp h
    exact .of_same rfl rfl
  | cons item items ih =>
    simp only [collectAll, Tx.bind_ok, Tx.pure_ok] at h
    obtain ⟨fee, w₁, hitem, rest, w₂, hrest, -, rfl⟩ := h
    exact (grows_collect hT hself hburn hitem).trans
      (ih (hburn.caches (Tx.Within.of_run inferInstance hitem)) hrest)

theorem grows_deposit {src : Address} {amount : Int}
    (h : depositInsuranceFund env src token amount w = (.ok u, w')) : Grows env.tokens env.self w w' := by
  obtain ⟨hauth, hpos, ht, hbooks⟩ := depositInsuranceFund_ok h
  have hsrc : src ≠ env.self := by
    rintro rfl
    simp [hself] at hauth
  constructor <;> intro k
  · rw [hbooks, Books.setInsurance_treasury]
  · rw [hbooks, Books.setInsurance_insurance]
    split
    · rename_i hk
      rw [← hk]
      omega
    · exact le_rfl
  · rw [hT.transfer ht, if_neg fun h => hsrc h.2.symm]
    split <;> omega

/-- An open call takes nothing: nothing is pending that could be claimed. -/
theorem grows_invoke {c : Call} (hc : c.isOpen = true) (hsound : Sound env.tokens env.self w)
    (h : invoke env c w = (.ok u, w')) : Grows env.tokens env.self w w' := by
  by_cases hquiet : .books ∉ c.footprint ∧ .token ∉ c.footprint
  · have hsame := (invoke_writes env c).of_run h
    exact .of_same (hsame.books hquiet.1) (hsame.token hquiet.2)
  cases c
  case collectFee =>
    obtain ⟨fee, h⟩ := Tx.void_ok.mp h
    exact grows_collect hT hself hsound.burnBounded h
  case batchCollectFees =>
    obtain ⟨fees, h⟩ := Tx.void_ok.mp h
    simp only [batchCollectFees, Tx.bind_ok, Tx.failIf_ok] at h
    obtain ⟨_, _, ⟨-, rfl⟩, _, w₁, hload, hall⟩ := h
    have hburn := hsound.burnBounded.caches (Tx.Within.of_run inferInstance hload)
    obtain ⟨-, cache, hw₁⟩ := loadTxFeeConfig_ok hload
    have hload : Grows env.tokens env.self w w₁ := .of_same (by rw [hw₁]) (by rw [hw₁])
    exact hload.trans (grows_collectAll hT hself hburn hall)
  case depositInsuranceFund => exact grows_deposit hT hself h
  case claimFees provider token =>
    obtain ⟨claimed, h⟩ := Tx.void_ok.mp h
    have hnothing := Books.pending_eq_zero hsound.covered.pending provider token
    rw [claimFees_of_nothing (Int.le_of_eq hnothing) h]
    exact .of_same rfl rfl
  all_goals first | (cases hc; done) | exact absurd (by simp [Call.footprint]) hquiet

end Funds

/-! ## Runs -/

/-- Nobody signs whom the settings give a right. -/
def Unsigned (config : ConfigStorage) : Event τ → Prop
  | .call auth _ _ => ¬ config.Signed auth
  | .advance _ | .external _ | .evict _ => True

instance (config : ConfigStorage) : (ev : Event τ) → Decidable (Unsigned config ev)
  | .call .. => inferInstanceAs (Decidable (¬ _))
  | .advance _ | .external _ | .evict _ => inferInstanceAs (Decidable True)

structure Kept (T : Tokens τ) (contract : Address) (w w' : World τ) : Prop where
  settings : SameSettings w w'
  funds : Grows T contract w w'

section Runs

variable {T : Tokens τ} {contract : Address} {w w' : World τ}

theorem kept_step (hT : T.Exact) {ev : Event τ} (hsound : Sound T contract w)
    (hi : w.store.config.initialized = true) (hev : Unsigned w.store.config ev) (h : Step T contract w ev w') :
    Kept T contract w w' := by
  obtain ⟨hallowed, rfl⟩ := h
  cases ev with
  | call auth oracle c =>
    rcases Tx.exec_cases (invoke ⟨T, oracle, contract, auth⟩ c) w with ⟨u, hr⟩ | hsame
    · have hc : c.isOpen = true := by
        by_contra hc
        exact hev (signed_of_invoke (Bool.not_eq_true _ ▸ hc) hi hr)
      have hgrows : Grows T contract w _ :=
        @grows_invoke _ ⟨T, oracle, contract, auth⟩ _ _ _ hT hallowed _ hc hsound hr
      exact ⟨(invoke_sameSettings ⟨T, oracle, contract, auth⟩ hc).of_run hr, hgrows⟩
    · have hnext : next T contract w (.call auth oracle c) = w := hsame
      rw [hnext]
      exact ⟨⟨rfl, rfl⟩, fun _ => le_rfl, fun _ => le_rfl, fun _ => le_rfl⟩
  | advance => exact ⟨⟨rfl, rfl⟩, fun _ => le_rfl, fun _ => le_rfl, fun _ => le_rfl⟩
  | external => exact ⟨⟨rfl, rfl⟩, fun _ => le_rfl, fun _ => le_rfl, hallowed⟩
  | evict => exact ⟨⟨rfl, rfl⟩, fun _ => le_rfl, fun _ => le_rfl, fun _ => le_rfl⟩

/-- As long as neither the administrator nor an authorized caller signs a call, in any run from any reachable
state of an initialized contract, all settings and the queued withdrawal stay, and the treasury, the insurance
and what the contract holds of a token never shrink. -/
theorem kept_of_unsigned (hT : T.Exact) (hN : T.RejectsNegative) (h : Reachable T contract w)
    (hi : w.store.config.initialized = true)
    (hrun : Reaches (fun a ev b => Unsigned w.store.config ev ∧ Step T contract a ev b) w w') :
    Kept T contract w w' := by
  refine (hrun.invariant (I := fun a => Sound T contract a ∧ Kept T contract w a)
    ⟨h.sound hT hN, ⟨rfl, rfl⟩, fun _ => le_rfl, fun _ => le_rfl, fun _ => le_rfl⟩ ?_).2
  rintro a ev b ⟨hsound, hsettings, hfunds⟩ ⟨hev, hs⟩
  rw [← hsettings.config] at hi hev
  have hkept := kept_step hT hsound hi hev hs
  exact ⟨hsound.step hT hN hs, trans_of SameSettings hsettings hkept.settings, hfunds.trans hkept.funds⟩

end Runs

namespace Sample

/-- Alice trades, signing for herself only. -/
def aliceTrades (amount : Int) : Event Balances :=
  .call (fun a => a = alice) faceValue (.collectFee alice usdc amount usdcAsset)

/-- The treasury after a trade, while a withdrawal waits. -/
theorem custody_of_trades :
    let w := deployedRun [trade 1000000, trade 1000000, call (.queueWithdrawal bob usdc 1000)]
    let w' := run Balances.tokens collector w [aliceTrades 500000, .advance ⟨86400, 1⟩, aliceTrades 700000]
    0 < w.store.books.treasury usdc ∧ w.store.books.treasury usdc < w'.store.books.treasury usdc ∧
      Kept Balances.tokens collector w w' := by
  refine ⟨by decide +kernel, by decide +kernel, ?_⟩
  refine kept_of_unsigned Balances.tokens_exact Balances.tokens_rejectsNegative (reachable_run (by decide +kernel))
    (by decide +kernel) (reaches_run (by decide +kernel))

end Sample

end CallStake.FeeCollector
