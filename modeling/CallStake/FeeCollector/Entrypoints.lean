import CallStake.FeeCollector.Payouts

/-!
# The fee collector as a system

The entrypoints of the contract that can change its state, with the audit, and the runs of the contract.

* `Call`, `invoke`: the entrypoints (the other ones are functions of the storage).
* `Event`, `next`: a call is a transaction (`Tx.exec`) that sees the answers the oracle gives at that time.
  Between calls ledgers close, tokens change hands without the contract, and the host evicts temporary
  entries.
* `Reachable`: the states of runs from a deployed contract. `reaches_run`: lists of events as runs.
-/

namespace CallStake.FeeCollector

/-- The entrypoints with their arguments. -/
inductive Call where
  | init (admin : Address)
  | upgrade (newVersion : Nat)
  | setPaused (paused : Bool)
  | authorizeCaller (caller : Address)
  | revokeCaller (caller : Address)
  | setOracleContract (oracleContract : Address)
  | feeRateForUser (user : Address)
  | monthlyTradeVolume (user : Address)
  | auditBalances (tokens : List Address)
  | queueWithdrawal (recipient token : Address) (amount : Int)
  | withdrawTreasuryFees (recipient token : Address) (amount : Int)
  | setInsurancePayoutCap (caller token : Address) (maxCap : Int)
  | depositInsuranceFund (src token : Address) (amount : Int)
  | payoutInsurance (caller recipient token : Address) (amount : Int) (claimId : Bytes)
  | setFeeRate (newRateBps : Nat)
  | setBurnRate (newRateBps : Nat)
  | setCongestionConfig (config : CongestionConfig)
  | setCongestionSignal (caller : Address) (multiplierBps : Nat)
  | setFeeOptimizationConfig (admin : Address) (config : FeeOptimizationConfig)
  | updateNetworkConditions (admin : Address) (scoreBps : Nat)
  | queueFailedFeeCollection (admin : Address) (failed : FailedFeeCollection)
  | retryFailedFeeCollection (admin : Address) (id : Bytes)
  | collectFee (trader token : Address) (tradeAmount : Int) (tradeAsset : Asset)
  | batchCollectFees (items : List BatchFeeInput)
  | currentDynamicFeeRate (trader token : Address)
  | claimFees (provider token : Address)
  | recordProviderFeeShare (caller provider : Address) (amount : Int)
  | setFeeSplitPolicy (protocolBps providerBps : Nat)
  | recordProviderGrossFeeShare (caller provider : Address) (grossAmount : Int)
  | setProtocolToken (token : Option Address)
  | registerToken (admin token : Address) (metadata : TokenMetadata)
  | setRevenueShareRateBps (rateBps : Nat)
  | triggerRevenueShareSnapshot (caller token : Address)
  | setWaterfallConfig (tiers : List WaterfallTier)
  | distributeWaterfall (token : Address) (totalAmount : Int)
  | setPayoutCurrency (provider preferredToken : Address)
  | clearPayoutCurrency (provider : Address)
  | setVolumeDiscountConfig (admin : Address) (tiers : List VolumeTier)
  | setForecastConfig (admin : Address) (config : ForecastConfigData)
  | triggerFeeForecast (admin token : Address)
  | registerReferral (referrer referee : Address)
  | adminOverrideReferral (admin referrer referee : Address)
  | setReferralFeeShare (admin : Address) (shareBps : Nat)
  | setMaxRebateBps (bps : Nat)

variable {τ : Type}

def invoke (env : Env τ) : Call → F τ Unit
  | .init admin => init env.auth admin
  | .upgrade newVersion => upgrade env.auth newVersion
  | .setPaused paused => setPaused env.auth paused
  | .authorizeCaller caller => authorizeCaller env.auth caller
  | .revokeCaller caller => revokeCaller env.auth caller
  | .setOracleContract oracleContract => setOracleContract env.auth oracleContract
  | .feeRateForUser user => Tx.void (feeRateForUser user)
  | .monthlyTradeVolume user => Tx.void (monthlyTradeVolume user)
  | .auditBalances tokens => Tx.void (auditBalances env tokens)
  | .queueWithdrawal recipient token amount => queueWithdrawal env.auth recipient token amount
  | .withdrawTreasuryFees recipient token amount => withdrawTreasuryFees env recipient token amount
  | .setInsurancePayoutCap caller token maxCap => setInsurancePayoutCap env.auth caller token maxCap
  | .depositInsuranceFund src token amount => depositInsuranceFund env src token amount
  | .payoutInsurance caller recipient token amount claimId =>
    payoutInsurance env caller recipient token amount claimId
  | .setFeeRate newRateBps => setFeeRate env.auth newRateBps
  | .setBurnRate newRateBps => setBurnRate env.auth newRateBps
  | .setCongestionConfig config => setCongestionConfig env.auth config
  | .setCongestionSignal caller multiplierBps => setCongestionSignal env.auth caller multiplierBps
  | .setFeeOptimizationConfig admin config => setFeeOptimizationConfig env.auth admin config
  | .updateNetworkConditions admin scoreBps => updateNetworkConditions env.auth admin scoreBps
  | .queueFailedFeeCollection admin failed => queueFailedFeeCollection env.auth admin failed
  | .retryFailedFeeCollection admin id => Tx.void (retryFailedFeeCollection env admin id)
  | .collectFee trader token tradeAmount tradeAsset =>
    Tx.void (collectFee env trader token tradeAmount tradeAsset)
  | .batchCollectFees items => Tx.void (batchCollectFees env items)
  | .currentDynamicFeeRate trader token => Tx.void (currentDynamicFeeRate trader token)
  | .claimFees provider token => Tx.void (claimFees env provider token)
  | .recordProviderFeeShare caller provider amount => recordProviderFeeShare env.auth caller provider amount
  | .setFeeSplitPolicy protocolBps providerBps => setFeeSplitPolicy env.auth protocolBps providerBps
  | .recordProviderGrossFeeShare caller provider grossAmount =>
    Tx.void (recordProviderGrossFeeShare env.auth caller provider grossAmount)
  | .setProtocolToken token => setProtocolToken env.auth token
  | .registerToken admin token metadata => registerToken env.auth admin token metadata
  | .setRevenueShareRateBps rateBps => setRevenueShareRateBps env.auth rateBps
  | .triggerRevenueShareSnapshot caller token => triggerRevenueShareSnapshot env.auth caller token
  | .setWaterfallConfig tiers => setWaterfallConfig env.auth tiers
  | .distributeWaterfall token totalAmount => Tx.void (distributeWaterfall env token totalAmount)
  | .setPayoutCurrency provider preferredToken => setPayoutCurrency env.auth provider preferredToken
  | .clearPayoutCurrency provider => clearPayoutCurrency env.auth provider
  | .setVolumeDiscountConfig admin tiers => setVolumeDiscountConfig env.auth admin tiers
  | .setForecastConfig admin config => setForecastConfig env.auth admin config
  | .triggerFeeForecast admin token => Tx.void (triggerFeeForecast env.auth admin token)
  | .registerReferral referrer referee => registerReferral env.auth referrer referee
  | .adminOverrideReferral admin referrer referee => adminOverrideReferral env.auth admin referrer referee
  | .setReferralFeeShare admin shareBps => setReferralFeeShare env.auth admin shareBps
  | .setMaxRebateBps bps => setMaxRebateBps env.auth bps

/-! ## Runs -/

/-- `evict` removes the temporary entry under one digit. -/
inductive Event (τ : Type) where
  | call (auth : Auth) (oracle : Oracle) (c : Call)
  | advance (ledger : Ledger)
  | external (token : τ)
  | evict (digit : Nat)

section Runs

variable (T : Tokens τ) (self : Address)

def next (w : World τ) : Event τ → World τ
  | .call auth oracle c => (invoke ⟨T, oracle, self, auth⟩ c).exec w
  | .advance ledger => { w with ledger }
  | .external token => { w with token }
  | .evict digit => { w with store.cache := w.store.cache.erase digit }

/-- Nobody has the authorization of the contract, the ledger never goes back, and without the contract its
tokens only get more. -/
def Allowed (w : World τ) : Event τ → Prop
  | .call auth _ _ => auth self = false
  | .advance ledger => w.ledger.Before ledger
  | .external token => ∀ k, T.balance k self w.token ≤ T.balance k self token
  | .evict _ => True

def Step (w : World τ) (ev : Event τ) (w' : World τ) : Prop := Allowed T self w ev ∧ w' = next T self w ev

/-- A contract that was just deployed. -/
def World.deployed (ledger : Ledger) (token : τ) : World τ := ⟨ledger, .deployed, token⟩

def Reachable (w : World τ) : Prop := ∃ ledger token, Reaches (Step T self) (World.deployed ledger token) w

/-- The world after a list of events. -/
def run (w : World τ) (evs : List (Event τ)) : World τ := evs.foldl (next T self) w

/-- The allowed events without those of the tokens; it can be decided. -/
def Inside (w : World τ) : Event τ → Prop
  | .call auth _ _ => auth self = false
  | .advance ledger => w.ledger.Before ledger
  | .external _ => False
  | .evict _ => True

instance (w : World τ) : (ev : Event τ) → Decidable (Inside self w ev)
  | .call auth _ _ => inferInstanceAs (Decidable (auth self = false))
  | .advance ledger => inferInstanceAs (Decidable (w.ledger.Before ledger))
  | .external _ => inferInstanceAs (Decidable False)
  | .evict _ => inferInstanceAs (Decidable True)

variable {T self}

theorem Inside.allowed {w : World τ} {ev : Event τ} (h : Inside self w ev) : Allowed T self w ev := by
  cases ev with
  | external => cases h
  | _ => exact h

/-- A list of events that meet `C` where their turn comes is a run that meets `C`. -/
theorem reaches_run {C : World τ → Event τ → Prop} {w : World τ} {evs : List (Event τ)}
    (h : Reaches.Along (next T self) (fun w ev => C w ev ∧ Inside self w ev) w evs) :
    Reaches (fun w ev w' => C w ev ∧ Step T self w ev w') w (run T self w evs) :=
  (Reaches.of_along h).mono fun _ _ _ ⟨⟨hC, hin⟩, he⟩ => ⟨hC, hin.allowed, he⟩

theorem reachable_run {ledger : Ledger} {token : τ} {evs : List (Event τ)}
    (h : Reaches.Along (next T self) (Inside self) (World.deployed ledger token) evs) :
    Reachable T self (run T self (World.deployed ledger token) evs) :=
  ⟨ledger, token, (Reaches.of_along h).mono fun _ _ _ ⟨hin, he⟩ => ⟨hin.allowed, he⟩⟩

end Runs

/-! ## A small collector -/

/-! The contract of the concrete runs: everyone but the contract holds the same amount of each token, and
the oracle takes every amount at its face value. -/

namespace Sample

def collector : Address := ⟨1⟩
def admin : Address := ⟨2⟩
def usdc : Address := ⟨3⟩
def oracleContract : Address := ⟨4⟩
def alice : Address := ⟨5⟩
def bob : Address := ⟨6⟩

def usdcAsset : Asset := ⟨[], some usdc⟩

def funds : Balances where
  of _ a := if a = collector then 0 else 2 ^ 100
  bounds _ a := by by_cases h : a = collector <;> simp [h, i128Max]

def faceValue : Oracle where
  getRate _ _ _ := some ORACLE_RATE_PRECISION
  convertToBase _ amount _ := some amount

/-- The host of a call that everyone but the contract authorized. -/
def sampleEnv : Env Balances := ⟨Balances.tokens, faceValue, collector, fun a => a ≠ collector⟩

/-- A call that everyone but the contract authorized. -/
def call (c : Call) : Event Balances := .call (fun a => a ≠ collector) faceValue c

/-- A trade of `alice` in `usdc`. -/
def trade (amount : Int) : Event Balances := call (.collectFee alice usdc amount usdcAsset)

/-- The run of `evs` after the initialization. -/
def started (evs : List (Event Balances)) : List (Event Balances) :=
  call (.init admin) :: call (.setOracleContract oracleContract) :: evs

def deployedRun (evs : List (Event Balances)) : World Balances :=
  run Balances.tokens collector (World.deployed ⟨0, 0⟩ funds) (started evs)

end Sample

end CallStake.FeeCollector
