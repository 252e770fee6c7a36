import CallStake.FeeCollector.Parts
import CallStake.FeeCollector.Solvency

/-!
# A collected fee is split without loss

Where a share overflows it counts as nothing, and the pool of the revenue share saturates. Neither loses a
part of a fee: what is left of it goes to the treasury, and the pool is covered by the tokens of the
contract, so it has room.

* `DistinctReferrers`: nobody is its own referrer, in every state of a run.
* `effectiveFeeRateCached_le`, `quote_le`: a fee is at most the largest rate.
* `Split`: the parts of a fee. `fee_is_split`: every fee that is collected has them.
-/

namespace CallStake.FeeCollector

variable {τ : Type}

/-! ## Referrers -/

/-- Nobody is its own referrer. -/
def DistinctReferrers (s : Storage) : Prop :=
  ∀ trader referrer, s.trades.referrer.lookup trader = some referrer → referrer ≠ trader

section Referrers

variable {T : Tokens τ} {contract : Address} {w w' : World τ} {trader referrer : Address}

theorem DistinctReferrers.of_same (h : DistinctReferrers w.store)
    (hsame : w'.store.trades.referrer = w.store.trades.referrer) : DistinctReferrers w'.store := by
  intro trader referrer hr
  rw [hsame] at hr
  exact h trader referrer hr

theorem DistinctReferrers.insert (h : DistinctReferrers w.store) (hne : referrer ≠ trader)
    (hw : w'.store.trades.referrer = w.store.trades.referrer.insert trader referrer) :
    DistinctReferrers w'.store := by
  intro a b hb
  rw [hw, Store.lookup_insert_eq] at hb
  split at hb
  · subst ‹a = trader›
    cases hb
    exact hne
  · exact h a b hb

theorem DistinctReferrers.invoke {env : Env τ} {c : Call} {u : Unit} (h : DistinctReferrers w.store)
    (hr : invoke env c w = (.ok u, w')) : DistinctReferrers w'.store := by
  by_cases hwrites : .referrals ∈ c.parts
  · obtain ⟨referrer, referee, rfl⟩ | ⟨admin, referrer, referee, rfl⟩ := Call.of_referrals hwrites
    · simp only [FeeCollector.invoke, registerReferral, bind_requireInitialized_ok, bind_requireAuth_ok,
        Tx.bind_failIf_ok, bind_load_ok, setReferrer, save_ok] at hr
      obtain ⟨-, -, hne, -, rfl⟩ := hr
      exact h.insert hne rfl
    · simp only [FeeCollector.invoke, adminOverrideReferral, bind_requireStoredAdmin_ok, Tx.bind_failIf_ok,
        setReferrer, save_ok] at hr
      obtain ⟨-, -, -, hne, rfl⟩ := hr
      exact h.insert hne rfl
  · exact h.of_same (((invoke_keeps env c).of_run hr).referrals hwrites)

theorem DistinctReferrers.step {ev : Event τ} (h : DistinctReferrers w.store)
    (hs : Step T contract w ev w') : DistinctReferrers w'.store := by
  obtain ⟨-, rfl⟩ := hs
  cases ev with
  | call auth oracle c =>
    rcases Tx.exec_cases (FeeCollector.invoke ⟨T, oracle, contract, auth⟩ c) w with ⟨u, hr⟩ | hsame
    · exact h.invoke hr
    · change DistinctReferrers (Tx.exec _ w).store
      rw [hsame]
      exact h
  | advance => exact h
  | external => exact h
  | evict => exact h

theorem Reachable.distinctReferrers (h : Reachable T contract w) : DistinctReferrers w.store := by
  obtain ⟨ledger, token, h⟩ := h
  refine h.invariant (I := fun w => DistinctReferrers w.store) ?_ fun _ _ _ hI hs => hI.step hs
  exact fun _ _ hr => absurd hr Store.lookup_empty_ne

end Referrers

/-! ## The largest fee -/

section Largest

variable {w : World τ} {env : Env τ} {trader token : Address} {tradeAmount fee burn : Int}

theorem effectiveFeeRateCached_le (baseRate : Nat) (token : Address) (cache : TxFeeConfigCache) :
    effectiveFeeRateCached baseRate token cache ≤ MAX_FEE_RATE_BPS := by
  unfold effectiveFeeRateCached MAX_FEE_RATE_BPS MIN_FEE_RATE_BPS
  dsimp only
  split <;> omega

theorem quote_le (h : w.quote trader token tradeAmount = some (fee, burn)) (hpos : 0 < tradeAmount) :
    fee ≤ tradeAmount * MAX_FEE_RATE_BPS / 10000 := by
  have hrate := effectiveFeeRateCached_le (w.baseRate trader) token w.store.feeConfig
  simp only [World.quote, feeAndBurnAmounts, feeAmountFloor, Option.bind_eq_bind, Option.bind_eq_some_iff,
    Option.map_eq_some_iff, checkedMul_eq_some, Option.pure_def, Option.some.injEq, Prod.mk.injEq] at h
  obtain ⟨_, ⟨_, ⟨-, -, rfl⟩, rfl⟩, _, -, rfl, -⟩ := h
  generalize effectiveFeeRateCached (w.baseRate trader) token w.store.feeConfig = rate at *
  have hproduct : tradeAmount * (rate : Int) ≤ tradeAmount * MAX_FEE_RATE_BPS :=
    Int.mul_le_mul_of_nonneg_left (by exact_mod_cast hrate) hpos.le
  rw [Int.tdiv_eq_ediv_of_nonneg (Int.mul_nonneg hpos.le (by omega))]
  exact Int.ediv_le_ediv (by decide) hproduct

/-- Only a positive trade is charged. -/
theorem collect_pos {tradeAsset : Asset} {w' : World τ}
    (h : collectFeeWithRecovery env trader token tradeAmount tradeAsset w = (.ok fee, w')) :
    0 < tradeAmount := by
  simp only [collectFeeWithRecovery, bind_requireInitialized_ok, bind_requireNotPaused_ok,
    bind_requireAuth_ok, Tx.bind_failIf_ok, bind_load_ok] at h
  exact not_le.mp h.2.2.2.1

end Largest

/-! ## The split -/

/-- The fee leaves the trader. Of it, `burn` leaves the token, `referral` goes to the referrer, and the pool
and the treasury grow by the rest, which stays with the contract. -/
structure Split (env : Env τ) (trader token : Address) (tradeAmount fee burn referral : Int)
    (w w' : World τ) : Prop where
  debited : env.tokens.balance token trader w.token - env.tokens.balance token trader w'.token = fee
  moved : ∀ k a, env.tokens.balance k a w'.token = env.tokens.balance k a w.token
    - (if k = token ∧ a = trader then fee else 0)
    + (if k = token ∧ a = env.self then fee - burn - referral else 0)
    + (if k = token ∧ w.store.trades.referrer.lookup trader = some a then referral else 0)
  sum : fee = burn + referral + (w'.store.books.pool token - w.store.books.pool token) +
    (w'.store.books.treasury token - w.store.books.treasury token)
  fee_nonneg : 0 ≤ fee
  burn_nonneg : 0 ≤ burn
  referral_nonneg : 0 ≤ referral
  pool_mono : 0 ≤ w'.store.books.pool token - w.store.books.pool token
  treasury_mono : 0 ≤ w'.store.books.treasury token - w.store.books.treasury token
  le : fee ≤ tradeAmount * MAX_FEE_RATE_BPS / 10000

section Collect

variable {T : Tokens τ} {contract trader token : Address} {w w' : World τ} {tradeAmount fee : Int}
  {tradeAsset : Asset} {auth : Auth} {oracle : Oracle}

/-- The share of the pool fits, since the contract receives it. -/
theorem addPool_fits {b : Books} {share held held' : Int} (hshare : 0 ≤ share) (hpool : 0 ≤ b.pool token)
    (hcovered : b.pool token ≤ held) (hreceived : held + share ≤ held') (hmax : held' ≤ i128Max) :
    (b.addPool token share).pool token = b.pool token + share := by
  rw [Books.addPool_pool]
  by_cases hpos : 0 < share
  · rw [if_pos ⟨hpos, rfl⟩, saturatingAdd_part hpool hshare (by omega)]
  · rw [if_neg fun h => hpos h.1]
    omega

/-- In every reachable state, a fee that is collected after the first trade is split without loss. -/
theorem fee_is_split (hT : T.Exact) (hN : T.RejectsNegative) (h : Reachable T contract w)
    (hself : auth contract = false) (hlater : w.store.trades.hasTraded.lookup trader ≠ none)
    (hc : collectFee ⟨T, oracle, contract, auth⟩ trader token tradeAmount tradeAsset w = (.ok fee, w')) :
    ∃ burn referral, Split ⟨T, oracle, contract, auth⟩ trader token tradeAmount fee burn referral w w' := by
  obtain ⟨hcovered, hburn⟩ := h.sound hT hN
  obtain ⟨hauth, ⟨hfirst, -⟩ | ⟨burn, referral, share, -, hquote, -, -, hburn, hreferral, hshare, hsum, -,
    hbooks, hmoved⟩⟩ := collect_spec hT hburn.feeConfig hc
  · exact absurd hfirst hlater
  dsimp only at hauth hmoved
  have htrader : contract ≠ trader := by
    rintro rfl
    rw [hself] at hauth
    cases hauth
  have hreceived : T.balance token contract w.token + share ≤ T.balance token contract w'.token := by
    rw [hmoved]
    simp [htrader]
    split <;> omega
  have hheld : w.store.books.pool token ≤ T.balance token contract w.token := by
    have hk := hcovered.covered token
    have ht := hcovered.treasury token
    have hi := hcovered.insurance token
    omega
  have hpool : w'.store.books.pool token = w.store.books.pool token + share := by
    rw [hbooks, Books.setTreasury_pool]
    exact addPool_fits hshare (hcovered.pool token) hheld hreceived (hT.le_max ..)
  have htreasury : w'.store.books.treasury token =
      w.store.books.treasury token + (fee - burn - referral - share) := by
    rw [hbooks, Books.setTreasury_treasury, if_pos rfl]
  refine ⟨burn, referral, ?_, hmoved, by omega, by omega, hburn, hreferral, by omega, by omega,
    quote_le hquote (collect_pos hc)⟩
  have hreferrer : w.store.trades.referrer.lookup trader ≠ some trader :=
    fun hown => h.distinctReferrers trader trader hown rfl
  rw [hmoved]
  simp only [and_self, if_true, Ne.symm htrader, and_false, if_false, hreferrer]
  omega

end Collect

namespace Sample

/-- A trader with a referrer, after its first trade. -/
def referred : World Balances :=
  deployedRun [call (.registerReferral bob alice), call (.setReferralFeeShare admin 1000), trade 1000000]

/-- Its second trade. -/
def secondTrade : Except (Fault ContractError) Int × World Balances :=
  collectFee sampleEnv alice usdc 1000000 usdcAsset referred

/-- The fee of 3000 goes to the referrer, the burn, the provider and the treasury. -/
theorem referred_fee_is_split : secondTrade.1 = .ok 3000 ∧
    ∃ burn referral, Split sampleEnv alice usdc 1000000 3000 burn referral referred secondTrade.2 := by
  have hcollect : secondTrade.1 = .ok 3000 := by decide +kernel
  have hreach : Reachable Balances.tokens collector referred := reachable_run (by decide +kernel)
  exact ⟨hcollect, fee_is_split Balances.tokens_exact Balances.tokens_rejectsNegative hreach (by decide)
    (by decide +kernel) (Prod.ext hcollect rfl)⟩

end Sample

end CallStake.FeeCollector
