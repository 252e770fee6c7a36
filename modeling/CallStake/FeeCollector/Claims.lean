import CallStake.FeeCollector.Ledgers

/-!
# What a claim pays, and what it leaves

The cap of the day cuts a claim to what it has left. The pending fees are reset to zero all the same, so
what the cap holds back is gone.

* `headroom`: what the cap leaves; it is negative where more has been distributed than the cap allows.
* `claimFees_ok`: the claim, the payment and the pending fees afterwards.
* `claimed_exactly_iff`: what is paid and what is still pending are the pending fees exactly if the cap does
  not cut the claim.
* `cap_forfeits_the_rest`: a claim over the cap of the day.
-/

namespace CallStake.FeeCollector

variable {τ : Type}

/-! ## The cap -/

/-- What the cap of the day leaves to be claimed. -/
def Storage.headroom (s : Storage) (token : Address) (day : Nat) : Int :=
  saturatingSub
    (((checkedMul (s.trades.dailyFees token day) s.config.maxRebateBps).map (·.tdiv 10000)).getD i128Max)
    (s.payouts.epochRebate token day)

/-- Nothing is pending, or the cap has room for all that is, or there is no cap on a day without fees. -/
def Storage.Uncapped (s : Storage) (provider token : Address) (day : Nat) : Prop :=
  s.books.pending provider token = 0 ∨ 0 < s.books.pending provider token ∧
    (s.trades.dailyFees token day ≤ 0 ∨ s.books.pending provider token ≤ s.headroom token day)

instance (s : Storage) (provider token : Address) (day : Nat) : Decidable (s.Uncapped provider token day) :=
  inferInstanceAs (Decidable (_ ∨ _))

theorem cappedClaim_eq {s : Storage} {token : Address} {day : Nat} {requested : Int} :
    cappedClaim s token day requested =
      if 0 < s.trades.dailyFees token day then min (s.headroom token day) requested else requested := rfl

/-! ## The payment -/

/-- The contract pays an amount of a token, and no other balance changes. -/
def Pays (env : Env τ) (token recipient : Address) (amount : Int) (w w' : World τ) : Prop :=
  ∀ k a, env.tokens.balance k a w'.token = env.tokens.balance k a w.token
    - (if k = token ∧ a = env.self then amount else 0)
    + (if k = token ∧ a = recipient then amount else 0)

/-- The amount is paid in the token, or converted to the preferred one at the rate of the oracle. -/
inductive Settled (env : Env τ) (provider token : Address) (amount : Int) (w w' : World τ) : Prop where
  | direct (h : Pays env token provider amount w w')
  | converted {preferred oracleContract : Address} {rate : Int}
      (hpreferred : w.store.payouts.payoutCurrency.lookup provider = some preferred)
      (hother : preferred ≠ token) (horacle : w.store.config.oracleContract = some oracleContract)
      (hrate : env.oracle.getRate oracleContract token preferred = some rate) (hpos : 0 < rate)
      (h : Pays env preferred provider ((amount * rate).tdiv ORACLE_RATE_PRECISION) w w')

section Payment

variable {env : Env τ} {w w' : World τ} {provider token : Address} {amount : Int} {u : Unit}

theorem Pays.nothing (h : w'.token = w.token) : Pays env token provider 0 w w' := by
  intro k a
  simp [h]

theorem convertedAmount_eq_some {oracle : Oracle} {oracleContract : Option Address}
    {preferred : Address} {prefAmount : Int}
    (h : convertedAmount oracle oracleContract token preferred amount = some prefAmount) :
    ∃ o rate, oracleContract = some o ∧ oracle.getRate o token preferred = some rate ∧ 0 < rate ∧
      prefAmount = (amount * rate).tdiv ORACLE_RATE_PRECISION := by
  simp only [convertedAmount, Option.bind_eq_bind, Option.bind_eq_some_iff, Option.filter_eq_some_iff,
    checkedMul_eq_some, decide_eq_true_eq] at h
  obtain ⟨o, ho, rate, ⟨hrate, hpos⟩, _, ⟨-, -, rfl⟩, h⟩ := h
  split at h
  · cases h
  · exact ⟨o, rate, ho, hrate, hpos, (Option.some.inj h).symm⟩

/-- A converted payment resets the pending fees; one that is not made changes nothing. -/
theorem claimConverted_ok (hT : env.tokens.Exact) {r : Option Int}
    (h : claimConverted env provider token amount w = (.ok r, w')) :
    (r = none ∧ w' = w) ∨ (r.isSome = true ∧ Settled env provider token amount w w' ∧
      w'.store.books = { w.store.books with
        pendingFees := w.store.books.pendingFees.insert (provider, token) 0 }) := by
  simp only [claimConverted, bind_load_ok] at h
  cases hpref : preferredToken w.store provider token with
  | none =>
    rw [hpref] at h
    obtain ⟨rfl, rfl⟩ := Tx.pure_ok.mp h
    exact .inl ⟨rfl, rfl⟩
  | some preferred =>
    obtain ⟨hpreferred, hother⟩ := Option.filter_eq_some_iff.mp hpref
    rw [hpref] at h
    simp only at h
    split at h
    · simp only [tryClaimInPreferredCurrency, bind_load_ok] at h
      obtain ⟨balance, w₁, hbalance, h⟩ := Tx.bind_ok.mp h
      obtain ⟨rfl, rfl⟩ := ownBalance_ok.mp hbalance
      cases hamount : (convertedAmount env.oracle w.store.config.oracleContract token preferred amount).filter
          (· ≤ env.tokens.balance preferred env.self w.token) with
      | none =>
        rw [hamount] at h
        obtain ⟨rfl, rfl⟩ := Tx.pure_ok.mp h
        exact .inl ⟨rfl, rfl⟩
      | some prefAmount =>
        rw [hamount] at h
        obtain ⟨o, rate, ho, hrate, hpos, rfl⟩ := convertedAmount_eq_some (Option.filter_eq_some_iff.mp hamount).1
        simp only [setPendingFees, bind_save_ok] at h
        obtain ⟨_, w₂, hpay, h⟩ := Tx.bind_ok.mp h
        obtain ⟨t, ht, rfl⟩ := invokeToken_ok.mp (Tx.mapErr_ok.mp hpay)
        obtain ⟨rfl, rfl⟩ := Tx.pure_ok.mp h
        exact .inr ⟨rfl, .converted hpreferred (of_decide_eq_true hother) ho hrate hpos (hT.transfer ht), rfl⟩
    · obtain ⟨rfl, rfl⟩ := Tx.pure_ok.mp h
      exact .inl ⟨rfl, rfl⟩

/-- A claim is paid, unless its amount is negative, and the pending fees are reset in any case. -/
theorem settleClaim_ok (hT : env.tokens.Exact) (h : settleClaim env provider token amount w = (.ok u, w')) :
    (0 ≤ amount → Settled env provider token amount w w') ∧
      w'.store.books = { w.store.books with
        pendingFees := w.store.books.pendingFees.insert (provider, token) 0 } := by
  rw [settleClaim, Tx.bind_ok] at h
  obtain ⟨r, w₁, hconverted, h⟩ := h
  rcases claimConverted_ok hT hconverted with ⟨rfl, rfl⟩ | ⟨hsome, hsettled, hbooks⟩
  · obtain ⟨_, w₂, hpay, h⟩ := Tx.bind_ok.mp h
    cases save_ok.mp h
    rw [Tx.when_ok] at hpay
    split at hpay
    · obtain ⟨t, ht, rfl⟩ := tryTransfer_ok.mp hpay
      exact ⟨fun _ => .direct (hT.transfer ht), rfl⟩
    · rename_i hnothing
      cases hpay
      refine ⟨fun hnonneg => .direct ?_, rfl⟩
      have hzero : amount = 0 := by omega
      rw [hzero]
      exact Pays.nothing rfl
  · obtain ⟨a, rfl⟩ := Option.isSome_iff_exists.mp hsome
    obtain ⟨-, rfl⟩ := Tx.pure_ok.mp h
    exact ⟨fun _ => hsettled, hbooks⟩

end Payment

/-! ## The claim -/

/-- What is claimed of a claim: it pays a part of the pending fees, and the rest stays pending. -/
structure ClaimedExactly (env : Env τ) (provider token : Address) (claimed : Int) (w w' : World τ) :
    Prop where
  nonneg : 0 ≤ claimed
  le : claimed ≤ w.store.books.pending provider token
  settled : Settled env provider token claimed w w'
  pending : w'.store.books.pending provider token = w.store.books.pending provider token - claimed

section Claim

variable {env : Env τ} {w w' : World τ} {provider token : Address} {claimed : Int}

/-- A claim does nothing where nothing is pending; otherwise it pays what the cap leaves of the pending
fees, and resets them. -/
theorem claimFees_ok (hT : env.tokens.Exact) (h : claimFees env provider token w = (.ok claimed, w')) :
    (w.store.books.pending provider token ≤ 0 ∧ claimed = 0 ∧ w' = w) ∨
      (0 < w.store.books.pending provider token ∧
        claimed = cappedClaim w.store token (w.ledger.timestamp / SECONDS_PER_DAY)
          (w.store.books.pending provider token) ∧
        (0 ≤ claimed → Settled env provider token claimed w w') ∧
        w'.store.books.pending provider token = 0) := by
  simp only [claimFees, bind_requireInitialized_ok, bind_requireNotPaused_ok,
    bind_validateTokenMetadataForToken_ok, bind_requireAuth_ok, bind_load_ok] at h
  obtain ⟨-, -, -, -, h⟩ := h
  by_cases hpending : 0 < w.store.books.pending provider token
  · rw [id, if_pos hpending, bind_timestamp_ok] at h
    obtain ⟨_, w₁, hrecord, h⟩ := Tx.bind_ok.mp h
    obtain ⟨_, w₂, hsettle, h⟩ := Tx.bind_ok.mp h
    obtain ⟨rfl, rfl⟩ := Tx.pure_ok.mp h
    obtain ⟨hsettled, hbooks⟩ := settleClaim_ok hT hsettle
    have hreset : w₂.store.books.pending provider token = 0 := by
      rw [hbooks, Books.pending, Store.lookup_insert_eq, if_pos rfl]
      rfl
    refine .inr ⟨hpending, rfl, fun hnonneg => ?_, hreset⟩
    rw [Tx.when_ok] at hrecord
    split at hrecord
    · cases save_ok.mp hrecord
      -- the record of what was distributed is not read by the payment
      cases hsettled hnonneg with
      | direct hpays => exact .direct hpays
      | converted hpreferred hother horacle hrate hpos hpays =>
        exact .converted hpreferred hother horacle hrate hpos hpays
    · cases hrecord
      exact hsettled hnonneg
  · rw [id, if_neg hpending] at h
    obtain ⟨rfl, rfl⟩ := Tx.pure_ok.mp h
    exact .inl ⟨not_lt.mp hpending, rfl, rfl⟩

/-- A claim pays what was pending, or leaves the rest pending, exactly if the cap does not cut it. -/
theorem claimed_exactly_iff (hT : env.tokens.Exact)
    (h : claimFees env provider token w = (.ok claimed, w')) :
    ClaimedExactly env provider token claimed w w' ↔
      w.store.Uncapped provider token (w.ledger.timestamp / SECONDS_PER_DAY) := by
  unfold Storage.Uncapped
  rcases claimFees_ok hT h with ⟨hnothing, rfl, rfl⟩ | ⟨hpending, hclaimed, hsettled, hreset⟩
  · constructor
    · intro hexact
      exact .inl (le_antisymm hnothing hexact.le)
    · rintro (hzero | ⟨hpos, -⟩)
      · exact ⟨le_refl 0, hzero.ge, .direct (.nothing rfl), (Int.sub_zero _).symm⟩
      · exact absurd hpos (not_lt.mpr hnothing)
  · have hall : ClaimedExactly env provider token claimed w w' ↔
        claimed = w.store.books.pending provider token := by
      constructor
      · intro hexact
        have := hexact.pending
        omega
      · rintro rfl
        exact ⟨hpending.le, le_refl _, hsettled hpending.le, by omega⟩
    rw [hall, hclaimed, cappedClaim_eq]
    split <;> omega

end Claim

namespace Sample

/-- A provider with pending fees, on a day with fees of 3000, of which 2400 may be claimed. -/
def owing (amount : Int) : World Balances :=
  let w := deployedRun [trade 1000000, trade 1000000]
  { w with store.books.pendingFees := w.store.books.pendingFees.insert (bob, usdc) amount }

/-- The provider claims its pending fees. -/
def claimed (w : World Balances) : Except (Fault ContractError) Int × World Balances := claimFees sampleEnv bob usdc w

/-- All of the thousand is paid out. -/
theorem claim_within_cap : (claimed (owing 1000)).1 = .ok 1000 ∧
    ClaimedExactly sampleEnv bob usdc 1000 (owing 1000) (claimed (owing 1000)).2 := by
  have hclaim : (claimed (owing 1000)).1 = .ok 1000 := by decide +kernel
  exact ⟨hclaim, (claimed_exactly_iff Balances.tokens_exact (Prod.ext hclaim rfl)).mpr (by decide +kernel)⟩

/-- Of 2500 pending fees 2400 are paid, and none is pending then. A later claim, after the
cap was lowered, returns a negative amount. -/
theorem cap_forfeits_the_rest :
    let w := owing 2500
    let lowered := next Balances.tokens collector (claimed w).2 (call (.setMaxRebateBps 1000))
    let after := { lowered with store.books.pendingFees := lowered.store.books.pendingFees.insert (bob, usdc) 100 }
    (claimed w).1 = .ok 2400 ∧ (claimed w).2.store.books.pending bob usdc = 0 ∧
      ¬ ClaimedExactly sampleEnv bob usdc 2400 w (claimed w).2 ∧
      (claimed after).1 = .ok (-2100) ∧ (claimed after).2.store.books.pending bob usdc = 0 := by
  refine ⟨by decide +kernel, by decide +kernel, fun hexact => ?_, by decide +kernel, by decide +kernel⟩
  exact absurd hexact.pending (by decide +kernel)

end Sample

end CallStake.FeeCollector
