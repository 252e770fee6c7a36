import CallStake.FeeCollector.Charge

/-!
# What the payouts do to the ledgers

One lemma for each entrypoint that moves tokens or resets a ledger: what it wrote in the books, and which
transfers it made.

* `tierResults`: the allocations of a waterfall, as a function of the tiers and the funds.
* `payTiers_results`, `payTiers_balance`: a waterfall that returned has these results and paid them.
  `tierResults_sum_le`: together they are at most the funds.
* `claimFees_of_nothing`: a claim where nothing is pending does nothing.
-/

namespace CallStake.FeeCollector

open Tx

variable {τ : Type} {env : Env τ} {w w' : World τ} {u : Unit} {token recipient : Address} {amount : Int}

theorem bind_validateTokenMetadataForToken_ok {β : Type} {b : β} {k : Unit → F τ β} :
    (validateTokenMetadataForToken token >>= k) w = (.ok b, w') ↔
      (¬ ∃ m ∈ w.store.config.tokenMetadata.lookup token, ¬m.valid) ∧ k () w = (.ok b, w') := by
  change (failIf _ _ >>= k) w = _ ↔ _
  rw [bind_failIf_ok]

theorem withdrawTreasuryFees_ok (h : withdrawTreasuryFees env recipient token amount w = (.ok u, w')) :
    amount ≤ w.store.books.treasury token ∧
      env.tokens.transfer token env.self recipient amount w.token = .ok w'.token ∧
      w'.store.books = w.store.books.setTreasury token (w.store.books.treasury token - amount) := by
  simp only [withdrawTreasuryFees, bind_requireInitialized_ok, bind_requireNotPaused_ok, bind_getAdmin_ok,
    bind_requireAuth_ok, bind_validateTokenMetadataForToken_ok, bind_load_ok, bind_ofOption_ok,
    bind_timestamp_ok, bind_failIf_ok, bind_orOverflow_ok, checkedSub_eq_some, bind_tryTransfer_ok,
    setTreasuryBalance, bind_save_ok, save_ok] at h
  obtain ⟨-, -, _, -, -, -, _, -, -, -, hle, _, ⟨-, -, rfl⟩, t, ht, rfl⟩ := h
  exact ⟨Int.not_lt.mp hle, ht, rfl⟩

theorem depositInsuranceFund_ok {src : Address}
    (h : depositInsuranceFund env src token amount w = (.ok u, w')) :
    env.auth src = true ∧ 0 < amount ∧
      env.tokens.transfer token src env.self amount w.token = .ok w'.token ∧
      w'.store.books = w.store.books.setInsurance token (w.store.books.insurance token + amount) := by
  simp only [depositInsuranceFund, bind_requireInitialized_ok, bind_requireNotPaused_ok,
    bind_requireAuth_ok, bind_failIf_ok, bind_tryTransfer_ok, bind_load_ok, bind_orOverflow_ok,
    checkedAdd_eq_some, setInsuranceBalance, save_ok] at h
  obtain ⟨-, -, hauth, hpos, t, ht, _, ⟨-, -, rfl⟩, rfl⟩ := h
  exact ⟨hauth, Int.not_le.mp hpos, ht, rfl⟩

theorem bind_requireAuthorizedCaller_ok {β : Type} {b : β} {k : Unit → F τ β} {auth : Auth}
    {caller : Address} (h : (requireAuthorizedCaller auth caller >>= k) w = (.ok b, w')) :
    k () w = (.ok b, w') := by
  obtain ⟨_, w₁, hcaller, h⟩ := Tx.bind_ok.mp h
  simp only [requireAuthorizedCaller, bind_requireAuth_ok, bind_getAdmin_ok, bind_load_ok, failIf_ok] at hcaller
  obtain ⟨-, _, -, -, rfl⟩ := hcaller
  exact h

theorem payoutInsurance_ok {caller : Address} {claimId : Bytes}
    (h : payoutInsurance env caller recipient token amount claimId w = (.ok u, w')) :
    amount ≤ w.store.books.insurance token ∧
      env.tokens.transfer token env.self recipient amount w.token = .ok w'.token ∧
      w'.store.books = w.store.books.setInsurance token (w.store.books.insurance token - amount) := by
  simp only [payoutInsurance, bind_requireInitialized_ok, bind_requireNotPaused_ok] at h
  obtain ⟨-, -, h⟩ := h
  have h := bind_requireAuthorizedCaller_ok h
  simp only [bind_failIf_ok, bind_load_ok, bind_orOverflow_ok, checkedSub_eq_some, setInsuranceBalance,
    bind_save_ok, tryTransfer_ok] at h
  obtain ⟨-, -, -, hle, _, ⟨-, -, rfl⟩, t, ht, rfl⟩ := h
  exact ⟨Int.not_lt.mp hle, ht, rfl⟩

/-- The pool of the token is emptied, or it was empty. No tokens move. -/
theorem triggerRevenueShareSnapshot_ok {auth : Auth} {caller : Address}
    (h : triggerRevenueShareSnapshot auth caller token w = (.ok u, w')) :
    w'.token = w.token ∧ (w'.store.books = w.store.books ∨
      w'.store.books = { w.store.books with
        revenueSharePool := w.store.books.revenueSharePool.erase token }) := by
  simp only [triggerRevenueShareSnapshot, bind_requireAdmin_ok, bind_requireAuth_ok, bind_load_ok,
    bind_sequence_ok, when_ok, clearRevenueSharePool, bind_save_ok, save_ok] at h
  obtain ⟨-, _, -, -, -, h⟩ := h
  split at h
  · cases h
    exact ⟨rfl, .inr rfl⟩
  · cases h
    exact ⟨rfl, .inl rfl⟩

theorem claimFees_of_nothing {provider : Address} {claimed : Int}
    (hpending : w.store.books.pending provider token ≤ 0)
    (h : claimFees env provider token w = (.ok claimed, w')) : w' = w := by
  simp only [claimFees, bind_requireInitialized_ok, bind_requireNotPaused_ok,
    bind_validateTokenMetadataForToken_ok, bind_requireAuth_ok, bind_load_ok] at h
  obtain ⟨-, -, -, -, h⟩ := h
  rw [id, if_neg (by omega)] at h
  exact (Tx.pure_ok.mp h).2.symm

/-! ## Waterfall -/

/-- The results of a waterfall over tiers in this order. -/
def tierResults : List WaterfallTier → Int → List WaterfallTierResult
  | [], _ => []
  | tier :: tiers, remaining =>
    let allocated := (tier.allocation remaining).getD 0
    tier.result allocated :: tierResults tiers (remaining - allocated)

/-- What the results of a waterfall allocate in all. -/
def allocatedTotal (results : List WaterfallTierResult) : Int := (results.map (·.allocated)).sum

/-- What they allocate to one recipient. -/
def allocatedTo (a : Address) (results : List WaterfallTierResult) : Int :=
  allocatedTotal (results.filter (·.recipient = a))

theorem allocatedTotal_cons (r : WaterfallTierResult) (results : List WaterfallTierResult) :
    allocatedTotal (r :: results) = r.allocated + allocatedTotal results := rfl

theorem allocatedTo_cons (a : Address) (tier : WaterfallTier) (allocated : Int)
    (results : List WaterfallTierResult) : allocatedTo a (tier.result allocated :: results) =
      (if a = tier.recipient then allocated else 0) + allocatedTo a results := by
  unfold allocatedTo
  by_cases ha : tier.recipient = a
  · simp [WaterfallTier.result, ha, allocatedTotal_cons]
  · simp [WaterfallTier.result, ha, Ne.symm ha]

theorem allocatedTo_nonneg (a : Address) {results : List WaterfallTierResult}
    (h : ∀ r ∈ results, 0 ≤ r.allocated) : 0 ≤ allocatedTo a results := by
  refine List.sum_nonneg fun x hx => ?_
  obtain ⟨r, hr, rfl⟩ := List.mem_map.mp hx
  exact h r (List.mem_filter.mp hr).1

/-- The allocations are at most the funds. -/
theorem tierResults_sum_le {tiers : List WaterfallTier} {remaining : Int} (h : 0 ≤ remaining)
    (hpos : ∀ r ∈ tierResults tiers remaining, 0 ≤ r.allocated) :
    allocatedTotal (tierResults tiers remaining) ≤ remaining := by
  induction tiers generalizing remaining with
  | nil => exact h
  | cons tier tiers ih =>
    have hle : (tier.allocation remaining).getD 0 ≤ remaining := by
      unfold WaterfallTier.allocation
      split
      · assumption
      · split
        · exact Int.le_refl _
        · exact h
    have hrest := ih (by omega) fun r hr => hpos r (List.mem_cons_of_mem _ hr)
    rw [tierResults, allocatedTotal_cons]
    simp only [WaterfallTier.result]
    omega

/-- The results of the tiers are their allocations, none of which is negative. -/
theorem payTiers_results (hN : env.tokens.RejectsNegative) {tiers : List WaterfallTier}
    {remaining distributed total : Int} {results : List WaterfallTierResult}
    (h : payTiers env token tiers remaining distributed w = (.ok (total, results), w')) :
    results = tierResults tiers remaining ∧ total = distributed + allocatedTotal results ∧
      w'.store = w.store ∧ ∀ r ∈ results, 0 ≤ r.allocated := by
  induction tiers generalizing remaining distributed w results with
  | nil =>
    obtain ⟨he, rfl⟩ := Tx.pure_ok.mp h
    cases he
    exact ⟨rfl, (Int.add_zero _).symm, rfl, by simp⟩
  | cons tier tiers ih =>
    unfold payTiers at h
    cases hallocation : tier.allocation remaining with
    | none =>
      rw [hallocation] at h
      simp only [bind_ok, pure_ok] at h
      obtain ⟨⟨total', results'⟩, w₁, hrest, he, rfl⟩ := h
      cases he
      obtain ⟨rfl, rfl, hstore, hpos⟩ := ih hrest
      refine ⟨by simp [tierResults, hallocation], ?_, hstore, ?_⟩
      · rw [allocatedTotal_cons]
        exact (Int.zero_add _).symm ▸ rfl
      · intro r hr
        rcases List.mem_cons.mp hr with rfl | hr
        · exact Int.le_refl 0
        · exact hpos r hr
    | some allocated =>
      rw [hallocation] at h
      simp only [bind_ok, tryTransfer_ok, orOverflow_ok, checkedSub_eq_some, checkedAdd_eq_some, pure_ok] at h
      obtain ⟨_, _, ⟨t, ht, rfl⟩, _, _, ⟨⟨-, -, rfl⟩, rfl⟩, _, _, ⟨⟨-, -, rfl⟩, rfl⟩,
        ⟨total', results'⟩, w₁, hrest, he, rfl⟩ := h
      cases he
      obtain ⟨rfl, rfl, hstore, hpos⟩ := ih hrest
      refine ⟨by simp [tierResults, hallocation], ?_, hstore, ?_⟩
      · rw [allocatedTotal_cons]
        exact Int.add_assoc _ _ _
      · intro r hr
        rcases List.mem_cons.mp hr with rfl | hr
        · exact hN.transfer ht
        · exact hpos r hr

/-- The tiers got what was allocated to them. A recipient may be the contract itself, which then keeps its
part. -/
theorem payTiers_balance (hT : env.tokens.Exact) {tiers : List WaterfallTier}
    {remaining distributed total : Int} {results : List WaterfallTierResult}
    (h : payTiers env token tiers remaining distributed w = (.ok (total, results), w')) (k a : Address) :
    env.tokens.balance k a w'.token = env.tokens.balance k a w.token
      - (if k = token ∧ a = env.self then allocatedTotal results else 0)
      + (if k = token then allocatedTo a results else 0) := by
  induction tiers generalizing remaining distributed w results with
  | nil =>
    obtain ⟨he, rfl⟩ := Tx.pure_ok.mp h
    cases he
    simp [allocatedTotal, allocatedTo]
  | cons tier tiers ih =>
    unfold payTiers at h
    cases hallocation : tier.allocation remaining with
    | none =>
      rw [hallocation] at h
      simp only [bind_ok, pure_ok] at h
      obtain ⟨⟨total', results'⟩, w₁, hrest, he, rfl⟩ := h
      cases he
      rw [ih hrest, allocatedTotal_cons, allocatedTo_cons]
      simp [WaterfallTier.result]
    | some allocated =>
      rw [hallocation] at h
      simp only [bind_ok, tryTransfer_ok, orOverflow_ok, pure_ok] at h
      obtain ⟨_, _, ⟨t, ht, rfl⟩, _, _, ⟨-, rfl⟩, _, _, ⟨-, rfl⟩, ⟨total', results'⟩, w₁, hrest, he, rfl⟩ := h
      cases he
      rw [ih hrest, hT.transfer ht, allocatedTotal_cons, allocatedTo_cons]
      rw [show (tier.result allocated).allocated = allocated from rfl]
      by_cases hk : k = token
      · simp [hk]
        split_ifs <;> omega
      · simp [hk]

/-- A waterfall that returned paid the allocations of the configured tiers by their priority. -/
theorem distributeWaterfall_run {totalAmount : Int} {results : List WaterfallTierResult}
    (h : distributeWaterfall env token totalAmount w = (.ok results, w')) :
    0 < totalAmount ∧ totalAmount ≤ w.store.books.treasury token ∧
    ∃ tiers total w₁, w.store.config.waterfallConfig = some tiers ∧
      payTiers env token (sortByPriority tiers) totalAmount 0 w = (.ok (total, results), w₁) ∧
      w' = { w₁ with store.books := w₁.store.books.setTreasury token (w.store.books.treasury token - total) } := by
  simp only [distributeWaterfall, bind_requireInitialized_ok, bind_requireNotPaused_ok, bind_getAdmin_ok,
    bind_requireAuth_ok, bind_failIf_ok, bind_load_ok, bind_ofOption_ok] at h
  obtain ⟨-, -, _, -, -, hpos, tiers, htiers, hle, h⟩ := h
  obtain ⟨⟨total, results'⟩, w₁, hpay, h⟩ := Tx.bind_ok.mp h
  simp [setTreasuryBalance] at h
  obtain ⟨_, ⟨-, -, rfl⟩, rfl, rfl⟩ := h
  exact ⟨Int.not_le.mp hpos, Int.not_lt.mp hle, tiers, total, w₁, htiers, hpay, rfl⟩

theorem distributeWaterfall_results (hN : env.tokens.RejectsNegative) {totalAmount : Int}
    {results : List WaterfallTierResult}
    (h : distributeWaterfall env token totalAmount w = (.ok results, w')) :
    (∃ tiers, w.store.config.waterfallConfig = some tiers ∧
      results = tierResults (sortByPriority tiers) totalAmount) ∧
    (∀ r ∈ results, 0 ≤ r.allocated) ∧ allocatedTotal results ≤ totalAmount ∧
    w'.store.books = w.store.books.setTreasury token (w.store.books.treasury token - allocatedTotal results) := by
  obtain ⟨hpos, -, tiers, _, w₁, htiers, hpay, rfl⟩ := distributeWaterfall_run h
  obtain ⟨hresults, rfl, hstore, hnonneg⟩ := payTiers_results hN hpay
  refine ⟨⟨tiers, htiers, hresults⟩, hnonneg, ?_, ?_⟩
  · rw [hresults] at hnonneg ⊢
    exact tierResults_sum_le hpos.le hnonneg
  · simp [hstore]

theorem distributeWaterfall_ok (hT : env.tokens.Exact) (hN : env.tokens.RejectsNegative)
    {totalAmount : Int} {results : List WaterfallTierResult}
    (h : distributeWaterfall env token totalAmount w = (.ok results, w')) :
    0 < totalAmount ∧ totalAmount ≤ w.store.books.treasury token ∧
    (∃ tiers, w.store.config.waterfallConfig = some tiers ∧
      results = tierResults (sortByPriority tiers) totalAmount) ∧
    (∀ r ∈ results, 0 ≤ r.allocated) ∧ allocatedTotal results ≤ totalAmount ∧
    w'.store.books = w.store.books.setTreasury token (w.store.books.treasury token - allocatedTotal results) ∧
    ∀ k a, env.tokens.balance k a w'.token = env.tokens.balance k a w.token
      - (if k = token ∧ a = env.self then allocatedTotal results else 0)
      + (if k = token then allocatedTo a results else 0) := by
  obtain ⟨htiers, hnonneg, hsum, hbooks⟩ := distributeWaterfall_results hN h
  obtain ⟨hpos, hle, _, _, _, -, hpay, rfl⟩ := distributeWaterfall_run h
  have hbalance := payTiers_balance hT hpay
  exact ⟨hpos, hle, htiers, hnonneg, hsum, hbooks, hbalance⟩

end CallStake.FeeCollector
