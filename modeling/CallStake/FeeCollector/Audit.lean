import CallStake.FeeCollector.Solvency

/-!
# The audit of the balances

`audit_balances` compares the treasury with all that the contract holds. The two agree as long as nothing is
credited to another ledger and the contract pays nothing to itself.

* `Plain`: the condition on an event. A call that fails meets it.
* `Follows`: the effect of a plain call: the treasury moves with the tokens, the other ledgers stay empty.
* `audit_of_plain`: in a run of plain events the audit is empty while the tokens move through the contract
  only, and reports every token that is off the ledgers whatever happens to the tokens.
* `Sample.revenue_share_is_reported`: with the settings of a new contract, the first fee is reported.
-/

namespace CallStake.FeeCollector

variable {τ : Type}

/-! ## Plain events -/

/-- The first trade is free; of the fee of another trade, no part goes to the pool or to the contract. -/
def PlainTrade (env : Env τ) (w : World τ) (trader token : Address) (tradeAmount : Int) : Prop :=
  w.store.trades.hasTraded.lookup trader = none ∨ ∀ q ∈ w.quote trader token tradeAmount,
    w.store.revenuePart trader q.1 (q.1 - q.2) = 0 ∧
      (w.store.trades.referrer.lookup trader = some env.self → w.store.referralPart trader q.1 (q.1 - q.2) = 0)
  deriving Decidable

/-- Every trade of a batch is plain where its turn comes. -/
def PlainTrades (env : Env τ) : World τ → List BatchFeeInput → Prop
  | _, [] => True
  | w, item :: items => PlainTrade env w item.trader item.token item.tradeAmount ∧
    PlainTrades env
      (collectFeeWithRecovery env item.trader item.token item.tradeAmount item.tradeAsset w).2 items

def Call.Plain (env : Env τ) (w : World τ) : Call → Prop
  | .collectFee trader token tradeAmount _ => PlainTrade env w trader token tradeAmount
  | .batchCollectFees items => PlainTrades env (loadTxFeeConfig w).2 items
  | .retryFailedFeeCollection _ id => ∀ failed ∈ w.store.payouts.failedFeeCollections.lookup id,
    PlainTrade env w failed.trader failed.token failed.tradeAmount
  | .withdrawTreasuryFees recipient _ _ => recipient ≠ env.self
  | .distributeWaterfall _ totalAmount => ∀ tiers ∈ w.store.config.waterfallConfig,
    ∀ r ∈ tierResults (sortByPriority tiers) totalAmount, r.recipient = env.self → r.allocated = 0
  | .depositInsuranceFund .. => False
  | _ => True

section Events

variable (T : Tokens τ) (contract : Address)

/-- A call that succeeds is plain. -/
def Plain (w : World τ) : Event τ → Prop
  | .call auth oracle c => (invoke ⟨T, oracle, contract, auth⟩ c w).1.isOk = true →
    c.Plain ⟨T, oracle, contract, auth⟩ w
  | .advance _ | .external _ | .evict _ => True

/-- The tokens of the contract may be moved by others, in any way. -/
def Unsealed (w : World τ) : Event τ → Prop
  | .call auth _ _ => auth contract = false
  | .advance ledger => w.ledger.Before ledger
  | .external _ | .evict _ => True

/-- The tokens of the contract are moved by its entrypoints only. -/
def Sealed (w : World τ) : Event τ → Prop
  | .external token => ∀ k, T.balance k contract token = T.balance k contract w.token
  | ev => Unsealed contract w ev

theorem Sealed.unsealed {w : World τ} {ev : Event τ} (h : Sealed T contract w ev) :
    Unsealed contract w ev := by
  cases ev with
  | external => trivial
  | _ => exact h

instance decidablePlainTrades (env : Env τ) :
    (w : World τ) → (items : List BatchFeeInput) → Decidable (PlainTrades env w items)
  | _, [] => inferInstanceAs (Decidable True)
  | w, item :: items =>
    have := decidablePlainTrades env
      (collectFeeWithRecovery env item.trader item.token item.tradeAmount item.tradeAsset w).2 items
    inferInstanceAs (Decidable (_ ∧ _))

instance (env : Env τ) (w : World τ) (c : Call) : Decidable (c.Plain env w) := by
  cases c with
  | collectFee => exact inferInstanceAs (Decidable (PlainTrade ..))
  | batchCollectFees => exact inferInstanceAs (Decidable (PlainTrades ..))
  | retryFailedFeeCollection | distributeWaterfall => exact inferInstanceAs (Decidable (∀ _ ∈ _, _))
  | withdrawTreasuryFees => exact inferInstanceAs (Decidable (_ ≠ _))
  | depositInsuranceFund => exact inferInstanceAs (Decidable False)
  | _ => exact isTrue trivial

instance (w : World τ) : (ev : Event τ) → Decidable (Plain T contract w ev)
  | .call .. => inferInstanceAs (Decidable (_ → _))
  | .advance _ | .external _ | .evict _ => isTrue trivial

variable {T contract}

theorem Inside.sealed {w : World τ} {ev : Event τ} (h : Inside contract w ev) : Sealed T contract w ev := by
  cases ev with
  | external => cases h
  | _ => exact h

/-- A list of plain events without events of the tokens. -/
theorem plain_run {w : World τ} {evs : List (Event τ)}
    (h : Reaches.Along (next T contract) (fun w ev => Plain T contract w ev ∧ Inside contract w ev) w evs) :
    Reaches (fun w ev w' => (Plain T contract w ev ∧ Sealed T contract w ev) ∧ w' = next T contract w ev) w
      (run T contract w evs) :=
  (Reaches.of_along h).mono fun _ _ _ ⟨⟨hplain, hin⟩, he⟩ => ⟨⟨hplain, hin.sealed⟩, he⟩

end Events

/-! ## What a plain call does -/

/-- All that is recorded is in the treasury. -/
structure OnlyTreasury (b : Books) : Prop where
  insurance : ∀ k, b.insurance k = 0
  pool : ∀ k, b.pool k = 0
  pending : b.pendingFees.All (· = 0)

theorem OnlyTreasury.owed {b : Books} (h : OnlyTreasury b) (token : Address) :
    b.owed token = b.treasury token := by
  have h1 : b.amount token .insurance = 0 := h.insurance token
  have h2 : b.amount token .revenueShare = 0 := h.pool token
  have h3 : b.amount token .pendingFees = 0 := Books.pendingTotal_eq_zero h.pending token
  rw [Books.owed, h1, h2, h3]
  simp
  rfl

/-- The treasury moved with the tokens, and it is still the only ledger. -/
structure Follows (env : Env τ) (w w' : World τ) : Prop where
  only : OnlyTreasury w'.store.books
  moves : ∀ k, held env w' k - w'.store.books.treasury k = held env w k - w.store.books.treasury k

section Follows

variable {env : Env τ} {w w' : World τ} {token : Address} {u : Unit}

theorem Follows.of_same (h : OnlyTreasury w.store.books) (hbooks : w'.store.books = w.store.books)
    (htoken : w'.token = w.token) : Follows env w w' := by
  refine ⟨by rwa [hbooks], fun k => ?_⟩
  unfold held
  rw [hbooks, htoken]

theorem Follows.trans {w₁ : World τ} (h : Follows env w w₁) (h' : Follows env w₁ w') :
    Follows env w w' := ⟨h'.only, fun k => (h'.moves k).trans (h.moves k)⟩

/-- The treasury changes by as much as the contract holds. -/
theorem Follows.of_setTreasury {amount : Int} (h : OnlyTreasury w.store.books)
    (hbooks : w'.store.books = w.store.books.setTreasury token (w.store.books.treasury token + amount))
    (hbalance : ∀ k, held env w' k = held env w k + if k = token then amount else 0) :
    Follows env w w' := by
  refine ⟨⟨?_, ?_, ?_⟩, fun k => ?_⟩
  · rw [hbooks]; exact h.insurance
  · rw [hbooks]; exact h.pool
  · rw [hbooks]; exact h.pending
  · rw [hbooks, hbalance, Books.setTreasury_treasury]
    by_cases hk : k = token
    · subst hk; simp only [if_true]; omega
    · simp only [hk, if_false]; omega

variable (hT : env.tokens.Exact) (hself : env.auth env.self = false)
include hT hself

theorem follows_collect (hburn : BurnBounded w.store) {trader : Address} {tradeAmount fee : Int}
    {tradeAsset : Asset} (honly : OnlyTreasury w.store.books) (hplain : PlainTrade env w trader token tradeAmount)
    (h : collectFeeWithRecovery env trader token tradeAmount tradeAsset w = (.ok fee, w')) :
    Follows env w w' := by
  obtain ⟨hauth, ⟨-, hbooks, htoken⟩ | ⟨burn, referral, share, hlater, hquote, rfl, rfl, -, -, -, -, -,
    hbooks, hbalance⟩⟩ := collect_spec hT hburn.feeConfig h
  · exact Follows.of_same honly hbooks htoken
  have htrader : env.self ≠ trader := by rintro rfl; simp [hself] at hauth
  obtain ⟨hshare, hreferral⟩ := (hplain.resolve_left hlater) (fee, burn) hquote
  simp only at hshare hreferral
  rw [hshare, Int.sub_zero] at hbooks
  refine Follows.of_setTreasury honly hbooks fun k => ?_
  unfold held
  rw [hbalance]
  by_cases hpaid : w.store.trades.referrer.lookup trader = some env.self
  · simp [htrader, hpaid, hreferral hpaid]
  · simp [htrader, hpaid]

theorem follows_collectAll {items : List BatchFeeInput} {fees : List Int} (hburn : BurnBounded w.store)
    (honly : OnlyTreasury w.store.books) (hplain : PlainTrades env w items)
    (h : collectAll env items w = (.ok fees, w')) : Follows env w w' := by
  induction items generalizing w fees with
  | nil =>
    obtain ⟨-, rfl⟩ := Tx.pure_ok.mp h
    exact Follows.of_same honly rfl rfl
  | cons item items ih =>
    simp only [collectAll, Tx.bind_ok, Tx.pure_ok] at h
    obtain ⟨fee, w₁, hitem, rest, w₂, hrest, -, rfl⟩ := h
    obtain ⟨hfirst, hplain⟩ := hplain
    rw [hitem] at hplain
    have h₁ := follows_collect hT hself hburn honly hfirst hitem
    exact h₁.trans (ih (hburn.caches (Tx.Within.of_run inferInstance hitem)) h₁.only hplain hrest)

variable (env) (hN : env.tokens.RejectsNegative)
include hN

/-- A plain call that succeeds. -/
theorem follows_invoke {c : Call} (hburn : BurnBounded w.store) (honly : OnlyTreasury w.store.books)
    (hplain : c.Plain env w) (h : invoke env c w = (.ok u, w')) : Follows env w w' := by
  by_cases hquiet : .books ∉ c.footprint ∧ .token ∉ c.footprint
  · have hsame := (invoke_writes env c).of_run h
    exact Follows.of_same honly (hsame.books hquiet.1) (hsame.token hquiet.2)
  cases c
  case collectFee =>
    obtain ⟨fee, h⟩ := Tx.void_ok.mp h
    exact follows_collect hT hself hburn honly hplain h
  case batchCollectFees items =>
    obtain ⟨fees, h⟩ := Tx.void_ok.mp h
    simp only [batchCollectFees, Tx.bind_ok, Tx.failIf_ok] at h
    obtain ⟨_, _, ⟨-, rfl⟩, _, w₁, hload, hall⟩ := h
    have hplain : PlainTrades env w₁ items := by rwa [Call.Plain, hload] at hplain
    have hburn₁ := hburn.caches (Tx.Within.of_run inferInstance hload)
    obtain ⟨-, cache, hw₁⟩ := loadTxFeeConfig_ok hload
    have hload : Follows env w w₁ := Follows.of_same honly (by rw [hw₁]) (by rw [hw₁])
    exact hload.trans (follows_collectAll hT hself hburn₁ hload.only hplain hall)
  case retryFailedFeeCollection =>
    obtain ⟨fee, h⟩ := Tx.void_ok.mp h
    obtain ⟨failed, records, w₁, hfailed, hcollect, hbooks, htoken⟩ := retry_ok h
    have h₁ : Follows env { w with store.payouts.failedFeeCollections := records } w₁ := by
      refine follows_collect hT hself ?_ ?_ ?_ hcollect
      · exact ⟨hburn.stored, hburn.cached⟩
      · exact honly
      · exact hplain failed hfailed
    exact ⟨by rw [hbooks]; exact h₁.only, fun k => by
      have := h₁.moves k
      unfold held at this ⊢
      rwa [hbooks, htoken]⟩
  case withdrawTreasuryFees recipient token amount =>
    obtain ⟨-, ht, hbooks⟩ := withdrawTreasuryFees_ok h
    refine Follows.of_setTreasury honly hbooks fun k => ?_
    have hrecipient : recipient ≠ env.self := hplain
    rw [held_of_transfer hT ht, if_neg hrecipient]
    split <;> omega
  case distributeWaterfall token totalAmount =>
    obtain ⟨results, h⟩ := Tx.void_ok.mp h
    obtain ⟨-, -, ⟨tiers, htiers, rfl⟩, -, -, hbooks, hbalance⟩ := distributeWaterfall_ok hT hN h
    refine Follows.of_setTreasury honly hbooks fun k => ?_
    have hkept : allocatedTo env.self (tierResults (sortByPriority tiers) totalAmount) = 0 := by
      refine List.sum_eq_zero fun x hx => ?_
      obtain ⟨r, hr, rfl⟩ := List.mem_map.mp hx
      obtain ⟨hr, hrecipient⟩ := List.mem_filter.mp hr
      exact hplain tiers htiers r hr (by simpa using hrecipient)
    have := hbalance k env.self
    unfold held
    rw [this, hkept]
    simp
    split <;> omega
  case payoutInsurance caller recipient token amount claimId =>
    obtain ⟨hle, ht, hbooks⟩ := payoutInsurance_ok h
    have hzero : amount = 0 := by
      have := hN.transfer ht
      have := honly.insurance token
      omega
    subst hzero
    refine ⟨⟨fun k => ?_, ?_, ?_⟩, fun k => ?_⟩
    · rw [hbooks, Books.setInsurance_insurance, honly.insurance, honly.insurance]
      simp
    · rw [hbooks]; exact honly.pool
    · rw [hbooks]; exact honly.pending
    · rw [held_of_transfer hT ht, hbooks]
      simp
  case claimFees provider token =>
    obtain ⟨claimed, h⟩ := Tx.void_ok.mp h
    have hsame := claimFees_of_nothing (Int.le_of_eq (Books.pending_eq_zero honly.pending provider token)) h
    rw [hsame]
    exact Follows.of_same honly rfl rfl
  case triggerRevenueShareSnapshot =>
    obtain ⟨htoken, hbooks | hbooks⟩ := triggerRevenueShareSnapshot_ok h
    · exact Follows.of_same honly hbooks htoken
    · refine ⟨⟨?_, fun k => ?_, ?_⟩, fun k => ?_⟩
      · rw [hbooks]; exact honly.insurance
      · have := honly.pool k
        rw [hbooks]
        simp only [Books.pool, Store.lookup_erase_eq]
        split
        · rfl
        · exact this
      · rw [hbooks]; exact honly.pending
      · unfold held
        rw [htoken, hbooks]
        rfl
  case depositInsuranceFund => exact absurd hplain id
  all_goals exact absurd (by simp [Call.footprint]) hquiet

end Follows

/-! ## Runs of plain events -/

/-- What holds in every state of a run of plain events. -/
structure Filed (w : World τ) : Prop where
  only : OnlyTreasury w.store.books
  burnBounded : BurnBounded w.store

section Runs

variable {T : Tokens τ} {contract : Address} {w : World τ} {ev : Event τ}

theorem Filed.deployed (ledger : Ledger) (token : τ) : Filed (World.deployed ledger token) where
  only := ⟨fun _ => rfl, fun _ => rfl, Store.all_empty _⟩
  burnBounded := ⟨show DEFAULT_BURN_RATE_BPS ≤ MAX_BURN_RATE_BPS by decide, Store.all_empty _⟩

/-- A plain step keeps the other ledgers empty, whatever happens to the tokens, and what the contract holds
beside the treasury stays the same while they move through the contract only. -/
theorem Filed.next (hT : T.Exact) (hN : T.RejectsNegative) (h : Filed w) (hplain : Plain T contract w ev)
    (hopen : Unsealed contract w ev) : Filed (next T contract w ev) ∧ (Sealed T contract w ev → ∀ k,
      T.balance k contract (next T contract w ev).token -
          (next T contract w ev).store.books.treasury k =
        T.balance k contract w.token - w.store.books.treasury k) := by
  cases ev with
  | call auth oracle c =>
    rcases Tx.exec_cases (invoke ⟨T, oracle, contract, auth⟩ c) w with ⟨u, hr⟩ | hsame
    · have hf := follows_invoke ⟨T, oracle, contract, auth⟩ hT hopen hN h.burnBounded h.only
        (hplain (by rw [hr]; rfl)) hr
      exact ⟨⟨hf.only, h.burnBounded.invoke hr⟩, fun _ => hf.moves⟩
    · have hnext : FeeCollector.next T contract w (.call auth oracle c) = w := hsame
      rw [hnext]
      exact ⟨h, fun _ _ => rfl⟩
  | advance => exact ⟨⟨h.only, h.burnBounded⟩, fun _ _ => rfl⟩
  | external token =>
    refine ⟨⟨h.only, h.burnBounded⟩, fun hkeep k => ?_⟩
    have hk : T.balance k contract token = T.balance k contract w.token := hkeep k
    change T.balance k contract token - _ = _
    rw [hk]
    rfl
  | evict => exact ⟨⟨h.only, h.burnBounded.stored, h.burnBounded.cached.erase⟩, fun _ _ => rfl⟩

/-- The audit of an initialized contract over a list that is not too long. -/
theorem auditBalances_eq {env : Env τ} {tokens : List Address} (hinit : w.store.config.initialized = true)
    (hlen : tokens.length ≤ MAX_AUDIT_TOKENS) :
    auditBalances env tokens w = (.ok (tokens.filterMap (balanceMismatch env w)), w) := by
  simp only [auditBalances, Tx.bind_ok, requireInitialized_ok, Tx.failIf_ok, Tx.gets_ok, Tx.pure_ok]
  exact ⟨(), w, ⟨hinit, rfl⟩, (), w, ⟨Nat.not_lt.mpr hlen, rfl⟩, w, w, ⟨rfl, rfl⟩, rfl, rfl⟩

/-- In a run of plain events from a contract that holds nothing, the audit of an initialized contract over
at most `MAX_AUDIT_TOKENS` tokens is empty if the tokens of the contract moved through it only; and however
they moved, it has an entry for every token of which the contract does not hold what the ledgers record. -/
theorem audit_of_plain (hT : T.Exact) (hN : T.RejectsNegative) {ledger : Ledger} {token : τ}
    (hempty : ∀ k, T.balance k contract token = 0) :
    (∀ w, Reaches (fun w ev w' => (Plain T contract w ev ∧ Sealed T contract w ev) ∧
        w' = next T contract w ev) (World.deployed ledger token) w →
      w.store.config.initialized = true → ∀ oracle auth tokens, tokens.length ≤ MAX_AUDIT_TOKENS →
        (auditBalances ⟨T, oracle, contract, auth⟩ tokens w).1 = .ok []) ∧
    (∀ w, Reaches (fun w ev w' => (Plain T contract w ev ∧ Unsealed contract w ev) ∧
        w' = next T contract w ev) (World.deployed ledger token) w →
      w.store.config.initialized = true → ∀ oracle auth tokens, tokens.length ≤ MAX_AUDIT_TOKENS →
        ∃ mismatches, (auditBalances ⟨T, oracle, contract, auth⟩ tokens w).1 = .ok mismatches ∧
          ∀ k ∈ tokens, T.balance k contract w.token ≠ w.store.books.owed k → ∃ m ∈ mismatches, m.token = k) := by
  constructor
  · intro w hr hinit oracle auth tokens hlen
    have hI : Filed w ∧ ∀ k, T.balance k contract w.token = w.store.books.treasury k := by
      refine hr.invariant (I := fun w => Filed w ∧ ∀ k, T.balance k contract w.token =
        w.store.books.treasury k) ⟨Filed.deployed ledger token, hempty⟩ ?_
      rintro a ev b ⟨hfiled, heq⟩ ⟨⟨hplain, hsealed⟩, rfl⟩
      obtain ⟨hfiled', hmoves⟩ := hfiled.next hT hN hplain hsealed.unsealed
      refine ⟨hfiled', fun k => ?_⟩
      have h1 := hmoves hsealed k
      have h2 := heq k
      omega
    rw [auditBalances_eq hinit hlen]
    simp
    exact fun k _ => if_pos (hI.2 k)
  · intro w hr hinit oracle auth tokens hlen
    have hI : Filed w := by
      refine hr.invariant (Filed.deployed ledger token) ?_
      rintro a ev b hfiled ⟨⟨hplain, hopen⟩, rfl⟩
      exact (hfiled.next hT hN hplain hopen).1
    rw [auditBalances_eq hinit hlen]
    refine ⟨_, rfl, fun k hk hne => ?_⟩
    rw [hI.only.owed] at hne
    exact ⟨_, List.mem_filterMap.mpr ⟨k, hk, if_neg hne⟩, rfl⟩

end Runs

namespace Sample

theorem funds_empty (k : Address) : Balances.tokens.balance k collector funds = 0 := rfl

/-- With no revenue share, a withdrawal and a fee that is collected later leave nothing to report. -/
theorem unshared_fees_reconcile :
    let w := deployedRun [call (.setRevenueShareRateBps 0), trade 1000000, trade 1000000,
      call (.queueWithdrawal bob usdc 1000), .advance ⟨86400, 1⟩,
      call (.withdrawTreasuryFees bob usdc 1000), trade 2000000]
    0 < w.store.books.treasury usdc ∧ (auditBalances sampleEnv [usdc] w).1 = .ok [] :=
  ⟨by decide +kernel, (audit_of_plain Balances.tokens_exact Balances.tokens_rejectsNegative funds_empty).1 _
    (plain_run (by decide +kernel)) (by decide +kernel) faceValue _ [usdc] (by decide)⟩

/-- A new contract shares a fifth of its revenue: the first fee leaves 540 more than the treasury records,
although no token moved but through the contract. -/
theorem revenue_share_is_reported :
    let w := deployedRun [trade 1000000, trade 1000000]
    (Reaches (fun w ev w' => Sealed Balances.tokens collector w ev ∧
      w' = next Balances.tokens collector w ev) (World.deployed ⟨0, 0⟩ funds) w) ∧
      Balances.tokens.balance usdc collector w.token = w.store.books.owed usdc ∧
      (auditBalances sampleEnv [usdc] w).1 =
        .ok [{ token := usdc, expected := 2160, actual := 2700, delta := 540 }] := by
  refine ⟨?_, by decide +kernel, by decide +kernel⟩
  have hrun : Reaches.Along (next Balances.tokens collector) (Inside collector)
      (World.deployed ⟨0, 0⟩ funds) (started [trade 1000000, trade 1000000]) := by decide +kernel
  exact (Reaches.of_along hrun).mono fun _ _ _ h => ⟨h.1.sealed, h.2⟩

end Sample

end CallStake.FeeCollector
