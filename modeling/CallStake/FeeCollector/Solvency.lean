import CallStake.FeeCollector.Ledgers

/-!
# The ledgers are covered by the tokens

Four ledgers share the token account of the contract. Whatever is called, in whatever order, the contract
holds at least what they record together, provided the tokens are exact and reject negative amounts.

* `Account`, `Books.amount`, `Books.owed`: the ledgers, and their sum, in one token.
* `Covered`: every ledger is nonnegative, and their sum is at most what the contract holds. No entrypoint
  credits pending fees, so a claim never pays, in whichever token it is converted.
* `BurnBounded`: the burn rate, stored or cached, is at most the whole fee.
* `Sound.step`: both are kept by every step.
* `payout_draws`: a payout changes no ledger but its own, and takes no more tokens than it debits there.
-/

namespace CallStake.FeeCollector

variable {τ : Type}

/-- The ledgers that share the token account. -/
inductive Account where
  | treasury
  | insurance
  | revenueShare
  | pendingFees
  deriving DecidableEq

namespace Books

/-- The pending fees of all providers in a token. -/
def pendingTotal (b : Books) (token : Address) : Int := ((b.pendingFees.entries.filter (·.1.2 = token)).map (·.2)).sum

/-- What a ledger records of a token. -/
def amount (b : Books) (token : Address) : Account → Int
  | .treasury => b.treasury token
  | .insurance => b.insurance token
  | .revenueShare => b.pool token
  | .pendingFees => b.pendingTotal token

/-- What the ledgers record together. -/
def owed (b : Books) (token : Address) : Int :=
  b.amount token .treasury + b.amount token .insurance + b.amount token .revenueShare + b.amount token .pendingFees

theorem pendingTotal_eq_zero {b : Books} (h : b.pendingFees.All (· = 0)) (token : Address) :
    b.pendingTotal token = 0 := by
  apply List.sum_eq_zero
  intro x hx
  obtain ⟨e, he, rfl⟩ := List.mem_map.mp hx
  exact h e.1 e.2 (Store.mem_entries_iff.mp (List.mem_filter.mp he).1)

theorem pending_eq_zero {b : Books} (h : b.pendingFees.All (· = 0)) (provider token : Address) :
    b.pending provider token = 0 := by
  unfold pending
  cases hp : b.pendingFees.lookup (provider, token) with
  | none => rfl
  | some v => exact h _ v hp

@[simp] theorem setTreasury_amount (b : Books) (token k : Address) (v : Int) (a : Account) :
    (b.setTreasury token v).amount k a = if k = token ∧ a = .treasury then v else b.amount k a := by
  cases a
  case treasury => simp [amount]
  all_goals simp; rfl

@[simp] theorem setInsurance_amount (b : Books) (token k : Address) (v : Int) (a : Account) :
    (b.setInsurance token v).amount k a = if k = token ∧ a = .insurance then v else b.amount k a := by
  cases a
  case insurance => simp [amount]
  all_goals simp; rfl

end Books

/-- The invariant of the ledgers. -/
structure Covered (T : Tokens τ) (contract : Address) (w : World τ) : Prop where
  treasury : ∀ k, 0 ≤ w.store.books.treasury k
  insurance : ∀ k, 0 ≤ w.store.books.insurance k
  pool : ∀ k, 0 ≤ w.store.books.pool k
  pending : w.store.books.pendingFees.All (· = 0)
  covered : ∀ k, w.store.books.treasury k + w.store.books.insurance k + w.store.books.pool k ≤
    T.balance k contract w.token

/-- No burn takes more than the fee. -/
structure BurnBounded (s : Storage) : Prop where
  stored : s.config.burnRate ≤ MAX_BURN_RATE_BPS
  cached : s.cache.All (·.burnRate ≤ MAX_BURN_RATE_BPS)

theorem BurnBounded.feeConfig {s : Storage} (h : BurnBounded s) :
    s.feeConfig.burnRate ≤ MAX_BURN_RATE_BPS := by
  unfold Storage.feeConfig
  cases hc : s.cache.lookup s.config.cacheKey with
  | none => exact h.stored
  | some value => exact h.cached _ _ hc

theorem BurnBounded.caches {w w' : World τ} (h : BurnBounded w.store) (hw : Caches w w') :
    BurnBounded w'.store where
  stored := by
    have : w'.store.config.burnRate = w.store.config.burnRate := congrArg (·.burnRate) hw.config
    rw [this]
    exact h.stored
  cached k v hv := by
    rcases hw.entries k v hv with hv | ⟨-, rfl⟩
    · exact h.cached k v hv
    · exact h.stored

/-! ## One operation -/

section Operations

variable {env : Env τ} {w w' : World τ} {token : Address} {u : Unit}

/-- What the contract holds of a token. -/
def held (env : Env τ) (w : World τ) (token : Address) : Int := env.tokens.balance token env.self w.token

theorem Covered.of_same (h : Covered env.tokens env.self w) (hbooks : w'.store.books = w.store.books)
    (htoken : w'.token = w.token) : Covered env.tokens env.self w' := by
  obtain ⟨h1, h2, h3, h4, h5⟩ := h
  constructor <;> simpa only [hbooks, htoken]

variable (hT : env.tokens.Exact) (hN : env.tokens.RejectsNegative)
include hT

theorem Covered.collect (hself : env.auth env.self = false) (hburn : BurnBounded w.store)
    {trader : Address} {tradeAmount fee : Int} {tradeAsset : Asset} (h : Covered env.tokens env.self w)
    (hc : collectFeeWithRecovery env trader token tradeAmount tradeAsset w = (.ok fee, w')) :
    Covered env.tokens env.self w' := by
  obtain ⟨hauth, ⟨-, hbooks, htoken⟩ | ⟨burn, referral, share, -, -, -, -, hburn, hreferral, hshare, hsum,
    -, hbooks, hbalance⟩⟩ := collect_spec hT hburn.feeConfig hc
  · exact h.of_same hbooks htoken
  have htrader : env.self ≠ trader := by rintro rfl; simp [hself] at hauth
  -- a pool that saturates grows by no more than the share
  have hpool : ∀ k, 0 ≤ w'.store.books.pool k ∧ w'.store.books.pool k ≤
      w.store.books.pool k + if k = token then share else 0 := by
    intro k
    have hk := h.pool k
    rw [hbooks, Books.setTreasury_pool, Books.addPool_pool]
    split
    · rename_i hk'
      rw [← hk'.2, if_pos rfl]
      exact saturatingAdd_bounds hk hshare
    · exact ⟨hk, by split <;> omega⟩
  constructor
  · intro k
    have := h.treasury k
    rw [hbooks, Books.setTreasury_treasury, Books.addPool_treasury]
    split
    · rename_i hk; rw [← hk]; omega
    · exact this
  · intro k
    rw [hbooks, Books.setTreasury_insurance, Books.addPool_insurance]
    exact h.insurance k
  · exact fun k => (hpool k).1
  · rw [hbooks, Books.setTreasury_pendingFees, Books.addPool_pendingFees]
    exact h.pending
  · intro k
    have hk := h.covered k
    have hpk := (hpool k).2
    rw [hbalance]
    rw [hbooks] at hpk ⊢
    simp [htrader] at hpk ⊢
    by_cases hkt : k = token
    · subst hkt
      simp at hpk ⊢
      split <;> omega
    · simp [hkt] at hpk ⊢
      omega

theorem Covered.collectAll (hself : env.auth env.self = false) {items : List BatchFeeInput}
    {fees : List Int} (hburn : BurnBounded w.store) (h : Covered env.tokens env.self w)
    (hc : collectAll env items w = (.ok fees, w')) : Covered env.tokens env.self w' := by
  induction items generalizing w fees with
  | nil =>
    obtain ⟨-, rfl⟩ := Tx.pure_ok.mp hc
    exact h
  | cons item items ih =>
    simp only [FeeCollector.collectAll, Tx.bind_ok, Tx.pure_ok] at hc
    obtain ⟨fee, w₁, hitem, rest, w₂, hrest, -, rfl⟩ := hc
    exact ih (hburn.caches (Tx.Within.of_run inferInstance hitem)) (h.collect hT hself hburn hitem) hrest

theorem Covered.deposit (hself : env.auth env.self = false) {src : Address} {amount : Int}
    (h : Covered env.tokens env.self w)
    (hd : depositInsuranceFund env src token amount w = (.ok u, w')) : Covered env.tokens env.self w' := by
  obtain ⟨hauth, hpos, ht, hbooks⟩ := depositInsuranceFund_ok hd
  have hsrc : env.self ≠ src := by rintro rfl; simp [hself] at hauth
  have hbalance : ∀ k, env.tokens.balance k env.self w'.token =
      env.tokens.balance k env.self w.token + if k = token then amount else 0 := by
    intro k
    rw [hT.transfer ht]
    simp [hsrc]
  obtain ⟨h1, h2, h3, h4, h5⟩ := h
  constructor
  · rwa [hbooks]
  · intro k
    have := h2 k
    rw [hbooks, Books.setInsurance_insurance]
    split
    · rename_i hk; rw [← hk]; omega
    · exact this
  · rwa [hbooks]
  · rwa [hbooks]
  · intro k
    have := h5 k
    rw [hbooks, hbalance]
    simp
    by_cases hk : k = token
    · subst hk; simp; omega
    · simp [hk]; omega

omit hT in
theorem Covered.snapshot {auth : Auth} {caller : Address} (h : Covered env.tokens env.self w)
    (hs : triggerRevenueShareSnapshot auth caller token w = (.ok u, w')) :
    Covered env.tokens env.self w' := by
  obtain ⟨htoken, hbooks | hbooks⟩ := triggerRevenueShareSnapshot_ok hs
  · exact h.of_same hbooks htoken
  have hpool : ∀ k, w'.store.books.pool k = if k = token then 0 else w.store.books.pool k := by
    intro k
    rw [hbooks]
    simp only [Books.pool, Store.lookup_erase_eq]
    split <;> rfl
  obtain ⟨h1, h2, h3, h4, h5⟩ := h
  refine ⟨by rwa [hbooks], by rwa [hbooks], fun k => ?_, by rwa [hbooks], fun k => ?_⟩
  · have := h3 k
    rw [hpool]
    split <;> omega
  · have h3 := h3 k
    have h5 := h5 k
    rw [hpool, htoken]
    have ht : w'.store.books.treasury k = w.store.books.treasury k := by rw [hbooks]; rfl
    have hi : w'.store.books.insurance k = w.store.books.insurance k := by rw [hbooks]; rfl
    split <;> omega

end Operations

/-! ## Payouts -/

/-- The payouts of one ledger: the other ledgers stay as they are, this one does not get negative, and the
tokens that leave are at most what it is debited with. -/
structure Draws (env : Env τ) (account : Account) (w w' : World τ) : Prop where
  others : ∀ k a, a ≠ account → w'.store.books.amount k a = w.store.books.amount k a
  pendingFees : w'.store.books.pendingFees = w.store.books.pendingFees
  nonneg : ∀ k, 0 ≤ w.store.books.amount k account → 0 ≤ w'.store.books.amount k account
  drawn : ∀ k, held env w k - held env w' k ≤ w.store.books.amount k account - w'.store.books.amount k account

/-- The ledger that a payout is paid from. -/
def Call.account : Call → Option Account
  | .withdrawTreasuryFees .. | .distributeWaterfall .. => some .treasury
  | .payoutInsurance .. => some .insurance
  | .claimFees .. => some .pendingFees
  | _ => none

section Payouts

variable {env : Env τ} {w w' : World τ} {token : Address} {account : Account} {u : Unit}

/-- A debit of `out`, of which the contract pays `kept` to itself. -/
theorem Draws.of_debit {out kept : Int} (hkept : 0 ≤ kept)
    (hpending : w'.store.books.pendingFees = w.store.books.pendingFees)
    (hout : out ≤ w.store.books.amount token account)
    (hamount : ∀ k a, w'.store.books.amount k a =
      if k = token ∧ a = account then w.store.books.amount token account - out
      else w.store.books.amount k a)
    (hbalance : ∀ k, held env w' k = held env w k - (if k = token then out else 0) +
      if k = token then kept else 0) : Draws env account w w' where
  others k a ha := by rw [hamount, if_neg fun h => ha h.2]
  pendingFees := hpending
  nonneg k hk := by
    rw [hamount]
    split <;> omega
  drawn k := by
    rw [hamount, hbalance]
    by_cases hk : k = token
    · simp [hk]
      omega
    · simp only [hk, false_and, if_false]
      omega

theorem Covered.draws (h : Covered env.tokens env.self w) (hd : Draws env account w w') :
    Covered env.tokens env.self w' := by
  have hnonneg : ∀ k a, a ≠ .pendingFees → 0 ≤ w'.store.books.amount k a := by
    intro k a ha
    have hk : 0 ≤ w.store.books.amount k a := by
      cases a with
      | treasury => exact h.treasury k
      | insurance => exact h.insurance k
      | revenueShare => exact h.pool k
      | pendingFees => exact absurd rfl ha
    by_cases hacc : a = account
    · rw [hacc] at hk ⊢
      exact hd.nonneg k hk
    · rw [hd.others k a hacc]
      exact hk
  refine ⟨fun k => hnonneg k .treasury (by simp), fun k => hnonneg k .insurance (by simp),
    fun k => hnonneg k .revenueShare (by simp), by rw [hd.pendingFees]; exact h.pending, fun k => ?_⟩
  have hcovered : w.store.books.amount k .treasury + w.store.books.amount k .insurance +
    w.store.books.amount k .revenueShare ≤ held env w k := h.covered k
  have hdrawn := hd.drawn k
  have hothers := hd.others k
  change w'.store.books.amount k .treasury + w'.store.books.amount k .insurance +
    w'.store.books.amount k .revenueShare ≤ held env w' k
  cases account with
  | treasury =>
    have h1 := hothers .insurance (by simp)
    have h2 := hothers .revenueShare (by simp)
    omega
  | insurance =>
    have h1 := hothers .treasury (by simp)
    have h2 := hothers .revenueShare (by simp)
    omega
  | revenueShare =>
    have h1 := hothers .treasury (by simp)
    have h2 := hothers .insurance (by simp)
    omega
  | pendingFees =>
    have h1 := hothers .treasury (by simp)
    have h2 := hothers .insurance (by simp)
    have h3 := hothers .revenueShare (by simp)
    have h4 : w'.store.books.amount k .pendingFees = w.store.books.amount k .pendingFees := by
      simp only [Books.amount, Books.pendingTotal, hd.pendingFees]
    omega

/-- A transfer out of the contract: what it holds of the token falls by the amount, or stays if the
contract pays itself. -/
theorem held_of_transfer (hT : env.tokens.Exact) {recipient : Address} {amount : Int}
    (h : env.tokens.transfer token env.self recipient amount w.token = .ok w'.token) (k : Address) :
    held env w' k = held env w k - (if k = token then amount else 0) +
      if k = token then (if recipient = env.self then amount else 0) else 0 := by
  unfold held
  rw [hT.transfer h]
  by_cases hk : k = token
  · simp [hk, eq_comm]
  · simp [hk]

variable (env) (hT : env.tokens.Exact) (hN : env.tokens.RejectsNegative)
include hT hN

/-- A payout draws on its own ledger. -/
theorem invoke_draws {c : Call} (h : Covered env.tokens env.self w) (hc : c.account = some account)
    (hr : invoke env c w = (.ok u, w')) : Draws env account w w' := by
  cases c
  case withdrawTreasuryFees recipient token amount =>
    cases hc
    obtain ⟨hle, ht, hbooks⟩ := withdrawTreasuryFees_ok hr
    refine Draws.of_debit ?_ (by rw [hbooks]; rfl) hle (fun k a => by rw [hbooks]; simp; rfl)
      (held_of_transfer hT ht)
    split
    · exact hN.transfer ht
    · exact Int.le_refl 0
  case payoutInsurance caller recipient token amount claimId =>
    cases hc
    obtain ⟨hle, ht, hbooks⟩ := payoutInsurance_ok hr
    refine Draws.of_debit ?_ (by rw [hbooks]; rfl) hle (fun k a => by rw [hbooks]; simp; rfl)
      (held_of_transfer hT ht)
    split
    · exact hN.transfer ht
    · exact Int.le_refl 0
  case distributeWaterfall token totalAmount =>
    cases hc
    obtain ⟨results, hr⟩ := Tx.void_ok.mp hr
    obtain ⟨-, hle, -, hpos, hsum, hbooks, hbalance⟩ := distributeWaterfall_ok hT hN hr
    refine Draws.of_debit (allocatedTo_nonneg env.self hpos) (by rw [hbooks]; rfl)
      (Int.le_trans hsum hle) (fun k a => by rw [hbooks]; simp; rfl) fun k => ?_
    simpa [held] using hbalance k env.self
  case claimFees provider token =>
    cases hc
    obtain ⟨claimed, hr⟩ := Tx.void_ok.mp hr
    have hsame := claimFees_of_nothing (Int.le_of_eq (Books.pending_eq_zero h.pending provider token)) hr
    rw [hsame]
    exact ⟨fun _ _ _ => rfl, rfl, fun _ h => h, fun _ => by omega⟩
  all_goals cases hc

end Payouts

/-! ## Runs -/

/-- What holds in every state of a run. -/
structure Sound (T : Tokens τ) (contract : Address) (w : World τ) : Prop where
  covered : Covered T contract w
  burnBounded : BurnBounded w.store

section Runs

variable {env : Env τ} {w w' : World τ} {u : Unit} {c : Call}

theorem BurnBounded.invoke (h : BurnBounded w.store) (hr : invoke env c w = (.ok u, w')) :
    BurnBounded w'.store := by
  cases hc : c.writeConfig w.store.config with
  | none => exact h.caches ((invoke_caches env (Call.feeConfig_notMem hc)).of_run hr)
  | some config =>
    obtain ⟨rfl, hrate⟩ := invoke_config hc hr
    refine ⟨?_, h.cached⟩
    cases c
    case setBurnRate rate => cases hc; exact hrate rate rfl
    all_goals first | (cases hc; exact h.stored) | cases hc

variable (env) (hT : env.tokens.Exact) (hN : env.tokens.RejectsNegative)
include hT hN

theorem Covered.invoke (hself : env.auth env.self = false) (hburn : BurnBounded w.store)
    (h : Covered env.tokens env.self w) (hr : invoke env c w = (.ok u, w')) :
    Covered env.tokens env.self w' := by
  cases hacc : c.account with
  | some account => exact h.draws (invoke_draws env hT hN h hacc hr)
  | none =>
    by_cases hquiet : .books ∉ c.footprint ∧ .token ∉ c.footprint
    · have hsame := (invoke_writes env c).of_run hr
      exact h.of_same (hsame.books hquiet.1) (hsame.token hquiet.2)
    cases c
    case collectFee =>
      obtain ⟨fee, hr⟩ := Tx.void_ok.mp hr
      exact h.collect hT hself hburn hr
    case batchCollectFees =>
      obtain ⟨fees, hr⟩ := Tx.void_ok.mp hr
      simp only [batchCollectFees, Tx.bind_ok, Tx.failIf_ok] at hr
      obtain ⟨_, _, ⟨-, rfl⟩, _, w₁, hload, hall⟩ := hr
      obtain ⟨-, cache, rfl⟩ := loadTxFeeConfig_ok hload
      exact Covered.collectAll hT hself (hburn.caches (Tx.Within.of_run inferInstance hload))
        (h.of_same rfl rfl) hall
    case retryFailedFeeCollection =>
      obtain ⟨fee, hr⟩ := Tx.void_ok.mp hr
      obtain ⟨failed, records, w₁, -, hcollect, hbooks, htoken⟩ := retry_ok hr
      refine (Covered.collect hT hself ?_ ?_ hcollect).of_same hbooks htoken
      · exact ⟨hburn.stored, hburn.cached⟩
      · exact h.of_same rfl rfl
    case depositInsuranceFund =>
      exact h.deposit hT hself hr
    case triggerRevenueShareSnapshot =>
      exact h.snapshot hr
    all_goals first | (cases hacc; done) | exact absurd (by simp [Call.footprint]) hquiet

end Runs

section Reachable

variable {T : Tokens τ} {contract : Address} {w w' : World τ}

theorem Sound.deployed (hT : T.Exact) (ledger : Ledger) (token : τ) :
    Sound T contract (World.deployed ledger token) where
  covered := by
    refine ⟨fun _ => Int.le_refl 0, fun _ => Int.le_refl 0, fun _ => Int.le_refl 0, Store.all_empty _, fun k => ?_⟩
    exact hT.nonneg k contract token
  burnBounded := ⟨show DEFAULT_BURN_RATE_BPS ≤ MAX_BURN_RATE_BPS by decide, Store.all_empty _⟩

theorem Sound.step (hT : T.Exact) (hN : T.RejectsNegative) {ev : Event τ} (h : Sound T contract w)
    (hs : Step T contract w ev w') : Sound T contract w' := by
  obtain ⟨hallowed, rfl⟩ := hs
  cases ev with
  | call auth oracle c =>
    rcases Tx.exec_cases (FeeCollector.invoke ⟨T, oracle, contract, auth⟩ c) w with ⟨u, hr⟩ | hsame
    · exact ⟨h.covered.invoke ⟨T, oracle, contract, auth⟩ hT hN hallowed h.burnBounded hr, h.burnBounded.invoke hr⟩
    · change Sound T contract (Tx.exec _ w)
      rw [hsame]
      exact h
  | advance => exact ⟨⟨h.covered.1, h.covered.2, h.covered.3, h.covered.4, h.covered.5⟩, h.burnBounded⟩
  | external =>
    refine ⟨⟨h.covered.1, h.covered.2, h.covered.3, h.covered.4, fun k => ?_⟩, h.burnBounded⟩
    exact Int.le_trans (h.covered.5 k) (hallowed k)
  | evict =>
    exact ⟨⟨h.covered.1, h.covered.2, h.covered.3, h.covered.4, h.covered.5⟩,
      ⟨h.burnBounded.1, h.burnBounded.2.erase⟩⟩

theorem Reachable.sound (hT : T.Exact) (hN : T.RejectsNegative) (h : Reachable T contract w) :
    Sound T contract w := by
  obtain ⟨ledger, token, h⟩ := h
  exact h.invariant (Sound.deployed hT ledger token) fun _ _ _ hI hs => hI.step hT hN hs

/-- In every reachable state no ledger is negative and the contract holds what they record together, in
every token; and a payout is paid by its own ledger: no other one changes, and the contract loses no more
tokens than that ledger does. -/
theorem solvent (hT : T.Exact) (hN : T.RejectsNegative) (h : Reachable T contract w) :
    (∀ token, (∀ account, 0 ≤ w.store.books.amount token account) ∧
      (∀ provider, 0 ≤ w.store.books.pending provider token) ∧
      w.store.books.owed token ≤ T.balance token contract w.token) ∧
    ∀ auth oracle c account, c.account = some account → ∀ token,
      (∀ other, other ≠ account →
        (next T contract w (.call auth oracle c)).store.books.amount token other = w.store.books.amount token other) ∧
      T.balance token contract w.token -
          T.balance token contract (next T contract w (.call auth oracle c)).token ≤
        w.store.books.amount token account -
          (next T contract w (.call auth oracle c)).store.books.amount token account := by
  obtain ⟨hcovered, -⟩ := h.sound hT hN
  refine ⟨fun token => ⟨fun account => ?_, fun provider => ?_, ?_⟩, fun auth oracle c account hc token => ?_⟩
  · cases account with
    | treasury => exact hcovered.treasury token
    | insurance => exact hcovered.insurance token
    | revenueShare => exact hcovered.pool token
    | pendingFees => exact Int.le_of_eq (Books.pendingTotal_eq_zero hcovered.pending token).symm
  · exact Int.le_of_eq (Books.pending_eq_zero hcovered.pending provider token).symm
  · have hpending : w.store.books.amount token .pendingFees = 0 :=
      Books.pendingTotal_eq_zero hcovered.pending token
    rw [Books.owed, hpending, Int.add_zero]
    exact hcovered.covered token
  · rcases Tx.exec_cases (FeeCollector.invoke ⟨T, oracle, contract, auth⟩ c) w with ⟨u, hr⟩ | hsame
    · have hd := invoke_draws ⟨T, oracle, contract, auth⟩ hT hN hcovered hc hr
      exact ⟨fun other hother => hd.others token other hother, hd.drawn token⟩
    · have hnext : next T contract w (.call auth oracle c) = w := hsame
      rw [hnext]
      exact ⟨fun _ _ => rfl, Int.le_of_eq (by omega)⟩

end Reachable

/-- A fee of which a part went to the pool, and a withdrawal that is ready to be paid. -/
theorem Sample.withdrawal_is_covered :
    let w := deployedRun [trade 1000000, trade 1000000, call (.queueWithdrawal bob usdc 1000), .advance ⟨86400, 1⟩]
    0 < w.store.books.amount usdc .revenueShare ∧
      w.store.books.owed usdc ≤ Balances.tokens.balance usdc collector w.token := by
  refine ⟨by decide +kernel, ((solvent Balances.tokens_exact Balances.tokens_rejectsNegative ?_).1 usdc).2.2⟩
  exact reachable_run (by decide +kernel)

end CallStake.FeeCollector
