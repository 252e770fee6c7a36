import CallStake.StakeVault.Slash

/-!
# The reward vault (`reward_vault`)

Rewards are deposited in buckets, each for one provider in one asset, and claimed in batches.

* `claimBucket`: one round of the claim loop; a bucket that is claimed, unknown, foreign or of an
  unsupported asset is skipped.
* `payAssets`: one transfer per asset with a positive total.
-/

namespace CallStake.StakeVault

namespace RewardVault

variable {τ : Type}

def isSupported (r : RewardStorage) (asset : Address) : Bool := asset ∈ r.supportedAssets

/-- `add_supported_asset`: adding an asset again changes nothing. -/
def RewardStorage.addSupportedAsset (r : RewardStorage) (asset : Address) : RewardStorage :=
  if isSupported r asset then r else { r with supportedAssets := r.supportedAssets ++ [asset] }

/-- `get_provider_reward_balance`. -/
def getProviderRewardBalance (r : RewardStorage) (provider asset : Address) : Int :=
  (r.providerAssetBalance.lookup (provider, asset)).getD 0

/-- `get_asset_total_deposited`. -/
def getAssetTotalDeposited (r : RewardStorage) (asset : Address) : Int := (r.assetTotalDeposited.lookup asset).getD 0

/-- The storage after a bucket was deposited. -/
def RewardStorage.deposited (r : RewardStorage) (provider asset : Address) (amount : Int)
    (epoch : Nat) : RewardStorage :=
  { r with
    bucketCounter := u64Add r.bucketCounter 1
    bucket := r.bucket.insert r.bucketCounter
      { bucketId := r.bucketCounter, provider, asset, amount, epoch }
    assetTotalDeposited := r.assetTotalDeposited.insert asset
      (saturatingAdd (getAssetTotalDeposited r asset) amount)
    providerAssetBalance := r.providerAssetBalance.insert (provider, asset)
      (saturatingAdd (getProviderRewardBalance r provider asset) amount) }

/-- `total` added to the entry of `asset`, which is appended if there is none. -/
def accumulate (totals : List (Address × Int)) (asset : Address) (amount : Int) :
    List (Address × Int) :=
  match totals with
  | [] => [(asset, amount)]
  | (a, cur) :: rest =>
    if a = asset then (a, saturatingAdd cur amount) :: rest
    else (a, cur) :: accumulate rest asset amount

/-- One round of the claim loop, on the storage and the totals per asset. -/
def claimBucket (provider : Address) (st : RewardStorage × List (Address × Int)) (bid : Nat) :
    RewardStorage × List (Address × Int) :=
  if (st.1.claimed.lookup (provider, bid)).isSome then st
  else match st.1.bucket.lookup bid with
    | none => st
    | some bucket =>
      if bucket.provider ≠ provider then st
      else if isSupported st.1 bucket.asset = false then st
      else
        ({ st.1 with
          claimed := st.1.claimed.insert (provider, bid) true
          providerAssetBalance := st.1.providerAssetBalance.insert (provider, bucket.asset)
            (saturatingSub (getProviderRewardBalance st.1 provider bucket.asset) bucket.amount) },
          accumulate st.2 bucket.asset bucket.amount)

/-- The open buckets of the provider are marked, and added up by asset. -/
def claimBuckets (provider : Address) (r : RewardStorage) (bucketIds : List Nat) :
    RewardStorage × List (Address × Int) :=
  bucketIds.foldl (claimBucket provider) (r, [])

/-- The payout loop: a total that is not positive is skipped, a failing token traps. -/
def payAssets (env : Env τ) (provider : Address) :
    List (Address × Int) → V τ (List (Address × Int))
  | [] => pure []
  | (asset, total) :: rest =>
    if total ≤ 0 then payAssets env provider rest
    else do
      transfer env asset env.self provider total
      let results ← payAssets env provider rest
      return (asset, total) :: results

/-! ## Entrypoints -/

def addRewardAsset (env : Env τ) (asset : Address) : V τ Unit := do
  requireAdmin env
  save fun s => { s with reward := RewardStorage.addSupportedAsset s.reward asset }

/-- A new bucket, counted in the totals of its asset and of its provider. -/
def depositReward (env : Env τ) (depositor provider asset : Address) (amount : Int) (epoch : Nat) :
    V τ Nat := do
  requireAuth env.auth depositor
  requireNotPaused
  let supported ← load fun s => isSupported s.reward asset
  Tx.failIf (supported = false) (err .unauthorized)
  Tx.failIf (amount ≤ 0) (err .invalidAmount)
  let bucketId ← load (·.reward.bucketCounter)
  save fun s => { s with reward := RewardStorage.deposited s.reward provider asset amount epoch }
  transfer env asset depositor env.self amount
  return bucketId

/-- `batch_claim_rewards`: every asset is paid at once. -/
def batchClaimRewards (env : Env τ) (provider : Address) (bucketIds : List Nat) :
    V τ (List (Address × Int)) := do
  requireAuth env.auth provider
  requireNotPaused
  Tx.failIf (bucketIds.length = 0 ∨ MAX_REWARD_BATCH < bucketIds.length) (err .batchSizeInvalid)
  let reward ← load (·.reward)
  let claimed := claimBuckets provider reward bucketIds
  save fun s => { s with reward := claimed.1 }
  payAssets env provider claimed.2

/-! ## What a deposit or a claim did -/

section Run

variable {env : Env τ} {w w' : World τ} {provider asset depositor : Address} {amount : Int}
  {epoch n : Nat} {u : Unit}

theorem addRewardAsset_ok (h : addRewardAsset env asset w = (.ok u, w')) :
    w' = { w with store.reward := RewardStorage.addSupportedAsset w.store.reward asset } := by
  simp [addRewardAsset] at h
  obtain ⟨-, -, -, rfl⟩ := h
  rfl

theorem depositReward_ok :
    depositReward env depositor provider asset amount epoch w = (.ok n, w') ↔
      env.auth depositor = true ∧ w.store.config.paused = false ∧
      isSupported w.store.reward asset = true ∧ 0 < amount ∧
      (∃ t, env.tokens.transfer asset depositor env.self amount w.token = .ok t ∧
        { w with
          store.reward := RewardStorage.deposited w.store.reward provider asset amount epoch
          token := t
          log := .transfer asset depositor env.self amount :: w.log } = w') ∧
      w.store.reward.bucketCounter = n := by
  simp [depositReward, and_assoc]

/-- The payout loop pays each positive total in one transfer, in their order, and does nothing else. -/
theorem payAssets_ok {totals results : List (Address × Int)}
    (h : payAssets env provider totals w = (.ok results, w')) :
    w'.store = w.store ∧ results = totals.filter (fun p => 0 < p.2) ∧
      w'.log = (results.map fun p => .transfer p.1 env.self provider p.2).reverse ++ w.log := by
  induction totals generalizing w results with
  | nil =>
    obtain ⟨rfl, rfl⟩ := Tx.pure_ok.mp h
    exact ⟨rfl, rfl, rfl⟩
  | cons e rest ih =>
    obtain ⟨a, total⟩ := e
    by_cases h0 : total ≤ 0
    · rw [payAssets, if_pos h0] at h
      obtain ⟨h1, h2, h3⟩ := ih h
      exact ⟨h1, by rw [h2, List.filter_cons_of_neg (by simpa using h0)], h3⟩
    · rw [payAssets, if_neg h0] at h
      simp only [Tx.bind_ok, transfer_ok, Tx.pure_ok] at h
      obtain ⟨_, _, ⟨t, -, rfl⟩, rs, w₁, hr, rfl, rfl⟩ := h
      obtain ⟨h1, h2, h3⟩ := ih hr
      refine ⟨h1, ?_, ?_⟩
      · rw [h2, List.filter_cons_of_pos (by simpa using h0)]
      · rw [h3]
        simp

theorem batchClaimRewards_ok {bucketIds : List Nat} {results : List (Address × Int)}
    (h : batchClaimRewards env provider bucketIds w = (.ok results, w')) :
    env.auth provider = true ∧
      payAssets env provider (claimBuckets provider w.store.reward bucketIds).2
        { w with store.reward := (claimBuckets provider w.store.reward bucketIds).1 } =
        (.ok results, w') := by
  simp [batchClaimRewards, and_assoc] at h
  obtain ⟨ha, -, -, -, hp⟩ := h
  exact ⟨ha, hp⟩

end Run

end RewardVault

end CallStake.StakeVault
