import CallStake.Governance.Admin

/-!
# The governance token (`token`, `distribution`)

Balances and stakes, and the ways in which the initial supply reaches its holders: at once, by vesting,
or as liquidity rewards.

* `addBalance`, `subtractBalance`, `addStakedBalance`, `subtractStakedBalance`: the only writes of the
  balances; each also lists the holder (`trackHolder`).
* The `*_ok` lemmas say what an operation that returned did to the token.
-/

namespace CallStake.Governance

open Tx

/-! ## Balances -/

def balanceOf (t : TokenStorage) (holder : Address) : Int := (t.balances.lookup holder).getD 0

def stakedOf (t : TokenStorage) (holder : Address) : Int := (t.stakedBalances.lookup holder).getD 0

/-- The list of holders with `holder` in it. -/
def TokenStorage.track (t : TokenStorage) (holder : Address) : TokenStorage :=
  if holder ∈ t.holders then t else { t with holders := t.holders ++ [holder] }

def trackHolder (holder : Address) : G Unit := save fun s => { s with token := s.token.track holder }

/-- The supply, zero before the initialization. -/
def TokenStorage.supply (t : TokenStorage) : Int := (t.metadata.map (·.totalSupply)).getD 0

/-- The balance of `holder` becomes `amount`. -/
def TokenStorage.setBalance (t : TokenStorage) (holder : Address) (amount : Int) : TokenStorage :=
  ({ t with balances := t.balances.insert holder amount } : TokenStorage).track holder

/-- The stake of `holder` becomes `amount`. -/
def TokenStorage.setStaked (t : TokenStorage) (holder : Address) (amount : Int) : TokenStorage :=
  ({ t with stakedBalances := t.stakedBalances.insert holder amount } : TokenStorage).track holder

section Track

variable (t : TokenStorage) (holder : Address) (amount : Int)

@[simp] theorem track_metadata : (t.track holder).metadata = t.metadata := by
  unfold TokenStorage.track; split <;> rfl

@[simp] theorem track_balances : (t.track holder).balances = t.balances := by
  unfold TokenStorage.track; split <;> rfl

@[simp] theorem track_stakedBalances : (t.track holder).stakedBalances = t.stakedBalances := by
  unfold TokenStorage.track; split <;> rfl

@[simp] theorem track_vestingSchedules :
    (t.track holder).vestingSchedules = t.vestingSchedules := by
  unfold TokenStorage.track; split <;> rfl

@[simp] theorem track_distribution : (t.track holder).distribution = t.distribution := by
  unfold TokenStorage.track; split <;> rfl

@[simp] theorem track_pendingRewards : (t.track holder).pendingRewards = t.pendingRewards := by
  unfold TokenStorage.track; split <;> rfl

@[simp] theorem setBalance_metadata : (t.setBalance holder amount).metadata = t.metadata := by
  simp [TokenStorage.setBalance]

@[simp] theorem setStaked_metadata : (t.setStaked holder amount).metadata = t.metadata := by
  simp [TokenStorage.setStaked]

theorem setBalance_stakedBalances :
    (t.setBalance holder amount).stakedBalances = t.stakedBalances := by
  simp [TokenStorage.setBalance]

theorem setStaked_stakedBalances :
    (t.setStaked holder amount).stakedBalances = t.stakedBalances.insert holder amount := by
  simp [TokenStorage.setStaked]

end Track

def addBalance (holder : Address) (amount : Int) : G Unit := do
  failIf (amount ≤ 0) (err .invalidAmount)
  let current ← load fun s => balanceOf s.token holder
  let sum ← lift (checkedAddR current amount)
  save fun s => { s with token := s.token.setBalance holder sum }

def subtractBalance (holder : Address) (amount : Int) : G Unit := do
  failIf (amount ≤ 0) (err .invalidAmount)
  let current ← load fun s => balanceOf s.token holder
  failIf (current < amount) (err .insufficientBalance)
  let difference ← lift (checkedSubR current amount)
  save fun s => { s with token := s.token.setBalance holder difference }

def addStakedBalance (holder : Address) (amount : Int) : G Unit := do
  failIf (amount ≤ 0) (err .invalidAmount)
  let current ← load fun s => stakedOf s.token holder
  let sum ← lift (checkedAddR current amount)
  save fun s => { s with token := s.token.setStaked holder sum }

def subtractStakedBalance (holder : Address) (amount : Int) : G Unit := do
  failIf (amount ≤ 0) (err .invalidAmount)
  let current ← load fun s => stakedOf s.token holder
  failIf (current < amount) (err .insufficientStakedBalance)
  let difference ← lift (checkedSubR current amount)
  save fun s => { s with token := s.token.setStaked holder difference }

/-- The world with another balance of `holder`. -/
def World.setBalance (w : World) (holder : Address) (amount : Int) : World :=
  { w with store.token := w.store.token.setBalance holder amount }

/-- The world with another stake of `holder`. -/
def World.setStaked (w : World) (holder : Address) (amount : Int) : World :=
  { w with store.token := w.store.token.setStaked holder amount }

section Run

variable {w w' : World} {u : Unit} {holder : Address} {amount : Int} {e : Fault GovernanceError}

theorem addBalance_ok : addBalance holder amount w = (.ok u, w') ↔
    0 < amount ∧ InRange (balanceOf w.store.token holder + amount) ∧
      w.setBalance holder (balanceOf w.store.token holder + amount) = w' := by
  simp [addBalance, InRange, World.setBalance]

theorem subtractBalance_ok : subtractBalance holder amount w = (.ok u, w') ↔
    0 < amount ∧ amount ≤ balanceOf w.store.token holder ∧
      InRange (balanceOf w.store.token holder - amount) ∧
      w.setBalance holder (balanceOf w.store.token holder - amount) = w' := by
  simp [subtractBalance, InRange, World.setBalance]

theorem addStakedBalance_ok : addStakedBalance holder amount w = (.ok u, w') ↔
    0 < amount ∧ InRange (stakedOf w.store.token holder + amount) ∧
      w.setStaked holder (stakedOf w.store.token holder + amount) = w' := by
  simp [addStakedBalance, InRange, World.setStaked]

theorem subtractStakedBalance_ok : subtractStakedBalance holder amount w = (.ok u, w') ↔
    0 < amount ∧ amount ≤ stakedOf w.store.token holder ∧
      InRange (stakedOf w.store.token holder - amount) ∧
      w.setStaked holder (stakedOf w.store.token holder - amount) = w' := by
  simp [subtractStakedBalance, InRange, World.setStaked]

/-- A credit that fails writes nothing. -/
theorem addBalance_error (h : addBalance holder amount w = (.error e, w')) :
    w' = w ∧ (0 < amount → ¬ InRange (balanceOf w.store.token holder + amount)) := by
  simp [addBalance] at h
  rcases h with ⟨h0, -, rfl⟩ | ⟨-, rfl, hsum⟩
  · exact ⟨rfl, fun hpos => absurd hpos (Int.not_lt.mpr h0)⟩
  · refine ⟨rfl, fun _ hr => ?_⟩
    rw [checkedAddR_ok.mpr ⟨hr.1, hr.2, rfl⟩] at hsum
    cases hsum

end Run

/-! ## Stakes -/

namespace Token

def stake (user : Address) (amount : Int) : G Unit := do
  requireInitialized
  failIf (amount ≤ 0) (err .invalidAmount)
  subtractBalance user amount
  addStakedBalance user amount

def unstake (user : Address) (amount : Int) : G Unit := do
  requireInitialized
  failIf (amount ≤ 0) (err .invalidAmount)
  let locks ← load fun s => (s.token.voteLocks.lookup user).getD 0
  failIf (0 < locks) (err .activeVoteLock)
  subtractStakedBalance user amount
  addBalance user amount

end Token

def stake (auth : Auth) (user : Address) (amount : Int) : G Unit := do
  requireInitialized
  requireNotPaused
  requireAuth auth user
  Token.stake user amount

def unstake (auth : Auth) (user : Address) (amount : Int) : G Unit := do
  requireInitialized
  requireNotPaused
  requireAuth auth user
  Token.unstake user amount

def setVoteLock (auth : Auth) (admin holder : Address) (activeVotes : Nat) : G Unit := do
  requireAdmin auth admin
  requireInitialized
  save fun s => { s with token.voteLocks := s.token.voteLocks.insert holder activeVotes }
  trackHolder holder

/-! ## Distribution -/

def TEAM_BPS : Int := 2000
def EARLY_INVESTOR_BPS : Int := 1500
def COMMUNITY_REWARDS_BPS : Int := 3000
def LIQUIDITY_MINING_BPS : Int := 2000
def TREASURY_BPS : Int := 1000
def PUBLIC_SALE_BPS : Int := 500
def YEAR_SECONDS : Nat := 365 * 24 * 60 * 60
def TEAM_VESTING_DURATION : Nat := 4 * YEAR_SECONDS
def TEAM_CLIFF_DURATION : Nat := YEAR_SECONDS
def EARLY_INVESTOR_VESTING_DURATION : Nat := 2 * YEAR_SECONDS
def DEFAULT_LIQUIDITY_REWARD_BPS : Nat := 100
def DEFAULT_MIN_CLAIM_THRESHOLD : Int := 100

/-- The part of the supply that `bps` basis points are. -/
def shareOf (totalSupply bps : Int) : Res Int := do
  let product ← checkedMulR totalSupply bps
  checkedDivR product BPS_DENOMINATOR

/-- The six parts. A supply that they do not add up to is refused. -/
def createAllocation (totalSupply : Int) : Res DistributionAllocation := do
  let team ← shareOf totalSupply TEAM_BPS
  let earlyInvestors ← shareOf totalSupply EARLY_INVESTOR_BPS
  let communityRewards ← shareOf totalSupply COMMUNITY_REWARDS_BPS
  let liquidityMining ← shareOf totalSupply LIQUIDITY_MINING_BPS
  let treasury ← shareOf totalSupply TREASURY_BPS
  let publicSale ← shareOf totalSupply PUBLIC_SALE_BPS
  let vested ← checkedAddR team earlyInvestors
  let earned ← checkedAddR communityRewards liquidityMining
  let sold ← checkedAddR treasury publicSale
  let rest ← checkedAddR earned sold
  let total ← checkedAddR vested rest
  Res.failIf (total ≠ totalSupply) .invalidSupply
  return { team, earlyInvestors, communityRewards, liquidityMining, treasury, publicSale }

theorem createAllocation_ok {totalSupply : Int} {a : DistributionAllocation} (hpos : 0 < totalSupply)
    (h : createAllocation totalSupply = .ok a) :
    a.team + a.earlyInvestors + a.communityRewards + a.liquidityMining + a.treasury + a.publicSale =
      totalSupply ∧ 0 ≤ a.liquidityMining ∧ totalSupply ≤ i128Max := by
  simp only [createAllocation, Res.bind_ok, checkedAddR_ok, Res.failIf_ok, Res.pure_ok] at h
  obtain ⟨team, -, investors, -, community, -, mining, hmining, treasury, -, sale, -, _, ⟨-, -, rfl⟩, _,
    ⟨-, -, rfl⟩, _, ⟨-, -, rfl⟩, _, ⟨-, -, rfl⟩, _, ⟨-, hmax, rfl⟩, _, htotal, rfl⟩ := h
  rw [not_not] at htotal
  refine ⟨by simp only; omega, ?_, by omega⟩
  simp only [shareOf, Res.bind_ok, checkedMulR_ok] at hmining
  obtain ⟨_, ⟨-, -, rfl⟩, hdiv⟩ := hmining
  rw [← (checkedDivR_ok hdiv).2]
  exact Int.tdiv_nonneg (Int.mul_nonneg (Int.le_of_lt hpos) (by decide)) (by decide)

/-- `ensure_unique_recipients`. -/
def DistributionRecipients.unique (r : DistributionRecipients) : Prop :=
  [r.team, r.earlyInvestors, r.communityRewards, r.treasury, r.publicSale].Nodup

instance (r : DistributionRecipients) : Decidable r.unique := inferInstanceAs (Decidable (List.Nodup _))

/-- `create_vesting_schedule`: one schedule for each beneficiary. -/
def createSchedule (beneficiary : Address) (category : VestingCategory) (totalAmount : Int)
    (startTime cliffSeconds durationSeconds : Nat) : G Unit := do
  failIf (totalAmount ≤ 0) (err .invalidAmount)
  failIf (durationSeconds = 0 ∨ durationSeconds < cliffSeconds) (err .invalidDuration)
  let schedules ← load (·.token.vestingSchedules)
  failIf ((schedules.lookup beneficiary).isSome = true) (err .duplicateSchedule)
  save fun s => { s with
    token.vestingSchedules := schedules.insert beneficiary
      { beneficiary, category, totalAmount, releasedAmount := 0, startTime, cliffSeconds, durationSeconds } }

/-- The supply is cut into six parts; two vest, one is kept for liquidity rewards, three are paid out. -/
def initializeDistribution (recipients : DistributionRecipients) (totalSupply : Int)
    (rewardBps : Nat) (minClaimThreshold : Int) : G DistributionState := do
  failIf (rewardBps = 0 ∨ minClaimThreshold ≤ 0) (err .invalidRewardConfig)
  failIf (¬ recipients.unique) (err .duplicateRecipient)
  let allocation ← lift (createAllocation totalSupply)
  addBalance recipients.communityRewards allocation.communityRewards
  addBalance recipients.treasury allocation.treasury
  addBalance recipients.publicSale allocation.publicSale
  let now ← timestamp
  createSchedule recipients.team .team allocation.team now TEAM_CLIFF_DURATION TEAM_VESTING_DURATION
  createSchedule recipients.earlyInvestors .earlyInvestors allocation.earlyInvestors now 0
    EARLY_INVESTOR_VESTING_DURATION
  let state := { allocation, liquidityReserved := 0, liquidityClaimed := 0,
                 liquidityRewardBps := rewardBps, minClaimThreshold }
  save fun s => { s with token.distribution := some state }
  return state

/-- `create_vesting_schedule` with the listing of the beneficiary, as both entrypoints have it. -/
def addVestingSchedule (beneficiary : Address) (totalAmount : Int)
    (startTime cliffSeconds durationSeconds : Nat) : G Unit := do
  createSchedule beneficiary .custom totalAmount startTime cliffSeconds durationSeconds
  trackHolder beneficiary

def createVestingSchedule (auth : Auth) (admin beneficiary : Address) (totalAmount : Int)
    (startTime cliffSeconds durationSeconds : Nat) : G Unit := do
  requireAdmin auth admin
  requireNoTimelockBypass
  addVestingSchedule beneficiary totalAmount startTime cliffSeconds durationSeconds

/-- `releasable_amount` of a schedule. -/
def releasableAmount (schedule : VestingSchedule) (now : Nat) : Res Int :=
  let cliffTime := u64Add schedule.startTime schedule.cliffSeconds
  if now < cliffTime then .ok 0
  else do
    let vested ←
      if u64Add schedule.startTime schedule.durationSeconds ≤ now ∨
          schedule.durationSeconds = schedule.cliffSeconds then
        (.ok schedule.totalAmount : Res Int)
      else do
        let product ← checkedMulR schedule.totalAmount ((now - cliffTime : Nat) : Int)
        checkedDivR product ((schedule.durationSeconds - schedule.cliffSeconds : Nat) : Int)
    checkedSubR vested schedule.releasedAmount

def releaseVestedTokens (auth : Auth) (beneficiary : Address) : G Int := do
  requireInitialized
  requireAuth auth beneficiary
  let schedules ← load (·.token.vestingSchedules)
  let schedule ← Tx.ofOption (schedules.lookup beneficiary) (err .vestingScheduleNotFound)
  let now ← timestamp
  failIf (now < u64Add schedule.startTime schedule.cliffSeconds) (err .cliffNotReached)
  let releasable ← lift (releasableAmount schedule now)
  failIf (releasable ≤ 0) (err .nothingToRelease)
  let releasedAmount ← lift (checkedAddR schedule.releasedAmount releasable)
  save fun s => { s with
    token.vestingSchedules := schedules.insert beneficiary { schedule with releasedAmount } }
  addBalance beneficiary releasable
  return releasable

/-! ## Liquidity rewards -/

def getDistributionState : G DistributionState := do
  let state ← load (·.token.distribution)
  Tx.ofOption state (err .notInitialized)

def putDistributionState (state : DistributionState) : G Unit :=
  save fun s => { s with token.distribution := some state }

def rewardForVolume (tradingVolume : Int) : G Int := do
  failIf (tradingVolume ≤ 0) (err .invalidAmount)
  let state ← getDistributionState
  lift do
    let product ← checkedMulR tradingVolume state.liquidityRewardBps
    checkedDivR product BPS_DENOMINATOR

def reserveLiquidityRewards (amount : Int) : G Unit := do
  failIf (amount ≤ 0) (err .invalidAmount)
  let state ← getDistributionState
  let used ← lift (checkedAddR state.liquidityClaimed state.liquidityReserved)
  let nextUsed ← lift (checkedAddR used amount)
  failIf (state.allocation.liquidityMining < nextUsed) (err .liquidityPoolExhausted)
  let liquidityReserved ← lift (checkedAddR state.liquidityReserved amount)
  putDistributionState { state with liquidityReserved }

def claimReservedLiquidityRewards (amount : Int) : G Unit := do
  let state ← getDistributionState
  let liquidityReserved ← lift (checkedSubR state.liquidityReserved amount)
  let liquidityClaimed ← lift (checkedAddR state.liquidityClaimed amount)
  putDistributionState { state with liquidityReserved, liquidityClaimed }

def accrueLiquidityRewards (auth : Auth) (admin beneficiary : Address) (tradingVolume : Int) :
    G Int := do
  requireAdmin auth admin
  requireInitialized
  let reward ← rewardForVolume tradingVolume
  failIf (reward ≤ 0) (err .invalidAmount)
  reserveLiquidityRewards reward
  let rewards ← load (·.token.pendingRewards)
  let sum ← lift (checkedAddR ((rewards.lookup beneficiary).getD 0) reward)
  save fun s => { s with token.pendingRewards := rewards.insert beneficiary sum }
  trackHolder beneficiary
  return reward

def claimLiquidityRewards (auth : Auth) (beneficiary : Address) : G Int := do
  requireInitialized
  requireAuth auth beneficiary
  requireInitialized
  let rewards ← load (·.token.pendingRewards)
  let pending := (rewards.lookup beneficiary).getD 0
  let state ← getDistributionState
  failIf (pending ≤ 0) (err .nothingToRelease)
  failIf (pending < state.minClaimThreshold) (err .belowMinimumClaim)
  save fun s => { s with token.pendingRewards := rewards.insert beneficiary 0 }
  claimReservedLiquidityRewards pending
  addBalance beneficiary pending
  return pending

/-- `update_reward_config`. -/
def setLiquidityMiningConfig (auth : Auth) (admin : Address) (rewardBps : Nat)
    (minClaimThreshold : Int) : G DistributionState := do
  requireAdmin auth admin
  failIf (rewardBps = 0 ∨ minClaimThreshold ≤ 0) (err .invalidRewardConfig)
  let state ← getDistributionState
  let state := { state with liquidityRewardBps := rewardBps, minClaimThreshold }
  putDistributionState state
  return state

end CallStake.Governance
