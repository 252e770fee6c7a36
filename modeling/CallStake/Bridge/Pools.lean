import CallStake.Bridge.Liquidity

/-!
# The books of the liquidity pools

The LP tokens of a pool should be those of its positions, and there should be reserves of both assets exactly
while there are LP tokens; a swap should not pay more than the pool has.

* `Represented`: the property, of the storage. `PaidFromReserve`: the property, of a swap.
* `Sample.pools_run_dry`: the module does not have it. A pool may have a fee above 100%, which makes the input
  negative; a stable swap may take the whole reserve, and leave LP tokens that nothing backs.
* `LiquidityPool.Covers`: the quote is from a part of the curve where it is below the reserve.
  `quote_covered_iff`: a swap that goes through keeps both reserves positive exactly then.
* `represented_of_covered`: in a run of covered swaps, the books are right in every state.
-/

namespace CallStake.Liquidity

open Store

/-! ## The property -/

/-- The LP tokens of the position, if it is in this pool. -/
def LiquidityPosition.lpIn (poolId : Nat) (pos : LiquidityPosition) : Int :=
  if pos.poolId = poolId then pos.lpTokens else 0

def LiquidityPosition.Nonneg (pos : LiquidityPosition) : Prop := 0 ≤ pos.lpTokens ∧ 0 ≤ pos.rewardsEarned

/-- There are reserves exactly while there are LP tokens. -/
structure LiquidityPool.Backed (pool : LiquidityPool) : Prop where
  reserves : 0 < pool.totalLpTokens → 0 < pool.reserveA ∧ 0 < pool.reserveB
  empty : pool.totalLpTokens = 0 → pool.reserveA = 0 ∧ pool.reserveB = 0

structure Represented (s : Storage) : Prop where
  total : ∀ poolId pool, s.pools.lookup poolId = some pool →
    pool.totalLpTokens = Store.total (·.lpIn poolId) s.positions
  positions : s.positions.All LiquidityPosition.Nonneg
  backed : s.pools.All LiquidityPool.Backed

/-- What a swap pays was in the reserve. -/
def PaidFromReserve (w : World) : Event → Prop
  | .call (.swap poolId input amountIn minOut) => ∀ r w', swap poolId input amountIn minOut w = (.ok r, w') →
    ∃ pool, w.store.pools.lookup poolId = some pool ∧ r.amountOut ≤ (pool.sides input).2
  | _ => True

/-- A pool with LP tokens has reserves to divide by. -/
def Divisible (s : Storage) : Prop :=
  s.pools.All fun pool => pool.totalLpTokens ≠ 0 → pool.reserveA ≠ 0 ∧ pool.reserveB ≠ 0

/-! ## The condition -/

/-- Along the constant product, the fee does not exceed the input and the input reserve together; in a stable
swap, the input is below the output reserve; or the trader asks for more than the quote. -/
def Covers (poolType : PoolType) (afterFee reserveIn reserveOut minOut : Int) : Prop :=
  match poolType with
  | .constantProduct =>
    reserveIn + afterFee < 0 → quote .constantProduct afterFee reserveIn reserveOut < minOut
  | .stableSwap => reserveOut ≤ afterFee → reserveOut < minOut

instance : (poolType : PoolType) → (afterFee reserveIn reserveOut minOut : Int) →
    Decidable (Covers poolType afterFee reserveIn reserveOut minOut)
  | .constantProduct, afterFee, reserveIn, reserveOut, minOut =>
    inferInstanceAs (Decidable (reserveIn + afterFee < 0 →
      quote .constantProduct afterFee reserveIn reserveOut < minOut))
  | .stableSwap, afterFee, _, reserveOut, minOut =>
    inferInstanceAs (Decidable (reserveOut ≤ afterFee → reserveOut < minOut))

def LiquidityPool.Covers (pool : LiquidityPool) (input : Bytes) (amountIn minOut : Int) : Prop :=
  Liquidity.Covers pool.poolType (pool.afterFee amountIn) (pool.sides input).1 (pool.sides input).2 minOut

instance (pool : LiquidityPool) (input : Bytes) (amountIn minOut : Int) :
    Decidable (pool.Covers input amountIn minOut) :=
  inferInstanceAs (Decidable (Liquidity.Covers _ _ _ _ _))

/-- A swap in a pool with reserves is covered. -/
def Covered (w : World) : Event → Prop
  | .call (.swap poolId input amountIn minOut) => ∀ pool ∈ w.store.pools.lookup poolId,
    0 < amountIn → input = pool.assetA ∨ input = pool.assetB → 0 < (pool.sides input).1 →
      0 < (pool.sides input).2 → pool.Covers input amountIn minOut
  | _ => True

instance (w : World) : (ev : Event) → Decidable (Covered w ev)
  | .call (.swap poolId input amountIn minOut) =>
    inferInstanceAs (Decidable (∀ pool ∈ w.store.pools.lookup poolId, 0 < amountIn →
      input = pool.assetA ∨ input = pool.assetB → 0 < (pool.sides input).1 → 0 < (pool.sides input).2 →
      pool.Covers input amountIn minOut))
  | .call (.createPool ..) | .call (.addLiquidity ..) | .call (.removeLiquidity ..) | .advance _ =>
    isTrue trivial

/-- A quote that a trader takes leaves both reserves positive exactly if it is covered. -/
theorem quote_covered_iff {poolType : PoolType} {afterFee reserveIn reserveOut minOut out : Int}
    (hin : 0 < reserveIn) (hout : 0 < reserveOut) (hquote : out = quote poolType afterFee reserveIn reserveOut)
    (hmin : minOut ≤ out) (hpos : 0 < out) :
    0 < reserveIn + afterFee ∧ 0 < reserveOut - out ↔ Covers poolType afterFee reserveIn reserveOut minOut := by
  cases poolType with
  | constantProduct =>
    rw [Covers, ← hquote]
    constructor
    · intro h hneg
      omega
    · intro h
      rw [quote, Int.mul_comm] at hquote
      -- a quote that is positive has a positive input
      have hafter : 0 < afterFee := by
        by_contra hle
        have := proportion_nonpos hout.le (not_lt.mp hle) (by omega : 0 ≤ reserveIn + afterFee)
        omega
      have hlt := proportion_lt hout hafter.le (by omega : afterFee < reserveIn + afterFee)
      omega
  | stableSwap =>
    rw [quote] at hquote
    rw [Covers]
    omega

/-! ## The invariant -/

/-- The books are right, and the entries are where their keys say. -/
structure Inv (s : Storage) : Prop extends Represented s where
  poolKey : ∀ poolId pool, s.pools.lookup poolId = some pool → pool.id = poolId ∧ poolId ≤ s.poolCounter
  positionKey : ∀ key pos, s.positions.lookup key = some pos →
    (pos.provider, pos.poolId) = key ∧ pos.poolId ≤ s.poolCounter

/-- The entries are where their keys say. -/
structure Keyed (s : Storage) : Prop where
  poolKey : ∀ poolId pool, s.pools.lookup poolId = some pool → pool.id = poolId ∧ poolId ≤ s.poolCounter
  positionKey : ∀ key pos, s.positions.lookup key = some pos →
    (pos.provider, pos.poolId) = key ∧ pos.poolId ≤ s.poolCounter

/-- The books of one pool. What is done with the others cannot disturb them. -/
structure Sound (s : Storage) (target : Nat) : Prop extends Keyed s where
  total : ∀ pool, s.pools.lookup target = some pool → pool.totalLpTokens = Store.total (·.lpIn target) s.positions
  positions : s.positions.All fun pos => pos.poolId = target → pos.Nonneg
  backed : ∀ pool, s.pools.lookup target = some pool → pool.Backed

section Invariant

variable {s : Storage} {provider : Address} {poolId target : Nat} {pool pool' : LiquidityPool}
  {pos : LiquidityPosition}

/-! ### Keys -/

/-- The position that is read is that of the provider in the pool. -/
theorem Keyed.position_key (h : Keyed s) (provider : Address) (poolId : Nat) :
    (s.position provider poolId).provider = provider ∧ (s.position provider poolId).poolId = poolId := by
  unfold Storage.position
  cases hpos : s.positions.lookup (provider, poolId) with
  | none => exact ⟨rfl, rfl⟩
  | some pos => exact Prod.mk.inj (h.positionKey _ pos hpos).1

theorem Keyed.created (h : Keyed s) (hid : pool.id = s.poolCounter + 1) :
    Keyed { s with poolCounter := s.poolCounter + 1, pools := s.pools.insert (s.poolCounter + 1) pool } where
  poolKey poolId' pool' hpool' := by
    rw [lookup_insert_eq] at hpool'
    split at hpool'
    · cases hpool'
      dsimp only
      omega
    · have := h.poolKey poolId' pool' hpool'
      exact ⟨this.1, Nat.le_succ_of_le this.2⟩
  positionKey key pos hpos := ⟨(h.positionKey key pos hpos).1, Nat.le_succ_of_le (h.positionKey key pos hpos).2⟩

theorem Keyed.poolKey_insert (h : Keyed s) (hpool : s.pools.lookup poolId = some pool)
    (hid : pool'.id = pool.id) (poolId' : Nat) (pool'' : LiquidityPool)
    (hpool'' : (s.pools.insert pool'.id pool').lookup poolId' = some pool'') :
    pool''.id = poolId' ∧ poolId' ≤ s.poolCounter := by
  have hkey := h.poolKey poolId pool hpool
  rw [lookup_insert_eq] at hpool''
  split at hpool''
  · cases hpool''
    omega
  · exact h.poolKey poolId' pool'' hpool''

/-- What the pool is after a write to it or to another pool. -/
theorem Keyed.lookup_written (h : Keyed s) (hpool : s.pools.lookup poolId = some pool)
    (hid : pool'.id = pool.id) (target : Nat) : (s.pools.insert pool'.id pool').lookup target =
      if poolId = target then some pool' else s.pools.lookup target := by
  rw [lookup_insert_eq, hid, (h.poolKey poolId pool hpool).1]
  simp only [eq_comm]

theorem Keyed.repriced (h : Keyed s) (hpool : s.pools.lookup poolId = some pool) (hid : pool'.id = pool.id) :
    Keyed { s with pools := s.pools.insert pool'.id pool' } where
  poolKey := h.poolKey_insert hpool hid
  positionKey := h.positionKey

theorem Keyed.updated (h : Keyed s) (hpool : s.pools.lookup poolId = some pool) (hid : pool'.id = pool.id)
    (hposition : pos.poolId = poolId) : Keyed (s.updated pool' pos) where
  poolKey := h.poolKey_insert hpool hid
  positionKey key pos' hpos' := by
    simp only [Storage.updated] at hpos' ⊢
    rw [lookup_insert_eq] at hpos'
    split at hpos'
    · rename_i heq
      cases hpos'
      have hkey := h.poolKey poolId pool hpool
      exact ⟨heq.symm, by omega⟩
    · exact h.positionKey key pos' hpos'

/-! ### One pool -/

theorem Inv.sound (h : Inv s) (target : Nat) : Sound s target where
  poolKey := h.poolKey
  positionKey := h.positionKey
  total := h.total target
  positions := h.positions.mono fun _ hpos _ => hpos
  backed := h.backed target

theorem Inv.of_sound (h : ∀ target, Sound s target) : Inv s where
  total target := (h target).total
  positions key pos hpos := (h pos.poolId).positions key pos hpos rfl
  backed target := (h target).backed
  poolKey := (h 0).poolKey
  positionKey := (h 0).positionKey

theorem Sound.lpIn_nonneg (h : Sound s target) : s.positions.All (0 ≤ ·.lpIn target) := by
  refine h.positions.mono fun pos hpos => ?_
  unfold LiquidityPosition.lpIn
  split
  · rename_i heq
    exact (hpos heq).1
  · exact le_rfl

theorem Sound.total_nonneg (h : Sound s target) (hpool : s.pools.lookup target = some pool) :
    0 ≤ pool.totalLpTokens := by
  rw [h.total pool hpool]
  exact Store.total_nonneg h.lpIn_nonneg

theorem Sound.reserves_nonneg (h : Sound s target) (hpool : s.pools.lookup target = some pool) :
    0 ≤ pool.reserveA ∧ 0 ≤ pool.reserveB := by
  have htotal := h.total_nonneg hpool
  have hbacked := h.backed pool hpool
  by_cases hzero : pool.totalLpTokens = 0
  · have := hbacked.empty hzero
    omega
  · have := hbacked.reserves (by omega)
    omega

theorem Inv.divisible (h : Inv s) : Divisible s := by
  intro poolId pool hpool hne
  have htotal := (h.sound poolId).total_nonneg hpool
  have := (h.backed poolId pool hpool).reserves (by omega)
  omega

theorem Sound.position_nonneg (h : Sound s target) (provider : Address) : (s.position provider target).Nonneg := by
  have hkey := (h.position_key provider target).2
  unfold Storage.position at hkey ⊢
  cases hpos : s.positions.lookup (provider, target) with
  | none => exact ⟨le_rfl, le_rfl⟩
  | some pos =>
    rw [hpos] at hkey
    exact h.positions _ pos hpos hkey

/-- What the position counts for in the total of the pool. -/
theorem Sound.position_part (h : Sound s target) (provider : Address) (poolId : Nat) :
    Store.part (·.lpIn target) s.positions (provider, poolId) =
      if poolId = target then (s.position provider poolId).lpTokens else 0 := by
  unfold Storage.position
  cases hpos : s.positions.lookup (provider, poolId) with
  | none => simp [part_none hpos]
  | some pos =>
    obtain ⟨-, hpool⟩ := Prod.mk.inj (h.positionKey _ pos hpos).1
    rw [part_some hpos, LiquidityPosition.lpIn, hpool]
    rfl

/-- A position has at most the LP tokens of its pool. -/
theorem Sound.position_le_total (h : Sound s target) (hpool : s.pools.lookup target = some pool)
    (provider : Address) : (s.position provider target).lpTokens ≤ pool.totalLpTokens := by
  have hle := part_le_total h.lpIn_nonneg (provider, target)
  rw [h.position_part, if_pos rfl, ← h.total pool hpool] at hle
  exact hle

/-- A new pool is empty, and no position is in it. -/
theorem Sound.created (h : Sound s target) (hid : pool.id = s.poolCounter + 1) (hA : pool.reserveA = 0)
    (hB : pool.reserveB = 0) (htotal : pool.totalLpTokens = 0) :
    Sound { s with poolCounter := s.poolCounter + 1, pools := s.pools.insert (s.poolCounter + 1) pool }
      target where
  total pool' hpool' := by
    rw [lookup_insert_eq] at hpool'
    split at hpool'
    · rename_i heq
      cases hpool'
      rw [htotal]
      refine (total_eq_zero fun key pos hpos => if_neg ?_).symm
      have := (h.positionKey key pos hpos).2
      omega
    · exact h.total pool' hpool'
  positions := h.positions
  backed pool' hpool' := by
    rw [lookup_insert_eq] at hpool'
    split at hpool'
    · cases hpool'
      exact ⟨by omega, fun _ => ⟨hA, hB⟩⟩
    · exact h.backed pool' hpool'
  toKeyed := h.toKeyed.created hid

/-- A pool gets new reserves. -/
theorem Sound.repriced (h : Sound s target) (hpool : s.pools.lookup poolId = some pool)
    (hid : pool'.id = pool.id) (htotal : pool'.totalLpTokens = pool.totalLpTokens)
    (hbacked : poolId = target → pool'.Backed) :
    Sound { s with pools := s.pools.insert pool'.id pool' } target where
  total pool'' hpool'' := by
    rw [h.lookup_written hpool hid target] at hpool''
    split at hpool''
    · rename_i heq
      cases hpool''
      subst heq
      rw [htotal, h.total pool hpool]
    · exact h.total pool'' hpool''
  positions := h.positions
  backed pool'' hpool'' := by
    rw [h.lookup_written hpool hid target] at hpool''
    split at hpool''
    · rename_i heq
      cases hpool''
      exact hbacked heq
    · exact h.backed pool'' hpool''
  toKeyed := h.toKeyed.repriced hpool hid

/-- The LP tokens of a pool and of a position in it change by the same amount. -/
theorem Sound.updated (h : Sound s target) (hpool : s.pools.lookup poolId = some pool)
    (hid : pool'.id = pool.id) (hprovider : pos.provider = provider) (hposition : pos.poolId = poolId)
    (htotal : pool'.totalLpTokens - pool.totalLpTokens = pos.lpTokens - (s.position provider poolId).lpTokens)
    (hnonneg : poolId = target → pos.Nonneg) (hbacked : poolId = target → pool'.Backed) :
    Sound (s.updated pool' pos) target where
  total pool'' hpool'' := by
    have hpart := h.position_part provider poolId
    simp only [Storage.updated] at hpool'' ⊢
    rw [total_insert, hprovider, hposition, hpart, LiquidityPosition.lpIn, hposition]
    rw [h.lookup_written hpool hid target] at hpool''
    split at hpool''
    · rename_i heq
      cases hpool''
      subst heq
      have := h.total pool hpool
      rw [if_pos rfl, if_pos rfl]
      omega
    · rename_i hne
      have := h.total pool'' hpool''
      rw [if_neg hne, if_neg hne]
      omega
  positions := h.positions.insert fun heq => hnonneg (hposition.symm.trans heq)
  backed pool'' hpool'' := by
    rw [Storage.updated, h.lookup_written hpool hid target] at hpool''
    split at hpool''
    · rename_i heq
      cases hpool''
      exact hbacked heq
    · exact h.backed pool'' hpool''
  toKeyed := h.toKeyed.updated hpool hid hposition

/-! ## The functions keep the invariant -/

variable {w w' : World}

theorem Sound.createPool (h : Sound w.store target) {assetA assetB : Bytes} {poolType : PoolType}
    {feeBps rewardBps id : Nat}
    (hc : createPool assetA assetB poolType feeBps rewardBps w = (.ok id, w')) : Sound w'.store target := by
  obtain ⟨rfl, hw⟩ := createPool_ok hc
  rw [hw]
  exact h.created rfl rfl rfl rfl

/-- Both reserves and the LP tokens grow. -/
theorem Sound.addLiquidity (h : Sound w.store target) {amountA amountB minted : Int}
    (hc : addLiquidity provider poolId amountA amountB w = (.ok minted, w')) : Sound w'.store target := by
  obtain ⟨hA, hB, hminted, pool, hpool, -, hw⟩ := addLiquidity_ok hc
  obtain ⟨hprovider, hposition⟩ := h.position_key provider poolId
  rw [hw]
  refine h.updated hpool rfl hprovider hposition ?_ ?_ ?_
  · dsimp only
    omega
  · rintro rfl
    obtain ⟨hlp, hrewards⟩ := h.position_nonneg provider
    have hreward : 0 ≤ ((amountA + amountB) * pool.rewardBps).tdiv BASIS_POINTS_DENOMINATOR :=
      proportion_nonneg (by omega) (by omega) (by decide)
    exact ⟨Int.add_nonneg hlp hminted.le, Int.add_nonneg hrewards hreward⟩
  · rintro rfl
    have htotal := h.total_nonneg hpool
    have hreserves := h.reserves_nonneg hpool
    constructor <;> dsimp only <;> omega

/-- What is left of a reserve when a part of the LP tokens is paid out: nothing if it was all of them, else
something. -/
theorem paid_part {reserve lp total : Int} (hlp : 0 < lp) (hle : lp ≤ total) (hreserve : 0 < reserve) :
    (0 < total - lp → 0 < reserve - (reserve * lp).tdiv total) ∧
      (total - lp = 0 → reserve - (reserve * lp).tdiv total = 0) := by
  constructor
  · intro hlt
    have := proportion_lt hreserve hlp.le (by omega : lp < total)
    omega
  · intro heq
    obtain rfl : lp = total := by omega
    rw [Int.mul_tdiv_cancel _ hlp.ne']
    omega

theorem Sound.removeLiquidity (h : Sound w.store target) {lpAmount : Int} {r : Int × Int × Int}
    (hc : removeLiquidity provider poolId lpAmount w = (.ok r, w')) : Sound w'.store target := by
  obtain ⟨hlp, hle, pool, hpool, htotal, rfl, hw⟩ := removeLiquidity_ok hc
  obtain ⟨hprovider, hposition⟩ := h.position_key provider poolId
  rw [hw]
  refine h.updated hpool rfl hprovider hposition ?_ ?_ ?_
  · dsimp only
    omega
  · rintro rfl
    have hreward := proportion_le (h.position_nonneg provider).2 hlp.le hle (by omega)
    exact ⟨Int.sub_nonneg_of_le hle, Int.sub_nonneg_of_le hreward⟩
  · rintro rfl
    have hletotal := h.position_le_total hpool provider
    obtain ⟨hA, hB⟩ := (h.backed pool hpool).reserves htotal
    have hpaidA := paid_part hlp (hle.trans hletotal) hA
    have hpaidB := paid_part hlp (hle.trans hletotal) hB
    exact ⟨fun hpos => ⟨hpaidA.1 hpos, hpaidB.1 hpos⟩, fun hzero => ⟨hpaidA.2 hzero, hpaidB.2 hzero⟩⟩

/-- A pool with a reserve has LP tokens, so it is backed by any positive reserves. -/
theorem LiquidityPool.Backed.withSides (h : pool.Backed) {input : Bytes} {reserveIn reserveOut : Int}
    (hside : 0 < (pool.sides input).1) (hin : 0 < reserveIn) (hout : 0 < reserveOut) :
    (pool.withSides input (reserveIn, reserveOut)).Backed := by
  have htotal : pool.totalLpTokens ≠ 0 := by
    intro hzero
    obtain ⟨hA, hB⟩ := h.empty hzero
    simp [LiquidityPool.sides, hA, hB] at hside
  unfold LiquidityPool.withSides
  split
  · exact ⟨fun _ => ⟨hin, hout⟩, fun hzero => absurd hzero htotal⟩
  · exact ⟨fun _ => ⟨hout, hin⟩, fun hzero => absurd hzero htotal⟩

theorem withSides_kept (pool : LiquidityPool) (input : Bytes) (reserves : Int × Int) :
    (pool.withSides input reserves).id = pool.id ∧
      (pool.withSides input reserves).totalLpTokens = pool.totalLpTokens := by
  unfold LiquidityPool.withSides
  split <;> exact ⟨rfl, rfl⟩

theorem Sound.swap (h : Sound w.store target) {input : Bytes} {amountIn minOut : Int} {r : SwapResult}
    (hcovered : poolId = target → Covered w (.call (.swap poolId input amountIn minOut)))
    (hc : swap poolId input amountIn minOut w = (.ok r, w')) : Sound w'.store target := by
  obtain ⟨hin, pool, hpool, hasset, hrin, hrout, hquote, hmin, hpos, hw⟩ := swap_ok hc
  obtain ⟨hid, htotal⟩ := withSides_kept pool input
    ((pool.sides input).1 + pool.afterFee amountIn, (pool.sides input).2 - r.amountOut)
  rw [hw, ← hid]
  refine h.repriced hpool hid htotal ?_
  rintro rfl
  obtain ⟨hnewIn, hnewOut⟩ :=
    (quote_covered_iff hrin hrout hquote hmin hpos).mpr (hcovered rfl pool hpool hin hasset hrin hrout)
  exact (h.backed pool hpool).withSides hrin hnewIn hnewOut

/-- Swaps in other pools need not be covered. -/
def CoveredIn (target : Nat) (w : World) : Event → Prop
  | .call (.swap poolId input amountIn minOut) =>
    poolId = target → Covered w (.call (.swap poolId input amountIn minOut))
  | _ => True

theorem Sound.step {ev : Event} (h : Sound w.store target) (hcovered : CoveredIn target w ev)
    (hs : Step w ev w') : Sound w'.store target := by
  obtain ⟨-, rfl⟩ := hs
  cases ev with
  | advance => exact h
  | call c =>
    rw [next]
    rcases Tx.exec_cases (invoke c) w with ⟨u, hok⟩ | hsame
    · cases c with
      | createPool =>
        obtain ⟨id, hc⟩ := Tx.void_ok.mp hok
        exact h.createPool hc
      | addLiquidity =>
        obtain ⟨minted, hc⟩ := Tx.void_ok.mp hok
        exact h.addLiquidity hc
      | removeLiquidity =>
        obtain ⟨r, hc⟩ := Tx.void_ok.mp hok
        exact h.removeLiquidity hc
      | swap =>
        obtain ⟨r, hc⟩ := Tx.void_ok.mp hok
        exact h.swap hcovered hc
    · rw [hsame]
      exact h

theorem coveredIn_of_covered {ev : Event} (h : Covered w ev) : CoveredIn target w ev := by
  unfold CoveredIn
  split
  · exact fun _ => h
  · trivial

theorem Inv.step {ev : Event} (h : Inv w.store) (hcovered : Covered w ev) (hs : Step w ev w') :
    Inv w'.store :=
  Inv.of_sound fun target => (h.sound target).step (coveredIn_of_covered hcovered) hs

theorem paidFromReserve_of_covered {ev : Event} (hcovered : Covered w ev) : PaidFromReserve w ev := by
  unfold PaidFromReserve
  split
  · rename_i poolId input amountIn minOut
    intro r w' hc
    obtain ⟨hin, pool, hpool, hasset, hrin, hrout, hquote, hmin, hpos, -⟩ := swap_ok hc
    have hleft := (quote_covered_iff hrin hrout hquote hmin hpos).mpr (hcovered pool hpool hin hasset hrin hrout)
    exact ⟨pool, hpool, by omega⟩
  · trivial

end Invariant

theorem Inv.deployed (ledger : Ledger) : Inv (World.deployed ledger).store where
  total poolId pool hpool := by cases hpool
  positions := all_empty _
  backed := all_empty _
  poolKey poolId pool hpool := by cases hpool
  positionKey key pos hpos := by cases hpos

/-- In every state of a run of covered swaps and any other calls, the books of the pools are right, a deposit
does not divide by zero, and a covered swap pays from the reserve. -/
theorem represented_of_covered {ledger : Ledger} {w : World}
    (h : Reaches (fun a ev b => Covered a ev ∧ Step a ev b) (.deployed ledger) w) :
    Represented w.store ∧ Divisible w.store ∧ ∀ ev, Covered w ev → PaidFromReserve w ev := by
  have hinv : Inv w.store :=
    h.invariant (I := fun w => Inv w.store) (Inv.deployed ledger) fun _ _ _ hi hs => hi.step hs.1 hs.2
  exact ⟨hinv.toRepresented, hinv.divisible, fun ev => paidFromReserve_of_covered⟩

namespace Sample

def alice : Address := ⟨1⟩
def bob : Address := ⟨2⟩
def assetA : Bytes := [97]
def assetB : Bytes := [98]

def run (calls : List Call) : World := (calls.map Event.call).foldl next (.deployed ⟨0, 0⟩)

/-- Two providers and a trader in a pool of each type; the second pool is emptied at the end. -/
def twoPools : List Call :=
  [.createPool assetA assetB .constantProduct 30 200, .createPool assetA assetB .stableSwap 5 50,
    .addLiquidity alice 1 1000 2000, .addLiquidity bob 1 500 1000, .swap 1 assetA 100 1,
    .removeLiquidity alice 1 300, .addLiquidity bob 2 500 1500, .swap 2 assetB 100 1,
    .removeLiquidity bob 2 866]

/-- The pools have the LP tokens of their positions. -/
theorem two_pools_keep_their_books :
    Represented (run twoPools).store ∧ ((run twoPools).store.pools.lookup 1).map (·.totalLpTokens) = some 1821 ∧
      ((run twoPools).store.pools.lookup 2).map (·.totalLpTokens) = some 0 := by
  have hrun : Reaches.Along next (fun w ev => Covered w ev ∧ Allowed w ev) (.deployed ⟨0, 0⟩)
      (twoPools.map Event.call) := by decide +kernel
  exact ⟨(represented_of_covered (Reaches.of_along_and hrun)).1, by decide +kernel, by decide +kernel⟩

/-- The reserve of `assetB` is swapped for as much of `assetA`. -/
def dry : List Call :=
  [.createPool assetA assetB .stableSwap 5 50, .addLiquidity alice 1 1000 1000, .swap 1 assetA 1001 1]

/-- A pool with a fee of 300%. -/
def overpaid : List Call := [.createPool assetA assetB .constantProduct 30000 0, .addLiquidity alice 1 1000 1000]

/-- After a stable swap of the whole reserve there are LP tokens without a reserve, and a deposit divides by
zero. With a fee of 300% a trader gets twice the reserve. -/
theorem pools_run_dry :
    (¬ ∀ ledger w, Reaches Step (.deployed ledger) w → Represented w.store) ∧
      (addLiquidity bob 1 10 10 (run dry)).1 = .error .panic ∧
      ¬ ∀ ledger w, Reaches Step (.deployed ledger) w → ∀ ev, PaidFromReserve w ev := by
  refine ⟨fun h => ?_, by decide +kernel, fun h => ?_⟩
  · have hrun : Reaches.Along next Allowed (.deployed ⟨0, 0⟩) (dry.map Event.call) := by decide +kernel
    have hpool : (run dry).store.pools.lookup 1 =
        some ⟨1, assetA, assetB, 2001, 0, 1000, 5, 50, .stableSwap, 0⟩ := by decide +kernel
    have := ((h _ _ (Reaches.of_along hrun)).backed 1 _ hpool).reserves (by decide)
    exact absurd this.2 (by decide)
  · have hrun : Reaches.Along next Allowed (.deployed ⟨0, 0⟩) (overpaid.map Event.call) := by decide +kernel
    have hswap : swap 1 assetA 1000 1 (run overpaid) =
        (.ok ⟨1000, 2000, 3000, -1000, -1000⟩, (swap 1 assetA 1000 1 (run overpaid)).2) :=
      Prod.ext (by decide +kernel) rfl
    obtain ⟨pool, hpool, hle⟩ := h _ _ (Reaches.of_along hrun) (.call (.swap 1 assetA 1000 1)) _ _ hswap
    have hreserve : ∀ pool ∈ (run overpaid).store.pools.lookup 1, (pool.sides assetA).2 = 1000 := by
      decide +kernel
    rw [hreserve pool hpool] at hle
    exact absurd hle (by decide)

end Sample

end CallStake.Liquidity
