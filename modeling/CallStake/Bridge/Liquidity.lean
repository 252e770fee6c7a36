import CallStake.Lib.Proportion
import CallStake.Bridge.Types

/-!
# Liquidity pools (`bridge::liquidity`)

Pools of two assets. Providers add both assets and get LP tokens for their part of the pool; traders swap one
asset for the other, along one of two curves.

* `createPool`, `addLiquidity`, `removeLiquidity`, `swap`: the functions of the module. Plain arithmetic traps on
  overflow and on a division by zero. The entry points of the contract check who calls, and for `createPool` also
  that both assets are wrapped assets of the bridge.
* `quoteSwap`: the two curves. `integerSqrt`: the loop of the first deposit; `integerSqrt_ok`: it computes the
  square root, rounded down.
* `createPool_ok`, …: what a call that returned did.
* `Event`, `next`: calls in any order, as transactions; in between, ledgers close.

Left out: the views; the trader of a swap, who is not used.
-/

namespace CallStake.Liquidity

open Tx

open Bridge (BridgeError)

def BASIS_POINTS_DENOMINATOR : Int := 10000

/-- The curve of a pool. -/
inductive PoolType where
  | constantProduct
  | stableSwap
  deriving DecidableEq

/-- A pool of two assets. -/
structure LiquidityPool where
  id : Nat
  assetA : Bytes
  assetB : Bytes
  reserveA : Int
  reserveB : Int
  totalLpTokens : Int
  feeBps : Nat
  rewardBps : Nat
  poolType : PoolType
  createdAt : Nat
  deriving DecidableEq

/-- The part of a provider in a pool. -/
structure LiquidityPosition where
  provider : Address
  poolId : Nat
  lpTokens : Int
  rewardsEarned : Int

/-- What a swap returns. -/
structure SwapResult where
  amountIn : Int
  amountOut : Int
  feePaid : Int
  newReserveIn : Int
  newReserveOut : Int
  deriving DecidableEq

/-- The entries under `LiquidityKey`. -/
structure Storage where
  poolCounter : Nat
  pools : Store Nat LiquidityPool
  positions : Store (Address × Nat) LiquidityPosition

/-- The ledger and the storage. -/
structure World where
  ledger : Ledger
  store : Storage

abbrev L := Tx World (Fault BridgeError)

section Helpers

variable {α : Type}

def load (f : Storage → α) : L α := Tx.gets fun w => f w.store

def save (f : Storage → Storage) : L Unit := Tx.modify fun w => { w with store := f w.store }

def timestamp : L Nat := Tx.gets (·.ledger.timestamp)

/-- A plain operation on `i128`, which traps on overflow. -/
def plain (x : Int) : L Int := Tx.ofOption (checked x) .panic

/-- A plain `/` on `i128`, which traps also on a division by zero. -/
def div (x y : Int) : L Int := do
  failIf (y = 0) .panic
  plain (x.tdiv y)

/-- A plain `+` on `u64`, which traps on overflow. -/
def plainU64 (n : Nat) : L Nat := Tx.ofOption (if n ≤ u64Max then some n else none) .panic

/-- `(x * y) / z`. -/
def mulDiv (x y z : Int) : L Int := do
  let product ← plain (x * y)
  div product z

def getPool (poolId : Nat) : L LiquidityPool := do
  Tx.ofOption (← load (·.pools.lookup poolId)) (.err .transferNotFound)

/-- The position that is stored, or an empty one. -/
def Storage.position (s : Storage) (provider : Address) (poolId : Nat) : LiquidityPosition :=
  (s.positions.lookup (provider, poolId)).getD ⟨provider, poolId, 0, 0⟩

def getPosition (provider : Address) (poolId : Nat) : L LiquidityPosition := load (·.position provider poolId)

def storePool (pool : LiquidityPool) : L Unit := save fun s => { s with pools := s.pools.insert pool.id pool }

def storePosition (position : LiquidityPosition) : L Unit :=
  save fun s => { s with positions := s.positions.insert (position.provider, position.poolId) position }

def nextPoolId : L Nat := do
  let current ← load (·.poolCounter)
  let next ← plainU64 (current + 1)
  save fun s => { s with poolCounter := next }
  return next

def rewardForLiquidity (totalAdded : Int) (rewardBps : Nat) : L Int :=
  mulDiv totalAdded rewardBps BASIS_POINTS_DENOMINATOR

def quoteSwap (poolType : PoolType) (amountIn reserveIn reserveOut : Int) : L Int := do
  failIf (reserveIn ≤ 0 ∨ reserveOut ≤ 0) (.err .invalidOperation)
  match poolType with
  | .constantProduct => do
    let numerator ← plain (amountIn * reserveOut)
    let denominator ← plain (reserveIn + amountIn)
    div numerator denominator
  | .stableSwap => pure (min amountIn reserveOut)

/-- `(x + value / x) / 2`. -/
def sqrtStep (value x : Int) : L Int := do
  let quotient ← div value x
  let sum ← plain (x + quotient)
  div sum 2

/-- `while x1 < x0 { .. }`, for at most as many rounds as there is fuel. -/
def sqrtLoop (value : Int) : Nat → Int → Int → L Int
  | 0, _, _ => Tx.fail .panic
  | fuel + 1, x0, x1 =>
    if x1 < x0 then do
      let x2 ← sqrtStep value x1
      sqrtLoop value fuel x1 x2
    else pure x0

/-- The loop counts down from `value`, so this is fuel enough (`integerSqrt_ok`). -/
def integerSqrt (value : Int) : L Int :=
  if value ≤ 0 then pure 0
  else do
    let x1 ← sqrtStep value value
    sqrtLoop value value.toNat value x1

end Helpers

/-! ## The functions of the module -/

def createPool (assetA assetB : Bytes) (poolType : PoolType) (feeBps rewardBps : Nat) : L Nat := do
  failIf (assetA = assetB) (.err .invalidOperation)
  let poolId ← nextPoolId
  let createdAt ← timestamp
  storePool ⟨poolId, assetA, assetB, 0, 0, 0, feeBps, rewardBps, poolType, createdAt⟩
  return poolId

/-- The LP tokens for the amounts: their root in an empty pool, else the smaller proportion. -/
def mintedLp (pool : LiquidityPool) (amountA amountB : Int) : L Int :=
  if pool.totalLpTokens = 0 then do
    let product ← plain (amountA * amountB)
    integerSqrt product
  else do
    let lpA ← mulDiv amountA pool.totalLpTokens pool.reserveA
    let lpB ← mulDiv amountB pool.totalLpTokens pool.reserveB
    return min lpA lpB

def addLiquidity (provider : Address) (poolId : Nat) (amountA amountB : Int) : L Int := do
  failIf (amountA ≤ 0 ∨ amountB ≤ 0) (.err .invalidAmount)
  let pool ← getPool poolId
  let minted ← mintedLp pool amountA amountB
  failIf (minted ≤ 0) (.err .invalidAmount)
  let reserveA ← plain (pool.reserveA + amountA)
  let reserveB ← plain (pool.reserveB + amountB)
  let totalLpTokens ← plain (pool.totalLpTokens + minted)
  let position ← getPosition provider poolId
  let lpTokens ← plain (position.lpTokens + minted)
  let added ← plain (amountA + amountB)
  let reward ← rewardForLiquidity added pool.rewardBps
  let rewardsEarned ← plain (position.rewardsEarned + reward)
  storePool { pool with reserveA, reserveB, totalLpTokens }
  storePosition { position with lpTokens, rewardsEarned }
  return minted

def removeLiquidity (provider : Address) (poolId : Nat) (lpAmount : Int) : L (Int × Int × Int) := do
  failIf (lpAmount ≤ 0) (.err .invalidAmount)
  let pool ← getPool poolId
  let position ← getPosition provider poolId
  failIf (position.lpTokens < lpAmount ∨ pool.totalLpTokens ≤ 0) (.err .invalidAmount)
  let amountA ← mulDiv pool.reserveA lpAmount pool.totalLpTokens
  let amountB ← mulDiv pool.reserveB lpAmount pool.totalLpTokens
  let reward ← mulDiv position.rewardsEarned lpAmount position.lpTokens
  let lpTokens ← plain (position.lpTokens - lpAmount)
  let rewardsEarned ← plain (position.rewardsEarned - reward)
  let reserveA ← plain (pool.reserveA - amountA)
  let reserveB ← plain (pool.reserveB - amountB)
  let totalLpTokens ← plain (pool.totalLpTokens - lpAmount)
  storePool { pool with reserveA, reserveB, totalLpTokens }
  storePosition { position with lpTokens, rewardsEarned }
  return (amountA, amountB, reward)

/-- The amount that goes out, and the reserves after it. -/
def swapReserves (poolType : PoolType) (amountAfterFee reserveIn reserveOut : Int) :
    L (Int × Int × Int) := do
  let out ← quoteSwap poolType amountAfterFee reserveIn reserveOut
  let newReserveIn ← plain (reserveIn + amountAfterFee)
  let newReserveOut ← plain (reserveOut - out)
  return (out, newReserveIn, newReserveOut)

/-- `swapReserves` in the direction that the input asset gives. -/
def swapSide (pool : LiquidityPool) (inputAsset : Bytes) (amountAfterFee : Int) : L (Int × Int × Int) :=
  if inputAsset = pool.assetA then swapReserves pool.poolType amountAfterFee pool.reserveA pool.reserveB
  else if inputAsset = pool.assetB then
    swapReserves pool.poolType amountAfterFee pool.reserveB pool.reserveA
  else Tx.fail (.err .invalidOperation)

def swap (poolId : Nat) (inputAsset : Bytes) (amountIn minAmountOut : Int) : L SwapResult := do
  failIf (amountIn ≤ 0) (.err .invalidAmount)
  let pool ← getPool poolId
  let feePaid ← mulDiv amountIn pool.feeBps BASIS_POINTS_DENOMINATOR
  let amountAfterFee ← plain (amountIn - feePaid)
  let (amountOut, newReserveIn, newReserveOut) ← swapSide pool inputAsset amountAfterFee
  failIf (amountOut < minAmountOut ∨ amountOut ≤ 0) (.err .invalidOperation)
  storePool (if inputAsset = pool.assetA then { pool with reserveA := newReserveIn, reserveB := newReserveOut }
    else { pool with reserveB := newReserveIn, reserveA := newReserveOut })
  return ⟨amountIn, amountOut, feePaid, newReserveIn, newReserveOut⟩

/-! ## Runs -/

/-- The entrypoints with their arguments. -/
inductive Call where
  | createPool (assetA assetB : Bytes) (poolType : PoolType) (feeBps rewardBps : Nat)
  | addLiquidity (provider : Address) (poolId : Nat) (amountA amountB : Int)
  | removeLiquidity (provider : Address) (poolId : Nat) (lpAmount : Int)
  | swap (poolId : Nat) (inputAsset : Bytes) (amountIn minAmountOut : Int)

def invoke : Call → L Unit
  | .createPool assetA assetB poolType feeBps rewardBps =>
    Tx.void (createPool assetA assetB poolType feeBps rewardBps)
  | .addLiquidity provider poolId amountA amountB => Tx.void (addLiquidity provider poolId amountA amountB)
  | .removeLiquidity provider poolId lpAmount => Tx.void (removeLiquidity provider poolId lpAmount)
  | .swap poolId inputAsset amountIn minAmountOut => Tx.void (swap poolId inputAsset amountIn minAmountOut)

/-- A call, or the time goes on. -/
inductive Event where
  | call (c : Call)
  | advance (ledger : Ledger)

def next (w : World) : Event → World
  | .call c => (invoke c).exec w
  | .advance ledger => { w with ledger }

def Allowed (w : World) : Event → Prop
  | .call _ => True
  | .advance ledger => w.ledger.Before ledger

instance (w : World) : (ev : Event) → Decidable (Allowed w ev)
  | .call _ => inferInstanceAs (Decidable True)
  | .advance ledger => inferInstanceAs (Decidable (w.ledger.Before ledger))

/-- The step relation of the runs. -/
def Step (w : World) (ev : Event) (w' : World) : Prop := Allowed w ev ∧ w' = next w ev

def World.deployed (ledger : Ledger) : World := ⟨ledger, 0, ∅, ∅⟩

/-! ## What a call that returned did -/

section Inversion

variable {w w' : World}

section Peel

variable {α β : Type} {b : β}

theorem bind_load_ok {f : Storage → α} {k : α → L β} :
    (load f >>= k) w = (.ok b, w') ↔ k (f w.store) w = (.ok b, w') := Iff.rfl

theorem bind_save_ok {f : Storage → Storage} {k : Unit → L β} :
    (save f >>= k) w = (.ok b, w') ↔ k () { w with store := f w.store } = (.ok b, w') := Iff.rfl

theorem bind_timestamp_ok {k : Nat → L β} :
    (timestamp >>= k) w = (.ok b, w') ↔ k w.ledger.timestamp w = (.ok b, w') := Iff.rfl

theorem bind_getPool_ok {poolId : Nat} {k : LiquidityPool → L β} : (getPool poolId >>= k) w = (.ok b, w') ↔
    ∃ pool, w.store.pools.lookup poolId = some pool ∧ k pool w = (.ok b, w') := bind_ofOption_ok

theorem bind_getPosition_ok {provider : Address} {poolId : Nat} {k : LiquidityPosition → L β} :
    (getPosition provider poolId >>= k) w = (.ok b, w') ↔
      k (w.store.position provider poolId) w = (.ok b, w') := Iff.rfl

theorem bind_storePool_ok {pool : LiquidityPool} {k : Unit → L β} :
    (storePool pool >>= k) w = (.ok b, w') ↔
      k () { w with store.pools := w.store.pools.insert pool.id pool } = (.ok b, w') := Iff.rfl

theorem bind_storePosition_ok {pos : LiquidityPosition} {k : Unit → L β} :
    (storePosition pos >>= k) w = (.ok b, w') ↔
      k () { w with store.positions := w.store.positions.insert (pos.provider, pos.poolId) pos } =
        (.ok b, w') := Iff.rfl

theorem plain_ok {x y : Int} : plain x w = (.ok y, w') ↔ InRange x ∧ x = y ∧ w = w' := ofOption_checked_ok

theorem bind_plain_ok {x : Int} {k : Int → L β} :
    (plain x >>= k) w = (.ok b, w') ↔ InRange x ∧ k x w = (.ok b, w') := bind_checked_ok

theorem bind_plainU64_ok {n : Nat} {k : Nat → L β} :
    (plainU64 n >>= k) w = (.ok b, w') ↔ n ≤ u64Max ∧ k n w = (.ok b, w') := bind_bounded_ok

theorem div_ok {x y z : Int} :
    div x y w = (.ok z, w') ↔ y ≠ 0 ∧ InRange (x.tdiv y) ∧ x.tdiv y = z ∧ w = w' := by
  rw [div, bind_failIf_ok, plain_ok]

theorem bind_div_ok {x y : Int} {k : Int → L β} :
    (div x y >>= k) w = (.ok b, w') ↔ y ≠ 0 ∧ InRange (x.tdiv y) ∧ k (x.tdiv y) w = (.ok b, w') := by
  rw [div, bind_assoc_eq, bind_failIf_ok, bind_plain_ok]

theorem bind_mulDiv_ok {x y z : Int} {k : Int → L β} :
    (mulDiv x y z >>= k) w = (.ok b, w') ↔ InRange (x * y) ∧ z ≠ 0 ∧ InRange ((x * y).tdiv z) ∧
      k ((x * y).tdiv z) w = (.ok b, w') := by
  rw [mulDiv, bind_assoc_eq, bind_plain_ok, bind_div_ok]

end Peel

/-! ### The square root -/

section Sqrt

variable {v x x0 x1 r : Int} {fuel : Nat}

theorem bind_sqrtStep_ok {β : Type} {b : β} {k : Int → L β} :
    (sqrtStep v x >>= k) w = (.ok b, w') ↔ (x ≠ 0 ∧ InRange (v.tdiv x) ∧ InRange (x + v.tdiv x) ∧
      InRange (newton v x)) ∧ k (newton v x) w = (.ok b, w') := by
  simp only [sqrtStep, bind_assoc_eq, bind_div_ok, bind_plain_ok, newton, ne_eq, OfNat.ofNat_ne_zero,
    not_false_eq_true, true_and, and_assoc]

/-- The loop goes down from above the root and stops at it. -/
theorem sqrtLoop_ok (hv : 0 < v) (hx : 0 < x0) (hx1 : x1 = newton v x0)
    (hupper : v < (x0 + 1) * (x0 + 1)) (h : sqrtLoop v fuel x0 x1 w = (.ok r, w')) :
    0 < r ∧ r * r ≤ v ∧ v < (r + 1) * (r + 1) := by
  induction fuel generalizing x0 x1 with
  | zero => exact absurd h fail_ok
  | succ fuel ih =>
    rw [sqrtLoop] at h
    subst hx1
    split at h
    · rw [bind_sqrtStep_ok] at h
      exact ih (newton_pos hv hx) rfl (newton_upper hv.le hx) h.2
    · rename_i hge
      obtain ⟨rfl, -⟩ := Tx.pure_ok.mp h
      exact ⟨hx, sq_le_of_le_newton hv.le hx (by omega), hupper⟩

theorem integerSqrt_ok (hv : 0 < v) (h : integerSqrt v w = (.ok r, w')) :
    0 < r ∧ r * r ≤ v ∧ v < (r + 1) * (r + 1) := by
  rw [integerSqrt, if_neg (by omega), bind_sqrtStep_ok] at h
  exact sqrtLoop_ok hv hv rfl (by nlinarith) h.2

/-- No step of the loop overflows. -/
theorem sqrtStep_inRange (hx : 0 < x) (hle : x ≤ v) (hv : v < i128Max) :
    InRange (v.tdiv x) ∧ InRange (x + v.tdiv x) ∧ InRange (newton v x) := by
  have hquot : 1 ≤ v / x := Int.le_ediv_of_mul_le hx (by omega)
  have hmul : v / x * x ≤ v := Int.ediv_mul_le v hx.ne'
  have hsum : x + v / x ≤ v + 1 := by nlinarith
  rw [newton_eq (by omega) hx, Int.tdiv_eq_ediv_of_nonneg (by omega)]
  unfold InRange i128Min
  omega

/-- The fuel of the loop is enough. -/
theorem sqrtLoop_returns (hx : 0 < x0) (hle : x0 ≤ v) (hv : v < i128Max) (hfuel : x0 ≤ fuel) :
    ∃ r, sqrtLoop v fuel x0 (newton v x0) w = (.ok r, w) := by
  induction fuel generalizing x0 with
  | zero => omega
  | succ fuel ih =>
    rw [sqrtLoop]
    split
    · rename_i hlt
      have hpos : 0 < newton v x0 := newton_pos (by omega) hx
      obtain ⟨r, hr⟩ := ih hpos (by omega) (by omega)
      exact ⟨r, bind_sqrtStep_ok.mpr ⟨⟨hpos.ne', sqrtStep_inRange hpos (by omega) hv⟩, hr⟩⟩
    · exact ⟨x0, rfl⟩

/-- Every value has a root but the largest, for which the first step overflows. -/
theorem integerSqrt_returns (hv : v < i128Max) : ∃ r, integerSqrt v w = (.ok r, w) := by
  rw [integerSqrt]
  split
  · exact ⟨0, rfl⟩
  · rename_i hpos
    have hloop : ∃ r, sqrtLoop v v.toNat v (newton v v) w = (.ok r, w) :=
      sqrtLoop_returns (by omega) le_rfl hv (by omega)
    obtain ⟨r, hr⟩ := hloop
    exact ⟨r, bind_sqrtStep_ok.mpr ⟨⟨by omega, sqrtStep_inRange (by omega) le_rfl hv⟩, hr⟩⟩

theorem reads_plain (x : Int) : Tx.Reads (plain x) := reads_ofOption _ _

theorem reads_div (x y : Int) : Tx.Reads (div x y) := reads_bind (reads_failIf _ _) fun _ => reads_plain _

theorem reads_sqrtStep (v x : Int) : Tx.Reads (sqrtStep v x) :=
  reads_bind (reads_div _ _) fun _ => reads_bind (reads_plain _) fun _ => reads_div _ _

theorem reads_sqrtLoop (v : Int) (fuel : Nat) (x0 x1 : Int) : Tx.Reads (sqrtLoop v fuel x0 x1) := by
  induction fuel generalizing x0 x1 with
  | zero => exact fun _ => rfl
  | succ fuel ih =>
    rw [sqrtLoop]
    split
    · exact reads_bind (reads_sqrtStep _ _) fun _ => ih _ _
    · exact fun _ => rfl

theorem reads_integerSqrt (v : Int) : Tx.Reads (integerSqrt v) := by
  rw [integerSqrt]
  split
  · exact fun _ => rfl
  · exact reads_bind (reads_sqrtStep _ _) fun _ => reads_sqrtLoop _ _ _ _

end Sqrt

/-! ### The functions -/

theorem createPool_ok {assetA assetB : Bytes} {poolType : PoolType} {feeBps rewardBps id : Nat}
    (h : createPool assetA assetB poolType feeBps rewardBps w = (.ok id, w')) :
    id = w.store.poolCounter + 1 ∧ w'.store = { w.store with
      poolCounter := id
      pools := w.store.pools.insert id
        ⟨id, assetA, assetB, 0, 0, 0, feeBps, rewardBps, poolType, w.ledger.timestamp⟩ } := by
  simp only [createPool, nextPoolId, bind_assoc_eq, pure_bind_eq, bind_failIf_ok, bind_load_ok,
    bind_plainU64_ok, bind_save_ok, bind_timestamp_ok, bind_storePool_ok, pure_ok] at h
  obtain ⟨-, -, rfl, rfl⟩ := h
  exact ⟨rfl, rfl⟩

/-- A pool and a position in it are written. -/
def Storage.updated (s : Storage) (pool : LiquidityPool) (pos : LiquidityPosition) : Storage :=
  { s with
    pools := s.pools.insert pool.id pool
    positions := s.positions.insert (pos.provider, pos.poolId) pos }

/-- What `mintedLp` computes: a root rounded down, or the smaller of two proportions rounded down. -/
def Minted (pool : LiquidityPool) (amountA amountB minted : Int) : Prop :=
  if pool.totalLpTokens = 0 then
    minted * minted ≤ amountA * amountB ∧ amountA * amountB < (minted + 1) * (minted + 1)
  else pool.reserveA ≠ 0 ∧ pool.reserveB ≠ 0 ∧ minted =
    min ((amountA * pool.totalLpTokens).tdiv pool.reserveA) ((amountB * pool.totalLpTokens).tdiv pool.reserveB)

theorem mintedLp_ok {pool : LiquidityPool} {amountA amountB minted : Int} (ha : 0 < amountA) (hb : 0 < amountB)
    (h : mintedLp pool amountA amountB w = (.ok minted, w')) :
    Minted pool amountA amountB minted ∧ w' = w := by
  rw [mintedLp] at h
  rw [Minted]
  split at h
  · rename_i htotal
    rw [bind_plain_ok] at h
    have hroot := integerSqrt_ok (Int.mul_pos ha hb) h.2
    have hreads := reads_integerSqrt (amountA * amountB) w
    rw [h.2] at hreads
    rw [if_pos htotal]
    exact ⟨hroot.2, hreads⟩
  · rename_i htotal
    simp only [bind_mulDiv_ok, pure_ok] at h
    obtain ⟨-, hA, -, -, hB, -, hmin, hw⟩ := h
    rw [if_neg htotal]
    exact ⟨⟨hA, hB, hmin.symm⟩, hw.symm⟩

theorem addLiquidity_ok {provider : Address} {poolId : Nat} {amountA amountB minted : Int}
    (h : addLiquidity provider poolId amountA amountB w = (.ok minted, w')) :
    0 < amountA ∧ 0 < amountB ∧ 0 < minted ∧ ∃ pool, w.store.pools.lookup poolId = some pool ∧
      Minted pool amountA amountB minted ∧ w'.store = w.store.updated
        { pool with
          reserveA := pool.reserveA + amountA
          reserveB := pool.reserveB + amountB
          totalLpTokens := pool.totalLpTokens + minted }
        { w.store.position provider poolId with
          lpTokens := (w.store.position provider poolId).lpTokens + minted
          rewardsEarned := (w.store.position provider poolId).rewardsEarned +
            ((amountA + amountB) * pool.rewardBps).tdiv BASIS_POINTS_DENOMINATOR } := by
  rw [addLiquidity, bind_failIf_ok, bind_getPool_ok] at h
  obtain ⟨hamounts, pool, hpool, h⟩ := h
  have ha : 0 < amountA := by omega
  have hb : 0 < amountB := by omega
  rw [bind_ok] at h
  obtain ⟨m, w₁, hm, h⟩ := h
  obtain ⟨hminted, rfl⟩ := mintedLp_ok ha hb hm
  simp only [rewardForLiquidity, bind_failIf_ok, bind_plain_ok, bind_getPosition_ok, bind_mulDiv_ok,
    bind_storePool_ok, bind_storePosition_ok, pure_ok] at h
  obtain ⟨hpos, -, -, -, -, -, -, -, -, -, rfl, rfl⟩ := h
  exact ⟨ha, hb, by omega, pool, hpool, hminted, rfl⟩

theorem removeLiquidity_ok {provider : Address} {poolId : Nat} {lpAmount : Int} {r : Int × Int × Int}
    (h : removeLiquidity provider poolId lpAmount w = (.ok r, w')) :
    0 < lpAmount ∧ lpAmount ≤ (w.store.position provider poolId).lpTokens ∧
      ∃ pool, w.store.pools.lookup poolId = some pool ∧ 0 < pool.totalLpTokens ∧
        r = ((pool.reserveA * lpAmount).tdiv pool.totalLpTokens,
          (pool.reserveB * lpAmount).tdiv pool.totalLpTokens,
          ((w.store.position provider poolId).rewardsEarned * lpAmount).tdiv
            (w.store.position provider poolId).lpTokens) ∧
        w'.store = w.store.updated
          { pool with
            reserveA := pool.reserveA - r.1
            reserveB := pool.reserveB - r.2.1
            totalLpTokens := pool.totalLpTokens - lpAmount }
          { w.store.position provider poolId with
            lpTokens := (w.store.position provider poolId).lpTokens - lpAmount
            rewardsEarned := (w.store.position provider poolId).rewardsEarned - r.2.2 } := by
  simp only [removeLiquidity, bind_failIf_ok, bind_getPool_ok, bind_getPosition_ok, bind_mulDiv_ok,
    bind_plain_ok, bind_storePool_ok, bind_storePosition_ok, pure_ok] at h
  obtain ⟨hlp, pool, hpool, hguard, -, -, -, -, -, -, -, -, -, -, -, -, -, -, rfl, rfl⟩ := h
  exact ⟨by omega, by omega, pool, hpool, by omega, rfl, rfl⟩

/-- The quote of the pool for what is left of the input after the fee. -/
def quote (poolType : PoolType) (amountIn reserveIn reserveOut : Int) : Int :=
  match poolType with
  | .constantProduct => (amountIn * reserveOut).tdiv (reserveIn + amountIn)
  | .stableSwap => min amountIn reserveOut

theorem quoteSwap_ok {poolType : PoolType} {amountIn reserveIn reserveOut out : Int}
    (h : quoteSwap poolType amountIn reserveIn reserveOut w = (.ok out, w')) :
    0 < reserveIn ∧ 0 < reserveOut ∧ out = quote poolType amountIn reserveIn reserveOut ∧ w' = w := by
  cases poolType with
  | constantProduct =>
    simp only [quoteSwap, bind_failIf_ok, bind_plain_ok, div_ok] at h
    obtain ⟨hguard, -, -, -, -, hout, hw⟩ := h
    exact ⟨by omega, by omega, hout.symm, hw.symm⟩
  | stableSwap =>
    simp only [quoteSwap, bind_failIf_ok, pure_ok] at h
    obtain ⟨hguard, hout, hw⟩ := h
    exact ⟨by omega, by omega, hout.symm, hw.symm⟩

theorem swapReserves_ok {poolType : PoolType} {amount reserveIn reserveOut : Int} {r : Int × Int × Int}
    (h : swapReserves poolType amount reserveIn reserveOut w = (.ok r, w')) :
    0 < reserveIn ∧ 0 < reserveOut ∧ r = (quote poolType amount reserveIn reserveOut, reserveIn + amount,
      reserveOut - quote poolType amount reserveIn reserveOut) ∧ w' = w := by
  rw [swapReserves, bind_ok] at h
  obtain ⟨out, w₁, hout, h⟩ := h
  obtain ⟨hin, hrout, rfl, rfl⟩ := quoteSwap_ok hout
  simp only [bind_plain_ok, pure_ok] at h
  obtain ⟨-, -, rfl, rfl⟩ := h
  exact ⟨hin, hrout, rfl, rfl⟩

/-- What is left of the input after the fee. -/
def LiquidityPool.afterFee (pool : LiquidityPool) (amountIn : Int) : Int :=
  amountIn - (amountIn * pool.feeBps).tdiv BASIS_POINTS_DENOMINATOR

/-- The reserve of the asset that comes in, and of the other. -/
def LiquidityPool.sides (pool : LiquidityPool) (inputAsset : Bytes) : Int × Int :=
  if inputAsset = pool.assetA then (pool.reserveA, pool.reserveB) else (pool.reserveB, pool.reserveA)

def LiquidityPool.withSides (pool : LiquidityPool) (inputAsset : Bytes) (reserves : Int × Int) : LiquidityPool :=
  if inputAsset = pool.assetA then { pool with reserveA := reserves.1, reserveB := reserves.2 }
  else { pool with reserveB := reserves.1, reserveA := reserves.2 }

theorem swapSide_ok {pool : LiquidityPool} {input : Bytes} {amount : Int} {r : Int × Int × Int}
    (h : swapSide pool input amount w = (.ok r, w')) :
    (input = pool.assetA ∨ input = pool.assetB) ∧ 0 < (pool.sides input).1 ∧ 0 < (pool.sides input).2 ∧
      r = (quote pool.poolType amount (pool.sides input).1 (pool.sides input).2, (pool.sides input).1 + amount,
        (pool.sides input).2 - quote pool.poolType amount (pool.sides input).1 (pool.sides input).2) ∧
      w' = w := by
  rw [swapSide] at h
  rw [LiquidityPool.sides]
  split at h
  · rename_i hA
    rw [if_pos hA]
    exact ⟨.inl hA, swapReserves_ok h⟩
  · rename_i hA
    rw [if_neg hA]
    split at h
    · rename_i hB
      exact ⟨.inr hB, swapReserves_ok h⟩
    · exact absurd h fail_ok

theorem swap_ok {poolId : Nat} {input : Bytes} {amountIn minOut : Int} {r : SwapResult}
    (h : swap poolId input amountIn minOut w = (.ok r, w')) :
    0 < amountIn ∧ ∃ pool, w.store.pools.lookup poolId = some pool ∧
      (input = pool.assetA ∨ input = pool.assetB) ∧ 0 < (pool.sides input).1 ∧ 0 < (pool.sides input).2 ∧
      r.amountOut = quote pool.poolType (pool.afterFee amountIn) (pool.sides input).1 (pool.sides input).2 ∧
      minOut ≤ r.amountOut ∧ 0 < r.amountOut ∧
      w'.store = { w.store with pools := w.store.pools.insert pool.id (pool.withSides input
        ((pool.sides input).1 + pool.afterFee amountIn, (pool.sides input).2 - r.amountOut)) } := by
  simp only [swap, bind_failIf_ok, bind_getPool_ok, bind_mulDiv_ok, bind_plain_ok] at h
  obtain ⟨hin, pool, hpool, -, -, -, -, h⟩ := h
  rw [bind_ok] at h
  obtain ⟨⟨out, newIn, newOut⟩, w₁, hside, h⟩ := h
  obtain ⟨hasset, hrin, hrout, hr, rfl⟩ := swapSide_ok hside
  obtain ⟨rfl, rfl, rfl⟩ : _ ∧ _ ∧ _ := by simpa only [Prod.mk.injEq] using hr
  simp only [bind_failIf_ok, bind_storePool_ok, pure_ok] at h
  obtain ⟨hguard, rfl, rfl⟩ := h
  rw [not_or, not_lt, not_le] at hguard
  refine ⟨by omega, pool, hpool, hasset, hrin, hrout, rfl, hguard.1, hguard.2, ?_⟩
  rw [LiquidityPool.withSides]
  split <;> rfl

end Inversion

end CallStake.Liquidity
