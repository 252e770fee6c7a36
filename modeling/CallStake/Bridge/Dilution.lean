import CallStake.Bridge.Pools

/-!
# What an LP token is worth

The value of an LP token of a constant product pool is the root of the product of the reserves, by the number of
LP tokens. Every rounding is in favour of the pool, so no call lowers it, and nobody can take out of the pool
more than was put in.

* `Undiluted p q`: an LP token is worth at least as much in `q` as in `p`. `PoolMove`: what a call can do to a
  pool; `PoolMove.undiluted`: it dilutes nobody.
* `lp_tokens_not_diluted`: in every run, while there are LP tokens; no gain from swaps in a row, and none from a
  deposit that is taken back.

The rewards that a position earns are not in the assets of the pool.
-/

namespace CallStake.Liquidity

/-- A constant product pool with a fee of at most 100%. -/
def LiquidityPool.Ordinary (pool : LiquidityPool) : Prop := pool.poolType = .constantProduct ∧ pool.feeBps ≤ 10000

/-- `reserveA * reserveB / totalLpTokens ^ 2` does not go down. -/
def Undiluted (p q : LiquidityPool) : Prop :=
  p.reserveA * p.reserveB * q.totalLpTokens ^ 2 ≤ q.reserveA * q.reserveB * p.totalLpTokens ^ 2

theorem Undiluted.trans {p q r : LiquidityPool} (hpq : Undiluted p q) (hqr : Undiluted q r)
    (hq : 0 < q.totalLpTokens) : Undiluted p r :=
  ratio_trans hpq hqr (sq_nonneg _) (pow_pos hq 2) (sq_nonneg _)

/-- The values of the two assets for one LP token each do not go down. -/
theorem undiluted_of_sides {p q : LiquidityPool} (hA : 0 ≤ p.reserveA) (hB : 0 ≤ p.reserveB)
    (hq : 0 ≤ q.totalLpTokens)
    (hsideA : p.reserveA * q.totalLpTokens ≤ q.reserveA * p.totalLpTokens)
    (hsideB : p.reserveB * q.totalLpTokens ≤ q.reserveB * p.totalLpTokens) : Undiluted p q := by
  have hmul := mul_le_mul hsideA hsideB (Int.mul_nonneg hB hq) ((Int.mul_nonneg hA hq).trans hsideA)
  calc p.reserveA * p.reserveB * q.totalLpTokens ^ 2
      = p.reserveA * q.totalLpTokens * (p.reserveB * q.totalLpTokens) := by ring
    _ ≤ q.reserveA * p.totalLpTokens * (q.reserveB * p.totalLpTokens) := hmul
    _ = q.reserveA * q.reserveB * p.totalLpTokens ^ 2 := by ring

/-! ## What a call can do to a pool -/

/-- The pool after a deposit. -/
def LiquidityPool.added (pool : LiquidityPool) (amountA amountB minted : Int) : LiquidityPool :=
  { pool with
    reserveA := pool.reserveA + amountA
    reserveB := pool.reserveB + amountB
    totalLpTokens := pool.totalLpTokens + minted }

/-- The pool after LP tokens are given back. -/
def LiquidityPool.removed (pool : LiquidityPool) (lpAmount : Int) : LiquidityPool :=
  { pool with
    reserveA := pool.reserveA - (pool.reserveA * lpAmount).tdiv pool.totalLpTokens
    reserveB := pool.reserveB - (pool.reserveB * lpAmount).tdiv pool.totalLpTokens
    totalLpTokens := pool.totalLpTokens - lpAmount }

/-- The quote of the pool for the input. -/
def LiquidityPool.quoted (pool : LiquidityPool) (input : Bytes) (amountIn : Int) : Int :=
  quote pool.poolType (pool.afterFee amountIn) (pool.sides input).1 (pool.sides input).2

/-- The pool after a swap. -/
def LiquidityPool.swapped (pool : LiquidityPool) (input : Bytes) (amountIn : Int) : LiquidityPool :=
  pool.withSides input
    ((pool.sides input).1 + pool.afterFee amountIn, (pool.sides input).2 - pool.quoted input amountIn)

/-- What one step does to a pool. -/
inductive PoolMove (pool : LiquidityPool) : LiquidityPool → Prop where
  | same : PoolMove pool pool
  | added {amountA amountB minted : Int} (hA : 0 < amountA) (hB : 0 < amountB) (hminted : 0 < minted)
    (h : Minted pool amountA amountB minted) : PoolMove pool (pool.added amountA amountB minted)
  | removed {lpAmount : Int} (hlp : 0 < lpAmount) (htotal : 0 < pool.totalLpTokens) :
    PoolMove pool (pool.removed lpAmount)
  | swapped {input : Bytes} {amountIn : Int} (hin : 0 < amountIn) (hreserveIn : 0 < (pool.sides input).1)
    (hreserveOut : 0 < (pool.sides input).2) (hout : 0 < pool.quoted input amountIn) :
    PoolMove pool (pool.swapped input amountIn)

section Moves

variable {w w' : World} {target poolId : Nat} {pool pool' : LiquidityPool}

/-- A write to one pool, seen at any pool. -/
theorem Keyed.move_of_written (h : Keyed w.store) (hpool : w.store.pools.lookup target = some pool)
    {before after : LiquidityPool} (hbefore : w.store.pools.lookup poolId = some before)
    (hid : after.id = before.id) (hmove : PoolMove before after) :
    ∃ pool', (w.store.pools.insert after.id after).lookup target = some pool' ∧ PoolMove pool pool' := by
  rw [h.lookup_written hbefore hid target]
  split
  · rename_i heq
    subst heq
    rw [hbefore] at hpool
    cases hpool
    exact ⟨after, rfl, hmove⟩
  · exact ⟨pool, hpool, .same⟩

theorem swap_move {input : Bytes} {amountIn minOut : Int} {r : SwapResult}
    (hc : swap poolId input amountIn minOut w = (.ok r, w')) :
    ∃ pool, w.store.pools.lookup poolId = some pool ∧ PoolMove pool (pool.swapped input amountIn) ∧
      r.amountOut = pool.quoted input amountIn ∧
      (pool.swapped input amountIn).id = pool.id ∧ w'.store = { w.store with
        pools := w.store.pools.insert (pool.swapped input amountIn).id (pool.swapped input amountIn) } := by
  obtain ⟨hin, pool, hpool, -, hrin, hrout, hquote, -, hpos, hw⟩ := swap_ok hc
  have hid : (pool.swapped input amountIn).id = pool.id := (withSides_kept pool input _).1
  rw [hquote] at hpos hw
  refine ⟨pool, hpool, .swapped hin hrin hrout hpos, hquote, hid, ?_⟩
  rw [hid]
  exact hw

/-- A step does to each pool one of the moves. -/
theorem Keyed.move {ev : Event} (h : Keyed w.store) (hpool : w.store.pools.lookup target = some pool)
    (hs : Step w ev w') :
    ∃ pool', w'.store.pools.lookup target = some pool' ∧ PoolMove pool pool' := by
  obtain ⟨-, rfl⟩ := hs
  cases ev with
  | advance => exact ⟨pool, hpool, .same⟩
  | call c =>
    rw [next]
    rcases Tx.exec_cases (invoke c) w with ⟨u, hok⟩ | hsame
    · cases c with
      | createPool =>
        obtain ⟨id, hc⟩ := Tx.void_ok.mp hok
        obtain ⟨rfl, hw⟩ := createPool_ok hc
        have hkey := (h.poolKey target pool hpool).2
        rw [hw]
        refine ⟨pool, ?_, .same⟩
        dsimp only
        rw [Store.lookup_insert_eq, if_neg (by omega), hpool]
      | addLiquidity =>
        obtain ⟨minted, hc⟩ := Tx.void_ok.mp hok
        obtain ⟨hA, hB, hminted, before, hbefore, hlp, hw⟩ := addLiquidity_ok hc
        rw [hw]
        exact h.move_of_written hpool hbefore rfl (.added hA hB hminted hlp)
      | removeLiquidity =>
        obtain ⟨r, hc⟩ := Tx.void_ok.mp hok
        obtain ⟨hlp, -, before, hbefore, htotal, rfl, hw⟩ := removeLiquidity_ok hc
        rw [hw]
        exact h.move_of_written hpool hbefore rfl (.removed hlp htotal)
      | swap =>
        obtain ⟨r, hc⟩ := Tx.void_ok.mp hok
        obtain ⟨before, hbefore, hmove, -, hid, hw⟩ := swap_move hc
        rw [hw]
        exact h.move_of_written hpool hbefore hid hmove
    · rw [hsame]
      exact ⟨pool, hpool, .same⟩

theorem Keyed.step {ev : Event} (h : Keyed w.store) (hs : Step w ev w') : Keyed w'.store := by
  obtain ⟨-, rfl⟩ := hs
  cases ev with
  | advance => exact h
  | call c =>
    rw [next]
    rcases Tx.exec_cases (invoke c) w with ⟨u, hok⟩ | hsame
    · cases c with
      | createPool =>
        obtain ⟨id, hc⟩ := Tx.void_ok.mp hok
        obtain ⟨rfl, hw⟩ := createPool_ok hc
        rw [hw]
        exact h.created rfl
      | addLiquidity provider poolId =>
        obtain ⟨minted, hc⟩ := Tx.void_ok.mp hok
        obtain ⟨-, -, -, before, hbefore, -, hw⟩ := addLiquidity_ok hc
        rw [hw]
        exact h.updated hbefore rfl (h.position_key provider poolId).2
      | removeLiquidity provider poolId =>
        obtain ⟨r, hc⟩ := Tx.void_ok.mp hok
        obtain ⟨-, -, before, hbefore, -, -, hw⟩ := removeLiquidity_ok hc
        rw [hw]
        exact h.updated hbefore rfl (h.position_key provider poolId).2
      | swap =>
        obtain ⟨r, hc⟩ := Tx.void_ok.mp hok
        obtain ⟨before, hbefore, -, -, hid, hw⟩ := swap_move hc
        rw [hw]
        exact h.repriced hbefore hid
    · rw [hsame]
      exact h

theorem PoolMove.ordinary_iff (h : PoolMove pool pool') : pool'.Ordinary ↔ pool.Ordinary := by
  cases h with
  | same => exact Iff.rfl
  | added => exact Iff.rfl
  | removed => exact Iff.rfl
  | swapped =>
    unfold LiquidityPool.swapped LiquidityPool.withSides
    split <;> exact Iff.rfl

end Moves

/-! ## No move dilutes -/

section Values

variable {pool pool' : LiquidityPool}

/-- The fee is a part of the input. -/
theorem LiquidityPool.Ordinary.afterFee (h : pool.Ordinary) {amountIn : Int} (hin : 0 ≤ amountIn) :
    0 ≤ pool.afterFee amountIn ∧ pool.afterFee amountIn ≤ amountIn := by
  have hfee : (pool.feeBps : Int) ≤ BASIS_POINTS_DENOMINATOR := by
    have := h.2
    unfold BASIS_POINTS_DENOMINATOR
    omega
  have hle := proportion_le hin (by omega : 0 ≤ (pool.feeBps : Int)) hfee (by decide)
  have hnonneg := proportion_nonneg hin (by omega : 0 ≤ (pool.feeBps : Int))
    (by decide : 0 ≤ BASIS_POINTS_DENOMINATOR)
  unfold LiquidityPool.afterFee
  omega

/-- Along the constant product, the output is rounded down. -/
theorem constantProduct_le {amount reserveIn reserveOut : Int} (hamount : 0 ≤ amount) (hin : 0 < reserveIn)
    (hout : 0 < reserveOut) : reserveIn * reserveOut ≤
      (reserveIn + amount) * (reserveOut - quote .constantProduct amount reserveIn reserveOut) := by
  have h := remainder_le hout.le hamount (by omega : 0 < reserveIn + amount)
  rw [show reserveIn + amount - amount = reserveIn by omega] at h
  rw [quote, Int.mul_comm amount reserveOut]
  calc reserveIn * reserveOut = reserveOut * reserveIn := Int.mul_comm _ _
    _ ≤ _ := h
    _ = _ := Int.mul_comm _ _

/-- The reserves in either order have the same product. -/
theorem sides_mul (pool : LiquidityPool) (input : Bytes) :
    (pool.sides input).1 * (pool.sides input).2 = pool.reserveA * pool.reserveB := by
  unfold LiquidityPool.sides
  split
  · rfl
  · exact Int.mul_comm _ _

theorem withSides_mul (pool : LiquidityPool) (input : Bytes) (reserves : Int × Int) :
    (pool.withSides input reserves).reserveA * (pool.withSides input reserves).reserveB =
      reserves.1 * reserves.2 := by
  unfold LiquidityPool.withSides
  split
  · rfl
  · exact Int.mul_comm _ _

theorem LiquidityPool.Ordinary.swapped_mul_le (h : pool.Ordinary) {input : Bytes} {amountIn : Int}
    (hin : 0 < amountIn) (hrin : 0 < (pool.sides input).1) (hrout : 0 < (pool.sides input).2) :
    pool.reserveA * pool.reserveB ≤
      (pool.swapped input amountIn).reserveA * (pool.swapped input amountIn).reserveB := by
  rw [LiquidityPool.swapped, withSides_mul, ← sides_mul pool input, LiquidityPool.quoted, h.1]
  exact constantProduct_le (h.afterFee hin.le).1 hrin hrout

/-- A depositor gets at most the part of the LP tokens that its deposit is of each reserve. -/
theorem Minted.le {amountA amountB minted : Int} (h : Minted pool amountA amountB minted)
    (htotal : 0 < pool.totalLpTokens) (hA : 0 < pool.reserveA) (hB : 0 < pool.reserveB) (ha : 0 < amountA)
    (hb : 0 < amountB) : minted * pool.reserveA ≤ amountA * pool.totalLpTokens ∧
      minted * pool.reserveB ≤ amountB * pool.totalLpTokens := by
  rw [Minted, if_neg htotal.ne'] at h
  obtain ⟨-, -, rfl⟩ := h
  constructor
  · calc _ ≤ (amountA * pool.totalLpTokens).tdiv pool.reserveA * pool.reserveA :=
        Int.mul_le_mul_of_nonneg_right (min_le_left _ _) hA.le
      _ ≤ _ := proportion_mul_le ha.le htotal.le hA
  · calc _ ≤ (amountB * pool.totalLpTokens).tdiv pool.reserveB * pool.reserveB :=
        Int.mul_le_mul_of_nonneg_right (min_le_right _ _) hB.le
      _ ≤ _ := proportion_mul_le hb.le htotal.le hB

theorem PoolMove.undiluted (h : PoolMove pool pool') (hord : pool.Ordinary) (hbacked : pool.Backed)
    (htotal : 0 < pool.totalLpTokens) (htotal' : 0 < pool'.totalLpTokens) : Undiluted pool pool' := by
  obtain ⟨hA, hB⟩ := hbacked.reserves htotal
  cases h with
  | same => exact le_rfl
  | added ha hb _ h =>
    obtain ⟨hleA, hleB⟩ := h.le htotal hA hB ha hb
    refine undiluted_of_sides hA.le hB.le htotal'.le ?_ ?_
    · unfold LiquidityPool.added
      linarith
    · unfold LiquidityPool.added
      linarith
  | @removed lpAmount hlp =>
    refine undiluted_of_sides hA.le hB.le htotal'.le ?_ ?_
    · exact remainder_le hA.le hlp.le htotal
    · exact remainder_le hB.le hlp.le htotal
  | @swapped input amountIn hin hrin hrout =>
    have hkept : (pool.swapped input amountIn).totalLpTokens = pool.totalLpTokens := (withSides_kept pool input _).2
    unfold Undiluted
    rw [hkept]
    exact Int.mul_le_mul_of_nonneg_right (hord.swapped_mul_le hin hrin hrout) (sq_nonneg _)

end Values

/-! ## Runs -/

section Runs

variable {w w' : World} {target : Nat} {pool pool' : LiquidityPool}

/-- A fee of at most 100% leaves an input that is not negative. -/
theorem coveredIn_of_ordinary (h : ∀ pool ∈ w.store.pools.lookup target, pool.Ordinary) (ev : Event) :
    CoveredIn target w ev := by
  unfold CoveredIn
  split
  · rintro rfl pool hpool hin - hrin -
    have hafter := ((h pool hpool).afterFee hin.le).1
    rw [LiquidityPool.Covers, (h pool hpool).1, Covers]
    omega
  · trivial

/-- The keys are right, and so are the books of the pool if it is an ordinary one. -/
structure OrdinarySound (target : Nat) (s : Storage) : Prop where
  keyed : Keyed s
  sound : (∀ pool ∈ s.pools.lookup target, pool.Ordinary) → Sound s target

theorem OrdinarySound.step {ev : Event} (h : OrdinarySound target w.store) (hs : Step w ev w') :
    OrdinarySound target w'.store where
  keyed := h.keyed.step hs
  sound hord := by
    have hord' : ∀ pool ∈ w.store.pools.lookup target, pool.Ordinary := by
      intro pool hpool
      obtain ⟨pool', hpool', hmove⟩ := h.keyed.move hpool hs
      exact hmove.ordinary_iff.mp (hord pool' hpool')
    exact (h.sound hord').step (coveredIn_of_ordinary hord' ev) hs

theorem OrdinarySound.of_reaches {ledger : Ledger} (h : Reaches Step (.deployed ledger) w) :
    OrdinarySound target w.store :=
  h.invariant (I := fun w => OrdinarySound target w.store)
    ⟨((Inv.deployed ledger).sound target).toKeyed, fun _ => (Inv.deployed ledger).sound target⟩
    fun _ _ _ hi hs => hi.step hs

theorem OrdinarySound.sound_of (h : OrdinarySound target w.store) (hpool : w.store.pools.lookup target = some pool)
    (hord : pool.Ordinary) : Sound w.store target :=
  h.sound fun p hp => by
    rw [hpool] at hp
    cases hp
    exact hord

/-- There are LP tokens. -/
def Live (target : Nat) (s : Storage) : Prop := ∃ pool ∈ s.pools.lookup target, 0 < pool.totalLpTokens
  deriving Decidable

/-- A step between states with LP tokens. -/
def LiveStep (target : Nat) (a : World) (ev : Event) (b : World) : Prop := Step a ev b ∧ Live target b.store

/-- What is known, relative to the pool at the start, while there are LP tokens. -/
structure Held (target : Nat) (start : LiquidityPool) (s : Storage) : Prop where
  sound : OrdinarySound target s
  kept : ∃ pool, s.pools.lookup target = some pool ∧ pool.Ordinary ∧ 0 < pool.totalLpTokens ∧ Undiluted start pool

theorem Held.step {start : LiquidityPool} {ev : Event} (h : Held target start w.store)
    (hs : LiveStep target w ev w') : Held target start w'.store where
  sound := h.sound.step hs.1
  kept := by
    obtain ⟨pool, hpool, hord, htotal, hvalue⟩ := h.kept
    obtain ⟨pool', hpool', hmove⟩ := h.sound.keyed.move hpool hs.1
    obtain ⟨_, hlive, htotal'⟩ := hs.2
    rw [hpool'] at hlive
    cases hlive
    have hbacked := (h.sound.sound_of hpool hord).backed pool hpool
    exact ⟨pool', hpool', hmove.ordinary_iff.mpr hord, htotal',
      hvalue.trans (hmove.undiluted hord hbacked htotal htotal') htotal⟩

theorem undiluted_of_run (h : OrdinarySound target w.store) (hpool : w.store.pools.lookup target = some pool)
    (hord : pool.Ordinary) (htotal : 0 < pool.totalLpTokens) (hrun : Reaches (LiveStep target) w w')
    (hpool' : w'.store.pools.lookup target = some pool') : Undiluted pool pool' := by
  have hheld := hrun.invariant (I := fun w => Held target pool w.store)
    ⟨h, pool, hpool, hord, htotal, le_rfl⟩ fun _ _ _ hi hs => hi.step hs
  obtain ⟨_, hlookup, -, -, hvalue⟩ := hheld.kept
  rw [hpool'] at hlookup
  cases hlookup
  exact hvalue

/-! ## Swaps in a row -/

/-- What a trader asks of a pool. -/
structure Order where
  input : Bytes
  amountIn : Int
  minOut : Int

/-- What the trader gets of the two assets by a swap. -/
def LiquidityPool.gain (pool : LiquidityPool) (o : Order) (r : SwapResult) : Int × Int :=
  if o.input = pool.assetA then (-o.amountIn, r.amountOut) else (r.amountOut, -o.amountIn)

/-- What the trader gets of the two assets by swaps in a row, each a call of its own, and the state after them. -/
def traded (poolId : Nat) : List Order → World → (Int × Int) × World
  | [], w => ((0, 0), w)
  | o :: os, w =>
    match swap poolId o.input o.amountIn o.minOut w, w.store.pools.lookup poolId with
    | (.ok r, w'), some pool =>
      (pool.gain o r + (traded poolId os w').1, (traded poolId os w').2)
    | _, _ => traded poolId os w

/-- More of one asset, and no less of the other. -/
def Profit (gain : Int × Int) : Prop := 0 < gain.1 ∧ 0 ≤ gain.2 ∨ 0 ≤ gain.1 ∧ 0 < gain.2

/-- What the trader got came out of the reserves, and their product did not go down. -/
structure Paid (pool pool' : LiquidityPool) (gain : Int × Int) : Prop where
  fromA : pool'.reserveA + gain.1 ≤ pool.reserveA
  fromB : pool'.reserveB + gain.2 ≤ pool.reserveB
  product : pool.reserveA * pool.reserveB ≤ pool'.reserveA * pool'.reserveB
  total : pool'.totalLpTokens = pool.totalLpTokens

theorem Paid.trans {p q r : LiquidityPool} {g₁ g₂ : Int × Int} (h₁ : Paid p q g₁) (h₂ : Paid q r g₂) :
    Paid p r (g₁ + g₂) where
  fromA := by
    have h := h₁.fromA
    have h' := h₂.fromA
    rw [Prod.fst_add]
    omega
  fromB := by
    have h := h₁.fromB
    have h' := h₂.fromB
    rw [Prod.snd_add]
    omega
  product := h₁.product.trans h₂.product
  total := h₂.total.trans h₁.total

/-- With less of one reserve and no more of the other, the product would be smaller. -/
theorem Paid.not_profit {gain : Int × Int} (h : Paid pool pool' gain) (hbacked : pool.Backed)
    (hbacked' : pool'.Backed) (htotal : 0 ≤ pool.totalLpTokens) : ¬ Profit gain := by
  intro hprofit
  obtain ⟨hA, hB, hproduct, hkept⟩ := h
  unfold Profit at hprofit
  by_cases hzero : pool.totalLpTokens = 0
  · have hempty := hbacked.empty hzero
    have hempty' := hbacked'.empty (hkept.trans hzero)
    omega
  · have hpos := hbacked.reserves (by omega)
    have hpos' := hbacked'.reserves (by omega)
    rcases hprofit with ⟨hmore, hnoless⟩ | ⟨hnoless, hmore⟩
    · have hlt := Int.mul_lt_mul_of_pos_right (by omega : pool'.reserveA < pool.reserveA) hpos'.2
      have hle := Int.mul_le_mul_of_nonneg_left (by omega : pool'.reserveB ≤ pool.reserveB) hpos.1.le
      omega
    · have hlt := Int.mul_lt_mul_of_pos_left (by omega : pool'.reserveB < pool.reserveB) hpos'.1
      have hle := Int.mul_le_mul_of_nonneg_right (by omega : pool'.reserveA ≤ pool.reserveA) hpos.2.le
      omega

/-- A swap is paid from the reserves; the fee stays outside of them. -/
theorem paid_of_swap (hpool : w.store.pools.lookup target = some pool) (hord : pool.Ordinary) {o : Order}
    {r : SwapResult} (hc : swap target o.input o.amountIn o.minOut w = (.ok r, w')) :
    Paid pool (pool.swapped o.input o.amountIn) (pool.gain o r) := by
  obtain ⟨hin, before, hbefore, -, hrin, hrout, hquote, -⟩ := swap_ok hc
  rw [hpool] at hbefore
  cases hbefore
  have hfee := (hord.afterFee hin.le).2
  have hmul := hord.swapped_mul_le hin hrin hrout
  rw [← LiquidityPool.quoted] at hquote
  refine ⟨?_, ?_, hmul, (withSides_kept _ _ _).2⟩ <;>
    unfold LiquidityPool.swapped LiquidityPool.gain LiquidityPool.withSides LiquidityPool.sides <;>
    split <;> dsimp only <;> omega

theorem paid_of_traded (os : List Order) (h : OrdinarySound target w.store)
    (hpool : w.store.pools.lookup target = some pool) (hord : pool.Ordinary) :
    ∃ pool', (traded target os w).2.store.pools.lookup target = some pool' ∧ pool'.Ordinary ∧
      OrdinarySound target (traded target os w).2.store ∧ Paid pool pool' (traded target os w).1 := by
  induction os generalizing w pool with
  | nil => exact ⟨pool, hpool, hord, h, by simp [traded], by simp [traded], le_rfl, rfl⟩
  | cons o os ih =>
    rw [traded, hpool]
    rcases hc : swap target o.input o.amountIn o.minOut w with ⟨r | r, w₁⟩
    · exact ih h hpool hord
    · obtain ⟨before, hbefore, hmove, -, hid, hw⟩ := swap_move hc
      rw [hpool] at hbefore
      cases hbefore
      have hstep : Step w (.call (.swap target o.input o.amountIn o.minOut)) w₁ :=
        ⟨trivial, (Tx.exec_of_ok (a := ()) (Tx.void_ok.mpr ⟨r, hc⟩)).symm⟩
      have hpool₁ : w₁.store.pools.lookup target = some (pool.swapped o.input o.amountIn) := by
        rw [hw, h.keyed.lookup_written hpool hid target, if_pos rfl]
      obtain ⟨pool', hpool', hord', hsound, hpaid⟩ := ih (h.step hstep) hpool₁ (hmove.ordinary_iff.mpr hord)
      exact ⟨pool', hpool', hord', hsound, (paid_of_swap hpool hord hc).trans hpaid⟩

/-! ## A deposit that is taken back -/

/-- Both sides of the part: the LP tokens were at most in proportion to the deposit. -/
theorem returned_le {reserve amount total minted : Int} (hreserve : 0 ≤ reserve) (hamount : 0 < amount)
    (htotal : 0 ≤ total) (hminted : 0 < minted) (h : minted * reserve ≤ amount * total) :
    ((reserve + amount) * minted).tdiv (total + minted) ≤ amount := by
  rw [Int.tdiv_eq_ediv_of_nonneg (Int.mul_nonneg (by omega) hminted.le)]
  apply Int.ediv_le_of_le_mul (by omega)
  calc (reserve + amount) * minted = minted * reserve + amount * minted := by ring
    _ ≤ amount * total + amount * minted := Int.add_le_add_right h _
    _ = amount * (total + minted) := by ring

theorem returned_of_added (h : Sound w.store target) (hpool : w.store.pools.lookup target = some pool)
    {provider : Address} {amountA amountB minted : Int} {r : Int × Int × Int} {w₁ w₂ : World}
    (hadd : addLiquidity provider target amountA amountB w = (.ok minted, w₁))
    (hremove : removeLiquidity provider target minted w₁ = (.ok r, w₂)) :
    r.1 ≤ amountA ∧ r.2.1 ≤ amountB := by
  obtain ⟨ha, hb, hminted, before, hbefore, hlp, hw⟩ := addLiquidity_ok hadd
  rw [hpool] at hbefore
  cases hbefore
  obtain ⟨-, -, after, hafter, -, rfl, -⟩ := removeLiquidity_ok hremove
  have hid : (pool.added amountA amountB minted).id = pool.id := rfl
  have hlookup := h.lookup_written hpool hid target
  rw [if_pos rfl] at hlookup
  rw [hw] at hafter
  cases hlookup.symm.trans hafter
  have htotal := h.total_nonneg hpool
  have hreserves := h.reserves_nonneg hpool
  -- an empty pool has no reserves, so the proportion holds of it too
  have hle : minted * pool.reserveA ≤ amountA * pool.totalLpTokens ∧
      minted * pool.reserveB ≤ amountB * pool.totalLpTokens := by
    by_cases hzero : pool.totalLpTokens = 0
    · obtain ⟨hA, hB⟩ := (h.backed pool hpool).empty hzero
      simp [hzero, hA, hB]
    · obtain ⟨hA, hB⟩ := (h.backed pool hpool).reserves (by omega)
      exact hlp.le (by omega) hA hB ha hb
  exact ⟨returned_le hreserves.1 ha htotal hminted hle.1, returned_le hreserves.2 hb htotal hminted hle.2⟩

end Runs

/-- From any state of a run, an LP token of an ordinary pool never gets worth less while there are LP tokens; no
swaps in a row give a profit, and no deposit whose LP tokens are all given back at once. -/
theorem lp_tokens_not_diluted {ledger : Ledger} {w : World} {target : Nat} {pool : LiquidityPool}
    (hreach : Reaches Step (.deployed ledger) w) (hpool : w.store.pools.lookup target = some pool)
    (hord : pool.Ordinary) :
    (0 < pool.totalLpTokens → ∀ w' pool', Reaches (LiveStep target) w w' →
      w'.store.pools.lookup target = some pool' → Undiluted pool pool') ∧
    (∀ os, ¬ Profit (traded target os w).1) ∧
    ∀ provider amountA amountB minted w₁ r w₂,
      addLiquidity provider target amountA amountB w = (.ok minted, w₁) →
      removeLiquidity provider target minted w₁ = (.ok r, w₂) →
      ¬ Profit (r.1 - amountA, r.2.1 - amountB) := by
  have hinv : OrdinarySound target w.store := .of_reaches hreach
  have hsound := hinv.sound_of hpool hord
  refine ⟨fun htotal w' pool' hrun hpool' => undiluted_of_run hinv hpool hord htotal hrun hpool', ?_, ?_⟩
  · intro os
    obtain ⟨pool', hpool', hord', hinv', hpaid⟩ := paid_of_traded os hinv hpool hord
    exact hpaid.not_profit (hsound.backed pool hpool) ((hinv'.sound_of hpool' hord').backed pool' hpool')
      (hsound.total_nonneg hpool)
  · intro provider amountA amountB minted w₁ r w₂ hadd hremove hprofit
    have hle := returned_of_added hsound hpool hadd hremove
    unfold Profit at hprofit
    dsimp only at hprofit
    omega

namespace Sample

/-- A pool with one provider. -/
def funded : List Call := [.createPool assetA assetB .constantProduct 30 200, .addLiquidity alice 1 1000 2000]

/-- What happens to it then. -/
def busy : List Call :=
  [.addLiquidity bob 1 500 999, .swap 1 assetA 100 1, .swap 1 assetB 333 1, .removeLiquidity alice 1 300]

/-- A deposit, and the same LP tokens given back at once. -/
def deposited : Except (Fault Bridge.BridgeError) Int × World := addLiquidity bob 1 500 999 (run funded)

def withdrawn : Except (Fault Bridge.BridgeError) (Int × Int × Int) × World := removeLiquidity bob 1 706 deposited.2

/-- The LP tokens of a provider are worth more at the end; a trader who swaps there and back loses; so does a
provider who takes its deposit back. -/
theorem busy_pool_dilutes_nobody :
    (run funded).store.pools.lookup 1 =
        some ⟨1, assetA, assetB, 1000, 2000, 1414, 30, 200, .constantProduct, 0⟩ ∧
      (run (funded ++ busy)).store.pools.lookup 1 =
        some ⟨1, assetA, assetB, 1229, 2700, 1820, 30, 200, .constantProduct, 0⟩ ∧
      1000 * 2000 * (1820 : Int) ^ 2 ≤ 1229 * 2700 * 1414 ^ 2 ∧
      ¬ Profit (traded 1 [⟨assetA, 100, 1⟩, ⟨assetB, 181, 1⟩] (run funded)).1 ∧
      ∃ r, deposited.1 = .ok 706 ∧ withdrawn.1 = .ok r ∧ ¬ Profit (r.1 - 500, r.2.1 - 999) := by
  have hpool : (run funded).store.pools.lookup 1 =
      some ⟨1, assetA, assetB, 1000, 2000, 1414, 30, 200, .constantProduct, 0⟩ := by decide +kernel
  have hpool' : (run (funded ++ busy)).store.pools.lookup 1 =
      some ⟨1, assetA, assetB, 1229, 2700, 1820, 30, 200, .constantProduct, 0⟩ := by decide +kernel
  have hreach : Reaches Step (.deployed ⟨0, 0⟩) (run funded) :=
    Reaches.of_along (by decide +kernel : Reaches.Along next Allowed _ (funded.map Event.call))
  have hrun : Reaches (LiveStep 1) (run funded) (run (funded ++ busy)) := by
    have halong : Reaches.Along next (fun w ev => Allowed w ev ∧ Live 1 (next w ev).store) (run funded)
        (busy.map Event.call) := by decide +kernel
    have hsplit : run (funded ++ busy) = (busy.map Event.call).foldl next (run funded) := by
      rw [run, List.map_append, List.foldl_append, ← run]
    rw [hsplit]
    refine (Reaches.of_along halong).mono ?_
    rintro a ev b ⟨⟨hallowed, hlive⟩, rfl⟩
    exact ⟨⟨hallowed, rfl⟩, hlive⟩
  have h := lp_tokens_not_diluted hreach hpool ⟨rfl, by decide⟩
  have hadd : deposited.1 = .ok 706 := by decide +kernel
  have hremove : withdrawn.1 = .ok (499, 998, 29) := by decide +kernel
  exact ⟨hpool, hpool', h.1 (by decide) _ _ hrun hpool', h.2.1 _, _, hadd, hremove,
    h.2.2 bob 500 999 706 _ _ _ (Prod.ext hadd rfl) (Prod.ext hremove rfl)⟩

end Sample

end CallStake.Liquidity
