import CallStake.Lib.Store
import CallStake.Shared.Host

/-!
# Fee accrual

Fee income is distributed in proportion to the shares of the positions. The accumulator holds the
fees per share scaled by `ACC_PRECISION`; a position is owed what its shares accumulated since its
last settlement, rounded down.

* A failed call may leave the state half updated: the writes before an error stay.
* `FeePosition.Ok`: the debt of a position is at most what its shares accumulated. The `*_ok` lemmas
  read the operations on such positions as exact arithmetic.
-/

namespace CallStake.FeeAccrual

open Tx

def ACC_PRECISION : Int := 1000000000000

/-- The errors of the fee accrual. -/
inductive FeeAccrualError where
  | invalidAmount
  | nonMonotonicLedger
  | overflow
  | insufficientShares
  | nothingToClaim
  deriving DecidableEq

/-- The fees per share, and the totals. -/
structure FeeAccrualState where
  accFeePerShare : Int
  totalShares : Int
  carry : Int
  totalDeposited : Int
  totalDistributed : Int
  lastLedgerSeq : Nat
  lastTimestamp : Nat
  epoch : Nat

/-- `FeeAccrualState::new`. -/
def FeeAccrualState.new : FeeAccrualState := ⟨0, 0, 0, 0, 0, 0, 0, 0⟩

/-- The shares of a staker, and the fees settled so far. -/
structure StakerFeePosition where
  staker : Address
  shares : Int
  feeDebt : Int
  realized : Int

/-- `StakerFeePosition::new`. -/
def StakerFeePosition.new (staker : Address) : StakerFeePosition := ⟨staker, 0, 0, 0⟩

/-- What a deposit of fees changes. -/
structure AccrualUpdate where
  epoch : Nat
  deposited : Int
  distributed : Int
  perShareDelta : Int
  carry : Int
  accFeePerShare : Int
  totalShares : Int
  ledgerSeq : Nat
  timestamp : Nat

/-! ## Arithmetic -/

/-- The result of a checked operation. -/
def orOverflow : Option Int → Except FeeAccrualError Int
  | some c => .ok c
  | none => .error .overflow

def add (a b : Int) : Except FeeAccrualError Int := orOverflow (checkedAdd a b)

def sub (a b : Int) : Except FeeAccrualError Int := orOverflow (checkedSub a b)

def mul (a b : Int) : Except FeeAccrualError Int := orOverflow (checkedMul a b)

def accumulatedFor (shares accFeePerShare : Int) : Except FeeAccrualError Int := do
  let scaled ← mul shares accFeePerShare
  return scaled.tdiv ACC_PRECISION

/-! ## Operations -/

/-- What a deposit of `pool` adds per share, and how much of it that distributes. -/
def distribute (pool totalShares : Int) : Except FeeAccrualError (Int × Int) := do
  if totalShares = 0 then
    return (0, 0)
  else
    let scaled ← mul pool ACC_PRECISION
    let delta := scaled.tdiv totalShares
    let credited ← mul delta totalShares
    return (delta, credited.tdiv ACC_PRECISION)

def accrueDeposit (amount : Int) (ledgerSeq timestamp : Nat) :
    Tx FeeAccrualState FeeAccrualError AccrualUpdate := do
  failIf (amount ≤ 0) .invalidAmount
  let lastLedgerSeq ← Tx.gets (·.lastLedgerSeq)
  let lastTimestamp ← Tx.gets (·.lastTimestamp)
  failIf (ledgerSeq < lastLedgerSeq ∨ timestamp < lastTimestamp) .nonMonotonicLedger
  let carry ← Tx.gets (·.carry)
  let pool ← Tx.ofExcept (add amount carry)
  let totalShares ← Tx.gets (·.totalShares)
  let (perShareDelta, distributed) ← Tx.ofExcept (distribute pool totalShares)
  let acc ← Tx.gets (·.accFeePerShare)
  let accFeePerShare ← Tx.ofExcept (add acc perShareDelta)
  Tx.modify ({ · with accFeePerShare })
  let carry ← Tx.ofExcept (sub pool distributed)
  Tx.modify ({ · with carry })
  let deposited ← Tx.gets (·.totalDeposited)
  let totalDeposited ← Tx.ofExcept (add deposited amount)
  Tx.modify ({ · with totalDeposited })
  let distributedSoFar ← Tx.gets (·.totalDistributed)
  let totalDistributed ← Tx.ofExcept (add distributedSoFar distributed)
  Tx.modify ({ · with totalDistributed })
  Tx.modify ({ · with lastLedgerSeq := ledgerSeq })
  Tx.modify ({ · with lastTimestamp := timestamp })
  Tx.modify fun s => { s with epoch := u64Add s.epoch 1 }
  let state ← Tx.gets id
  return { epoch := state.epoch, deposited := amount, distributed, perShareDelta
           carry := state.carry, accFeePerShare := state.accFeePerShare
           totalShares := state.totalShares, ledgerSeq, timestamp }

def settle (state : FeeAccrualState) : Tx StakerFeePosition FeeAccrualError Int := do
  let position ← Tx.gets id
  let accumulated ← Tx.ofExcept (accumulatedFor position.shares state.accFeePerShare)
  let difference ← Tx.ofExcept (sub accumulated position.feeDebt)
  let newly := if difference < 0 then 0 else difference
  let realized ← Tx.ofExcept (add position.realized newly)
  Tx.modify ({ · with realized })
  Tx.modify ({ · with feeDebt := accumulated })
  return newly

/-- The accumulator and the position that a call works on. -/
structure Account where
  state : FeeAccrualState
  position : StakerFeePosition

/-- An operation on the position of an account. -/
def onPosition {α : Type} (x : Tx StakerFeePosition FeeAccrualError α) :
    Tx Account FeeAccrualError α :=
  Tx.zoom (·.position) (fun position a => { a with position }) x

/-- The shares of the position and in total after a change, and the debt that goes with them. -/
def setShares (change : Int → Except FeeAccrualError Int) : Tx Account FeeAccrualError Unit := do
  let shares ← Tx.gets (·.position.shares)
  let newShares ← Tx.ofExcept (change shares)
  Tx.modify fun a => { a with position.shares := newShares }
  let total ← Tx.gets (·.state.totalShares)
  let newTotal ← Tx.ofExcept (change total)
  Tx.modify fun a => { a with state.totalShares := newTotal }
  let acc ← Tx.gets (·.state.accFeePerShare)
  let debt ← Tx.ofExcept (accumulatedFor newShares acc)
  Tx.modify fun a => { a with position.feeDebt := debt }

/-- `add_shares`: after a settlement. -/
def addShares (amount : Int) : Tx Account FeeAccrualError Unit := do
  failIf (amount ≤ 0) .invalidAmount
  let state ← Tx.gets (·.state)
  let _ ← onPosition (settle state)
  setShares (add · amount)

/-- `remove_shares`: after a settlement. -/
def removeShares (amount : Int) : Tx Account FeeAccrualError Unit := do
  failIf (amount ≤ 0) .invalidAmount
  let shares ← Tx.gets (·.position.shares)
  failIf (shares < amount) .insufficientShares
  let state ← Tx.gets (·.state)
  let _ ← onPosition (settle state)
  setShares (sub · amount)

/-- `claim`: what has been realized is paid. -/
def claim (state : FeeAccrualState) : Tx StakerFeePosition FeeAccrualError Int := do
  let _ ← settle state
  let claimed ← Tx.gets (·.realized)
  failIf (claimed ≤ 0) .nothingToClaim
  Tx.modify ({ · with realized := 0 })
  return claimed

/-- `pending`: what a claim would pay. -/
def pending (state : FeeAccrualState) (position : StakerFeePosition) :
    Except FeeAccrualError Int := do
  let accumulated ← accumulatedFor position.shares state.accFeePerShare
  let difference ← sub accumulated position.feeDebt
  let unsettled := if difference < 0 then 0 else difference
  add position.realized unsettled

/-! ## What the operations did -/

section Arithmetic

variable {a b c shares acc pool total : Int}

@[simp] theorem orOverflow_ok {o : Option Int} : orOverflow o = .ok c ↔ o = some c := by
  cases o <;> simp [orOverflow]

@[simp] theorem add_ok : add a b = .ok c ↔ i128Min ≤ a + b ∧ a + b ≤ i128Max ∧ a + b = c := by
  simp [add]

@[simp] theorem sub_ok : sub a b = .ok c ↔ i128Min ≤ a - b ∧ a - b ≤ i128Max ∧ a - b = c := by
  simp [sub]

@[simp] theorem mul_ok : mul a b = .ok c ↔ i128Min ≤ a * b ∧ a * b ≤ i128Max ∧ a * b = c := by
  simp [mul]

/-- Nothing is negative, so the division rounds down. -/
theorem accumulatedFor_ok (hs : 0 ≤ shares) (ha : 0 ≤ acc) (h : accumulatedFor shares acc = .ok c) :
    c = shares * acc / ACC_PRECISION := by
  obtain ⟨_, hm, hc⟩ := except_bind_ok.mp h
  obtain ⟨-, -, rfl⟩ := mul_ok.mp hm
  cases hc
  exact Int.tdiv_eq_ediv_of_nonneg (Int.mul_nonneg hs ha)

/-- The increment per share of a pool; without shares it is `0`. -/
theorem distribute_ok {delta distributed : Int} (hp : 0 ≤ pool) (ht : 0 ≤ total)
    (h : distribute pool total = .ok (delta, distributed)) :
    delta = pool * ACC_PRECISION / total ∧ distributed = delta * total / ACC_PRECISION := by
  unfold distribute at h
  split at h
  · rename_i h0
    cases h
    simp [h0]
  · obtain ⟨_, hm, h⟩ := except_bind_ok.mp h
    obtain ⟨-, -, rfl⟩ := mul_ok.mp hm
    obtain ⟨_, hm', h⟩ := except_bind_ok.mp h
    obtain ⟨-, -, rfl⟩ := mul_ok.mp hm'
    have hpool : 0 ≤ pool * ACC_PRECISION := Int.mul_nonneg hp (by decide)
    have hdelta := Int.tdiv_eq_ediv_of_nonneg hpool (b := total)
    cases h
    rw [hdelta]
    exact ⟨rfl, Int.tdiv_eq_ediv_of_nonneg
      (Int.mul_nonneg (Int.ediv_nonneg hpool ht) ht)⟩

end Arithmetic

section Operations

variable {state state' : FeeAccrualState} {p p' : StakerFeePosition} {a' : Account}
  {amount n : Int} {ledgerSeq timestamp : Nat} {update : AccrualUpdate} {u : Unit}

/-- What `shares` have accumulated. -/
def accumulated (acc shares : Int) : Int := shares * acc / ACC_PRECISION

/-- What a position is owed, settled or not. -/
def owed (acc : Int) (p : StakerFeePosition) : Int := p.realized + (accumulated acc p.shares - p.feeDebt)

/-- A position is in order: its debt is at most what its shares accumulated. -/
structure StakerFeePosition.Ok (acc : Int) (p : StakerFeePosition) : Prop where
  shares : 0 ≤ p.shares
  debt : p.feeDebt ≤ accumulated acc p.shares

/-- The position after a settlement. -/
def StakerFeePosition.settled (p : StakerFeePosition) (acc : Int) : StakerFeePosition :=
  { p with realized := owed acc p, feeDebt := accumulated acc p.shares }

/-- The position after a settlement and a change of its shares. -/
def StakerFeePosition.withShares (p : StakerFeePosition) (acc shares : Int) : StakerFeePosition :=
  { p with shares, realized := owed acc p, feeDebt := accumulated acc shares }

theorem settle_ok (hp : p.Ok state.accFeePerShare) (ha : 0 ≤ state.accFeePerShare)
    (h : settle state p = (.ok n, p')) : p' = p.settled state.accFeePerShare := by
  simp only [settle, bind_gets_ok, bind_ofExcept_ok, bind_modify_ok, pure_ok, add_ok, sub_ok, id_eq] at h
  obtain ⟨c, hc, _, ⟨-, -, rfl⟩, _, ⟨-, -, rfl⟩, -, rfl⟩ := h
  obtain rfl := accumulatedFor_ok hp.shares ha hc
  have hd := hp.debt
  unfold accumulated at hd
  rw [if_neg (by omega)]
  rfl

theorem setShares_ok {change : Int → Except FeeAccrualError Int} {a : Account}
    (h : setShares change a = (.ok u, a')) :
    ∃ shares total debt, change a.position.shares = .ok shares ∧
      change a.state.totalShares = .ok total ∧
      accumulatedFor shares a.state.accFeePerShare = .ok debt ∧
      a' = ⟨{ a.state with totalShares := total }, { a.position with shares, feeDebt := debt }⟩ := by
  simp [setShares] at h
  obtain ⟨shares, hs, total, ht, debt, hd, rfl⟩ := h
  exact ⟨shares, total, debt, hs, ht, hd, rfl⟩

theorem addShares_ok (hp : p.Ok state.accFeePerShare) (ha : 0 ≤ state.accFeePerShare)
    (h : addShares amount ⟨state, p⟩ = (.ok u, a')) :
    0 < amount ∧ a' = ⟨{ state with totalShares := state.totalShares + amount },
      p.withShares state.accFeePerShare (p.shares + amount)⟩ := by
  rw [addShares, bind_failIf_ok, bind_gets_ok, bind_ok] at h
  obtain ⟨hguard, n, _, hzoom, h⟩ := h
  obtain ⟨p₁, hs, rfl⟩ := Tx.zoom_ok.mp hzoom
  have hpos : 0 < amount := by omega
  obtain rfl := settle_ok hp ha hs
  obtain ⟨shares, total, debt, h1, h2, h3, rfl⟩ := setShares_ok h
  obtain ⟨-, -, rfl⟩ := add_ok.mp h1
  obtain ⟨-, -, rfl⟩ := add_ok.mp h2
  have hnn : 0 ≤ p.shares + amount := Int.add_nonneg hp.shares (Int.le_of_lt hpos)
  obtain rfl := accumulatedFor_ok hnn ha h3
  exact ⟨hpos, rfl⟩

theorem removeShares_ok (hp : p.Ok state.accFeePerShare) (ha : 0 ≤ state.accFeePerShare)
    (h : removeShares amount ⟨state, p⟩ = (.ok u, a')) :
    0 < amount ∧ amount ≤ p.shares ∧
      a' = ⟨{ state with totalShares := state.totalShares - amount },
        p.withShares state.accFeePerShare (p.shares - amount)⟩ := by
  rw [removeShares, bind_failIf_ok, bind_gets_ok, bind_failIf_ok, bind_gets_ok, bind_ok] at h
  obtain ⟨hguard, hshares, n, _, hzoom, h⟩ := h
  obtain ⟨p₁, hs, rfl⟩ := Tx.zoom_ok.mp hzoom
  have hpos : 0 < amount := by omega
  have hle : amount ≤ p.shares := Int.not_lt.mp hshares
  obtain rfl := settle_ok hp ha hs
  obtain ⟨shares, total, debt, h1, h2, h3, rfl⟩ := setShares_ok h
  obtain ⟨-, -, rfl⟩ := sub_ok.mp h1
  obtain ⟨-, -, rfl⟩ := sub_ok.mp h2
  have hnn : 0 ≤ p.shares - amount := Int.sub_nonneg_of_le hle
  obtain rfl := accumulatedFor_ok hnn ha h3
  exact ⟨hpos, hle, rfl⟩

theorem claim_ok (hp : p.Ok state.accFeePerShare) (ha : 0 ≤ state.accFeePerShare)
    (h : claim state p = (.ok n, p')) :
    n = owed state.accFeePerShare p ∧ p' = { p.settled state.accFeePerShare with realized := 0 } := by
  rw [claim, bind_ok] at h
  obtain ⟨m, p₁, hs, h⟩ := h
  simp at h
  obtain ⟨-, rfl, rfl⟩ := h
  obtain rfl := settle_ok hp ha hs
  exact ⟨rfl, rfl⟩

theorem pending_ok (hp : p.Ok state.accFeePerShare) (ha : 0 ≤ state.accFeePerShare)
    (h : pending state p = .ok n) : n = owed state.accFeePerShare p := by
  obtain ⟨c, hc, h⟩ := except_bind_ok.mp h
  obtain ⟨d, hd, h⟩ := except_bind_ok.mp h
  obtain ⟨-, -, rfl⟩ := sub_ok.mp hd
  obtain ⟨-, -, rfl⟩ := add_ok.mp h
  obtain rfl := accumulatedFor_ok hp.shares ha hc
  have hdebt := hp.debt
  unfold accumulated at hdebt
  rw [if_neg (by omega)]
  rfl

/-- The increment per share that a deposit of `amount` makes. -/
def FeeAccrualState.delta (state : FeeAccrualState) (amount : Int) : Int :=
  (amount + state.carry) * ACC_PRECISION / state.totalShares

/-- The fees that a deposit of `amount` distributes. -/
def FeeAccrualState.distributed (state : FeeAccrualState) (amount : Int) : Int :=
  state.delta amount * state.totalShares / ACC_PRECISION

theorem accrueDeposit_ok (hc : 0 ≤ state.carry) (ht : 0 ≤ state.totalShares)
    (h : accrueDeposit amount ledgerSeq timestamp state = (.ok update, state')) :
    0 < amount ∧ state' = { state with
      accFeePerShare := state.accFeePerShare + state.delta amount
      carry := amount + state.carry - state.distributed amount
      totalDeposited := state.totalDeposited + amount
      totalDistributed := state.totalDistributed + state.distributed amount
      lastLedgerSeq := ledgerSeq
      lastTimestamp := timestamp
      epoch := u64Add state.epoch 1 } := by
  simp only [accrueDeposit, bind_failIf_ok, bind_gets_ok, bind_ofExcept_ok, bind_modify_ok,
    pure_ok, add_ok, sub_ok] at h
  obtain ⟨hpos, -, _, ⟨-, -, rfl⟩, ⟨delta, distributed⟩, hd, _, ⟨-, -, rfl⟩, _, ⟨-, -, rfl⟩, _,
    ⟨-, -, rfl⟩, _, ⟨-, -, rfl⟩, -, rfl⟩ := h
  have hamount : 0 < amount := by omega
  obtain ⟨rfl, rfl⟩ := distribute_ok (by omega) ht hd
  exact ⟨hamount, rfl⟩

end Operations

end CallStake.FeeAccrual
