import CallStake.StakeVault.FeeSolvency

/-!
# Errors of the fee accrual

The functions write field after field, and the fields written before an error stay. In every account
that successful calls reach,

* `removeShares` and `claim` fail only before their first write, or after writes of what was there;
* `addShares` and `accrueDeposit` write before their last checked operations, which may overflow.

`OverflowsLate` is when they do, and `errors_atomic_iff` that these are the only errors that leave a
trace.
-/

namespace CallStake.FeeAccrual

open Tx

/-- The operations on a pool with one checkpoint. -/
inductive Call where
  | accrueDeposit (amount : Int) (ledgerSeq timestamp : Nat)
  | addShares (amount : Int)
  | removeShares (amount : Int)
  | claim

def invoke : Call → Tx Account FeeAccrualError Unit
  | .accrueDeposit amount ledgerSeq timestamp =>
    Tx.void (Tx.zoom (·.state) (fun state a => { a with state })
      (accrueDeposit amount ledgerSeq timestamp))
  | .addShares amount => addShares amount
  | .removeShares amount => removeShares amount
  | .claim => do
    let state ← Tx.gets (·.state)
    Tx.void (onPosition (claim state))

/-- An error leaves the accumulator and the position as they were. -/
def Atomic (c : Call) (a : Account) : Prop := ∀ e a', invoke c a = (.error e, a') → a' = a

/-- Every operation of a settlement stays in range. -/
def SettlementFits (acc : Int) (p : StakerFeePosition) : Prop :=
  p.shares * acc ≤ i128Max ∧ owed acc p ≤ i128Max
  deriving Decidable

/-- The checks of the call pass, it writes, and an operation behind the writes overflows. -/
def OverflowsLate (a : Account) : Call → Prop
  | .accrueDeposit amount ledgerSeq timestamp =>
    (0 < amount ∧ a.state.lastLedgerSeq ≤ ledgerSeq ∧ a.state.lastTimestamp ≤ timestamp) ∧
      amount + a.state.carry ≤ i128Max ∧
      (a.state.totalShares ≠ 0 → (amount + a.state.carry) * ACC_PRECISION ≤ i128Max) ∧
      a.state.accFeePerShare + a.state.delta amount ≤ i128Max ∧
      i128Max < a.state.totalDeposited + amount
  | .addShares amount =>
    0 < amount ∧ SettlementFits a.state.accFeePerShare a.position ∧
      if i128Max < a.position.shares + amount then
        -- the settlement alone was written
        a.position.feeDebt ≠ accumulated a.state.accFeePerShare a.position.shares
      else
        i128Max < a.state.totalShares + amount ∨ i128Max < (a.position.shares + amount) * a.state.accFeePerShare
  | .removeShares _ | .claim => False

/-! ## The accounts that are reached -/

/-- An account that successful calls reach. -/
structure Account.Sound (a : Account) : Prop where
  acc : 0 ≤ a.state.accFeePerShare
  carry : 0 ≤ a.state.carry
  deposits : a.state.totalDeposited = a.state.totalDistributed + a.state.carry
  distributed : 0 ≤ a.state.totalDistributed
  ok : a.position.Ok a.state.accFeePerShare
  debt : 0 ≤ a.position.feeDebt
  realized : 0 ≤ a.position.realized
  part : a.position.shares ≤ a.state.totalShares
  total : a.state.totalShares ≤ i128Max

/-- What the invariant of a pool leaves out. -/
structure Pool.Bounded (a : Pool) : Prop where
  total : a.state.totalShares ≤ i128Max
  deposits : a.state.totalDeposited = a.state.totalDistributed + a.state.carry
  distributed : 0 ≤ a.state.totalDistributed
  positions : a.positions.All fun p => 0 ≤ p.feeDebt ∧ 0 ≤ p.realized

section Invariant

variable {a b : Pool} {op : Op} {p : StakerFeePosition} {id : Nat} {acc amount : Int}

theorem StakerFeePosition.Ok.owed_nonneg (hp : p.Ok acc) (hr : 0 ≤ p.realized) : 0 ≤ owed acc p := by
  have := hp.debt
  unfold owed
  omega

theorem distributed_nonneg {state : FeeAccrualState} (hc : 0 ≤ state.carry) (ht : 0 ≤ state.totalShares)
    (ha : 0 < amount) : 0 ≤ state.distributed amount :=
  Int.ediv_nonneg (Int.mul_nonneg (distributed_le hc ht ha).1 ht) (by decide)

theorem Pool.IsNew.bounded (h : a.IsNew) : a.Bounded where
  total := by rw [h.state]; decide
  deposits := by rw [h.state]; rfl
  distributed := by rw [h.state]; decide
  positions id p hp := by
    rw [h.positions id p hp]
    exact ⟨Int.le_refl _, Int.le_refl _⟩

theorem addShares_total_le {state : FeeAccrualState} {a' : Account}
    (h : addShares amount ⟨state, p⟩ = (.ok (), a')) : a'.state.totalShares ≤ i128Max := by
  rw [addShares, bind_failIf_ok, bind_gets_ok, bind_ok] at h
  obtain ⟨-, n, _, -, h⟩ := h
  obtain ⟨shares, total, debt, -, ht, -, rfl⟩ := setShares_ok h
  obtain ⟨-, hmax, rfl⟩ := add_ok.mp ht
  exact hmax

/-- A position that is replaced. -/
theorem Pool.Bounded.setPosition {total claimed : Int} {p' : StakerFeePosition} (h : a.Bounded)
    (ht : total ≤ i128Max) (hd : 0 ≤ p'.feeDebt) (hr : 0 ≤ p'.realized) :
    Pool.Bounded ⟨{ a.state with totalShares := total }, a.positions.insert id p', claimed⟩ :=
  ⟨ht, h.deposits, h.distributed, h.positions.insert ⟨hd, hr⟩⟩

theorem Pool.Bounded.step (hok : a.Ok) (h : a.Bounded) (hs : Step a op b) : b.Bounded := by
  cases hs with
  | accrueDeposit hd =>
    obtain ⟨hamount, rfl⟩ := accrueDeposit_ok hok.carry hok.total_nonneg hd
    have hdep := h.deposits
    have hcredit := distributed_nonneg hok.carry hok.total_nonneg hamount
    refine ⟨h.total, ?_, Int.add_nonneg h.distributed hcredit, h.positions⟩
    simp only
    omega
  | addShares hp hd =>
    have hpos := hok.positions _ _ hp
    have hmax := addShares_total_le hd
    obtain ⟨hamount, rfl⟩ := addShares_ok hpos hok.acc hd
    exact h.setPosition hmax
      (accumulated_nonneg (Int.add_nonneg hpos.shares (Int.le_of_lt hamount)) hok.acc)
      (hpos.owed_nonneg (h.positions _ _ hp).2)
  | removeShares hp hd =>
    have hpos := hok.positions _ _ hp
    obtain ⟨hamount, hle, rfl⟩ := removeShares_ok hpos hok.acc hd
    have htotal := h.total
    exact h.setPosition (by omega) (accumulated_nonneg (Int.sub_nonneg_of_le hle) hok.acc)
      (hpos.owed_nonneg (h.positions _ _ hp).2)
  | settle hp hd =>
    have hpos := hok.positions _ _ hp
    obtain rfl := settle_ok hpos hok.acc hd
    exact h.setPosition h.total (accumulated_nonneg hpos.shares hok.acc)
      (hpos.owed_nonneg (h.positions _ _ hp).2)
  | claim hp hd =>
    have hpos := hok.positions _ _ hp
    obtain ⟨-, rfl⟩ := claim_ok hpos hok.acc hd
    exact h.setPosition h.total (accumulated_nonneg hpos.shares hok.acc) (Int.le_refl _)

theorem Account.Sound.of_reaches (hn : a.IsNew) (hr : Reaches Step a b)
    (hp : b.positions.lookup id = some p) : Account.Sound ⟨b.state, p⟩ := by
  obtain ⟨hok, hb⟩ : b.Ok ∧ b.Bounded := by
    refine hr.invariant (I := fun b => b.Ok ∧ b.Bounded) ⟨hn.ok.1, hn.bounded⟩ ?_
    rintro c op d ⟨hc, hb⟩ hs
    exact ⟨(hc.step hs).1, hb.step hc hs⟩
  obtain ⟨hd, hrealized⟩ := hb.positions _ _ hp
  have hpart : p.shares ≤ b.state.totalShares := by
    have hle := Store.part_le_total (f := (·.shares)) (hok.positions.mono fun _ h => h.shares) id
    rw [hok.total]
    rwa [Store.part_some hp] at hle
  exact ⟨hok.acc, hok.carry, hb.deposits, hb.distributed, hok.positions _ _ hp, hd, hrealized, hpart, hb.total⟩

end Invariant

/-! ## Runs as equations -/

section Runs

variable {x y : Int} {state : FeeAccrualState} {p : StakerFeePosition} {a : Account} {amount : Int}

theorem add_eq (h : 0 ≤ x + y) : add x y = if x + y ≤ i128Max then .ok (x + y) else .error .overflow := by
  unfold add checkedAdd checked
  have : i128Min ≤ x + y := by unfold i128Min; omega
  simp [this]
  split <;> rfl

theorem sub_eq (h0 : 0 ≤ x - y) (h : x - y ≤ i128Max) : sub x y = .ok (x - y) := by
  rw [sub_ok]
  exact ⟨by unfold i128Min; omega, h, rfl⟩

theorem mul_eq (h : 0 ≤ x * y) : mul x y = if x * y ≤ i128Max then .ok (x * y) else .error .overflow := by
  unfold mul checkedMul checked
  have : i128Min ≤ x * y := by unfold i128Min; omega
  simp [this]
  split <;> rfl

theorem accumulatedFor_run (hs : 0 ≤ x) (ha : 0 ≤ y) :
    accumulatedFor x y = if x * y ≤ i128Max then .ok (accumulated y x) else .error .overflow := by
  have hnn := Int.mul_nonneg hs ha
  unfold accumulatedFor accumulated
  rw [mul_eq hnn]
  split
  · rw [← Int.tdiv_eq_ediv_of_nonneg hnn]
    rfl
  · rfl

theorem add_error {e : FeeAccrualError} (h : 0 ≤ x + y) :
    add x y = .error e ↔ i128Max < x + y ∧ .overflow = e := by
  rw [add_eq h]
  split
  · simp; omega
  · simp; omega

theorem accumulatedFor_error {e : FeeAccrualError} (hs : 0 ≤ x) (ha : 0 ≤ y) :
    accumulatedFor x y = .error e ↔ i128Max < x * y ∧ .overflow = e := by
  rw [accumulatedFor_run hs ha]
  split
  · simp; omega
  · simp; omega

/-- Only the first product of a distribution can overflow. -/
theorem distribute_eq (hp : 0 ≤ x) (ht : 0 ≤ y) :
    distribute x y = if y ≠ 0 ∧ i128Max < x * ACC_PRECISION then .error .overflow
      else .ok (x * ACC_PRECISION / y, x * ACC_PRECISION / y * y / ACC_PRECISION) := by
  have hscaled : 0 ≤ x * ACC_PRECISION := Int.mul_nonneg hp (by decide)
  unfold distribute
  by_cases h0 : y = 0
  · subst h0
    simp
    rfl
  · have hcredited : 0 ≤ x * ACC_PRECISION / y * y :=
      Int.mul_nonneg (Int.ediv_nonneg hscaled ht) ht
    have hle : x * ACC_PRECISION / y * y ≤ x * ACC_PRECISION := Int.ediv_mul_le _ h0
    rw [if_neg h0, mul_eq hscaled]
    by_cases hover : i128Max < x * ACC_PRECISION
    · rw [if_neg (Int.not_le.mpr hover), if_pos ⟨h0, hover⟩]
      rfl
    · have hmul := mul_eq hcredited
      rw [if_pos (by omega), ← Int.tdiv_eq_ediv_of_nonneg hscaled] at hmul
      rw [if_pos (Int.not_lt.mp hover), if_neg fun h => hover h.2,
        ← Int.tdiv_eq_ediv_of_nonneg hcredited, ← Int.tdiv_eq_ediv_of_nonneg hscaled]
      exact except_bind_ok.mpr ⟨_, rfl, except_bind_ok.mpr ⟨_, hmul, rfl⟩⟩

/-- A settlement is complete, or fails before its first write. -/
theorem settle_eq (hp : p.Ok state.accFeePerShare) (ha : 0 ≤ state.accFeePerShare) (hd : 0 ≤ p.feeDebt)
    (hr : 0 ≤ p.realized) :
    settle state p = if SettlementFits state.accFeePerShare p
      then (.ok (accumulated state.accFeePerShare p.shares - p.feeDebt), p.settled state.accFeePerShare)
      else (.error .overflow, p) := by
  have hdebt := hp.debt
  have howed := hp.owed_nonneg hr
  rw [settle, bind_of_ok (Tx.gets_ok.mpr ⟨rfl, rfl⟩)]
  simp
  by_cases hscaled : p.shares * state.accFeePerShare ≤ i128Max
  · have hacc := accumulatedFor_run hp.shares ha
    rw [if_pos hscaled] at hacc
    have hle := accumulated_le hscaled
    have hsub := sub_eq (Int.sub_nonneg_of_le hdebt) (by omega)
    rw [bind_of_ok (Tx.ofExcept_ok.mpr ⟨hacc, rfl⟩), bind_of_ok (Tx.ofExcept_ok.mpr ⟨hsub, rfl⟩), if_neg (by omega)]
    have hadd := add_eq howed
    by_cases hfits : owed state.accFeePerShare p ≤ i128Max
    · rw [if_pos ⟨hscaled, hfits⟩, bind_of_ok (Tx.ofExcept_ok.mpr ⟨hadd.trans (if_pos hfits), rfl⟩)]
      rfl
    · rw [if_neg fun h : SettlementFits _ _ => hfits h.2,
        bind_of_error (Tx.ofExcept_error.mpr ⟨hadd.trans (if_neg hfits), rfl⟩)]
  · have hacc := accumulatedFor_run hp.shares ha
    rw [if_neg hscaled] at hacc
    rw [if_neg fun h : SettlementFits _ _ => hscaled h.1, bind_of_error (Tx.ofExcept_error.mpr ⟨hacc, rfl⟩)]

end Runs

/-! ## Errors -/

section Errors

variable {a a' : Account} {e : FeeAccrualError} {amount : Int} {ledgerSeq timestamp : Nat}

/-- The account with its position settled. -/
def Account.settled (a : Account) : Account := { a with position := a.position.settled a.state.accFeePerShare }

theorem Account.Sound.settle (h : a.Sound) :
    FeeAccrual.settle a.state a.position = if SettlementFits a.state.accFeePerShare a.position
      then (.ok (accumulated a.state.accFeePerShare a.position.shares - a.position.feeDebt), a.settled.position)
      else (.error .overflow, a.position) :=
  settle_eq h.ok h.acc h.debt h.realized

/-- A settlement that fails, as a part of a call. -/
theorem Account.Sound.onPosition_error (h : a.Sound)
    (hs : onPosition (FeeAccrual.settle a.state) a = (.error e, a')) :
    ¬ SettlementFits a.state.accFeePerShare a.position ∧ a' = a := by
  obtain ⟨p, hp, rfl⟩ := Tx.zoom_error.mp hs
  rw [h.settle] at hp
  split at hp
  · cases hp
  · cases hp
    exact ⟨‹_›, rfl⟩

theorem Account.Sound.onPosition_ok {n : Int} (h : a.Sound)
    (hs : onPosition (FeeAccrual.settle a.state) a = (.ok n, a')) :
    SettlementFits a.state.accFeePerShare a.position ∧ a' = a.settled := by
  obtain ⟨p, hp, rfl⟩ := Tx.zoom_ok.mp hs
  rw [h.settle] at hp
  split at hp
  · cases hp
    exact ⟨‹_›, rfl⟩
  · cases hp

theorem Account.Sound.onPosition_run (h : a.Sound)
    (hfits : SettlementFits a.state.accFeePerShare a.position) :
    ∃ n, onPosition (FeeAccrual.settle a.state) a = (.ok n, a.settled) :=
  ⟨_, Tx.zoom_ok.mpr ⟨_, h.settle.trans (if_pos hfits), rfl⟩⟩

/-- Where a change of the shares fails, and what it has written there. -/
theorem setShares_error {change : Int → Except FeeAccrualError Int} :
    setShares change a = (.error e, a') ↔
      change a.position.shares = .error e ∧ a = a' ∨
      ∃ shares, change a.position.shares = .ok shares ∧
        (change a.state.totalShares = .error e ∧ { a with position.shares := shares } = a' ∨
        ∃ total, change a.state.totalShares = .ok total ∧
          { a with position.shares := shares, state.totalShares := total } = a' ∧
          accumulatedFor shares a.state.accFeePerShare = .error e) := by
  simp [setShares]

theorem Account.Sound.addShares_run (h : a.Sound) (hpos : 0 < amount)
    (hfits : SettlementFits a.state.accFeePerShare a.position) :
    addShares amount a = setShares (add · amount) a.settled := by
  obtain ⟨n, hn⟩ := h.onPosition_run hfits
  rw [addShares, bind_of_ok ((failIf_ok (u := ())).mpr ⟨by omega, rfl⟩),
    bind_of_ok (Tx.gets_ok.mpr ⟨rfl, rfl⟩), bind_of_ok hn]

/-- An operation behind the settlement overflows: the writes before it stay. -/
theorem addShares_late (h : a.Sound) (hlate : OverflowsLate a (.addShares amount)) :
    ∃ a', addShares amount a = (.error .overflow, a') ∧ a' ≠ a := by
  obtain ⟨hpos, hfits, hlate⟩ := hlate
  have hs := h.ok.shares
  have hp := h.part
  have hacc := h.acc
  rw [h.addShares_run hpos hfits]
  have hshares : (0 : Int) ≤ a.position.shares + amount := by omega
  have htotal : (0 : Int) ≤ a.state.totalShares + amount := by omega
  split at hlate
  · rename_i hover
    refine ⟨a.settled, setShares_error.mpr (.inl ⟨(add_error hshares).mpr ⟨hover, rfl⟩, rfl⟩), ?_⟩
    intro heq
    exact hlate (congrArg (·.position.feeDebt) heq).symm
  · rename_i hroom
    have hadd : add a.position.shares amount = .ok (a.position.shares + amount) :=
      (add_eq hshares).trans (if_pos (by omega))
    have hne : a.position.shares + amount ≠ a.position.shares := by omega
    by_cases hover : i128Max < a.state.totalShares + amount
    · refine ⟨_, setShares_error.mpr (.inr ⟨_, hadd, .inl ⟨(add_error htotal).mpr ⟨hover, rfl⟩, rfl⟩⟩), ?_⟩
      intro heq
      exact hne (congrArg (·.position.shares) heq)
    · have hscaled := hlate.resolve_left hover
      have hadd' : add a.state.totalShares amount = .ok (a.state.totalShares + amount) :=
        (add_eq htotal).trans (if_pos (by omega))
      refine ⟨_, setShares_error.mpr (.inr ⟨_, hadd, .inr ⟨_, hadd', rfl,
        (accumulatedFor_error hshares hacc).mpr ⟨hscaled, rfl⟩⟩⟩), ?_⟩
      intro heq
      exact hne (congrArg (·.position.shares) heq)

/-- A settlement of nothing. -/
theorem settled_of_debt (h : a.position.feeDebt = accumulated a.state.accFeePerShare a.position.shares) :
    a.settled = a := by
  simp [Account.settled, StakerFeePosition.settled, owed, ← h]

theorem addShares_early (h : a.Sound) (hlate : ¬ OverflowsLate a (.addShares amount))
    (hr : addShares amount a = (.error e, a')) : a' = a := by
  simp only [addShares, bind_error, failIf_error, failIf_ok, gets_error, gets_ok] at hr
  rcases hr with ⟨-, -, rfl⟩ | ⟨_, _, ⟨hpos, rfl⟩, h' | ⟨_, _, ⟨rfl, rfl⟩, hs | ⟨_, _, hs, hr⟩⟩⟩
  · rfl
  · exact h'.elim
  · exact (h.onPosition_error hs).2
  · obtain ⟨hfits, rfl⟩ := h.onPosition_ok hs
    have hshares : (0 : Int) ≤ a.position.shares + amount := by
      have := h.ok.shares
      omega
    have htotal : (0 : Int) ≤ a.state.totalShares + amount := by
      have := h.part
      have := h.ok.shares
      omega
    -- behind the settlement, only a settlement of nothing is no trace
    rcases setShares_error.mp hr with ⟨hover, rfl⟩ | ⟨shares, hadd, hr⟩
    · refine settled_of_debt (Classical.byContradiction fun hne => hlate ⟨by omega, hfits, ?_⟩)
      rw [if_pos ((add_error hshares).mp hover).1]
      exact hne
    · obtain ⟨-, hroom, rfl⟩ := add_ok.mp hadd
      refine absurd (⟨by omega, hfits, ?_⟩ : OverflowsLate a (.addShares amount)) hlate
      rw [if_neg (show ¬ i128Max < a.position.shares + amount from Int.not_lt.mpr hroom)]
      rcases hr with ⟨hover, -⟩ | ⟨_, -, -, hover⟩
      · exact .inl ((add_error htotal).mp hover).1
      · exact .inr ((accumulatedFor_error hshares h.acc).mp hover).1

/-- Nothing behind the settlement fails. -/
theorem removeShares_atomic (h : a.Sound) (hr : removeShares amount a = (.error e, a')) : a' = a := by
  simp only [removeShares, bind_error, failIf_error, failIf_ok, gets_error, gets_ok] at hr
  rcases hr with ⟨-, -, rfl⟩ | ⟨_, _, ⟨hpos, rfl⟩, h' | ⟨_, _, ⟨rfl, rfl⟩, ⟨-, -, rfl⟩ | ⟨_, _, ⟨hle, rfl⟩,
    h' | ⟨_, _, ⟨rfl, rfl⟩, hs | ⟨_, _, hs, hr⟩⟩⟩⟩⟩
  · rfl
  · exact h'.elim
  · rfl
  · exact h'.elim
  · exact (h.onPosition_error hs).2
  · obtain ⟨hfits, rfl⟩ := h.onPosition_ok hs
    have hpart := h.part
    have hmax := h.total
    have hshares := sub_eq (x := a.position.shares) (y := amount) (by omega) (by omega)
    have htotal := sub_eq (x := a.state.totalShares) (y := amount) (by omega) (by omega)
    have hscaled : (a.position.shares - amount) * a.state.accFeePerShare ≤ i128Max :=
      Int.le_trans (Int.mul_le_mul_of_nonneg_right (by omega) h.acc) hfits.1
    rcases setShares_error.mp hr with ⟨hover, -⟩ | ⟨_, hsub, ⟨hover, -⟩ | ⟨_, -, -, hover⟩⟩
    · cases hshares.symm.trans hover
    · cases htotal.symm.trans hover
    · cases hshares.symm.trans hsub
      exact absurd ((accumulatedFor_error (by omega) h.acc).mp hover).1 (Int.not_lt.mpr hscaled)

/-- There is nothing to claim only when nothing was settled. -/
theorem claim_atomic {p : StakerFeePosition} (h : a.Sound)
    (hr : FeeAccrual.claim a.state a.position = (.error e, p)) : p = a.position := by
  simp only [FeeAccrual.claim, bind_error, failIf_error, gets_error, gets_ok] at hr
  rw [h.settle] at hr
  by_cases hfits : SettlementFits a.state.accFeePerShare a.position
  · rw [if_pos hfits] at hr
    rcases hr with hs | ⟨_, _, hs, h' | ⟨_, _, ⟨rfl, rfl⟩, ⟨hle, -, rfl⟩ | ⟨_, _, -, h' | ⟨_, _, -, h'⟩⟩⟩⟩
    · cases hs
    · exact h'.elim
    · cases hs
      have hrealized := h.realized
      have hdebt := h.ok.debt
      have howed : owed a.state.accFeePerShare a.position ≤ 0 := hle
      unfold owed at howed
      exact congrArg (·.position) (settled_of_debt (a := a) (by omega))
    · simp at h'
    · simp at h'
  · rw [if_neg hfits] at hr
    rcases hr with hs | ⟨_, _, hs, -⟩
    · cases hs
      rfl
    · cases hs

/-- Where a deposit fails, and what it has written there. -/
theorem accrueDeposit_error {s s' : FeeAccrualState} :
    accrueDeposit amount ledgerSeq timestamp s = (.error e, s') ↔
      amount ≤ 0 ∧ .invalidAmount = e ∧ s = s' ∨ ¬ amount ≤ 0 ∧
      ((ledgerSeq < s.lastLedgerSeq ∨ timestamp < s.lastTimestamp) ∧ .nonMonotonicLedger = e ∧ s = s' ∨
      ¬ (ledgerSeq < s.lastLedgerSeq ∨ timestamp < s.lastTimestamp) ∧
      (add amount s.carry = .error e ∧ s = s' ∨ ∃ pool, add amount s.carry = .ok pool ∧
      (distribute pool s.totalShares = .error e ∧ s = s' ∨
        ∃ delta distributed, distribute pool s.totalShares = .ok (delta, distributed) ∧
      (add s.accFeePerShare delta = .error e ∧ s = s' ∨ ∃ acc, add s.accFeePerShare delta = .ok acc ∧
      (sub pool distributed = .error e ∧ { s with accFeePerShare := acc } = s' ∨
        ∃ carry, sub pool distributed = .ok carry ∧
      (add s.totalDeposited amount = .error e ∧ { s with accFeePerShare := acc, carry } = s' ∨
        ∃ deposited, add s.totalDeposited amount = .ok deposited ∧
          add s.totalDistributed distributed = .error e ∧
          { s with accFeePerShare := acc, carry, totalDeposited := deposited } = s')))))) := by
  simp only [accrueDeposit, bind_error, failIf_error, failIf_ok, gets_error, gets_ok,
    ofExcept_error, ofExcept_ok, modify_error, modify_ok, ↓existsAndEq, and_true, false_or,
    exists_const, exists_eq_left', Prod.exists, pure_error, and_false, exists_false, or_false]

/-- The parts of a deposit in an account that calls reach. -/
theorem Account.Sound.distributes (h : a.Sound) (hpos : 0 < amount) :
    0 ≤ a.state.delta amount ∧ 0 ≤ a.state.distributed amount ∧
      a.state.distributed amount ≤ amount + a.state.carry := by
  have htotal : 0 ≤ a.state.totalShares := Int.le_trans h.ok.shares h.part
  obtain ⟨hdelta, hle⟩ := distributed_le h.carry htotal hpos
  exact ⟨hdelta, distributed_nonneg h.carry htotal hpos, hle⟩

/-- A deposit that fails before its first write, or at the deposits so far. -/
theorem accrueDeposit_early {s' : FeeAccrualState} (h : a.Sound)
    (hlate : ¬ OverflowsLate a (.accrueDeposit amount ledgerSeq timestamp))
    (hr : accrueDeposit amount ledgerSeq timestamp a.state = (.error e, s')) : s' = a.state := by
  have htotal : 0 ≤ a.state.totalShares := Int.le_trans h.ok.shares h.part
  have hcarry := h.carry
  have hdeposits := h.deposits
  have hcredited := h.distributed
  rcases accrueDeposit_error.mp hr with ⟨-, -, rfl⟩ | ⟨hpos, ⟨-, -, rfl⟩ | ⟨hseq, ⟨-, rfl⟩ | ⟨_, hpool,
    ⟨-, rfl⟩ | ⟨_, _, hdist, ⟨-, rfl⟩ | ⟨_, hacc, hr⟩⟩⟩⟩⟩
  · rfl
  · rfl
  · rfl
  · rfl
  · rfl
  · have hamount : 0 < amount := Int.not_le.mp hpos
    obtain ⟨hdelta, hdistributed, hle⟩ := h.distributes hamount
    obtain ⟨-, hfits, rfl⟩ := add_ok.mp hpool
    rw [distribute_eq (by omega) htotal] at hdist
    split at hdist
    · cases hdist
    · rename_i hscaled
      cases hdist
      obtain ⟨-, haccfits, rfl⟩ := add_ok.mp hacc
      have hsub : sub (amount + a.state.carry) (a.state.distributed amount) =
        .ok (amount + a.state.carry - a.state.distributed amount) := sub_eq (by omega) (by omega)
      rcases hr with ⟨hover, -⟩ | ⟨_, -, ⟨hover, -⟩ | ⟨_, hdep, hover, -⟩⟩
      · cases hsub.symm.trans hover
      · refine absurd (⟨⟨hamount, by omega, by omega⟩, hfits, fun h0 => ?_, haccfits, ?_⟩  :
          OverflowsLate a (.accrueDeposit amount ledgerSeq timestamp)) hlate
        · exact Int.not_lt.mp fun hover => hscaled ⟨h0, hover⟩
        · exact ((add_error (by omega)).mp hover).1
      · -- what was distributed so far is a part of what was deposited
        obtain ⟨-, hroom, -⟩ := add_ok.mp hdep
        have hpart : a.state.totalDistributed + a.state.distributed amount ≤ i128Max := by omega
        exact absurd ((add_error (Int.add_nonneg hcredited hdistributed)).mp hover).1
          (Int.not_lt.mpr hpart)

theorem accrueDeposit_late (h : a.Sound)
    (hlate : OverflowsLate a (.accrueDeposit amount ledgerSeq timestamp)) :
    ∃ s', accrueDeposit amount ledgerSeq timestamp a.state = (.error .overflow, s') ∧ s' ≠ a.state := by
  obtain ⟨⟨hpos, hseq, htime⟩, hpool, hscaled, hacc, hover⟩ := hlate
  have htotal : 0 ≤ a.state.totalShares := Int.le_trans h.ok.shares h.part
  have hcarry := h.carry
  have haccpos := h.acc
  have hdeposits := h.deposits
  have hcredited := h.distributed
  obtain ⟨hdelta, hdistributed, hle⟩ := h.distributes hpos
  refine ⟨_, accrueDeposit_error.mpr (.inr ⟨by omega, .inr ⟨by omega, .inr ⟨_,
    (add_eq (by omega)).trans (if_pos hpool), .inr ⟨_, _, (distribute_eq (by omega) htotal).trans (if_neg ?_),
      .inr ⟨_, (add_eq (Int.add_nonneg haccpos hdelta)).trans (if_pos hacc), .inr ⟨_,
        sub_eq (Int.sub_nonneg_of_le hle) ?_, .inl ⟨(add_error (by omega)).mpr ⟨hover, rfl⟩, rfl⟩⟩⟩⟩⟩⟩⟩), ?_⟩
  · rintro ⟨h0, hlt⟩
    exact absurd (hscaled h0) (Int.not_le.mpr hlt)
  · change amount + a.state.carry - a.state.distributed amount ≤ i128Max
    omega
  · -- an accumulator that did not move has distributed nothing
    intro heq
    have h1 : a.state.accFeePerShare + a.state.delta amount = a.state.accFeePerShare :=
      congrArg (·.accFeePerShare) heq
    have h2 : amount + a.state.carry - a.state.distributed amount = a.state.carry := congrArg (·.carry) heq
    have h3 : a.state.delta amount = 0 := by omega
    rw [FeeAccrualState.distributed, h3, Int.zero_mul, Int.zero_ediv] at h2
    omega

end Errors

/-- The errors of a call leave the accumulator and the position as they were iff no operation behind its
first write overflows. -/
theorem errors_atomic_iff {a b : Pool} {id : Nat} {p : StakerFeePosition} (hn : a.IsNew)
    (hr : Reaches Step a b) (hp : b.positions.lookup id = some p) (c : Call) :
    Atomic c ⟨b.state, p⟩ ↔ ¬ OverflowsLate ⟨b.state, p⟩ c := by
  have h := Account.Sound.of_reaches hn hr hp
  cases c with
  | accrueDeposit amount ledgerSeq timestamp =>
    constructor
    · intro hatomic hlate
      obtain ⟨s', hs, hne⟩ := accrueDeposit_late h hlate
      have hrun : invoke (.accrueDeposit amount ledgerSeq timestamp) ⟨b.state, p⟩ =
          (.error .overflow, ⟨s', p⟩) :=
        bind_of_error (Tx.zoom_error.mpr ⟨s', hs, rfl⟩)
      exact hne (congrArg (·.state) (hatomic _ _ hrun))
    · intro hlate e a' hrun
      rcases Tx.bind_error.mp hrun with hz | ⟨_, _, -, hp⟩
      · obtain ⟨s', hs, rfl⟩ := Tx.zoom_error.mp hz
        obtain rfl := accrueDeposit_early h hlate hs
        rfl
      · simp at hp
  | addShares =>
    constructor
    · intro hatomic hlate
      obtain ⟨a', hrun, hne⟩ := addShares_late h hlate
      exact hne (hatomic _ _ hrun)
    · intro hlate e a' hrun
      exact addShares_early h hlate hrun
  | removeShares => exact ⟨fun _ => not_false, fun _ _ _ hrun => removeShares_atomic h hrun⟩
  | claim =>
    refine ⟨fun _ => not_false, fun _ e a' hrun => ?_⟩
    rcases Tx.bind_error.mp hrun with h' | ⟨_, _, ⟨⟩, hrun⟩
    · exact (gets_error h').elim
    rcases Tx.bind_error.mp hrun with hz | ⟨_, _, -, hp⟩
    · obtain ⟨q, hq, rfl⟩ := Tx.zoom_error.mp hz
      obtain rfl := claim_atomic h hq
      rfl
    · simp at hp

namespace Sample

/-- The position has one share, for which a unit was deposited. -/
def earned : Pool := ⟨⟨ACC_PRECISION, 1, 0, 1, 1, 1, 1, 1⟩, empty.positions.insert 0 ⟨⟨4⟩, 1, 0, 0⟩, 0⟩

theorem reaches_earned : Reaches Step empty earned := by
  have hadd : FeeAccrual.addShares 1 ⟨empty.state, .new ⟨4⟩⟩ =
      (.ok (), ⟨{ FeeAccrualState.new with totalShares := 1 }, ⟨⟨4⟩, 1, 0, 0⟩⟩) := rfl
  have hdeposit : FeeAccrual.accrueDeposit 1 1 1 { FeeAccrualState.new with totalShares := 1 } =
      (.ok ⟨1, 1, 1, ACC_PRECISION, 0, ACC_PRECISION, 1, 1, 1⟩, earned.state) := rfl
  exact .tail (.tail (.refl _) (.addShares rfl hadd)) (.accrueDeposit hdeposit)

/-- More shares than an accumulation can count. -/
def tooMany : Int := 10 ^ 30

/-- The shares are added although the debt that goes with them overflows. -/
theorem addShares_traces : invoke (.addShares tooMany) ⟨earned.state, ⟨⟨4⟩, 1, 0, 0⟩⟩ =
    (.error .overflow, ⟨{ earned.state with totalShares := tooMany + 1 }, ⟨⟨4⟩, tooMany + 1, 1, 1⟩⟩) := by
  rfl

end Sample

open Sample in
/-- Adding too many shares changes nothing unless it overflows late. -/
theorem earned_atomic_iff :
    Atomic (.addShares tooMany) ⟨earned.state, ⟨⟨4⟩, 1, 0, 0⟩⟩ ↔
      ¬ OverflowsLate ⟨earned.state, ⟨⟨4⟩, 1, 0, 0⟩⟩ (.addShares tooMany) :=
  errors_atomic_iff empty_isNew reaches_earned (rfl : earned.positions.lookup 0 = some ⟨⟨4⟩, 1, 0, 0⟩) _

open Sample in
/-- One share that earned a unit: the shares that a failed call added stay, and nothing of the position
can be settled any more. -/
theorem failed_addShares_adds :
    ¬ ∀ (a b : Pool) (id : Nat) (p : StakerFeePosition), a.IsNew → Reaches Step a b →
      b.positions.lookup id = some p → ∀ c, Atomic c ⟨b.state, p⟩ := by
  intro h
  have heq := h empty earned 0 ⟨⟨4⟩, 1, 0, 0⟩ empty_isNew reaches_earned rfl (.addShares tooMany) _ _
    addShares_traces
  exact absurd (congrArg (·.position.shares) heq) (by decide)

end CallStake.FeeAccrual
