import CallStake.StakeVault.FeeAccrual
import Mathlib.Tactic.Linarith

/-!
# The fees that are owed

A pool of positions over one accumulator, in any order of calls. What was claimed, what the positions
are owed and the carry should never be more than what was deposited.

Settling, claiming and changing shares move fees without making any. A deposit credits every position
with the whole units that its shares reach, rounded down one by one, and returns to the carry what
does not divide evenly; but the fraction of a unit that goes back to the carry also stays in the
accumulator.

* `Pool.excess`: the fees owed beyond the deposits; `excess_step`: only deposits change it.
* `excess_deposit_iff`: a deposit leaves the excess as it is or lowers it iff these parts grow by what
  went back to the carry.
-/

namespace CallStake.FeeAccrual

open Store

/-- An accumulator, its positions and the fees claimed so far. -/
structure Pool where
  state : FeeAccrualState
  positions : Store Nat StakerFeePosition
  claimed : Int

/-- The operations on a pool with its checkpoints. -/
inductive Op where
  | accrueDeposit (amount : Int) (ledgerSeq timestamp : Nat)
  | addShares (id : Nat) (amount : Int)
  | removeShares (id : Nat) (amount : Int)
  | settle (id : Nat)
  | claim (id : Nat)

/-- A new accumulator with positions that were just created. -/
structure Pool.IsNew (a : Pool) : Prop where
  state : a.state = .new
  positions : a.positions.All fun p => p = .new p.staker
  claimed : a.claimed = 0

/-- A call that succeeds. -/
inductive Step (a : Pool) : Op → Pool → Prop
  | accrueDeposit {amount : Int} {ledgerSeq timestamp : Nat} {update : AccrualUpdate}
      {state : FeeAccrualState}
      (h : FeeAccrual.accrueDeposit amount ledgerSeq timestamp a.state = (.ok update, state)) :
      Step a (.accrueDeposit amount ledgerSeq timestamp) { a with state }
  | addShares {id : Nat} {amount : Int} {p : StakerFeePosition} {a' : Account}
      (hp : a.positions.lookup id = some p)
      (h : FeeAccrual.addShares amount ⟨a.state, p⟩ = (.ok (), a')) :
      Step a (.addShares id amount)
        { a with state := a'.state, positions := a.positions.insert id a'.position }
  | removeShares {id : Nat} {amount : Int} {p : StakerFeePosition} {a' : Account}
      (hp : a.positions.lookup id = some p)
      (h : FeeAccrual.removeShares amount ⟨a.state, p⟩ = (.ok (), a')) :
      Step a (.removeShares id amount)
        { a with state := a'.state, positions := a.positions.insert id a'.position }
  | settle {id : Nat} {n : Int} {p p' : StakerFeePosition} (hp : a.positions.lookup id = some p)
      (h : FeeAccrual.settle a.state p = (.ok n, p')) :
      Step a (.settle id) { a with positions := a.positions.insert id p' }
  | claim {id : Nat} {n : Int} {p p' : StakerFeePosition} (hp : a.positions.lookup id = some p)
      (h : FeeAccrual.claim a.state p = (.ok n, p')) :
      Step a (.claim id)
        { a with positions := a.positions.insert id p', claimed := a.claimed + n }

/-! ## Fractions -/

/-- The part of a unit that `shares` hold in the accumulator. -/
def fraction (acc shares : Int) : Int := shares * acc % ACC_PRECISION

/-- The parts of a unit that the positions would hold with the accumulator at `acc`. -/
def Pool.fractions (a : Pool) (acc : Int) : Int := Store.total (fun p => fraction acc p.shares) a.positions

/-- The fees owed beyond the deposits. -/
def Pool.excess (a : Pool) : Int :=
  a.claimed + Store.total (owed a.state.accFeePerShare) a.positions + a.state.carry -
    a.state.totalDeposited

/-- The parts of a unit that the positions hold grow by at least the part that the deposit returns to
the carry. -/
def FractionsGrow (a : Pool) (amount : Int) : Prop :=
  a.fractions a.state.accFeePerShare +
      a.state.delta amount * a.state.totalShares % ACC_PRECISION ≤
    a.fractions (a.state.accFeePerShare + a.state.delta amount)

/-- A call that succeeds, with the condition on deposits. -/
def GrowingStep (a : Pool) (op : Op) (b : Pool) : Prop :=
  Step a op b ∧ ∀ amount ledgerSeq timestamp, op = .accrueDeposit amount ledgerSeq timestamp → FractionsGrow a amount

/-! ## The invariant -/

/-- The pool is in order. -/
structure Pool.Ok (a : Pool) : Prop where
  acc : 0 ≤ a.state.accFeePerShare
  carry : 0 ≤ a.state.carry
  total : a.state.totalShares = Store.total (·.shares) a.positions
  positions : a.positions.All (·.Ok a.state.accFeePerShare)

section Steps

variable {a b : Pool} {op : Op} {amount acc acc' shares : Int} {p p' : StakerFeePosition} {id : Nat}

theorem Pool.IsNew.ok (h : a.IsNew) : a.Ok ∧ a.excess = 0 := by
  have hp : a.positions.All fun p => p.shares = 0 ∧ owed 0 p = 0 ∧ p.Ok 0 := by
    intro id p hp
    rw [h.positions id p hp]
    exact ⟨rfl, by simp [owed, accumulated, StakerFeePosition.new],
      ⟨Int.le_refl _, by simp [accumulated, StakerFeePosition.new]⟩⟩
  refine ⟨⟨?_, ?_, ?_, ?_⟩, ?_⟩
  · rw [h.state]; exact Int.le_refl _
  · rw [h.state]; exact Int.le_refl _
  · rw [h.state, total_eq_zero (hp.mono fun _ h => h.1)]; rfl
  · rw [h.state]; exact hp.mono fun _ h => h.2.2
  · unfold Pool.excess
    rw [h.state, h.claimed]
    simp only [FeeAccrualState.new]
    rw [total_eq_zero (hp.mono fun _ h => h.2.1)]
    rfl

theorem Pool.Ok.total_nonneg (h : a.Ok) : 0 ≤ a.state.totalShares := by
  rw [h.total]
  exact Store.total_nonneg (h.positions.mono fun _ hp => hp.shares)

theorem accumulated_nonneg (hs : 0 ≤ shares) (ha : 0 ≤ acc) : 0 ≤ accumulated acc shares :=
  Int.ediv_nonneg (Int.mul_nonneg hs ha) (by decide)

theorem accumulated_le (h : shares * acc ≤ i128Max) : accumulated acc shares ≤ i128Max := by
  unfold accumulated ACC_PRECISION
  unfold i128Max at h ⊢
  omega

theorem accumulated_mono (hs : 0 ≤ shares) (h : acc ≤ acc') :
    accumulated acc shares ≤ accumulated acc' shares :=
  Int.ediv_le_ediv (by decide) (Int.mul_le_mul_of_nonneg_left h hs)

/-- A position that is replaced: the total of the shares and the excess change by what changed
there. -/
theorem Pool.Ok.setPosition {claimed : Int} (h : a.Ok) (total : Int)
    (hp : a.positions.lookup id = some p) (hok : p'.Ok a.state.accFeePerShare)
    (ht : total = a.state.totalShares + (p'.shares - p.shares))
    (ho : claimed + owed a.state.accFeePerShare p' = a.claimed + owed a.state.accFeePerShare p) :
    Pool.Ok ⟨{ a.state with totalShares := total }, a.positions.insert id p', claimed⟩ ∧
      Pool.excess ⟨{ a.state with totalShares := total }, a.positions.insert id p', claimed⟩ = a.excess := by
  refine ⟨⟨h.acc, h.carry, ?_, h.positions.insert hok⟩, ?_⟩
  · change total = Store.total _ (a.positions.insert id p')
    rw [total_insert, part_some hp, ht, h.total]
    omega
  · unfold Pool.excess
    simp only
    rw [total_insert, part_some hp]
    omega

/-- What the positions are owed and what they hold in fractions is what their shares accumulated. -/
theorem scaled_owed (a : Pool) (acc : Int) :
    ACC_PRECISION * Store.total (owed acc) a.positions + a.fractions acc =
      ACC_PRECISION * Store.total (fun p => p.realized - p.feeDebt) a.positions +
        acc * Store.total (·.shares) a.positions := by
  unfold Pool.fractions
  rw [← total_mul, ← total_mul, ← total_mul, ← total_add, ← total_add]
  refine total_congr fun id p _ => ?_
  have hdiv := Int.mul_ediv_add_emod (p.shares * acc) ACC_PRECISION
  simp only [owed, accumulated, fraction]
  linarith

/-- A deposit credits more than it distributes by the fractions that turn into whole units. -/
theorem scaled_excess (h : a.Ok) (amount : Int) :
    ACC_PRECISION * (Store.total (owed (a.state.accFeePerShare + a.state.delta amount)) a.positions -
        Store.total (owed a.state.accFeePerShare) a.positions - a.state.distributed amount) =
      a.fractions a.state.accFeePerShare +
        a.state.delta amount * a.state.totalShares % ACC_PRECISION -
        a.fractions (a.state.accFeePerShare + a.state.delta amount) := by
  have h1 := scaled_owed a a.state.accFeePerShare
  have h2 := scaled_owed a (a.state.accFeePerShare + a.state.delta amount)
  have h3 := Int.mul_ediv_add_emod (a.state.delta amount * a.state.totalShares) ACC_PRECISION
  rw [← h.total] at h1 h2
  unfold FeeAccrualState.distributed
  rw [Int.add_mul] at h2
  linarith

/-- Not more is distributed than there is. -/
theorem distributed_le {state : FeeAccrualState} (hc : 0 ≤ state.carry) (ht : 0 ≤ state.totalShares)
    (ha : 0 < amount) :
    0 ≤ state.delta amount ∧ state.distributed amount ≤ amount + state.carry := by
  have hpool : 0 ≤ amount + state.carry := Int.add_nonneg (Int.le_of_lt ha) hc
  have hscaled : 0 ≤ (amount + state.carry) * ACC_PRECISION := Int.mul_nonneg hpool (by decide)
  refine ⟨Int.ediv_nonneg hscaled ht, ?_⟩
  have hle : state.delta amount * state.totalShares ≤ (amount + state.carry) * ACC_PRECISION := by
    by_cases h0 : state.totalShares = 0
    · rw [h0, Int.mul_zero]; exact hscaled
    · exact Int.ediv_mul_le _ h0
  calc state.distributed amount
      ≤ (amount + state.carry) * ACC_PRECISION / ACC_PRECISION := Int.ediv_le_ediv (by decide) hle
    _ = amount + state.carry := Int.mul_ediv_cancel _ (by decide)

/-- A deposit keeps the pool in order, and leaves the excess as it is or lowers it iff the fractions
grow by what went back to the carry. -/
theorem Pool.Ok.deposit {ledgerSeq timestamp : Nat} {update : AccrualUpdate}
    {state : FeeAccrualState} (h : a.Ok)
    (hd : accrueDeposit amount ledgerSeq timestamp a.state = (.ok update, state)) :
    Pool.Ok { a with state } ∧ (Pool.excess { a with state } ≤ a.excess ↔ FractionsGrow a amount) := by
  obtain ⟨hpos, rfl⟩ := accrueDeposit_ok h.carry h.total_nonneg hd
  obtain ⟨hdelta, hle⟩ := distributed_le h.carry h.total_nonneg hpos
  refine ⟨⟨Int.add_nonneg h.acc hdelta, Int.sub_nonneg_of_le hle, h.total, ?_⟩, ?_⟩
  · intro id p hp
    have hok := h.positions id p hp
    exact ⟨hok.shares, Int.le_trans hok.debt
      (accumulated_mono hok.shares (Int.le_add_of_nonneg_right hdelta))⟩
  · have hs := scaled_excess h amount
    have hP : 0 < ACC_PRECISION := by decide
    unfold Pool.excess FractionsGrow
    simp only
    constructor
    · intro hx
      have hx' := Int.mul_nonpos_of_nonneg_of_nonpos (Int.le_of_lt hP) (b :=
        Store.total (owed (a.state.accFeePerShare + a.state.delta amount)) a.positions -
        Store.total (owed a.state.accFeePerShare) a.positions - a.state.distributed amount)
        (by omega)
      omega
    · intro hf
      have hx := Int.nonpos_of_mul_nonpos_right (a := ACC_PRECISION) (b :=
        Store.total (owed (a.state.accFeePerShare + a.state.delta amount)) a.positions -
        Store.total (owed a.state.accFeePerShare) a.positions - a.state.distributed amount)
        (by omega) hP
      omega

/-- Every other call leaves the excess as it is. -/
theorem Pool.Ok.step (h : a.Ok) (hs : Step a op b) :
    b.Ok ∧ (b.excess = a.excess ∨
      ∃ amount ledgerSeq timestamp, op = .accrueDeposit amount ledgerSeq timestamp ∧
        (b.excess ≤ a.excess ↔ FractionsGrow a amount)) := by
  cases hs with
  | accrueDeposit hd =>
    obtain ⟨hok, hx⟩ := h.deposit hd
    exact ⟨hok, .inr ⟨_, _, _, rfl, hx⟩⟩
  | addShares hp hd =>
    have hpos := h.positions _ _ hp
    obtain ⟨ha, rfl⟩ := addShares_ok hpos h.acc hd
    refine (h.setPosition _ hp ?_ ?_ ?_).imp_right .inl
    · exact ⟨Int.add_nonneg hpos.shares (Int.le_of_lt ha), Int.le_refl _⟩
    · simp [StakerFeePosition.withShares]
    · simp [StakerFeePosition.withShares, owed]
  | removeShares hp hd =>
    have hpos := h.positions _ _ hp
    obtain ⟨-, hle, rfl⟩ := removeShares_ok hpos h.acc hd
    refine (h.setPosition _ hp ?_ ?_ ?_).imp_right .inl
    · exact ⟨Int.sub_nonneg_of_le hle, Int.le_refl _⟩
    · simp [StakerFeePosition.withShares]; omega
    · simp [StakerFeePosition.withShares, owed]
  | settle hp hd =>
    have hpos := h.positions _ _ hp
    obtain rfl := settle_ok hpos h.acc hd
    refine (h.setPosition a.state.totalShares hp ?_ ?_ ?_).imp_right .inl
    · exact ⟨hpos.shares, Int.le_refl _⟩
    · simp [StakerFeePosition.settled]
    · simp [StakerFeePosition.settled, owed]
  | claim hp hd =>
    have hpos := h.positions _ _ hp
    obtain ⟨rfl, rfl⟩ := claim_ok hpos h.acc hd
    refine (h.setPosition a.state.totalShares hp ?_ ?_ ?_).imp_right .inl
    · exact ⟨hpos.shares, Int.le_refl _⟩
    · simp [StakerFeePosition.settled]
    · simp [StakerFeePosition.settled, owed]

/-- In every run whose deposits let the fractions grow by what went back to the carry, the fees
claimed, the fees pending at the positions and the carry are at most the fees deposited. -/
theorem fees_solvent (hn : a.IsNew) (hr : Reaches GrowingStep a b) (v : Nat → Int)
    (hv : ∀ id p, b.positions.lookup id = some p → pending b.state p = .ok (v id)) :
    b.claimed + (b.positions.keys.map v).sum + b.state.carry ≤ b.state.totalDeposited := by
  obtain ⟨hok, h0⟩ := hn.ok
  have hinv : b.Ok ∧ b.excess ≤ 0 := by
    refine hr.invariant (I := fun b => b.Ok ∧ b.excess ≤ 0) ⟨hok, Int.le_of_eq h0⟩ ?_
    rintro c op d ⟨hc, hx⟩ ⟨hs, hg⟩
    obtain ⟨hd, he | ⟨amount, seq, ts, rfl, hiff⟩⟩ := hc.step hs
    · exact ⟨hd, he ▸ hx⟩
    · exact ⟨hd, Int.le_trans (hiff.mpr (hg amount seq ts rfl)) hx⟩
  have hsum : (b.positions.keys.map v).sum =
      Store.total (owed b.state.accFeePerShare) b.positions := by
    unfold Store.total AList.keys List.keys
    rw [List.map_map]
    congr 1
    refine List.map_congr_left fun e he => ?_
    have hl := Store.mem_entries_iff.mp he
    exact pending_ok (hinv.1.positions _ _ hl) hinv.1.acc (hv _ _ hl)
  have hx := hinv.2
  unfold Pool.excess at hx
  omega

end Steps

/-! ## Dust -/

namespace Sample

/-- One position, without shares. -/
def empty : Pool := ⟨.new, (∅ : Store Nat StakerFeePosition).insert 0 (.new ⟨4⟩), 0⟩

/-- The position has three shares. -/
def staked : Pool := ⟨{ FeeAccrualState.new with totalShares := 3 }, empty.positions.insert 0 ⟨⟨4⟩, 3, 0, 0⟩, 0⟩

theorem empty_isNew : empty.IsNew := by
  refine ⟨rfl, ?_, rfl⟩
  intro id p hp
  rw [empty, lookup_insert_eq] at hp
  split at hp
  · cases hp; rfl
  · cases hp

theorem step_staked : Step empty (.addShares 0 3) staked := by
  have hadd : FeeAccrual.addShares 3 ⟨empty.state, .new ⟨4⟩⟩ =
      (.ok (), ⟨{ FeeAccrualState.new with totalShares := 3 }, ⟨⟨4⟩, 3, 0, 0⟩⟩) := rfl
  exact .addShares rfl hadd

/-- Ten units were deposited: nine of them are pending and one is carried. -/
def dusted : Pool := { staked with state := ⟨3333333333333, 3, 1, 10, 9, 1, 1, 1⟩ }

/-- There is one position. -/
theorem pending_staked {state : FeeAccrualState} {n : Int}
    (h : pending state ⟨⟨4⟩, 3, 0, 0⟩ = .ok n) :
    ∀ id p, staked.positions.lookup id = some p → pending state p = .ok n := by
  intro id p hp
  rw [staked, lookup_insert_eq] at hp
  split at hp
  · cases hp; exact h
  · rename_i hne
    rw [empty, lookup_insert_eq, if_neg hne] at hp
    cases hp

end Sample

open Sample in
/-- The pending fees and the carry are within the deposits. -/
theorem fees_solvent_dusted :
    pending dusted.state ⟨⟨4⟩, 3, 0, 0⟩ = .ok 9 ∧
      dusted.claimed + (dusted.positions.keys.map fun _ => (9 : Int)).sum + dusted.state.carry ≤
        dusted.state.totalDeposited := by
  have hr : Reaches GrowingStep empty dusted := by
    refine .tail (.tail (.refl _) ⟨step_staked, ?_⟩)
      (⟨.accrueDeposit rfl, ?_⟩ : GrowingStep staked (.accrueDeposit 10 1 1) dusted)
    · intro _ _ _ h; cases h
    · intro _ _ _ h
      cases h
      unfold FractionsGrow
      decide +kernel
  exact ⟨rfl, fees_solvent empty_isNew hr (fun _ => 9) (pending_staked rfl)⟩

open Sample in
/-- Two deposits of one unit over three shares: the dust of the first is paid out and carried. -/
theorem dust_is_counted_twice :
    ¬ ∀ a b : Pool, a.IsNew → Reaches Step a b → ∀ v : Nat → Int,
      (∀ id p, b.positions.lookup id = some p → pending b.state p = .ok (v id)) →
      b.claimed + (b.positions.keys.map v).sum + b.state.carry ≤ b.state.totalDeposited := by
  intro h
  have h1 : Step staked (.accrueDeposit 1 1 1)
      { staked with state := ⟨333333333333, 3, 1, 1, 0, 1, 1, 1⟩ } := .accrueDeposit rfl
  have h2 : Step { staked with state := ⟨333333333333, 3, 1, 1, 0, 1, 1, 1⟩ }
      (.accrueDeposit 1 2 2) { staked with state := ⟨999999999999, 3, 1, 2, 1, 2, 2, 2⟩ } :=
    .accrueDeposit rfl
  have hle := h _ _ empty_isNew (.tail (.tail (.tail (.refl _) step_staked) h1) h2) (fun _ => 2)
    (pending_staked rfl)
  exact absurd hle (by decide +kernel)

end CallStake.FeeAccrual
