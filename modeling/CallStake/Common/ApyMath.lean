import CallStake.Lib.Growth
import CallStake.Lib.Machine

/-!
# Reward accrual (`common::apy_math`, `common::checked_amount`)

Rewards on a principal at a rate in basis points a year, for some seconds: once (`accrueSimple`), or over equal
periods with the growth reinvested (`accrueCompound`). Every step is checked for overflow.

* `growth`: what a balance earns in one period, with both quotients rounded down.
* `accrueSimple_ok`, `accrueCompound_ok`: the value of a call that returns. `accrueSimple_error`,
  `accrueCompound_error`: a call with accepted arguments fails by overflow only.
* `growth_add`: two periods earn what one of their joint length does, or one unit less.
-/

namespace CallStake

/-! ## Checked amounts -/

/-- The errors of the checked operations. -/
inductive AmountError where
  | overflow
  | divisionByZero

namespace Amount

def checkedAdd (a b : Int) : Except AmountError Int := fits .overflow (a + b)

def checkedSub (a b : Int) : Except AmountError Int := fits .overflow (a - b)

/-- `a * numerator / denominator`, rounded towards zero. -/
def checkedMulRate (a numerator denominator : Int) : Except AmountError Int :=
  if denominator = 0 then .error .divisionByZero
  else do
    let scaled ← fits .overflow (a * numerator)
    fits .overflow (scaled.tdiv denominator)

end Amount

namespace ApyMath

def BPS_DENOMINATOR : Int := 10000
def SECONDS_PER_YEAR : Nat := 365 * 24 * 60 * 60
def MAX_APY_BPS : Nat := 100000
def MAX_COMPOUND_PERIODS : Nat := 1200

/-- The errors of the APY functions. -/
inductive ApyMathError where
  | rateOutOfBounds
  | overflow
  | divisionByZero
  | invalidInput
  deriving DecidableEq

/-- `From<AmountError>`. -/
def ApyMathError.ofAmount : AmountError → ApyMathError
  | .overflow => .overflow
  | .divisionByZero => .divisionByZero

def validateApyBps (rateBps : Nat) : Except ApyMathError Nat :=
  if MAX_APY_BPS < rateBps then .error .rateOutOfBounds else .ok rateBps

/-- The annual reward of a balance, and the part of it for `secs` seconds. -/
def checkedGrowth (balance : Int) (rateBps secs : Nat) : Except AmountError Int := do
  let annual ← Amount.checkedMulRate balance rateBps BPS_DENOMINATOR
  Amount.checkedMulRate annual secs SECONDS_PER_YEAR

def accrueSimple (principal : Int) (rateBps elapsedSecs : Nat) : Except ApyMathError Int :=
  if principal < 0 then .error .invalidInput
  else do
    let _ ← validateApyBps rateBps
    (checkedGrowth principal rateBps elapsedSecs).mapError .ofAmount

/-- The loop of `accrue_compound`: the balance after the periods that are left. -/
def compoundPeriods (rateBps periodSecs : Nat) : Nat → Int → Except AmountError Int
  | 0, balance => .ok balance
  | periods + 1, balance => do
    let growth ← checkedGrowth balance rateBps periodSecs
    let balance ← Amount.checkedAdd balance growth
    compoundPeriods rateBps periodSecs periods balance

def accrueCompound (principal : Int) (rateBps periods periodSecs : Nat) : Except ApyMathError Int :=
  if principal < 0 ∨ periodSecs = 0 ∨ MAX_COMPOUND_PERIODS < periods then .error .invalidInput
  else do
    let _ ← validateApyBps rateBps
    let reward := do
      let balance ← compoundPeriods rateBps periodSecs periods principal
      Amount.checkedSub balance principal
    reward.mapError .ofAmount

/-! ## Growth -/

/-- What `balance` earns in `secs` seconds. -/
def growth (rateBps secs : Nat) (balance : Int) : Int := balance * rateBps / BPS_DENOMINATOR * secs / SECONDS_PER_YEAR

section Growth

variable {b b' : Int} {r r' s s' : Nat}

theorem annual_nonneg (hb : 0 ≤ b) : 0 ≤ b * r / BPS_DENOMINATOR :=
  Int.ediv_nonneg (Int.mul_nonneg hb (Int.natCast_nonneg r)) (by decide)

theorem growth_nonneg (hb : 0 ≤ b) : 0 ≤ growth r s b :=
  Int.ediv_nonneg (Int.mul_nonneg (annual_nonneg hb) (Int.natCast_nonneg s)) (Int.natCast_nonneg _)

theorem growth_mono (hb : 0 ≤ b) (h : b ≤ b') (hr : r ≤ r') (hs : s ≤ s') :
    growth r s b ≤ growth r' s' b' := by
  have hyear : b * r ≤ b' * r' := Int.mul_le_mul h (Int.ofNat_le.mpr hr) (Int.natCast_nonneg r) (hb.trans h)
  have hannual : b * r / BPS_DENOMINATOR ≤ b' * r' / BPS_DENOMINATOR := Int.ediv_le_ediv (by decide) hyear
  have hb' : 0 ≤ b' * r' / BPS_DENOMINATOR := annual_nonneg (hb.trans h)
  exact Int.ediv_le_ediv (by decide)
    (Int.mul_le_mul hannual (Int.ofNat_le.mpr hs) (Int.natCast_nonneg s) hb')

/-- Cutting a period in two loses at most one unit. -/
theorem growth_add (b : Int) (r a c : Nat) :
    growth r a b + growth r c b ≤ growth r (a + c) b ∧ growth r (a + c) b ≤ growth r a b + growth r c b + 1 := by
  have hcast : ((a + c : Nat) : Int) = a + c := by omega
  unfold growth SECONDS_PER_YEAR
  rw [hcast, Int.mul_add]
  omega

end Growth

/-! ## What the calls return -/

section Calls

variable {a b c d n x y : Int} {r s t periods : Nat}

theorem checkedMulRate_ok (ha : 0 ≤ a) (hn : 0 ≤ n) (h : Amount.checkedMulRate a n d = .ok c) : c = a * n / d := by
  unfold Amount.checkedMulRate at h
  split at h
  · cases h
  · obtain ⟨scaled, hscaled, h⟩ := except_bind_ok.mp h
    obtain ⟨-, rfl⟩ := fits_ok.mp hscaled
    obtain ⟨-, rfl⟩ := fits_ok.mp h
    exact Int.tdiv_eq_ediv_of_nonneg (Int.mul_nonneg ha hn)

theorem checkedGrowth_ok (hb : 0 ≤ b) (h : checkedGrowth b r s = .ok x) : x = growth r s b := by
  obtain ⟨annual, hannual, h⟩ := except_bind_ok.mp h
  obtain rfl := checkedMulRate_ok hb (Int.natCast_nonneg r) hannual
  exact checkedMulRate_ok (annual_nonneg hb) (Int.natCast_nonneg s) h

theorem compoundPeriods_ok (hb : 0 ≤ b) (h : compoundPeriods r s periods b = .ok x) :
    x = grown (growth r s) periods b := by
  induction periods generalizing b with
  | zero =>
    cases h
    rfl
  | succ periods ih =>
    obtain ⟨g, hg, h⟩ := except_bind_ok.mp h
    obtain ⟨balance, hbalance, h⟩ := except_bind_ok.mp h
    obtain rfl := checkedGrowth_ok hb hg
    obtain ⟨-, rfl⟩ := fits_ok.mp hbalance
    exact ih (Int.add_nonneg hb (growth_nonneg hb)) h

/-- A checked step with a fixed denominator fails by overflow only. -/
theorem checkedMulRate_error {e : AmountError} (hd : d ≠ 0) (h : Amount.checkedMulRate a n d = .error e) :
    e = .overflow := by
  unfold Amount.checkedMulRate at h
  rw [if_neg hd] at h
  rcases except_bind_error.mp h with h | ⟨scaled, -, h⟩
  · exact (fits_error.mp h).2.symm
  · exact (fits_error.mp h).2.symm

theorem checkedGrowth_error {e : AmountError} (h : checkedGrowth b r s = .error e) : e = .overflow := by
  rcases except_bind_error.mp h with h | ⟨annual, -, h⟩
  · exact checkedMulRate_error (by decide) h
  · exact checkedMulRate_error (by decide) h

theorem compoundPeriods_error {e : AmountError} (h : compoundPeriods r s periods b = .error e) : e = .overflow := by
  induction periods generalizing b with
  | zero => cases h
  | succ periods ih =>
    rcases except_bind_error.mp h with h | ⟨g, -, h⟩
    · exact checkedGrowth_error h
    · rcases except_bind_error.mp h with h | ⟨balance, -, h⟩
      · exact (fits_error.mp h).2.symm
      · exact ih h

end Calls

/-! ## The two accruals -/

section Accruals

variable {p x : Int} {r t n s : Nat}

theorem validateApyBps_ok {u : Nat} : validateApyBps r = .ok u ↔ r ≤ MAX_APY_BPS ∧ r = u := by
  unfold validateApyBps
  split
  · rename_i h
    simp
    omega
  · rename_i h
    simp
    omega

theorem accrueSimple_ok (h : accrueSimple p r t = .ok x) : 0 ≤ p ∧ r ≤ MAX_APY_BPS ∧ x = growth r t p := by
  unfold accrueSimple at h
  split at h
  · cases h
  · rename_i hp
    obtain ⟨_, hr, h⟩ := except_bind_ok.mp h
    have hp : 0 ≤ p := by omega
    exact ⟨hp, (validateApyBps_ok.mp hr).1, checkedGrowth_ok hp (mapError_ok.mp h)⟩

theorem accrueCompound_ok (h : accrueCompound p r n s = .ok x) :
    0 ≤ p ∧ r ≤ MAX_APY_BPS ∧ x = grown (growth r s) n p - p := by
  unfold accrueCompound at h
  split at h
  · cases h
  · rename_i hinput
    have hp : 0 ≤ p := by omega
    obtain ⟨_, hr, h⟩ := except_bind_ok.mp h
    obtain ⟨balance, hbalance, h⟩ := except_bind_ok.mp (mapError_ok.mp h)
    obtain rfl := compoundPeriods_ok hp hbalance
    obtain ⟨-, rfl⟩ := fits_ok.mp h
    exact ⟨hp, (validateApyBps_ok.mp hr).1, rfl⟩

/-- With accepted arguments a call returns, or fails by overflow. -/
theorem accrueSimple_total (hp : 0 ≤ p) (hr : r ≤ MAX_APY_BPS) :
    (∃ x, accrueSimple p r t = .ok x) ∨ accrueSimple p r t = .error .overflow := by
  have hrate : validateApyBps r = .ok r := validateApyBps_ok.mpr ⟨hr, rfl⟩
  have hcall : accrueSimple p r t = (checkedGrowth p r t).mapError .ofAmount := by
    rw [accrueSimple, if_neg (by omega), hrate]
    rfl
  rw [hcall]
  rcases hg : checkedGrowth p r t with e | x
  · obtain rfl := checkedGrowth_error hg
    exact .inr rfl
  · exact .inl ⟨x, rfl⟩

theorem accrueCompound_total (hp : 0 ≤ p) (hr : r ≤ MAX_APY_BPS) (hs : s ≠ 0) (hn : n ≤ MAX_COMPOUND_PERIODS) :
    (∃ x, accrueCompound p r n s = .ok x) ∨ accrueCompound p r n s = .error .overflow := by
  have hrate : validateApyBps r = .ok r := validateApyBps_ok.mpr ⟨hr, rfl⟩
  rcases hcall : accrueCompound p r n s with e | x
  · refine .inr ?_
    rw [accrueCompound, if_neg (by omega), hrate] at hcall
    obtain ⟨e', h, rfl⟩ := mapError_error.mp hcall
    rcases except_bind_error.mp h with h | ⟨balance, -, h⟩
    · rw [compoundPeriods_error h]
      rfl
    · rw [← (fits_error.mp h).2]
      rfl
  · exact .inl ⟨x, rfl⟩

end Accruals

/-! ## Main result -/

/-- Nothing is gained by cutting a period in two, and at most one unit lost; more principal, rate, time or periods
never accrue less; and reinvesting accrues at least what it does not to. -/
theorem accrual_not_gamed :
    (∀ (p : Int) (r a b : Nat) (x y z : Int), accrueSimple p r a = .ok x → accrueSimple p r b = .ok y →
      accrueSimple p r (a + b) = .ok z → x + y ≤ z ∧ z ≤ x + y + 1) ∧
    (∀ (p p' : Int) (r r' t t' : Nat) (x y : Int), accrueSimple p r t = .ok x → accrueSimple p' r' t' = .ok y →
      p ≤ p' → r ≤ r' → t ≤ t' → x ≤ y) ∧
    (∀ (p p' : Int) (r r' n n' s s' : Nat) (x y : Int), accrueCompound p r n s = .ok x →
      accrueCompound p' r' n' s' = .ok y → p ≤ p' → r ≤ r' → n ≤ n' → s ≤ s' → x ≤ y) ∧
    (∀ (p : Int) (r n s : Nat) (x c : Int), accrueSimple p r s = .ok x → accrueCompound p r n s = .ok c → n * x ≤ c) ∧
    ∀ (p : Int) (r n s : Nat), 0 ≤ p → r ≤ MAX_APY_BPS →
      ((∃ x, accrueSimple p r s = .ok x) ∨ accrueSimple p r s = .error .overflow) ∧
      (s ≠ 0 → n ≤ MAX_COMPOUND_PERIODS →
        (∃ x, accrueCompound p r n s = .ok x) ∨ accrueCompound p r n s = .error .overflow) := by
  refine ⟨?_, ?_, ?_, ?_, ?_⟩
  · intro p r a b x y z ha hb hab
    obtain ⟨-, -, rfl⟩ := accrueSimple_ok ha
    obtain ⟨-, -, rfl⟩ := accrueSimple_ok hb
    obtain ⟨-, -, rfl⟩ := accrueSimple_ok hab
    exact growth_add p r a b
  · intro p p' r r' t t' x y hx hy hp hr ht
    obtain ⟨h0, -, rfl⟩ := accrueSimple_ok hx
    obtain ⟨-, -, rfl⟩ := accrueSimple_ok hy
    exact growth_mono h0 hp hr ht
  · intro p p' r r' n n' s s' x y hx hy hp hr hn hs
    obtain ⟨h0, -, rfl⟩ := accrueCompound_ok hx
    obtain ⟨h0', -, rfl⟩ := accrueCompound_ok hy
    have hgrowth : ∀ b, 0 ≤ b → 0 ≤ growth r' s' b := fun _ => growth_nonneg
    calc grown (growth r s) n p - p
        ≤ grown (growth r' s') n p' - p' :=
          grown_sub_le (fun _ => growth_nonneg) (fun _ _ h0 h => growth_mono h0 h hr hs) h0 hp n
      _ ≤ grown (growth r' s') n' p' - p' := Int.sub_le_sub_right (grown_le_grown hgrowth h0' hn) p'
  · intro p r n s x c hx hc
    obtain ⟨h0, -, rfl⟩ := accrueSimple_ok hx
    obtain ⟨-, -, rfl⟩ := accrueCompound_ok hc
    have h := nsmul_le_grown_sub (g := growth r s) (fun _ => growth_nonneg)
      (fun _ _ h0 h => growth_mono h0 h (Nat.le_refl r) (Nat.le_refl s)) h0 n
    rwa [nsmul_eq_mul] at h
  · intro p r n s hp hr
    exact ⟨accrueSimple_total hp hr, accrueCompound_total hp hr⟩

/-- A thousand units at 10% for a year, at once and in twelve parts. -/
example : accrueSimple 1000000000 1000 SECONDS_PER_YEAR = .ok 100000000 ∧
    accrueCompound 1000000000 1000 12 (SECONDS_PER_YEAR / 12) = .ok 104713060 := by decide +kernel

end ApyMath

end CallStake
