import Mathlib.Tactic.Linarith
import Mathlib.Tactic.Ring

/-!
# Proportions and square roots of integers

`(x * n).tdiv d` is the `n`-th part of `d` of `x`, rounded towards zero.

* `proportion_lt`: a proper part of a positive value is smaller than the value. `proportion_le`: a part is at
  most the value.
  `proportion_mul_le`: the part is rounded down. `remainder_le`: so what is left is rounded up.
* `ratio_trans`: ratios compared by their cross products.
* `newton v x`: one step of Newton's method for the root of `v`. `newton_upper`: every step stays above the root
  (rounded down). `sq_le_of_le_newton`: a step that does not go down starts at or below the root.
-/

namespace CallStake

section Proportion

variable {x n d : Int}

theorem proportion_nonneg (hx : 0 ≤ x) (hn : 0 ≤ n) (hd : 0 ≤ d) : 0 ≤ (x * n).tdiv d :=
  Int.tdiv_nonneg (Int.mul_nonneg hx hn) hd

theorem proportion_nonpos (hx : 0 ≤ x) (hn : n ≤ 0) (hd : 0 ≤ d) : (x * n).tdiv d ≤ 0 := by
  have h := proportion_nonneg hx (n := -n) (by omega) hd
  rw [Int.mul_neg, Int.neg_tdiv] at h
  omega

theorem proportion_lt (hx : 0 < x) (hn : 0 ≤ n) (hlt : n < d) : (x * n).tdiv d < x := by
  rw [Int.tdiv_eq_ediv_of_nonneg (Int.mul_nonneg hx.le hn)]
  apply Int.ediv_lt_of_lt_mul (by omega)
  exact Int.mul_lt_mul_of_pos_left hlt hx

theorem proportion_le (hx : 0 ≤ x) (hn : 0 ≤ n) (hle : n ≤ d) (hd : 0 < d) : (x * n).tdiv d ≤ x := by
  rw [Int.tdiv_eq_ediv_of_nonneg (Int.mul_nonneg hx hn)]
  apply Int.ediv_le_of_le_mul hd
  exact Int.mul_le_mul_of_nonneg_left hle hx

theorem proportion_mul_le (hx : 0 ≤ x) (hn : 0 ≤ n) (hd : 0 < d) : (x * n).tdiv d * d ≤ x * n := by
  rw [Int.tdiv_eq_ediv_of_nonneg (Int.mul_nonneg hx hn)]
  exact Int.ediv_mul_le _ hd.ne'

theorem remainder_le (hx : 0 ≤ x) (hn : 0 ≤ n) (hd : 0 < d) : x * (d - n) ≤ (x - (x * n).tdiv d) * d := by
  have h := proportion_mul_le hx hn hd
  rw [Int.mul_sub, Int.sub_mul]
  omega

end Proportion

/-- `a / x ≤ b / y` and `b / y ≤ c / z` give `a / x ≤ c / z`. -/
theorem ratio_trans {a b c x y z : Int} (hab : a * y ≤ b * x) (hbc : b * z ≤ c * y) (hx : 0 ≤ x) (hy : 0 < y)
    (hz : 0 ≤ z) : a * z ≤ c * x := by
  refine Int.le_of_mul_le_mul_right ?_ hy
  calc a * z * y = a * y * z := by ring
    _ ≤ b * x * z := Int.mul_le_mul_of_nonneg_right hab hz
    _ = b * z * x := by ring
    _ ≤ c * y * x := Int.mul_le_mul_of_nonneg_right hbc hx
    _ = c * x * y := by ring

section Newton

/-- `(x + v / x) / 2`. -/
def newton (v x : Int) : Int := (x + v.tdiv x).tdiv 2

variable {v x : Int}

theorem newton_eq (hv : 0 ≤ v) (hx : 0 < x) : newton v x = (x + v / x) / 2 := by
  have h := Int.ediv_nonneg hv hx.le
  rw [newton, Int.tdiv_eq_ediv_of_nonneg hv, Int.tdiv_eq_ediv_of_nonneg (by omega)]

theorem newton_pos (hv : 0 < v) (hx : 0 < x) : 0 < newton v x := by
  rw [newton_eq hv.le hx]
  have h := Int.ediv_nonneg hv.le hx.le
  by_cases h1 : x = 1
  · subst h1
    rw [Int.ediv_one]
    omega
  · omega

/-- The square of the mean of `x` and `v / x` is at least their product. -/
theorem newton_upper (hv : 0 ≤ v) (hx : 0 < x) : v < (newton v x + 1) * (newton v x + 1) := by
  rw [newton_eq hv hx]
  have hquot : v < x * (v / x + 1) := by
    have h1 := Int.emod_add_mul_ediv v x
    have h2 := Int.emod_lt_of_pos v hx
    rw [Int.mul_add, Int.mul_one]
    omega
  have hmean : x + v / x + 1 ≤ 2 * ((x + v / x) / 2 + 1) := by omega
  have hq := Int.ediv_nonneg hv hx.le
  generalize v / x = q at *
  generalize (x + q) / 2 = y at *
  nlinarith [sq_nonneg (x - (q + 1)), mul_self_le_mul_self (by omega : 0 ≤ x + q + 1) hmean]

theorem sq_le_of_le_newton (hv : 0 ≤ v) (hx : 0 < x) (h : x ≤ newton v x) : x * x ≤ v := by
  rw [newton_eq hv hx] at h
  have hle : x ≤ v / x := by omega
  calc x * x ≤ v / x * x := Int.mul_le_mul_of_nonneg_right hle hx.le
    _ ≤ v := Int.ediv_mul_le v hx.ne'

end Newton

end CallStake
