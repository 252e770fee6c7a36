import Mathlib.Algebra.Order.BigOperators.Group.List
import Mathlib.Tactic.Ring

/-!
# Machine integers

A signed 128-bit value is an `Int`, an unsigned 64-bit or 32-bit value a `Nat`; the operations that
can leave the range of the type are explicit.

* `checkedAdd`/`checkedSub`/`checkedMul`: `none` when the exact result does not fit (`checked`).
* `saturatingAdd`/`saturatingSub`: the exact result clamped into the range (`clamp`).
* `foldl_saturating`: a saturating sum of values from `0` on.
* `u64Add`/`u32Add`: saturating addition of unsigned values. Saturating subtraction of unsigned
  values is the truncated subtraction of `Nat`.
* Division of signed values is `Int.tdiv`, which rounds towards zero.
* `clamp_le_clamp`: amounts from `0` on that saturate keep their order, except that everything from the largest
  value on is equal. `clamp_add`, `clamp_mul`: sums and products can saturate on the way.
* `fits`: a value, or an error if it leaves the range of 128 bits. `except_bind_ok`, `except_bind_error`: how a
  computation in two steps ends. `mapError_ok`, `mapError_error`: how one ends whose error is translated.
-/

namespace CallStake

open List

/-- The largest `i128`. -/
def i128Max : Int := 170141183460469231731687303715884105727
/-- The least `i128`. -/
def i128Min : Int := -170141183460469231731687303715884105728
/-- The largest `u64`. -/
def u64Max : Nat := 18446744073709551615
/-- The largest `u32`. -/
def u32Max : Nat := 4294967295

/-- The type bounds are the ones of 128, 64 and 32 bits. -/
example : i128Max = 2 ^ 127 - 1 ∧ i128Min = -2 ^ 127 ∧ u64Max = 2 ^ 64 - 1 ∧ u32Max = 2 ^ 32 - 1 := by
  decide

/-- `x` fits in 128 bits. -/
def InRange (x : Int) : Prop := i128Min ≤ x ∧ x ≤ i128Max
  deriving Decidable

/-- `x` if it fits in 128 bits. -/
def checked (x : Int) : Option Int := if i128Min ≤ x ∧ x ≤ i128Max then some x else none

/-- `x` moved to the nearest value of 128 bits. -/
def clamp (x : Int) : Int := max i128Min (min i128Max x)

/-- `i128::checked_add`. -/
def checkedAdd (a b : Int) : Option Int := checked (a + b)
/-- `i128::checked_sub`. -/
def checkedSub (a b : Int) : Option Int := checked (a - b)
/-- `i128::checked_mul`. -/
def checkedMul (a b : Int) : Option Int := checked (a * b)
/-- `i128::saturating_add`. -/
def saturatingAdd (a b : Int) : Int := clamp (a + b)
/-- `i128::saturating_sub`. -/
def saturatingSub (a b : Int) : Int := clamp (a - b)

/-- `u64::saturating_add`. -/
def u64Add (a b : Nat) : Nat := min (a + b) u64Max
/-- `u32::saturating_add`. -/
def u32Add (a b : Nat) : Nat := min (a + b) u32Max

theorem checked_eq_some {x y : Int} : checked x = some y ↔ i128Min ≤ x ∧ x ≤ i128Max ∧ x = y := by
  unfold checked
  split
  · rename_i h; simp [h]
  · rename_i h
    simp only [reduceCtorEq, false_iff]
    rintro ⟨h1, h2, -⟩
    exact h ⟨h1, h2⟩

@[simp] theorem checkedAdd_eq_some {a b c : Int} :
    checkedAdd a b = some c ↔ i128Min ≤ a + b ∧ a + b ≤ i128Max ∧ a + b = c := checked_eq_some

@[simp] theorem checkedSub_eq_some {a b c : Int} :
    checkedSub a b = some c ↔ i128Min ≤ a - b ∧ a - b ≤ i128Max ∧ a - b = c := checked_eq_some

@[simp] theorem checkedMul_eq_some {a b c : Int} :
    checkedMul a b = some c ↔ i128Min ≤ a * b ∧ a * b ≤ i128Max ∧ a * b = c := checked_eq_some

/-- A sum in range is exact, whatever the default is. -/
theorem checkedAdd_getD {a b : Int} (h1 : i128Min ≤ a + b) (h2 : a + b ≤ i128Max) (d : Int) :
    (checkedAdd a b).getD d = a + b := by
  rw [checkedAdd, checked, if_pos ⟨h1, h2⟩, Option.getD_some]

/-- A value in range is not moved. -/
theorem clamp_eq {x : Int} (h1 : i128Min ≤ x) (h2 : x ≤ i128Max) : clamp x = x := by
  unfold clamp; omega

theorem clamp_le (x : Int) : clamp x ≤ i128Max := by
  unfold clamp i128Min i128Max; omega

/-- A value from `0` on is in range as soon as it is at most the largest one. -/
theorem inRange_of_nonneg {x : Int} (h0 : 0 ≤ x) : InRange x ↔ x ≤ i128Max := by
  unfold InRange i128Min; omega

theorem saturatingAdd_eq {a b : Int} (h1 : i128Min ≤ a + b) (h2 : a + b ≤ i128Max) :
    saturatingAdd a b = a + b := clamp_eq h1 h2

theorem saturatingSub_eq {a b : Int} (h1 : i128Min ≤ a - b) (h2 : a - b ≤ i128Max) :
    saturatingSub a b = a - b := clamp_eq h1 h2

/-- Taking a part `b` of a value `a` in range does not saturate. -/
theorem saturatingSub_part {a b : Int} (h0 : 0 ≤ b) (hb : b ≤ a) (ha : a ≤ i128Max) :
    saturatingSub a b = a - b :=
  saturatingSub_eq (by unfold i128Min; omega) (by omega)

/-- Adding two parts of a value in range does not saturate. -/
theorem saturatingAdd_part {a b : Int} (ha : 0 ≤ a) (hb : 0 ≤ b) (h : a + b ≤ i128Max) :
    saturatingAdd a b = a + b :=
  saturatingAdd_eq (by unfold i128Min; omega) h

/-- A saturating sum of values from `0` on is at most the exact one. -/
theorem saturatingAdd_bounds {a b : Int} (ha : 0 ≤ a) (hb : 0 ≤ b) :
    0 ≤ saturatingAdd a b ∧ saturatingAdd a b ≤ a + b := by
  unfold saturatingAdd clamp i128Min i128Max
  omega

theorem saturatingAdd_zero {a : Int} (ha : 0 ≤ a) (hmax : a ≤ i128Max) : saturatingAdd a 0 = a := by
  unfold saturatingAdd clamp i128Min
  omega

/-- Adding up values from `0` on saturates at the top, and only there. -/
theorem foldl_saturating {α : Type} {step : Int → α → Int} {f : α → Int} {l : List α} {a : Int}
    (hstep : ∀ a x, 0 ≤ a → a ≤ i128Max → step a x = saturatingAdd a (f x)) (ha : 0 ≤ a)
    (hmax : a ≤ i128Max) (hl : ∀ x ∈ l, 0 ≤ f x) :
    l.foldl step a = min i128Max (a + (l.map f).sum) := by
  induction l generalizing a with
  | nil => simp; omega
  | cons x l ih =>
    have hx := hl x (mem_cons_self ..)
    have hrest : 0 ≤ (l.map f).sum := by
      refine sum_nonneg fun y hy => ?_
      obtain ⟨z, hz, rfl⟩ := List.mem_map.mp hy
      exact hl z (mem_cons_of_mem _ hz)
    have hsum : step a x = min i128Max (a + f x) := by
      rw [hstep a x ha hmax]
      unfold saturatingAdd clamp i128Min
      omega
    have h0 : (0 : Int) ≤ i128Max := by decide
    rw [foldl_cons, hsum, ih (by omega) (by omega) fun y hy => hl y (mem_cons_of_mem _ hy), map_cons, sum_cons]
    omega

/-- Below the top, the saturating increment is the exact one. -/
theorem u64Add_one {n : Nat} (h : n < u64Max) : u64Add n 1 = n + 1 := by
  unfold u64Add; omega

/-- The saturating increment steps up, or is at the top. -/
theorem u64Add_one_cases (n : Nat) : n < u64Add n 1 ∨ u64Add n 1 = u64Max := by
  by_cases h : n < u64Max
  · exact .inl (by rw [u64Add_one h]; exact Nat.lt_succ_self n)
  · exact .inr (Nat.min_eq_right (Nat.le_succ_of_le (Nat.not_lt.mp h)))

theorem u64Add_add (n a b : Nat) : u64Add (u64Add n a) b = u64Add n (a + b) := by
  unfold u64Add; omega

theorem u32Add_add (n a b : Nat) : u32Add (u32Add n a) b = u32Add n (a + b) := by
  unfold u32Add; omega

theorem u64Add_max (n : Nat) : u64Add u64Max n = u64Max := Nat.min_eq_right (Nat.le_add_right _ _)

theorem le_u64Add_one {n : Nat} (h : n ≤ u64Max) : n ≤ u64Add n 1 := by
  unfold u64Add; omega

theorem u64Add_le (a b : Nat) : u64Add a b ≤ u64Max := Nat.min_le_right _ _

/-! ## Quotients -/

/-- Rounding towards zero keeps a quotient between the integers that it is between. -/
theorem tdiv_between {lo hi x n : Int} (hn : 0 < n) (hlo : lo * n ≤ x) (hhi : x ≤ hi * n) :
    lo ≤ x.tdiv n ∧ x.tdiv n ≤ hi := by
  by_cases hx : 0 ≤ x
  · rw [Int.tdiv_eq_ediv_of_nonneg hx]
    exact ⟨Int.le_ediv_of_mul_le hn hlo, Int.ediv_le_of_le_mul hn hhi⟩
  · have hneg : x.tdiv n = -(-x / n) := by
      rw [← Int.tdiv_eq_ediv_of_nonneg (by omega), Int.neg_tdiv, Int.neg_neg]
    have h1 : -x / n ≤ -lo := Int.ediv_le_of_le_mul hn (by rw [Int.neg_mul]; omega)
    have h2 : -hi ≤ -x / n := Int.le_ediv_of_mul_le hn (by rw [Int.neg_mul]; omega)
    omega

/-- A weighted mean is between the two values. -/
theorem mean_between {a b n m : Int} (hn : 0 ≤ n) (hm : 0 < m) :
    min a b ≤ (a * n + b * m).tdiv (n + m) ∧ (a * n + b * m).tdiv (n + m) ≤ max a b := by
  have hlo₁ : min a b * n ≤ a * n := Int.mul_le_mul_of_nonneg_right (Int.min_le_left a b) hn
  have hlo₂ : min a b * m ≤ b * m := Int.mul_le_mul_of_nonneg_right (Int.min_le_right a b) (Int.le_of_lt hm)
  have hhi₁ : a * n ≤ max a b * n := Int.mul_le_mul_of_nonneg_right (Int.le_max_left a b) hn
  have hhi₂ : b * m ≤ max a b * m := Int.mul_le_mul_of_nonneg_right (Int.le_max_right a b) (Int.le_of_lt hm)
  refine tdiv_between (by omega) ?_ ?_
  · rw [Int.mul_add]
    omega
  · rw [Int.mul_add]
    omega

/-! ## Comparisons of saturated amounts -/

section Saturation

variable {x y a b c : Int}

theorem clamp_of_nonneg (hx : 0 ≤ x) : clamp x = min i128Max x := by
  unfold clamp i128Min i128Max
  omega

theorem clamp_pos (hx : 0 ≤ x) : 0 < clamp x ↔ 0 < x := by
  rw [clamp_of_nonneg hx]
  unfold i128Max
  omega

/-- The comparison is the exact one, or the larger side is at its bound. -/
theorem clamp_le_clamp (hx : 0 ≤ x) (hy : 0 ≤ y) : clamp x ≤ clamp y ↔ x ≤ y ∨ i128Max ≤ y := by
  rw [clamp_of_nonneg hx, clamp_of_nonneg hy]
  omega

/-- A part of a sum may saturate first. -/
theorem clamp_add (ha : 0 ≤ a) (hb : 0 ≤ b) (hc : 0 ≤ c) : clamp (clamp (a + b) + c) = clamp (a + b + c) := by
  unfold clamp i128Min i128Max
  omega

/-- A factor may saturate first. -/
theorem clamp_mul (hx : 0 ≤ x) (n : Nat) : clamp (clamp x * n) = clamp (x * n) := by
  rcases Nat.eq_zero_or_pos n with rfl | hn
  · simp
  · have h0 : (0 : Int) ≤ i128Max := by decide
    have hle : i128Max ≤ i128Max * (n : Int) := by
      have := Int.mul_le_mul_of_nonneg_left (show (1 : Int) ≤ n by omega) h0
      omega
    by_cases hmax : x ≤ i128Max
    · rw [clamp_eq (by unfold i128Min; omega) hmax]
    · have hxn : i128Max * (n : Int) ≤ x * n :=
        Int.mul_le_mul_of_nonneg_right (by omega) (Int.natCast_nonneg n)
      have hc : clamp x = i128Max := by
        rw [clamp_of_nonneg hx]
        omega
      rw [hc, clamp_of_nonneg (by omega), clamp_of_nonneg (by omega)]
      omega

end Saturation

/-! ## Results of pure computations -/

section Results

variable {ε ε' α β : Type} {x : Except ε α} {f : α → Except ε β} {y : β} {e : ε}

theorem except_bind_ok : (x >>= f) = .ok y ↔ ∃ a, x = .ok a ∧ f a = .ok y := by
  cases x <;> simp [bind, Except.bind]

@[simp] theorem except_ok_bind {a : α} : ((.ok a : Except ε α) >>= f) = f a := rfl

theorem except_bind_error : (x >>= f) = .error e ↔ x = .error e ∨ ∃ a, x = .ok a ∧ f a = .error e := by
  cases x <;> simp [bind, Except.bind]

theorem mapError_ok {g : ε → ε'} {a : α} : x.mapError g = .ok a ↔ x = .ok a := by
  cases x <;> simp [Except.mapError]

theorem mapError_error {g : ε → ε'} {e' : ε'} : x.mapError g = .error e' ↔ ∃ e, x = .error e ∧ g e = e' := by
  cases x <;> simp [Except.mapError]

end Results

/-- `x` if it fits in 128 bits, and the error `e` otherwise. -/
def fits {ε : Type} (e : ε) (x : Int) : Except ε Int := if InRange x then .ok x else .error e

section Fits

variable {ε : Type} {e e' : ε} {x y : Int}

@[simp] theorem fits_ok : fits e x = .ok y ↔ InRange x ∧ x = y := by
  unfold fits
  split
  · rename_i h; simp [h]
  · rename_i h; simp [h]

theorem fits_eq (h : InRange x) : fits e x = .ok x := if_pos h

@[simp] theorem fits_error : fits e x = .error e' ↔ ¬ InRange x ∧ e = e' := by
  unfold fits
  split
  · rename_i h; simp [h]
  · rename_i h; simp [h]

end Fits

end CallStake
