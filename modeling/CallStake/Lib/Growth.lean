import Mathlib.Data.Int.Order.Lemmas
import Mathlib.Tactic.Abel

/-!
# Balances and totals that grow

A balance which grows by `g` of itself in every period; balances and growth are from `0` on.

* `grown g n b`: the balance after `n` periods.
* `grown_le_grown`: it goes up with the number of periods.
* `grown_sub_le`: a start and a growth that are at least as high gain at least as much.
* `nsmul_le_grown_sub`: at least as much is gained as without reinvesting.

A total of which two receivers are each paid up to a share of what was collected so far. What was paid already is
never taken back, so when the total goes down a receiver may have more than its share.

* `Targets f g`: shares that fit in the total together, and of which each grows no faster than the total.
* `Covers f g total paid₁ paid₂`: the total is enough for what was paid and for what is due to each receiver.
* `Covers.collect`, `Covers.first`, `Covers.second`: collecting and paying keep it.
-/

namespace CallStake

/-! ## Growth that is reinvested -/

section Reinvestment

variable {α : Type} [AddCommGroup α]

/-- The balance after some periods. -/
def grown (g : α → α) : Nat → α → α
  | 0, b => b
  | n + 1, b => grown g n (b + g b)

@[simp] theorem grown_zero (g : α → α) (b : α) : grown g 0 b = b := rfl

theorem grown_succ (g : α → α) (n : Nat) (b : α) : grown g (n + 1) b = grown g n (b + g b) := rfl

/-- The gain of the first period, and the gain of the others. -/
theorem grown_succ_sub (g : α → α) (n : Nat) (b : α) :
    grown g (n + 1) b - b = g b + (grown g n (b + g b) - (b + g b)) := by
  rw [grown_succ]
  abel

variable [PartialOrder α] [IsOrderedAddMonoid α] {g g' : α → α} {b b' : α}

theorem le_grown (hg : ∀ b, 0 ≤ b → 0 ≤ g b) (hb : 0 ≤ b) (n : Nat) : b ≤ grown g n b := by
  induction n generalizing b with
  | zero => exact le_refl b
  | succ n ih =>
    have hstep : b ≤ b + g b := le_add_of_nonneg_right (hg b hb)
    exact hstep.trans (ih (hb.trans hstep))

theorem grown_le_grown (hg : ∀ b, 0 ≤ b → 0 ≤ g b) (hb : 0 ≤ b) {n m : Nat} (h : n ≤ m) :
    grown g n b ≤ grown g m b := by
  induction n generalizing b m with
  | zero => exact le_grown hg hb m
  | succ n ih =>
    obtain ⟨m, rfl⟩ : ∃ k, m = k + 1 := ⟨m - 1, by omega⟩
    exact ih (hb.trans (le_add_of_nonneg_right (hg b hb))) (by omega)

theorem grown_sub_le (hg : ∀ b, 0 ≤ b → 0 ≤ g b) (hle : ∀ b b', 0 ≤ b → b ≤ b' → g b ≤ g' b')
    (hb : 0 ≤ b) (h : b ≤ b') (n : Nat) : grown g n b - b ≤ grown g' n b' - b' := by
  induction n generalizing b b' with
  | zero => simp
  | succ n ih =>
    have hgrowth : g b ≤ g' b' := hle b b' hb h
    rw [grown_succ_sub, grown_succ_sub]
    exact add_le_add hgrowth (ih (add_nonneg hb (hg b hb)) (add_le_add h hgrowth))

theorem nsmul_le_grown_sub (hg : ∀ b, 0 ≤ b → 0 ≤ g b) (hmono : ∀ b b', 0 ≤ b → b ≤ b' → g b ≤ g b')
    (hb : 0 ≤ b) (n : Nat) : n • g b ≤ grown g n b - b := by
  induction n generalizing b with
  | zero => simp
  | succ n ih =>
    have hstep : b ≤ b + g b := le_add_of_nonneg_right (hg b hb)
    have hlater : n • g b ≤ n • g (b + g b) := nsmul_le_nsmul_right (hmono b _ hb hstep) n
    rw [grown_succ_sub, succ_nsmul, add_comm]
    exact add_le_add_right (hlater.trans (ih (hb.trans hstep))) (g b)

end Reinvestment

/-! ## Shares of a total -/

structure Targets (f g : Int → Int) : Prop where
  first_nonneg (x : Int) (hx : 0 ≤ x) : 0 ≤ f x
  second_nonneg (x : Int) (hx : 0 ≤ x) : 0 ≤ g x
  sum_le (x : Int) (hx : 0 ≤ x) : f x + g x ≤ x
  first_step (x y : Int) (hx : 0 ≤ x) (h : x ≤ y) : f y - f x ≤ y - x
  second_step (x y : Int) (hx : 0 ≤ x) (h : x ≤ y) : g y - g x ≤ y - x

def Covers (f g : Int → Int) (total paid₁ paid₂ : Int) : Prop := max paid₁ (f total) + max paid₂ (g total) ≤ total

section CatchUp

variable {f g : Int → Int} {total paid₁ paid₂ : Int}

theorem Covers.le (h : Covers f g total paid₁ paid₂) : paid₁ + paid₂ ≤ total := by
  unfold Covers at h
  omega

theorem Targets.covers_zero (ht : Targets f g) : Covers f g 0 0 0 := by
  have h1 := ht.first_nonneg 0 (Int.le_refl 0)
  have h2 := ht.second_nonneg 0 (Int.le_refl 0)
  have h := ht.sum_le 0 (Int.le_refl 0)
  unfold Covers
  omega

/-- Either both receivers are due something, or one that is not due leaves room for the other. -/
theorem Covers.collect (h : Covers f g total paid₁ paid₂) (ht : Targets f g) (h0 : 0 ≤ total) {fee : Int}
    (hfee : 0 ≤ fee) : Covers f g (total + fee) paid₁ paid₂ := by
  have hsum := ht.sum_le (total + fee) (by omega)
  have h1 := ht.first_step total (total + fee) h0 (by omega)
  have h2 := ht.second_step total (total + fee) h0 (by omega)
  unfold Covers at h ⊢
  omega

theorem Covers.first (h : Covers f g total paid₁ paid₂) : Covers f g total (max paid₁ (f total)) paid₂ := by
  unfold Covers at h ⊢
  omega

theorem Covers.second (h : Covers f g total paid₁ paid₂) : Covers f g total paid₁ (max paid₂ (g total)) := by
  unfold Covers at h ⊢
  omega

end CatchUp

/-- The part of `x` in ten thousandths, rounded towards zero. -/
def tenThousandths (n : Nat) (x : Int) : Int := (x * n).tdiv 10000

theorem targets_tenThousandths {n m : Nat} (h : n + m ≤ 10000) :
    Targets (tenThousandths n) (tenThousandths m) := by
  have hnonneg (k : Nat) (x : Int) (hx : 0 ≤ x) : 0 ≤ x * k := Int.mul_nonneg hx (Int.natCast_nonneg k)
  have hdiv (k : Nat) (x : Int) (hx : 0 ≤ x) : tenThousandths k x = x * k / 10000 :=
    Int.tdiv_eq_ediv_of_nonneg (hnonneg k x hx)
  have hstep (k : Nat) (hk : k ≤ 10000) (x y : Int) (hx : 0 ≤ x) (hxy : x ≤ y) :
      tenThousandths k y - tenThousandths k x ≤ y - x := by
    have hmul : (y - x) * k ≤ (y - x) * 10000 := Int.mul_le_mul_of_nonneg_left (by omega) (by omega)
    rw [hdiv k x hx, hdiv k y (hx.trans hxy)]
    rw [Int.sub_mul] at hmul
    omega
  refine ⟨fun x hx => ?_, fun x hx => ?_, fun x hx => ?_, hstep n (by omega), hstep m (by omega)⟩
  · exact Int.tdiv_nonneg (hnonneg n x hx) (by decide)
  · exact Int.tdiv_nonneg (hnonneg m x hx) (by decide)
  · have hmul : x * (n + m) ≤ x * 10000 := Int.mul_le_mul_of_nonneg_left (by omega) hx
    rw [hdiv n x hx, hdiv m x hx]
    rw [Int.mul_add] at hmul
    omega

end CallStake
