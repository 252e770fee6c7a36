import CallStake.Lib.Best
import CallStake.Lib.Machine
import CallStake.Lib.Tx
import Mathlib.Algebra.Order.Field.Basic
import Mathlib.Data.Rat.Cast.Order

/-!
# Quotes of liquidity sources (`common::amm_bridge`)

What a source offers, and the ranking of the quotes by their effective price.

* `quoteConstantProduct`, `quoteFromPoolReserves`: the quote of a pool. Plain arithmetic traps on overflow.
* `rank_sorted_iff`: the ranking permutes the quotes, and sorts exactly the lists with `LastIsBest`.
-/

namespace CallStake.AmmBridge

def BPS_DENOMINATOR : Int := 10000

/-- The errors of quotes and plans. -/
inductive AmmBridgeError where
  | invalidAmount
  | noLiquidity
  | slippageExceeded
  | sourceUnavailable
  | routeNotFound
  | executionFailed
  deriving DecidableEq

/-- The kinds of venues. -/
inductive AmmSourceKind where
  | sdexRouter
  | stellarAmm
  | bridgePool
  | pathPayment
  deriving DecidableEq

/-- What a source offers. -/
structure AmmQuote where
  kind : AmmSourceKind
  sourceId : Nat
  availableIn : Int
  spotPrice : Int
  feeBps : Nat
  maxSlippageBps : Nat
  expectedOut : Int
  deriving DecidableEq

abbrev R := Except (Fault AmmBridgeError)

/-- A plain operation on `i128`, which traps on overflow. -/
def plain (x : Int) : R Int := fits .panic x

theorem plain_ok {x y : Int} : plain x = .ok y ↔ InRange x ∧ x = y := fits_ok

/-! ## Quotes of pools -/

/-- The output before it is divided, and what it is divided by; nothing if one of them overflows. -/
def constantProduct (amountIn reserveIn reserveOut : Int) (feeBps : Nat) : Option (Int × Int) := do
  let scaled ← checkedMul amountIn (BPS_DENOMINATOR - feeBps)
  let amountAfterFee := scaled.tdiv BPS_DENOMINATOR
  let numerator ← checkedMul amountAfterFee reserveOut
  let denominator ← checkedAdd reserveIn amountAfterFee
  return (numerator, denominator)

/-- `None` if an amount or a reserve is not positive, or a product too large. -/
def quoteConstantProduct (amountIn reserveIn reserveOut : Int) (feeBps : Nat) : R (Option Int) :=
  if amountIn ≤ 0 ∨ reserveIn ≤ 0 ∨ reserveOut ≤ 0 then .ok none
  else
    match constantProduct amountIn reserveIn reserveOut feeBps with
    | none => .ok none
    | some (numerator, denominator) =>
      if denominator = 0 then .ok none
      else do return some (← plain (numerator.tdiv denominator))

def quoteFromPoolReserves (kind : AmmSourceKind) (sourceId : Nat) (amountIn reserveIn reserveOut : Int)
    (feeBps maxSlippageBps : Nat) : R AmmQuote := do
  let quoted ← quoteConstantProduct amountIn reserveIn reserveOut feeBps
  match quoted with
  | none => .error (.err .invalidAmount)
  | some expectedOut => do
    let scaled ← plain (expectedOut * BPS_DENOMINATOR)
    let spotPrice := if 0 < amountIn then scaled.tdiv amountIn else 0
    return ⟨kind, sourceId, reserveIn, spotPrice, feeBps, maxSlippageBps, expectedOut⟩

/-! ## Ranking -/

/-- The test of the inner loop: the output for each unit of `x` is higher than that of `q`. -/
def isBetter (x q : AmmQuote) : R Bool := do
  let left ← plain (x.expectedOut * max q.availableIn 1)
  let right ← plain (q.expectedOut * max x.availableIn 1)
  return decide (right < left)

/-- The inner loop: the last of the later quotes that is better than `q` changes places with it. -/
def exchangeBest (q : AmmQuote) : List AmmQuote → R (Option (AmmQuote × List AmmQuote))
  | [] => .ok none
  | x :: later => do
    let better ← isBetter x q
    let last ← exchangeBest q later
    match last with
    | some (best, later') => return some (best, x :: later')
    | none => return if better then some (x, q :: later) else none

/-- The outer loop, from the position where `n` quotes are left. -/
def rankFrom : Nat → List AmmQuote → R (List AmmQuote)
  | n + 1, q :: later => do
    let last ← exchangeBest q later
    match last with
    | some (best, later') => return best :: (← rankFrom n later')
    | none => return q :: (← rankFrom n later)
  | _, ranked => .ok ranked

/-- A selection sort whose test compares with the first element and not with the best one so far. -/
def rankQuotesByPrice (quotes : List AmmQuote) : R (List AmmQuote) := rankFrom quotes.length quotes

/-- What a unit of input gives. -/
def AmmQuote.effectivePrice (q : AmmQuote) : ℚ := q.expectedOut / (max q.availableIn 1 : Int)

section Ranking

variable {x q : AmmQuote} {quotes later ranked : List AmmQuote} {b : Bool}

theorem effectivePrice_lt_iff (x q : AmmQuote) : q.effectivePrice < x.effectivePrice ↔
    q.expectedOut * max x.availableIn 1 < x.expectedOut * max q.availableIn 1 := by
  have hx : (0 : ℚ) < (max x.availableIn 1 : Int) := Int.cast_pos.mpr (by omega)
  have hq : (0 : ℚ) < (max q.availableIn 1 : Int) := Int.cast_pos.mpr (by omega)
  unfold AmmQuote.effectivePrice
  rw [div_lt_div_iff₀ hq hx]
  exact_mod_cast Iff.rfl

theorem isBetter_ok (h : isBetter x q = .ok b) : b = decide (q.effectivePrice < x.effectivePrice) := by
  obtain ⟨left, hleft, h⟩ := except_bind_ok.mp h
  obtain ⟨right, hright, h⟩ := except_bind_ok.mp h
  obtain ⟨-, rfl⟩ := plain_ok.mp hleft
  obtain ⟨-, rfl⟩ := plain_ok.mp hright
  cases h
  exact decide_eq_decide.mpr (effectivePrice_lt_iff x q).symm

/-- The loops are those of the library, with a trap where a product is too large. -/
theorem exchangeBest_ok {r : Option (AmmQuote × List AmmQuote)} (h : exchangeBest q later = .ok r) :
    r = exchangeLast AmmQuote.effectivePrice q later := by
  induction later generalizing r with
  | nil =>
    cases h
    rfl
  | cons x later ih =>
    obtain ⟨better, hbetter, h⟩ := except_bind_ok.mp h
    obtain ⟨last, hlast, h⟩ := except_bind_ok.mp h
    rw [exchangeLast, ← ih hlast]
    rcases last with _ | ⟨best, later'⟩
    · cases h
      rw [isBetter_ok hbetter]
      simp
    · cases h
      rfl

theorem rankFrom_ok (n : Nat) (h : rankFrom n quotes = .ok ranked) :
    ranked = exchangeRounds AmmQuote.effectivePrice n quotes := by
  induction n generalizing quotes ranked with
  | zero =>
    cases h
    rfl
  | succ n ih =>
    cases quotes with
    | nil =>
      cases h
      rfl
    | cons q later =>
      obtain ⟨last, hlast, h⟩ := except_bind_ok.mp h
      rw [exchangeRounds, ← exchangeBest_ok hlast]
      rcases last with _ | ⟨best, later'⟩
      · obtain ⟨rest, hrest, h⟩ := except_bind_ok.mp h
        cases h
        rw [ih hrest]
      · obtain ⟨rest, hrest, h⟩ := except_bind_ok.mp h
        cases h
        rw [ih hrest]

/-- No product of the comparisons is too large. -/
def ProductsFit (quotes : List AmmQuote) : Prop :=
  ∀ x ∈ quotes, ∀ q ∈ quotes, InRange (x.expectedOut * max q.availableIn 1)
  deriving Decidable

theorem isBetter_fits (h : ProductsFit quotes) (hx : x ∈ quotes) (hq : q ∈ quotes) : ∃ b, isBetter x q = .ok b :=
  ⟨_, except_bind_ok.mpr ⟨_, plain_ok.mpr ⟨h x hx q hq, rfl⟩,
    except_bind_ok.mpr ⟨_, plain_ok.mpr ⟨h q hq x hx, rfl⟩, rfl⟩⟩⟩

theorem exchangeBest_fits (h : ProductsFit quotes) (hq : q ∈ quotes) (hlater : ∀ x ∈ later, x ∈ quotes) :
    exchangeBest q later = .ok (exchangeLast AmmQuote.effectivePrice q later) := by
  have hreturns : ∃ r, exchangeBest q later = .ok r := by
    induction later with
    | nil => exact ⟨none, rfl⟩
    | cons x later ih =>
      obtain ⟨better, hbetter⟩ := isBetter_fits h (hlater x List.mem_cons_self) hq
      obtain ⟨last, hlast⟩ := ih fun y hy => hlater y (List.mem_cons_of_mem x hy)
      rcases last with _ | ⟨best, later'⟩
      · exact ⟨_, except_bind_ok.mpr ⟨_, hbetter, except_bind_ok.mpr ⟨_, hlast, rfl⟩⟩⟩
      · exact ⟨_, except_bind_ok.mpr ⟨_, hbetter, except_bind_ok.mpr ⟨_, hlast, rfl⟩⟩⟩
  obtain ⟨r, hr⟩ := hreturns
  rw [hr, ← exchangeBest_ok hr]

theorem rankFrom_fits (h : ProductsFit quotes) (n : Nat) {later : List AmmQuote} (hlater : ∀ x ∈ later, x ∈ quotes) :
    ∃ ranked, rankFrom n later = .ok ranked := by
  induction n generalizing later with
  | zero => exact ⟨later, rfl⟩
  | succ n ih =>
    cases later with
    | nil => exact ⟨[], rfl⟩
    | cons q later =>
      have hbest := exchangeBest_fits h (hlater q List.mem_cons_self)
        fun y hy => hlater y (List.mem_cons_of_mem q hy)
      rcases hlast : exchangeLast AmmQuote.effectivePrice q later with _ | ⟨best, later'⟩
      · rw [hlast] at hbest
        obtain ⟨rest, hrest⟩ := ih fun y hy => hlater y (List.mem_cons_of_mem q hy)
        exact ⟨_, except_bind_ok.mpr ⟨_, hbest, except_bind_ok.mpr ⟨_, hrest, rfl⟩⟩⟩
      · rw [hlast] at hbest
        have hperm := exchangeLast_perm hlast
        obtain ⟨rest, hrest⟩ := ih fun y hy =>
          hlater y (hperm.mem_iff.mp (List.mem_cons_of_mem best hy))
        exact ⟨_, except_bind_ok.mpr ⟨_, hbest, except_bind_ok.mpr ⟨_, hrest, rfl⟩⟩⟩

/-- The ranking returns a permutation of the quotes, which is sorted exactly if in every round the last quote that
is better than the first one is a best one. -/
theorem rank_sorted_iff (h : ProductsFit quotes) : ∃ ranked, rankQuotesByPrice quotes = .ok ranked ∧
    ranked.Perm quotes ∧ (ranked.Pairwise (fun a b => b.effectivePrice ≤ a.effectivePrice) ↔
      LastIsBest AmmQuote.effectivePrice quotes) := by
  have hall : ∀ x ∈ quotes, x ∈ quotes := fun _ hx => hx
  obtain ⟨ranked, hranked⟩ := rankFrom_fits h quotes.length hall
  obtain rfl := rankFrom_ok quotes.length hranked
  exact ⟨_, hranked, exchangeSort_perm quotes, exchangeSort_sorted_iff⟩

end Ranking

namespace Sample

/-- A quote of one unit of input for `out`. -/
def quoted (out : Int) : AmmQuote := ⟨.bridgePool, 0, 1, 0, 0, 0, out⟩

/-- The third quote is better than the first one, but the second one is the best. -/
theorem ranking_not_sorted : ¬ ∀ quotes, ProductsFit quotes → ∃ ranked, rankQuotesByPrice quotes = .ok ranked ∧
    ranked.Perm quotes ∧ ranked.Pairwise (fun a b => b.effectivePrice ≤ a.effectivePrice) := by
  intro h
  obtain ⟨ranked, hranked, -, hsorted⟩ := h [quoted 1, quoted 3, quoted 2] (by decide)
  have hresult : rankQuotesByPrice [quoted 1, quoted 3, quoted 2] = .ok [quoted 2, quoted 3, quoted 1] := rfl
  rw [hresult] at hranked
  cases hranked
  have hle := (List.pairwise_cons.mp hsorted).1 (quoted 3) (by decide)
  exact absurd hle (by decide +kernel)

/-- A list whose last better quote is the best one. -/
theorem ranking_sorted : ∃ ranked, rankQuotesByPrice [quoted 1, quoted 2, quoted 3] = .ok ranked ∧
    ranked.Perm [quoted 1, quoted 2, quoted 3] ∧
    (ranked.Pairwise (fun a b => b.effectivePrice ≤ a.effectivePrice) ↔
      LastIsBest AmmQuote.effectivePrice [quoted 1, quoted 2, quoted 3]) := rank_sorted_iff (by decide)

end Sample

end CallStake.AmmBridge
