import CallStake.Common.AmmQuotes

/-!
# Routes over several sources (`common::amm_bridge`)

An amount is split over the sources: in every round the segment that costs least is taken, until nothing remains.
The cost of a segment is its notional, which is its output, plus the fee; so a lower price is a lower cost.

* `considerQuote`: the segment that a quote can take of what remains, and its cost. `planRound`: the first one of
  least cost. `planMultiSourceRoute`: the whole plan. Plain arithmetic traps on overflow.
* `RouteLoop`: the loop of the source, without a bound. `routeLoop_allocate`: every round uses up what remains or a
  source, so the loop ends.
* `Route`: the quotes that are chosen. `Route.allocates`: what they are allocated.
* `CheapestIsBest`, `CheapestPays`: conditions on the quotes alone, by recursion on what their sources have left.
* `cheapestIsBest_iff_head`: of quotes that all could take everything for the same fee, the first one must have the
  highest price and all must cost the same.
* `plan_iff`: when the plan takes the best prices and keeps the tolerance.
-/

namespace CallStake.AmmBridge

open List

/-- A part of a route, through one source. -/
structure AmmRouteSegment where
  kind : AmmSourceKind
  sourceId : Nat
  amountIn : Int
  minAmountOut : Int
  executionPrice : Int
  feeAmount : Int
  estimatedSlippageBps : Nat
  deriving DecidableEq

/-- All segments, with their totals. -/
structure AmmRoutePlan where
  amountIn : Int
  amountOut : Int
  averagePrice : Int
  totalFees : Int
  estimatedSlippageBps : Nat
  segments : List AmmRouteSegment
  deriving DecidableEq

/-! ## One segment -/

/-- `x as u32`. -/
def asU32 (x : Int) : Nat := (x % 4294967296).toNat

/-- `min_amount_out_with_slippage`: the output less the tolerance. -/
def minAmountOutWithSlippage (expectedOut : Int) (maxSlippageBps : Nat) : Option Int :=
  if expectedOut ≤ 0 then none
  else if 10000 ≤ maxSlippageBps then some 0
  else (checkedMul expectedOut (10000 - maxSlippageBps : Nat)).map (·.tdiv BPS_DENOMINATOR)

/-- `estimate_impact_slippage_bps`: the cap, times the share of the liquidity. -/
def estimateImpactSlippageBps (amount liquidity : Int) (capBps : Nat) : R Nat :=
  if liquidity ≤ 0 ∨ amount ≤ 0 then .ok u32Max
  else do
    let scaled ← plain (amount * capBps)
    let raised ← plain (scaled + liquidity)
    let raised ← plain (raised - 1)
    return asU32 (raised.tdiv liquidity)

/-- Rounded up. -/
def applyBps (value : Int) (bps : Nat) : R Int := do
  let scaled ← plain (value * bps)
  let raised ← plain (scaled + (BPS_DENOMINATOR - 1))
  return raised.tdiv BPS_DENOMINATOR

/-- The sum of what the segments take from a source. -/
def allocatedFor (segments : List AmmRouteSegment) (kind : AmmSourceKind) (sourceId : Nat) : R Int :=
  segments.foldlM (fun sum seg =>
    if seg.kind = kind ∧ seg.sourceId = sourceId then plain (sum + seg.amountIn) else .ok sum) 0

/-- The segment of `alloc` from a source, and its cost. -/
def priceSegment (alloc : Int) (maxSlippageBps impact : Nat) (quote : AmmQuote) :
    R (AmmRouteSegment × Int) := do
  let scaled ← plain (alloc * quote.spotPrice)
  let out := scaled.tdiv BPS_DENOMINATOR
  let scaled ← plain (out * BPS_DENOMINATOR)
  let price := if 0 < alloc then scaled.tdiv alloc else quote.spotPrice
  let scaled ← plain (alloc * price)
  let notional := scaled.tdiv BPS_DENOMINATOR
  let fee ← applyBps notional quote.feeBps
  let minOut := (minAmountOutWithSlippage out maxSlippageBps).getD 0
  let cost ← plain (notional + fee)
  return (⟨quote.kind, quote.sourceId, alloc, minOut, price, fee, impact⟩, cost)

/-- Unless the impact is too high. -/
def tryAllocation (alloc : Int) (maxSlippageBps : Nat) (quote : AmmQuote) :
    R (Option (AmmRouteSegment × Int)) := do
  let impact ← estimateImpactSlippageBps alloc quote.availableIn quote.maxSlippageBps
  if maxSlippageBps < impact then return none
  else return some (← priceSegment alloc maxSlippageBps impact quote)

/-- What the source can take, with what it has been allocated already. -/
def considerQuote (remaining : Int) (maxSlippageBps : Nat) (segments : List AmmRouteSegment) (quote : AmmQuote) :
    R (Option (AmmRouteSegment × Int)) := do
  let already ← allocatedFor segments quote.kind quote.sourceId
  let avail ← plain (quote.availableIn - already)
  if min remaining avail ≤ 0 then return none else tryAllocation (min remaining avail) maxSlippageBps quote

/-! ## The plan -/

/-- The candidate is kept if it is the first one or costs less. -/
def keepCheaper (best candidate : Option (AmmRouteSegment × Int)) : Option (AmmRouteSegment × Int) :=
  match candidate with
  | none => best
  | some new =>
    match best with
    | none => some new
    | some old => if old.2 ≤ new.2 then some old else some new

/-- `for quote in quotes.iter() { .. }`. -/
def cheapest (remaining : Int) (maxSlippageBps : Nat) (segments : List AmmRouteSegment) :
    Option (AmmRouteSegment × Int) → List AmmQuote → R (Option (AmmRouteSegment × Int))
  | best, [] => .ok best
  | best, quote :: quotes => do
    let candidate ← considerQuote remaining maxSlippageBps segments quote
    cheapest remaining maxSlippageBps segments (keepCheaper best candidate) quotes

/-- One round: the segment of least cost is taken. -/
def planRound (quotes : List AmmQuote) (maxSlippageBps : Nat) (remaining : Int) (segments : List AmmRouteSegment) :
    R AmmRouteSegment := do
  let best ← cheapest remaining maxSlippageBps segments none quotes
  match best with
  | none => .error (.err .noLiquidity)
  | some (segment, _) => return segment

/-- `while remaining > 0 { .. }`, for at most as many rounds as there is fuel. -/
def allocate (quotes : List AmmQuote) (maxSlippageBps : Nat) : Nat → Int → List AmmRouteSegment →
    R (List AmmRouteSegment)
  | 0, remaining, segments => if remaining ≤ 0 then .ok segments else .error .panic
  | fuel + 1, remaining, segments =>
    if remaining ≤ 0 then .ok segments
    else do
      let segment ← planRound quotes maxSlippageBps remaining segments
      allocate quotes maxSlippageBps fuel (remaining - segment.amountIn) (segments ++ [segment])

/-- The totals of the segments. -/
def addTotals (totals : Int × Int × Int) (seg : AmmRouteSegment) : R (Int × Int × Int) := do
  let totalIn ← plain (totals.1 + seg.amountIn)
  let totalOut ← plain (totals.2.1 + seg.minAmountOut)
  let totalFees ← plain (totals.2.2 + seg.feeAmount)
  return (totalIn, totalOut, totalFees)

/-- The price of the whole plan. -/
def averagePriceOf (totalIn totalOut : Int) : R Int :=
  if 0 < totalIn then do
    let scaled ← plain (totalOut * BPS_DENOMINATOR)
    return scaled.tdiv totalIn
  else .ok 0

/-- How far the average is above the reference price. -/
def routeSlippage (averagePrice referencePrice : Int) : R Nat :=
  if referencePrice ≤ 0 ∨ averagePrice ≤ referencePrice then .ok 0
  else do
    let diff ← plain (averagePrice - referencePrice)
    let scaled ← plain (diff * BPS_DENOMINATOR)
    return asU32 (scaled.tdiv referencePrice)

/-- `finalize_route_plan`: the totals, and the check of the tolerance. -/
def finalizeRoutePlan (segments : List AmmRouteSegment) (amountIn referencePrice : Int) (maxSlippageBps : Nat) :
    R AmmRoutePlan := do
  let totals ← segments.foldlM addTotals (0, 0, 0)
  if totals.1 ≠ amountIn then .error (.err .noLiquidity)
  else do
    let averagePrice ← averagePriceOf totals.1 totals.2.1
    let slippage ← routeSlippage averagePrice referencePrice
    if maxSlippageBps < slippage then .error (.err .slippageExceeded)
    else return ⟨totals.1, totals.2.1, averagePrice, totals.2.2, slippage, segments⟩

/-- A round uses up what remains or a source, so this is fuel enough (`routeLoop_allocate`). -/
def planMultiSourceRoute (quotes : List AmmQuote) (amountIn referencePrice : Int) (maxSlippageBps : Nat) :
    R AmmRoutePlan :=
  if amountIn ≤ 0 then .error (.err .invalidAmount)
  else if quotes = [] then .error (.err .routeNotFound)
  else do
    let segments ← allocate quotes maxSlippageBps (quotes.length + 1) amountIn []
    finalizeRoutePlan segments amountIn referencePrice maxSlippageBps

/-! ## What one segment is -/

section Segments

variable {quotes : List AmmQuote} {segments : List AmmRouteSegment} {seg : AmmRouteSegment} {q : AmmQuote}
  {remaining alloc cost x : Int} {slip impact : Nat}

/-- What the segments take from the source of a quote. -/
def allocatedTo (segments : List AmmRouteSegment) (q : AmmQuote) : Int :=
  (segments.map fun seg => if seg.kind = q.kind ∧ seg.sourceId = q.sourceId then seg.amountIn else 0).sum

@[simp] theorem allocatedTo_nil (q : AmmQuote) : allocatedTo [] q = 0 := rfl

theorem allocatedTo_append (segments : List AmmRouteSegment) (seg : AmmRouteSegment) (q : AmmQuote) :
    allocatedTo (segments ++ [seg]) q = allocatedTo segments q +
      if seg.kind = q.kind ∧ seg.sourceId = q.sourceId then seg.amountIn else 0 := by
  unfold allocatedTo
  rw [map_append, sum_append, map_singleton, sum_singleton]

theorem allocatedTo_cons (seg : AmmRouteSegment) (segments : List AmmRouteSegment) (q : AmmQuote) :
    allocatedTo (seg :: segments) q =
      (if seg.kind = q.kind ∧ seg.sourceId = q.sourceId then seg.amountIn else 0) + allocatedTo segments q := by
  unfold allocatedTo
  rw [map_cons, sum_cons]

theorem allocatedFrom_ok (start : Int) (h : segments.foldlM (fun sum seg =>
    if seg.kind = q.kind ∧ seg.sourceId = q.sourceId then plain (sum + seg.amountIn) else .ok sum) start = .ok x) :
    x = start + allocatedTo segments q := by
  induction segments generalizing start with
  | nil =>
    cases h
    simp
  | cons seg segments ih =>
    rw [foldlM_cons] at h
    obtain ⟨sum, hstep, h⟩ := except_bind_ok.mp h
    rw [ih sum h, allocatedTo_cons]
    split at hstep
    · rename_i hsame
      obtain ⟨-, rfl⟩ := plain_ok.mp hstep
      rw [if_pos hsame, Int.add_assoc]
    · rename_i hother
      cases hstep
      rw [if_neg hother, Int.zero_add]

theorem allocatedFor_ok (h : allocatedFor segments q.kind q.sourceId = .ok x) : x = allocatedTo segments q := by
  have hsum := allocatedFrom_ok 0 h
  rwa [Int.zero_add] at hsum

/-- The least output that is accepted: the output less the tolerance, rounded down. -/
theorem minAmountOut_eq {out : Int} (h0 : 0 ≤ out) (hr : InRange (out * BPS_DENOMINATOR)) :
    (minAmountOutWithSlippage out slip).getD 0 = out * (10000 - slip : Nat) / 10000 := by
  unfold minAmountOutWithSlippage
  split
  · rename_i hout
    obtain rfl : out = 0 := by omega
    simp
  · split
    · rename_i hslip
      rw [Nat.sub_eq_zero_of_le hslip]
      simp
    · have hle : out * (10000 - slip : Nat) ≤ out * 10000 := Int.mul_le_mul_of_nonneg_left (by omega) h0
      have hnonneg : 0 ≤ out * (10000 - slip : Nat) := Int.mul_nonneg h0 (Int.natCast_nonneg _)
      have hmax : out * (10000 - slip : Nat) ≤ i128Max := hle.trans hr.2
      have hchecked : checkedMul out (10000 - slip : Nat) = some (out * (10000 - slip : Nat)) :=
        checkedMul_eq_some.mpr ⟨by unfold i128Min; omega, hmax, rfl⟩
      rw [hchecked]
      exact Int.tdiv_eq_ediv_of_nonneg hnonneg

/-- Each of the two quotients loses less than one unit of output. A negative price gives nothing. -/
theorem minAmountOut_bounds (hr : InRange (x.tdiv BPS_DENOMINATOR * BPS_DENOMINATOR)) :
    (minAmountOutWithSlippage (x.tdiv BPS_DENOMINATOR) slip).getD 0 * 100000000 ≤ max x 0 * (10000 - slip : Nat) ∧
    max x 0 * (10000 - slip : Nat) ≤
      (minAmountOutWithSlippage (x.tdiv BPS_DENOMINATOR) slip).getD 0 * 100000000 + 200000000 := by
  by_cases hx : 0 ≤ x
  · have hout : x.tdiv BPS_DENOMINATOR = x / 10000 := Int.tdiv_eq_ediv_of_nonneg hx
    rw [minAmountOut_eq (by rw [hout]; omega) hr, hout, max_eq_left hx]
    have hlo : x / 10000 * 10000 * (10000 - slip : Nat) ≤ x * (10000 - slip : Nat) :=
      Int.mul_le_mul_of_nonneg_right (by omega) (Int.natCast_nonneg _)
    have hhi : x * (10000 - slip : Nat) ≤ (x / 10000 * 10000 + 10000) * (10000 - slip : Nat) :=
      Int.mul_le_mul_of_nonneg_right (by omega) (Int.natCast_nonneg _)
    rw [Int.add_mul] at hhi
    rw [Int.mul_right_comm] at hlo hhi
    have hk : (10000 : Int) * (10000 - slip : Nat) ≤ 100000000 := by omega
    generalize x / 10000 * ((10000 - slip : Nat) : Int) = y at *
    generalize x * ((10000 - slip : Nat) : Int) = z at *
    omega
  · have hout : x.tdiv BPS_DENOMINATOR ≤ 0 := by
      have hneg : 0 ≤ (-x).tdiv BPS_DENOMINATOR := Int.tdiv_nonneg (by omega) (by decide)
      rw [Int.neg_tdiv] at hneg
      omega
    have hmin : minAmountOutWithSlippage (x.tdiv BPS_DENOMINATOR) slip = none := if_pos hout
    rw [hmin, max_eq_right (by omega)]
    simp

/-- A segment that takes as much as it can from the source of `q`, at its price. -/
structure TakesFrom (remaining : Int) (slip : Nat) (segments : List AmmRouteSegment) (q : AmmQuote)
    (seg : AmmRouteSegment) : Prop where
  amountIn_eq : seg.amountIn = min remaining (q.availableIn - allocatedTo segments q)
  amountIn_pos : 0 < seg.amountIn
  source_eq : seg.kind = q.kind ∧ seg.sourceId = q.sourceId
  minAmountOut_nonneg : 0 ≤ seg.minAmountOut
  minAmountOut_le : seg.minAmountOut * 100000000 ≤ seg.amountIn * max q.spotPrice 0 * (10000 - slip : Nat)
  le_minAmountOut : seg.amountIn * max q.spotPrice 0 * (10000 - slip : Nat) ≤ seg.minAmountOut * 100000000 + 200000000

theorem minAmountOut_nonneg (out : Int) (slip : Nat) : 0 ≤ (minAmountOutWithSlippage out slip).getD 0 := by
  unfold minAmountOutWithSlippage
  split
  · exact Int.le_refl 0
  · split
    · exact Int.le_refl 0
    · rename_i hout _
      rcases hprod : checkedMul out (10000 - slip : Nat) with _ | scaled
      · exact Int.le_refl 0
      · obtain ⟨-, -, rfl⟩ := checkedMul_eq_some.mp hprod
        exact Int.tdiv_nonneg (Int.mul_nonneg (by omega) (Int.natCast_nonneg _)) (by decide)

theorem priceSegment_minAmountOut (halloc : 0 ≤ alloc) (h : priceSegment alloc slip impact q = .ok (seg, cost)) :
    seg.minAmountOut * 100000000 ≤ alloc * max q.spotPrice 0 * (10000 - slip : Nat) ∧
    alloc * max q.spotPrice 0 * (10000 - slip : Nat) ≤ seg.minAmountOut * 100000000 + 200000000 := by
  obtain ⟨gross, hgross, h⟩ := except_bind_ok.mp h
  obtain ⟨scaled, hscaled, h⟩ := except_bind_ok.mp h
  obtain ⟨scaled', -, h⟩ := except_bind_ok.mp h
  obtain ⟨fee, -, h⟩ := except_bind_ok.mp h
  obtain ⟨total, -, h⟩ := except_bind_ok.mp h
  obtain ⟨-, rfl⟩ := plain_ok.mp hgross
  obtain ⟨hrange, rfl⟩ := plain_ok.mp hscaled
  cases h
  have hmax : alloc * max q.spotPrice 0 = max (alloc * q.spotPrice) 0 := by
    rw [mul_max_of_nonneg _ _ halloc, mul_zero]
  rw [hmax]
  exact minAmountOut_bounds hrange

theorem priceSegment_fields (h : priceSegment alloc slip impact q = .ok (seg, cost)) :
    seg.amountIn = alloc ∧ (seg.kind = q.kind ∧ seg.sourceId = q.sourceId) ∧ 0 ≤ seg.minAmountOut := by
  obtain ⟨gross, -, h⟩ := except_bind_ok.mp h
  obtain ⟨scaled, -, h⟩ := except_bind_ok.mp h
  obtain ⟨scaled', -, h⟩ := except_bind_ok.mp h
  obtain ⟨fee, -, h⟩ := except_bind_ok.mp h
  obtain ⟨total, -, h⟩ := except_bind_ok.mp h
  cases h
  exact ⟨rfl, ⟨rfl, rfl⟩, minAmountOut_nonneg _ slip⟩

theorem considerQuote_takes (h : considerQuote remaining slip segments q = .ok (some (seg, cost))) :
    TakesFrom remaining slip segments q seg := by
  obtain ⟨already, halready, h⟩ := except_bind_ok.mp h
  obtain ⟨avail, havail, h⟩ := except_bind_ok.mp h
  obtain ⟨-, rfl⟩ := plain_ok.mp havail
  obtain rfl := allocatedFor_ok halready
  split at h
  · cases h
  · rename_i hpos
    obtain ⟨impact, -, h⟩ := except_bind_ok.mp h
    split at h
    · cases h
    · obtain ⟨⟨seg', cost'⟩, hprice, h⟩ := except_bind_ok.mp h
      cases h
      obtain ⟨hamount, hsource, hnonneg⟩ := priceSegment_fields hprice
      obtain ⟨hle, hge⟩ := priceSegment_minAmountOut (by omega) hprice
      rw [← hamount] at hle hge
      exact ⟨hamount, by omega, hsource, hnonneg, hle, hge⟩

end Segments

/-! ## The quotes alone -/

/-- The impact of `amount` on the source of a quote, in basis points, rounded up. -/
def impactOf (amount : Int) (q : AmmQuote) : Nat :=
  if q.availableIn ≤ 0 then u32Max
  else asU32 ((amount * q.maxSlippageBps + q.availableIn - 1).tdiv q.availableIn)

/-- What `amount` gives, at the price that is left of the quote's after the output is rounded down. -/
def notionalOf (amount : Int) (q : AmmQuote) : Int :=
  (amount * ((amount * q.spotPrice).tdiv BPS_DENOMINATOR * BPS_DENOMINATOR).tdiv amount).tdiv BPS_DENOMINATOR

/-- The notional and the fee on it, which is rounded up. -/
def costOf (amount : Int) (q : AmmQuote) : Int :=
  notionalOf amount q + (notionalOf amount q * q.feeBps + (BPS_DENOMINATOR - 1)).tdiv BPS_DENOMINATOR

/-- A quote, and what its source has left. -/
structure Venue where
  quote : AmmQuote
  left : Int

/-- Nothing has been taken yet. -/
def Venue.full (q : AmmQuote) : Venue := ⟨q, q.availableIn⟩

/-- As much of what remains as the source has. -/
def Venue.share (remaining : Int) (v : Venue) : Int := min remaining v.left

/-- The cost of its share, unless that is nothing or the impact is above the tolerance. -/
def Venue.offers (slip : Nat) (remaining : Int) (v : Venue) : Option Int :=
  if 0 < v.share remaining ∧ impactOf (v.share remaining) v.quote ≤ slip
  then some (costOf (v.share remaining) v.quote)
  else none

/-- It could take all that remains. -/
def Venue.Covers (slip : Nat) (remaining : Int) (v : Venue) : Prop :=
  remaining ≤ v.left ∧ impactOf remaining v.quote ≤ slip

/-- After `amount` is taken from the source of `q`. -/
def Venue.after (q : AmmQuote) (amount : Int) (v : Venue) : Venue :=
  if q.kind = v.quote.kind ∧ q.sourceId = v.quote.sourceId then { v with left := v.left - amount } else v

/-- `v` is the first one of least cost. -/
def CostsLeast (slip : Nat) (remaining : Int) (venues : List Venue) (v : Venue) : Prop :=
  ∃ cost, FirstLeast (Venue.offers slip remaining) id venues v cost

/-- Until nothing remains, the quote of least cost has the highest price of all that could take everything. -/
inductive CheapestIsBest (slip : Nat) : Int → List Venue → Prop
  | done {remaining venues} (h : remaining ≤ 0) : CheapestIsBest slip remaining venues
  | again {remaining venues v} (h : 0 < remaining) (hleast : CostsLeast slip remaining venues v)
      (hbest : ∀ x ∈ venues, x.Covers slip remaining → x.quote.spotPrice ≤ v.quote.spotPrice)
      (hrest : CheapestIsBest slip (remaining - v.share remaining)
        (venues.map (Venue.after v.quote (v.share remaining)))) :
      CheapestIsBest slip remaining venues

/-- The shares of the quotes of least cost, at their prices, come to at least `owed`. -/
inductive CheapestPays (slip : Nat) : Int → Int → List Venue → Prop
  | done {remaining owed venues} (h : remaining ≤ 0) (hpaid : owed ≤ 0) : CheapestPays slip remaining owed venues
  | again {remaining owed venues v} (h : 0 < remaining) (hleast : CostsLeast slip remaining venues v)
      (hrest : CheapestPays slip (remaining - v.share remaining)
        (owed - v.share remaining * max v.quote.spotPrice 0)
        (venues.map (Venue.after v.quote (v.share remaining)))) :
      CheapestPays slip remaining owed venues

/-- The quotes of least cost give the reference price on average; with a tolerance above everything, the reference
price is not negative. -/
def PaysReference (quotes : List AmmQuote) (amountIn referencePrice : Int) (slip : Nat) : Prop :=
  (slip < 10000 → CheapestPays slip amountIn (referencePrice * amountIn) (quotes.map Venue.full)) ∧
  (10000 < slip → 0 ≤ referencePrice)

section Venues

variable {venues : List Venue} {v w : Venue} {q q' : AmmQuote} {remaining owed amount : Int} {slip : Nat}

theorem CostsLeast.unique (hv : CostsLeast slip remaining venues v) (hw : CostsLeast slip remaining venues w) :
    v = w := by
  obtain ⟨c, hv⟩ := hv
  obtain ⟨d, hw⟩ := hw
  exact hv.unique hw

theorem cheapestIsBest_iff (hpos : 0 < remaining) (hleast : CostsLeast slip remaining venues v) :
    CheapestIsBest slip remaining venues ↔
      (∀ x ∈ venues, x.Covers slip remaining → x.quote.spotPrice ≤ v.quote.spotPrice) ∧
      CheapestIsBest slip (remaining - v.share remaining) (venues.map (Venue.after v.quote (v.share remaining))) := by
  constructor
  · intro h
    cases h with
    | done => omega
    | again _ hleast' hbest hrest =>
      obtain rfl := hleast.unique hleast'
      exact ⟨hbest, hrest⟩
  · rintro ⟨hbest, hrest⟩
    exact .again hpos hleast hbest hrest

theorem cheapestPays_iff (hpos : 0 < remaining) (hleast : CostsLeast slip remaining venues v) :
    CheapestPays slip remaining owed venues ↔
      CheapestPays slip (remaining - v.share remaining) (owed - v.share remaining * max v.quote.spotPrice 0)
        (venues.map (Venue.after v.quote (v.share remaining))) := by
  constructor
  · intro h
    cases h with
    | done => omega
    | again _ hleast' hrest =>
      obtain rfl := hleast.unique hleast'
      exact hrest
  · exact .again hpos hleast

theorem notionalOf_mono (hpos : 0 < amount) (hle : q.spotPrice ≤ q'.spotPrice) :
    notionalOf amount q ≤ notionalOf amount q' := by
  have hgross : amount * q.spotPrice ≤ amount * q'.spotPrice := Int.mul_le_mul_of_nonneg_left hle hpos.le
  have hout := Int.tdiv_le_tdiv (by decide : 0 < BPS_DENOMINATOR) hgross
  have hscaled := Int.mul_le_mul_of_nonneg_right hout (by decide : 0 ≤ BPS_DENOMINATOR)
  have hprice := Int.tdiv_le_tdiv hpos hscaled
  exact Int.tdiv_le_tdiv (by decide) (Int.mul_le_mul_of_nonneg_left hprice hpos.le)

/-- A lower price is a lower cost. -/
theorem costOf_mono (hpos : 0 < amount) (hfee : q.feeBps = q'.feeBps) (hle : q.spotPrice ≤ q'.spotPrice) :
    costOf amount q ≤ costOf amount q' := by
  have hnotional := notionalOf_mono hpos hle
  have hscaled := Int.mul_le_mul_of_nonneg_right hnotional (Int.natCast_nonneg q'.feeBps)
  have hraised := Int.add_le_add_right hscaled (BPS_DENOMINATOR - 1)
  have hcharged := Int.tdiv_le_tdiv (by decide : 0 < BPS_DENOMINATOR) hraised
  unfold costOf
  rw [hfee]
  omega

theorem Venue.Covers.offers (hpos : 0 < remaining) (h : v.Covers slip remaining) :
    v.share remaining = remaining ∧ v.offers slip remaining = some (costOf remaining v.quote) := by
  have hshare : v.share remaining = remaining := min_eq_left h.1
  refine ⟨hshare, ?_⟩
  unfold Venue.offers
  rw [hshare, if_pos ⟨hpos, h.2⟩]

/-- Where every quote could take everything for the same fee, the cheapest one has the highest price only if all cost
the same; and then the first one is taken. -/
theorem cheapestIsBest_iff_head (hpos : 0 < remaining) {fee : Nat}
    (hall : ∀ x ∈ v :: venues, x.Covers slip remaining ∧ x.quote.feeBps = fee) :
    CheapestIsBest slip remaining (v :: venues) ↔ ∀ x ∈ venues,
      x.quote.spotPrice ≤ v.quote.spotPrice ∧ costOf remaining x.quote = costOf remaining v.quote := by
  have hoffers (x : Venue) (hx : x ∈ v :: venues) := ((hall x hx).1.offers hpos).2
  obtain ⟨w, cost, hfirst⟩ : ∃ w, CostsLeast slip remaining (v :: venues) w := by
    rcases hscan : scanLeast (Venue.offers slip remaining) id none (v :: venues) with _ | cost
    · have hnone := (scanLeast_none hscan).2 v mem_cons_self
      rw [hoffers v mem_cons_self] at hnone
      cases hnone
    · obtain ⟨w, hw⟩ := scanLeast_some hscan
      exact ⟨w, cost, hw⟩
  obtain ⟨hw, hcost⟩ := hfirst.offer_eq
  rw [hoffers w hw] at hcost
  cases hcost
  have hleast (x : Venue) (hx : x ∈ v :: venues) : costOf remaining w.quote ≤ costOf remaining x.quote :=
    hfirst.least x hx _ (hoffers x hx)
  -- of equal costs the first one is taken
  have hhead (hle : costOf remaining v.quote ≤ costOf remaining w.quote) : w = v :=
    hfirst.eq_head (hoffers v mem_cons_self) hle
  -- every venue could take everything, so one round is the whole plan
  have hdone : remaining - w.share remaining ≤ 0 := by
    rw [((hall w hw).1.offers hpos).1]
    omega
  rw [cheapestIsBest_iff hpos ⟨_, hfirst⟩, and_iff_left (.done hdone)]
  constructor
  · intro hbest
    have hsame (x : Venue) (hx : x ∈ v :: venues) : costOf remaining x.quote ≤ costOf remaining w.quote :=
      costOf_mono hpos ((hall x hx).2.trans (hall w hw).2.symm) (hbest x hx (hall x hx).1)
    obtain rfl := hhead (hsame v mem_cons_self)
    intro x hx
    have hx := mem_cons_of_mem w hx
    exact ⟨hbest x hx (hall x hx).1, le_antisymm (hsame x hx) (hleast x hx)⟩
  · intro hbest
    have hv : w = v := by
      refine hhead ?_
      rcases List.mem_cons.mp hw with rfl | hmem
      · exact le_refl _
      · exact (hbest w hmem).2.ge
    subst hv
    intro x hx _
    rcases List.mem_cons.mp hx with rfl | hmem
    · exact le_refl _
    · exact (hbest x hmem).1

end Venues

/-! ## The choice of a round -/

/-- A quote, and what its source has left after the segments. -/
def venueAfter (segments : List AmmRouteSegment) (q : AmmQuote) : Venue := ⟨q, q.availableIn - allocatedTo segments q⟩

/-- What a quote can take of what remains, with its cost. -/
def offer (remaining : Int) (slip : Nat) (segments : List AmmRouteSegment) (quote : AmmQuote) :
    Option (AmmRouteSegment × Int) :=
  match considerQuote remaining slip segments quote with
  | .ok best => best
  | .error _ => none

/-- `quote` gives the first segment of least cost. -/
def IsCheapest (quotes : List AmmQuote) (slip : Nat) (remaining : Int) (segments : List AmmRouteSegment)
    (quote : AmmQuote) (best : AmmRouteSegment × Int) : Prop :=
  FirstLeast (offer remaining slip segments) Prod.snd quotes quote best

section Rounds

variable {quotes : List AmmQuote} {segments : List AmmRouteSegment} {seg : AmmRouteSegment} {q : AmmQuote}
  {remaining : Int} {slip : Nat} {best : AmmRouteSegment × Int}

theorem keepCheaper_eq (old candidate : Option (AmmRouteSegment × Int)) :
    keepCheaper old candidate = keepLess Prod.snd old candidate := by
  rcases candidate with _ | new
  · rfl
  · rcases old with _ | kept
    · rfl
    · unfold keepCheaper keepLess
      dsimp only
      by_cases h : kept.2 ≤ new.2
      · rw [if_pos h, if_neg (not_lt.mpr h)]
      · rw [if_neg h, if_pos (not_le.mp h)]

/-- The loop over the quotes is the search of the library, with a trap where a number is too large. -/
theorem cheapest_ok {old r : Option (AmmRouteSegment × Int)}
    (h : cheapest remaining slip segments old quotes = .ok r) :
    r = scanLeast (offer remaining slip segments) Prod.snd old quotes := by
  induction quotes generalizing old with
  | nil =>
    cases h
    rfl
  | cons quote quotes ih =>
    obtain ⟨candidate, hconsider, h⟩ := except_bind_ok.mp h
    have hoffer : offer remaining slip segments quote = candidate := by
      unfold offer
      rw [hconsider]
    rw [scanLeast, hoffer, ← keepCheaper_eq]
    exact ih h

theorem cheapest_considers {old r : Option (AmmRouteSegment × Int)}
    (h : cheapest remaining slip segments old quotes = .ok r) :
    ∀ q ∈ quotes, ∃ candidate, considerQuote remaining slip segments q = .ok candidate := by
  induction quotes generalizing old with
  | nil =>
    intro q hq
    cases hq
  | cons quote quotes ih =>
    obtain ⟨candidate, hconsider, h⟩ := except_bind_ok.mp h
    exact List.forall_mem_cons.mpr ⟨⟨candidate, hconsider⟩, ih h⟩

theorem planRound_isCheapest (h : planRound quotes slip remaining segments = .ok seg) :
    ∃ q cost, IsCheapest quotes slip remaining segments q (seg, cost) := by
  obtain ⟨chosen, hchosen, h⟩ := except_bind_ok.mp h
  rcases chosen with _ | ⟨seg', cost⟩
  · cases h
  · cases h
    obtain ⟨q, hfirst⟩ := scanLeast_some (cheapest_ok hchosen).symm
    exact ⟨q, cost, hfirst⟩

theorem IsCheapest.takes (h : IsCheapest quotes slip remaining segments q best) :
    q ∈ quotes ∧ TakesFrom remaining slip segments q best.1 := by
  obtain ⟨hq, hoffer⟩ := h.offer_eq
  unfold offer at hoffer
  split at hoffer
  · rename_i hconsider
    subst hoffer
    exact ⟨hq, considerQuote_takes hconsider⟩
  · cases hoffer

theorem estimateImpact_ok {amount : Int} {impact : Nat} (hpos : 0 < amount)
    (h : estimateImpactSlippageBps amount q.availableIn q.maxSlippageBps = .ok impact) :
    impact = impactOf amount q := by
  unfold estimateImpactSlippageBps at h
  unfold impactOf
  split at h
  · rename_i hnone
    cases h
    rw [if_pos (by omega)]
  · rename_i hsome
    obtain ⟨scaled, hscaled, h⟩ := except_bind_ok.mp h
    obtain ⟨sum, hsum, h⟩ := except_bind_ok.mp h
    obtain ⟨raised, hraised, h⟩ := except_bind_ok.mp h
    obtain ⟨-, rfl⟩ := plain_ok.mp hscaled
    obtain ⟨-, rfl⟩ := plain_ok.mp hsum
    obtain ⟨-, rfl⟩ := plain_ok.mp hraised
    cases h
    rw [if_neg (by omega)]

theorem priceSegment_cost {alloc cost : Int} {impact : Nat} (hpos : 0 < alloc)
    (h : priceSegment alloc slip impact q = .ok (seg, cost)) : cost = costOf alloc q := by
  obtain ⟨gross, hgross, h⟩ := except_bind_ok.mp h
  obtain ⟨scaled, hscaled, h⟩ := except_bind_ok.mp h
  obtain ⟨scaled', hscaled', h⟩ := except_bind_ok.mp h
  rw [if_pos hpos] at hscaled'
  obtain ⟨fee, hfee, h⟩ := except_bind_ok.mp h
  obtain ⟨charge, hcharge, hfee⟩ := except_bind_ok.mp hfee
  obtain ⟨raised, hraised, hfee⟩ := except_bind_ok.mp hfee
  obtain ⟨total, htotal, h⟩ := except_bind_ok.mp h
  obtain ⟨-, rfl⟩ := plain_ok.mp hgross
  obtain ⟨-, rfl⟩ := plain_ok.mp hscaled
  obtain ⟨-, rfl⟩ := plain_ok.mp hscaled'
  obtain ⟨-, rfl⟩ := plain_ok.mp hcharge
  obtain ⟨-, rfl⟩ := plain_ok.mp hraised
  cases hfee
  obtain ⟨-, rfl⟩ := plain_ok.mp htotal
  cases h
  rfl

/-- What the code considers is what the venue offers. -/
theorem considerQuote_offers {candidate : Option (AmmRouteSegment × Int)}
    (h : considerQuote remaining slip segments q = .ok candidate) :
    (venueAfter segments q).offers slip remaining = candidate.map Prod.snd := by
  obtain ⟨already, halready, h⟩ := except_bind_ok.mp h
  obtain ⟨avail, havail, h⟩ := except_bind_ok.mp h
  obtain ⟨-, rfl⟩ := plain_ok.mp havail
  obtain rfl := allocatedFor_ok halready
  unfold Venue.offers
  split at h
  · rename_i hnone
    cases h
    exact if_neg fun hopen => absurd hopen.1 (not_lt.mpr hnone)
  · rename_i hpos
    have hpos : 0 < (venueAfter segments q).share remaining := not_le.mp hpos
    obtain ⟨impact, himpact, h⟩ := except_bind_ok.mp h
    obtain rfl := estimateImpact_ok hpos himpact
    split at h
    · rename_i hhigh
      cases h
      exact if_neg fun hopen => absurd hopen.2 (not_le.mpr hhigh)
    · rename_i hlow
      obtain ⟨⟨seg, cost⟩, hprice, h⟩ := except_bind_ok.mp h
      cases h
      rw [if_pos ⟨hpos, not_lt.mp hlow⟩]
      exact congrArg some (priceSegment_cost hpos hprice).symm

/-- A round looks at every quote, and the one that it takes is the first one of least cost. -/
theorem planRound_costsLeast {cost : Int} (h : planRound quotes slip remaining segments = .ok seg)
    (hfirst : IsCheapest quotes slip remaining segments q (seg, cost)) :
    CostsLeast slip remaining (quotes.map (venueAfter segments)) (venueAfter segments q) := by
  obtain ⟨chosen, hchosen, -⟩ := except_bind_ok.mp h
  refine ⟨cost, hfirst.map fun x hx => ?_⟩
  obtain ⟨candidate, hconsider⟩ := cheapest_considers hchosen x hx
  unfold offer
  rw [hconsider]
  exact considerQuote_offers hconsider

end Rounds

/-! ## The loop ends -/

/-- `while remaining > 0 { .. }`: the results of the loop, if it ends. -/
inductive RouteLoop (quotes : List AmmQuote) (slip : Nat) :
    Int → List AmmRouteSegment → R (List AmmRouteSegment) → Prop
  | done {remaining segments} (h : remaining ≤ 0) : RouteLoop quotes slip remaining segments (.ok segments)
  | fails {remaining segments error} (h : 0 < remaining)
      (hround : planRound quotes slip remaining segments = .error error) :
      RouteLoop quotes slip remaining segments (.error error)
  | again {remaining segments seg result} (h : 0 < remaining)
      (hround : planRound quotes slip remaining segments = .ok seg)
      (hrest : RouteLoop quotes slip (remaining - seg.amountIn) (segments ++ [seg]) result) :
      RouteLoop quotes slip remaining segments result

/-- How many quotes have something left. -/
def openQuotes (quotes : List AmmQuote) (segments : List AmmRouteSegment) : Nat :=
  quotes.countP fun q => allocatedTo segments q < q.availableIn

section Termination

variable {quotes : List AmmQuote} {segments : List AmmRouteSegment} {seg : AmmRouteSegment} {q : AmmQuote}
  {remaining : Int} {slip fuel : Nat} {result result' : R (List AmmRouteSegment)}

theorem TakesFrom.allocatedTo_le (h : TakesFrom remaining slip segments q seg) (q' : AmmQuote) :
    allocatedTo segments q' ≤ allocatedTo (segments ++ [seg]) q' := by
  have hpos := h.amountIn_pos
  rw [allocatedTo_append]
  split <;> omega

theorem TakesFrom.allocatedTo_eq (h : TakesFrom remaining slip segments q seg) :
    allocatedTo (segments ++ [seg]) q = allocatedTo segments q + seg.amountIn := by
  rw [allocatedTo_append, if_pos h.source_eq]

/-- A round that does not use up what remains uses up a source. -/
theorem openQuotes_lt (h : planRound quotes slip remaining segments = .ok seg)
    (hrest : 0 < remaining - seg.amountIn) : openQuotes quotes (segments ++ [seg]) < openQuotes quotes segments := by
  obtain ⟨q, cost, hfirst⟩ := planRound_isCheapest h
  have htakes : TakesFrom remaining slip segments q seg := hfirst.takes.2
  have hamount := htakes.amountIn_eq
  have hpos := htakes.amountIn_pos
  have hclosed := htakes.allocatedTo_eq
  obtain ⟨front, back, rfl, -⟩ := hfirst
  have hmono (l : List AmmQuote) : openQuotes l (segments ++ [seg]) ≤ openQuotes l segments := by
    refine countP_mono_left fun q' _ hq' => ?_
    have hle := htakes.allocatedTo_le q'
    rw [decide_eq_true_eq] at hq' ⊢
    omega
  have hfront := hmono front
  have hback := hmono back
  unfold openQuotes at *
  rw [countP_append, countP_append, countP_cons, countP_cons,
    if_neg (by rw [decide_eq_true_eq]; omega), if_pos (by rw [decide_eq_true_eq]; omega)]
  omega

theorem routeLoop_allocate (h : openQuotes quotes segments < fuel ∨ remaining ≤ 0) :
    RouteLoop quotes slip remaining segments (allocate quotes slip fuel remaining segments) := by
  induction fuel generalizing remaining segments with
  | zero =>
    have hdone : remaining ≤ 0 := h.resolve_left (Nat.not_lt_zero _)
    rw [allocate, if_pos hdone]
    exact .done hdone
  | succ fuel ih =>
    rw [allocate]
    split
    · rename_i hdone
      exact .done hdone
    · rename_i hrest
      rcases hround : planRound quotes slip remaining segments with error | seg
      · exact .fails (by omega) hround
      · refine .again (by omega) hround (ih ?_)
        by_cases hleft : 0 < remaining - seg.amountIn
        · have hless := openQuotes_lt hround hleft
          omega
        · omega

theorem RouteLoop.unique (h : RouteLoop quotes slip remaining segments result)
    (h' : RouteLoop quotes slip remaining segments result') : result = result' := by
  induction h with
  | done =>
    cases h' with
    | done => rfl
    | fails => omega
    | again => omega
  | fails _ hround =>
    cases h' with
    | done => omega
    | fails _ hround' =>
      rw [hround] at hround'
      cases hround'
      rfl
    | again _ hround' =>
      rw [hround] at hround'
      cases hround'
  | again _ hround _ ih =>
    cases h' with
    | done => omega
    | fails _ hround' =>
      rw [hround] at hround'
      cases hround'
    | again _ hround' hrest' =>
      rw [hround] at hround'
      cases hround'
      exact ih hrest'

/-- The loop ends, with what the bounded loop of the plan returns. -/
theorem routeLoop_iff (quotes : List AmmQuote) (slip : Nat) (amountIn : Int) :
    RouteLoop quotes slip amountIn [] result ↔ result = allocate quotes slip (quotes.length + 1) amountIn [] := by
  have hends : RouteLoop quotes slip amountIn [] (allocate quotes slip (quotes.length + 1) amountIn []) :=
    routeLoop_allocate (.inl (Nat.lt_succ_of_le countP_le_length))
  constructor
  · intro h
    exact h.unique hends
  · rintro rfl
    exact hends

end Termination

/-! ## What the plan takes -/

/-- The quotes that the rounds choose, with what is taken from them. -/
inductive Route (quotes : List AmmQuote) (slip : Nat) :
    Int → List AmmRouteSegment → List (AmmQuote × AmmRouteSegment) → Prop
  | nil {remaining segments} (h : remaining ≤ 0) : Route quotes slip remaining segments []
  | cons {remaining segments q seg cost rest} (h : 0 < remaining)
      (hround : planRound quotes slip remaining segments = .ok seg)
      (hfirst : IsCheapest quotes slip remaining segments q (seg, cost))
      (hrest : Route quotes slip (remaining - seg.amountIn) (segments ++ [seg]) rest) :
      Route quotes slip remaining segments ((q, seg) :: rest)

/-- Every amount is positive, they add up to `amountIn`, and no source gives more than it has. -/
structure Allocates (quotes : List AmmQuote) (amountIn : Int) (segments : List AmmRouteSegment) : Prop where
  amountIn_pos : ∀ seg ∈ segments, 0 < seg.amountIn
  sum_amountIn : (segments.map AmmRouteSegment.amountIn).sum = amountIn
  availableIn : ∀ seg ∈ segments, ∃ q ∈ quotes, (seg.kind = q.kind ∧ seg.sourceId = q.sourceId) ∧
    allocatedTo segments q ≤ q.availableIn

/-- The source of `q` could take all that remains. -/
def CouldTakeAll (slip : Nat) (remaining : Int) (segments : List AmmRouteSegment) (q : AmmQuote) : Prop :=
  remaining ≤ q.availableIn - allocatedTo segments q ∧
  ∃ impact ≤ slip, estimateImpactSlippageBps remaining q.availableIn q.maxSlippageBps = .ok impact

/-- No quote that could take all that remains has a higher price than `q`. -/
def IsBestPrice (quotes : List AmmQuote) (slip : Nat) (remaining : Int) (segments : List AmmRouteSegment)
    (q : AmmQuote) : Prop :=
  ∀ q' ∈ quotes, CouldTakeAll slip remaining segments q' → q'.spotPrice ≤ q.spotPrice

/-- Every segment goes to a source of best price. -/
def BestPriced (quotes : List AmmQuote) (slip : Nat) :
    Int → List AmmRouteSegment → List (AmmQuote × AmmRouteSegment) → Prop
  | _, _, [] => True
  | remaining, segments, (q, seg) :: rest => IsBestPrice quotes slip remaining segments q ∧
    BestPriced quotes slip (remaining - seg.amountIn) (segments ++ [seg]) rest

/-- What the chosen quotes give at their prices, in units of `1 / BPS_DENOMINATOR`. -/
def outputAtSpot (choices : List (AmmQuote × AmmRouteSegment)) : Int :=
  (choices.map fun choice => choice.2.amountIn * max choice.1.spotPrice 0).sum

/-- The average price is at least the reference price less the tolerance, up to `loss`. -/
def KeepsTolerance (amountIn referencePrice : Int) (slip : Nat) (loss : Int) (plan : AmmRoutePlan) : Prop :=
  referencePrice * (10000 - slip) * amountIn ≤ plan.averagePrice * 10000 * amountIn + loss

/-- One unit of the average, and two units of output for every segment. -/
def roundingLoss (amountIn : Int) (plan : AmmRoutePlan) : Int := 10000 * amountIn + 200000000 * plan.segments.length

section Plans

variable {quotes : List AmmQuote} {segments segments' : List AmmRouteSegment} {seg : AmmRouteSegment}
  {choices : List (AmmQuote × AmmRouteSegment)} {remaining amountIn referencePrice : Int} {slip fuel : Nat}
  {plan : AmmRoutePlan}

theorem route_of_allocate (h : allocate quotes slip fuel remaining segments = .ok segments') :
    ∃ choices, Route quotes slip remaining segments choices ∧ segments' = segments ++ choices.map Prod.snd := by
  induction fuel generalizing remaining segments with
  | zero =>
    unfold allocate at h
    split at h
    · rename_i hdone
      cases h
      exact ⟨[], .nil hdone, (append_nil _).symm⟩
    · cases h
  | succ fuel ih =>
    unfold allocate at h
    split at h
    · rename_i hdone
      cases h
      exact ⟨[], .nil hdone, (append_nil _).symm⟩
    · rename_i hrest
      obtain ⟨seg, hround, h⟩ := except_bind_ok.mp h
      obtain ⟨q, cost, hfirst⟩ := planRound_isCheapest hround
      obtain ⟨choices, hroute, rfl⟩ := ih h
      refine ⟨(q, seg) :: choices, .cons (by omega) hround hfirst hroute, ?_⟩
      rw [append_assoc, map_cons, singleton_append]

/-- A round keeps what is allocated within what the sources have. -/
theorem TakesFrom.allocates {q : AmmQuote} (htakes : TakesFrom remaining slip segments q seg) (hq : q ∈ quotes)
    (h : Allocates quotes (amountIn - remaining) segments) :
    Allocates quotes (amountIn - (remaining - seg.amountIn)) (segments ++ [seg]) := by
  have hamount := htakes.amountIn_eq
  have hclosed := htakes.allocatedTo_eq
  refine ⟨?_, ?_, ?_⟩
  · intro other hother
    rcases List.mem_append.mp hother with hother | hother
    · exact h.amountIn_pos other hother
    · obtain rfl := List.mem_singleton.mp hother
      exact htakes.amountIn_pos
  · rw [map_append, sum_append, h.sum_amountIn, map_singleton, sum_singleton]
    omega
  · intro other hother
    by_cases hsame : other.kind = q.kind ∧ other.sourceId = q.sourceId
    · exact ⟨q, hq, hsame, by omega⟩
    · rcases List.mem_append.mp hother with hother | hother
      · obtain ⟨q', hq', hsource, hle⟩ := h.availableIn other hother
        refine ⟨q', hq', hsource, ?_⟩
        have hne : ¬ (seg.kind = q'.kind ∧ seg.sourceId = q'.sourceId) := by
          rintro ⟨hkind, hid⟩
          exact hsame ⟨hsource.1.trans (hkind.symm.trans htakes.source_eq.1),
            hsource.2.trans (hid.symm.trans htakes.source_eq.2)⟩
        rwa [allocatedTo_append, if_neg hne, Int.add_zero]
      · obtain rfl := List.mem_singleton.mp hother
        exact absurd htakes.source_eq hsame

theorem Route.allocates (h : Route quotes slip remaining segments choices) (hnonneg : 0 ≤ remaining)
    (hstart : Allocates quotes (amountIn - remaining) segments) :
    Allocates quotes amountIn (segments ++ choices.map Prod.snd) := by
  induction h with
  | nil hdone =>
    obtain rfl := Int.le_antisymm hdone hnonneg
    rw [Int.sub_zero] at hstart
    simpa using hstart
  | cons hpos _ hfirst _ ih =>
    obtain ⟨hq, htakes⟩ := hfirst.takes
    have hamount := htakes.amountIn_eq
    dsimp only at htakes hamount
    have hrest := ih (by omega) (htakes.allocates hq hstart)
    rwa [append_assoc, singleton_append] at hrest

/-- What a round takes, it takes from every quote of the source. -/
theorem TakesFrom.venues {q : AmmQuote} (h : TakesFrom remaining slip segments q seg) (quotes : List AmmQuote) :
    quotes.map (venueAfter (segments ++ [seg])) = (quotes.map (venueAfter segments)).map
      (Venue.after q ((venueAfter segments q).share remaining)) := by
  rw [map_map]
  refine map_congr_left fun x _ => ?_
  have hshare : (venueAfter segments q).share remaining = seg.amountIn := h.amountIn_eq.symm
  rw [Function.comp_apply, hshare]
  unfold venueAfter Venue.after
  rw [allocatedTo_append, h.source_eq.1, h.source_eq.2]
  split
  · rw [← Int.sub_sub]
  · rw [Int.add_zero]

theorem venueAfter_nil (quotes : List AmmQuote) : quotes.map (venueAfter []) = quotes.map Venue.full := by
  refine map_congr_left fun q _ => ?_
  unfold venueAfter Venue.full
  rw [allocatedTo_nil, Int.sub_zero]

theorem couldTakeAll_iff {q : AmmQuote} (hpos : 0 < remaining) (hq : q ∈ quotes)
    (h : planRound quotes slip remaining segments = .ok seg) :
    CouldTakeAll slip remaining segments q ↔ (venueAfter segments q).Covers slip remaining := by
  refine and_congr_right fun hall => ?_
  obtain ⟨chosen, hchosen, -⟩ := except_bind_ok.mp h
  obtain ⟨candidate, hconsider⟩ := cheapest_considers hchosen q hq
  obtain ⟨already, halready, hconsider⟩ := except_bind_ok.mp hconsider
  obtain ⟨avail, havail, hconsider⟩ := except_bind_ok.mp hconsider
  obtain ⟨-, rfl⟩ := plain_ok.mp havail
  obtain rfl := allocatedFor_ok halready
  rw [min_eq_left hall, if_neg (by omega)] at hconsider
  obtain ⟨impact, himpact, -⟩ := except_bind_ok.mp hconsider
  obtain rfl := estimateImpact_ok hpos himpact
  constructor
  · rintro ⟨impact, hle, h⟩
    obtain rfl := estimateImpact_ok hpos h
    exact hle
  · intro hle
    exact ⟨_, hle, himpact⟩

/-- The segments go to the best prices exactly if the quotes meet the condition. -/
theorem Route.bestPriced_iff (h : Route quotes slip remaining segments choices) :
    BestPriced quotes slip remaining segments choices ↔
      CheapestIsBest slip remaining (quotes.map (venueAfter segments)) := by
  induction h with
  | nil hdone => exact iff_of_true trivial (.done hdone)
  | cons hpos hround hfirst _ ih =>
    have htakes := hfirst.takes.2
    have hamount := htakes.amountIn_eq
    rw [htakes.venues] at ih
    rw [cheapestIsBest_iff hpos (planRound_costsLeast hround hfirst)]
    refine and_congr ?_ (hamount ▸ ih)
    rw [forall_mem_map]
    refine forall_congr' fun q' => forall_congr' fun hq' => ?_
    rw [couldTakeAll_iff hpos hq' hround]
    exact Iff.rfl

theorem outputAtSpot_cons (q : AmmQuote) (seg : AmmRouteSegment) (rest : List (AmmQuote × AmmRouteSegment)) :
    outputAtSpot ((q, seg) :: rest) = seg.amountIn * max q.spotPrice 0 + outputAtSpot rest := by
  unfold outputAtSpot
  rw [map_cons, sum_cons]

/-- What the chosen quotes give at their prices is what the quotes of least cost pay. -/
theorem Route.pays_iff (h : Route quotes slip remaining segments choices) (owed : Int) :
    CheapestPays slip remaining owed (quotes.map (venueAfter segments)) ↔ owed ≤ outputAtSpot choices := by
  induction h generalizing owed with
  | nil hdone =>
    constructor
    · intro hpays
      cases hpays with
      | done _ hpaid => exact hpaid
      | again => omega
    · exact .done hdone
  | @cons remaining segments q seg cost rest hpos hround hfirst _ ih =>
    have htakes : TakesFrom remaining slip segments q seg := hfirst.takes.2
    have hshare : (venueAfter segments q).share remaining = seg.amountIn := htakes.amountIn_eq.symm
    have hrest := ih (owed - seg.amountIn * max q.spotPrice 0)
    rw [htakes.venues, hshare] at hrest
    rw [cheapestPays_iff hpos (planRound_costsLeast hround hfirst), hshare]
    refine hrest.trans ?_
    rw [outputAtSpot_cons]
    omega

theorem Route.minAmountOut_nonneg (h : Route quotes slip remaining segments choices) :
    0 ≤ (choices.map fun choice => choice.2.minAmountOut).sum := by
  induction h with
  | nil => simp
  | cons hpos _ hfirst _ ih =>
    have hseg := hfirst.takes.2.minAmountOut_nonneg
    rw [map_cons, sum_cons]
    dsimp only at hseg ⊢
    omega

/-- What is accepted and what the prices give differ by the tolerance, and by the rounding of every segment. -/
theorem Route.output_bounds (h : Route quotes slip remaining segments choices) :
    (choices.map fun choice => choice.2.minAmountOut).sum * 100000000 ≤ outputAtSpot choices * (10000 - slip : Nat) ∧
    outputAtSpot choices * (10000 - slip : Nat) ≤
      (choices.map fun choice => choice.2.minAmountOut).sum * 100000000 + 200000000 * choices.length := by
  unfold outputAtSpot
  induction h with
  | nil => simp
  | cons hpos _ hfirst _ ih =>
    have htakes := hfirst.takes.2
    have hle := htakes.minAmountOut_le
    have hge := htakes.le_minAmountOut
    dsimp only at hle hge
    simp [Int.add_mul]
    omega

theorem addTotals_ok {start totals : Int × Int × Int} (h : segments.foldlM addTotals start = .ok totals) :
    totals.1 = start.1 + (segments.map AmmRouteSegment.amountIn).sum ∧
    totals.2.1 = start.2.1 + (segments.map AmmRouteSegment.minAmountOut).sum := by
  induction segments generalizing start with
  | nil =>
    cases h
    simp
  | cons seg segments ih =>
    rw [foldlM_cons] at h
    obtain ⟨next, hnext, h⟩ := except_bind_ok.mp h
    obtain ⟨totalIn, hin, hnext⟩ := except_bind_ok.mp hnext
    obtain ⟨totalOut, hout, hnext⟩ := except_bind_ok.mp hnext
    obtain ⟨totalFees, hfees, hnext⟩ := except_bind_ok.mp hnext
    obtain ⟨-, rfl⟩ := plain_ok.mp hin
    obtain ⟨-, rfl⟩ := plain_ok.mp hout
    cases hnext
    obtain ⟨hsumIn, hsumOut⟩ := ih h
    rw [map_cons, map_cons, sum_cons, sum_cons]
    dsimp only at hsumIn hsumOut
    constructor <;> omega

theorem averagePriceOf_ok {totalIn totalOut average : Int} (hpos : 0 < totalIn)
    (h : averagePriceOf totalIn totalOut = .ok average) : average = (totalOut * BPS_DENOMINATOR).tdiv totalIn := by
  unfold averagePriceOf at h
  rw [if_pos hpos] at h
  obtain ⟨scaled, hscaled, h⟩ := except_bind_ok.mp h
  obtain ⟨-, rfl⟩ := plain_ok.mp hscaled
  cases h
  rfl

theorem finalizeRoutePlan_ok (hpos : 0 < amountIn)
    (h : finalizeRoutePlan segments amountIn referencePrice slip = .ok plan) :
    plan.segments = segments ∧
    plan.averagePrice = ((segments.map AmmRouteSegment.minAmountOut).sum * BPS_DENOMINATOR).tdiv amountIn := by
  obtain ⟨totals, htotals, h⟩ := except_bind_ok.mp h
  obtain ⟨-, hout⟩ := addTotals_ok htotals
  split at h
  · cases h
  · rename_i hsame
    have hin : totals.1 = amountIn := not_not.mp hsame
    obtain ⟨average, haverage, h⟩ := except_bind_ok.mp h
    obtain ⟨slippage, -, h⟩ := except_bind_ok.mp h
    split at h
    · cases h
    · cases h
      refine ⟨rfl, ?_⟩
      rw [hin, hout, Int.zero_add] at haverage
      exact averagePriceOf_ok hpos haverage

/-- The two bounds of an average that is rounded down. -/
theorem average_bounds {out : Int} (hpos : 0 < amountIn) (hnonneg : 0 ≤ out) :
    0 ≤ (out * BPS_DENOMINATOR).tdiv amountIn ∧
    (out * BPS_DENOMINATOR).tdiv amountIn * amountIn ≤ out * 10000 ∧
    out * 10000 ≤ (out * BPS_DENOMINATOR).tdiv amountIn * amountIn + amountIn := by
  have hscaled : 0 ≤ out * BPS_DENOMINATOR := Int.mul_nonneg hnonneg (by decide)
  have hlo := Int.ediv_mul_le (out * BPS_DENOMINATOR) hpos.ne'
  have hhi := Int.lt_ediv_add_one_mul_self (out * BPS_DENOMINATOR) hpos
  rw [Int.add_mul, Int.one_mul] at hhi
  rw [Int.tdiv_eq_ediv_of_nonneg hscaled]
  exact ⟨Int.ediv_nonneg hscaled hpos.le, hlo, hhi.le⟩

theorem Route.weighted (h : Route quotes slip remaining segments choices) (hpos : 0 < amountIn)
    (haverage : plan.averagePrice =
      ((choices.map fun choice => choice.2.minAmountOut).sum * BPS_DENOMINATOR).tdiv amountIn)
    (hkeeps : KeepsTolerance amountIn referencePrice slip 0 plan) :
    (slip < 10000 → referencePrice * amountIn ≤ outputAtSpot choices) ∧ (10000 < slip → 0 ≤ referencePrice) := by
  have hnonneg := h.minAmountOut_nonneg
  obtain ⟨hle, -⟩ := h.output_bounds
  obtain ⟨-, hdown, -⟩ := average_bounds hpos hnonneg
  unfold KeepsTolerance at hkeeps
  rw [← haverage] at hdown
  rw [Int.mul_right_comm plan.averagePrice] at hkeeps
  refine ⟨?_, ?_⟩
  · intro hslip
    have hk : (10000 - slip : Int) = (10000 - slip : Nat) := by omega
    rw [hk, Int.mul_right_comm referencePrice] at hkeeps
    have hchain : referencePrice * amountIn * (10000 - slip : Nat) ≤ outputAtSpot choices * (10000 - slip : Nat) := by
      omega
    exact Int.le_of_mul_le_mul_right hchain (by omega)
  · intro hslip
    rw [Nat.sub_eq_zero_of_le hslip.le, Int.natCast_zero, Int.mul_zero] at hle
    have hprod : referencePrice * (10000 - slip) * amountIn ≤ 0 := by omega
    have hscaled : referencePrice * (10000 - slip) ≤ 0 := nonpos_of_mul_nonpos_left hprod hpos
    exact nonneg_of_mul_nonpos_left hscaled (by omega)

theorem Route.keepsTolerance (h : Route quotes slip remaining segments choices) (hpos : 0 < amountIn)
    (hsegments : plan.segments = choices.map Prod.snd)
    (haverage : plan.averagePrice =
      ((choices.map fun choice => choice.2.minAmountOut).sum * BPS_DENOMINATOR).tdiv amountIn)
    (hweighted : (slip < 10000 → referencePrice * amountIn ≤ outputAtSpot choices) ∧
      (10000 < slip → 0 ≤ referencePrice)) :
    KeepsTolerance amountIn referencePrice slip (roundingLoss amountIn plan) plan := by
  have hnonneg := h.minAmountOut_nonneg
  obtain ⟨-, hge⟩ := h.output_bounds
  obtain ⟨haverage0, -, hup⟩ := average_bounds hpos hnonneg
  unfold KeepsTolerance roundingLoss
  rw [← haverage] at haverage0 hup
  rw [Int.mul_right_comm plan.averagePrice, hsegments, length_map]
  by_cases hslip : slip < 10000
  · have hk : (10000 - slip : Int) = (10000 - slip : Nat) := by omega
    have hchain : referencePrice * amountIn * (10000 - slip : Nat) ≤ outputAtSpot choices * (10000 - slip : Nat) :=
      Int.mul_le_mul_of_nonneg_right (hweighted.1 hslip) (Int.natCast_nonneg _)
    rw [hk, Int.mul_right_comm referencePrice]
    omega
  · have hproduct : 0 ≤ plan.averagePrice * amountIn := Int.mul_nonneg haverage0 hpos.le
    have hneg : referencePrice * (10000 - slip) * amountIn ≤ 0 := by
      refine mul_nonpos_of_nonpos_of_nonneg ?_ hpos.le
      by_cases heq : slip = 10000
      · subst heq
        simp
      · exact mul_nonpos_of_nonneg_of_nonpos (hweighted.2 (by omega)) (by omega)
    omega

theorem Route.paysReference_iff (h : Route quotes slip amountIn [] choices) :
    PaysReference quotes amountIn referencePrice slip ↔
      (slip < 10000 → referencePrice * amountIn ≤ outputAtSpot choices) ∧ (10000 < slip → 0 ≤ referencePrice) := by
  unfold PaysReference
  rw [← h.pays_iff, venueAfter_nil]

/-- The loop ends. What a plan takes is positive and no more than the sources have, and adds up. It takes the best
prices exactly if the quotes of least cost have them; and it keeps the tolerance if these give the reference price,
up to rounding only then. -/
theorem plan_iff (quotes : List AmmQuote) (amountIn referencePrice : Int) (slip : Nat) :
    (∃! result, RouteLoop quotes slip amountIn [] result) ∧
    ∀ plan, planMultiSourceRoute quotes amountIn referencePrice slip = .ok plan →
      RouteLoop quotes slip amountIn [] (.ok plan.segments) ∧ Allocates quotes amountIn plan.segments ∧
      ∃ choices, Route quotes slip amountIn [] choices ∧ plan.segments = choices.map Prod.snd ∧
        (BestPriced quotes slip amountIn [] choices ↔ CheapestIsBest slip amountIn (quotes.map Venue.full)) ∧
        (∀ q rest fee, quotes = q :: rest →
          (∀ x ∈ quotes, (Venue.full x).Covers slip amountIn ∧ x.feeBps = fee) →
          (BestPriced quotes slip amountIn [] choices ↔
            ∀ x ∈ rest, x.spotPrice ≤ q.spotPrice ∧ costOf amountIn x = costOf amountIn q)) ∧
        (KeepsTolerance amountIn referencePrice slip 0 plan → PaysReference quotes amountIn referencePrice slip) ∧
        (PaysReference quotes amountIn referencePrice slip →
          KeepsTolerance amountIn referencePrice slip (roundingLoss amountIn plan) plan) := by
  refine ⟨⟨_, (routeLoop_iff quotes slip amountIn).mpr rfl, fun _ h => (routeLoop_iff quotes slip amountIn).mp h⟩, ?_⟩
  intro plan hplan
  unfold planMultiSourceRoute at hplan
  split at hplan
  · cases hplan
  · rename_i hpos
    split at hplan
    · cases hplan
    · obtain ⟨segments, hloop, hplan⟩ := except_bind_ok.mp hplan
      obtain ⟨hsegments, haverage⟩ := finalizeRoutePlan_ok (by omega) hplan
      obtain ⟨choices, hroute, hchoices⟩ := route_of_allocate hloop
      have hends := (routeLoop_iff quotes slip amountIn).mpr hloop.symm
      have hstart : Allocates quotes (amountIn - amountIn) [] :=
        ⟨fun _ h => absurd h not_mem_nil, (Int.sub_self amountIn).symm, fun _ h => absurd h not_mem_nil⟩
      have hallocates := hroute.allocates (by omega) hstart
      have hbest := hroute.bestPriced_iff
      rw [nil_append] at hchoices hallocates
      rw [venueAfter_nil] at hbest
      subst hchoices
      rw [map_map] at haverage
      rw [hsegments]
      refine ⟨hends, hallocates, choices, hroute, rfl, hbest, ?_, ?_, ?_⟩
      · rintro q rest fee rfl hall
        have hfull : ∀ x ∈ (q :: rest).map Venue.full, x.Covers slip amountIn ∧ x.quote.feeBps = fee :=
          List.forall_mem_map.mpr hall
        rw [hbest, map_cons, cheapestIsBest_iff_head (by omega) hfull, forall_mem_map]
        exact Iff.rfl
      · intro hkeeps
        exact hroute.paysReference_iff.mpr (hroute.weighted (by omega) haverage hkeeps)
      · intro hpays
        exact hroute.keepsTolerance (by omega) hsegments haverage (hroute.paysReference_iff.mp hpays)

end Plans

namespace Sample

/-- What a pool of `10 ^ 12` of both assets offers for `10 ^ 6`. -/
def evenPool : AmmQuote := ⟨.bridgePool, 0, 1000000000000, 9999, 0, 100, 999999⟩

/-- A pool that gives twice as much. -/
def doublePool : AmmQuote := ⟨.bridgePool, 1, 1000000000000, 19999, 0, 100, 1999998⟩

/-- Either pool could take the whole amount; the plan takes the one that gives half as much. -/
theorem cheapest_gives_less : ¬ ∀ quotes amountIn referencePrice slip plan,
    (∀ q ∈ quotes, ∃ kind sourceId reserveIn reserveOut feeBps maxSlippageBps,
      quoteFromPoolReserves kind sourceId amountIn reserveIn reserveOut feeBps maxSlippageBps = .ok q) →
    planMultiSourceRoute quotes amountIn referencePrice slip = .ok plan →
    KeepsTolerance amountIn referencePrice slip (roundingLoss amountIn plan) plan := by
  intro h
  have hplan : planMultiSourceRoute [evenPool, doublePool] 1000000 19999 1000 = .ok
      ⟨1000000, 899910, 8999, 0, 0, [⟨.bridgePool, 0, 1000000, 899910, 9999, 0, 1⟩]⟩ := by decide +kernel
  have hpools : ∀ q ∈ [evenPool, doublePool], ∃ kind sourceId reserveIn reserveOut feeBps maxSlippageBps,
      quoteFromPoolReserves kind sourceId 1000000 reserveIn reserveOut feeBps maxSlippageBps = .ok q := by
    rw [forall_mem_cons, forall_mem_singleton]
    exact ⟨⟨.bridgePool, 0, 1000000000000, 1000000000000, 0, 100, rfl⟩,
      ⟨.bridgePool, 1, 1000000000000, 2000000000000, 0, 100, rfl⟩⟩
  exact absurd (h _ _ _ _ _ hpools hplan) (by unfold KeepsTolerance; decide +kernel)

/-- Neither pool has enough for the whole amount. -/
def partPools : List AmmQuote :=
  [⟨.bridgePool, 0, 600000, 10000, 30, 100, 0⟩, ⟨.bridgePool, 1, 400000, 20000, 30, 100, 0⟩]

/-- The amount is split over both. -/
def splitPlan : AmmRoutePlan :=
  ⟨1000000, 1260000, 12600, 4200, 0,
    [⟨.bridgePool, 0, 600000, 540000, 10000, 1800, 100⟩, ⟨.bridgePool, 1, 400000, 720000, 20000, 2400, 100⟩]⟩

/-- The plan of both quotes follows the loop and takes all of the amount. -/
theorem splitPlan_takes : RouteLoop partPools 1000 1000000 [] (.ok splitPlan.segments) ∧
    Allocates partPools 1000000 splitPlan.segments ∧
    ∃ choices, Route partPools 1000 1000000 [] choices ∧ splitPlan.segments = choices.map Prod.snd ∧
      (BestPriced partPools 1000 1000000 [] choices ↔ CheapestIsBest 1000 1000000 (partPools.map Venue.full)) ∧
      (∀ q rest fee, partPools = q :: rest →
        (∀ x ∈ partPools, (Venue.full x).Covers 1000 1000000 ∧ x.feeBps = fee) →
        (BestPriced partPools 1000 1000000 [] choices ↔
          ∀ x ∈ rest, x.spotPrice ≤ q.spotPrice ∧ costOf 1000000 x = costOf 1000000 q)) ∧
      (KeepsTolerance 1000000 14000 1000 0 splitPlan → PaysReference partPools 1000000 14000 1000) ∧
      (PaysReference partPools 1000000 14000 1000 →
        KeepsTolerance 1000000 14000 1000 (roundingLoss 1000000 splitPlan) splitPlan) :=
  (plan_iff partPools 1000000 14000 1000).2 splitPlan (by decide +kernel)

end Sample

end CallStake.AmmBridge
