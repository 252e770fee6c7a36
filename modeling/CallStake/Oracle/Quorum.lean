import CallStake.Lib.Sorting
import CallStake.Oracle.Types
import Mathlib.Algebra.Order.Group.Abs
import Mathlib.Data.List.GetD

/-!
# Quorum of observations (`oracle::quorum`)

A price counts only if enough authorized providers have observed it, and none of them is far from the median.

* `accepted`: the first observation of each authorized provider. `Agrees`: what the check is for.
* `validateQuorum_eq`: what it returns for positive prices. `Saturates`: the larger product of the comparison is at
  its bound although a price is too far away.
* `quorum_exact_iff`: when the check is exact; it depends on the prices that are accepted only, and not on their
  order.
-/

namespace CallStake.Oracle

open List

def DEFAULT_MIN_QUORUM : Nat := 3

def DEFAULT_MAX_DEVIATION_BPS : Int := 1000

/-- A price that a provider reports. -/
structure Observation where
  provider : Address
  price : Int

/-- How many must agree, and how closely. -/
structure QuorumConfig where
  minQuorum : Nat := DEFAULT_MIN_QUORUM
  maxDeviationBps : Int := DEFAULT_MAX_DEVIATION_BPS

abbrev QuorumResult := Except (Fault OracleError)

/-- The first loop, with the providers and the prices it has collected. -/
def collectPrices (authorized : List Address) :
    List Address → List Int → List Observation → QuorumResult (List Int)
  | _, prices, [] => .ok prices
  | seen, prices, obs :: rest =>
    if obs.price ≤ 0 then .error (.err .invalidPrice)
    else if obs.provider ∉ authorized then collectPrices authorized seen prices rest
    else if obs.provider ∈ seen then collectPrices authorized seen prices rest
    else collectPrices authorized (seen ++ [obs.provider]) (prices ++ [obs.price]) rest

def getUnchecked (l : List Int) (i : Nat) : QuorumResult Int :=
  match l[i]? with
  | some x => .ok x
  | none => .error .panic

/-- `mid - 1` traps without prices. -/
def medianOf (prices : List Int) : QuorumResult Int :=
  let sorted := swapInsertionSort prices
  let mid := prices.length / 2
  if prices.length % 2 = 1 then getUnchecked sorted mid
  else if mid = 0 then .error .panic
  else do
    let low ← getUnchecked sorted (mid - 1)
    let high ← getUnchecked sorted mid
    let sum ← fits .panic (low + high)
    return sum.tdiv 2

/-- The second loop. -/
def checkDeviations (config : QuorumConfig) (median : Int) : List Int → QuorumResult Unit
  | [] => .ok ()
  | price :: rest => do
    let diff ← fits .panic (price - median)
    let diff ← fits .panic |diff|
    if clamp (median * config.maxDeviationBps) < clamp (diff * 10000) then .error (.err .unreliablePrice)
    else checkDeviations config median rest

/-- What follows the first loop. -/
def agreedPrice (config : QuorumConfig) (prices : List Int) : QuorumResult Int :=
  if prices.length < config.minQuorum then .error (.err .insufficientOracles)
  else do
    let median ← medianOf prices
    checkDeviations config median prices
    return median

/-- The prices that count, their median, and the comparison with it, whose products saturate. Plain arithmetic
traps on overflow. -/
def validateQuorum (observations : List Observation) (authorized : List Address) (config : QuorumConfig) :
    QuorumResult Int := do
  let prices ← collectPrices authorized [] [] observations
  agreedPrice config prices

/-! ## What the check is for -/

/-- The prices of the first observation of each authorized provider. -/
def accepted (authorized : List Address) (observations : List Observation) : List Int :=
  (firstBy Observation.provider (observations.filter (·.provider ∈ authorized))).map Observation.price

/-- There are enough prices, `median` is theirs, and none is further from it than allowed. -/
structure Agrees (config : QuorumConfig) (prices : List Int) (median : Int) : Prop where
  quorum : config.minQuorum ≤ prices.length
  median_eq : median = middleValue prices
  deviation : ∀ p ∈ prices, |p - median| * 10000 ≤ median * config.maxDeviationBps

/-- A price is too far from the median, but the bound it is compared with saturates. -/
def Saturates (config : QuorumConfig) (prices : List Int) : Prop :=
  config.minQuorum ≤ prices.length ∧ i128Max ≤ middleValue prices * config.maxDeviationBps ∧
  ∃ p ∈ prices, middleValue prices * config.maxDeviationBps < |p - middleValue prices| * 10000

/-- Observations of positive prices of 128 bits. -/
def Positive (observations : List Observation) : Prop :=
  ∀ obs ∈ observations, 0 < obs.price ∧ obs.price ≤ i128Max
  deriving Decidable

/-- No two prices have a sum that is too large. -/
def SumsFit (observations : List Observation) : Prop :=
  observations.Pairwise fun a b => a.price + b.price ≤ i128Max
  deriving Decidable

/-! ## The loops -/

section Loops

variable {authorized seen : List Address} {observations : List Observation} {config : QuorumConfig}
  {prices prices' : List Int} {median : Int}

theorem collectPrices_eq (hpos : Positive observations) : collectPrices authorized seen prices observations =
    .ok (prices ++ ((firstBy Observation.provider (observations.filter (·.provider ∈ authorized))).filter
      fun obs => obs.provider ∉ seen).map Observation.price) := by
  induction observations generalizing seen prices with
  | nil => simp [collectPrices, firstBy]
  | cons obs rest ih =>
    obtain ⟨hobs, hrest⟩ := List.forall_mem_cons.mp hpos
    rw [collectPrices, if_neg (not_le.mpr hobs.1)]
    by_cases hauthorized : obs.provider ∈ authorized
    · rw [if_neg (not_not.mpr hauthorized), filter_cons_of_pos (by simpa using hauthorized),
        filter_firstBy_cons]
      split
      · exact ih hrest
      · rw [ih hrest, map_cons, append_assoc, singleton_append]
    · rw [if_pos hauthorized, filter_cons_of_neg (by simpa using hauthorized)]
      exact ih hrest

/-- Only the prices that are accepted matter. -/
theorem validateQuorum_accepted (hpos : Positive observations) :
    validateQuorum observations authorized config = agreedPrice config (accepted authorized observations) := by
  rw [validateQuorum, collectPrices_eq hpos, accepted]
  simp [bind, Except.bind]

theorem accepted_sublist (authorized : List Address) (observations : List Observation) :
    ∃ kept : List Observation, kept.Sublist observations ∧
    accepted authorized observations = kept.map Observation.price :=
  ⟨_, (firstBy_sublist _ _).trans filter_sublist, rfl⟩

theorem accepted_pos (hpos : Positive observations) :
    ∀ p ∈ accepted authorized observations, 0 < p ∧ p ≤ i128Max := by
  obtain ⟨kept, hkept, haccepted⟩ := accepted_sublist authorized observations
  intro p hp
  rw [haccepted] at hp
  obtain ⟨obs, hobs, rfl⟩ := List.mem_map.mp hp
  exact hpos obs (hkept.subset hobs)

theorem accepted_sums (hsums : SumsFit observations) :
    (accepted authorized observations).Pairwise fun a b => a + b ≤ i128Max := by
  obtain ⟨kept, hkept, haccepted⟩ := accepted_sublist authorized observations
  rw [haccepted, pairwise_map]
  exact hsums.sublist hkept

theorem getUnchecked_eq {l : List Int} {i : Nat} (h : i < l.length) : getUnchecked l i = .ok (l.getD i 0) := by
  unfold getUnchecked
  rw [List.getElem?_eq_getElem h, getD_eq_getElem l 0 h]

/-- The median of the prices, where they are not too large to be added. -/
theorem medianOf_eq (hne : prices ≠ []) (hpos : ∀ p ∈ prices, 0 < p ∧ p ≤ i128Max)
    (hsums : prices.Pairwise fun a b => a + b ≤ i128Max) :
    medianOf prices = .ok (middleValue prices) ∧ 0 < middleValue prices ∧ middleValue prices ≤ i128Max := by
  have hlen : 0 < prices.length := List.length_pos_iff.mpr hne
  have hperm := swapInsertionSort_perm prices
  have hsorted := (hperm.pairwise_iff (fun {a b} (h : a + b ≤ i128Max) => by omega)).mpr hsums
  have hpos' (i) (hi : i < (swapInsertionSort prices).length) : 0 < (swapInsertionSort prices).getD i 0 ∧
      (swapInsertionSort prices).getD i 0 ≤ i128Max := by
    rw [getD_eq_getElem _ 0 hi]
    exact hpos _ (hperm.mem_iff.mp (getElem_mem hi))
  have hlength := hperm.length_eq
  rw [medianOf, middleValue, ← swapInsertionSort_eq]
  generalize swapInsertionSort prices = sorted at *
  by_cases hodd : prices.length % 2 = 1
  · rw [if_pos hodd, if_pos hodd]
    exact ⟨getUnchecked_eq (by omega), hpos' _ (by omega)⟩
  · rw [if_neg hodd, if_neg hodd, if_neg (by omega), getUnchecked_eq (by omega), getUnchecked_eq (by omega)]
    have hlow := hpos' (prices.length / 2 - 1) (by omega)
    have hhigh := hpos' (prices.length / 2) (by omega)
    have hsum := List.pairwise_iff_getElem.mp hsorted (prices.length / 2 - 1) (prices.length / 2) (by omega)
      (by omega) (by omega)
    rw [← getD_eq_getElem _ 0, ← getD_eq_getElem _ 0] at hsum
    generalize sorted.getD (prices.length / 2 - 1) 0 = low at *
    generalize sorted.getD (prices.length / 2) 0 = high at *
    refine ⟨?_, by omega, by omega⟩
    refine except_bind_ok.mpr ⟨low, rfl, except_bind_ok.mpr ⟨high, rfl, except_bind_ok.mpr ⟨low + high,
      fits_ok.mpr ⟨⟨by unfold i128Min; omega, hsum⟩, rfl⟩, ?_⟩⟩⟩
    exact congrArg Except.ok (Int.tdiv_eq_ediv_of_nonneg (by omega))

/-- Both products saturate; so the comparison is exact unless the larger one is at its bound. -/
theorem checkDeviations_eq (hdev : 0 ≤ config.maxDeviationBps) (hmedian : 0 < median ∧ median ≤ i128Max)
    (hpos : ∀ p ∈ prices, 0 < p ∧ p ≤ i128Max) : checkDeviations config median prices =
    if ∀ p ∈ prices, |p - median| * 10000 ≤ median * config.maxDeviationBps ∨
        i128Max ≤ median * config.maxDeviationBps then .ok ()
    else .error (.err .unreliablePrice) := by
  induction prices with
  | nil => simp [checkDeviations]
  | cons p prices ih =>
    obtain ⟨hp, hprices⟩ := List.forall_mem_cons.mp hpos
    have hdiff : InRange (p - median) := ⟨by unfold i128Min; unfold i128Max at *; omega, by omega⟩
    have habs : |p - median| ≤ i128Max := abs_le.mpr ⟨by omega, by omega⟩
    have hfits : InRange |p - median| := ⟨by have := abs_nonneg (p - median); unfold i128Min; omega, habs⟩
    have hexact := clamp_le_clamp (x := |p - median| * 10000) (y := median * config.maxDeviationBps)
      (Int.mul_nonneg (abs_nonneg _) (by decide)) (Int.mul_nonneg hmedian.1.le hdev)
    have hstep : checkDeviations config median (p :: prices) =
        if clamp (median * config.maxDeviationBps) < clamp (|p - median| * 10000)
        then .error (.err .unreliablePrice) else checkDeviations config median prices := by
      rw [checkDeviations, fits_eq hdiff, except_ok_bind, fits_eq hfits, except_ok_bind]
    rw [hstep, ih hprices]
    simp only [forall_mem_cons]
    by_cases hle : |p - median| * 10000 ≤ median * config.maxDeviationBps ∨ i128Max ≤ median * config.maxDeviationBps
    · rw [if_neg (not_lt.mpr (hexact.mpr hle))]
      simp [hle]
    · rw [if_pos (not_le.mp fun h => hle (hexact.mp h)), if_neg fun h => hle h.1]

/-- What is returned for positive prices that can be added. -/
theorem agreedPrice_eq (hquorum : 1 ≤ config.minQuorum) (hdev : 0 ≤ config.maxDeviationBps)
    (hpos : ∀ p ∈ prices, 0 < p ∧ p ≤ i128Max) (hsums : prices.Pairwise fun a b => a + b ≤ i128Max) :
    agreedPrice config prices =
      if prices.length < config.minQuorum then .error (.err .insufficientOracles)
      else if ∀ p ∈ prices, |p - middleValue prices| * 10000 ≤ middleValue prices * config.maxDeviationBps ∨
          i128Max ≤ middleValue prices * config.maxDeviationBps then .ok (middleValue prices)
      else .error (.err .unreliablePrice) := by
  unfold agreedPrice
  by_cases hfew : prices.length < config.minQuorum
  · rw [if_pos hfew, if_pos hfew]
  · have hne : prices ≠ [] := by
      rintro rfl
      rw [length_nil] at hfew
      omega
    obtain ⟨hmedian, hrange⟩ := medianOf_eq hne hpos hsums
    rw [if_neg hfew, if_neg hfew, hmedian, except_ok_bind, checkDeviations_eq hdev hrange hpos]
    split <;> rfl

theorem agreedPrice_perm (hquorum : 1 ≤ config.minQuorum) (hdev : 0 ≤ config.maxDeviationBps)
    (hpos : ∀ p ∈ prices, 0 < p ∧ p ≤ i128Max) (hsums : prices.Pairwise fun a b => a + b ≤ i128Max)
    (h : prices'.Perm prices) : agreedPrice config prices' = agreedPrice config prices := by
  have hpos' : ∀ p ∈ prices', 0 < p ∧ p ≤ i128Max := fun p hp => hpos p (h.mem_iff.mp hp)
  have hsums' := (h.pairwise_iff (fun {a b} (h : a + b ≤ i128Max) => by omega)).mpr hsums
  rw [agreedPrice_eq hquorum hdev hpos' hsums', agreedPrice_eq hquorum hdev hpos hsums, middleValue_perm h,
    h.length_eq]
  simp only [h.mem_iff]

/-- The check is exact unless the bound saturates while a price is too far away. -/
theorem agreedPrice_exact_iff (hquorum : 1 ≤ config.minQuorum) (hdev : 0 ≤ config.maxDeviationBps)
    (hpos : ∀ p ∈ prices, 0 < p ∧ p ≤ i128Max) (hsums : prices.Pairwise fun a b => a + b ≤ i128Max) :
    (∀ m, agreedPrice config prices = .ok m ↔ Agrees config prices m) ↔ ¬ Saturates config prices := by
  rw [agreedPrice_eq hquorum hdev hpos hsums]
  constructor
  · rintro hexact ⟨henough, hmax, p, hp, hfar⟩
    rw [if_neg (not_lt.mpr henough), if_pos fun _ _ => .inr hmax] at hexact
    have hagrees := (hexact (middleValue prices)).mp rfl
    exact absurd (hagrees.deviation p hp) (not_le.mpr hfar)
  · intro hfine m
    constructor
    · intro h
      split at h
      · cases h
      · rename_i henough
        split at h
        · rename_i htolerated
          cases h
          refine ⟨not_lt.mp henough, rfl, fun p hp => ?_⟩
          by_contra hfar
          exact hfine ⟨not_lt.mp henough, (htolerated p hp).resolve_left hfar, p, hp, not_le.mp hfar⟩
        · cases h
    · rintro ⟨henough, rfl, hdeviation⟩
      rw [if_neg (not_lt.mpr henough), if_pos fun p hp => .inl (hdeviation p hp)]

/-- The quorum is validated exactly unless the bound saturates while an accepted price is too far from the median.
With one observation from each provider their order does not matter, and neither do those that are not
authorized. -/
theorem quorum_exact_iff (hpos : Positive observations) (hsums : SumsFit observations)
    (hdev : 0 ≤ config.maxDeviationBps) (hquorum : 1 ≤ config.minQuorum) :
    ((∀ m, validateQuorum observations authorized config = .ok m ↔
      Agrees config (accepted authorized observations) m) ↔ ¬ Saturates config (accepted authorized observations)) ∧
    ((observations.map Observation.provider).Nodup → ∀ observations', observations'.Perm observations →
      validateQuorum observations' authorized config = validateQuorum observations authorized config) ∧
    ∀ observations', Positive observations' →
      observations'.filter (·.provider ∈ authorized) = observations.filter (·.provider ∈ authorized) →
      validateQuorum observations' authorized config = validateQuorum observations authorized config := by
  rw [validateQuorum_accepted hpos]
  refine ⟨agreedPrice_exact_iff hquorum hdev (accepted_pos hpos) (accepted_sums hsums), ?_, ?_⟩
  · intro hnodup observations' hperm
    have hpos' : Positive observations' := fun obs hobs => hpos obs (hperm.mem_iff.mp hobs)
    rw [validateQuorum_accepted hpos']
    refine agreedPrice_perm hquorum hdev (accepted_pos hpos) (accepted_sums hsums) ?_
    have honce (l : List Observation) (hl : (l.map Observation.provider).Nodup) : accepted authorized l =
        (l.filter (·.provider ∈ authorized)).map Observation.price := by
      rw [accepted, firstBy_eq_self (hl.sublist (List.filter_sublist.map _))]
    rw [honce observations hnodup, honce observations' ((hperm.map _).nodup_iff.mpr hnodup)]
    exact (hperm.filter _).map _
  · intro observations' hpos' hsame
    rw [validateQuorum_accepted hpos', accepted, accepted, hsame]

end Loops

namespace Sample

def quorumProviders : List Address := [⟨1⟩, ⟨2⟩, ⟨3⟩]

/-- Two prices, and one that is 160 times as high. -/
def hugePrices : List Observation :=
  [⟨⟨1⟩, 1000000000000000000000000000000000000⟩, ⟨⟨2⟩, 1000000000000000000000000000000000000⟩,
    ⟨⟨3⟩, 160000000000000000000000000000000000000⟩]

/-- Both products saturate, so the comparison accepts every price. -/
theorem quorum_accepts_outlier : ¬ ∀ observations authorized config, Positive observations →
    SumsFit observations → 0 ≤ config.maxDeviationBps → 1 ≤ config.minQuorum → ∀ m,
      (validateQuorum observations authorized config = .ok m ↔
        Agrees config (accepted authorized observations) m) := by
  intro h
  have hresult : validateQuorum hugePrices quorumProviders {} = .ok 1000000000000000000000000000000000000 := by
    decide +kernel
  have hagrees := (h hugePrices quorumProviders {} (by decide) (by decide) (by decide) (by decide) _).mp hresult
  exact absurd (hagrees.deviation 160000000000000000000000000000000000000 (by decide +kernel)) (by decide +kernel)

/-- Three providers that agree, and one that is not authorized. -/
def closePrices : List Observation := [⟨⟨1⟩, 100⟩, ⟨⟨2⟩, 102⟩, ⟨⟨7⟩, 500⟩, ⟨⟨3⟩, 101⟩]

/-- The median of the three counts, in any order. -/
theorem quorum_of_close_prices :
    ((∀ m, validateQuorum closePrices quorumProviders {} = .ok m ↔
      Agrees {} (accepted quorumProviders closePrices) m) ↔ ¬ Saturates {} (accepted quorumProviders closePrices)) ∧
    ((closePrices.map Observation.provider).Nodup → ∀ observations', observations'.Perm closePrices →
      validateQuorum observations' quorumProviders {} = validateQuorum closePrices quorumProviders {}) ∧
    ∀ observations', Positive observations' →
      observations'.filter (·.provider ∈ quorumProviders) = closePrices.filter (·.provider ∈ quorumProviders) →
      validateQuorum observations' quorumProviders {} = validateQuorum closePrices quorumProviders {} :=
  quorum_exact_iff (by decide) (by decide) (by decide) (by decide)

end Sample

end CallStake.Oracle
