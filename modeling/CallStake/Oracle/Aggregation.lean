import CallStake.Oracle.Breaker

/-!
# The aggregated price

A price that is read with a minimum number of sources should come from that many different sources with a fresh
quote, be a median of the fresh quotes, and these should not disagree by more than 10%.

* `Backed`: the property, of a price that was read.
* `Sample.one_source_counts_twice`: the contract does not have it. It counts quotes and not sources, and a source
  may have several fresh ones; and it rounds the disagreement down to whole percents.
* `Sole`: a source does not submit while it has a fresh quote. `Apart`: no two fresh quotes disagree by more than
  10% and less than 11%.
* `backed_iff_apart`: after a run in which sources submit so, a price that is read is backed exactly if the quotes
  are apart.
-/

namespace CallStake.Oracle

open Tx List

/-! ## The property -/

/-- There are that many different sources with a fresh quote. -/
def Independent (w : World) (pair : AssetPair) (m : Nat) : Prop :=
  ∃ sources : List Address, sources.Nodup ∧ m ≤ sources.length ∧ ∀ a ∈ sources, ∃ q ∈ w.freshQuotes pair, q.source = a

/-- The price of a fresh quote, with at least half of them on either side. -/
def IsMedian (w : World) (pair : AssetPair) (p : Int) : Prop :=
  (∃ q ∈ w.freshQuotes pair, q.price = p) ∧
    (w.freshQuotes pair).length ≤ 2 * (w.freshQuotes pair).countP (·.price ≤ p) ∧
    (w.freshQuotes pair).length ≤ 2 * (w.freshQuotes pair).countP (p ≤ ·.price)

/-- No two fresh quotes disagree by more than 10%. -/
def Agree (w : World) (pair : AssetPair) : Prop :=
  ∀ a ∈ w.freshQuotes pair, ∀ b ∈ w.freshQuotes pair, a.price ≤ b.price → b.price * 100 ≤ a.price * 110

structure Backed (w : World) (pair : AssetPair) (p : Int) : Prop where
  independent : Independent w pair w.store.settings.minSourceCount
  median : IsMedian w pair p
  agree : Agree w pair

/-! ## The condition -/

/-- The source has no fresh quote for the pair. -/
def Sole (w : World) : Event → Prop
  | .call _ (.submitPairPrice source pair _ _) => ∀ q ∈ w.freshQuotes pair, q.source ≠ source
  | _ => True

/-- No two fresh quotes disagree by more than 10% and less than 11%. -/
def Apart (w : World) (pair : AssetPair) : Prop :=
  ∀ a ∈ w.freshQuotes pair, ∀ b ∈ w.freshQuotes pair, a.price * 110 < b.price * 100 → a.price * 111 ≤ b.price * 100

/-! ## Reading a price -/

section Read

variable {w w' : World} {pair : AssetPair} {contract : Address} {p : Int} {c : Nat}

theorem checkSpread_ok {lo hi : Int} {u : Unit} (h : checkSpread lo hi w = (.ok u, w')) :
    ((hi - lo) * 100).tdiv lo ≤ 10 := by
  rw [checkSpread, bind_plain_ok, bind_plain_ok, bind_div_ok, failIf_ok] at h
  omega

/-- A median that was returned, with the first and the last quote. -/
theorem median_ok {sorted : List PriceData} (h : median sorted w = (.ok (p, c), w')) :
    ∃ (hlen : 0 < sorted.length), (sorted[sorted.length / 2]).price = p ∧
      (((sorted[sorted.length - 1]).price - (sorted[0]).price) * 100).tdiv (sorted[0]).price ≤ 10 := by
  rw [median, bind_ofOption_ok] at h
  obtain ⟨m, hm, h⟩ := h
  obtain ⟨hlt, rfl⟩ := List.getElem?_eq_some_iff.mp hm
  have hlen : 0 < sorted.length := by omega
  rw [List.getElem?_eq_getElem hlen, List.getElem?_eq_getElem (by omega : sorted.length - 1 < sorted.length),
    bind_ofOption_ok] at h
  obtain ⟨_, ⟨⟩, h⟩ := h
  rw [bind_ofOption_ok] at h
  obtain ⟨_, ⟨⟩, h⟩ := h
  rw [bind_ok] at h
  obtain ⟨_, w₁, hspread, h⟩ := h
  obtain ⟨⟨⟩, -⟩ := Tx.pure_ok.mp h
  exact ⟨hlen, rfl, checkSpread_ok hspread⟩

theorem readQuotes_ok {l : List PriceData} (hquotes : w.store.quotes pair ≠ [])
    (h : readQuotes contract pair w = (.ok l, w')) : l = w.store.quotes pair ∧ w' = w := by
  rw [readQuotes, bind_load_ok, bind_load_ok, if_neg hquotes, pure_ok] at h
  exact ⟨h.1.symm, h.2.symm⟩

/-- A price that was read from quotes. -/
theorem getPriceWithConfidence_ok (hquotes : w.store.quotes pair ≠ [])
    (h : getPriceWithConfidence contract pair w = (.ok (p, c), w')) :
    ¬ (0 < w.store.settings.minSourceCount ∧
        (w.freshQuotes pair).length < w.store.settings.minSourceCount) ∧
      median (bubbleSort PriceData.price (w.freshQuotes pair)) w = (.ok (p, c), w') := by
  rw [getPriceWithConfidence, guardTripped, bind_assoc_eq, bind_load_ok, bind_failIf_ok, bind_ok] at h
  obtain ⟨-, l, w₁, hread, h⟩ := h
  obtain ⟨rfl, rfl⟩ := readQuotes_ok hquotes hread
  rw [bind_timestamp_ok, bind_load_ok, bind_failIf_ok, bind_load_ok, bind_failIf_ok] at h
  exact h.2

/-- Up to rounding, all fresh quotes are within the spread that was checked. -/
theorem spread_of_median {l : List PriceData} (hpos : ∀ q ∈ l, 0 < q.price)
    (h : median (bubbleSort PriceData.price l) w = (.ok (p, c), w')) :
    ∀ a ∈ l, ∀ b ∈ l, b.price * 100 < a.price * 111 := by
  obtain ⟨hlen, -, hspread⟩ := median_ok h
  have hsorted : (bubbleSort PriceData.price l).Pairwise (·.price ≤ ·.price) := bubbleSort_sorted l
  generalize hs : bubbleSort PriceData.price l = sorted at *
  have hmem : ∀ q, q ∈ sorted ↔ q ∈ l := fun q => by rw [← hs, mem_bubbleSort]
  have hlo : 0 < (sorted[0]).price := hpos _ ((hmem _).mp (getElem_mem hlen))
  -- every quote is between the first and the last
  have hrange : ∀ q ∈ l, (sorted[0]).price ≤ q.price ∧ q.price ≤ (sorted[sorted.length - 1]).price := by
    intro q hq
    obtain ⟨i, hi, rfl⟩ := getElem_of_mem ((hmem q).mpr hq)
    have hpair := List.pairwise_iff_getElem.mp hsorted
    constructor
    · rcases Nat.eq_zero_or_pos i with rfl | hpos
      · exact le_rfl
      · exact hpair 0 i hlen hi hpos
    · rcases Nat.lt_or_ge i (sorted.length - 1) with hlt | hge
      · exact hpair i (sorted.length - 1) hi (by omega) hlt
      · obtain rfl : i = sorted.length - 1 := by omega
        exact le_rfl
  have hle := (hrange _ ((hmem _).mp (getElem_mem hlen))).2
  rw [Int.tdiv_eq_ediv_of_nonneg (by omega)] at hspread
  have hlt := Int.lt_mul_of_ediv_lt hlo (Int.lt_add_one_of_le hspread)
  intro a ha b hb
  have := hrange a ha
  have := hrange b hb
  omega

theorem isMedian_of_median (h : median (bubbleSort PriceData.price (w.freshQuotes pair)) w = (.ok (p, c), w')) :
    IsMedian w pair p := by
  obtain ⟨hlen, hp, -⟩ := median_ok h
  have hsorted : (bubbleSort PriceData.price (w.freshQuotes pair)).Pairwise (·.price ≤ ·.price) := bubbleSort_sorted _
  have hperm : (bubbleSort PriceData.price (w.freshQuotes pair)).Perm (w.freshQuotes pair) := bubbleSort_perm _
  have hrank := Nat.div_lt_self hlen Nat.one_lt_two
  have hlow := countP_le_of_sorted hsorted hrank
  have hhigh := countP_ge_of_sorted hsorted hrank
  have hmem := mem_bubbleSort.mp (getElem_mem hrank)
  rw [hp, hperm.countP_eq, hperm.length_eq] at hlow hhigh
  exact ⟨⟨_, hmem, hp⟩, by omega, by omega⟩

end Read

/-! ## Runs -/

section Runs

variable {w w' : World} {ev : Event}

/-- The quotes of a pair have positive prices and different sources. -/
structure Proper (l : List PriceData) : Prop where
  positive : ∀ q ∈ l, 0 < q.price
  sources : (l.map (·.source)).Nodup

theorem Proper.filter {l : List PriceData} (h : Proper l) (f : PriceData → Bool) : Proper (l.filter f) where
  positive q hq := h.positive q (List.mem_filter.mp hq).1
  sources := h.sources.sublist (List.filter_sublist.map _)

theorem Proper.append {l : List PriceData} (h : Proper l) {q : PriceData} (hq : 0 < q.price)
    (hsole : ∀ p ∈ l, p.source ≠ q.source) : Proper (l ++ [q]) where
  positive p hp := by
    rcases List.mem_append.mp hp with hp | hp
    · exact h.positive p hp
    · rwa [List.mem_singleton.mp hp]
  sources := by
    rw [map_append, nodup_append]
    refine ⟨h.sources, nodup_singleton _, ?_⟩
    intro a ha b hb
    obtain ⟨p, hp, rfl⟩ := List.mem_map.mp ha
    rw [map_singleton, mem_singleton] at hb
    rw [hb]
    exact hsole p hp

/-- All stored quotes are proper. -/
def ProperQuotes (w : World) : Prop := w.store.prices.quotes.All Proper

/-- The quotes are the same. -/
def SameQuotes (a b : World) : Prop := b.store.prices.quotes = a.store.prices.quotes

instance : IsPreorder World SameQuotes where
  refl _ := rfl
  trans _ _ _ h h' := h'.trans h

-- the proofs that instance resolution builds grow with the length of a computation
set_option synthInstance.maxSize 1000000000

instance : KeepsFeeds SameQuotes := by constructor <;> exact fun _ => ⟨fun _ => rfl⟩

instance : KeepsBreaker SameQuotes := by constructor <;> exact fun _ => ⟨fun _ => rfl⟩

instance (pair : AssetPair) (price : Int) : Tx.Within SameQuotes (setFeed pair price) := ⟨fun _ => rfl⟩

instance (f : Access → Access) : Tx.Within SameQuotes (setAccess f) := ⟨fun _ => rfl⟩

instance (pair : AssetPair) : Tx.Within SameQuotes (trip pair) := ⟨fun _ => rfl⟩

/-- Only a submission changes the quotes. -/
theorem sameQuotes_of_call (env : Env) (c : Call) (w : World)
    (hsubmit : ∀ source pair price confidence, c ≠ .submitPairPrice source pair price confidence) :
    SameQuotes w ((invoke env c).exec w) := by
  have hkept := (invoke_within env c).exec w
  cases c with
  | submitPairPrice source pair price confidence => exact absurd rfl (hsubmit source pair price confidence)
  | setPrice | updateWithExternalData | initializeOracle | setBaseCurrency | addPair | setFeedDecimals =>
    refine Tx.Within.exec ?_ w
    simp only [invoke, initializeOracle, setBaseCurrency, addPair, setFeedDecimals]
    infer_instance
  | _ => exact congrArg Prices.quotes (hkept.prices (by simp [Call.writes]))

theorem ProperQuotes.fresh (h : ProperQuotes w) (pair : AssetPair) : Proper (w.freshQuotes pair) := by
  unfold World.freshQuotes Storage.quotes
  cases hl : w.store.prices.quotes.lookup pair with
  | none => exact ⟨by simp, by simp⟩
  | some l => exact (h pair l hl).filter _

theorem ProperQuotes.step (h : ProperQuotes w) (hsole : Sole w ev) (hs : Step w ev w') : ProperQuotes w' := by
  obtain ⟨-, rfl⟩ := hs
  cases ev with
  | advance => exact h
  | expire => exact Store.All.erase h
  | call env c =>
    by_cases hsubmit : ∃ source pair price confidence, c = .submitPairPrice source pair price confidence
    · obtain ⟨source, pair, price, confidence, rfl⟩ := hsubmit
      rw [next]
      rcases exec_cases (invoke env (.submitPairPrice source pair price confidence)) w with ⟨u, hok⟩ | hsame
      · obtain ⟨-, hprice, -, hw⟩ := submitPairPrice_ok hok
        rw [hw]
        exact Store.All.insert h ((h.fresh pair).append hprice hsole)
      · rw [hsame]
        exact h
    · push Not at hsubmit
      have hsame := sameQuotes_of_call env c w hsubmit
      rw [SameQuotes] at hsame
      rw [ProperQuotes, next, hsame]
      exact h

end Runs

/-- After a run in which no source submits while it has a fresh quote, a price that is read from quotes is backed
exactly if the quotes are apart. -/
theorem backed_iff_apart {ledger : Ledger} {w w' : World} {contract : Address} {pair : AssetPair} {p : Int}
    {c : Nat} (h : Reaches (fun a ev b => Sole a ev ∧ Step a ev b) (.deployed ledger) w)
    (hmin : 0 < w.store.settings.minSourceCount) (hquotes : w.store.quotes pair ≠ [])
    (hread : getPriceWithConfidence contract pair w = (.ok (p, c), w')) :
    Backed w pair p ↔ Apart w pair := by
  have hproper : ProperQuotes w :=
    h.invariant (I := ProperQuotes) (Store.all_empty _) fun _ _ _ hi hs => hi.step hs.1 hs.2
  have hfresh := hproper.fresh pair
  obtain ⟨hcount, hmedian⟩ := getPriceWithConfidence_ok hquotes hread
  have hspread := spread_of_median hfresh.positive hmedian
  constructor
  · intro hbacked a ha b hb hlt
    have hpos := hfresh.positive a ha
    have := hbacked.agree a ha b hb (by omega)
    omega
  · intro hapart
    refine ⟨⟨(w.freshQuotes pair).map (·.source), hfresh.sources, ?_, ?_⟩, isMedian_of_median hmedian, ?_⟩
    · rw [length_map]
      omega
    · intro a ha
      obtain ⟨q, hq, rfl⟩ := List.mem_map.mp ha
      exact ⟨q, hq, rfl⟩
    · intro a ha b hb _
      have := hspread a ha b hb
      have := hapart a ha b hb
      omega

namespace Sample

def alice : Address := ⟨5⟩
def bob : Address := ⟨6⟩

/-- Two sources, both of which are needed. -/
def sources : List Event :=
  [.call (signedBy admin) (.initializeOracle admin xlm), .call (signedBy admin) (.setMinSourceCount admin 2),
    .call (signedBy admin) (.addPriceSource admin alice 1), .call (signedBy admin) (.addPriceSource admin bob 1)]

def quote (source : Address) (price : Int) : Event := .call (signedBy source) (.submitPairPrice source pair price 90)

/-- The state after the quotes. -/
def quoted (quotes : List Event) : World := (sources ++ quotes).foldl next (.deployed ⟨1000, 10⟩)

/-- What a run of the contract gives when it reads the price. -/
def price (w : World) : Option (Int × Nat) := (getPriceWithConfidence contract pair w).1.toOption

/-- Two sources that differ by 5% back their median. -/
theorem two_sources_back : Backed (quoted [quote alice 1000, quote bob 1050]) pair 1050 := by
  have hrun : Reaches (fun a ev b => Sole a ev ∧ Step a ev b) (.deployed ⟨1000, 10⟩)
      (quoted [quote alice 1000, quote bob 1050]) := by
    refine Reaches.of_along_and ?_
    simp [sources, quote, Reaches.Along, Sole]
    decide +kernel
  have hread : getPriceWithConfidence contract pair (quoted [quote alice 1000, quote bob 1050]) =
      (.ok (1050, 90), quoted [quote alice 1000, quote bob 1050]) := rfl
  refine (backed_iff_apart hrun (by decide +kernel) (by decide +kernel) hread).mpr ?_
  unfold Apart
  decide +kernel

/-- The same source twice is enough for two sources, and quotes that differ by 10.9% are enough for 10%. -/
theorem one_source_counts_twice :
    (¬ ∀ ledger w, Reaches Step (.deployed ledger) w → ∀ pair p c,
      0 < w.store.settings.minSourceCount → w.store.quotes pair ≠ [] →
      (getPriceWithConfidence contract pair w).1 = .ok (p, c) → Backed w pair p) ∧
    price (quoted [quote alice 1000, quote alice 1000]) = some (1000, 90) ∧
    ¬ Independent (quoted [quote alice 1000, quote alice 1000]) pair 2 ∧
    price (quoted [quote alice 1000, quote bob 1109]) = some (1109, 90) ∧
    ¬ Agree (quoted [quote alice 1000, quote bob 1109]) pair := by
  have halone : ¬ Independent (quoted [quote alice 1000, quote alice 1000]) pair 2 := by
    rintro ⟨l, hnodup, hlen, hall⟩
    -- all quotes are of the same source
    have hsource : ∀ q ∈ (quoted [quote alice 1000, quote alice 1000]).freshQuotes pair, q.source = alice := by
      decide +kernel
    have hsub : l ⊆ [alice] := fun a ha => by
      obtain ⟨q, hq, rfl⟩ := hall a ha
      exact List.mem_singleton.mpr (hsource q hq)
    have hle := (hnodup.subperm hsub).length_le
    rw [length_singleton] at hle
    omega
  refine ⟨fun h => ?_, by decide +kernel, halone, by decide +kernel, fun h => ?_⟩
  · have hrun : Reaches Step (.deployed ⟨1000, 10⟩) (quoted [quote alice 1000, quote alice 1000]) :=
      Reaches.of_along (by decide +kernel : Reaches.Along next Allowed _ _)
    have hbacked := h _ _ hrun pair 1000 90 (by decide +kernel) (by decide +kernel) rfl
    exact halone hbacked.independent
  · unfold Agree at h
    exact absurd h (by decide +kernel)

end Sample

end CallStake.Oracle
