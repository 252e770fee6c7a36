import CallStake.FeeCollector.Shares
import Mathlib.Order.Interval.Finset.Nat

/-!
# Reports of earnings

A report adds up the buckets of a period of `n` days, from the day that is `n` days back to the current one,
so it covers `n + 1` days.

* `report_allTime`, `report_days`: what reports are in terms of the log.
* `reports_iff`: the total, the sum of the buckets and the report of all time are the same; reports `n` days
  apart share the day of the earlier one, and count each share once exactly if there was none on that day yet.
* `share_counted_twice`: two daily reports of one share.
-/

namespace CallStake.FeeCollector

open List

variable {τ : Type}

open Dated

/-! ## Reports -/

/-- The period a report covers. -/
inductive ReportPeriod where
  | daily
  | weekly
  | monthly
  | allTime

/-- What a provider has earned in a period. -/
structure EarningsReport where
  feeSharesEarned : Int
  stakeRewardsEarned : Int
  subscriptionFeesEarned : Int
  totalEarned : Int
  periodStart : Nat
  periodEnd : Nat

/-- The loop runs over the days from `startDay` to `endDay`, both included. -/
def sumFeeSharesDays (e : EarningsStorage) (provider : Address) (startDay endDay : Nat) : Int :=
  (List.range' startDay (endDay + 1 - startDay)).foldl
    (fun total day => saturatingAdd total (e.dailyShares provider day)) 0

/-- The first day of a report that is made `today`. -/
def ReportPeriod.startDay (e : EarningsStorage) (provider : Address) (today : Nat) : ReportPeriod → Nat
  | daily => today - 1
  | weekly => today - 7
  | monthly => today - 30
  | allTime => (e.firstDay.lookup provider).getD today

def getProviderEarningsReport (w : World τ) (provider : Address) (period : ReportPeriod) :
    EarningsReport :=
  let today := currentDay w
  let startDay := period.startDay w.store.earnings provider today
  let feeShares := sumFeeSharesDays w.store.earnings provider startDay today
  { feeSharesEarned := feeShares, stakeRewardsEarned := 0, subscriptionFeesEarned := 0
    totalEarned := feeShares, periodStart := startDay * SECONDS_PER_DAY, periodEnd := w.ledger.timestamp }

/-! ## The reports of a run -/

/-- The length of a period in days. -/
def ReportPeriod.days : ReportPeriod → Option Nat
  | daily => some 1
  | weekly => some 7
  | monthly => some 30
  | allTime => none

/-- The days of the buckets that a report adds up. -/
def ReportPeriod.covered (period : ReportPeriod) (provider : Address) (w : World τ) : Finset Nat :=
  Finset.Icc (period.startDay w.store.earnings provider (currentDay w)) (currentDay w)

section Reports

variable {T : Tokens τ} {contract : Address} {p p' : World τ × List Share} {provider : Address}
  {period : ReportPeriod} {n : Nat}

theorem ReportPeriod.startDay_eq (h : period.days = some n) (e : EarningsStorage) (today : Nat) :
    period.startDay e provider today = today - n := by
  cases period <;> cases h <;> rfl

/-- A report adds up the shares of the days that it covers. -/
theorem sumFeeSharesDays_eq (h : Logged p) (hmax : Dated.total (sharesOf provider p.2) ≤ i128Max)
    {startDay endDay : Nat} (hdays : startDay ≤ endDay + 1) :
    sumFeeSharesDays p.1.store.earnings provider startDay endDay =
      within startDay (endDay + 1) (sharesOf provider p.2) := by
  have hnonneg : ∀ entry ∈ sharesOf provider p.2, 0 ≤ entry.2 := h.records.nonneg
  have hle := within_le_total (a := startDay) (b := endDay + 1) hnonneg
  unfold sumFeeSharesDays
  rw [foldl_saturating (fun _ _ _ _ => rfl) (le_refl 0) (by decide)]
  · have hbuckets : (List.range' startDay (endDay + 1 - startDay)).map
        (p.1.store.earnings.dailyShares provider) =
      (List.range' startDay (endDay + 1 - startDay)).map
        fun day => within day (day + 1) (sharesOf provider p.2) :=
      map_congr_left fun day _ => h.records.daily provider hmax day
    rw [hbuckets, sum_range'_days, Nat.add_sub_cancel' hdays]
    omega
  · intro day _
    rw [h.records.daily provider hmax day]
    exact within_nonneg hnonneg

/-- No share is before the first day of the report of all time. -/
theorem allTime_covers (h : Logged p) : ∀ entry ∈ sharesOf provider p.2,
    ReportPeriod.allTime.startDay p.1.store.earnings provider (currentDay p.1) ≤ entry.1 ∧
      entry.1 < currentDay p.1 + 1 := by
  intro entry hentry
  have hpast : entry.1 ≤ currentDay p.1 := by
    obtain ⟨share, hshare, hday, -⟩ := sharesOf_mem hentry
    rw [← hday]
    exact h.past share hshare
  refine ⟨?_, Nat.lt_succ_of_le hpast⟩
  have hordered : (sharesOf provider p.2).Pairwise (·.1 ≤ ·.1) := (h.ordered.filter _).map _ fun _ _ hle => hle
  unfold ReportPeriod.startDay
  rw [h.records.first provider]
  cases hlog : sharesOf provider p.2 with
  | nil =>
    rw [hlog] at hentry
    cases hentry
  | cons first later =>
    rw [hlog] at hentry hordered
    rcases List.mem_cons.mp hentry with rfl | hlater
    · exact le_refl _
    · exact (List.pairwise_cons.mp hordered).1 entry hlater

theorem report_allTime (h : Logged p) (hmax : Dated.total (sharesOf provider p.2) ≤ i128Max) :
    (getProviderEarningsReport p.1 provider .allTime).feeSharesEarned = Dated.total (sharesOf provider p.2) := by
  have hcovers : ∀ entry ∈ sharesOf provider p.2, _ := allTime_covers h
  have hstart : ReportPeriod.allTime.startDay p.1.store.earnings provider (currentDay p.1) ≤
      currentDay p.1 + 1 := by
    cases hlog : sharesOf provider p.2 with
    | nil =>
      unfold ReportPeriod.startDay
      rw [h.records.first provider, hlog]
      exact Nat.le_succ _
    | cons first later =>
      have hfirst := hcovers first (by rw [hlog]; exact mem_cons_self)
      omega
  unfold getProviderEarningsReport
  dsimp only
  rw [sumFeeSharesDays_eq h hmax hstart]
  exact within_all hcovers

theorem report_days (h : Logged p) (hmax : Dated.total (sharesOf provider p.2) ≤ i128Max)
    (hperiod : period.days = some n) :
    (getProviderEarningsReport p.1 provider period).feeSharesEarned = (snapshot provider p).window n := by
  have hstart : period.startDay p.1.store.earnings provider (currentDay p.1) = currentDay p.1 - n :=
    ReportPeriod.startDay_eq hperiod _ _
  unfold getProviderEarningsReport Snapshot.window
  dsimp only
  rw [hstart, sumFeeSharesDays_eq h hmax (by omega)]
  rfl

variable (T contract) in
/-- States of one run, `n` days apart. -/
def DaysApart (n : Nat) : List (World τ × List Share) → Prop :=
  List.IsChain fun p p' => Reaches (Recording T contract) p p' ∧ currentDay p'.1 = currentDay p.1 + n

/-- The sum of the reports is that of all shares, from the first day of the first report on. -/
def CountedOnce (provider : Address) (period : ReportPeriod) (n : Nat) (p : World τ × List Share)
    (ps : List (World τ × List Share)) : Prop :=
  let last := (p :: ps).getLast (cons_ne_nil p ps)
  ((p :: ps).map fun q => (getProviderEarningsReport q.1 provider period).feeSharesEarned).sum =
    within (currentDay p.1 - n) (currentDay last.1 + 1) (sharesOf provider last.2)

instance (provider : Address) (period : ReportPeriod) (n : Nat) (p : World τ × List Share)
    (ps : List (World τ × List Share)) : Decidable (CountedOnce provider period n p ps) :=
  inferInstanceAs (Decidable (_ = _))

theorem DaysApart.reaches {ps : List (World τ × List Share)} (h : DaysApart T contract n (p :: ps)) :
    ∀ q ∈ p :: ps, Reaches (Recording T contract) p q := by
  induction ps generalizing p with
  | nil =>
    intro q hq
    rw [List.mem_singleton.mp hq]
    exact .refl p
  | cons p' ps ih =>
    obtain ⟨⟨hfirst, -⟩, h⟩ := List.isChain_cons_cons.mp h
    intro q hq
    rcases List.mem_cons.mp hq with rfl | hq
    · exact .refl q
    · exact hfirst.trans (ih h q hq)

theorem DaysApart.series {ps : List (World τ × List Share)} (h : DaysApart T contract n ps) :
    Snapshot.Series n (ps.map (snapshot provider)) := by
  unfold Snapshot.Series
  rw [isChain_map]
  exact h.imp fun _ _ hs => ⟨before_of_reaches hs.1, hs.2⟩

/-- Nothing is seen of a day exactly if every share is of an earlier one. -/
theorem sameDay_eq_zero_iff (h : Logged p) : (snapshot provider p).sameDay = 0 ↔
    ∀ share ∈ p.2, share.provider = provider → share.day < currentDay p.1 := by
  change within (currentDay p.1) (currentDay p.1 + 1) (sharesOf provider p.2) = 0 ↔ _
  rw [within_eq_zero_iff h.records.pos]
  constructor
  · intro hnone share hshare hprovider
    have hentry : (share.day, share.amount) ∈ sharesOf provider p.2 :=
      mem_map_of_mem (List.mem_filter.mpr ⟨hshare, decide_eq_true hprovider⟩)
    have hpast := h.past share hshare
    by_contra hsame
    exact hnone _ hentry ⟨Nat.not_lt.mp hsame, Nat.lt_succ_of_le hpast⟩
  · rintro hearlier entry hentry ⟨hday, -⟩
    obtain ⟨share, hshare, rfl⟩ := List.mem_map.mp hentry
    obtain ⟨hmem, hprovider⟩ := List.mem_filter.mp hshare
    exact absurd hday (Nat.not_le.mpr (hearlier share hmem (of_decide_eq_true hprovider)))

/-- Reports that are `n` days apart count the shares once exactly if none but the last is made on a day that
has a share already. -/
theorem countedOnce_iff {ps : List (World τ × List Share)} (hperiod : period.days = some n)
    (h : DaysApart T contract n (p :: ps)) (hlogged : ∀ q ∈ p :: ps, Logged q)
    (hmax : ∀ q ∈ p :: ps, Dated.total (sharesOf provider q.2) ≤ i128Max) :
    CountedOnce provider period n p ps ↔ ∀ q ∈ (p :: ps).dropLast, ∀ share ∈ q.2,
      share.provider = provider → share.day < currentDay q.1 := by
  have hreports : ((p :: ps).map fun q => (getProviderEarningsReport q.1 provider period).feeSharesEarned) =
      ((p :: ps).map (snapshot provider)).map (Snapshot.window n) := by
    rw [map_map]
    exact map_congr_left fun q hq => report_days (hlogged q hq) (hmax q hq) hperiod
  have hseries : Snapshot.Series n (snapshot provider p :: ps.map (snapshot provider)) := h.series
  have hpos : ∀ t ∈ snapshot provider p :: ps.map (snapshot provider), ∀ e ∈ t.past, 0 ≤ e.2 := by
    intro t ht
    obtain ⟨q, hq, rfl⟩ := List.mem_map.mp (map_cons ▸ ht : t ∈ (p :: ps).map (snapshot provider))
    exact (hlogged q hq).records.nonneg
  have hlast : (snapshot provider p :: ps.map (snapshot provider)).getLast (cons_ne_nil _ _) =
      snapshot provider ((p :: ps).getLast (cons_ne_nil p ps)) :=
    getLast_map (l := p :: ps) (cons_ne_nil _ _)
  have hiff := Snapshot.sum_series_iff hseries hpos
  rw [hlast] at hiff
  unfold CountedOnce
  rw [hreports]
  refine hiff.trans ?_
  rw [← map_cons, ← map_dropLast, forall_mem_map]
  exact forall₂_congr fun q hq => sameDay_eq_zero_iff (hlogged q (mem_of_mem_dropLast hq))

/-- Consecutive reports share the day of the earlier one, and leave no day out. -/
theorem covered_overlap {ps : List (World τ × List Share)} (hperiod : period.days = some n)
    (h : DaysApart T contract n ps) :
    ps.IsChain fun q q' =>
      period.covered provider q.1 ∩ period.covered provider q'.1 = {currentDay q.1} ∧
        period.covered provider q.1 ∪ period.covered provider q'.1 =
          Finset.Icc (currentDay q.1 - n) (currentDay q'.1) := by
  refine h.imp fun q q' hs => ?_
  obtain ⟨-, hday⟩ := hs
  unfold ReportPeriod.covered
  rw [ReportPeriod.startDay_eq hperiod, ReportPeriod.startDay_eq hperiod]
  constructor
  · ext day
    simp
    omega
  · ext day
    simp
    omega

/-- In every state of a run, the total is the sum of all buckets and the report of all time. Reports `n` days
apart leave no day out, but share the day of the earlier one, and they count each share once exactly if
none but the last is made on a day that has a share already. -/
theorem reports_iff {ledger : Ledger} {token : τ} (provider : Address) :
    (∀ p, Reaches (Recording T contract) (World.deployed ledger token, []) p →
      Dated.total (sharesOf provider p.2) ≤ i128Max →
        p.1.store.earnings.total provider = ∑ᶠ day, p.1.store.earnings.dailyShares provider day ∧
        p.1.store.earnings.total provider = (getProviderEarningsReport p.1 provider .allTime).feeSharesEarned) ∧
    ∀ (period : ReportPeriod) n, period.days = some n → ∀ p ps,
      Reaches (Recording T contract) (World.deployed ledger token, []) p →
      DaysApart T contract n (p :: ps) →
      (∀ q ∈ p :: ps, Dated.total (sharesOf provider q.2) ≤ i128Max) →
        ((p :: ps).IsChain fun q q' =>
          period.covered provider q.1 ∩ period.covered provider q'.1 = {currentDay q.1} ∧
            period.covered provider q.1 ∪ period.covered provider q'.1 =
              Finset.Icc (currentDay q.1 - n) (currentDay q'.1)) ∧
        (CountedOnce provider period n p ps ↔ ∀ q ∈ (p :: ps).dropLast, ∀ share ∈ q.2,
          share.provider = provider → share.day < currentDay q.1) := by
  have hlogged : ∀ p, Reaches (Recording T contract) (World.deployed ledger token, []) p → Logged p :=
    fun p h => h.invariant (.deployed ledger token) fun _ _ _ hI hs => hI.step hs
  constructor
  · intro p h hmax
    have hp := hlogged p h
    rw [hp.records.total provider hmax, report_allTime hp hmax]
    refine ⟨?_, rfl⟩
    rw [finsum_congr (hp.records.daily provider hmax)]
    exact (finsum_days fun entry hentry => (allTime_covers hp entry hentry).2).symm
  · intro period n hperiod p ps h hdays hmax
    have hall : ∀ q ∈ p :: ps, Logged q := fun q hq => hlogged q (h.trans (hdays.reaches q hq))
    exact ⟨covered_overlap hperiod hdays, countedOnce_iff hperiod hdays hall hmax⟩

end Reports

namespace Sample

def nextLogged (p : World Balances × List Share) (ev : Event Balances) : World Balances × List Share :=
  (next Balances.tokens collector p.1 ev, p.2 ++ eventShares Balances.tokens collector p.1 ev)

/-- The state and the log after more events. -/
def logged (p : World Balances × List Share) (evs : List (Event Balances)) : World Balances × List Share :=
  evs.foldl nextLogged p

theorem logged_run {p : World Balances × List Share} {evs : List (Event Balances)}
    (h : Reaches.Along nextLogged (fun p ev => Inside collector p.1 ev) p evs) :
    Reaches (Recording Balances.tokens collector) p (logged p evs) := by
  refine (Reaches.of_along h).mono fun _ _ _ hs => ?_
  obtain ⟨hin, rfl⟩ := hs
  exact ⟨⟨hin.allowed, rfl⟩, rfl⟩

/-- A share of `bob`. -/
def share (amount : Int) : Event Balances := call (.recordProviderFeeShare admin bob amount)

/-- The start of a day. -/
def day (n : Nat) : Event Balances := .advance ⟨n * SECONDS_PER_DAY, 0⟩

/-- A share of 50 was recorded on the first day. -/
def sharedOnFirst : World Balances × List Share :=
  logged (World.deployed ⟨0, 0⟩ funds, []) (started [day 1, share 50])

/-- A report on the second day, and one on the third. -/
theorem reports_add_up : CountedOnce bob .daily 1 (logged sharedOnFirst [day 2])
    [logged (logged sharedOnFirst [day 2]) [day 3, share 70]] := by
  refine ((@reports_iff _ Balances.tokens collector ⟨0, 0⟩ funds bob).2
    .daily 1 rfl (logged sharedOnFirst [day 2]) [logged (logged sharedOnFirst [day 2]) [day 3, share 70]]
    ?_ ?_ ?_).2.mpr ?_
  · exact (logged_run (by decide +kernel)).trans (logged_run (by decide +kernel))
  · exact List.isChain_pair.mpr ⟨logged_run (by decide +kernel), by decide +kernel⟩
  · decide +kernel
  · decide +kernel

/-- A report on the first day, and one on the second: both count the share of 50. -/
theorem share_counted_twice :
    let later := logged sharedOnFirst [day 2]
    Reaches (Recording Balances.tokens collector) (World.deployed ⟨0, 0⟩ funds, []) sharedOnFirst ∧
      DaysApart Balances.tokens collector 1 [sharedOnFirst, later] ∧
      (getProviderEarningsReport sharedOnFirst.1 bob .daily).feeSharesEarned = 50 ∧
      (getProviderEarningsReport later.1 bob .daily).feeSharesEarned = 50 ∧
      later.1.store.earnings.total bob = 50 ∧ ¬ CountedOnce bob .daily 1 sharedOnFirst [later] ∧
      ¬ Disjoint (ReportPeriod.daily.covered bob sharedOnFirst.1) (ReportPeriod.daily.covered bob later.1) := by
  refine ⟨logged_run (by decide +kernel), List.isChain_pair.mpr ⟨logged_run (by decide +kernel), by decide +kernel⟩,
    by decide +kernel, by decide +kernel, by decide +kernel, by decide +kernel, ?_⟩
  exact Finset.not_disjoint_iff.mpr ⟨1, by decide +kernel, by decide +kernel⟩

end Sample

end CallStake.FeeCollector
