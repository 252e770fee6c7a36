import CallStake.SignalRegistry.Contests
import CallStake.Lib.Outcome
import CallStake.Lib.Trace
import Mathlib.Data.Prod.Lex

/-!
# The winners of contests

Who wins a contest, by which scores, and what the winners get.

* `trades`: the trades that count for an entry, read off the history. `Decided`: the winners are the best of the
  qualified providers. `Awarded`: the winners, the scores and the prizes of a contest agree with the history.
* `updateEach_lookup`: what signals and trades change. `decided_finalize`: the sort and the prizes.
* `Kept`: what every step keeps of a contest. `Regular`: no trade counts after the finalization, in the last second
  of a contest. `contests_awarded`: runs of such steps.
-/

namespace CallStake.Contests

open Tx List

/-! ## The property -/

/-- The contest is within its window, and the entry of the provider lists the signal. -/
def World.Counts (w : World) (id signalId : Nat) (provider : Address) : Prop :=
  ∃ c ∈ w.store.contests.lookup id, (c.startTime ≤ w.ledger.timestamp ∧ w.ledger.timestamp ≤ c.endTime) ∧
    ∃ e ∈ c.entries.lookup provider, signalId ∈ e.signalsSubmitted

instance (w : World) (id signalId : Nat) (provider : Address) : Decidable (w.Counts id signalId provider) :=
  inferInstanceAs (Decidable (∃ c ∈ _, _ ∧ ∃ e ∈ _, _))

/-- The ROI and the volume of a trade that counts for the entry. -/
def countedTrade (id : Nat) (provider : Address) : World × Event → Option (Int × Int)
  | (a, .call (.applyTradeToContestEntries signalId p tradeRoi volume)) =>
    if p = provider ∧ a.Counts id signalId p then some (tradeRoi, volume) else none
  | (_, .call (.createContest ..)) | (_, .call (.autoEnterSignal _)) | (_, .call (.finalizeContest _))
  | (_, .advance _) => none

/-- The trades that count for the entry, the last one first. -/
def trades (id : Nat) (provider : Address) (hist : List (World × Event)) : List (Int × Int) :=
  hist.filterMap (countedTrade id provider)

/-- Added up from the last element to the first. -/
def saturatingSum (l : List Int) : Int := l.foldr (fun x s => saturatingAdd s x) 0

/-- What a trade adds to the score. -/
def ContestMetric.part : ContestMetric → Int × Int → Int
  | .highestROI => Prod.fst
  | .mostVolume => Prod.snd
  | .bestSuccessRate | .mostFollowers => fun _ => 0

/-- What the trades have added to the score. -/
def ContestEntry.total (e : ContestEntry) : ContestMetric → Int
  | .highestROI => e.totalRoi
  | .mostVolume => e.totalVolume
  | .bestSuccessRate | .mostFollowers => 0

/-- The event finalizes the contest. -/
def finalizes (host : Host) (id : Nat) : World × Event → Bool
  | (a, .call (.finalizeContest contestId)) =>
    match (finalizeContest host contestId a).1 with
    | .ok _ => contestId == id
    | .error _ => false
  | (_, .call (.createContest ..)) | (_, .call (.autoEnterSignal _)) | (_, .call (.applyTradeToContestEntries ..))
  | (_, .advance _) => false

def Contest.Qualifies (c : Contest) (p : Address) : Prop :=
  ∃ e ∈ c.entries.lookup p, c.minSignals ≤ e.signalsSubmitted.length

instance (c : Contest) (p : Address) : Decidable (c.Qualifies p) := inferInstanceAs (Decidable (∃ e ∈ _, _))

/-- The providers with enough signals. -/
def Contest.qualified (c : Contest) : List Address := c.entries.keys.filter (c.Qualifies ·)

def Contest.scoreOf (c : Contest) (p : Address) : Int := (c.entries.lookup p).elim 0 (·.score)

structure Decided (c : Contest) : Prop where
  distinct : c.winners.Nodup
  count : c.winners.length = min 3 c.qualified.length
  qualified : ∀ p ∈ c.winners, c.Qualifies p
  best : ∀ p ∈ c.winners, ∀ p', c.Qualifies p' → p' ∉ c.winners → c.scoreOf p' ≤ c.scoreOf p

/-- Scores and prizes are right. -/
structure Awarded (hist : List (World × Event)) (w : World) (id : Nat) (c : Contest) : Prop where
  decided : c.status = .finalized → Decided c
  scores : c.metric = .highestROI ∨ c.metric = .mostVolume → ∀ p e, c.entries.lookup p = some e →
    e.score = saturatingSum ((trades id p hist).map c.metric.part)
  prizes : (c.winners.map (getProviderPrize w id)).sum ≤ c.prizePool
  others : ∀ p, p ∉ c.winners → w.store.prizes.lookup (id, p) = none

/-- A trade within the window of a contest that is finalized, for a signal that an entry lists, leaves the sum as it
is. -/
def Regular (w : World) : Event → Prop
  | .call (.applyTradeToContestEntries signalId provider tradeRoi volume) =>
    ∀ id ∈ w.store.contests.keys, ∀ c ∈ w.store.contests.lookup id, c.status = .finalized →
      c.startTime ≤ w.ledger.timestamp → w.ledger.timestamp ≤ c.endTime →
      ∀ e ∈ c.entries.lookup provider, signalId ∈ e.signalsSubmitted →
        saturatingAdd (e.total c.metric) (c.metric.part (tradeRoi, volume)) = e.total c.metric
  | .call (.createContest ..) | .call (.autoEnterSignal _) | .call (.finalizeContest _) | .advance _ => True

instance (w : World) : (ev : Event) → Decidable (Regular w ev)
  | .call (.applyTradeToContestEntries ..) => inferInstanceAs (Decidable (∀ _ ∈ _, ∀ _ ∈ _, _))
  | .call (.createContest ..) | .call (.autoEnterSignal _) | .call (.finalizeContest _) | .advance _ =>
    inferInstanceAs (Decidable True)

/-! ## Updates of the open contests -/

theorem updateOne_lookup (f : Contest → Option Contest) (contests : Store Nat Contest) (a id : Nat) :
    (updateOne f contests a).lookup id =
      if id = a then (contests.lookup id).map fun c => (f c).getD c else contests.lookup id := by
  unfold updateOne
  by_cases hid : id = a
  · subst hid
    rw [if_pos rfl]
    cases hc : contests.lookup id with
    | none => exact hc
    | some c =>
      cases hf : f c with
      | none => simp [hc, hf]
      | some c' => simp [hf, AList.lookup_insert]
  · rw [if_neg hid]
    split
    · exact AList.lookup_insert_ne hid
    · rfl

theorem updateEach_lookup (f : Contest → Option Contest) {active : List Nat} (hnodup : active.Nodup)
    (contests : Store Nat Contest) (id : Nat) : (updateEach f contests active).lookup id =
      if id ∈ active then (contests.lookup id).map fun c => (f c).getD c else contests.lookup id := by
  induction active generalizing contests with
  | nil => rfl
  | cons a active ih =>
    obtain ⟨ha, hrest⟩ := List.nodup_cons.mp hnodup
    change (updateEach f (updateOne f contests a) active).lookup id = _
    rw [ih hrest, updateOne_lookup]
    by_cases hid : id = a
    · subst hid
      simp [ha]
    · simp [hid]

/-- Where only active contests change, and the active ones are listed. -/
theorem updateEach_active {f : Contest → Option Contest} {active : List Nat} (hnodup : active.Nodup)
    {contests : Store Nat Contest} {id : Nat}
    (hactive : ∀ c, contests.lookup id = some c → id ∉ active → f c = none) :
    (updateEach f contests active).lookup id = (contests.lookup id).map fun c => (f c).getD c := by
  rw [updateEach_lookup f hnodup]
  split
  · rfl
  · rename_i hid
    cases hc : contests.lookup id with
    | none => rfl
    | some c => rw [Option.map_some, hactive c hc hid, Option.getD_none]

/-! ## The best entries -/

section Winners

variable {host : Host} {nonce : Nat}

/-- By descending score, and then by the tiebreak key. -/
def sortKey (host : Host) (nonce : Nat) (e : ContestEntry) : Intᵒᵈ ×ₗ Nat :=
  toLex (OrderDual.toDual e.score, providerTiebreakKey host nonce e.provider)

theorem shouldSwap_iff (a b : ContestEntry) :
    shouldSwap host nonce a b = true ↔ sortKey host nonce b < sortKey host nonce a := by
  unfold shouldSwap sortKey
  rw [Prod.Lex.toLex_lt_toLex]
  simp only [OrderDual.toDual_lt_toDual, OrderDual.toDual_inj]
  split
  · rename_i hne
    have hne' : b.score ≠ a.score := fun h => hne h.symm
    simp [hne']
  · rename_i heq
    rw [not_not] at heq
    simp [heq]

theorem score_le_of_sortKey {a b : ContestEntry} (h : sortKey host nonce a ≤ sortKey host nonce b) :
    b.score ≤ a.score := by
  rcases Prod.Lex.toLex_le_toLex.mp h with hlt | ⟨heq, -⟩
  · exact (OrderDual.toDual_lt_toDual.mp hlt).le
  · exact (OrderDual.toDual_inj.mp heq).ge

/-- Every entry is stored under its provider. -/
def Contest.Keyed (c : Contest) : Prop := ∀ p e, c.entries.lookup p = some e → e.provider = p

theorem mem_qualifiedEntries {c : Contest} {e : ContestEntry} : e ∈ c.qualifiedEntries host ↔
    ∃ p, c.entries.lookup p = some e ∧ c.minSignals ≤ e.signalsSubmitted.length := by
  unfold Contest.qualifiedEntries Contest.entryKeys
  simp only [mem_filterMap, mem_insertionSort, Option.filter_eq_some_iff, decide_eq_true_eq]
  constructor
  · rintro ⟨p, -, h⟩; exact ⟨p, h⟩
  · rintro ⟨p, h⟩; exact ⟨p, AList.mem_keys.mp (AList.lookup_isSome.mp (by rw [h.1]; rfl)), h⟩

/-- The providers of the qualified entries are the qualified providers. -/
theorem map_provider_perm {c : Contest} (hkeyed : c.Keyed) :
    ((c.qualifiedEntries host).map (·.provider)).Perm c.qualified := by
  have hfilter : ∀ l : List Address, (l.filterMap fun key => (c.entries.lookup key).filter fun entry =>
      decide (c.minSignals ≤ entry.signalsSubmitted.length)).map (·.provider) = l.filter (c.Qualifies ·) := by
    intro l
    induction l with
    | nil => rfl
    | cons p l ih =>
      rw [filterMap_cons, filter_cons]
      cases hp : c.entries.lookup p with
      | none => simp [Contest.Qualifies, hp, ih]
      | some e =>
        by_cases hmin : c.minSignals ≤ e.signalsSubmitted.length
        · have hq : c.Qualifies p := ⟨e, hp, hmin⟩
          rw [Option.filter_some, if_pos (decide_eq_true hmin), if_pos (decide_eq_true hq), map_cons, ih,
            hkeyed p e hp]
        · have hq : ¬ c.Qualifies p := by
            rintro ⟨e', he', hmin'⟩
            cases hp.symm.trans he'
            exact hmin hmin'
          rw [Option.filter_some, if_neg (by simpa using hmin), if_neg (by simpa using hq), ih]
  unfold Contest.qualifiedEntries Contest.qualified
  rw [hfilter]
  exact (perm_insertionSort _ _).filter _

/-- The three best of the qualified entries. -/
theorem decided_sorted (host : Host) (nonce : Nat) {c : Contest} (hkeyed : c.Keyed) : Decided { c with
    winners := ((bubbleSortBy (shouldSwap host nonce) (c.qualifiedEntries host)).take 3).map (·.provider)
    status := .finalized } := by
  rw [bubbleSortBy_eq shouldSwap_iff]
  have hperm : (bubbleSort (sortKey host nonce) (c.qualifiedEntries host)).Perm (c.qualifiedEntries host) :=
    bubbleSort_perm _
  have hsorted : (bubbleSort (sortKey host nonce) (c.qualifiedEntries host)).Pairwise
      (sortKey host nonce · ≤ sortKey host nonce ·) := bubbleSort_sorted _
  generalize bubbleSort (sortKey host nonce) (c.qualifiedEntries host) = sorted at hperm hsorted
  have hproviders : (sorted.map (·.provider)).Perm c.qualified := (hperm.map _).trans (map_provider_perm hkeyed)
  have hmem : ∀ e, e ∈ sorted ↔ c.entries.lookup e.provider = some e ∧
      c.minSignals ≤ e.signalsSubmitted.length := by
    intro e
    rw [hperm.mem_iff, mem_qualifiedEntries]
    constructor
    · rintro ⟨p, hp, hmin⟩
      rw [hkeyed p e hp]
      exact ⟨hp, hmin⟩
    · rintro ⟨hp, hmin⟩; exact ⟨_, hp, hmin⟩
  have htop : ∀ p, p ∈ (sorted.take 3).map (·.provider) → ∃ e ∈ sorted.take 3, c.entries.lookup p = some e ∧
      c.minSignals ≤ e.signalsSubmitted.length := by
    intro p hp
    obtain ⟨e, he, rfl⟩ := List.mem_map.mp hp
    exact ⟨e, he, (hmem e).mp (mem_of_mem_take he)⟩
  refine ⟨?_, ?_, fun p hp => ?_, fun p hp p' hp' hnot => ?_⟩
  · have hnodup : (sorted.map (·.provider)).Nodup := hproviders.nodup_iff.mpr (c.entries.nodupKeys.filter _)
    rw [map_take]
    exact hnodup.sublist (take_sublist _ _)
  · rw [map_take, length_take, hproviders.length_eq]
    rfl
  · obtain ⟨e, -, he⟩ := htop p hp
    exact ⟨e, he⟩
  · obtain ⟨e, he, hlookup, -⟩ := htop p hp
    obtain ⟨e', he', hmin'⟩ := hp'
    have hlookup' : c.entries.lookup p' = some e' := he'
    have hsorted' : e' ∈ sorted := (hmem e').mpr ⟨by rw [hkeyed p' e' hlookup']; exact hlookup', hmin'⟩
    have hrest : e' ∈ sorted.drop 3 := by
      rw [← take_append_drop 3 sorted] at hsorted'
      refine (List.mem_append.mp hsorted').resolve_left fun htake => hnot ?_
      exact List.mem_map.mpr ⟨e', htake, hkeyed p' e' hlookup'⟩
    rw [← take_append_drop 3 sorted] at hsorted
    have hle := score_le_of_sortKey ((List.pairwise_append.mp hsorted).2.2 e he e' hrest)
    unfold Contest.scoreOf
    dsimp only
    rw [hlookup, hlookup']
    exact hle

end Winners

/-! ## The prizes -/

section Prizes

variable {w w' : World}

@[simp] theorem bind_plain_ok {α : Type} {x : Int} {a : α} {k : Int → C α} :
    (plain x >>= k) w = (.ok a, w') ↔ InRange x ∧ k x w = (.ok a, w') := bind_checked_ok

def World.withPrizes (w : World) (prizes : Store (Nat × Address) Int) : World :=
  { w with store := { w.store with prizes } }

/-- The prizes are stored for the winners, and nothing else changes. -/
theorem storePrizes_ok {c : Contest} {shares : List (Address × Int)} {u : Unit}
    (hnodup : (shares.map Prod.fst).Nodup) (hr : Tx.each (storePrize c) shares w = (.ok u, w')) :
    ∃ m, w' = w.withPrizes m ∧ (∀ s ∈ shares, m.lookup (c.id, s.1) = some ((c.prizePool * s.2).tdiv 100)) ∧
      ∀ k, (∀ s ∈ shares, k ≠ (c.id, s.1)) → m.lookup k = w.store.prizes.lookup k := by
  induction shares generalizing w with
  | nil =>
    obtain ⟨-, rfl⟩ := pure_ok.mp hr
    exact ⟨w.store.prizes, rfl, fun s hs => absurd hs not_mem_nil, fun _ _ => rfl⟩
  | cons s shares ih =>
    rw [map_cons, nodup_cons] at hnodup
    obtain ⟨u', w₁, h1, h2⟩ := bind_ok.mp hr
    obtain ⟨-, h1⟩ := bind_plain_ok.mp h1
    rw [save, modify_ok] at h1
    subst h1
    obtain ⟨m, hw', hprizes, hothers⟩ := ih hnodup.2 h2
    refine ⟨m, hw', fun t ht => ?_, fun k hk => ?_⟩
    · rcases List.mem_cons.mp ht with rfl | ht
      · rw [hothers _ fun r hr heq => ?_]
        · exact AList.lookup_insert _
        · exact hnodup.1 (List.mem_map.mpr ⟨r, hr, (Prod.mk.inj heq).2.symm⟩)
      · exact hprizes t ht
    · rw [hothers k fun r hr => hk r (mem_cons_of_mem _ hr)]
      exact AList.lookup_insert_ne (hk s mem_cons_self)

/-- Rounded down, the shares are at most the whole. -/
theorem shares_le {pool : Int} (hpool : 0 ≤ pool) (winners : List Address) :
    ((winners.zip percentages).map fun s => (pool * s.2).tdiv 100).sum ≤ pool := by
  have hshare : ∀ x : Int, 0 ≤ x → (pool * x).tdiv 100 = pool * x / 100 := fun x hx =>
    Int.tdiv_eq_ediv_of_nonneg (Int.mul_nonneg hpool hx)
  unfold percentages
  rcases winners with _ | ⟨a, _ | ⟨b, _ | ⟨c, winners⟩⟩⟩ <;>
    simp [hshare 50 (by omega), hshare 30 (by omega), hshare 20 (by omega)] <;> omega

theorem distributePrizePool_ok {c : Contest} {winners : List Address} {u : Unit} (hpool : 0 ≤ c.prizePool)
    (hnodup : winners.Nodup) (hlength : winners.length ≤ 3)
    (hnone : ∀ p, w.store.prizes.lookup (c.id, p) = none)
    (hr : distributePrizePool c winners w = (.ok u, w')) :
    ∃ m, w' = w.withPrizes m ∧ (winners.map fun p => (m.lookup (c.id, p)).getD 0).sum ≤ c.prizePool ∧
      ∀ k, (∀ p ∈ winners, k ≠ (c.id, p)) → m.lookup k = w.store.prizes.lookup k := by
  have hfirst : (winners.zip percentages).map Prod.fst = winners := map_fst_zip hlength
  unfold distributePrizePool at hr
  split at hr
  · obtain ⟨-, rfl⟩ := pure_ok.mp hr
    refine ⟨w.store.prizes, rfl, ?_, fun _ _ => rfl⟩
    have hzero : ∀ l : List Address, (l.map fun p => (w.store.prizes.lookup (c.id, p)).getD 0).sum = 0 := by
      intro l
      induction l with
      | nil => rfl
      | cons p l ih => rw [map_cons, sum_cons, ih, hnone]; rfl
    rw [hzero]
    exact hpool
  · obtain ⟨m, hw', hprizes, hothers⟩ := storePrizes_ok (hfirst.symm ▸ hnodup) hr
    refine ⟨m, hw', ?_, fun k hk => hothers k fun s hs => hk s.1 ?_⟩
    · have hsum : (winners.map fun p => (m.lookup (c.id, p)).getD 0) =
          (winners.zip percentages).map fun s => (c.prizePool * s.2).tdiv 100 := by
        conv_lhs => rw [← hfirst]
        rw [map_map]
        refine map_congr_left fun s hs => ?_
        rw [Function.comp_apply, hprizes s hs, Option.getD_some]
      rw [hsum]
      exact shares_le hpool winners
    · rw [← hfirst]
      exact mem_map_of_mem hs

end Prizes

/-! ## What the steps keep -/

/-- What is known of a contest besides its record: the trades that count for each provider, how often it was
finalized, whether it is listed as active, and the prizes. -/
structure Account where
  trades : Address → List (Int × Int)
  finalized : Nat
  active : Bool
  prize : Address → Option Int

/-- Nothing has happened. -/
def Account.blank : Account := ⟨fun _ => [], 0, false, fun _ => none⟩

def account (host : Host) (hist : List (World × Event)) (w : World) (id : Nat) : Account :=
  ⟨fun p => trades id p hist, hist.countP (finalizes host id), decide (id ∈ w.store.activeContests),
    fun p => w.store.prizes.lookup (id, p)⟩

/-- Before the finalization, and after it. -/
inductive Stage (a : Account) (c : Contest) : Prop
  | running (hstatus : c.status = .active) (hactive : a.active = true) (hwinners : c.winners = [])
    (hprize : ∀ p, a.prize p = none) (hfinalized : a.finalized = 0)
  | done (hstatus : c.status = .finalized) (hactive : a.active = false) (hdecided : Decided c)
    (hsum : (c.winners.map fun p => (a.prize p).getD 0).sum ≤ c.prizePool)
    (hothers : ∀ p, p ∉ c.winners → a.prize p = none) (hfinalized : a.finalized = 1)

structure Kept (a : Account) (id : Nat) (c : Contest) : Prop where
  ident : c.id = id
  pool : 0 ≤ c.prizePool
  keyed : c.Keyed
  scored : ∀ p e, c.entries.lookup p = some e → e.score = calculateContestScore e c.metric
  totals : ∀ p e, c.entries.lookup p = some e → e.total c.metric = saturatingSum ((a.trades p).map c.metric.part)
  absent : ∀ p, c.entries.lookup p = none → a.trades p = []
  stage : Stage a c

structure Good (host : Host) (hist : List (World × Event)) (w : World) : Prop where
  nodup : w.store.activeContests.Nodup
  counter : ∀ id c, w.store.contests.lookup id = some c → id ≤ w.store.contestCounter
  kept : ∀ id c, w.store.contests.lookup id = some c → Kept (account host hist w id) id c
  fresh : ∀ id, w.store.contests.lookup id = none → account host hist w id = .blank

/-- The score by ROI or volume is what the trades have added. -/
theorem total_eq_score {e : ContestEntry} {m : ContestMetric} (hm : m = .highestROI ∨ m = .mostVolume) :
    calculateContestScore e m = e.total m := by
  rcases hm with rfl | rfl <;> rfl

theorem Kept.awarded {host : Host} {hist : List (World × Event)} {w : World} {id : Nat} {c : Contest}
    (h : Kept (account host hist w id) id c) : Awarded hist w id c := by
  have hscores : c.metric = .highestROI ∨ c.metric = .mostVolume → ∀ p e, c.entries.lookup p = some e →
      e.score = saturatingSum ((trades id p hist).map c.metric.part) := by
    intro hm p e he
    rw [h.scored p e he, total_eq_score hm]
    exact h.totals p e he
  cases h.stage with
  | running hstatus _ hwinners hprize =>
    refine ⟨fun hdone => ?_, hscores, ?_, fun p _ => hprize p⟩
    · rw [hstatus] at hdone
      cases hdone
    · rw [hwinners]
      exact h.pool
  | done _ _ hdecided hsum hothers => exact ⟨fun _ => hdecided, hscores, hsum, hothers⟩

theorem Stage.finalized_le {a : Account} {c : Contest} (h : Stage a c) : a.finalized ≤ 1 := by
  cases h with
  | running => omega
  | done => omega

namespace Kept

variable {a a' : Account} {id : Nat} {c : Contest}

/-- An entry is stored, with the trades that count for it. -/
theorem withEntry (h : Kept a id c) (hactive : c.status = .active) {p : Address} {e : ContestEntry}
    (hprovider : e.provider = p) (htotal : e.total c.metric = saturatingSum ((a'.trades p).map c.metric.part))
    (htrades : ∀ q, q ≠ p → a'.trades q = a.trades q) (hrest : a' = { a with trades := a'.trades }) :
    Kept a' id (c.withEntry p e) := by
  have hlookup : ∀ q, (c.withEntry p e).entries.lookup q =
      if q = p then some { e with score := calculateContestScore e c.metric } else c.entries.lookup q :=
    fun q => Store.lookup_insert_eq ..
  have htotal' : ∀ m, ({ e with score := calculateContestScore e c.metric } : ContestEntry).total m = e.total m := by
    intro m; cases m <;> rfl
  refine ⟨h.ident, h.pool, fun q e' he' => ?_, fun q e' he' => ?_, fun q e' he' => ?_, fun q hq => ?_, ?_⟩
  · rw [hlookup] at he'
    split at he'
    · rename_i heq
      cases he'
      exact hprovider.trans heq.symm
    · exact h.keyed q e' he'
  · rw [hlookup] at he'
    split at he'
    · cases he'
      change calculateContestScore e c.metric = calculateContestScore _ c.metric
      cases c.metric <;> rfl
    · exact h.scored q e' he'
  · rw [hlookup] at he'
    split at he'
    · rename_i heq
      cases he'
      subst heq
      rw [htotal']
      exact htotal
    · rename_i hne
      rw [htrades q hne]
      exact h.totals q e' he'
  · rw [hlookup] at hq
    split at hq
    · cases hq
    · rename_i hne
      rw [htrades q hne]
      exact h.absent q hq
  · rw [hrest]
    cases h.stage with
    | running hstatus hact hwinners hprize hfinalized => exact .running hstatus hact hwinners hprize hfinalized
    | done hstatus => rw [hactive] at hstatus; cases hstatus

theorem entered (h : Kept a id c) (now : Nat) (signal : Signal) : Kept a id ((c.entered now signal).getD c) := by
  unfold Contest.entered
  split
  · rename_i hopen
    refine h.withEntry hopen.1 ?_ ?_ (fun _ _ => rfl) rfl
    · cases he : c.entries.lookup signal.provider with
      | none => rfl
      | some e => exact h.keyed _ e he
    · cases he : c.entries.lookup signal.provider with
      | none =>
        rw [h.absent _ he]
        cases c.metric <;> rfl
      | some e =>
        rw [← h.totals _ e he]
        cases c.metric <;> rfl
  · exact h

/-- A trade is applied: it counts if the entry lists its signal within the window. -/
theorem traded (h : Kept a id c) {now signalId : Nat} {p : Address} {roi volume : Int} (counts : Prop)
    [Decidable counts]
    (hcounts : counts ↔ (c.startTime ≤ now ∧ now ≤ c.endTime) ∧
      ∃ e ∈ c.entries.lookup p, signalId ∈ e.signalsSubmitted)
    (hregular : c.status = .finalized → counts → ∀ e ∈ c.entries.lookup p,
      saturatingAdd (e.total c.metric) (c.metric.part (roi, volume)) = e.total c.metric)
    (hrest : a' = { a with trades := a'.trades })
    (htrades : ∀ q, a'.trades q = if q = p ∧ counts then (roi, volume) :: a.trades q else a.trades q) :
    Kept a' id ((c.traded now signalId p roi volume).getD c) := by
  by_cases hc : counts
  · obtain ⟨hwindow, e, he, hlists⟩ := hcounts.mp hc
    have hlookup : c.entries.lookup p = some e := he
    have hsum : a'.trades p = (roi, volume) :: a.trades p := by rw [htrades, if_pos ⟨rfl, hc⟩]
    have hsame : ∀ q, q ≠ p → a'.trades q = a.trades q := fun q hq => by rw [htrades, if_neg fun hq' => hq hq'.1]
    have hadded : saturatingSum ((a'.trades p).map c.metric.part) =
        saturatingAdd (e.total c.metric) (c.metric.part (roi, volume)) := by
      rw [hsum, h.totals p e hlookup]
      rfl
    cases h.stage with
    | running hstatus =>
      -- the entry and the history grow by the same trade
      have htraded : c.traded now signalId p roi volume = some (c.withEntry p { e with
          totalRoi := saturatingAdd e.totalRoi roi
          totalVolume := saturatingAdd e.totalVolume volume }) := by
        unfold Contest.traded
        rw [if_pos ⟨hstatus, hwindow⟩, hlookup]
        exact if_pos hlists
      rw [htraded]
      refine h.withEntry hstatus (h.keyed p e hlookup) ?_ hsame hrest
      rw [hadded]
      cases c.metric <;> rfl
    | done hstatus hactive hdecided hprizes hothers hfinalized =>
      -- the entry stays, so a trade in the last second must add nothing (`hregular`)
      have htraded : c.traded now signalId p roi volume = none := by
        unfold Contest.traded
        refine if_neg fun hopen => ?_
        cases hstatus.symm.trans hopen.1
      rw [htraded, Option.getD_none, hrest]
      refine ⟨h.ident, h.pool, h.keyed, h.scored, fun q e' he' => ?_, fun q hq => ?_,
        .done hstatus hactive hdecided hprizes hothers hfinalized⟩
      · by_cases hq : q = p
        · subst hq
          cases hlookup.symm.trans he'
          exact (hregular hstatus hc e he).symm.trans hadded.symm
        · exact (h.totals q e' he').trans (by rw [hsame q hq])
      · have hne : q ≠ p := by rintro rfl; rw [hlookup] at hq; cases hq
        exact (hsame q hne).trans (h.absent q hq)
  · have hsame : a' = a := by
      rw [hrest]
      have htr : a'.trades = a.trades := funext fun q => by rw [htrades, if_neg fun hq => hc hq.2]
      rw [htr]
    have htraded : c.traded now signalId p roi volume = none := by
      unfold Contest.traded
      split
      · rename_i hopen
        cases he : c.entries.lookup p with
        | none => rfl
        | some e => exact if_neg fun hlists => hc (hcounts.mpr ⟨hopen.2, e, he, hlists⟩)
      · rfl
    rw [htraded, hsame]
    exact h

end Kept

/-! ## Steps -/

section Step

variable {host : Host} {hist : List (World × Event)} {w w' : World}

theorem finalizes_eq (id id' : Nat) : finalizes host id' (w, .call (.finalizeContest id)) =
    match (finalizeContest host id w).1 with
    | .ok _ => id == id'
    | .error _ => false := rfl

/-- The contest is finalized, with the prizes. -/
def World.decided (w : World) (prizes : Store (Nat × Address) Int) (id : Nat) (c : Contest) : World := { w with
  store := { w.store with
    prizes
    contests := w.store.contests.insert id c
    activeContests := w.store.activeContests.filter (· ≠ id) } }

theorem account_decided {e : World × Event} {m : Store (Nat × Address) Int} {id id' : Nat} {c : Contest}
    (htrade : ∀ p, countedTrade id' p e = none) (hfinal : finalizes host id' e = false) (hid : id' ≠ id)
    (hprize : ∀ p, m.lookup (id', p) = w.store.prizes.lookup (id', p)) :
    account host (e :: hist) (w.decided m id c) id' = account host hist w id' := by
  unfold account trades World.decided
  simp [htrade, hfinal, hprize, hid]

/-- A new contest, under the next id. -/
def World.created (w : World) (c : Contest) : World := { w with
  store := { w.store with
    contestCounter := w.store.contestCounter + 1
    contests := w.store.contests.insert (w.store.contestCounter + 1) c
    activeContests := w.store.activeContests ++ [w.store.contestCounter + 1] } }

theorem createContest_ok {name : String} {startTime endTime minSignals n : Nat} {metric : ContestMetric}
    {prizePool : Int} (hr : createContest name startTime endTime metric minSignals prizePool w = (.ok n, w')) :
    ∃ c, c.id = w.store.contestCounter + 1 ∧ 0 ≤ c.prizePool ∧ c.entries = ∅ ∧ c.winners = [] ∧
      c.status = .active ∧ w' = w.created c := by
  rw [createContest, bind_gets_ok] at hr
  obtain ⟨-, hr⟩ := bind_failIf_ok.mp hr
  obtain ⟨-, hr⟩ := bind_failIf_ok.mp hr
  obtain ⟨hpool, hr⟩ := bind_failIf_ok.mp hr
  rw [bind_gets_ok] at hr
  obtain ⟨-, hr⟩ := bind_failIf_ok.mp hr
  rw [save, bind_modify_ok, save, bind_modify_ok, save, bind_modify_ok] at hr
  obtain ⟨-, rfl⟩ := pure_ok.mp hr
  exact ⟨_, rfl, not_lt.mp hpool, rfl, rfl, rfl, rfl⟩

/-- The winners of a contest. -/
def Contest.winnersOf (host : Host) (w : World) (c : Contest) : List Address :=
  ((bubbleSortBy (shouldSwap host (deriveTiebreakNonce host c.randomSeed w.ledger.sequence))
    (c.qualifiedEntries host)).take 3).map (·.provider)

theorem finalizeContest_ok {id : Nat} {winners : List Address}
    (hr : finalizeContest host id w = (.ok winners, w')) :
    ∃ c w₁, w.store.contests.lookup id = some c ∧ c.status = .active ∧
      distributePrizePool c (c.winnersOf host w) w = (.ok (), w₁) ∧
      w' = { w₁ with store := { w₁.store with
        contests := w₁.store.contests.insert id { c with winners := c.winnersOf host w, status := .finalized }
        activeContests := w₁.store.activeContests.filter (· ≠ id) } } := by
  rw [finalizeContest, bind_gets_ok, bind_gets_ok] at hr
  obtain ⟨c, hc, hr⟩ := bind_ofOption_ok.mp hr
  obtain ⟨-, hr⟩ := bind_failIf_ok.mp hr
  obtain ⟨hstatus, hr⟩ := bind_failIf_ok.mp hr
  obtain ⟨-, hr⟩ := bind_failIf_ok.mp hr
  obtain ⟨u, w₁, hprizes, hr⟩ := bind_ok.mp hr
  rw [save, bind_modify_ok, save, bind_modify_ok] at hr
  obtain ⟨-, rfl⟩ := pure_ok.mp hr
  exact ⟨c, w₁, hc, not_not.mp hstatus, hprizes, rfl⟩

namespace Good

/-- An event that neither counts nor finalizes, and changes no contest. -/
theorem stay (h : Good host hist w) (hstore : w'.store = w.store) (a : World) (ev : Event)
    (htrade : ∀ id p, countedTrade id p (a, ev) = none) (hfinal : ∀ id, finalizes host id (a, ev) = false) :
    Good host ((a, ev) :: hist) w' := by
  have haccount : ∀ id, account host ((a, ev) :: hist) w' id = account host hist w id := by
    intro id
    unfold account trades
    simp [htrade, hfinal, hstore]
  constructor
  · rw [hstore]; exact h.nodup
  · rw [hstore]; exact h.counter
  · intro id c hc
    rw [hstore] at hc
    rw [haccount]
    exact h.kept id c hc
  · intro id hc
    rw [hstore] at hc
    rw [haccount]
    exact h.fresh id hc

theorem created (h : Good host hist w) {c : Contest} (hident : c.id = w.store.contestCounter + 1)
    (hpool : 0 ≤ c.prizePool) (hentries : c.entries = ∅) (hwinners : c.winners = []) (hstatus : c.status = .active)
    (a : World) (ev : Event) (htrade : ∀ id p, countedTrade id p (a, ev) = none)
    (hfinal : ∀ id, finalizes host id (a, ev) = false) : Good host ((a, ev) :: hist) (w.created c) := by
  have hnew : w.store.contests.lookup (w.store.contestCounter + 1) = none := by
    cases hc : w.store.contests.lookup (w.store.contestCounter + 1) with
    | none => rfl
    | some c' => have := h.counter _ c' hc; omega
  have hblank := h.fresh _ hnew
  have hnotactive : w.store.contestCounter + 1 ∉ w.store.activeContests := by
    have := congrArg Account.active hblank
    simpa [account, Account.blank] using this
  have hlookup : ∀ id, (w.created c).store.contests.lookup id =
      if id = w.store.contestCounter + 1 then some c else w.store.contests.lookup id :=
    fun id => Store.lookup_insert_eq ..
  have haccount : ∀ id, account host ((a, ev) :: hist) (w.created c) id = { account host hist w id with
      active := decide (id ∈ w.store.activeContests ++ [w.store.contestCounter + 1]) } := by
    intro id
    unfold account trades World.created
    simp [htrade, hfinal]
  have hother : ∀ id, id ≠ w.store.contestCounter + 1 →
      account host ((a, ev) :: hist) (w.created c) id = account host hist w id := by
    intro id hid
    rw [haccount]
    unfold account
    simp [hid]
  refine ⟨?_, fun id c' hc' => ?_, fun id c' hc' => ?_, fun id hid => ?_⟩
  · refine List.nodup_append.mpr ⟨h.nodup, nodup_singleton _, fun x hx y hy heq => ?_⟩
    rw [heq, List.mem_singleton.mp hy] at hx
    exact hnotactive hx
  · rw [hlookup] at hc'
    change id ≤ w.store.contestCounter + 1
    split at hc'
    · omega
    · have := h.counter id c' hc'
      omega
  · rw [hlookup] at hc'
    split at hc'
    · rename_i hid
      subst hid
      cases hc'
      rw [haccount, hblank]
      refine ⟨hident, hpool, fun p e he => ?_, fun p e he => ?_, fun p e he => ?_, fun _ _ => rfl,
        .running hstatus ?_ hwinners (fun _ => rfl) rfl⟩
      · rw [hentries] at he; cases he
      · rw [hentries] at he; cases he
      · rw [hentries] at he; cases he
      · simp
    · rename_i hid
      rw [hother id hid]
      exact h.kept id c' hc'
  · rw [hlookup] at hid
    split at hid
    · cases hid
    · rename_i hne
      rw [hother id hne]
      exact h.fresh id hid

/-- The open contests are updated. -/
theorem updated (h : Good host hist w) {f : Contest → Option Contest} {e : World × Event}
    (hfinal : ∀ id, finalizes host id e = false) (hclosed : ∀ c, c.status ≠ .active → f c = none)
    (hkept : ∀ id c, w.store.contests.lookup id = some c → Kept (account host (e :: hist) w id) id ((f c).getD c))
    (hfresh : ∀ id, w.store.contests.lookup id = none → ∀ p, countedTrade id p e = none) :
    Good host (e :: hist) { w with store := { w.store with
      contests := updateEach f w.store.contests w.store.activeContests } } := by
  have hlookup : ∀ id, (updateEach f w.store.contests w.store.activeContests).lookup id =
      (w.store.contests.lookup id).map fun c => (f c).getD c := by
    intro id
    refine updateEach_active h.nodup fun c hc hid => hclosed c fun hactive => hid ?_
    cases (h.kept id c hc).stage with
    | running _ hlisted => exact of_decide_eq_true hlisted
    | done hstatus => rw [hactive] at hstatus; cases hstatus
  refine ⟨h.nodup, fun id c hc => ?_, fun id c hc => ?_, fun id hid => ?_⟩
  · obtain ⟨c₀, hc₀, -⟩ := Option.map_eq_some_iff.mp ((hlookup id).symm.trans hc)
    exact h.counter id c₀ hc₀
  · obtain ⟨c₀, hc₀, rfl⟩ := Option.map_eq_some_iff.mp ((hlookup id).symm.trans hc)
    exact hkept id c₀ hc₀
  · have hnone := Option.map_eq_none_iff.mp ((hlookup id).symm.trans hid)
    rw [← h.fresh id hnone]
    unfold account trades
    simp [hfresh id hnone, hfinal]

theorem finalized (h : Good host hist w) {id : Nat} {winners : List Address}
    (hr : finalizeContest host id w = (.ok winners, w')) :
    Good host ((w, .call (.finalizeContest id)) :: hist) w' := by
  have hfinal : ∀ id', finalizes host id' (w, .call (.finalizeContest id)) = (id == id') := by
    intro id'
    rw [finalizes_eq, hr]
  obtain ⟨c, w₁, hc, hstatus, hprizes, hw'⟩ := finalizeContest_ok hr
  have hk := h.kept id c hc
  have hdecided := decided_sorted host (deriveTiebreakNonce host c.randomSeed w.ledger.sequence) hk.keyed
  change Decided { c with winners := c.winnersOf host w, status := .finalized } at hdecided
  cases hk.stage with
  | done hdone => rw [hstatus] at hdone; cases hdone
  | running _ _ _ hnone hfinalized =>
    -- at most three winners, none of whom has a prize of this contest yet
    have hlength : (c.winnersOf host w).length ≤ 3 := by
      have hcount : (c.winnersOf host w).length = min 3 _ := hdecided.count
      omega
    obtain ⟨m, hw₁, hsum, hothers⟩ := distributePrizePool_ok hk.pool hdecided.distinct hlength
      (fun p => hk.ident ▸ hnone p) hprizes
    have hident := hk.ident
    subst hident hw₁ hw'
    change Good host _ (w.decided m c.id { c with winners := c.winnersOf host w, status := .finalized })
    have hother : ∀ id', id' ≠ c.id → account host ((w, .call (.finalizeContest c.id)) :: hist)
        (w.decided m c.id { c with winners := c.winnersOf host w, status := .finalized }) id' =
          account host hist w id' := fun id' hid =>
      account_decided (fun _ => rfl) ((hfinal id').trans (beq_false_of_ne (Ne.symm hid))) hid fun p =>
        hothers _ fun q _ heq => hid (Prod.mk.inj heq).1
    have hlookup : ∀ id', (w.store.contests.insert c.id
        { c with winners := c.winnersOf host w, status := .finalized }).lookup id' =
        if id' = c.id then some { c with winners := c.winnersOf host w, status := .finalized }
        else w.store.contests.lookup id' := fun id' => Store.lookup_insert_eq ..
    refine ⟨h.nodup.filter _, fun id' c' hc' => ?_, fun id' c' hc' => ?_, fun id' hid' => ?_⟩
    · have hc'' := (hlookup id').symm.trans hc'
      split at hc''
      · rename_i heq
        rw [heq]
        exact h.counter c.id c hc
      · exact h.counter id' c' hc''
    · have hc'' := (hlookup id').symm.trans hc'
      split at hc''
      · rename_i heq
        cases hc''
        rw [heq]
        refine ⟨rfl, hk.pool, hk.keyed, hk.scored, hk.totals, hk.absent,
          .done rfl ?_ hdecided hsum (fun p hp => ?_) ?_⟩
        · simp [account, World.decided]
        · refine (hothers _ fun q hq heq => ?_).trans (hnone p)
          exact hp ((Prod.mk.inj heq).2 ▸ hq)
        · change List.countP _ _ = 1
          rw [countP_cons_of_pos (by rw [hfinal]; exact beq_self_eq_true _)]
          exact congrArg (· + 1) hfinalized
      · rename_i hne
        rw [hother id' hne]
        exact h.kept id' c' hc''
    · have hid'' := (hlookup id').symm.trans hid'
      split at hid''
      · cases hid''
      · rename_i hne
        rw [hother id' hne]
        exact h.fresh id' hid''

end Good

end Step

theorem good_deployed (host : Host) (ledger : Ledger) : Good host [] (.deployed ledger) :=
  ⟨.nil, nofun, nofun, fun _ _ => rfl⟩

/-- A step that is regular keeps the contests good. -/
theorem Good.step {host : Host} {hist : List (World × Event)} {w w' : World} {ev : Event} (h : Good host hist w)
    (hregular : Regular w ev) (hs : Step host w ev w') : Good host ((w, ev) :: hist) w' := by
  obtain ⟨-, hw'⟩ := hs
  rw [hw']
  cases ev with
  | advance ledger =>
    refine h.stay ?_ w (.advance ledger) (fun _ _ => rfl) fun _ => rfl
    rfl
  | call c =>
    rw [next]
    cases c with
    | createContest name startTime endTime metric minSignals prizePool =>
      rcases exec_cases (invoke host (.createContest name startTime endTime metric minSignals prizePool)) w with
        ⟨u, hr⟩ | hsame
      · obtain ⟨n, hr⟩ := void_ok.mp hr
        obtain ⟨c, hident, hpool, hentries, hwinners, hstatus, hw⟩ := createContest_ok hr
        rw [hw]
        exact h.created hident hpool hentries hwinners hstatus w _ (fun _ _ => rfl) fun _ => rfl
      · refine h.stay (congrArg World.store hsame) w _ (fun _ _ => ?_) fun _ => ?_
        · rfl
        · rfl
    | autoEnterSignal signal =>
      refine h.updated (fun _ => rfl) (fun c hc => if_neg fun hopen => hc hopen.1) (fun id c hc => ?_)
        fun _ _ _ => rfl
      exact (h.kept id c hc).entered w.ledger.timestamp signal
    | applyTradeToContestEntries signalId provider tradeRoi volume =>
      -- the history counts the trade for the contests for which the code does
      have hcounted : ∀ id p, countedTrade id p (w, .call (.applyTradeToContestEntries signalId provider tradeRoi
          volume)) = if provider = p ∧ w.Counts id signalId provider then some (tradeRoi, volume) else none :=
        fun _ _ => rfl
      refine h.updated (fun _ => rfl) (fun c hc => if_neg fun hopen => hc hopen.1) (fun id c hc => ?_)
        fun id hid p => ?_
      · refine (h.kept id c hc).traded (w.Counts id signalId provider) ?_ ?_ rfl ?_
        · unfold World.Counts
          rw [hc]
          simp
        · intro hstatus hcounts
          obtain ⟨c', hc', hwindow, e, he, hlists⟩ := hcounts
          cases hc.symm.trans hc'
          have hkey : id ∈ w.store.contests.keys := AList.mem_keys.mp (AList.lookup_isSome.mp (by rw [hc]; rfl))
          intro e' he'
          cases he.symm.trans he'
          exact hregular id hkey c hc hstatus hwindow.1 hwindow.2 e he hlists
        · intro q
          change trades id q _ = if _ then _ :: trades id q hist else trades id q hist
          unfold trades
          rw [filterMap_cons, hcounted]
          by_cases hq : q = provider
          · subst hq
            by_cases hcounts : w.Counts id signalId q
            · simp [hcounts]
            · simp [hcounts]
          · simp [hq, Ne.symm hq]
      · rw [hcounted]
        refine if_neg ?_
        rintro ⟨-, c, hc, -⟩
        cases hid.symm.trans hc
    | finalizeContest id =>
      -- an error leaves the world, and the history has no finalization for it
      rcases hr : finalizeContest host id w with ⟨_ | winners, w₁⟩
      · have hsame : (invoke host (.finalizeContest id)).exec w = w :=
          exec_of_error (bind_error.mpr (.inl hr))
        rw [hsame]
        refine h.stay rfl w _ (fun _ _ => rfl) fun id' => ?_
        rw [finalizes_eq, hr]
      · have hok : (invoke host (.finalizeContest id)).exec w = w₁ :=
          exec_of_ok (a := ()) (void_ok.mpr ⟨winners, hr⟩)
        rw [hok]
        exact h.finalized hr

/-- In a run in which no trade counts for a contest after its finalization, every contest is finalized at most once,
and its winners, scores and prizes agree with the history. -/
theorem contests_awarded (host : Host) (ledger : Ledger) {hist : List (World × Event)} {w : World}
    (hrun : Trace (fun a ev b => Regular a ev ∧ Step host a ev b) (.deployed ledger) hist w) :
    (∀ id, hist.countP (finalizes host id) ≤ 1) ∧
      ∀ id c, w.store.contests.lookup id = some c → Awarded hist w id c := by
  have hgood : Good host hist w := hrun.invariant (good_deployed host ledger) fun _ _ _ _ h hs => h.step hs.1 hs.2
  refine ⟨fun id => ?_, fun id c hc => (hgood.kept id c hc).awarded⟩
  cases hc : w.store.contests.lookup id with
  | some c => exact (hgood.kept id c hc).stage.finalized_le
  | none =>
    have hzero : hist.countP (finalizes host id) = 0 := congrArg Account.finalized (hgood.fresh id hc)
    omega

namespace Sample

/-- The digest is the one of the first contest at ledger 20. -/
def host : Host where
  sha256 _ := ⟨[
    221, 180, 222, 99, 53, 248, 45, 80, 30, 127, 7, 191, 127, 49, 165, 252, 48, 149, 39, 94, 43, 80,
    139, 252, 142, 58, 222, 156, 231, 91, 172, 107], rfl⟩
  strkey a := [71, 65, UInt8.ofNat a.id]
  rank a := a.id

def alice : Address := ⟨1⟩
def bob : Address := ⟨2⟩
def carol : Address := ⟨3⟩
def dave : Address := ⟨4⟩

def ledger : Ledger := ⟨100, 10⟩

def trading (signalId : Nat) (provider : Address) (roi : Int) : Event :=
  .call (.applyTradeToContestEntries signalId provider roi 1000)

/-- A contest from 100 to 200 with a pool of 9999, which four providers enter. -/
def entered : List Event :=
  [.call (.createContest "roi" 100 200 .highestROI 1 9999), .call (.autoEnterSignal ⟨1, alice⟩),
    .call (.autoEnterSignal ⟨2, bob⟩), .call (.autoEnterSignal ⟨3, carol⟩), .call (.autoEnterSignal ⟨4, dave⟩),
    trading 1 alice 300, trading 2 bob (-100), trading 3 carol 300, trading 4 dave 200, .advance ⟨200, 20⟩]

def run (l : List Event) : World := l.foldl (next host) (.deployed ledger)

def history (l : List Event) : List (World × Event) := (Reaches.visited (next host) (.deployed ledger) l).reverse

/-- The contest is finalized in its last second, after the last trade. -/
def regular : List Event := entered ++ [trading 2 bob 350, .call (.finalizeContest 1)]

/-- The prizes of the three winners, from the best one down. -/
theorem regular_awarded : ∃ c, (run regular).store.contests.lookup 1 = some c ∧
    c.winners = [alice, carol, bob] ∧ c.winners.map (getProviderPrize (run regular) 1) = [4999, 2999, 1999] ∧
    Awarded (history regular) (run regular) 1 c := by
  have halong : Reaches.Along (next host) (fun a ev => Regular a ev ∧ Allowed a ev) (.deployed ledger) regular := by
    decide +kernel
  have hrun : Trace (fun a ev b => Regular a ev ∧ Step host a ev b) (.deployed ledger) (history regular)
      (run regular) := (Trace.of_along halong).mono fun _ _ _ h => ⟨h.1.1, h.1.2, h.2⟩
  obtain ⟨c, hc, hvalues⟩ := Option.map_eq_some_iff.mp (by decide +kernel :
    ((run regular).store.contests.lookup 1).map
      (fun c => (c.winners, c.winners.map (getProviderPrize (run regular) 1))) =
        some ([alice, carol, bob], [4999, 2999, 1999]))
  obtain ⟨hwinners, hprizes⟩ := Prod.mk.inj hvalues
  exact ⟨c, hc, hwinners, hprizes, (contests_awarded host ledger hrun).2 1 c hc⟩

/-- The same trade, in the same second, but after the finalization. -/
def late : List Event := entered ++ [.call (.finalizeContest 1), trading 2 bob 350]

/-- The trade is applied within the window for a signal that the entry lists, and is missing in the score. -/
theorem late_trade_missing : Trace (Step host) (.deployed ledger) (history late) (run late) ∧
    (trades 1 bob (history late) = [(350, 1000), (-100, 1000)]) ∧
    ((run late).store.contests.lookup 1).map (fun c => (c.scoreOf bob, c.winners)) =
      some (-100, [alice, carol, dave]) ∧
    ¬ ∀ id c, (run late).store.contests.lookup id = some c → Awarded (history late) (run late) id c := by
  have htrades : trades 1 bob (history late) = [(350, 1000), (-100, 1000)] := by decide +kernel
  refine ⟨Trace.of_along (by decide +kernel), htrades, by decide +kernel, fun h => ?_⟩
  obtain ⟨c, hc, hvalues⟩ := Option.map_eq_some_iff.mp (by decide +kernel :
    ((run late).store.contests.lookup 1).map (fun c => (c.metric, (c.entries.lookup bob).map (·.score))) =
      some (.highestROI, some (-100)))
  obtain ⟨hmetric, hentry⟩ := Prod.mk.inj hvalues
  obtain ⟨e, he, hscore⟩ := Option.map_eq_some_iff.mp hentry
  have hsum := (h 1 c hc).scores (.inl hmetric) bob e he
  rw [htrades, hscore, hmetric] at hsum
  exact absurd hsum (by decide)

end Sample

end CallStake.Contests
