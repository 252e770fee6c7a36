import CallStake.SignalRegistry.Leaderboard
import Mathlib.Data.String.Basic

/-!
# The leaderboard is the top list

What the indexes hold after any updates, and what a query returns.

* `latest`: the last entry of a provider. `Precedes`: the order of a metric. `TopList`: a list ranks the last entries
  of some providers.
* `Listed`: the providers that an index still knows; one that is behind 100 others when it is updated, or later, is
  forgotten. `Full`: at most 100 providers were qualified at any time.
* `index_topList`: what one update does to an index, and all of them by induction. `leaderboard_top`: the query
  returns the first places of the listed providers, which are all the qualified ones if there were never too many.
-/

namespace CallStake.Leaderboard

open List

/-! ## The property -/

/-- The entry of the last update of a provider. -/
def latest (us : List Update) (p : Address) : Option IndexEntry := (us.find? (·.provider = p)).map Update.entry

def Qualified (us : List Update) (p : Address) : Prop := ∃ e ∈ latest us p, isQualified e = true

section Order

variable (host : Host) (m : ProviderMetric)

/-- By descending score, then by earlier registration, then by the smaller address. -/
def Precedes (a b : IndexEntry) : Prop :=
  m.score b < m.score a ∨ m.score a = m.score b ∧
    (a.registeredAt < b.registeredAt ∨ a.registeredAt = b.registeredAt ∧
      host.strkey a.provider < host.strkey b.provider)

/-- The list has the last entries of the providers in `listed`, each once and in order. -/
structure TopList (us : List Update) (listed : Address → Prop) (l : List IndexEntry) : Prop where
  distinct : (l.map (·.provider)).Nodup
  ordered : l.Pairwise (Precedes host m)
  mem : ∀ e, e ∈ l ↔ latest us e.provider = some e ∧ listed e.provider

/-- Of the providers in `listed`, those whose last entry comes before that of `p`. -/
def ahead (us : List Update) (listed : Address → Prop) (p : Address) : Set Address :=
  {q | listed q ∧ ∃ a ∈ latest us q, ∃ b ∈ latest us p, Precedes host m a b}

/-- With the last update: the provider is now qualified, and the others are as before. -/
def withUpdate (u : Update) (listed : Address → Prop) (p : Address) : Prop :=
  if p = u.provider then isQualified u.entry = true else listed p

/-- The providers that were qualified at their last update, and have not been behind 100 others since. -/
def Listed : List Update → Address → Prop
  | [], _ => False
  | u :: us, p => withUpdate u (Listed us) p ∧
    (ahead host m (u :: us) (withUpdate u (Listed us)) p).ncard < INDEX_CAPACITY

end Order

/-- At most 100 providers have been qualified at any time. -/
def Full : List Update → Prop
  | [] => True
  | u :: us => {p | Qualified (u :: us) p}.ncard ≤ INDEX_CAPACITY ∧ Full us

/-! ## The order -/

section Sorted

variable {host : Host} {m : ProviderMetric}

def sortKey (host : Host) (m : ProviderMetric) (e : IndexEntry) : Intᵒᵈ ×ₗ Nat ×ₗ String :=
  toLex (OrderDual.toDual (m.score e), toLex (e.registeredAt, host.strkey e.provider))

theorem precedes_iff {a b : IndexEntry} : Precedes host m a b ↔ sortKey host m a < sortKey host m b := by
  unfold sortKey Precedes
  rw [Prod.Lex.toLex_lt_toLex, Prod.Lex.toLex_lt_toLex]
  simp

theorem goesBefore_iff {a b : IndexEntry} :
    goesBefore host m.score a b = true ↔ sortKey host m a < sortKey host m b := by
  rw [← precedes_iff]
  unfold goesBefore Precedes
  split
  · rename_i hlt
    simp [hlt]
  · rename_i hge
    simp only [hge, false_or]
    split
    · rename_i heq
      rw [heq]
      simp only [true_and]
      split
      · rename_i hlt
        simp [hlt]
      · rename_i hnlt
        simp only [hnlt, false_or]
        split
        · rename_i hreg
          simp [hreg]
        · rename_i hreg
          simp [hreg]
    · rename_i hne
      have hne' : m.score a ≠ m.score b := fun h => hne h.symm
      simp [hne']

theorem provider_eq_of_sortKey (hstrkey : Function.Injective host.strkey) {a b : IndexEntry}
    (h : sortKey host m a = sortKey host m b) : a.provider = b.provider :=
  hstrkey (Prod.mk.inj (Prod.mk.inj h).2).2

end Sorted

/-! ## One update -/

theorem latest_cons (u : Update) (us : List Update) (p : Address) :
    latest (u :: us) p = if p = u.provider then some u.entry else latest us p := by
  unfold latest
  rw [List.find?_cons]
  by_cases hp : p = u.provider
  · simp [hp]
  · simp [hp, Ne.symm hp]

theorem latest_provider {us : List Update} {p : Address} {e : IndexEntry} (h : latest us p = some e) :
    e.provider = p := by
  obtain ⟨u, hu, rfl⟩ := Option.map_eq_some_iff.mp h
  have hprovider := List.find?_some hu
  exact of_decide_eq_true hprovider

section Update

variable {host : Host} {m : ProviderMetric} {us : List Update} {u : Update} {listed : Address → Prop}
  {l : List IndexEntry}

/-- The entry takes its place, before the capacity is looked at. -/
def placed (host : Host) (m : ProviderMetric) (u : Update) (l : List IndexEntry) : List IndexEntry :=
  if isQualified u.entry then
    insertBefore (goesBefore host m.score u.entry) u.entry (l.filter (·.provider ≠ u.provider))
  else l.filter (·.provider ≠ u.provider)

theorem TopList.sorted (h : TopList host m us listed l) : l.Pairwise (sortKey host m · < sortKey host m ·) :=
  h.ordered.imp precedes_iff.mp

theorem upsertSorted_eq (h : l.length ≤ INDEX_CAPACITY) :
    upsertSorted host l u.entry m.score = (placed host m u l).take INDEX_CAPACITY := by
  unfold upsertSorted placed
  by_cases hq : isQualified u.entry = true
  · rw [if_pos hq, if_pos hq]
    rfl
  · rw [if_neg hq, if_neg hq]
    exact (take_of_length_le ((length_filter_le _ _).trans h)).symm

/-- The list with the entry of an update ranks the providers that stand after it. -/
theorem TopList.placed (hstrkey : Function.Injective host.strkey) (h : TopList host m us listed l) :
    TopList host m (u :: us) (withUpdate u listed) (placed host m u l) := by
  have hsorted := h.sorted
  have hrest : ∀ e, e ∈ l.filter (·.provider ≠ u.provider) ↔ e ∈ l ∧ e.provider ≠ u.provider := by
    intro e
    rw [mem_filter, decide_eq_true_eq]
  -- the old entry of the provider is taken out before the new one is inserted
  have hmem : ∀ e, e ∈ Leaderboard.placed host m u l ↔
      (isQualified u.entry = true ∧ e = u.entry) ∨ e ∈ l ∧ e.provider ≠ u.provider := by
    intro e
    unfold Leaderboard.placed
    split
    · rename_i hq
      rw [mem_insertBefore, hrest]
      simp [hq]
    · rename_i hq
      rw [hrest]
      simp [hq]
  have hdistinct : (l.filter (·.provider ≠ u.provider)).Pairwise (sortKey host m · < sortKey host m ·) :=
    hsorted.sublist filter_sublist
  refine ⟨?_, ?_, fun e => ?_⟩
  · unfold Leaderboard.placed
    have hnodup : ((l.filter (·.provider ≠ u.provider)).map (·.provider)).Nodup :=
      h.distinct.sublist (List.filter_sublist.map _)
    split
    · rw [((insertBefore_perm _ _ _).map _).nodup_iff, map_cons, nodup_cons]
      refine ⟨fun hin => ?_, hnodup⟩
      obtain ⟨e, he, hprovider⟩ := List.mem_map.mp hin
      exact ((hrest e).mp he).2 hprovider
    · exact hnodup
  · refine List.Pairwise.imp precedes_iff.mpr ?_
    unfold Leaderboard.placed
    split
    · refine insertBefore_sorted hdistinct (fun _ _ => goesBefore_iff) fun e he heq => ?_
      exact ((hrest e).mp he).2 (provider_eq_of_sortKey hstrkey heq)
    · exact hdistinct
  · rw [hmem, latest_cons]
    unfold withUpdate
    by_cases hp : e.provider = u.provider
    · simp only [hp, ne_eq, not_true_eq_false, and_false, or_false, if_true]
      constructor
      · rintro ⟨hq, rfl⟩; exact ⟨rfl, hq⟩
      · rintro ⟨heq, hq⟩; exact ⟨hq, (Option.some.inj heq).symm⟩
    · have hne : e ≠ u.entry := by rintro rfl; exact hp rfl
      simp [hp, hne]
      exact h.mem e

/-- The first places of a ranked list are those of the providers that are behind few others. -/
theorem TopList.take (h : TopList host m us listed l) (n : Nat) :
    TopList host m us (fun p => listed p ∧ (ahead host m us listed p).ncard < n) (l.take n) := by
  refine ⟨?_, h.ordered.sublist (take_sublist _ _), fun e => ?_⟩
  · rw [map_take]
    exact h.distinct.sublist (take_sublist _ _)
  rw [mem_take_iff h.sorted, h.mem]
  by_cases he : latest us e.provider = some e ∧ listed e.provider
  · have hahead : ahead host m us listed e.provider =
        {q | ∃ a ∈ l, decide (sortKey host m a < sortKey host m e) = true ∧ a.provider = q} := by
      ext q
      unfold ahead
      simp
      constructor
      · rintro ⟨hq, a, ha, b, hb, hab⟩
        have ha' : latest us q = some a := ha
        cases he.1.symm.trans hb
        have hprovider := latest_provider ha'
        exact ⟨a, (h.mem a).mpr (by rw [hprovider]; exact ⟨ha', hq⟩), precedes_iff.mp hab, hprovider⟩
      · rintro ⟨a, ha, hab, rfl⟩
        obtain ⟨hlatest, hlisted⟩ := (h.mem a).mp ha
        exact ⟨hlisted, a, hlatest, e, he.1, precedes_iff.mpr hab⟩
    rw [countP_eq_ncard h.distinct, hahead, and_assoc]
  · constructor
    · exact fun hin => absurd hin.1 he
    · exact fun hin => absurd ⟨hin.1, hin.2.1⟩ he

end Update

/-! ## All updates -/

theorem index_update (host : Host) (m : ProviderMetric) (s : Storage) (u : Update) :
    (updateLeaderboardIndex host s u.provider u.stats u.stakeInfo u.createdAt).index m =
      upsertSorted host (s.index m) u.entry m.score := by
  cases m <;> rfl

/-- An index is at most full, and ranks the providers that it has not forgotten. -/
theorem index_topList {host : Host} (hstrkey : Function.Injective host.strkey) (m : ProviderMetric)
    (us : List Update) : ((run host us).index m).length ≤ INDEX_CAPACITY ∧
      TopList host m us (Listed host m us) ((run host us).index m) := by
  induction us with
  | nil =>
    have hnil : (run host []).index m = [] := by cases m <;> rfl
    rw [hnil]
    exact ⟨Nat.zero_le _, .nil, .nil, fun e => by simp [latest]⟩
  | cons u us ih =>
    rw [run, index_update, upsertSorted_eq ih.1]
    refine ⟨by rw [length_take]; omega, ?_⟩
    exact (ih.2.placed hstrkey).take INDEX_CAPACITY

theorem qualified_of_listed {host : Host} {m : ProviderMetric} {us : List Update} {p : Address}
    (h : Listed host m us p) : Qualified us p := by
  induction us with
  | nil => exact h.elim
  | cons u us ih =>
    have hstands := h.1
    unfold withUpdate at hstands
    unfold Qualified
    rw [latest_cons]
    split
    · rename_i hp
      rw [if_pos hp] at hstands
      exact ⟨_, rfl, hstands⟩
    · rename_i hp
      rw [if_neg hp] at hstands
      exact ih hstands

theorem latest_mem {us : List Update} {p : Address} {e : IndexEntry} (h : latest us p = some e) :
    p ∈ us.map (·.provider) := by
  obtain ⟨u, hu, -⟩ := Option.map_eq_some_iff.mp h
  have hprovider := List.find?_some hu
  exact List.mem_map.mpr ⟨u, mem_of_find?_eq_some hu, of_decide_eq_true hprovider⟩

/-- Only finitely many providers are qualified. -/
theorem finite_qualified (us : List Update) : {p | Qualified us p}.Finite := by
  refine Set.Finite.subset (us.map (·.provider)).finite_toSet fun p hp => ?_
  obtain ⟨e, he, -⟩ := hp
  exact latest_mem he

/-- If there were never too many, none is forgotten. -/
theorem listed_of_full {host : Host} {m : ProviderMetric} {us : List Update} (hfull : Full us) (p : Address) :
    Listed host m us p ↔ Qualified us p := by
  induction us generalizing p with
  | nil => exact ⟨False.elim, fun ⟨e, he, _⟩ => by cases he⟩
  | cons u us ih =>
    have hstands : ∀ q, withUpdate u (Listed host m us) q ↔ Qualified (u :: us) q := by
      intro q
      unfold withUpdate Qualified
      rw [latest_cons]
      split
      · exact ⟨fun h => ⟨_, rfl, h⟩, fun ⟨e, he, h⟩ => by cases he; exact h⟩
      · exact ih hfull.2 q
    refine ⟨qualified_of_listed, fun hp => ⟨(hstands p).mpr hp, ?_⟩⟩
    have hsub : ahead host m (u :: us) (withUpdate u (Listed host m us)) p ⊂ {q | Qualified (u :: us) q} := by
      refine ⟨fun q hq => (hstands q).mp hq.1, fun hall => ?_⟩
      obtain ⟨-, a, ha, b, hb, hab⟩ := hall hp
      cases ha.symm.trans hb
      exact lt_irrefl _ (precedes_iff.mp hab)
    exact (Set.ncard_lt_ncard hsub (finite_qualified _)).trans_le hfull.1

/-- A provider needs an update to be qualified. -/
theorem full_of_length_le {us : List Update} (h : us.length ≤ INDEX_CAPACITY) : Full us := by
  induction us with
  | nil => trivial
  | cons u us ih =>
    refine ⟨?_, ih (Nat.le_of_succ_le h)⟩
    classical
    have hsub : {p | Qualified (u :: us) p} ⊆ (((u :: us).map (·.provider)).toFinset : Set Address) := by
      rintro p ⟨e, he, -⟩
      exact List.mem_toFinset.mpr (latest_mem he)
    calc {p | Qualified (u :: us) p}.ncard
        ≤ (((u :: us).map (·.provider)).toFinset : Set Address).ncard :=
          Set.ncard_le_ncard hsub (Finset.finite_toSet _)
      _ = ((u :: us).map (·.provider)).toFinset.card := Set.ncard_coe_finset _
      _ ≤ ((u :: us).map (·.provider)).length := toFinset_card_le _
      _ ≤ INDEX_CAPACITY := by rw [length_map]; exact h

/-- After any updates, an index has no provider twice, qualified entries only, and is in order; a query returns the
first places of the list of all providers that were qualified at their last update and have not been behind 100
others since. These are all the qualified ones if there were at most 100 of them at any time. -/
theorem leaderboard_top (host : Host) (hstrkey : Function.Injective host.strkey) (us : List Update)
    (m : ProviderMetric) (limit : Nat) :
    (∀ e ∈ (run host us).index m, isQualified e = true) ∧
      TopList host m us (Listed host m us) ((run host us).index m) ∧
      (∀ p, Listed host m us p → Qualified us p) ∧
      (Full us → TopList host m us (Qualified us) ((run host us).index m)) ∧
      getProviderLeaderboard (run host us) m limit =
        (((run host us).index m).take (limitOf limit)).mapIdx m.view := by
  obtain ⟨-, htop⟩ := index_topList hstrkey m us
  refine ⟨fun e he => ?_, htop, fun p => qualified_of_listed, fun hfull => ?_, rfl⟩
  · obtain ⟨hlatest, hlisted⟩ := (htop.mem e).mp he
    obtain ⟨e', he', hq⟩ := qualified_of_listed hlisted
    cases hlatest.symm.trans he'
    exact hq
  · refine ⟨htop.distinct, htop.ordered, fun e => ?_⟩
    rw [htop.mem, listed_of_full hfull]

namespace Sample

def host : Host := ⟨fun a => String.ofList (List.replicate a.id 'G')⟩

theorem strkey_injective : Function.Injective host.strkey := by
  intro a b h
  have hlength := congrArg List.length (String.ofList_injective h)
  cases a
  cases b
  simpa using hlength

/-- A provider closes 10 signals with a success rate, and is copied 5 times; or is not copied at all. -/
def update (id rate copies : Nat) : Update := ⟨⟨id⟩, ⟨6, 4, copies, rate, 20⟩, none, some 7⟩

/-- The third provider is better than the first two, of which the second has the larger address; then the third is
not copied any more. -/
def few : List Update := [update 3 9000 0, update 3 9000 5, update 2 7000 5, update 1 7000 5]

/-- The list is in order, and follows when a provider leaves it. -/
theorem few_ranked : (getProviderLeaderboard (run host few.tail) .bySuccessRate 0).map (·.provider.id) = [3, 1, 2] ∧
    ((run host few).index .bySuccessRate).map (·.provider.id) = [1, 2] ∧
    TopList host .bySuccessRate few (Qualified few) ((run host few).index .bySuccessRate) := by
  obtain ⟨-, -, -, htop, -⟩ := leaderboard_top host strkey_injective few .bySuccessRate 10
  exact ⟨by decide +kernel, by decide +kernel, htop (full_of_length_le (by decide))⟩

/-- There are 101 qualified providers, of which the first is the last in rank; then the 51 best are not copied any
more. -/
def many : List Update :=
  (List.range 51).map (fun i => update (i + 51) (i + 51) 0) ++
    (List.range 101).reverse.map fun i => update (i + 1) (i + 1) 5

/-- The query for 50 providers returns 49 of the 50 that are qualified: the first one was forgotten. -/
theorem qualified_forgotten : Qualified many ⟨1⟩ ∧
    (getProviderLeaderboard (run host many) .bySuccessRate 50).map (·.provider.id) =
      ((List.range 49).map (· + 2)).reverse ∧
    ¬ ∀ us m limit, ∃ l, TopList host m us (Qualified us) l ∧
      getProviderLeaderboard (run host us) m limit = (l.take (limitOf limit)).mapIdx m.view := by
  have hqualified : Qualified many ⟨1⟩ := ⟨(update 1 1 5).entry, by decide +kernel, by decide⟩
  have hquery : (getProviderLeaderboard (run host many) .bySuccessRate 50).map (·.provider.id) =
      ((List.range 49).map (· + 2)).reverse := by decide +kernel
  refine ⟨hqualified, hquery, fun h => ?_⟩
  obtain ⟨l, htop, hl⟩ := h many .bySuccessRate 50
  rw [hl] at hquery
  have hids : ((l.take 50).map (·.provider.id)) = ((List.range 49).map (· + 2)).reverse := by
    rw [← hquery]
    refine ext_getElem? fun i => ?_
    rw [List.getElem?_map, List.getElem?_map, List.getElem?_mapIdx, Option.map_map]
    rfl
  have hshort : l.length ≤ 49 := by
    have hlength := congrArg List.length hids
    rw [length_map, length_take] at hlength
    have hright : (((List.range 49).map (· + 2)).reverse).length = 49 := by decide
    omega
  obtain ⟨e, he, hq⟩ := hqualified
  have hprovider := latest_provider he
  have hmem : e ∈ l := (htop.mem e).mpr (by rw [hprovider]; exact ⟨he, e, he, hq⟩)
  rw [take_of_length_le (by omega)] at hids
  have hid : e.provider.id ∈ ((List.range 49).map (· + 2)).reverse := hids ▸ mem_map_of_mem hmem
  rw [hprovider] at hid
  exact absurd hid (by decide)

end Sample

end CallStake.Leaderboard
