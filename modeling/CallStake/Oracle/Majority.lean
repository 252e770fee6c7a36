import CallStake.Oracle.Aggregation

/-!
# The consensus of a round

If those who submitted only prices in a range hold more than half of the weight of all who submitted, the consensus
should be in the range; several submissions should not give an oracle more influence, and the removal of oracles
should keep two.

* `Fair`: the property, of a round that was closed.
* `Sample.repeated_submissions_win`: the contract does not have it. An oracle may submit several times in a round,
  and every submission counts with the full weight.
* `Once`: an oracle does not submit while it has a submission in the round.
* `fair_of_once`: in a run in which oracles submit so, every round is fair.
-/

namespace CallStake.Oracle

open Tx List

/-! ## The property -/

namespace Storage

variable (s : Storage)

def submissions : List PriceSubmission := s.panel.priceSubmissions

/-- Those who submitted in the round. -/
def submitters : List Address := (s.submissions.map (·.oracle)).dedup

/-- The weight that the oracles have together. -/
def heldBy (oracles : List Address) : Nat := (oracles.map fun a => (s.getOracleStats a).weight).sum

/-- The oracle submitted no price outside of the range. -/
def within (lo hi : Int) (oracle : Address) : Bool :=
  s.submissions.all fun sub => sub.oracle ≠ oracle || (lo ≤ sub.price && sub.price ≤ hi)

/-- Those who submitted only prices in the range have more than half of the weight. -/
def Majority (lo hi : Int) : Prop := s.heldBy s.submitters < 2 * s.heldBy (s.submitters.filter (s.within lo hi))

/-- How many of the prices of which the median is taken come from the oracle. -/
def influence (oracle : Address) : Nat := (s.weightedPrices (s.submissions.filter (·.oracle = oracle))).length

end Storage

structure Fair (w : World) (price : Int) (w' : World) : Prop where
  majority : ∀ lo hi, 0 < lo → lo ≤ hi → w.store.Majority lo hi → lo ≤ price ∧ price ≤ hi
  influence : ∀ oracle, w.store.influence oracle ≤ (w.store.getOracleStats oracle).weight
  remaining : min 2 w.store.panel.oracles.length ≤ w'.store.panel.oracles.length

/-- The oracle has no submission in the round. -/
def Once (w : World) : Event → Prop
  | .call _ (.submitPrice oracle _) => ∀ sub ∈ w.store.submissions, sub.oracle ≠ oracle
  | _ => True

/-! ## The weighted prices -/

section Weights

variable {s : Storage} {l : List PriceSubmission}

/-- The oracles of the submissions have weight. -/
def Weighted (s : Storage) (l : List PriceSubmission) : Prop := ∀ sub ∈ l, 1 ≤ (s.getOracleStats sub.oracle).weight

theorem weightedPrices_cons (sub : PriceSubmission) : s.weightedPrices (sub :: l) =
    List.replicate (max (s.getOracleStats sub.oracle).weight 1) sub.price ++ s.weightedPrices l := rfl

theorem length_weightedPrices (h : Weighted s l) : (s.weightedPrices l).length = s.heldBy (l.map (·.oracle)) := by
  induction l with
  | nil => rfl
  | cons sub l ih =>
    have hsub := h sub (mem_cons_self ..)
    have hrest := ih fun x hx => h x (mem_cons_of_mem _ hx)
    rw [weightedPrices_cons, length_append, length_replicate, hrest]
    simp [Storage.heldBy]
    omega

/-- The prices that only bad submissions have, and the weight of the good oracles. -/
theorem countP_weightedPrices (h : Weighted s l) {good : Address → Bool} {bad : Int → Bool}
    (hbad : ∀ sub ∈ l, bad sub.price = true → good sub.oracle = false) :
    s.heldBy ((l.map (·.oracle)).filter good) + (s.weightedPrices l).countP bad ≤ s.heldBy (l.map (·.oracle)) := by
  induction l with
  | nil => exact le_rfl
  | cons sub l ih =>
    have hsub := h sub (mem_cons_self ..)
    have hrest := ih (fun x hx => h x (mem_cons_of_mem _ hx)) fun x hx => hbad x (mem_cons_of_mem _ hx)
    have hexcl := hbad sub (mem_cons_self ..)
    rw [weightedPrices_cons, countP_append, countP_replicate, map_cons, filter_cons]
    simp [Storage.heldBy] at hrest ⊢
    by_cases hb : bad sub.price = true
    · rw [if_pos hb, hexcl hb, if_neg (by simp)]
      omega
    · rw [if_neg hb]
      split
      · rw [map_cons, sum_cons]
        omega
      · omega

end Weights

/-! ## The median -/

section Median

variable {w w' : World} {p lo hi : Int}

/-- If few prices are below the range and few above it, the middle is in it. -/
theorem middle_mem {l : List Int} (hlo : 0 < lo) (hbelow : 2 * l.countP (· < lo) < l.length)
    (habove : 2 * l.countP (hi < ·) < l.length) (h : middle (bubbleSort id l) w = (.ok p, w')) :
    lo ≤ p ∧ p ≤ hi := by
  have hsorted : (bubbleSort id l).Pairwise (id · ≤ id ·) := bubbleSort_sorted l
  have hperm : (bubbleSort id l).Perm l := bubbleSort_perm l
  rw [← hperm.countP_eq, ← hperm.length_eq] at hbelow habove
  generalize bubbleSort id l = sorted at *
  -- every index that is read is in the range
  have hrank : ∀ (i : Nat) (hi' : i < sorted.length), 2 * i + 2 = sorted.length ∨ i = sorted.length / 2 →
      lo ≤ sorted[i] ∧ sorted[i] ≤ hi := fun i hi' hmid =>
    ⟨ge_of_rank hsorted hi' (by simp only [id]; omega), le_of_rank hsorted hi' (by simp only [id]; omega)⟩
  rw [middle] at h
  split at h
  · rename_i heven
    rw [bind_ofOption_ok] at h
    obtain ⟨below, hb, h⟩ := h
    rw [bind_ofOption_ok] at h
    obtain ⟨above, ha, h⟩ := h
    obtain ⟨hlt₁, rfl⟩ := List.getElem?_eq_some_iff.mp hb
    obtain ⟨hlt₂, rfl⟩ := List.getElem?_eq_some_iff.mp ha
    rw [bind_plain_ok, pure_ok] at h
    obtain ⟨-, rfl, -⟩ := h
    have h₁ := hrank _ hlt₁ (by omega)
    have h₂ := hrank _ hlt₂ (by omega)
    rw [Int.tdiv_eq_ediv_of_nonneg (by omega)]
    omega
  · obtain ⟨hm, -⟩ := Tx.ofOption_ok.mp h
    obtain ⟨hlt, rfl⟩ := List.getElem?_eq_some_iff.mp hm
    exact hrank _ hlt (by omega)

end Median

/-! ## Closing a round -/

section Round

variable {w w' : World} {p : Int}

/-- The registered oracles are the same. -/
def SameOracles (a b : World) : Prop := b.store.panel.oracles = a.store.panel.oracles

instance : IsPreorder World SameOracles where
  refl _ := rfl
  trans _ _ _ h h' := h'.trans h

instance (oracle : Address) (stats : OracleReputation) : Tx.Within SameOracles (saveOracleStats oracle stats) :=
  ⟨fun _ => rfl⟩

theorem each_removeOracleInternal_ok {l : List Address} {u : Unit}
    (h : Tx.each removeOracleInternal l w = (.ok u, w')) :
    w'.store.panel.oracles = w.store.panel.oracles.filter (· ∉ l) := by
  induction l generalizing w with
  | nil =>
    obtain ⟨-, rfl⟩ := Tx.pure_ok.mp h
    simp
  | cons oracle l ih =>
    rw [Tx.each, removeOracleInternal, bind_setPanel_ok] at h
    rw [ih h, filter_filter]
    refine filter_congr fun a _ => ?_
    simp [Bool.and_comm]

/-- The round was closed: the median is taken of the submissions, which are cleared. The oracles that should go only
do if two remain. -/
theorem calculateConsensus_ok (h : calculateConsensus w = (.ok p, w')) :
    middle (bubbleSort id (w.store.weightedPrices w.store.submissions)) w = (.ok p, w) ∧
      w'.store.submissions = [] ∧
      ∃ removed : List Address, w'.store.panel.oracles =
        if 2 ≤ w.store.panel.oracles.length - removed.length then w.store.panel.oracles.filter (· ∉ removed)
        else w.store.panel.oracles := by
  rw [calculateConsensus, bind_load_ok, bind_load_ok, bind_failIf_ok, bind_ok] at h
  obtain ⟨-, consensus, w₁, hmedian, h⟩ := h
  rw [weightedMedian, bind_load_ok] at hmedian
  have hsame : w₁ = w := Tx.Within.of_run (R := Eq) inferInstance hmedian |>.symm
  subst hsame
  rw [bind_ok] at h
  obtain ⟨_, w₂, hjudged, h⟩ := h
  rw [bind_ok] at h
  obtain ⟨removed, w₃, hadjusted, h⟩ := h
  rw [bind_ok] at h
  obtain ⟨_, w₄, hremoved, h⟩ := h
  rw [bind_timestamp_ok, bind_setPanel_ok, pure_ok] at h
  obtain ⟨rfl, rfl⟩ := h
  have horacles : SameOracles w₁ w₃ := IsTrans.trans _ _ _ (Tx.Within.of_run inferInstance hjudged)
    (Tx.Within.of_run inferInstance hadjusted)
  refine ⟨hmedian, rfl, removed, ?_⟩
  rw [when_ok] at hremoved
  rw [SameOracles] at horacles
  split at hremoved
  · rename_i htwo
    rw [if_pos htwo, ← horacles]
    have horacles' := each_removeOracleInternal_ok hremoved
    exact horacles'
  · rename_i hfew
    rw [if_neg hfew, ← horacles, hremoved]

/-- Removing some elements of a list without duplicates. -/
theorem length_filter_notMem {l : List Address} (removed : List Address) (h : l.Nodup) :
    l.length - removed.length ≤ (l.filter (· ∉ removed)).length := by
  have hsub : l.filter (· ∈ removed) ⊆ removed := fun a ha => of_decide_eq_true (List.mem_filter.mp ha).2
  have hle := ((h.filter _).subperm hsub).length_le
  have hsplit := l.length_eq_length_filter_add (fun a => decide (a ∈ removed))
  simp at hsplit ⊢
  omega

end Round

/-! ## Runs -/

section Runs

variable {w w' : World} {ev : Event}

/-- No oracle is registered twice, or submitted twice in the round; those who submitted have weight. -/
structure Orderly (s : Storage) : Prop where
  oracles : s.panel.oracles.Nodup
  submitters : (s.submissions.map (·.oracle)).Nodup
  weighted : Weighted s s.submissions

theorem Orderly.of_panel {s s' : Storage} (h : Orderly s) (heq : s'.panel = s.panel) : Orderly s' := by
  obtain ⟨h₁, h₂, h₃⟩ := h
  unfold Weighted Storage.submissions Storage.getOracleStats at *
  rw [← heq] at h₁ h₂ h₃
  exact ⟨h₁, h₂, h₃⟩

theorem registerOracle_ok {auth : Auth} {admin oracle : Address} {u : Unit}
    (h : registerOracle auth admin oracle w = (.ok u, w')) : oracle ∉ w.store.panel.oracles ∧
      w' = { w with store.panel := { w.store.panel with
        oracles := w.store.panel.oracles ++ [oracle]
        oracleStats := w.store.panel.oracleStats.insert oracle Storage.defaultReputation } } := by
  rw [registerOracle, bind_requireAuth_ok, bind_requireAdmin_ok, bind_load_ok, bind_failIf_ok, bind_setPanel_ok,
    saveOracleStats, setPanel, modify_ok] at h
  exact ⟨h.2.2.1, h.2.2.2.symm⟩

theorem submitPrice_ok {auth : Auth} {oracle : Address} {price : Int} {u : Unit}
    (h : submitPrice auth oracle price w = (.ok u, w')) : 1 ≤ (w.store.getOracleStats oracle).weight ∧
      ∃ sub : PriceSubmission, sub.oracle = oracle ∧ w' = { w with store.panel := { w.store.panel with
        priceSubmissions := w.store.panel.priceSubmissions ++ [sub] } } := by
  rw [submitPrice, bind_requireNotPaused_ok, bind_requireAuth_ok, bind_failIf_ok, bind_load_ok,
    bind_failIf_ok, bind_load_ok, bind_failIf_ok, bind_timestamp_ok, setPanel, modify_ok] at h
  obtain ⟨-, -, -, -, hweight, rfl⟩ := h
  exact ⟨Nat.one_le_iff_ne_zero.mpr hweight, _, rfl, rfl⟩

theorem removeOracle_ok {auth : Auth} {admin oracle : Address} {u : Unit}
    (h : removeOracle auth admin oracle w = (.ok u, w')) :
      w' = { w with store.panel := { w.store.panel with
        oracles := w.store.panel.oracles.filter (· ≠ oracle) } } := by
  rw [removeOracle, bind_requireAuth_ok, bind_requireAdmin_ok, removeOracleInternal, setPanel, modify_ok] at h
  exact h.2.2.symm

theorem Orderly.step (h : Orderly w.store) (honce : Once w ev) (hs : Step w ev w') : Orderly w'.store := by
  obtain ⟨-, rfl⟩ := hs
  cases ev with
  | advance => exact h
  | expire => exact h.of_panel rfl
  | call env c =>
    rw [next]
    rcases exec_cases (invoke env c) w with ⟨u, hok⟩ | hsame
    swap
    · rw [hsame]
      exact h
    have hkept := (invoke_within env c).exec w
    generalize (invoke env c).exec w = w' at hok hkept ⊢
    cases c with
    | registerOracle _ oracle =>
      obtain ⟨hnew, rfl⟩ := registerOracle_ok hok
      refine ⟨List.nodup_append.mpr ⟨h.oracles, nodup_singleton _, ?_⟩, h.submitters, fun sub hsub => ?_⟩
      · rintro a ha b hb rfl
        exact hnew (List.mem_singleton.mp hb ▸ ha)
      · -- the weight of an oracle that comes back is 1
        rw [Storage.getOracleStats, Store.lookup_insert_eq]
        split
        · exact le_rfl
        · exact h.weighted sub hsub
    | submitPrice =>
      obtain ⟨hweight, sub, rfl, rfl⟩ := submitPrice_ok hok
      refine ⟨h.oracles, ?_, fun x hx => ?_⟩
      · rw [Storage.submissions, map_append, nodup_append]
        refine ⟨h.submitters, nodup_singleton _, fun a ha b hb => ?_⟩
        obtain ⟨x, hx, rfl⟩ := List.mem_map.mp ha
        rw [map_singleton, mem_singleton] at hb
        rw [hb]
        exact honce x hx
      · rcases List.mem_append.mp hx with hx | hx
        · exact h.weighted x hx
        · rw [List.mem_singleton.mp hx]
          exact hweight
    | calculateConsensus =>
      obtain ⟨p, hok⟩ := Tx.void_ok.mp hok
      obtain ⟨-, hcleared, removed, horacles⟩ := calculateConsensus_ok hok
      refine ⟨?_, by rw [hcleared]; exact .nil, fun x hx => by rw [hcleared] at hx; cases hx⟩
      rw [horacles]
      split
      · exact h.oracles.filter _
      · exact h.oracles
    | removeOracle =>
      rw [removeOracle_ok hok]
      exact ⟨h.oracles.filter _, h.submitters, h.weighted⟩
    | addPriceSource =>
      obtain ⟨-, -, hok⟩ := authThenAdmin_ok hok
      rw [setPanel, modify_ok] at hok
      subst hok
      exact ⟨h.oracles, h.submitters, h.weighted⟩
    | _ => exact h.of_panel (hkept.panel (by simp [Call.writes]))

/-- Those who stay in a range with more than half of the weight keep the median in it. -/
theorem Orderly.majority {p lo hi : Int} (h : Orderly w.store) (hlo : 0 < lo) (hmajority : w.store.Majority lo hi)
    (hmedian : middle (bubbleSort id (w.store.weightedPrices w.store.submissions)) w = (.ok p, w)) :
    lo ≤ p ∧ p ≤ hi := by
  rw [Storage.Majority, Storage.submitters, List.dedup_eq_self.mpr h.submitters,
    ← length_weightedPrices h.weighted] at hmajority
  -- a price outside of the range is not of an oracle that stays within
  have hfew : ∀ bad : Int → Bool, (∀ x, bad x = true → ¬ (lo ≤ x ∧ x ≤ hi)) →
      2 * (w.store.weightedPrices w.store.submissions).countP bad <
        (w.store.weightedPrices w.store.submissions).length := by
    intro bad hout
    have hbad : ∀ sub ∈ w.store.submissions, bad sub.price = true → w.store.within lo hi sub.oracle = false := by
      intro sub hsub hb
      refine Bool.eq_false_iff.mpr fun hin => ?_
      have hx := List.all_eq_true.mp hin sub hsub
      simp at hx
      exact hout _ hb hx
    have hle := countP_weightedPrices h.weighted hbad
    rw [← length_weightedPrices h.weighted] at hle
    omega
  refine middle_mem hlo (hfew _ fun x hx hin => ?_) (hfew _ fun x hx hin => ?_) hmedian
  · exact absurd (of_decide_eq_true hx) (not_lt.mpr hin.1)
  · exact absurd (of_decide_eq_true hx) (not_lt.mpr hin.2)

theorem Orderly.influence (h : Orderly w.store) (oracle : Address) :
    w.store.influence oracle ≤ (w.store.getOracleStats oracle).weight := by
  have hweighted : Weighted w.store (w.store.submissions.filter (·.oracle = oracle)) :=
    fun sub hsub => h.weighted sub (List.mem_filter.mp hsub).1
  have hmap : (w.store.submissions.filter (·.oracle = oracle)).map (·.oracle) =
      List.replicate ((w.store.submissions.map (·.oracle)).count oracle) oracle := by
    rw [← filter_beq, filter_map]
    rfl
  have hcount := List.nodup_iff_count_le_one.mp h.submitters oracle
  rw [Storage.influence, length_weightedPrices hweighted, hmap, Storage.heldBy, map_replicate, sum_replicate_nat]
  exact (Nat.mul_le_mul_right _ hcount).trans (Nat.one_mul _).le

end Runs

/-- In a run in which no oracle submits twice in a round, every round that is closed is fair. -/
theorem fair_of_once {ledger : Ledger} {w : World} {p : Int}
    (h : Reaches (fun a ev b => Once a ev ∧ Step a ev b) (.deployed ledger) w)
    (hok : (calculateConsensus w).1 = .ok p) : Fair w p (calculateConsensus w).2 := by
  have hinit : Orderly (World.deployed ledger).store := ⟨.nil, .nil, fun _ hsub => by cases hsub⟩
  have horderly : Orderly w.store :=
    h.invariant (I := fun w => Orderly w.store) hinit fun _ _ _ hi hs => hi.step hs.1 hs.2
  have hrun : calculateConsensus w = (.ok p, (calculateConsensus w).2) := by rw [← hok]
  obtain ⟨hmedian, -, removed, horacles⟩ := calculateConsensus_ok hrun
  refine ⟨fun lo hi hlo _ hmajority => horderly.majority hlo hmajority hmedian, horderly.influence, ?_⟩
  rw [horacles]
  split
  · have := length_filter_notMem removed horderly.oracles
    omega
  · exact min_le_right _ _

namespace Sample

/-- Three oracles of the same weight. -/
def panel : List Event :=
  [.call (signedBy admin) (.initializeOracle admin xlm), .call (signedBy admin) (.registerOracle admin alice),
    .call (signedBy admin) (.registerOracle admin bob), .call (signedBy admin) (.registerOracle admin mallory)]

def vote (oracle : Address) (price : Int) : Event := .call (signedBy oracle) (.submitPrice oracle price)

/-- The state after the submissions. -/
def voted (votes : List Event) : World := (panel ++ votes).foldl next (.deployed ⟨1000, 10⟩)

/-- The consensus with which the round is closed. -/
def consensus (w : World) : Option Int := (calculateConsensus w).1.toOption

def outvoted : World := voted [vote mallory 1000, vote alice 100, vote bob 102]

/-- Two of three oracles keep the price in their range. -/
theorem two_of_three_decide :
    consensus outvoted = some 102 ∧ outvoted.store.Majority 100 102 ∧ (100 : Int) ≤ 102 ∧ (102 : Int) ≤ 102 := by
  have hrun : Reaches (fun a ev b => Once a ev ∧ Step a ev b) (.deployed ⟨1000, 10⟩) outvoted := by
    refine Reaches.of_along_and ?_
    simp [panel, vote, Reaches.Along, Once]
    decide +kernel
  have hok : (calculateConsensus outvoted).1 = .ok 102 := by decide +kernel
  have hmajority : outvoted.store.Majority 100 102 := by
    unfold Storage.Majority
    decide +kernel
  exact ⟨by decide +kernel, hmajority, (fair_of_once hrun hok).majority 100 102 (by decide) (by decide) hmajority⟩

/-- The third oracle submits three times. -/
def flooded : World := voted [vote mallory 1000, vote mallory 1000, vote mallory 1000, vote alice 100, vote bob 100]

/-- By submitting three times, one of three oracles sets the price. -/
theorem repeated_submissions_win :
    (¬ ∀ ledger w p, Reaches Step (.deployed ledger) w → (calculateConsensus w).1 = .ok p →
      Fair w p (calculateConsensus w).2) ∧
    consensus flooded = some 1000 ∧ flooded.store.Majority 100 100 ∧
    flooded.store.influence mallory = 3 ∧ (flooded.store.getOracleStats mallory).weight = 1 := by
  have hmajority : flooded.store.Majority 100 100 := by
    unfold Storage.Majority
    decide +kernel
  refine ⟨fun h => ?_, by decide +kernel, hmajority, by decide +kernel, by decide +kernel⟩
  have hrun : Reaches Step (.deployed ⟨1000, 10⟩) flooded :=
    Reaches.of_along (by decide +kernel : Reaches.Along next Allowed _ _)
  have hfair := h _ _ 1000 hrun (by decide +kernel)
  exact absurd (hfair.majority 100 100 (by decide) (by decide) hmajority).2 (by decide)

end Sample

end CallStake.Oracle
