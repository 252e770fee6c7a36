import Mathlib.Algebra.BigOperators.Finprod
import Mathlib.Algebra.Order.BigOperators.Group.List
import Mathlib.Tactic.Abel

/-!
# Sums over windows of a history

Amounts with the day of each, and their sums over windows of days.

* `within a b h`: the sum over the days from `a` on and before `b`. `within_consecutive`: windows that meet
  add up. `sum_days`, `finsum_days`: the sum over all days.
* `Snapshot`: a day, and the history until then. `Before`: the history goes on, on that day or later.
* `sum_series`: windows that end on the day of their snapshot, this day included, and start `n` days before
  it, for snapshots every `n` days. Their sum is that of all days, plus what each snapshot but the last has
  seen of its own day, which is counted twice; `sum_series_iff`: this is nothing iff no such day has
  any amount yet.
-/

namespace CallStake

open List

namespace Dated

/-- The sum of the amounts of the days from `a` on and before `b`. -/
def within {ι M : Type} [LinearOrder ι] [AddMonoid M] (a b : ι) (h : List (ι × M)) : M :=
  ((h.filter fun e => a ≤ e.1 ∧ e.1 < b).map Prod.snd).sum

/-- The sum of all amounts. -/
def total {ι M : Type} [AddMonoid M] (h : List (ι × M)) : M := (h.map Prod.snd).sum

theorem total_append {ι M : Type} [AddMonoid M] {h h' : List (ι × M)} :
    total (h ++ h') = total h + total h' := by
  unfold total
  rw [map_append, sum_append]

section Sums

variable {ι M : Type} [LinearOrder ι] [AddCommMonoid M] {a b c : ι} {h h' : List (ι × M)} {e : ι × M}

@[simp] theorem within_nil : within a b ([] : List (ι × M)) = 0 := rfl

theorem within_cons : within a b (e :: h) = (if a ≤ e.1 ∧ e.1 < b then e.2 else 0) + within a b h := by
  unfold within
  rw [filter_cons]
  by_cases he : a ≤ e.1 ∧ e.1 < b
  · simp [he]
  · simp [he]

theorem within_append : within a b (h ++ h') = within a b h + within a b h' := by
  unfold within
  rw [filter_append, map_append, sum_append]

theorem within_congr {a' b' : ι} (heq : ∀ e ∈ h, (a ≤ e.1 ∧ e.1 < b) ↔ (a' ≤ e.1 ∧ e.1 < b')) :
    within a b h = within a' b' h := by
  unfold within
  rw [filter_congr fun e he => decide_eq_decide.mpr (heq e he)]

/-- Windows that meet add up. -/
theorem within_consecutive (hab : a ≤ b) (hbc : b ≤ c) :
    within a b h + within b c h = within a c h := by
  induction h with
  | nil => simp
  | cons e h ih =>
    rw [within_cons, within_cons, within_cons, ← ih, add_add_add_comm]
    congr 1
    by_cases hb : e.1 < b
    · rw [if_neg (fun he : b ≤ e.1 ∧ e.1 < c => absurd hb (not_lt.mpr he.1)), add_zero]
      exact if_congr (and_congr_right fun _ => ⟨fun _ => hb.trans_le hbc, fun _ => hb⟩) rfl rfl
    · rw [if_neg (fun he : a ≤ e.1 ∧ e.1 < b => hb he.2), zero_add]
      exact if_congr (and_congr_left fun _ => ⟨hab.trans, fun _ => not_lt.mp hb⟩) rfl rfl

theorem within_all (hall : ∀ e ∈ h, a ≤ e.1 ∧ e.1 < b) : within a b h = total h := by
  unfold within total
  rw [List.filter_eq_self.mpr fun e he => decide_eq_true (hall e he)]

theorem within_none (hnone : ∀ e ∈ h, ¬ (a ≤ e.1 ∧ e.1 < b)) : within a b h = 0 := by
  unfold within
  rw [List.filter_eq_nil_iff.mpr fun e he hin => hnone e he (of_decide_eq_true hin)]
  rfl

end Sums

section Days

variable {M : Type} [AddCommMonoid M] {h : List (ℕ × M)} {n : ℕ}

theorem sum_days (h : List (ℕ × M)) (n : ℕ) :
    ∑ day ∈ Finset.range n, within day (day + 1) h = within 0 n h := by
  induction n with
  | zero => exact (within_none fun e _ he => absurd he.2 (Nat.not_lt_zero _)).symm
  | succ n ih => rw [Finset.sum_range_succ, ih, within_consecutive (Nat.zero_le n) (Nat.le_succ n)]

theorem sum_range'_days (h : List (ℕ × M)) (a n : ℕ) :
    ((List.range' a n).map fun day => within day (day + 1) h).sum = within a (a + n) h := by
  induction n generalizing a with
  | zero => exact (within_none fun e _ he => absurd he.2 (by omega)).symm
  | succ n ih =>
    rw [List.range'_succ, map_cons, sum_cons, ih,
      within_consecutive (Nat.le_succ a) (Nat.le_add_right _ n), Nat.succ_add_eq_add_succ]

/-- The sum over all days is the total. -/
theorem finsum_days (hpast : ∀ e ∈ h, e.1 < n) : ∑ᶠ day, within day (day + 1) h = total h := by
  have hsupport : Function.support (fun day => within day (day + 1) h) ⊆ (Finset.range n : Set ℕ) := by
    intro day hday
    by_contra hlate
    refine hday (within_none fun e he hin => hlate ?_)
    have := hpast e he
    exact Finset.mem_coe.mpr (Finset.mem_range.mpr (by omega))
  rw [finsum_eq_sum_of_support_subset _ hsupport, sum_days]
  exact within_all fun e he => ⟨Nat.zero_le _, hpast e he⟩

end Days

/-! ## Amounts that are not negative -/

section Order

variable {ι M : Type} [LinearOrder ι] [AddCommMonoid M] [PartialOrder M] [IsOrderedAddMonoid M] {a b c : ι}
  {h : List (ι × M)}

theorem within_nonneg (hpos : ∀ e ∈ h, 0 ≤ e.2) : 0 ≤ within a b h := by
  refine sum_nonneg fun x hx => ?_
  obtain ⟨e, he, rfl⟩ := List.mem_map.mp hx
  exact hpos e (List.mem_filter.mp he).1

theorem within_le_total (hpos : ∀ e ∈ h, 0 ≤ e.2) : within a b h ≤ total h := by
  induction h with
  | nil => exact le_refl _
  | cons e h ih =>
    have ih := ih fun e' he' => hpos e' (mem_cons_of_mem _ he')
    have htotal : total (e :: h) = e.2 + total h := sum_cons
    rw [within_cons, htotal]
    refine add_le_add ?_ ih
    split
    · exact le_refl _
    · exact hpos e mem_cons_self

/-- Positive amounts add up to nothing where there are none. -/
theorem within_eq_zero_iff (hpos : ∀ e ∈ h, 0 < e.2) :
    within a b h = 0 ↔ ∀ e ∈ h, ¬ (a ≤ e.1 ∧ e.1 < b) := by
  refine ⟨fun hsum e he hin => ?_, within_none⟩
  have hmem : e.2 ∈ (h.filter fun e => a ≤ e.1 ∧ e.1 < b).map Prod.snd :=
    mem_map_of_mem (List.mem_filter.mpr ⟨he, decide_eq_true hin⟩)
  have hnonneg : ∀ x ∈ (h.filter fun e => a ≤ e.1 ∧ e.1 < b).map Prod.snd, 0 ≤ x := by
    intro x hx
    obtain ⟨e', he', rfl⟩ := List.mem_map.mp hx
    exact (hpos e' (List.mem_filter.mp he').1).le
  exact (hpos e he).ne' (all_zero_of_le_zero_le_of_sum_eq_zero hnonneg hsum hmem)

end Order

end Dated

/-! ## Snapshots of a history -/

/-- A day, and the history until then. -/
structure Snapshot (M : Type) where
  day : ℕ
  past : List (ℕ × M)

namespace Snapshot

open Dated

variable {M : Type}

/-- The history goes on, on the day of the snapshot or later. -/
structure Before (s s' : Snapshot M) : Prop where
  day : s.day ≤ s'.day
  past : ∃ later, s'.past = s.past ++ later ∧ ∀ e ∈ later, s.day ≤ e.1

theorem Before.refl (s : Snapshot M) : s.Before s := ⟨le_refl _, [], (append_nil _).symm, by simp⟩

theorem Before.trans {s s' s'' : Snapshot M} (h : s.Before s') (h' : s'.Before s'') : s.Before s'' := by
  obtain ⟨later, hpast, hlater⟩ := h.past
  obtain ⟨later', hpast', hlater'⟩ := h'.past
  refine ⟨h.day.trans h'.day, later ++ later', by rw [hpast', hpast, append_assoc], fun e he => ?_⟩
  rcases List.mem_append.mp he with he | he
  · exact hlater e he
  · exact h.day.trans (hlater' e he)

/-- Snapshots of one history, `n` days apart. -/
def Series (n : ℕ) : List (Snapshot M) → Prop := List.IsChain fun s s' => s.Before s' ∧ s'.day = s.day + n

theorem Series.before_last {n : ℕ} {s : Snapshot M} {l : List (Snapshot M)} (h : Series n (s :: l)) :
    s.Before ((s :: l).getLast (cons_ne_nil s l)) := by
  induction l generalizing s with
  | nil => exact .refl s
  | cons t l ih =>
    obtain ⟨⟨hbefore, -⟩, h⟩ := List.isChain_cons_cons.mp h
    rw [getLast_cons_cons]
    exact hbefore.trans (ih h)

variable [AddCommMonoid M]

/-- What the snapshot sees of the `n` days before it and of its own day. -/
def window (n : ℕ) (s : Snapshot M) : M := within (s.day - n) (s.day + 1) s.past

/-- What the snapshot sees of its own day. -/
def sameDay (s : Snapshot M) : M := within s.day (s.day + 1) s.past

/-- Two windows that share the day of the first snapshot. -/
theorem Before.add_within {s t : Snapshot M} (h : s.Before t) {a : ℕ} (ha : a ≤ s.day) :
    within a (s.day + 1) s.past + within s.day (t.day + 1) t.past = within a (t.day + 1) t.past + s.sameDay := by
  obtain ⟨later, hpast, hlater⟩ := h.past
  have hday := h.day
  have hnew : within a (t.day + 1) later = within s.day (t.day + 1) later := by
    refine within_congr fun e he => and_congr_left fun _ => ?_
    have := hlater e he
    omega
  unfold sameDay
  rw [hpast, within_append, within_append, hnew,
    ← within_consecutive (by omega : a ≤ s.day + 1) (by omega : s.day + 1 ≤ t.day + 1),
    ← within_consecutive (by omega : s.day ≤ s.day + 1) (by omega : s.day + 1 ≤ t.day + 1)]
  abel

section Series

variable {n : ℕ} {s : Snapshot M} {l : List (Snapshot M)}

/-- The sum of the windows is the sum over all days, plus what was seen of the days that are shared. -/
theorem sum_series (h : Series n (s :: l)) :
    ((s :: l).map (window n)).sum =
      within (s.day - n) (((s :: l).getLast (cons_ne_nil s l)).day + 1)
        ((s :: l).getLast (cons_ne_nil s l)).past + ((s :: l).dropLast.map sameDay).sum := by
  induction l generalizing s with
  | nil => simp [window]
  | cons t l ih =>
    have hlast := h.before_last
    obtain ⟨⟨-, hapart⟩, h⟩ := List.isChain_cons_cons.mp h
    have ih := ih h
    rw [getLast_cons_cons] at hlast ⊢
    have hstart : t.day - n = s.day := by omega
    rw [hstart] at ih
    rw [map_cons, sum_cons, ih, dropLast_cons_cons, map_cons, sum_cons, ← add_assoc,
      ← add_assoc, window, hlast.add_within (Nat.sub_le s.day n)]

end Series

/-- Every amount is counted once iff nothing was seen of the days that are shared. -/
theorem sum_series_iff {M : Type} [AddCommGroup M] [PartialOrder M] [IsOrderedAddMonoid M] {n : ℕ}
    {s : Snapshot M} {l : List (Snapshot M)} (h : Series n (s :: l))
    (hpos : ∀ t ∈ s :: l, ∀ e ∈ t.past, 0 ≤ e.2) :
    ((s :: l).map (window n)).sum =
        within (s.day - n) (((s :: l).getLast (cons_ne_nil s l)).day + 1)
          ((s :: l).getLast (cons_ne_nil s l)).past ↔
      ∀ t ∈ (s :: l).dropLast, t.sameDay = 0 := by
  have hnonneg : ∀ x ∈ (s :: l).dropLast.map sameDay, 0 ≤ x := by
    intro x hx
    obtain ⟨t, ht, rfl⟩ := List.mem_map.mp hx
    exact within_nonneg (hpos t (mem_of_mem_dropLast ht))
  rw [sum_series h, add_eq_left]
  constructor
  · intro hsum t ht
    exact all_zero_of_le_zero_le_of_sum_eq_zero hnonneg hsum (mem_map_of_mem ht)
  · intro hnone
    refine sum_eq_zero fun x hx => ?_
    obtain ⟨t, ht, rfl⟩ := List.mem_map.mp hx
    exact hnone t ht

end Snapshot

end CallStake
