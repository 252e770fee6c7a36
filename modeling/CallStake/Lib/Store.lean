import Mathlib.Data.List.AList
import Mathlib.Algebra.Order.Group.Unbundled.Int
import Mathlib.Algebra.Order.BigOperators.Group.List
import Mathlib.Algebra.BigOperators.Ring.List
import Mathlib.Algebra.BigOperators.Group.Finset.Piecewise
import Mathlib.Tactic.Abel

/-!
# Finite key-value stores

A store is an association list with distinct keys (`AList`), so a sum over its values is a finite
sum. `Store.total f s` adds up `f v` over the stored values `v`.

* `lookup_insert_eq`/`lookup_erase_eq`: reading any key after a write or a removal.
* `total_insert`/`total_erase`: a write changes the total by the new value minus the replaced one.
* `total_add`, `total_mul`, `total_congr`, `total_mono`: the total of a sum, of a multiple, of equal
  and of smaller values; `total_update`: two sums that differ at one key.
* `total_le_total`: the totals of two stores, one with smaller values at fewer keys.
* `total_eq_sum`: the total as a sum over any set of keys that has all the keys of the store.
* `sum_map_update`: a sum over a list of keys, where one value changes.
* `part_le_total`: one value is at most the total when all values are nonnegative.
-/

namespace CallStake

/-- A finite map from `κ` to `ν`. -/
abbrev Store (κ ν : Type) := AList fun _ : κ => ν

namespace Store

variable {κ ν : Type}

/-- The sum of `f v` over the stored values. -/
def total (f : ν → Int) (s : Store κ ν) : Int := (s.entries.map fun e => f e.2).sum

@[simp] theorem total_empty (f : ν → Int) : total f (∅ : Store κ ν) = 0 := rfl

theorem total_add (f g : ν → Int) (s : Store κ ν) :
    total (fun v => f v + g v) s = total f s + total g s := List.sum_map_add

theorem total_mul (c : Int) (f : ν → Int) (s : Store κ ν) :
    total (fun v => c * f v) s = c * total f s := List.sum_map_mul_left _ _ _

variable [DecidableEq κ]

theorem lookup_empty_ne {k : κ} {v : ν} : ¬ (∅ : Store κ ν).lookup k = some v := by
  rw [AList.lookup_empty]
  nofun

theorem lookup_insert_eq (s : Store κ ν) (k k' : κ) (v : ν) :
    (s.insert k v).lookup k' = if k' = k then some v else s.lookup k' := by
  by_cases h : k' = k
  · subst h; simp
  · rw [AList.lookup_insert_ne h, if_neg h]

theorem lookup_erase_eq (s : Store κ ν) (k k' : κ) :
    (s.erase k).lookup k' = if k' = k then none else s.lookup k' := by
  by_cases h : k' = k
  · subst h; simp
  · rw [AList.lookup_erase_ne h, if_neg h]

/-- Reading any key with a default after a write. -/
theorem getD_insert (s : Store κ ν) (k k' : κ) (v d : ν) :
    ((s.insert k v).lookup k').getD d = if k' = k then v else (s.lookup k').getD d := by
  rw [lookup_insert_eq]
  split <;> rfl

/-- `f` of the value at `k`, `0` if there is none. -/
def part (f : ν → Int) (s : Store κ ν) (k : κ) : Int := (s.lookup k).elim 0 f

theorem part_none {f : ν → Int} {s : Store κ ν} {k : κ} (h : s.lookup k = none) : part f s k = 0 := by simp [part, h]

theorem part_some {f : ν → Int} {s : Store κ ν} {k : κ} {v : ν} (h : s.lookup k = some v) :
    part f s k = f v := by simp [part, h]

theorem part_id (s : Store κ Int) (k : κ) : part id s k = (s.lookup k).getD 0 := by
  unfold part; cases s.lookup k <;> rfl

/-- Taking out the entry of `k` takes its value out of the sum. -/
private theorem sum_kerase (f : ν → Int) (l : List (Sigma fun _ : κ => ν)) (k : κ) :
    ((List.kerase k l).map fun e => f e.2).sum = (l.map fun e => f e.2).sum - (List.dlookup k l).elim 0 f := by
  induction l with
  | nil => simp
  | cons e l ih =>
    obtain ⟨k', v⟩ := e
    by_cases h : k = k'
    · subst h; simp
    · have hk : List.dlookup k (⟨k', v⟩ :: l) = List.dlookup k l := List.dlookup_cons_ne l ⟨k', v⟩ h
      rw [List.kerase_cons_ne h, hk]
      simp [ih]
      abel

theorem total_erase (f : ν → Int) (s : Store κ ν) (k : κ) :
    total f (s.erase k) = total f s - part f s k := sum_kerase f s.entries k

/-- A write changes the total by the new value minus the one it replaces. -/
theorem total_insert (f : ν → Int) (s : Store κ ν) (k : κ) (v : ν) :
    total f (s.insert k v) = total f s - part f s k + f v := by
  have h := sum_kerase f s.entries k
  simp [total, part, h, AList.lookup]
  abel

theorem mem_entries_iff {s : Store κ ν} {e : Sigma fun _ : κ => ν} :
    e ∈ s.entries ↔ s.lookup e.1 = some e.2 :=
  (List.mem_dlookup_iff s.nodupKeys).symm

/-- The stored values satisfy `P`. -/
def All (P : ν → Prop) (s : Store κ ν) : Prop := ∀ k v, s.lookup k = some v → P v

@[simp] theorem all_empty (P : ν → Prop) : All P (∅ : Store κ ν) := by
  intro k v h; simp at h

theorem All.insert {P : ν → Prop} {s : Store κ ν} {k : κ} {v : ν} (h : All P s) (hv : P v) :
    All P (s.insert k v) := by
  intro k' v' h'
  rw [lookup_insert_eq] at h'
  split at h'
  · cases h'; exact hv
  · exact h k' v' h'

theorem All.erase {P : ν → Prop} {s : Store κ ν} {k : κ} (h : All P s) : All P (s.erase k) := by
  intro k' v' h'
  rw [lookup_erase_eq] at h'
  split at h'
  · cases h'
  · exact h k' v' h'

theorem All.mono {P Q : ν → Prop} {s : Store κ ν} (h : All P s) (hpq : ∀ v, P v → Q v) :
    All Q s := fun k v hv => hpq v (h k v hv)

theorem total_nonneg {f : ν → Int} {s : Store κ ν} (h : All (0 ≤ f ·) s) : 0 ≤ total f s := by
  apply List.sum_nonneg
  intro x hx
  obtain ⟨e, he, rfl⟩ := List.mem_map.mp hx
  exact h e.1 e.2 (mem_entries_iff.mp he)

theorem part_nonneg {f : ν → Int} {s : Store κ ν} (h : All (0 ≤ f ·) s) (k : κ) :
    0 ≤ part f s k := by
  unfold part
  cases hk : s.lookup k with
  | none => exact Int.le_refl 0
  | some v => exact h k v hk

/-- One value is at most the total, when no value is negative. -/
theorem part_le_total {f : ν → Int} {s : Store κ ν} (h : All (0 ≤ f ·) s) (k : κ) :
    part f s k ≤ total f s := by
  have h1 := total_erase f s k
  have h2 := total_nonneg (h.erase (k := k))
  omega

theorem total_congr {f g : ν → Int} {s : Store κ ν} (h : All (fun v => f v = g v) s) :
    total f s = total g s := by
  unfold total
  congr 1
  exact List.map_congr_left fun e he => h e.1 e.2 (mem_entries_iff.mp he)

theorem total_mono {f g : ν → Int} {s : Store κ ν} (h : All (fun v => f v ≤ g v) s) :
    total f s ≤ total g s := by
  unfold total
  exact List.sum_le_sum fun e he => h e.1 e.2 (mem_entries_iff.mp he)

/-- The total of one store is at most that of another that has a larger value at each key. -/
theorem total_le_total {μ : Type} {f : ν → Int} {g : μ → Int} {s : Store κ ν} {t : Store κ μ}
    (hg : All (0 ≤ g ·) t)
    (h : ∀ k v, s.lookup k = some v → ∃ u, t.lookup k = some u ∧ f v ≤ g u) :
    total f s ≤ total g t := by
  induction s using AList.insertRec generalizing t with
  | H0 => exact total_nonneg hg
  | IH k v s hk ih =>
    obtain ⟨u, hu, hle⟩ := h k v (AList.lookup_insert _)
    have hnone : s.lookup k = none := AList.lookup_eq_none.mpr hk
    have hrest : total f s ≤ total g (t.erase k) := by
      refine ih hg.erase fun k' v' hv' => ?_
      have hne : k' ≠ k := by
        rintro rfl
        rw [hnone] at hv'
        cases hv'
      obtain ⟨u', hu', hle'⟩ := h k' v' (by rw [AList.lookup_insert_ne hne]; exact hv')
      exact ⟨u', by rw [AList.lookup_erase_ne hne]; exact hu', hle'⟩
    have h1 := total_insert f s k v
    have h2 := total_erase g t k
    rw [part_none hnone] at h1
    rw [part_some hu] at h2
    omega

/-- The total as a sum over keys; keys that the store does not have count for nothing. -/
theorem total_eq_sum (f : ν → Int) (s : Store κ ν) {keys : Finset κ}
    (h : ∀ k v, s.lookup k = some v → k ∈ keys) : total f s = ∑ k ∈ keys, part f s k := by
  induction s using AList.insertRec with
  | H0 => exact (Finset.sum_eq_zero fun k _ => part_none (AList.lookup_empty k)).symm
  | IH k v s hk ih =>
    have hnone : s.lookup k = none := AList.lookup_eq_none.mpr hk
    have hmem : k ∈ keys := h k v (AList.lookup_insert _)
    have hrest : total f s = ∑ k' ∈ keys, part f s k' := by
      refine ih fun k' v' hv' => h k' v' ?_
      rw [AList.lookup_insert_ne (by rintro rfl; rw [hnone] at hv'; cases hv')]
      exact hv'
    have hpart : ∀ k', part f (s.insert k v) k' = part f s k' + if k' = k then f v else 0 := by
      intro k'
      by_cases hkk : k' = k
      · subst hkk
        rw [part_some (AList.lookup_insert _), part_none hnone, if_pos rfl, Int.zero_add]
      · simp [part, AList.lookup_insert_ne hkk, if_neg hkk]
    rw [total_insert, part_none hnone, hrest, Finset.sum_congr rfl fun k' _ => hpart k',
      Finset.sum_add_distrib, Finset.sum_ite_eq' keys k, if_pos hmem, Int.sub_zero]

/-- Two sums that differ only at `k`. -/
theorem total_update {f g : ν → Int} {s : Store κ ν} {k : κ} {v : ν} (hv : s.lookup k = some v)
    (h : ∀ k' v', s.lookup k' = some v' → k' ≠ k → f v' = g v') :
    total g s = total f s - f v + g v := by
  have h1 := total_erase f s k
  have h2 := total_erase g s k
  have h3 : total f (s.erase k) = total g (s.erase k) := by
    refine total_congr fun k' v' hv' => ?_
    rw [lookup_erase_eq] at hv'
    split at hv'
    · cases hv'
    · exact h k' v' hv' ‹_›
  rw [part_some hv] at h1 h2
  omega

/-- The total is zero when every value counts for nothing. -/
theorem total_eq_zero {f : ν → Int} {s : Store κ ν} (h : All (f · = 0) s) : total f s = 0 := by
  apply List.sum_eq_zero
  intro x hx
  obtain ⟨e, he, rfl⟩ := List.mem_map.mp hx
  exact h e.1 e.2 (mem_entries_iff.mp he)

end Store

/-- A sum over distinct keys, with another value for one of them. -/
theorem sum_map_update {κ : Type} {l : List κ} {k : κ} {f g : κ → Int} (hnodup : l.Nodup) (hk : k ∈ l)
    (h : ∀ x ∈ l, x ≠ k → g x = f x) : (l.map g).sum = (l.map f).sum - f k + g k := by
  induction l with
  | nil => cases hk
  | cons a l ih =>
    obtain ⟨ha, hrest⟩ := List.nodup_cons.mp hnodup
    rw [List.map_cons, List.sum_cons, List.map_cons, List.sum_cons]
    rcases List.mem_cons.mp hk with rfl | hk
    · have hsame : l.map g = l.map f := by
        refine List.map_congr_left fun x hx => h x (List.mem_cons_of_mem _ hx) ?_
        rintro rfl
        exact ha hx
      rw [hsame]
      omega
    · have hne : a ≠ k := by
        rintro rfl
        exact ha hk
      rw [h a List.mem_cons_self hne, ih hrest hk fun x hx => h x (List.mem_cons_of_mem _ hx)]
      omega

end CallStake
