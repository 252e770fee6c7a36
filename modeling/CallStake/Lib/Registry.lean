import Mathlib.Data.List.Nodup

/-!
# Lists of entries with identifiers

A list in which an entry is looked up by its identifier, from the front. Nothing makes identifiers
distinct: an entry behind another one with the same identifier is never found.

* `first key l i`: the first entry with identifier `i`.
* `updateFirst key l i f`: that entry replaced.
* `mem_updateFirst`, `first_updateFirst`: what the list has and what is found after a replacement.
* `Lists ids P`: a list of identifiers without duplicates, of exactly those with `P`.
-/

namespace CallStake.Registry

open List

variable {α ι : Type} [DecidableEq ι] (key : α → ι)

/-- The first entry with the identifier. -/
def first (l : List α) (i : ι) : Option α := l.find? fun e => key e = i

/-- The list with that entry replaced. -/
def updateFirst : List α → ι → (α → α) → List α
  | [], _, _ => []
  | e :: l, i, f => if key e = i then f e :: l else e :: updateFirst l i f

variable {key} {l : List α} {i j : ι} {e : α} {f : α → α}

theorem mem_of_first (h : first key l i = some e) : e ∈ l := mem_of_find?_eq_some h

theorem key_of_first (h : first key l i = some e) : key e = i := by
  simpa using List.find?_some h

/-- An entry of the updated list is an old one, or the first one replaced. -/
theorem mem_updateFirst (h : e ∈ updateFirst key l i f) :
    e ∈ l ∨ ∃ e₀, first key l i = some e₀ ∧ e = f e₀ := by
  induction l with
  | nil => cases h
  | cons a l ih =>
    unfold updateFirst at h
    split at h
    · rename_i hk
      rcases List.mem_cons.mp h with rfl | h
      · exact .inr ⟨a, by simp [first, hk], rfl⟩
      · exact .inl (mem_cons_of_mem _ h)
    · rename_i hk
      rcases List.mem_cons.mp h with rfl | h
      · exact .inl (mem_cons_self ..)
      · rcases ih h with h | ⟨e₀, hfirst, rfl⟩
        · exact .inl (mem_cons_of_mem _ h)
        · exact .inr ⟨e₀, by simpa [first, hk] using hfirst, rfl⟩

/-- What is found after a replacement that keeps the identifier. -/
theorem first_updateFirst (hf : ∀ e, key (f e) = key e) :
    first key (updateFirst key l i f) j = if j = i then (first key l i).map f else first key l j := by
  induction l with
  | nil => simp [first, updateFirst]
  | cons a l ih =>
    unfold updateFirst
    by_cases hk : key a = i
    · by_cases hj : j = i
      · simp [first, hk, hj, hf]
      · have : ¬ key a = j := fun h => hj (h.symm.trans hk)
        simp [first, hj, this]
        simp [hk, hf, Ne.symm hj]
    · simp only [if_neg hk, first, List.find?_cons]
      by_cases hj : key a = j
      · have : j ≠ i := fun h => hk (hj.trans h)
        simp [hj, this]
      · simp [hj, hk]
        exact ih

/-- A replacement keeps the positions. -/
theorem getElem?_updateFirst {n : Nat} (h : l[n]? = some e) :
    (updateFirst key l i f)[n]? = some e ∨ (updateFirst key l i f)[n]? = some (f e) := by
  induction l generalizing n with
  | nil => simp at h
  | cons a l ih =>
    unfold updateFirst
    cases n with
    | zero =>
      simp at h
      subst h
      split
      · exact .inr rfl
      · exact .inl rfl
    | succ n =>
      simp at h
      split
      · exact .inl (by simpa using h)
      · simpa using ih h

theorem length_updateFirst : (updateFirst key l i f).length = l.length := by
  induction l with
  | nil => rfl
  | cons a l ih =>
    unfold updateFirst
    split
    · rfl
    · simp [ih]

/-- The entry that is found is the one with no other of its identifier before it. -/
theorem first_eq_of_getElem? {n : Nat} (h : l[n]? = some e) (hk : key e = i)
    (hfirst : ∀ m a, m < n → l[m]? = some a → key a ≠ i) : first key l i = some e := by
  induction l generalizing n with
  | nil => simp at h
  | cons a l ih =>
    cases n with
    | zero =>
      simp at h
      subst h
      simp [first, hk]
    | succ n =>
      have ha : key a ≠ i := hfirst 0 a (Nat.succ_pos n) rfl
      have hl := ih (by simpa using h) fun m b hm hb =>
        hfirst (m + 1) b (Nat.succ_lt_succ hm) (by simpa using hb)
      simpa [first, ha] using hl

/-- The entry that is replaced is the one with no other of its identifier before it. -/
theorem updateFirst_getElem? {n : Nat} (h : l[n]? = some e) (hk : key e = i)
    (hfirst : ∀ m a, m < n → l[m]? = some a → key a ≠ i) :
    (updateFirst key l i f)[n]? = some (f e) := by
  induction l generalizing n with
  | nil => simp at h
  | cons a l ih =>
    unfold updateFirst
    cases n with
    | zero =>
      simp at h
      subst h
      simp [hk]
    | succ n =>
      have ha : key a ≠ i := hfirst 0 a (Nat.succ_pos n) rfl
      have hl := ih (by simpa using h) fun m b hm hb =>
        hfirst (m + 1) b (Nat.succ_lt_succ hm) (by simpa using hb)
      simpa [ha] using hl

/-! ## Lists of identifiers -/

/-- The list has every identifier with `P` once, and no other. -/
structure Lists (ids : List ι) (P : ι → Prop) : Prop where
  nodup : ids.Nodup
  mem_iff : ∀ i, i ∈ ids ↔ P i

section Lists

variable {ids l l' : List ι} {P Q : ι → Prop}

omit [DecidableEq ι] in
theorem Lists.nil (h : ∀ i, ¬ P i) : Lists [] P := ⟨nodup_nil, fun i => by simp [h i]⟩

omit [DecidableEq ι] in
theorem Lists.congr (h : Lists ids P) (hQ : ∀ j, Q j ↔ P j) : Lists ids Q :=
  ⟨h.nodup, fun j => (h.mem_iff j).trans (hQ j).symm⟩

omit [DecidableEq ι] in
/-- A new identifier comes last. -/
theorem Lists.append (h : Lists ids P) (hi : ¬ P i) (hQ : ∀ j, Q j ↔ P j ∨ j = i) :
    Lists (ids ++ [i]) Q where
  nodup := by
    refine List.nodup_append.mpr ⟨h.nodup, nodup_singleton i, ?_⟩
    rintro a ha b hb rfl
    rw [mem_singleton] at hb
    subst hb
    exact hi ((h.mem_iff a).mp ha)
  mem_iff j := by rw [mem_append, mem_singleton, h.mem_iff, hQ]

theorem Lists.erase (h : Lists ids P) (hQ : ∀ j, Q j ↔ j ≠ i ∧ P j) : Lists (ids.erase i) Q where
  nodup := h.nodup.erase i
  mem_iff j := by rw [h.nodup.mem_erase_iff, h.mem_iff, hQ]

omit [DecidableEq ι] in
/-- An identifier is left out of the list. -/
theorem Lists.leaveOut (h : Lists (l ++ i :: l') P) (hQ : ∀ j, Q j ↔ j ≠ i ∧ P j) : Lists (l ++ l') Q where
  nodup := (List.nodup_middle.mp h.nodup).of_cons
  mem_iff j := by
    have hnot : i ∉ l ++ l' := (List.nodup_cons.mp (List.nodup_middle.mp h.nodup)).1
    rw [hQ, ← h.mem_iff, mem_append, mem_append, mem_cons]
    by_cases hj : j = i
    · subst hj
      simpa using hnot
    · simp [hj]

end Lists

end CallStake.Registry
