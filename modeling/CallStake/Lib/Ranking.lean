import Mathlib.Data.Set.Card

/-!
# Ranked lists

Lists in strictly ascending order of a key, into which elements are inserted, and of which only the first places are
kept.

* `insertBefore p x l`: `x` in front of the first element of `l` that passes the test.
* `insertBefore_perm`, `insertBefore_sorted`: where the test is that `x` comes before, the list stays ranked.
* `mem_take_iff`: an element is within the first places iff few elements come before it.
* `countP_eq_ncard`: how many elements come before, counted by the names of the elements.
-/

namespace CallStake

open List

variable {α β γ : Type}

/-- `x` in front of the first element of the list that passes the test, or at the end. -/
def insertBefore (p : α → Bool) (x : α) (l : List α) : List α := l.take (l.findIdx p) ++ x :: l.drop (l.findIdx p)

theorem insertBefore_perm (p : α → Bool) (x : α) (l : List α) : (insertBefore p x l).Perm (x :: l) := by
  have h : (insertBefore p x l).Perm (x :: (l.take (l.findIdx p) ++ l.drop (l.findIdx p))) := perm_middle
  rwa [take_append_drop] at h

@[simp] theorem mem_insertBefore {p : α → Bool} {x y : α} {l : List α} : y ∈ insertBefore p x l ↔ y = x ∨ y ∈ l := by
  rw [(insertBefore_perm p x l).mem_iff, mem_cons]

section Sorted

variable [LinearOrder β] {key : α → β} {l : List α}

theorem insertBefore_sorted {p : α → Bool} {x : α} (hsorted : l.Pairwise (key · < key ·))
    (hp : ∀ y ∈ l, p y = true ↔ key x < key y) (hne : ∀ y ∈ l, key y ≠ key x) :
    (insertBefore p x l).Pairwise (key · < key ·) := by
  have hfront : ∀ y ∈ l.take (l.findIdx p), key y < key x := by
    intro y hy
    obtain ⟨i, hi, rfl⟩ := List.mem_take_iff_getElem.mp hy
    have hmem : l[i] ∈ l := getElem_mem _
    have hfail : p l[i] = false := not_of_lt_findIdx (lt_of_lt_of_le hi (Nat.min_le_left _ _))
    rw [← Bool.not_eq_true, hp _ hmem, not_lt] at hfail
    exact lt_of_le_of_ne hfail (hne _ hmem)
  have hback : ∀ y ∈ l.drop (l.findIdx p), key x < key y := by
    intro y hy
    by_cases hlt : l.findIdx p < l.length
    · have hpass : key x < key l[l.findIdx p] := (hp _ (getElem_mem _)).mp findIdx_getElem
      have hsplit := hsorted
      rw [← take_append_drop (l.findIdx p) l, drop_eq_getElem_cons hlt] at hsplit
      rw [drop_eq_getElem_cons hlt] at hy
      rcases List.mem_cons.mp hy with rfl | hy
      · exact hpass
      · exact hpass.trans ((List.pairwise_cons.mp (List.pairwise_append.mp hsplit).2.1).1 y hy)
    · rw [drop_eq_nil_of_le (by omega)] at hy
      exact absurd hy not_mem_nil
  unfold insertBefore
  refine List.pairwise_append.mpr ⟨hsorted.sublist (take_sublist _ _), ?_, fun a ha b hb => ?_⟩
  · exact List.pairwise_cons.mpr ⟨hback, hsorted.sublist (drop_sublist _ _)⟩
  · rcases List.mem_cons.mp hb with rfl | hb
    · exact hfront a ha
    · exact (hfront a ha).trans (hback b hb)

/-- The first `n` places are those with fewer than `n` elements before them. -/
theorem mem_take_iff (hsorted : l.Pairwise (key · < key ·)) (n : Nat) {x : α} :
    x ∈ l.take n ↔ x ∈ l ∧ l.countP (key · < key x) < n := by
  induction l generalizing n with
  | nil => simp
  | cons a l ih =>
    obtain ⟨hfirst, hrest⟩ := List.pairwise_cons.mp hsorted
    cases n with
    | zero => simp
    | succ n =>
      rw [take_succ_cons, mem_cons, mem_cons, ih hrest n]
      by_cases hx : x ∈ l
      · have hcount : (a :: l).countP (key · < key x) = l.countP (key · < key x) + 1 :=
          countP_cons_of_pos (decide_eq_true (hfirst x hx))
        have hne : x ≠ a := by rintro rfl; exact lt_irrefl _ (hfirst x hx)
        simp [hx, hne, hcount]
      · refine ⟨fun h => ?_, fun h => .inl (h.1.resolve_right hx)⟩
        obtain rfl := h.resolve_right fun h => hx h.1
        refine ⟨.inl rfl, ?_⟩
        have hzero : (x :: l).countP (key · < key x) = 0 := by
          refine List.countP_eq_zero.mpr fun y hy => ?_
          rw [decide_eq_true_eq, not_lt]
          rcases List.mem_cons.mp hy with rfl | hy
          · exact le_rfl
          · exact (hfirst y hy).le
        omega

end Sorted

/-- Elements with different names, counted by their names. -/
theorem countP_eq_ncard {name : α → γ} {l : List α} (hnodup : (l.map name).Nodup) (p : α → Bool) :
    l.countP p = {c | ∃ x ∈ l, p x = true ∧ name x = c}.ncard := by
  classical
  have hset : {c | ∃ x ∈ l, p x = true ∧ name x = c} = (((l.filter p).map name).toFinset : Set γ) := by
    ext c
    simp [and_assoc]
  rw [hset, Set.ncard_coe_finset, toFinset_card_of_nodup, length_map, countP_eq_length_filter]
  exact hnodup.sublist (List.filter_sublist.map name)

end CallStake
