import Mathlib.Data.List.Count
import Mathlib.Data.List.Sort

/-!
# Sorted lists

* `bubblePass key k l`: `k` comparisons of neighbours from the front on, each of which moves the larger element
  up. `bubbleSort key l`: the passes of the two nested loops.
* `bubbleSortBy swap`: the same loops with the comparison of the code, `bubbleSortBy_eq`.
* `bubbleSort_perm`, `bubbleSort_sorted`: it sorts by the key.
* `le_of_rank`/`ge_of_rank`: the element at a rank of a sorted list, bounded by a count of the elements below or
  above a bound.
* `countP_le_of_sorted`/`countP_ge_of_sorted`: how many elements are at most, or at least, the one at a rank.
* `swapInsertionSort`: an element is swapped back until the one before it is not larger. It is the insertion sort
  of the library (`swapInsertionSort_eq`).
* `middleValue`: the middle element of the sorted list, or the mean of the two middle ones, rounded down.
  `middleValue_perm`: the order of the list does not matter.
-/

namespace CallStake

open List

/-! ## Bubble sort -/

variable {α β : Type}

section Bubble

variable [LinearOrder β] (key : α → β)

/-- `for j in 0..k { if l[j] > l[j + 1] { swap } }`. -/
def bubblePass : Nat → List α → List α
  | k + 1, a :: b :: l =>
    if key b < key a then b :: bubblePass k (a :: l) else a :: bubblePass k (b :: l)
  | _, l => l

/-- `for i in 0..len { for j in 0..(len - i - 1) { .. } }`. -/
def bubbleSort (l : List α) : List α :=
  (List.range l.length).foldl (fun l' i => bubblePass key (l.length - i - 1) l') l

/-- The same pass, with a test for neighbours in the wrong order. -/
def bubblePassBy (swap : α → α → Bool) : Nat → List α → List α
  | k + 1, a :: b :: l =>
    if swap a b then b :: bubblePassBy swap k (a :: l) else a :: bubblePassBy swap k (b :: l)
  | _, l => l

/-- The passes of the two nested loops. -/
def bubbleSortBy (swap : α → α → Bool) (l : List α) : List α :=
  (List.range l.length).foldl (fun l' i => bubblePassBy swap (l.length - i - 1) l') l

variable {key}

/-- A test that compares a key sorts by it. -/
theorem bubbleSortBy_eq {swap : α → α → Bool} (h : ∀ a b, swap a b = true ↔ key b < key a) (l : List α) :
    bubbleSortBy swap l = bubbleSort key l := by
  have hpass : ∀ k l', bubblePassBy swap k l' = bubblePass key k l' := by
    intro k l'
    fun_induction bubblePass key k l' with
    | case1 _ a b _ hlt ih => rw [bubblePassBy, if_pos ((h a b).mpr hlt), ih]
    | case2 _ a b _ hge ih => rw [bubblePassBy, if_neg (fun hs => hge ((h a b).mp hs)), ih]
    | case3 _ _ hne =>
      unfold bubblePassBy
      split
      · exact absurd rfl (hne _ _ _ _ rfl)
      · rfl
  unfold bubbleSortBy bubbleSort
  simp only [hpass]

theorem bubblePass_perm (k : Nat) (l : List α) : (bubblePass key k l).Perm l := by
  fun_induction bubblePass key k l with
  | case1 _ a b l _ ih => exact (ih.cons b).trans (.swap a b l)
  | case2 _ a _ _ _ ih => exact ih.cons a
  | case3 => exact .refl _

/-- The last element that a pass compares is a largest one of those it compares. -/
theorem bubblePass_max {a : α} {l : List α} : ∃ front m, bubblePass key l.length (a :: l) = front ++ [m] ∧
    ∀ x ∈ a :: l, key x ≤ key m := by
  induction l generalizing a with
  | nil => exact ⟨[], a, rfl, by simp⟩
  | cons b l ih =>
    rw [length_cons, bubblePass]
    split
    · rename_i hlt
      obtain ⟨front, m, hpass, hmax⟩ := ih (a := a)
      refine ⟨b :: front, m, by rw [hpass, cons_append], fun x hx => ?_⟩
      rcases List.mem_cons.mp hx with rfl | hx
      · exact hmax x (mem_cons_self ..)
      · rcases List.mem_cons.mp hx with rfl | hx
        · exact hlt.le.trans (hmax a (mem_cons_self ..))
        · exact hmax x (mem_cons_of_mem _ hx)
    · rename_i hge
      obtain ⟨front, m, hpass, hmax⟩ := ih (a := b)
      refine ⟨a :: front, m, by rw [hpass, cons_append], fun x hx => ?_⟩
      rcases List.mem_cons.mp hx with rfl | hx
      · exact (not_lt.mp hge).trans (hmax b (mem_cons_self ..))
      · exact hmax x hx

/-- A pass leaves alone what is behind the elements it compares. -/
theorem bubblePass_append {k : Nat} {front back : List α} (hk : k < front.length) :
    bubblePass key k (front ++ back) = bubblePass key k front ++ back := by
  induction k generalizing front with
  | zero => simp [bubblePass]
  | succ k ih =>
    match front with
    | [] => simp at hk
    | [a] => simp at hk
    | a :: b :: front =>
      rw [cons_append, cons_append, bubblePass, bubblePass]
      split
      · rw [← cons_append, ih (by simpa using hk), cons_append]
      · rw [← cons_append, ih (by simpa using hk), cons_append]

/-- The last `i` elements are in their place. -/
structure BubbleInv (key : α → β) (l : List α) (i : Nat) (l' : List α) : Prop where
  perm : l'.Perm l
  settled : ∃ front back, l' = front ++ back ∧ back.length = i ∧ back.Pairwise (key · ≤ key ·) ∧
    ∀ x ∈ front, ∀ y ∈ back, key x ≤ key y

theorem BubbleInv.pass {l l' : List α} {i : Nat} (h : BubbleInv key l i l') (hi : i < l.length) :
    BubbleInv key l (i + 1) (bubblePass key (l.length - i - 1) l') where
  perm := (bubblePass_perm _ _).trans h.perm
  settled := by
    obtain ⟨front, back, rfl, hback, hsorted, hle⟩ := h.settled
    have hlen : front.length + i = l.length := by
      rw [← h.perm.length_eq, length_append, hback]
    match front with
    | [] => simp at hlen; omega
    | a :: front =>
      have hk : l.length - i - 1 = front.length := by
        rw [length_cons] at hlen
        omega
      rw [hk, bubblePass_append (by rw [length_cons]; omega)]
      obtain ⟨front', m, hpass, hmax⟩ : ∃ front' m, bubblePass key front.length (a :: front) = front' ++ [m] ∧
          ∀ x ∈ a :: front, key x ≤ key m := bubblePass_max
      have hmem : ∀ x, x ∈ front' ++ [m] ↔ x ∈ a :: front := by
        intro x
        rw [← hpass]
        exact (bubblePass_perm _ _).mem_iff
      refine ⟨front', m :: back, by rw [hpass, append_assoc, singleton_append],
        by rw [length_cons, hback], ?_, ?_⟩
      · rw [pairwise_cons]
        exact ⟨fun y hy => hle m ((hmem m).mp (by simp)) y hy, hsorted⟩
      · intro x hx y hy
        have hxfront := (hmem x).mp (mem_append_left _ hx)
        rcases List.mem_cons.mp hy with rfl | hy
        · exact hmax x hxfront
        · exact hle x hxfront y hy

theorem bubbleInv_bubbleSort (l : List α) : BubbleInv key l l.length (bubbleSort key l) := by
  have hrounds : ∀ n ≤ l.length, BubbleInv key l n
      ((List.range n).foldl (fun l' i => bubblePass key (l.length - i - 1) l') l) := by
    intro n hn
    induction n with
    | zero => exact ⟨.refl _, l, [], by simp, rfl, .nil, by simp⟩
    | succ n ih =>
      rw [range_succ, foldl_append]
      exact (ih (by omega)).pass (by omega)
  exact hrounds l.length le_rfl

theorem bubbleSort_perm (l : List α) : (bubbleSort key l).Perm l := (bubbleInv_bubbleSort l).perm

theorem BubbleInv.sorted {l l' : List α} (h : BubbleInv key l l.length l') : l'.Pairwise (key · ≤ key ·) := by
  obtain ⟨front, back, heq, hback, hsorted, -⟩ := h.settled
  have hlen := h.perm.length_eq
  rw [heq, length_append, hback] at hlen
  obtain rfl : front = [] := List.length_eq_zero_iff.mp (by omega)
  rw [heq]
  exact hsorted

theorem bubbleSort_sorted (l : List α) : (bubbleSort key l).Pairwise (key · ≤ key ·) :=
  (bubbleInv_bubbleSort l).sorted

@[simp] theorem mem_bubbleSort {a : α} {l : List α} : a ∈ bubbleSort key l ↔ a ∈ l := (bubbleSort_perm l).mem_iff

end Bubble

/-! ## Ranks -/

section Ranks

variable [LinearOrder β] {key : α → β} {l : List α} {i : Nat}

/-- Up to the element at a rank, all are at most it. -/
theorem countP_le_of_sorted (hsorted : l.Pairwise (key · ≤ key ·)) (hi : i < l.length) :
    i + 1 ≤ l.countP (key · ≤ key l[i]) := by
  have hall : (l.take (i + 1)).countP (key · ≤ key l[i]) = (l.take (i + 1)).length := by
    rw [countP_eq_length]
    intro x hx
    obtain ⟨j, hj, rfl⟩ := getElem_of_mem hx
    rw [length_take] at hj
    rw [getElem_take, decide_eq_true_eq]
    rcases Nat.lt_or_ge j i with hlt | hge
    · exact List.pairwise_iff_getElem.mp hsorted j i (by omega) hi hlt
    · obtain rfl : j = i := by omega
      exact le_rfl
  calc i + 1 = (l.take (i + 1)).length := by rw [length_take]; omega
    _ = (l.take (i + 1)).countP (key · ≤ key l[i]) := hall.symm
    _ ≤ l.countP (key · ≤ key l[i]) := (take_sublist _ _).countP_le

/-- From the element at a rank on, all are at least it. -/
theorem countP_ge_of_sorted (hsorted : l.Pairwise (key · ≤ key ·)) (hi : i < l.length) :
    l.length - i ≤ l.countP (key l[i] ≤ key ·) := by
  have hall : (l.drop i).countP (key l[i] ≤ key ·) = (l.drop i).length := by
    rw [countP_eq_length]
    intro x hx
    obtain ⟨j, hj, rfl⟩ := getElem_of_mem hx
    rw [length_drop] at hj
    rw [getElem_drop, decide_eq_true_eq]
    rcases Nat.eq_zero_or_pos j with rfl | hpos
    · exact le_rfl
    · exact List.pairwise_iff_getElem.mp hsorted i (i + j) hi (by omega) (by omega)
  calc l.length - i = (l.drop i).length := List.length_drop.symm
    _ = (l.drop i).countP (key l[i] ≤ key ·) := hall.symm
    _ ≤ l.countP (key l[i] ≤ key ·) := (drop_sublist _ _).countP_le

/-- If few elements are below a bound, the element at a rank is not. -/
theorem ge_of_rank (hsorted : l.Pairwise (key · ≤ key ·)) (hi : i < l.length) {lo : β}
    (hfew : l.countP (key · < lo) ≤ i) : lo ≤ key l[i] := by
  by_contra hlt
  have hle := countP_le_of_sorted hsorted hi
  have hmono : l.countP (key · ≤ key l[i]) ≤ l.countP (key · < lo) :=
    countP_mono_left fun x _ hx => decide_eq_true ((of_decide_eq_true hx).trans_lt (not_le.mp hlt))
  omega

/-- If few elements are above a bound, the element at a rank is not. -/
theorem le_of_rank (hsorted : l.Pairwise (key · ≤ key ·)) (hi : i < l.length) {hi' : β}
    (hfew : l.countP (hi' < key ·) < l.length - i) : key l[i] ≤ hi' := by
  by_contra hlt
  have hge := countP_ge_of_sorted hsorted hi
  have hmono : l.countP (key l[i] ≤ key ·) ≤ l.countP (hi' < key ·) :=
    countP_mono_left fun x _ hx => decide_eq_true ((not_le.mp hlt).trans_le (of_decide_eq_true hx))
  omega

end Ranks

/-! ## Insertion sort and the middle element -/

section FirstBy

variable [DecidableEq β] {key : α → β} {l : List α} {x : α}

/-- The elements whose key no earlier element has. -/
def firstBy (key : α → β) : List α → List α
  | [] => []
  | x :: l => x :: (firstBy key l).filter fun y => key y ≠ key x

theorem firstBy_sublist (key : α → β) (l : List α) : (firstBy key l).Sublist l := by
  induction l with
  | nil => exact .slnil
  | cons x l ih => exact (List.filter_sublist.trans ih).cons_cons x

theorem firstBy_eq_self (h : (l.map key).Nodup) : firstBy key l = l := by
  induction l with
  | nil => rfl
  | cons x l ih =>
    obtain ⟨hx, hl⟩ := List.nodup_cons.mp h
    rw [firstBy, ih hl]
    refine congrArg (x :: ·) (List.filter_eq_self.mpr fun y hy => ?_)
    rw [decide_eq_true_eq]
    intro hsame
    exact hx (hsame ▸ mem_map_of_mem hy)

/-- Of the elements whose key has not been seen, one that comes first counts. -/
theorem filter_firstBy_cons (seen : List β) :
    (firstBy key (x :: l)).filter (fun y => key y ∉ seen) =
      if key x ∈ seen then (firstBy key l).filter fun y => key y ∉ seen
      else x :: (firstBy key l).filter fun y => key y ∉ seen ++ [key x] := by
  rw [firstBy]
  split
  · rename_i hseen
    rw [filter_cons_of_neg (by simpa using hseen), filter_filter]
    refine filter_congr fun y _ => ?_
    by_cases hy : key y ∈ seen
    · simp [hy]
    · have hne : key y ≠ key x := by
        intro hsame
        exact hy (hsame ▸ hseen)
      simp [hne]
  · rename_i hseen
    rw [filter_cons_of_pos (by simpa using hseen), filter_filter]
    refine congrArg (x :: ·) (filter_congr fun y _ => ?_)
    simp

end FirstBy

section Insertion

variable [LinearOrder α] {l l' : List α}

/-- `while j > 0 && sorted[j - 1] > sorted[j] { swap; j -= 1 }`: `x` among the elements before it, the nearest one
first. -/
def sink (x : α) : List α → List α
  | [] => [x]
  | y :: before => if x < y then y :: sink x before else x :: y :: before

/-- `for i in 1..len`. -/
def swapInsertionSort (l : List α) : List α := (l.foldl (fun before x => sink x before) []).reverse

theorem sink_eq (x : α) (l : List α) : sink x l = l.orderedInsert (· ≥ ·) x := by
  induction l with
  | nil => rfl
  | cons y before ih =>
    rw [sink, orderedInsert_cons, ih]
    by_cases h : x < y
    · rw [if_pos h, if_neg (not_le.mpr h)]
    · rw [if_neg h, if_pos (not_lt.mp h)]

theorem swapInsertionSort_eq (l : List α) : swapInsertionSort l = l.insertionSort (· ≤ ·) := by
  have hdown : l.foldl (fun before x => sink x before) [] = l.reverse.insertionSort (· ≥ ·) := by
    rw [List.insertionSort, foldr_reverse]
    exact congrArg (fun f => l.foldl f []) (funext fun before => funext fun x => sink_eq x before)
  have hperm : (swapInsertionSort l).Perm (l.insertionSort (· ≤ ·)) := by
    rw [swapInsertionSort, hdown]
    exact (reverse_perm _).trans ((perm_insertionSort _ _).trans
      ((reverse_perm l).trans (perm_insertionSort _ l).symm))
  refine hperm.eq_of_pairwise' ?_ (pairwise_insertionSort (· ≤ ·) l)
  rw [swapInsertionSort, hdown, pairwise_reverse]
  exact pairwise_insertionSort (· ≥ ·) l.reverse

theorem swapInsertionSort_perm (l : List α) : (swapInsertionSort l).Perm l := by
  rw [swapInsertionSort_eq]
  exact perm_insertionSort (· ≤ ·) l

theorem swapInsertionSort_congr (h : l.Perm l') : swapInsertionSort l = swapInsertionSort l' := by
  rw [swapInsertionSort_eq, swapInsertionSort_eq]
  exact ((perm_insertionSort _ l).trans (h.trans (perm_insertionSort _ l').symm)).eq_of_pairwise'
    (pairwise_insertionSort (· ≤ ·) l) (pairwise_insertionSort (· ≤ ·) l')

end Insertion

section Middle

variable {l l' : List Int}

/-- The middle of the sorted list; of two middle elements, their mean, rounded down. -/
def middleValue (l : List Int) : Int :=
  let sorted := l.insertionSort (· ≤ ·)
  let mid := l.length / 2
  if l.length % 2 = 1 then sorted.getD mid 0 else (sorted.getD (mid - 1) 0 + sorted.getD mid 0) / 2

theorem middleValue_perm (h : l.Perm l') : middleValue l = middleValue l' := by
  have hsorted := swapInsertionSort_congr h
  rw [swapInsertionSort_eq, swapInsertionSort_eq] at hsorted
  unfold middleValue
  rw [hsorted, h.length_eq]

end Middle

end CallStake
