import CallStake.Lib.Sorting

/-!
# Bubble sort until a pass swaps nothing

The loop has no bound of its own: it ends with the first pass that finds all neighbours in order.

* `PassLoop`: the runs of the loop.
* `PassLoop.kept`: a relation that holds of any two elements of different keys, the smaller one first, is kept
  between the elements of the list; so elements of one key stay in their order.
* `PassLoop.perm`, `PassLoop.sorted`: a run that ends sorts the list.
* `passes`: the loop with a bound. `passLoop_passes`: as many passes as there are elements are enough, so the
  loop ends. `passes_map`: it may as well move the indices of the elements.
-/

namespace CallStake

open List

variable {α β γ : Type}

section BubbleLoop

variable [LinearOrder β] (key : α → β)

/-- A pass over the list that starts with an element, and whether it swapped any neighbours. -/
def swapFrom (x : α) : List α → List α × Bool
  | [] => ([x], false)
  | y :: l =>
    if key y < key x then (y :: (swapFrom x l).1, true)
    else (x :: (swapFrom y l).1, (swapFrom y l).2)

/-- A pass over all neighbours, and whether it swapped any. -/
def swapPass : List α → List α × Bool
  | [] => ([], false)
  | x :: l => swapFrom key x l

/-- `loop { pass; if !swapped { break } }`: the list before the loop, and after it. -/
inductive PassLoop : List α → List α → Prop where
  | done {l : List α} (h : (swapPass key l).2 = false) : PassLoop l (swapPass key l).1
  | again {l l' : List α} (h : (swapPass key l).2 = true) (hrest : PassLoop (swapPass key l).1 l') : PassLoop l l'

/-- The loop with at most `n` passes. -/
def passes : Nat → List α → List α
  | 0, l => l
  | n + 1, l => if (swapPass key l).2 = true then passes n (swapPass key l).1 else l

variable {key} {x : α} {l l' l₀ back : List α} {i n : Nat}

/-- A pass moves what `bubblePass` moves. -/
theorem swapFrom_fst (x : α) (l : List α) : (swapFrom key x l).1 = bubblePass key l.length (x :: l) := by
  induction l generalizing x with
  | nil => rfl
  | cons y l ih =>
    rw [swapFrom, length_cons, bubblePass]
    split
    · rw [ih]
    · rw [ih]

theorem swapPass_perm (l : List α) : (swapPass key l).1.Perm l := by
  cases l with
  | nil => exact .refl _
  | cons x l =>
    rw [swapPass, swapFrom_fst]
    exact bubblePass_perm _ _

/-- A pass that swaps nothing finds the list in order, and leaves it so. -/
theorem swapFrom_done (h : (swapFrom key x l).2 = false) :
    (x :: l).Pairwise (key · ≤ key ·) ∧ (swapFrom key x l).1 = x :: l := by
  induction l generalizing x with
  | nil => exact ⟨pairwise_singleton _ _, rfl⟩
  | cons y l ih =>
    rw [swapFrom] at h ⊢
    split at h
    · cases h
    · rename_i hle
      obtain ⟨hsorted, heq⟩ := ih h
      rw [if_neg hle]
      refine ⟨List.pairwise_cons.mpr ⟨fun z hz => ?_, hsorted⟩, by rw [heq]⟩
      rcases List.mem_cons.mp hz with rfl | hz
      · exact not_lt.mp hle
      · exact (not_lt.mp hle).trans ((List.pairwise_cons.mp hsorted).1 z hz)

theorem swapPass_done (h : (swapPass key l).2 = false) :
    l.Pairwise (key · ≤ key ·) ∧ (swapPass key l).1 = l := by
  cases l with
  | nil => exact ⟨.nil, rfl⟩
  | cons x l => exact swapFrom_done h

/-- A pass over a list in order swaps nothing. -/
theorem swapFrom_sorted (h : (x :: l).Pairwise (key · ≤ key ·)) : swapFrom key x l = (x :: l, false) := by
  induction l generalizing x with
  | nil => rfl
  | cons y l ih =>
    obtain ⟨hx, hrest⟩ := List.pairwise_cons.mp h
    rw [swapFrom, if_neg (not_lt.mpr (hx y mem_cons_self)), ih hrest]

theorem swapPass_sorted (h : l.Pairwise (key · ≤ key ·)) : swapPass key l = (l, false) := by
  cases l with
  | nil => rfl
  | cons x l => exact swapFrom_sorted h

/-! ## What a run keeps -/

theorem PassLoop.perm (h : PassLoop key l l') : l'.Perm l := by
  induction h with
  | done => exact swapPass_perm _
  | again _ _ ih => exact ih.trans (swapPass_perm _)

theorem PassLoop.sorted (h : PassLoop key l l') : l'.Pairwise (key · ≤ key ·) := by
  induction h with
  | done h =>
    obtain ⟨hsorted, heq⟩ := swapPass_done h
    rw [heq]
    exact hsorted
  | again _ _ ih => exact ih

section Kept

variable {R : α → α → Prop} (hR : ∀ a b, key a < key b → R a b)
include hR

theorem swapFrom_kept (h : (x :: l).Pairwise R) : (swapFrom key x l).1.Pairwise R := by
  induction l generalizing x with
  | nil => exact h
  | cons y l ih =>
    obtain ⟨hx, hrest⟩ := List.pairwise_cons.mp h
    obtain ⟨hy, hl⟩ := List.pairwise_cons.mp hrest
    have hmem (a : α) : ∀ z, z ∈ (swapFrom key a l).1 ↔ z = a ∨ z ∈ l := by
      intro z
      have hperm : (swapFrom key a l).1.Perm (a :: l) := swapPass_perm (a :: l)
      rw [hperm.mem_iff, mem_cons]
    rw [swapFrom]
    split
    · rename_i hlt
      have hfirst : (x :: l).Pairwise R := List.pairwise_cons.mpr ⟨fun z hz => hx z (mem_cons_of_mem _ hz), hl⟩
      refine List.pairwise_cons.mpr ⟨fun z hz => ?_, ih hfirst⟩
      rcases (hmem x z).mp hz with rfl | hz
      · exact hR y z hlt
      · exact hy z hz
    · refine List.pairwise_cons.mpr ⟨fun z hz => ?_, ih hrest⟩
      exact hx z (List.mem_cons.mpr ((hmem y z).mp hz))

/-- What holds between the elements in their order, and of any smaller key before a larger one, is kept. -/
theorem PassLoop.kept (h : PassLoop key l l') (hl : l.Pairwise R) : l'.Pairwise R := by
  have hpass : ∀ l : List α, l.Pairwise R → (swapPass key l).1.Pairwise R := by
    intro l hl
    cases l with
    | nil => exact hl
    | cons x l => exact swapFrom_kept hR hl
  induction h with
  | done => exact hpass _ hl
  | again _ _ ih => exact ih (hpass _ hl)

end Kept

/-- The loop has one outcome at most. -/
theorem PassLoop.unique {l'' : List α} (h : PassLoop key l l') (h' : PassLoop key l l'') : l' = l'' := by
  induction h with
  | done h =>
    cases h' with
    | done => rfl
    | again hswap => rw [h] at hswap; cases hswap
  | again h _ ih =>
    cases h' with
    | done hdone => rw [h] at hdone; cases hdone
    | again _ hrest => exact ih hrest

/-! ## How many passes there are -/

/-- A pass changes nothing behind its front, where all is in place. -/
theorem swapFrom_append (hback : back.Pairwise (key · ≤ key ·)) (hle : ∀ y ∈ x :: l, ∀ z ∈ back, key y ≤ key z) :
    (swapFrom key x (l ++ back)).1 = (swapFrom key x l).1 ++ back := by
  induction l generalizing x with
  | nil =>
    have hsorted : (x :: back).Pairwise (key · ≤ key ·) := List.pairwise_cons.mpr ⟨hle x mem_cons_self, hback⟩
    rw [nil_append, swapFrom_sorted hsorted]
    rfl
  | cons y l ih =>
    rw [cons_append, swapFrom, swapFrom]
    split
    · rw [ih fun z hz => hle z ?_]
      · rfl
      · rcases List.mem_cons.mp hz with rfl | hz
        · exact mem_cons_self
        · exact mem_cons_of_mem _ (mem_cons_of_mem _ hz)
    · rw [ih fun z hz => hle z (mem_cons_of_mem _ hz)]
      rfl

/-- Each pass puts one more element in its place. -/
theorem BubbleInv.swapPass (h : BubbleInv key l₀ i l) (hi : i < l₀.length) :
    BubbleInv key l₀ (i + 1) (CallStake.swapPass key l).1 := by
  obtain ⟨front, back, rfl, hlength, hsorted, hle⟩ := h.settled
  have hfront : front.length + i = l₀.length := by
    rw [← h.perm.length_eq, length_append, hlength]
  cases front with
  | nil =>
    rw [length_nil] at hfront
    omega
  | cons x front =>
    have hsame : (CallStake.swapPass key (x :: front ++ back)).1 =
        bubblePass key (l₀.length - i - 1) (x :: front ++ back) := by
      have hk : l₀.length - i - 1 = front.length := by
        rw [length_cons] at hfront
        omega
      rw [cons_append, CallStake.swapPass, swapFrom_append hsorted hle, swapFrom_fst, hk,
        ← cons_append, bubblePass_append (by rw [length_cons]; omega)]
    rw [hsame]
    exact h.pass hi

/-- As many passes as there are elements end the loop. -/
theorem passLoop_passes (l : List α) : PassLoop key l (passes key l.length l) := by
  have hloop : ∀ n l', n ≤ l.length → BubbleInv key l (l.length - n) l' → PassLoop key l' (passes key n l') := by
    intro n
    induction n with
    | zero =>
      intro l' _ hinv
      have hsame : swapPass key l' = (l', false) := swapPass_sorted hinv.sorted
      have hloop : PassLoop key l' (swapPass key l').1 := .done (by rw [hsame])
      rwa [hsame] at hloop
    | succ n ih =>
      intro l' hn hinv
      rw [passes]
      split
      · rename_i hswap
        refine .again hswap (ih _ (by omega) ?_)
        have hnext := hinv.swapPass (by omega)
        have hi : l.length - (n + 1) + 1 = l.length - n := by omega
        rwa [hi] at hnext
      · rename_i hdone
        have hdone : (swapPass key l').2 = false := by simpa using hdone
        have hloop := PassLoop.done hdone
        rwa [(swapPass_done hdone).2] at hloop
  refine hloop l.length l (Nat.le_refl _) ?_
  rw [Nat.sub_self]
  exact ⟨.refl _, l, [], by simp, rfl, .nil, by simp⟩

/-! ## Indices

The loop over the indices of a list is the loop over its elements. -/

theorem swapFrom_map (f : γ → α) (i : γ) (is : List γ) : swapFrom key (f i) (is.map f) =
    ((swapFrom (key ∘ f) i is).1.map f, (swapFrom (key ∘ f) i is).2) := by
  induction is generalizing i with
  | nil => rfl
  | cons j is ih =>
    rw [map_cons, swapFrom, swapFrom, Function.comp, Function.comp]
    split
    · rw [ih]
      rfl
    · rw [ih]
      rfl

theorem passes_map (f : γ → α) (n : Nat) (is : List γ) :
    passes key n (is.map f) = (passes (key ∘ f) n is).map f := by
  induction n generalizing is with
  | zero => rfl
  | succ n ih =>
    have hpass : swapPass key (is.map f) = ((swapPass (key ∘ f) is).1.map f, (swapPass (key ∘ f) is).2) := by
      cases is with
      | nil => rfl
      | cons i is => exact swapFrom_map f i is
    rw [passes, passes, hpass]
    split
    · exact ih _
    · rfl

end BubbleLoop

end CallStake
