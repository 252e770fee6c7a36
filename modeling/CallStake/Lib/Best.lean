import Mathlib.Data.List.Sort

/-!
# Looking for the best of a list

A list is searched once for the offer that costs least; an offer replaces the one that is kept if it costs less.

* `keepLess`, `scanLeast`: the search. `FirstLeast`: the element that gives the offer that is found.
* `scanLeast_some`, `scanLeast_none`: what the search finds. `FirstLeast.unique`: it is one element.

A selection sort that compares all elements with the first one, and not with the best one so far: it exchanges the
first element with the last one that is better, then goes on with the rest.

* `exchangeLast key q l`: the last element of `l` that is better than `q`, and `l` with `q` in its place.
* `exchangeSort key l`: the rounds. `exchangeSort_perm`: it permutes the list.
* `LastIsBest key l`: in every round, the last better element is a best one. `exchangeSort_sorted_iff`: exactly
  these lists are sorted.
-/

namespace CallStake

open List

/-! ## The first offer of least cost -/

section FirstLeast

variable {α β κ : Type} [LinearOrder κ]

/-- The candidate if it is the first one or costs less. -/
def keepLess (cost : β → κ) (best candidate : Option β) : Option β :=
  match candidate with
  | none => best
  | some new =>
    match best with
    | none => some new
    | some old => if cost new < cost old then some new else some old

/-- The search through a list, from what is kept so far. -/
def scanLeast (offer : α → Option β) (cost : β → κ) : Option β → List α → Option β
  | best, [] => best
  | best, a :: l => scanLeast offer cost (keepLess cost best (offer a)) l

/-- `b` is the offer of `a`; an earlier one costs more, and no later one costs less. -/
def FirstLeast (offer : α → Option β) (cost : β → κ) (l : List α) (a : α) (b : β) : Prop :=
  ∃ front back, l = front ++ a :: back ∧ offer a = some b ∧
    (∀ x ∈ front, ∀ y, offer x = some y → cost b < cost y) ∧
    ∀ x ∈ back, ∀ y, offer x = some y → cost b ≤ cost y

section Search

variable {offer : α → Option β} {cost : β → κ} {l : List α} {a a' : α} {b b' : β} {best candidate : Option β}

theorem keepLess_some (h : keepLess cost best candidate = some b) :
    (best = some b ∧ ∀ new, candidate = some new → cost b ≤ cost new) ∨
    (candidate = some b ∧ ∀ old, best = some old → cost b < cost old) := by
  rcases candidate with _ | new
  · refine .inl ⟨h, ?_⟩
    rintro _ ⟨⟩
  · rcases best with _ | old
    · refine .inr ⟨h, ?_⟩
      rintro _ ⟨⟩
    · unfold keepLess at h
      dsimp only at h
      split at h
      · rename_i hlt
        cases h
        refine .inr ⟨rfl, ?_⟩
        rintro _ ⟨⟩
        exact hlt
      · rename_i hge
        cases h
        refine .inl ⟨rfl, ?_⟩
        rintro _ ⟨⟩
        exact not_lt.mp hge

theorem keepLess_le (cost : β → κ) (h : best = some b ∨ candidate = some b) :
    ∃ kept, keepLess cost best candidate = some kept ∧ cost kept ≤ cost b := by
  rcases candidate with _ | new
  · rcases h with h | h
    · exact ⟨b, h, le_refl _⟩
    · cases h
  · rcases best with _ | old
    · rcases h with h | h
      · cases h
      · exact ⟨b, h, le_refl _⟩
    · unfold keepLess
      dsimp only
      split
      · rename_i hlt
        refine ⟨new, rfl, ?_⟩
        rcases h with h | h
        · cases h
          exact le_of_lt hlt
        · cases h
          exact le_refl _
      · rename_i hge
        refine ⟨old, rfl, ?_⟩
        rcases h with h | h
        · cases h
          exact le_refl _
        · cases h
          exact not_lt.mp hge

/-- Either the one before the search is kept, or the result is the first one of least cost and cheaper than that. -/
theorem scanLeast_from (h : scanLeast offer cost best l = some b) :
    (best = some b ∧ ∀ x ∈ l, ∀ y, offer x = some y → cost b ≤ cost y) ∨
    (∃ a, FirstLeast offer cost l a b) ∧ ∀ old, best = some old → cost b < cost old := by
  induction l generalizing best with
  | nil => exact .inl ⟨h, fun x hx => absurd hx not_mem_nil⟩
  | cons x l ih =>
    obtain ⟨hkept, hrest⟩ | ⟨⟨a, front, back, rfl, ha, hfront, hback⟩, hless⟩ := ih h
    · obtain ⟨hbest, hnew⟩ | ⟨hnew, hless⟩ := keepLess_some hkept
      · exact .inl ⟨hbest, List.forall_mem_cons.mpr ⟨hnew, hrest⟩⟩
      · exact .inr ⟨⟨x, [], l, rfl, hnew, fun z hz => absurd hz not_mem_nil, hrest⟩, hless⟩
    · have hcheaper (y : β) (hy : best = some y ∨ offer x = some y) : cost b < cost y := by
        obtain ⟨kept, hkept, hle⟩ := keepLess_le cost hy
        exact lt_of_lt_of_le (hless kept hkept) hle
      refine .inr ⟨⟨a, x :: front, back, rfl, ha, ?_, hback⟩, fun old hold => hcheaper old (.inl hold)⟩
      exact List.forall_mem_cons.mpr ⟨fun y hy => hcheaper y (.inr hy), hfront⟩

theorem scanLeast_some (h : scanLeast offer cost none l = some b) : ∃ a, FirstLeast offer cost l a b := by
  obtain ⟨hnone, -⟩ | ⟨hfirst, -⟩ := scanLeast_from h
  · cases hnone
  · exact hfirst

/-- Nothing is found only if nothing is offered. -/
theorem scanLeast_none (h : scanLeast offer cost best l = none) : best = none ∧ ∀ x ∈ l, offer x = none := by
  induction l generalizing best with
  | nil => exact ⟨h, fun x hx => absurd hx not_mem_nil⟩
  | cons x l ih =>
    obtain ⟨hkept, hrest⟩ := ih h
    have hnone (b : β) (hb : best = some b ∨ offer x = some b) : False := by
      obtain ⟨kept, hsome, -⟩ := keepLess_le cost hb
      rw [hkept] at hsome
      cases hsome
    exact ⟨Option.eq_none_iff_forall_ne_some.mpr fun b hb => hnone b (.inl hb),
      List.forall_mem_cons.mpr ⟨Option.eq_none_iff_forall_ne_some.mpr fun b hb => hnone b (.inr hb), hrest⟩⟩

theorem FirstLeast.offer_eq (h : FirstLeast offer cost l a b) : a ∈ l ∧ offer a = some b := by
  obtain ⟨front, back, rfl, ha, -⟩ := h
  exact ⟨mem_append_right front mem_cons_self, ha⟩

theorem FirstLeast.least (h : FirstLeast offer cost l a b) : ∀ x ∈ l, ∀ y, offer x = some y → cost b ≤ cost y := by
  obtain ⟨front, back, rfl, ha, hfront, hback⟩ := h
  intro x hx y hy
  rcases List.mem_append.mp hx with hx | hx
  · exact le_of_lt (hfront x hx y hy)
  · rcases List.mem_cons.mp hx with rfl | hx
    · rw [ha] at hy
      cases hy
      exact le_refl _
    · exact hback x hx y hy

theorem FirstLeast.congr {offer' : α → Option β} (h : FirstLeast offer cost l a b)
    (hsame : ∀ x ∈ l, offer' x = offer x) : FirstLeast offer' cost l a b := by
  obtain ⟨front, back, rfl, ha, hfront, hback⟩ := h
  obtain ⟨hf, hrest⟩ := List.forall_mem_append.mp hsame
  obtain ⟨ha', hb⟩ := List.forall_mem_cons.mp hrest
  refine ⟨front, back, rfl, ha'.trans ha, ?_, ?_⟩
  · intro x hx y hy
    exact hfront x hx y ((hf x hx).symm.trans hy)
  · intro x hx y hy
    exact hback x hx y ((hb x hx).symm.trans hy)

/-- The costs alone decide which element it is. -/
theorem FirstLeast.map {γ : Type} {g : α → γ} {price : γ → Option κ} (h : FirstLeast offer cost l a b)
    (hsame : ∀ x ∈ l, price (g x) = (offer x).map cost) : FirstLeast price id (l.map g) (g a) (cost b) := by
  obtain ⟨front, back, rfl, ha, hfront, hback⟩ := h
  obtain ⟨hf, hrest⟩ := List.forall_mem_append.mp hsame
  obtain ⟨ha', hb⟩ := List.forall_mem_cons.mp hrest
  rw [ha, Option.map_some] at ha'
  refine ⟨front.map g, back.map g, by rw [map_append, map_cons], ha', ?_, ?_⟩
  · intro x hx y hy
    obtain ⟨z, hz, rfl⟩ := List.mem_map.mp hx
    rw [hf z hz] at hy
    obtain ⟨b', hb', rfl⟩ := Option.map_eq_some_iff.mp hy
    exact hfront z hz b' hb'
  · intro x hx y hy
    obtain ⟨z, hz, rfl⟩ := List.mem_map.mp hx
    rw [hb z hz] at hy
    obtain ⟨b', hb', rfl⟩ := Option.map_eq_some_iff.mp hy
    exact hback z hz b' hb'

/-- The head is found unless it costs more. -/
theorem FirstLeast.eq_head (h : FirstLeast offer cost (a' :: l) a b) (ha' : offer a' = some b')
    (hle : cost b' ≤ cost b) : a = a' := by
  obtain ⟨front, back, hl, -, hfront, -⟩ := h
  rcases front with _ | ⟨x, front⟩
  · exact (List.cons.inj hl).1.symm
  · obtain ⟨rfl, -⟩ := List.cons.inj hl
    exact absurd hle (not_le.mpr (hfront a' mem_cons_self b' ha'))

/-- Of two elements that both come first, the earlier one would cost more than itself. -/
theorem FirstLeast.unique (h : FirstLeast offer cost l a b) (h' : FirstLeast offer cost l a' b') : a = a' := by
  have hle := h.least a' h'.offer_eq.1 b' h'.offer_eq.2
  have hge := h'.least a h.offer_eq.1 b h.offer_eq.2
  obtain ⟨front, back, rfl, ha, hfront, -⟩ := h
  obtain ⟨front', back', hl, ha', hfront', -⟩ := h'
  rcases List.append_eq_append_iff.mp hl with ⟨mid, hmid, hrest⟩ | ⟨mid, hmid, hrest⟩
  · rcases mid with _ | ⟨x, mid⟩
    · exact (List.cons.inj hrest).1
    · obtain ⟨rfl, rfl⟩ := List.cons.inj hrest
      have hlt := hfront' a (hmid ▸ mem_append_right front mem_cons_self) b ha
      exact absurd hle (not_le.mpr hlt)
  · rcases mid with _ | ⟨x, mid⟩
    · exact (List.cons.inj hrest).1.symm
    · obtain ⟨rfl, rfl⟩ := List.cons.inj hrest
      have hlt := hfront a' (hmid ▸ mem_append_right front' mem_cons_self) b' ha'
      exact absurd hge (not_le.mpr hlt)

end Search

end FirstLeast

/-! ## Exchanging the first element with the last better one -/

section LastBetter

variable {α β : Type} [LinearOrder β] (key : α → β)

/-- The last element better than `q`, and the list with `q` in its place. -/
def exchangeLast (q : α) : List α → Option (α × List α)
  | [] => none
  | x :: l =>
    match exchangeLast q l with
    | some (b, l') => some (b, x :: l')
    | none => if key q < key x then some (x, q :: l) else none

/-- As many rounds as `n`, on the elements that remain. -/
def exchangeRounds : Nat → List α → List α
  | n + 1, q :: l =>
    match exchangeLast key q l with
    | some (b, l') => b :: exchangeRounds n l'
    | none => q :: exchangeRounds n l
  | _, l => l

/-- All rounds. -/
def exchangeSort (l : List α) : List α := exchangeRounds key l.length l

/-- The first element is a best one, or the last better one is: then the same holds of the list without the best
one, with the first one in its place. -/
inductive LastIsBest : List α → Prop where
  | nil : LastIsBest []
  | stay {q : α} {l : List α} (h : ∀ x ∈ l, key x ≤ key q) (hrest : LastIsBest l) : LastIsBest (q :: l)
  | exchange {q b : α} {l front back : List α} (hl : l = front ++ b :: back) (hb : key q < key b)
      (hlast : ∀ x ∈ back, key x ≤ key q) (hbest : ∀ x ∈ l, key x ≤ key b)
      (hrest : LastIsBest (front ++ q :: back)) : LastIsBest (q :: l)

variable {key} {q b : α} {l l' : List α}

theorem exchangeLast_none : exchangeLast key q l = none ↔ ∀ x ∈ l, key x ≤ key q := by
  induction l with
  | nil => simp [exchangeLast]
  | cons x l ih =>
    rw [exchangeLast, forall_mem_cons, ← ih]
    rcases exchangeLast key q l with _ | ⟨b, l'⟩
    · simp
    · simp

/-- The elements behind the one that is exchanged are no better than `q`. -/
theorem exchangeLast_some (h : exchangeLast key q l = some (b, l')) : ∃ front back, l = front ++ b :: back ∧
    l' = front ++ q :: back ∧ key q < key b ∧ ∀ x ∈ back, key x ≤ key q := by
  induction l generalizing l' with
  | nil => cases h
  | cons x l ih =>
    rw [exchangeLast] at h
    rcases hrest : exchangeLast key q l with _ | ⟨b', l''⟩
    · rw [hrest] at h
      dsimp only at h
      split at h
      · rename_i hlt
        cases h
        exact ⟨[], l, rfl, rfl, hlt, exchangeLast_none.mp hrest⟩
      · cases h
    · rw [hrest] at h
      cases h
      obtain ⟨front, back, rfl, rfl, hlt, hback⟩ := ih hrest
      exact ⟨x :: front, back, rfl, rfl, hlt, hback⟩

theorem exchangeLast_of_last (front : List α) {back : List α} (hb : key q < key b)
    (hlast : ∀ x ∈ back, key x ≤ key q) :
    exchangeLast key q (front ++ b :: back) = some (b, front ++ q :: back) := by
  induction front with
  | nil => rw [nil_append, exchangeLast, exchangeLast_none.mpr hlast, nil_append]; exact if_pos hb
  | cons x front ih => rw [cons_append, exchangeLast, ih, cons_append]

theorem exchangeLast_perm (h : exchangeLast key q l = some (b, l')) : (b :: l').Perm (q :: l) := by
  obtain ⟨front, back, rfl, rfl, -, -⟩ := exchangeLast_some h
  calc List.Perm (b :: (front ++ q :: back)) (b :: q :: (front ++ back)) := List.perm_middle.cons b
    List.Perm _ (q :: b :: (front ++ back)) := .swap q b _
    List.Perm _ (q :: (front ++ b :: back)) := List.perm_middle.symm.cons q

/-- The element that is exchanged is worse than the one it is exchanged with. -/
theorem exchangeLast_best_iff (h : exchangeLast key q l = some (b, l')) :
    (∀ x ∈ l', key x ≤ key b) ↔ ∀ x ∈ l, key x ≤ key b := by
  obtain ⟨front, back, rfl, rfl, hlt, -⟩ := exchangeLast_some h
  simp only [forall_mem_append, forall_mem_cons, le_refl, hlt.le]

theorem exchangeRounds_perm (n : Nat) (l : List α) : (exchangeRounds key n l).Perm l := by
  fun_induction exchangeRounds key n l with
  | case1 _ _ _ b _ h ih => exact (ih.cons b).trans (exchangeLast_perm h)
  | case2 _ q _ _ ih => exact ih.cons q
  | case3 => exact .refl _

theorem exchangeSort_perm (l : List α) : (exchangeSort key l).Perm l := exchangeRounds_perm l.length l

theorem lastIsBest_cons_of_none (h : exchangeLast key q l = none) : LastIsBest key (q :: l) ↔ LastIsBest key l := by
  have hall := exchangeLast_none.mp h
  constructor
  · intro hl
    cases hl with
    | stay _ hrest => exact hrest
    | exchange hl hb =>
      subst hl
      exact absurd hb (not_lt.mpr (hall _ (by simp)))
  · exact .stay hall

theorem lastIsBest_cons_of_some (h : exchangeLast key q l = some (b, l')) :
    LastIsBest key (q :: l) ↔ (∀ x ∈ l, key x ≤ key b) ∧ LastIsBest key l' := by
  obtain ⟨front, back, hl, hl', hlt, hback⟩ := exchangeLast_some h
  constructor
  · intro hbest
    cases hbest with
    | stay hall =>
      subst hl
      exact absurd hlt (not_lt.mpr (hall b (by simp)))
    | @exchange _ b₁ _ front₁ back₁ hl₁ hb₁ hlast hbest hrest =>
      have hsame := exchangeLast_of_last front₁ hb₁ hlast
      rw [← hl₁, h] at hsame
      cases hsame
      exact ⟨hbest, hrest⟩
  · rintro ⟨hbest, hrest⟩
    exact .exchange hl hlt hback hbest (hl' ▸ hrest)

theorem exchangeRounds_sorted_iff (n : Nat) (hn : l.length ≤ n) :
    (exchangeRounds key n l).Pairwise (fun a b => key b ≤ key a) ↔ LastIsBest key l := by
  induction n generalizing l with
  | zero =>
    rw [List.length_eq_zero_iff.mp (Nat.le_zero.mp hn)]
    exact iff_of_true .nil .nil
  | succ n ih =>
    cases l with
    | nil => exact iff_of_true .nil .nil
    | cons q l =>
      rw [exchangeRounds]
      rcases h : exchangeLast key q l with _ | ⟨b, l'⟩
      · dsimp only
        rw [lastIsBest_cons_of_none h, pairwise_cons, ih (by simpa using hn)]
        refine and_iff_right fun x hx => ?_
        exact exchangeLast_none.mp h x ((exchangeRounds_perm n l).mem_iff.mp hx)
      · have hlen := (exchangeLast_perm h).length_eq
        have hrest : (∀ x ∈ exchangeRounds key n l', key x ≤ key b) ↔ ∀ x ∈ l, key x ≤ key b := by
          simp only [(exchangeRounds_perm n _).mem_iff]
          exact exchangeLast_best_iff h
        dsimp only
        rw [lastIsBest_cons_of_some h, pairwise_cons, hrest, ih (by simp at hn hlen; omega)]

/-- The list is sorted exactly if in every round the last better element is a best one. -/
theorem exchangeSort_sorted_iff :
    (exchangeSort key l).Pairwise (fun a b => key b ≤ key a) ↔ LastIsBest key l :=
  exchangeRounds_sorted_iff l.length (Nat.le_refl _)

end LastBetter

end CallStake
