import Mathlib.Data.List.Dedup
import Mathlib.Data.List.Perm.Subperm
import Mathlib.Order.Basic

/-!
# Greedy selection

The best of the elements that remain is picked, until all places are taken or no element remains. Ties are
broken in any way.

* `Picks`: the runs of it. `TopOf`: what has been picked at any moment.
* `TopOf.pick`, `Picks.top`: one pick and a run keep it.
* `TopOf.forall_iff`: when all that are picked have a property which goes up with the weight.
-/

namespace CallStake

open List

/-- The picked elements are no lighter than those that remain, in descending order. -/
structure TopOf {α β : Type} [LE β] (weight : α → β) (l picked : List α) : Prop where
  nodup : picked.Nodup
  subset : picked ⊆ l
  ranked : picked.Pairwise fun a b => weight b ≤ weight a
  above (a : α) (ha : a ∈ picked) (b : α) (hb : b ∈ l) (hrest : b ∉ picked) : weight b ≤ weight a

/-- From what is picked already to what is picked in the end, with some places left. -/
inductive Picks {α β : Type} [LE β] (weight : α → β) (l : List α) : Nat → List α → List α → Prop where
  | full {picked : List α} : Picks weight l 0 picked picked
  | out {places : Nat} {picked : List α} (h : l ⊆ picked) : Picks weight l (places + 1) picked picked
  | pick {places : Nat} {picked picked' : List α} {a : α} (ha : a ∈ l) (hnew : a ∉ picked)
      (hbest : ∀ b ∈ l, b ∉ picked → weight b ≤ weight a)
      (h : Picks weight l places (picked ++ [a]) picked') : Picks weight l (places + 1) picked picked'

section Selection

variable {α β : Type} [Preorder β] {weight : α → β} {l picked picked' : List α} {a : α} {places : Nat}

theorem TopOf.nil : TopOf weight l [] where
  nodup := nodup_nil
  subset := nil_subset l
  ranked := .nil
  above := by simp

theorem TopOf.pick (h : TopOf weight l picked) (ha : a ∈ l) (hnew : a ∉ picked)
    (hbest : ∀ b ∈ l, b ∉ picked → weight b ≤ weight a) : TopOf weight l (picked ++ [a]) where
  nodup := List.nodup_append.mpr
    ⟨h.nodup, nodup_singleton a, by rintro b hb c hc rfl; exact hnew (List.mem_singleton.mp hc ▸ hb)⟩
  subset := List.append_subset.mpr ⟨h.subset, by simpa using ha⟩
  ranked := by
    refine List.pairwise_append.mpr ⟨h.ranked, pairwise_singleton _ a, ?_⟩
    intro b hb c hc
    rw [List.mem_singleton.mp hc]
    exact h.above b hb a ha hnew
  above := by
    intro b hb c hc hrest
    have hrest' : c ∉ picked := fun hmem => hrest (mem_append_left _ hmem)
    rcases List.mem_append.mp hb with hb | hb
    · exact h.above b hb c hc hrest'
    · rw [List.mem_singleton.mp hb]
      exact hbest c hc hrest'

theorem Picks.top (h : Picks weight l places picked picked') (ht : TopOf weight l picked) :
    TopOf weight l picked' := by
  induction h with
  | full => exact ht
  | out => exact ht
  | pick ha hnew hbest _ ih => exact ih (ht.pick ha hnew hbest)

/-- The first that was picked is the heaviest of all. -/
theorem TopOf.head (h : TopOf weight l (a :: picked)) {b : α} (hb : b ∈ l) : weight b ≤ weight a := by
  by_cases hmem : b ∈ a :: picked
  · rcases List.mem_cons.mp hmem with rfl | hmem
    · exact le_refl _
    · exact (List.pairwise_cons.mp h.ranked).1 b hmem
  · exact h.above a mem_cons_self b hb hmem

variable [DecidableEq α]

theorem TopOf.length_le (h : TopOf weight l picked) : picked.length ≤ l.dedup.length :=
  (h.nodup.subperm fun _ ha => List.mem_dedup.mpr (h.subset ha)).length_le

/-- All places are taken, or all elements are. -/
theorem Picks.length_eq (h : Picks weight l places picked picked') (ht : TopOf weight l picked) :
    picked'.length = min (picked.length + places) l.dedup.length := by
  induction h with
  | full =>
    have := ht.length_le
    omega
  | out hout =>
    have hle := ht.length_le
    have hge := (List.Nodup.subperm (nodup_dedup l) fun a ha => hout (List.mem_dedup.mp ha)).length_le
    omega
  | pick ha hnew hbest _ ih =>
    rw [ih (ht.pick ha hnew hbest), length_append, length_singleton, Nat.add_assoc, Nat.add_comm 1]

/-- All that are picked have the property exactly if as many elements have it as are picked. -/
theorem TopOf.forall_iff (h : TopOf weight l picked) {p : α → Prop} [DecidablePred p]
    (hup : ∀ a b, weight a ≤ weight b → p a → p b) :
    (∀ a ∈ picked, p a) ↔ picked.length ≤ l.dedup.countP p := by
  rw [countP_eq_length_filter]
  constructor
  · intro hp
    refine (h.nodup.subperm fun a ha => ?_).length_le
    exact List.mem_filter.mpr ⟨List.mem_dedup.mpr (h.subset ha), decide_eq_true (hp a ha)⟩
  · intro hle a ha
    by_contra hnot
    -- whoever has the property is picked, and so are all but one of the picked at most
    have hsub : l.dedup.filter (fun b => p b) ⊆ picked.erase a := by
      intro b hb
      obtain ⟨hmem, hpb⟩ := List.mem_filter.mp hb
      have hpb : p b := of_decide_eq_true hpb
      have hpicked : b ∈ picked := by
        by_contra hrest
        exact hnot (hup b a (h.above a ha b (List.mem_dedup.mp hmem) hrest) hpb)
      exact (mem_erase_of_ne (by rintro rfl; exact hnot hpb)).mpr hpicked
    have hcount := (List.Nodup.subperm ((nodup_dedup l).filter _) hsub).length_le
    rw [length_erase_of_mem ha] at hcount
    have hpos := length_pos_of_mem ha
    omega

end Selection

end CallStake
