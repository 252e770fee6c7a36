import Mathlib.Order.Basic

/-!
# Requests that are used once

A history of acts, oldest first. Some of them issue a request under a key, some use the request of a key.
There is one slot for each key: a request replaces the one before it, and a use empties the slot.

* `Honoured acts slots`: every use found a request in its slot that is good for it, and `slots` are the
  slots after the acts.
* `Matching acts f`: `f` sends each use to a request of the same key before it that is good for it, and
  no two uses to the same request.
* `Honoured.matching`: the uses of an honoured history have such a matching.
-/

namespace CallStake.Tickets

section Slots

variable {α κ ρ υ : Type} (issues : α → Option (κ × ρ)) (uses : α → Option (κ × υ)) (good : ρ → υ → Prop)

/-- The lists of actions in which each use has its own issue, with the slots that are left. -/
inductive Honoured [DecidableEq κ] : List α → (κ → Option ρ) → Prop
  | nil : Honoured [] fun _ => none
  | skip {acts : List α} {slots : κ → Option ρ} {a : α} (h : Honoured acts slots)
      (hi : issues a = none) (hu : uses a = none) : Honoured (acts ++ [a]) slots
  | issue {acts : List α} {slots : κ → Option ρ} {a : α} {k : κ} {r : ρ} (h : Honoured acts slots)
      (hi : issues a = some (k, r)) (hu : uses a = none) :
      Honoured (acts ++ [a]) (Function.update slots k (some r))
  | use {acts : List α} {slots : κ → Option ρ} {a : α} {k : κ} {r : ρ} {u : υ}
      (h : Honoured acts slots) (hu : uses a = some (k, u)) (hs : slots k = some r) (hg : good r u) :
      Honoured (acts ++ [a]) (Function.update slots k none)

/-- The act at `i` uses a request. -/
def UseAt (acts : List α) (i : Nat) : Prop := ∃ a k u, acts[i]? = some a ∧ uses a = some (k, u)

/-- The act at `i` issues the request `r` under the key `k`. -/
def IssueAt (acts : List α) (i : Nat) (k : κ) (r : ρ) : Prop := ∃ a, acts[i]? = some a ∧ issues a = some (k, r)

structure Matching (acts : List α) (f : Nat → Nat) : Prop where
  served {i : Nat} {a : α} {k : κ} {u : υ} (ha : acts[i]? = some a) (hu : uses a = some (k, u)) :
    f i < i ∧ ∃ r, IssueAt issues acts (f i) k r ∧ good r u
  distinct {i j : Nat} (hi : UseAt uses acts i) (hj : UseAt uses acts j) (h : f i = f j) : i = j

/-- The act at `i` issues the request `r` under `k`, and no use was sent to it. -/
def Open (acts : List α) (f : Nat → Nat) (i : Nat) (k : κ) (r : ρ) : Prop :=
  IssueAt issues acts i k r ∧ ∀ j, UseAt uses acts j → f j ≠ i

variable {issues uses good} {acts : List α} {a : α} {f : Nat → Nat} {i : Nat} {k : κ} {r : ρ}

/-- The acts of a longer history are the old ones and the last one. -/
theorem getElem?_snoc {b : α} : (acts ++ [a])[i]? = some b ↔
    acts[i]? = some b ∨ i = acts.length ∧ a = b := by
  rw [List.getElem?_append]
  split
  · rename_i h
    constructor
    · exact .inl
    · rintro (hb | ⟨rfl, -⟩)
      · exact hb
      · omega
  · rename_i h
    rw [List.getElem?_singleton, List.getElem?_eq_none (by omega)]
    by_cases hi : i = acts.length
    · simp [hi]
    · rw [if_neg (by omega)]
      simp [hi]

theorem IssueAt.lt (h : IssueAt issues acts i k r) : i < acts.length := by
  obtain ⟨a, ha, -⟩ := h
  exact (List.getElem?_eq_some_iff.mp ha).1

theorem UseAt.lt (h : UseAt uses acts i) : i < acts.length := by
  obtain ⟨a, _, _, ha, -⟩ := h
  exact (List.getElem?_eq_some_iff.mp ha).1

theorem IssueAt.snoc (h : IssueAt issues acts i k r) : IssueAt issues (acts ++ [a]) i k r := by
  obtain ⟨b, hb, hi⟩ := h
  exact ⟨b, getElem?_snoc.mpr (.inl hb), hi⟩

theorem issueAt_last (hi : issues a = some (k, r)) : IssueAt issues (acts ++ [a]) acts.length k r :=
  ⟨a, getElem?_snoc.mpr (.inr ⟨rfl, rfl⟩), hi⟩

/-- The uses of a longer history are the old ones and the last act. -/
theorem UseAt.of_snoc (h : UseAt uses (acts ++ [a]) i) :
    UseAt uses acts i ∨ i = acts.length ∧ (uses a).isSome = true := by
  obtain ⟨b, k, u, hb, hu⟩ := h
  rcases getElem?_snoc.mp hb with hb | ⟨hi, rfl⟩
  · exact .inl ⟨b, k, u, hb, hu⟩
  · exact .inr ⟨hi, by rw [hu]; rfl⟩

theorem UseAt.of_snoc_none (hu : uses a = none) (h : UseAt uses (acts ++ [a]) i) : UseAt uses acts i :=
  h.of_snoc.resolve_right fun h => by simp [hu] at h

/-- An act that uses nothing leaves the matching as it is. -/
theorem Matching.skip (h : Matching issues uses good acts f) (hu : uses a = none) :
    Matching issues uses good (acts ++ [a]) f where
  served := by
    intro i b k u hb hub
    rcases getElem?_snoc.mp hb with hb | ⟨-, rfl⟩
    · obtain ⟨hlt, r, hr, hg⟩ := h.served hb hub
      exact ⟨hlt, r, hr.snoc, hg⟩
    · rw [hu] at hub
      cases hub
  distinct hi hj hf := h.distinct (hi.of_snoc_none hu) (hj.of_snoc_none hu) hf

theorem Open.skip (h : Open issues uses acts f i k r) (hu : uses a = none) :
    Open issues uses (acts ++ [a]) f i k r :=
  ⟨h.1.snoc, fun j hj => h.2 j (hj.of_snoc_none hu)⟩

/-- A new request is open: the uses so far were sent to earlier positions. -/
theorem Matching.open_last (h : Matching issues uses good acts f) (hi : issues a = some (k, r))
    (hu : uses a = none) : Open issues uses (acts ++ [a]) f acts.length k r := by
  refine ⟨issueAt_last hi, fun j hj heq => ?_⟩
  have hj' := hj.of_snoc_none hu
  obtain ⟨b, k', u, hb, hub⟩ := hj'
  have hlt := (h.served hb hub).1
  have hjlt := UseAt.lt ⟨b, k', u, hb, hub⟩
  omega

/-- A use of an open request is sent to it. -/
theorem Matching.use {u : υ} (h : Matching issues uses good acts f) (hu : uses a = some (k, u))
    (ho : Open issues uses acts f i k r) (hg : good r u) :
    Matching issues uses good (acts ++ [a]) (Function.update f acts.length i) where
  served := by
    intro j b k' u' hb hub
    rcases getElem?_snoc.mp hb with hb | ⟨rfl, rfl⟩
    · have hj := UseAt.lt ⟨b, k', u', hb, hub⟩
      rw [Function.update_of_ne (by omega)]
      obtain ⟨hlt, r', hr', hg'⟩ := h.served hb hub
      exact ⟨hlt, r', hr'.snoc, hg'⟩
    · rw [Function.update_self]
      rw [hu] at hub
      cases hub
      exact ⟨ho.1.lt, r, ho.1.snoc, hg⟩
  distinct := by
    intro j j' hj hj' hf
    rcases hj.of_snoc with hj | ⟨rfl, -⟩ <;> rcases hj'.of_snoc with hj' | ⟨rfl, -⟩
    · have h1 := hj.lt
      have h2 := hj'.lt
      rw [Function.update_of_ne (by omega), Function.update_of_ne (by omega)] at hf
      exact h.distinct hj hj' hf
    · have h1 := hj.lt
      rw [Function.update_of_ne (by omega), Function.update_self] at hf
      exact absurd hf (ho.2 j hj)
    · have h2 := hj'.lt
      rw [Function.update_self, Function.update_of_ne (by omega)] at hf
      exact absurd hf.symm (ho.2 j' hj')
    · rfl

/-- The requests under other keys stay open. -/
theorem Open.use {i' : Nat} {k' : κ} {r' : ρ} (h : Open issues uses acts f i' k' r')
    (ho : Open issues uses acts f i k r) (hk : k' ≠ k) :
    Open issues uses (acts ++ [a]) (Function.update f acts.length i) i' k' r' := by
  refine ⟨h.1.snoc, fun j hj => ?_⟩
  rcases hj.of_snoc with hj | ⟨rfl, -⟩
  · have hlt := hj.lt
    rw [Function.update_of_ne (by omega)]
    exact h.2 j hj
  · rw [Function.update_self]
    rintro rfl
    -- one act issues one request
    obtain ⟨⟨b, hb, hib⟩, -⟩ := h
    obtain ⟨⟨b', hb', hib'⟩, -⟩ := ho
    rw [hb] at hb'
    cases hb'
    rw [hib] at hib'
    cases hib'
    exact hk rfl

/-- The uses of an honoured history have a matching, and the requests in the slots are open. -/
theorem Honoured.matching [DecidableEq κ] {slots : κ → Option ρ}
    (h : Honoured issues uses good acts slots) :
    ∃ f, Matching issues uses good acts f ∧ ∀ k r, slots k = some r → ∃ i, Open issues uses acts f i k r := by
  induction h with
  | nil => exact ⟨id, ⟨fun ha => by simp at ha, fun hi => absurd hi.lt (by simp)⟩, fun _ _ h => by cases h⟩
  | skip _ _ hu ih =>
    obtain ⟨f, hm, ho⟩ := ih
    refine ⟨f, hm.skip hu, fun k r hs => ?_⟩
    obtain ⟨i, hi⟩ := ho k r hs
    exact ⟨i, hi.skip hu⟩
  | @issue acts slots a k r _ hi hu ih =>
    obtain ⟨f, hm, ho⟩ := ih
    refine ⟨f, hm.skip hu, fun k' r' hs => ?_⟩
    by_cases hk : k' = k
    · subst hk
      rw [Function.update_self] at hs
      cases hs
      exact ⟨_, hm.open_last hi hu⟩
    · rw [Function.update_of_ne hk] at hs
      obtain ⟨i, hi⟩ := ho k' r' hs
      exact ⟨i, hi.skip hu⟩
  | @use acts slots a k r u _ hu hs hg ih =>
    obtain ⟨f, hm, ho⟩ := ih
    obtain ⟨i, hopen⟩ := ho k r hs
    refine ⟨_, hm.use hu hopen hg, fun k' r' hs' => ?_⟩
    by_cases hk : k' = k
    · subst hk
      rw [Function.update_self] at hs'
      cases hs'
    · rw [Function.update_of_ne hk] at hs'
      obtain ⟨i', hi'⟩ := ho k' r' hs'
      exact ⟨i', hi'.use hopen hk⟩

end Slots

end CallStake.Tickets
