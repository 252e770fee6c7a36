import CallStake.FeeCollector.Ledgers
import CallStake.Lib.BubbleLoop

/-!
# The waterfall

The tiers are sorted by their priority, and each takes its part of what the tiers before it have left.

* `SortLoop`: the loop over the indices of the tiers, which has no bound. `sortLoop_sortByPriority`: it ends,
  and `sortByPriority` is what it gives.
* `Allots`, `Distributes`: what a tier gets of the funds at its turn, and all tiers one after another.
* `waterfall_distributes`: the loop ends on every configuration, and a waterfall that returns has distributed
  the funds in the stable order and taken them from the treasury.
-/

namespace CallStake.FeeCollector

variable {τ : Type}

/-! ## Order -/

def priorityAt (tiers : List WaterfallTier) (i : Fin tiers.length) : Nat := (tiers.get i).priority

/-- `loop { .. if !swapped { break; } }` over the indices, from the order of the configuration on. -/
def SortLoop (tiers : List WaterfallTier) (order : List (Fin tiers.length)) : Prop :=
  PassLoop (priorityAt tiers) (List.finRange tiers.length) order

/-- All tiers by their priority, and those of one priority in the order of the configuration. -/
structure StableOrder (tiers : List WaterfallTier) (order : List (Fin tiers.length)) : Prop where
  all : order.Perm (List.finRange tiers.length)
  sorted : order.Pairwise fun i j =>
    priorityAt tiers i < priorityAt tiers j ∨ priorityAt tiers i = priorityAt tiers j ∧ i < j

section Order

variable {tiers : List WaterfallTier} {order : List (Fin tiers.length)}

theorem bubbleFrom_eq (x : WaterfallTier) (l : List WaterfallTier) :
    bubbleFrom x l = swapFrom (·.priority) x l := by
  induction l generalizing x with
  | nil => rfl
  | cons y l ih => rw [bubbleFrom, swapFrom, ih x, ih y]

theorem sortPasses_eq (n : Nat) (l : List WaterfallTier) : sortPasses n l = passes (·.priority) n l := by
  induction n generalizing l with
  | zero => rfl
  | succ n ih =>
    cases l with
    | nil => rfl
    | cons x l => rw [sortPasses, passes, swapPass, bubbleFrom_eq, ih]

/-- The bounded sort gives the tiers in the order that the loop gives their indices. -/
theorem sortLoop_sortByPriority (tiers : List WaterfallTier) :
    ∃ order, SortLoop tiers order ∧ sortByPriority tiers = order.map tiers.get := by
  refine ⟨passes (priorityAt tiers) tiers.length (List.finRange tiers.length), ?_, ?_⟩
  · have hloop : PassLoop (priorityAt tiers) (List.finRange tiers.length)
        (passes (priorityAt tiers) (List.finRange tiers.length).length (List.finRange tiers.length)) :=
      passLoop_passes _
    rwa [List.length_finRange] at hloop
  · have hmap : passes WaterfallTier.priority tiers.length ((List.finRange tiers.length).map tiers.get) = _ :=
      passes_map tiers.get tiers.length (List.finRange tiers.length)
    rw [List.map_get_finRange] at hmap
    rw [sortByPriority, sortPasses_eq]
    exact hmap

theorem SortLoop.stable (h : SortLoop tiers order) : StableOrder tiers order where
  all := h.perm
  sorted := by
    -- tiers of one priority are never swapped
    have hkept : order.Pairwise fun i j => priorityAt tiers i = priorityAt tiers j → i < j := by
      refine h.kept (fun i j hlt heq => absurd heq hlt.ne) ?_
      refine List.Pairwise.imp ?_ (List.pairwise_lt_finRange tiers.length)
      exact fun hlt _ => hlt
    refine (List.Pairwise.and h.sorted hkept).imp ?_
    rintro i j ⟨hle, hsame⟩
    rcases lt_or_eq_of_le hle with hlt | heq
    · exact .inl hlt
    · exact .inr ⟨heq, hsame heq⟩

end Order

/-! ## Distribution -/

/-- What a tier gets of the funds that remain at its turn. -/
structure Allots (tier : WaterfallTier) (remaining allocated : Int) : Prop where
  nonneg : 0 ≤ allocated
  le : allocated ≤ tier.targetAmount
  full : tier.targetAmount ≤ remaining → allocated = tier.targetAmount
  partly : remaining < tier.targetAmount → tier.minimumAmount ≤ remaining → allocated = remaining
  skipped : remaining < tier.targetAmount → remaining < tier.minimumAmount → allocated = 0

/-- The tiers, each from what the ones before it have left. -/
inductive Distributes : List WaterfallTier → Int → List WaterfallTierResult → Prop where
  | nil {remaining : Int} : Distributes [] remaining []
  | cons {tier : WaterfallTier} {tiers : List WaterfallTier} {remaining allocated : Int}
      {results : List WaterfallTierResult} (h : Allots tier remaining allocated)
      (hrest : Distributes tiers (remaining - allocated) results) :
      Distributes (tier :: tiers) remaining (tier.result allocated :: results)

section Distribution

variable {tier : WaterfallTier} {tiers : List WaterfallTier} {remaining : Int} {env : Env τ}
  {w w' : World τ}

theorem allots_allocation (h : 0 ≤ remaining) (hpos : 0 ≤ (tier.allocation remaining).getD 0) :
    Allots tier remaining ((tier.allocation remaining).getD 0) ∧ (tier.allocation remaining).getD 0 ≤ remaining := by
  unfold WaterfallTier.allocation at *
  by_cases htarget : tier.targetAmount ≤ remaining
  · rw [if_pos htarget, Option.getD_some] at *
    exact ⟨⟨hpos, le_refl _, fun _ => rfl, by omega, by omega⟩, htarget⟩
  · rw [if_neg htarget] at *
    by_cases hminimum : tier.minimumAmount ≤ remaining
    · rw [if_pos hminimum, Option.getD_some] at *
      exact ⟨⟨h, by omega, by omega, fun _ _ => rfl, by omega⟩, le_refl _⟩
    · rw [if_neg hminimum, Option.getD_none] at *
      exact ⟨⟨le_refl _, by omega, by omega, by omega, fun _ _ => rfl⟩, h⟩

/-- Funds that are distributed without a negative part are distributed as they should be. -/
theorem distributes_tierResults (h : 0 ≤ remaining)
    (hpos : ∀ r ∈ tierResults tiers remaining, 0 ≤ r.allocated) :
    Distributes tiers remaining (tierResults tiers remaining) := by
  induction tiers generalizing remaining with
  | nil => exact .nil
  | cons tier tiers ih =>
    have hfirst : 0 ≤ (tier.allocation remaining).getD 0 := hpos _ List.mem_cons_self
    obtain ⟨hallots, hle⟩ := allots_allocation h hfirst
    exact .cons hallots (ih (by omega) fun r hr => hpos r (List.mem_cons_of_mem _ hr))

/-- The sort ends on every configuration. A waterfall that returns lists the tiers in the stable order, each
with what it gets of the funds at its turn; together they are at most the amount, and the treasury falls by
precisely their sum. -/
theorem waterfall_distributes (hN : env.tokens.RejectsNegative) (token : Address) (totalAmount : Int) :
    (∀ tiers, ∃! order, SortLoop tiers order) ∧
    ∀ results, distributeWaterfall env token totalAmount w = (.ok results, w') →
      ∃ tiers order, w.store.config.waterfallConfig = some tiers ∧ SortLoop tiers order ∧
        StableOrder tiers order ∧ Distributes (order.map tiers.get) totalAmount results ∧
        allocatedTotal results ≤ totalAmount ∧
        w'.store.books.treasury token = w.store.books.treasury token - allocatedTotal results := by
  constructor
  · intro tiers
    obtain ⟨order, hloop, -⟩ := sortLoop_sortByPriority tiers
    exact ⟨order, hloop, fun order' hloop' => PassLoop.unique hloop' hloop⟩
  · intro results h
    obtain ⟨⟨tiers, htiers, hresults⟩, hnonneg, hsum, hbooks⟩ := distributeWaterfall_results hN h
    obtain ⟨order, hloop, hsorted⟩ := sortLoop_sortByPriority tiers
    refine ⟨tiers, order, htiers, hloop, hloop.stable, ?_, hsum, ?_⟩
    · rw [hresults] at hnonneg ⊢
      rw [← hsorted]
      exact distributes_tierResults (distributeWaterfall_run h).1.le hnonneg
    · rw [hbooks, Books.setTreasury_treasury, if_pos rfl]

end Distribution

namespace Sample

/-- Two tiers of one priority, behind a third one that comes last in the configuration. -/
def threeTiers : List WaterfallTier := [⟨[1], 2, 1000, 0, bob⟩, ⟨[2], 2, 5000, 500, alice⟩, ⟨[3], 1, 600, 0, admin⟩]

def configured : World Balances := deployedRun [trade 1000000, trade 1000000, call (.setWaterfallConfig threeTiers)]

def distributed : Except (Fault ContractError) (List WaterfallTierResult) × World Balances :=
  distributeWaterfall sampleEnv usdc 2000 configured

/-- Of 2000, the third tier gets its target of 600 and the first one its 1000; the rest of 400 is below the
minimum of the second. -/
def shares : List WaterfallTierResult := [⟨[3], admin, 1, 600⟩, ⟨[1], bob, 2, 1000⟩, ⟨[2], alice, 2, 0⟩]

/-- The tiers get their shares in the order of their priorities. -/
theorem three_tiers_share : distributed.1 = .ok shares ∧
    ∃ tiers order, configured.store.config.waterfallConfig = some tiers ∧ SortLoop tiers order ∧
      StableOrder tiers order ∧ Distributes (order.map tiers.get) 2000 shares ∧
      distributed.2.store.books.treasury usdc = configured.store.books.treasury usdc - allocatedTotal shares := by
  have hrun : distributed.1 = .ok shares := by decide +kernel
  have hresult : distributeWaterfall sampleEnv usdc 2000 configured = (.ok shares, distributed.2) := Prod.ext hrun rfl
  obtain ⟨tiers, order, htiers, hloop, hstable, hdistributes, -, htreasury⟩ :=
    (waterfall_distributes Balances.tokens_rejectsNegative usdc 2000).2 shares hresult
  exact ⟨hrun, tiers, order, htiers, hloop, hstable, hdistributes, htreasury⟩

end Sample

end CallStake.FeeCollector
