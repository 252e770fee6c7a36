import CallStake.Governance.Treasury

/-!
# Budgets of the treasury over whole runs

The operations on the books of the treasury in any order and at any times; an operation that fails leaves
the books as they were. Beside the books, a run notes what each asset was last set to and where in the
history of spends each category was last approved (`Audited`).

* `executeSpend_ok`: what a spend that was made found and wrote.
* `Audit`: every budget is spent or remains, what was drawn under an approval is what was spent since, and
  every balance is what was set less what was spent since.
* `Limited`: the spends of an operation keep to the limits of the budgets.
* `audit_of_run`: both hold in every run.
-/

namespace CallStake.Governance

open Res Store

namespace Treasury

/-! ## Operations -/

/-- The operations of the treasury. -/
inductive Op where
  | setAssetBalance (asset : Asset) (amount : Int)
  | upsertBudget (category : Bytes) (allocated spendLimit : Int) (periodStart periodEnd : Nat)
      (autoRenew : Bool)
  | approveBudget (category : Bytes) (proposalId : Nat) (approvedCap : Int) (now : Nat)
  | executeSpend (recipient : Address) (amount : Int) (asset : Asset) (category purpose : Bytes)
      (approvedByProposal : Option Nat) (executedAt : Nat)
  | scheduleRecurringPayment (recipient : Address) (amount : Int) (asset : Asset) (frequency : Nat)
      (category purpose : Bytes) (approvedByProposal endDate : Option Nat) (now : Nat)
  | processRecurringPayments (now : Nat)
  | setRebalanceTarget (asset : Asset) (targetBps : Int)
  | rebalance (prices : Store Asset Int) (now : Nat)

/-- The books after an operation. -/
def Op.apply (t : Treasury) : Op → Res Treasury
  | .setAssetBalance asset amount => t.setAssetBalance asset amount
  | .upsertBudget category allocated spendLimit periodStart periodEnd autoRenew =>
    (t.upsertBudget category allocated spendLimit periodStart periodEnd autoRenew).map (·.1)
  | .approveBudget category proposalId approvedCap now =>
    (t.approveBudget category proposalId approvedCap now).map (·.1)
  | .executeSpend recipient amount asset category purpose approvedByProposal executedAt =>
    (t.executeSpend recipient amount asset category purpose approvedByProposal executedAt).map (·.1)
  | .scheduleRecurringPayment recipient amount asset frequency category purpose approvedByProposal
      endDate now =>
    (t.scheduleRecurringPayment recipient amount asset frequency category purpose approvedByProposal
      endDate now).map (·.1)
  | .processRecurringPayments now => (t.processRecurringPayments now).map (·.1)
  | .setRebalanceTarget asset targetBps => t.setRebalanceTarget asset targetBps
  | .rebalance prices now => (t.rebalance prices now).map (·.1)

/-- The books with the notes of a run. -/
structure Audited where
  treasury : Treasury
  /-- What each asset was last set to, and how many spends there had been. -/
  lastSet : Store Asset (Int × Nat)
  /-- How many spends there had been when each category was last approved. -/
  lastApproved : Store Bytes Nat

/-- What is noted of an operation. -/
def Audited.note (a : Audited) : Op → Audited
  | .setAssetBalance asset amount =>
    { a with lastSet := a.lastSet.insert asset (amount, a.treasury.spendingHistory.length) }
  | .approveBudget category .. =>
    { a with lastApproved := a.lastApproved.insert category a.treasury.spendingHistory.length }
  | _ => a

def Audited.next (a : Audited) (op : Op) : Audited :=
  match op.apply a.treasury with
  | .ok treasury => { a.note op with treasury }
  | .error _ => a

/-- `empty_treasury`, before anything was set or approved. -/
def Audited.start : Audited := ⟨.empty, ∅, ∅⟩

/-- What was spent after the first `n` spends, counting those that `p` selects. -/
def spentSince (t : Treasury) (n : Nat) (p : TreasurySpend → Bool) : Int :=
  (((t.spendingHistory.drop n).filter p).map (·.amount)).sum

/-! ## Spends -/

section Spend

variable {t t' : Treasury} {recipient : Address} {amount : Int} {asset : Asset}
  {category purpose : Bytes} {approvedByProposal : Option Nat} {executedAt : Nat} {spend : TreasurySpend}

/-- A budget that is spent or remains, with something allocated. -/
structure Budget.Sound (b : Budget) : Prop where
  split : b.spent + b.remaining = b.allocated
  remaining : 0 ≤ b.remaining
  allocated : 0 < b.allocated

/-- A renewal starts the period again and changes neither the allocation nor the limit. -/
theorem renewBudgetIfNeeded_ok {b b' : Budget} {now : Nat} (h : renewBudgetIfNeeded b now = .ok b')
    (hb : b.Sound) : b'.Sound ∧ b'.spendLimit = b.spendLimit := by
  unfold renewBudgetIfNeeded at h
  split at h
  · cases h
    exact ⟨hb, rfl⟩
  · simp only [bind_ok, failIf_ok] at h
    obtain ⟨_, -, _, -, ⟨nextStart, nextEnd⟩, -, h⟩ := h
    cases h
    exact ⟨⟨Int.zero_add _, Int.le_of_lt hb.allocated, hb.allocated⟩, rfl⟩

theorem executeSpend_ok
    (h : executeSpend t recipient amount asset category purpose approvedByProposal executedAt = .ok (t', spend)) :
    ∃ stored budget approval, t.budgets.lookup category = some stored ∧
      renewBudgetIfNeeded stored executedAt = .ok budget ∧
      t.approvedBudgets.lookup category = some approval ∧
      0 < amount ∧ amount ≤ budget.remaining ∧ amount ≤ budget.spendLimit ∧
      approval.totalDrawn + amount ≤ approval.approvedCap ∧ amount ≤ t.balanceOf asset ∧
      spend.amount = amount ∧ spend.asset = asset ∧ spend.category = category ∧
      t' = { t with
        approvedBudgets := t.approvedBudgets.insert category
          { approval with totalDrawn := approval.totalDrawn + amount }
        budgets := t.budgets.insert category
          { budget with spent := budget.spent + amount, remaining := budget.remaining - amount }
        assets := t.assets.insert asset (t.balanceOf asset - amount)
        nextSpendId := u64Add t.nextSpendId 1
        spendingHistory := t.spendingHistory ++ [spend] } := by
  simp only [executeSpend, bind_ok, failIf_ok, ofOption_ok, checkedAddR_ok, checkedSubR_ok,
    pure_ok, Prod.mk.injEq] at h
  obtain ⟨_, -, _, hpos, stored, hstored, budget, hbudget, _, hlimits, approval, happroval, _,
    ⟨-, -, rfl⟩, _, hcap, _, hbal, _, ⟨-, -, rfl⟩, _, ⟨-, -, rfl⟩, _, ⟨-, -, rfl⟩, rfl, rfl⟩ := h
  rw [not_or, Int.not_lt, Int.not_lt] at hlimits
  exact ⟨stored, budget, approval, hstored, hbudget, happroval, Int.not_le.mp hpos, hlimits.1, hlimits.2,
    Int.not_lt.mp hcap, Int.not_lt.mp hbal, rfl, rfl, rfl, rfl⟩

end Spend

/-! ## Audit -/

/-- The asset that was spent is `asset`. -/
def ofAsset (asset : Asset) (s : TreasurySpend) : Bool := s.asset = asset

/-- The spend was made in `category`. -/
def ofCategory (category : Bytes) (s : TreasurySpend) : Bool := s.category = category

/-- The books agree with the notes. -/
structure Audit (a : Audited) : Prop where
  budget (category : Bytes) (b : Budget) : a.treasury.budgets.lookup category = some b → b.Sound
  drawn (category : Bytes) (ap : BudgetApproval) :
    a.treasury.approvedBudgets.lookup category = some ap →
    ap.totalDrawn ≤ ap.approvedCap ∧ ∃ n, a.lastApproved.lookup category = some n ∧
      n ≤ a.treasury.spendingHistory.length ∧
      ap.totalDrawn = a.treasury.spentSince n (ofCategory category)
  /-- An asset that was never set has nothing. -/
  balance (asset : Asset) : 0 ≤ a.treasury.balanceOf asset ∧
    ((a.lastSet.lookup asset).getD (0, 0)).2 ≤ a.treasury.spendingHistory.length ∧
    a.treasury.balanceOf asset = ((a.lastSet.lookup asset).getD (0, 0)).1 -
      a.treasury.spentSince ((a.lastSet.lookup asset).getD (0, 0)).2 (ofAsset asset)

/-- The spends between `t` and `t'` keep to the limits of `t`. -/
def Limited (t t' : Treasury) : Prop :=
  ∃ new, t'.spendingHistory = t.spendingHistory ++ new ∧
    ∀ s ∈ new, ∃ b, t.budgets.lookup s.category = some b ∧ s.amount ≤ b.spendLimit

section Moves

variable {a : Audited} {t t' : Treasury} {asset : Asset} {category : Bytes} {n : Nat}
  {p : TreasurySpend → Bool}

theorem spentSince_append {s : TreasurySpend} (hn : n ≤ t.spendingHistory.length)
    (ht : t'.spendingHistory = t.spendingHistory ++ [s]) :
    t'.spentSince n p = t.spentSince n p + if p s = true then s.amount else 0 := by
  simp [spentSince, ht, List.drop_append_of_le_length hn]
  by_cases hp : p s = true
  · simp [hp]
  · simp [hp]

@[simp] theorem spentSince_length : t.spentSince t.spendingHistory.length p = 0 := by
  simp [spentSince]

theorem spentSince_congr (ht : t'.spendingHistory = t.spendingHistory) :
    t'.spentSince n p = t.spentSince n p := by
  rw [spentSince, spentSince, ht]

theorem balanceOf_insert {b : Asset} {amount : Int}
    (ht : t'.assets = t.assets.insert asset amount) :
    t'.balanceOf b = if b = asset then amount else t.balanceOf b := by
  rw [balanceOf, ht, lookup_insert_eq]
  split <;> rfl

/-- The books change where no budget, approval, balance or spend is kept. -/
theorem Audit.of_same (h : Audit a) (hb : t.budgets = a.treasury.budgets)
    (hap : t.approvedBudgets = a.treasury.approvedBudgets)
    (hbal : ∀ asset, t.balanceOf asset = a.treasury.balanceOf asset)
    (hh : t.spendingHistory = a.treasury.spendingHistory) : Audit { a with treasury := t } where
  budget := by rw [hb]; exact h.budget
  drawn category ap hl := by
    rw [hap] at hl
    rw [hh]
    simp only [spentSince_congr hh]
    exact h.drawn category ap hl
  balance asset := by
    rw [hbal, hh, spentSince_congr hh]
    exact h.balance asset

theorem trackAsset_fields : (t.trackAsset asset).budgets = t.budgets ∧
    (t.trackAsset asset).approvedBudgets = t.approvedBudgets ∧
    (∀ b, (t.trackAsset asset).balanceOf b = t.balanceOf b) ∧
    (t.trackAsset asset).spendingHistory = t.spendingHistory := by
  unfold trackAsset
  split
  · exact ⟨rfl, rfl, fun _ => rfl, rfl⟩
  · refine ⟨rfl, rfl, fun b => ?_, rfl⟩
    simp only [balanceOf, insertMissing]
    split
    · rfl
    · rename_i hnone
      rw [lookup_insert_eq]
      split
      · subst ‹b = asset›
        rw [Option.not_isSome_iff_eq_none.mp hnone]
        rfl
      · rfl

theorem Audit.track (h : Audit a) : Audit { a with treasury := a.treasury.trackAsset asset } :=
  h.of_same trackAsset_fields.1 trackAsset_fields.2.1 trackAsset_fields.2.2.1 trackAsset_fields.2.2.2

/-- A spend is taken from the budget, drawn under the approval and paid from the balance. -/
theorem Audit.spend {recipient : Address} {amount : Int} {purpose : Bytes}
    {approvedByProposal : Option Nat} {executedAt : Nat} {spend : TreasurySpend} (h : Audit a)
    (hs : executeSpend a.treasury recipient amount asset category purpose approvedByProposal executedAt =
      .ok (t, spend)) : Audit { a with treasury := t } := by
  obtain ⟨stored, budget, approval, hstored, hbudget, happroval, hpos, hremaining, -, hcap, hbal, hamount,
    hasset, hcategory, rfl⟩ := executeSpend_ok hs
  obtain ⟨hsound, -⟩ := renewBudgetIfNeeded_ok hbudget (h.budget category stored hstored)
  refine ⟨?_, ?_, ?_⟩
  · intro c b hb
    rw [lookup_insert_eq] at hb
    split at hb
    · cases hb
      have := hsound.split
      exact ⟨by simp only; omega, by simp only; omega, hsound.allocated⟩
    · exact h.budget c b hb
  · intro c ap hap
    rw [lookup_insert_eq] at hap
    by_cases hc : c = category
    · rw [if_pos hc] at hap
      cases hap
      obtain ⟨-, n, hn, hle, hdrawn⟩ := h.drawn category approval happroval
      refine ⟨hcap, n, hc ▸ hn, ?_, ?_⟩
      · rw [List.length_append]
        omega
      · rw [spentSince_append hle rfl, hc, if_pos (by simp [ofCategory, hcategory]), hamount, hdrawn]
    · rw [if_neg hc] at hap
      obtain ⟨hle', n, hn, hle, hdrawn⟩ := h.drawn c ap hap
      refine ⟨hle', n, hn, ?_, ?_⟩
      · rw [List.length_append]
        omega
      · rw [spentSince_append hle rfl, if_neg (by simp [ofCategory, hcategory, Ne.symm hc]), hdrawn]
        omega
  · intro b
    obtain ⟨h0, hle, heq⟩ := h.balance b
    rw [balanceOf_insert rfl, spentSince_append hle rfl]
    simp
    by_cases hb : b = asset
    · subst hb
      rw [if_pos rfl, if_pos (by simp [ofAsset, hasset]), hamount]
      exact ⟨by omega, by omega, by omega⟩
    · rw [if_neg hb, if_neg (by simp [ofAsset, hasset, Ne.symm hb])]
      exact ⟨h0, by omega, by omega⟩

/-- The limits of the budgets. -/
def limitOf (t : Treasury) (category : Bytes) : Option Int := (t.budgets.lookup category).map (·.spendLimit)

theorem Limited.refl : Limited t t := ⟨[], by simp, by simp⟩

theorem Limited.of_same (h : t'.spendingHistory = t.spendingHistory) : Limited t t' := ⟨[], by simp [h], by simp⟩

theorem Limited.trans {t₁ : Treasury} (h : Limited t t₁) (hl : ∀ c, t₁.limitOf c = t.limitOf c)
    (h' : Limited t₁ t') : Limited t t' := by
  obtain ⟨new, hnew, hlim⟩ := h
  obtain ⟨new', hnew', hlim'⟩ := h'
  refine ⟨new ++ new', by rw [hnew', hnew, List.append_assoc], fun s hs => ?_⟩
  rcases List.mem_append.mp hs with hs | hs
  · exact hlim s hs
  · obtain ⟨b, hb, hle⟩ := hlim' s hs
    have hlimit := hl s.category
    rw [limitOf, limitOf, hb] at hlimit
    obtain ⟨b', hb', heq⟩ := Option.map_eq_some_iff.mp hlimit.symm
    exact ⟨b', hb', heq.symm ▸ hle⟩

end Moves

/-! ## Recurring payments -/

section Payments

variable {a : Audited} {t t' : Treasury} {now n : Nat}

/-- The books are in order, and the spends since `t` keep to its limits, which are still the same. -/
structure Spending (t : Treasury) (a : Audited) : Prop where
  audit : Audit a
  limited : Limited t a.treasury
  limits (category : Bytes) : a.treasury.limitOf category = t.limitOf category

theorem Spending.setPayment (h : Spending t a) (index : Nat) (payment : RecurringPayment) :
    Spending t { a with treasury := a.treasury.setPayment index payment } where
  audit := h.audit.of_same rfl rfl (fun _ => rfl) rfl
  limited := h.limited
  limits := h.limits

theorem Spending.spend {recipient : Address} {amount : Int} {asset : Asset} {category purpose : Bytes}
    {approvedByProposal : Option Nat} {executedAt : Nat} {spend : TreasurySpend} (h : Spending t a)
    (hs : executeSpend a.treasury recipient amount asset category purpose approvedByProposal executedAt =
      .ok (t', spend)) : Spending t { a with treasury := t' } := by
  have haudit := h.audit.spend hs
  obtain ⟨stored, budget, approval, hstored, hbudget, -, -, -, hlimit, -, -, hamount, -, hcategory, rfl⟩ :=
    executeSpend_ok hs
  obtain ⟨-, hsame⟩ := renewBudgetIfNeeded_ok hbudget (h.audit.budget category stored hstored)
  refine ⟨haudit, h.limited.trans h.limits ⟨[spend], rfl, fun s hs => ?_⟩, fun c => ?_⟩
  · rw [List.mem_singleton.mp hs, hcategory, hamount]
    exact ⟨stored, hstored, hsame ▸ hlimit⟩
  · rw [← h.limits c]
    simp only [limitOf, lookup_insert_eq]
    split
    · subst ‹c = category›
      simp [hstored, hsame]
    · rfl

theorem Spending.process (h : Spending t a) {index : Nat}
    (hp : processPayment now a.treasury index = .ok (t', n)) :
    Spending t { a with treasury := t' } := by
  unfold processPayment at hp
  split at hp
  · cases hp
  · rename_i payment hpayment
    split at hp
    · cases hp
      exact h
    · split at hp
      · cases hp
        exact h.setPayment index _
      · split at hp
        · cases hp
          exact h
        · split at hp
          · rename_i t₁ spend hs
            cases hp
            exact (h.spend hs).setPayment index _
          · split at hp
            · cases hp
              exact h.setPayment index _
            · cases hp
          · cases hp

theorem processRecurringPayments_spending (h : Audit a)
    (hp : processRecurringPayments a.treasury now = .ok (t', n)) :
    Spending a.treasury { a with treasury := t' } := by
  refine foldlM_rule (I := fun x => Spending a.treasury { a with treasury := x.1 }) ?_
    ⟨h, .refl, fun _ => rfl⟩ hp
  rintro ⟨t₀, m⟩ index ⟨t₁, m₁⟩ hI hround
  simp only [bind_ok, pure_ok, Prod.mk.injEq] at hround
  obtain ⟨⟨t₂, n₂⟩, hround, rfl, -⟩ := hround
  exact hI.process hround

end Payments

/-! ## Runs -/

section Runs

variable {a : Audited} {t' : Treasury} {op : Op}

theorem Audit.setAssetBalance {asset : Asset} {amount : Int} (h : Audit a)
    (hop : a.treasury.setAssetBalance asset amount = .ok t') :
    Audit { a.note (.setAssetBalance asset amount) with treasury := t' } ∧
      t'.spendingHistory = a.treasury.spendingHistory := by
  simp only [Treasury.setAssetBalance, bind_ok, failIf_ok, pure_ok] at hop
  obtain ⟨_, hpos, rfl⟩ := hop
  have ht : Audit { a with treasury := a.treasury.trackAsset asset } := h.track
  have hh : (a.treasury.trackAsset asset).spendingHistory = a.treasury.spendingHistory := trackAsset_fields.2.2.2
  refine ⟨⟨ht.budget, ht.drawn, fun b => ?_⟩, hh⟩
  simp only [Audited.note, lookup_insert_eq]
  rw [balanceOf_insert rfl]
  by_cases hb : b = asset
  · simp [if_pos hb]
    refine ⟨Int.not_lt.mp hpos, Nat.le_of_eq (by rw [hh]), (Int.sub_zero amount).symm.trans ?_⟩
    exact congrArg (amount - ·) ((spentSince_congr hh).trans spentSince_length).symm
  · simp only [if_neg hb]
    exact ht.balance b

theorem Audit.upsertBudget {category : Bytes} {allocated spendLimit : Int} {periodStart periodEnd : Nat}
    {autoRenew : Bool} {b : Budget} (h : Audit a)
    (hop : a.treasury.upsertBudget category allocated spendLimit periodStart periodEnd autoRenew = .ok (t', b)) :
    Audit { a with treasury := t' } ∧ t'.spendingHistory = a.treasury.spendingHistory := by
  simp only [Treasury.upsertBudget, bind_ok, failIf_ok, pure_ok, Prod.mk.injEq, not_or, Int.not_le] at hop
  obtain ⟨_, ⟨-, hpos, -, -⟩, _, -, rfl, -⟩ := hop
  have htrack : a.treasury.trackCategory category =
      { a.treasury with budgetCategories := (a.treasury.trackCategory category).budgetCategories } := by
    unfold trackCategory
    split <;> rfl
  rw [htrack]
  refine ⟨⟨fun c b hb => ?_, h.drawn, h.balance⟩, rfl⟩
  rw [lookup_insert_eq] at hb
  split at hb
  · cases hb
    exact ⟨Int.zero_add _, Int.le_of_lt hpos, hpos⟩
  · exact h.budget c b hb

theorem Audit.approveBudget {category : Bytes} {proposalId now : Nat} {approvedCap : Int}
    {ap : BudgetApproval} (h : Audit a)
    (hop : a.treasury.approveBudget category proposalId approvedCap now = .ok (t', ap)) :
    Audit { a.note (.approveBudget category proposalId approvedCap now) with treasury := t' } ∧
      t'.spendingHistory = a.treasury.spendingHistory := by
  simp only [Treasury.approveBudget, bind_ok, failIf_ok, ofOption_ok, pure_ok, Prod.mk.injEq, Int.not_le] at hop
  obtain ⟨_, hpos, _, -, _, -, rfl, -⟩ := hop
  refine ⟨⟨h.budget, fun c ap hap => ?_, h.balance⟩, rfl⟩
  simp only [Audited.note, lookup_insert_eq] at hap ⊢
  by_cases hc : c = category
  · rw [if_pos hc] at hap ⊢
    cases hap
    exact ⟨Int.le_of_lt hpos, _, rfl, Nat.le_refl _, spentSince_length.symm⟩
  · rw [if_neg hc] at hap ⊢
    exact h.drawn c ap hap

theorem Audit.scheduleRecurringPayment {recipient : Address} {amount : Int} {asset : Asset}
    {frequency now : Nat} {category purpose : Bytes} {approvedByProposal endDate : Option Nat}
    {payment : RecurringPayment} (h : Audit a)
    (hop : a.treasury.scheduleRecurringPayment recipient amount asset frequency category purpose
      approvedByProposal endDate now = .ok (t', payment)) :
    Audit { a with treasury := t' } ∧ t'.spendingHistory = a.treasury.spendingHistory := by
  simp only [Treasury.scheduleRecurringPayment, bind_ok, failIf_ok, pure_ok, Prod.mk.injEq] at hop
  obtain ⟨_, -, _, -, _, -, _, -, _, -, rfl, -⟩ := hop
  exact ⟨h.track.of_same rfl rfl (fun _ => rfl) rfl, trackAsset_fields.2.2.2⟩

theorem Audit.setRebalanceTarget {asset : Asset} {targetBps : Int} (h : Audit a)
    (hop : a.treasury.setRebalanceTarget asset targetBps = .ok t') :
    Audit { a with treasury := t' } ∧ t'.spendingHistory = a.treasury.spendingHistory := by
  simp only [Treasury.setRebalanceTarget, bind_ok, failIf_ok, pure_ok] at hop
  obtain ⟨_, -, _, -, _, -, rfl⟩ := hop
  exact ⟨h.track.of_same rfl rfl (fun _ => rfl) rfl, trackAsset_fields.2.2.2⟩

theorem Audit.rebalance {prices : Store Asset Int} {now : Nat} {actions : List RebalanceAction}
    (h : Audit a) (hop : a.treasury.rebalance prices now = .ok (t', actions)) :
    Audit { a with treasury := t' } ∧ t'.spendingHistory = a.treasury.spendingHistory := by
  simp only [Treasury.rebalance, bind_ok, failIf_ok, pure_ok, Prod.mk.injEq] at hop
  obtain ⟨_, -, _, -, _, -, _, -, rfl, -⟩ := hop
  exact ⟨h.of_same rfl rfl (fun _ => rfl) rfl, rfl⟩

/-- What an operation that returned keeps; and its spends keep to the limits. -/
theorem Audit.apply (h : Audit a) (hop : op.apply a.treasury = .ok t') :
    Audit { a.note op with treasury := t' } ∧ Limited a.treasury t' := by
  have hquiet : ∀ a' : Audited, Audit a' ∧ t'.spendingHistory = a.treasury.spendingHistory →
      Audit a' ∧ Limited a.treasury t' := fun _ ⟨ha, hh⟩ => ⟨ha, .of_same hh⟩
  cases op
  case setAssetBalance => exact hquiet _ (h.setAssetBalance hop)
  case setRebalanceTarget => exact hquiet _ (h.setRebalanceTarget hop)
  all_goals obtain ⟨⟨t, x⟩, hx, rfl⟩ := Res.map_ok.mp hop
  case upsertBudget => exact hquiet _ (h.upsertBudget hx)
  case approveBudget => exact hquiet _ (h.approveBudget hx)
  case executeSpend =>
    have hs := Spending.spend (t := a.treasury) ⟨h, .refl, fun _ => rfl⟩ hx
    exact ⟨hs.audit, hs.limited⟩
  case scheduleRecurringPayment => exact hquiet _ (h.scheduleRecurringPayment hx)
  case processRecurringPayments =>
    have hs := processRecurringPayments_spending h hx
    exact ⟨hs.audit, hs.limited⟩
  case rebalance => exact hquiet _ (h.rebalance hx)

theorem Audit.start : Audit .start where
  budget := by rintro _ _ ⟨⟩
  drawn := by rintro _ _ ⟨⟩
  balance _ := ⟨Int.le_refl 0, Nat.le_refl 0, rfl⟩

theorem Audit.next (h : Audit a) (op : Op) : Audit (a.next op) := by
  unfold Audited.next
  cases hop : op.apply a.treasury with
  | ok t => exact (h.apply hop).1
  | error e => exact h

end Runs

/-- In every run of the treasury, at any times: every budget is spent or remains; what was drawn under an
approval is what was spent in its category since, and no more than its cap; every balance is what was set
less what was spent since, and not negative; and whatever is done next, every spend of it is at most the
limit of its budget. -/
theorem audit_of_run {a : Audited} (h : Reaches (fun a op a' => a' = Audited.next a op) .start a) :
    (∀ category b, a.treasury.budgets.lookup category = some b →
      b.spent + b.remaining = b.allocated ∧ 0 ≤ b.remaining) ∧
    (∀ category ap, a.treasury.approvedBudgets.lookup category = some ap →
      ap.totalDrawn ≤ ap.approvedCap ∧ ∃ n, a.lastApproved.lookup category = some n ∧
        ap.totalDrawn = a.treasury.spentSince n (ofCategory category)) ∧
    (∀ asset, 0 ≤ a.treasury.balanceOf asset ∧
      a.treasury.balanceOf asset = ((a.lastSet.lookup asset).getD (0, 0)).1 -
        a.treasury.spentSince ((a.lastSet.lookup asset).getD (0, 0)).2 (ofAsset asset)) ∧
    ∀ op t', Op.apply a.treasury op = .ok t' → Limited a.treasury t' := by
  have haudit : Audit a := h.invariant .start fun a op b ha hb => hb ▸ ha.next op
  refine ⟨fun c b hb => ?_, fun c ap hap => ?_, fun asset => ?_, fun op t' hop => (haudit.apply hop).2⟩
  · exact ⟨(haudit.budget c b hb).split, (haudit.budget c b hb).remaining⟩
  · obtain ⟨hcap, n, hn, -, hdrawn⟩ := haudit.drawn c ap hap
    exact ⟨hcap, n, hn, hdrawn⟩
  · obtain ⟨h0, -, heq⟩ := haudit.balance asset
    exact ⟨h0, heq⟩

namespace Sample

def usdc : Asset := ⟨[85], none⟩

/-- Two spends and a payment of a category that is approved again in between; its periods are skipped. -/
def fundedRun : List Op :=
  [.setAssetBalance usdc 1000, .upsertBudget [111] 500 200 0 100 true, .approveBudget [111] 1 300 0,
    .executeSpend ⟨1⟩ 200 usdc [111] [112] none 10, .executeSpend ⟨1⟩ 201 usdc [111] [112] none 20,
    .scheduleRecurringPayment ⟨2⟩ 50 usdc 30 [111] [112] none none 20, .approveBudget [111] 2 400 250,
    .executeSpend ⟨1⟩ 150 usdc [111] [112] (some 2) 260, .processRecurringPayments 270,
    .rebalance ((∅ : Store Asset Int).insert usdc 2) 300]

/-- The balance is what was set less the three spends. -/
theorem funded_run_in_order :
    let a := fundedRun.foldl Audited.next .start
    a.treasury.spendingHistory.length = 3 ∧ a.treasury.balanceOf usdc = 1000 - a.treasury.spentSince 0
      (ofAsset usdc) := by
  refine ⟨by decide +kernel, ?_⟩
  have h := ((audit_of_run (Reaches.foldl Audited.next .start fundedRun)).2.2.1 usdc).2
  rwa [show ((fundedRun.foldl Audited.next .start).lastSet.lookup usdc).getD (0, 0) = (1000, 0) by
    decide +kernel] at h

end Sample

end Treasury

end CallStake.Governance
