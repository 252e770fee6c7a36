import CallStake.Governance.Basic

/-!
# The treasury (`treasury`)

The books of the treasury: assets with their balances and rebalancing targets, budgets with the caps
that governance approved, recurring payments and the history of spends. The operations are functions
of the books; the entrypoints read and write them.

* `processRecurringPayments`: the payments that are due are spent one after another; a payment that the
  books do not cover ends.
* `renewBudgetIfNeeded`: the periods of a budget roll on until the present one. At the last second
  of the clock they no longer do, and the loop of the source never ends.
-/

namespace CallStake.Governance

open Res

namespace Treasury

def BPS_DENOMINATOR : Int := 10000

/-- A cap on a category that was voted on. -/
structure BudgetApproval where
  proposalId : Nat
  category : Bytes
  approvedCap : Int
  totalDrawn : Int
  approvedAt : Nat

/-- What a category may spend in a period. -/
structure Budget where
  category : Bytes
  allocated : Int
  spent : Int
  remaining : Int
  spendLimit : Int
  periodStart : Nat
  periodEnd : Nat
  autoRenew : Bool

/-- A payment that comes again. -/
structure RecurringPayment where
  id : Nat
  recipient : Address
  amount : Int
  asset : Asset
  frequency : Nat
  category : Bytes
  purpose : Bytes
  approvedByProposal : Option Nat
  lastPayment : Nat
  endDate : Option Nat
  active : Bool

/-- A spend in the history. -/
structure TreasurySpend where
  id : Nat
  recipient : Address
  amount : Int
  asset : Asset
  category : Bytes
  purpose : Bytes
  approvedByProposal : Option Nat
  executedAt : Nat

end Treasury

open Treasury in
/-- Assets, budgets, payments and the history. -/
structure Treasury where
  assets : Store Asset Int
  trackedAssets : List Asset
  totalValueUsd : Int
  budgets : Store Bytes Budget
  budgetCategories : List Bytes
  approvedBudgets : Store Bytes BudgetApproval
  recurringPayments : List RecurringPayment
  spendingHistory : List TreasurySpend
  rebalanceTargets : Store Asset Int
  lastRebalance : Nat
  nextRecurringPaymentId : Nat
  nextSpendId : Nat

namespace Treasury

def empty : Treasury where
  assets := ∅
  trackedAssets := []
  totalValueUsd := 0
  budgets := ∅
  budgetCategories := []
  approvedBudgets := ∅
  recurringPayments := []
  spendingHistory := []
  rebalanceTargets := ∅
  lastRebalance := 0
  nextRecurringPaymentId := 1
  nextSpendId := 1

/-- `treasury.assets.get(asset).unwrap_or(0)`. -/
def balanceOf (t : Treasury) (asset : Asset) : Int := (t.assets.lookup asset).getD 0

/-- The entry of a map that has none yet. -/
def insertMissing {κ ν : Type} [DecidableEq κ] (s : Store κ ν) (k : κ) (v : ν) : Store κ ν :=
  if (s.lookup k).isSome then s else s.insert k v

def trackAsset (t : Treasury) (asset : Asset) : Treasury :=
  if asset ∈ t.trackedAssets then t
  else { t with
    trackedAssets := t.trackedAssets ++ [asset]
    assets := insertMissing t.assets asset 0
    rebalanceTargets := insertMissing t.rebalanceTargets asset 0 }

def trackCategory (t : Treasury) (category : Bytes) : Treasury :=
  if category ∈ t.budgetCategories then t
  else { t with budgetCategories := t.budgetCategories ++ [category] }

def setAssetBalance (t : Treasury) (asset : Asset) (amount : Int) : Res Treasury := do
  failIf (amount < 0) .invalidAmount
  let t := t.trackAsset asset
  return { t with assets := t.assets.insert asset amount }

def upsertBudget (t : Treasury) (category : Bytes) (allocated spendLimit : Int)
    (periodStart periodEnd : Nat) (autoRenew : Bool) : Res (Treasury × Budget) := do
  failIf (category = [] ∨ allocated ≤ 0 ∨ spendLimit ≤ 0 ∨ allocated < spendLimit)
    .invalidTreasuryConfig
  failIf (periodEnd ≤ periodStart) .invalidDuration
  let budget : Budget :=
    { category, allocated, spent := 0, remaining := allocated, spendLimit, periodStart, periodEnd, autoRenew }
  let t := t.trackCategory category
  return ({ t with budgets := t.budgets.insert category budget }, budget)

def approveBudget (t : Treasury) (category : Bytes) (proposalId : Nat) (approvedCap : Int)
    (now : Nat) : Res (Treasury × BudgetApproval) := do
  failIf (approvedCap ≤ 0) .invalidAmount
  let budget ← Res.ofOption (t.budgets.lookup category) .budgetNotFound
  failIf (budget.allocated < approvedCap) .budgetExceeded
  let approval : BudgetApproval := { proposalId, category, approvedCap, totalDrawn := 0, approvedAt := now }
  return ({ t with approvedBudgets := t.approvedBudgets.insert category approval }, approval)

/-- The period that contains `now`. A round moves the end on by `duration`, so more rounds than
`now` has seconds are only made when the end is stuck at the end of the clock. -/
def renewLoop (now duration : Nat) : Nat → Nat → Nat → Res (Nat × Nat)
  | 0, _, _ => .error .panic
  | fuel + 1, nextStart, nextEnd =>
    if nextEnd ≤ now then renewLoop now duration fuel nextEnd (u64Add nextEnd duration)
    else .ok (nextStart, nextEnd)

def renewBudgetIfNeeded (budget : Budget) (now : Nat) : Res Budget :=
  if now < budget.periodEnd then .ok budget
  else do
    failIf (budget.autoRenew = false) .budgetPeriodEnded
    let duration := budget.periodEnd - budget.periodStart
    failIf (duration = 0) .invalidDuration
    let (nextStart, nextEnd) ← renewLoop now duration (now + 2) budget.periodStart budget.periodEnd
    return { budget with
      periodStart := nextStart, periodEnd := nextEnd, spent := 0, remaining := budget.allocated }

/-- A spend is covered by the budget of its category, by the approved cap and by the balance of the asset. -/
def executeSpend (t : Treasury) (recipient : Address) (amount : Int) (asset : Asset)
    (category purpose : Bytes) (approvedByProposal : Option Nat) (executedAt : Nat) :
    Res (Treasury × TreasurySpend) := do
  failIf (purpose = []) .invalidTreasuryConfig
  failIf (amount ≤ 0) .invalidAmount
  let stored ← Res.ofOption (t.budgets.lookup category) .budgetNotFound
  let budget ← renewBudgetIfNeeded stored executedAt
  failIf (budget.remaining < amount ∨ budget.spendLimit < amount) .budgetExceeded
  let approval ← Res.ofOption (t.approvedBudgets.lookup category) .budgetApprovalRequired
  let newDrawn ← checkedAddR approval.totalDrawn amount
  failIf (approval.approvedCap < newDrawn) .approvedCapExceeded
  let currentBalance := t.balanceOf asset
  failIf (currentBalance < amount) .insufficientBalance
  let spent ← checkedAddR budget.spent amount
  let remaining ← checkedSubR budget.remaining amount
  let newBalance ← checkedSubR currentBalance amount
  let spend : TreasurySpend :=
    { id := t.nextSpendId, recipient, amount, asset, category, purpose, approvedByProposal, executedAt }
  return ({ t with
    approvedBudgets := t.approvedBudgets.insert category { approval with totalDrawn := newDrawn }
    budgets := t.budgets.insert category { budget with spent, remaining }
    assets := t.assets.insert asset newBalance
    nextSpendId := u64Add t.nextSpendId 1
    spendingHistory := t.spendingHistory ++ [spend] }, spend)

def scheduleRecurringPayment (t : Treasury) (recipient : Address) (amount : Int) (asset : Asset)
    (frequency : Nat) (category purpose : Bytes) (approvedByProposal endDate : Option Nat)
    (now : Nat) : Res (Treasury × RecurringPayment) := do
  failIf (amount ≤ 0) .invalidAmount
  failIf (frequency = 0) .invalidDuration
  failIf (endDate.any (· ≤ now) = true) .invalidDuration
  failIf ((t.budgets.lookup category).isNone = true) .budgetNotFound
  failIf ((t.approvedBudgets.lookup category).isNone = true) .budgetApprovalRequired
  let t := t.trackAsset asset
  let payment : RecurringPayment :=
    { id := t.nextRecurringPaymentId, recipient, amount, asset, frequency, category, purpose,
      approvedByProposal, lastPayment := now, endDate, active := true }
  return ({ t with
    nextRecurringPaymentId := u64Add t.nextRecurringPaymentId 1
    recurringPayments := t.recurringPayments ++ [payment] }, payment)

/-- The errors of a spend that end a recurring payment. All of them are returned before the first write;
`budgetApprovalRequired` and `approvedCapExceeded` have the codes of two others. -/
def endsPayment : GovernanceError → Bool
  | .budgetExceeded | .budgetNotFound | .budgetPeriodEnded | .insufficientBalance => true
  | _ => false

def setPayment (t : Treasury) (index : Nat) (payment : RecurringPayment) : Treasury :=
  { t with recurringPayments := t.recurringPayments.set index payment }

/-- One round of the loop: the books after it, and how many payments were made. -/
def processPayment (now : Nat) (t : Treasury) (index : Nat) : Res (Treasury × Nat) :=
  match t.recurringPayments[index]? with
  | none => .error .panic
  | some payment =>
    if payment.active = false then .ok (t, 0)
    else if payment.endDate.any (· < now) = true then
      .ok (t.setPayment index { payment with active := false }, 0)
    else if now < u64Add payment.lastPayment payment.frequency then .ok (t, 0)
    else
      match executeSpend t payment.recipient payment.amount payment.asset payment.category
        payment.purpose payment.approvedByProposal now with
      | .ok (t, _) => .ok (t.setPayment index
          { payment with lastPayment := now, active := !payment.endDate.any (· ≤ now) }, 1)
      | .error (.err e) =>
        if endsPayment e = true then .ok (t.setPayment index { payment with active := false }, 0)
        else .error (.err e)
      | .error .panic => .error .panic

def processRecurringPayments (t : Treasury) (now : Nat) : Res (Treasury × Nat) :=
  (List.range t.recurringPayments.length).foldlM (fun (t, processed) index => do
    let (t, n) ← processPayment now t index
    return (t, u32Add processed n)) (t, 0)

/-- The sum of the targets of the assets, in the order in which they were tracked. -/
def totalTargetBps (t : Treasury) : Res Int :=
  t.trackedAssets.foldlM
    (fun total asset => checkedAddR total ((t.rebalanceTargets.lookup asset).getD 0)) 0

def setRebalanceTarget (t : Treasury) (asset : Asset) (targetBps : Int) : Res Treasury := do
  failIf (¬ (0 ≤ targetBps ∧ targetBps ≤ BPS_DENOMINATOR)) .invalidTreasuryConfig
  let t := t.trackAsset asset
  let t := { t with rebalanceTargets := t.rebalanceTargets.insert asset targetBps }
  let total ← totalTargetBps t
  failIf (BPS_DENOMINATOR < total) .invalidTreasuryConfig
  return t

/-- How far an asset is from its target. -/
structure RebalanceAction where
  asset : Asset
  currentValueUsd : Int
  targetValueUsd : Int
  deltaValueUsd : Int
  targetBps : Int

/-- The value of the assets. -/
def sumValueUsd (t : Treasury) (prices : Store Asset Int) : Res Int :=
  t.trackedAssets.foldlM (fun total asset =>
    let amount := t.balanceOf asset
    if 0 < amount then do
      let price ← Res.ofOption (prices.lookup asset) .missingAssetPrice
      failIf (price < 0) .invalidTreasuryConfig
      let value ← checkedMulR amount price
      checkedAddR total value
    else .ok total) 0

/-- What is to be bought or sold of an asset, if it is held or has a target. -/
def rebalanceAction (t : Treasury) (prices : Store Asset Int) (totalValueUsd : Int) (asset : Asset) :
    Res (List RebalanceAction) := do
  let amount := t.balanceOf asset
  let currentValueUsd ←
    if 0 < amount then do
      let price ← Res.ofOption (prices.lookup asset) .missingAssetPrice
      checkedMulR amount price
    else pure 0
  let targetBps := (t.rebalanceTargets.lookup asset).getD 0
  let targetValueUsd ←
    if 0 < totalValueUsd ∧ 0 < targetBps then do
      let product ← checkedMulR totalValueUsd targetBps
      checkedDivR product BPS_DENOMINATOR
    else pure 0
  let deltaValueUsd ← checkedSubR targetValueUsd currentValueUsd
  return if 0 < currentValueUsd ∨ 0 < targetBps then
    [{ asset, currentValueUsd, targetValueUsd, deltaValueUsd, targetBps }] else []

/-- The actions are only reported: the balances stay as they are. -/
def rebalance (t : Treasury) (prices : Store Asset Int) (now : Nat) :
    Res (Treasury × List RebalanceAction) := do
  let totalTarget ← totalTargetBps t
  failIf (BPS_DENOMINATOR < totalTarget) .invalidTreasuryConfig
  let totalValueUsd ← sumValueUsd t prices
  let actions ← t.trackedAssets.mapM (rebalanceAction t prices totalValueUsd)
  return ({ t with totalValueUsd, lastRebalance := now }, actions.flatten)

end Treasury

end CallStake.Governance
