import CallStake.Lib.Store
import CallStake.Shared.Host

/-!
# Errors, strings and arithmetic of the governance contract

* `GovernanceError`: the error codes; several names stand for one code.
* `Res`: the result of a computation that does not touch the storage.
* `sanitizeString` (`common::sanitize_string`): a text is short enough and has no control characters.
* `isqrt`: the floor of the square root, by Newton's method.
-/

namespace CallStake.Governance

/-! ## Errors -/

/-- The errors of governance. -/
inductive GovernanceError where
  | alreadyInitialized
  | notInitialized
  | unauthorized
  | invalidSupply
  | invalidAmount
  | invalidDuration
  | duplicateSchedule
  | vestingScheduleNotFound
  | cliffNotReached
  | nothingToRelease
  | insufficientBalance
  | insufficientStakedBalance
  | activeVoteLock
  | belowMinimumClaim
  | liquidityPoolExhausted
  | duplicateRecipient
  | arithmeticOverflow
  | invalidRewardConfig
  | invalidMetadata
  | budgetNotFound
  | budgetExceeded
  | budgetPeriodEnded
  | missingAssetPrice
  | invalidTreasuryConfig
  | invalidCommitteeConfig
  | committeeNotFound
  | committeeTermEnded
  | committeeDecisionNotFound
  | committeeDecisionNotOpen
  | alreadyVoted
  | noCommitteeAuthority
  | committeeElectionNotFound
  | committeeElectionNotActive
  | notCommitteeCandidate
  | crossCommitteeRequestNotFound
  | committeeInactive
  | invalidCommitteeAction
  | invalidApprovalRating
  | invalidGovernanceConfig
  | invalidProposal
  | proposalNotFound
  | proposalNotActive
  | proposalNotApproved
  | votingNotStarted
  | votingEnded
  | noVotingPower
  | timelockNotInitialized
  | actionNotFound
  | invalidTimelockConfig
  | convictionPoolNotFound
  deriving DecidableEq

/-! Names without a code of their own. -/

namespace GovernanceError

abbrev budgetApprovalRequired : GovernanceError := .budgetNotFound
abbrev approvedCapExceeded : GovernanceError := .budgetExceeded
abbrev contractPaused : GovernanceError := .unauthorized
abbrev discussionPeriodActive : GovernanceError := .votingNotStarted
abbrev proposalAlreadyWithdrawn : GovernanceError := .proposalNotActive
abbrev proposalExpired : GovernanceError := .budgetPeriodEnded
abbrev proposalParameterOutOfRange : GovernanceError := .invalidAmount
abbrev timelockBypassBlocked : GovernanceError := .unauthorized

end GovernanceError

abbrev err (e : GovernanceError) : Fault GovernanceError := .err e

/-- A result computed without the storage; a trap is possible. -/
abbrev Res (α : Type) := Except (Fault GovernanceError) α

namespace Res

/-- `if p { return Err(e) }`. -/
def failIf (p : Prop) [Decidable p] (e : GovernanceError) : Res Unit := if p then .error (err e) else .ok ()

/-- `o.ok_or(e)?`. -/
def ofOption {α : Type} (o : Option α) (e : GovernanceError) : Res α :=
  match o with
  | some a => .ok a
  | none => .error (err e)

section Inversion

variable {α β : Type} {a b' : α} {b : β} {u : Unit} {e : GovernanceError}

@[simp] theorem failIf_ok {p : Prop} [Decidable p] : failIf p e = .ok u ↔ ¬ p := by
  unfold failIf
  split <;> simp_all

@[simp] theorem ofOption_ok {o : Option α} : ofOption o e = .ok a ↔ o = some a := by
  cases o <;> simp [ofOption]

@[simp] theorem bind_ok {x : Res α} {f : α → Res β} :
    (x >>= f) = .ok b ↔ ∃ a, x = .ok a ∧ f a = .ok b := by
  cases x with
  | error e =>
    constructor
    · intro h; cases h
    · rintro ⟨a, h, -⟩; cases h
  | ok a =>
    constructor
    · intro h; exact ⟨a, rfl, h⟩
    · rintro ⟨a', h, hf⟩; cases h; exact hf

@[simp] theorem pure_ok : (pure a : Res α) = .ok b' ↔ a = b' := by
  change (.ok a : Res α) = .ok b' ↔ _
  simp

theorem map_ok {x : Res α} {f : α → β} : x.map f = .ok b ↔ ∃ a, x = .ok a ∧ f a = b := by
  cases x with
  | error e =>
    change (.error e : Res β) = .ok b ↔ _
    simp
  | ok a =>
    change (.ok (f a) : Res β) = .ok b ↔ _
    simp

/-- What every round keeps holds after the loop. -/
theorem foldlM_rule {f : β → α → Res β} {I : β → Prop} {l : List α} {b₀ b₁ : β}
    (hstep : ∀ b a b', I b → f b a = .ok b' → I b') (h0 : I b₀) (h : l.foldlM f b₀ = .ok b₁) :
    I b₁ := by
  induction l generalizing b₀ with
  | nil =>
    rw [List.foldlM_nil, pure_ok] at h
    exact h ▸ h0
  | cons a l ih =>
    rw [List.foldlM_cons, bind_ok] at h
    obtain ⟨b, hb, h⟩ := h
    exact ih (hstep b₀ a b h0 hb) h

end Inversion

end Res

/-! ## Arithmetic -/

def checkedAddR (a b : Int) : Res Int := Res.ofOption (checkedAdd a b) .arithmeticOverflow
def checkedSubR (a b : Int) : Res Int := Res.ofOption (checkedSub a b) .arithmeticOverflow
def checkedMulR (a b : Int) : Res Int := Res.ofOption (checkedMul a b) .arithmeticOverflow

/-- `left.checked_div(right)`, which fails on a zero divisor and on `i128::MIN / -1`. -/
def checkedDivR (a b : Int) : Res Int := Res.ofOption (if b = 0 then none else checked (a.tdiv b)) .arithmeticOverflow

@[simp] theorem checkedAddR_ok {a b c : Int} :
    checkedAddR a b = .ok c ↔ i128Min ≤ a + b ∧ a + b ≤ i128Max ∧ a + b = c := by
  simp [checkedAddR]

@[simp] theorem checkedSubR_ok {a b c : Int} :
    checkedSubR a b = .ok c ↔ i128Min ≤ a - b ∧ a - b ≤ i128Max ∧ a - b = c := by
  simp [checkedSubR]

@[simp] theorem checkedMulR_ok {a b c : Int} :
    checkedMulR a b = .ok c ↔ i128Min ≤ a * b ∧ a * b ≤ i128Max ∧ a * b = c := by
  simp [checkedMulR]

theorem checkedDivR_ok {a b c : Int} (h : checkedDivR a b = .ok c) : b ≠ 0 ∧ a.tdiv b = c := by
  simp only [checkedDivR, Res.ofOption_ok] at h
  split at h
  · cases h
  · exact ⟨‹_›, (checked_eq_some.mp h).2.2⟩

/-- `left.saturating_mul(right)`. -/
def saturatingMul (a b : Int) : Int := clamp (a * b)

/-- `left.saturating_mul(right)` on 32 bits. -/
def u32Mul (a b : Nat) : Nat := min (a * b) u32Max

/-- One round of Newton's method: `x` falls to `y` until it no longer does. The rounds are counted
down, and `n` of them are enough. -/
def isqrtLoop (n : Nat) : Nat → Nat → Nat → Nat
  | 0, x, _ => x
  | fuel + 1, x, y => if y < x then isqrtLoop n fuel y ((y + n / y) / 2) else x

/-- `isqrt_u128`. -/
def isqrtU128 (n : Nat) : Nat := if n = 0 then 0 else isqrtLoop n n n (n / 2 + n % 2)

/-- `isqrt`: zero for what is not positive. -/
def isqrt (n : Int) : Int := if n ≤ 0 then 0 else isqrtU128 n.toNat

theorem isqrt_nonneg (n : Int) : 0 ≤ isqrt n := by
  unfold isqrt
  split
  · exact Int.le_refl 0
  · exact Int.natCast_nonneg _

/-! ## Strings -/

/-- `sanitize_string(value, maxLen).is_ok()`. -/
def sanitizeString (value : Bytes) (maxLen : Nat) : Bool := decide (value.length ≤ maxLen) && value.all (0x20 ≤ ·)

end CallStake.Governance
