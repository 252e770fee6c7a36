import CallStake.Lib.Machine
import CallStake.Lib.Tx

/-!
# The contract host

What every contract of the workspace sees of its host: addresses, symbols, byte strings, the ledger
it runs in, the addresses that authorized the call, and the token contracts it invokes.

* `Tokens τ`: the token contracts, as functions on their joint state `τ`. A failed invocation has
  no effect on `τ`; which invocations fail, and how, is up to the tokens.
* `classify` (`shared::token_error`): the kinds of failure that contracts tell apart.
* `Tokens.Exact`: the tokens move precisely the amounts they are asked to move.
  `Tokens.RejectsNegative`: and none that is negative. `Balances.tokens` do both.
-/

namespace CallStake

/-- An account or a contract. -/
structure Address where
  id : Nat
  deriving DecidableEq

abbrev Symbol := String

abbrev Bytes := List UInt8

instance : LawfulBEq Bytes := inferInstance

/-- `common::Asset`. -/
structure Asset where
  code : Bytes
  issuer : Option Address
  deriving DecidableEq

/-- `env.ledger()`: the close time and the number of the current ledger. -/
structure Ledger where
  timestamp : Nat
  sequence : Nat
  deriving DecidableEq

/-- The ledger only moves forward. -/
def Ledger.Before (a b : Ledger) : Prop := a.timestamp ≤ b.timestamp ∧ a.sequence ≤ b.sequence

instance (a b : Ledger) : Decidable (a.Before b) := inferInstanceAs (Decidable (_ ∧ _))

/-- The addresses that authorized a call. -/
abbrev Auth := Address → Bool

/-- `address.require_auth()`. -/
def requireAuth {σ ε : Type} (auth : Auth) (a : Address) : Tx σ (Fault ε) Unit := Tx.failIf (auth a = false) .panic

/-! ## Results in range -/

namespace Tx

variable {σ ε β : Type} {x y : Int} {n bound : Nat} {e : ε} {b : β} {s s' : σ}

theorem ofOption_checked_ok :
    (ofOption (checked x) e : Tx σ ε Int) s = (.ok y, s') ↔ InRange x ∧ x = y ∧ s = s' := by
  rw [ofOption_ok, checked_eq_some, InRange]
  tauto

theorem bind_checked_ok {k : Int → Tx σ ε β} :
    (ofOption (checked x) e >>= k) s = (.ok b, s') ↔ InRange x ∧ k x s = (.ok b, s') := by
  rw [bind_ofOption_ok]
  constructor
  · rintro ⟨y, hy, h⟩
    obtain ⟨h1, h2, rfl⟩ := checked_eq_some.mp hy
    exact ⟨⟨h1, h2⟩, h⟩
  · rintro ⟨hx, h⟩
    exact ⟨x, checked_eq_some.mpr ⟨hx.1, hx.2, rfl⟩, h⟩

theorem bind_bounded_ok {k : Nat → Tx σ ε β} :
    (ofOption (if n ≤ bound then some n else none) e >>= k) s = (.ok b, s') ↔ n ≤ bound ∧ k n s = (.ok b, s') := by
  rw [bind_ofOption_ok]
  by_cases hn : n ≤ bound
  · simp [hn]
  · simp [hn]

end Tx

section RequireAuth

variable {σ ε : Type} {auth : Auth} {a : Address} {s s' : σ}

@[simp] theorem requireAuth_ok {u : Unit} :
    (requireAuth auth a : Tx σ (Fault ε) Unit) s = (.ok u, s') ↔ auth a = true ∧ s = s' := by
  simp [requireAuth]

@[simp] theorem requireAuth_error {e : Fault ε} :
    (requireAuth auth a : Tx σ (Fault ε) Unit) s = (.error e, s') ↔ auth a = false ∧ .panic = e ∧ s = s' := by
  simp [requireAuth]

theorem bind_requireAuth_ok {β : Type} {b : β} {k : Unit → Tx σ (Fault ε) β} :
    (requireAuth auth a >>= k) s = (.ok b, s') ↔ auth a = true ∧ k () s = (.ok b, s') := by
  rw [requireAuth, Tx.bind_failIf_ok, Bool.not_eq_false]

end RequireAuth

/-! ## Tokens -/

/-- How the invocation of a token fails: with an error code of the callee, with a missing
authorization, or aborted by the host (including a result that cannot be converted). -/
inductive InvokeFailure where
  | contract (code : Nat)
  | auth
  | host

/-- The classification of a failed token or cross-contract invocation. -/
inductive TokenFailure where
  | unauthorized
  | insufficientBalance
  | insufficientAllowance
  | invalidRequest
  | overflow
  | otherContractError (code : Nat)
  | hostError

/-- The error codes of the built-in token; any other code is passed through. -/
def classifyCode : Nat → TokenFailure
  | 4 | 5 => .unauthorized
  | 9 => .insufficientAllowance
  | 10 | 11 => .insufficientBalance
  | 8 | 6 | 7 | 13 => .invalidRequest
  | 12 => .overflow
  | code => .otherContractError code

def classify : InvokeFailure → TokenFailure
  | .contract code => classifyCode code
  | .auth => .unauthorized
  | .host => .hostError

/-- The token contracts. The first argument of an operation is the address of the token. -/
structure Tokens (τ : Type) where
  transfer : Address → Address → Address → Int → τ → Except InvokeFailure τ
  burn : Address → Address → Int → τ → Except InvokeFailure τ
  balance : Address → Address → τ → Int

/-- A successful transfer or burn moves precisely its amount of that token, and balances are
nonnegative 128-bit values. -/
structure Tokens.Exact {τ : Type} (T : Tokens τ) : Prop where
  transfer {token src dst : Address} {amount : Int} {t t' : τ} :
    T.transfer token src dst amount t = .ok t' → ∀ k a, T.balance k a t' =
      T.balance k a t - (if k = token ∧ a = src then amount else 0)
        + (if k = token ∧ a = dst then amount else 0)
  burn {token src : Address} {amount : Int} {t t' : τ} :
    T.burn token src amount t = .ok t' → ∀ k a, T.balance k a t' =
      T.balance k a t - (if k = token ∧ a = src then amount else 0)
  nonneg (k a : Address) (t : τ) : 0 ≤ T.balance k a t
  le_max (k a : Address) (t : τ) : T.balance k a t ≤ i128Max

/-- No transfer or burn of a negative amount succeeds. -/
structure Tokens.RejectsNegative {τ : Type} (T : Tokens τ) : Prop where
  transfer {token src dst : Address} {amount : Int} {t t' : τ} :
    T.transfer token src dst amount t = .ok t' → 0 ≤ amount
  burn {token src : Address} {amount : Int} {t t' : τ} : T.burn token src amount t = .ok t' → 0 ≤ amount

/-! ## A token that keeps its books -/

/-- Balances per token and holder, each a nonnegative 128-bit value. -/
structure Balances where
  of : Address → Address → Int
  bounds : ∀ k a, 0 ≤ of k a ∧ of k a ≤ i128Max

namespace Balances

/-- `amount` of `token` leaves `src`, who must have it. -/
def debit (b : Balances) (token src : Address) (amount : Int) : Except InvokeFailure Balances :=
  if h : 0 ≤ amount ∧ amount ≤ b.of token src then
    .ok ⟨fun k a => b.of k a - if k = token ∧ a = src then amount else 0, by
      intro k a
      have hb := b.bounds k a
      split
      · rename_i he; rw [← he.1, ← he.2] at h; omega
      · omega⟩
  else .error (.contract 10)

/-- `amount` of `token` arrives at `dst`, whose balance must stay in range. -/
def credit (b : Balances) (token dst : Address) (amount : Int) : Except InvokeFailure Balances :=
  if h : 0 ≤ amount ∧ b.of token dst + amount ≤ i128Max then
    .ok ⟨fun k a => b.of k a + if k = token ∧ a = dst then amount else 0, by
      intro k a
      have hb := b.bounds k a
      split
      · rename_i he; rw [← he.1, ← he.2] at h; omega
      · omega⟩
  else .error (.contract 12)

/-- A transfer is a debit and a credit, a burn a debit. -/
def tokens : Tokens Balances where
  transfer token src dst amount b := do (← b.debit token src amount).credit token dst amount
  burn token src amount b := b.debit token src amount
  balance k a b := b.of k a

theorem debit_nonneg {b b' : Balances} {token src : Address} {amount : Int}
    (h : b.debit token src amount = .ok b') : 0 ≤ amount := by
  unfold debit at h
  split at h
  · rename_i hb; exact hb.1
  · cases h

theorem debit_ok {b b' : Balances} {token src : Address} {amount : Int}
    (h : b.debit token src amount = .ok b') (k a : Address) :
    b'.of k a = b.of k a - if k = token ∧ a = src then amount else 0 := by
  unfold debit at h
  split at h
  · cases h; rfl
  · cases h

theorem credit_ok {b b' : Balances} {token dst : Address} {amount : Int}
    (h : b.credit token dst amount = .ok b') (k a : Address) :
    b'.of k a = b.of k a + if k = token ∧ a = dst then amount else 0 := by
  unfold credit at h
  split at h
  · cases h; rfl
  · cases h

theorem tokens_exact : tokens.Exact where
  transfer {token src dst amount b b'} h k a := by
    change (b.debit token src amount >>= fun b₁ => b₁.credit token dst amount) = _ at h
    cases hd : b.debit token src amount with
    | error e => rw [hd] at h; cases h
    | ok b₁ =>
      rw [hd] at h
      have hc : b'.of k a = b₁.of k a + _ := credit_ok h k a
      rw [debit_ok hd] at hc
      exact hc
  burn h k a := debit_ok h k a
  nonneg k a b := (b.bounds k a).1
  le_max k a b := (b.bounds k a).2

theorem tokens_rejectsNegative : tokens.RejectsNegative where
  transfer {token src dst amount b b'} h := by
    change (b.debit token src amount >>= fun b₁ => b₁.credit token dst amount) = _ at h
    cases hd : b.debit token src amount with
    | error e => rw [hd] at h; cases h
    | ok b₁ => exact debit_nonneg hd
  burn h := debit_nonneg h

end Balances

end CallStake
