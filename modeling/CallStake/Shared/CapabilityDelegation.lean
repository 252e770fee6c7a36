import CallStake.Lib.Store
import CallStake.Shared.Host

/-!
# Scoped delegation of capabilities (`shared::capability`)

An address delegates one scope of its authority to another address. The delegations are stored by delegate
and scope, the numbers of delegations by delegator.

* `delegateCapability`, `revokeCapability`: the two writes. Neither looks at the delegator of the entry it
  replaces or removes.
* `Counted`, `Respected`: the counters are exact and within the limit, and entries are only changed with
  the authorization of their delegator; a foreign call breaks both (`Sample.foreign_overwrite`).
* `Owned`: no call that goes through hits an entry of another delegator. `counted_of_owned`: then every run
  keeps both.
-/

namespace CallStake.CapabilityDelegation

open Tx Store

/-- The errors of the delegations. -/
inductive CapabilityError where
  | insufficientCapability
  | delegationNotFound
  | delegationExpired
  | maxDelegationsReached
  | selfDelegation

/-- The scopes that can be delegated. -/
inductive CapabilityScope where
  | upgrade
  | pause
  | treasury
  | parameterChange
  | adminTransfer
  | emergencyAction
  | contractConfig
  deriving DecidableEq

/-- `scope as u32`. -/
def CapabilityScope.code : CapabilityScope → Nat
  | upgrade => 1
  | pause => 2
  | treasury => 3
  | parameterChange => 4
  | adminTransfer => 5
  | emergencyAction => 6
  | contractConfig => 7

/-- A capability that was given to another. -/
structure Delegation where
  delegator : Address
  delegate : Address
  scope : CapabilityScope
  expiresAt : Nat

/-- The entries under `CapabilityStorageKey`. -/
structure CapabilityStorage where
  delegations : Store (Address × Nat) Delegation
  count : Store Address Nat

def CapabilityStorage.empty : CapabilityStorage := ⟨∅, ∅⟩

def MAX_DELEGATIONS_PER_DELEGATOR : Nat := 32

abbrev D := Tx CapabilityStorage (Fault CapabilityError)

/-! ## Operations -/

def delegationCount (s : CapabilityStorage) (delegator : Address) : Nat := (s.count.lookup delegator).getD 0

def delegateCapability (auth : Auth) (delegator delegate : Address) (scope : CapabilityScope)
    (expiresAt : Nat) : D Unit := do
  requireAuth auth delegator
  failIf (delegate = delegator) (.err .selfDelegation)
  let count ← Tx.gets fun s => delegationCount s delegator
  failIf (MAX_DELEGATIONS_PER_DELEGATOR ≤ count) (.err .maxDelegationsReached)
  let entry ← Tx.gets fun s => s.delegations.lookup (delegate, scope.code)
  Tx.modify fun s => { s with
    delegations := s.delegations.insert (delegate, scope.code) ⟨delegator, delegate, scope, expiresAt⟩ }
  Tx.when (entry = none) (Tx.modify fun s => { s with count := s.count.insert delegator (count + 1) })

def revokeCapability (auth : Auth) (delegator delegate : Address) (scope : CapabilityScope) : D Unit := do
  requireAuth auth delegator
  let entry ← Tx.gets fun s => s.delegations.lookup (delegate, scope.code)
  failIf (entry = none) (.err .delegationNotFound)
  Tx.modify fun s => { s with delegations := s.delegations.erase (delegate, scope.code) }
  let count ← Tx.gets fun s => delegationCount s delegator
  Tx.when (0 < count) (Tx.modify fun s => { s with count := s.count.insert delegator (count - 1) })

def requireCapability (now : Nat) (caller : Address) (scope : CapabilityScope) : D Unit := do
  let delegations ← Tx.gets (·.delegations)
  failIf (¬ ∃ e ∈ delegations.entries, e.2.delegate = caller ∧ e.2.scope = scope ∧
    (e.2.expiresAt = 0 ∨ now < e.2.expiresAt)) (.err .insufficientCapability)

section Inversion

variable {auth : Auth} {delegator delegate : Address} {scope : CapabilityScope} {s s' : CapabilityStorage}
  {u : Unit}

theorem delegateCapability_ok {expiresAt : Nat}
    (h : delegateCapability auth delegator delegate scope expiresAt s = (.ok u, s')) :
    auth delegator = true ∧ delegate ≠ delegator ∧
    delegationCount s delegator < MAX_DELEGATIONS_PER_DELEGATOR ∧
    s' =
      { delegations := s.delegations.insert (delegate, scope.code) ⟨delegator, delegate, scope, expiresAt⟩
        count := if s.delegations.lookup (delegate, scope.code) = none
          then s.count.insert delegator (delegationCount s delegator + 1) else s.count } := by
  simp only [delegateCapability, bind_requireAuth_ok, bind_failIf_ok, bind_gets_ok, bind_modify_ok, when_ok] at h
  obtain ⟨hauth, hself, hcount, h⟩ := h
  refine ⟨hauth, hself, Nat.not_le.mp hcount, ?_⟩
  split at h
  · rename_i hnone
    rw [if_pos hnone]
    exact (Tx.modify_ok.mp h).symm
  · rename_i hsome
    rw [if_neg hsome]
    exact h.symm

theorem revokeCapability_ok (h : revokeCapability auth delegator delegate scope s = (.ok u, s')) :
    auth delegator = true ∧ (∃ e, s.delegations.lookup (delegate, scope.code) = some e) ∧
    s' =
      { delegations := s.delegations.erase (delegate, scope.code)
        count := if 0 < delegationCount s delegator
          then s.count.insert delegator (delegationCount s delegator - 1) else s.count } := by
  simp only [revokeCapability, bind_requireAuth_ok, bind_failIf_ok, bind_gets_ok, bind_modify_ok, when_ok] at h
  obtain ⟨hauth, hsome, h⟩ := h
  refine ⟨hauth, Option.ne_none_iff_exists'.mp hsome, ?_⟩
  split at h
  · rename_i hpos
    rw [if_pos (show 0 < delegationCount s delegator from hpos)]
    exact (Tx.modify_ok.mp h).symm
  · rename_i hzero
    rw [if_neg (show ¬ 0 < delegationCount s delegator from hzero)]
    exact h.symm

end Inversion

/-! ## Runs -/

/-- The operations on delegations. -/
inductive Op where
  | delegate (auth : Auth) (delegator delegate : Address) (scope : CapabilityScope) (expiresAt : Nat)
  | revoke (auth : Auth) (delegator delegate : Address) (scope : CapabilityScope)

def Op.auth : Op → Auth
  | .delegate auth .. => auth
  | .revoke auth .. => auth

def next (s : CapabilityStorage) : Op → CapabilityStorage
  | .delegate auth delegator delegate scope expiresAt =>
    (delegateCapability auth delegator delegate scope expiresAt).exec s
  | .revoke auth delegator delegate scope => (revokeCapability auth delegator delegate scope).exec s

def Step (s : CapabilityStorage) (op : Op) (s' : CapabilityStorage) : Prop := s' = next s op

/-- How many entries `delegator` has. -/
def held (s : CapabilityStorage) (delegator : Address) : Int :=
  Store.total (fun e => if e.delegator = delegator then 1 else 0) s.delegations

/-- The counters are the numbers of entries, and within the limit. -/
def Counted (s : CapabilityStorage) : Prop :=
  ∀ delegator, (delegationCount s delegator : Int) = held s delegator ∧
    delegationCount s delegator ≤ MAX_DELEGATIONS_PER_DELEGATOR

/-- An entry that is no longer there as it was, was changed with the authorization of its delegator. -/
def Respected (s : CapabilityStorage) (op : Op) (s' : CapabilityStorage) : Prop :=
  ∀ key e, s.delegations.lookup key = some e → s'.delegations.lookup key ≠ some e → op.auth e.delegator = true

/-- A call that is authorized, and for a delegation within its limits, hits no entry of another
delegator. -/
def Owned (s : CapabilityStorage) : Op → Prop
  | .delegate auth delegator delegate scope _ =>
    auth delegator = true → delegate ≠ delegator →
      delegationCount s delegator < MAX_DELEGATIONS_PER_DELEGATOR →
        ∀ e ∈ s.delegations.lookup (delegate, scope.code), e.delegator = delegator
  | .revoke auth delegator delegate scope =>
    auth delegator = true → ∀ e ∈ s.delegations.lookup (delegate, scope.code), e.delegator = delegator

instance (s : CapabilityStorage) : (op : Op) → Decidable (Owned s op)
  | .delegate auth delegator delegate scope _ =>
    inferInstanceAs (Decidable (auth delegator = true → delegate ≠ delegator →
      delegationCount s delegator < MAX_DELEGATIONS_PER_DELEGATOR →
        ∀ e ∈ s.delegations.lookup (delegate, scope.code), e.delegator = delegator))
  | .revoke auth delegator delegate scope =>
    inferInstanceAs (Decidable (auth delegator = true →
      ∀ e ∈ s.delegations.lookup (delegate, scope.code), e.delegator = delegator))

/-! ## Steps -/

section Steps

variable {s : CapabilityStorage} {delegator delegate : Address} {scope : CapabilityScope}

theorem count_insert (s : CapabilityStorage) (delegations : Store (Address × Nat) Delegation)
    (delegator d : Address) (n : Nat) :
    delegationCount ⟨delegations, s.count.insert delegator n⟩ d =
      if d = delegator then n else delegationCount s d := by
  unfold delegationCount
  rw [lookup_insert_eq]
  split <;> rfl

/-- The entry that a call of `delegator` hits counts for `delegator`. -/
theorem part_owned {key : Address × Nat} {e : Delegation} (he : s.delegations.lookup key = some e)
    (hown : e.delegator = delegator) (d : Address) :
    Store.part (fun e : Delegation => if e.delegator = d then 1 else 0) s.delegations key =
      if d = delegator then 1 else 0 := by
  rw [part_some he, hown]
  simp only [eq_comm]

theorem Counted.delegated {auth : Auth} {expiresAt : Nat} (h : Counted s)
    (hown : Owned s (.delegate auth delegator delegate scope expiresAt)) :
    Counted (next s (.delegate auth delegator delegate scope expiresAt)) := by
  obtain ⟨u, hx⟩ | hx := exec_cases (delegateCapability auth delegator delegate scope expiresAt) s
  · obtain ⟨hauth, hself, hfew, hs'⟩ := delegateCapability_ok hx
    have hown := hown hauth hself hfew
    rw [next, hs']
    intro d
    have hd := h d
    have hinsert := total_insert (fun e : Delegation => if e.delegator = d then 1 else 0)
      s.delegations (delegate, scope.code) ⟨delegator, delegate, scope, expiresAt⟩
    unfold held at hd ⊢
    cases he : s.delegations.lookup (delegate, scope.code) with
    | none =>
      rw [part_none he] at hinsert
      rw [if_pos rfl, count_insert, hinsert]
      by_cases heq : d = delegator
      · subst heq
        simp
        omega
      · simp only [if_neg heq, if_neg (Ne.symm heq)]
        omega
    | some e =>
      rw [part_owned he (hown e he)] at hinsert
      rw [if_neg (Option.some_ne_none e), hinsert]
      show (delegationCount s d : Int) = _ ∧ delegationCount s d ≤ _
      refine ⟨?_, hd.2⟩
      by_cases heq : d = delegator
      · subst heq
        simp
        omega
      · simp only [if_neg heq, if_neg (Ne.symm heq)]
        omega
  · rw [next, hx]
    exact h

theorem Counted.revoked {auth : Auth} (h : Counted s)
    (hown : Owned s (.revoke auth delegator delegate scope)) :
    Counted (next s (.revoke auth delegator delegate scope)) := by
  obtain ⟨u, hx⟩ | hx := exec_cases (revokeCapability auth delegator delegate scope) s
  · obtain ⟨hauth, ⟨e, he⟩, hs'⟩ := revokeCapability_ok hx
    have hown := hown hauth
    have hpart := fun d => part_owned (d := d) he (hown e he)
    -- the entry that is removed is one of those that are counted
    have hpos : 0 < delegationCount s delegator := by
      have hle := part_le_total (f := fun e : Delegation => if e.delegator = delegator then 1 else 0)
        (s := s.delegations) (fun _ e _ => by show (0 : Int) ≤ if _ then 1 else 0; split <;> decide)
        (delegate, scope.code)
      rw [hpart delegator, if_pos rfl] at hle
      have := (h delegator).1
      unfold held at this
      omega
    rw [next, hs', if_pos hpos]
    intro d
    have hd := h d
    unfold held at hd ⊢
    rw [count_insert, total_erase, hpart d]
    by_cases heq : d = delegator
    · subst heq
      simp
      omega
    · simp only [if_neg heq]
      omega
  · rw [next, hx]
    exact h

theorem Counted.step {op : Op} (h : Counted s) (hown : Owned s op) : Counted (next s op) := by
  cases op with
  | delegate => exact h.delegated hown
  | revoke => exact h.revoked hown

theorem respected_of_owned {op : Op} (hown : Owned s op) : Respected s op (next s op) := by
  intro key e he hne
  cases op with
  | delegate auth delegator delegate scope expiresAt =>
    obtain ⟨u, hx⟩ | hx := exec_cases (delegateCapability auth delegator delegate scope expiresAt) s
    · obtain ⟨hauth, hself, hfew, hs'⟩ := delegateCapability_ok hx
      rw [next, hs', lookup_insert_eq] at hne
      split at hne
      · rename_i heq
        subst heq
        show auth e.delegator = true
        rw [hown hauth hself hfew e he]
        exact hauth
      · exact absurd he hne
    · rw [next, hx] at hne
      exact absurd he hne
  | revoke auth delegator delegate scope =>
    obtain ⟨u, hx⟩ | hx := exec_cases (revokeCapability auth delegator delegate scope) s
    · obtain ⟨hauth, -, hs'⟩ := revokeCapability_ok hx
      rw [next, hs', lookup_erase_eq] at hne
      split at hne
      · rename_i heq
        subst heq
        show auth e.delegator = true
        rw [hown hauth e he]
        exact hauth
      · exact absurd he hne
    · rw [next, hx] at hne
      exact absurd he hne

end Steps

/-- In every run in which no call that goes through hits an entry of another delegator, the counters are
exact and within the limit, and every step changes entries only with the authorization of their
delegator. -/
theorem counted_of_owned {s : CapabilityStorage}
    (h : Reaches (fun a op b => Owned a op ∧ Step a op b) .empty s) :
    Counted s ∧ ∀ op s', Owned s op → Step s op s' → Respected s op s' := by
  have hinit : Counted .empty := fun _ => ⟨rfl, Nat.zero_le _⟩
  have hcounted : Counted s := by
    refine h.invariant hinit fun a op b ha ⟨hown, hb⟩ => ?_
    rw [hb]
    exact ha.step hown
  refine ⟨hcounted, fun op s' hown hs => ?_⟩
  rw [hs]
  exact respected_of_owned hown

namespace Sample

def anyone : Auth := fun _ => true

/-- Two delegators, each with its own delegates; one delegation is renewed and one revoked. -/
def separate : List Op :=
  [.delegate anyone ⟨1⟩ ⟨3⟩ .upgrade 0, .delegate anyone ⟨2⟩ ⟨4⟩ .upgrade 50,
    .delegate anyone ⟨1⟩ ⟨3⟩ .upgrade 100, .delegate anyone ⟨1⟩ ⟨4⟩ .pause 0, .revoke anyone ⟨2⟩ ⟨4⟩ .upgrade]

/-- The counts are the numbers of the entries. -/
theorem separate_delegators_are_counted :
    Counted (separate.foldl next .empty) ∧ delegationCount (separate.foldl next .empty) ⟨1⟩ = 2 ∧
      delegationCount (separate.foldl next .empty) ⟨2⟩ = 0 := by
  have hrun : Reaches.Along next Owned .empty separate := by decide
  exact ⟨(counted_of_owned (Reaches.of_along hrun)).1, by decide, by decide⟩

/-- A second delegator takes over the entry of the first one. -/
theorem foreign_overwrite :
    ¬ ∀ s, Reaches Step .empty s → Counted s ∧ ∀ op s', Step s op s' → Respected s op s' := by
  intro h
  have hrun := Reaches.foldl next .empty
    [.delegate anyone ⟨1⟩ ⟨3⟩ .upgrade 0, .delegate anyone ⟨2⟩ ⟨3⟩ .upgrade 0]
  have hcount := ((h _ hrun).1 ⟨1⟩).1
  revert hcount
  decide

end Sample

end CallStake.CapabilityDelegation
