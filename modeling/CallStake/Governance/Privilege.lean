import CallStake.Governance.Footprint
import CallStake.Lib.Trace

/-!
# Who changes the grants

Capabilities are granted and revoked by four entrypoints. The two direct ones ask for a
super-administrator or the stored administrator. The two timelocked ones ask for an announcement of
the caller, which anyone can make, and the check inside `Capabilities.grantCapability` is dropped.

* `capability_of_call`: the four ways in which a call changes the grants.
* `grants_by_privileged_iff`: in a run, every change of the grants is by a privileged caller iff the
  timelocked ones are.
* `anyone_grants_itself`: a run in which a stranger becomes super-administrator.
-/

namespace CallStake.Governance

open Capabilities (Capability CapabilityStorage hasCapability)

/-- A super-administrator, or the stored administrator. -/
def Privileged (s : Storage) (caller : Address) : Prop :=
  hasCapability s.capability caller .superAdmin = true ∨ s.core.admin = some caller
  deriving Decidable

/-- Somebody can do something else than before. -/
def CapabilityStorage.Differs (s s' : CapabilityStorage) : Prop := ∃ x c, hasCapability s' x c ≠ hasCapability s x c

/-- The address that a call acts for, where it names one. -/
def Call.caller : Call → Option Address
  | .initializeGovernance admin .. | .proposeKeyRotation admin _ | .cancelKeyRotation admin |
    .setContractPaused admin _ | .enforceAdminTimelock admin | .cancelShadowMode admin |
    .setVoteLock admin .. | .accrueLiquidityRewards admin .. | .setLiquidityMiningConfig admin .. |
    .updateReputationConfig admin _ | .setDepositConfig admin _ | .initializeTimelock admin .. |
    .extendExecutionWindow admin .. => some admin
  | .acceptKeyRotation newAdmin => some newAdmin
  | .emergencyRevokeAdmin guardian | .emergencyExecute _ guardian |
    .emergencyUnblockAction _ guardian => some guardian
  | .stake user _ | .unstake user _ => some user
  | .releaseVestedTokens beneficiary | .claimLiquidityRewards beneficiary => some beneficiary
  | .delegateVotingPower delegator _ | .undelegateVotingPower delegator => some delegator
  | .createProposal proposer .. | .withdrawProposal _ proposer => some proposer
  | .castVote _ voter _ | .castReputationWeightedVote _ voter _ => some voter
  | .executeProposal _ executor | .executeQueuedAction _ executor |
    .executeMultipleActions _ executor => some executor
  | .cancelProposal _ canceller | .cancelQueuedAction _ canceller | .cancelAdminAction _ canceller =>
    some canceller
  | .reclaimExpiredProposal _ caller | .direct caller _ | .queue caller _ | .timelocked caller _ _ =>
    some caller
  | .refreshReputation _ | .finalizeProposal _ | .cleanupProposals .. | .queueAction _ => none

/-- If the event changes what somebody can do, it is a call that a privileged caller made and
authorized. -/
def ByPrivileged (w : World) (ev : Event) : Prop :=
  CapabilityStorage.Differs w.store.capability (next w ev).store.capability →
    ∃ auth c caller, ev = .call auth c ∧ c.caller = some caller ∧ auth caller = true ∧ Privileged w.store caller

/-- The grants after an action of `caller`. -/
def AdminAction.regrant (caller : Address) (s : CapabilityStorage) : AdminAction → CapabilityStorage
  | .grantCapability target capability => Capabilities.grantCapability s caller target capability
  | .revokeCapability target capability => Capabilities.revokeCapability s caller target capability
  | _ => s

/-- A timelocked action that finds its announcement and changes what somebody can do is by a
privileged caller. -/
def TimelockedGrantPrivileged (w : World) (ev : Event) : Prop :=
  ∀ auth caller actionId action entry, ev = .call auth (.timelocked caller actionId action) →
    w.store.core.initialized = true → Timelock.Ready auth actionId caller w entry →
    CapabilityStorage.Differs w.store.capability (action.regrant caller w.store.capability) →
    Privileged w.store caller

/-! ## The four entrypoints -/

section Run

variable {w w' : World} {auth : Auth} {c : Call} {caller : Address} {action : AdminAction}

/-- A direct action on the grants is for a privileged caller only. -/
theorem direct_privileged (hf : .capability ∈ action.footprint)
    (h : invokeDirect auth caller action w = (.ok (), w')) :
    auth caller = true ∧ Privileged w.store caller := by
  cases action <;> simp [AdminAction.footprint] at hf
  all_goals
    simp [invokeDirect, grantCapability, revokeCapability] at h
    exact ⟨h.2.1.2.1, h.2.1.2.2⟩

/-- A timelocked action does to the grants what `regrant` says. -/
theorem perform_capability (h : action.perform auth caller w = (.ok (), w')) :
    w'.store.capability = action.regrant caller w.store.capability := by
  cases action
  case grantCapability => simp [AdminAction.perform, writeGrant] at h; rw [← h]; rfl
  case revokeCapability => simp [AdminAction.perform, eraseGrant] at h; rw [← h]; rfl
  all_goals exact ((writes_perform _).of_run h).same .capability (by simp [AdminAction.footprint])

/-- The grants change in a direct action of a privileged caller, or in a timelocked action that found
its announcement. -/
theorem capability_of_call (h : invoke auth c w = (.ok (), w')) :
    w'.store.capability = w.store.capability ∨
    (∃ caller, c.caller = some caller ∧ auth caller = true ∧ Privileged w.store caller) ∨
    ∃ caller actionId action entry, c = .timelocked caller actionId action ∧
      w.store.core.initialized = true ∧ Timelock.Ready auth actionId caller w entry ∧
      w'.store.capability = action.regrant caller w.store.capability := by
  by_cases hf : .capability ∈ c.footprint
  · right
    cases c <;> simp [Call.footprint, executionRegions] at hf
    case direct caller action => exact .inl ⟨caller, rfl, direct_privileged hf h⟩
    case timelocked caller actionId action =>
      right
      obtain ⟨hi, entry, hr, hx⟩ := invokeTimelocked_ok h
      have hp := perform_capability hx
      exact ⟨caller, actionId, action, entry, rfl, hi, hr, hp⟩
  · exact .inl (((invoke_writes auth c).of_run h).same .capability hf)

/-- The timelocked grant or revocation of a caller who is ready returns. -/
theorem timelocked_grant_returns {actionId : Nat} {entry : AdminTimelockEntry}
    (hi : w.store.core.initialized = true) (hr : Timelock.Ready auth actionId caller w entry)
    (hd : CapabilityStorage.Differs w.store.capability (action.regrant caller w.store.capability)) :
    ∃ w', invoke auth (.timelocked caller actionId action) w = (.ok (), w') ∧
      w'.store.capability = action.regrant caller w.store.capability := by
  cases action
  case grantCapability =>
    exact ⟨_, timelockedByCaller_ok.mpr ⟨hi, entry, hr, save_ok.mpr rfl⟩, rfl⟩
  case revokeCapability =>
    exact ⟨_, timelockedByCaller_ok.mpr ⟨hi, entry, hr, save_ok.mpr rfl⟩, rfl⟩
  all_goals
    obtain ⟨x, c, hne⟩ := hd
    exact absurd rfl hne

end Run

/-! ## Runs -/

/-- An event changes the grants for a privileged caller iff it does when it is timelocked. -/
theorem byPrivileged_iff (w : World) (ev : Event) :
    ByPrivileged w ev ↔ TimelockedGrantPrivileged w ev := by
  constructor
  · rintro h auth caller actionId action entry rfl hi hr hd
    obtain ⟨w', hinvoke, hcap⟩ := timelocked_grant_returns hi hr hd
    have hnext : next w (.call auth (.timelocked caller actionId action)) = w' := Tx.exec_of_ok hinvoke
    unfold ByPrivileged at h
    rw [hnext, hcap] at h
    obtain ⟨auth', c, caller', he, hc, -, hp⟩ := h hd
    cases he
    cases hc
    exact hp
  · intro h hd
    cases ev with
    | advance => obtain ⟨x, c, hne⟩ := hd; exact absurd rfl hne
    | maintenance => obtain ⟨x, c, hne⟩ := hd; exact absurd rfl hne
    | call auth c =>
      rcases Tx.exec_cases (invoke auth c) w with ⟨a, ha⟩ | hsame
      · rcases capability_of_call ha with hsame | ⟨caller, hc, hauth, hp⟩ |
            ⟨caller, actionId, action, entry, rfl, hi, hr, hcap⟩
        · obtain ⟨x, c, hne⟩ := hd
          exact absurd (by rw [next, hsame]) hne
        · exact ⟨auth, c, caller, rfl, hc, hauth, hp⟩
        · rw [next, hcap] at hd
          exact ⟨auth, _, caller, rfl, rfl, hr.auth, h auth caller actionId action entry rfl hi hr hd⟩
      · obtain ⟨x, c, hne⟩ := hd
        exact absurd (by rw [next, hsame]) hne

/-- In every run, each change of what somebody can do is by a super-administrator or the stored
administrator iff each one by a timelocked entrypoint is. -/
theorem grants_by_privileged_iff (ledger : Ledger) (evs : List Event) :
    (∀ e ∈ Reaches.visited next (World.deployed ledger) evs, ByPrivileged e.1 e.2) ↔
      ∀ e ∈ Reaches.visited next (World.deployed ledger) evs, TimelockedGrantPrivileged e.1 e.2 :=
  forall₂_congr fun e _ => byPrivileged_iff e.1 e.2

namespace Sample

/-- A stranger announces a grant to itself, and acts on the announcement two days later. -/
def escalation : List Event :=
  [callBy admin initializeCall, callBy admin (.initializeTimelock admin 3600 86400 guardian),
    callBy mallory (.queue mallory (.grantCapability mallory .superAdmin)), atTime 172800,
    callBy mallory (.timelocked mallory 1 (.grantCapability mallory .superAdmin))]

/-- The stranger, whom nobody granted anything, is a super-administrator in the end. -/
theorem anyone_grants_itself :
    ¬ ∀ e ∈ Reaches.visited next (World.deployed ⟨0, 0⟩) escalation, ByPrivileged e.1 e.2 := by
  intro h
  have hlast := h (deployedRun (escalation.take 4), escalation[4])
    (.tail _ (.tail _ (.tail _ (.tail _ (.head _)))))
  obtain ⟨auth, c, caller, he, hc, -, hp⟩ := hlast ⟨mallory, .superAdmin, by decide +kernel⟩
  cases he
  cases hc
  exact absurd hp (by decide +kernel)

end Sample

end CallStake.Governance
