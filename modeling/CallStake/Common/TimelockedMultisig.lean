import CallStake.Lib.Store
import CallStake.Lib.Trace
import CallStake.Shared.Host

/-!
# Approval of critical actions with a timelock (`common::multisig`)

Signers propose critical actions and approve them. A proposal with enough approvals waits for the delay of
its kind of action and is then executed. The signers and the threshold are given at each call.

* `propose`, `approve`, `cancel`, `prepareExecution`, `setTimelockConfig`: the operations, at a ledger time
  `now`.
* `propose_ok`, `approve_ok`, `cancel_ok`, `prepareExecution_ok`: what an accepted operation checked and
  wrote.
-/

namespace CallStake.TimelockedMultisig

open Tx

def DEFAULT_FEE_CHANGE_DELAY : Nat := 3 * 86400
def DEFAULT_PARAMETER_DELAY : Nat := 3 * 86400
def DEFAULT_PAUSE_DELAY : Nat := 0
def DEFAULT_UNPAUSE_DELAY : Nat := 86400
def DEFAULT_GUARDIAN_DELAY : Nat := 2 * 86400
def DEFAULT_ADMIN_TRANSFER_DELAY : Nat := 2 * 86400
def DEFAULT_CONFIG_DELAY : Nat := 2 * 86400
def MAX_SIGNERS : Nat := 20
def MAX_ACTIVE_PROPOSALS : Nat := 50

/-- The errors of the multi-sig. -/
inductive MultisigError where
  | unauthorized
  | notInitialized
  | invalidParameter
  | duplicateSigner
  | insufficientSignatures
  | proposalNotFound
  | alreadyApproved
  | proposalNotApproved
  | timelockNotElapsed
  | proposalAlreadyExecuted
  | proposalCancelled
  | tooManyProposals
  | requiresMultisigApproval
  | invalidThreshold

/-- The actions that need the signers. -/
inductive CriticalActionType where
  | feeChange
  | parameterUpdate
  | pause
  | unpause
  | setGuardian
  | adminTransfer
  | configUpdate
  deriving DecidableEq

/-- How far a proposal has come. -/
inductive ProposalStatus where
  | pending
  | approved
  | executed
  | cancelled
  deriving DecidableEq

structure ApprovalProposal where
  id : Nat
  proposer : Address
  actionType : CriticalActionType
  payload : Bytes
  approvals : List Address
  status : ProposalStatus
  createdAt : Nat
  approvedAt : Nat
  executableAt : Nat

/-- How long each kind of action waits. -/
structure MultisigTimelockConfig where
  feeChangeDelay : Nat
  parameterDelay : Nat
  pauseDelay : Nat
  unpauseDelay : Nat
  guardianDelay : Nat
  adminTransferDelay : Nat
  configDelay : Nat
  deriving DecidableEq

namespace MultisigTimelockConfig

/-- The delays of a new contract. -/
def defaultConfig : MultisigTimelockConfig where
  feeChangeDelay := DEFAULT_FEE_CHANGE_DELAY
  parameterDelay := DEFAULT_PARAMETER_DELAY
  pauseDelay := DEFAULT_PAUSE_DELAY
  unpauseDelay := DEFAULT_UNPAUSE_DELAY
  guardianDelay := DEFAULT_GUARDIAN_DELAY
  adminTransferDelay := DEFAULT_ADMIN_TRANSFER_DELAY
  configDelay := DEFAULT_CONFIG_DELAY

def delayFor (config : MultisigTimelockConfig) : CriticalActionType → Nat
  | .feeChange => config.feeChangeDelay
  | .parameterUpdate => config.parameterDelay
  | .pause => config.pauseDelay
  | .unpause => config.unpauseDelay
  | .setGuardian => config.guardianDelay
  | .adminTransfer => config.adminTransferDelay
  | .configUpdate => config.configDelay

end MultisigTimelockConfig

/-- The entries under `MultisigStorageKey`; an absent entry is its default. -/
structure MultisigStorage where
  nextProposalId : Nat
  activeProposalCount : Nat
  proposals : Store Nat ApprovalProposal
  timelockConfig : MultisigTimelockConfig

def MultisigStorage.empty : MultisigStorage := ⟨1, 0, ∅, .defaultConfig⟩

abbrev M := Tx MultisigStorage (Fault MultisigError)

/-! ## Operations -/

def validateSignerConfig (signers : List Address) (threshold : Nat) : M Unit := do
  failIf (threshold = 0 ∨ signers.length < threshold) (.err .invalidThreshold)
  failIf (MAX_SIGNERS < signers.length) (.err .invalidParameter)
  failIf (¬ signers.Nodup) (.err .duplicateSigner)

def requireSigner (signers : List Address) (caller : Address) : M Unit :=
  failIf (caller ∉ signers) (.err .unauthorized)

def setTimelockConfig (config : MultisigTimelockConfig) : M Unit :=
  Tx.modify fun s => { s with timelockConfig := config }

/-- The counter is stepped with a trapping addition. -/
def takeProposalId : M Nat := do
  let id ← Tx.gets (·.nextProposalId)
  failIf (u64Max < id + 1) .panic
  Tx.modify fun s => { s with nextProposalId := id + 1 }
  return id

def incrementActiveProposals : M Unit := do
  let count ← Tx.gets (·.activeProposalCount)
  failIf (u32Max < count + 1) .panic
  Tx.modify fun s => { s with activeProposalCount := count + 1 }

def decrementActiveProposals : M Unit := do
  let count ← Tx.gets (·.activeProposalCount)
  Tx.when (0 < count) (Tx.modify fun s => { s with activeProposalCount := count - 1 })

def storeProposal (proposal : ApprovalProposal) : M Unit :=
  Tx.modify fun s => { s with proposals := s.proposals.insert proposal.id proposal }

def getProposal (proposalId : Nat) : M ApprovalProposal := do
  let proposal ← Tx.gets fun s => s.proposals.lookup proposalId
  Tx.ofOption proposal (.err .proposalNotFound)

/-- The proposal with the approvals it has, approved at `now` if they are enough. -/
def ApprovalProposal.settle (proposal : ApprovalProposal) (threshold now delay : Nat) : ApprovalProposal :=
  if threshold ≤ proposal.approvals.length then
    { proposal with status := .approved, approvedAt := now, executableAt := u64Add now delay }
  else proposal

/-- The proposer is the first approver. -/
def propose (auth : Auth) (now : Nat) (proposer : Address) (signers : List Address) (threshold : Nat)
    (actionType : CriticalActionType) (payload : Bytes) : M Nat := do
  requireAuth auth proposer
  requireSigner signers proposer
  validateSignerConfig signers threshold
  let active ← Tx.gets (·.activeProposalCount)
  failIf (MAX_ACTIVE_PROPOSALS ≤ active) (.err .tooManyProposals)
  let config ← Tx.gets (·.timelockConfig)
  let id ← takeProposalId
  let proposal : ApprovalProposal :=
    { id, proposer, actionType, payload, approvals := [proposer], status := .pending, createdAt := now,
      approvedAt := 0, executableAt := 0 }
  storeProposal (proposal.settle threshold now (config.delayFor actionType))
  incrementActiveProposals
  return id

/-- An approval that comes too late is accepted and not recorded. -/
def approve (auth : Auth) (now : Nat) (caller : Address) (signers : List Address) (threshold proposalId : Nat) :
    M ProposalStatus := do
  requireAuth auth caller
  requireSigner signers caller
  let proposal ← getProposal proposalId
  match proposal.status with
  | .executed => Tx.fail (.err .proposalAlreadyExecuted)
  | .cancelled => Tx.fail (.err .proposalCancelled)
  | .approved => return .approved
  | .pending =>
    failIf (caller ∈ proposal.approvals) (.err .alreadyApproved)
    let config ← Tx.gets (·.timelockConfig)
    let proposal := { proposal with approvals := proposal.approvals ++ [caller] }.settle threshold now
      (config.delayFor proposal.actionType)
    storeProposal proposal
    return proposal.status

def cancel (auth : Auth) (caller : Address) (signers : List Address) (proposalId : Nat) : M Unit := do
  requireAuth auth caller
  requireSigner signers caller
  let proposal ← getProposal proposalId
  failIf (proposal.status = .executed) (.err .proposalAlreadyExecuted)
  failIf (proposal.status = .cancelled) (.err .proposalCancelled)
  storeProposal { proposal with status := .cancelled }
  decrementActiveProposals

def prepareExecution (auth : Auth) (now : Nat) (executor : Address) (signers : List Address)
    (proposalId : Nat) : M ApprovalProposal := do
  requireAuth auth executor
  requireSigner signers executor
  let proposal ← getProposal proposalId
  failIf (proposal.status = .executed) (.err .proposalAlreadyExecuted)
  failIf (proposal.status = .cancelled) (.err .proposalCancelled)
  failIf (proposal.status ≠ .approved) (.err .proposalNotApproved)
  failIf (now < proposal.executableAt) (.err .timelockNotElapsed)
  let proposal := { proposal with status := .executed }
  storeProposal proposal
  decrementActiveProposals
  return proposal

section Inversion

variable {auth : Auth} {now : Nat} {caller : Address} {signers : List Address} {threshold proposalId : Nat}
  {s s' : MultisigStorage}

theorem settle_id (p : ApprovalProposal) (threshold now delay : Nat) :
    (p.settle threshold now delay).id = p.id := by
  unfold ApprovalProposal.settle
  split <;> rfl

theorem bind_getProposal_ok {β : Type} {b : β} {k : ApprovalProposal → M β} :
    (getProposal proposalId >>= k) s = (.ok b, s') ↔
      ∃ p, s.proposals.lookup proposalId = some p ∧ k p s = (.ok b, s') := bind_ofOption_ok

theorem decrementActiveProposals_ok {u : Unit} (h : decrementActiveProposals s = (.ok u, s')) :
    s' = { s with activeProposalCount := s.activeProposalCount - 1 } := by
  simp only [decrementActiveProposals, bind_gets_ok, when_ok] at h
  split at h
  · exact (Tx.modify_ok.mp h).symm
  · rename_i hzero
    have hcount : s.activeProposalCount - 1 = s.activeProposalCount := by omega
    rw [← h, hcount]

theorem propose_ok {actionType : CriticalActionType} {payload : Bytes} {id : Nat}
    (h : propose auth now caller signers threshold actionType payload s = (.ok id, s')) :
    caller ∈ signers ∧ s.activeProposalCount < MAX_ACTIVE_PROPOSALS ∧ id = s.nextProposalId ∧
    s' = { s with
      nextProposalId := id + 1
      activeProposalCount := s.activeProposalCount + 1
      proposals := s.proposals.insert id
        (ApprovalProposal.settle
          { id, proposer := caller, actionType, payload, approvals := [caller], status := .pending,
            createdAt := now, approvedAt := 0, executableAt := 0 }
          threshold now (s.timelockConfig.delayFor actionType)) } := by
  simp only [propose, requireSigner, bind_requireAuth_ok, bind_failIf_ok] at h
  obtain ⟨-, hsigner, h⟩ := h
  obtain ⟨_, s₁, hvalid, h⟩ := Tx.bind_ok.mp h
  simp only [validateSignerConfig, bind_failIf_ok, failIf_ok] at hvalid
  obtain ⟨-, -, -, rfl⟩ := hvalid
  simp only [bind_gets_ok, bind_failIf_ok] at h
  obtain ⟨hactive, h⟩ := h
  obtain ⟨_, s₁, hid, h⟩ := Tx.bind_ok.mp h
  simp [takeProposalId] at hid
  obtain ⟨-, rfl, rfl⟩ := hid
  simp only [storeProposal, bind_modify_ok] at h
  obtain ⟨_, s₁, hinc, h⟩ := Tx.bind_ok.mp h
  simp [incrementActiveProposals] at hinc
  obtain ⟨-, rfl⟩ := hinc
  obtain ⟨rfl, rfl⟩ := Tx.pure_ok.mp h
  refine ⟨not_not.mp hsigner, Nat.not_le.mp hactive, rfl, ?_⟩
  rw [settle_id]

/-- An accepted approval came too late, or was recorded. -/
theorem approve_ok {status : ProposalStatus}
    (h : approve auth now caller signers threshold proposalId s = (.ok status, s')) :
    caller ∈ signers ∧ ∃ p, s.proposals.lookup proposalId = some p ∧
      ((p.status = .approved ∧ s' = s) ∨
        (p.status = .pending ∧ caller ∉ p.approvals ∧
          s' = { s with
            proposals := s.proposals.insert p.id
              (ApprovalProposal.settle { p with approvals := p.approvals ++ [caller] } threshold now
                (s.timelockConfig.delayFor p.actionType)) })) := by
  simp only [approve, requireSigner, bind_requireAuth_ok, bind_failIf_ok, bind_getProposal_ok] at h
  obtain ⟨-, hsigner, p, hp, h⟩ := h
  refine ⟨not_not.mp hsigner, p, hp, ?_⟩
  cases hs : p.status with
  | executed => simp [hs] at h
  | cancelled => simp [hs] at h
  | approved =>
    simp [hs] at h
    exact .inl ⟨rfl, h.2.symm⟩
  | pending =>
    simp [hs, storeProposal] at h
    obtain ⟨hnew, -, rfl⟩ := h
    refine .inr ⟨rfl, hnew, ?_⟩
    rw [settle_id]

theorem cancel_ok {u : Unit} (h : cancel auth caller signers proposalId s = (.ok u, s')) :
    ∃ p, s.proposals.lookup proposalId = some p ∧ p.status ≠ .executed ∧ p.status ≠ .cancelled ∧
      s' = { s with
        activeProposalCount := s.activeProposalCount - 1
        proposals := s.proposals.insert p.id { p with status := .cancelled } } := by
  simp only [cancel, requireSigner, bind_requireAuth_ok, bind_failIf_ok, bind_getProposal_ok,
    storeProposal, bind_modify_ok] at h
  obtain ⟨-, -, p, hp, hexecuted, hcancelled, h⟩ := h
  exact ⟨p, hp, hexecuted, hcancelled, decrementActiveProposals_ok h⟩

theorem prepareExecution_ok {proposal : ApprovalProposal}
    (h : prepareExecution auth now caller signers proposalId s = (.ok proposal, s')) :
    ∃ p, s.proposals.lookup proposalId = some p ∧ p.status = .approved ∧ p.executableAt ≤ now ∧
      s' = { s with
        activeProposalCount := s.activeProposalCount - 1
        proposals := s.proposals.insert p.id { p with status := .executed } } := by
  simp only [prepareExecution, requireSigner, bind_requireAuth_ok, bind_failIf_ok, bind_getProposal_ok,
    storeProposal, bind_modify_ok] at h
  obtain ⟨-, -, p, hp, -, -, happroved, htime, h⟩ := h
  obtain ⟨_, s₁, hdec, h⟩ := Tx.bind_ok.mp h
  obtain ⟨-, rfl⟩ := Tx.pure_ok.mp h
  exact ⟨p, hp, not_not.mp happroved, Nat.not_lt.mp htime, decrementActiveProposals_ok hdec⟩

end Inversion

end CallStake.TimelockedMultisig
