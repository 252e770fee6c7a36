import CallStake.Lib.Store
import CallStake.Shared.Host

/-!
# N-of-M approval of privileged actions (`shared::multisig`)

A contract stores a configuration (signers, threshold, timeout). A signer proposes an opaque
payload, other signers approve it, and a proposal with enough approvals that has not expired may be
executed once.

* The operations act on the storage of the module (`MultisigStorage`) at a ledger time `now`.
* `set_config_ok`, `propose_ok`, `approve_ok`, `requireCanExecute_ok`, `markExecuted_ok`: what an
  accepted operation checked and wrote.
-/

namespace CallStake.Multisig

open Tx

/-- Maximum number of signers allowed in a config. -/
def MAX_SIGNERS : Nat := 20

/-- Default timeout for proposals (7 days in seconds). -/
def DEFAULT_PROPOSAL_TIMEOUT_SECS : Nat := 604800

/-- The errors of the multi-sig. -/
inductive MultisigError where
  | unauthorized
  | proposalNotFound
  | alreadyApproved
  | proposalExpired
  | alreadyExecuted
  | thresholdNotMet
  | invalidConfig
  | duplicateSigner

/-- The signers, and how many must approve. -/
structure MultisigConfig where
  signers : List Address
  threshold : Nat
  proposalTimeoutSecs : Nat
  deriving DecidableEq

/-- How far a proposal has come. -/
inductive ProposalStatus where
  | pending
  | executed
  deriving DecidableEq

/-- A proposal wrapping an opaque action payload. -/
structure Proposal where
  id : Nat
  proposer : Address
  payload : Bytes
  approvals : List Address
  status : ProposalStatus
  createdAt : Nat
  expiresAt : Nat

/-- The entries under `MultisigStorageKey`. -/
structure MultisigStorage where
  config : Option MultisigConfig
  nextId : Option Nat
  proposals : Store Nat Proposal

def MultisigStorage.empty : MultisigStorage := ⟨none, none, ∅⟩

abbrev M := Tx MultisigStorage (Fault MultisigError)

/-! ## Operations -/

/-- The counter is stepped with a trapping addition. -/
def getNextId : M Nat := do
  let id ← Tx.gets fun s => s.nextId.getD 1
  failIf (u64Max < id + 1) .panic
  Tx.modify fun s => { s with nextId := some (id + 1) }
  return id

def validateConfig (config : MultisigConfig) : Except MultisigError Unit :=
  if config.threshold = 0 ∨ config.signers.length < config.threshold then .error .invalidConfig
  else if MAX_SIGNERS < config.signers.length then .error .invalidConfig
  else if ¬ config.signers.Nodup then .error .duplicateSigner
  else .ok ()

def setConfig (config : MultisigConfig) : M Unit := do
  Tx.ofExcept ((validateConfig config).mapError .err)
  Tx.modify fun s => { s with config := some config }

/-- The configuration is removed by the contract itself (`set_multisig_config(None)`). -/
def clearConfig : M Unit := Tx.modify fun s => { s with config := none }

def isSigner (config : MultisigConfig) (address : Address) : Bool := address ∈ config.signers

def hasApproved (proposal : Proposal) (signer : Address) : Bool := signer ∈ proposal.approvals

def getProposal (id : Nat) : M Proposal := do
  let p ← Tx.gets fun s => s.proposals.lookup id
  Tx.ofOption p (.err .proposalNotFound)

def getConfig : M MultisigConfig := do
  let c ← Tx.gets fun s => s.config
  Tx.ofOption c (.err .invalidConfig)

def saveProposal (id : Nat) (p : Proposal) : M Unit :=
  Tx.modify fun s => { s with proposals := s.proposals.insert id p }

/-- The proposer is the first approver. -/
def propose (now : Nat) (proposer : Address) (payload : Bytes) : M Nat := do
  let config ← getConfig
  failIf (isSigner config proposer = false) (.err .unauthorized)
  let id ← getNextId
  let timeout := if 0 < config.proposalTimeoutSecs then config.proposalTimeoutSecs
    else DEFAULT_PROPOSAL_TIMEOUT_SECS
  saveProposal id
    { id, proposer, payload, approvals := [proposer], status := .pending, createdAt := now,
      expiresAt := u64Add now timeout }
  return id

def approve (now : Nat) (caller : Address) (proposalId : Nat) : M Nat := do
  let config ← getConfig
  failIf (isSigner config caller = false) (.err .unauthorized)
  let proposal ← getProposal proposalId
  failIf (proposal.status = .executed) (.err .alreadyExecuted)
  failIf (proposal.expiresAt < now) (.err .proposalExpired)
  failIf (hasApproved proposal caller = true) (.err .alreadyApproved)
  let approvals := proposal.approvals ++ [caller]
  saveProposal proposalId { proposal with approvals }
  return approvals.length

def requireCanExecute (now : Nat) (proposal : Proposal) : M Unit := do
  let config ← getConfig
  failIf (proposal.status = .executed) (.err .alreadyExecuted)
  failIf (proposal.approvals.length < config.threshold) (.err .thresholdNotMet)
  failIf (proposal.expiresAt < now) (.err .proposalExpired)

def markExecuted (proposalId : Nat) : M Unit := do
  let proposal ← getProposal proposalId
  failIf (proposal.status = .executed) (.err .alreadyExecuted)
  saveProposal proposalId { proposal with status := .executed }

/-! ## What an accepted operation did -/

section Ok

variable {s s' : MultisigStorage} {now id n : Nat} {a : Address} {config : MultisigConfig}
  {p : Proposal} {payload : Bytes} {u : Unit}

@[simp] theorem ProposalStatus.ne_executed {x : ProposalStatus} :
    ¬ x = .executed ↔ x = .pending := by
  cases x <;> simp

@[simp] theorem isSigner_iff : isSigner config a = true ↔ a ∈ config.signers := by
  simp [isSigner]

@[simp] theorem hasApproved_iff : hasApproved p a = true ↔ a ∈ p.approvals := by
  simp [hasApproved]

@[simp] theorem getConfig_ok : getConfig s = (.ok config, s') ↔ s.config = some config ∧ s = s' := by
  simp [getConfig]

@[simp] theorem getProposal_ok :
    getProposal id s = (.ok p, s') ↔ s.proposals.lookup id = some p ∧ s = s' := by
  simp [getProposal]

@[simp] theorem saveProposal_ok :
    saveProposal id p s = (.ok u, s') ↔ { s with proposals := s.proposals.insert id p } = s' := by
  simp [saveProposal]

theorem setConfig_ok : setConfig config s = (.ok u, s') ↔
    validateConfig config = .ok () ∧ { s with config := some config } = s' := by
  unfold setConfig
  simp [Unique.exists_iff]

theorem propose_ok : propose now a payload s = (.ok id, s') ↔
    ∃ config, s.config = some config ∧ a ∈ config.signers ∧ s.nextId.getD 1 + 1 ≤ u64Max ∧
      s.nextId.getD 1 = id ∧
      { s with
        nextId := some (s.nextId.getD 1 + 1)
        proposals := s.proposals.insert (s.nextId.getD 1)
          { id := s.nextId.getD 1, proposer := a, payload, approvals := [a], status := .pending,
            createdAt := now,
            expiresAt := u64Add now (if 0 < config.proposalTimeoutSecs
              then config.proposalTimeoutSecs else DEFAULT_PROPOSAL_TIMEOUT_SECS) } } = s' := by
  unfold propose getNextId
  simp [and_assoc]

theorem approve_ok : approve now a id s = (.ok n, s') ↔
    ∃ config, s.config = some config ∧ a ∈ config.signers ∧ ∃ p, s.proposals.lookup id = some p ∧
      p.status = .pending ∧ now ≤ p.expiresAt ∧ a ∉ p.approvals ∧ p.approvals.length + 1 = n ∧
      { s with
        proposals := s.proposals.insert id { p with approvals := p.approvals ++ [a] } } = s' := by
  unfold approve
  simp [and_assoc]

theorem requireCanExecute_ok : requireCanExecute now p s = (.ok u, s') ↔
    ∃ config, s.config = some config ∧ p.status = .pending ∧
      config.threshold ≤ p.approvals.length ∧ now ≤ p.expiresAt ∧ s = s' := by
  unfold requireCanExecute
  simp [and_assoc]

theorem markExecuted_ok : markExecuted id s = (.ok u, s') ↔
    ∃ p, s.proposals.lookup id = some p ∧ p.status = .pending ∧
      { s with proposals := s.proposals.insert id { p with status := .executed } } = s' := by
  unfold markExecuted
  simp [and_assoc]

end Ok

end CallStake.Multisig
