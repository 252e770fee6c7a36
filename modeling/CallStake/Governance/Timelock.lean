import CallStake.Governance.Proposals
import CallStake.Lib.Registry

/-!
# The timelock (`timelock`)

Two lists of waiting actions that share their identifiers.

* `queuedActions`: the actions of proposals that succeeded, and one more entry for each action of
  the administrator. `runEntry` applies the action of an entry whatever became of its proposal.
* `adminPendingActions`: the announced actions of the administrator. `executeAdminAction` asks for
  the caller and the delay, and returns which action was announced; the arguments are not kept.
* `initializeTimelock` starts a new list of actions and counts from one again; the announced actions
  stay.
-/

namespace CallStake.Governance

open Tx

namespace Timelock

/-! ## Entries -/

def getTimelock : G Timelock := do
  let timelock ← load (·.timelock.timelock)
  Tx.ofOption timelock (err .timelockNotInitialized)

def putTimelock (timelock : Timelock) : G Unit := save fun s => { s with timelock.timelock := some timelock }

/-- `get_queued_action`. -/
def findAction (timelock : Timelock) (actionId : Nat) : G QueuedAction :=
  Tx.ofOption (Registry.first QueuedAction.id timelock.queuedActions actionId) (err .actionNotFound)

/-- The action was neither executed nor cancelled. -/
def requireOpen (action : QueuedAction) : G Unit :=
  failIf (action.executed = true ∨ action.cancelled = true) (err .invalidCommitteeAction)

/-- The first entry with the identifier replaced. -/
def replaceAction (timelock : Timelock) (actionId : Nat) (f : QueuedAction → QueuedAction) :
    Timelock :=
  { timelock with
    queuedActions := Registry.updateFirst QueuedAction.id timelock.queuedActions actionId f }

/-! ## Configuration -/

def defaultDelays : Store ActionType Nat :=
  (((((∅ : Store ActionType Nat).insert .treasurySpend (2 * 86400)).insert .parameterChange
    (3 * 86400)).insert .contractUpgrade (5 * 86400)).insert .emergencyPause 0).insert .custom
    (2 * 86400)

/-- `initialize_timelock`: a new list of actions. -/
def initializeTimelock (minDelay maxDelay : Nat) (guardian : Address) : G Timelock := do
  failIf (minDelay < 3600 ∨ 7 * 86400 < maxDelay ∨ maxDelay < minDelay)
    (err .invalidTimelockConfig)
  let timelock : Timelock :=
    { queuedActions := [], delayConfig := defaultDelays, minDelay, maxDelay, guardian, nextActionId := 1 }
  putTimelock timelock
  writeGuardian guardian
  return timelock

def updateTimelockDelay (actionType : ActionType) (newDelay : Nat) : G Unit := do
  let timelock ← getTimelock
  failIf (newDelay < timelock.minDelay ∨ timelock.maxDelay < newDelay) (err .invalidDuration)
  putTimelock { timelock with delayConfig := timelock.delayConfig.insert actionType newDelay }

def extendExecutionWindow (actionId extensionSeconds : Nat) : G Nat := do
  failIf (7 * 86400 < extensionSeconds) (err .invalidDuration)
  let timelock ← getTimelock
  let action ← findAction timelock actionId
  requireOpen action
  let executionAvailable := u64Add action.executionAvailable extensionSeconds
  putTimelock (replaceAction timelock actionId fun a => { a with executionAvailable })
  return executionAvailable

/-! ## Actions of proposals -/

/-- `classify_proposal_action`. -/
def classifyProposalAction : ProposalType → ActionType
  | .treasurySpend .. => .treasurySpend
  | .parameterChange .. => .parameterChange
  | .contractUpgrade .. => .contractUpgrade
  | _ => .custom

/-- The list with one more action at its end. -/
def enqueue (timelock : Timelock) (actionType : ActionType) (proposalId : Nat)
    (executionPayload : Bytes) (now delay : Nat) : Timelock :=
  { timelock with
    queuedActions := timelock.queuedActions ++
      [{ id := timelock.nextActionId, actionType, proposalId, executionPayload, queuedAt := now,
         executionAvailable := u64Add now delay, executed := false, cancelled := false }]
    nextActionId := u64Add timelock.nextActionId 1 }

/-- `queue_action`: the action of a proposal that succeeded. -/
def queueAction (proposalId : Nat) : G Nat := do
  let proposal ← Proposals.getProposal proposalId
  failIf (proposal.status ≠ .succeeded) (err .proposalNotApproved)
  let timelock ← getTimelock
  let actionType := classifyProposalAction proposal.proposalType
  let delay := (timelock.delayConfig.lookup actionType).getD timelock.minDelay
  failIf (∃ a ∈ timelock.queuedActions,
    a.proposalId = proposalId ∧ a.executed = false ∧ a.cancelled = false)
    (err .invalidCommitteeAction)
  let now ← timestamp
  putTimelock (enqueue timelock actionType proposalId proposal.executionPayload now delay)
  return timelock.nextActionId

/-- Applies the action of an entry, and marks the entry and the proposal as executed. -/
def runEntry (timelock : Timelock) (action : QueuedAction) : G Unit := do
  Proposals.executeProposalActionById action.proposalId
  putTimelock (replaceAction timelock action.id fun a => { a with executed := true })
  Proposals.markProposalExecuted action.proposalId

/-- `execute_queued_action`: an entry that is due is run. -/
def executeQueuedAction (auth : Auth) (actionId : Nat) (executor : Address) : G Unit := do
  requireAuth auth executor
  let timelock ← getTimelock
  let action ← findAction timelock actionId
  requireOpen action
  let now ← timestamp
  failIf (now < action.executionAvailable) (err .invalidDuration)
  runEntry timelock action

def emergencyUnblockAction (auth : Auth) (actionId : Nat) (guardian : Address) : G Unit := do
  requireAuth auth guardian
  let timelock ← getTimelock
  failIf (guardian ≠ timelock.guardian) (err .unauthorized)
  let action ← findAction timelock actionId
  requireOpen action
  let now ← timestamp
  failIf (now < u64Add action.executionAvailable STUCK_GRACE_PERIOD) (err .invalidDuration)
  runEntry timelock action

/-- `emergency_execute`: by the guardian, without the delay. -/
def emergencyExecute (auth : Auth) (actionId : Nat) (guardian : Address) : G Unit := do
  requireAuth auth guardian
  let timelock ← getTimelock
  failIf (guardian ≠ timelock.guardian) (err .unauthorized)
  let action ← findAction timelock actionId
  failIf (action.actionType ≠ .emergencyPause) (err .invalidCommitteeAction)
  requireOpen action
  runEntry timelock action

/-- The identifiers of the list whose execution returned. -/
def executeEach (auth : Auth) (executor : Address) : List Nat → G (List Nat)
  | [] => pure []
  | id :: ids => do
    let result ← Tx.attempt (executeQueuedAction auth id executor)
    let executed ← executeEach auth executor ids
    return match result with
      | .ok _ => id :: executed
      | .error _ => executed

/-- `execute_multiple_actions`: the errors of single actions are dropped. -/
def executeMultipleActions (auth : Auth) (actionIds : List Nat) (executor : Address) :
    G (List Nat) := do
  requireAuth auth executor
  failIf (10 < actionIds.length) (err .invalidAmount)
  executeEach auth executor actionIds

/-- `cancel_queued_action`: by the administrator or the guardian. -/
def cancelQueuedAction (auth : Auth) (actionId : Nat) (canceller : Address) : G Unit := do
  requireAuth auth canceller
  let timelock ← getTimelock
  let admin ← storedAdmin
  failIf (canceller ≠ timelock.guardian ∧ canceller ≠ admin) (err .unauthorized)
  let action ← findAction timelock actionId
  requireOpen action
  putTimelock (replaceAction timelock actionId fun a => { a with cancelled := true })
  let proposal ← Proposals.getProposal action.proposalId
  Proposals.putProposal { proposal with status := .cancelled }

/-! ## Actions of the administrator -/

/-- `queue_admin_action`: an announcement. -/
def queueAdminAction (caller : Address) (actionType : Symbol) : G Nat := do
  let timelock ← getTimelock
  let now ← timestamp
  putTimelock (enqueue timelock .custom 0 [] now ADMIN_ACTION_DELAY)
  save fun s => { s with
    timelock.adminPendingActions := s.timelock.adminPendingActions ++
      [{ id := timelock.nextActionId, actionType, caller, queuedAt := now,
         executionAvailable := u64Add now ADMIN_ACTION_DELAY, executed := false,
         cancelled := false }] }
  return timelock.nextActionId

/-- The first announced action with the identifier. -/
def findAdminAction (actionId : Nat) : G AdminTimelockEntry := do
  let entry ← load fun s =>
    Registry.first AdminTimelockEntry.id s.timelock.adminPendingActions actionId
  Tx.ofOption entry (err .actionNotFound)

def requireOpenEntry (entry : AdminTimelockEntry) : G Unit :=
  failIf (entry.executed = true ∨ entry.cancelled = true) (err .invalidCommitteeAction)

def replaceEntry (actionId : Nat) (f : AdminTimelockEntry → AdminTimelockEntry) : G Unit :=
  save fun s => { s with
    timelock.adminPendingActions :=
      Registry.updateFirst AdminTimelockEntry.id s.timelock.adminPendingActions actionId f }

/-- `execute_admin_action`: an announcement is used up after its delay. -/
def executeAdminAction (auth : Auth) (actionId : Nat) (caller : Address) : G Symbol := do
  requireAuth auth caller
  let entry ← findAdminAction actionId
  let now ← timestamp
  failIf (now < entry.executionAvailable) (err .invalidDuration)
  requireOpenEntry entry
  failIf (entry.caller ≠ caller) (err .unauthorized)
  replaceEntry actionId fun e => { e with executed := true }
  return entry.actionType

/-- `cancel_admin_action`: an announcement is cancelled. -/
def cancelAdminAction (auth : Auth) (actionId : Nat) (canceller : Address) : G Unit := do
  requireAuth auth canceller
  let admin ← storedAdmin
  failIf (canceller ≠ admin) (err .unauthorized)
  let entry ← findAdminAction actionId
  requireOpenEntry entry
  replaceEntry actionId fun e => { e with cancelled := true }

/-- `caller` can act on `entry`: it is the first announcement with the identifier, `caller` announced
it and authorizes the call, the delay is over, and it is still open. -/
structure Ready (auth : Auth) (actionId : Nat) (caller : Address) (w : World)
    (entry : AdminTimelockEntry) : Prop where
  auth : auth caller = true
  first : Registry.first AdminTimelockEntry.id w.store.timelock.adminPendingActions actionId = some entry
  due : entry.executionAvailable ≤ w.ledger.timestamp
  executed : entry.executed = false
  cancelled : entry.cancelled = false
  caller : entry.caller = caller

/-- The world with the first announcement of the identifier replaced. -/
def setEntry (w : World) (actionId : Nat) (f : AdminTimelockEntry → AdminTimelockEntry) : World :=
  { w with store.timelock.adminPendingActions :=
      Registry.updateFirst AdminTimelockEntry.id w.store.timelock.adminPendingActions actionId f }

section Run

variable {w w' : World} {auth : Auth} {actionId : Nat} {caller : Address} {u : Unit}

@[simp] theorem getTimelock_ok {timelock : Timelock} : getTimelock w = (.ok timelock, w') ↔
    w.store.timelock.timelock = some timelock ∧ w = w' := by
  simp [getTimelock]

@[simp] theorem putTimelock_ok {timelock : Timelock} : putTimelock timelock w = (.ok u, w') ↔
    { w with store.timelock.timelock := some timelock } = w' := by
  simp [putTimelock]

@[simp] theorem findAction_ok {timelock : Timelock} {action : QueuedAction} :
    findAction timelock actionId w = (.ok action, w') ↔
      Registry.first QueuedAction.id timelock.queuedActions actionId = some action ∧ w = w' := by
  simp [findAction]

@[simp] theorem requireOpen_ok {action : QueuedAction} : requireOpen action w = (.ok u, w') ↔
    (action.executed = false ∧ action.cancelled = false) ∧ w = w' := by
  simp [requireOpen]

@[simp] theorem findAdminAction_ok {entry : AdminTimelockEntry} :
    findAdminAction actionId w = (.ok entry, w') ↔
      Registry.first AdminTimelockEntry.id w.store.timelock.adminPendingActions actionId = some entry ∧ w = w' := by
  simp [findAdminAction]

@[simp] theorem requireOpenEntry_ok {entry : AdminTimelockEntry} :
    requireOpenEntry entry w = (.ok u, w') ↔ (entry.executed = false ∧ entry.cancelled = false) ∧ w = w' := by
  simp [requireOpenEntry]

@[simp] theorem replaceEntry_ok {f : AdminTimelockEntry → AdminTimelockEntry} :
    replaceEntry actionId f w = (.ok u, w') ↔ setEntry w actionId f = w' := by
  simp [replaceEntry, setEntry]

/-- An announcement is used up by a caller who is ready to act on it. -/
theorem executeAdminAction_ok {actionType : Symbol} :
    executeAdminAction auth actionId caller w = (.ok actionType, w') ↔
      ∃ entry, Ready auth actionId caller w entry ∧ entry.actionType = actionType ∧
        setEntry w actionId (fun e => { e with executed := true }) = w' := by
  simp only [executeAdminAction, bind_ok, requireAuth_ok, findAdminAction_ok, timestamp_ok,
    failIf_ok, requireOpenEntry_ok, replaceEntry_ok, pure_ok]
  constructor
  · rintro ⟨_, _, ⟨ha, rfl⟩, entry, _, ⟨hf, rfl⟩, _, _, ⟨rfl, rfl⟩, _, _, ⟨hd, rfl⟩, _, _,
      ⟨⟨he, hc⟩, rfl⟩, _, _, ⟨hcaller, rfl⟩, _, _, rfl, rfl, rfl⟩
    exact ⟨entry, ⟨ha, hf, Nat.not_lt.mp hd, he, hc, not_not.mp hcaller⟩, rfl, rfl⟩
  · rintro ⟨entry, ⟨ha, hf, hd, he, hc, hcaller⟩, rfl, rfl⟩
    exact ⟨(), _, ⟨ha, rfl⟩, entry, _, ⟨hf, rfl⟩, _, _, ⟨rfl, rfl⟩, (), _, ⟨Nat.not_lt.mpr hd, rfl⟩,
      (), _, ⟨⟨he, hc⟩, rfl⟩, (), _, ⟨not_not.mpr hcaller, rfl⟩, (), _, rfl, rfl, rfl⟩

theorem cancelAdminAction_ok : cancelAdminAction auth actionId caller w = (.ok u, w') ↔
    ∃ entry, (auth caller = true ∧ w.store.core.admin = some caller ∧
      Registry.first AdminTimelockEntry.id w.store.timelock.adminPendingActions actionId = some entry ∧
      entry.executed = false ∧ entry.cancelled = false) ∧
      setEntry w actionId (fun e => { e with cancelled := true }) = w' := by
  simp only [cancelAdminAction, bind_ok, requireAuth_ok, storedAdmin_ok, failIf_ok,
    findAdminAction_ok, requireOpenEntry_ok, replaceEntry_ok]
  constructor
  · rintro ⟨_, _, ⟨ha, rfl⟩, admin, _, ⟨hadmin, rfl⟩, _, _, ⟨hc, rfl⟩, entry, _, ⟨hf, rfl⟩, _, _,
      ⟨⟨he, hc'⟩, rfl⟩, rfl⟩
    rw [not_not] at hc
    exact ⟨entry, ⟨ha, hc ▸ hadmin, hf, he, hc'⟩, rfl⟩
  · rintro ⟨entry, ⟨ha, hadmin, hf, he, hc⟩, rfl⟩
    exact ⟨(), _, ⟨ha, rfl⟩, caller, _, ⟨hadmin, rfl⟩, (), _, ⟨not_not.mpr rfl, rfl⟩, entry, _,
      ⟨hf, rfl⟩, (), _, ⟨⟨he, hc⟩, rfl⟩, rfl⟩

/-- An announcement is one more entry at the end of both lists. -/
theorem queueAdminAction_ok {actionType : Symbol} {id : Nat} :
    queueAdminAction caller actionType w = (.ok id, w') ↔
      ∃ timelock, w.store.timelock.timelock = some timelock ∧ timelock.nextActionId = id ∧
        { w with
          store.timelock.timelock := some (enqueue timelock .custom 0 [] w.ledger.timestamp ADMIN_ACTION_DELAY)
          store.timelock.adminPendingActions := w.store.timelock.adminPendingActions ++
            [{ id, actionType, caller, queuedAt := w.ledger.timestamp,
               executionAvailable := u64Add w.ledger.timestamp ADMIN_ACTION_DELAY, executed := false,
               cancelled := false }] } = w' := by
  simp only [queueAdminAction, bind_ok, getTimelock_ok, timestamp_ok, putTimelock_ok, save_ok, pure_ok]
  constructor
  · rintro ⟨timelock, _, ⟨ht, rfl⟩, _, _, ⟨rfl, rfl⟩, _, _, rfl, _, _, rfl, rfl, rfl⟩
    exact ⟨timelock, ht, rfl, rfl⟩
  · rintro ⟨timelock, ht, rfl, rfl⟩
    exact ⟨timelock, _, ⟨ht, rfl⟩, _, _, ⟨rfl, rfl⟩, (), _, rfl, (), _, rfl, rfl, rfl⟩

end Run

end Timelock

/-! ## Entrypoints -/

def initializeTimelock (auth : Auth) (admin : Address) (minDelay maxDelay : Nat)
    (guardian : Address) : G Timelock := do
  requireCapability auth admin .parameterChange
  Timelock.initializeTimelock minDelay maxDelay guardian

def queueAction (proposalId : Nat) : G Nat := do
  requireInitialized
  requireNotPaused
  Timelock.queueAction proposalId

def executeQueuedAction (auth : Auth) (actionId : Nat) (executor : Address) : G Unit := do
  requireInitialized
  requireNotPaused
  Timelock.executeQueuedAction auth actionId executor

def executeMultipleActions (auth : Auth) (actionIds : List Nat) (executor : Address) :
    G (List Nat) := do
  requireInitialized
  requireNotPaused
  Timelock.executeMultipleActions auth actionIds executor

def cancelQueuedAction (auth : Auth) (actionId : Nat) (canceller : Address) : G Unit := do
  requireInitialized
  Timelock.cancelQueuedAction auth actionId canceller

def emergencyExecute (auth : Auth) (actionId : Nat) (guardian : Address) : G Unit := do
  requireInitialized
  Timelock.emergencyExecute auth actionId guardian

def emergencyUnblockAction (auth : Auth) (actionId : Nat) (guardian : Address) : G Unit := do
  requireInitialized
  Timelock.emergencyUnblockAction auth actionId guardian

def updateTimelockDelay (auth : Auth) (admin : Address) (actionType : ActionType)
    (newDelay : Nat) : G Unit := do
  requireAdmin auth admin
  requireNoTimelockBypass
  Timelock.updateTimelockDelay actionType newDelay

def extendExecutionWindow (auth : Auth) (admin : Address) (actionId extensionSeconds : Nat) :
    G Nat := do
  requireAdmin auth admin
  Timelock.extendExecutionWindow actionId extensionSeconds

end CallStake.Governance
