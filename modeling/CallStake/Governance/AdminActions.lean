import CallStake.Governance.Timelock

/-!
# Actions of the administrator: direct, announced, timelocked

Eighteen actions have three entrypoints each: one that acts at once, until the timelock is enforced;
one that announces the action (`queue_*`); and one that acts on an announcement (`*_timelocked`).

* `queued`: an announcement keeps the kind of the action and the caller, not the arguments.
* `timelocked`: the announcement is used up; its kind is not compared with the action.
* `queueGrantCapability`, `queueRevokeCapability` and their timelocked counterparts ask for the
  initialization only, and the announcement takes no authorization.
* `AdminAction`, `AdminRequest`: the actions with their arguments, and the announcements with theirs.
-/

namespace CallStake.Governance

open Capabilities (Capability)
open Committees (Authority Committee CommitteeDecision)
open Treasury (Budget BudgetApproval RecurringPayment TreasurySpend)

variable {α : Type}

/-! ## What the actions do -/

/-- An operation on the books of the treasury. -/
def onTreasury (f : Treasury → Nat → Res (Treasury × α)) : G α := do
  let treasury ← load (·.treasury)
  let now ← timestamp
  let (treasury, a) ← lift (f treasury now)
  save fun s => { s with treasury }
  return a

/-- An operation on the committees. -/
def onCommittees (f : Committees.CommitteesState → Nat → Res (Committees.CommitteesState × α)) :
    G α := do
  let state ← load (·.committees)
  let now ← timestamp
  let (state, a) ← lift (f state now)
  save fun s => { s with committees := state }
  return a

def writeTreasuryAsset (asset : Asset) (amount : Int) : G Treasury :=
  onTreasury fun t _ => do
    let t ← t.setAssetBalance asset amount
    return (t, t)

def writeBudget (category : Bytes) (allocated spendLimit : Int) (periodStart periodEnd : Nat)
    (autoRenew : Bool) : G Budget :=
  onTreasury fun t _ => t.upsertBudget category allocated spendLimit periodStart periodEnd autoRenew

def writeBudgetApproval (category : Bytes) (proposalId : Nat) (approvedCap : Int) :
    G BudgetApproval :=
  onTreasury fun t now => t.approveBudget category proposalId approvedCap now

def writeTreasurySpend (recipient : Address) (amount : Int) (asset : Asset)
    (category purpose : Bytes) (approvedByProposal : Option Nat) : G TreasurySpend :=
  onTreasury fun t now => t.executeSpend recipient amount asset category purpose approvedByProposal now

def writeRecurringPayment (recipient : Address) (amount : Int) (asset : Asset) (frequency : Nat)
    (category purpose : Bytes) (approvedByProposal endDate : Option Nat) : G RecurringPayment :=
  onTreasury fun t now =>
    t.scheduleRecurringPayment recipient amount asset frequency category purpose approvedByProposal
      endDate now

def writeRebalanceTarget (asset : Asset) (targetBps : Int) : G Treasury :=
  onTreasury fun t _ => do
    let t ← t.setRebalanceTarget asset targetBps
    return (t, t)

def writeCommittee (name description : Bytes) (initialMembers : List Address) (chair : Address)
    (maxMembers : Nat) (authorities : List Authority) (termDurationDays : Option Nat) : G Committee :=
  onCommittees fun c now =>
    Committees.createCommittee c name description initialMembers chair maxMembers authorities
      termDurationDays now

def writeDissolution (committeeId : Nat) : G Committee :=
  onCommittees fun c now => Committees.dissolveCommittee c committeeId now

def writeOverride (committeeId decisionId : Nat) : G CommitteeDecision :=
  onCommittees fun c _ => Committees.overrideDecision c committeeId decisionId

/-! ## Direct entrypoints -/

/-- `x` by the administrator, unless the timelock is enforced. -/
def direct (auth : Auth) (admin : Address) (x : G α) : G α := do
  requireAdmin auth admin
  requireNoTimelockBypass
  x

def setTreasuryAsset (auth : Auth) (admin : Address) (asset : Asset) (amount : Int) : G Treasury :=
  direct auth admin (writeTreasuryAsset asset amount)

def createBudget (auth : Auth) (admin : Address) (category : Bytes) (allocated spendLimit : Int)
    (periodStart periodEnd : Nat) (autoRenew : Bool) : G Budget :=
  direct auth admin (writeBudget category allocated spendLimit periodStart periodEnd autoRenew)

def approveTreasuryBudget (auth : Auth) (admin : Address) (category : Bytes) (proposalId : Nat)
    (approvedCap : Int) : G BudgetApproval :=
  direct auth admin (writeBudgetApproval category proposalId approvedCap)

def executeTreasurySpend (auth : Auth) (admin recipient : Address) (amount : Int) (asset : Asset)
    (category purpose : Bytes) (approvedByProposal : Option Nat) : G TreasurySpend :=
  direct auth admin (writeTreasurySpend recipient amount asset category purpose approvedByProposal)

def createRecurringPayment (auth : Auth) (admin recipient : Address) (amount : Int) (asset : Asset)
    (frequency : Nat) (category purpose : Bytes) (approvedByProposal endDate : Option Nat) :
    G RecurringPayment :=
  direct auth admin
    (writeRecurringPayment recipient amount asset frequency category purpose approvedByProposal
      endDate)

def setRebalanceTarget (auth : Auth) (admin : Address) (asset : Asset) (targetBps : Int) :
    G Treasury := direct auth admin (writeRebalanceTarget asset targetBps)

def createCommittee (auth : Auth) (admin : Address) (name description : Bytes)
    (initialMembers : List Address) (chair : Address) (maxMembers : Nat)
    (authorities : List Authority) (termDurationDays : Option Nat) : G Committee :=
  direct auth admin
    (writeCommittee name description initialMembers chair maxMembers authorities termDurationDays)

def dissolveCommittee (auth : Auth) (admin : Address) (committeeId : Nat) : G Committee :=
  direct auth admin (writeDissolution committeeId)

def overrideCommitteeDecision (auth : Auth) (admin : Address) (committeeId decisionId : Nat) :
    G CommitteeDecision := direct auth admin (writeOverride committeeId decisionId)

/-! ## Announcements -/

/-- An announcement by the administrator. -/
def queued (auth : Auth) (admin : Address) (actionType : Symbol) : G Nat := do
  requireAdmin auth admin
  Timelock.queueAdminAction admin actionType

def queueSetTreasuryAsset (auth : Auth) (admin : Address) (_asset : Asset) (_amount : Int) : G Nat :=
  queued auth admin "trasset"

def queueExecuteTreasurySpend (auth : Auth) (admin _recipient : Address) (_amount : Int)
    (_asset : Asset) (_category _purpose : Bytes) (_approvedByProposal : Option Nat) : G Nat :=
  queued auth admin "tspspend"

def queueConfigureGovernance (auth : Auth) (admin : Address) (_config : GovernanceConfig) : G Nat :=
  queued auth admin "govcfg"

def queueSetCategoryThresholds (auth : Auth) (admin : Address) (_category : ProposalCategory)
    (_threshold : CategoryThreshold) : G Nat := queued auth admin "catthresh"

def queueCreateCommittee (auth : Auth) (admin : Address) (_name _description : Bytes) : G Nat :=
  queued auth admin "cmtadd"

def queueDissolveCommittee (auth : Auth) (admin : Address) (_committeeId : Nat) : G Nat := queued auth admin "cmtdrop"

def queueCommitteeOverride (auth : Auth) (admin : Address) (_committeeId _decisionId : Nat) : G Nat :=
  queued auth admin "cmtover"

def queueSetGuardian (auth : Auth) (admin _guardian : Address) : G Nat := queued auth admin "setguard"

/-- No authorization is taken. -/
def queueGrantCapability (caller _target : Address) (_capability : Capability) : G Nat := do
  requireInitialized
  Timelock.queueAdminAction caller "capgrant"

/-- No authorization is taken. -/
def queueRevokeCapability (caller _target : Address) (_capability : Capability) : G Nat := do
  requireInitialized
  Timelock.queueAdminAction caller "caprevk"

def queueCreateBudget (auth : Auth) (admin : Address) (_category : Bytes) (_allocated : Int) : G Nat :=
  queued auth admin "budget"

def queueApproveTreasuryBudget (auth : Auth) (admin : Address) (_category : Bytes)
    (_proposalId : Nat) (_approvedCap : Int) : G Nat := queued auth admin "budgapprv"

def queueCreateRecurringPayment (auth : Auth) (admin _recipient : Address) (_amount : Int) : G Nat :=
  queued auth admin "recur"

def queueEnterShadowMode (auth : Auth) (admin : Address) (_newWasmHash : Bytes)
    (_trialDurationSeconds : Nat) : G Nat := queued auth admin "shadow"

def queuePromoteFromShadowMode (auth : Auth) (admin : Address) : G Nat := queued auth admin "shpromt"

def queueUpdateTimelockDelay (auth : Auth) (admin : Address) (_actionType : ActionType)
    (_newDelay : Nat) : G Nat := queued auth admin "tlupdate"

def queueCreateVestingSchedule (auth : Auth) (admin _beneficiary : Address) (_totalAmount : Int) :
    G Nat := queued auth admin "vestadd"

def queueSetRebalanceTarget (auth : Auth) (admin : Address) (_asset : Asset) (_targetBps : Int) :
    G Nat := queued auth admin "target"

/-! ## Timelocked entrypoints -/

/-- `x` by the administrator, on an announcement. -/
def timelocked (auth : Auth) (admin : Address) (actionId : Nat) (x : G α) : G α := do
  requireAdminIdentity admin
  let _ ← Timelock.executeAdminAction auth actionId admin
  x

/-- `x` by the caller of an announcement. -/
def timelockedByCaller (auth : Auth) (caller : Address) (actionId : Nat) (x : G α) : G α := do
  requireInitialized
  let _ ← Timelock.executeAdminAction auth actionId caller
  x

def setTreasuryAssetTimelocked (auth : Auth) (admin : Address) (actionId : Nat) (asset : Asset)
    (amount : Int) : G Treasury := timelocked auth admin actionId (writeTreasuryAsset asset amount)

def treasurySpendTimelocked (auth : Auth) (admin : Address) (actionId : Nat) (recipient : Address)
    (amount : Int) (asset : Asset) (category purpose : Bytes) (approvedByProposal : Option Nat) :
    G TreasurySpend :=
  timelocked auth admin actionId
    (writeTreasurySpend recipient amount asset category purpose approvedByProposal)

def configureGovernanceTimelocked (auth : Auth) (admin : Address) (actionId : Nat)
    (config : GovernanceConfig) : G GovernanceConfig :=
  timelockedByCaller auth admin actionId (Proposals.configureGovernance config)

def categoryThresholdsTimelocked (auth : Auth) (admin : Address) (actionId : Nat)
    (category : ProposalCategory) (threshold : CategoryThreshold) : G Unit :=
  timelockedByCaller auth admin actionId
    (Proposals.setCategoryThresholds auth admin category threshold)

def createCommitteeTimelocked (auth : Auth) (admin : Address) (actionId : Nat)
    (name description : Bytes) (initialMembers : List Address) (chair : Address) (maxMembers : Nat)
    (authorities : List Authority) (termDurationDays : Option Nat) : G Committee :=
  timelocked auth admin actionId
    (writeCommittee name description initialMembers chair maxMembers authorities termDurationDays)

def dissolveCommitteeTimelocked (auth : Auth) (admin : Address) (actionId committeeId : Nat) :
    G Committee := timelocked auth admin actionId (writeDissolution committeeId)

def committeeOverrideTimelocked (auth : Auth) (admin : Address)
    (actionId committeeId decisionId : Nat) : G CommitteeDecision :=
  timelocked auth admin actionId (writeOverride committeeId decisionId)

def setGuardianTimelocked (auth : Auth) (admin : Address) (actionId : Nat) (guardian : Address) :
    G Unit := timelocked auth admin actionId (writeGuardian guardian)

def grantCapabilityTimelocked (auth : Auth) (caller : Address) (actionId : Nat) (target : Address)
    (capability : Capability) : G Unit :=
  timelockedByCaller auth caller actionId (writeGrant caller target capability)

def revokeCapabilityTimelocked (auth : Auth) (caller : Address) (actionId : Nat) (target : Address)
    (capability : Capability) : G Unit :=
  timelockedByCaller auth caller actionId (eraseGrant caller target capability)

def createBudgetTimelocked (auth : Auth) (admin : Address) (actionId : Nat) (category : Bytes)
    (allocated spendLimit : Int) (periodStart periodEnd : Nat) (autoRenew : Bool) : G Budget :=
  timelocked auth admin actionId
    (writeBudget category allocated spendLimit periodStart periodEnd autoRenew)

def treasuryBudgetTimelocked (auth : Auth) (admin : Address) (actionId : Nat) (category : Bytes)
    (proposalId : Nat) (approvedCap : Int) : G BudgetApproval :=
  timelocked auth admin actionId (writeBudgetApproval category proposalId approvedCap)

def recurringPaymentTimelocked (auth : Auth) (admin : Address) (actionId : Nat)
    (recipient : Address) (amount : Int) (asset : Asset) (frequency : Nat) (category purpose : Bytes)
    (approvedByProposal endDate : Option Nat) : G RecurringPayment :=
  timelocked auth admin actionId
    (writeRecurringPayment recipient amount asset frequency category purpose approvedByProposal
      endDate)

def enterShadowModeTimelocked (auth : Auth) (admin : Address) (actionId : Nat) (newWasmHash : Bytes)
    (trialDurationSeconds : Nat) : G ShadowModeState :=
  timelockedByCaller auth admin actionId
    (ShadowMode.enterShadowMode auth admin newWasmHash trialDurationSeconds)

def shadowModePromoteTimelocked (auth : Auth) (admin : Address) (actionId : Nat) : G Unit :=
  timelockedByCaller auth admin actionId (ShadowMode.promoteFromShadowMode auth admin)

def updateTimelockDelayTimelocked (auth : Auth) (admin : Address) (actionId : Nat)
    (actionType : ActionType) (newDelay : Nat) : G Unit :=
  timelocked auth admin actionId (Timelock.updateTimelockDelay actionType newDelay)

def vestingScheduleTimelocked (auth : Auth) (admin : Address) (actionId : Nat)
    (beneficiary : Address) (totalAmount : Int) (startTime cliffSeconds durationSeconds : Nat) :
    G Unit :=
  timelocked auth admin actionId
    (addVestingSchedule beneficiary totalAmount startTime cliffSeconds durationSeconds)

def setRebalanceTargetTimelocked (auth : Auth) (admin : Address) (actionId : Nat) (asset : Asset)
    (targetBps : Int) : G Treasury :=
  timelocked auth admin actionId (writeRebalanceTarget asset targetBps)

def cancelAdminAction (auth : Auth) (actionId : Nat) (canceller : Address) : G Unit := do
  requireInitialized
  Timelock.cancelAdminAction auth actionId canceller

/-! ## The actions as data -/

/-- An action with the arguments of its direct and its timelocked entrypoint. -/
inductive AdminAction where
  | setTreasuryAsset (asset : Asset) (amount : Int)
  | treasurySpend (recipient : Address) (amount : Int) (asset : Asset) (category purpose : Bytes)
      (approvedByProposal : Option Nat)
  | configureGovernance (config : GovernanceConfig)
  | categoryThresholds (category : ProposalCategory) (threshold : CategoryThreshold)
  | createCommittee (name description : Bytes) (initialMembers : List Address) (chair : Address)
      (maxMembers : Nat) (authorities : List Authority) (termDurationDays : Option Nat)
  | dissolveCommittee (committeeId : Nat)
  | committeeOverride (committeeId decisionId : Nat)
  | setGuardian (guardian : Address)
  | grantCapability (target : Address) (capability : Capability)
  | revokeCapability (target : Address) (capability : Capability)
  | createBudget (category : Bytes) (allocated spendLimit : Int) (periodStart periodEnd : Nat)
      (autoRenew : Bool)
  | treasuryBudget (category : Bytes) (proposalId : Nat) (approvedCap : Int)
  | recurringPayment (recipient : Address) (amount : Int) (asset : Asset) (frequency : Nat)
      (category purpose : Bytes) (approvedByProposal endDate : Option Nat)
  | enterShadowMode (newWasmHash : Bytes) (trialDurationSeconds : Nat)
  | shadowModePromote
  | updateTimelockDelay (actionType : ActionType) (newDelay : Nat)
  | vestingSchedule (beneficiary : Address) (totalAmount : Int)
      (startTime cliffSeconds durationSeconds : Nat)
  | setRebalanceTarget (asset : Asset) (targetBps : Int)

/-- An announcement with the arguments of its `queue_*` entrypoint. -/
inductive AdminRequest where
  | setTreasuryAsset (asset : Asset) (amount : Int)
  | treasurySpend (recipient : Address) (amount : Int) (asset : Asset) (category purpose : Bytes)
      (approvedByProposal : Option Nat)
  | configureGovernance (config : GovernanceConfig)
  | categoryThresholds (category : ProposalCategory) (threshold : CategoryThreshold)
  | createCommittee (name description : Bytes)
  | dissolveCommittee (committeeId : Nat)
  | committeeOverride (committeeId decisionId : Nat)
  | setGuardian (guardian : Address)
  | grantCapability (target : Address) (capability : Capability)
  | revokeCapability (target : Address) (capability : Capability)
  | createBudget (category : Bytes) (allocated : Int)
  | treasuryBudget (category : Bytes) (proposalId : Nat) (approvedCap : Int)
  | recurringPayment (recipient : Address) (amount : Int)
  | enterShadowMode (newWasmHash : Bytes) (trialDurationSeconds : Nat)
  | shadowModePromote
  | updateTimelockDelay (actionType : ActionType) (newDelay : Nat)
  | vestingSchedule (beneficiary : Address) (totalAmount : Int)
  | setRebalanceTarget (asset : Asset) (targetBps : Int)

/-- The announcement of an action: the matching `queue_*` entrypoint, with the arguments that it
takes. -/
def AdminAction.request : AdminAction → AdminRequest
  | .setTreasuryAsset asset amount => .setTreasuryAsset asset amount
  | .treasurySpend recipient amount asset category purpose approvedByProposal =>
    .treasurySpend recipient amount asset category purpose approvedByProposal
  | .configureGovernance config => .configureGovernance config
  | .categoryThresholds category threshold => .categoryThresholds category threshold
  | .createCommittee name description .. => .createCommittee name description
  | .dissolveCommittee committeeId => .dissolveCommittee committeeId
  | .committeeOverride committeeId decisionId => .committeeOverride committeeId decisionId
  | .setGuardian guardian => .setGuardian guardian
  | .grantCapability target capability => .grantCapability target capability
  | .revokeCapability target capability => .revokeCapability target capability
  | .createBudget category allocated .. => .createBudget category allocated
  | .treasuryBudget category proposalId approvedCap => .treasuryBudget category proposalId approvedCap
  | .recurringPayment recipient amount .. => .recurringPayment recipient amount
  | .enterShadowMode newWasmHash trialDurationSeconds =>
    .enterShadowMode newWasmHash trialDurationSeconds
  | .shadowModePromote => .shadowModePromote
  | .updateTimelockDelay actionType newDelay => .updateTimelockDelay actionType newDelay
  | .vestingSchedule beneficiary totalAmount .. => .vestingSchedule beneficiary totalAmount
  | .setRebalanceTarget asset targetBps => .setRebalanceTarget asset targetBps

/-- The direct entrypoint of an action. -/
def invokeDirect (auth : Auth) (caller : Address) : AdminAction → G Unit
  | .setTreasuryAsset asset amount => Tx.void (setTreasuryAsset auth caller asset amount)
  | .treasurySpend recipient amount asset category purpose approvedByProposal =>
    Tx.void (executeTreasurySpend auth caller recipient amount asset category purpose
      approvedByProposal)
  | .configureGovernance config => Tx.void (configureGovernance auth caller config)
  | .categoryThresholds category threshold => setCategoryThresholds auth caller category threshold
  | .createCommittee name description initialMembers chair maxMembers authorities term =>
    Tx.void (createCommittee auth caller name description initialMembers chair maxMembers
      authorities term)
  | .dissolveCommittee committeeId => Tx.void (dissolveCommittee auth caller committeeId)
  | .committeeOverride committeeId decisionId =>
    Tx.void (overrideCommitteeDecision auth caller committeeId decisionId)
  | .setGuardian guardian => setGuardian auth caller guardian
  | .grantCapability target capability => grantCapability auth caller target capability
  | .revokeCapability target capability => revokeCapability auth caller target capability
  | .createBudget category allocated spendLimit periodStart periodEnd autoRenew =>
    Tx.void (createBudget auth caller category allocated spendLimit periodStart periodEnd autoRenew)
  | .treasuryBudget category proposalId approvedCap =>
    Tx.void (approveTreasuryBudget auth caller category proposalId approvedCap)
  | .recurringPayment recipient amount asset frequency category purpose approvedByProposal endDate =>
    Tx.void (createRecurringPayment auth caller recipient amount asset frequency category purpose
      approvedByProposal endDate)
  | .enterShadowMode newWasmHash trialDurationSeconds =>
    Tx.void (enterShadowMode auth caller newWasmHash trialDurationSeconds)
  | .shadowModePromote => promoteFromShadowMode auth caller
  | .updateTimelockDelay actionType newDelay => updateTimelockDelay auth caller actionType newDelay
  | .vestingSchedule beneficiary totalAmount startTime cliffSeconds durationSeconds =>
    createVestingSchedule auth caller beneficiary totalAmount startTime cliffSeconds durationSeconds
  | .setRebalanceTarget asset targetBps => Tx.void (setRebalanceTarget auth caller asset targetBps)

/-- The `queue_*` entrypoint of an announcement. -/
def invokeQueue (auth : Auth) (caller : Address) : AdminRequest → G Nat
  | .setTreasuryAsset asset amount => queueSetTreasuryAsset auth caller asset amount
  | .treasurySpend recipient amount asset category purpose approvedByProposal =>
    queueExecuteTreasurySpend auth caller recipient amount asset category purpose approvedByProposal
  | .configureGovernance config => queueConfigureGovernance auth caller config
  | .categoryThresholds category threshold =>
    queueSetCategoryThresholds auth caller category threshold
  | .createCommittee name description => queueCreateCommittee auth caller name description
  | .dissolveCommittee committeeId => queueDissolveCommittee auth caller committeeId
  | .committeeOverride committeeId decisionId =>
    queueCommitteeOverride auth caller committeeId decisionId
  | .setGuardian guardian => queueSetGuardian auth caller guardian
  | .grantCapability target capability => queueGrantCapability caller target capability
  | .revokeCapability target capability => queueRevokeCapability caller target capability
  | .createBudget category allocated => queueCreateBudget auth caller category allocated
  | .treasuryBudget category proposalId approvedCap =>
    queueApproveTreasuryBudget auth caller category proposalId approvedCap
  | .recurringPayment recipient amount => queueCreateRecurringPayment auth caller recipient amount
  | .enterShadowMode newWasmHash trialDurationSeconds =>
    queueEnterShadowMode auth caller newWasmHash trialDurationSeconds
  | .shadowModePromote => queuePromoteFromShadowMode auth caller
  | .updateTimelockDelay actionType newDelay => queueUpdateTimelockDelay auth caller actionType newDelay
  | .vestingSchedule beneficiary totalAmount =>
    queueCreateVestingSchedule auth caller beneficiary totalAmount
  | .setRebalanceTarget asset targetBps => queueSetRebalanceTarget auth caller asset targetBps

/-- The timelocked entrypoint of an action. -/
def invokeTimelocked (auth : Auth) (caller : Address) (actionId : Nat) : AdminAction → G Unit
  | .setTreasuryAsset asset amount =>
    Tx.void (setTreasuryAssetTimelocked auth caller actionId asset amount)
  | .treasurySpend recipient amount asset category purpose approvedByProposal =>
    Tx.void (treasurySpendTimelocked auth caller actionId recipient amount asset category purpose
      approvedByProposal)
  | .configureGovernance config => Tx.void (configureGovernanceTimelocked auth caller actionId config)
  | .categoryThresholds category threshold =>
    categoryThresholdsTimelocked auth caller actionId category threshold
  | .createCommittee name description initialMembers chair maxMembers authorities term =>
    Tx.void (createCommitteeTimelocked auth caller actionId name description initialMembers chair
      maxMembers authorities term)
  | .dissolveCommittee committeeId =>
    Tx.void (dissolveCommitteeTimelocked auth caller actionId committeeId)
  | .committeeOverride committeeId decisionId =>
    Tx.void (committeeOverrideTimelocked auth caller actionId committeeId decisionId)
  | .setGuardian guardian => setGuardianTimelocked auth caller actionId guardian
  | .grantCapability target capability =>
    grantCapabilityTimelocked auth caller actionId target capability
  | .revokeCapability target capability =>
    revokeCapabilityTimelocked auth caller actionId target capability
  | .createBudget category allocated spendLimit periodStart periodEnd autoRenew =>
    Tx.void (createBudgetTimelocked auth caller actionId category allocated spendLimit periodStart
      periodEnd autoRenew)
  | .treasuryBudget category proposalId approvedCap =>
    Tx.void (treasuryBudgetTimelocked auth caller actionId category proposalId approvedCap)
  | .recurringPayment recipient amount asset frequency category purpose approvedByProposal endDate =>
    Tx.void (recurringPaymentTimelocked auth caller actionId recipient amount asset frequency category
      purpose approvedByProposal endDate)
  | .enterShadowMode newWasmHash trialDurationSeconds =>
    Tx.void (enterShadowModeTimelocked auth caller actionId newWasmHash trialDurationSeconds)
  | .shadowModePromote => shadowModePromoteTimelocked auth caller actionId
  | .updateTimelockDelay actionType newDelay =>
    updateTimelockDelayTimelocked auth caller actionId actionType newDelay
  | .vestingSchedule beneficiary totalAmount startTime cliffSeconds durationSeconds =>
    vestingScheduleTimelocked auth caller actionId beneficiary totalAmount startTime cliffSeconds
      durationSeconds
  | .setRebalanceTarget asset targetBps =>
    Tx.void (setRebalanceTargetTimelocked auth caller actionId asset targetBps)

/-! ## What a timelocked entrypoint did -/

/-- What an action does, once it may. -/
def AdminAction.perform (auth : Auth) (caller : Address) : AdminAction → G Unit
  | .setTreasuryAsset asset amount => Tx.void (writeTreasuryAsset asset amount)
  | .treasurySpend recipient amount asset category purpose approvedByProposal =>
    Tx.void (writeTreasurySpend recipient amount asset category purpose approvedByProposal)
  | .configureGovernance config => Tx.void (Proposals.configureGovernance config)
  | .categoryThresholds category threshold =>
    Proposals.setCategoryThresholds auth caller category threshold
  | .createCommittee name description initialMembers chair maxMembers authorities term =>
    Tx.void (writeCommittee name description initialMembers chair maxMembers authorities term)
  | .dissolveCommittee committeeId => Tx.void (writeDissolution committeeId)
  | .committeeOverride committeeId decisionId => Tx.void (writeOverride committeeId decisionId)
  | .setGuardian guardian => writeGuardian guardian
  | .grantCapability target capability => writeGrant caller target capability
  | .revokeCapability target capability => eraseGrant caller target capability
  | .createBudget category allocated spendLimit periodStart periodEnd autoRenew =>
    Tx.void (writeBudget category allocated spendLimit periodStart periodEnd autoRenew)
  | .treasuryBudget category proposalId approvedCap =>
    Tx.void (writeBudgetApproval category proposalId approvedCap)
  | .recurringPayment recipient amount asset frequency category purpose approvedByProposal endDate =>
    Tx.void (writeRecurringPayment recipient amount asset frequency category purpose
      approvedByProposal endDate)
  | .enterShadowMode newWasmHash trialDurationSeconds =>
    Tx.void (ShadowMode.enterShadowMode auth caller newWasmHash trialDurationSeconds)
  | .shadowModePromote => ShadowMode.promoteFromShadowMode auth caller
  | .updateTimelockDelay actionType newDelay => Timelock.updateTimelockDelay actionType newDelay
  | .vestingSchedule beneficiary totalAmount startTime cliffSeconds durationSeconds =>
    addVestingSchedule beneficiary totalAmount startTime cliffSeconds durationSeconds
  | .setRebalanceTarget asset targetBps => Tx.void (writeRebalanceTarget asset targetBps)

section Run

variable {w w' : World} {auth : Auth} {caller : Address} {actionId : Nat} {a : α} {x : G α}

theorem timelocked_ok : timelocked auth caller actionId x w = (.ok a, w') ↔
    (w.store.core.initialized = true ∧ w.store.core.admin = some caller) ∧
    ∃ entry, Timelock.Ready auth actionId caller w entry ∧
      x (Timelock.setEntry w actionId fun e => { e with executed := true }) = (.ok a, w') := by
  simp only [timelocked, Tx.bind_ok, requireAdminIdentity_ok, Timelock.executeAdminAction_ok]
  constructor
  · rintro ⟨_, _, ⟨hi, rfl⟩, _, _, ⟨entry, hr, -, rfl⟩, hx⟩
    exact ⟨hi, entry, hr, hx⟩
  · rintro ⟨hi, entry, hr, hx⟩
    exact ⟨(), _, ⟨hi, rfl⟩, _, _, ⟨entry, hr, rfl, rfl⟩, hx⟩

theorem timelockedByCaller_ok : timelockedByCaller auth caller actionId x w = (.ok a, w') ↔
    w.store.core.initialized = true ∧
    ∃ entry, Timelock.Ready auth actionId caller w entry ∧
      x (Timelock.setEntry w actionId fun e => { e with executed := true }) = (.ok a, w') := by
  simp only [timelockedByCaller, Tx.bind_ok, requireInitialized_ok, Timelock.executeAdminAction_ok]
  constructor
  · rintro ⟨_, _, ⟨hi, rfl⟩, _, _, ⟨entry, hr, -, rfl⟩, hx⟩
    exact ⟨hi, entry, hr, hx⟩
  · rintro ⟨hi, entry, hr, hx⟩
    exact ⟨(), _, ⟨hi, rfl⟩, _, _, ⟨entry, hr, rfl, rfl⟩, hx⟩

/-- A timelocked entrypoint that returned used up an announcement of its caller, and then acted. -/
theorem invokeTimelocked_ok {action : AdminAction} {u : Unit}
    (h : invokeTimelocked auth caller actionId action w = (.ok u, w')) :
    w.store.core.initialized = true ∧ ∃ entry, Timelock.Ready auth actionId caller w entry ∧
      action.perform auth caller (Timelock.setEntry w actionId fun e => { e with executed := true }) =
        (.ok u, w') := by
  cases action
  case configureGovernance | enterShadowMode =>
    obtain ⟨a, h⟩ := Tx.void_ok.mp h
    obtain ⟨hi, entry, hr, hx⟩ := timelockedByCaller_ok.mp h
    exact ⟨hi, entry, hr, Tx.void_ok.mpr ⟨a, hx⟩⟩
  case categoryThresholds | grantCapability | revokeCapability | shadowModePromote =>
    exact timelockedByCaller_ok.mp h
  case setGuardian | updateTimelockDelay | vestingSchedule =>
    obtain ⟨⟨hi, -⟩, hx⟩ := timelocked_ok.mp h
    exact ⟨hi, hx⟩
  -- the others return a value that the call drops
  all_goals
    obtain ⟨a, h⟩ := Tx.void_ok.mp h
    obtain ⟨⟨hi, -⟩, entry, hr, hx⟩ := timelocked_ok.mp h
    exact ⟨hi, entry, hr, Tx.void_ok.mpr ⟨a, hx⟩⟩

/-- The kind of an announcement. -/
def AdminRequest.actionType : AdminRequest → Symbol
  | .setTreasuryAsset .. => "trasset"
  | .treasurySpend .. => "tspspend"
  | .configureGovernance .. => "govcfg"
  | .categoryThresholds .. => "catthresh"
  | .createCommittee .. => "cmtadd"
  | .dissolveCommittee .. => "cmtdrop"
  | .committeeOverride .. => "cmtover"
  | .setGuardian .. => "setguard"
  | .grantCapability .. => "capgrant"
  | .revokeCapability .. => "caprevk"
  | .createBudget .. => "budget"
  | .treasuryBudget .. => "budgapprv"
  | .recurringPayment .. => "recur"
  | .enterShadowMode .. => "shadow"
  | .shadowModePromote => "shpromt"
  | .updateTimelockDelay .. => "tlupdate"
  | .vestingSchedule .. => "vestadd"
  | .setRebalanceTarget .. => "target"

/-- An announcement that returned is one of its kind by its caller. -/
theorem invokeQueue_ok {request : AdminRequest} {id : Nat}
    (h : invokeQueue auth caller request w = (.ok id, w')) :
    Timelock.queueAdminAction caller request.actionType w = (.ok id, w') := by
  cases request
  case grantCapability | revokeCapability =>
    obtain ⟨_, _, h1, h⟩ := Tx.bind_ok.mp h
    obtain ⟨-, rfl⟩ := requireInitialized_ok.mp h1
    exact h
  all_goals
    obtain ⟨_, _, h1, h⟩ := Tx.bind_ok.mp h
    obtain ⟨-, rfl⟩ := requireAdmin_ok.mp h1
    exact h

end Run

end CallStake.Governance
