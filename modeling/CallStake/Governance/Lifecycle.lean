import CallStake.Governance.Docket

/-!
# The life of a proposal

The contract as a machine on its docket: every call that returned is one of the moves.

* `performAction_ok`, `executeProposal_ok`, `runEntry_ok`, ...: what the parts did to the docket; the
  errors that a caller drops left it as it was (`executeProposal_error`, `runEntry_error`).
* `docketMove_of_call`: every call is a move.
-/

namespace CallStake.Governance

open Tx

/-! ## Frames -/

section Frame

variable {w w' : World} {rs : List Region}

/-- A computation that writes only the token and regions outside of the docket. -/
theorem docket_of_token (h : SameOutside rs w w')
    (hr : ∀ r ∈ [Region.depositConfig, .proposal, .snapshots, .deposit, .log, .timelock], r ∉ rs) :
    w'.docket = { w.docket with token := w'.store.token } := by
  have hd := h.same .depositConfig (hr _ (by simp))
  have hp := h.same .proposal (hr _ (by simp))
  have hs := h.same .snapshots (hr _ (by simp))
  have hdep := h.same .deposit (hr _ (by simp))
  have hl := h.same .log (hr _ (by simp))
  have ht := h.same .timelock (hr _ (by simp))
  simp only [Region.read] at hd hp hs hdep hl ht
  simp only [World.docket, h.ledger, hp, hs, hl, hd, ht, (Prod.mk.inj hdep).1, (Prod.mk.inj hdep).2]

theorem docket_of_sameOutside (h : SameOutside rs w w')
    (hr : ∀ r ∈ [Region.depositConfig, .proposal, .snapshots, .deposit, .log, .timelock], r ∉ rs)
    (ht : Region.token ∉ rs) : w'.docket = w.docket := by
  rw [docket_of_token h hr]
  have := h.same .token ht
  simp only [Region.read] at this
  rw [this]
  rfl

end Frame

/-! ## Parts of calls -/

section Parts

variable {w w' : World} {auth : Auth} {u : Unit} {id : Nat} {p : Proposal}
  {e : Fault GovernanceError}

@[simp] theorem getProposal_ok : Proposals.getProposal id w = (.ok p, w') ↔
    w.store.proposal.state.proposals.lookup id = some p ∧ w = w' := by
  simp [Proposals.getProposal]

@[simp] theorem getProposal_error : Proposals.getProposal id w = (.error e, w') ↔
    w.store.proposal.state.proposals.lookup id = none ∧ err .proposalNotFound = e ∧ w = w' := by
  simp [Proposals.getProposal]

/-- The world with a proposal replaced. -/
def World.putProposal (w : World) (p : Proposal) : World :=
  { w with store.proposal.state.proposals := w.store.proposal.state.proposals.insert p.id p }

@[simp] theorem putProposal_ok : Proposals.putProposal p w = (.ok u, w') ↔
    (w.store.proposal.state.proposals.lookup p.id).isSome = true ∧ w.putProposal p = w' := by
  simp [Proposals.putProposal, World.putProposal]

@[simp] theorem putProposal_error : Proposals.putProposal p w = (.error e, w') ↔
    w.store.proposal.state.proposals.lookup p.id = none ∧ err .proposalNotFound = e ∧ w = w' := by
  simp [Proposals.putProposal]

theorem performAction_ok {t : ProposalType} (h : performAction t w = (.ok u, w')) :
    Effect w.store.token t w'.store.token ∧ w'.docket = { w.docket with token := w'.store.token } := by
  have hs : SameOutside [.parameter, .treasury, .token] w w' := Tx.Within.of_run inferInstance h
  refine ⟨?_, docket_of_token hs (by simp)⟩
  cases t
  case treasurySpend =>
    simp [performAction, spendTreasury, addBalance_ok, World.setBalance] at h
    obtain ⟨-, -, hpos, hr, rfl⟩ := h
    exact ⟨hpos, hr, rfl⟩
  all_goals
    simp [performAction] at h
    rw [← h]
    rfl

theorem performAction_error {t : ProposalType} (h : performAction t w = (.error e, w')) :
    w'.docket = w.docket := by
  cases t
  case treasurySpend =>
    simp [performAction, spendTreasury] at h
    rcases h with ⟨-, -, rfl⟩ | ⟨-, ⟨-, rfl⟩ | ⟨-, h⟩⟩
    · rfl
    · rfl
    · -- the treasury is debited, the recipient is not credited
      rw [(addBalance_error h).1]
      rfl
  all_goals simp [performAction] at h

theorem executeProposalAction_ok (h : executeProposalAction p w = (.ok u, w')) :
    ∃ t, Effect w.docket.token p.proposalType t ∧ w'.docket = w.docket.apply p t := by
  simp [executeProposalAction] at h
  obtain ⟨_, w₁, hact, rfl⟩ := h
  obtain ⟨heffect, hd⟩ := performAction_ok hact
  refine ⟨w₁.store.token, heffect, ?_⟩
  have hnow : w₁.docket.now = w.docket.now := by rw [hd]
  change { w₁.docket with log := .applied p.id p.status p.executionDeadline w₁.docket.now :: w₁.docket.log } = _
  rw [hd]
  rfl

theorem executeProposalAction_error (h : executeProposalAction p w = (.error e, w')) :
    w'.docket = w.docket := by
  simp [executeProposalAction] at h
  exact performAction_error h

theorem executeProposal_ok {executor : Address} {status : ProposalStatus}
    (h : Proposals.executeProposal auth id executor w = (.ok status, w')) :
    ∃ p, w.docket.proposals.lookup id = some p ∧ Executed w.docket p w'.docket := by
  simp [Proposals.executeProposal] at h
  obtain ⟨-, p, hp, hstatus, -, hlive, _, w₁, hact, ⟨-, rfl⟩, -⟩ := h
  obtain ⟨t, heffect, hd⟩ := executeProposalAction_ok hact
  refine ⟨p, hp, hstatus, hlive, t, heffect, ?_⟩
  rw [← hd]
  rfl

/-- The action of a proposal leaves the proposal stored. -/
theorem stored_of_action {w₁ : World} (hw : w.docket.WellFormed)
    (hp : w.store.proposal.state.proposals.lookup id = some p)
    (hact : executeProposalAction p w = (.ok u, w₁)) :
    w₁.store.proposal.state.proposals.lookup id = some p ∧
      w₁.store.proposal.state.proposals.lookup p.id = some p := by
  obtain ⟨t, -, hd⟩ := executeProposalAction_ok hact
  have heq : w₁.docket.proposals = w.docket.proposals := by rw [hd]; rfl
  have hlook : w₁.docket.proposals.lookup id = some p := by rw [heq]; exact hp
  refine ⟨hlook, ?_⟩
  rw [hw.keyed id p hp]
  exact hlook

/-- An execution fails before the proposal is marked. -/
theorem executeProposal_error {executor : Address} (hw : w.docket.WellFormed)
    (h : Proposals.executeProposal auth id executor w = (.error e, w')) : w'.docket = w.docket := by
  simp [Proposals.executeProposal] at h
  rcases h with ⟨-, -, rfl⟩ | ⟨-, ⟨-, -, rfl⟩ | ⟨p, hp, ⟨-, -, rfl⟩ | ⟨-, ⟨-, -, rfl⟩ | ⟨-,
    ⟨-, -, rfl⟩ | ⟨-, h | ⟨⟨_, hact⟩, hnone, -⟩⟩⟩⟩⟩⟩
  · rfl
  · rfl
  · rfl
  · rfl
  · rfl
  · exact executeProposalAction_error h
  · exact absurd ((stored_of_action hw hp hact).2.symm.trans hnone) (by simp)

theorem runEntry_ok {timelock : Timelock} {actionId : Nat} {a : QueuedAction} (hw : w.docket.WellFormed)
    (ht : w.store.timelock.timelock = some timelock)
    (ha : Registry.first QueuedAction.id timelock.queuedActions actionId = some a)
    (hexecuted : a.executed = false) (hcancelled : a.cancelled = false)
    (h : Timelock.runEntry timelock a w = (.ok u, w')) :
    ∃ p t, RunsEntry w.docket actionId a p t w'.docket := by
  simp [Timelock.runEntry, Proposals.executeProposalActionById, Proposals.markProposalExecuted] at h
  obtain ⟨_, w₁, ⟨p, hp, hact⟩, p', hp', -, rfl⟩ := h
  rw [(stored_of_action hw hp hact).1] at hp'
  cases hp'
  obtain ⟨t, heffect, hd⟩ := executeProposalAction_ok hact
  have hqueue : w.docket.queue = timelock.queuedActions := by simp [World.docket, ht]
  refine ⟨p, t, by rw [hqueue]; exact ha, hexecuted, hcancelled, hp, heffect, ?_⟩
  have hnow : w₁.docket.now = w.docket.now := by rw [hd]; rfl
  rw [← hd, hqueue, ← hnow, Registry.key_of_first ha]
  rfl

/-- An entry fails before anything is marked. -/
theorem runEntry_error {timelock : Timelock} {a : QueuedAction} (hw : w.docket.WellFormed)
    (h : Timelock.runEntry timelock a w = (.error e, w')) : w'.docket = w.docket := by
  simp [Timelock.runEntry, Proposals.executeProposalActionById, Timelock.putTimelock,
    Proposals.markProposalExecuted] at h
  rcases h with (⟨-, -, rfl⟩ | ⟨p, -, h⟩) | ⟨_, w₁, ⟨p, hp, hact⟩, h⟩
  · rfl
  · exact executeProposalAction_error h
  · obtain ⟨hid, hkey⟩ := stored_of_action hw hp hact
    rcases h with ⟨hnone, -⟩ | ⟨p', hp', hnone, -⟩
    · exact absurd (hid.symm.trans hnone) (by simp)
    · rw [hid] at hp'
      cases hp'
      exact absurd (hkey.symm.trans hnone) (by simp)

theorem executeQueuedAction_ok {actionId : Nat} {executor : Address} (hw : w.docket.WellFormed)
    (h : Timelock.executeQueuedAction auth actionId executor w = (.ok u, w')) :
    ∃ a p t, RunsEntry w.docket actionId a p t w'.docket := by
  simp [Timelock.executeQueuedAction] at h
  obtain ⟨-, timelock, ht, a, ha, ⟨hexecuted, hcancelled⟩, -, h⟩ := h
  exact ⟨a, runEntry_ok hw ht ha hexecuted hcancelled h⟩

theorem executeQueuedAction_error {actionId : Nat} {executor : Address} (hw : w.docket.WellFormed)
    (h : Timelock.executeQueuedAction auth actionId executor w = (.error e, w')) :
    w'.docket = w.docket := by
  simp [Timelock.executeQueuedAction, Timelock.getTimelock, Timelock.findAction, Timelock.requireOpen] at h
  rcases h with ⟨-, -, rfl⟩ | ⟨-, ⟨-, -, rfl⟩ | ⟨_, -, ⟨-, -, rfl⟩ | ⟨_, -, ⟨-, -, rfl⟩ | ⟨-, ⟨-, -, rfl⟩ | ⟨-, h⟩⟩⟩⟩⟩
  · rfl
  · rfl
  · rfl
  · rfl
  · rfl
  · exact runEntry_error hw h

/-- Entries are run one after another, whatever each of them returns. -/
theorem executeEach_runs {executor : Address} {ids executed : List Nat} (hw : w.docket.WellFormed)
    (h : Timelock.executeEach auth executor ids w = (.ok executed, w')) :
    RunsEach ids w.docket w'.docket := by
  induction ids generalizing w executed with
  | nil =>
    simp [Timelock.executeEach] at h
    rw [← h.2]
    exact .nil _
  | cons id ids ih =>
    simp [Timelock.executeEach, attempt_ok]
      at h
    obtain ⟨_, w₁, hfirst, _, hrest, -⟩ := h
    rcases hfirst with ⟨_, -, hrun⟩ | ⟨_, -, hrun⟩
    · obtain ⟨a, p, t, hrun⟩ := executeQueuedAction_ok hw hrun
      exact .run hrun (ih (hw.runsEntry hrun) hrest)
    · have hd := executeQueuedAction_error hw hrun
      have hs := ih (by rw [hd]; exact hw) hrest
      rw [hd] at hs
      exact .skip hs

theorem creditDeposit_ok {recipient : Address}
    (h : creditDeposit id recipient w.store.config.depositConfig.amount w = (.ok u, w')) :
    InRange (balanceOf w.docket.token recipient + w.docket.deposit) ∧ w'.docket = w.docket.credit id recipient := by
  simp [creditDeposit, addBalance_ok] at h
  obtain ⟨⟨-, hr⟩, rfl⟩ := h
  exact ⟨hr, rfl⟩

theorem creditDeposit_error {recipient : Address} (hw : w.docket.WellFormed)
    (h : creditDeposit id recipient w.store.config.depositConfig.amount w = (.error e, w')) :
    ¬ InRange (balanceOf w.docket.token recipient + w.docket.deposit) ∧ w'.docket = w.docket := by
  simp [creditDeposit] at h
  obtain ⟨rfl, hr⟩ := addBalance_error h
  exact ⟨hr hw.deposit, rfl⟩

/-- The settlement of a deposit, whatever it returns. -/
theorem settleProposalDeposit_settled {totalVotes totalSupply : Int} {treasury : Address}
    {r : Except GovernanceError Unit} (hw : w.docket.WellFormed)
    (h : Tx.attempt (settleProposalDeposit id totalVotes totalSupply treasury) w = (.ok r, w')) :
    Settled w.docket id treasury w'.docket := by
  rw [attempt_ok] at h
  cases hl : w.store.lockedDeposit.lookup id with
  | none =>
    simp [settleProposalDeposit, hl] at h
    rw [← h.2]
    exact .none hl
  | some proposer =>
    generalize hrec : (if thresholdMet w.store.config.depositConfig totalVotes totalSupply = true
      then proposer else treasury) = recipient
    have hr : recipient = proposer ∨ recipient = treasury := by
      rw [← hrec]
      split
      · exact .inl rfl
      · exact .inr rfl
    rcases h with ⟨_, -, h⟩ | ⟨_, -, h⟩
    · simp [settleProposalDeposit, removeLock, hl, hrec] at h
      obtain ⟨_, w₁, hcredit, rfl⟩ := h
      obtain ⟨hroom, hd⟩ := creditDeposit_ok hcredit
      have hpaid : Settled w.docket id treasury (w₁.docket.release id) := by
        rw [hd]
        exact .paid hl hr hroom
      exact hpaid
    · simp [settleProposalDeposit, removeLock, hl, hrec] at h
      obtain ⟨hroom, hd⟩ := creditDeposit_error hw h
      rw [hd]
      exact .stuck hl hr hroom

theorem lockProposalDeposit_ok {proposer : Address}
    (h : lockProposalDeposit id proposer w = (.ok u, w')) (hw : w.docket.WellFormed) :
    w.docket.deposit ≤ balanceOf w.docket.token proposer ∧ w'.docket = w.docket.lock id proposer := by
  have hpos : w.store.config.depositConfig.amount ≠ 0 := Int.ne_of_gt hw.deposit
  simp [lockProposalDeposit, noteHeld, hpos, subtractBalance_ok] at h
  obtain ⟨⟨-, hle, -⟩, rfl⟩ := h
  exact ⟨hle, rfl⟩

/-- The record of a reputation, whatever it returns, is outside of the docket. -/
theorem docket_of_reputation {α : Type} {x : G α} {r : Except GovernanceError α}
    (hx : Writes [.reputation] x) (h : Tx.attempt x w = (.ok r, w')) : w'.docket = w.docket :=
  docket_of_sameOutside ((within_attempt hx).of_run h) (by simp) (by simp)

theorem createProposal_move {proposer : Address} {proposalType : ProposalType}
    {title description executionPayload : Bytes} {category : ProposalCategory} {quadratic : Bool}
    {n : Nat} (hw : w.docket.WellFormed)
    (h : createProposal auth proposer proposalType title description executionPayload category
      quadratic w = (.ok n, w')) :
    DocketMove w (.createProposal proposer proposalType title description executionPayload category
      quadratic) w'.docket := by
  simp [createProposal, Proposals.createProposal] at h
  obtain ⟨-, -, -, _, w₁, hlock, ⟨_, hrep⟩, -⟩ := h
  rw [Reputation.recordProposalCreation] at hrep
  rw [docket_of_reputation inferInstance hrep]
  obtain ⟨hle, hd⟩ := lockProposalDeposit_ok hlock (hw.add rfl _)
  exact .create rfl hle hd

theorem castVote_move {voter : Address} {voteType : VoteType}
    (h : castVote auth id voter voteType w = (.ok u, w')) :
    DocketMove w (.castVote id voter voteType) w'.docket := by
  simp [castVote, Proposals.castVote] at h
  obtain ⟨-, -, p, power, ⟨-, hp, ⟨_, hv⟩, hpower, hsum, -⟩, _, hrep⟩ := h
  rw [docket_of_reputation inferInstance hrep]
  exact .vote hp hv hpower (checkedAddR_ok.mpr ⟨hsum.1, hsum.2, rfl⟩) rfl

theorem castReputationWeightedVote_move {voter : Address} {voteType : VoteType}
    (h : castReputationWeightedVote auth id voter voteType w = (.ok u, w')) :
    DocketMove w (.castReputationWeightedVote id voter voteType) w'.docket := by
  simp [castReputationWeightedVote] at h
  obtain ⟨-, -, p, hp, ⟨_, hv⟩, power, hpower, -, hrep⟩ := h
  have hs : SameOutside [.reputation] _ w' := Tx.Within.of_run inferInstance hrep
  rw [docket_of_sameOutside hs (by simp) (by simp)]
  exact .reputationVote hp hv hpower rfl

theorem referenceSupply_ok {supply : Int} (h : referenceSupply p w = (.ok supply, w')) : w' = w := by
  unfold referenceSupply at h
  split at h
  · simp at h
    exact h.2.symm
  · simp at h
    exact h.2.2.symm

theorem outcome_cases (p : Proposal) (supply : Int) (quorumBps approvalBps : Nat) :
    outcome p supply quorumBps approvalBps = .succeeded ∨ outcome p supply quorumBps approvalBps = .failed := by
  simp only [outcome]
  split
  · exact .inl rfl
  · exact .inr rfl

/-- The decision, with the execution where there is no delay. -/
theorem finalizeProposal_decided {status : ProposalStatus} (hw : w.docket.WellFormed)
    (h : Proposals.finalizeProposal auth id w = (.ok status, w')) :
    ∃ p, w.docket.proposals.lookup id = some p ∧ (p.status = .pending ∨ p.status = .active) ∧
      (status = .succeeded ∨ status = .failed) ∧
      (w'.docket = w.docket.put (p.withStatus status) ∨
        w.store.config.governanceConfig.executionDelay = 0 ∧
          Executed (w.docket.put (p.withStatus status)) (p.withStatus status) w'.docket) ∧
      w'.store.core = w.store.core := by
  simp only [Proposals.finalizeProposal, bind_ok, getProposal_ok, timestamp_ok, failIf_ok,
    load_ok, putProposal_ok] at h
  obtain ⟨p, _, ⟨hp, rfl⟩, _, _, ⟨rfl, rfl⟩, _, _, ⟨-, rfl⟩, _, _, ⟨hopen, rfl⟩, _, _, ⟨rfl, rfl⟩,
    supply, w₁, hsupply, _, w₂, ⟨-, hput⟩, h⟩ := h
  obtain rfl := referenceSupply_ok hsupply
  have hcases := outcome_cases p supply (resolveCategoryThresholds w₁.store.config p.category).1
    (resolveCategoryThresholds w₁.store.config p.category).2
  generalize outcome p supply (resolveCategoryThresholds w₁.store.config p.category).1
    (resolveCategoryThresholds w₁.store.config p.category).2 = decided at hput h hcases
  have hd : w₂.docket = w₁.docket.put (p.withStatus decided) := by rw [← hput]; rfl
  have hw₂ : w₂.docket.WellFormed := by rw [hd]; exact hw.put hp rfl
  have hcore : w₂.store.core = w₁.store.core := by rw [← hput]; rfl
  refine ⟨p, hp, by tauto, ?_⟩
  split at h
  · rename_i hdelay
    simp [attempt_ok] at h
    obtain ⟨⟨_, ⟨_, -, hexec⟩ | ⟨_, -, hexec⟩⟩, rfl⟩ := h
    · have hs : SameOutside executionRegions w₂ w' := Tx.Within.of_run inferInstance hexec
      have hcore' := hs.same .core (by simp)
      obtain ⟨q, hq, hexec⟩ := executeProposal_ok hexec
      have hq' : q = p.withStatus decided := by
        rw [hd, ← hw.keyed id p hp] at hq
        exact Option.some.inj (hq.symm.trans (AList.lookup_insert _))
      rw [hd, hq'] at hexec
      exact ⟨hcases, .inr ⟨hdelay.2, hexec⟩, hcore'.trans hcore⟩
    · have hs : SameOutside executionRegions w₂ w' := Tx.Within.of_run inferInstance hexec
      have hcore' := hs.same .core (by simp)
      exact ⟨hcases, .inl ((executeProposal_error hw₂ hexec).trans hd), hcore'.trans hcore⟩
  · simp at h
    obtain ⟨rfl, rfl⟩ := h
    exact ⟨hcases, .inl hd, hcore⟩

theorem finalizeProposal_move {status : ProposalStatus} (hw : w.docket.WellFormed)
    (h : finalizeProposal auth id w = (.ok status, w')) :
    DocketMove w (.finalizeProposal id) w'.docket := by
  simp [finalizeProposal] at h
  obtain ⟨-, -, w₁, hdecide, _, w₂, hrep, q, hq, _, hsettle⟩ := h
  obtain ⟨p, hp, hopen, hstatus, hexec, hcore⟩ := finalizeProposal_decided hw hdecide
  have hs : SameOutside [.reputation] w₁ w₂ := Tx.Within.of_run inferInstance hrep
  have hcore₂ := hs.same .core (by simp)
  simp only [Region.read] at hcore₂
  have hd := docket_of_sameOutside hs (by simp) (by simp)
  have hput : (w.docket.put (p.withStatus status)).proposals.lookup id = some (p.withStatus status) := by
    rw [← hw.keyed id p hp]
    exact AList.lookup_insert _
  have hput_wf : (w.docket.put (p.withStatus status)).WellFormed := hw.put hp rfl
  have hsame : w₁.docket.WellFormed ∧ q.proposer = p.proposer := by
    change w₂.docket.proposals.lookup id = some q at hq
    rw [hd] at hq
    rcases hexec with heq | ⟨-, hexec⟩
    · rw [heq] at hq ⊢
      rw [hput] at hq
      cases hq
      exact ⟨hput_wf, rfl⟩
    · have hw₁ := hput_wf.executed hput hexec
      obtain ⟨t, -, heq⟩ := hexec.effect
      rw [heq, ← hw.keyed id p hp] at hq
      rw [Option.some.inj (hq.symm.trans (AList.lookup_insert _))]
      exact ⟨hw₁, rfl⟩
  have hsettled := settleProposalDeposit_settled (by rw [hd]; exact hsame.1) hsettle
  rw [hd, hcore₂, hcore, hsame.2] at hsettled
  exact .finalize hp hopen hstatus hexec hsettled

theorem withdrawProposal_move {proposer : Address} {status : ProposalStatus}
    (hw : w.docket.WellFormed) (h : withdrawProposal auth id proposer w = (.ok status, w')) :
    DocketMove w (.withdrawProposal id proposer) w'.docket := by
  simp only [withdrawProposal, Proposals.withdrawProposal, bind_ok, requireInitialized_ok,
    requireNotPaused_ok, requireAuth_ok, getProposal_ok, failIf_ok, putProposal_ok, load_ok] at h
  obtain ⟨_, _, ⟨-, rfl⟩, _, _, ⟨-, rfl⟩, _, _, ⟨-, rfl⟩, p, _, ⟨hp, rfl⟩, _, _, ⟨hproposer, rfl⟩, _, _,
    ⟨-, rfl⟩, _, _, ⟨hstatus, rfl⟩, _, w₁, ⟨-, hput⟩, config, _, ⟨hconfig, rfl⟩, locked, _,
    ⟨hlocked, rfl⟩, h⟩ := h
  rw [not_not] at hproposer hstatus
  subst hproposer
  refine .withdraw hp hstatus ?_
  have hd : w₁.docket = w.docket.put (p.withStatus .withdrawn) := by rw [← hput]; rfl
  have hw₁ : w₁.docket.WellFormed := by rw [hd]; exact hw.put hp rfl
  rw [← hd]
  split at h
  · rename_i hrefund
    have hl : w₁.docket.locked.lookup id = some p.proposer := hlocked.trans hrefund.2
    subst hconfig
    simp [removeLock, attempt_ok] at h
    obtain ⟨_, w₂, hcredit, -, rfl⟩ := h
    rcases hcredit with ⟨_, -, hcredit⟩ | ⟨_, -, hcredit⟩
    · obtain ⟨hroom, hd₂⟩ := creditDeposit_ok hcredit
      have hpaid : Refunded w₁.docket id p.proposer (w₂.docket.release id) := by
        rw [hd₂]
        exact .paid hl hroom
      exact hpaid
    · obtain ⟨hroom, hd₂⟩ := creditDeposit_error hw₁ hcredit
      have hlost : Refunded w₁.docket id p.proposer (w₂.docket.release id) := by
        rw [hd₂]
        exact .lost hl hroom
      exact hlost
  · rename_i hno
    simp at h
    obtain ⟨-, rfl⟩ := h
    refine .none fun hl => hno ⟨?_, hlocked.symm.trans hl⟩
    rw [← hconfig]
    exact hw₁.deposit

theorem cancelProposal_move {canceller : Address} {status : ProposalStatus}
    (h : cancelProposal auth id canceller w = (.ok status, w')) :
    DocketMove w (.cancelProposal id canceller) w'.docket := by
  simp [cancelProposal, Proposals.cancelProposal] at h
  obtain ⟨-, -, p, hp, _, -, -, hstatus, ⟨-, rfl⟩, -⟩ := h
  exact .cancel hp hstatus rfl

theorem cancelQueuedAction_move {actionId : Nat} {canceller : Address}
    (h : cancelQueuedAction auth actionId canceller w = (.ok u, w')) :
    DocketMove w (.cancelQueuedAction actionId canceller) w'.docket := by
  simp [cancelQueuedAction, Timelock.cancelQueuedAction] at h
  obtain ⟨-, -, timelock, ht, _, -, -, a, ha, ⟨hexecuted, hcancelled⟩, p, hp, -, rfl⟩ := h
  have hqueue : w.docket.queue = timelock.queuedActions := by simp [World.docket, ht]
  refine .cancelQueued (by rw [hqueue]; exact ha) hexecuted hcancelled hp ?_
  rw [hqueue]
  rfl

theorem reclaimExpiredProposal_removed {caller : Address}
    (h : reclaimExpiredProposal auth id caller w = (.ok u, w')) : Removed w.docket w'.docket := by
  simp [reclaimExpiredProposal, Proposals.reclaimExpiredProposal] at h
  obtain ⟨-, -, -, p, hp, hstatus, hdue, rfl⟩ := h
  refine ⟨rfl, fun i => ?_⟩
  by_cases hi : i = id
  · subst hi
    refine .inr ⟨AList.lookup_erase _ _, p, hp, ?_⟩
    by_cases hsucceeded : p.status = .succeeded
    · have hexpired : Proposals.effectiveStatus w.docket.now p = .expired := if_pos ⟨hsucceeded, hdue⟩
      rw [hexpired]
      rfl
    · have hsame : Proposals.effectiveStatus w.docket.now p = p.status :=
        if_neg fun h => hsucceeded h.1
      rw [hsame, hstatus hsucceeded]
      rfl
  · exact .inl (AList.lookup_erase_ne hi)

/-- What a cleanup removes is over. -/
theorem cleanupFrom_removed {now limit n : Nat} {proposals proposals' : Store Nat Proposal}
    {ids ids' : List Nat}
    (h : Proposals.cleanupFrom now limit proposals ids = .ok (proposals', ids', n)) (i : Nat) :
    proposals'.lookup i = proposals.lookup i ∨
      proposals'.lookup i = none ∧ ∃ p, proposals.lookup i = some p ∧
        (Proposals.effectiveStatus now p).terminal = true := by
  induction ids generalizing limit proposals proposals' ids' n with
  | nil =>
    cases limit <;> simp [Proposals.cleanupFrom] at h <;> exact .inl (by rw [h.1])
  | cons id ids ih =>
    cases limit with
    | zero => simp [Proposals.cleanupFrom] at h; exact .inl (by rw [h.1])
    | succ limit =>
      simp only [Proposals.cleanupFrom, Res.bind_ok, Res.ofOption_ok] at h
      obtain ⟨p, hp, h⟩ := h
      split at h
      · rename_i hterminal
        simp only [Res.bind_ok, Res.pure_ok] at h
        obtain ⟨⟨proposals₁, ids₁, removed⟩, hrest, heq⟩ := h
        cases heq
        rcases ih hrest with hkeep | ⟨hnone, q, hq, hend⟩
        · rw [hkeep, Store.lookup_erase_eq]
          by_cases hi : i = id
          · rw [if_pos hi, hi]
            exact .inr ⟨rfl, p, hp, hterminal⟩
          · rw [if_neg hi]
            exact .inl rfl
        · rw [Store.lookup_erase_eq] at hq
          split at hq
          · cases hq
          · exact .inr ⟨hnone, q, hq, hend⟩
      · simp only [Res.bind_ok, Res.pure_ok] at h
        obtain ⟨⟨proposals₁, ids₁, removed⟩, hrest, heq⟩ := h
        cases heq
        exact ih hrest

theorem cleanupProposals_removed {cursor limit n : Nat}
    (h : cleanupProposals cursor limit w = (.ok n, w')) : Removed w.docket w'.docket := by
  simp [cleanupProposals, Proposals.cleanupTerminalProposals] at h
  obtain ⟨-, -, proposals, ids, hfrom, rfl⟩ := h
  exact ⟨rfl, cleanupFrom_removed hfrom⟩

theorem queueAction_move {n : Nat} (h : queueAction id w = (.ok n, w')) :
    DocketMove w (.queueAction id) w'.docket := by
  simp [queueAction, Timelock.queueAction] at h
  obtain ⟨-, -, p, hp, hstatus, timelock, ht, hnone, -, rfl⟩ := h
  have hqueue : w.docket.queue = timelock.queuedActions := by simp [World.docket, ht]
  refine .queue hp hstatus ?_ rfl (by rw [hqueue]; rfl)
  rintro actionId ⟨a, ha, hexecuted, hcancelled, -, hid⟩
  rw [hqueue] at ha
  rw [hnone a ha hid hexecuted] at hcancelled
  cases hcancelled

end Parts

/-! ## Calls -/

section Calls

variable {w w' : World} {auth : Auth} {c : Call} {rs : List Region}

theorem initializeGovernance_move {admin : Address} {name symbol : Bytes} {decimals : Nat}
    {totalSupply : Int} {recipients : DistributionRecipients}
    (h : initializeGovernance auth admin name symbol decimals totalSupply recipients w = (.ok (), w')) :
    DocketMove w (.initializeGovernance admin name symbol decimals totalSupply recipients) w'.docket := by
  obtain ⟨⟨-, hi, -⟩, _, w₁, hdist, rfl⟩ := initializeGovernance_ok.mp h
  refine .restart hi ?_
  have hs : SameOutside [.token] _ w₁ := Tx.Within.of_run inferInstance hdist
  have hd := docket_of_token hs (by simp)
  have hd' : World.docket { w₁ with store := w₁.store.started recipients } =
      { w₁.docket with token := (w₁.store.started recipients).token } := rfl
  rw [hd', hd]
  rfl

/-- A call that writes no proposal, no deposit and no log, and adds to the queue nothing that is about
a proposal. -/
theorem quiet_of_sameOutside (h : SameOutside rs w w')
    (hr : ∀ r ∈ [Region.depositConfig, .proposal, .snapshots, .deposit, .log], r ∉ rs)
    (hqueue : ∀ a ∈ w'.docket.queue, a.proposalId = 0 ∨ ∃ b ∈ w.docket.queue, b.id = a.id ∧
      b.proposalId = a.proposalId ∧ b.executed = a.executed ∧ b.cancelled = a.cancelled) :
    Quiet w.docket w'.docket := by
  have hdeposit := h.same .depositConfig (hr _ (by simp))
  have hp := h.same .proposal (hr _ (by simp))
  have hs := h.same .snapshots (hr _ (by simp))
  have hd := h.same .deposit (hr _ (by simp))
  have hl := h.same .log (hr _ (by simp))
  simp only [Region.read] at hdeposit hp hs hd hl
  constructor
  case proposals => simp only [World.docket, hp]
  case nextId => simp only [World.docket, hp]
  case snapshots => exact hs
  case locked => exact (Prod.mk.inj hd).1
  case held => exact (Prod.mk.inj hd).2
  case log => exact hl
  case deposit => simp only [World.docket, hdeposit]; exact id
  case waiting =>
    rintro actionId id hid ⟨a, ha, hexecuted, hcancelled, rfl, rfl⟩
    rcases hqueue a ha with h0 | ⟨b, hb, h1, h2, h3, h4⟩
    · omega
    · exact ⟨b, hb, h3.trans hexecuted, h4.trans hcancelled, h1, h2⟩

theorem quiet_of_same_queue (h : SameOutside rs w w')
    (hr : ∀ r ∈ [Region.depositConfig, .proposal, .snapshots, .deposit, .log], r ∉ rs)
    (hqueue : w'.docket.queue = w.docket.queue) : Quiet w.docket w'.docket :=
  quiet_of_sameOutside h hr fun a ha => .inr ⟨a, hqueue ▸ ha, rfl, rfl, rfl, rfl⟩

/-- A call whose footprint does not meet the docket. -/
theorem docketMove_of_footprint (h : invoke auth c w = (.ok (), w'))
    (hr : ∀ r ∈ [Region.timelock, .depositConfig, .proposal, .snapshots, .deposit, .log], r ∉ c.footprint) :
    DocketMove w c w'.docket := by
  have hs := (invoke_writes auth c).of_run h
  obtain ⟨htimelock, hrest⟩ := List.forall_mem_cons.mp hr
  have htimelock := hs.same .timelock htimelock
  simp only [Region.read] at htimelock
  exact .other (hrest .log (by decide)) (quiet_of_same_queue hs hrest (by simp only [World.docket, htimelock]))

theorem updateTimelockDelay_queue {actionType : ActionType} {delay : Nat} {u : Unit}
    (h : Timelock.updateTimelockDelay actionType delay w = (.ok u, w')) :
    w'.docket.queue = w.docket.queue := by
  simp [Timelock.updateTimelockDelay] at h
  obtain ⟨timelock, ht, -, rfl⟩ := h
  simp [World.docket, ht]

/-- An action of the administrator leaves the queue as it is. -/
theorem perform_queue {action : AdminAction} {caller : Address}
    (h : action.perform auth caller w = (.ok (), w')) : w'.docket.queue = w.docket.queue := by
  cases action
  case updateTimelockDelay => exact updateTimelockDelay_queue h
  all_goals
    have ht := ((writes_perform _).of_run h).same .timelock (by simp [AdminAction.footprint])
    simp only [Region.read] at ht
    simp only [World.docket, ht]

/-! The calls that execute a proposal or an entry of the queue. -/

theorem executeProposal_move {proposalId : Nat} {executor : Address} {status : ProposalStatus}
    (h : executeProposal auth proposalId executor w = (.ok status, w')) :
    DocketMove w (.executeProposal proposalId executor) w'.docket := by
  simp [executeProposal] at h
  obtain ⟨p, hp, hexec⟩ := executeProposal_ok h.2.2
  exact .execute hp hexec

theorem executeQueuedAction_move {actionId : Nat} {executor : Address} (hw : w.docket.WellFormed)
    (h : executeQueuedAction auth actionId executor w = (.ok (), w')) :
    DocketMove w (.executeQueuedAction actionId executor) w'.docket := by
  simp [executeQueuedAction] at h
  obtain ⟨a, p, t, hrun⟩ := executeQueuedAction_ok hw h.2.2
  exact .run (.run hrun (.nil _))

theorem executeMultipleActions_move {actionIds executed : List Nat} {executor : Address} (hw : w.docket.WellFormed)
    (h : executeMultipleActions auth actionIds executor w = (.ok executed, w')) :
    DocketMove w (.executeMultipleActions actionIds executor) w'.docket := by
  simp [executeMultipleActions, Timelock.executeMultipleActions] at h
  exact .run (executeEach_runs hw h.2.2.2.2)

theorem emergencyExecute_move {actionId : Nat} {guardian : Address} (hw : w.docket.WellFormed)
    (h : emergencyExecute auth actionId guardian w = (.ok (), w')) :
    DocketMove w (.emergencyExecute actionId guardian) w'.docket := by
  simp [emergencyExecute, Timelock.emergencyExecute] at h
  obtain ⟨-, -, timelock, ht, -, a, ha, -, ⟨hexecuted, hcancelled⟩, h⟩ := h
  obtain ⟨p, t, hrun⟩ := runEntry_ok hw ht ha hexecuted hcancelled h
  exact .run (.run hrun (.nil _))

theorem emergencyUnblockAction_move {actionId : Nat} {guardian : Address} (hw : w.docket.WellFormed)
    (h : emergencyUnblockAction auth actionId guardian w = (.ok (), w')) :
    DocketMove w (.emergencyUnblockAction actionId guardian) w'.docket := by
  simp [emergencyUnblockAction, Timelock.emergencyUnblockAction] at h
  obtain ⟨-, -, timelock, ht, -, a, ha, ⟨hexecuted, hcancelled⟩, -, h⟩ := h
  obtain ⟨p, t, hrun⟩ := runEntry_ok hw ht ha hexecuted hcancelled h
  exact .run (.run hrun (.nil _))

/-! The calls of the administrator and of the guardian: the queue at most gets entries that are about no proposal. -/

theorem setDepositConfig_move {admin : Address} {config : DepositConfig}
    (h : setDepositConfig auth admin config w = (.ok (), w')) :
    DocketMove w (.setDepositConfig admin config) w'.docket := by
  simp [setDepositConfig] at h
  obtain ⟨-, -, -, ⟨hpos, -⟩, rfl⟩ := h
  exact .other (of_decide_eq_true rfl) ⟨rfl, rfl, rfl, rfl, rfl, rfl, fun _ => hpos, fun _ _ _ hwait => hwait⟩

theorem initializeTimelock_move {admin guardian : Address} {minDelay maxDelay : Nat}
    (h : invoke auth (.initializeTimelock admin minDelay maxDelay guardian) w = (.ok (), w')) :
    DocketMove w (.initializeTimelock admin minDelay maxDelay guardian) w'.docket := by
  refine .other (of_decide_eq_true rfl)
    (quiet_of_sameOutside ((invoke_writes _ _).of_run h) (of_decide_eq_true rfl) ?_)
  simp [invoke, initializeTimelock, Timelock.initializeTimelock, writeGuardian] at h
  obtain ⟨-, -, rfl⟩ := h
  simp [World.docket]

theorem extendExecutionWindow_move {admin : Address} {actionId extensionSeconds : Nat}
    (h : invoke auth (.extendExecutionWindow admin actionId extensionSeconds) w = (.ok (), w')) :
    DocketMove w (.extendExecutionWindow admin actionId extensionSeconds) w'.docket := by
  refine .other (of_decide_eq_true rfl)
    (quiet_of_sameOutside ((invoke_writes _ _).of_run h) (of_decide_eq_true rfl) ?_)
  simp [invoke, extendExecutionWindow, Timelock.extendExecutionWindow] at h
  obtain ⟨-, -, timelock, ht, b, hb, -, rfl⟩ := h
  have hqueue : w.docket.queue = timelock.queuedActions := by simp [World.docket, ht]
  intro a ha
  rw [hqueue]
  rcases Registry.mem_updateFirst ha with ha | ⟨b, hb, rfl⟩
  · exact .inr ⟨a, ha, rfl, rfl, rfl, rfl⟩
  · exact .inr ⟨b, Registry.mem_of_first hb, rfl, rfl, rfl, rfl⟩

theorem queue_move {caller : Address} {request : AdminRequest}
    (h : invoke auth (.queue caller request) w = (.ok (), w')) :
    DocketMove w (.queue caller request) w'.docket := by
  refine .other (of_decide_eq_true rfl)
    (quiet_of_sameOutside ((invoke_writes _ _).of_run h) (of_decide_eq_true rfl) ?_)
  obtain ⟨_, h⟩ := Tx.void_ok.mp h
  obtain ⟨timelock, ht, -, rfl⟩ := Timelock.queueAdminAction_ok.mp (invokeQueue_ok h)
  have hqueue : w.docket.queue = timelock.queuedActions := by simp [World.docket, ht]
  intro a ha
  rw [hqueue]
  rcases List.mem_append.mp ha with ha | ha
  · exact .inr ⟨a, ha, rfl, rfl, rfl, rfl⟩
  · exact .inl (by rw [List.mem_singleton.mp ha])

theorem direct_move {caller : Address} {action : AdminAction}
    (h : invoke auth (.direct caller action) w = (.ok (), w')) :
    DocketMove w (.direct caller action) w'.docket := by
  cases action
  case updateTimelockDelay =>
    refine .other (of_decide_eq_true rfl)
      (quiet_of_same_queue ((invoke_writes _ _).of_run h) (of_decide_eq_true rfl) ?_)
    simp [invoke, invokeDirect, updateTimelockDelay] at h
    exact updateTimelockDelay_queue h.2.2
  all_goals exact docketMove_of_footprint h (of_decide_eq_true rfl)

theorem timelocked_move {caller : Address} {actionId : Nat} {action : AdminAction}
    (h : invoke auth (.timelocked caller actionId action) w = (.ok (), w')) :
    DocketMove w (.timelocked caller actionId action) w'.docket := by
  have hrest : ∀ r ∈ [Region.depositConfig, .proposal, .snapshots, .deposit, .log],
      r ∉ (Call.timelocked caller actionId action).footprint := by
    cases action <;> exact of_decide_eq_true rfl
  obtain ⟨-, entry, -, hx⟩ := invokeTimelocked_ok h
  have hqueue := perform_queue hx
  exact .other (hrest .log (by decide)) (quiet_of_same_queue ((invoke_writes _ _).of_run h) hrest hqueue)

/-- Every call that returned is one of the moves. -/
theorem docketMove_of_call (hw : w.docket.WellFormed) (h : invoke auth c w = (.ok (), w')) :
    DocketMove w c w'.docket := by
  cases c
  case initializeGovernance => exact initializeGovernance_move h
  case castVote => exact castVote_move h
  case castReputationWeightedVote => exact castReputationWeightedVote_move h
  case reclaimExpiredProposal => exact .remove (reclaimExpiredProposal_removed h)
  case cancelQueuedAction => exact cancelQueuedAction_move h
  case executeQueuedAction => exact executeQueuedAction_move hw h
  case emergencyExecute => exact emergencyExecute_move hw h
  case emergencyUnblockAction => exact emergencyUnblockAction_move hw h
  case setDepositConfig => exact setDepositConfig_move h
  case initializeTimelock => exact initializeTimelock_move h
  case extendExecutionWindow => exact extendExecutionWindow_move h
  case queue => exact queue_move h
  case direct => exact direct_move h
  case timelocked => exact timelocked_move h
  -- These return a value, which the interface drops.
  case createProposal =>
    obtain ⟨_, h⟩ := Tx.void_ok.mp h
    exact createProposal_move hw h
  case finalizeProposal =>
    obtain ⟨_, h⟩ := Tx.void_ok.mp h
    exact finalizeProposal_move hw h
  case executeProposal =>
    obtain ⟨_, h⟩ := Tx.void_ok.mp h
    exact executeProposal_move h
  case cancelProposal =>
    obtain ⟨_, h⟩ := Tx.void_ok.mp h
    exact cancelProposal_move h
  case withdrawProposal =>
    obtain ⟨_, h⟩ := Tx.void_ok.mp h
    exact withdrawProposal_move hw h
  case cleanupProposals =>
    obtain ⟨_, h⟩ := Tx.void_ok.mp h
    exact .remove (cleanupProposals_removed h)
  case queueAction =>
    obtain ⟨_, h⟩ := Tx.void_ok.mp h
    exact queueAction_move h
  case executeMultipleActions =>
    obtain ⟨_, h⟩ := Tx.void_ok.mp h
    exact executeMultipleActions_move hw h
  all_goals exact docketMove_of_footprint h (of_decide_eq_true rfl)

end Calls

/-! ## Runs -/

/-- A step is a move by a call, or leaves the proposals, the deposits and the log alone. -/
theorem docket_step {w w' : World} {ev : Event} (hw : w.docket.WellFormed) (h : Step w ev w') :
    (∃ auth c, ev = .call auth c ∧ DocketMove w c w'.docket) ∨ Quiet w.docket w'.docket := by
  have hrefl : ∀ d : Docket, Quiet d d := fun _ =>
    ⟨rfl, rfl, rfl, rfl, rfl, rfl, fun h => h, fun _ _ _ h => h⟩
  rcases h.cases with ⟨auth, c, rfl, hc⟩ | ⟨auth, c, rfl, rfl⟩ | ⟨l, rfl, -, rfl⟩ |
    ⟨t, c, r, m, rfl, rfl⟩
  · exact .inl ⟨auth, c, rfl, docketMove_of_call hw hc⟩
  · exact .inr (hrefl _)
  · exact .inr ⟨rfl, rfl, rfl, rfl, rfl, rfl, fun h => h, fun _ _ _ h => h⟩
  · exact .inr ⟨rfl, rfl, rfl, rfl, rfl, rfl, fun h => h, fun _ _ _ h => h⟩

theorem wellFormed_start (ledger : Ledger) : (World.deployed ledger).docket.WellFormed where
  keyed := by simp [World.docket, World.deployed, Storage.deployed, emptyProposalsState]
  kept := by simp [World.docket, World.deployed, Storage.deployed, emptyProposalsState]
  pos := by simp [World.docket, World.deployed, Storage.deployed]
  nextId := Nat.one_pos
  held := by simp [World.docket, World.deployed, Storage.deployed]
  locked := by simp [World.docket, World.deployed, Storage.deployed]
  deposit := show 0 < DepositConfig.defaultConfig.amount by decide

theorem wellFormed_step {w w' : World} {ev : Event} (hw : w.docket.WellFormed) (h : Step w ev w') :
    w'.docket.WellFormed := by
  rcases docket_step hw h with ⟨_, _, -, hm⟩ | hq
  · exact hw.move hm
  · exact hw.quiet hq

/-- A list of events that are allowed and meet `C` where their turn comes is a run that meets `C`. -/
theorem reaches_run {C : World → Event → Prop} {w : World} {evs : List Event}
    (h : Reaches.Along next (fun w ev => C w ev ∧ Allowed w ev) w evs) :
    Reaches (fun w ev w' => C w ev ∧ Step w ev w') w (run w evs) :=
  (Reaches.of_along h).mono fun _ _ _ ⟨⟨hC, ha⟩, he⟩ => ⟨hC, ha, he⟩

/-- An invariant of the docket that every move keeps under a condition `C` holds after every run whose
events meet `C`. -/
theorem docket_invariant {I : Docket → Prop} {C : World → Event → Prop} {ledger : Ledger} {w : World}
    (h : Reaches (fun w ev w' => C w ev ∧ Step w ev w') (World.deployed ledger) w)
    (h0 : I (World.deployed ledger).docket)
    (hmove : ∀ w auth c d', w.docket.WellFormed → I w.docket → C w (.call auth c) → DocketMove w c d' → I d')
    (hquiet : ∀ d d', I d → Quiet d d' → I d') : w.docket.WellFormed ∧ I w.docket := by
  refine h.invariant (I := fun w => w.docket.WellFormed ∧ I w.docket)
    ⟨wellFormed_start ledger, h0⟩ ?_
  rintro a ev b ⟨hwf, hI⟩ ⟨hC, hs⟩
  refine ⟨wellFormed_step hwf hs, ?_⟩
  rcases docket_step hwf hs with ⟨auth, c, rfl, hm⟩ | hq
  · exact hmove a auth c _ hwf hI hC hm
  · exact hquiet _ _ hI hq

end CallStake.Governance
