import CallStake.Governance.Tally

/-!
# The verdict of a vote

`finalize_proposal` compares the turnout with a part of the supply, and the approval with a part of the
votes cast. All four sides are saturating products.

* `ExactlyPassed`: the two comparisons in exact arithmetic.
* `Saturated`: a comparison only holds because its products are at their bound.
* `tallies_nonneg`: no tally of a reachable state is negative.
* `verdict_exact_iff`: the verdict is the exact one, except where a comparison that fails is saturated.
* `verdict_of_small`: it is the exact one while ten thousand times the turnout is in range.
-/

namespace CallStake.Governance

/-! ## Verdicts -/

/-- The votes of a proposal, exactly. -/
def Proposal.turnout (p : Proposal) : Int := p.votesFor + p.votesAgainst + p.votesAbstain

/-- The vote passes in exact arithmetic. -/
structure ExactlyPassed (p : Proposal) (supply : Int) (quorumBps approvalBps : Nat) : Prop where
  quorum : supply * quorumBps ≤ p.turnout * 10000
  cast : 0 < p.votesFor + p.votesAgainst
  approval : (p.votesFor + p.votesAgainst) * approvalBps ≤ p.votesFor * 10000

instance (p : Proposal) (supply : Int) (q a : Nat) : Decidable (ExactlyPassed p supply q a) :=
  decidable_of_iff (supply * q ≤ p.turnout * 10000 ∧ 0 < p.votesFor + p.votesAgainst ∧
    (p.votesFor + p.votesAgainst) * a ≤ p.votesFor * 10000)
    ⟨fun ⟨h₁, h₂, h₃⟩ => ⟨h₁, h₂, h₃⟩, fun ⟨h₁, h₂, h₃⟩ => ⟨h₁, h₂, h₃⟩⟩

/-- Each comparison holds exactly, or ten thousand times its votes are out of range; and one of them does
not hold exactly. -/
structure Saturated (p : Proposal) (supply : Int) (quorumBps approvalBps : Nat) : Prop where
  quorum : supply * quorumBps ≤ p.turnout * 10000 ∨ i128Max ≤ p.turnout * 10000
  cast : 0 < p.votesFor + p.votesAgainst
  approval : (p.votesFor + p.votesAgainst) * approvalBps ≤ p.votesFor * 10000 ∨ i128Max ≤ p.votesFor * 10000
  wrong : ¬ ExactlyPassed p supply quorumBps approvalBps

section Outcome

variable {p : Proposal} {supply : Int} {quorumBps approvalBps : Nat}

theorem outcome_succeeded (hp : ∀ t, 0 ≤ p.tally t) (hs : 0 ≤ supply) :
    outcome p supply quorumBps approvalBps = .succeeded ↔
      (supply * quorumBps ≤ p.turnout * 10000 ∨ i128Max ≤ p.turnout * 10000) ∧
      0 < p.votesFor + p.votesAgainst ∧
      ((p.votesFor + p.votesAgainst) * approvalBps ≤ p.votesFor * 10000 ∨ i128Max ≤ p.votesFor * 10000) := by
  have hfor : 0 ≤ p.votesFor := hp .inFavor
  have hagainst : 0 ≤ p.votesAgainst := hp .against
  have habstain : 0 ≤ p.votesAbstain := hp .abstain
  have hcast : 0 ≤ p.votesFor + p.votesAgainst := by omega
  have hturnout : 0 ≤ p.turnout := by
    unfold Proposal.turnout
    omega
  have htotal : p.totalVotes = clamp p.turnout := clamp_add hfor hagainst habstain
  have hq : saturatingMul supply quorumBps ≤ saturatingMul p.totalVotes BPS_DENOMINATOR ↔
      supply * quorumBps ≤ p.turnout * 10000 ∨ i128Max ≤ p.turnout * 10000 := by
    have hmul : saturatingMul p.totalVotes BPS_DENOMINATOR = clamp (p.turnout * 10000) := by
      rw [htotal]
      exact clamp_mul hturnout 10000
    rw [hmul]
    exact clamp_le_clamp (Int.mul_nonneg hs (Int.natCast_nonneg _)) (by omega)
  have hpos : 0 < saturatingAdd p.votesFor p.votesAgainst ↔ 0 < p.votesFor + p.votesAgainst := clamp_pos hcast
  have ha : saturatingMul (saturatingAdd p.votesFor p.votesAgainst) approvalBps ≤
      saturatingMul p.votesFor BPS_DENOMINATOR ↔
      (p.votesFor + p.votesAgainst) * approvalBps ≤ p.votesFor * 10000 ∨ i128Max ≤ p.votesFor * 10000 := by
    have hmul : saturatingMul (saturatingAdd p.votesFor p.votesAgainst) approvalBps =
        clamp ((p.votesFor + p.votesAgainst) * approvalBps) := clamp_mul hcast approvalBps
    rw [hmul]
    exact clamp_le_clamp (Int.mul_nonneg hcast (Int.natCast_nonneg _)) (by simp only [BPS_DENOMINATOR]; omega)
  simp only [outcome, hq, hpos, ha, ite_eq_left_iff, reduceCtorEq, imp_false, not_not]

/-- The verdict is the exact one unless it is saturated. -/
theorem outcome_exact_iff (hp : ∀ t, 0 ≤ p.tally t) (hs : 0 ≤ supply) :
    (outcome p supply quorumBps approvalBps = .succeeded ↔
      ExactlyPassed p supply quorumBps approvalBps) ↔ ¬ Saturated p supply quorumBps approvalBps := by
  rw [outcome_succeeded hp hs]
  constructor
  · intro h hsat
    exact hsat.wrong (h.mp ⟨hsat.quorum, hsat.cast, hsat.approval⟩)
  · intro h
    constructor
    · rintro ⟨hq, hc, ha⟩
      by_contra hw
      exact h ⟨hq, hc, ha, hw⟩
    · rintro ⟨hq, hc, ha⟩
      exact ⟨.inl hq, hc, .inl ha⟩

end Outcome

/-! ## Tallies are not negative -/

/-- No tally of a stored proposal is negative. -/
def Docket.TalliesNonneg (d : Docket) : Prop := ∀ id p, d.proposals.lookup id = some p → ∀ t, 0 ≤ p.tally t

theorem reputationPower_nonneg {raw power : Int} {score : Nat}
    (h : reputationPower raw score = .ok power) : 0 ≤ power := by
  simp only [reputationPower, Res.bind_ok, Res.failIf_ok, checkedMulR_ok, Res.pure_ok] at h
  obtain ⟨_, hpos, _, ⟨-, -, rfl⟩, rfl⟩ := h
  have hprod : 0 ≤ raw * ((u32Add 10000 (score / 2) : Nat) : Int) := Int.mul_nonneg (by omega) (Int.natCast_nonneg _)
  exact Int.tdiv_nonneg hprod (by decide)

namespace Docket.TalliesNonneg

variable {d d' : Docket} {p : Proposal} {id : Nat} {v : Vote} {sum : Int}

theorem same (h : d.TalliesNonneg) (hs : SameBallots d d') : d'.TalliesNonneg := by
  intro i q hq t
  obtain ⟨q', hq', hb⟩ := hs.ballots i q hq
  have ht : q.tally = q'.tally := congrArg (fun b => b.2.2.1) hb
  rw [ht]
  exact h i q' hq' t

theorem vote (h : d.TalliesNonneg) (hp : d.proposals.lookup id = some p) (hsum : 0 ≤ sum) :
    (d.put (p.addVote v sum)).TalliesNonneg := by
  intro i q hq t
  rw [Docket.put, Store.lookup_insert_eq] at hq
  split at hq
  · cases hq
    rw [Proposal.addVote_tally]
    split
    · exact hsum
    · exact h id p hp t
  · exact h i q hq t

/-- Every move keeps the tallies from being negative. -/
theorem move {w : World} {c : Call} (h : w.docket.TalliesNonneg) (hw : w.docket.WellFormed)
    (hm : DocketMove w c d') : d'.TalliesNonneg := by
  cases hm.ballots hw with
  | same h' => exact h.same h'
  | create hp =>
    subst hp
    intro i q hq t
    simp only [Docket.lock, Docket.add, Store.lookup_insert_eq] at hq
    split at hq
    · cases hq
      cases t <;> exact Int.le_refl 0
    · exact h i q hq t
  | @vote id voter voteType p power sum hp hv hpower hsum =>
    obtain ⟨hpos, rfl⟩ := votePower_ok hpower
    obtain ⟨-, -, rfl⟩ := checkedAddR_ok.mp hsum
    have : 0 ≤ counts p.useQuadraticVoting _ := counts_nonneg hpos
    have := h id p hp voteType
    exact h.vote hp (by omega)
  | @reputationVote id voter voteType p power hp hv hpower =>
    exact h.vote hp (saturatingAdd_bounds (h id p hp voteType) (reputationPower_nonneg hpower)).1
  | restart h' =>
    intro i q hq
    rw [h'] at hq
    cases hq

end Docket.TalliesNonneg

theorem tallies_nonneg {ledger : Ledger} {w : World} (h : Reaches Step (World.deployed ledger) w) :
    w.docket.WellFormed ∧ w.docket.TalliesNonneg := by
  refine docket_invariant (C := fun _ _ => True) (h.mono fun _ _ _ hs => ⟨trivial, hs⟩) ?_
    (fun _ _ _ _ hw hI _ hm => hI.move hw hm) fun d d' hI hq => hI.same (.of_eq hq.proposals hq.snapshots)
  intro i q hq
  cases hq

/-! ## Finalizations -/

section Finalize

variable {w w' : World} {auth : Auth} {id : Nat} {status : ProposalStatus}

theorem referenceSupply_pos {p : Proposal} {supply : Int} (h : referenceSupply p w = (.ok supply, w')) :
    0 < supply := by
  unfold referenceSupply at h
  split at h
  · rename_i hq
    rw [← (Tx.pure_ok.mp h).1]
    exact hq.2
  · simp only [Tx.bind_ok, Tx.failIf_ok, Tx.pure_ok] at h
    obtain ⟨_, _, -, _, _, ⟨hpos, -⟩, rfl, -⟩ := h
    exact Int.not_le.mp hpos

/-- The status that a finalization decides. -/
theorem Proposals.finalizeProposal_status (h : Proposals.finalizeProposal auth id w = (.ok status, w')) :
    ∃ p supply, w.docket.proposals.lookup id = some p ∧ referenceSupply p w = (.ok supply, w) ∧
      status = outcome p supply (resolveCategoryThresholds w.store.config p.category).1
        (resolveCategoryThresholds w.store.config p.category).2 := by
  simp only [Proposals.finalizeProposal, Tx.bind_ok, getProposal_ok, timestamp_ok, Tx.failIf_ok,
    load_ok, putProposal_ok] at h
  obtain ⟨p, _, ⟨hp, rfl⟩, _, _, ⟨rfl, rfl⟩, _, _, ⟨-, rfl⟩, _, _, ⟨-, rfl⟩, _, _, ⟨rfl, rfl⟩,
    supply, w₁, hsupply, _, w₂, ⟨-, hput⟩, h⟩ := h
  obtain rfl := referenceSupply_ok hsupply
  refine ⟨p, supply, hp, hsupply, ?_⟩
  split at h
  · simp only [Tx.bind_ok, Tx.pure_ok] at h
    obtain ⟨_, _, -, hs, -⟩ := h
    exact hs.symm
  · exact (Tx.pure_ok.mp h).1.symm

theorem Settled.proposals {d d' : Docket} {treasury : Address} (h : Settled d id treasury d') :
    d'.proposals = d.proposals := by
  cases h <;> rfl

/-- The status that is stored: the one that was decided, or the execution that followed at once. -/
theorem finalizeProposal_stored (hw : w.docket.WellFormed)
    (h : finalizeProposal auth id w = (.ok status, w')) :
    ∃ p supply q, w.docket.proposals.lookup id = some p ∧ referenceSupply p w = (.ok supply, w) ∧
      status = outcome p supply (resolveCategoryThresholds w.store.config p.category).1
        (resolveCategoryThresholds w.store.config p.category).2 ∧
      w'.docket.proposals.lookup id = some q ∧
      (q.status = status ∨ status = .succeeded ∧ q.status = .executed) := by
  simp [finalizeProposal] at h
  obtain ⟨-, -, w₁, hdecide, _, w₂, hrep, q, hq, _, hsettle⟩ := h
  obtain ⟨p, supply, hp, hsupply, hstatus⟩ := Proposals.finalizeProposal_status hdecide
  obtain ⟨p', hp', -, -, hexec, -⟩ := finalizeProposal_decided hw hdecide
  cases hp.symm.trans hp'
  have hput : (w.docket.put (p.withStatus status)).proposals.lookup id = some (p.withStatus status) := by
    rw [← hw.keyed id p hp]
    exact AList.lookup_insert _
  have hput_wf : (w.docket.put (p.withStatus status)).WellFormed := hw.put hp rfl
  have hs : SameOutside [.reputation] w₁ w₂ := Tx.Within.of_run inferInstance hrep
  have hd := docket_of_sameOutside hs (by simp) (by simp)
  have hw₁ : w₁.docket.WellFormed := by
    rcases hexec with heq | ⟨-, hexec⟩
    · rw [heq]
      exact hput_wf
    · exact hput_wf.executed hput hexec
  have hsettled := settleProposalDeposit_settled (by rw [hd]; exact hw₁) hsettle
  have hsame : w'.docket.proposals = w₁.docket.proposals := by
    rw [← hd]
    exact hsettled.proposals
  refine ⟨p, supply, ?_⟩
  rw [hsame]
  rcases hexec with heq | ⟨-, hexec⟩
  · exact ⟨p.withStatus status, hp, hsupply, hstatus, by rw [heq]; exact hput, .inl rfl⟩
  · obtain ⟨t, -, heq⟩ := hexec.effect
    refine ⟨(p.withStatus status).markExecuted (w.docket.put (p.withStatus status)).now, hp, hsupply,
      hstatus, ?_, .inr ⟨hexec.succeeded, rfl⟩⟩
    rw [heq, ← hw.keyed id p hp]
    exact AList.lookup_insert _

end Finalize

/-- A finalization decides what exact arithmetic decides, unless the verdict is saturated. -/
theorem verdict_exact_iff {ledger : Ledger} {w w' : World} {auth : Auth} {id : Nat}
    {status : ProposalStatus} (hw : Reaches Step (World.deployed ledger) w)
    (h : finalizeProposal auth id w = (.ok status, w')) :
    ∃ p supply q quorumBps approvalBps, w.docket.proposals.lookup id = some p ∧
      referenceSupply p w = (.ok supply, w) ∧
      resolveCategoryThresholds w.store.config p.category = (quorumBps, approvalBps) ∧
      w'.docket.proposals.lookup id = some q ∧
      (q.status = status ∨ status = .succeeded ∧ q.status = .executed) ∧
      ((status = .succeeded ↔ ExactlyPassed p supply quorumBps approvalBps) ↔
        ¬ Saturated p supply quorumBps approvalBps) := by
  obtain ⟨hwf, hI⟩ := tallies_nonneg hw
  obtain ⟨p, supply, q, hp, hsupply, rfl, hq, hqs⟩ := finalizeProposal_stored hwf h
  exact ⟨p, supply, q, _, _, hp, hsupply, rfl, hq, hqs,
    outcome_exact_iff (hI id p hp) (Int.le_of_lt (referenceSupply_pos hsupply))⟩

namespace Sample

/-- A supply that the distribution still accepts. -/
def largeSupply : Int := 5 * 10 ^ 34

/-- A quorum of a half. -/
def halfQuorum : GovernanceConfig := { defaultGovernanceConfig with quorumThreshold := 5000 }

/-- Of a very large supply 44 percent is staked, and a vote needs a quorum of a half. -/
def largeRun : List Event :=
  [callBy admin (.initializeGovernance admin [67] [67] 7 largeSupply recipients),
    callBy admin (.direct admin (.configureGovernance halfQuorum)),
    callBy community (.stake community (largeSupply * 29 / 100)),
    callBy treasury (.stake treasury (largeSupply / 10)), callBy sale (.stake sale (largeSupply / 20)),
    callBy community (propose community signal), atTime 100,
    callBy community (.castVote 1 community .inFavor), callBy treasury (.castVote 1 treasury .inFavor),
    callBy sale (.castVote 1 sale .inFavor), atTime 700000]

/-- The same vote on a small supply, with the quorum that is there by default. -/
def smallRun : List Event :=
  [callBy admin initializeCall, callBy community (.stake community 20000),
    callBy community (propose community signal), atTime 100,
    callBy community (.castVote 1 community .inFavor), atTime 700000]

end Sample

open Sample in
/-- The verdict of a small vote is the exact one. -/
theorem small_verdict_is_exact :
    ∃ p supply q quorumBps approvalBps,
      (deployedRun smallRun).docket.proposals.lookup 1 = some p ∧
      referenceSupply p (deployedRun smallRun) = (.ok supply, deployedRun smallRun) ∧
      resolveCategoryThresholds (deployedRun smallRun).store.config p.category = (quorumBps, approvalBps) ∧
      (finalizeProposal (fun _ => true) 1 (deployedRun smallRun)).2.docket.proposals.lookup 1 = some q ∧
      (q.status = .succeeded ∨ ProposalStatus.succeeded = .succeeded ∧ q.status = .executed) ∧
      ((ProposalStatus.succeeded = .succeeded ↔ ExactlyPassed p supply quorumBps approvalBps) ↔
        ¬ Saturated p supply quorumBps approvalBps) :=
  verdict_exact_iff (Reaches.of_along (by decide +kernel)) (Prod.ext (by decide +kernel) rfl)

open Sample in
/-- A quorum of a half is reached by 44 percent of the supply. -/
theorem minority_reaches_quorum :
    ¬ ∀ (w w' : World) (auth : Auth) (id : Nat) (status : ProposalStatus),
      Reaches Step (World.deployed ⟨0, 0⟩) w → finalizeProposal auth id w = (.ok status, w') →
      ∀ p supply, w.docket.proposals.lookup id = some p → referenceSupply p w = (.ok supply, w) →
        (status = .succeeded ↔ ExactlyPassed p supply
          (resolveCategoryThresholds w.store.config p.category).1
          (resolveCategoryThresholds w.store.config p.category).2) := by
  intro h
  have hvotes : ((deployedRun largeRun).docket.proposals.lookup 1).map (fun p => (p.turnout,
      p.useQuadraticVoting, resolveCategoryThresholds (deployedRun largeRun).store.config p.category)) =
      some (largeSupply * 44 / 100, false, (5000, 5000)) := by decide +kernel
  obtain ⟨p, hp, heq⟩ := Option.map_eq_some_iff.mp hvotes
  simp at heq
  obtain ⟨hturnout, hquadratic, hbps⟩ := heq
  have hsupply : referenceSupply p (deployedRun largeRun) = (.ok largeSupply, deployedRun largeRun) := by
    unfold referenceSupply
    rw [if_neg (by simp [hquadratic])]
    rfl
  have hfinal : finalizeProposal (fun _ => true) 1 (deployedRun largeRun) = (.ok .succeeded, _) :=
    Prod.ext (by decide +kernel) rfl
  have hreach : Reaches Step (World.deployed ⟨0, 0⟩) (deployedRun largeRun) := Reaches.of_along (by decide +kernel)
  have hquorum := ((h _ _ _ _ _ hreach hfinal p _ hp hsupply).mp rfl).quorum
  rw [hturnout, hbps] at hquorum
  exact absurd hquorum (by decide)

end CallStake.Governance
