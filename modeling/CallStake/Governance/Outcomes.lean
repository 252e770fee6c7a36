import CallStake.Governance.Tally

/-!
# What the outcome of a proposal adds to the records

The records of the proposer and of the voters are read from the storage, and all of them are written to one
copy. Where the proposer is a voter on the side of the outcome, the second record that is written under its
address was read before the first.

* `lookup_outcomeRecords`: the record that each user has afterwards.
* `OutcomeRecorded`: the counts rise by one where the outcome says so, and nowhere else.
* `outcome_recorded_iff`: they do exactly when the proposer of a proposal that passed did not vote for it,
  and no count is at its largest value.
* `votes_listed`: in every state, the votes of a proposal are those of the voters on its list.
* `own_vote_erases_success`: a proposer that votes for its own proposal.
-/

namespace CallStake.Governance

open Reputation

/-! ## Records -/

/-- The outcome that the records are about. -/
def Proposal.passed (p : Proposal) : Bool := decide (p.status = .succeeded ∨ p.status = .executed)

/-- The vote of `a` is for the outcome. -/
def Proposal.votedWithOutcome (p : Proposal) (a : Address) : Bool :=
  (p.voters.lookup a).any fun vote => aligned vote.voteType p.passed

/-- A voter on the list whose vote is for the outcome. -/
def Proposal.Aligned (p : Proposal) (a : Address) : Prop := a ∈ p.voterList ∧ p.votedWithOutcome a = true

instance (p : Proposal) (a : Address) : Decidable (p.Aligned a) := inferInstanceAs (Decidable (_ ∧ _))

/-- The record of a proposer whose proposal passed. -/
def succeededRecord (s : Storage) (now : Nat) (user : Address) : GovernanceReputation :=
  let rep := getGovernanceReputation s now user
  { rep with
    participationHistory := { rep.participationHistory with
      proposalsSucceeded := u32Add rep.participationHistory.proposalsSucceeded 1 }
    reputationScore := calculateReputationScore s now user }

/-- The record of a voter that voted for the outcome. -/
def alignedRecord (s : Storage) (now : Nat) (user : Address) : GovernanceReputation :=
  let rep := getGovernanceReputation s now user
  { rep with
    participationHistory := { rep.participationHistory with
      votesAlignedWithOutcome := u32Add rep.participationHistory.votesAlignedWithOutcome 1 }
    reputationScore := calculateReputationScore s now user }

section Records

variable {s : Storage} {now : Nat} {p : Proposal} {a : Address} {state : ReputationState}

theorem lookup_upsertRep {user : Address} {rep : GovernanceReputation} :
    (upsertRep state user rep).reputations.lookup a = if a = user then some rep else state.reputations.lookup a :=
  Store.lookup_insert_eq _ _ _ _

/-- The loop over the voters: every record is read from `s`, so the order does not matter. -/
theorem lookup_alignedRecords (f : Address → GovernanceReputation) (c : Address → Bool)
    (voters : List Address) :
    (voters.foldl (fun state voter => if c voter = true then upsertRep state voter (f voter) else state)
      state).reputations.lookup a =
      if a ∈ voters ∧ c a = true then some (f a) else state.reputations.lookup a := by
  induction voters generalizing state with
  | nil => simp
  | cons voter voters ih =>
    rw [List.foldl_cons, ih]
    by_cases hc : c a = true
    · by_cases ha : a ∈ voters
      · simp [ha, hc]
      · by_cases hv : a = voter
        · subst hv
          simp [ha, hc, lookup_upsertRep]
        · have hother : (if c voter = true then upsertRep state voter (f voter) else state).reputations.lookup a =
              state.reputations.lookup a := by
            split
            · rw [lookup_upsertRep, if_neg hv]
            · rfl
          simp [ha, hv, hother]
    · have hother : (if c voter = true then upsertRep state voter (f voter) else state).reputations.lookup a =
          state.reputations.lookup a := by
        split
        · rw [lookup_upsertRep, if_neg]
          rintro rfl
          exact hc ‹_›
        · rfl
      simp [hc, hother]

/-- The record that each user has afterwards: what the loop over the voters wrote, else what was written
for the proposer, else the one before. -/
theorem lookup_outcomeRecords :
    (outcomeRecords s now p).reputations.lookup a =
      if p.Aligned a then some (alignedRecord s now a)
      else if p.passed = true ∧ a = p.proposer then some (succeededRecord s now a)
      else s.reputation.state.reputations.lookup a := by
  have heq : outcomeRecords s now p = p.voterList.foldl (fun state voter =>
      if p.votedWithOutcome voter = true then upsertRep state voter (alignedRecord s now voter) else state)
      (if p.passed = true then upsertRep s.reputation.state p.proposer (succeededRecord s now p.proposer)
        else s.reputation.state) := by
    unfold outcomeRecords
    refine congrArg (fun f => p.voterList.foldl f _) ?_
    funext state voter
    unfold Proposal.votedWithOutcome
    cases p.voters.lookup voter <;> rfl
  rw [heq, lookup_alignedRecords]
  by_cases ha : p.Aligned a
  · rw [if_pos ha, if_pos (show a ∈ p.voterList ∧ _ from ha)]
  · rw [if_neg ha, if_neg (show ¬ (a ∈ p.voterList ∧ _) from ha)]
    by_cases hp : p.passed = true
    · rw [if_pos hp, lookup_upsertRep]
      by_cases hproposer : a = p.proposer
      · simp [hp, hproposer]
      · simp [hproposer]
    · simp [hp]

end Records

/-! ## Counts -/

/-- How many proposals of `a` passed. -/
def World.succeededCount (w : World) (a : Address) : Nat :=
  (getGovernanceReputation w.store w.ledger.timestamp a).participationHistory.proposalsSucceeded

/-- How many votes of `a` were for the outcome. -/
def World.alignedCount (w : World) (a : Address) : Nat :=
  (getGovernanceReputation w.store w.ledger.timestamp a).participationHistory.votesAlignedWithOutcome

/-- The counts of everyone are what the outcome makes of them, and the other records are as they were. -/
structure OutcomeRecorded (p : Proposal) (w w' : World) : Prop where
  succeeded (a : Address) : w'.succeededCount a =
    w.succeededCount a + if p.passed = true ∧ a = p.proposer then 1 else 0
  aligned (a : Address) : w'.alignedCount a = w.alignedCount a + if p.Aligned a then 1 else 0
  others (a : Address) : ¬ (p.passed = true ∧ a = p.proposer) → ¬ p.Aligned a →
    w'.store.reputation.state.reputations.lookup a = w.store.reputation.state.reputations.lookup a

/-- A proposer whose proposal passed did not vote for it, and the counts that rise have room. -/
structure NothingErased (p : Proposal) (w : World) : Prop where
  proposer : p.passed = true → ¬ p.Aligned p.proposer
  succeeded : p.passed = true → w.succeededCount p.proposer < u32Max
  aligned (a : Address) : p.Aligned a → w.alignedCount a < u32Max

/-- The world after the outcome of `p` was recorded. -/
def World.outcome (w : World) (p : Proposal) : World :=
  { w with store.reputation.state := outcomeRecords w.store w.ledger.timestamp p }

section Counts

variable {w w' : World} {p : Proposal} {id : Nat} {a : Address}

theorem recordProposalOutcome_eq (hp : w.store.proposal.state.proposals.lookup id = some p) :
    recordProposalOutcome id w = (.ok (), w.outcome p) := by
  unfold recordProposalOutcome
  rw [Tx.bind_of_ok (x := load _) (Tx.gets_ok.mpr ⟨hp, rfl⟩)]
  rfl

theorem u32Add_one_eq {n : Nat} : u32Add n 1 = n + 1 ↔ n < u32Max := by
  unfold u32Add
  omega

theorem outcome_aligned (h : p.Aligned a) : (w.outcome p).alignedCount a = u32Add (w.alignedCount a) 1 ∧
    (w.outcome p).succeededCount a = w.succeededCount a := by
  have hrep : getGovernanceReputation (w.outcome p).store w.ledger.timestamp a =
      alignedRecord w.store w.ledger.timestamp a := by
    unfold getGovernanceReputation World.outcome
    simp only
    rw [lookup_outcomeRecords, if_pos h]
    rfl
  exact ⟨congrArg (·.participationHistory.votesAlignedWithOutcome) hrep,
    congrArg (·.participationHistory.proposalsSucceeded) hrep⟩

theorem outcome_of_passed (h : ¬ p.Aligned a) (hp : p.passed = true ∧ a = p.proposer) :
    (w.outcome p).alignedCount a = w.alignedCount a ∧
      (w.outcome p).succeededCount a = u32Add (w.succeededCount a) 1 := by
  have hrep : getGovernanceReputation (w.outcome p).store w.ledger.timestamp a =
      succeededRecord w.store w.ledger.timestamp a := by
    unfold getGovernanceReputation World.outcome
    simp only
    rw [lookup_outcomeRecords, if_neg h, if_pos hp]
    rfl
  exact ⟨congrArg (·.participationHistory.votesAlignedWithOutcome) hrep,
    congrArg (·.participationHistory.proposalsSucceeded) hrep⟩

theorem outcome_other (h : ¬ p.Aligned a) (hp : ¬ (p.passed = true ∧ a = p.proposer)) :
    (w.outcome p).store.reputation.state.reputations.lookup a = w.store.reputation.state.reputations.lookup a := by
  change (outcomeRecords _ _ p).reputations.lookup a = _
  rw [lookup_outcomeRecords, if_neg h, if_neg hp]

/-- The counts of a user depend on its record only. -/
theorem counts_of_lookup (h : (w.outcome p).store.reputation.state.reputations.lookup a =
      w.store.reputation.state.reputations.lookup a) :
    (w.outcome p).alignedCount a = w.alignedCount a ∧ (w.outcome p).succeededCount a = w.succeededCount a := by
  have hrep : getGovernanceReputation (w.outcome p).store w.ledger.timestamp a =
      getGovernanceReputation w.store w.ledger.timestamp a := by
    unfold getGovernanceReputation
    rw [h]
    rfl
  exact ⟨congrArg (·.participationHistory.votesAlignedWithOutcome) hrep,
    congrArg (·.participationHistory.proposalsSucceeded) hrep⟩

/-- The record of an outcome returns, and loses nothing exactly when no record is written twice and no count
is at its largest value. -/
theorem outcome_recorded_iff (hp : w.store.proposal.state.proposals.lookup id = some p) :
    ∃ w', recordProposalOutcome id w = (.ok (), w') ∧ (OutcomeRecorded p w w' ↔ NothingErased p w) := by
  refine ⟨w.outcome p, recordProposalOutcome_eq hp, fun h => ?_, fun h => ?_⟩
  · -- a proposer on the winning side is written twice, the second time from what was read before
    refine ⟨fun hpassed haligned => ?_, fun hpassed => ?_, fun a ha => ?_⟩
    · have hs := h.succeeded p.proposer
      rw [(outcome_aligned haligned).2, if_pos ⟨hpassed, rfl⟩] at hs
      omega
    · have hs := h.succeeded p.proposer
      rw [if_pos ⟨hpassed, rfl⟩] at hs
      by_cases haligned : p.Aligned p.proposer
      · rw [(outcome_aligned haligned).2] at hs
        omega
      · rw [(outcome_of_passed haligned ⟨hpassed, rfl⟩).2] at hs
        exact u32Add_one_eq.mp hs
    · have hs := h.aligned a
      rw [if_pos ha, (outcome_aligned ha).1] at hs
      exact u32Add_one_eq.mp hs
  · constructor
    case succeeded =>
      intro a
      by_cases ha : p.Aligned a
      · rw [(outcome_aligned ha).2, if_neg]
        · rfl
        · rintro ⟨hpassed, rfl⟩
          exact h.proposer hpassed ha
      · by_cases hproposer : p.passed = true ∧ a = p.proposer
        · rw [(outcome_of_passed ha hproposer).2, if_pos hproposer]
          obtain ⟨hpassed, rfl⟩ := hproposer
          exact u32Add_one_eq.mpr (h.succeeded hpassed)
        · rw [(counts_of_lookup (outcome_other ha hproposer)).2, if_neg hproposer]
          rfl
    case aligned =>
      intro a
      by_cases ha : p.Aligned a
      · rw [(outcome_aligned ha).1, if_pos ha]
        exact u32Add_one_eq.mpr (h.aligned a ha)
      · rw [if_neg ha, Nat.add_zero]
        by_cases hproposer : p.passed = true ∧ a = p.proposer
        · exact (outcome_of_passed ha hproposer).1
        · exact (counts_of_lookup (outcome_other ha hproposer)).1
    case others => exact fun a hproposer ha => outcome_other ha hproposer

end Counts

/-! ## Voters -/

/-- Whoever voted on a proposal is on its list. -/
def Docket.VotesListed (d : Docket) : Prop :=
  ∀ id p, d.proposals.lookup id = some p → ∀ a, a ∈ p.voters → a ∈ p.voterList

namespace Docket.VotesListed

variable {d d' : Docket} {p : Proposal} {id : Nat}

theorem same (h : d.VotesListed) (hs : SameBallots d d') : d'.VotesListed := by
  intro i q hq a ha
  obtain ⟨q', hq', hb⟩ := hs.ballots i q hq
  simp [Proposal.ballot] at hb
  obtain ⟨hlist, hvoters, -⟩ := hb
  rw [hlist]
  exact h i q' hq' a (hvoters ▸ ha)

theorem vote (h : d.VotesListed) (hp : d.proposals.lookup id = some p) {v : Vote} {sum : Int} :
    (d.put (p.addVote v sum)).VotesListed := by
  intro i q hq a ha
  rw [Docket.put, Store.lookup_insert_eq] at hq
  split at hq
  · cases hq
    rw [Proposal.addVote_voters, AList.mem_insert] at ha
    rw [Proposal.addVote_voterList, List.mem_append, List.mem_singleton]
    exact ha.elim .inr fun ha => .inl (h id p hp a ha)
  · exact h i q hq a ha

end Docket.VotesListed

theorem votesListed_of_move {w : World} {c : Call} {d' : Docket} (h : w.docket.VotesListed)
    (hw : w.docket.WellFormed) (hm : DocketMove w c d') : d'.VotesListed := by
  cases hm.ballots hw with
  | same h' => exact h.same h'
  | create hp =>
    intro i q hq a ha
    simp only [Docket.lock, Docket.add, Store.lookup_insert_eq] at hq
    split at hq
    · cases hq
      subst hp
      simp [Proposals.newProposal] at ha
    · exact h i q hq a ha
  | vote hp => exact h.vote hp
  | reputationVote hp => exact h.vote hp
  | restart h' =>
    intro i q hq
    rw [h'] at hq
    cases hq

/-- In every state, whoever voted on a proposal is on the list that the records go through. -/
theorem votes_listed {ledger : Ledger} {w : World} (h : Reaches Step (World.deployed ledger) w) :
    w.docket.VotesListed := by
  have hinv := h.invariant (I := fun w => w.docket.WellFormed ∧ w.docket.VotesListed)
    ⟨wellFormed_start ledger, fun _ _ hq => by cases hq⟩ fun w ev w' ⟨hw, hl⟩ hs => by
      refine ⟨wellFormed_step hw hs, ?_⟩
      rcases docket_step hw hs with ⟨_, _, -, hm⟩ | hq
      · exact votesListed_of_move hl hw hm
      · exact hl.same (.of_eq hq.proposals hq.snapshots)
  exact hinv.2

namespace Sample

/-- A proposal passes by the vote of another holder than its proposer. -/
def othersVoteRun : List Event :=
  [callBy admin initializeCall, callBy community (.stake community 20000), callBy sale (.stake sale 10000),
    callBy community (propose community signal), atTime 100, callBy sale (.castVote 1 sale .inFavor),
    atTime 700000, call (.finalizeProposal 1)]

/-- A proposal passes by the vote of its proposer. -/
def ownVoteRun : List Event :=
  [callBy admin initializeCall, callBy community (.stake community 20000),
    callBy community (propose community signal), atTime 100,
    callBy community (.castVote 1 community .inFavor), atTime 700000, call (.finalizeProposal 1)]

/-- The outcome of a proposal that passes by the vote of another holder. -/
theorem outcome_of_others :
    ∃ p w', (deployedRun othersVoteRun).store.proposal.state.proposals.lookup 1 = some p ∧
      recordProposalOutcome 1 (deployedRun othersVoteRun) = (.ok (), w') ∧
      (OutcomeRecorded p (deployedRun othersVoteRun) w' ↔ NothingErased p (deployedRun othersVoteRun)) := by
  obtain ⟨p, hp⟩ := Option.isSome_iff_exists.mp (by decide +kernel :
    ((deployedRun othersVoteRun).store.proposal.state.proposals.lookup 1).isSome = true)
  obtain ⟨w', hrun, hiff⟩ := outcome_recorded_iff hp
  exact ⟨p, w', hp, hrun, hiff⟩

/-- The success of the proposer is overwritten by its vote. -/
theorem own_vote_erases_success :
    ¬ ∀ (w w' : World) (id : Nat) (p : Proposal), Reaches Step (World.deployed ⟨0, 0⟩) w →
      w.store.proposal.state.proposals.lookup id = some p → recordProposalOutcome id w = (.ok (), w') →
      OutcomeRecorded p w w' := by
  intro h
  have hreach : Reaches Step (World.deployed ⟨0, 0⟩) (deployedRun ownVoteRun) := Reaches.of_along (by decide +kernel)
  have hstored : ((deployedRun ownVoteRun).store.proposal.state.proposals.lookup 1).map
      (fun p => (p.passed, p.proposer)) = some (true, community) := by decide +kernel
  obtain ⟨p, hp, heq⟩ := Option.map_eq_some_iff.mp hstored
  simp at heq
  obtain ⟨hpassed, hproposer⟩ := heq
  have hrun := h _ _ 1 p hreach hp (Prod.ext (by decide +kernel) rfl)
  have hcount := hrun.succeeded community
  rw [if_pos ⟨hpassed, hproposer.symm⟩] at hcount
  exact absurd hcount (by decide +kernel)

end Sample

end CallStake.Governance
