import CallStake.Governance.Approval
import CallStake.Lib.Selection

/-!
# Who wins an election (`committees`)

The seats go to the candidates with the most votes, by the stakes at the end of the election. A candidate
without votes still has more than the least value that a count of votes can have, and so takes a seat that no
other candidate needs.

* `validBallots`: the ballots that count. `tally_spec`: what the contract counts of them.
* `selectLoop_picks`: the loop over the seats is a greedy selection by the weight of the candidates.
* `finalizeElection_cases`: how an election ends, which `Quorate` and the number of candidates decide.
* `TopCandidates`: what is claimed of it. `top_candidates_iff`: it holds exactly when as many candidates have
  votes as are elected.
* `seats_without_votes`: three candidates take their seats by one ballot.
-/

namespace CallStake.Governance

open Res List

namespace Committees

/-! ## Ballots -/

/-- The voter is staked now, and the candidate is on the list. -/
def CommitteeElection.Counts (election : CommitteeElection) (staked : Address → Int)
    (ballot : Sigma fun _ : Address => Address) : Prop :=
  0 < staked ballot.1 ∧ ballot.2 ∈ election.candidates

instance (election : CommitteeElection) (staked : Address → Int)
    (ballot : Sigma fun _ : Address => Address) : Decidable (election.Counts staked ballot) :=
  inferInstanceAs (Decidable (_ ∧ _))

/-- The ballots that count. -/
def CommitteeElection.validBallots (election : CommitteeElection) (staked : Address → Int) :
    List (Sigma fun _ : Address => Address) :=
  election.votes.entries.filter fun ballot => election.Counts staked ballot

/-- The stakes behind ballots. -/
def stakeBehind (staked : Address → Int) (ballots : List (Sigma fun _ : Address => Address)) : Int :=
  (ballots.map fun ballot => staked ballot.1).sum

/-- The stake-weighted votes of a candidate. -/
def CommitteeElection.weightOf (election : CommitteeElection) (staked : Address → Int)
    (candidate : Address) : Int :=
  stakeBehind staked ((election.validBallots staked).filter (·.2 = candidate))

/-- The candidate has a valid ballot. -/
def CommitteeElection.Backed (election : CommitteeElection) (staked : Address → Int)
    (candidate : Address) : Prop :=
  ∃ ballot ∈ election.validBallots staked, ballot.2 = candidate

instance (election : CommitteeElection) (staked : Address → Int) (candidate : Address) :
    Decidable (election.Backed staked candidate) :=
  inferInstanceAs (Decidable (∃ ballot ∈ election.validBallots staked, ballot.2 = candidate))

section Ballots

variable {election : CommitteeElection} {staked : Address → Int} {candidate : Address}
  {ballot : Sigma fun _ : Address => Address} {ballots valid valid' : List (Sigma fun _ : Address => Address)}
  {tally tally' tally'' : ElectionTally}

theorem stakeBehind_append :
    stakeBehind staked (valid ++ valid') = stakeBehind staked valid + stakeBehind staked valid' := by
  rw [stakeBehind, map_append, sum_append]
  rfl

theorem staked_of_valid (h : ballot ∈ election.validBallots staked) : 0 < staked ballot.1 :=
  (of_decide_eq_true (List.mem_filter.mp h).2 : election.Counts staked ballot).1

theorem stakeBehind_nonneg (h : ballots ⊆ election.validBallots staked) : 0 ≤ stakeBehind staked ballots := by
  refine sum_nonneg fun n hn => ?_
  obtain ⟨ballot, hb, rfl⟩ := List.mem_map.mp hn
  exact (staked_of_valid (h hb)).le

theorem weightOf_nonneg : 0 ≤ election.weightOf staked candidate := stakeBehind_nonneg (filter_subset_self _)

/-- A candidate has votes exactly if a ballot for it counts. -/
theorem weightOf_pos : 0 < election.weightOf staked candidate ↔ election.Backed staked candidate := by
  constructor
  · intro hpos
    by_contra hnone
    have hnil : (election.validBallots staked).filter (fun ballot => ballot.2 = candidate) = [] := by
      refine List.filter_eq_nil_iff.mpr fun ballot hb hc => ?_
      exact hnone ⟨ballot, hb, of_decide_eq_true hc⟩
    rw [CommitteeElection.weightOf, hnil] at hpos
    exact lt_irrefl _ hpos
  · rintro ⟨ballot, hb, hc⟩
    have hmem : ballot ∈ (election.validBallots staked).filter (fun ballot => ballot.2 = candidate) :=
      List.mem_filter.mpr ⟨hb, decide_eq_true hc⟩
    obtain ⟨before, after, hsplit⟩ := append_of_mem hmem
    have hvalid : before ++ ballot :: after ⊆ election.validBallots staked := hsplit ▸ filter_subset_self _
    have hbefore := stakeBehind_nonneg fun b hb => hvalid (mem_append_left _ hb)
    have hafter := stakeBehind_nonneg fun b hb => hvalid (mem_append_right _ (mem_cons_of_mem _ hb))
    have hown := staked_of_valid hb
    rw [CommitteeElection.weightOf, hsplit, append_cons, stakeBehind_append, stakeBehind_append]
    have hsingle : stakeBehind staked [ballot] = staked ballot.1 := by simp [stakeBehind]
    omega

/-- A tally after more ballots, of which `valid` count. -/
structure Adds (staked : Address → Int) (valid : List (Sigma fun _ : Address => Address))
    (tally tally' : ElectionTally) : Prop where
  votes (candidate : Address) : (tally'.candidateVotes.lookup candidate).getD 0 =
    (tally.candidateVotes.lookup candidate).getD 0 + stakeBehind staked (valid.filter (·.2 = candidate))
  weight : tally'.totalStakeWeight = tally.totalStakeWeight + stakeBehind staked valid
  count : tally'.validVotes = (tally.validVotes + valid.length) ⊓ u32Max

theorem Adds.trans (h : Adds staked valid tally tally') (h' : Adds staked valid' tally' tally'') :
    Adds staked (valid ++ valid') tally tally'' where
  votes c := by rw [h'.votes, h.votes, filter_append, stakeBehind_append, Int.add_assoc]
  weight := by rw [h'.weight, h.weight, stakeBehind_append, Int.add_assoc]
  count := by
    rw [h'.count, h.count, length_append]
    omega

theorem tallyBallot_adds (hsmall : tally.validVotes ≤ u32Max)
    (h : tallyBallot election staked tally ballot.1 ballot.2 = .ok tally') :
    Adds staked ([ballot].filter fun b => election.Counts staked b) tally tally' := by
  by_cases hv : election.Counts staked ballot
  · have haccepted : ¬ (staked ballot.1 ≤ 0 ∨ ballot.2 ∉ election.candidates) :=
      not_or.mpr ⟨not_le.mpr hv.1, not_not.mpr hv.2⟩
    rw [tallyBallot, if_neg haccepted] at h
    simp only [bind_ok, checkedAddR_ok, pure_ok] at h
    obtain ⟨_, ⟨-, -, rfl⟩, _, ⟨-, -, rfl⟩, rfl⟩ := h
    have hkeep : [ballot].filter (fun b => election.Counts staked b) = [ballot] := by simp [hv]
    rw [hkeep]
    refine ⟨fun c => ?_, ?_, rfl⟩
    · rw [Store.lookup_insert_eq]
      by_cases hc : c = ballot.2
      · subst hc
        simp [stakeBehind]
      · simp [stakeBehind, hc, Ne.symm hc]
    · simp [stakeBehind]
  · have hrejected : staked ballot.1 ≤ 0 ∨ ballot.2 ∉ election.candidates := by
      rcases not_and_or.mp hv with hle | hnot
      · exact .inl (not_lt.mp hle)
      · exact .inr hnot
    rw [tallyBallot, if_pos hrejected] at h
    obtain rfl := Except.ok.inj h
    have hdrop : [ballot].filter (fun b => election.Counts staked b) = [] := by simp [hv]
    rw [hdrop]
    exact ⟨fun _ => (Int.add_zero _).symm, (Int.add_zero _).symm, (Nat.min_eq_left hsmall).symm⟩

/-- The ballots are counted one after another, and one that is rejected changes no count but its own. -/
theorem foldlM_tallyBallot (hsmall : tally.validVotes ≤ u32Max)
    (h : ballots.foldlM (fun t e => tallyBallot election staked t e.1 e.2) tally = .ok tally') :
    Adds staked (ballots.filter fun b => election.Counts staked b) tally tally' := by
  induction ballots generalizing tally with
  | nil =>
    obtain rfl : tally = tally' := Except.ok.inj h
    exact ⟨fun _ => (Int.add_zero _).symm, (Int.add_zero _).symm, (Nat.min_eq_left hsmall).symm⟩
  | cons ballot ballots ih =>
    simp at h
    obtain ⟨mid, hballot, hrest⟩ := h
    have hfirst := tallyBallot_adds hsmall hballot
    rw [← singleton_append, filter_append]
    exact hfirst.trans (ih (by rw [hfirst.count]; exact Nat.min_le_right ..) hrest)

/-- What the contract counts: the weights of the candidates, the stake behind the valid ballots, and their
number up to the largest `u32`. -/
theorem tally_spec (h : tallyElectionVotesWithValidation election staked = .ok tally) :
    (∀ candidate, (tally.candidateVotes.lookup candidate).getD 0 = election.weightOf staked candidate) ∧
      tally.totalStakeWeight = stakeBehind staked (election.validBallots staked) ∧
      tally.validVotes = (election.validBallots staked).length ⊓ u32Max := by
  obtain ⟨hvotes, hweight, hcount⟩ := foldlM_tallyBallot (Nat.zero_le _) h
  refine ⟨fun candidate => ?_, ?_, ?_⟩
  · rw [hvotes, AList.lookup_empty, Option.getD_none, Int.zero_add]
    rfl
  · rw [hweight, Int.zero_add]
    rfl
  · rw [hcount, Nat.zero_add]
    rfl

end Ballots

/-! ## Selection -/

/-- The votes that were counted for a candidate. -/
def votesFor (candidateVotes : Store Address Int) (candidate : Address) : Int :=
  (candidateVotes.lookup candidate).getD 0

/-- What `bestCandidate` holds after the candidates `seen`. -/
inductive BestOf (candidateVotes : Store Address Int) (winners seen : List Address) :
    Option Address × Int → Prop where
  | nobody (h : seen ⊆ winners) : BestOf candidateVotes winners seen (none, i128Min)
  | somebody {best : Address} (hseen : best ∈ seen) (hnew : best ∉ winners)
      (hbest : ∀ c ∈ seen, c ∉ winners → votesFor candidateVotes c ≤ votesFor candidateVotes best) :
      BestOf candidateVotes winners seen (some best, votesFor candidateVotes best)

section Selection

variable {candidateVotes : Store Address Int} {winners seen candidates : List Address}

/-- One more candidate. It is compared with the least value if there is none yet, and is above it. -/
theorem BestOf.step {best : Option Address × Int} (h : BestOf candidateVotes winners seen best)
    (hlow : ∀ c, i128Min < votesFor candidateVotes c) (c : Address) :
    BestOf candidateVotes winners (seen ++ [c])
      (if c ∈ winners then best
        else if best.2 < votesFor candidateVotes c then (some c, votesFor candidateVotes c) else best) := by
  by_cases hc : c ∈ winners
  · rw [if_pos hc]
    cases h with
    | nobody h => exact .nobody (List.append_subset.mpr ⟨h, by simpa using hc⟩)
    | somebody hseen hnew hbest =>
      refine .somebody (mem_append_left _ hseen) hnew fun d hd hrest => ?_
      rcases List.mem_append.mp hd with hd | hd
      · exact hbest d hd hrest
      · exact absurd (List.mem_singleton.mp hd ▸ hc) hrest
  · rw [if_neg hc]
    have hlast : c ∈ seen ++ [c] := by simp
    cases h with
    | nobody h =>
      rw [if_pos (hlow c)]
      refine .somebody hlast hc fun d hd hrest => ?_
      rcases List.mem_append.mp hd with hd | hd
      · exact absurd (h hd) hrest
      · exact le_of_eq (by rw [List.mem_singleton.mp hd])
    | @somebody best hseen hnew hbest =>
      by_cases hmore : votesFor candidateVotes best < votesFor candidateVotes c
      · rw [if_pos hmore]
        refine .somebody hlast hc fun d hd hrest => ?_
        rcases List.mem_append.mp hd with hd | hd
        · exact (hbest d hd hrest).trans hmore.le
        · exact le_of_eq (by rw [List.mem_singleton.mp hd])
      · rw [if_neg hmore]
        refine .somebody (mem_append_left _ hseen) hnew fun d hd hrest => ?_
        rcases List.mem_append.mp hd with hd | hd
        · exact hbest d hd hrest
        · rw [List.mem_singleton.mp hd]
          exact not_lt.mp hmore

theorem bestCandidate_spec (hlow : ∀ c, i128Min < votesFor candidateVotes c) :
    BestOf candidateVotes winners candidates (bestCandidate candidateVotes winners candidates) := by
  have key : ∀ (l seen : List Address) (best : Option Address × Int),
      BestOf candidateVotes winners seen best → BestOf candidateVotes winners (seen ++ l)
        (l.foldl (fun best candidate =>
          if candidate ∈ winners then best
          else
            let votes := (candidateVotes.lookup candidate).getD 0
            if best.2 < votes then (some candidate, votes) else best) best) := by
    intro l
    induction l with
    | nil =>
      intro seen best h
      rwa [append_nil]
    | cons c l ih =>
      intro seen best h
      rw [append_cons]
      exact ih _ _ (h.step hlow c)
  exact key candidates [] _ (.nobody (nil_subset _))

/-- Each round of the loop picks a candidate with the most votes among those without a seat. -/
theorem selectLoop_picks (hlow : ∀ c, i128Min < votesFor candidateVotes c) (seats : Nat) :
    Picks (votesFor candidateVotes) candidates seats winners
      (selectLoop candidateVotes candidates seats winners) := by
  induction seats generalizing winners with
  | zero => exact .full
  | succ seats ih =>
    rw [selectLoop]
    generalize hround : bestCandidate candidateVotes winners candidates = best
    have hbest : BestOf candidateVotes winners candidates best := hround ▸ bestCandidate_spec hlow
    cases hbest with
    | nobody h => exact .out h
    | somebody hseen hnew hbest => exact .pick hseen hnew hbest ih

end Selection

/-! ## Outcome -/

/-- Enough ballots count, and enough stake is behind them. -/
def CommitteeElection.Quorate (election : CommitteeElection) (staked : Address → Int) : Prop :=
  election.minParticipation ≤ (election.validBallots staked).length ⊓ u32Max ∧
    election.quorumStakeThreshold ≤ stakeBehind staked (election.validBallots staked)

/-- The seats that can be filled. -/
def CommitteeElection.seats (election : CommitteeElection) : Nat :=
  election.positionsAvailable ⊓ election.candidates.dedup.length

/-- How many candidates have votes. -/
def CommitteeElection.backedCandidates (election : CommitteeElection) (staked : Address → Int) : Nat :=
  election.candidates.dedup.countP fun candidate => election.Backed staked candidate

/-- The winners are the top candidates, and the first of them takes the chair. -/
structure Elected (election : CommitteeElection) (staked : Address → Int) (committee committee' : Committee)
    (winners : List Address) : Prop where
  size : winners.length ≤ election.positionsAvailable
  distinct : winners.Nodup
  listed : winners ⊆ election.candidates
  backed (winner : Address) : winner ∈ winners → election.Backed staked winner
  top (winner : Address) : winner ∈ winners → ∀ c ∈ election.candidates, c ∉ winners →
    election.weightOf staked c ≤ election.weightOf staked winner
  chair : ∃ chair, winners.head? = some chair ∧ (∀ c ∈ election.candidates,
    election.weightOf staked c ≤ election.weightOf staked chair) ∧
      committee' = { committee with members := winners, chair }

/-- An election that succeeds seats the top candidates, and one that fails leaves the committees as they
were. -/
def TopCandidates (election : CommitteeElection) (staked : Address → Int) (committeeId : Nat)
    (state state' : CommitteesState) (r : ElectionResult) : Prop :=
  (r.status = .succeeded → ∃ committee committee', state.committees.lookup committeeId = some committee ∧
    state'.committees = state.committees.insert committeeId committee' ∧
    Elected election staked committee committee' r.winners) ∧
  (r.status ≠ .succeeded → state'.committees = state.committees)

section Outcome

variable {election : CommitteeElection} {staked : Address → Int} {committeeId now : Nat}
  {state state' : CommitteesState} {r : ElectionResult}

/-- An election that is closed seats the winners of a greedy selection by weight, or leaves the committees
as they were. -/
theorem finalizeElection_cases (he : state.elections.lookup committeeId = some election)
    (h : finalizeElection state staked committeeId now = .ok (state', r)) :
    (election.Quorate staked ∧ 3 ≤ election.seats ∧ r.status = .succeeded ∧
      ∃ chair rest committee, r.winners = chair :: rest ∧ r.winners.length = election.seats ∧
        TopOf (election.weightOf staked) election.candidates r.winners ∧
        state.committees.lookup committeeId = some committee ∧
        state'.committees = state.committees.insert committeeId { committee with members := r.winners, chair }) ∨
    (¬ (election.Quorate staked ∧ 3 ≤ election.seats) ∧ r.status ≠ .succeeded ∧
      state'.committees = state.committees) := by
  simp only [finalizeElection, getElection, getCommittee, bind_ok, ofOption_ok, failIf_ok] at h
  obtain ⟨election', he', _, -, tally, htally, h⟩ := h
  obtain rfl : election = election' := Option.some.inj (he.symm.trans he')
  obtain ⟨hvotes, hweight, hcount⟩ := tally_spec htally
  have hfun : votesFor tally.candidateVotes = election.weightOf staked := funext hvotes
  -- no votes are still more than the least count, so a candidate without votes can be picked
  have hlow (c : Address) : i128Min < votesFor tally.candidateVotes c := by
    rw [hfun]
    exact lt_of_lt_of_le (by decide) weightOf_nonneg
  have hpicks : Picks (election.weightOf staked) election.candidates election.positionsAvailable []
      (selectElectionWinners election tally.candidateVotes) := hfun ▸ selectLoop_picks hlow _
  have hlength := hpicks.length_eq .nil
  rw [length_nil, Nat.zero_add] at hlength
  split at h
  · rename_i hfew
    cases h
    rw [hcount] at hfew
    exact .inr ⟨fun hq => absurd hq.1.1 (not_le.mpr hfew.2), by rintro ⟨⟩, rfl⟩
  · rename_i hmany
    split at h
    · rename_i hlittle
      cases h
      rw [hweight] at hlittle
      exact .inr ⟨fun hq => absurd hq.1.2 (not_le.mpr hlittle.2), by rintro ⟨⟩, rfl⟩
    · rename_i hmuch
      have hquorate : election.Quorate staked := by
        have hnonneg := stakeBehind_nonneg (List.Subset.refl (election.validBallots staked))
        rw [hcount] at hmany
        rw [hweight] at hmuch
        constructor <;> omega
      split at h
      · rename_i chair _ _ _ hwinners
        simp only [bind_ok, ofOption_ok, pure_ok, Prod.mk.injEq] at h
        obtain ⟨committee, hc, rfl, rfl⟩ := h
        refine .inl ⟨hquorate, ?_, rfl, chair, _, committee, hwinners, hlength, hpicks.top .nil, hc, rfl⟩
        rw [hwinners] at hlength
        simp at hlength
        unfold CommitteeElection.seats
        omega
      · rename_i hshort
        cases h
        refine .inr ⟨fun hq => ?_, by rintro ⟨⟩, rfl⟩
        have hseats : 3 ≤ (selectElectionWinners election tally.candidateVotes).length := hlength ▸ hq.2
        -- three seats would mean three winners, which the match would have found
        generalize selectElectionWinners election tally.candidateVotes = winners at hshort hseats
        rcases winners with _ | ⟨chair, _ | ⟨_, _ | ⟨_, _⟩⟩⟩
        · exact absurd hseats (by decide)
        · exact absurd hseats (by simp)
        · exact absurd hseats (by simp)
        · exact hshort _ _ _ _ rfl

/-- What is claimed of an election holds exactly when, wherever its ballots suffice and three seats can be
filled, as many candidates have votes as there are seats to fill. -/
theorem top_candidates_iff (he : state.elections.lookup committeeId = some election)
    (h : finalizeElection state staked committeeId now = .ok (state', r)) :
    TopCandidates election staked committeeId state state' r ↔
      (election.Quorate staked → 3 ≤ election.seats → election.seats ≤ election.backedCandidates staked) := by
  rcases finalizeElection_cases he h with
    ⟨hquorate, hthree, hstatus, chair, rest, committee, hwinners, hlength, htop, hc, hstate⟩ |
    ⟨hnot, hstatus, hstate⟩
  · have hup : ∀ a b, election.weightOf staked a ≤ election.weightOf staked b →
        election.Backed staked a → election.Backed staked b :=
      fun a b hle hb => weightOf_pos.mp (lt_of_lt_of_le (weightOf_pos.mpr hb) hle)
    have hbacked := htop.forall_iff hup
    rw [hlength] at hbacked
    constructor
    · rintro ⟨hsucceeded, -⟩ - -
      obtain ⟨_, _, -, -, helected⟩ := hsucceeded hstatus
      exact hbacked.mp helected.backed
    · intro henough
      refine ⟨fun _ => ⟨committee, _, hc, hstate, ?_⟩, fun hne => absurd hstatus hne⟩
      exact {
        size := hlength ▸ Nat.min_le_left ..
        distinct := htop.nodup
        listed := htop.subset
        backed := hbacked.mpr (henough hquorate hthree)
        top := htop.above
        chair := ⟨chair, by rw [hwinners, List.head?_cons], fun c hc => (hwinners ▸ htop).head hc, rfl⟩ }
  · constructor
    · intro _ hquorate hthree
      exact absurd ⟨hquorate, hthree⟩ hnot
    · intro _
      exact ⟨fun hs => absurd hs hstatus, fun _ => hstate⟩

end Outcome

namespace Sample

/-- Three candidates and one ballot, after the election. -/
def oneBallot : World := run start (replacedRun.take 10)

/-- Three candidates with a ballot each. -/
def contested : World :=
  run start (replacedRun.take 9 ++ [callOf (.voteInElection 1 alice dave),
    callOf (.voteInElection 1 carol frank), .advance 86400])

/-- What an election that is finalized now would be and give. -/
def outcome (w : World) : Option (CommitteeElection × CommitteesState × ElectionResult) :=
  (w.committees.elections.lookup 1).bind fun election =>
    (finalizeElection w.committees w.staked 1 w.now).toOption.map fun p => (election, p)

theorem outcome_eq {w : World} {election : CommitteeElection} {state' : CommitteesState}
    {r : ElectionResult} (h : outcome w = some (election, state', r)) :
    w.committees.elections.lookup 1 = some election ∧
      finalizeElection w.committees w.staked 1 w.now = .ok (state', r) := by
  obtain ⟨election', he, h⟩ := Option.bind_eq_some_iff.mp h
  obtain ⟨p, hp, heq⟩ := Option.map_eq_some_iff.mp h
  obtain ⟨rfl, rfl⟩ := Prod.mk.inj heq
  refine ⟨he, ?_⟩
  cases hf : finalizeElection w.committees w.staked 1 w.now with
  | error e =>
    rw [hf] at hp
    cases hp
  | ok q =>
    rw [hf] at hp
    exact congrArg Except.ok (Option.some.inj hp)

/-- The seats go to the candidates with the most votes. -/
theorem contested_seats : ∃ election state' r,
    contested.committees.elections.lookup 1 = some election ∧
      finalizeElection contested.committees contested.staked 1 contested.now = .ok (state', r) ∧
      r.status = .succeeded ∧ TopCandidates election contested.staked 1 contested.committees state' r := by
  obtain ⟨⟨election, state', r⟩, ho, hr⟩ := Option.map_eq_some_iff.mp (by decide +kernel :
    (outcome contested).map (fun o => (o.2.2.status,
      decide (o.1.seats ≤ o.1.backedCandidates contested.staked))) = some (.succeeded, true))
  obtain ⟨hstatus, henough⟩ := Prod.mk.inj hr
  obtain ⟨he, hf⟩ := outcome_eq ho
  exact ⟨election, state', r, he, hf, hstatus, (top_candidates_iff he hf).mpr fun _ _ => of_decide_eq_true henough⟩

/-- Two of the three winners have no ballot at all. -/
theorem seats_without_votes : Reaches Step start oneBallot ∧ ∃ election state' r,
    oneBallot.committees.elections.lookup 1 = some election ∧
      finalizeElection oneBallot.committees oneBallot.staked 1 oneBallot.now = .ok (state', r) ∧
      r.status = .succeeded ∧ r.winners = [erin, dave, frank] ∧
      ¬ election.Backed oneBallot.staked dave ∧
      ¬ TopCandidates election oneBallot.staked 1 oneBallot.committees state' r := by
  have hreach : Reaches Step start oneBallot := Reaches.of_along (by decide +kernel)
  obtain ⟨⟨election, state', r⟩, ho, hr⟩ := Option.map_eq_some_iff.mp (by decide +kernel :
    (outcome oneBallot).map (fun o => (o.2.2.status, o.2.2.winners,
      decide (o.1.Backed oneBallot.staked dave))) = some (.succeeded, [erin, dave, frank], false))
  obtain ⟨hstatus, hr⟩ := Prod.mk.inj hr
  obtain ⟨hwinners, hbacked⟩ := Prod.mk.inj hr
  have hnot : ¬ election.Backed oneBallot.staked dave := of_decide_eq_false hbacked
  obtain ⟨he, hf⟩ := outcome_eq ho
  refine ⟨hreach, election, state', r, he, hf, hstatus, hwinners, hnot, fun htop => ?_⟩
  obtain ⟨_, _, -, -, helected⟩ := htop.1 hstatus
  have hdave : dave ∈ r.winners := hwinners ▸ by decide
  exact hnot (helected.backed dave hdave)

end Sample

end Committees

end CallStake.Governance
