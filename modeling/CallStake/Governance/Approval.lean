import CallStake.Governance.Decisions

/-!
# Which decisions of committees carry

A decision counts its votes in three counters, and an election does not take the votes of former members out
of them.

* `Move`: what a call that returned did to the committees, one constructor for each way.
* `Carried`: the rule, over the present members and their votes only.
* `countP_members`: the counters are the votes of the members, if nobody else has voted.
* `carried_of_current`: in every run in which a vote finds only members among those who voted before, a
  decision is approved by the rule and executed at most once.
* `former_member_carries`: the vote of a former member carries a decision.
-/

namespace CallStake.Governance

open Store List

namespace Committees

/-! ## Moves -/

/-- The first decision with the identifier. -/
structure Holds (decisions : List CommitteeDecision) (decisionId index : Nat)
    (decision : CommitteeDecision) : Prop where
  first : decisions.findIdx? (·.decisionId = decisionId) = some index
  stored : decisions[index]? = some decision

/-- An election of `w'` is one of `w`, or has no more seats than the committee allows. -/
def ElectionsFrom (w w' : World) : Prop :=
  ∀ committeeId election', w'.committees.elections.lookup committeeId = some election' →
    (∃ election, w.committees.elections.lookup committeeId = some election ∧
      election'.positionsAvailable = election.positionsAvailable) ∨
    ∃ committee, w.committees.committees.lookup committeeId = some committee ∧
      election'.positionsAvailable ≤ committee.maxMembers

/-- One committee is written. -/
structure Puts (w w' : World) (committeeId : Nat) (committee : Committee) (executed : List (Nat × Nat)) :
    Prop where
  committees : w'.committees.committees = w.committees.committees.insert committeeId committee
  elections : ElectionsFrom w w'
  executed : w'.executed = executed

/-- What a call that returned did. -/
inductive Move (w : World) : Call → World → Prop where
  | create {name description : Bytes} {members : List Address} {chair : Address} {maxMembers : Nat}
      {authorities : List Authority} {term : Option Nat} {committee : Committee} {w' : World}
      (hnodup : committee.members.Nodup) (hsize : committee.members.length ≤ committee.maxMembers)
      (hmax : committee.maxMembers ≤ 15) (hnew : committee.decisions = [])
      (h : Puts w w' w.committees.nextCommitteeId committee w.executed) :
      Move w (.createCommittee name description members chair maxMembers authorities term) w'
  | propose {committeeId decisionId : Nat} {proposer : Address} {proposal : Bytes}
      {action : CommitteeAction} {committee : Committee} {performanceMetrics : PerformanceMetrics}
      {w' : World} (hc : w.committees.committees.lookup committeeId = some committee)
      (h : Puts w w' committeeId { committee with
        decisions := committee.decisions ++ [newDecision decisionId proposal action w.now]
        performanceMetrics } w.executed) :
      Move w (.proposeDecision committeeId proposer proposal action) w'
  | vote {committeeId decisionId index : Nat} {voter : Address} {vote : VoteType} {committee : Committee}
      {decision : CommitteeDecision} {w' : World}
      (hc : w.committees.committees.lookup committeeId = some committee)
      (hmember : voter ∈ committee.members) (hd : Holds committee.decisions decisionId index decision)
      (hopen : decision.status = .voting) (hnew : decision.votes.lookup voter = none)
      (h : Puts w w' committeeId { committee with
        decisions := committee.decisions.set index
          ((decision.count voter vote).settle committee.members.length) } w.executed) :
      Move w (.voteOnDecision committeeId decisionId voter vote) w'
  | execute {committeeId decisionId index : Nat} {executor : Address} {committee : Committee}
      {decision : CommitteeDecision} {performanceMetrics : PerformanceMetrics} {w' : World}
      (hc : w.committees.committees.lookup committeeId = some committee)
      (hd : Holds committee.decisions decisionId index decision) (happroved : decision.status = .approved)
      (h : Puts w w' committeeId { committee with
        decisions := committee.decisions.set index
          { decision with status := .executed, executedAt := some w.now }
        performanceMetrics } ((committeeId, decisionId) :: w.executed)) :
      Move w (.executeDecision committeeId decisionId executor) w'
  | overridden {committeeId decisionId index : Nat} {committee : Committee}
      {decision : CommitteeDecision} {performanceMetrics : PerformanceMetrics} {w' : World}
      (hc : w.committees.committees.lookup committeeId = some committee)
      (hd : Holds committee.decisions decisionId index decision)
      (h : Puts w w' committeeId { committee with
        decisions := committee.decisions.set index { decision with status := .overridden }
        performanceMetrics } w.executed) :
      Move w (.overrideDecision committeeId decisionId) w'
  | seat {committeeId : Nat} {committee : Committee} {election : CommitteeElection}
      {winners : List Address} {chair : Address} {w' : World}
      (hc : w.committees.committees.lookup committeeId = some committee)
      (he : w.committees.elections.lookup committeeId = some election) (hnodup : winners.Nodup)
      (hsize : winners.length ≤ election.positionsAvailable)
      (h : Puts w w' committeeId { committee with members := winners, chair } w.executed) :
      Move w (.finalizeElection committeeId) w'
  | keep {c : Call} {committeeId : Nat} {committee committee' : Committee} {w' : World}
      (hc : w.committees.committees.lookup committeeId = some committee)
      (h : Puts w w' committeeId committee' w.executed)
      (hmembers : committee'.members = committee.members)
      (hmax : committee'.maxMembers = committee.maxMembers)
      (hdecisions : committee'.decisions = committee.decisions) : Move w c w'
  | elect {c : Call} {w' : World} (hcommittees : w'.committees.committees = w.committees.committees)
      (helections : ElectionsFrom w w') (hexecuted : w'.executed = w.executed) : Move w c w'

section Winners

variable {candidateVotes : Store Address Int} {candidates winners : List Address}

/-- Nobody takes two seats. -/
theorem bestCandidate_not_mem {candidate : Address}
    (h : (bestCandidate candidateVotes winners candidates).1 = some candidate) : candidate ∉ winners := by
  have key : ∀ (l : List Address) (best : Option Address × Int), (∀ a, best.1 = some a → a ∉ winners) →
      ∀ a, (l.foldl (fun best candidate =>
        if candidate ∈ winners then best
        else
          let votes := (candidateVotes.lookup candidate).getD 0
          if best.2 < votes then (some candidate, votes) else best) best).1 = some a → a ∉ winners := by
    intro l
    induction l with
    | nil => exact fun _ hbest => hbest
    | cons x l ih =>
      intro best hbest
      refine ih _ ?_
      intro a ha
      by_cases hx : x ∈ winners
      · simp only [if_pos hx] at ha
        exact hbest a ha
      · simp only [if_neg hx] at ha
        split at ha
        · cases ha
          exact hx
        · exact hbest a ha
  exact key candidates (none, i128Min) (by rintro _ ⟨⟩) candidate h

theorem selectLoop_spec {seats : Nat} (h : winners.Nodup) :
    (selectLoop candidateVotes candidates seats winners).Nodup ∧
      (selectLoop candidateVotes candidates seats winners).length ≤ winners.length + seats := by
  induction seats generalizing winners with
  | zero => exact ⟨h, Nat.le_refl _⟩
  | succ seats ih =>
    rw [selectLoop]
    split
    · rename_i candidate hbest
      have hnodup : (winners ++ [candidate]).Nodup := by
        refine List.nodup_append.mpr ⟨h, nodup_singleton _, ?_⟩
        rintro a ha b hb rfl
        exact bestCandidate_not_mem hbest (List.mem_singleton.mp hb ▸ ha)
      obtain ⟨h1, h2⟩ := ih hnodup
      refine ⟨h1, ?_⟩
      rw [length_append, length_singleton] at h2
      omega
    · exact ⟨h, Nat.le_add_right ..⟩

theorem selectElectionWinners_spec (election : CommitteeElection) (candidateVotes : Store Address Int) :
    (selectElectionWinners election candidateVotes).Nodup ∧
      (selectElectionWinners election candidateVotes).length ≤ election.positionsAvailable := by
  obtain ⟨hnodup, hsize⟩ := @selectLoop_spec candidateVotes election.candidates []
    election.positionsAvailable nodup_nil
  rw [length_nil, Nat.zero_add] at hsize
  exact ⟨hnodup, hsize⟩

end Winners

section Moves

variable {w w' : World} {auth : Auth}

theorem ElectionsFrom.of_eq (h : w'.committees.elections = w.committees.elections) :
    ElectionsFrom w w' := by
  intro committeeId election' he
  rw [h] at he
  exact .inl ⟨election', he, rfl⟩

theorem ElectionsFrom.erase {committeeId : Nat}
    (h : w'.committees.elections = w.committees.elections.erase committeeId) : ElectionsFrom w w' := by
  intro i election' he
  rw [h, lookup_erase_eq] at he
  split at he
  · cases he
  · exact .inl ⟨election', he, rfl⟩

theorem ElectionsFrom.insert {committeeId : Nat} {election election' : CommitteeElection}
    (he : w.committees.elections.lookup committeeId = some election)
    (h : w'.committees.elections = w.committees.elections.insert committeeId election')
    (hp : election'.positionsAvailable = election.positionsAvailable) : ElectionsFrom w w' := by
  intro i e hi
  rw [h, Store.lookup_insert_eq] at hi
  split at hi
  · subst ‹i = committeeId›
    cases hi
    exact .inl ⟨election, he, hp⟩
  · exact .inl ⟨e, hi, rfl⟩

theorem findDecision_ok {decisions : List CommitteeDecision} {decisionId index : Nat}
    {decision : CommitteeDecision} :
    findDecision decisions decisionId = .ok (index, decision) ↔ Holds decisions decisionId index decision := by
  simp only [findDecision, Res.bind_ok, Res.ofOption_ok, Res.pure_ok, Prod.mk.injEq]
  constructor
  · rintro ⟨_, hi, _, hd, rfl, rfl⟩
    exact ⟨hi, hd⟩
  · rintro ⟨hi, hd⟩
    exact ⟨index, hi, decision, hd, rfl, rfl⟩

theorem overrideFirst_ok {decisionId : Nat} {decisions decisions' : List CommitteeDecision}
    {overridden : CommitteeDecision}
    (h : overrideFirst decisionId decisions = .ok (decisions', overridden)) :
    ∃ index decision, Holds decisions decisionId index decision ∧
      decisions' = decisions.set index { decision with status := .overridden } := by
  induction decisions generalizing decisions' with
  | nil => cases h
  | cons d rest ih =>
    rw [overrideFirst] at h
    split at h
    · rename_i hid
      simp only [Res.bind_ok, Res.failIf_ok, Res.pure_ok, Prod.mk.injEq] at h
      obtain ⟨_, -, rfl, -⟩ := h
      exact ⟨0, d, ⟨by simp [List.findIdx?_cons, hid], rfl⟩, rfl⟩
    · rename_i hid
      simp only [Res.bind_ok, Res.pure_ok, Prod.mk.injEq] at h
      obtain ⟨⟨_, _⟩, hrest, rfl, rfl⟩ := h
      obtain ⟨index, decision, hd, rfl⟩ := ih hrest
      exact ⟨index + 1, decision, ⟨by simp [List.findIdx?_cons, hid, hd.first], hd.stored⟩, rfl⟩

theorem registry_ok {α : Type} {f : World → Res (CommitteesState × α)} {u : Unit} :
    registry f w = (.ok u, w') ↔ ∃ committees a, f w = .ok (committees, a) ∧ { w with committees } = w' := by
  simp [registry]

theorem finalizeElection_move {committeeId : Nat} {committees : CommitteesState} {r : ElectionResult}
    (h : finalizeElection w.committees w.staked committeeId w.now = .ok (committees, r)) :
    Move w (.finalizeElection committeeId) { w with committees } := by
  simp only [finalizeElection, getElection, getCommittee, Res.bind_ok, Res.ofOption_ok, Res.failIf_ok] at h
  obtain ⟨election, he, _, -, tally, -, h⟩ := h
  split at h
  · cases h
    exact .elect rfl (.erase rfl) rfl
  · split at h
    · cases h
      exact .elect rfl (.erase rfl) rfl
    · split at h
      · rename_i chair _ _ _ hwinners
        simp only [Res.bind_ok, Res.ofOption_ok, Res.pure_ok, Prod.mk.injEq] at h
        obtain ⟨committee, hc, rfl, -⟩ := h
        obtain ⟨hnodup, hsize⟩ := selectElectionWinners_spec election tally.candidateVotes
        exact .seat hc he hnodup hsize ⟨rfl, .erase rfl, rfl⟩
      · cases h
        exact .elect rfl (.erase rfl) rfl

theorem move_of_call {c : Call} (h : invoke auth c w = (.ok (), w')) : Move w c w' := by
  cases c with
  | createCommittee _ _ members _ maxMembers =>
    obtain ⟨_, _, hcreate, rfl⟩ := registry_ok.mp h
    simp only [createCommittee, Res.bind_ok, Res.failIf_ok, Res.pure_ok, Prod.mk.injEq] at hcreate
    obtain ⟨_, -, _, hsize, _, hmembers, _, -, _, -, rfl, -⟩ := hcreate
    have hmax : maxMembers ≤ 15 := by omega
    have hle : members.length ≤ maxMembers := by omega
    have hnodup : members.Nodup := by
      by_contra hdup
      exact hmembers (.inr hdup)
    exact .create hnodup hle hmax rfl ⟨rfl, .of_eq rfl, rfl⟩
  | proposeDecision =>
    simp only [invoke, Tx.bind_ok, requireAuth_ok, registry_ok] at h
    obtain ⟨_, _, ⟨-, rfl⟩, _, _, hpropose, rfl⟩ := h
    simp only [proposeDecision, getCommittee, Res.bind_ok, Res.failIf_ok, Res.ofOption_ok,
      Res.pure_ok, Prod.mk.injEq] at hpropose
    obtain ⟨_, -, committee, hc, _, -, _, -, rfl, -⟩ := hpropose
    exact .propose hc ⟨rfl, .of_eq rfl, rfl⟩
  | voteOnDecision =>
    simp only [invoke, Tx.bind_ok, requireAuth_ok, registry_ok] at h
    obtain ⟨_, _, ⟨-, rfl⟩, _, _, hvote, rfl⟩ := h
    simp only [voteOnDecision, getCommittee, Res.bind_ok, Res.failIf_ok, Res.ofOption_ok,
      Res.pure_ok, Prod.mk.injEq, not_not, Bool.not_eq_true, Option.isSome_eq_false_iff,
      Option.isNone_iff_eq_none] at hvote
    obtain ⟨committee, hc, _, hmember, ⟨index, decision⟩, hd, _, hopen, _, hnew, rfl, -⟩ := hvote
    exact .vote hc hmember (findDecision_ok.mp hd) hopen hnew ⟨rfl, .of_eq rfl, rfl⟩
  | executeDecision =>
    simp only [invoke, executeCommitteeDecision, Tx.bind_ok, requireAuth_ok, Tx.gets_ok, Tx.ofExcept_ok,
      Tx.modify_ok] at h
    obtain ⟨_, _, ⟨-, rfl⟩, _, _, ⟨rfl, rfl⟩, ⟨_, _, _⟩, _, ⟨hexecute, rfl⟩, _, _, rfl, rfl⟩ := h
    simp only [executeDecision, getCommittee, Res.bind_ok, Res.failIf_ok, Res.ofOption_ok,
      Res.pure_ok, Prod.mk.injEq, not_not] at hexecute
    obtain ⟨committee, hc, _, -, _, -, ⟨index, decision⟩, hd, _, happroved, _, -, _, -, _, -, rfl, -, -⟩ := hexecute
    exact .execute hc (findDecision_ok.mp hd) happroved ⟨rfl, .of_eq rfl, rfl⟩
  | startElection committeeId positions =>
    obtain ⟨_, _, hstart, rfl⟩ := registry_ok.mp h
    simp only [startElection, getCommittee, Res.bind_ok, Res.failIf_ok, Res.ofOption_ok,
      Res.pure_ok, Prod.mk.injEq] at hstart
    obtain ⟨committee, hc, _, -, _, hpositions, _, -, _, -, rfl, -⟩ := hstart
    refine .elect rfl ?_ rfl
    intro i election' he
    simp only [CommitteesState.putElection, Store.lookup_insert_eq] at he
    split at he
    · subst ‹i = committeeId›
      cases he
      have hle : positions ≤ committee.maxMembers := by omega
      exact .inr ⟨committee, hc, hle⟩
    · exact .inl ⟨election', he, rfl⟩
  | nominateForCommittee =>
    simp only [invoke, Tx.bind_ok, requireAuth_ok, registry_ok] at h
    obtain ⟨_, _, ⟨-, rfl⟩, _, _, ⟨-, rfl⟩, _, _, hnominate, rfl⟩ := h
    simp only [nominateForCommittee, getElection, Res.bind_ok, Res.failIf_ok, Res.ofOption_ok,
      Res.pure_ok, Prod.mk.injEq] at hnominate
    obtain ⟨election, he, _, -, _, -, rfl, -⟩ := hnominate
    exact .elect rfl (.insert he rfl (by split <;> rfl)) rfl
  | voteInElection =>
    simp only [invoke, Tx.bind_ok, requireAuth_ok, registry_ok] at h
    obtain ⟨_, _, ⟨-, rfl⟩, _, _, hvote, rfl⟩ := h
    simp only [voteInElection, getElection, Res.bind_ok, Res.failIf_ok, Res.ofOption_ok,
      Res.pure_ok, Prod.mk.injEq] at hvote
    obtain ⟨election, he, _, -, _, -, _, -, _, -, rfl, -⟩ := hvote
    exact .elect rfl (.insert he rfl rfl) rfl
  | finalizeElection =>
    obtain ⟨_, _, hfinalize, rfl⟩ := registry_ok.mp h
    exact finalizeElection_move hfinalize
  | setCommunityApprovalRating =>
    obtain ⟨_, _, hset, rfl⟩ := registry_ok.mp h
    simp only [setCommunityApprovalRating, getCommittee, Res.bind_ok, Res.failIf_ok, Res.ofOption_ok,
      Res.pure_ok, Prod.mk.injEq] at hset
    obtain ⟨_, -, committee, hc, rfl, -⟩ := hset
    exact .keep hc ⟨rfl, .of_eq rfl, rfl⟩ rfl rfl rfl
  | overrideDecision =>
    obtain ⟨_, _, hoverride, rfl⟩ := registry_ok.mp h
    simp only [overrideDecision, getCommittee, Res.bind_ok, Res.ofOption_ok, Res.pure_ok, Prod.mk.injEq] at hoverride
    obtain ⟨committee, hc, ⟨decisions, _⟩, hfirst, rfl, -⟩ := hoverride
    obtain ⟨index, decision, hd, rfl⟩ := overrideFirst_ok hfirst
    exact .overridden hc hd ⟨rfl, .of_eq rfl, rfl⟩
  | dissolveCommittee =>
    obtain ⟨_, _, hdissolve, rfl⟩ := registry_ok.mp h
    simp only [dissolveCommittee, getCommittee, Res.bind_ok, Res.failIf_ok, Res.ofOption_ok,
      Res.pure_ok, Prod.mk.injEq] at hdissolve
    obtain ⟨committee, hc, _, -, rfl, -⟩ := hdissolve
    exact .keep hc ⟨rfl, .erase rfl, rfl⟩ rfl rfl rfl

/-- A step is a move by a call, or leaves the committees as they were. -/
theorem Step.cases {ev : Event} (h : Step w ev w') :
    (∃ auth c, ev = .call auth c ∧ Move w c w') ∨ w'.committees = w.committees ∧ w'.executed = w.executed := by
  obtain ⟨-, rfl⟩ := h
  cases ev with
  | call auth c =>
    rcases Tx.exec_cases (invoke auth c) w with ⟨u, hc⟩ | hsame
    · exact .inl ⟨auth, c, rfl, move_of_call hc⟩
    · exact .inr ⟨by rw [next, hsame], by rw [next, hsame]⟩
  | advance => exact .inr ⟨rfl, rfl⟩
  | outside => exact .inr ⟨rfl, rfl⟩

end Moves

/-! ## The rule -/

/-- How many of the members voted so. -/
def votesOf (members : List Address) (votes : Store Address VoteType) (vote : VoteType) : Nat :=
  members.countP fun member => votes.lookup member = some vote

/-- A majority of the members is in favor; or all of them voted, and more in favor than against. -/
def Carried (members : List Address) (votes : Store Address VoteType) : Prop :=
  members.length / 2 + 1 ≤ votesOf members votes .inFavor ∨
    (∀ member ∈ members, (votes.lookup member).isSome) ∧
      votesOf members votes .against < votesOf members votes .inFavor
  deriving Decidable

/-- Everyone who voted is a member. -/
def OnlyMembers (members : List Address) (votes : Store Address VoteType) : Prop :=
  ∀ voter ∈ votes.keys, voter ∈ members
  deriving Decidable

/-- What the code does not ask: a vote finds only members among those who voted before, and the next
identifier of committees is not taken. -/
def World.Current (w : World) : Call → Prop
  | .voteOnDecision committeeId decisionId .. => ∀ committee ∈ w.committees.committees.lookup committeeId,
      ∀ decision ∈ committee.decisions, decision.decisionId = decisionId →
        OnlyMembers committee.members decision.votes
  | .createCommittee .. => w.committees.committees.lookup w.committees.nextCommitteeId = none
  | _ => True

def Current (w : World) : Event → Prop
  | .call _ c => w.Current c
  | .advance _ | .outside .. => True

instance (w : World) (c : Call) : Decidable (w.Current c) := by
  cases c with
  | voteOnDecision => exact inferInstanceAs (Decidable (∀ _ ∈ _, _))
  | createCommittee => exact inferInstanceAs (Decidable (_ = _))
  | _ => exact isTrue trivial

instance (w : World) : (ev : Event) → Decidable (Current w ev)
  | .call _ c => inferInstanceAs (Decidable (w.Current c))
  | .advance _ | .outside .. => isTrue trivial

/-! ## Counters -/

/-- The counter of a vote. -/
def CommitteeDecision.counter (decision : CommitteeDecision) : VoteType → Nat
  | .inFavor => decision.votesFor
  | .against => decision.votesAgainst
  | .abstain => decision.votesAbstain

/-- One for a vote of the kind. -/
def tallied (vote v : VoteType) : Int := if v = vote then 1 else 0

/-- The counters are the numbers of the votes. -/
def CommitteeDecision.Counted (decision : CommitteeDecision) : Prop :=
  ∀ vote, (decision.counter vote : Int) = Store.total (tallied vote) decision.votes

section Counters

variable {members : List Address} {votes : Store Address VoteType} {decision : CommitteeDecision}
  {voter : Address} {vote : VoteType} {size : Nat}

theorem countP_eq_sum {α : Type} (p : α → Bool) (l : List α) :
    (l.countP p : Int) = (l.map fun a => if p a then (1 : Int) else 0).sum := by
  induction l with
  | nil => rfl
  | cons a l ih =>
    rw [countP_cons, map_cons, sum_cons, ← ih]
    push_cast
    split <;> omega

/-- A sum over the votes is a sum over the members, if nobody else voted. -/
theorem countP_members {f : VoteType → Int} {p : Address → Bool} (hnodup : members.Nodup)
    (hm : OnlyMembers members votes) (hp : ∀ m, (if p m then (1 : Int) else 0) = Store.part f votes m) :
    (members.countP p : Int) = Store.total f votes := by
  have hkeys : ∀ m v, votes.lookup m = some v → m ∈ members.toFinset := by
    intro m v hv
    refine List.mem_toFinset.mpr (hm m (AList.mem_keys.mpr ?_))
    exact AList.lookup_isSome.mp (by rw [hv]; rfl)
  rw [countP_eq_sum, total_eq_sum f votes hkeys, sum_toFinset _ hnodup]
  exact congrArg List.sum (map_congr_left fun m _ => hp m)

theorem votesOf_eq (vote : VoteType) (hnodup : members.Nodup) (hm : OnlyMembers members votes) :
    (votesOf members votes vote : Int) = Store.total (tallied vote) votes := by
  refine countP_members hnodup hm fun m => ?_
  unfold Store.part tallied
  cases votes.lookup m with
  | none => simp
  | some v => simp

theorem voted_eq (hnodup : members.Nodup) (hm : OnlyMembers members votes) :
    (members.countP (fun m => (votes.lookup m).isSome) : Int) =
      Store.total (tallied .inFavor) votes + Store.total (tallied .against) votes +
        Store.total (tallied .abstain) votes := by
  rw [← total_add, ← total_add]
  refine countP_members hnodup hm fun m => ?_
  unfold Store.part
  cases votes.lookup m with
  | none => simp
  | some v => cases v <;> rfl

theorem count_votes : (decision.count voter vote).votes = decision.votes.insert voter vote := by
  cases vote <;> rfl

theorem count_decisionId : (decision.count voter vote).decisionId = decision.decisionId := by
  cases vote <;> rfl

theorem count_counter (v : VoteType) : (decision.count voter vote).counter v =
    if v = vote then u32Add (decision.counter v) 1 else decision.counter v := by
  cases vote <;> cases v <;> rfl

theorem CommitteeDecision.Counted.count (h : decision.Counted) (hsmall : ∀ v, decision.counter v < u32Max)
    (hnew : decision.votes.lookup voter = none) : (decision.count voter vote).Counted := by
  intro v
  rw [count_votes, count_counter, total_insert, part_none hnew, ← h v]
  unfold tallied
  by_cases hv : vote = v
  · subst hv
    have := hsmall vote
    rw [if_pos rfl, if_pos rfl]
    unfold u32Add
    omega
  · rw [if_neg hv, if_neg (Ne.symm hv)]
    omega

theorem settle_votes : (decision.settle size).votes = decision.votes := by
  simp only [CommitteeDecision.settle]
  repeat' split
  all_goals rfl

theorem settle_decisionId : (decision.settle size).decisionId = decision.decisionId := by
  simp only [CommitteeDecision.settle]
  repeat' split
  all_goals rfl

theorem CommitteeDecision.Counted.settle (h : decision.Counted) (size : Nat) :
    (decision.settle size).Counted := by
  have hcounter : (decision.settle size).counter = decision.counter := by
    simp only [CommitteeDecision.settle]
    repeat' split
    all_goals rfl
  intro v
  rw [hcounter, settle_votes]
  exact h v

theorem settle_approved (h : (decision.settle size).status = .approved)
    (hopen : decision.status ≠ .approved) :
    size / 2 + 1 ≤ decision.votesFor ∨
      u32Add (u32Add decision.votesFor decision.votesAgainst) decision.votesAbstain = size ∧
        decision.votesAgainst < decision.votesFor := by
  simp only [CommitteeDecision.settle] at h
  split at h
  · exact .inl ‹_›
  · split at h
    · cases h
    · split at h
      · refine .inr ⟨‹_›, ?_⟩
        by_contra hle
        rw [if_neg hle] at h
        cases h
      · exact absurd h hopen

/-- Counters of votes by members only settle by the rule. -/
theorem carried_of_settled (hnodup : members.Nodup) (hsize : members.length ≤ 15)
    (hm : OnlyMembers members decision.votes) (hc : decision.Counted) (hopen : decision.status ≠ .approved)
    (h : (decision.settle members.length).status = .approved) : Carried members decision.votes := by
  have hfor := votesOf_eq .inFavor hnodup hm
  have hagainst := votesOf_eq .against hnodup hm
  have hvoted := voted_eq hnodup hm
  rw [← hc .inFavor] at hfor hvoted
  rw [← hc .against] at hagainst hvoted
  rw [← hc .abstain] at hvoted
  simp only [CommitteeDecision.counter] at hfor hagainst hvoted
  have hle : members.countP (fun m => (decision.votes.lookup m).isSome) ≤ members.length := countP_le_length
  rcases settle_approved h hopen with hmajority | ⟨htotal, hmore⟩
  · exact .inl (by omega)
  · refine .inr ⟨?_, by omega⟩
    refine List.countP_eq_length.mp ?_
    unfold u32Add u32Max at htotal
    omega

end Counters

/-! ## Invariant -/

/-- The decision was executed; it may have been overridden since. -/
def CommitteeDecision.Done (decision : CommitteeDecision) : Prop :=
  decision.status = .executed ∨ decision.status = .overridden

/-- Seats are few and no member has two; the counters of decisions are the numbers of their votes. -/
structure Committee.Kept (committee : Committee) : Prop where
  nodup : committee.members.Nodup
  size : committee.members.length ≤ 15
  max : committee.maxMembers ≤ 15
  counted (decision : CommitteeDecision) : decision ∈ committee.decisions → decision.Counted

structure Kept (w : World) : Prop where
  committee : Store.All Committee.Kept w.committees.committees
  election : Store.All (·.positionsAvailable ≤ 15) w.committees.elections
  once : w.executed.Nodup
  executed (committeeId decisionId : Nat) : (committeeId, decisionId) ∈ w.executed →
    ∃ committee index decision, w.committees.committees.lookup committeeId = some committee ∧
      Holds committee.decisions decisionId index decision ∧ decision.Done

section Decisions

variable {decisions : List CommitteeDecision} {decisionId index i id : Nat}
  {decision decision' d : CommitteeDecision}

theorem Holds.mem (h : Holds decisions decisionId index decision) : decision ∈ decisions := mem_of_getElem? h.stored

theorem Holds.named (h : Holds decisions decisionId index decision) : decision.decisionId = decisionId := by
  obtain ⟨hlt, hp, -⟩ := List.findIdx?_eq_some_iff_getElem.mp h.first
  have hget := h.stored
  rw [List.getElem?_eq_getElem hlt, Option.some.injEq] at hget
  rw [← hget]
  exact of_decide_eq_true hp

theorem Holds.unique (h : Holds decisions decisionId index decision) (h' : Holds decisions decisionId i d) :
    decision = d := by
  have hi : index = i := Option.some.inj (h.first.symm.trans h'.first)
  subst hi
  exact Option.some.inj (h.stored.symm.trans h'.stored)

theorem Holds.append (h : Holds decisions decisionId index decision) (l : List CommitteeDecision) :
    Holds (decisions ++ l) decisionId index decision where
  first := by rw [List.findIdx?_append, h.first]; rfl
  stored := by
    rw [List.getElem?_append_left (List.getElem?_eq_some_iff.mp h.stored).1]
    exact h.stored

/-- A decision is replaced by one with the same identifier. -/
theorem Holds.set (h : Holds decisions decisionId index decision)
    (hid : decision'.decisionId = decision.decisionId) (hi : Holds decisions id i d) :
    Holds (decisions.set index decision') id i (if i = index then decision' else d) where
  first := by
    have hids : (decisions.set index decision').map (·.decisionId) = decisions.map (·.decisionId) := by
      refine ext_getElem? fun n => ?_
      rw [List.getElem?_map, List.getElem?_map, List.getElem?_set]
      split
      · subst ‹index = n›
        rw [if_pos (List.getElem?_eq_some_iff.mp h.stored).1, h.stored]
        exact congrArg some hid
      · rfl
    have hfind : ∀ l : List CommitteeDecision, l.findIdx? (·.decisionId = id) =
        (l.map (·.decisionId)).findIdx? (· = id) := by
      intro l
      rw [List.findIdx?_map]
      rfl
    rw [hfind, hids, ← hfind]
    exact hi.first
  stored := by
    rw [List.getElem?_set]
    by_cases hn : i = index
    · subst hn
      rw [if_pos rfl, if_pos (List.getElem?_eq_some_iff.mp h.stored).1, if_pos rfl]
    · rw [if_neg (Ne.symm hn), if_neg hn]
      exact hi.stored

theorem Holds.set_done (h : Holds decisions decisionId index decision)
    (hid : decision'.decisionId = decision.decisionId) (hdone : decision.Done → decision'.Done)
    (hi : Holds decisions id i d) (hs : d.Done) :
    ∃ d', Holds (decisions.set index decision') id i d' ∧ d'.Done := by
  refine ⟨_, h.set hid hi, ?_⟩
  split
  · subst ‹i = index›
    have heq : d = decision := Option.some.inj (hi.stored.symm.trans h.stored)
    exact hdone (heq ▸ hs)
  · exact hs

theorem counted_newDecision {proposal : Bytes} {action : CommitteeAction} {now : Nat} :
    (newDecision decisionId proposal action now).Counted := by
  intro vote
  cases vote <;> rfl

end Decisions

section Steps

variable {w w' : World} {auth : Auth} {c : Call} {committeeId decisionId index : Nat}
  {committee committee' : Committee} {decision : CommitteeDecision}

theorem ElectionsFrom.kept (h : ElectionsFrom w w') (hk : Kept w) :
    Store.All (·.positionsAvailable ≤ 15) w'.committees.elections := by
  intro i election' he
  rcases h i election' he with ⟨election, he, heq⟩ | ⟨committee, hc, hle⟩
  · exact heq ▸ hk.election i election he
  · exact Nat.le_trans hle (hk.committee i committee hc).max

/-- A committee is written, and the decisions of it that were executed stay so. -/
theorem Kept.put {executed : List (Nat × Nat)} (h : Kept w)
    (hp : Puts w w' committeeId committee' executed) (hc : committee'.Kept) (honce : executed.Nodup)
    (hdone : ∀ id, (committeeId, id) ∈ executed → ∃ i d, Holds committee'.decisions id i d ∧ d.Done)
    (hrest : ∀ j id, j ≠ committeeId → (j, id) ∈ executed → (j, id) ∈ w.executed) : Kept w' where
  committee := by rw [hp.committees]; exact h.committee.insert hc
  election := hp.elections.kept h
  once := by rw [hp.executed]; exact honce
  executed j id hm := by
    rw [hp.executed] at hm
    rw [hp.committees, Store.lookup_insert_eq]
    by_cases hj : j = committeeId
    · subst hj
      obtain ⟨i, d, hd, hs⟩ := hdone id hm
      exact ⟨committee', i, d, if_pos rfl, hd, hs⟩
    · obtain ⟨q, i, d, hq, hd⟩ := h.executed j id (hrest j id hj hm)
      exact ⟨q, i, d, by rw [if_neg hj]; exact hq, hd⟩

/-- Nothing is executed. -/
theorem Kept.change (h : Kept w) (hc : w.committees.committees.lookup committeeId = some committee)
    (hp : Puts w w' committeeId committee' w.executed) (hk : committee'.Kept)
    (hdone : ∀ id i d, Holds committee.decisions id i d → d.Done →
      ∃ d', Holds committee'.decisions id i d' ∧ d'.Done) : Kept w' := by
  refine h.put hp hk h.once (fun id hm => ?_) fun _ _ _ hm => hm
  obtain ⟨q, i, d, hq, hd, hs⟩ := h.executed committeeId id hm
  rw [hc] at hq
  cases hq
  obtain ⟨d', hd', hs'⟩ := hdone id i d hd hs
  exact ⟨i, d', hd', hs'⟩

theorem Committee.Kept.set {decision' : CommitteeDecision} {performanceMetrics : PerformanceMetrics}
    (hk : committee.Kept) (hcount : decision'.Counted) :
    { committee with
      decisions := committee.decisions.set index decision', performanceMetrics }.Kept where
  nodup := hk.nodup
  size := hk.size
  max := hk.max
  counted d hd := by
    rcases mem_or_eq_of_mem_set hd with hd | rfl
    · exact hk.counted d hd
    · exact hcount

/-- The votes of a decision after a vote, by a committee of which all who voted are members. -/
theorem Kept.voted (h : Kept w) {voter : Address} (vote : VoteType)
    (hc : w.committees.committees.lookup committeeId = some committee)
    (hmember : voter ∈ committee.members) (hd : Holds committee.decisions decisionId index decision)
    (hm : OnlyMembers committee.members decision.votes) (hnew : decision.votes.lookup voter = none) :
    (decision.count voter vote).Counted ∧ OnlyMembers committee.members (decision.count voter vote).votes := by
  have hk := h.committee committeeId committee hc
  have hcount := hk.counted decision hd.mem
  refine ⟨hcount.count (fun v => ?_) hnew, ?_⟩
  · have hle : votesOf committee.members decision.votes v ≤ committee.members.length :=
      countP_le_length
    have heq := votesOf_eq v hk.nodup hm
    rw [← hcount v] at heq
    have hsize := hk.size
    unfold u32Max
    omega
  · intro a ha
    rw [count_votes, AList.keys_insert] at ha
    rcases List.mem_cons.mp ha with rfl | ha
    · exact hmember
    · exact hm a (mem_of_mem_erase ha)

theorem Kept.move (h : Kept w) (hu : w.Current c) (hm : Move w c w') : Kept w' := by
  cases hm with
  | create hnodup hsize hmax hnew hp =>
    refine h.put hp ⟨hnodup, Nat.le_trans hsize hmax, hmax, by simp [hnew]⟩ h.once (fun id hm => ?_)
      fun _ _ _ hm => hm
    obtain ⟨q, i, d, hq, -⟩ := h.executed _ id hm
    rw [show w.committees.committees.lookup w.committees.nextCommitteeId = none from hu] at hq
    cases hq
  | propose hc hp =>
    have hk := h.committee _ _ hc
    refine h.change hc hp ⟨hk.nodup, hk.size, hk.max, fun d hd => ?_⟩ fun id i d hd hs =>
      ⟨d, hd.append _, hs⟩
    rcases List.mem_append.mp hd with hd | hd
    · exact hk.counted d hd
    · rw [List.mem_singleton.mp hd]
      exact counted_newDecision
  | @vote _ _ _ voter vote committee decision _ hc hmember hd hopen hnew hp =>
    have hk := h.committee _ _ hc
    obtain ⟨hcount, -⟩ := h.voted vote hc hmember hd (hu _ hc _ hd.mem hd.named) hnew
    have hsettled := hcount.settle committee.members.length
    refine h.change hc hp (hk.set hsettled) fun id i d hi hs =>
      hd.set_done (settle_decisionId.trans count_decisionId) (fun hdone => ?_) hi hs
    -- an open decision was not executed
    rcases hdone with hdone | hdone <;> (rw [hopen] at hdone; cases hdone)
  | @execute committeeId decisionId index _ committee decision _ _ hc hd happroved hp =>
    have hk := h.committee _ _ hc
    have hnew : (committeeId, decisionId) ∉ w.executed := by
      intro hm
      obtain ⟨q, i, d, hq, hi, hs⟩ := h.executed _ _ hm
      rw [hc] at hq
      cases hq
      rw [hi.unique hd] at hs
      rcases hs with hs | hs <;> (rw [happroved] at hs; cases hs)
    refine h.put hp (hk.set (hk.counted decision hd.mem)) (List.nodup_cons.mpr ⟨hnew, h.once⟩)
      (fun id hm => ?_) fun j id hj hm => ?_
    · rcases List.mem_cons.mp hm with heq | hm
      · cases heq
        refine ⟨index, _, hd.set rfl hd, ?_⟩
        rw [if_pos rfl]
        exact .inl rfl
      · obtain ⟨q, i, d, hq, hi, hs⟩ := h.executed _ id hm
        rw [hc] at hq
        cases hq
        exact ⟨i, hd.set_done rfl (fun _ => .inl rfl) hi hs⟩
    · rcases List.mem_cons.mp hm with heq | hm
      · cases heq
        exact absurd rfl hj
      · exact hm
  | @overridden _ _ _ committee decision _ _ hc hd hp =>
    have hk := h.committee _ _ hc
    exact h.change hc hp (hk.set (hk.counted decision hd.mem)) fun id i d hi hs =>
      hd.set_done rfl (fun _ => .inr rfl) hi hs
  | seat hc he hnodup hsize hp =>
    have hk := h.committee _ _ hc
    have hle := Nat.le_trans hsize (h.election _ _ he)
    exact h.change hc hp ⟨hnodup, hle, hk.max, hk.counted⟩ fun _ _ d hd hs => ⟨d, hd, hs⟩
  | keep hc hp hmembers hmax hdecisions =>
    have hk := h.committee _ _ hc
    refine h.change hc hp ⟨?_, ?_, ?_, ?_⟩ fun _ _ d hd hs => ⟨d, hdecisions ▸ hd, hs⟩
    · rw [hmembers]; exact hk.nodup
    · rw [hmembers]; exact hk.size
    · rw [hmax]; exact hk.max
    · rw [hdecisions]; exact hk.counted
  | elect hcommittees helections hexecuted =>
    refine ⟨?_, helections.kept h, ?_, ?_⟩
    · rw [hcommittees]; exact h.committee
    · rw [hexecuted]; exact h.once
    · rw [hcommittees, hexecuted]; exact h.executed

theorem Kept.step {ev : Event} (h : Kept w) (hu : Current w ev) (hs : Step w ev w') : Kept w' := by
  rcases hs.cases with ⟨auth, c, rfl, hm⟩ | ⟨hcommittees, hexecuted⟩
  · exact h.move hu hm
  · refine ⟨?_, ?_, ?_, ?_⟩
    · rw [hcommittees]; exact h.committee
    · rw [hcommittees]; exact h.election
    · rw [hexecuted]; exact h.once
    · rw [hcommittees, hexecuted]; exact h.executed

theorem Kept.start (now : Nat) (books : Books) : Kept (World.deployed now books) where
  committee := all_empty _
  election := all_empty _
  once := nodup_nil
  executed := by rintro _ _ ⟨⟩

/-! ## Approval -/

/-- A decision of the committee that is approved was so before, or carries now. -/
def ApprovedByRule (decisions : List CommitteeDecision) (committee : Committee) : Prop :=
  ∀ (index : Nat) (decision' : CommitteeDecision),
    committee.decisions[index]? = some decision' → decision'.status = .approved →
    (∃ decision, decisions[index]? = some decision ∧ decision.status = .approved) ∨
      Carried committee.members decision'.votes

theorem ApprovedByRule.same (h : committee'.decisions = committee.decisions) :
    ApprovedByRule committee.decisions committee' := by
  intro i d' hd hs
  rw [h] at hd
  exact .inl ⟨d', hd, hs⟩

/-- One decision is replaced. -/
theorem ApprovedByRule.set {decision' : CommitteeDecision} {performanceMetrics : PerformanceMetrics}
    (hd : Holds committee.decisions decisionId index decision)
    (h : decision'.status = .approved → Carried committee.members decision'.votes) :
    ApprovedByRule committee.decisions { committee with
      decisions := committee.decisions.set index decision', performanceMetrics } := by
  intro i d' hi hs
  rw [List.getElem?_set] at hi
  split at hi
  · rw [if_pos (by have := (List.getElem?_eq_some_iff.mp hd.stored).1; omega)] at hi
    cases hi
    exact .inr (h hs)
  · exact .inl ⟨d', hi, hs⟩

theorem Kept.approved (h : Kept w) (hu : w.Current c) (hm : Move w c w') (committeeId : Nat)
    (committee' : Committee) (hc' : w'.committees.committees.lookup committeeId = some committee') :
    ApprovedByRule ((w.committees.committees.lookup committeeId).elim [] (·.decisions)) committee' := by
  -- the committee that was written apart, nothing changed
  have key : ∀ {j : Nat} {q q' : Committee} {executed : List (Nat × Nat)}, Puts w w' j q' executed →
      w.committees.committees.lookup j = some q → ApprovedByRule q.decisions q' →
      ApprovedByRule ((w.committees.committees.lookup committeeId).elim [] (·.decisions)) committee' := by
    intro j q q' executed hp hq hrule
    rw [hp.committees, Store.lookup_insert_eq] at hc'
    split at hc'
    · subst ‹committeeId = j›
      cases hc'
      rw [hq]
      exact hrule
    · rw [hc']
      exact .same rfl
  cases hm with
  | create _ _ _ hnew hp =>
    rw [hp.committees, Store.lookup_insert_eq] at hc'
    split at hc'
    · cases hc'
      intro i d' hd
      rw [hnew] at hd
      cases hd
    · rw [hc']
      exact .same rfl
  | propose hc hp =>
    refine key hp hc fun i d' hd hs => .inl ⟨d', ?_, hs⟩
    rw [List.getElem?_append] at hd
    split at hd
    · exact hd
    · rw [List.getElem?_singleton] at hd
      split at hd
      · cases hd
        cases hs
      · cases hd
  | @vote _ _ _ voter vote committee decision _ hc hmember hd hopen hnew hp =>
    have hk := h.committee _ _ hc
    obtain ⟨hcount, hmembers⟩ := h.voted vote hc hmember hd (hu _ hc _ hd.mem hd.named) hnew
    have hvoting : (decision.count voter vote).status = .voting := by
      cases vote <;> exact hopen
    refine key hp hc (.set hd fun hs => ?_)
    rw [settle_votes]
    exact carried_of_settled hk.nodup hk.size hmembers hcount (by rw [hvoting]; nofun) hs
  | execute hc hd _ hp => exact key hp hc (.set hd nofun)
  | overridden hc hd hp => exact key hp hc (.set hd nofun)
  | seat hc _ _ _ hp => exact key hp hc (.same rfl)
  | keep hc hp _ _ hdecisions => exact key hp hc (.same hdecisions)
  | elect hcommittees =>
    rw [hcommittees] at hc'
    rw [hc']
    exact .same rfl

end Steps

/-- In every run in which a vote finds only members among those who voted before, and no committee takes the
place of another: a decision becomes approved only when it carries by the votes of the members that the
committee then has, and it is executed at most once. -/
theorem carried_of_current {now : Nat} {books : Books} {w : World}
    (h : Reaches (fun w ev w' => Current w ev ∧ Step w ev w') (World.deployed now books) w) :
    w.executed.Nodup ∧
    ∀ ev w', Current w ev → Step w ev w' →
      ∀ (committeeId index : Nat) (committee : Committee) (decision : CommitteeDecision),
      w'.committees.committees.lookup committeeId = some committee →
      committee.decisions[index]? = some decision → decision.status = .approved →
      (∃ committee₀ decision₀, w.committees.committees.lookup committeeId = some committee₀ ∧
        committee₀.decisions[index]? = some decision₀ ∧ decision₀.status = .approved) ∨
      Carried committee.members decision.votes := by
  have hk : Kept w := h.invariant (.start now books) fun _ _ _ hI ⟨hu, hs⟩ => hI.step hu hs
  refine ⟨hk.once, fun ev w' hu hs committeeId index committee decision hc hd happroved => ?_⟩
  rcases hs.cases with ⟨auth, c, rfl, hm⟩ | ⟨hcommittees, -⟩
  · rcases hk.approved hu hm committeeId committee hc index decision hd happroved with
      ⟨d, hd, hs⟩ | hcarried
    · cases hq : w.committees.committees.lookup committeeId with
      | none =>
        rw [hq] at hd
        cases hd
      | some q =>
        rw [hq] at hd
        exact .inl ⟨q, d, rfl, hd, hs⟩
    · exact .inr hcarried
  · rw [hcommittees] at hc
    exact .inl ⟨committee, decision, hc, hd, happroved⟩

namespace Sample

def alice : Address := ⟨1⟩
def bob : Address := ⟨2⟩
def carol : Address := ⟨3⟩
def dave : Address := ⟨4⟩
def erin : Address := ⟨5⟩
def frank : Address := ⟨6⟩

/-- A call that everyone who has to authorized. -/
def callOf (c : Call) : Event := .call (fun _ => true) c

def start : World := .deployed 0 ⟨Treasury.empty, none⟩

/-- The status of the first decision of the first committee. -/
def firstStatus (w : World) : Option DecisionStatus :=
  (w.committees.committees.lookup 1).bind fun committee => (committee.decisions[0]?).map (·.status)

/-- A committee of three, a decision, and a vote for it. -/
def openRun : List Event :=
  [callOf (.createCommittee [99] [100] [alice, bob, carol] alice 5 [.veto [[1]]] none),
    callOf (.proposeDecision 1 alice [112] (.veto [1] [114])),
    callOf (.voteOnDecision 1 1 alice .inFavor)]

/-- The second vote carries the decision; it is executed once, and overridden. -/
def executedRun : List Event :=
  openRun ++ [callOf (.voteOnDecision 1 1 bob .inFavor), callOf (.executeDecision 1 1 carol),
    callOf (.executeDecision 1 1 carol), callOf (.overrideDecision 1 1),
    callOf (.executeDecision 1 1 carol)]

/-- Two of three members are a majority. -/
theorem second_vote_carries :
    let w := run start openRun
    let w' := next w (callOf (.voteOnDecision 1 1 bob .inFavor))
    firstStatus w = some .voting ∧ firstStatus w' = some .approved ∧
      (run start executedRun).executed = [(1, 1)] ∧ (run start executedRun).executed.Nodup ∧
      ∀ committee decision, w'.committees.committees.lookup 1 = some committee →
        committee.decisions[0]? = some decision → decision.status = .approved →
        (∃ committee₀ decision₀, w.committees.committees.lookup 1 = some committee₀ ∧
          committee₀.decisions[0]? = some decision₀ ∧ decision₀.status = .approved) ∨
        Carried committee.members decision.votes := by
  have hopen := @reaches_run Current start openRun (by decide +kernel)
  have hexecuted := @reaches_run Current start executedRun (by decide +kernel)
  refine ⟨by decide +kernel, by decide +kernel, by decide +kernel, (carried_of_current hexecuted).1, ?_⟩
  exact (carried_of_current hopen).2 (callOf (.voteOnDecision 1 1 bob .inFavor)) _ (by decide +kernel)
    ⟨trivial, rfl⟩ 1 0

/-- The members are replaced while the decision is open, and one of the new ones votes for it. -/
def replacedRun : List Event :=
  openRun ++ [.outside ⟨Treasury.empty, none⟩ (fun _ => 10), callOf (.startElection 1 3 1 0 0),
    callOf (.nominateForCommittee 1 dave bob), callOf (.nominateForCommittee 1 erin bob),
    callOf (.nominateForCommittee 1 frank bob), callOf (.voteInElection 1 bob erin), .advance 86400,
    callOf (.finalizeElection 1), callOf (.voteOnDecision 1 1 dave .inFavor)]

/-- A vote counts on after its member was removed. -/
theorem former_member_carries :
    let w := run start replacedRun
    firstStatus (run start replacedRun.dropLast) = some .voting ∧ firstStatus w = some .approved ∧
      ((w.committees.committees.lookup 1).bind fun committee => (committee.decisions[0]?).map fun decision =>
        (committee.members, votesOf committee.members decision.votes .inFavor,
          decide (Carried committee.members decision.votes))) = some ([erin, dave, frank], 1, false) := by
  decide +kernel

end Sample

end Committees

end CallStake.Governance
