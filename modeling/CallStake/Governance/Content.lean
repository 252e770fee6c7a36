import CallStake.Governance.Deposits
import CallStake.Governance.Tally

/-!
# What a proposal was voted on (`proposals::create_proposal`, `cast_vote`)

Every entrypoint reads a proposal, changes some fields and stores it again, so what its voters read and
what they said is kept only if no entrypoint writes more than it should.

* `Proposal.terms`: what is fixed when a proposal is created.
* `Proposal.Continues now p q`: `q` is `p` at a later time. The terms are the same, votes are only added,
  and none is added where `p` was closed at `now`.
* `Docket.Faithful.move`: every move continues the proposals, if a new one has a new identifier.
* `content_of_fresh`: so does every run.
* `votes_in_time`: every vote that is recorded was cast in the time of its proposal.
-/

namespace CallStake.Governance

/-- All of a proposal but its votes, its status and the time of its execution. -/
def Proposal.terms (p : Proposal) : Proposal :=
  { p with
    votesFor := 0, votesAgainst := 0, votesAbstain := 0, status := .pending, voters := ∅
    voterList := [], executedAt := none }

/-- No vote is admitted any more. -/
def Proposal.Closed (p : Proposal) (now : Nat) : Prop := p.votingEnds ≤ now ∨ ¬ p.IsOpen

/-- `v` is a vote of `voter` in the time in which `p` is voted on. -/
structure Vote.CastFor (v : Vote) (p : Proposal) (voter : Address) : Prop where
  voter : v.voter = voter
  starts : p.votingStarts ≤ v.timestamp
  ends : v.timestamp < p.votingEnds
  discussed : p.discussionEndsAt ≤ v.timestamp

def Proposal.VotesInTime (p : Proposal) : Prop := ∀ voter v, p.voters.lookup voter = some v → v.CastFor p voter

/-- `q` is a later state of `p`. -/
structure Proposal.Continues (now : Nat) (p q : Proposal) : Prop where
  terms : q.terms = p.terms
  listed : p.voterList <+: q.voterList
  votes (voter : Address) (v : Vote) : p.voters.lookup voter = some v → q.voters.lookup voter = some v
  added (voter : Address) (v : Vote) : q.voters.lookup voter = some v →
    p.voters.lookup voter = some v ∨ now ≤ v.timestamp ∧ v.CastFor p voter
  ended : ¬ p.IsOpen → ¬ q.IsOpen
  closed : p.Closed now → q.ballot = p.ballot

/-- From `d` to `d'`: the powers that were kept for the votes stay, a proposal that was removed stays
removed, those that are stored continue, and new ones have votes in their time only. -/
structure Docket.Faithful (now : Nat) (d d' : Docket) : Prop where
  snapshots (id : Nat) (kept : Store Address Int) :
    d.snapshots.lookup id = some kept → d'.snapshots.lookup id = some kept
  gone (id : Nat) : (d.snapshots.lookup id).isSome → d.proposals.lookup id = none → d'.proposals.lookup id = none
  proposals (id : Nat) (p q : Proposal) : d.proposals.lookup id = some p →
    d'.proposals.lookup id = some q → p.Continues now q
  new (id : Nat) (q : Proposal) : d.proposals.lookup id = none → d'.proposals.lookup id = some q → q.VotesInTime

/-! ## One proposal -/

theorem Vote.castFor_terms {v : Vote} {p : Proposal} {voter : Address} :
    v.CastFor p.terms voter ↔ v.CastFor p voter :=
  ⟨fun h => ⟨h.voter, h.starts, h.ends, h.discussed⟩, fun h => ⟨h.voter, h.starts, h.ends, h.discussed⟩⟩

namespace Proposal.Continues

variable {now now₁ : Nat} {p q r : Proposal}

/-- Nothing was voted meanwhile. -/
theorem of_ballot (hterms : q.terms = p.terms) (hb : q.ballot = p.ballot)
    (hended : ¬ p.IsOpen → ¬ q.IsOpen) : p.Continues now q where
  terms := hterms
  listed := by
    have hl : q.voterList = p.voterList := congrArg Prod.fst hb
    exact hl ▸ List.prefix_refl _
  votes voter v hv := by
    have hvoters : q.voters = p.voters := congrArg (fun b => b.2.1) hb
    exact hvoters ▸ hv
  added voter v hv := by
    have hvoters : q.voters = p.voters := congrArg (fun b => b.2.1) hb
    exact .inl (hvoters ▸ hv)
  ended := hended
  closed _ := hb

theorem refl (now : Nat) (p : Proposal) : p.Continues now p := of_ballot rfl rfl fun h => h

theorem votingEnds (h : p.Continues now q) : q.votingEnds = p.votingEnds := by
  have hends : q.terms.votingEnds = p.terms.votingEnds := by rw [h.terms]
  exact hends

/-- The terms say what a vote in time is. -/
theorem castFor_iff (h : p.Continues now q) {v : Vote} {voter : Address} :
    v.CastFor q voter ↔ v.CastFor p voter := by
  rw [← Vote.castFor_terms, h.terms, Vote.castFor_terms]

theorem votesInTime (h : p.Continues now q) (hp : p.VotesInTime) : q.VotesInTime := by
  intro voter v hv
  rcases h.added voter v hv with hold | ⟨-, hcast⟩
  · exact h.castFor_iff.mpr (hp voter v hold)
  · exact h.castFor_iff.mpr hcast

theorem trans (h : p.Continues now q) (h' : q.Continues now₁ r) (hnow : now ≤ now₁) :
    p.Continues now r where
  terms := h'.terms.trans h.terms
  listed := h.listed.trans h'.listed
  votes voter v hv := h'.votes voter v (h.votes voter v hv)
  added voter v hv := by
    rcases h'.added voter v hv with hq | ⟨hlate, hcast⟩
    · exact h.added voter v hq
    · exact .inr ⟨hnow.trans hlate, h.castFor_iff.mp hcast⟩
  ended hp := h'.ended (h.ended hp)
  closed hp := by
    have hq : q.Closed now₁ := by
      rcases hp with hends | hopen
      · exact .inl (by rw [h.votingEnds]; exact hends.trans hnow)
      · exact .inr (h.ended hopen)
    exact (h'.closed hq).trans (h.closed hp)

end Proposal.Continues

/-- Whoever may vote does so in the time of the proposal. -/
theorem requireVotable_window {p : Proposal} {voter : Address} {now : Nat} {u : Unit}
    (h : requireVotable p voter now = .ok u) :
    p.votingStarts ≤ now ∧ now < p.votingEnds ∧ p.discussionEndsAt ≤ now := by
  simp [requireVotable] at h
  omega

/-- A vote that is admitted is added behind the others. -/
theorem Proposal.continues_addVote {p : Proposal} {vote : Vote} {now : Nat} {u : Unit} {sum : Int}
    (ht : vote.timestamp = now) (h : requireVotable p vote.voter now = .ok u) :
    p.Continues now (p.addVote vote sum) where
  terms := by cases ht : vote.voteType <;> simp [terms, addVote, setTally, ht]
  listed := by
    rw [addVote_voterList]
    exact List.prefix_append _ _
  votes voter v hv := by
    have hne : voter ≠ vote.voter := by
      rintro rfl
      rw [(requireVotable_ok h).2] at hv
      cases hv
    rw [addVote_voters, AList.lookup_insert_ne hne]
    exact hv
  added voter v hv := by
    obtain ⟨hstarts, hends, hdiscussed⟩ := requireVotable_window h
    rw [addVote_voters, Store.lookup_insert_eq] at hv
    split at hv
    · cases hv
      subst ht
      exact .inr ⟨le_rfl, Eq.symm ‹_›, hstarts, hends, hdiscussed⟩
    · exact .inl hv
  ended hp := absurd (requireVotable_ok h).1 hp
  closed hp := by
    rcases hp with hends | hopen
    · exact absurd (requireVotable_window h).2.1 (Nat.not_lt.mpr hends)
    · exact absurd (requireVotable_ok h).1 hopen

/-! ## The docket -/

namespace Docket.Faithful

variable {d d₁ d' : Docket} {p p' : Proposal} {id now now₁ : Nat}

theorem of_same (hs : d'.snapshots = d.snapshots) (hp : d'.proposals = d.proposals) :
    Faithful now d d' where
  snapshots i kept hi := by rw [hs]; exact hi
  gone i _ hi := by rw [hp]; exact hi
  proposals i p q hi hq := by
    rw [hp, hi] at hq
    cases hq
    exact .refl now p
  new i q hi hq := by
    rw [hp, hi] at hq
    cases hq

theorem trans (hw : d.WellFormed) (h : Faithful now d d₁) (h' : Faithful now₁ d₁ d')
    (hnow : now ≤ now₁) : Faithful now d d' where
  snapshots i kept hi := h'.snapshots i kept (h.snapshots i kept hi)
  gone i hi hnone := by
    obtain ⟨kept, hkept⟩ := Option.isSome_iff_exists.mp hi
    exact h'.gone i (by rw [h.snapshots i kept hkept]; rfl) (h.gone i hi hnone)
  proposals i p q hp hq := by
    cases h₁ : d₁.proposals.lookup i with
    | none =>
      obtain ⟨kept, hkept⟩ := Option.isSome_iff_exists.mp (hw.kept_of hp)
      have hnone := h'.gone i (by rw [h.snapshots i kept hkept]; rfl) h₁
      rw [hnone] at hq
      cases hq
    | some p₁ => exact (h.proposals i p p₁ hp h₁).trans (h'.proposals i p₁ q h₁ hq) hnow
  new i q hnone hq := by
    cases h₁ : d₁.proposals.lookup i with
    | none => exact h'.new i q h₁ hq
    | some p₁ => exact (h'.proposals i p₁ q h₁ hq).votesInTime (h.new i p₁ hnone h₁)

theorem put (hw : d.WellFormed) (hp : d.proposals.lookup id = some p) (hid : p'.id = p.id)
    (hc : p.Continues now p') : Faithful now d (d.put p') where
  snapshots i kept hi := hi
  gone i _ hnone := by
    have hne : i ≠ p'.id := by
      rintro rfl
      rw [hid, hw.keyed id p hp, hp] at hnone
      cases hnone
    rw [Docket.put, AList.lookup_insert_ne hne]
    exact hnone
  proposals i p₀ q hp₀ hq := by
    rw [Docket.put, Store.lookup_insert_eq] at hq
    split at hq
    · rename_i heq
      rw [heq, hid, hw.keyed id p hp, hp] at hp₀
      cases hp₀
      cases hq
      exact hc
    · rw [hp₀] at hq
      cases hq
      exact .refl now p₀
  new i q hnone hq := by
    rw [Docket.put, Store.lookup_insert_eq] at hq
    split at hq
    · rename_i heq
      rw [heq, hid, hw.keyed id p hp, hp] at hnone
      cases hnone
    · rw [hnone] at hq
      cases hq

/-- The status changes, and what is over stays over. -/
theorem status (hw : d.WellFormed) (hp : d.proposals.lookup id = some p) {status : ProposalStatus}
    (hover : status ≠ .pending ∧ status ≠ .active) : Faithful now d (d.put (p.withStatus status)) :=
  put hw hp rfl (.of_ballot rfl rfl fun _ h => h.elim hover.1 hover.2)

/-- An action is applied and its proposal marked. -/
theorem marked (hw : d.WellFormed) (hp : d.proposals.lookup id = some p) (t : Nat) :
    Faithful now d (d.put (p.markExecuted t)) :=
  put hw hp rfl (.of_ballot rfl rfl fun _ h => by rcases h with h | h <;> cases h)

theorem executed (hw : d.WellFormed) (hp : d.proposals.lookup id = some p) (h : Executed d p d') :
    Faithful now d d' := by
  obtain ⟨t, -, rfl⟩ := h.effect
  exact (of_same rfl rfl : Faithful now d (d.apply p t)).trans hw (marked (hw.apply t) hp d.now) le_rfl

theorem runsEach (hw : d.WellFormed) {ids : List Nat} (h : RunsEach ids d d') : Faithful now d d' := by
  induction h with
  | nil => exact of_same rfl rfl
  | skip _ ih => exact ih hw
  | @run actionId ids d d₁ d' a p t hrun _ ih =>
    have h₁ : Faithful now d d₁ := by
      rw [hrun.eq]
      exact (of_same rfl rfl : Faithful now d ((d.apply p t).requeue _)).trans hw
        (marked ((hw.apply t).requeue _) hrun.stored d.now) le_rfl
    exact h₁.trans hw (ih (hw.runsEntry hrun)) le_rfl

theorem settled {treasury : Address} (h : Settled d id treasury d') : Faithful now d d' := by
  cases h <;> exact of_same rfl rfl

theorem refunded {proposer : Address} (h : Refunded d id proposer d') : Faithful now d d' := by
  cases h <;> exact of_same rfl rfl

/-- A new proposal under a new identifier. -/
theorem create (hid : (d.snapshots.lookup p.id).isSome = false) (hv : p.voters = ∅) (hw : d.WellFormed)
    (snapshots : Store Address Int) (proposer : Address) :
    Faithful now d ((d.add p snapshots).lock p.id proposer) := by
  have hne {i : Nat} (hi : (d.snapshots.lookup i).isSome) : i ≠ p.id := by
    rintro rfl
    rw [hid] at hi
    cases hi
  constructor
  case snapshots =>
    intro i kept hi
    simp only [Docket.lock, Docket.add, AList.lookup_insert_ne (hne (by rw [hi]; rfl))]
    exact hi
  case gone =>
    intro i hi hnone
    simp only [Docket.lock, Docket.add, AList.lookup_insert_ne (hne hi)]
    exact hnone
  case proposals =>
    intro i p₀ q hp₀ hq
    simp only [Docket.lock, Docket.add, AList.lookup_insert_ne (hne (hw.kept_of hp₀))] at hq
    rw [hp₀] at hq
    cases hq
    exact .refl now p₀
  case new =>
    intro i q hnone hq
    simp only [Docket.lock, Docket.add, Store.lookup_insert_eq] at hq
    split at hq
    · cases hq
      intro voter v hvote
      rw [hv] at hvote
      cases hvote
    · rw [hnone] at hq
      cases hq

theorem removed (h : Removed d d') : Faithful now d d' where
  snapshots i kept hi := by rw [h.eq]; exact hi
  gone i _ hnone := by
    rcases h.cases i with heq | ⟨hgone, -⟩
    · rw [heq]; exact hnone
    · exact hgone
  proposals i p q hp hq := by
    rcases h.cases i with heq | ⟨hgone, -⟩
    · rw [heq, hp] at hq
      cases hq
      exact .refl now p
    · rw [hgone] at hq
      cases hq
  new i q hnone hq := by
    rcases h.cases i with heq | ⟨hgone, -⟩
    · rw [heq, hnone] at hq
      cases hq
    · rw [hgone] at hq
      cases hq

theorem move {w : World} {c : Call} (hw : w.docket.WellFormed)
    (hfresh : c.creates = true → w.docket.FreshId) (h : DocketMove w c d') :
    Faithful w.ledger.timestamp w.docket d' := by
  cases h with
  | create hp _ h =>
    subst h hp
    exact create (p := Proposals.newProposal ..) (hfresh rfl) rfl hw _ _
  | vote hp hv _ _ h =>
    subst h
    exact put hw hp (Proposal.addVote_id _ _ _) (Proposal.continues_addVote rfl hv)
  | reputationVote hp hv _ h =>
    subst h
    exact put hw hp (Proposal.addVote_id _ _ _) (Proposal.continues_addVote rfl hv)
  | @finalize id p status d₁ _ hp _ hstatus hexec hsettle =>
    have hput : Faithful w.ledger.timestamp w.docket (w.docket.put (p.withStatus status)) :=
      Faithful.status hw hp (by rcases hstatus with rfl | rfl <;> decide)
    have hwput : (w.docket.put (p.withStatus status)).WellFormed := hw.put hp rfl
    rcases hexec with rfl | ⟨-, hexec⟩
    · exact hput.trans hw (settled hsettle) le_rfl
    · have hdone : Faithful w.ledger.timestamp (w.docket.put (p.withStatus status)) d₁ :=
        executed hwput (AList.lookup_insert _) hexec
      exact hput.trans hw (hdone.trans hwput (settled hsettle) le_rfl) le_rfl
  | execute hp h => exact executed hw hp h
  | run h => exact runsEach hw h
  | cancel hp _ h => subst h; exact Faithful.status hw hp (by decide)
  | cancelQueued _ _ _ hp h =>
    subst h
    generalize Registry.updateFirst QueuedAction.id w.docket.queue _ _ = queue
    have hkept : Faithful w.ledger.timestamp w.docket (w.docket.requeue queue) := of_same rfl rfl
    exact hkept.trans hw (Faithful.status (hw.requeue queue) hp (by decide)) le_rfl
  | @withdraw id p _ hp _ h =>
    have hput : Faithful w.ledger.timestamp w.docket (w.docket.put (p.withStatus .withdrawn)) :=
      Faithful.status hw hp (by decide)
    exact hput.trans hw (refunded h) le_rfl
  | remove h => exact removed h
  | restart _ h =>
    rw [h]
    exact ⟨fun _ _ hi => hi, fun _ _ _ => rfl, fun _ _ _ _ hq => (by cases hq), fun _ _ _ hq => (by cases hq)⟩
  | queue _ _ _ _ h => subst h; exact of_same rfl rfl
  | other _ h => exact of_same h.snapshots h.proposals

end Docket.Faithful

/-! ## Runs -/

/-- A new proposal has a new identifier: none is used twice. -/
def UsesFreshId (w : World) : Event → Prop
  | .call _ c => c.creates = true → w.docket.FreshId
  | _ => True

instance (w : World) (ev : Event) : Decidable (UsesFreshId w ev) :=
  match ev with
  | .call _ _ => inferInstanceAs (Decidable (_ → _))
  | .advance _ => inferInstanceAs (Decidable True)
  | .maintenance .. => inferInstanceAs (Decidable True)

section Runs

variable {w w₁ w' : World}

theorem Step.timestamp_le {ev : Event} (h : Step w ev w') : w.ledger.timestamp ≤ w'.ledger.timestamp := by
  rcases h.cases with ⟨auth, c, -, hc⟩ | ⟨-, -, -, rfl⟩ | ⟨l, -, hbefore, rfl⟩ | ⟨-, -, -, -, -, rfl⟩
  · rw [((invoke_writes auth c).of_run hc).ledger]
  · exact le_rfl
  · exact hbefore.1
  · exact le_rfl

theorem faithful_step {ev : Event} (hw : w.docket.WellFormed) (hf : UsesFreshId w ev)
    (h : Step w ev w') : Docket.Faithful w.ledger.timestamp w.docket w'.docket := by
  rcases docket_step hw h with ⟨auth, c, rfl, hm⟩ | hq
  · exact .move hw hf hm
  · exact .of_same hq.snapshots hq.proposals

theorem faithful_of_reaches (hw : w.docket.WellFormed)
    (h : Reaches (fun w ev w' => UsesFreshId w ev ∧ Step w ev w') w w') :
    w'.docket.WellFormed ∧ Docket.Faithful w.ledger.timestamp w.docket w'.docket := by
  refine (h.invariant (I := fun w' => w'.docket.WellFormed ∧ w.ledger.timestamp ≤ w'.ledger.timestamp ∧
    Docket.Faithful w.ledger.timestamp w.docket w'.docket) ⟨hw, le_rfl, .of_same rfl rfl⟩ ?_).imp_right
    And.right
  rintro a ev b ⟨hwa, hnow, hfaithful⟩ ⟨hf, hs⟩
  exact ⟨wellFormed_step hwa hs, hnow.trans hs.timestamp_le, hfaithful.trans hw (faithful_step hwa hf hs) hnow⟩

/-- In every run in which no identifier is used twice: the powers that were kept for the votes of a proposal
never change, and as long as it is stored its terms stay, its votes are only added to, each at its time, and
none is added once it is closed. -/
theorem content_of_fresh {ledger : Ledger} {id : Nat} {p : Proposal}
    (h : Reaches (fun w ev w' => UsesFreshId w ev ∧ Step w ev w') (World.deployed ledger) w)
    (hp : w.store.proposal.state.proposals.lookup id = some p)
    (h₁ : Reaches (fun w ev w' => UsesFreshId w ev ∧ Step w ev w') w w₁) :
    w₁.store.proposal.voteSnapshots.lookup id = w.store.proposal.voteSnapshots.lookup id ∧
      ∀ q ∈ w₁.store.proposal.state.proposals.lookup id, p.Continues w.ledger.timestamp q := by
  have hw := (faithful_of_reaches (wellFormed_start ledger) h).1
  have hfaithful := (faithful_of_reaches hw h₁).2
  obtain ⟨kept, hkept⟩ := Option.isSome_iff_exists.mp (hw.kept_of hp)
  exact ⟨(hfaithful.snapshots id kept hkept).trans hkept.symm, fun q hq => hfaithful.proposals id p q hp hq⟩

/-- In such a run every vote that is recorded is the one of its voter, and was cast in the time of its
proposal. -/
theorem votes_in_time {ledger : Ledger} {id : Nat} {p : Proposal}
    (h : Reaches (fun w ev w' => UsesFreshId w ev ∧ Step w ev w') (World.deployed ledger) w)
    (hp : w.store.proposal.state.proposals.lookup id = some p) : p.VotesInTime :=
  (faithful_of_reaches (wellFormed_start ledger) h).2.new id p rfl hp

end Runs

namespace Sample

/-- One holder votes. -/
def firstVote : List Event := ballotRun ++ [callBy community (.castVote 1 community .inFavor)]

/-- The other one votes too, and the proposal is executed. -/
def afterVote : List Event := [callBy sale (.castVote 1 sale .against), atTime 700000, call (.finalizeProposal 1)]

/-- The first vote and the terms are the same when the proposal is executed. -/
theorem first_vote_stays :
    ((run (deployedRun firstVote) afterVote).store.proposal.state.proposals.lookup 1).map (·.status) =
      some .executed ∧
    ∀ p ∈ (deployedRun firstVote).store.proposal.state.proposals.lookup 1,
      ∀ q ∈ (run (deployedRun firstVote) afterVote).store.proposal.state.proposals.lookup 1, p.Continues 100 q := by
  have h₁ : Reaches (fun w ev w' => UsesFreshId w ev ∧ Step w ev w') (deployedRun firstVote)
      (run (deployedRun firstVote) afterVote) := reaches_run (by decide +kernel)
  have hnow : (deployedRun firstVote).ledger.timestamp = 100 := by decide +kernel
  refine ⟨by decide +kernel, fun p hp => ?_⟩
  rw [← hnow]
  exact (content_of_fresh (reaches_run (by decide +kernel)) hp h₁).2

/-- Both votes were cast in the time of the proposal. -/
theorem votes_of_both :
    ((run (deployedRun firstVote) afterVote).store.proposal.state.proposals.lookup 1).map (·.voterList) =
      some [community, sale] ∧
    ∀ p ∈ (run (deployedRun firstVote) afterVote).store.proposal.state.proposals.lookup 1, p.VotesInTime := by
  have h : Reaches (fun w ev w' => UsesFreshId w ev ∧ Step w ev w') (World.deployed ⟨0, 0⟩)
      (run (deployedRun firstVote) afterVote) :=
    (reaches_run (by decide +kernel) : Reaches _ _ (deployedRun firstVote)).trans
      (reaches_run (by decide +kernel))
  exact ⟨by decide +kernel, fun p hp => votes_in_time h hp⟩

end Sample

end CallStake.Governance
