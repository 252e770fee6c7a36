import CallStake.Governance.Lifecycle

/-!
# Tallies

Two ways of voting write the tallies of a proposal. `castVote` counts the power that was kept, or its
square root; the vote with reputation counts the power times the reputation, and takes no root. The quorum
is a part of the supply, or of the sum of the roots.

* `Tallied`: the votes of a proposal are backed by the powers that were kept.
* `tallies_of_counted`: where the holders do not count more than the supply when a proposal is created, and
  reputation adds nothing to a vote, the tallies are in order in every state.
* `reputation_vote_exceeds_roots`: with reputation, a single vote counts more than all roots.
-/

namespace CallStake.Governance

open Res Store List

/-! ## Order -/

/-- What a vote adds to the tally of a type. -/
def Vote.powerFor (t : VoteType) (v : Vote) : Int := if v.voteType = t then v.votingPower else 0

structure TallyInOrder (w : World) (p : Proposal) : Prop where
  nodup : p.voterList.Nodup
  voters (a : Address) : a ∈ p.voterList ↔ a ∈ p.voters
  sums (t : VoteType) : p.tally t = Store.total (Vote.powerFor t) p.voters
  turnout (supply : Int) (w' : World) : referenceSupply p w = (.ok supply, w') →
    p.votesFor + p.votesAgainst + p.votesAbstain ≤ supply

/-- The voters of every proposal are listed once, its tallies add up their votes, and it has no more votes
than the supply that its quorum is a part of. -/
def TalliesInOrder (w : World) : Prop :=
  ∀ id p, w.store.proposal.state.proposals.lookup id = some p → TallyInOrder w p

/-! ## Condition -/

/-- What a power that was kept counts. -/
def counts (quadratic : Bool) (power : Int) : Int := if quadratic = true then isqrt power else power

/-- What the power of a holder counts, if it has some. -/
def countsOf (s : Storage) (quadratic : Bool) (holder : Address) : Int :=
  if 0 < getEffectiveVotingPower s holder then counts quadratic (getEffectiveVotingPower s holder) else 0

/-- What the holders count together. -/
def countsAll (s : Storage) (quadratic : Bool) : Int := (s.token.holders.map (countsOf s quadratic)).sum

/-- The power that was kept for a vote, zero if none was. -/
def World.keptPower (w : World) (id : Nat) (voter : Address) : Int := (getVoteSnapshot w.store id voter).getD 0

/-- What the code does not ask of a call. -/
def World.CountsAtMost (w : World) : Call → Prop
  | .createProposal _ _ _ _ _ _ quadratic =>
    countsAll w.store quadratic ≤ if quadratic = true then i128Max else w.store.token.supply
  | .castReputationWeightedVote id voter _ => ∀ p ∈ w.docket.proposals.lookup id,
      (requireVotable p voter w.ledger.timestamp).isOk = true →
        w.keptPower id voter * ((Reputation.getGovernanceReputation w.store w.ledger.timestamp
          voter).reputationScore / 2 : Nat) < BPS_DENOMINATOR ∧
        (p.useQuadraticVoting = true → w.keptPower id voter ≤ 1)
  | _ => True

/-- When a proposal is created, the holders do not count more than the supply, or than an `i128` where votes
count by their square root; and a vote with reputation counts no more than one without. -/
def Counted (w : World) : Event → Prop
  | .call _ c => w.CountsAtMost c
  | _ => True

instance (w : World) (c : Call) : Decidable (w.CountsAtMost c) := by
  induction c using Call.casesOn with
  | createProposal => exact inferInstanceAs (Decidable (_ ≤ _))
  | castReputationWeightedVote => exact inferInstanceAs (Decidable (∀ _ ∈ _, _))
  | _ => exact isTrue trivial

instance (w : World) (ev : Event) : Decidable (Counted w ev) :=
  match ev with
  | .call _ c => inferInstanceAs (Decidable (w.CountsAtMost c))
  | .advance _ => inferInstanceAs (Decidable True)
  | .maintenance .. => inferInstanceAs (Decidable True)

/-! ## Powers -/

theorem counts_nonneg {quadratic : Bool} {power : Int} (h : 0 < power) : 0 ≤ counts quadratic power := by
  unfold counts
  split
  · exact isqrt_nonneg power
  · exact Int.le_of_lt h

theorem countsOf_nonneg (s : Storage) (quadratic : Bool) (holder : Address) :
    0 ≤ countsOf s quadratic holder := by
  unfold countsOf
  split
  · exact counts_nonneg ‹_›
  · exact Int.le_refl 0

theorem votePower_ok {p : Proposal} {raw power : Int} (h : votePower p raw = .ok power) :
    0 < raw ∧ power = counts p.useQuadraticVoting raw := by
  simp only [votePower, bind_ok, failIf_ok] at h
  obtain ⟨_, hpos, h⟩ := h
  refine ⟨Int.not_le.mp hpos, ?_⟩
  unfold counts
  split at h
  · simp only [bind_ok, failIf_ok, pure_ok] at h
    obtain ⟨_, -, rfl⟩ := h
    exact (if_pos ‹_›).symm
  · cases h
    exact (if_neg ‹_›).symm

/-- A vote with reputation that counts no more than one without. -/
theorem reputationPower_le {raw power : Int} {score : Nat} {quadratic : Bool}
    (h : reputationPower raw score = .ok power)
    (hscore : raw * (score / 2 : Nat) < BPS_DENOMINATOR) (hroot : quadratic = true → raw ≤ 1) :
    0 < raw ∧ 0 ≤ power ∧ power ≤ counts quadratic raw := by
  simp only [reputationPower, bind_ok, failIf_ok, checkedMulR_ok, pure_ok] at h
  obtain ⟨_, hpos, _, ⟨-, -, rfl⟩, rfl⟩ := h
  have hpos : 0 < raw := Int.not_le.mp hpos
  have hfactor : ((u32Add 10000 (score / 2) : Nat) : Int) ≤ 10000 + (score / 2 : Nat) := by
    simp only [u32Add]
    omega
  have hprod : 0 ≤ raw * ((u32Add 10000 (score / 2) : Nat) : Int) :=
    Int.mul_nonneg (Int.le_of_lt hpos) (Int.natCast_nonneg _)
  have hle : raw * ((u32Add 10000 (score / 2) : Nat) : Int) < 10000 * (raw + 1) := by
    have := Int.mul_le_mul_of_nonneg_left hfactor (Int.le_of_lt hpos)
    rw [Int.mul_add] at this
    simp only [BPS_DENOMINATOR] at hscore
    omega
  rw [Int.tdiv_eq_ediv_of_nonneg hprod]
  have hdiv : raw * ((u32Add 10000 (score / 2) : Nat) : Int) / 10000 ≤ raw := by omega
  refine ⟨hpos, by omega, ?_⟩
  cases quadratic with
  | false => exact hdiv
  | true =>
    have hone : raw = 1 := by have := hroot rfl; omega
    subst hone
    exact hdiv.trans (by decide)

/-! ## The powers that are kept -/

/-- The power of one holder is kept. -/
def keepPower (s : Storage) (quadratic : Bool) (kept : Store Address Int × Int) (holder : Address) :
    Store Address Int × Int :=
  if 0 < getEffectiveVotingPower s holder then
    (kept.1.insert holder (getEffectiveVotingPower s holder),
      if quadratic = true then saturatingAdd kept.2 (isqrt (getEffectiveVotingPower s holder))
      else kept.2)
  else kept

/-- What is kept so far is of holders with some power, and counts at most `bound`. -/
structure Keeps (s : Storage) (quadratic : Bool) (kept : Store Address Int) (bound : Int) : Prop where
  powers (a : Address) (power : Int) : kept.lookup a = some power → 0 < power ∧ power = getEffectiveVotingPower s a
  total : Store.total (counts quadratic) kept ≤ bound

section Kept

variable {s : Storage} {quadratic : Bool}

/-- A holder that is listed twice is kept once. -/
theorem Keeps.keepPower {kept : Store Address Int × Int} {bound : Int} (h : Keeps s quadratic kept.1 bound)
    (holder : Address) :
    Keeps s quadratic (keepPower s quadratic kept holder).1 (bound + countsOf s quadratic holder) := by
  have hnonneg := countsOf_nonneg s quadratic holder
  unfold Governance.keepPower
  split
  · rename_i hpos
    refine ⟨fun a power hp => ?_, ?_⟩
    · rw [lookup_insert_eq] at hp
      split at hp
      · cases hp
        subst ‹a = _›
        exact ⟨hpos, rfl⟩
      · exact h.powers a power hp
    · have htotal := h.total
      have hpart : 0 ≤ Store.part (counts quadratic) kept.1 holder := by
        refine part_nonneg (fun a power hp => ?_) holder
        exact counts_nonneg (h.powers a power hp).1
      rw [total_insert]
      simp only [countsOf, if_pos hpos]
      omega
  · exact ⟨h.powers, by have := h.total; omega⟩

theorem Keeps.foldl (holders : List Address) {kept : Store Address Int × Int} {bound : Int}
    (h : Keeps s quadratic kept.1 bound) :
    Keeps s quadratic (holders.foldl (Governance.keepPower s quadratic) kept).1
      (bound + (holders.map (countsOf s quadratic)).sum) := by
  induction holders generalizing kept bound with
  | nil => simpa using h
  | cons holder holders ih =>
    have := ih (h.keepPower holder)
    rw [map_cons, sum_cons, ← Int.add_assoc]
    exact this

theorem keepPower_roots {kept : Store Address Int × Int} (holder : Address) (hpos : 0 ≤ kept.2)
    (hmax : kept.2 + countsOf s true holder ≤ i128Max) :
    (keepPower s true kept holder).2 = kept.2 + countsOf s true holder := by
  unfold keepPower countsOf at *
  split
  · rename_i h
    have hroot := isqrt_nonneg (getEffectiveVotingPower s holder)
    rw [if_pos h] at hmax
    exact saturatingAdd_eq (by simp only [i128Min]; omega) hmax
  · exact (Int.add_zero _).symm

/-- The roots add up, as long as they fit. -/
theorem keptRoots_foldl (holders : List Address) (kept : Store Address Int × Int) (hpos : 0 ≤ kept.2)
    (hmax : kept.2 + (holders.map (countsOf s true)).sum ≤ i128Max) :
    (holders.foldl (keepPower s true) kept).2 = kept.2 + (holders.map (countsOf s true)).sum := by
  induction holders generalizing kept with
  | nil => simp
  | cons holder holders ih =>
    rw [map_cons, sum_cons] at hmax ⊢
    have hcount := countsOf_nonneg s true holder
    have hrest : 0 ≤ (holders.map (countsOf s true)).sum := by
      refine sum_nonneg fun x hx => ?_
      obtain ⟨a, -, rfl⟩ := List.mem_map.mp hx
      exact countsOf_nonneg s true a
    have hstep := keepPower_roots holder hpos (by omega : _ + countsOf s true holder ≤ _)
    rw [foldl_cons, ih _ (by rw [hstep]; omega) (by rw [hstep]; omega), hstep]
    omega

theorem takeSnapshots_keeps (s : Storage) (quadratic : Bool) :
    Keeps s quadratic (Proposals.takeSnapshots s quadratic).1 (countsAll s quadratic) := by
  have hempty : Keeps s quadratic (∅, (0 : Int)).1 0 := ⟨by simp, Int.le_refl 0⟩
  have := hempty.foldl s.token.holders
  rw [Int.zero_add] at this
  exact this

theorem takeSnapshots_roots (hmax : countsAll s true ≤ i128Max) :
    (Proposals.takeSnapshots s true).2 = countsAll s true := by
  have := keptRoots_foldl s.token.holders (∅, 0) (Int.le_refl 0) (by rw [Int.zero_add]; exact hmax)
  rw [Int.zero_add] at this
  exact this

end Kept

/-! ## Tallies and the powers behind them -/

/-- The supply of the quorum. -/
def Proposal.reference (p : Proposal) (supply : Int) : Int :=
  if p.useQuadraticVoting = true then p.quadraticTotalSupply else supply

structure Tallied (kept : Store Address Int) (supply : Int) (p : Proposal) : Prop where
  nodup : p.voterList.Nodup
  voters (a : Address) : a ∈ p.voterList ↔ a ∈ p.voters
  sums (t : VoteType) : p.tally t = Store.total (Vote.powerFor t) p.voters
  /-- A vote counts no more than the power that was kept for it. -/
  backed (a : Address) (v : Vote) : p.voters.lookup a = some v → 0 ≤ v.votingPower ∧
    ∃ power, kept.lookup a = some power ∧ v.votingPower ≤ counts p.useQuadraticVoting power
  positive : kept.All (0 < ·)
  bound : Store.total (counts p.useQuadraticVoting) kept ≤ p.reference supply
  fits : p.reference supply ≤ i128Max

/-- What voting reads and writes of a proposal. -/
def Proposal.ballot (p : Proposal) :
    List Address × Store Address Vote × (VoteType → Int) × Bool × Int :=
  (p.voterList, p.voters, p.tally, p.useQuadraticVoting, p.quadraticTotalSupply)

namespace Tallied

variable {kept : Store Address Int} {supply : Int} {p p' : Proposal}

theorem of_ballot (h : Tallied kept supply p) (hb : p'.ballot = p.ballot) : Tallied kept supply p' := by
  simp [Proposal.ballot] at hb
  obtain ⟨hlist, hvoters, htally, hquad, hroots⟩ := hb
  have href : p'.reference supply = p.reference supply := by
    simp only [Proposal.reference, hquad, hroots]
  constructor
  case nodup => rw [hlist]; exact h.nodup
  case voters => rw [hlist, hvoters]; exact h.voters
  case sums => rw [htally, hvoters]; exact h.sums
  case backed => rw [hvoters, hquad]; exact h.backed
  case positive => exact h.positive
  case bound => rw [hquad, href]; exact h.bound
  case fits => rw [href]; exact h.fits

/-- Backed votes count no more than the supply of the quorum. -/
theorem total_le (h : Tallied kept supply p) {voters : Store Address Vote}
    (hbacked : ∀ a v, voters.lookup a = some v →
      ∃ power, kept.lookup a = some power ∧ v.votingPower ≤ counts p.useQuadraticVoting power) :
    Store.total Vote.votingPower voters ≤ p.reference supply :=
  (total_le_total (h.positive.mono fun _ hpos => counts_nonneg hpos) hbacked).trans h.bound

theorem votes_eq (h : Tallied kept supply p) :
    p.votesFor + p.votesAgainst + p.votesAbstain = Store.total Vote.votingPower p.voters := by
  have hfor : p.votesFor = _ := h.sums .inFavor
  have hagainst : p.votesAgainst = _ := h.sums .against
  have habstain : p.votesAbstain = _ := h.sums .abstain
  rw [hfor, hagainst, habstain, ← total_add, ← total_add]
  refine total_congr fun a v _ => ?_
  cases hv : v.voteType <;> simp [Vote.powerFor, hv]

theorem votes_le (h : Tallied kept supply p) :
    p.votesFor + p.votesAgainst + p.votesAbstain ≤ p.reference supply := by
  rw [h.votes_eq]
  exact h.total_le fun a v hv => (h.backed a v hv).2

theorem inOrder {w : World} (h : Tallied kept w.store.token.supply p) : TallyInOrder w p where
  nodup := h.nodup
  voters := h.voters
  sums := h.sums
  turnout supply w' hs := by
    have hle := h.votes_le
    simp only [referenceSupply] at hs
    unfold Proposal.reference at hle
    split at hs
    · rename_i hroots
      simp at hs
      rw [if_pos hroots.1] at hle
      rw [← hs.1]
      exact hle
    · rename_i hroots
      simp only [Tx.bind_ok, getTotalSupply_ok, Tx.failIf_ok, Tx.pure_ok] at hs
      obtain ⟨_, _, ⟨⟨m, hm, rfl⟩, -⟩, _, _, ⟨hpos, -⟩, rfl, -⟩ := hs
      split at hle
      · -- no roots were kept, so there are no votes
        have : p.quadraticTotalSupply ≤ 0 := Int.not_lt.mp fun h => hroots ⟨‹_›, h⟩
        omega
      · simpa [TokenStorage.supply, hm] using hle

end Tallied

/-! ## Votes -/

theorem Vote.powerFor_bounds {v : Vote} (h : 0 ≤ v.votingPower) (t : VoteType) :
    0 ≤ v.powerFor t ∧ v.powerFor t ≤ v.votingPower := by
  unfold Vote.powerFor
  split <;> omega

namespace Tallied

variable {kept : Store Address Int} {supply power : Int} {p : Proposal} {v : Vote}

/-- A further vote that is backed finds room in its tally. -/
theorem room (h : Tallied kept supply p) (hnew : p.voters.lookup v.voter = none)
    (hkept : kept.lookup v.voter = some power)
    (hle : v.votingPower ≤ counts p.useQuadraticVoting power) :
    0 ≤ p.tally v.voteType ∧ p.tally v.voteType + v.votingPower ≤ i128Max := by
  have hall : Store.total Vote.votingPower (p.voters.insert v.voter v) ≤ p.reference supply := by
    refine h.total_le fun a u hu => ?_
    rw [lookup_insert_eq] at hu
    split at hu
    · cases hu
      subst ‹a = _›
      exact ⟨power, hkept, hle⟩
    · exact (h.backed a u hu).2
  have htotal := total_insert Vote.votingPower p.voters v.voter v
  rw [part_none hnew] at htotal
  have hsome : Store.total (Vote.powerFor v.voteType) p.voters ≤
      Store.total Vote.votingPower p.voters :=
    total_mono fun a u hu => (Vote.powerFor_bounds (h.backed a u hu).1 _).2
  have hnonneg : 0 ≤ Store.total (Vote.powerFor v.voteType) p.voters :=
    total_nonneg fun a u hu => (Vote.powerFor_bounds (h.backed a u hu).1 _).1
  have := h.fits
  rw [h.sums]
  omega

theorem addVote (h : Tallied kept supply p) (hnew : p.voters.lookup v.voter = none)
    (hkept : kept.lookup v.voter = some power) (hpos : 0 ≤ v.votingPower)
    (hle : v.votingPower ≤ counts p.useQuadraticVoting power) :
    Tallied kept supply (p.addVote v (p.tally v.voteType + v.votingPower)) := by
  have hlist : v.voter ∉ p.voterList := by
    rw [h.voters, ← AList.lookup_isSome, hnew]
    simp
  constructor
  case nodup =>
    rw [Proposal.addVote_voterList, nodup_append]
    refine ⟨h.nodup, nodup_singleton _, fun a ha b hb hab => ?_⟩
    rw [List.mem_singleton.mp hb] at hab
    exact hlist (hab ▸ ha)
  case voters =>
    intro a
    rw [Proposal.addVote_voterList, Proposal.addVote_voters, AList.mem_insert, mem_append, mem_singleton, h.voters]
    exact or_comm
  case sums =>
    intro t
    have htotal := total_insert (Vote.powerFor t) p.voters v.voter v
    rw [part_none hnew, ← h.sums] at htotal
    rw [Proposal.addVote_voters, htotal, Proposal.addVote_tally]
    unfold Vote.powerFor
    by_cases ht : v.voteType = t
    · subst ht
      rw [if_pos rfl, if_pos rfl]
      omega
    · rw [if_neg ht, if_neg (Ne.symm ht)]
      omega
  case backed =>
    intro a u hu
    rw [Proposal.addVote_voters, lookup_insert_eq] at hu
    rw [Proposal.addVote_useQuadraticVoting]
    split at hu
    · cases hu
      subst ‹a = _›
      exact ⟨hpos, power, hkept, hle⟩
    · exact h.backed a u hu
  case positive => exact h.positive
  case bound => simpa [Proposal.reference] using h.bound
  case fits => simpa [Proposal.reference] using h.fits

end Tallied

/-! ## Moves -/

/-- No proposal is added, and those that stay have the votes that they had. -/
structure SameBallots (d d' : Docket) : Prop where
  snapshots : d'.snapshots = d.snapshots
  ballots (id : Nat) (p' : Proposal) : d'.proposals.lookup id = some p' →
    ∃ p, d.proposals.lookup id = some p ∧ p'.ballot = p.ballot

namespace SameBallots

variable {d d' d'' : Docket} {p p' : Proposal} {id : Nat}

theorem trans (h : SameBallots d d') (h' : SameBallots d' d'') : SameBallots d d'' where
  snapshots := h'.snapshots.trans h.snapshots
  ballots i q hq := by
    obtain ⟨q', hq', hb'⟩ := h'.ballots i q hq
    obtain ⟨q'', hq'', hb⟩ := h.ballots i q' hq'
    exact ⟨q'', hq'', hb'.trans hb⟩

theorem of_eq (hp : d'.proposals = d.proposals) (hs : d'.snapshots = d.snapshots) : SameBallots d d' :=
  ⟨hs, fun _ q hq => ⟨q, hp ▸ hq, rfl⟩⟩

theorem put (hw : d.WellFormed) (hp : d.proposals.lookup id = some p) (hid : p'.id = p.id)
    (hb : p'.ballot = p.ballot) : SameBallots d (d.put p') where
  snapshots := rfl
  ballots i q hq := by
    rw [Docket.put, lookup_insert_eq, hid, hw.keyed id p hp] at hq
    split at hq
    · cases hq
      subst ‹i = _›
      exact ⟨p, hp, hb⟩
    · exact ⟨q, hq, rfl⟩

theorem executed (hw : d.WellFormed) (hp : d.proposals.lookup id = some p) (h : Executed d p d') :
    SameBallots d d' := by
  obtain ⟨t, -, rfl⟩ := h.effect
  exact (of_eq rfl rfl : SameBallots d (d.apply p t)).trans (put (hw.apply t) hp rfl rfl)

theorem runsEach (hw : d.WellFormed) {ids : List Nat} (h : RunsEach ids d d') : SameBallots d d' := by
  induction h with
  | nil => exact of_eq rfl rfl
  | skip _ ih => exact ih hw
  | @run actionId ids d d₁ d' a p t hrun _ ih =>
    refine trans ?_ (ih (hw.runsEntry hrun))
    rw [hrun.eq]
    refine trans ?_ (put ((hw.apply t).requeue _) hrun.stored rfl rfl)
    exact of_eq rfl rfl

theorem settled {treasury : Address} (h : Settled d id treasury d') : SameBallots d d' := by
  cases h <;> exact of_eq rfl rfl

theorem refunded {proposer : Address} (h : Refunded d id proposer d') : SameBallots d d' := by
  cases h <;> exact of_eq rfl rfl

theorem removed (h : Removed d d') : SameBallots d d' where
  snapshots := by rw [h.eq]
  ballots i q hq := by
    rcases h.cases i with heq | ⟨hnone, -⟩
    · exact ⟨q, heq ▸ hq, rfl⟩
    · rw [hnone] at hq
      cases hq

end SameBallots

/-- The votes of the stored proposals are backed. -/
def Docket.Backed (d : Docket) (supply : Int) : Prop :=
  ∀ id p, d.proposals.lookup id = some p → ∃ kept, d.snapshots.lookup id = some kept ∧ Tallied kept supply p

namespace Docket.Backed

variable {d d' : Docket} {p : Proposal} {id : Nat} {supply : Int}

theorem same (h : d.Backed supply) (hs : SameBallots d d') : d'.Backed supply := by
  intro i q hq
  obtain ⟨q', hq', hb⟩ := hs.ballots i q hq
  obtain ⟨kept, hkept, ht⟩ := h i q' hq'
  exact ⟨kept, by rw [hs.snapshots]; exact hkept, ht.of_ballot hb⟩

theorem vote (h : d.Backed supply) (hw : d.WellFormed) (hp : d.proposals.lookup id = some p)
    {p' : Proposal} (hid : p'.id = p.id)
    (ht : ∀ kept, d.snapshots.lookup id = some kept → Tallied kept supply p → Tallied kept supply p') :
    (d.put p').Backed supply := by
  intro i q hq
  rw [Docket.put, lookup_insert_eq, hid, hw.keyed id p hp] at hq
  split at hq
  · cases hq
    subst ‹i = _›
    obtain ⟨kept, hkept, htallied⟩ := h i p hp
    exact ⟨kept, hkept, ht kept hkept htallied⟩
  · exact h i q hq

theorem create (h : d.Backed supply) {kept : Store Address Int} {proposer : Address}
    (ht : Tallied kept supply p) : ((d.add p kept).lock p.id proposer).Backed supply := by
  intro i q hq
  simp only [Docket.lock, Docket.add, lookup_insert_eq] at hq ⊢
  split at hq
  · cases hq
    exact ⟨kept, if_pos ‹_›, ht⟩
  · rw [if_neg ‹_›]
    exact h i q hq

end Docket.Backed

/-- A new proposal has no votes. -/
theorem tallied_newProposal {s : Storage} {now : Nat} {proposer : Address} {proposalType : ProposalType}
    {title description executionPayload : Bytes} {category : ProposalCategory} {quadratic : Bool}
    (hcounts : countsAll s quadratic ≤ if quadratic = true then i128Max else s.token.supply)
    (hmax : s.token.supply ≤ i128Max) :
    Tallied (Proposals.takeSnapshots s quadratic).1 s.token.supply
      (Proposals.newProposal s now proposer proposalType title description executionPayload category
        quadratic) := by
  have hkeeps := takeSnapshots_keeps s quadratic
  have href : (Proposals.newProposal s now proposer proposalType title description executionPayload
      category quadratic).reference s.token.supply =
      if quadratic = true then countsAll s quadratic else s.token.supply := by
    cases quadratic with
    | false => rfl
    | true => exact takeSnapshots_roots hcounts
  constructor
  case nodup => exact nodup_nil
  case voters => exact fun a => by simp [Proposals.newProposal]
  case sums => exact fun t => by cases t <;> rfl
  case backed => exact fun a v hv => by simp [Proposals.newProposal] at hv
  case positive => exact fun a power hp => (hkeeps.powers a power hp).1
  case bound =>
    rw [href]
    refine hkeeps.total.trans ?_
    cases quadratic with
    | false => exact hcounts
    | true => exact Int.le_refl _
  case fits =>
    rw [href]
    cases quadratic with
    | false => exact hmax
    | true => exact hcounts

theorem keptPower_pos {w : World} {id : Nat} {voter : Address} {kept : Store Address Int}
    (hkept : w.docket.snapshots.lookup id = some kept) (hpos : 0 < w.keptPower id voter) :
    kept.lookup voter = some (w.keptPower id voter) := by
  have hkept : w.store.proposal.voteSnapshots.lookup id = some kept := hkept
  have hpower : w.keptPower id voter = (kept.lookup voter).getD 0 := by
    simp [World.keptPower, getVoteSnapshot, hkept]
  rw [hpower] at hpos ⊢
  cases hv : kept.lookup voter with
  | none => rw [hv] at hpos; cases hpos
  | some power => rfl

/-- What a move does to the votes: a proposal is new, a vote is counted, all proposals are gone, or the votes
are as before. -/
inductive BallotMove (w : World) : Call → Docket → Prop where
  | same {c : Call} {d' : Docket} (h : SameBallots w.docket d') : BallotMove w c d'
  | create {proposer : Address} {proposalType : ProposalType}
      {title description executionPayload : Bytes} {category : ProposalCategory} {quadratic : Bool}
      {p : Proposal}
      (hp : p = Proposals.newProposal w.store w.ledger.timestamp proposer proposalType title
        description executionPayload category quadratic) :
      BallotMove w (.createProposal proposer proposalType title description executionPayload category
        quadratic) ((w.docket.add p (Proposals.takeSnapshots w.store quadratic).1).lock p.id proposer)
  | vote {id : Nat} {voter : Address} {voteType : VoteType} {p : Proposal} {power sum : Int}
      (hp : w.docket.proposals.lookup id = some p)
      (hv : requireVotable p voter w.ledger.timestamp = .ok ())
      (hpower : votePower p ((getVoteSnapshot w.store id voter).getD 0) = .ok power)
      (hsum : checkedAddR (p.tally voteType) power = .ok sum) :
      BallotMove w (.castVote id voter voteType)
        (w.docket.put (p.addVote ⟨voter, voteType, power, w.ledger.timestamp⟩ sum))
  | reputationVote {id : Nat} {voter : Address} {voteType : VoteType} {p : Proposal} {power : Int}
      (hp : w.docket.proposals.lookup id = some p)
      (hv : requireVotable p voter w.ledger.timestamp = .ok ())
      (hpower : reputationPower ((getVoteSnapshot w.store id voter).getD 0)
        (Reputation.getGovernanceReputation w.store w.ledger.timestamp voter).reputationScore =
        .ok power) :
      BallotMove w (.castReputationWeightedVote id voter voteType)
        (w.docket.put (p.addVote ⟨voter, voteType, power, w.ledger.timestamp⟩
          (saturatingAdd (p.tally voteType) power)))
  | restart {c : Call} {d' : Docket} (h : d'.proposals = ∅) : BallotMove w c d'

theorem DocketMove.ballots {w : World} {c : Call} {d' : Docket} (hw : w.docket.WellFormed)
    (hm : DocketMove w c d') : BallotMove w c d' := by
  cases hm with
  | create hp _ h' => subst h'; exact .create hp
  | vote hp hv hpower hsum h' => subst h'; exact .vote hp hv hpower hsum
  | reputationVote hp hv hpower h' => subst h'; exact .reputationVote hp hv hpower
  | @finalize id p status d₁ _ hp _ _ hexec hsettle =>
    have hput : SameBallots w.docket (w.docket.put (p.withStatus status)) := .put hw hp rfl rfl
    have hwput : (w.docket.put (p.withStatus status)).WellFormed := hw.put hp rfl
    rcases hexec with rfl | ⟨-, hexec⟩
    · exact .same (hput.trans (.settled hsettle))
    · exact .same (hput.trans ((SameBallots.executed hwput (AList.lookup_insert _) hexec).trans
        (.settled hsettle)))
  | execute hp h' => exact .same (.executed hw hp h')
  | run h' => exact .same (.runsEach hw h')
  | cancel hp _ h' => subst h'; exact .same (.put hw hp rfl rfl)
  | cancelQueued _ _ _ hp h' =>
    subst h'
    refine .same (.trans ?_ (.put (hw.requeue _) hp rfl rfl))
    exact .of_eq rfl rfl
  | @withdraw id p _ hp _ h' =>
    have hput : SameBallots w.docket (w.docket.put (p.withStatus .withdrawn)) := .put hw hp rfl rfl
    exact .same (hput.trans (.refunded h'))
  | remove h' => exact .same (.removed h')
  | restart _ h' => exact .restart (congrArg Docket.proposals h')
  | queue _ _ _ _ h' => subst h'; exact .same (.of_eq rfl rfl)
  | other _ hq => exact .same (.of_eq hq.proposals hq.snapshots)

theorem backed_of_move {w : World} {auth : Auth} {c : Call} {d' : Docket}
    (h : w.docket.Backed w.store.token.supply) (hmax : w.store.token.supply ≤ i128Max)
    (hw : w.docket.WellFormed) (hs : Counted w (.call auth c)) (hm : DocketMove w c d') :
    d'.Backed w.store.token.supply := by
  cases hm.ballots hw with
  | same h' => exact h.same h'
  | create hp =>
    subst hp
    exact h.create (tallied_newProposal hs hmax)
  | @vote id voter voteType p power sum hp hv hpower hsum =>
    obtain ⟨hpos, rfl⟩ := votePower_ok hpower
    obtain ⟨-, -, rfl⟩ := checkedAddR_ok.mp hsum
    refine h.vote hw hp (Proposal.addVote_id _ _ _) fun kept hkept ht => ?_
    exact ht.addVote (requireVotable_ok hv).2 (keptPower_pos hkept hpos) (counts_nonneg hpos)
      (Int.le_refl _)
  | @reputationVote id voter voteType p power hp hv hpower =>
    obtain ⟨hscore, hroot⟩ := hs p hp (by rw [hv]; rfl)
    obtain ⟨hpos, hnonneg, hle⟩ := reputationPower_le hpower hscore hroot
    refine h.vote hw hp (Proposal.addVote_id _ _ _) fun kept hkept ht => ?_
    have hnew := (requireVotable_ok hv).2
    have hlookup := keptPower_pos hkept hpos
    obtain ⟨htally, hroom⟩ : 0 ≤ p.tally voteType ∧ p.tally voteType + power ≤ i128Max :=
      ht.room (v := ⟨voter, voteType, power, w.ledger.timestamp⟩) hnew hlookup hle
    rw [saturatingAdd_eq (by simp only [i128Min]; omega) hroom]
    exact ht.addVote (v := ⟨voter, voteType, power, w.ledger.timestamp⟩) hnew hlookup hnonneg hle
  | restart h' =>
    intro i q hq
    rw [h'] at hq
    cases hq

/-! ## Runs -/

/-- The initialization removes the proposals, and its supply is an `i128`. -/
theorem initializeGovernance_supply {w w' : World} {auth : Auth} {admin : Address} {name symbol : Bytes}
    {decimals : Nat} {totalSupply : Int} {recipients : DistributionRecipients} {u : Unit}
    (h : initializeGovernance auth admin name symbol decimals totalSupply recipients w = (.ok u, w')) :
    w'.docket.proposals = ∅ ∧ w'.store.token.supply ≤ i128Max := by
  obtain ⟨⟨-, -, hpos, -⟩, d, w₁, hd, rfl⟩ := initializeGovernance_ok.mp h
  have hsame : SameOutside [.token] _ w₁ := Tx.Within.of_run inferInstance hd
  have hmetadata := hsame.same .metadata (by simp)
  have hproposal := hsame.same .proposal (by simp)
  simp only [Region.read] at hmetadata hproposal
  simp only [initializeDistribution, Tx.bind_ok, Tx.failIf_ok, lift_ok] at hd
  obtain ⟨_, _, -, _, _, -, a, _, ⟨ha, -⟩, -⟩ := hd
  refine ⟨by simp only [World.docket, Storage.started, hproposal]; rfl, ?_⟩
  simp only [TokenStorage.supply, Storage.started, track_metadata, hmetadata]
  exact (createAllocation_ok hpos ha).2.2

/-- Nothing but the initialization writes the supply. -/
theorem supply_of_call {w w' : World} {auth : Auth} {c : Call}
    (hcall : invoke auth c w = (.ok (), w')) :
    w'.store.token.supply = w.store.token.supply ∨ w'.docket.proposals = ∅ ∧ w'.store.token.supply ≤ i128Max := by
  by_cases hmetadata : .metadata ∈ c.footprint
  · cases c
    case initializeGovernance => exact .inr (initializeGovernance_supply hcall)
    case direct _ action => cases action <;> simp [Call.footprint, AdminAction.footprint] at hmetadata
    case timelocked _ _ action =>
      cases action <;> simp [Call.footprint, AdminAction.footprint] at hmetadata
    all_goals simp [Call.footprint, executionRegions] at hmetadata
  · have hsame := ((invoke_writes auth c).of_run hcall).same .metadata hmetadata
    simp only [Region.read] at hsame
    exact .inl (by simp only [TokenStorage.supply, hsame])

/-- The invariant of the tallies. -/
structure TallyInv (w : World) : Prop where
  wellFormed : w.docket.WellFormed
  backed : w.docket.Backed w.store.token.supply
  fits : w.store.token.supply ≤ i128Max

namespace TallyInv

variable {w w' : World}

theorem start (ledger : Ledger) : TallyInv (World.deployed ledger) where
  wellFormed := wellFormed_start ledger
  backed := by
    intro i q hq
    cases hq
  fits := show (0 : Int) ≤ i128Max by decide

theorem call {auth : Auth} {c : Call} (h : TallyInv w) (hs : Counted w (.call auth c))
    (hcall : invoke auth c w = (.ok (), w')) : TallyInv w' := by
  have hm := docketMove_of_call h.wellFormed hcall
  refine ⟨h.wellFormed.move hm, ?_, ?_⟩
  · rcases supply_of_call hcall with hsupply | ⟨hnone, -⟩
    · rw [hsupply]
      exact backed_of_move h.backed h.fits h.wellFormed hs hm
    · intro i q hq
      rw [hnone] at hq
      cases hq
  · rcases supply_of_call hcall with hsupply | ⟨-, hmax⟩
    · rw [hsupply]
      exact h.fits
    · exact hmax

theorem step {ev : Event} (h : TallyInv w) (hs : Counted w ev) (hstep : Step w ev w') :
    TallyInv w' := by
  rcases hstep.cases with ⟨auth, c, rfl, hcall⟩ | ⟨auth, c, rfl, rfl⟩ | ⟨ledger, rfl, -, rfl⟩ |
    ⟨treasury, committees, rewardBps, minClaimThreshold, rfl, rfl⟩
  · exact h.call hs hcall
  · exact h
  · exact ⟨wellFormed_step h.wellFormed hstep, h.backed, h.fits⟩
  · exact ⟨wellFormed_step h.wellFormed hstep, h.backed, h.fits⟩

end TallyInv

/-- In every run in which the holders do not count more than the supply when a proposal is created, or more
than an `i128` where votes count by their square root, and in which no vote with reputation counts more than
one without: the voters of every proposal are listed once, its tallies add up their votes, and no more votes
are counted than the supply that its quorum is a part of. -/
theorem tallies_of_counted {ledger : Ledger} {w : World}
    (h : Reaches (fun w ev w' => Counted w ev ∧ Step w ev w') (World.deployed ledger) w) :
    TalliesInOrder w := by
  have hinv := h.invariant (I := TallyInv) (TallyInv.start ledger)
    fun _ _ _ hI ⟨hC, hs⟩ => hI.step hC hs
  intro id p hp
  obtain ⟨kept, -, ht⟩ := hinv.backed id p hp
  exact ht.inOrder

namespace Sample

def proposeQuadratic (proposer : Address) : Call := .createProposal proposer signal [116] [100] [] .general true

/-- Two holders stake, and one of them proposes a vote by square roots. -/
def ballotRun : List Event :=
  [callBy admin initializeCall, callBy community (.stake community 20000),
    callBy sale (.stake sale 1), callBy community (proposeQuadratic community), atTime 100]

/-- One votes with its power, and one, which has no reputation, with reputation. -/
def countedRun : List Event :=
  ballotRun ++ [callBy community (.castVote 1 community .inFavor),
    callBy sale (.castReputationWeightedVote 1 sale .against)]

/-- Each ballot is counted with the weight that was recorded for it. -/
theorem ballots_in_order : TalliesInOrder (deployedRun countedRun) :=
  tallies_of_counted (reaches_run (by decide +kernel))

/-- The power of the larger holder is counted without its root. -/
def weightedRun : List Event := ballotRun ++ [callBy community (.castReputationWeightedVote 1 community .inFavor)]

/-- The vote counts more than the root of its power. -/
theorem reputation_vote_exceeds_roots : ¬ TalliesInOrder (deployedRun weightedRun) := by
  intro h
  have hvotes : ((deployedRun weightedRun).store.proposal.state.proposals.lookup 1).map
      (fun p => (p.votesFor + p.votesAgainst + p.votesAbstain, p.useQuadraticVoting,
        p.quadraticTotalSupply)) = some (20000, true, 142) := by decide +kernel
  obtain ⟨p, hp, heq⟩ := Option.map_eq_some_iff.mp hvotes
  simp at heq
  obtain ⟨hsum, hquadratic, hroots⟩ := heq
  have hsupply : referenceSupply p (deployedRun weightedRun) = (.ok 142, deployedRun weightedRun) := by
    simp [referenceSupply, hquadratic, hroots]
  have := (h 1 p hp).turnout 142 _ hsupply
  omega

end Sample

end CallStake.Governance
