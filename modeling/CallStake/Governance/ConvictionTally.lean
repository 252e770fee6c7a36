import CallStake.Governance.Conviction

/-!
# The tally of conviction votes

A proposal keeps its votes by voter, and the list of its voters, along which the weights are counted.

* `updateVotes_total`: along a list without repetition, each vote counts once.
* `tally_of_unlisted`: where nobody votes again after taking a vote back, the tally of every proposal counts
  each vote once, in every run.
* `returned_voter_listed_twice`: a vote that is taken back leaves its voter in the list.
-/

namespace CallStake.Governance

open Store List

namespace Conviction

/-! ## Weights -/

/-- The weight of a vote, as the code computes it at `now`. -/
def ConvictionVote.weight (now : Nat) (calibration : ConvictionCalibration) (vote : ConvictionVote) : Int :=
  calculateConviction vote.tokensCommitted (now - vote.voteStarted) calibration

section Weights

variable {calibration : ConvictionCalibration} {days : Nat} {a b : Int}

theorem clamp_nonneg (h : 0 ≤ a) : 0 ≤ clamp a := by
  unfold clamp i128Min i128Max
  omega

theorem saturatingMul_nonneg (ha : 0 ≤ a) (hb : 0 ≤ b) : 0 ≤ saturatingMul a b := clamp_nonneg (Int.mul_nonneg ha hb)

theorem powFixedPointLoop_nonneg {scale result base : Int} {fuel exponent : Nat} (hs : 0 ≤ scale)
    (hr : 0 ≤ result) (hb : 0 ≤ base) : 0 ≤ powFixedPointLoop scale fuel result base exponent := by
  induction fuel generalizing result base exponent with
  | zero => exact hr
  | succ fuel ih =>
    rw [powFixedPointLoop]
    split
    · exact hr
    · refine ih ?_ (Int.tdiv_nonneg (saturatingMul_nonneg hb hb) hs)
      split
      · exact Int.tdiv_nonneg (saturatingMul_nonneg hr hb) hs
      · exact hr

theorem applyDecay_nonneg (ha : 0 ≤ a) : 0 ≤ applyDecay calibration days a := by
  unfold applyDecay
  split
  · rename_i hrate
    have hscale : (0 : Int) ≤ DECAY_SCALE := by decide
    have hfactor : (0 : Int) ≤ 1000 - (calibration.decayRateBps : Int) := by
      have := hrate.2
      unfold MAX_DECAY_RATE at this
      omega
    have hbase := Int.tdiv_nonneg (saturatingMul_nonneg hfactor hscale) (by decide : (0 : Int) ≤ 1000)
    exact Int.tdiv_nonneg (saturatingMul_nonneg ha (powFixedPointLoop_nonneg hscale hscale hbase)) hscale
  · exact ha

theorem applyPenalty_nonneg (ha : 0 ≤ a) : 0 ≤ applyPenalty calibration days a := by
  unfold applyPenalty
  split
  · refine clamp_nonneg (Int.sub_nonneg.mpr ?_)
    exact Int.tdiv_le_self _ ha
  · exact ha

theorem applyBonus_nonneg (ha : 0 ≤ a) : 0 ≤ applyBonus calibration days a := by
  unfold applyBonus
  split
  · refine clamp_nonneg (Int.add_nonneg ha (Int.tdiv_nonneg ?_ (by decide)))
    have hmul := Int.mul_nonneg ha (Int.natCast_nonneg calibration.rewardBonusPct)
    unfold checkedMul checked
    split
    · exact hmul
    · exact Int.le_refl 0
  · exact ha

theorem applyCap_nonneg (ha : 0 ≤ a) : 0 ≤ applyCap calibration a := by
  unfold applyCap
  split
  · rename_i hcap
    exact Int.le_of_lt hcap.1
  · exact ha

theorem calculateConviction_nonneg {timeElapsed : Nat} (ha : 0 ≤ a) :
    0 ≤ calculateConviction a timeElapsed calibration := by
  simp only [calculateConviction]
  split
  · exact Int.le_refl 0
  · exact applyCap_nonneg (applyBonus_nonneg (applyPenalty_nonneg (applyDecay_nonneg
      (Int.tdiv_nonneg (saturatingMul_nonneg ha (isqrt_nonneg _)) (by decide)))))

end Weights

/-! ## Votes brought up to date -/

section Votes

variable {now : Nat} {calibration : ConvictionCalibration} {voters : List Address}
  {votes votes' : Store Address ConvictionVote}

/-- What the weight of a vote depends on. -/
def ConvictionVote.stake (vote : ConvictionVote) : Int × Nat := (vote.tokensCommitted, vote.voteStarted)

/-- The votes differ in their recorded weights only. -/
def SameVotes (votes votes' : Store Address ConvictionVote) : Prop :=
  ∀ voter, (votes'.lookup voter).map (·.stake) = (votes.lookup voter).map (·.stake)

theorem SameVotes.update {voter : Address} {vote : ConvictionVote} (h : SameVotes votes votes')
    (hv : votes'.lookup voter = some vote) :
    SameVotes votes (votes'.insert voter (updateVoteConviction now calibration vote)) := by
  intro a
  rw [lookup_insert_eq]
  split
  · subst ‹a = voter›
    rw [← h a, hv]
    rfl
  · exact h a

theorem SameVotes.find {voter : Address} {vote' : ConvictionVote} (h : SameVotes votes votes')
    (hv : votes'.lookup voter = some vote') :
    ∃ vote, votes.lookup voter = some vote ∧ vote.stake = vote'.stake := by
  have hstake := h voter
  rw [hv] at hstake
  exact Option.map_eq_some_iff.mp hstake.symm

theorem SameVotes.part (h : SameVotes votes votes') (now : Nat) (calibration : ConvictionCalibration)
    (voter : Address) :
    Store.part (ConvictionVote.weight now calibration) votes' voter =
      Store.part (ConvictionVote.weight now calibration) votes voter := by
  have hweight : ∀ s : Store Address ConvictionVote, Store.part (ConvictionVote.weight now calibration) s voter =
      ((s.lookup voter).map (·.stake)).elim 0
        fun stake => calculateConviction stake.1 (now - stake.2) calibration := by
    intro s
    unfold Store.part
    cases s.lookup voter <;> rfl
  rw [hweight, hweight, h voter]

/-- Counting along any list of voters leaves tokens and starts as they were, and adds the weights of the
listed votes, once for each time that they are listed. -/
theorem updateVotes_fold (hpos : Store.All (0 ≤ ConvictionVote.weight now calibration ·) votes)
    (hsame : SameVotes votes votes') {total : Int} (h0 : 0 ≤ total) (hmax : total ≤ i128Max) :
    let r := voters.foldl (fun (votes, total) voter =>
      match votes.lookup voter with
      | some vote =>
        let vote := updateVoteConviction now calibration vote
        (votes.insert voter vote, saturatingAdd total vote.currentConviction)
      | none => (votes, total)) (votes', total)
    SameVotes votes r.1 ∧
      r.2 = min i128Max (total + (voters.map (Store.part (ConvictionVote.weight now calibration) votes)).sum) := by
  induction voters generalizing votes' total with
  | nil => exact ⟨hsame, by simp; omega⟩
  | cons voter voters ih =>
    have hrest : 0 ≤ (voters.map (Store.part (ConvictionVote.weight now calibration) votes)).sum := by
      refine sum_nonneg fun x hx => ?_
      obtain ⟨a, -, rfl⟩ := List.mem_map.mp hx
      exact part_nonneg hpos a
    have hpart := hsame.part now calibration voter
    have hhead := part_nonneg hpos voter
    simp
    cases hv : votes'.lookup voter with
    | none =>
      rw [part_none hv] at hpart
      obtain ⟨hs, htotal⟩ := ih hsame h0 hmax
      exact ⟨hs, by rw [htotal, ← hpart]; omega⟩
    | some vote =>
      rw [part_some hv] at hpart
      have hsum : saturatingAdd total (vote.weight now calibration) =
          min i128Max (total + vote.weight now calibration) := by
        unfold saturatingAdd clamp i128Min
        omega
      have htop : (0 : Int) ≤ i128Max := by decide
      have h0' : 0 ≤ saturatingAdd total (vote.weight now calibration) := by omega
      obtain ⟨hs, htotal⟩ := ih (hsame.update hv) h0' (by omega)
      exact ⟨hs, htotal.trans (by omega)⟩

/-- Along a list that names every voter once, each vote counts once. -/
theorem updateVotes_total (hpos : Store.All (0 ≤ ConvictionVote.weight now calibration ·) votes)
    (hnodup : voters.Nodup) (hlisted : ∀ voter vote, votes.lookup voter = some vote → voter ∈ voters) :
    SameVotes votes (updateVotes now calibration voters votes).1 ∧
      (updateVotes now calibration voters votes).2 =
        min i128Max (Store.total (ConvictionVote.weight now calibration) votes) := by
  have hself : SameVotes votes votes := fun _ => rfl
  have hfold := @updateVotes_fold now calibration voters votes votes hpos hself
  obtain ⟨hsame, htotal⟩ := hfold (Int.le_refl 0) (by decide)
  have hsum : (voters.map (Store.part (ConvictionVote.weight now calibration) votes)).sum =
      Store.total (ConvictionVote.weight now calibration) votes := by
    rw [total_eq_sum _ votes fun voter vote hv => List.mem_toFinset.mpr (hlisted voter vote hv),
      sum_toFinset _ hnodup]
  refine ⟨hsame, htotal.trans ?_⟩
  rw [hsum, Int.zero_add]

end Votes

/-! ## Condition -/

/-- Whoever votes without a vote that stands is not in the list of voters. -/
def World.Unlisted (w : World) : Call → Prop
  | .voteConviction poolId proposalId voter _ => ∀ pool ∈ w.state.pools.lookup poolId,
      ∀ p ∈ pool.proposals.lookup proposalId, p.votes.lookup voter = none → voter ∉ p.voters
  | _ => True

def Unlisted (w : World) : Event → Prop
  | .call _ c => w.Unlisted c
  | .advance _ => True

instance (w : World) (c : Call) : Decidable (w.Unlisted c) := by
  induction c using Call.casesOn with
  | voteConviction => exact inferInstanceAs (Decidable (∀ _ ∈ _, _))
  | _ => exact isTrue trivial

instance (w : World) : (ev : Event) → Decidable (Unlisted w ev)
  | .call _ c => inferInstanceAs (Decidable (w.Unlisted c))
  | .advance _ => isTrue trivial

/-! ## Invariant -/

/-- No voter is listed twice, everyone who has a vote is listed, and a vote has tokens behind it. -/
structure ConvictionProposal.Tallied (p : ConvictionProposal) : Prop where
  once : p.voters.Nodup
  listed (voter : Address) (vote : ConvictionVote) : p.votes.lookup voter = some vote → voter ∈ p.voters
  positive : Store.All (0 < ·.tokensCommitted) p.votes

def ConvictionVotingPool.Tallied (pool : ConvictionVotingPool) : Prop :=
  Store.All ConvictionProposal.Tallied pool.proposals

def World.Tallied (w : World) : Prop := Store.All ConvictionVotingPool.Tallied w.state.pools

namespace ConvictionProposal

variable {p : ConvictionProposal} {voter : Address} {vote : ConvictionVote}

theorem Tallied.weights (h : p.Tallied) (now : Nat) (calibration : ConvictionCalibration) :
    Store.All (0 ≤ ConvictionVote.weight now calibration ·) p.votes :=
  h.positive.mono fun _ hv => calculateConviction_nonneg (Int.le_of_lt hv)

theorem Tallied.addVote {voters : List Address} (h : p.Tallied) (hpos : 0 < vote.tokensCommitted)
    (hnodup : voters.Nodup) (hsub : p.voters ⊆ voters) (hmem : voter ∈ voters) :
    (p.addVote voter vote voters).Tallied where
  once := hnodup
  listed a v hv := by
    rw [ConvictionProposal.addVote, lookup_insert_eq] at hv
    split at hv
    · subst ‹a = voter›
      exact hmem
    · exact hsub (h.listed a v hv)
  positive := h.positive.insert hpos

theorem Tallied.dropVote (h : p.Tallied) : (p.dropVote voter vote).Tallied where
  once := h.once
  listed a v hv := by
    rw [ConvictionProposal.dropVote, lookup_erase_eq] at hv
    split at hv
    · cases hv
    · exact h.listed a v hv
  positive := h.positive.erase

theorem Tallied.same {p' : ConvictionProposal} (h : p.Tallied) (hs : SameVotes p.votes p'.votes)
    (hv : p'.voters = p.voters) : p'.Tallied where
  once := by rw [hv]; exact h.once
  listed a v ha := by
    obtain ⟨u, hu, -⟩ := hs.find ha
    rw [hv]
    exact h.listed a u hu
  positive a v ha := by
    obtain ⟨u, hu, heq⟩ := hs.find ha
    have htokens : u.tokensCommitted = v.tokensCommitted := congrArg Prod.fst heq
    rw [← htokens]
    exact h.positive a u hu

theorem Tallied.updated (h : p.Tallied) (now : Nat) (calibration : ConvictionCalibration) :
    SameVotes p.votes (p.updated now calibration).votes ∧
      (p.updated now calibration).convictionAccumulated =
        min i128Max (Store.total (ConvictionVote.weight now calibration) p.votes) :=
  updateVotes_total (h.weights now calibration) h.once h.listed

theorem tallied_newProposal {id : Nat} {proposer beneficiary : Address} {title : Bytes}
    {amount threshold : Int} : (newProposal id proposer title amount beneficiary threshold).Tallied where
  once := nodup_nil
  listed := by rintro _ _ ⟨⟩
  positive := all_empty _

end ConvictionProposal

theorem applyVoteSwitchDecay_pos {tokens : Int} (h : 0 < tokens) : 0 < applyVoteSwitchDecay tokens := by
  have hlt : tokens.tdiv 10 < tokens := by
    rw [Int.tdiv_eq_ediv_of_nonneg (Int.le_of_lt h)]
    omega
  unfold applyVoteSwitchDecay saturatingSub clamp i128Min i128Max
  omega

section Steps

variable {w w' : World} {auth : Auth} {c : Call}

theorem World.Tallied.found (h : w.Tallied) {poolId id : Nat} {pool : ConvictionVotingPool}
    {p : ConvictionProposal} (hp : Found w poolId id pool p) : p.Tallied :=
  h poolId pool hp.pooled id p hp.stored

theorem World.Tallied.put (h : w.Tallied) {poolId : Nat} {pool' : ConvictionVotingPool}
    (hpools : w'.state.pools = w.state.pools.insert poolId pool') (hpool : pool'.Tallied) :
    w'.Tallied := by
  unfold World.Tallied
  rw [hpools]
  exact Store.All.insert h hpool

theorem tallied_move (h : w.Tallied) (hu : Unlisted w (.call auth c)) (hm : Move w c w') :
    w'.Tallied := by
  cases hm with
  | openPool _ _ _ hpools => exact h.put hpools (all_empty _)
  | propose hpool _ _ hpools =>
    exact h.put hpools (Store.All.insert (h _ _ hpool) ConvictionProposal.tallied_newProposal)
  | @vote _ _ voter _ _ p vote _ hp _ htokens hw =>
    subst hw
    have ht := h.found hp
    refine h.put rfl (Store.All.insert (h _ _ hp.pooled) ?_)
    cases hv : p.votes.lookup voter with
    | none =>
      -- a voter that took its vote back would be listed twice; `hu` excludes it
      have hnew : voter ∉ p.voters := hu _ hp.pooled _ hp.stored hv
      refine ht.addVote htokens (List.nodup_append.mpr ⟨ht.once, nodup_singleton _, ?_⟩)
        (subset_append_left ..) (by simp)
      rintro a ha b hb rfl
      exact hnew (List.mem_singleton.mp hb ▸ ha)
    | some v => exact ht.addVote htokens ht.once (List.Subset.refl _) (ht.listed voter v hv)
  | update hp hw =>
    subst hw
    have ht := h.found hp
    exact h.put rfl (Store.All.insert (h _ _ hp.pooled) (ht.same (ht.updated ..).1 rfl))
  | updateFund hp _ hf hw =>
    subst hw
    have ht := h.found hp
    have hpool := h _ _ hp.pooled
    refine h.put rfl ?_
    rw [hf.pool, hf.proposal]
    exact Store.All.insert hpool (ht.same (ht.updated w.now w.calibration).1 rfl)
  | fund hp hf hw =>
    subst hw
    have hpool := h _ _ hp.pooled
    refine h.put rfl ?_
    rw [hf.pool, hf.proposal]
    exact Store.All.insert hpool ((h.found hp).same (fun _ => rfl) rfl)
  | @change _ _ _ voter _ source target vote _ hs ht hv hw =>
    subst hw
    have htarget := h.found ht
    have hpos := applyVoteSwitchDecay_pos ((h.found hs).positive voter vote hv)
    refine h.put rfl (Store.All.insert (Store.All.insert (h _ _ hs.pooled) (h.found hs).dropVote) ?_)
    split
    · exact htarget.addVote hpos htarget.once (List.Subset.refl _) ‹_›
    · refine htarget.addVote hpos (List.nodup_append.mpr ⟨htarget.once, nodup_singleton _, ?_⟩)
        (subset_append_left ..) (by simp)
      rintro a ha b hb rfl
      exact ‹voter ∉ target.voters› (List.mem_singleton.mp hb ▸ ha)
  | @refill _ _ pool _ _ hpool _ hw =>
    subst hw
    have ht : pool.Tallied := h _ _ hpool
    exact h.put rfl ht
  | withdraw hp _ hw =>
    subst hw
    exact h.put rfl (Store.All.insert (h _ _ hp.pooled) (h.found hp).dropVote)
  | other hpools =>
    unfold World.Tallied
    rw [hpools]
    exact h

theorem tallied_step {ev : Event} (h : w.Tallied) (hu : Unlisted w ev) (hs : Step w ev w') :
    w'.Tallied := by
  rcases hs.cases with ⟨auth, c, rfl, hm⟩ | ⟨hpools, -⟩
  · exact tallied_move h hu hm
  · unfold World.Tallied
    rw [hpools]
    exact h

/-- The tally after an update that returned. -/
theorem World.Tallied.updated (h : w.Tallied) {poolId id : Nat} {n : Int}
    (hc : updateProposalConviction poolId id w = (.ok n, w')) :
    ∃ pool p, Found w' poolId id pool p ∧
      p.convictionAccumulated = min i128Max (Store.total (ConvictionVote.weight w.now w.calibration) p.votes) := by
  -- the votes that are stored weigh what the votes that were counted weigh
  have hsum : ∀ {p p' : ConvictionProposal}, p.Tallied → SameVotes p.votes p'.votes →
      Store.total (ConvictionVote.weight w.now w.calibration) p.votes =
        Store.total (ConvictionVote.weight w.now w.calibration) p'.votes := by
    intro p p' ht hs
    have hlisted : ∀ a v, p'.votes.lookup a = some v → a ∈ p.voters.toFinset := by
      intro a v hv
      obtain ⟨u, hu, -⟩ := hs.find hv
      exact List.mem_toFinset.mpr (ht.listed a u hu)
    rw [total_eq_sum _ p'.votes hlisted,
      total_eq_sum _ p.votes fun a v hv => List.mem_toFinset.mpr (ht.listed a v hv)]
    exact Finset.sum_congr rfl fun a _ => (hs.part w.now w.calibration a).symm
  obtain ⟨pool, p, hp, rfl | ⟨-, pool', p', hf, rfl⟩⟩ := updateProposalConviction_ok hc
  · have ht := h.found hp
    obtain ⟨hs, htotal⟩ := ht.updated w.now w.calibration
    refine ⟨_, _, ⟨AList.lookup_insert _, AList.lookup_insert _⟩, ?_⟩
    rw [htotal, hsum ht hs]
  · have ht := h.found hp
    obtain ⟨hs, htotal⟩ := ht.updated w.now w.calibration
    refine ⟨_, _, ⟨AList.lookup_insert _, AList.lookup_insert _⟩, ?_⟩
    rw [hf.proposal]
    exact htotal.trans (by rw [hsum ht hs])

end Steps

/-- In every run in which nobody who took a vote back votes for the same proposal again: a proposal lists
each of its voters once, and after its conviction is brought up to date, the conviction is the saturated sum
of the weights of the votes that stand. -/
theorem tally_of_unlisted {now : Nat} {w : World}
    (h : Reaches (fun w ev w' => Unlisted w ev ∧ Step w ev w') (World.deployed now) w) :
    (∀ poolId id pool p, Found w poolId id pool p →
      p.voters.Nodup ∧ ∀ voter vote, p.votes.lookup voter = some vote → voter ∈ p.voters) ∧
    ∀ poolId id n w', updateProposalConviction poolId id w = (.ok n, w') →
      ∃ pool p, Found w' poolId id pool p ∧
        p.convictionAccumulated = min i128Max (Store.total (ConvictionVote.weight w.now w.calibration) p.votes) := by
  have ht : w.Tallied := h.invariant (all_empty _) fun _ _ _ hI ⟨hu, hs⟩ => tallied_step hI hu hs
  refine ⟨fun poolId id pool p hp => ?_, fun _ _ _ _ hc => ht.updated hc⟩
  exact ⟨(ht.found hp).once, (ht.found hp).listed⟩

namespace Sample

/-- Two voters; one of them takes the vote back, and the other moves to a second proposal and back. -/
def movedRun : List Event :=
  proposedRun ++ [callBy bob (.voteConviction 1 1 bob 2000000), .advance (4 * DAY),
    callBy proposer (.createConvictionProposal 1 proposer [104] 4000 proposer),
    callBy alice (.withdrawConvictionVote 1 1 alice), callBy bob (.changeConvictionVote 1 1 2 bob),
    callBy bob (.changeConvictionVote 1 2 1 bob), .advance (8 * DAY)]

/-- The conviction is the sum of the weights of the votes that are there. -/
theorem moved_votes_tallied :
    let w := run (World.deployed 0) movedRun
    let w' := (updateProposalConviction 1 1 w).2
    ∃ pool p, Found w' 1 1 pool p ∧
      p.convictionAccumulated = min i128Max (Store.total (ConvictionVote.weight w.now w.calibration) p.votes) :=
  (tally_of_unlisted (reaches_run (by decide +kernel))).2 1 1 2639 _ (Prod.ext (by decide +kernel) rfl)

/-- A voter takes a vote back and votes again. -/
def returnedRun : List Event :=
  proposedRun ++ [callBy alice (.withdrawConvictionVote 1 1 alice),
    callBy alice (.voteConviction 1 1 alice 400000), .advance DAY,
    callBy bob (.updateProposalConviction 1 1)]

/-- The vote of one that came back is counted twice. -/
theorem returned_voter_listed_twice :
    let w := run (World.deployed 0) returnedRun
    ((w.state.pools.lookup 1).bind (·.proposals.lookup 1)).map (fun p =>
      (p.voters, p.convictionAccumulated, Store.total (ConvictionVote.weight w.now w.calibration) p.votes)) =
      some ([alice, alice], 760, 380) := by
  decide +kernel

end Sample

end Conviction

end CallStake.Governance
