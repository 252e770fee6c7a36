import CallStake.Governance.Lifecycle

/-!
# The supply of the governance token

The supply is cut up at the initialization and moves between five places: liquid balances, stakes, locked
deposits, vesting schedules and the reserve for liquidity rewards.

* `circulation`: what is in the five places.
* `Books`: sound, with the circulation equal to the supply.
* `KeepsSupply`: what a call does that moves tokens between the places.
* `conserved_of_conserving`: where no voted spend is applied, no vesting schedule is added, settlements find
  the amount that was locked and nothing is left of an earlier life of the contract, the circulation is the
  supply in every state.
* `voted_spend_mints`: a voted spend pays governance tokens that come from nowhere.
-/

namespace CallStake.Governance

open Store

/-! ## Circulation -/

/-- What a schedule has not released. -/
def VestingSchedule.unreleased (v : VestingSchedule) : Int := v.totalAmount - v.releasedAmount

/-- What is left of the allocation for liquidity rewards. -/
def DistributionState.unclaimed (s : DistributionState) : Int := s.allocation.liquidityMining - s.liquidityClaimed

/-- The tokens in all places; `held` has the amounts of the locked deposits. -/
def circulation (t : TokenStorage) (held : Store Nat Int) : Int :=
  Store.total id t.balances + Store.total id t.stakedBalances + Store.total id held +
    Store.total VestingSchedule.unreleased t.vestingSchedules +
    (t.distribution.map DistributionState.unclaimed).getD 0

/-- A reserve that covers the rewards `pending`. -/
structure Covers (pending : Store Address Int) (s : DistributionState) : Prop where
  nonneg : pending.All (0 ≤ ·)
  reserved : Store.total id pending = s.liquidityReserved
  claimed : 0 ≤ s.liquidityClaimed
  allocated : s.liquidityClaimed + s.liquidityReserved ≤ s.allocation.liquidityMining

/-- No place but the reserve holds less than nothing. -/
structure Placed (t : TokenStorage) (held : Store Nat Int) : Prop where
  balances : t.balances.All (0 ≤ ·)
  staked : t.stakedBalances.All (0 ≤ ·)
  held : held.All (0 ≤ ·)
  schedules : t.vestingSchedules.All fun v => 0 ≤ v.releasedAmount ∧ v.releasedAmount ≤ v.totalAmount

/-- No place holds less than nothing. -/
structure Sound (t : TokenStorage) (held : Store Nat Int) : Prop extends Placed t held where
  rewards (s : DistributionState) : t.distribution = some s → Covers t.pendingRewards s

/-- The books are in order. -/
structure Books (t : TokenStorage) (held : Store Nat Int) : Prop where
  sound : Sound t held
  conserved : circulation t held = t.supply
  bounded : t.supply ≤ i128Max

section Writes

variable {t : TokenStorage} {held : Store Nat Int} {holder : Address} {amount : Int}

@[simp] theorem circulation_track : circulation (t.track holder) held = circulation t held := by
  simp [circulation]

theorem circulation_setBalance : circulation (t.setBalance holder amount) held =
    circulation t held - balanceOf t holder + amount := by
  have h := total_insert id t.balances holder amount
  rw [part_id] at h
  simp [circulation, TokenStorage.setBalance, balanceOf, h, id]
  omega

theorem circulation_setStaked : circulation (t.setStaked holder amount) held =
    circulation t held - stakedOf t holder + amount := by
  have h := total_insert id t.stakedBalances holder amount
  rw [part_id] at h
  simp [circulation, TokenStorage.setStaked, stakedOf, h, id]
  omega

theorem circulation_hold {proposalId : Nat} (hnone : held.lookup proposalId = none) :
    circulation t (held.insert proposalId amount) = circulation t held + amount := by
  have h := total_insert id held proposalId amount
  rw [part_none hnone] at h
  simp only [circulation, h, id]
  omega

theorem circulation_unhold {proposalId : Nat} (hsome : held.lookup proposalId = some amount) :
    circulation t (held.erase proposalId) = circulation t held - amount := by
  have h := total_erase id held proposalId
  rw [part_some hsome] at h
  simp only [circulation, h, id]
  omega

theorem Placed.track (h : Placed t held) : Placed (t.track holder) held where
  balances := by rw [track_balances]; exact h.balances
  staked := by rw [track_stakedBalances]; exact h.staked
  held := h.held
  schedules := by rw [track_vestingSchedules]; exact h.schedules

theorem Placed.setBalance (h : Placed t held) (hpos : 0 ≤ amount) :
    Placed (t.setBalance holder amount) held :=
  Placed.track { h with balances := h.balances.insert hpos }

theorem Placed.balanceOf_nonneg (h : Placed t held) (holder : Address) : 0 ≤ balanceOf t holder := by
  rw [balanceOf, ← part_id]
  exact part_nonneg h.balances holder

theorem Sound.track (h : Sound t held) : Sound (t.track holder) held where
  toPlaced := h.toPlaced.track
  rewards s hs := by
    rw [track_distribution] at hs
    rw [track_pendingRewards]
    exact h.rewards s hs

theorem Sound.setBalance (h : Sound t held) (hpos : 0 ≤ amount) :
    Sound (t.setBalance holder amount) held :=
  Sound.track { h with balances := h.balances.insert hpos }

theorem Sound.setStaked (h : Sound t held) (hpos : 0 ≤ amount) :
    Sound (t.setStaked holder amount) held :=
  Sound.track { h with staked := h.staked.insert hpos }

theorem Sound.stakedOf_nonneg (h : Sound t held) (holder : Address) : 0 ≤ stakedOf t holder := by
  rw [stakedOf, ← part_id]
  exact part_nonneg h.staked holder

/-- Nothing negative is left to be released or claimed. -/
theorem Sound.unpaid_nonneg (h : Sound t held) :
    0 ≤ Store.total VestingSchedule.unreleased t.vestingSchedules ∧
      0 ≤ (t.distribution.map DistributionState.unclaimed).getD 0 := by
  constructor
  · refine total_nonneg (h.schedules.mono fun v hv => ?_)
    simp only [VestingSchedule.unreleased]
    omega
  · cases hd : t.distribution with
    | none => exact Int.le_refl 0
    | some s =>
      have hc := h.rewards s hd
      have hr := total_nonneg (f := id) hc.nonneg
      rw [hc.reserved] at hr
      have := hc.allocated
      simp [DistributionState.unclaimed]
      omega

/-- The stakes are a part of the circulation. -/
theorem Sound.total_staked_le (h : Sound t held) :
    Store.total id t.stakedBalances ≤ circulation t held := by
  have hb := total_nonneg (f := id) h.balances
  have hh := total_nonneg (f := id) h.held
  obtain ⟨hv, hl⟩ := h.unpaid_nonneg
  simp only [circulation]
  omega

end Writes

/-! ## Calls that move tokens -/

section Moves

variable {w w' : World} {auth : Auth} {user : Address} {amount : Int} {t : TokenStorage}
  {held : Store Nat Int} {u : Unit}

@[simp] theorem supply_track : (t.track user).supply = t.supply := by
  simp [TokenStorage.supply]

@[simp] theorem supply_setBalance : (t.setBalance user amount).supply = t.supply := by
  simp [TokenStorage.supply]

@[simp] theorem supply_setStaked : (t.setStaked user amount).supply = t.supply := by
  simp [TokenStorage.supply]

/-- Tokens move between the places, and no place is overdrawn. -/
structure KeepsSupply (t t' : TokenStorage) (held : Store Nat Int) : Prop where
  circulation : circulation t' held = circulation t held
  supply : t'.supply = t.supply
  sound : Sound t held → Sound t' held

theorem KeepsSupply.books {t' : TokenStorage} (hk : KeepsSupply t t' held) (h : Books t held) : Books t' held :=
  ⟨hk.sound h.sound, hk.circulation.trans (h.conserved.trans hk.supply.symm), hk.supply ▸ h.bounded⟩

theorem KeepsSupply.kept {t' : TokenStorage} (hk : KeepsSupply t t' held)
    (h : Governance.circulation t held = t.supply) :
    Governance.circulation t' held = t'.supply :=
  hk.circulation.trans (h.trans hk.supply.symm)

theorem KeepsSupply.track : KeepsSupply t (t.track user) held := ⟨circulation_track, supply_track, Sound.track⟩

/-- What is taken out of one place is paid into a balance. -/
theorem KeepsSupply.paid {t' : TokenStorage}
    (hc : Governance.circulation t' held = Governance.circulation t held - amount)
    (hsupply : t'.supply = t.supply) (hs : Sound t held → Sound t' held) (hpos : 0 < amount) :
    KeepsSupply t (t'.setBalance user (balanceOf t' user + amount)) held := by
  refine ⟨?_, supply_setBalance.trans hsupply, fun h => (hs h).setBalance ?_⟩
  · rw [circulation_setBalance, hc]
    omega
  · have := (hs h).balanceOf_nonneg user
    omega

theorem stake_keeps (hcall : stake auth user amount w = (.ok u, w')) :
    KeepsSupply w.store.token w'.store.token w.held := by
  simp [stake, Token.stake, subtractBalance_ok, addStakedBalance_ok] at hcall
  obtain ⟨-, -, -, -, -, ⟨-, hle, -⟩, hpos, -, rfl⟩ := hcall
  refine ⟨?_, supply_setStaked.trans supply_setBalance, fun h => ?_⟩
  · simp only [World.setBalance, World.setStaked, circulation_setStaked, circulation_setBalance]
    omega
  · have hs : Sound (w.store.token.setBalance user (balanceOf w.store.token user - amount)) w.held :=
      h.setBalance (Int.sub_nonneg.mpr hle)
    have := hs.stakedOf_nonneg user
    exact hs.setStaked (Int.add_nonneg this (Int.le_of_lt hpos))

theorem unstake_keeps (hcall : unstake auth user amount w = (.ok u, w')) :
    KeepsSupply w.store.token w'.store.token w.held := by
  simp [unstake, Token.unstake, subtractStakedBalance_ok, addBalance_ok]
    at hcall
  obtain ⟨-, -, -, -, -, -, ⟨-, hle, -⟩, hpos, -, rfl⟩ := hcall
  have hc : circulation (w.store.token.setStaked user (stakedOf w.store.token user - amount)) w.held =
      circulation w.store.token w.held - amount := by
    rw [circulation_setStaked]
    omega
  exact .paid hc supply_setStaked (·.setStaked (Int.sub_nonneg.mpr hle)) hpos

/-- No more is released than the schedule has. -/
theorem releasableAmount_le {v : VestingSchedule} {now : Nat} {n : Int}
    (hv : 0 ≤ v.releasedAmount ∧ v.releasedAmount ≤ v.totalAmount)
    (h : releasableAmount v now = .ok n) : v.releasedAmount + n ≤ v.totalAmount := by
  simp only [releasableAmount] at h
  split at h
  · cases h
    omega
  · rename_i hcliff
    split at h
    · simp only [Res.bind_ok, checkedSubR_ok] at h
      obtain ⟨_, htotal, -, -, rfl⟩ := h
      cases htotal
      omega
    · rename_i hlinear
      simp only [Res.bind_ok, checkedMulR_ok, checkedSubR_ok] at h
      obtain ⟨_, ⟨-, -, rfl⟩, _, hdiv, -, -, rfl⟩ := h
      obtain ⟨hne, rfl⟩ := checkedDivR_ok hdiv
      -- before the end, less time has passed since the cliff than there is
      have hpassed : now - u64Add v.startTime v.cliffSeconds ≤ v.durationSeconds - v.cliffSeconds := by
        simp [u64Add] at hlinear hcliff ⊢
        omega
      have htotal : 0 ≤ v.totalAmount := hv.1.trans hv.2
      have hle : (v.totalAmount * ((now - u64Add v.startTime v.cliffSeconds : Nat) : Int)).tdiv
          ((v.durationSeconds - v.cliffSeconds : Nat) : Int) ≤ v.totalAmount := by
        rw [Int.tdiv_eq_ediv_of_nonneg (Int.mul_nonneg htotal (Int.natCast_nonneg _))]
        refine Int.ediv_le_of_le_mul (by omega) ?_
        exact Int.mul_le_mul_of_nonneg_left (Int.ofNat_le.mpr hpassed) htotal
      omega

/-- The schedule after `n` tokens were released. -/
def VestingSchedule.release (v : VestingSchedule) (n : Int) : VestingSchedule :=
  { v with releasedAmount := v.releasedAmount + n }

/-- The token after `n` tokens of a schedule were released, and before they are paid. -/
def TokenStorage.release (t : TokenStorage) (user : Address) (v : VestingSchedule) (n : Int) :
    TokenStorage :=
  { t with vestingSchedules := t.vestingSchedules.insert user (v.release n) }

theorem circulation_release {v : VestingSchedule} {n : Int}
    (hv : t.vestingSchedules.lookup user = some v) :
    circulation (t.release user v n) held = circulation t held - n := by
  have h := total_insert VestingSchedule.unreleased t.vestingSchedules user (v.release n)
  rw [part_some hv] at h
  have hn : (v.release n).unreleased = v.unreleased - n := by
    simp only [VestingSchedule.unreleased, VestingSchedule.release]
    omega
  simp only [circulation, TokenStorage.release, h, hn]
  omega

theorem releaseVestedTokens_keeps {n : Int} (hcall : releaseVestedTokens auth user w = (.ok n, w')) :
    KeepsSupply w.store.token w'.store.token w.held := by
  simp [releaseVestedTokens, addBalance_ok] at hcall
  obtain ⟨-, -, v, hv, -, hn, hpos, -, -, -, rfl⟩ := hcall
  refine .paid (circulation_release hv) rfl (fun h => ?_) hpos
  have hbounds := h.schedules user v hv
  have hreleased : 0 ≤ (v.release n).releasedAmount := by
    simp only [VestingSchedule.release]
    omega
  exact { h with schedules := h.schedules.insert ⟨hreleased, releasableAmount_le hbounds hn⟩ }

theorem accrueLiquidityRewards_keeps {n volume : Int} {admin : Address}
    (hcall : accrueLiquidityRewards auth admin user volume w = (.ok n, w')) :
    KeepsSupply w.store.token w'.store.token w.held := by
  simp [accrueLiquidityRewards, rewardForVolume, getDistributionState, reserveLiquidityRewards,
    putDistributionState, trackHolder] at hcall
  obtain ⟨-, -, -, hpos, s, ⟨-, hd, -, -, hle, -⟩, -, rfl⟩ := hcall
  refine ⟨by simp [circulation, hd, DistributionState.unclaimed], by simp [TokenStorage.supply],
    fun h => Sound.track { h with rewards := ?_ }⟩
  rintro s' hs'
  cases hs'
  have hc := h.rewards s hd
  have hpart := part_nonneg (f := id) hc.nonneg user
  have htotal := total_insert id w.store.token.pendingRewards user
    ((w.store.token.pendingRewards.lookup user).getD 0 + n)
  rw [part_id] at hpart htotal
  refine ⟨hc.nonneg.insert (by omega), ?_, hc.claimed, by simpa [Int.add_assoc] using hle⟩
  rw [htotal, hc.reserved]
  simp only [id]
  omega

theorem claimLiquidityRewards_keeps {n : Int} (hcall : claimLiquidityRewards auth user w = (.ok n, w')) :
    KeepsSupply w.store.token w'.store.token w.held := by
  simp [claimLiquidityRewards, getDistributionState, claimReservedLiquidityRewards, putDistributionState,
    addBalance_ok] at hcall
  obtain ⟨-, -, -, -, -, -, -, s, ⟨hd, -⟩, ⟨hpos, -, rfl⟩, -⟩ := hcall
  refine .paid ?_ rfl (fun h => { h with rewards := ?_ }) hpos
  · simp [circulation, hd, DistributionState.unclaimed]
    omega
  · rintro s' hs'
    cases hs'
    have hc := h.rewards s hd
    have htotal := total_insert id w.store.token.pendingRewards user 0
    have hle := part_le_total (f := id) hc.nonneg user
    rw [part_id] at htotal hle
    rw [hc.reserved] at hle
    refine ⟨hc.nonneg.insert (Int.le_refl 0), ?_, ?_, ?_⟩
    · rw [htotal, hc.reserved]
      simp only [id]
      omega
    · have := hc.claimed
      exact Int.add_nonneg this (Int.le_of_lt hpos)
    · have := hc.allocated
      simp only
      omega

/-- What of the distribution the tokens depend on. -/
def DistributionState.reserve (s : DistributionState) : DistributionAllocation × Int × Int :=
  (s.allocation, s.liquidityReserved, s.liquidityClaimed)

/-- Another reward rate, or other locks of votes. -/
theorem KeepsSupply.retuned {t' : TokenStorage} (hb : t'.balances = t.balances)
    (hs : t'.stakedBalances = t.stakedBalances) (hv : t'.vestingSchedules = t.vestingSchedules)
    (hp : t'.pendingRewards = t.pendingRewards) (hm : t'.metadata = t.metadata)
    (hd : t'.distribution.map DistributionState.reserve = t.distribution.map DistributionState.reserve) :
    KeepsSupply t t' held := by
  refine ⟨?_, by simp only [TokenStorage.supply, hm], fun h => ⟨⟨hb ▸ h.balances, hs ▸ h.staked, h.held,
    hv ▸ h.schedules⟩, ?_⟩⟩
  · have hu := congrArg (Option.map fun r : DistributionAllocation × Int × Int =>
      r.1.liquidityMining - r.2.2) hd
    simp at hu
    have hu : t'.distribution.map DistributionState.unclaimed = t.distribution.map DistributionState.unclaimed := hu
    simp only [Governance.circulation, hb, hs, hv, hu]
  · intro s' hs'
    rw [hs', Option.map_some] at hd
    obtain ⟨s, hs, heq⟩ := Option.map_eq_some_iff.mp hd.symm
    have hc := h.rewards s hs
    simp [DistributionState.reserve] at heq
    obtain ⟨h1, h2, h3⟩ := heq
    rw [hp]
    exact ⟨hc.nonneg, by rw [← h2]; exact hc.reserved, by rw [← h3]; exact hc.claimed,
      by rw [← h1, ← h2, ← h3]; exact hc.allocated⟩

end Moves

/-! ## Initialization -/

section Initialization

variable {w w' : World} {u : Unit} {beneficiary : Address} {amount : Int}

/-- `amount` tokens appear in some place, and the reserve is as it was. -/
structure Adds (amount : Int) (w w' : World) : Prop where
  placed : Placed w.store.token w.held → Placed w'.store.token w'.held
  circulation : circulation w'.store.token w'.held = circulation w.store.token w.held + amount
  metadata : w'.store.token.metadata = w.store.token.metadata
  distribution : w'.store.token.distribution = w.store.token.distribution
  pendingRewards : w'.store.token.pendingRewards = w.store.token.pendingRewards
  held : w'.held = w.held

theorem Adds.trans {w'' : World} {amount' : Int} (h : Adds amount w w') (h' : Adds amount' w' w'') :
    Adds (amount + amount') w w'' where
  placed hp := h'.placed (h.placed hp)
  circulation := by
    have h1 := h.circulation
    have h2 := h'.circulation
    omega
  metadata := h'.metadata.trans h.metadata
  distribution := h'.distribution.trans h.distribution
  pendingRewards := h'.pendingRewards.trans h.pendingRewards
  held := h'.held.trans h.held

/-- A new schedule is tokens that are still to be released. -/
theorem createSchedule_adds {category : VestingCategory}
    {startTime cliffSeconds durationSeconds : Nat}
    (h : createSchedule beneficiary category amount startTime cliffSeconds durationSeconds w =
      (.ok u, w')) : Adds amount w w' := by
  simp [createSchedule] at h
  obtain ⟨hpos, -, hnone, rfl⟩ := h
  refine ⟨fun hp => ?_, ?_, rfl, rfl, rfl, rfl⟩
  · exact { hp with schedules := hp.schedules.insert ⟨Int.le_refl 0, Int.le_of_lt hpos⟩ }
  · simp [Governance.circulation, total_insert, part_none hnone, VestingSchedule.unreleased]
    omega

theorem addBalance_adds {holder : Address} (h : addBalance holder amount w = (.ok u, w')) :
    Adds amount w w' := by
  obtain ⟨hpos, -, rfl⟩ := addBalance_ok.mp h
  refine ⟨fun hp => ?_, ?_, setBalance_metadata _ _ _, by simp [World.setBalance, TokenStorage.setBalance],
    by simp [World.setBalance, TokenStorage.setBalance], rfl⟩
  · have := hp.balanceOf_nonneg holder
    exact hp.setBalance (Int.add_nonneg this (Int.le_of_lt hpos))
  · simp only [World.setBalance, circulation_setBalance]
    omega

/-- What the distribution does to tokens that are nowhere but in the places of an earlier life. -/
structure Distributes (w : World) (t : TokenStorage) (held : Store Nat Int) : Prop where
  circulation : circulation t held = t.supply + Store.total id w.held +
    Store.total VestingSchedule.unreleased w.store.token.vestingSchedules
  bounded : t.supply ≤ i128Max
  sound : w.held = ∅ → w.store.token.vestingSchedules = ∅ → w.store.token.pendingRewards = ∅ → Sound t held

theorem Distributes.track {t : TokenStorage} {held : Store Nat Int} {holder : Address}
    (h : Distributes w t held) : Distributes w (t.track holder) held where
  circulation := by
    rw [circulation_track, supply_track]
    exact h.circulation
  bounded := supply_track.trans_le h.bounded
  sound hh hv hp := (h.sound hh hv hp).track

/-- The distribution cuts up the whole supply. -/
theorem initializeDistribution_distributes {recipients : DistributionRecipients} {totalSupply : Int}
    {rewardBps : Nat} {minClaimThreshold : Int} {d : DistributionState} {m : TokenMetadata}
    (hpos : 0 < totalSupply) (hm : w.store.token.metadata = some m) (hsupply : m.totalSupply = totalSupply)
    (hb : w.store.token.balances = ∅) (hs : w.store.token.stakedBalances = ∅)
    (h : initializeDistribution recipients totalSupply rewardBps minClaimThreshold w = (.ok d, w')) :
    Distributes w w'.store.token w'.held := by
  simp only [initializeDistribution, Tx.bind_ok, Tx.failIf_ok, lift_ok, timestamp_ok, save_ok, Tx.pure_ok] at h
  obtain ⟨_, _, ⟨-, rfl⟩, _, _, ⟨-, rfl⟩, a, _, ⟨ha, rfl⟩, _, w₁, h1, _, w₂, h2, _, w₃, h3, _, _, ⟨rfl, rfl⟩,
    _, w₄, h4, _, w₅, h5, _, _, rfl, -, rfl⟩ := h
  obtain ⟨hsum, hmining, hmax⟩ := createAllocation_ok hpos ha
  have hadds := ((((addBalance_adds h1).trans (addBalance_adds h2)).trans (addBalance_adds h3)).trans
    (createSchedule_adds h4)).trans (createSchedule_adds h5)
  have htotal : w₅.store.token.supply = totalSupply := by
    simp [TokenStorage.supply, hadds.metadata, hm, hsupply]
  refine ⟨?_, Int.le_trans (Int.le_of_eq htotal) hmax, fun hheld hvesting hpending => ?_⟩
  · have hc := hadds.circulation
    simp [Governance.circulation, hb, hs, hadds.distribution] at hc
    change _ = w₅.store.token.supply + _ + _
    simp [Governance.circulation, DistributionState.unclaimed, htotal]
    omega
  · have hplaced := hadds.placed ⟨hb ▸ all_empty _, hs ▸ all_empty _, hheld ▸ all_empty _,
      hvesting ▸ all_empty _⟩
    refine ⟨⟨hplaced.balances, hplaced.staked, hplaced.held, hplaced.schedules⟩, ?_⟩
    rintro s hs
    cases hs
    simp only [hadds.pendingRewards, hpending]
    exact ⟨all_empty _, rfl, Int.le_refl 0, by simpa using hmining⟩

theorem initializeGovernance_distributes {auth : Auth} {admin : Address} {name symbol : Bytes}
    {decimals : Nat} {totalSupply : Int} {recipients : DistributionRecipients}
    (h : initializeGovernance auth admin name symbol decimals totalSupply recipients w = (.ok u, w')) :
    Distributes w w'.store.token w'.held := by
  obtain ⟨⟨-, -, hpos, -⟩, d, w₁, hd, rfl⟩ := initializeGovernance_ok.mp h
  have hdist := initializeDistribution_distributes hpos rfl rfl rfl rfl hd
  have hdist : Distributes w w₁.store.token w₁.held := ⟨hdist.circulation, hdist.bounded, hdist.sound⟩
  exact ((((hdist.track).track).track).track).track

end Initialization

/-! ## Condition -/

def ProposalType.spends : ProposalType → Bool
  | .treasurySpend .. => true
  | _ => false

/-- The entry is not open, or its proposal is not stored, or spends nothing. -/
def Docket.SparingEntry (d : Docket) (actionId : Nat) : Prop :=
  ∀ a ∈ Registry.first QueuedAction.id d.queue actionId, a.executed = false → a.cancelled = false →
    ∀ p ∈ d.proposals.lookup a.proposalId, p.proposalType.spends = false

/-- What the code does not ask of a call, apart from the entries that it runs. -/
def World.Conserves (w : World) : Call → Prop
  | .createProposal .. => w.docket.held.lookup w.docket.nextId = none
  | .executeProposal id _ => ∀ p ∈ w.docket.proposals.lookup id, p.status = .succeeded →
      w.docket.now ≤ p.executionDeadline → p.proposalType.spends = false
  | .finalizeProposal id => ∀ p ∈ w.docket.proposals.lookup id,
      p.status = .pending ∨ p.status = .active →
      (w.store.config.governanceConfig.executionDelay = 0 → p.proposalType.spends = false) ∧
        ∀ amount ∈ w.docket.held.lookup id, amount = w.docket.deposit
  | .withdrawProposal id proposer => ∀ p ∈ w.docket.proposals.lookup id, p.status = .pending →
      p.proposer = proposer → ∀ amount ∈ w.docket.held.lookup id, amount = w.docket.deposit ∧
        InRange (balanceOf w.store.token proposer + amount)
  | .initializeGovernance .. => w.store.core.initialized = false → Store.total id w.held = 0 ∧
      Store.total VestingSchedule.unreleased w.store.token.vestingSchedules = 0
  | .direct _ (.vestingSchedule beneficiary totalAmount ..) |
    .timelocked _ _ (.vestingSchedule beneficiary totalAmount ..) =>
      0 < totalAmount → (w.store.token.vestingSchedules.lookup beneficiary).isSome = true
  | _ => True

/-- No voted spend is applied and no vesting schedule is added; a settlement finds the configured amount to
be the one that was locked, and a refund finds room for it; a new proposal does not take over the deposit of
another, and the contract is not initialized again while a deposit is locked or a schedule is to be released. -/
def Conserving (w : World) : Event → Prop
  | .call _ c => w.Conserves c ∧ ∀ actionId ∈ c.runs, w.docket.SparingEntry actionId
  | _ => True

instance (d : Docket) (actionId : Nat) : Decidable (d.SparingEntry actionId) :=
  inferInstanceAs (Decidable (∀ a ∈ Registry.first QueuedAction.id d.queue actionId, _))

instance (w : World) (c : Call) : Decidable (w.Conserves c) := by
  delta World.Conserves
  split <;> infer_instance

instance (w : World) (ev : Event) : Decidable (Conserving w ev) :=
  match ev with
  | .call _ _ => inferInstanceAs (Decidable (_ ∧ _))
  | .advance _ => inferInstanceAs (Decidable True)
  | .maintenance .. => inferInstanceAs (Decidable True)

/-! ## Moves -/

/-- The circulation is the supply. -/
def Docket.Kept (d : Docket) : Prop := circulation d.token d.held = d.token.supply

namespace Docket.Kept

variable {d d' : Docket} {p : Proposal} {id : Nat}

theorem effect {t t' : TokenStorage} {held : Store Nat Int} {proposalType : ProposalType}
    (h : circulation t held = t.supply) (hspends : proposalType.spends = false)
    (he : Effect t proposalType t') : circulation t' held = t'.supply := by
  cases proposalType
  case treasurySpend => cases hspends
  all_goals
    cases he
    exact h

theorem executed (h : d.Kept) (hspends : p.proposalType.spends = false) (he : Executed d p d') :
    d'.Kept := by
  obtain ⟨t, heffect, rfl⟩ := he.effect
  exact effect h hspends heffect

/-- Entries are run one after another: what one leaves open, and the proposals of the rest, are as they
were. -/
theorem runsEach (h : d.Kept) {ids : List Nat} (hspare : ∀ i ∈ ids, d.SparingEntry i)
    (hrun : RunsEach ids d d') : d'.Kept := by
  induction hrun with
  | nil => exact h
  | skip _ ih => exact ih h fun i hi => hspare i (List.mem_cons_of_mem _ hi)
  | @run actionId ids d d₁ d' a p t hrun _ ih =>
    have hspends := hspare actionId (List.mem_cons_self ..) a hrun.found hrun.executed hrun.cancelled p
      hrun.stored
    have hd₁ : d₁.Kept := by
      rw [hrun.eq]
      exact effect h hspends hrun.effect
    refine ih hd₁ fun j hj b hb hbe hbc q hq => ?_
    have hqueue : d₁.queue = Registry.updateFirst QueuedAction.id d.queue actionId
        fun e => { e with executed := true } := by rw [hrun.eq]; rfl
    rw [Option.mem_def, hqueue, Registry.first_updateFirst (by intro _; rfl)] at hb
    split at hb
    · -- the entry that was just run is not open any more
      rw [hrun.found] at hb
      cases hb
      cases hbe
    · rw [Option.mem_def, hrun.eq, Docket.put, lookup_insert_eq] at hq
      split at hq
      · cases hq
        exact hspends
      · exact hspare j (List.mem_cons_of_mem _ hj) b hb hbe hbc q hq

/-- The proposer pays the deposit that is held. -/
theorem create (h : d.Kept) {snapshots : Store Address Int} {proposer : Address}
    (hnone : d.held.lookup p.id = none) : ((d.add p snapshots).lock p.id proposer).Kept := by
  change circulation (d.token.setBalance proposer (balanceOf d.token proposer - d.deposit))
    (d.held.insert p.id d.deposit) = TokenStorage.supply (TokenStorage.setBalance ..)
  rw [circulation_hold hnone, circulation_setBalance, supply_setBalance]
  have : circulation d.token d.held = (d.add p snapshots).token.supply := h
  omega

/-- What was held is paid. -/
theorem paid (h : d.Kept) {recipient : Address} (hheld : d.held.lookup id = some d.deposit) :
    ((d.credit id recipient).release id).Kept := by
  change circulation (d.token.setBalance recipient (balanceOf d.token recipient + d.deposit))
    (d.held.erase id) = TokenStorage.supply (TokenStorage.setBalance ..)
  rw [circulation_unhold hheld, circulation_setBalance, supply_setBalance]
  have : circulation d.token d.held = d.token.supply := h
  omega

/-- A lock is one of the amount that is held. -/
theorem held_of_locked (hw : d.WellFormed) {proposer : Address}
    (hheld : ∀ amount ∈ d.held.lookup id, amount = d.deposit) (hl : d.locked.lookup id = some proposer) :
    d.held.lookup id = some d.deposit := by
  obtain ⟨amount, hamount⟩ := Option.isSome_iff_exists.mp ((hw.held id).trans (Option.isSome_of_eq_some hl))
  exact hheld amount hamount ▸ hamount

theorem settled (h : d.Kept) (hw : d.WellFormed) {treasury : Address}
    (hheld : ∀ amount ∈ d.held.lookup id, amount = d.deposit) (hs : Settled d id treasury d') :
    d'.Kept := by
  cases hs with
  | none => exact h
  | stuck => exact h
  | paid hl => exact h.paid (held_of_locked hw hheld hl)

theorem refunded (h : d.Kept) (hw : d.WellFormed) {proposer : Address}
    (hheld : ∀ amount ∈ d.held.lookup id, amount = d.deposit ∧ InRange (balanceOf d.token proposer + amount))
    (hr : Refunded d id proposer d') : d'.Kept := by
  have hlocked (hl : d.locked.lookup id = some proposer) : d.held.lookup id = some d.deposit :=
    held_of_locked hw (fun amount hamount => (hheld amount hamount).1) hl
  cases hr with
  | none => exact h
  | paid hl => exact h.paid (hlocked hl)
  | lost hl hfull => exact absurd (hheld _ (hlocked hl)).2 hfull

end Docket.Kept

/-- Nothing of an earlier life is in circulation. -/
theorem Distributes.kept {w w' : World} (h : Distributes w w'.store.token w'.held)
    (hnone : Store.total id w.held = 0 ∧
      Store.total VestingSchedule.unreleased w.store.token.vestingSchedules = 0) : w'.docket.Kept := by
  have hc := h.circulation
  rw [hnone.1, hnone.2, Int.add_zero, Int.add_zero] at hc
  exact hc

/-! ## Calls -/

section Calls

variable {w w' : World} {auth : Auth} {c : Call}

/-- There is one schedule for each beneficiary. -/
theorem addVestingSchedule_refused {beneficiary : Address} {totalAmount : Int} {u : Unit}
    {startTime cliffSeconds durationSeconds : Nat}
    (hsome : 0 < totalAmount → (w.store.token.vestingSchedules.lookup beneficiary).isSome = true) :
    ¬ addVestingSchedule beneficiary totalAmount startTime cliffSeconds durationSeconds w = (.ok u, w') := by
  intro h
  simp [addVestingSchedule, createSchedule] at h
  obtain ⟨⟨hpos, -, hnone⟩, -⟩ := h
  have := hsome hpos
  rw [hnone] at this
  cases this

/-- A call that writes the token and nothing that the docket has of proposals. -/
theorem kept_of_other (h : w.docket.Kept) (hs : w.Conserves c) (hc : .log ∉ c.footprint)
    (hq : Quiet w.docket w'.docket) (hcall : invoke auth c w = (.ok (), w')) : w'.docket.Kept := by
  have hheld : w'.held = w.held := hq.held
  have kept (hk : KeepsSupply w.store.token w'.store.token w.held) : w'.docket.Kept := by
    change circulation w'.store.token w'.held = w'.store.token.supply
    rw [hheld]
    exact hk.kept h
  by_cases htoken : .token ∈ c.footprint
  · cases c
    case initializeGovernance =>
      obtain ⟨⟨-, hi, -⟩, -⟩ := initializeGovernance_ok.mp hcall
      exact (initializeGovernance_distributes hcall).kept (hs hi)
    case stake => exact kept (stake_keeps hcall)
    case unstake => exact kept (unstake_keeps hcall)
    case setVoteLock =>
      simp [invoke, setVoteLock, trackHolder] at hcall
      obtain ⟨-, -, rfl⟩ := hcall
      refine KeepsSupply.track.kept (KeepsSupply.kept (.retuned ?_ ?_ ?_ ?_ ?_ ?_) h) <;> rfl
    case releaseVestedTokens =>
      obtain ⟨_, hcall⟩ := Tx.void_ok.mp hcall
      exact kept (releaseVestedTokens_keeps hcall)
    case accrueLiquidityRewards =>
      obtain ⟨_, hcall⟩ := Tx.void_ok.mp hcall
      exact kept (accrueLiquidityRewards_keeps hcall)
    case claimLiquidityRewards =>
      obtain ⟨_, hcall⟩ := Tx.void_ok.mp hcall
      exact kept (claimLiquidityRewards_keeps hcall)
    case setLiquidityMiningConfig =>
      obtain ⟨_, hcall⟩ := Tx.void_ok.mp hcall
      simp [setLiquidityMiningConfig, getDistributionState, putDistributionState] at hcall
      obtain ⟨-, -, state, hd, -, rfl⟩ := hcall
      refine kept (.retuned rfl rfl rfl rfl rfl ?_)
      rw [hd]
      rfl
    case direct caller action =>
      cases action
      case vestingSchedule =>
        simp [invoke, invokeDirect, createVestingSchedule] at hcall
        exact absurd hcall.2.2 (addVestingSchedule_refused hs)
      all_goals simp [Call.footprint, AdminAction.footprint] at htoken
    case timelocked caller actionId action =>
      obtain ⟨-, entry, -, hx⟩ := invokeTimelocked_ok hcall
      cases action
      case vestingSchedule => exact absurd hx (addVestingSchedule_refused hs)
      all_goals simp [Call.footprint, AdminAction.footprint] at htoken
    all_goals simp [Call.footprint, executionRegions] at htoken hc
  · have hsame := ((invoke_writes auth c).of_run hcall).same .token htoken
    change w'.store.token = w.store.token at hsame
    change circulation w'.store.token w'.held = w'.store.token.supply
    rw [hsame, hheld]
    exact h

theorem kept_of_call (h : w.docket.Kept) (hw : w.docket.WellFormed) (hs : Conserving w (.call auth c))
    (hcall : invoke auth c w = (.ok (), w')) : w'.docket.Kept := by
  have hm := docketMove_of_call hw hcall
  generalize hd : w'.docket = d' at hm
  cases hm with
  | create hp _ h' =>
    subst h' hp
    exact h.create hs.1
  | vote _ _ _ _ h' => subst h'; exact h
  | reputationVote _ _ _ h' => subst h'; exact h
  | @finalize id p status d₁ _ hp hopen _ hexec hsettle =>
    obtain ⟨hspends, hheld⟩ := hs.1 p hp hopen
    have hput : (w.docket.put (p.withStatus status)).WellFormed := hw.put hp rfl
    have hkept : (w.docket.put (p.withStatus status)).Kept := h
    rcases hexec with rfl | ⟨hdelay, hexec⟩
    · exact hkept.settled hput hheld hsettle
    · have hw₁ := hput.executed (AList.lookup_insert _) hexec
      have h₁ : d₁.Kept := hkept.executed (by exact hspends hdelay) hexec
      obtain ⟨t, -, rfl⟩ := hexec.effect
      exact h₁.settled hw₁ hheld hsettle
  | execute hp h' => exact h.executed (hs.1 _ hp h'.succeeded h'.live) h'
  | run h' => exact h.runsEach hs.2 h'
  | cancel _ _ h' => subst h'; exact h
  | cancelQueued _ _ _ _ h' => subst h'; exact h
  | @withdraw id p _ hp hstatus h' =>
    have hput : (w.docket.put (p.withStatus .withdrawn)).WellFormed := hw.put hp rfl
    have hkept : (w.docket.put (p.withStatus .withdrawn)).Kept := h
    exact hkept.refunded hput (hs.1 p hp hstatus rfl) h'
  | remove h' => rw [h'.eq]; exact h
  | restart hi =>
    rw [← hd]
    exact (initializeGovernance_distributes hcall).kept (hs.1 hi)
  | queue _ _ _ _ h' => subst h'; exact h
  | other hc hq =>
    subst hd
    exact kept_of_other h hs.1 hc hq hcall

end Calls

/-! ## Runs -/

theorem kept_step {w w' : World} {ev : Event} (h : w.docket.Kept) (hw : w.docket.WellFormed)
    (hs : Conserving w ev) (hstep : Step w ev w') : w'.docket.Kept := by
  rcases hstep.cases with ⟨auth, c, rfl, hcall⟩ | ⟨auth, c, rfl, rfl⟩ | ⟨ledger, rfl, -, rfl⟩ |
    ⟨treasury, committees, rewardBps, minClaimThreshold, rfl, rfl⟩
  · exact kept_of_call h hw hs hcall
  · exact h
  · exact h
  · refine KeepsSupply.kept (t := w.store.token) (.retuned rfl rfl rfl rfl rfl ?_) h
    simp [World.docket, Storage.maintain]
    rfl

/-- In every run in which no voted spend is applied, no vesting schedule is added, every settlement finds
the configured amount to be the one that was locked, every refund finds room, no new proposal takes over the
deposit of another and the contract is not initialized again while a deposit is locked or a schedule is to be
released: the tokens in all places add up to the supply. -/
theorem conserved_of_conserving {ledger : Ledger} {w : World}
    (h : Reaches (fun w ev w' => Conserving w ev ∧ Step w ev w') (World.deployed ledger) w) :
    circulation w.store.token w.held = w.store.token.supply := by
  have hinv := h.invariant (I := fun w => w.docket.WellFormed ∧ w.docket.Kept)
    ⟨wellFormed_start ledger, rfl⟩
    fun _ _ _ ⟨hw, hI⟩ ⟨hC, hs⟩ => ⟨wellFormed_step hw hs, kept_step hI hw hC hs⟩
  exact hinv.2

namespace Sample

/-- Tokens are staked, vested and earned, and two deposits are settled. -/
def circulatedRun : List Event :=
  [callBy admin initializeCall, callBy community (.stake community 20000),
    callBy admin (.accrueLiquidityRewards admin sale 20000), callBy sale (.claimLiquidityRewards sale),
    callBy community (propose community signal), callBy community (.withdrawProposal 1 community),
    callBy community (propose community signal), atTime 100,
    callBy community (.castVote 2 community .inFavor), atTime 700000, call (.finalizeProposal 2),
    callBy community (.unstake community 500), callBy investors (.releaseVestedTokens investors)]

/-- Staking, deposits and claims leave the supply in circulation. -/
theorem circulated_run_conserved : circulation (deployedRun circulatedRun).store.token
    (deployedRun circulatedRun).held = (deployedRun circulatedRun).store.token.supply :=
  conserved_of_conserving (reaches_run (by decide +kernel))

/-- A vote spends a thousand from the books of the treasury. -/
def spentRun : List Event :=
  [callBy admin initializeCall, callBy admin (.direct admin (.setTreasuryAsset ⟨[67], none⟩ 10000)),
    callBy community (.stake community 20000),
    callBy community (propose community (.treasurySpend mallory 1000 ⟨[67], none⟩ [112])),
    atTime 100, callBy community (.castVote 1 community .inFavor), atTime 700000,
    call (.finalizeProposal 1)]

/-- A voted spend credits tokens that are taken from nobody. -/
theorem voted_spend_mints : circulation (deployedRun spentRun).store.token
    (deployedRun spentRun).held ≠ (deployedRun spentRun).store.token.supply := by
  decide +kernel

end Sample

end CallStake.Governance
