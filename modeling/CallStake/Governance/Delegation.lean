import Mathlib.Algebra.Order.BigOperators.Group.Finset
import CallStake.Governance.Conservation

/-!
# Delegated voting power (`proposals::delegate_voting_power`, `get_effective_voting_power`)

A delegation keeps the stake that the delegator had when it was made; the stake itself can still
change.

* `Storage.users`: everyone who can have voting power; nobody else has any (`power_of_not_user`).
* `Entrusted`: a delegation in force is listed, and is as large as the stake of the delegator.
* `sum_power`: then the powers of all users add up to the stakes of all users.
* `power_conserved_of_undelegated`: in every run in which only users whose power is not delegated stake and
  unstake, the powers add up to the stakes.
* `stake_behind_delegation_lost`: a stake that is made behind a delegation has no power.
-/

namespace CallStake.Governance

open Store

/-! ## Users -/

/-- The delegate of `user`, if a delegation of `user` is in force. -/
def DelegationState.delegateOf (d : DelegationState) (user : Address) : Option Address :=
  (d.activeOf user).map (·.delegate)

/-- Everyone with a stake, a delegation or a delegator. -/
def Storage.users (s : Storage) : Finset Address :=
  (s.token.stakedBalances.keys ++ s.delegation.delegators ++
    s.delegation.delegators.filterMap s.delegation.delegateOf).toFinset

/-- What `delegator` gave to `user`. -/
def DelegationState.given (d : DelegationState) (user delegator : Address) : Int :=
  match d.delegations.lookup delegator with
  | some v => if v.active = true ∧ v.delegate = user then v.delegatedPower else 0
  | none => 0

/-- The delegations in force are as large as the stakes behind them. -/
structure Entrusted (s : Storage) : Prop where
  nodup : s.delegation.delegators.Nodup
  listed (user : Address) (v : VoteDelegation) :
    s.delegation.delegations.lookup user = some v → user ∈ s.delegation.delegators
  power (user : Address) (v : VoteDelegation) :
    s.delegation.activeOf user = some v → v.delegatedPower = stakedOf s.token user

section Users

variable {s : Storage} {user delegator : Address}

theorem activeOf_eq_some {d : DelegationState} {v : VoteDelegation} :
    d.activeOf user = some v ↔ d.delegations.lookup user = some v ∧ v.active = true := by
  simp [DelegationState.activeOf, Option.filter_eq_some_iff]

theorem mem_users : user ∈ s.users ↔ (∃ n, s.token.stakedBalances.lookup user = some n) ∨
    user ∈ s.delegation.delegators ∨
    ∃ delegator ∈ s.delegation.delegators, s.delegation.delegateOf delegator = some user := by
  have hkeys : user ∈ s.token.stakedBalances.keys ↔
      ∃ n, s.token.stakedBalances.lookup user = some n := by
    rw [← Option.isSome_iff_exists, AList.lookup_isSome]
    exact Iff.rfl
  simp [Storage.users, hkeys]

theorem staked_of_not_user (h : user ∉ s.users) : stakedOf s.token user = 0 := by
  cases hl : s.token.stakedBalances.lookup user with
  | none => rw [stakedOf, hl]; rfl
  | some n => exact absurd (mem_users.mpr (.inl ⟨n, hl⟩)) h

/-- What a delegator gave to a user is the stake of the delegator, if the user is the delegate. -/
theorem Entrusted.given_eq (h : Entrusted s) : s.delegation.given user delegator =
    if s.delegation.delegateOf delegator = some user then stakedOf s.token delegator else 0 := by
  unfold DelegationState.given DelegationState.delegateOf
  cases hl : s.delegation.delegations.lookup delegator with
  | none =>
    have hnone : s.delegation.activeOf delegator = none := by simp [DelegationState.activeOf, hl]
    simp [hnone]
  | some v =>
    by_cases ha : v.active = true
    · have hsome := activeOf_eq_some.mpr ⟨hl, ha⟩
      simp [hsome, ha, h.power delegator v hsome]
    · have hnone : s.delegation.activeOf delegator = none := by
        simp [DelegationState.activeOf, hl, ha]
      simp [hnone, ha]

/-- What a user was given, up to the largest number. -/
theorem Entrusted.delegatedTo_eq (h : Entrusted s) (hpos : ∀ x, 0 ≤ stakedOf s.token x) :
    delegatedTo s.delegation user =
      min i128Max (∑ x ∈ s.delegation.delegators.toFinset, s.delegation.given user x) := by
  have hgiven : ∀ x, 0 ≤ s.delegation.given user x := by
    intro x
    rw [h.given_eq]
    split
    · exact hpos x
    · exact Int.le_refl 0
  rw [List.sum_toFinset _ h.nodup, ← Int.zero_add (List.sum _)]
  refine foldl_saturating (fun a x ha hmax => ?_) (Int.le_refl 0) (by decide) fun x _ => hgiven x
  unfold DelegationState.given
  cases s.delegation.delegations.lookup x with
  | none => exact (saturatingAdd_zero ha hmax).symm
  | some v =>
    by_cases hv : v.active = true ∧ v.delegate = user
    · simp only [if_pos hv]
    · simp only [if_neg hv, saturatingAdd_zero ha hmax]

/-- The part of the stake of a user that the user has given away. -/
def Storage.entrusted (s : Storage) (user : Address) : Int :=
  if (s.delegation.delegateOf user).isSome = true then stakedOf s.token user else 0

theorem entrusted_of_not_delegator (h : Entrusted s) (hu : user ∉ s.delegation.delegators) :
    s.entrusted user = 0 := by
  refine if_neg fun hsome => hu ?_
  obtain ⟨delegate, hd⟩ := Option.isSome_iff_exists.mp hsome
  obtain ⟨v, hv, -⟩ := Option.map_eq_some_iff.mp hd
  exact h.listed user v (activeOf_eq_some.mp hv).1

/-- Everything that a delegator gave away was given to one user. -/
theorem Entrusted.sum_given (h : Entrusted s) (hd : delegator ∈ s.delegation.delegators) :
    ∑ u ∈ s.users, s.delegation.given u delegator = s.entrusted delegator := by
  unfold Storage.entrusted
  cases hdel : s.delegation.delegateOf delegator with
  | none =>
    refine Finset.sum_eq_zero fun u _ => ?_
    rw [h.given_eq, hdel]
    exact if_neg (by simp)
  | some delegate =>
    have hmem : delegate ∈ s.users := mem_users.mpr (.inr (.inr ⟨delegator, hd, hdel⟩))
    simp [h.given_eq, hdel, hmem]

theorem Entrusted.sum_entrusted (h : Entrusted s) :
    ∑ x ∈ s.delegation.delegators.toFinset, s.entrusted x = ∑ u ∈ s.users, s.entrusted u := by
  refine Finset.sum_subset (fun x hx => ?_) fun x _ hx => ?_
  · exact mem_users.mpr (.inr (.inl (List.mem_toFinset.mp hx)))
  · exact entrusted_of_not_delegator h fun hm => hx (List.mem_toFinset.mpr hm)

section Fits

variable (h : Entrusted s) (hpos : ∀ x, 0 ≤ stakedOf s.token x)
  (hmax : ∑ u ∈ s.users, stakedOf s.token u ≤ i128Max)
include h hpos hmax

/-- No sum saturates when all stakes together fit: what a user keeps and what the user was given are parts
of different stakes. -/
theorem power_eq : getEffectiveVotingPower s user = stakedOf s.token user - s.entrusted user +
    ∑ x ∈ s.delegation.delegators.toFinset, s.delegation.given user x := by
  have hent : ∀ x, 0 ≤ s.entrusted x ∧ s.entrusted x ≤ stakedOf s.token x := by
    intro x
    have := hpos x
    unfold Storage.entrusted
    split <;> omega
  have hgiven : ∀ x, 0 ≤ s.delegation.given user x ∧ s.delegation.given user x ≤ s.entrusted x := by
    intro x
    have := hpos x
    rw [h.given_eq]
    by_cases hx : s.delegation.delegateOf x = some user
    · simpa [Storage.entrusted, hx] using this
    · rw [if_neg hx]
      exact ⟨Int.le_refl 0, (hent x).1⟩
  have hown : (if (s.delegation.activeOf user).isSome then 0 else stakedOf s.token user) =
      stakedOf s.token user - s.entrusted user := by
    simp [Storage.entrusted, DelegationState.delegateOf]
    split <;> omega
  have hkept : stakedOf s.token user - s.entrusted user ≤
      ∑ u ∈ s.users, (stakedOf s.token u - s.entrusted u) := by
    have hnonneg : ∀ u ∈ s.users, 0 ≤ stakedOf s.token u - s.entrusted u := fun u _ => by
      have := hent u
      omega
    by_cases hu : user ∈ s.users
    · exact Finset.single_le_sum hnonneg hu
    · have hzero := staked_of_not_user hu
      have := hent user
      have := Finset.sum_nonneg hnonneg
      omega
  have hdel : ∑ x ∈ s.delegation.delegators.toFinset, s.delegation.given user x ≤
      ∑ u ∈ s.users, s.entrusted u := by
    rw [← h.sum_entrusted]
    exact Finset.sum_le_sum fun x _ => (hgiven x).2
  have hpos' : 0 ≤ ∑ x ∈ s.delegation.delegators.toFinset, s.delegation.given user x :=
    Finset.sum_nonneg fun x _ => (hgiven x).1
  rw [Finset.sum_sub_distrib] at hkept
  have := hent user
  rw [getEffectiveVotingPower, hown, h.delegatedTo_eq hpos, Int.min_eq_right (by omega)]
  exact saturatingAdd_part (by omega) hpos' (by omega)

theorem power_of_not_user (hu : user ∉ s.users) : getEffectiveVotingPower s user = 0 := by
  have hgiven : ∀ x ∈ s.delegation.delegators.toFinset, s.delegation.given user x = 0 := by
    intro x hx
    rw [h.given_eq]
    refine if_neg fun hx' => hu (mem_users.mpr (.inr (.inr ⟨x, List.mem_toFinset.mp hx, hx'⟩)))
  have hent : s.entrusted user = 0 := by
    unfold Storage.entrusted
    rw [staked_of_not_user hu]
    exact ite_self 0
  rw [power_eq h hpos hmax, Finset.sum_eq_zero hgiven, staked_of_not_user hu, hent]
  rfl

/-- What users gave away is what users were given. -/
theorem sum_power : ∑ u ∈ s.users, getEffectiveVotingPower s u = ∑ u ∈ s.users, stakedOf s.token u := by
  have hgiven : ∑ u ∈ s.users, ∑ x ∈ s.delegation.delegators.toFinset, s.delegation.given u x =
      ∑ u ∈ s.users, s.entrusted u := by
    rw [Finset.sum_comm, ← h.sum_entrusted]
    exact Finset.sum_congr rfl fun x hx => h.sum_given (List.mem_toFinset.mp hx)
  rw [Finset.sum_congr rfl fun u _ => power_eq h hpos hmax, Finset.sum_add_distrib, Finset.sum_sub_distrib, hgiven]
  omega

end Fits

end Users

/-! ## Runs -/

/-- The calls by which tokens reach their holders, are staked and are delegated. -/
def Call.movesPower : Call → Bool
  | .initializeGovernance .. | .releaseVestedTokens .. | .accrueLiquidityRewards .. |
    .claimLiquidityRewards .. | .stake .. | .unstake .. | .delegateVotingPower .. |
    .undelegateVotingPower .. => true
  | _ => false

/-- The user whose stake a call changes, if the amount is there. -/
def World.restakes (w : World) : Call → Option Address
  | .stake user amount =>
    if 0 < amount ∧ amount ≤ balanceOf w.store.token user then some user else none
  | .unstake user amount =>
    if 0 < amount ∧ amount ≤ stakedOf w.store.token user then some user else none
  | _ => none

/-- The stake that a call changes is not behind a delegation. -/
def World.Undelegated (w : World) (c : Call) : Prop := ∀ user ∈ w.restakes c, w.store.delegation.activeOf user = none

/-- A call by which power moves, and which changes no stake behind a delegation; or a new ledger. -/
def Undelegating (w : World) : Event → Prop
  | .call _ c => c.movesPower = true ∧ w.Undelegated c
  | .advance _ => True
  | .maintenance .. => False

instance (w : World) (c : Call) : Decidable (w.Undelegated c) :=
  inferInstanceAs (Decidable (∀ user ∈ w.restakes c, _))

instance (w : World) (ev : Event) : Decidable (Undelegating w ev) :=
  match ev with
  | .call _ _ => inferInstanceAs (Decidable (_ ∧ _))
  | .advance _ => inferInstanceAs (Decidable True)
  | .maintenance .. => inferInstanceAs (Decidable False)

/-- The state of such a run: no deposit is held, the books are in order and empty before the contract is
initialized, and delegations are as large as the stakes. -/
structure Delegated (w : World) : Prop where
  held : w.held = ∅
  fresh : w.store.core.initialized = false → w.store.token.vestingSchedules = ∅ ∧ w.store.token.pendingRewards = ∅
  books : Books w.store.token w.held
  entrusted : Entrusted w.store

section Calls

variable {w w' : World} {auth : Auth} {user : Address} {amount : Int} {u : Unit}

theorem Entrusted.of_same {s s' : Storage} (h : Entrusted s) (hd : s'.delegation = s.delegation)
    (hs : s'.token.stakedBalances = s.token.stakedBalances) : Entrusted s' where
  nodup := by rw [hd]; exact h.nodup
  listed := by rw [hd]; exact h.listed
  power := by
    intro user v hv
    rw [hd] at hv
    rw [stakedOf, hs]
    exact h.power user v hv

/-- The stake of a user who has not delegated it changes. -/
theorem Entrusted.of_undelegated {s s' : Storage} (h : Entrusted s)
    (hd : s'.delegation = s.delegation) (hnone : s.delegation.activeOf user = none)
    (hs : ∀ x, x ≠ user → stakedOf s'.token x = stakedOf s.token x) : Entrusted s' where
  nodup := by rw [hd]; exact h.nodup
  listed := by rw [hd]; exact h.listed
  power := by
    intro x v hv
    rw [hd] at hv
    have hne : x ≠ user := by
      rintro rfl
      rw [hnone] at hv
      cases hv
    rw [hs x hne]
    exact h.power x v hv

theorem stake_delegated (h : Delegated w) (hs : w.Undelegated (.stake user amount))
    (hcall : stake auth user amount w = (.ok u, w')) : Delegated w' := by
  have hbooks := (stake_keeps hcall).books h.books
  simp [stake, Token.stake, subtractBalance_ok, addStakedBalance_ok] at hcall
  obtain ⟨hinit, -, -, -, hpos, ⟨-, hle, -⟩, -, -, rfl⟩ := hcall
  refine ⟨h.held, fun h0 => Bool.noConfusion (hinit.symm.trans h0), hbooks,
    h.entrusted.of_undelegated rfl (hs user (if_pos ⟨hpos, hle⟩)) fun x hx => ?_⟩
  simp [stakedOf, World.setStaked, World.setBalance, setStaked_stakedBalances, setBalance_stakedBalances,
    AList.lookup_insert_ne hx]

theorem unstake_delegated (h : Delegated w) (hs : w.Undelegated (.unstake user amount))
    (hcall : unstake auth user amount w = (.ok u, w')) : Delegated w' := by
  have hbooks := (unstake_keeps hcall).books h.books
  simp [unstake, Token.unstake, subtractStakedBalance_ok, addBalance_ok]
    at hcall
  obtain ⟨hinit, -, -, -, hpos, -, ⟨-, hle, -⟩, -, -, rfl⟩ := hcall
  refine ⟨h.held, fun h0 => Bool.noConfusion (hinit.symm.trans h0), hbooks,
    h.entrusted.of_undelegated rfl (hs user (if_pos ⟨hpos, hle⟩)) fun x hx => ?_⟩
  simp [stakedOf, World.setStaked, World.setBalance, setStaked_stakedBalances, setBalance_stakedBalances,
    AList.lookup_insert_ne hx]

theorem delegate_delegated {delegate : Address} (h : Delegated w)
    (hcall : delegateVotingPower auth user delegate w = (.ok u, w')) : Delegated w' := by
  simp [delegateVotingPower] at hcall
  obtain ⟨-, -, -, -, -, rfl⟩ := hcall
  have he := h.entrusted
  refine ⟨h.held, h.fresh, h.books, ?_, ?_, ?_⟩
  · show List.Nodup (if _ then _ else _)
    split
    · exact he.nodup
    · rename_i hnew
      exact List.nodup_append.mpr ⟨he.nodup, List.nodup_singleton _, by
        rintro x hx y hy rfl
        exact hnew (List.mem_singleton.mp hy ▸ hx)⟩
  · intro x v hv
    show x ∈ if _ then _ else _
    rw [lookup_insert_eq] at hv
    by_cases hx : x = user
    · subst hx
      split
      · assumption
      · simp
    · rw [if_neg hx] at hv
      have := he.listed x v hv
      split
      · exact this
      · exact List.mem_append_left _ this
  · intro x v hv
    obtain ⟨hl, hactive⟩ := activeOf_eq_some.mp hv
    rw [lookup_insert_eq] at hl
    split at hl
    · rename_i hx
      cases hl
      rw [hx]
    · exact he.power x v (activeOf_eq_some.mpr ⟨hl, hactive⟩)

theorem undelegate_delegated (h : Delegated w)
    (hcall : undelegateVotingPower auth user w = (.ok u, w')) : Delegated w' := by
  simp [undelegateVotingPower] at hcall
  obtain ⟨-, -, d, hd, rfl⟩ := hcall
  have he := h.entrusted
  refine ⟨h.held, h.fresh, h.books, he.nodup, ?_, ?_⟩
  · intro x v hv
    rw [lookup_insert_eq] at hv
    split at hv
    · rename_i hx
      exact he.listed x d (hx ▸ hd)
    · exact he.listed x v hv
  · intro x v hv
    obtain ⟨hl, hactive⟩ := activeOf_eq_some.mp hv
    rw [lookup_insert_eq] at hl
    split at hl
    · cases hl
      cases hactive
    · exact he.power x v (activeOf_eq_some.mpr ⟨hl, hactive⟩)

theorem createSchedule_stakes {category : VestingCategory} {startTime cliffSeconds durationSeconds : Nat}
    (h : createSchedule user category amount startTime cliffSeconds durationSeconds w = (.ok u, w')) :
    w'.store.delegation = w.store.delegation ∧ w'.store.token.stakedBalances = w.store.token.stakedBalances := by
  simp [createSchedule] at h
  obtain ⟨-, -, -, rfl⟩ := h
  exact ⟨rfl, rfl⟩

theorem addBalance_stakes (h : addBalance user amount w = (.ok u, w')) :
    w'.store.delegation = w.store.delegation ∧ w'.store.token.stakedBalances = w.store.token.stakedBalances := by
  obtain ⟨-, -, rfl⟩ := addBalance_ok.mp h
  exact ⟨rfl, setBalance_stakedBalances ..⟩

/-- The contract starts without stakes and without delegations. -/
theorem initializeGovernance_delegated {admin : Address} {name symbol : Bytes} {decimals : Nat}
    {totalSupply : Int} {recipients : DistributionRecipients} (h : Delegated w)
    (hcall : initializeGovernance auth admin name symbol decimals totalSupply recipients w =
      (.ok u, w')) : Delegated w' := by
  have hdist := initializeGovernance_distributes hcall
  obtain ⟨⟨-, hinit, -⟩, d, w₁, hd, rfl⟩ := initializeGovernance_ok.mp hcall
  obtain ⟨hvesting, hpending⟩ := h.fresh hinit
  simp only [initializeDistribution, Tx.bind_ok, Tx.failIf_ok, lift_ok, timestamp_ok, save_ok, Tx.pure_ok] at hd
  obtain ⟨_, _, ⟨-, rfl⟩, _, _, ⟨-, rfl⟩, a, _, ⟨-, rfl⟩, _, w₁, h1, _, w₂, h2, _, w₃, h3, _, _,
    ⟨rfl, rfl⟩, _, w₄, h4, _, w₅, h5, _, _, rfl, -, rfl⟩ := hd
  have hdel : w₅.store.delegation = ⟨∅, []⟩ := by
    rw [(createSchedule_stakes h5).1, (createSchedule_stakes h4).1, (addBalance_stakes h3).1,
      (addBalance_stakes h2).1, (addBalance_stakes h1).1]
    rfl
  have hsame := ((invoke_writes auth (.initializeGovernance admin name symbol decimals totalSupply
    recipients)).of_run hcall).same .deposit (by simp [Call.footprint])
  have hconserved := hdist.circulation
  rw [h.held, hvesting, total_empty, total_empty, Int.add_zero, Int.add_zero] at hconserved
  refine ⟨(congrArg Prod.snd hsame).trans h.held, fun h0 => Bool.noConfusion h0,
    ⟨hdist.sound h.held hvesting hpending, hconserved, hdist.bounded⟩, ?_⟩
  refine ⟨?_, ?_, ?_⟩ <;> simp [Storage.started, hdel, DelegationState.activeOf]

theorem delegated_of_call {c : Call} (h : Delegated w) (hc : c.movesPower = true)
    (hs : w.Undelegated c) (hcall : invoke auth c w = (.ok (), w')) : Delegated w' := by
  cases c
  case initializeGovernance => exact initializeGovernance_delegated h hcall
  case stake => exact stake_delegated h hs hcall
  case unstake => exact unstake_delegated h hs hcall
  case delegateVotingPower => exact delegate_delegated h hcall
  case undelegateVotingPower => exact undelegate_delegated h hcall
  case releaseVestedTokens =>
    obtain ⟨_, hcall⟩ := Tx.void_ok.mp hcall
    have hbooks := (releaseVestedTokens_keeps hcall).books h.books
    simp [releaseVestedTokens, addBalance_ok] at hcall
    obtain ⟨hinit, -, v, hv, -, hn, hpos, -, -, -, rfl⟩ := hcall
    exact ⟨h.held, fun h0 => Bool.noConfusion (hinit.symm.trans h0), hbooks,
      h.entrusted.of_same rfl (setBalance_stakedBalances ..)⟩
  case accrueLiquidityRewards =>
    obtain ⟨_, hcall⟩ := Tx.void_ok.mp hcall
    have hbooks := (accrueLiquidityRewards_keeps hcall).books h.books
    simp [accrueLiquidityRewards, rewardForVolume, getDistributionState, reserveLiquidityRewards,
      putDistributionState, trackHolder] at hcall
    obtain ⟨-, hinit, -, hpos, s, -, -, rfl⟩ := hcall
    exact ⟨h.held, fun h0 => Bool.noConfusion (hinit.symm.trans h0), hbooks,
      h.entrusted.of_same rfl (track_stakedBalances ..)⟩
  case claimLiquidityRewards =>
    obtain ⟨_, hcall⟩ := Tx.void_ok.mp hcall
    have hbooks := (claimLiquidityRewards_keeps hcall).books h.books
    simp [claimLiquidityRewards, getDistributionState, claimReservedLiquidityRewards, putDistributionState,
      addBalance_ok] at hcall
    obtain ⟨hinit, -, -, -, -, -, -, s, -, ⟨hpos, -, rfl⟩, -⟩ := hcall
    exact ⟨h.held, fun h0 => Bool.noConfusion (hinit.symm.trans h0), hbooks,
      h.entrusted.of_same rfl (setBalance_stakedBalances ..)⟩
  all_goals cases hc

end Calls

theorem delegated_step {w w' : World} {ev : Event} (h : Delegated w) (hu : Undelegating w ev)
    (hstep : Step w ev w') : Delegated w' := by
  rcases hstep.cases with ⟨auth, c, rfl, hcall⟩ | ⟨auth, c, rfl, rfl⟩ | ⟨ledger, rfl, -, rfl⟩ |
    ⟨treasury, committees, rewardBps, minClaimThreshold, rfl, rfl⟩
  · exact delegated_of_call h hu.1 hu.2 hcall
  · exact h
  · exact ⟨h.held, h.fresh, h.books, h.entrusted⟩
  · cases hu

theorem delegated_start (ledger : Ledger) : Delegated (World.deployed ledger) where
  held := rfl
  fresh _ := ⟨rfl, rfl⟩
  books :=
    { sound := ⟨⟨all_empty _, all_empty _, all_empty _, all_empty _⟩, by rintro s ⟨⟩⟩
      conserved := rfl
      bounded := show (0 : Int) ≤ i128Max by decide }
  entrusted :=
    { nodup := List.nodup_nil
      listed := by rintro _ _ ⟨⟩
      power := by rintro _ _ ⟨⟩ }

/-- In every run of the calls by which tokens reach their holders, are staked and are delegated, in which no
user stakes or unstakes behind a delegation: the powers of all users add up to their stakes. -/
theorem power_conserved_of_undelegated {ledger : Ledger} {w : World}
    (h : Reaches (fun w ev w' => Undelegating w ev ∧ Step w ev w') (World.deployed ledger) w) :
    (∀ user, user ∉ w.store.users → getEffectiveVotingPower w.store user = 0 ∧ stakedOf w.store.token user = 0) ∧
    ∑ user ∈ w.store.users, getEffectiveVotingPower w.store user =
      ∑ user ∈ w.store.users, stakedOf w.store.token user := by
  have hd : Delegated w := h.invariant (delegated_start ledger) fun _ _ _ hI ⟨hu, hs⟩ => delegated_step hI hu hs
  have hpos := hd.books.sound.stakedOf_nonneg
  have hmax : ∑ user ∈ w.store.users, stakedOf w.store.token user ≤ i128Max := by
    have htotal : Store.total id w.store.token.stakedBalances =
        ∑ user ∈ w.store.users, Store.part id w.store.token.stakedBalances user :=
      total_eq_sum id _ fun user n hn => mem_users.mpr (.inl ⟨n, hn⟩)
    have hle := hd.books.sound.total_staked_le
    have hc := hd.books.conserved
    have hb := hd.books.bounded
    simp only [part_id] at htotal
    simp only [stakedOf]
    omega
  exact ⟨fun user hu => ⟨power_of_not_user hd.entrusted hpos hmax hu, staked_of_not_user hu⟩,
    sum_power hd.entrusted hpos hmax⟩

namespace Sample

/-- Two holders delegate in a chain; one of them undelegates, and stakes more. -/
def entrustedRun : List Event :=
  [callBy admin initializeCall, callBy community (.stake community 20000),
    callBy sale (.stake sale 3000), callBy treasury (.stake treasury 700),
    callBy community (.delegateVotingPower community sale),
    callBy sale (.delegateVotingPower sale mallory),
    callBy treasury (.unstake treasury 200),
    callBy community (.undelegateVotingPower community), callBy community (.unstake community 5000)]

/-- The powers of all users add up to their stakes. -/
theorem entrusted_run_conserved :
    ∑ user ∈ (deployedRun entrustedRun).store.users, getEffectiveVotingPower (deployedRun entrustedRun).store user =
    ∑ user ∈ (deployedRun entrustedRun).store.users, stakedOf (deployedRun entrustedRun).store.token user :=
  (power_conserved_of_undelegated (reaches_run (by decide +kernel))).2

/-- A holder delegates and then stakes more. -/
def stakedBehindRun : List Event :=
  [callBy admin initializeCall, callBy community (.stake community 20000),
    callBy community (.delegateVotingPower community sale), callBy community (.stake community 500)]

/-- What is staked after a delegation counts for nobody. -/
theorem stake_behind_delegation_lost :
    ∑ user ∈ (deployedRun stakedBehindRun).store.users,
      getEffectiveVotingPower (deployedRun stakedBehindRun).store user ≠
    ∑ user ∈ (deployedRun stakedBehindRun).store.users, stakedOf (deployedRun stakedBehindRun).store.token user := by
  decide +kernel

end Sample

end CallStake.Governance
