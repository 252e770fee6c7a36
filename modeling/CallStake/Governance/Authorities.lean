import CallStake.Governance.Decisions

/-!
# The authorities of a committee

A committee may act where one of its authorities covers the action. The check goes through the list, and a
change of the reward settings is judged by the first authority over parameters that it meets.

* `Authority.Covers`: the limits of one authority.
* `union_iff_firstDecides`: the loop decides as the union of the authorities says exactly when the first authority
  over parameters covers the change, or no authority does.
* `order_matters_iff`: when the order of the list makes a difference.
* `verified_iff_covered`: both, of a committee; `narrow_authority_hides_wide`: a narrow authority in front of
  a wide one.
-/

namespace CallStake.Governance

namespace Committees

/-! ## Limits -/

/-- A setting stays as it is, or is listed and changes by at most `maxChangePct` percent. -/
def SettingWithin (parameters : List Bytes) (key : Bytes) (maxChangePct : Nat) (current proposed : Int) :
    Prop :=
  proposed = current ∨ key ∈ parameters ∧ ∃ pct, pctChange current proposed = .ok pct ∧ pct ≤ maxChangePct

/-- Some reward setting changes, and every one that does is within the limits. -/
def RewardsWithin (state : DistributionState) (parameters : List Bytes) (maxChangePct rewardBps : Nat)
    (minClaimThreshold : Int) : Prop :=
  SettingWithin parameters REWARD_KEY maxChangePct state.liquidityRewardBps rewardBps ∧
    SettingWithin parameters THRESHOLD_KEY maxChangePct state.minClaimThreshold minClaimThreshold ∧
    ¬ (rewardBps = state.liquidityRewardBps ∧ minClaimThreshold = state.minClaimThreshold)

/-- The authority by itself covers the action. -/
def Authority.Covers (distribution : Option DistributionState) : Authority → CommitteeAction → Prop
  | .treasurySpend maxAmount category, .treasurySpend _ amount _ category' _ =>
    amount ≤ maxAmount ∧ category' = category
  | .grantApproval maxGrantSize, .grantApproval _ amount _ _ _ => amount ≤ maxGrantSize
  | .parameterAdjustment parameters maxChangePct, .rewardConfigUpdate rewardBps minClaimThreshold =>
    ∃ state, distribution = some state ∧ RewardsWithin state parameters maxChangePct rewardBps minClaimThreshold
  | .emergencyAction actionTypes, .emergencyAction actionType _ => actionType ∈ actionTypes
  | .veto proposalTypes, .veto proposalType _ => proposalType ∈ proposalTypes
  | _, _ => False

/-- The loop ends at this authority, whatever it decides. -/
def Authority.judges : Authority → CommitteeAction → Bool
  | .parameterAdjustment .., .rewardConfigUpdate .. => true
  | _, _ => false

section Verify

variable {distribution : Option DistributionState} {action : CommitteeAction} {authority : Authority}
  {authorities : List Authority}

theorem settingAllowed_ok {parameters : List Bytes} {key : Bytes} {maxChangePct : Nat}
    {current proposed : Int} {u : Unit} :
    settingAllowed parameters key maxChangePct current proposed = .ok u ↔
      SettingWithin parameters key maxChangePct current proposed := by
  unfold settingAllowed SettingWithin
  by_cases h : proposed = current
  · simp [h]
  · simp [h]

theorem validateRewardConfigAuthority_ok {parameters : List Bytes} {maxChangePct rewardBps : Nat}
    {minClaimThreshold : Int} {u : Unit} :
    validateRewardConfigAuthority distribution parameters maxChangePct rewardBps minClaimThreshold = .ok u ↔
      (Authority.parameterAdjustment parameters maxChangePct).Covers distribution
        (.rewardConfigUpdate rewardBps minClaimThreshold) := by
  simp [validateRewardConfigAuthority, settingAllowed_ok, Authority.Covers, RewardsWithin]

theorem judges_eq_true : authority.judges action = true ↔
    ∃ parameters maxChangePct rewardBps minClaimThreshold,
      authority = .parameterAdjustment parameters maxChangePct ∧
      action = .rewardConfigUpdate rewardBps minClaimThreshold := by
  constructor
  · intro h
    cases authority <;> cases action <;> first | exact ⟨_, _, _, _, rfl, rfl⟩ | cases h
  · rintro ⟨_, _, _, _, rfl, rfl⟩
    rfl

/-- One turn of the loop. -/
theorem verify_cons : verifyCommitteeAuthority distribution action (authority :: authorities) = .ok () ↔
    authority.Covers distribution action ∨
      authority.judges action = false ∧ verifyCommitteeAuthority distribution action authorities = .ok () := by
  cases authority with
  | treasurySpend maxAmount category =>
    cases action with
    | treasurySpend _ amount _ category' =>
      simp only [verifyCommitteeAuthority, Authority.Covers, Authority.judges]
      by_cases h : amount ≤ maxAmount ∧ category' = category
      · simp [h]
      · simp [h]
    | _ => simp [verifyCommitteeAuthority, Authority.Covers, Authority.judges]
  | parameterAdjustment =>
    cases action with
    | rewardConfigUpdate =>
      rw [verifyCommitteeAuthority, validateRewardConfigAuthority_ok]
      simp [Authority.judges]
    | _ => simp [verifyCommitteeAuthority, Authority.Covers, Authority.judges]
  | grantApproval maxGrantSize =>
    cases action with
    | grantApproval _ amount =>
      simp only [verifyCommitteeAuthority, Authority.Covers, Authority.judges]
      by_cases h : amount ≤ maxGrantSize
      · simp [h]
      · simp [h]
    | _ => simp [verifyCommitteeAuthority, Authority.Covers, Authority.judges]
  | emergencyAction actionTypes =>
    cases action with
    | emergencyAction actionType =>
      simp only [verifyCommitteeAuthority, Authority.Covers, Authority.judges]
      by_cases h : actionType ∈ actionTypes
      · simp [h]
      · simp [h]
    | _ => simp [verifyCommitteeAuthority, Authority.Covers, Authority.judges]
  | veto proposalTypes =>
    cases action with
    | veto proposalType =>
      simp only [verifyCommitteeAuthority, Authority.Covers, Authority.judges]
      by_cases h : proposalType ∈ proposalTypes
      · simp [h]
      · simp [h]
    | _ => simp [verifyCommitteeAuthority, Authority.Covers, Authority.judges]

/-- Where no authority ends the loop, one that covers the action is found. -/
theorem verify_of_other (h : ∀ a ∈ authorities, a.judges action = false) :
    verifyCommitteeAuthority distribution action authorities = .ok () ↔
      ∃ a ∈ authorities, a.Covers distribution action := by
  induction authorities with
  | nil => simp [verifyCommitteeAuthority]
  | cons a authorities ih =>
    have hrest : ∀ b ∈ authorities, b.judges action = false := fun b hb => h b (List.mem_cons_of_mem _ hb)
    rw [verify_cons, ih hrest]
    simp [h a List.mem_cons_self]

/-- Only an authority over parameters covers a change of the reward settings. -/
theorem judges_of_covers {rewardBps : Nat} {minClaimThreshold : Int}
    (h : authority.Covers distribution (.rewardConfigUpdate rewardBps minClaimThreshold)) :
    authority.judges (.rewardConfigUpdate rewardBps minClaimThreshold) = true := by
  cases authority <;> first | rfl | exact h.elim

/-- A change of the reward settings is judged by the first authority over parameters. -/
theorem verify_rewardConfigUpdate {rewardBps : Nat} {minClaimThreshold : Int} :
    verifyCommitteeAuthority distribution (.rewardConfigUpdate rewardBps minClaimThreshold) authorities =
        .ok () ↔
      ∃ a, authorities.find? (·.judges (.rewardConfigUpdate rewardBps minClaimThreshold)) = some a ∧
        a.Covers distribution (.rewardConfigUpdate rewardBps minClaimThreshold) := by
  induction authorities with
  | nil => simp [verifyCommitteeAuthority]
  | cons a authorities ih =>
    rw [verify_cons, ih]
    by_cases hj : a.judges (.rewardConfigUpdate rewardBps minClaimThreshold) = true
    · rw [List.find?_cons_of_pos (p := fun x : Authority => x.judges _) hj]
      simp [hj]
    · have hnot : ¬ a.Covers distribution (.rewardConfigUpdate rewardBps minClaimThreshold) :=
        fun hc => hj (judges_of_covers hc)
      rw [List.find?_cons_of_neg (p := fun x : Authority => x.judges _) hj]
      simp [hj, hnot]

/-- The first authority that ends the loop covers the action, or none covers it. -/
def FirstDecides (distribution : Option DistributionState) (action : CommitteeAction)
    (authorities : List Authority) : Prop :=
  ∀ a, authorities.find? (·.judges action) = some a →
    a.Covers distribution action ∨ ∀ b ∈ authorities, ¬ b.Covers distribution action

theorem union_iff_firstDecides (distribution : Option DistributionState) (action : CommitteeAction)
    (authorities : List Authority) :
    (verifyCommitteeAuthority distribution action authorities = .ok () ↔
      ∃ a ∈ authorities, a.Covers distribution action) ↔ FirstDecides distribution action authorities := by
  cases hfind : authorities.find? (·.judges action) with
  | none =>
    have hnone : ∀ a ∈ authorities, a.judges action = false := by simpa using hfind
    refine iff_of_true (verify_of_other hnone) fun a ha => ?_
    cases hfind.symm.trans ha
  | some first =>
    have hfirst : first ∈ authorities := List.mem_of_find?_eq_some hfind
    have hjudges : first.judges action = true := List.find?_some (p := fun x : Authority => x.judges _) hfind
    obtain ⟨-, -, rewardBps, minClaimThreshold, -, rfl⟩ := judges_eq_true.mp hjudges
    rw [verify_rewardConfigUpdate]
    simp [FirstDecides, hfind]
    constructor
    · intro h
      by_cases hc : first.Covers distribution (.rewardConfigUpdate rewardBps minClaimThreshold)
      · exact .inl hc
      · exact .inr fun b hb hcovers => hc (h.mpr ⟨b, hb, hcovers⟩)
    · rintro (hc | hnone)
      · exact iff_of_true hc ⟨first, hfirst, hc⟩
      · exact iff_of_false (hnone first hfirst) fun ⟨b, hb, hcovers⟩ => hnone b hb hcovers

/-- Of the authorities that end the loop, one covers the action and another does not. -/
def Disagree (distribution : Option DistributionState) (action : CommitteeAction)
    (authorities : List Authority) : Prop :=
  ∃ a ∈ authorities, ∃ b ∈ authorities, a.judges action = true ∧ b.judges action = true ∧
    a.Covers distribution action ∧ ¬ b.Covers distribution action

theorem firstDecides_of_agree (h : ¬ Disagree distribution action authorities) :
    FirstDecides distribution action authorities := by
  intro a ha
  have hj : a.judges action = true := List.find?_some (p := fun x : Authority => x.judges _) ha
  by_cases hc : a.Covers distribution action
  · exact .inl hc
  · refine .inr fun b hb hcovers => h ⟨b, hb, a, List.mem_of_find?_eq_some ha, ?_, hj, hcovers, hc⟩
    obtain ⟨-, -, rewardBps, minClaimThreshold, -, rfl⟩ := judges_eq_true.mp hj
    exact judges_of_covers hcovers

/-- Another order of the list decides otherwise exactly when two authorities that end the loop disagree. -/
theorem order_matters_iff (distribution : Option DistributionState) (action : CommitteeAction)
    (authorities : List Authority) :
    (∃ l, l.Perm authorities ∧ ¬ (verifyCommitteeAuthority distribution action l = .ok () ↔
        verifyCommitteeAuthority distribution action authorities = .ok ())) ↔
      Disagree distribution action authorities := by
  constructor
  · rintro ⟨l, hl, hne⟩
    by_contra hagree
    have hagree' : ¬ Disagree distribution action l := fun ⟨a, ha, b, hb, hd⟩ =>
      hagree ⟨a, hl.subset ha, b, hl.subset hb, hd⟩
    refine hne ?_
    rw [(union_iff_firstDecides _ _ _).mpr (firstDecides_of_agree hagree'),
      (union_iff_firstDecides _ _ _).mpr (firstDecides_of_agree hagree)]
    simp only [hl.mem_iff]
  · rintro ⟨a, ha, b, hb, hja, hjb, hca, hcb⟩
    have hfront : verifyCommitteeAuthority distribution action (a :: authorities.erase a) = .ok () :=
      verify_cons.mpr (.inl hca)
    have hbehind : ¬ verifyCommitteeAuthority distribution action (b :: authorities.erase b) = .ok () := by
      rw [verify_cons]
      simp [hcb, hjb]
    by_cases hv : verifyCommitteeAuthority distribution action authorities = .ok ()
    · exact ⟨_, (List.perm_cons_erase hb).symm, fun h => hbehind (h.mpr hv)⟩
    · exact ⟨_, (List.perm_cons_erase ha).symm, fun h => hv (h.mp hfront)⟩

/-- A committee may act as the union of its authorities says exactly when the first authority over parameters
covers the change of the reward settings, if any does; and the order of its authorities makes a difference
exactly when two of them over parameters disagree about the change. -/
theorem verified_iff_covered (distribution : Option DistributionState) (action : CommitteeAction)
    (committee : Committee) :
    ((verifyCommitteeAuthority distribution action committee.delegatedAuthorities = .ok () ↔
        ∃ a ∈ committee.delegatedAuthorities, a.Covers distribution action) ↔
      FirstDecides distribution action committee.delegatedAuthorities) ∧
    ((∃ l, l.Perm committee.delegatedAuthorities ∧ ¬ (verifyCommitteeAuthority distribution action l = .ok () ↔
        verifyCommitteeAuthority distribution action committee.delegatedAuthorities = .ok ())) ↔
      Disagree distribution action committee.delegatedAuthorities) :=
  ⟨union_iff_firstDecides _ _ _, order_matters_iff _ _ _⟩

end Verify

namespace Sample

/-- A reward of ten percent. -/
def rewarding : DistributionState := ⟨⟨0, 0, 0, 0, 0, 0⟩, 0, 0, 1000, 100⟩

/-- The reward may change by a tenth, and by the second authority to its double. -/
def narrowFirst : List Authority := [.parameterAdjustment [REWARD_KEY] 10, .parameterAdjustment [REWARD_KEY] 100]

/-- The committee may not double the reward, which its second authority allows. -/
theorem narrow_authority_hides_wide :
    ¬ ∀ (distribution : Option DistributionState) (action : CommitteeAction) (authorities : List Authority),
      validateAuthorities authorities = .ok () →
      (verifyCommitteeAuthority distribution action authorities = .ok () ↔
        ∃ a ∈ authorities, a.Covers distribution action) := by
  intro h
  have hcovers : (Authority.parameterAdjustment [REWARD_KEY] 100).Covers (some rewarding)
      (.rewardConfigUpdate 2000 100) :=
    validateRewardConfigAuthority_ok.mp (by decide +kernel : validateRewardConfigAuthority (some rewarding)
      [REWARD_KEY] 100 2000 100 = .ok ())
  have hverify := (h (some rewarding) (.rewardConfigUpdate 2000 100) narrowFirst (by decide +kernel)).mpr
    ⟨_, by simp [narrowFirst], hcovers⟩
  exact absurd hverify (by decide +kernel)

end Sample

end Committees

end CallStake.Governance
