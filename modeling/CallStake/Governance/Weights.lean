import CallStake.Governance.ConvictionTally

/-!
# Weights of conviction votes

A weight passes through a decay, a penalty, a bonus and a cap. Each stage but the bonus keeps the order of two
weights, however the numbers saturate; the bonus counts nothing where its product overflows.

* `Accepted`: a calibration that one of the setters stores.
* `Measured`: its bonus cannot overflow, as the decay leaves at most `WEIGHT_MAX`. `measured_of_reaches`: so it
  is in every state, as the entrypoint takes a bonus of at most a hundred percent.
* `conviction_sane`: weights are not negative and within the cap, and more tokens weigh no less under a
  calibration that is measured.
* `large_bonus_inverts`: the least bonus that is not measured gives less to more tokens.
-/

namespace CallStake.Governance

open Tx

namespace Conviction

/-- The largest weight after the decay. -/
def WEIGHT_MAX : Int := i128Max / DECAY_SCALE

/-- A setter stored the calibration. -/
inductive Accepted : ConvictionCalibration → Prop
  | put {config : ConvictionCalibration} {w w' : World}
      (h : putConvictionCalibration config w = (.ok (), w')) : Accepted config
  | decayRate {rate : Nat} {w w' : World} (h : setConvictionDecayRate rate w = (.ok (), w')) : Accepted w'.calibration

/-- The bonus of no weight overflows. -/
def Measured (calibration : ConvictionCalibration) : Prop := calibration.rewardBonusPct ≤ 1000000000000
  deriving Decidable

section Order

variable {calibration : ConvictionCalibration} {days : Nat} {a b : Int}

theorem Accepted.rate (h : Accepted calibration) :
    MIN_DECAY_RATE ≤ calibration.decayRateBps ∧ calibration.decayRateBps ≤ MAX_DECAY_RATE := by
  cases h with
  | put h =>
    simp only [putConvictionCalibration, bind_ok, failIf_ok, not_or, not_lt] at h
    obtain ⟨_, _, ⟨hrate, -⟩, -⟩ := h
    exact hrate
  | decayRate h =>
    simp only [setConvictionDecayRate, bind_ok, failIf_ok, not_or, not_lt, modify_ok] at h
    obtain ⟨_, _, ⟨hrate, -⟩, rfl⟩ := h
    exact hrate

theorem clamp_mono (h : a ≤ b) : clamp a ≤ clamp b := by
  unfold clamp
  omega

theorem saturatingMul_mono {c : Int} (hc : 0 ≤ c) (h : a ≤ b) : saturatingMul a c ≤ saturatingMul b c :=
  clamp_mono (Int.mul_le_mul_of_nonneg_right h hc)

/-- The factor of a decay. -/
theorem decay_multiplier_nonneg (hrate : calibration.decayRateBps ≤ MAX_DECAY_RATE) (exponent : Nat) :
    0 ≤ powFixedPoint ((saturatingMul (1000 - calibration.decayRateBps) DECAY_SCALE).tdiv 1000) exponent
      DECAY_SCALE := by
  have hscale : (0 : Int) ≤ DECAY_SCALE := by decide
  have hfactor : (0 : Int) ≤ 1000 - (calibration.decayRateBps : Int) := by
    unfold MAX_DECAY_RATE at hrate
    omega
  exact powFixedPointLoop_nonneg hscale hscale
    (Int.tdiv_nonneg (saturatingMul_nonneg hfactor hscale) (by decide))

theorem applyDecay_mono (h : a ≤ b) : applyDecay calibration days a ≤ applyDecay calibration days b := by
  unfold applyDecay
  split
  · rename_i hrate
    exact Int.tdiv_le_tdiv (by decide) (saturatingMul_mono (decay_multiplier_nonneg hrate.2 _) h)
  · exact h

theorem applyDecay_le (hrate : MIN_DECAY_RATE ≤ calibration.decayRateBps ∧
    calibration.decayRateBps ≤ MAX_DECAY_RATE) (ha : 0 ≤ a) : applyDecay calibration days a ≤ WEIGHT_MAX := by
  have hm := decay_multiplier_nonneg hrate.2 (days % 2 ^ 32)
  unfold applyDecay
  rw [if_pos hrate]
  have hmul := saturatingMul_nonneg ha hm
  rw [Int.tdiv_eq_ediv_of_nonneg hmul]
  exact Int.ediv_le_ediv (by decide) (clamp_le _)

/-- What remains when a fraction is taken keeps its order. -/
theorem sub_ediv_mono {m : Int} (hm : 1 < m) (h : a ≤ b) : a - a / m ≤ b - b / m := by
  have hb : b / m ≤ a / m + (b - a) := by
    rw [← Int.add_mul_ediv_right _ _ (by omega)]
    refine Int.ediv_le_ediv (by omega) ?_
    have := Int.mul_le_mul_of_nonneg_left (show (1 : Int) ≤ m by omega) (show 0 ≤ b - a by omega)
    omega
  omega

theorem applyPenalty_mono (ha : 0 ≤ a) (h : a ≤ b) :
    applyPenalty calibration days a ≤ applyPenalty calibration days b := by
  unfold applyPenalty
  split
  · rename_i hp
    rw [Int.tdiv_eq_ediv_of_nonneg ha, Int.tdiv_eq_ediv_of_nonneg (ha.trans h)]
    exact clamp_mono (sub_ediv_mono (by omega) h)
  · exact h

theorem applyPenalty_le (ha : 0 ≤ a) (hmax : a ≤ WEIGHT_MAX) :
    applyPenalty calibration days a ≤ WEIGHT_MAX := by
  unfold applyPenalty
  split
  · have hdiv := Int.tdiv_nonneg ha (Int.natCast_nonneg calibration.penaltyMultiplier)
    have hle : saturatingSub a (a.tdiv calibration.penaltyMultiplier) ≤ max i128Min a := by
      unfold saturatingSub clamp
      omega
    exact hle.trans (max_le (by decide) hmax)
  · exact hmax

/-- A measured bonus is a fraction of the weight. -/
theorem applyBonus_eq (hm : Measured calibration) (ha : 0 ≤ a) (hmax : a ≤ WEIGHT_MAX) :
    checkedMul a calibration.rewardBonusPct = some (a * calibration.rewardBonusPct) := by
  have hpct : (calibration.rewardBonusPct : Int) ≤ DECAY_SCALE := Int.ofNat_le.mpr hm
  have hnonneg := Int.mul_nonneg ha (Int.natCast_nonneg calibration.rewardBonusPct)
  refine checked_eq_some.mpr ⟨?_, ?_, rfl⟩
  · unfold i128Min
    omega
  · calc a * (calibration.rewardBonusPct : Int)
        ≤ a * DECAY_SCALE := Int.mul_le_mul_of_nonneg_left hpct ha
      _ ≤ WEIGHT_MAX * DECAY_SCALE := Int.mul_le_mul_of_nonneg_right hmax (by decide)
      _ ≤ i128Max := by decide

theorem applyBonus_mono (hm : Measured calibration) (ha : 0 ≤ a) (h : a ≤ b) (hmax : b ≤ WEIGHT_MAX) :
    applyBonus calibration days a ≤ applyBonus calibration days b := by
  unfold applyBonus
  split
  · rw [applyBonus_eq hm ha (h.trans hmax), applyBonus_eq hm (ha.trans h) hmax]
    have hmul := Int.mul_le_mul_of_nonneg_right h (Int.natCast_nonneg calibration.rewardBonusPct)
    have hdiv := Int.tdiv_le_tdiv (show (0 : Int) < 100 by decide) hmul
    exact clamp_mono (Int.add_le_add h hdiv)
  · exact h

theorem applyCap_mono (h : a ≤ b) : applyCap calibration a ≤ applyCap calibration b := by
  unfold applyCap
  split <;> split <;> omega

theorem applyCap_le (hcap : 0 < calibration.maxConvictionCap) :
    applyCap calibration a ≤ calibration.maxConvictionCap := by
  unfold applyCap
  split <;> omega

end Order

/-- Every accepted calibration gives weights that are not negative and within its cap; a measured one gives
more tokens no less. -/
theorem conviction_sane {calibration : ConvictionCalibration} {a b : Int} (h : Accepted calibration)
    (ha : 0 ≤ a) (hab : a ≤ b) (timeElapsed : Nat) :
    0 ≤ calculateConviction a timeElapsed calibration ∧ 0 ≤ calculateConviction b timeElapsed calibration ∧
      (0 < calibration.maxConvictionCap →
        calculateConviction a timeElapsed calibration ≤ calibration.maxConvictionCap ∧
        calculateConviction b timeElapsed calibration ≤ calibration.maxConvictionCap) ∧
      (Measured calibration →
        calculateConviction a timeElapsed calibration ≤ calculateConviction b timeElapsed calibration) := by
  refine ⟨calculateConviction_nonneg ha, calculateConviction_nonneg (ha.trans hab), fun hcap => ?_, fun hm => ?_⟩
  · constructor
    all_goals
      simp only [calculateConviction]
      split
      · exact Int.le_of_lt hcap
      · exact applyCap_le hcap
  · simp only [calculateConviction]
    split
    · exact Int.le_refl 0
    · have hroot := isqrt_nonneg ((timeElapsed / DAY : Nat) : Int)
      have hgrown := Int.tdiv_le_tdiv (show (0 : Int) < 1000 by decide) (saturatingMul_mono hroot hab)
      have hgrown₀ := Int.tdiv_nonneg (saturatingMul_nonneg ha hroot) (show (0 : Int) ≤ 1000 by decide)
      refine applyCap_mono (applyBonus_mono hm (applyPenalty_nonneg (applyDecay_nonneg hgrown₀)) ?_ ?_)
      · exact applyPenalty_mono (applyDecay_nonneg hgrown₀) (applyDecay_mono hgrown)
      · exact applyPenalty_le (applyDecay_nonneg (hgrown₀.trans hgrown))
          (applyDecay_le h.rate (hgrown₀.trans hgrown))

/-! ## Calibrations that are stored -/

/-- The calibration is as it was. -/
def SameCalibration (w w' : World) : Prop := w'.calibration = w.calibration

instance : IsPreorder World SameCalibration where
  refl _ := rfl
  trans _ _ _ h h' := h'.trans h

theorem same_calibration {auth : Auth} {c : Call} (h₁ : ∀ config, c ≠ .setConvictionCalibration config)
    (h₂ : ∀ rate, c ≠ .setConvictionDecayRate rate) : Tx.Within SameCalibration (invoke auth c) := by
  cases c
  case setConvictionCalibration config => exact absurd rfl (h₁ config)
  case setConvictionDecayRate rate => exact absurd rfl (h₂ rate)
  all_goals
    simp [invoke, Tx.void, createConvictionPool, createConvictionProposal, voteConviction,
      updateProposalConviction, executeConvictionFunding, changeConvictionVote, refillConvictionPool,
      withdrawConvictionVote, getPool, ConvictionVotingPool.getProposal]
    repeat' with_reducible first
      | intro _
      | apply within_bind
      | apply within_gets
      | apply within_failIf
      | apply within_ite
      | apply within_ofOption
      | apply within_ofExcept
      | apply within_pure
      | split
    all_goals first
      | exact within_failIf _ _
      | exact ⟨fun _ => rfl⟩

/-- What is stored came from a setter, with a bonus of at most a hundred percent. -/
theorem calibration_of_reaches {now : Nat} {w : World} (h : Reaches Step (World.deployed now) w) :
    Accepted w.calibration ∧ w.calibration.rewardBonusPct ≤ 100 := by
  refine h.invariant (I := fun w => Accepted w.calibration ∧ w.calibration.rewardBonusPct ≤ 100)
    ⟨.put (w := World.deployed now) rfl, Nat.zero_le 100⟩ ?_
  rintro w ev w' hI ⟨-, rfl⟩
  cases ev with
  | advance => exact hI
  | call auth c =>
    rcases exec_cases (invoke auth c) w with ⟨_, hc⟩ | hsame
    · rw [next]
      generalize (invoke auth c).exec w = w' at hc ⊢
      by_cases h₁ : ∃ config, c = .setConvictionCalibration config
      · obtain ⟨config, rfl⟩ := h₁
        simp only [invoke, setConvictionCalibration, bind_ok, failIf_ok, not_or, not_lt] at hc
        obtain ⟨_, _, ⟨hbonus, rfl⟩, hput⟩ := hc
        have hstored : w'.calibration = config := by
          simp [putConvictionCalibration] at hput
          obtain ⟨_, _, ⟨-, rfl⟩, rfl⟩ := hput
          rfl
        rw [hstored]
        exact ⟨.put hput, hbonus.2⟩
      · by_cases h₂ : ∃ rate, c = .setConvictionDecayRate rate
        · obtain ⟨rate, rfl⟩ := h₂
          refine ⟨.decayRate hc, ?_⟩
          simp [invoke, setConvictionDecayRate] at hc
          obtain ⟨_, _, ⟨-, rfl⟩, rfl⟩ := hc
          exact hI.2
        · have hs : w'.calibration = w.calibration :=
            (same_calibration (fun config hc => h₁ ⟨config, hc⟩) fun rate hc => h₂ ⟨rate, hc⟩).of_run hc
          rw [hs]
          exact hI
    · rw [next, hsame]
      exact hI

/-- The bonus of no stored calibration overflows. -/
theorem measured_of_reaches {now : Nat} {w : World} (h : Reaches Step (World.deployed now) w) :
    Measured w.calibration :=
  (calibration_of_reaches h).2.trans (by decide)

namespace Sample

/-- A calibration with a penalty, a bonus and a cap. -/
def fullCalibration : ConvictionCalibration := ⟨3, 2, 50, 900, 50⟩

/-- The least bonus that is not measured. -/
def largeBonus : ConvictionCalibration := ⟨0, 1, 1000000000001, 0, 50⟩

end Sample

open Sample in
/-- More tokens weigh no less. -/
theorem full_calibration_sane :
    calculateConviction 500000 (4 * DAY) fullCalibration ≤ calculateConviction 700000 (4 * DAY) fullCalibration :=
  (conviction_sane (.put (w := World.deployed 0) rfl) (by decide) (by decide) (4 * DAY)).2.2.2 (by decide)

open Sample in
/-- The bonus of the larger weight overflows, that of the smaller one does not. -/
theorem large_bonus_inverts :
    (∃ w', putConvictionCalibration largeBonus (World.deployed 0) = (.ok (), w')) ∧
    ¬ ∀ calibration a b timeElapsed, Accepted calibration → 0 ≤ a → a ≤ b →
      calculateConviction a timeElapsed calibration ≤ calculateConviction b timeElapsed calibration := by
  have hput : putConvictionCalibration largeBonus (World.deployed 0) = (.ok (), _) := rfl
  refine ⟨⟨_, hput⟩, fun hall => ?_⟩
  have hle := hall largeBonus (10 ^ 28) i128Max DAY (.put hput) (by decide) (by decide)
  exact absurd hle (by decide +kernel)

end Conviction

end CallStake.Governance
