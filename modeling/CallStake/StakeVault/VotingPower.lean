import CallStake.StakeVault.Amounts

/-!
# The voting power of locked stakes

A stake that is still locked votes with the largest multiplier of the tiers that its remaining lock
reaches. The remaining lock is counted in whole weeks, of which the source keeps the lowest 32 bits.

* `mem_of_best`, `le_best`: the fold of the source is the largest value of the tiers that pass.
* `getVotingPower_mono`: a lock that reaches more weeks, as the source counts them, votes with at least as
  much.
* `longer_lock_iff`: a duration votes with at least as much as another one under every table and in every
  reachable vault iff its weeks, truncated to 32 bits, are at least as many.
-/

namespace CallStake.StakeVault

open List

variable {τ : Type}

/-! ## The largest value that passes -/

section Best

variable {α : Type} (p : α → Prop) [DecidablePred p] (f : α → Nat) {l : List α} {a : α} {n : Nat}

/-- The largest `f` of the elements with `p`, and at least `n`. -/
def best (n : Nat) (l : List α) : Nat := l.foldl (fun n a => if p a ∧ n < f a then f a else n) n

theorem le_best_start : n ≤ best p f n l := by
  induction l generalizing n with
  | nil => exact Nat.le_refl n
  | cons a l ih =>
    rw [best, foldl_cons]
    refine Nat.le_trans ?_ ih
    by_cases hb : p a ∧ n < f a
    · rw [if_pos hb]
      omega
    · rw [if_neg hb]

theorem le_best (ha : a ∈ l) (hp : p a) : f a ≤ best p f n l := by
  induction l generalizing n with
  | nil => cases ha
  | cons b l ih =>
    rw [best, foldl_cons]
    rcases List.mem_cons.mp ha with rfl | ha
    · refine Nat.le_trans ?_ (le_best_start p f)
      by_cases hb : p a ∧ n < f a
      · rw [if_pos hb]
      · rw [if_neg hb]
        simp [hp] at hb
        omega
    · exact ih ha

theorem mem_of_best : best p f n l = n ∨ ∃ a ∈ l, p a ∧ f a = best p f n l := by
  induction l generalizing n with
  | nil => exact .inl rfl
  | cons b l ih =>
    rw [best, foldl_cons]
    split
    · rename_i hb
      rcases ih (n := f b) with he | ⟨a, ha, hp, he⟩
      · exact .inr ⟨b, mem_cons_self .., hb.1, he.symm⟩
      · exact .inr ⟨a, mem_cons_of_mem _ ha, hp, he⟩
    · rcases ih (n := n) with he | ⟨a, ha, hp, he⟩
      · exact .inl he
      · exact .inr ⟨a, mem_cons_of_mem _ ha, hp, he⟩

end Best

/-- The whole weeks of a duration, as the source counts them. -/
def weeksOf (secs : Nat) : Nat := secs / SECS_PER_WEEK % 2 ^ 32

section Power

variable {tiers : List LockMultiplierTier} {r₁ r₂ b₁ b₂ : Nat} {balance : Int}

theorem lockMultiplier_eq (r : Nat) :
    lockMultiplierBpsForRemaining tiers r = best (·.weeks ≤ weeksOf r) (·.bps) 0 tiers := rfl

theorem lockMultiplier_mono (h : weeksOf r₁ ≤ weeksOf r₂) :
    lockMultiplierBpsForRemaining tiers r₁ ≤ lockMultiplierBpsForRemaining tiers r₂ := by
  rw [lockMultiplier_eq, lockMultiplier_eq]
  rcases mem_of_best (·.weeks ≤ weeksOf r₁) (·.bps) (n := 0) (l := tiers) with h0 | ⟨tier, hmem, hp, he⟩
  · rw [h0]
    exact Nat.zero_le _
  · rw [← he]
    exact le_best _ _ hmem (Nat.le_trans hp h)

theorem applyMultiplierBps_mono (h0 : 0 ≤ balance) (h : b₁ ≤ b₂) :
    applyMultiplierBps balance b₁ ≤ applyMultiplierBps balance b₂ := by
  have hmul : balance * b₁ ≤ balance * b₂ := Int.mul_le_mul_of_nonneg_left (by omega) h0
  have hnn : 0 ≤ balance * b₁ := Int.mul_nonneg h0 (Int.natCast_nonneg b₁)
  unfold applyMultiplierBps
  cases h₂ : checkedMul balance b₂ with
  | none =>
    cases h₁ : checkedMul balance b₁ with
    | none => exact Int.le_refl _
    | some v =>
      obtain ⟨-, hmax, rfl⟩ := checkedMul_eq_some.mp h₁
      simp only [BPS_DENOMINATOR, Int.tdiv_eq_ediv_of_nonneg hnn]
      omega
  | some v =>
    obtain ⟨hmin, hmax, rfl⟩ := checkedMul_eq_some.mp h₂
    -- the smaller product is in range as well
    have h₁ : checkedMul balance b₁ = some (balance * b₁) :=
      checkedMul_eq_some.mpr ⟨by unfold i128Min; omega, by omega, rfl⟩
    rw [h₁]
    simp [BPS_DENOMINATOR, Int.tdiv_eq_ediv_of_nonneg hnn, Int.tdiv_eq_ediv_of_nonneg (Int.le_trans hnn hmul)]
    omega

/-- The voting power of a stake with the balance `balance` and a lock with `remaining` seconds left. -/
def lockedPower (tiers : List LockMultiplierTier) (balance : Int) (remaining : Nat) : Int :=
  if lockMultiplierBpsForRemaining tiers remaining = 0 then 0
  else applyMultiplierBps balance (lockMultiplierBpsForRemaining tiers remaining)

theorem getVotingPower_locked {s : Storage} {now : Nat} {staker : Address} {info : StakeInfoV2}
    (hi : s.stake.stakesV2.lookup staker = some info) (hl : now < info.lockedUntil) :
    getVotingPower s now staker =
      if info.balance = 0 then 0
      else lockedPower s.config.lockMultiplierTiers info.balance (info.lockedUntil - now) := by
  unfold getVotingPower lockedPower
  rw [hi]
  simp only
  rw [if_neg (show ¬ (info.lockedUntil = 0 ∨ info.lockedUntil ≤ now) by omega)]

theorem lockedPower_mono (h0 : 0 ≤ balance) (h : weeksOf r₁ ≤ weeksOf r₂) :
    lockedPower tiers balance r₁ ≤ lockedPower tiers balance r₂ := by
  have hmono : lockMultiplierBpsForRemaining tiers r₁ ≤ lockMultiplierBpsForRemaining tiers r₂ :=
    lockMultiplier_mono h
  unfold lockedPower
  split
  · split
    · exact Int.le_refl 0
    · exact EmergencyUnstake.applyMultiplierBps_nonneg _ h0
  · rw [if_neg (by omega)]
    exact applyMultiplierBps_mono h0 hmono

end Power

/-! ## Every pair of durations -/

section Durations

variable (T : Tokens τ) {self : Address} {r₁ r₂ : Nat}

/-- A later lock of an equal balance votes with at least as much. -/
theorem getVotingPower_mono {w : World τ} (hw : Reachable T self w) (h : weeksOf r₁ ≤ weeksOf r₂)
    {a b : Address} {i j : StakeInfoV2} (hi : w.store.stake.stakesV2.lookup a = some i)
    (hj : w.store.stake.stakesV2.lookup b = some j) (he : i.balance = j.balance)
    (hr₁ : i.lockedUntil = w.ledger.timestamp + r₁) (hr₂ : j.lockedUntil = w.ledger.timestamp + r₂)
    (h₁ : 0 < r₁) (h₂ : 0 < r₂) :
    getVotingPower w.store w.ledger.timestamp a ≤ getVotingPower w.store w.ledger.timestamp b := by
  have h0 : 0 ≤ i.balance := (hw.amounts.stakes.balances a i hi).1
  rw [getVotingPower_locked hi (by omega), getVotingPower_locked hj (by omega), ← he]
  rw [show i.lockedUntil - w.ledger.timestamp = r₁ by omega, show j.lockedUntil - w.ledger.timestamp = r₂ by omega]
  by_cases hz : i.balance = 0
  · rw [if_pos hz, if_pos hz]
  · rw [if_neg hz, if_neg hz]
    exact lockedPower_mono h0 h

/-- A vault whose admin gave the locks of `weeks` weeks the largest multiplier. -/
def rewarded (T : Tokens τ) (self : Address) (token : τ) (weeks : Nat) : World τ :=
  run T self (World.deployed ⟨0, 0⟩ token)
    [.call (fun a => a ≠ self) (.initializeVault ⟨self.id + 1⟩ ⟨self.id + 2⟩ ⟨self.id + 3⟩),
      .call (fun a => a ≠ self) (.setLockMultiplierTier weeks MAX_LOCK_MULTIPLIER_BPS)]

theorem rewarded_reachable (token : τ) (weeks : Nat) :
    Reachable T self (rewarded T self token weeks) := by
  refine reachable_run _ _ ?_
  simp [Reaches.Along, Allowed]

theorem setLockMultiplierTier_ok {env : Env τ} {w w' : World τ} {u : Unit} {weeks bps : Nat} :
    setLockMultiplierTier env weeks bps w = (.ok u, w') ↔
      ∃ admin, w.store.config.admin = some admin ∧ env.auth admin = true ∧
        ¬ (weeks = 0 ∨ (bps : Int) < BPS_DENOMINATOR ∨ MAX_LOCK_MULTIPLIER_BPS < bps) ∧
        { w with store := { w.store with
            config.lockMultiplierTiers := setTier w.store.config.lockMultiplierTiers weeks bps } } = w' := by
  simp [setLockMultiplierTier, and_assoc]

theorem rewarded_tiers (token : τ) {weeks : Nat} (h : 0 < weeks) :
    (rewarded T self token weeks).store.config.lockMultiplierTiers =
      setTier defaultLockMultiplierTiers weeks MAX_LOCK_MULTIPLIER_BPS := by
  have hself : (⟨self.id + 1⟩ : Address) ≠ self := fun he => by
    have := congrArg Address.id he
    simp at this
  have hs : setLockMultiplierTier ⟨T, self, fun a => a ≠ self⟩ weeks MAX_LOCK_MULTIPLIER_BPS
      (next T self (World.deployed ⟨0, 0⟩ token) (.call (fun a => a ≠ self)
        (.initializeVault ⟨self.id + 1⟩ ⟨self.id + 2⟩ ⟨self.id + 3⟩))) = (.ok (), _) :=
    setLockMultiplierTier_ok.mpr ⟨⟨self.id + 1⟩, rfl, decide_eq_true hself, by
      unfold MAX_LOCK_MULTIPLIER_BPS BPS_DENOMINATOR
      omega, rfl⟩
  rw [rewarded, run, foldl_cons, foldl_cons, foldl_nil]
  exact congrArg (fun w : World τ => w.store.config.lockMultiplierTiers) (Tx.exec_of_ok hs)

theorem mem_setTier {tiers : List LockMultiplierTier} {tier : LockMultiplierTier} {weeks bps : Nat}
    (h : tier ∈ setTier tiers weeks bps) : tier ∈ tiers ∨ tier = ⟨weeks, bps⟩ := by
  unfold setTier at h
  by_cases ha : tiers.any (·.weeks = weeks)
  · rw [if_pos ha] at h
    obtain ⟨t, ht, rfl⟩ := List.mem_map.mp h
    by_cases hw : t.weeks = weeks
    · exact .inr (if_pos hw)
    · rw [if_neg hw]
      exact .inl ht
  · rw [if_neg ha] at h
    simpa using h

theorem setTier_mem (tiers : List LockMultiplierTier) (weeks bps : Nat) :
    ⟨weeks, bps⟩ ∈ setTier tiers weeks bps := by
  unfold setTier
  by_cases ha : tiers.any (·.weeks = weeks)
  · rw [if_pos ha]
    obtain ⟨t, ht, hw⟩ := List.any_eq_true.mp ha
    exact List.mem_map.mpr ⟨t, ht, if_pos (of_decide_eq_true hw)⟩
  · rw [if_neg ha]
    exact mem_append_right _ (mem_singleton_self _)

/-- The locks of `weeks` weeks are the only ones with the largest multiplier. -/
theorem weeks_of_rewarded {weeks : Nat} (h : weeksOf r₁ = weeks)
    (hle : lockMultiplierBpsForRemaining (setTier defaultLockMultiplierTiers weeks MAX_LOCK_MULTIPLIER_BPS) r₁ ≤
      lockMultiplierBpsForRemaining (setTier defaultLockMultiplierTiers weeks MAX_LOCK_MULTIPLIER_BPS) r₂) :
    weeks ≤ weeksOf r₂ := by
  rw [lockMultiplier_eq, lockMultiplier_eq] at hle
  have h₁ := le_best (·.weeks ≤ weeksOf r₁) (·.bps) (n := 0)
    (setTier_mem defaultLockMultiplierTiers weeks MAX_LOCK_MULTIPLIER_BPS) (Nat.le_of_eq h.symm)
  have hmax := Nat.le_trans h₁ hle
  rcases mem_of_best (·.weeks ≤ weeksOf r₂) (·.bps) (n := 0)
    (l := setTier defaultLockMultiplierTiers weeks MAX_LOCK_MULTIPLIER_BPS) with h0 | ⟨tier, hmem, hp, he⟩
  · rw [h0] at hmax
    simp [MAX_LOCK_MULTIPLIER_BPS] at hmax
  · rw [← he] at hmax
    rcases mem_setTier hmem with hd | rfl
    · -- none of the default tiers has that much
      simp [defaultLockMultiplierTiers] at hd
      rcases hd with rfl | rfl | rfl <;> simp [MAX_LOCK_MULTIPLIER_BPS] at hmax
    · exact hp

/-- A duration never votes with less than another one, under any tiers and whatever is staked, exactly
when its weeks, of which the source keeps 32 bits, are at least as many. -/
theorem longer_lock_iff [Inhabited τ] (self : Address) (r₁ r₂ : Nat) :
    (∀ w, Reachable T self w →
      lockMultiplierBpsForRemaining w.store.config.lockMultiplierTiers r₁ ≤
        lockMultiplierBpsForRemaining w.store.config.lockMultiplierTiers r₂ ∧
      ∀ (a b : Address) (i j : StakeInfoV2), w.store.stake.stakesV2.lookup a = some i →
        w.store.stake.stakesV2.lookup b = some j → i.balance = j.balance →
        i.lockedUntil = w.ledger.timestamp + r₁ → j.lockedUntil = w.ledger.timestamp + r₂ →
        0 < r₁ → 0 < r₂ →
        getVotingPower w.store w.ledger.timestamp a ≤ getVotingPower w.store w.ledger.timestamp b) ↔
      weeksOf r₁ ≤ weeksOf r₂ := by
  constructor
  · intro h
    by_cases h0 : weeksOf r₁ = 0
    · rw [h0]
      exact Nat.zero_le _
    · have hle := (h _ (rewarded_reachable T default (weeksOf r₁))).1
      rw [rewarded_tiers T default (Nat.pos_of_ne_zero h0)] at hle
      exact weeks_of_rewarded rfl hle
  · intro h w hw
    exact ⟨lockMultiplier_mono h,
      fun a b i j hi hj he hr₁ hr₂ h₁ h₂ => getVotingPower_mono T hw h hi hj he hr₁ hr₂ h₁ h₂⟩

end Durations

/-! ## A very long lock -/

namespace Sample

/-- A lock of `2 ^ 32` weeks. -/
def veryLong : Nat := SECS_PER_WEEK * 2 ^ 32

/-- `alice` locks `1000` for a week, `bob` the same for `2 ^ 32` weeks. -/
def longAndShort : World Unit :=
  started freeTokens () [call (.setMinimumStakeDuration SECS_PER_WEEK), call (.depositStake alice 1000),
    call (.setMinimumStakeDuration veryLong), call (.depositStake bob 1000)]

end Sample

open Sample in
/-- The longer lock of an equal balance does not vote at all. -/
theorem very_long_lock_has_no_power :
    ¬ ((∀ w : World Unit, Reachable freeTokens vault w → ∀ r₁ r₂, r₁ ≤ r₂ → r₂ ≤ u64Max →
        lockMultiplierBpsForRemaining w.store.config.lockMultiplierTiers r₁ ≤
          lockMultiplierBpsForRemaining w.store.config.lockMultiplierTiers r₂)) ∧
      Reachable freeTokens vault longAndShort ∧
      (getStake longAndShort.store alice, getStake longAndShort.store bob) = (1000, 1000) ∧
      (getVotingPower longAndShort.store 0 alice, getVotingPower longAndShort.store 0 bob) = (1000, 0) := by
  have hr : Reachable freeTokens vault longAndShort := reachable_run _ _ (by decide +kernel)
  refine ⟨fun h => ?_, hr, by decide +kernel, by decide +kernel⟩
  have hle := h longAndShort hr SECS_PER_WEEK veryLong (by decide +kernel) (by decide +kernel)
  exact absurd hle (by decide +kernel)

end CallStake.StakeVault
