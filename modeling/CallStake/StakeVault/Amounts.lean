import CallStake.StakeVault.Effects

/-!
# Amounts

Every amount that the vault keeps is a nonnegative 128-bit value, and the cached total of the
delegations to a provider is their exact sum.

* `Slashing`: what the loop over the delegators keeps, one round at a time: what it has taken and
  what is left add up to what there was. `slashDelegations_slashing` is the whole loop.
* `StakesOk`, `SlashesOk`, `Amounts`: the invariant; `Amounts.next` is the step and `Reachable.amounts` the run.
* `delegation_cache_exact`: of the arithmetic of a slash only the products with the basis points and
  the final sum can leave 128 bits.
-/

namespace CallStake.StakeVault

open Store

variable {τ : Type}

/-! ## The parts of a slash -/

section Parts

variable {amount n : Int} {bps : Nat} {acc : Store Address Int × Int}

/-- A slash takes at least one unit and at most everything. -/
theorem slashPart_bounds (bps : Nat) (h : 0 < amount) :
    1 ≤ slashPart amount bps ∧ slashPart amount bps ≤ amount := by
  unfold slashPart; omega

theorem ownSlash_pos (bps : Nat) (h : 0 < amount) :
    1 ≤ ownSlash amount bps ∧ ownSlash amount bps ≤ amount := by
  rw [ownSlash, if_pos h]
  exact slashPart_bounds bps h

theorem ownSlash_bounds (bps : Nat) (h : 0 ≤ amount) :
    0 ≤ ownSlash amount bps ∧ ownSlash amount bps ≤ amount := by
  rcases Int.lt_or_eq_of_le h with h0 | h0
  · have := ownSlash_pos bps h0
    omega
  · rw [ownSlash, if_neg (by omega)]
    omega

/-- What the loop over the delegators keeps, when it starts with delegations of `n` in total. -/
structure Slashing (n : Int) (acc : Store Address Int × Int) : Prop where
  nonneg : Store.All (0 ≤ ·) acc.1
  taken : 0 ≤ acc.2
  conserved : Store.total id acc.1 + acc.2 = n

/-- The amount of a delegator is what is left to take at most. -/
theorem Slashing.amount_bounds (h : Slashing n acc) (d : Address) :
    0 ≤ (acc.1.lookup d).getD 0 ∧ (acc.1.lookup d).getD 0 + acc.2 ≤ n := by
  have hp := part_id acc.1 d
  have h1 := part_nonneg (f := id) h.nonneg d
  have h2 := part_le_total (f := id) h.nonneg d
  have h3 := h.conserved
  omega

/-- One round of the loop: nothing for a delegator without an amount, else the exact difference and
the exact sum. -/
theorem Slashing.round (h : Slashing n acc) (bps : Nat) (hn : n ≤ i128Max) (d : Address) :
    ((acc.1.lookup d).getD 0 = 0 ∧ slashDelegator bps acc d = acc) ∨
    (0 < (acc.1.lookup d).getD 0 ∧ slashDelegator bps acc d =
      (acc.1.insert d ((acc.1.lookup d).getD 0 - slashPart ((acc.1.lookup d).getD 0) bps),
        acc.2 + slashPart ((acc.1.lookup d).getD 0) bps)) := by
  obtain ⟨h0, hle⟩ := h.amount_bounds d
  have ht := h.taken
  by_cases hz : (acc.1.lookup d).getD 0 = 0
  · exact .inl ⟨hz, by simp [slashDelegator, hz]⟩
  · have hpos : 0 < (acc.1.lookup d).getD 0 := by omega
    obtain ⟨hs1, hs2⟩ := slashPart_bounds bps hpos
    refine .inr ⟨hpos, ?_⟩
    simp only [slashDelegator, if_neg hz]
    rw [saturatingSub_part (by omega) hs2 (by omega), saturatingAdd_part ht (by omega) (by omega)]

theorem Slashing.step (h : Slashing n acc) (hn : n ≤ i128Max) (d : Address) :
    Slashing n (slashDelegator bps acc d) := by
  rcases h.round bps hn d with ⟨-, he⟩ | ⟨hpos, he⟩
  · rw [he]; exact h
  · obtain ⟨hs1, hs2⟩ := slashPart_bounds bps hpos
    have ht := h.taken
    have hc := h.conserved
    rw [he]
    refine ⟨h.nonneg.insert (by omega), by simp only; omega, ?_⟩
    rw [total_insert, part_id]
    simp only [id]
    omega

theorem Slashing.foldl (h : Slashing n acc) (hn : n ≤ i128Max) (ks : List Address) :
    Slashing n (ks.foldl (slashDelegator bps) acc) := by
  induction ks generalizing acc with
  | nil => exact h
  | cons k ks ih => exact ih (h.step hn k)

theorem Slashing.start {s : Store Address Int} (h : Store.All (0 ≤ ·) s) :
    Slashing (Store.total id s) (s, 0) := ⟨h, Int.le_refl 0, by simp⟩

theorem slashDelegations_slashing {s : Store Address Int} (bps : Nat) (h : Store.All (0 ≤ ·) s)
    (hn : Store.total id s ≤ i128Max) : Slashing (Store.total id s) (slashDelegations bps s) :=
  (Slashing.start h).foldl hn s.keys

/-- The slashed total never falls, and it stays only if nobody had anything to take. -/
theorem Slashing.foldl_taken (h : Slashing n acc) (bps : Nat) (hn : n ≤ i128Max)
    (ks : List Address) :
    acc.2 ≤ (ks.foldl (slashDelegator bps) acc).2 ∧
      ((ks.foldl (slashDelegator bps) acc).2 = acc.2 →
        ks.foldl (slashDelegator bps) acc = acc ∧ ∀ k ∈ ks, (acc.1.lookup k).getD 0 = 0) := by
  induction ks generalizing acc with
  | nil => exact ⟨Int.le_refl _, fun _ => ⟨rfl, by simp⟩⟩
  | cons k ks ih =>
    obtain ⟨hle, heq⟩ := ih (h.step hn k)
    simp
    rcases h.round bps hn k with ⟨hz, he⟩ | ⟨hpos, he⟩
    · rw [he] at hle heq ⊢
      exact ⟨hle, fun hx => ⟨(heq hx).1, hz, (heq hx).2⟩⟩
    · obtain ⟨hs1, -⟩ := slashPart_bounds bps hpos
      have h2 : (slashDelegator bps acc k).2 = acc.2 + slashPart ((acc.1.lookup k).getD 0) bps := by
        rw [he]
      exact ⟨by omega, fun hx => by omega⟩

/-- A slash takes nothing from the delegations iff no delegator has anything, and then it leaves
them as they are. -/
theorem slashDelegations_eq_zero {s : Store Address Int} (h : Store.All (0 ≤ ·) s)
    (hn : Store.total id s ≤ i128Max) :
    (slashDelegations bps s).2 = 0 ↔ ∀ d a, s.lookup d = some a → a = 0 := by
  have hf := (Slashing.start h).foldl_taken bps hn s.keys
  constructor
  · intro hz d a hd
    have hk : d ∈ s.keys := AList.mem_keys.mpr (AList.lookup_isSome.mp (by simp [hd]))
    have := (hf.2 hz).2 d hk
    simpa [hd] using this
  · intro hz
    have ht := (slashDelegations_slashing bps h hn)
    have h0 : Store.total id s = 0 := total_eq_zero (f := id) hz
    have h1 := total_nonneg (f := id) ht.nonneg
    have h2 := ht.conserved
    have h3 := ht.taken
    omega

theorem slashDelegations_of_zero {s : Store Address Int} (h : Store.All (0 ≤ ·) s)
    (hn : Store.total id s ≤ i128Max) (hz : (slashDelegations bps s).2 = 0) :
    (slashDelegations bps s).1 = s :=
  congrArg Prod.fst (((Slashing.start h).foldl_taken bps hn s.keys).2 hz).1

/-- A delegator that the loop has not come to has its amount. -/
theorem foldl_slashDelegator_lookup {ks : List Address} {d : Address} (h : d ∉ ks) :
    ((ks.foldl (slashDelegator bps) acc).1.lookup d) = acc.1.lookup d := by
  induction ks generalizing acc with
  | nil => rfl
  | cons k ks ih =>
    obtain ⟨hne, hks⟩ := not_or.mp (mt List.mem_cons.mpr h)
    rw [List.foldl_cons, ih hks]
    unfold slashDelegator
    simp only
    split
    · rfl
    · rw [lookup_insert_eq, if_neg hne]

end Parts

/-! ## The stakes -/

/-- The stakes and delegations are nonnegative, and the cached totals are exact and in range. -/
structure StakesOk (s : StakeStorage) : Prop where
  balances : s.stakesV2.All fun info => 0 ≤ info.balance ∧ info.balance ≤ i128Max
  delegated : ∀ p, (delegationsOf s p).All (0 ≤ ·)
  cached : ∀ p, totalDelegatedOf s p = (delegationsOf s p).total id
  bounded : ∀ p, totalDelegatedOf s p ≤ i128Max

section Stakes

variable {s : StakeStorage} {provider q : Address} {info : StakeInfoV2} {bps now : Nat}

theorem delegationsOf_insert (s : StakeStorage) (stakes : Store Address StakeInfoV2)
    (totals : Store Address Int) (provider q : Address) (d : Store Address Int) :
    delegationsOf ⟨stakes, s.providerDelegatedStakes.insert provider d, totals⟩ q =
      if q = provider then d else delegationsOf s q := by
  unfold delegationsOf
  rw [lookup_insert_eq]
  split <;> rfl

theorem totalDelegatedOf_insert (s : StakeStorage) (stakes : Store Address StakeInfoV2)
    (delegations : Store Address (Store Address Int)) (provider q : Address) (n : Int) :
    totalDelegatedOf ⟨stakes, delegations, s.providerTotalDelegated.insert provider n⟩ q =
      if q = provider then n else totalDelegatedOf s q := by
  unfold totalDelegatedOf
  rw [lookup_insert_eq]
  split <;> rfl

/-- The own stake of one address is set. -/
theorem StakesOk.setStake (h : StakesOk s) (h0 : 0 ≤ info.balance)
    (hmax : info.balance ≤ i128Max) :
    StakesOk { s with stakesV2 := s.stakesV2.insert provider info } where
  balances := h.balances.insert ⟨h0, hmax⟩
  delegated := h.delegated
  cached := h.cached
  bounded := h.bounded

theorem StakesOk.infoOf_bounds (h : StakesOk s) (a : Address) :
    0 ≤ (infoOf s.stakesV2 a).balance ∧ (infoOf s.stakesV2 a).balance ≤ i128Max := by
  unfold infoOf
  cases hl : s.stakesV2.lookup a with
  | none => exact ⟨Int.le_refl 0, by decide⟩
  | some i => exact h.balances a i hl

/-- The delegations to one provider are replaced, with their total. -/
theorem StakesOk.setDelegations (h : StakesOk s) {d : Store Address Int} {n : Int}
    (hd : d.All (0 ≤ ·)) (hn : n = d.total id) (hmax : n ≤ i128Max) :
    StakesOk { s with
      providerDelegatedStakes := s.providerDelegatedStakes.insert provider d
      providerTotalDelegated := s.providerTotalDelegated.insert provider n } where
  balances := h.balances
  delegated p := by
    rw [delegationsOf_insert]
    split
    · exact hd
    · exact h.delegated p
  cached p := by
    rw [delegationsOf_insert, totalDelegatedOf_insert]
    split
    · exact hn
    · exact h.cached p
  bounded p := by
    rw [totalDelegatedOf_insert]
    split
    · exact hmax
    · exact h.bounded p

theorem StakesOk.slashing (h : StakesOk s) (provider : Address) (bps : Nat) :
    Slashing (totalDelegatedOf s provider) (slashDelegations bps (delegationsOf s provider)) := by
  rw [h.cached]
  exact slashDelegations_slashing bps (h.delegated provider) (h.cached provider ▸ h.bounded provider)

/-- A slash takes its exact parts, from the own stake, from the delegations and from their total. -/
theorem StakesOk.slashed_eq (h : StakesOk s) (now bps : Nat)
    (hi : s.stakesV2.lookup provider = some info) :
    (s.slashed now provider bps info).stakesV2 = s.stakesV2.insert provider
        ⟨info.balance - ownSlash info.balance bps, info.lockedUntil, now⟩ ∧
      (∀ q, delegationsOf (s.slashed now provider bps info) q =
        if q = provider then (slashDelegations bps (delegationsOf s provider)).1
        else delegationsOf s q) ∧
      ∀ q, totalDelegatedOf (s.slashed now provider bps info) q =
        if q = provider then
          totalDelegatedOf s provider - (slashDelegations bps (delegationsOf s provider)).2
        else totalDelegatedOf s q := by
  obtain ⟨h0, hmax⟩ := h.balances provider info hi
  obtain ⟨ho1, ho2⟩ := ownSlash_bounds bps h0
  have hs := h.slashing provider bps
  have ht := hs.taken
  have hrest := total_nonneg (f := id) hs.nonneg
  have hc := hs.conserved
  have hb := h.bounded provider
  refine ⟨by simp only [StakeStorage.slashed]; rw [saturatingSub_part ho1 ho2 hmax], ?_, ?_⟩
  · intro q
    by_cases hpos : 0 < (slashDelegations bps (delegationsOf s provider)).2
    · simp only [StakeStorage.slashed, if_pos hpos]
      exact delegationsOf_insert s _ _ provider q _
    · have hz : (slashDelegations bps (delegationsOf s provider)).2 = 0 := by omega
      rw [slashDelegations_of_zero (h.delegated provider) (by rw [← h.cached]; exact hb) hz]
      simp only [StakeStorage.slashed, if_neg hpos]
      split
      · rename_i hq; rw [hq]; rfl
      · rfl
  · intro q
    by_cases hpos : 0 < (slashDelegations bps (delegationsOf s provider)).2
    · simp only [StakeStorage.slashed, if_pos hpos]
      rw [totalDelegatedOf_insert s, saturatingSub_part ht (by omega) hb]
    · have hz : (slashDelegations bps (delegationsOf s provider)).2 = 0 := by omega
      rw [hz, Int.sub_zero]
      simp only [StakeStorage.slashed, if_neg hpos]
      split
      · rename_i hq; rw [hq]; rfl
      · rfl

theorem StakesOk.slashed (h : StakesOk s) (hi : s.stakesV2.lookup provider = some info) :
    StakesOk (s.slashed now provider bps info) := by
  obtain ⟨hst, hdel, htot⟩ := h.slashed_eq now bps hi
  obtain ⟨h0, hmax⟩ := h.balances provider info hi
  obtain ⟨ho1, ho2⟩ := ownSlash_bounds bps h0
  have hs := h.slashing provider bps
  have hb := h.bounded provider
  refine ⟨hst ▸ h.balances.insert ⟨by simp only; omega, by simp only; omega⟩, ?_, ?_, ?_⟩
  · intro p
    rw [hdel]
    split
    · exact hs.nonneg
    · exact h.delegated p
  · intro p
    rw [hdel, htot]
    split
    · have := hs.conserved
      omega
    · exact h.cached p
  · intro p
    rw [htot]
    split
    · have := hs.taken
      omega
    · exact h.bounded p

/-- A slash is for a positive amount. -/
theorem StakesOk.slashAmount_pos (h : StakesOk s) (hi : s.stakesV2.lookup provider = some info)
    (hnz : info.balance ≠ 0) : 0 < slashAmount s provider bps info := by
  obtain ⟨h0, -⟩ := h.balances provider info hi
  obtain ⟨ho1, -⟩ := ownSlash_pos bps (show 0 < info.balance by omega)
  have ht := (h.slashing provider bps).taken
  have hpos : 0 < saturatingAdd (ownSlash info.balance bps)
      (slashDelegations bps (delegationsOf s provider)).2 := by
    simp only [saturatingAdd, clamp, i128Min, i128Max]
    omega
  simp only [slashAmount]
  rw [if_neg (by omega)]
  exact hpos

/-- Where own and delegated stake fit in 128 bits together, the amount of a slash is exact. -/
theorem StakesOk.slashAmount_eq (h : StakesOk s) (bps : Nat)
    (hi : s.stakesV2.lookup provider = some info) (hnz : info.balance ≠ 0)
    (hle : info.balance + totalDelegatedOf s provider ≤ i128Max) :
    slashAmount s provider bps info =
      ownSlash info.balance bps + (slashDelegations bps (delegationsOf s provider)).2 := by
  obtain ⟨h0, -⟩ := h.balances provider info hi
  obtain ⟨ho1, ho2⟩ := ownSlash_pos bps (show 0 < info.balance by omega)
  have hs := h.slashing provider bps
  have ht := hs.taken
  have hc := hs.conserved
  have hr := total_nonneg (f := id) hs.nonneg
  simp only [slashAmount]
  rw [saturatingAdd_part (by omega) ht (by omega), if_neg (by omega)]

end Stakes

/-! ## The slashes -/

/-- Recorded and held slashes are for positive amounts, and the counter gave out the ids of the held
ones. -/
structure SlashesOk (s : SlashStorage) : Prop where
  recorded : s.slashRecord.All fun record => 0 < record.slashAmount
  held : s.slashedFundsHeld.All (0 < ·)
  counter : s.slashCounter ≤ u64Max
  numbered : ∀ slashId a, s.slashedFundsHeld.lookup slashId = some a →
    slashId < s.slashCounter ∨ (slashId = u64Max ∧ s.slashCounter = u64Max)

section Slashes

variable {s : SlashStorage} {record : SlashRecord} {amount : Int}

/-- A slash is recorded under the next id. -/
theorem SlashesOk.recordSlash (h : SlashesOk s) (provider : Address) (n : Nat)
    (hr : 0 < record.slashAmount) :
    SlashesOk { s with
      slashCounter := u64Add s.slashCounter 1
      slashRecord := s.slashRecord.insert s.slashCounter record
      lastSlashLedger := s.lastSlashLedger.insert provider n } where
  recorded := h.recorded.insert hr
  held := h.held
  counter := u64Add_le _ _
  numbered i a hi := by
    rcases h.numbered i a hi with hlt | ⟨hi, hc⟩
    · exact .inl (Nat.lt_of_lt_of_le hlt (le_u64Add_one h.counter))
    · exact .inr ⟨hi, by simp only [hc, u64Add_max]⟩

/-- Its funds are held under the same id. -/
theorem SlashesOk.hold (h : SlashesOk s) (provider : Address) (n : Nat)
    (hr : 0 < record.slashAmount) (ha : 0 < amount) :
    SlashesOk { s with
      slashCounter := u64Add s.slashCounter 1
      slashRecord := s.slashRecord.insert s.slashCounter record
      lastSlashLedger := s.lastSlashLedger.insert provider n
      slashedFundsHeld := s.slashedFundsHeld.insert s.slashCounter amount } where
  recorded := h.recorded.insert hr
  held := h.held.insert ha
  counter := u64Add_le _ _
  numbered i a hi := by
    simp only [lookup_insert_eq] at hi
    split at hi
    · rename_i heq
      subst heq
      rcases Nat.lt_or_eq_of_le h.counter with hlt | hmax
      · exact .inl (by simp only [u64Add_one hlt]; omega)
      · exact .inr ⟨hmax, by simp only [hmax, u64Add_max]⟩
    · exact (h.recordSlash provider n hr).numbered i a hi

theorem SlashesOk.release (h : SlashesOk s) (slashId : Nat) :
    SlashesOk { s with slashedFundsHeld := s.slashedFundsHeld.erase slashId } where
  recorded := h.recorded
  held := h.held.erase
  counter := h.counter
  numbered i a hi := by
    simp only [lookup_erase_eq] at hi
    split at hi
    · cases hi
    · exact h.numbered i a hi

/-- Appeals do not matter. -/
theorem SlashesOk.appeals (h : SlashesOk s) (appeals : Store Nat SlashAppeal) :
    SlashesOk { s with slashAppeal := appeals } :=
  ⟨h.recorded, h.held, h.counter, h.numbered⟩

end Slashes

/-! ## The vault -/

/-- The stakes and the slashes are in order. -/
structure Amounts (s : Storage) : Prop where
  stakes : StakesOk s.stake
  slashes : SlashesOk s.slash

section Vault

variable {env : Env τ} {w w' : World τ} {provider : Address} {severity : SlashSeverity}
  {reason : Symbol} {slashId : Nat} {uphold : Bool}

/-- Only the stakes and the slashes count. -/
theorem Amounts.congr (h : Amounts w.store) (hs : w'.store.stake = w.store.stake)
    (hl : w'.store.slash = w.store.slash) : Amounts w'.store := by
  obtain ⟨h1, h2⟩ := h
  exact ⟨hs ▸ h1, hl ▸ h2⟩

theorem Amounts.slashAmount_pos {info : StakeInfoV2} (h : Amounts w.store)
    (severity : SlashSeverity) (hs : Slashable w provider info) : 0 < w.slashAmount provider severity info :=
  h.stakes.slashAmount_pos hs.staked hs.nonzero

theorem Amounts.slashed {info : StakeInfoV2} (h : Amounts w.store)
    (hs : Slashable w provider info) : Amounts (w.slashed provider severity reason info).store :=
  ⟨h.stakes.slashed hs.staked, h.slashes.recordSlash _ _ (h.slashAmount_pos _ hs)⟩

theorem Amounts.slashEffect (h : Amounts w.store)
    (he : SlashEffect env provider severity reason w w') : Amounts w'.store := by
  cases he with
  | failed => exact h
  | @held info hs =>
    exact ⟨h.stakes.slashed hs.staked, h.slashes.hold _ _ (h.slashAmount_pos _ hs) (h.slashAmount_pos _ hs)⟩
  | burned _ hs => exact h.slashed hs
  | refused hs => exact h.slashed hs

/-- A credit of a positive amount stays in range, clamped if need be. -/
theorem StakesOk.credited {amount : Int} (h : StakesOk w.store.stake) (hpos : 0 < amount) :
    StakesOk (w.credited provider amount).store.stake := by
  have hb := h.infoOf_bounds provider
  refine h.setStake ?_ (clamp_le _)
  simp only [saturatingAdd, clamp, i128Min, i128Max]
  omega

theorem Amounts.resolveEffect (h : Amounts w.store) (he : ResolveEffect env slashId uphold w w') :
    Amounts w'.store := by
  cases he with
  | failed => exact h
  | upheld => exact ⟨h.stakes, h.slashes.appeals _⟩
  | burned => exact ⟨h.stakes, (h.slashes.release slashId).appeals _⟩
  | reversed _ h0 => exact ⟨h.stakes.credited h0, (h.slashes.release slashId).appeals _⟩
  | unbacked hr =>
    exact ⟨h.stakes.credited (h.slashes.recorded _ _ hr.recorded), h.slashes.appeals _⟩
  | refused => exact ⟨h.stakes, h.slashes.release slashId⟩

/-- A payout of a part of a stake leaves the rest. -/
theorem Amounts.payout {token staker : Address} {info : StakeInfoV2} {amount : Int} {t : τ}
    (h : Amounts w.store) (hw : w.store.stake.stakesV2.lookup staker = some info)
    (h0 : 0 ≤ amount) (hle : amount ≤ info.balance) :
    Amounts (w.afterPayout env token staker info amount t).store := by
  obtain ⟨hb0, hbm⟩ := h.stakes.balances staker info hw
  exact ⟨h.stakes.setStake (by simp only; omega) (by simp only; omega), h.slashes⟩

theorem Amounts.withdraw {staker : Address} {n : Int} (h : Amounts w.store)
    (hd : doWithdraw env staker w = (.ok n, w')) : Amounts w'.store := by
  obtain ⟨-, token, -, info, hw, rfl, t, -, rfl⟩ := doWithdraw_ok.mp hd
  exact h.payout hw.staked (h.stakes.balances staker info hw.staked).1 (Int.le_refl _)

theorem Amounts.emptied (h : Amounts w.store) (staker : Address) :
    Amounts (EmergencyUnstake.World.emptied w staker).store :=
  ⟨h.stakes.setStake (Int.le_refl 0) (by simp [i128Max]), h.slashes⟩

/-- Every transaction keeps the amounts in order. -/
theorem Amounts.effect {c : Call} (h : Amounts w.store) (he : Effect env w c w') :
    Amounts w'.store := by
  cases he with
  | rejected => exact h
  | aside hf hs =>
    exact h.congr (hs.stake (hf .stake (by simp [books]))) (hs.slash (hf .slash (by simp [books])))
  | @deposit staker token amount t _ hpos _ hmax =>
    have hb := h.stakes.infoOf_bounds staker
    exact ⟨h.stakes.setStake (by simp only; omega) hmax, h.slashes⟩
  | @delegate delegator provider token amount t _ hpos _ hmax =>
    have hd := h.stakes.delegated provider
    have hn := part_nonneg (f := id) hd delegator
    have hp := part_id (delegationsOf w.store.stake provider) delegator
    refine ⟨h.stakes.setDelegations (hd.insert (by omega)) ?_ hmax, h.slashes⟩
    rw [total_insert, hp, h.stakes.cached]
    simp only [id]
    omega
  | @withdraw staker token info t _ _ hw =>
    have hb := (h.stakes.balances staker info hw.staked).1
    have hp : Amounts (w.afterPayout env token staker info info.balance t).store :=
      h.payout hw.staked hb (Int.le_refl _)
    exact hp.congr rfl rfl
  | @part staker token amount info t _ hpos _ hw hlt =>
    have hp : Amounts (w.afterPayout env token staker info amount t).store := h.payout hw.staked (by omega) (by omega)
    exact hp.congr rfl rfl
  | @slash caller provider severity reason n w' hd =>
    have he := doSlash_effect env provider severity reason w
    rw [hd] at he
    exact h.slashEffect he
  | batchSlash hd =>
    -- every entry keeps it, also one that fails after a write
    exact slashEntries_rule (P := fun w => Amounts w.store) hd
      (fun w₁ p sev _ h₁ => h₁.slashEffect (doSlash_effect env p sev _ w₁)) h
  | appeal => exact ⟨h.stakes, h.slashes.appeals _⟩
  | @resolve slashId uphold w' _ hd =>
    have he := doResolveAppeal_effect env slashId uphold w
    rw [hd] at he
    exact h.resolveEffect he
  | batchResolve _ hd =>
    exact resolveEntries_rule (P := fun w => Amounts w.store) hd
      (fun w₁ i u _ h₁ => h₁.resolveEffect (doResolveAppeal_effect env i u w₁)) h
  | execute _ hs => exact h.congr (hs.stake (by simp)) (hs.slash (by simp))
  | @executeResolve _ _ slashId uphold _ w₁ _ hd =>
    have he := doResolveAppeal_effect env slashId uphold w
    rw [hd] at he
    exact (h.resolveEffect he).congr rfl rfl
  | @emergency signer staker token cfg req w₁ _ _ _ hd =>
    obtain ⟨info, -, -, w₂, hb, ht⟩ := EmergencyUnstake.executeEarlyUnstake_ok.mp hd
    have h₂ : Amounts w₂.store := by
      rcases EmergencyUnstake.burnIfPositive_ok.mp hb with ⟨-, t, -, rfl⟩ | ⟨-, rfl⟩ <;>
        exact h.emptied staker
    rcases EmergencyUnstake.transferIfPositive_ok.mp ht with ⟨-, t, -, rfl⟩ | ⟨-, rfl⟩ <;>
      exact h₂.congr rfl rfl
  | approval => exact h.congr rfl rfl
  | process _ hd =>
    obtain ⟨m, h', w₂, hr, h₂⟩ := processLoop_rule env _ _ _ _ (P := fun _ w => Amounts w.store)
      (fun _ _ h₁ _ _ => h₁) (fun _ _ _ _ _ h₁ _ _ hw => (h₁.withdraw hw).congr rfl rfl) h
    rw [hr] at hd
    cases hd
    exact h₂.congr rfl rfl
  | reward _ hs => exact h.congr (hs.stake (by simp)) (hs.slash (by simp))

theorem Amounts.deployed : Amounts Storage.deployed where
  stakes := by
    refine ⟨by simp [Storage.deployed], ?_, ?_, ?_⟩
    · intro p; simp [Storage.deployed, delegationsOf]
    · intro p; simp [Storage.deployed, delegationsOf, totalDelegatedOf]
    · intro p; simp [Storage.deployed, totalDelegatedOf, i128Max]
  slashes := ⟨by simp [Storage.deployed], by simp [Storage.deployed], Nat.zero_le _,
    by simp [Storage.deployed]⟩

variable {T : Tokens τ} {self : Address}

theorem Amounts.next {ev : Event τ} (h : Amounts w.store) : Amounts (next T self w ev).store := by
  cases ev with
  | call auth c => exact h.effect (invoke_effect ⟨T, self, auth⟩ c w)
  | advance | external => exact h

/-- In every reachable state the amounts are in order. -/
theorem Reachable.amounts (h : Reachable T self w) : Amounts w.store := by
  obtain ⟨ledger, token, hr⟩ := h
  refine hr.invariant (I := fun w => Amounts w.store) Amounts.deployed ?_
  rintro a ev b ha ⟨-, rfl⟩
  exact ha.next

end Vault

/-! ## Reading the stakes -/

section Read

variable {w : World τ} {q : Address}

theorem getStake_eq (s : Storage) (a : Address) :
    getStake s a = (infoOf s.stake.stakesV2 a).balance := by
  unfold getStake infoOf; cases s.stake.stakesV2.lookup a <;> rfl

/-- A slash of `q` lowers the stake of `q` and no other. -/
theorem getStake_slashed {info : StakeInfoV2} (h : Amounts w.store) (provider : Address)
    (severity : SlashSeverity) (reason : Symbol) (hs : Slashable w q info) :
    getStake (w.slashed q severity reason info).store provider =
        (if provider = q then info.balance - ownSlash info.balance (w.slashBps severity)
          else getStake w.store provider) ∧
      getStake w.store q = info.balance ∧
      1 ≤ ownSlash info.balance (w.slashBps severity) := by
  obtain ⟨h0, -⟩ := h.stakes.balances q info hs.staked
  have hnz := hs.nonzero
  obtain ⟨h1, -⟩ := ownSlash_pos (w.slashBps severity) (show 0 < info.balance by omega)
  refine ⟨?_, by simp [getStake, hs.staked], h1⟩
  unfold getStake
  change Option.elim ((w.store.stake.slashed _ _ _ _).stakesV2.lookup provider) _ _ = _
  rw [(h.stakes.slashed_eq _ _ hs.staked).1, lookup_insert_eq]
  split <;> rfl

theorem getStake_credited (w : World τ) (p q : Address) (amount : Int) :
    getStake (w.credited p amount).store q =
      if q = p then saturatingAdd (getStake w.store q) amount else getStake w.store q := by
  unfold World.credited
  rw [getStake_eq w.store, getStake]
  simp only [lookup_insert_eq]
  split
  · rename_i heq; rw [heq]; rfl
  · rw [← getStake_eq]; rfl

end Read

/-! ## The arithmetic of a slash -/

section Range

variable {s : StakeStorage} {provider : Address} {info : StakeInfoV2} {bps : Nat}

/-- The loop over the delegators of `provider` after the rounds of `done`. -/
def loopAfter (s : StakeStorage) (provider : Address) (bps : Nat) (done : List Address) :
    Store Address Int × Int :=
  done.foldl (slashDelegator bps) (delegationsOf s provider, 0)

/-- The amount that the round of `d` finds. -/
def amountAt (s : StakeStorage) (provider : Address) (bps : Nat) (done : List Address)
    (d : Address) : Int :=
  ((loopAfter s provider bps done).1.lookup d).getD 0

/-- The differences and the running sum of a slash fit in 128 bits: the own stake less its slash, in
every round the delegation less its slash and the slashed total, and the cached total less what the
loop took. -/
structure PartsInRange (s : StakeStorage) (provider : Address) (bps : Nat) (info : StakeInfoV2) :
    Prop where
  own : InRange (info.balance - ownSlash info.balance bps)
  rest {done : List Address} {d : Address} {todo : List Address} :
    (delegationsOf s provider).keys = done ++ d :: todo →
      InRange (amountAt s provider bps done d - slashPart (amountAt s provider bps done d) bps)
  running {done : List Address} {d : Address} {todo : List Address} :
    (delegationsOf s provider).keys = done ++ d :: todo →
      InRange ((loopAfter s provider bps done).2 + slashPart (amountAt s provider bps done d) bps)
  cached : InRange
    (totalDelegatedOf s provider - (slashDelegations bps (delegationsOf s provider)).2)

/-- All the arithmetic of a slash on amounts fits in 128 bits, the products with the basis points and
the sum of the two parts included. -/
structure NothingSaturates (s : StakeStorage) (provider : Address) (bps : Nat)
    (info : StakeInfoV2) : Prop extends PartsInRange s provider bps info where
  ownProduct : InRange (info.balance * bps)
  product {done : List Address} {d : Address} {todo : List Address} :
    (delegationsOf s provider).keys = done ++ d :: todo → InRange (amountAt s provider bps done d * bps)
  sum : InRange (ownSlash info.balance bps + (slashDelegations bps (delegationsOf s provider)).2)

/-- Every round finds the amount that the slash started with, since no delegator comes twice. -/
theorem amountAt_eq (bps : Nat) {done : List Address} {d : Address} {todo : List Address}
    (hk : (delegationsOf s provider).keys = done ++ d :: todo) :
    (delegationsOf s provider).lookup d = some (amountAt s provider bps done d) := by
  have hd : d ∉ done := by
    have hnd := (delegationsOf s provider).keys_nodup
    rw [hk] at hnd
    intro hmem
    exact (List.nodup_append.mp hnd).2.2 d hmem d (List.mem_cons_self ..) rfl
  have hm : d ∈ delegationsOf s provider := AList.mem_keys.mpr (by rw [hk]; simp)
  obtain ⟨a, ha⟩ := Option.isSome_iff_exists.mp (AList.lookup_isSome.mpr hm)
  rw [amountAt, loopAfter, foldl_slashDelegator_lookup hd, ha]
  rfl

theorem StakesOk.partsInRange (h : StakesOk s) (bps : Nat)
    (hi : s.stakesV2.lookup provider = some info) :
    PartsInRange s provider bps info := by
  obtain ⟨h0, hmax⟩ := h.balances provider info hi
  obtain ⟨ho1, ho2⟩ := ownSlash_bounds bps h0
  have hb := h.bounded provider
  have hrange : ∀ {x : Int}, 0 ≤ x → x ≤ i128Max → InRange x := fun hx => (inRange_of_nonneg hx).mpr
  have hloop : ∀ done, Slashing (totalDelegatedOf s provider) (loopAfter s provider bps done) := by
    intro done
    rw [h.cached]
    exact (Slashing.start (h.delegated provider)).foldl (h.cached provider ▸ hb) done
  have hround : ∀ done d, 0 ≤ amountAt s provider bps done d ∧
      0 ≤ slashPart (amountAt s provider bps done d) bps ∧
      slashPart (amountAt s provider bps done d) bps ≤ amountAt s provider bps done d ∧
      amountAt s provider bps done d + (loopAfter s provider bps done).2 ≤ i128Max := by
    intro done d
    obtain ⟨ha0, ha1⟩ := (hloop done).amount_bounds d
    unfold amountAt slashPart
    omega
  refine ⟨hrange (by omega) (by omega), ?_, ?_, ?_⟩
  · intro done d todo _
    obtain ⟨h1, h2, h3, h4⟩ := hround done d
    have ht := (hloop done).taken
    exact hrange (by omega) (by omega)
  · intro done d todo _
    obtain ⟨h1, h2, h3, h4⟩ := hround done d
    have ht := (hloop done).taken
    exact hrange (by omega) (by omega)
  · have hs := h.slashing provider bps
    have ht := hs.taken
    have hc := hs.conserved
    have hr := total_nonneg (f := id) hs.nonneg
    exact hrange (by omega) (by omega)

/-- The delegation cache is exact, and a slash of a provider never saturates in a difference, in its
running total or in the cache. Nothing at all saturates iff the products with the basis points and
the sum of the own and the delegated part fit in 128 bits. -/
theorem delegation_cache_exact {T : Tokens τ} {self : Address} {w : World τ}
    (h : Reachable T self w) (provider : Address) :
    totalDelegatedOf w.store.stake provider =
        Store.total id (delegationsOf w.store.stake provider) ∧
      (delegationsOf w.store.stake provider).All (0 ≤ ·) ∧
      ∀ severity info, w.store.stake.stakesV2.lookup provider = some info →
        PartsInRange w.store.stake provider (w.slashBps severity) info ∧
        (NothingSaturates w.store.stake provider (w.slashBps severity) info ↔
          InRange (info.balance * w.slashBps severity) ∧
          (delegationsOf w.store.stake provider).All (fun a => InRange (a * w.slashBps severity)) ∧
          InRange (ownSlash info.balance (w.slashBps severity) +
            (slashDelegations (w.slashBps severity)
              (delegationsOf w.store.stake provider)).2)) := by
  have hok := h.amounts.stakes
  refine ⟨hok.cached provider, hok.delegated provider, ?_⟩
  intro severity info hi
  have hp := hok.partsInRange (w.slashBps severity) hi
  refine ⟨hp, ?_⟩
  constructor
  · intro hn
    refine ⟨hn.ownProduct, ?_, hn.sum⟩
    intro d a ha
    have hk : d ∈ (delegationsOf w.store.stake provider).keys :=
      AList.mem_keys.mpr (AList.lookup_isSome.mp (by simp [ha]))
    obtain ⟨done, todo, hsplit⟩ := List.append_of_mem hk
    have he := amountAt_eq (w.slashBps severity) hsplit
    have := hn.product hsplit
    rw [ha] at he
    cases he
    exact this
  · rintro ⟨h1, h2, h3⟩
    exact ⟨hp, h1, fun hsplit => h2 _ _ (amountAt_eq _ hsplit), h3⟩

/-! The product saturates for a large stake, so that a minor slash takes all of it. The sum of the two
parts saturates when a token lets them grow beyond 128 bits together. -/

open Sample in
/-- A minor slash of the largest stake takes everything; a critical one comes to more than an `i128`. -/
theorem slash_of_large_stakes_saturates :
    (∃ w info, Reachable Balances.tokens vault w ∧
      w.store.stake.stakesV2.lookup alice = some info ∧
      ¬ NothingSaturates w.store.stake alice (w.slashBps .minor) info ∧
      w.slashBps .minor = 500 ∧ ownSlash info.balance (w.slashBps .minor) = info.balance) ∧
    ∃ w info, Reachable freeTokens vault w ∧
      w.store.stake.stakesV2.lookup alice = some info ∧
      i128Max < ownSlash info.balance (w.slashBps .critical) +
        (slashDelegations (w.slashBps .critical) (delegationsOf w.store.stake alice)).2 := by
  constructor
  · refine ⟨started Balances.tokens funds [call (.depositStake alice (2 ^ 126))], ⟨2 ^ 126, 0, 0⟩,
      reachable_run _ _ (by decide +kernel), by decide +kernel, ?_, by decide +kernel,
      by decide +kernel⟩
    intro h
    exact absurd h.ownProduct (by decide +kernel)
  · exact ⟨started freeTokens () [call (.depositStake alice i128Max),
      call (.delegateStake bob alice i128Max)], ⟨i128Max, 0, 0⟩,
      reachable_run _ _ (by decide +kernel), by decide +kernel, by decide +kernel⟩

/-- A provider and a delegator, a slash of both, and new stakes. -/
def slashedAndRefilled : List (Event Balances) :=
  [Sample.call (.depositStake Sample.alice 100),
    Sample.call (.delegateStake Sample.bob Sample.alice 100),
    Sample.call (.slashStake Sample.registry Sample.alice .critical ""),
    Sample.call (.depositStake Sample.alice 100),
    Sample.call (.delegateStake Sample.bob Sample.alice 50)]

open Sample in
/-- The cached total is the sum of the delegations. -/
theorem delegation_cache_exact_refilled :
    totalDelegatedOf (started Balances.tokens funds slashedAndRefilled).store.stake alice = 50 ∧
      Store.total id
        (delegationsOf (started Balances.tokens funds slashedAndRefilled).store.stake alice) = 50 := by
  have hr : Reachable Balances.tokens vault (started Balances.tokens funds slashedAndRefilled) :=
    reachable_run _ _ (by decide +kernel)
  have h50 : totalDelegatedOf
      (started Balances.tokens funds slashedAndRefilled).store.stake alice = 50 := by
    decide +kernel
  exact ⟨h50, (delegation_cache_exact hr alice).1.symm.trans h50⟩

end Range

end CallStake.StakeVault
