import CallStake.StakeVault.Footprint

/-!
# The books of the reward vault

A bucket counts in the total of its asset and, until it is claimed, in the balance of its provider.
The four records (buckets, claims, balances, totals) agree after every call.

* `bucketTotal`, `unclaimedTotal`, `newlyClaimedTotal`: the sums over the buckets.
* `RewardOk`: the invariant; `RewardOk.deposited` and `Claiming.round` are its steps.
* `reward_accounting`: the run. Beyond the last bucket id a deposit writes over a bucket
  (`LastBucket.Stocked`).
-/

namespace CallStake.StakeVault

open Store List

namespace RewardVault

variable {τ : Type}

/-! ## Sums over buckets -/

def amountIn (asset : Address) (b : RewardBucket) : Int := if b.asset = asset then b.amount else 0

/-- The amount of a bucket of `provider` in `asset`, unless it is claimed. -/
def unclaimedIn (claimed : Store (Address × Nat) Bool) (provider asset : Address)
    (b : RewardBucket) : Int :=
  if b.provider = provider ∧ b.asset = asset ∧ claimed.lookup (provider, b.bucketId) = none then
    b.amount else 0

/-- The amount of a bucket in `asset`, if it was claimed in between. -/
def newlyIn (before after : Store (Address × Nat) Bool) (asset : Address) (b : RewardBucket) : Int :=
  if b.asset = asset ∧ before.lookup (b.provider, b.bucketId) = none ∧
    (after.lookup (b.provider, b.bucketId)).isSome = true then b.amount else 0

/-- The sum of all buckets in `asset`. -/
def bucketTotal (r : RewardStorage) (asset : Address) : Int := Store.total (amountIn asset) r.bucket

/-- The sum of the buckets of `provider` in `asset` that are not claimed. -/
def unclaimedTotal (r : RewardStorage) (provider asset : Address) : Int :=
  Store.total (unclaimedIn r.claimed provider asset) r.bucket

/-- The sum of the buckets in `asset` that are claimed in `r'` but not in `r`. -/
def newlyClaimedTotal (r r' : RewardStorage) (asset : Address) : Int :=
  Store.total (newlyIn r.claimed r'.claimed asset) r.bucket

/-- The amount of `asset` that a log entry moves. -/
def movedIn (asset : Address) : LogEntry → Int
  | .transfer token _ _ amount => if token = asset then amount else 0
  | _ => 0

/-- The amount of `asset` that the entries of a log move. -/
def paidIn (asset : Address) (log : List LogEntry) : Int := (log.map (movedIn asset)).sum

/-- The books agree. -/
structure RewardOk (r : RewardStorage) : Prop where
  bucket : ∀ id b, r.bucket.lookup id = some b → b.bucketId = id ∧ id < r.bucketCounter ∧ 0 < b.amount
  claimed : ∀ provider id, (r.claimed.lookup (provider, id)).isSome = true →
    ∃ b, r.bucket.lookup id = some b ∧ b.provider = provider
  balances : ∀ provider asset, getProviderRewardBalance r provider asset = unclaimedTotal r provider asset
  totals : ∀ asset, getAssetTotalDeposited r asset = bucketTotal r asset
  bounded : ∀ asset, bucketTotal r asset ≤ i128Max

section Sums

variable {r : RewardStorage} {provider asset : Address} {b : RewardBucket} {id : Nat}

theorem RewardOk.unclaimed_bounds (h : RewardOk r) (provider asset : Address) :
    0 ≤ unclaimedTotal r provider asset ∧ unclaimedTotal r provider asset ≤ bucketTotal r asset := by
  constructor
  · refine total_nonneg fun id b hb => ?_
    have := (h.bucket id b hb).2.2
    simp only [unclaimedIn]
    split <;> omega
  · refine total_mono fun id b hb => ?_
    have := (h.bucket id b hb).2.2
    simp only [unclaimedIn, amountIn]
    split
    · rename_i hc
      rw [if_pos hc.2.1]
    · split <;> omega

theorem RewardOk.newly_le (h : RewardOk r) (before after : Store (Address × Nat) Bool)
    (asset : Address) :
    Store.total (newlyIn before after asset) r.bucket ≤ bucketTotal r asset := by
  refine total_mono fun id b hb => ?_
  have := (h.bucket id b hb).2.2
  simp only [newlyIn, amountIn]
  split
  · rename_i hc
    rw [if_pos hc.1]
  · split <;> omega

/-- The part of a claim in the sums: the unclaimed sum of its provider and asset falls by its
amount. -/
theorem unclaimedTotal_mark (h : RewardOk r) (hb : r.bucket.lookup id = some b)
    (hn : r.claimed.lookup (b.provider, id) = none) (q a : Address) :
    Store.total (unclaimedIn (r.claimed.insert (b.provider, id) true) q a) r.bucket =
      unclaimedTotal r q a - if q = b.provider ∧ a = b.asset then b.amount else 0 := by
  have hid := (h.bucket id b hb).1
  rw [total_update (f := unclaimedIn r.claimed q a) hb]
  · unfold unclaimedTotal unclaimedIn
    rw [hid, lookup_insert_eq]
    by_cases hq : q = b.provider
    · subst hq
      by_cases ha : a = b.asset
      · subst ha; simp [hn]
      · simp [ha, Ne.symm ha]
    · simp [hq, Ne.symm hq]
  · intro id' b' hb' hne
    have hid' := (h.bucket id' b' hb').1
    have hk : (q, id') ≠ (b.provider, id) := fun hx => hne (Prod.mk.inj hx).2
    unfold unclaimedIn
    rw [hid', lookup_insert_eq, if_neg hk]

/-- The part of a claim in the sums: what is newly claimed in its asset grows by its amount. -/
theorem newlyClaimed_mark {before : Store (Address × Nat) Bool} (h : RewardOk r)
    (hb : r.bucket.lookup id = some b) (hn : r.claimed.lookup (b.provider, id) = none)
    (h0 : before.lookup (b.provider, id) = none) (a : Address) :
    Store.total (newlyIn before (r.claimed.insert (b.provider, id) true) a) r.bucket =
      Store.total (newlyIn before r.claimed a) r.bucket + if b.asset = a then b.amount else 0 := by
  have hid := (h.bucket id b hb).1
  rw [total_update (f := newlyIn before r.claimed a) hb]
  · unfold newlyIn
    rw [hid, lookup_insert_eq]
    simp [hn, h0]
  · intro id' b' hb' hne
    have hid' := (h.bucket id' b' hb').1
    have hk : (b'.provider, id') ≠ (b.provider, id) := fun hx => hne (Prod.mk.inj hx).2
    unfold newlyIn
    rw [hid', lookup_insert_eq, if_neg hk]

/-! ## Deposits -/

/-- A balance after one of them was written. -/
theorem getProviderRewardBalance_insert (r : RewardStorage) (p q a a' : Address) (n : Int) :
    ((r.providerAssetBalance.insert (p, a) n).lookup (q, a')).getD 0 =
      if q = p ∧ a' = a then n else getProviderRewardBalance r q a' := by
  rw [lookup_insert_eq]
  by_cases h : q = p ∧ a' = a
  · obtain ⟨rfl, rfl⟩ := h; simp
  · rw [if_neg h, if_neg fun hx => h (Prod.mk.inj hx)]; rfl

theorem getAssetTotalDeposited_insert (r : RewardStorage) (a a' : Address) (n : Int) :
    ((r.assetTotalDeposited.insert a n).lookup a').getD 0 = if a' = a then n else getAssetTotalDeposited r a' := by
  rw [lookup_insert_eq]
  split <;> rfl

/-- The next id has no bucket yet. -/
theorem RewardOk.fresh (h : RewardOk r) : r.bucket.lookup r.bucketCounter = none := by
  cases hl : r.bucket.lookup r.bucketCounter with
  | none => rfl
  | some b => exact absurd (h.bucket _ b hl).2.1 (Nat.lt_irrefl _)

theorem RewardOk.unclaimed (h : RewardOk r) (q : Address) : r.claimed.lookup (q, r.bucketCounter) = none := by
  cases hl : r.claimed.lookup (q, r.bucketCounter) with
  | none => rfl
  | some x =>
    obtain ⟨b, hb, -⟩ := h.claimed q r.bucketCounter (by rw [hl]; rfl)
    rw [h.fresh] at hb
    cases hb

theorem RewardOk.bucketTotal_deposited (h : RewardOk r) (amount : Int) (epoch : Nat) (a : Address) :
    bucketTotal (RewardStorage.deposited r provider asset amount epoch) a =
      bucketTotal r a + if asset = a then amount else 0 := by
  simp only [bucketTotal, RewardStorage.deposited]
  rw [total_insert, part_none h.fresh]
  simp [amountIn]

theorem RewardOk.unclaimedTotal_deposited (h : RewardOk r) (amount : Int) (epoch : Nat) (q a : Address) :
    unclaimedTotal (RewardStorage.deposited r provider asset amount epoch) q a =
      unclaimedTotal r q a + if q = provider ∧ a = asset then amount else 0 := by
  simp only [unclaimedTotal, RewardStorage.deposited]
  rw [total_insert, part_none h.fresh]
  simp [unclaimedIn, h.unclaimed, eq_comm]

/-- A new bucket gets a fresh id and is counted exactly, as long as its asset stays in range. -/
theorem RewardOk.deposited {amount : Int} {epoch : Nat} (h : RewardOk r)
    (hlt : r.bucketCounter < u64Max) (hpos : 0 < amount)
    (hb : ∀ a, bucketTotal (RewardStorage.deposited r provider asset amount epoch) a ≤ i128Max) :
    RewardOk (RewardStorage.deposited r provider asset amount epoch) := by
  have hcount : u64Add r.bucketCounter 1 = r.bucketCounter + 1 := u64Add_one hlt
  refine ⟨?_, ?_, ?_, ?_, hb⟩
  · intro id b hl
    simp only [RewardStorage.deposited, lookup_insert_eq, hcount] at hl ⊢
    split at hl
    · rename_i heq
      cases hl
      exact ⟨heq.symm, by omega, hpos⟩
    · obtain ⟨h1, h2, h3⟩ := h.bucket id b hl
      exact ⟨h1, by omega, h3⟩
  · intro q id hl
    obtain ⟨b, hb, hp⟩ := h.claimed q id hl
    refine ⟨b, ?_, hp⟩
    simp only [RewardStorage.deposited, lookup_insert_eq]
    rw [if_neg, hb]
    rintro rfl
    rw [h.fresh] at hb
    cases hb
  · intro q a
    change ((r.providerAssetBalance.insert _ _).lookup _).getD 0 = _
    rw [h.unclaimedTotal_deposited, getProviderRewardBalance_insert]
    split
    · rename_i hx
      obtain ⟨rfl, rfl⟩ := hx
      have hu := h.unclaimed_bounds q a
      have hba := hb a
      rw [h.bucketTotal_deposited, if_pos rfl] at hba
      rw [h.balances, saturatingAdd_part hu.1 (Int.le_of_lt hpos) (by omega)]
    · rw [h.balances, Int.add_zero]
  · intro a
    change ((r.assetTotalDeposited.insert _ _).lookup _).getD 0 = _
    rw [h.bucketTotal_deposited, getAssetTotalDeposited_insert]
    split
    · rename_i heq
      subst heq
      have hba := hb a
      rw [h.bucketTotal_deposited, if_pos rfl] at hba
      have h0 := h.unclaimed_bounds provider a
      rw [if_pos rfl, h.totals, saturatingAdd_part (by omega) (Int.le_of_lt hpos) hba]
    · rename_i hne
      rw [if_neg (Ne.symm hne), h.totals, Int.add_zero]

end Sums

/-! ## Claims -/

/-- The sum of the totals of `asset`. -/
def sumIn (asset : Address) (totals : List (Address × Int)) : Int :=
  (totals.map fun e => if e.1 = asset then e.2 else 0).sum

theorem sumIn_cons (asset : Address) (e : Address × Int) (totals : List (Address × Int)) :
    sumIn asset (e :: totals) = (if e.1 = asset then e.2 else 0) + sumIn asset totals := by
  simp [sumIn]

theorem sumIn_nonneg {totals : List (Address × Int)} (h : ∀ e ∈ totals, 0 < e.2)
    (asset : Address) : 0 ≤ sumIn asset totals := by
  apply sum_nonneg
  intro x hx
  obtain ⟨e, he, rfl⟩ := List.mem_map.mp hx
  have := h e he
  split <;> omega

/-- An amount that is accumulated is counted exactly, as long as the sum is in range. -/
theorem accumulate_sum {totals : List (Address × Int)} {asset : Address} {amount : Int}
    (h : ∀ e ∈ totals, 0 < e.2) (hpos : 0 < amount) (hb : sumIn asset totals + amount ≤ i128Max) :
    (∀ e ∈ accumulate totals asset amount, 0 < e.2) ∧
      ∀ a, sumIn a (accumulate totals asset amount) = sumIn a totals + if asset = a then amount else 0 := by
  induction totals with
  | nil => simp [accumulate, hpos, sumIn]
  | cons e rest ih =>
    obtain ⟨x, cur⟩ := e
    have hcur : 0 < cur := h (x, cur) (mem_cons_self ..)
    have hrest : ∀ e ∈ rest, 0 < e.2 := fun e he => h e (mem_cons_of_mem _ he)
    rw [sumIn_cons] at hb
    by_cases hx : x = asset
    · subst hx
      have h0 := sumIn_nonneg hrest x
      rw [if_pos rfl] at hb
      have hadd : saturatingAdd cur amount = cur + amount :=
        saturatingAdd_part (Int.le_of_lt hcur) (Int.le_of_lt hpos) (by omega)
      simp only [accumulate, if_pos, hadd]
      refine ⟨?_, fun a => ?_⟩
      · intro e he
        rcases List.mem_cons.mp he with rfl | he
        · exact Int.add_pos hcur hpos
        · exact hrest e he
      · rw [sumIn_cons, sumIn_cons]
        split <;> omega
    · simp [hx] at hb
      obtain ⟨h1, h2⟩ := ih hrest hb
      simp only [accumulate, if_neg hx]
      refine ⟨?_, fun a => ?_⟩
      · intro e he
        rcases List.mem_cons.mp he with rfl | he
        · exact hcur
        · exact h1 e he
      · rw [sumIn_cons, sumIn_cons, h2]
        omega

/-- What the claim loop of `provider` keeps, when it starts with the storage `r₀`. -/
structure Claiming (provider : Address) (r₀ : RewardStorage)
    (st : RewardStorage × List (Address × Int)) : Prop where
  ok : RewardOk st.1
  bucket : st.1.bucket = r₀.bucket
  kept : ∀ k, (r₀.claimed.lookup k).isSome = true → (st.1.claimed.lookup k).isSome = true
  own : ∀ p id, r₀.claimed.lookup (p, id) = none → (st.1.claimed.lookup (p, id)).isSome = true → p = provider
  positive : ∀ e ∈ st.2, 0 < e.2
  paid : ∀ asset, sumIn asset st.2 = newlyClaimedTotal r₀ st.1 asset

section Claims

variable {r r₀ : RewardStorage} {provider : Address} {b : RewardBucket} {bid : Nat}
  {totals : List (Address × Int)}

/-- The books after the bucket `b` was claimed. -/
theorem RewardOk.mark (h : RewardOk r) (hb : r.bucket.lookup bid = some b)
    (hn : r.claimed.lookup (b.provider, bid) = none) :
    RewardOk { r with
      claimed := r.claimed.insert (b.provider, bid) true
      providerAssetBalance := r.providerAssetBalance.insert (b.provider, b.asset)
        (saturatingSub (getProviderRewardBalance r b.provider b.asset) b.amount) } := by
  have hpos := (h.bucket bid b hb).2.2
  refine ⟨h.bucket, ?_, ?_, h.totals, h.bounded⟩
  · intro q id hq
    rw [lookup_insert_eq] at hq
    split at hq
    · rename_i heq
      cases heq
      exact ⟨b, hb, rfl⟩
    · exact h.claimed q id hq
  · intro q a
    have hsum := unclaimedTotal_mark h hb hn q a
    change ((r.providerAssetBalance.insert _ _).lookup _).getD 0 = Store.total _ r.bucket
    rw [hsum, getProviderRewardBalance_insert]
    split
    · rename_i hx
      obtain ⟨rfl, rfl⟩ := hx
      -- the bucket is part of the balance, so the subtraction is exact
      have hu := h.unclaimed_bounds b.provider b.asset
      have hle : b.amount ≤ unclaimedTotal r b.provider b.asset := by
        have hp := part_le_total (f := unclaimedIn r.claimed b.provider b.asset)
          (s := r.bucket) (fun id b' hb' => by
            have := (h.bucket id b' hb').2.2
            simp only [unclaimedIn]
            split <;> omega) bid
        rw [part_some hb, unclaimedIn, (h.bucket bid b hb).1, if_pos ⟨rfl, rfl, hn⟩] at hp
        exact hp
      have hbound := h.bounded b.asset
      rw [h.balances, saturatingSub_part (Int.le_of_lt hpos) hle (by omega)]
    · rw [h.balances, Int.sub_zero]

/-- One round of the claim loop. -/
theorem Claiming.round {st : RewardStorage × List (Address × Int)} (h : Claiming provider r₀ st)
    (bid : Nat) : Claiming provider r₀ (claimBucket provider st bid) := by
  unfold claimBucket
  split
  · exact h
  · rename_i hn
    have hn : st.1.claimed.lookup (provider, bid) = none := by simpa using hn
    split
    · exact h
    · rename_i b hb
      split
      · exact h
      · rename_i hp
        have hp : b.provider = provider := not_not.mp hp
        subst hp
        split
        · exact h
        · -- what was claimed before the call is still claimed, so this bucket was not
          have hn₀ : r₀.claimed.lookup (b.provider, bid) = none := by
            cases hl : r₀.claimed.lookup (b.provider, bid) with
            | none => rfl
            | some x =>
              have := h.kept (b.provider, bid) (by rw [hl]; rfl)
              rw [hn] at this
              cases this
          have hok := h.ok.mark hb hn
          have hnew : ∀ a, Store.total (newlyIn r₀.claimed
              (st.1.claimed.insert (b.provider, bid) true) a) st.1.bucket =
              sumIn a st.2 + if b.asset = a then b.amount else 0 := by
            intro a
            rw [newlyClaimed_mark h.ok hb hn hn₀, h.paid, newlyClaimedTotal, h.bucket]
          have hle : sumIn b.asset st.2 + b.amount ≤ i128Max := by
            have h1 := h.ok.newly_le r₀.claimed (st.1.claimed.insert (b.provider, bid) true) b.asset
            have h2 := h.ok.bounded b.asset
            rw [hnew, if_pos rfl] at h1
            omega
          obtain ⟨hpos, hsum⟩ := accumulate_sum h.positive (h.ok.bucket bid b hb).2.2 hle
          refine ⟨hok, h.bucket, ?_, ?_, hpos, fun a => ?_⟩
          · intro k hk
            rw [lookup_insert_eq]
            split
            · rfl
            · exact h.kept k hk
          · intro p id h0 hp
            rw [lookup_insert_eq] at hp
            split at hp
            · rename_i heq
              exact (Prod.mk.inj heq).1
            · exact h.own p id h0 hp
          · rw [hsum, ← hnew, newlyClaimedTotal, h.bucket]

theorem Claiming.rounds (st : RewardStorage × List (Address × Int)) (h : Claiming provider r₀ st)
    (ids : List Nat) : Claiming provider r₀ (ids.foldl (claimBucket provider) st) := by
  induction ids generalizing st with
  | nil => exact h
  | cons bid ids ih => exact ih _ (h.round bid)

theorem RewardOk.claimBuckets (h : RewardOk r) (provider : Address) (ids : List Nat) :
    Claiming provider r (claimBuckets provider r ids) := by
  refine Claiming.rounds (r, []) ⟨h, rfl, fun _ hk => hk, ?_, ?_, ?_⟩ ids
  · intro p id h0 h1
    rw [h0] at h1
    cases h1
  · intro e he; cases he
  · intro a
    refine (total_eq_zero fun id b hb => ?_).symm
    simp only [newlyIn]
    rw [if_neg]
    rintro ⟨-, h1, h2⟩
    rw [h1] at h2
    cases h2

end Claims

/-- A claim never clears a flag and leaves the counter. -/
theorem claimBuckets_frame (provider : Address) (r : RewardStorage) (ids : List Nat) :
    (claimBuckets provider r ids).1.bucketCounter = r.bucketCounter ∧
      ∀ k, (r.claimed.lookup k).isSome = true → ((claimBuckets provider r ids).1.claimed.lookup k).isSome = true := by
  refine Reaches.foldl_rule (P := fun st : RewardStorage × List (Address × Int) =>
    st.1.bucketCounter = r.bucketCounter ∧
      ∀ k, (r.claimed.lookup k).isSome = true → (st.1.claimed.lookup k).isSome = true) ?_
    ⟨rfl, fun _ hk => hk⟩
  rintro ⟨st, bid⟩ - ⟨hc, hk⟩
  simp only [claimBucket]
  split
  · exact ⟨hc, hk⟩
  · split
    · exact ⟨hc, hk⟩
    · split
      · exact ⟨hc, hk⟩
      · split
        · exact ⟨hc, hk⟩
        · refine ⟨hc, fun k hs => ?_⟩
          rw [lookup_insert_eq]
          split
          · rfl
          · exact hk k hs

/-! ## Runs -/

/-- What a call may do to the books of the reward vault. -/
inductive RewardEffect (r : RewardStorage) : RewardStorage → Prop
  | same : RewardEffect r r
  | asset (asset : Address) : RewardEffect r (RewardStorage.addSupportedAsset r asset)
  | deposit {provider asset : Address} {amount : Int} {epoch : Nat} (hpos : 0 < amount) :
      RewardEffect r (RewardStorage.deposited r provider asset amount epoch)
  | claim (provider : Address) (ids : List Nat) : RewardEffect r (claimBuckets provider r ids).1

section Runs

variable {T : Tokens τ} {self : Address} {w w' : World τ} {r r' : RewardStorage}

theorem invoke_reward (env : Env τ) (c : Call) (w : World τ) :
    RewardEffect w.store.reward ((invoke env c).exec w).store.reward := by
  by_cases hf : .reward ∈ c.footprint
  · rcases Tx.exec_cases (invoke env c) w with ⟨u, h⟩ | h
    · generalize (invoke env c).exec w = w' at h
      cases c <;> simp [Call.footprint] at hf
      case addRewardAsset asset =>
        rw [addRewardAsset_ok h]
        exact .asset asset
      case depositReward =>
        obtain ⟨n, hn⟩ := Tx.void_ok.mp h
        obtain ⟨-, -, -, hpos, ⟨t, -, rfl⟩, -⟩ := depositReward_ok.mp hn
        exact .deposit hpos
      case batchClaimRewards provider ids =>
        obtain ⟨results, hr⟩ := Tx.void_ok.mp h
        rw [(payAssets_ok (batchClaimRewards_ok hr).2).1]
        exact .claim provider ids
    · rw [h]; exact .same
  · rw [((invoke_writes env c).exec w).reward hf]
    exact .same

theorem step_reward {ev : Event τ} (h : Step T self w ev w') :
    RewardEffect w.store.reward w'.store.reward := by
  obtain ⟨-, rfl⟩ := h
  cases ev with
  | call auth c => exact invoke_reward ⟨T, self, auth⟩ c w
  | advance | external => exact .same

theorem RewardStorage.addSupportedAsset_books (r : RewardStorage) (asset : Address) :
    ∃ assets, RewardStorage.addSupportedAsset r asset = { r with supportedAssets := assets } := by
  unfold RewardStorage.addSupportedAsset
  split
  · exact ⟨r.supportedAssets, rfl⟩
  · exact ⟨_, rfl⟩

/-- No flag is cleared and no id is given back. -/
theorem RewardEffect.frame (h : RewardEffect r r') :
    (∀ k, (r.claimed.lookup k).isSome = true → (r'.claimed.lookup k).isSome = true) ∧
      (r'.bucketCounter < u64Max → r.bucketCounter < u64Max) := by
  cases h with
  | same => exact ⟨fun _ hk => hk, id⟩
  | asset asset =>
    obtain ⟨assets, he⟩ := RewardStorage.addSupportedAsset_books r asset
    rw [he]
    exact ⟨fun _ hk => hk, id⟩
  | deposit =>
    refine ⟨fun _ hk => hk, fun hlt => ?_⟩
    by_contra hge
    have hmax : u64Max ≤ u64Add r.bucketCounter 1 :=
      Nat.le_min.mpr ⟨Nat.le_succ_of_le (Nat.not_lt.mp hge), Nat.le_refl _⟩
    exact absurd hlt (Nat.not_lt.mpr hmax)
  | claim provider ids =>
    obtain ⟨hc, hk⟩ := claimBuckets_frame provider r ids
    exact ⟨hk, fun hlt => hc ▸ hlt⟩

/-- Every call keeps the books in order, as long as the ids last and the sums are in range. -/
theorem RewardOk.effect (h : RewardOk r) (he : RewardEffect r r')
    (hc : r.bucketCounter < u64Max) (hb : ∀ asset, bucketTotal r' asset ≤ i128Max) :
    RewardOk r' := by
  cases he with
  | same => exact h
  | asset asset =>
    obtain ⟨assets, he⟩ := RewardStorage.addSupportedAsset_books r asset
    rw [he]
    exact ⟨h.bucket, h.claimed, h.balances, h.totals, h.bounded⟩
  | deposit hpos => exact h.deposited hc hpos hb
  | claim provider ids => exact (h.claimBuckets provider ids).ok

/-- A step after which the sum of the buckets of every asset is in range. -/
def BoundedStep (T : Tokens τ) (self : Address) (w : World τ) (ev : Event τ) (w' : World τ) : Prop :=
  Step T self w ev w' ∧ ∀ asset, bucketTotal w'.store.reward asset ≤ i128Max

theorem rewardOk_deployed : RewardOk Storage.deployed.reward := by
  refine ⟨?_, ?_, ?_, ?_, ?_⟩
  · intro id b hb; cases hb
  · intro p id hp; cases hp
  · intro p a; rfl
  · intro a; rfl
  · intro a; exact (by decide : (0 : Int) ≤ i128Max)

theorem rewardOk_of_bounded {ledger : Ledger} {token : τ}
    (h : Reaches (BoundedStep T self) (World.deployed ledger token) w)
    (hc : w.store.reward.bucketCounter < u64Max) : RewardOk w.store.reward := by
  refine h.invariant
    (I := fun w => w.store.reward.bucketCounter < u64Max → RewardOk w.store.reward)
    (fun _ => rewardOk_deployed) ?_ hc
  rintro a ev b ha ⟨hs, hb⟩ hlt
  have hlt' := (step_reward hs).frame.2 hlt
  exact (ha hlt').effect (step_reward hs) hlt' hb

theorem claimed_of_reaches (h : Reaches (Step T self) w w') :
    ∀ k, (w.store.reward.claimed.lookup k).isSome = true → (w'.store.reward.claimed.lookup k).isSome = true := by
  refine h.invariant (I := fun w' => ∀ k, (w.store.reward.claimed.lookup k).isSome = true →
    (w'.store.reward.claimed.lookup k).isSome = true) (fun _ hk => hk) ?_
  intro a ev b ha hs k hk
  exact (step_reward hs).frame.1 k (ha k hk)

/-- The transfers of a payout move the totals. -/
theorem paidIn_transfers {src dst : Address} (totals : List (Address × Int)) (asset : Address) :
    paidIn asset (totals.map fun p => LogEntry.transfer p.1 src dst p.2).reverse = sumIn asset totals := by
  unfold paidIn sumIn
  rw [map_reverse, sum_reverse, map_map]
  rfl

/-- In every run in which the sum of the buckets of every asset stays in range, until the bucket
counter is at its end: the balance of a provider in an asset is the sum of its unclaimed buckets, the
total of an asset is the sum of its buckets, a claimed bucket stays claimed, and a claim marks only
buckets of its provider and pays them to it, in every asset precisely those that it newly marks. -/
theorem reward_accounting {ledger : Ledger} {token : τ}
    (h : Reaches (BoundedStep T self) (World.deployed ledger token) w)
    (hc : w.store.reward.bucketCounter < u64Max) :
    (∀ provider asset, getProviderRewardBalance w.store.reward provider asset =
      unclaimedTotal w.store.reward provider asset) ∧
    (∀ asset, getAssetTotalDeposited w.store.reward asset = bucketTotal w.store.reward asset) ∧
    (∀ w₁, Reaches (Step T self) w w₁ → ∀ k,
      (w.store.reward.claimed.lookup k).isSome = true → (w₁.store.reward.claimed.lookup k).isSome = true) ∧
    ∀ auth provider ids results w',
      batchClaimRewards ⟨T, self, auth⟩ provider ids w = (.ok results, w') →
      (∀ p id, w.store.reward.claimed.lookup (p, id) = none →
        (w'.store.reward.claimed.lookup (p, id)).isSome = true →
        p = provider ∧ ∃ b, w.store.reward.bucket.lookup id = some b ∧ b.provider = provider) ∧
      ∃ paid, w'.log = paid ++ w.log ∧
        (∀ e ∈ paid, ∃ asset amount, e = .transfer asset self provider amount) ∧
        ∀ asset, paidIn asset paid = newlyClaimedTotal w.store.reward w'.store.reward asset := by
  have hok := rewardOk_of_bounded h hc
  refine ⟨hok.balances, hok.totals, fun w₁ hr => claimed_of_reaches hr, ?_⟩
  intro auth provider ids results w' hcl
  obtain ⟨hstore, hres, hlog⟩ := payAssets_ok (batchClaimRewards_ok hcl).2
  have hclaim := hok.claimBuckets provider ids
  have hall : results = (claimBuckets provider w.store.reward ids).2 := by
    rw [hres, filter_eq_self]
    intro e he
    simpa using hclaim.positive e he
  have hreward : w'.store.reward = (claimBuckets provider w.store.reward ids).1 := by rw [hstore]
  refine ⟨?_, _, hlog, ?_, fun asset => ?_⟩
  · intro p id h0 h1
    rw [hreward] at h1
    obtain ⟨b, hb, hbp⟩ := hclaim.ok.claimed p id h1
    obtain rfl := hclaim.own p id h0 h1
    rw [hclaim.bucket] at hb
    exact ⟨rfl, b, hb, hbp⟩
  · intro e he
    obtain ⟨p, -, rfl⟩ := List.mem_map.mp (List.mem_reverse.mp he)
    exact ⟨p.1, p.2, rfl⟩
  · rw [paidIn_transfers, hall, hreward, hclaim.paid]

end Runs

/-- The sum over an asset is at most the sum over all of them. -/
theorem bucketTotal_le (r : RewardStorage) (asset : Address) :
    bucketTotal r asset ≤ Store.total (fun b => max b.amount 0) r.bucket := by
  refine total_mono fun id b _ => ?_
  simp only [amountIn]
  split <;> omega

theorem bounded_run {T : Tokens τ} {self : Address} {w : World τ} {evs : List (Event τ)}
    (h : Reaches.Along (next T self) (fun w ev => Allowed self w ev ∧
      Store.total (fun b => max b.amount 0) (next T self w ev).store.reward.bucket ≤ i128Max) w
      evs) : Reaches (BoundedStep T self) w (run T self w evs) := by
  refine (Reaches.of_along h).mono ?_
  rintro a ev b ⟨⟨h1, h2⟩, rfl⟩
  exact ⟨⟨h1, rfl⟩, fun asset => Int.le_trans (bucketTotal_le _ asset) h2⟩

open Sample in
/-- `alice` deposits two rewards for `bob`, who claims one of them twice and one that is not there. -/
def rewarded : List (Event Unit) :=
  [call (.initializeVault admin stakeToken registry), call (.addRewardAsset stakeToken),
    call (.depositReward alice bob stakeToken 5 0), call (.depositReward alice bob stakeToken 7 0),
    call (.batchClaimRewards bob [0, 0, 9])]

open Sample in
/-- The bucket covers what is not claimed yet. -/
theorem reward_accounting_claimed :
    unclaimedTotal (run freeTokens vault (World.deployed ⟨0, 0⟩ ()) rewarded).store.reward bob
        stakeToken = 7 ∧
      bucketTotal (run freeTokens vault (World.deployed ⟨0, 0⟩ ()) rewarded).store.reward
        stakeToken = 12 := by
  have hreach : Reaches (BoundedStep freeTokens vault) (World.deployed ⟨0, 0⟩ ())
      (run freeTokens vault (World.deployed ⟨0, 0⟩ ()) rewarded) := bounded_run (by decide +kernel)
  obtain ⟨h1, h2, -⟩ := reward_accounting hreach (by decide +kernel)
  exact ⟨(h1 bob stakeToken).symm.trans (by decide +kernel), (h2 stakeToken).symm.trans (by decide +kernel)⟩

/-! ## The last bucket -/

namespace LastBucket

open Sample

/-- `n` rewards of one unit were deposited. -/
structure Stocked (n : Nat) (w : World Unit) : Prop where
  reaches : Reaches (BoundedStep freeTokens vault) (World.deployed ⟨0, 0⟩ ()) w
  counter : w.store.reward.bucketCounter = min n u64Max
  unused : ∀ id, n ≤ id → w.store.reward.bucket.lookup id = none
  supported : isSupported w.store.reward stakeToken = true
  paused : w.store.config.paused = false
  total : ∀ asset, bucketTotal w.store.reward asset = if asset = stakeToken then (n : Int) else 0
  stored : getAssetTotalDeposited w.store.reward stakeToken = n

/-- One more reward of one unit. -/
def reward (w : World Unit) : World Unit :=
  { w with
    store.reward := RewardStorage.deposited w.store.reward bob stakeToken 1 0
    log := .transfer stakeToken alice vault 1 :: w.log }

theorem bucketTotal_reward (w : World Unit) (asset : Address) :
    bucketTotal (reward w).store.reward asset = bucketTotal w.store.reward asset -
      Store.part (amountIn asset) w.store.reward.bucket w.store.reward.bucketCounter +
      if asset = stakeToken then 1 else 0 := by
  simp only [bucketTotal, reward, RewardStorage.deposited]
  rw [total_insert]
  simp [amountIn, eq_comm]

section Stocked

variable {n : Nat} {w : World Unit}

theorem reward_step (hs : isSupported w.store.reward stakeToken = true)
    (hp : w.store.config.paused = false)
    (hb : ∀ asset, bucketTotal (reward w).store.reward asset ≤ i128Max) :
    BoundedStep freeTokens vault w (call (.depositReward alice bob stakeToken 1 0)) (reward w) := by
  refine ⟨⟨rfl, (Tx.exec_of_ok (a := ()) (Tx.void_ok.mpr
    ⟨w.store.reward.bucketCounter, depositReward_ok.mpr ?_⟩)).symm⟩, hb⟩
  exact ⟨by decide, hp, hs, by decide, ⟨(), rfl, rfl⟩, rfl⟩

theorem Stocked.succ (h : Stocked n w) (hn : n ≤ u64Max) : Stocked (n + 1) (reward w) := by
  have hcount : w.store.reward.bucketCounter = n := h.counter.trans (Nat.min_eq_left hn)
  have hfresh := h.unused n (Nat.le_refl n)
  have hmax : (u64Max : Int) + 1 ≤ i128Max := by decide
  have htotal : ∀ asset, bucketTotal (reward w).store.reward asset =
      if asset = stakeToken then ((n + 1 : Nat) : Int) else 0 := by
    intro asset
    rw [bucketTotal_reward, hcount, part_none hfresh, h.total]
    split <;> simp
  have hbound : ∀ asset, bucketTotal (reward w).store.reward asset ≤ i128Max := by
    intro asset
    rw [htotal]
    split <;> omega
  refine ⟨h.reaches.tail (reward_step h.supported h.paused hbound), ?_, ?_, h.supported, h.paused, htotal, ?_⟩
  · change u64Add w.store.reward.bucketCounter 1 = _
    rw [hcount]
    rfl
  · intro id hid
    change (w.store.reward.bucket.insert _ _).lookup id = none
    rw [lookup_insert_eq, hcount, if_neg (by omega)]
    exact h.unused id (by omega)
  · change ((w.store.reward.assetTotalDeposited.insert _ _).lookup _).getD 0 = _
    rw [getAssetTotalDeposited_insert, if_pos rfl, h.stored,
      saturatingAdd_part (Int.natCast_nonneg n) (by decide) (by omega)]
    simp

theorem exists_stocked (n : Nat) (hn : n ≤ u64Max + 1) : ∃ w, Stocked n w := by
  induction n with
  | zero =>
    refine ⟨started freeTokens () [call (.addRewardAsset stakeToken)],
      bounded_run (by decide +kernel), by decide +kernel, ?_, by decide +kernel,
      by decide +kernel, ?_, by decide +kernel⟩
    · intro id _; rfl
    · intro asset
      change (0 : Int) = _
      simp
  | succ n ih =>
    obtain ⟨w, hw⟩ := ih (Nat.le_of_succ_le hn)
    exact ⟨reward w, hw.succ (Nat.le_of_succ_le_succ hn)⟩

end Stocked

end LastBucket

open Sample LastBucket in
/-- After the last id a deposit is counted in the total of its asset but takes the place of another
bucket. -/
theorem last_bucket_is_overwritten :
    ¬ ∀ w : World Unit, Reaches (BoundedStep freeTokens vault) (World.deployed ⟨0, 0⟩ ()) w →
      ∀ asset, getAssetTotalDeposited w.store.reward asset = bucketTotal w.store.reward asset := by
  intro h
  obtain ⟨w, hw⟩ := exists_stocked u64Max (Nat.le_succ _)
  have hw₁ := hw.succ (Nat.le_refl _)
  have hcount : w.store.reward.bucketCounter = u64Max := hw.counter.trans (Nat.min_self _)
  have hcount₁ : (reward w).store.reward.bucketCounter = u64Max := by
    change u64Add w.store.reward.bucketCounter 1 = _
    rw [hcount, u64Add_max]
  -- the bucket of the last deposit is the one that the next one replaces
  have hpart : ∀ asset, Store.part (amountIn asset) (reward w).store.reward.bucket u64Max =
      if asset = stakeToken then 1 else 0 := by
    intro asset
    change Store.part _ (w.store.reward.bucket.insert w.store.reward.bucketCounter _) _ = _
    rw [hcount, part_some (AList.lookup_insert _)]
    simp [amountIn, eq_comm]
  have htotal : ∀ asset, bucketTotal (reward (reward w)).store.reward asset =
      if asset = stakeToken then ((u64Max + 1 : Nat) : Int) else 0 := by
    intro asset
    rw [bucketTotal_reward, hcount₁, hpart, hw₁.total, Int.sub_add_cancel]
  have hbound : ∀ asset, bucketTotal (reward (reward w)).store.reward asset ≤ i128Max := by
    intro asset
    rw [htotal]
    split <;> decide
  have heq := h _ (hw₁.reaches.tail (reward_step hw₁.supported hw₁.paused hbound)) stakeToken
  rw [htotal, if_pos rfl] at heq
  have hstored : getAssetTotalDeposited (reward (reward w)).store.reward stakeToken =
      ((u64Max + 1 : Nat) : Int) + 1 := by
    change (((reward w).store.reward.assetTotalDeposited.insert _ _).lookup _).getD 0 = _
    rw [getAssetTotalDeposited_insert, if_pos rfl, hw₁.stored]
    decide
  rw [hstored] at heq
  exact absurd heq (by decide)

end RewardVault

end CallStake.StakeVault
