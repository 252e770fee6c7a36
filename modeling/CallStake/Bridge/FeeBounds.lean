import CallStake.Bridge.Fees

/-!
# The pool of collected fees, and the fee that is charged

Fees are collected, paid out to the validators and the treasury, and refunded, in any order, while other modules
change the transfers, the validators and the treasury as they like.

* `Sound`: no fee is refunded twice, and no more is paid out than was collected.
* `Pool`: what collecting and paying keep without a condition. `sound_of_reaches`: so runs whose refunds are
  refundable are sound.

A fee is estimated for a destination chain with the multiplier of the chain, and charged without it. Nothing keeps
the smallest fee of a bridge below the amount of a transfer.

* `Charged`: an estimate is what the transfer is charged, and no more than its amount.
* `Fits`: a fee that the multiplier leaves as it is, of no more than the amount, and that can be counted.
* `BridgeFeeConfig.Every`, `bounded_iff`: which of three values the fee is.
* `charged_iff`: when estimates are charged.
-/

namespace CallStake.BridgeFees

/-! ## Runs -/

/-- The storage, with the refunds so far. -/
structure FeeRun where
  storage : Storage
  /-- The transfers of the bridge whose fee was refunded, the last one first. -/
  refunded : List Nat

def FeeRun.start (s : Storage) : FeeRun := ⟨s, []⟩

/-- What happens to the fee pool, and what happens elsewhere. -/
inductive Event where
  | collect (transferId : Nat) (amount : Int)
  | distribute (bridgeId : Nat)
  | allocate (bridgeId : Nat)
  | refund (transferId : Nat)
  | elsewhere (transfers : Store Nat BridgeTransfer) (validators : Store Nat (List Address))
      (treasuries : Store Nat Address)

/-- Whether a call returns. -/
def returns {α : Type} (x : F α) (s : Storage) : Bool :=
  match (x s).1 with
  | .ok _ => true
  | .error _ => false

def Storage.ofBridge (s : Storage) (bridgeId transferId : Nat) : Bool :=
  match s.bridgeTransfer.lookup transferId with
  | some transfer => transfer.bridgeId == bridgeId
  | none => false

/-- One call, as a transaction. The run remembers whose fee was refunded, which the contract does not. -/
def FeeRun.next (bridgeId : Nat) (r : FeeRun) : Event → FeeRun
  | .collect transferId amount => { r with storage := (collectBridgeFee transferId amount).exec r.storage }
  | .distribute b => { r with storage := (distributeValidatorRewards b).exec r.storage }
  | .allocate b => { r with storage := (allocateToTreasury b).exec r.storage }
  | .refund transferId =>
    { storage := (refundBridgeFee transferId).exec r.storage
      refunded := if r.storage.ofBridge bridgeId transferId && returns (refundBridgeFee transferId) r.storage then
        transferId :: r.refunded else r.refunded }
  | .elsewhere transfers validators treasuries =>
    { r with storage := { r.storage with
      bridgeTransfer := transfers, validators, treasuryTarget := treasuries } }

/-- What the pool of a bridge should be like. -/
structure Sound (bridgeId : Nat) (r : FeeRun) : Prop where
  once : r.refunded.Nodup
  nonneg : 0 ≤ (r.storage.stats bridgeId).totalFeesCollected
  paid : (r.storage.stats bridgeId).feesDistributedValidators + (r.storage.stats bridgeId).feesToTreasury ≤
    (r.storage.stats bridgeId).totalFeesCollected

/-- The pool is enough for the shares of the validators and the treasury. -/
def BridgeFeeConfig.CoveredBy (config : BridgeFeeConfig) (stats : BridgeFeeStats) (total : Int) : Prop :=
  Covers (tenThousandths config.validatorRewardPct) (tenThousandths config.treasuryPct) total
    stats.feesDistributedValidators stats.feesToTreasury

instance (config : BridgeFeeConfig) (stats : BridgeFeeStats) (total : Int) :
    Decidable (config.CoveredBy stats total) := inferInstanceAs (Decidable (_ ≤ _))

/-- A refund of a failed transfer of the bridge is its first one, and of no more than the shares leave. -/
def Refundable (bridgeId : Nat) (r : FeeRun) (ev : Event) : Prop :=
  ∀ transferId transfer config, ev = .refund transferId →
    r.storage.bridgeTransfer.lookup transferId = some transfer → transfer.bridgeId = bridgeId →
    transfer.status = .failed → r.storage.feeConfig.lookup bridgeId = some config →
    transferId ∉ r.refunded ∧ config.CoveredBy (r.storage.stats bridgeId)
      ((r.storage.stats bridgeId).totalFeesCollected - transfer.feePaid)

/-! ## One call -/

/-- The configuration is stored, nothing that was paid is negative, and the pool is enough for the shares. -/
structure Pool (bridgeId : Nat) (config : BridgeFeeConfig) (s : Storage) : Prop where
  stored : s.feeConfig.lookup bridgeId = some config
  validators : 0 ≤ (s.stats bridgeId).feesDistributedValidators
  treasury : 0 ≤ (s.stats bridgeId).feesToTreasury
  covered : config.CoveredBy (s.stats bridgeId) (s.stats bridgeId).totalFeesCollected

section Calls

variable {s s' : Storage} {bridgeId b transferId : Nat} {config : BridgeFeeConfig} {amount x : Int} {u : Unit}

theorem Pool.paid (h : Pool bridgeId config s) : (s.stats bridgeId).feesDistributedValidators +
    (s.stats bridgeId).feesToTreasury ≤ (s.stats bridgeId).totalFeesCollected := h.covered.le

theorem Pool.nonneg (h : Pool bridgeId config s) : 0 ≤ (s.stats bridgeId).totalFeesCollected :=
  (Int.add_nonneg h.validators h.treasury).trans h.paid

theorem stats_insert (s : Storage) (b : Nat) (stats : BridgeFeeStats) (bridgeId : Nat) :
    Storage.stats { s with feeStats := s.feeStats.insert b stats } bridgeId =
      if bridgeId = b then stats else s.stats bridgeId := by
  unfold Storage.stats
  rw [Store.lookup_insert_eq]
  split <;> rfl

/-- The statistics of one bridge are replaced. -/
theorem Pool.insert (h : Pool bridgeId config s) (b : Nat) (stats : BridgeFeeStats)
    (hstats : bridgeId = b → 0 ≤ stats.feesDistributedValidators ∧ 0 ≤ stats.feesToTreasury ∧
      config.CoveredBy stats stats.totalFeesCollected) :
    Pool bridgeId config { s with feeStats := s.feeStats.insert b stats } := by
  by_cases hb : bridgeId = b
  · obtain ⟨hv, ht, hc⟩ := hstats hb
    have hnew : Storage.stats { s with feeStats := s.feeStats.insert b stats } bridgeId = stats := by
      rw [stats_insert, if_pos hb]
    exact ⟨h.stored, by rwa [hnew], by rwa [hnew], by rwa [hnew]⟩
  · have hold : Storage.stats { s with feeStats := s.feeStats.insert b stats } bridgeId = s.stats bridgeId := by
      rw [stats_insert, if_neg hb]
    exact ⟨h.stored, by rw [hold]; exact h.validators, by rw [hold]; exact h.treasury,
      by rw [hold]; exact h.covered⟩

theorem Pool.collect (h : Pool bridgeId config s) (hvalid : config.Valid)
    (hcall : collectBridgeFee transferId amount s = (.ok x, s')) : Pool bridgeId config s' := by
  obtain ⟨transfer, config', -, hc, -, -, -, -, rfl⟩ := collectBridgeFee_ok.mp hcall
  have hpool := h.insert transfer.bridgeId ((s.stats transfer.bridgeId).collect
    (config'.bounded ((amount * config'.baseFeeBps).tdiv 10000))) ?_
  · exact ⟨hpool.stored, hpool.validators, hpool.treasury, hpool.covered⟩
  · rintro rfl
    cases h.stored.symm.trans hc
    exact ⟨h.validators, h.treasury, h.covered.collect (targets_tenThousandths hvalid.shares) h.nonneg
      (hvalid.bounded_nonneg _)⟩

theorem Pool.distribute (h : Pool bridgeId config s)
    (hcall : distributeValidatorRewards b s = (.ok u, s')) : Pool bridgeId config s' := by
  obtain ⟨config', hc, -, -, hpay⟩ := distributeValidatorRewards_ok.mp hcall
  split at hpay
  · exact hpay ▸ h
  · rename_i hdue
    obtain ⟨-, -, -, -, rfl⟩ := payValidators_ok.mp hpay
    refine h.insert _ _ ?_
    rintro rfl
    cases h.stored.symm.trans hc
    have hfirst := Covers.first h.covered
    have hv := h.validators
    rw [max_eq_right (by omega)] at hfirst
    unfold BridgeFeeConfig.CoveredBy
    dsimp only
    rw [add_sub_cancel]
    exact ⟨by omega, h.treasury, hfirst⟩

theorem Pool.allocate (h : Pool bridgeId config s)
    (hcall : allocateToTreasury b s = (.ok u, s')) : Pool bridgeId config s' := by
  obtain ⟨config', hc, -, -, hpay⟩ := allocateToTreasury_ok.mp hcall
  split at hpay
  · exact hpay ▸ h
  · rename_i hdue
    obtain ⟨-, -, rfl⟩ := payTreasury_ok.mp hpay
    refine h.insert _ _ ?_
    rintro rfl
    cases h.stored.symm.trans hc
    have hsecond := Covers.second h.covered
    have ht := h.treasury
    rw [max_eq_right (by omega)] at hsecond
    unfold BridgeFeeConfig.CoveredBy
    dsimp only
    rw [add_sub_cancel]
    exact ⟨h.validators, by omega, hsecond⟩

theorem Pool.refund (h : Pool bridgeId config s) (hcall : refundBridgeFee transferId s = (.ok u, s'))
    (hcover : ∀ transfer, s.bridgeTransfer.lookup transferId = some transfer → transfer.bridgeId = bridgeId →
      transfer.status = .failed → config.CoveredBy (s.stats bridgeId)
        ((s.stats bridgeId).totalFeesCollected - transfer.feePaid)) : Pool bridgeId config s' := by
  obtain ⟨transfer, ht, hfailed, -, rfl⟩ := refundBridgeFee_ok.mp hcall
  refine h.insert _ _ ?_
  rintro rfl
  exact ⟨h.validators, h.treasury, hcover transfer ht rfl hfailed⟩

/-- A call that fails changes nothing. -/
theorem Pool.exec {α : Type} {x : F α} (h : Pool bridgeId config s)
    (hx : ∀ a, x s = (.ok a, x.exec s) → Pool bridgeId config (x.exec s)) : Pool bridgeId config (x.exec s) := by
  rcases Tx.exec_cases x s with ⟨a, hcall⟩ | hsame
  · exact hx a hcall
  · rwa [hsame]

end Calls

/-! ## Every run -/

section Runs

variable {bridgeId : Nat} {config : BridgeFeeConfig} {r r' : FeeRun} {ev : Event} {s : Storage}

/-- A transfer joins the refunded ones only if it is a failed one of the bridge. -/
theorem ofBridge_of_refunds {transferId : Nat}
    (h : (s.ofBridge bridgeId transferId && returns (refundBridgeFee transferId) s) = true) :
    ∃ transfer, s.bridgeTransfer.lookup transferId = some transfer ∧ transfer.bridgeId = bridgeId ∧
      transfer.status = .failed := by
  obtain ⟨hof, hret⟩ := Bool.and_eq_true_iff.mp h
  unfold returns at hret
  rcases hcall : refundBridgeFee transferId s with ⟨e | u, s'⟩
  · rw [hcall] at hret
    cases hret
  · obtain ⟨transfer, ht, hfailed, -, -⟩ := refundBridgeFee_ok.mp hcall
    unfold Storage.ofBridge at hof
    rw [ht] at hof
    exact ⟨transfer, ht, eq_of_beq hof, hfailed⟩

/-- One call keeps the pool, and refunds no fee again. -/
theorem pool_next (h : Pool bridgeId config r.storage) (hvalid : config.Valid) (honce : r.refunded.Nodup)
    (hev : Refundable bridgeId r ev) :
    Pool bridgeId config (r.next bridgeId ev).storage ∧ (r.next bridgeId ev).refunded.Nodup := by
  cases ev with
  | collect =>
    exact ⟨h.exec fun _ => h.collect hvalid, honce⟩
  | distribute =>
    exact ⟨h.exec fun _ => h.distribute, honce⟩
  | allocate =>
    exact ⟨h.exec fun _ => h.allocate, honce⟩
  | refund transferId =>
    constructor
    · refine h.exec fun _ hcall => h.refund hcall fun transfer ht hof hfailed => ?_
      exact (hev transferId transfer config rfl ht hof hfailed h.stored).2
    · change (if _ then _ else _ : List Nat).Nodup
      split
      · rename_i hrefunds
        obtain ⟨transfer, ht, hof, hfailed⟩ := ofBridge_of_refunds hrefunds
        exact List.nodup_cons.mpr ⟨(hev transferId transfer config rfl ht hof hfailed h.stored).1, honce⟩
      · exact honce
  | elsewhere => exact ⟨⟨h.stored, h.validators, h.treasury, h.covered⟩, honce⟩

theorem pool_start (hc : s.feeConfig.lookup bridgeId = some config) (hvalid : config.Valid)
    (hnew : s.feeStats.lookup bridgeId = none) : Pool bridgeId config s := by
  have hstats : s.stats bridgeId = ⟨0, 0, 0, 0, 0⟩ := by
    unfold Storage.stats
    rw [hnew]
    rfl
  refine ⟨hc, ?_, ?_, ?_⟩
  · rw [hstats]
  · rw [hstats]
  · rw [hstats]
    exact (targets_tenThousandths hvalid.shares).covers_zero

/-- In every run whose refunds are refundable no fee is refunded twice, and what was paid was collected. -/
theorem sound_of_reaches (hc : s.feeConfig.lookup bridgeId = some config) (hvalid : config.Valid)
    (hnew : s.feeStats.lookup bridgeId = none)
    (h : Reaches (fun a ev b => Refundable bridgeId a ev ∧ b = a.next bridgeId ev) (.start s) r) :
    Sound bridgeId r := by
  obtain ⟨hpool, honce⟩ := h.invariant (I := fun r => Pool bridgeId config r.storage ∧ r.refunded.Nodup)
    ⟨pool_start hc hvalid hnew, List.nodup_nil⟩ fun a ev b hI hstep => by
      obtain ⟨hev, rfl⟩ := hstep
      exact pool_next hI.1 hvalid hI.2 hev
  exact ⟨honce, hpool.nonneg, hpool.paid⟩

end Runs

namespace Sample

/-- A bridge whose validators get four fifths of the fees, and the treasury the rest. -/
def config : BridgeFeeConfig := ⟨1, 30, 100, 10000, 8000, 2000, false⟩

theorem config_valid : config.Valid := ⟨by decide, by decide, by decide, by decide⟩

/-- Two transfers that failed; a fee of 100 was paid for each. -/
def deployed : Storage where
  feeConfig := AList.insert 1 config ∅
  feeStats := ∅
  treasuryTarget := AList.insert 1 ⟨9⟩ ∅
  dailyTransfers := ∅
  chainMultiplier := ∅
  destinationBridgeId := ∅
  bridgeTransfer := AList.insert 2 ⟨1, 100, .failed⟩ (AList.insert 1 ⟨1, 100, .failed⟩ ∅)
  validators := AList.insert 1 [⟨7⟩] ∅

/-- One of two fees is refunded before the rest is paid out. -/
def refundedOnce : List Event := [.collect 1 1000, .collect 2 1000, .refund 1, .distribute 1, .allocate 1]

def afterRefund : FeeRun := refundedOnce.foldl (FeeRun.next 1) (.start deployed)

theorem reaches_afterRefund :
    Reaches (fun a ev b => Refundable 1 a ev ∧ b = a.next 1 ev) (.start deployed) afterRefund := by
  refine Reaches.of_along ⟨?_, ?_, ?_, ?_, ?_, trivial⟩
  · rintro _ _ _ ⟨⟩
  · rintro _ _ _ ⟨⟩
  · rintro transferId transfer config' ⟨⟩ ht - - hc
    cases ht
    cases hc
    decide +kernel
  · rintro _ _ _ ⟨⟩
  · rintro _ _ _ ⟨⟩

/-- A fee that is refunded once, and before the others are paid out. -/
theorem refund_before_payout : (afterRefund.storage.stats 1).totalFeesCollected = 100 ∧
    (afterRefund.storage.stats 1).feesDistributedValidators = 80 ∧
    (afterRefund.storage.stats 1).feesToTreasury = 20 ∧ Sound 1 afterRefund :=
  ⟨by decide +kernel, by decide +kernel, by decide +kernel,
    sound_of_reaches (by rfl) config_valid (by rfl) reaches_afterRefund⟩

/-- A fee is refunded after the validators got their share of it, and then again. -/
def refundedTwice : List Event := [.collect 1 1000, .distribute 1, .refund 1, .refund 1]

/-- The pool gives back more than it took. -/
theorem fee_refunded_twice : ¬ ∀ (s : Storage) (bridgeId : Nat) (config : BridgeFeeConfig) (r : FeeRun),
    s.feeConfig.lookup bridgeId = some config → config.Valid → s.feeStats.lookup bridgeId = none →
    Reaches (fun a ev b => b = a.next bridgeId ev) (.start s) r → Sound bridgeId r := by
  intro h
  have hsound := h deployed 1 config (refundedTwice.foldl (FeeRun.next 1) (.start deployed)) rfl config_valid rfl
    (.foldl ..)
  have hneg : ¬ 0 ≤ ((refundedTwice.foldl (FeeRun.next 1) (.start deployed)).storage.stats 1).totalFeesCollected := by
    decide +kernel
  exact hneg hsound.nonneg

end Sample

/-! ## The estimated fee and the fee that is charged -/

/-- If the fee for the chain is estimated, then the transfer is charged that fee, which its amount covers. -/
def Charged (s : Storage) (chain : ChainId) (transferId : Nat) (amount : Int) : Prop :=
  ∀ f s₁, estimateBridgeFee chain amount s = (.ok f, s₁) →
    (∃ s₂, collectBridgeFee transferId amount s = (.ok (amount - f), s₂)) ∧ 0 ≤ f ∧ f ≤ amount

/-- The smallest fee, the largest one or the proportional one, as the proportional one `raw` is placed. -/
def BridgeFeeConfig.Every (config : BridgeFeeConfig) (raw : Int) (P : Int → Prop) : Prop :=
  (raw < config.minFee → P config.minFee) ∧ (config.minFee ≤ raw → config.maxFee < raw → P config.maxFee) ∧
    (config.minFee ≤ raw → raw ≤ config.maxFee → P raw)

/-- The multiplier does not change the fee, the amount covers it, and the totals have room for it. -/
structure Fits (s : Storage) (bridgeId multiplier : Nat) (amount fee : Int) : Prop where
  nonneg : 0 ≤ fee
  le : fee ≤ amount
  not_less : fee * 10000 ≤ fee * multiplier
  not_more : fee * multiplier < fee * 10000 + 10000
  counts : s.Counts bridgeId fee

/-- Unless the multiplied fee is too large to be estimated. -/
def FitsFor (s : Storage) (chain : ChainId) (amount fee : Int) : Prop :=
  InRange (fee * s.multiplier chain) → Fits s (s.destination chain) (s.multiplier chain) amount fee

section Estimate

variable {s : Storage} {bridgeId multiplier transferId : Nat} {chain : ChainId} {amount fee : Int}

theorem BridgeFeeConfig.bounded_iff (config : BridgeFeeConfig) (fee : Int) (P : Int → Prop) :
    P (config.bounded fee) ↔ config.Every fee P := by
  unfold BridgeFeeConfig.bounded BridgeFeeConfig.Every
  by_cases hmin : fee < config.minFee
  · rw [if_pos hmin]
    exact ⟨fun h => ⟨fun _ => h, fun _ _ => by omega, fun _ _ => by omega⟩, fun h => h.1 hmin⟩
  · rw [if_neg hmin]
    by_cases hmax : config.maxFee < fee
    · rw [if_pos hmax]
      exact ⟨fun h => ⟨fun _ => by omega, fun _ _ => h, fun _ _ => by omega⟩, fun h => h.2.1 (by omega) hmax⟩
    · rw [if_neg hmax]
      exact ⟨fun h => ⟨fun _ => by omega, fun _ _ => by omega, fun _ _ => h⟩, fun h => h.2.2 (by omega) (by omega)⟩

/-- A fee from `0` on is its own multiple exactly if the multiple is less than one unit above it. -/
theorem multiplied_eq_iff (h : 0 ≤ fee) : (fee * multiplier).tdiv 10000 = fee ↔
    fee * 10000 ≤ fee * multiplier ∧ fee * multiplier < fee * 10000 + 10000 := by
  rw [Int.tdiv_eq_ediv_of_nonneg (Int.mul_nonneg h (Int.natCast_nonneg multiplier))]
  omega

/-- An amount less a fee between `0` and the amount is between `0` and the amount. -/
theorem inRange_net (ha : InRange amount) (h0 : 0 ≤ fee) (hle : fee ≤ amount) : InRange (amount - fee) := by
  unfold InRange i128Min at *
  omega

/-- An estimate is charged exactly if the fee fits, or the estimate fails. -/
theorem charged_iff {transfer : BridgeTransfer} (ha : InRange amount)
    (ht : s.bridgeTransfer.lookup transferId = some transfer) (hb : transfer.bridgeId = s.destination chain) :
    Charged s chain transferId amount ↔ ∀ config, s.feeConfig.lookup (s.destination chain) = some config →
      InRange (amount * config.baseFeeBps) →
      config.Every ((amount * config.baseFeeBps).tdiv 10000) (FitsFor s chain amount) := by
  simp only [← BridgeFeeConfig.bounded_iff, FitsFor]
  constructor
  · intro h config hc hscaled hmul
    obtain ⟨⟨s₂, hcollect⟩, h0, hle⟩ := h _ s (estimateBridgeFee_ok.mpr ⟨config, hc, hscaled, hmul, rfl, rfl⟩)
    obtain ⟨transfer', config', ht', hc', -, -, hcounts, hnet, -⟩ := collectBridgeFee_ok.mp hcollect
    cases ht.symm.trans ht'
    rw [hb] at hc' hcounts
    cases hc.symm.trans hc'
    generalize config.bounded ((amount * config.baseFeeBps).tdiv 10000) = fee at *
    have heq : (fee * s.multiplier chain).tdiv 10000 = fee := by omega
    rw [heq] at h0 hle
    obtain ⟨hless, hmore⟩ := (multiplied_eq_iff h0).mp heq
    exact ⟨h0, hle, hless, hmore, hcounts⟩
  · intro h f s₁ hestimate
    obtain ⟨config, hc, hscaled, hmul, rfl, -⟩ := estimateBridgeFee_ok.mp hestimate
    have hfits := h config hc hscaled hmul
    have heq := (multiplied_eq_iff hfits.nonneg).mpr ⟨hfits.not_less, hfits.not_more⟩
    rw [heq]
    refine ⟨⟨_, collectBridgeFee_ok.mpr ⟨transfer, config, ht, hb.symm ▸ hc, hscaled,
      inRange_net ha hfits.nonneg hfits.le, hb.symm ▸ hfits.counts, rfl, rfl⟩⟩, hfits.nonneg, hfits.le⟩

end Estimate

namespace Sample

/-- A fee of 0.3% and at least 100. -/
def schedule : BridgeFeeConfig := ⟨1, 30, 100, 10000, 8000, 2000, true⟩

/-- A surcharge of one half for Polygon. -/
def surcharged : Storage where
  feeConfig := AList.insert 1 schedule ∅
  feeStats := ∅
  treasuryTarget := ∅
  dailyTransfers := ∅
  chainMultiplier := AList.insert 3 15000 ∅
  destinationBridgeId := ∅
  bridgeTransfer := AList.insert 1 ⟨1, 0, .pending⟩ ∅
  validators := ∅

/-- The chain has no multiplier of its own. -/
theorem estimate_without_multiplier : Charged surcharged .ethereum 1 1000000 := by
  refine (charged_iff (by decide) rfl rfl).mpr fun config hc _ => ?_
  obtain rfl : schedule = config := Option.some.inj hc
  refine ⟨fun h => absurd h (by decide), fun _ h => absurd h (by decide), fun _ _ _ => ?_⟩
  exact ⟨by decide, by decide, by decide, by decide, by decide +kernel, by decide +kernel, by decide +kernel⟩

/-- The estimate has the surcharge, and what is charged does not. -/
theorem estimate_with_surcharge : ¬ ∀ (s : Storage) (chain : ChainId) (transferId : Nat) (amount : Int)
    (transfer : BridgeTransfer), InRange amount → s.bridgeTransfer.lookup transferId = some transfer →
    transfer.bridgeId = s.destination chain → Charged s chain transferId amount := by
  intro h
  obtain ⟨⟨s₂, hcollect⟩, -, -⟩ := h surcharged .polygon 1 1000000 _ (by decide) rfl rfl 4500 surcharged rfl
  have hnet : (collectBridgeFee 1 1000000 surcharged).1 = .ok 997000 := rfl
  rw [hcollect] at hnet
  cases hnet

end Sample

end CallStake.BridgeFees
