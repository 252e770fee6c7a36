import CallStake.Lib.Growth
import CallStake.Lib.Store
import CallStake.Shared.Host

/-!
# Bridge fees (`bridge::fees`)

A fee is taken of every transfer and collected in a pool for each bridge, of which the validators and the treasury
get their shares. The fee of a failed transfer is refunded from the pool.

* `calculateBridgeFee`, `collectBridgeFee`, `distributeValidatorRewards`, `allocateToTreasury`, `refundBridgeFee`,
  `adjustBridgeFeesDynamically`: the functions that change the pool or its configuration.
* `estimateBridgeFee`: the fee for a destination chain, with the multiplier of the chain.
* `collectBridgeFee_ok`, …: what a call that returned did.

Transfers (`bridge::monitoring`) and the validators of a bridge (`bridge::governance`) are read only. Left out:
events; the fields of a transfer that the fees do not look at.
-/

namespace CallStake.BridgeFees

open Tx

/-! ## Storage -/

/-- `monitoring::ChainId`. -/
inductive ChainId where
  | stellar
  | ethereum
  | bitcoin
  | polygon
  | bnb

def chainDiscriminant : ChainId → Nat
  | .stellar => 0
  | .ethereum => 1
  | .bitcoin => 2
  | .polygon => 3
  | .bnb => 4

/-- `monitoring::TransferStatus`. -/
inductive TransferStatus where
  | pending
  | finalized
  | validatorApproved
  | minting
  | complete
  | failed
  deriving DecidableEq

/-- `monitoring::BridgeTransfer`. -/
structure BridgeTransfer where
  bridgeId : Nat
  feePaid : Int
  status : TransferStatus

/-- How the fee of a bridge is computed and shared. -/
structure BridgeFeeConfig where
  bridgeId : Nat
  baseFeeBps : Nat
  minFee : Int
  maxFee : Int
  validatorRewardPct : Nat
  treasuryPct : Nat
  dynamicAdjustmentEnabled : Bool

/-- What a bridge has collected and paid out. -/
structure BridgeFeeStats where
  totalFeesCollected : Int
  feesDistributedValidators : Int
  feesToTreasury : Int
  transfersCount : Nat
  avgFee : Int

/-- The entries under `FeeStorageKey` and `ChainFeeKey`, and those of other modules that are read. -/
structure Storage where
  feeConfig : Store Nat BridgeFeeConfig
  feeStats : Store Nat BridgeFeeStats
  treasuryTarget : Store Nat Address
  dailyTransfers : Store Nat Nat
  chainMultiplier : Store Nat Nat
  destinationBridgeId : Store Nat Nat
  bridgeTransfer : Store Nat BridgeTransfer
  validators : Store Nat (List Address)

/-- `get_bridge_fee_stats`. -/
def Storage.stats (s : Storage) (bridgeId : Nat) : BridgeFeeStats := (s.feeStats.lookup bridgeId).getD ⟨0, 0, 0, 0, 0⟩

/-- `get_chain_fee_multiplier`. -/
def Storage.multiplier (s : Storage) (chain : ChainId) : Nat :=
  (s.chainMultiplier.lookup (chainDiscriminant chain)).getD 10000

/-- `get_destination_bridge_id`. -/
def Storage.destination (s : Storage) (chain : ChainId) : Nat :=
  (s.destinationBridgeId.lookup (chainDiscriminant chain)).getD 1

def Storage.daily (s : Storage) (bridgeId : Nat) : Nat := (s.dailyTransfers.lookup bridgeId).getD 0

/-! ## Primitives -/

/-- Errors are texts. -/
abbrev F := Tx Storage (Fault String)

def load {α : Type} (f : Storage → α) : F α := Tx.gets f

def save (f : Storage → Storage) : F Unit := Tx.modify f

/-- A plain operation on `i128`, which traps on overflow. -/
def plain (x : Int) : F Int := Tx.ofOption (checked x) .panic

/-- A plain `+` or `*` on `u64`, which traps on overflow. -/
def plainU64 (n : Nat) : F Nat := Tx.ofOption (if n ≤ u64Max then some n else none) .panic

/-- A plain `+` on `u32`, which traps on overflow. -/
def plainU32 (n : Nat) : F Nat := Tx.ofOption (if n ≤ u32Max then some n else none) .panic

def getBridgeFeeConfig (bridgeId : Nat) : F BridgeFeeConfig := do
  Tx.ofOption (← load (·.feeConfig.lookup bridgeId)) (.err "Fee config not found")

def setBridgeFeeConfig (config : BridgeFeeConfig) : F Unit :=
  save fun s => { s with feeConfig := s.feeConfig.insert config.bridgeId config }

def getBridgeTreasury (bridgeId : Nat) : F Address := do
  Tx.ofOption (← load (·.treasuryTarget.lookup bridgeId)) (.err "Treasury not set")

/-- `governance::get_bridge_validators`. -/
def getBridgeValidators (bridgeId : Nat) : F (List Address) := do
  Tx.ofOption (← load (·.validators.lookup bridgeId)) (.err "Bridge not found")

/-- `monitoring::get_bridge_transfer(..).ok_or_else(..)`. -/
def getBridgeTransfer (transferId : Nat) : F BridgeTransfer := do
  Tx.ofOption (← load (·.bridgeTransfer.lookup transferId)) (.err "Transfer not found")

def saveBridgeFeeStats (bridgeId : Nat) (stats : BridgeFeeStats) : F Unit :=
  save fun s => { s with feeStats := s.feeStats.insert bridgeId stats }

/-! ## The functions of the module -/

/-- A fee within the bounds of the configuration. -/
def BridgeFeeConfig.bounded (config : BridgeFeeConfig) (fee : Int) : Int :=
  if fee < config.minFee then config.minFee
  else if config.maxFee < fee then config.maxFee
  else fee

def calculateBridgeFee (bridgeId : Nat) (transferAmount : Int) : F Int := do
  let config ← getBridgeFeeConfig bridgeId
  let scaled ← plain (transferAmount * config.baseFeeBps)
  return config.bounded (scaled.tdiv 10000)

def collectBridgeFee (transferId : Nat) (amount : Int) : F Int := do
  let transfer ← getBridgeTransfer transferId
  let fee ← calculateBridgeFee transfer.bridgeId amount
  let netAmount ← plain (amount - fee)
  let stats ← load (·.stats transfer.bridgeId)
  let totalFees ← plain (stats.totalFeesCollected + fee)
  let transfersCount ← plainU64 (stats.transfersCount + 1)
  saveBridgeFeeStats transfer.bridgeId
    { stats with totalFeesCollected := totalFees, transfersCount, avgFee := totalFees.tdiv transfersCount }
  let daily ← load (·.daily transfer.bridgeId)
  let daily ← plainU64 (daily + 1)
  save fun s => { s with dailyTransfers := s.dailyTransfers.insert transfer.bridgeId daily }
  return netAmount

/-- What is missing to the share of `pct` ten thousandths of all fees. -/
def shareDue (pct : Nat) (total paid : Int) : F Int := do
  let scaled ← plain (total * pct)
  plain (scaled.tdiv 10000 - paid)

/-- The validators are paid `share`. -/
def payValidators (bridgeId : Nat) (stats : BridgeFeeStats) (share : Int) : F Unit := do
  let validators ← getBridgeValidators bridgeId
  failIf (validators = []) (.err "No validators found")
  let feesDistributedValidators ← plain (stats.feesDistributedValidators + share)
  saveBridgeFeeStats bridgeId { stats with feesDistributedValidators }

def distributeValidatorRewards (bridgeId : Nat) : F Unit := do
  let config ← getBridgeFeeConfig bridgeId
  let stats ← load (·.stats bridgeId)
  let share ← shareDue config.validatorRewardPct stats.totalFeesCollected stats.feesDistributedValidators
  if share ≤ 0 then return () else payValidators bridgeId stats share

/-- The treasury is paid `share`. -/
def payTreasury (bridgeId : Nat) (stats : BridgeFeeStats) (share : Int) : F Unit := do
  let _ ← getBridgeTreasury bridgeId
  let feesToTreasury ← plain (stats.feesToTreasury + share)
  saveBridgeFeeStats bridgeId { stats with feesToTreasury }

def allocateToTreasury (bridgeId : Nat) : F Unit := do
  let config ← getBridgeFeeConfig bridgeId
  let stats ← load (·.stats bridgeId)
  let share ← shareDue config.treasuryPct stats.totalFeesCollected stats.feesToTreasury
  if share ≤ 0 then return () else payTreasury bridgeId stats share

def refundBridgeFee (transferId : Nat) : F Unit := do
  let transfer ← getBridgeTransfer transferId
  failIf (transfer.status ≠ .failed) (.err "Only failed transfers eligible for refund")
  let stats ← load (·.stats transfer.bridgeId)
  let totalFeesCollected ← plain (stats.totalFeesCollected - transfer.feePaid)
  saveBridgeFeeStats transfer.bridgeId { stats with totalFeesCollected }

/-- In ten thousandths of a capacity of `10_000` transfers. -/
def calculateBridgeUtilization (bridgeId : Nat) : F Nat := do
  let transfers24h ← load (·.daily bridgeId)
  let scaled ← plainU64 (transfers24h * 10000)
  return min (scaled / 10000) 10000

/-- The base fee goes down when the bridge is little used, and up when it is used much. -/
def adjustedBaseFee (config : BridgeFeeConfig) (utilization : Nat) : F Nat :=
  if utilization ≤ 3000 then return max 10 (config.baseFeeBps - 5)
  else if 7000 ≤ utilization then do
    let raised ← plainU32 (config.baseFeeBps + 5)
    return min 100 raised
  else return config.baseFeeBps

/-- The configuration is stored under the bridge that it names. -/
def readjust (bridgeId : Nat) (config : BridgeFeeConfig) : F Unit := do
  let utilization ← calculateBridgeUtilization bridgeId
  let baseFeeBps ← adjustedBaseFee config utilization
  setBridgeFeeConfig { config with baseFeeBps }

def adjustBridgeFeesDynamically (bridgeId : Nat) : F Unit := do
  let config ← getBridgeFeeConfig bridgeId
  if config.dynamicAdjustmentEnabled then readjust bridgeId config else return ()

/-- The assets all have the same fee. -/
def estimateBridgeFee (destinationChain : ChainId) (amount : Int) : F Int := do
  let bridgeId ← load (·.destination destinationChain)
  let baseFee ← calculateBridgeFee bridgeId amount
  let multiplier ← load (·.multiplier destinationChain)
  let scaled ← plain (baseFee * multiplier)
  return scaled.tdiv 10000

/-! ## What a call that returned did -/

section Inversion

variable {s s' : Storage} {bridgeId transferId : Nat} {amount x y : Int}

section Peel

variable {α β : Type} {b : β}

theorem bind_load_ok {f : Storage → α} {k : α → F β} : (load f >>= k) s = (.ok b, s') ↔ k (f s) s = (.ok b, s') :=
  Iff.rfl

theorem bind_save_ok {f : Storage → Storage} {k : Unit → F β} :
    (save f >>= k) s = (.ok b, s') ↔ k () (f s) = (.ok b, s') := Iff.rfl

theorem bind_plain_ok {k : Int → F β} : (plain x >>= k) s = (.ok b, s') ↔ InRange x ∧ k x s = (.ok b, s') :=
  bind_checked_ok

theorem bind_plainU64_ok {n : Nat} {k : Nat → F β} :
    (plainU64 n >>= k) s = (.ok b, s') ↔ n ≤ u64Max ∧ k n s = (.ok b, s') := bind_bounded_ok

theorem bind_getBridgeFeeConfig_ok {k : BridgeFeeConfig → F β} :
    (getBridgeFeeConfig bridgeId >>= k) s = (.ok b, s') ↔
      ∃ config, s.feeConfig.lookup bridgeId = some config ∧ k config s = (.ok b, s') := bind_ofOption_ok

theorem bind_getBridgeTransfer_ok {k : BridgeTransfer → F β} :
    (getBridgeTransfer transferId >>= k) s = (.ok b, s') ↔
      ∃ transfer, s.bridgeTransfer.lookup transferId = some transfer ∧ k transfer s = (.ok b, s') :=
  bind_ofOption_ok

end Peel

theorem calculateBridgeFee_ok : calculateBridgeFee bridgeId amount s = (.ok x, s') ↔
    ∃ config, s.feeConfig.lookup bridgeId = some config ∧ InRange (amount * config.baseFeeBps) ∧
      config.bounded ((amount * config.baseFeeBps).tdiv 10000) = x ∧ s = s' := by
  rw [calculateBridgeFee, bind_getBridgeFeeConfig_ok]
  simp only [bind_plain_ok, pure_ok]

theorem bind_calculateBridgeFee_ok {β : Type} {b : β} {k : Int → F β} :
    (calculateBridgeFee bridgeId amount >>= k) s = (.ok b, s') ↔
      ∃ config, s.feeConfig.lookup bridgeId = some config ∧ InRange (amount * config.baseFeeBps) ∧
        k (config.bounded ((amount * config.baseFeeBps).tdiv 10000)) s = (.ok b, s') := by
  rw [bind_ok]
  simp only [calculateBridgeFee_ok]
  constructor
  · rintro ⟨_, _, ⟨config, hc, hr, rfl, rfl⟩, h⟩
    exact ⟨config, hc, hr, h⟩
  · rintro ⟨config, hc, hr, h⟩
    exact ⟨_, s, ⟨config, hc, hr, rfl, rfl⟩, h⟩

/-- The statistics after a fee was collected. -/
def BridgeFeeStats.collect (stats : BridgeFeeStats) (fee : Int) : BridgeFeeStats :=
  { stats with
    totalFeesCollected := stats.totalFeesCollected + fee
    transfersCount := stats.transfersCount + 1
    avgFee := (stats.totalFeesCollected + fee).tdiv (stats.transfersCount + 1 : Nat) }

/-- Whether the fee can be counted. -/
structure Storage.Counts (s : Storage) (bridgeId : Nat) (fee : Int) : Prop where
  total : InRange ((s.stats bridgeId).totalFeesCollected + fee)
  count : (s.stats bridgeId).transfersCount + 1 ≤ u64Max
  daily : s.daily bridgeId + 1 ≤ u64Max

theorem collectBridgeFee_ok : collectBridgeFee transferId amount s = (.ok x, s') ↔
    ∃ transfer config, s.bridgeTransfer.lookup transferId = some transfer ∧
      s.feeConfig.lookup transfer.bridgeId = some config ∧ InRange (amount * config.baseFeeBps) ∧
      InRange (amount - config.bounded ((amount * config.baseFeeBps).tdiv 10000)) ∧
      s.Counts transfer.bridgeId (config.bounded ((amount * config.baseFeeBps).tdiv 10000)) ∧
      amount - config.bounded ((amount * config.baseFeeBps).tdiv 10000) = x ∧
      { s with
        feeStats := s.feeStats.insert transfer.bridgeId ((s.stats transfer.bridgeId).collect
          (config.bounded ((amount * config.baseFeeBps).tdiv 10000)))
        dailyTransfers := s.dailyTransfers.insert transfer.bridgeId (s.daily transfer.bridgeId + 1) } = s' := by
  rw [collectBridgeFee, bind_getBridgeTransfer_ok]
  simp only [bind_calculateBridgeFee_ok, bind_plain_ok, bind_load_ok, bind_plainU64_ok, saveBridgeFeeStats,
    bind_save_ok, pure_ok]
  constructor
  · rintro ⟨transfer, ht, config, hc, hscaled, hnet, htotal, hcount, hdaily, hx, hs⟩
    exact ⟨transfer, config, ht, hc, hscaled, hnet, ⟨htotal, hcount, hdaily⟩, hx, hs⟩
  · rintro ⟨transfer, config, ht, hc, hscaled, hnet, ⟨htotal, hcount, hdaily⟩, hx, hs⟩
    exact ⟨transfer, ht, config, hc, hscaled, hnet, htotal, hcount, hdaily, hx, hs⟩

theorem refundBridgeFee_ok {u : Unit} : refundBridgeFee transferId s = (.ok u, s') ↔
    ∃ transfer, s.bridgeTransfer.lookup transferId = some transfer ∧ transfer.status = .failed ∧
      InRange ((s.stats transfer.bridgeId).totalFeesCollected - transfer.feePaid) ∧
      { s with feeStats := s.feeStats.insert transfer.bridgeId { s.stats transfer.bridgeId with
        totalFeesCollected := (s.stats transfer.bridgeId).totalFeesCollected - transfer.feePaid } } = s' := by
  rw [refundBridgeFee, bind_getBridgeTransfer_ok]
  simp only [bind_failIf_ok, not_not, bind_load_ok, bind_plain_ok, saveBridgeFeeStats, save, modify_ok]

theorem bind_shareDue_ok {β : Type} {b : β} {pct : Nat} {total paid : Int} {k : Int → F β} :
    (shareDue pct total paid >>= k) s = (.ok b, s') ↔ InRange (total * pct) ∧
      InRange ((total * pct).tdiv 10000 - paid) ∧ k ((total * pct).tdiv 10000 - paid) s = (.ok b, s') := by
  rw [shareDue, bind_assoc_eq, bind_plain_ok, bind_plain_ok]

theorem payValidators_ok {stats : BridgeFeeStats} {share : Int} {u : Unit} :
    payValidators bridgeId stats share s = (.ok u, s') ↔
      ∃ validators, s.validators.lookup bridgeId = some validators ∧ validators ≠ [] ∧
        InRange (stats.feesDistributedValidators + share) ∧
        { s with feeStats := s.feeStats.insert bridgeId { stats with
          feesDistributedValidators := stats.feesDistributedValidators + share } } = s' := by
  rw [payValidators, getBridgeValidators, bind_assoc_eq, bind_load_ok, bind_ofOption_ok]
  simp only [bind_failIf_ok, bind_plain_ok, saveBridgeFeeStats, save, modify_ok, ne_eq]

theorem payTreasury_ok {stats : BridgeFeeStats} {share : Int} {u : Unit} :
    payTreasury bridgeId stats share s = (.ok u, s') ↔
      (∃ treasury, s.treasuryTarget.lookup bridgeId = some treasury) ∧ InRange (stats.feesToTreasury + share) ∧
        { s with feeStats := s.feeStats.insert bridgeId { stats with
          feesToTreasury := stats.feesToTreasury + share } } = s' := by
  rw [payTreasury, getBridgeTreasury, bind_assoc_eq, bind_load_ok, bind_ofOption_ok]
  simp only [bind_plain_ok, saveBridgeFeeStats, save, modify_ok, exists_and_right]

/-- The share that is due is in range, and paid if there is one. -/
theorem distributeValidatorRewards_ok {u : Unit} : distributeValidatorRewards bridgeId s = (.ok u, s') ↔
    ∃ config, s.feeConfig.lookup bridgeId = some config ∧
      InRange ((s.stats bridgeId).totalFeesCollected * config.validatorRewardPct) ∧
      InRange (tenThousandths config.validatorRewardPct (s.stats bridgeId).totalFeesCollected -
        (s.stats bridgeId).feesDistributedValidators) ∧
      if tenThousandths config.validatorRewardPct (s.stats bridgeId).totalFeesCollected -
          (s.stats bridgeId).feesDistributedValidators ≤ 0 then s = s'
      else payValidators bridgeId (s.stats bridgeId)
        (tenThousandths config.validatorRewardPct (s.stats bridgeId).totalFeesCollected -
          (s.stats bridgeId).feesDistributedValidators) s = (.ok u, s') := by
  rw [distributeValidatorRewards, bind_getBridgeFeeConfig_ok]
  simp only [bind_load_ok, bind_shareDue_ok, tenThousandths]
  refine exists_congr fun config => and_congr_right fun _ => and_congr_right fun _ => and_congr_right fun _ => ?_
  split
  · rename_i hdue
    simp [hdue]
  · rename_i hdue
    simp [hdue]

theorem allocateToTreasury_ok {u : Unit} : allocateToTreasury bridgeId s = (.ok u, s') ↔
    ∃ config, s.feeConfig.lookup bridgeId = some config ∧
      InRange ((s.stats bridgeId).totalFeesCollected * config.treasuryPct) ∧
      InRange (tenThousandths config.treasuryPct (s.stats bridgeId).totalFeesCollected -
        (s.stats bridgeId).feesToTreasury) ∧
      if tenThousandths config.treasuryPct (s.stats bridgeId).totalFeesCollected -
          (s.stats bridgeId).feesToTreasury ≤ 0 then s = s'
      else payTreasury bridgeId (s.stats bridgeId)
        (tenThousandths config.treasuryPct (s.stats bridgeId).totalFeesCollected -
          (s.stats bridgeId).feesToTreasury) s = (.ok u, s') := by
  rw [allocateToTreasury, bind_getBridgeFeeConfig_ok]
  simp only [bind_load_ok, bind_shareDue_ok, tenThousandths]
  refine exists_congr fun config => and_congr_right fun _ => and_congr_right fun _ => and_congr_right fun _ => ?_
  split
  · rename_i hdue
    simp [hdue]
  · rename_i hdue
    simp [hdue]

theorem estimateBridgeFee_ok {chain : ChainId} : estimateBridgeFee chain amount s = (.ok x, s') ↔
    ∃ config, s.feeConfig.lookup (s.destination chain) = some config ∧ InRange (amount * config.baseFeeBps) ∧
      InRange (config.bounded ((amount * config.baseFeeBps).tdiv 10000) * s.multiplier chain) ∧
      (config.bounded ((amount * config.baseFeeBps).tdiv 10000) * s.multiplier chain).tdiv 10000 = x ∧ s = s' := by
  rw [estimateBridgeFee, bind_load_ok, bind_calculateBridgeFee_ok]
  simp only [bind_load_ok, bind_plain_ok, pure_ok]

end Inversion

/-! ## Configurations -/

/-- What a configuration should be. -/
structure BridgeFeeConfig.Valid (config : BridgeFeeConfig) : Prop where
  base : config.baseFeeBps ≤ 10000
  min : 0 ≤ config.minFee
  max : config.minFee ≤ config.maxFee
  shares : config.validatorRewardPct + config.treasuryPct ≤ 10000

theorem BridgeFeeConfig.Valid.bounded_nonneg {config : BridgeFeeConfig} (h : config.Valid) (fee : Int) :
    0 ≤ config.bounded fee := by
  have hmin := h.min
  have hmax := h.max
  unfold BridgeFeeConfig.bounded
  split
  · exact hmin
  · split <;> omega

theorem adjustedBaseFee_ok {config : BridgeFeeConfig} {utilization baseFeeBps : Nat} {s s' : Storage}
    (hvalid : config.Valid) (h : adjustedBaseFee config utilization s = (.ok baseFeeBps, s')) :
    baseFeeBps ≤ 10000 ∧ s' = s := by
  have hbase := hvalid.base
  unfold adjustedBaseFee at h
  split at h
  · obtain ⟨rfl, rfl⟩ := Tx.pure_ok.mp h
    exact ⟨by omega, rfl⟩
  · split at h
    · rw [plainU32, bind_ofOption_ok] at h
      obtain ⟨raised, -, h⟩ := h
      obtain ⟨rfl, rfl⟩ := Tx.pure_ok.mp h
      exact ⟨by omega, rfl⟩
    · obtain ⟨rfl, rfl⟩ := Tx.pure_ok.mp h
      exact ⟨hbase, rfl⟩

/-- Adjusting the fees keeps a configuration valid. -/
theorem adjustBridgeFeesDynamically_valid {s s' : Storage} {bridgeId : Nat} {u : Unit}
    (hvalid : ∀ b config, s.feeConfig.lookup b = some config → config.Valid)
    (h : adjustBridgeFeesDynamically bridgeId s = (.ok u, s')) :
    ∀ b config, s'.feeConfig.lookup b = some config → config.Valid := by
  rw [adjustBridgeFeesDynamically, bind_getBridgeFeeConfig_ok] at h
  obtain ⟨config, hc, h⟩ := h
  have hold := hvalid bridgeId config hc
  split at h
  · rw [readjust, calculateBridgeUtilization, bind_assoc_eq, bind_load_ok, bind_assoc_eq, bind_plainU64_ok,
      pure_bind_eq, bind_ok] at h
    obtain ⟨-, baseFeeBps, s₁, hbase, h⟩ := h
    obtain ⟨hle, rfl⟩ := adjustedBaseFee_ok hold hbase
    rw [setBridgeFeeConfig, save, modify_ok] at h
    subst h
    intro b config' hc'
    rw [Store.lookup_insert_eq] at hc'
    split at hc'
    · cases hc'
      exact ⟨hle, hold.min, hold.max, hold.shares⟩
    · exact hvalid b config' hc'
  · obtain ⟨-, rfl⟩ := Tx.pure_ok.mp h
    exact hvalid

end CallStake.BridgeFees
