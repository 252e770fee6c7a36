import CallStake.Lib.Bytes
import CallStake.Lib.Store
import CallStake.Shared.Host

/-!
# The bridge: storage and environment

The data of the `bridge` contract that its transfers use. The storage is one record, grouped by the part of
the contract that owns the entries. An entry that is only ever read with a default holds the default while
it is unset; an entry that is tested for presence is an `Option` or the absence of a key.

* `Books`: the transfers, what they minted, and the records against replay.
* `Limits`: the volumes that are counted against the limits.
* `Settings`: what the administrator and the governance contract set.
* `World`: the storage and the ledger. `Env`: what a call sees of its host.

Left out: the lock against reentrancy, which nothing in the contract takes; the reserve threshold, which
only an event reports; events.
-/

namespace CallStake.Bridge

/-! ## Errors -/

/-- The errors of the bridge. -/
inductive BridgeError where
  | alreadyInitialized
  | invalidAmount
  | invalidValidatorSet
  | unauthorizedValidator
  | transferNotFound
  | transferAlreadyExecuted
  | replayDetected
  | signatureAlreadyUsed
  | notEnoughValidatorApprovals
  | dailyLimitExceeded
  | maxTransferExceeded
  | insufficientWrappedBalance
  | withdrawalNotReady
  | invalidOperation
  | dynamicLiquidityLimitExceeded
  | invalidThreshold
  | unsupportedDestinationChain
  | outOfOrderNonce
  | duplicateNonce
  | contractPaused
  | invalidTokenMetadata
  | messageAlreadyConsumed
  | perRouteLimitExceeded
  | aggregateWindowLimitExceeded
  | transferPermanentlyFailed
  | transferNotRetryable
  deriving DecidableEq

/-! ## Stored values -/

/-- The chains the bridge knows. -/
inductive ChainId where
  | ethereum
  | polygon
  | bnb
  | bitcoin
  deriving DecidableEq

/-- `chain as u32`. -/
def ChainId.code : ChainId → Nat
  | ethereum => 0
  | polygon => 1
  | bnb => 2
  | bitcoin => 3

/-- `TransferKind`, and `ValidatorApprovalKind` with the same names. -/
inductive TransferKind where
  | lockMint
  | burnUnlock
  deriving DecidableEq

/-- How far a transfer has come. -/
inductive TransferStatus where
  | pendingValidators
  | readyToExecute
  | completed
  | cancelled
  | failed
  deriving DecidableEq

/-- A validator's approval of a transfer. -/
structure ValidatorApproval where
  validator : Address
  signature : Bytes
  approvedAt : Nat
  kind : TransferKind

/-- The validators, and how many must sign. -/
structure ValidatorSet where
  validators : List Address
  requiredSignatures : Nat

/-- The limits that are set up once. -/
structure SecurityConfig where
  maxTransferAmount : Int
  dailyTransferLimit : Int
  requiredValidatorSignatures : Nat
  withdrawDelaySeconds : Nat

/-- An asset of another chain, and its wrapped form. -/
structure WrappedAsset where
  sourceChain : ChainId
  sourceAsset : Bytes
  wrappedAsset : Bytes
  decimals : Nat

/-- The administrator, the validators, the limits and the next id. -/
structure BridgeConfig where
  admin : Address
  validatorSet : ValidatorSet
  security : SecurityConfig
  nextTransferId : Nat

/-- A transfer in either direction. -/
structure BridgeTransfer where
  id : Nat
  kind : TransferKind
  user : Address
  sourceChain : ChainId
  destinationChain : ChainId
  sourceAsset : Bytes
  wrappedAsset : Bytes
  amount : Int
  sourceTxHash : Bytes
  sourceNonce : Nat
  destinationRecipient : Bytes
  approvals : List ValidatorApproval
  status : TransferStatus
  createdAt : Nat
  executedAt : Option Nat
  failureReason : Option Bytes
  retryable : Bool

/-- What was initiated on a day. -/
structure DailyVolume where
  dayStart : Nat
  totalAmount : Int

/-- The limits of a route. -/
structure WithdrawalRouteConfig where
  perMessageLimit : Int
  aggregateWindowLimit : Int
  windowSeconds : Nat
  deriving DecidableEq

/-- What was initiated on a route in its window. -/
structure WithdrawalWindow where
  windowStart : Nat
  totalVolume : Int

/-- Source chain, destination chain, wrapped asset. -/
abbrev Route := ChainId × ChainId × Bytes

/-- Source chain, hash of the source transaction, source nonce. -/
abbrev Origin := ChainId × Bytes × Nat

def BridgeTransfer.origin (t : BridgeTransfer) : Origin := (t.sourceChain, t.sourceTxHash, t.sourceNonce)

def DAY_SECONDS : Nat := 86400

/-! ## Storage -/

/-- Transfers, what protects them from replay, and balances. -/
structure Books where
  transfers : Store Nat BridgeTransfer
  replayLocks : Store Origin Unit
  usedSignatures : Store (Address × Nat × TransferKind × Bytes) Unit
  consumedMessages : Store Bytes Unit
  wrappedBalances : Store (Address × Bytes) Int
  totalMinted : Int

/-- The counters of the limits. -/
structure Limits where
  dailyVolume : Option DailyVolume
  withdrawalWindows : Store Route WithdrawalWindow

/-- What the administrator sets. -/
structure Settings where
  wrappedAssets : Store Bytes WrappedAsset
  liquidityBuffer : Option Int
  supportedChains : List ChainId
  paused : Bool
  governanceAddress : Option Address
  deploymentId : Option Address
  withdrawalRouteConfigs : Store Route WithdrawalRouteConfig

/-- The storage of the contract. -/
structure Storage where
  config : Option BridgeConfig
  settings : Settings
  limits : Limits
  books : Books

/-- The storage of a contract that was just deployed. -/
def Storage.deployed : Storage where
  config := none
  settings := ⟨∅, none, [], false, none, none, ∅⟩
  limits := ⟨none, ∅⟩
  books := ⟨∅, ∅, ∅, ∅, ∅, 0⟩

/-- The ledger and the storage. -/
structure World where
  ledger : Ledger
  store : Storage

/-- `env.crypto().sha256` and the XDR of the values that are hashed. -/
structure Host where
  sha256 : Bytes → BytesN 32
  addressXdr : Address → Bytes
  u32Xdr : Nat → Bytes
  stringXdr : Bytes → Bytes
  u64Xdr : Nat → Bytes

/-- The host, and who signs. -/
structure Env where
  host : Host
  auth : Auth

/-! ## Primitives -/

abbrev B := Tx World (Fault BridgeError)

section Primitives

variable {α : Type}

def load (f : Storage → α) : B α := Tx.gets fun w => f w.store

def save (f : Storage → Storage) : B Unit := Tx.modify fun w => { w with store := f w.store }

def timestamp : B Nat := Tx.gets (·.ledger.timestamp)

/-- A plain `+` or `-` on `i128`, which traps on overflow. -/
def plain (x : Int) : B Int := Tx.ofOption (checked x) .panic

/-- A plain `+` on `u64`, which traps on overflow. -/
def plainU64 (n : Nat) : B Nat := Tx.ofOption (if n ≤ u64Max then some n else none) .panic

def setBooks (f : Books → Books) : B Unit := save fun s => { s with books := f s.books }

def setLimits (f : Limits → Limits) : B Unit := save fun s => { s with limits := f s.limits }

def setSettings (f : Settings → Settings) : B Unit := save fun s => { s with settings := f s.settings }

/-! A sequence that starts with a primitive. -/

section Peel

variable {β : Type} {b : β} {w w' : World}

theorem bind_load_ok {f : Storage → α} {k : α → B β} :
    (load f >>= k) w = (.ok b, w') ↔ k (f w.store) w = (.ok b, w') := Iff.rfl

theorem bind_save_ok {f : Storage → Storage} {k : Unit → B β} :
    (save f >>= k) w = (.ok b, w') ↔ k () { w with store := f w.store } = (.ok b, w') := Iff.rfl

theorem bind_setBooks_ok {f : Books → Books} {k : Unit → B β} :
    (setBooks f >>= k) w = (.ok b, w') ↔ k () { w with store.books := f w.store.books } = (.ok b, w') := Iff.rfl

theorem bind_setLimits_ok {f : Limits → Limits} {k : Unit → B β} :
    (setLimits f >>= k) w = (.ok b, w') ↔ k () { w with store.limits := f w.store.limits } = (.ok b, w') := Iff.rfl

theorem setBooks_ok {f : Books → Books} {u : Unit} : setBooks f w = (.ok u, w') ↔
    { w with store.books := f w.store.books } = w' := by rw [setBooks, save, Tx.modify_ok]

theorem setLimits_ok {f : Limits → Limits} {u : Unit} : setLimits f w = (.ok u, w') ↔
    { w with store.limits := f w.store.limits } = w' := by rw [setLimits, save, Tx.modify_ok]

theorem setSettings_ok {f : Settings → Settings} {u : Unit} : setSettings f w = (.ok u, w') ↔
    { w with store.settings := f w.store.settings } = w' := by rw [setSettings, save, Tx.modify_ok]

theorem bind_setSettings_ok {f : Settings → Settings} {k : Unit → B β} :
    (setSettings f >>= k) w = (.ok b, w') ↔
      k () { w with store.settings := f w.store.settings } = (.ok b, w') := Iff.rfl

theorem bind_timestamp_ok {k : Nat → B β} :
    (timestamp >>= k) w = (.ok b, w') ↔ k w.ledger.timestamp w = (.ok b, w') := Iff.rfl

theorem bind_plain_ok {x : Int} {k : Int → B β} :
    (plain x >>= k) w = (.ok b, w') ↔ InRange x ∧ k x w = (.ok b, w') := Tx.bind_checked_ok

theorem bind_plainU64_ok {n : Nat} {k : Nat → B β} :
    (plainU64 n >>= k) w = (.ok b, w') ↔ n ≤ u64Max ∧ k n w = (.ok b, w') := Tx.bind_bounded_ok

end Peel

end Primitives

end CallStake.Bridge
