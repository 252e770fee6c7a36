import CallStake.Lib.Store
import CallStake.Shared.Host

/-!
# The user portfolio: storage and environment

The data of the `user_portfolio` contract. The storage is one record, grouped by what the entries are for; an entry
that is only ever read with a default holds the default while it is unset.

* `Config`: what the administrator sets. `Book`: the positions, the lists of them for each user, and the migration of
  these lists. An index that has never been stored is missing.
* `Records`: what accompanies a position: its asset, its time of opening, the tax events, and the streaks.
  `Fifo`: the cost lots. `Exposures`: the caps and the exposure that is tracked for them.
* `Entry`: what an accepted call did. The step of a run enters it in the journal of the world, newest first. No
  function reads or writes the journal.

Left out: events, the concentration score (it only decides about an event), and the parts of the contract that do not
touch positions: onboarding, subscriptions, preferences, badges, achievements, tags, snapshots and the watchlist.
-/

namespace CallStake.UserPortfolio

/-- Whether a position is open. -/
inductive PositionStatus where
  | open
  | closed
  | closing
  deriving DecidableEq

/-- `amount` is what is left of the invested notional. `realizedPnl` is cumulative. -/
structure Position where
  entryPrice : Int
  amount : Int
  status : PositionStatus
  realizedPnl : Int
  deriving DecidableEq

/-- A record of a close. -/
structure TaxEvent where
  positionId : Nat
  openTs : Nat
  closeTs : Nat
  entryPrice : Int
  exitPrice : Int
  amount : Int
  realizedPnl : Int
  assetPair : Nat

/-- An amount and its price. -/
structure CostLot where
  entryPrice : Int
  amount : Int

/-- The errors of the portfolio. -/
inductive Error where
  | positionAlreadyClosed
  | exposureCapExceeded
  | invalidCapAmount

/-! ## Storage -/

/-- What is set up. -/
structure Config where
  initialized : Bool
  admin : Option Address
  oracle : Option Address
  oracleAssetPair : Nat
  tradeExecutor : Option Address
  kycRequiredMode : Bool
  kycVerified : Store Address Bool
  restricted : Store Address Bool

/-- Positions and their indexes. -/
structure Book where
  nextPositionId : Option Nat
  positions : Store Nat Position
  userPositions : Store Address (List Nat)
  userOpenPositions : Store Address (List Nat)
  userClosedPositions : Store Address (List Nat)
  migratedUser : Store Address Bool
  migrationQueue : List Address

/-- What is kept beside the positions. -/
structure Records where
  positionAsset : Store Nat Nat
  positionOpenedAt : Store Nat Nat
  userTaxEvents : Store Address (List TaxEvent)
  currentStreak : Store Address Nat
  bestStreak : Store Address Nat

/-- Lots, and what was realized on them. -/
structure Fifo where
  lots : Store Address (List CostLot)
  realizedPnl : Store Address Int

/-- Caps, and what is open. -/
structure Exposures where
  cap : Store (Address × Nat) Int
  exposure : Store (Address × Nat) Int

/-- The storage of the contract. -/
structure Storage where
  config : Config
  book : Book
  records : Records
  fifo : Fifo
  exposures : Exposures

def Config.deployed : Config := ⟨false, none, none, 0, none, false, ∅, ∅⟩

def Book.deployed : Book := ⟨none, ∅, ∅, ∅, ∅, ∅, []⟩

def Storage.deployed : Storage := ⟨.deployed, .deployed, ⟨∅, ∅, ∅, ∅, ∅⟩, ⟨∅, ∅⟩, ⟨∅, ∅⟩⟩

/-- `UserPositions(user)`, where a missing list is empty. -/
def Book.ids (b : Book) (user : Address) : List Nat := (b.userPositions.lookup user).getD []

def Records.taxEvents (r : Records) (user : Address) : List TaxEvent := (r.userTaxEvents.lookup user).getD []

/-! ## World -/

/-- What the history has of an accepted call. -/
inductive Entry where
  | opened (user : Address) (id : Nat) (amount : Int)
  | closed (user : Address) (id : Nat) (realizedPnl : Int)
  | closedByKeeper (user : Address) (id : Nat)
  | partiallyClosed (user : Address) (id : Nat) (closeAmount realizedPnlDelta : Int)
  | soldFifo (user : Address) (pnl : Int)

/-- The ledger, the storage and the journal. -/
structure World where
  ledger : Ledger
  store : Storage
  journal : List Entry

def World.deployed (ledger : Ledger) : World := ⟨ledger, .deployed, []⟩

def World.note (w : World) (e : Entry) : World := { w with journal := e :: w.journal }

abbrev P := Tx World (Fault Error)

def err (e : Error) : Fault Error := .err e

def saveConfig (f : Config → Config) : P Unit :=
  Tx.modify fun w => { w with store := { w.store with config := f w.store.config } }

def saveBook (f : Book → Book) : P Unit :=
  Tx.modify fun w => { w with store := { w.store with book := f w.store.book } }

def saveRecords (f : Records → Records) : P Unit :=
  Tx.modify fun w => { w with store := { w.store with records := f w.store.records } }

def saveFifo (f : Fifo → Fifo) : P Unit :=
  Tx.modify fun w => { w with store := { w.store with fifo := f w.store.fifo } }

def saveExposures (f : Exposures → Exposures) : P Unit :=
  Tx.modify fun w => { w with store := { w.store with exposures := f w.store.exposures } }

/-- The administrator signs. -/
def requireAdmin (auth : Auth) : P Unit := do
  let admin ← Tx.gets (·.store.config.admin)
  let admin ← Tx.ofOption admin .panic
  requireAuth auth admin

end CallStake.UserPortfolio
