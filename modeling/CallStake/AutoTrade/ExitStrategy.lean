import CallStake.Lib.Store
import CallStake.Shared.Host

/-!
# Exit strategies

`auto_trade::exit_strategy`: the exits of a position. Take-profit tiers sell a share of what is left each, and
trailing stops sell the rest.

* `TakeProfitTier`, `StopLossTier`, `ExitStrategy`, and the storage that holds them.
* `takeProfits`, `trailingStops`: the two parts of a check. `checkAndExecuteExits`, `createExitStrategy`,
  `adjustPositionSize`, and the presets.
* `Happening`: what has happened to a strategy, newest first. `World.history` keeps it; no function reads it.
* `Event`, `next`, `Step`: calls of the contract in any order while ledgers close. A step enters what an accepted call
  created, observed or adjusted (`invoke`); a sale is entered where it is made.

Left out: events, and the views that read a strategy back.
-/

namespace CallStake.ExitStrategies

/-! ## Data -/

/-- `positionPct` is in basis points. -/
structure TakeProfitTier where
  price : Int
  positionPct : Nat
  executed : Bool

/-- A stop below the highest price, in percent of it. -/
structure StopLossTier where
  triggerProfitPct : Nat
  trailPct : Nat
  active : Bool

/-- How far an exit strategy has come. -/
inductive StrategyStatus where
  | active
  | stopHit
  | complete
  deriving DecidableEq

/-- Targets and stops for one position of a user. -/
structure ExitStrategy where
  user : Address
  signalId : Nat
  entryPrice : Int
  currentPositionSize : Int
  takeProfitTiers : List TakeProfitTier
  stopLossTiers : List StopLossTier
  highestPrice : Int
  status : StrategyStatus

/-- The errors of the exit strategies. -/
inductive Error where
  | exitStrategyNotFound
  | invalidAmount
  | invalidExitConfig
  | unauthorized

/-- The storage of the contract. -/
structure Storage where
  nextId : Nat
  strategies : Store Nat ExitStrategy
  userStrategies : Store Address (List Nat)

/-- No strategies yet. -/
def Storage.deployed : Storage := ⟨0, ∅, ∅⟩

/-- What happens to a strategy. A sale has the tier that sells (none for a trailing stop), the size held before it,
and the amount. -/
inductive Happening where
  | created (entryPrice size : Int)
  | observed (price : Int)
  | sold (tier : Option Nat) (held amount : Int)
  | adjusted (size : Int)
  deriving DecidableEq

/-- The ledger, the storage, and what has happened to each strategy. -/
structure World where
  ledger : Ledger
  store : Storage
  history : Nat → List Happening

/-- Something happens to a strategy. -/
def World.note (w : World) (id : Nat) (hs : List Happening) : World :=
  { w with history := Function.update w.history id (hs ++ w.history id) }

/-! ## Functions -/

abbrev X := Tx World (Fault Error)

def err (e : Error) : Fault Error := .err e

/-- A plain operation on `i128`, which traps on overflow. -/
def plain (x : Int) : X Int := Tx.ofOption (checked x) .panic

/-- What happened to a strategy is noted. -/
def note (id : Nat) (h : Happening) : X Unit := Tx.modify fun w => w.note id [h]

def save (id : Nat) (s : ExitStrategy) : X Unit :=
  Tx.modify fun w => { w with store := { w.store with strategies := w.store.strategies.insert id s } }

/-- `load_strategy`: the strategy, which must exist. -/
def load (id : Nat) : X ExitStrategy := do
  let s ← Tx.gets (·.store.strategies.lookup id)
  Tx.ofOption s (err .exitStrategyNotFound)

/-- `next_id`: identifiers count up. -/
def nextId : X Nat := do
  let id ← Tx.gets (·.store.nextId)
  Tx.failIf (u64Max < id + 1) .panic
  Tx.modify fun w => { w with store := { w.store with nextId := id + 1 } }
  return id

/-- `add_user_strategy`: the strategy joins the list of its user. -/
def addUserStrategy (user : Address) (id : Nat) : X Unit :=
  Tx.modify fun w => { w with store := { w.store with
    userStrategies := w.store.userStrategies.insert user ((w.store.userStrategies.lookup user).getD [] ++ [id]) } }

/-- The synthetic trade id, with operations that wrap around. -/
def executeSell (signalId : Nat) (amount price : Int) : X Nat := do
  let seq ← Tx.gets (·.ledger.sequence)
  return (signalId * 1000000007 + (amount % 2 ^ 64).toNat + (price % 2 ^ 64).toNat + seq) % 2 ^ 64

/-! ### A check -/

/-- The tier has not sold, its price is reached, and something is left to sell. -/
def TakeProfitTier.Due (tp : TakeProfitTier) (price size : Int) : Prop :=
  tp.executed = false ∧ tp.price ≤ price ∧ 0 < size

instance (tp : TakeProfitTier) (price size : Int) : Decidable (tp.Due price size) :=
  inferInstanceAs (Decidable (_ ∧ _))

/-- One tier of a check: what is left, the tier, and the trades. -/
def takeProfit (id signalId : Nat) (price : Int) (i : Nat) (size : Int) (tp : TakeProfitTier) :
    X (Int × TakeProfitTier × List Nat) :=
  if tp.Due price size then do
    let product ← plain (size * tp.positionPct)
    let closeAmount := max (product.tdiv 10000) 1
    let tradeId ← executeSell signalId closeAmount price
    let left ← plain (size - closeAmount)
    note id (.sold (some i) size closeAmount)
    return (left, { tp with executed := true }, [tradeId])
  else return (size, tp, [])

/-- The tiers that the price has reached sell their shares, in their order. -/
def takeProfits (id signalId : Nat) (price : Int) :
    Nat → Int → List TakeProfitTier → X (Int × List TakeProfitTier × List Nat)
  | _, size, [] => return (size, [], [])
  | i, size, tp :: tps => do
    let sold ← takeProfit id signalId price i size tp
    let rest ← takeProfits id signalId price (i + 1) sold.1 tps
    return (rest.1, sold.2.1 :: rest.2.1, sold.2.2 ++ rest.2.2)

/-- The profit in percent of the entry price. -/
def currentProfitPct (entryPrice price : Int) : X Int :=
  if 0 < entryPrice then do
    let gain ← plain (price - entryPrice)
    let scaled ← plain (gain * 100)
    return scaled.tdiv entryPrice
  else return 0

/-- The tiers whose profit threshold has been crossed become active. -/
def activate (profitPct : Int) (tiers : List StopLossTier) : List StopLossTier :=
  tiers.map fun tier => if (tier.triggerProfitPct : Int) ≤ profitPct then { tier with active := true } else tier

/-- The tightest trail of the active tiers. -/
def tightestTrail (tiers : List StopLossTier) : Option Nat :=
  (tiers.filter (·.active)).foldl (fun prev tier => some (prev.elim tier.trailPct (min · tier.trailPct))) none

/-- `calculate_trailing_stop`: the trail below the highest price. -/
def calculateTrailingStop (highestPrice : Int) (trailPct : Nat) : X Int := do
  let product ← plain (highestPrice * (100 - trailPct))
  return product.tdiv 100

/-- Everything that is left is sold, if the price is below the stop. -/
def trail (id : Nat) (price : Int) (s : ExitStrategy) : Option Nat → X (ExitStrategy × List Nat)
  | none => return (s, [])
  | some trailPct => do
    let stopPrice ← calculateTrailingStop s.highestPrice trailPct
    if price < stopPrice ∧ 0 < s.currentPositionSize then do
      let tradeId ← executeSell s.signalId s.currentPositionSize price
      note id (.sold none s.currentPositionSize s.currentPositionSize)
      return ({ s with currentPositionSize := 0, status := .stopHit }, [tradeId])
    else return (s, [])

/-- The stops that the profit activates; the tightest one sells what is left. -/
def trailingStops (id : Nat) (price : Int) (s : ExitStrategy) : X (ExitStrategy × List Nat) :=
  if 0 < s.currentPositionSize then do
    let profitPct ← currentProfitPct s.entryPrice price
    let tiers := activate profitPct s.stopLossTiers
    trail id price { s with stopLossTiers := tiers } (tightestTrail tiers)
  else return (s, [])

/-- An active strategy of which nothing is left is complete. -/
def ExitStrategy.marked (s : ExitStrategy) : ExitStrategy :=
  if s.currentPositionSize = 0 ∧ s.status = .active then { s with status := .complete } else s

/-- The exits of an active strategy. -/
def executeExits (id : Nat) (price : Int) (s : ExitStrategy) : X (List Nat) := do
  let highestPrice := if s.highestPrice < price then price else s.highestPrice
  let sold ← takeProfits id s.signalId price 0 s.currentPositionSize s.takeProfitTiers
  let stopped ← trailingStops id price
    { s with highestPrice, currentPositionSize := sold.1, takeProfitTiers := sold.2.1 }
  save id stopped.1.marked
  return sold.2.2 ++ stopped.2

/-- `check_and_execute_exits`: the tiers first, then the stops. -/
def checkAndExecuteExits (strategyId : Nat) (currentPrice : Int) : X (List Nat) := do
  let strategy ← load strategyId
  if strategy.status = .active then executeExits strategyId currentPrice strategy else return []

/-! ### Strategies -/

/-- `create_exit_strategy`: an active strategy for the position. -/
def createExitStrategy (user : Address) (signalId : Nat) (entryPrice positionSize : Int)
    (takeProfitTiers : List TakeProfitTier) (stopLossTiers : List StopLossTier) : X Nat := do
  Tx.failIf (entryPrice ≤ 0 ∨ positionSize ≤ 0) (err .invalidAmount)
  Tx.failIf (takeProfitTiers = []) (err .invalidExitConfig)
  let id ← nextId
  save id ⟨user, signalId, entryPrice, positionSize, takeProfitTiers, stopLossTiers, entryPrice, .active⟩
  addUserStrategy user id
  return id

/-- `adjust_position_size`: what is left is set, whatever the status. -/
def adjustPositionSize (user : Address) (strategyId : Nat) (newSize : Int) : X Unit := do
  let strategy ← load strategyId
  Tx.failIf (strategy.user ≠ user) (err .unauthorized)
  Tx.failIf (newSize < 0) (err .invalidAmount)
  save strategyId { strategy with
    currentPositionSize := newSize
    status := if newSize = 0 then .complete else strategy.status }

/-- The take-profit tiers of a preset: prices in percent of the entry price, and shares in basis points. -/
def presetTiers (entryPrice : Int) : List (Int × Nat) → X (List TakeProfitTier)
  | [] => return []
  | (pct, share) :: l => do
    let product ← plain (entryPrice * pct)
    let tps ← presetTiers entryPrice l
    return ⟨product.tdiv 100, share, false⟩ :: tps

/-- A strategy with the tiers of a preset. -/
def preset (targets : List (Int × Nat)) (stops : List StopLossTier) (user : Address) (signalId : Nat)
    (entryPrice positionSize : Int) : X Nat := do
  let tps ← presetTiers entryPrice targets
  createExitStrategy user signalId entryPrice positionSize tps stops

/-- Conservative: targets at +20%, +50% and +100%, and a trail of 10% from the start. -/
def presetConservative : Address → Nat → Int → Int → X Nat :=
  preset [(120, 3333), (150, 5000), (200, 10000)] [⟨0, 10, true⟩]

/-- Balanced: targets at +30% and +80%, and a trail of 10% that tightens to 7%. -/
def presetBalanced : Address → Nat → Int → Int → X Nat :=
  preset [(130, 5000), (180, 10000)] [⟨0, 10, true⟩, ⟨20, 7, false⟩]

/-- Aggressive: targets at +15%, +30%, +60% and +150%, and a tight trail after a profit of 50%. -/
def presetAggressive : Address → Nat → Int → Int → X Nat :=
  preset [(115, 2500), (130, 3333), (160, 5000), (250, 10000)] [⟨0, 10, true⟩, ⟨20, 7, false⟩, ⟨50, 5, false⟩]

/-! ## Runs -/

/-- The entrypoints with their arguments. -/
inductive Call where
  | createExitStrategy (user : Address) (signalId : Nat) (entryPrice positionSize : Int)
      (takeProfitTiers : List TakeProfitTier) (stopLossTiers : List StopLossTier)
  | exitStrategyConservative (user : Address) (signalId : Nat) (entryPrice positionSize : Int)
  | createExitStrategyBalanced (user : Address) (signalId : Nat) (entryPrice positionSize : Int)
  | createExitStrategyAggressive (user : Address) (signalId : Nat) (entryPrice positionSize : Int)
  | checkAndExecuteExits (strategyId : Nat) (currentPrice : Int)
  | adjustExitPosition (user : Address) (strategyId : Nat) (newSize : Int)

/-- A call for a user, who authorizes it. -/
def byUser (auth : Auth) (user : Address) (x : X Unit) : X Unit := do
  requireAuth auth user
  x

/-- A creation, entered under the id that it returns. -/
def creates (entryPrice positionSize : Int) (x : X Nat) : X Unit := do
  let id ← x
  note id (.created entryPrice positionSize)

/-- A check observes the price of a strategy that is active. -/
def observe (id : Nat) (price : Int) : X Unit := do
  let s ← Tx.gets (·.store.strategies.lookup id)
  Tx.when (∃ t ∈ s, t.status = .active) (note id (.observed price))

/-- The entry points, and what they are entered as if they are accepted. -/
def invoke (auth : Auth) : Call → X Unit
  | .createExitStrategy user signalId entryPrice positionSize tps sls =>
    byUser auth user <| creates entryPrice positionSize <|
      createExitStrategy user signalId entryPrice positionSize tps sls
  | .exitStrategyConservative user signalId entryPrice positionSize =>
    byUser auth user <| creates entryPrice positionSize <| presetConservative user signalId entryPrice positionSize
  | .createExitStrategyBalanced user signalId entryPrice positionSize =>
    byUser auth user <| creates entryPrice positionSize <| presetBalanced user signalId entryPrice positionSize
  | .createExitStrategyAggressive user signalId entryPrice positionSize =>
    byUser auth user <| creates entryPrice positionSize <| presetAggressive user signalId entryPrice positionSize
  | .checkAndExecuteExits strategyId currentPrice => do
    observe strategyId currentPrice
    Tx.void (checkAndExecuteExits strategyId currentPrice)
  | .adjustExitPosition user strategyId newSize => byUser auth user do
    adjustPositionSize user strategyId newSize
    note strategyId (.adjusted newSize)

/-- A call, or the time goes on. -/
inductive Event where
  | call (auth : Auth) (c : Call)
  | advance (ledger : Ledger)

/-- What an event leaves; a call that fails is undone. -/
def next (w : World) : Event → World
  | .call auth c => (invoke auth c).exec w
  | .advance ledger => { w with ledger }

/-- Any call may be made; the time does not go back. -/
def Allowed (w : World) : Event → Prop
  | .call .. => True
  | .advance ledger => w.ledger.Before ledger

instance (w : World) : (ev : Event) → Decidable (Allowed w ev)
  | .call .. => inferInstanceAs (Decidable True)
  | .advance ledger => inferInstanceAs (Decidable (w.ledger.Before ledger))

/-- The step relation of the runs. -/
def Step (w : World) (ev : Event) (w' : World) : Prop := Allowed w ev ∧ w' = next w ev

def World.deployed (ledger : Ledger) : World := ⟨ledger, .deployed, fun _ => []⟩

end CallStake.ExitStrategies
