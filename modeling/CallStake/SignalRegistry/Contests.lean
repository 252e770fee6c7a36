import CallStake.Lib.Bytes
import CallStake.Lib.Sorting
import CallStake.Lib.Store
import CallStake.Shared.Host

/-!
# Contests

`signal_registry::contests`: contests among the providers of signals. The signals of a provider enter the open
contests, the trades of these signals count for the entries, and when a contest has ended the best entries win.

* `Host`: what the functions take from the host. `Host.rank` is the order in which a map keeps its addresses.
* `Event`, `next`, `Step`: calls in any order while ledgers close.

Left out: events, the other fields of a signal, the authorization and the pause that the contract asks for before a
contest is created, and the views that read a contest back.
-/

namespace CallStake.Contests

/-- Minimum ledgers that must elapse between contest creation and finalization. -/
def MIN_RANDOMNESS_DELAY_LEDGERS : Nat := 5

/-! ## Data -/

/-- What the entries of a contest are ranked by. -/
inductive ContestMetric where
  | highestROI
  | bestSuccessRate
  | mostVolume
  | mostFollowers
  deriving DecidableEq

/-- How far a contest has come. -/
inductive ContestStatus where
  | active
  | finalized
  | cancelled
  deriving DecidableEq

/-- The entry of a provider. -/
structure ContestEntry where
  provider : Address
  signalsSubmitted : List Nat
  totalRoi : Int
  successRate : Nat
  totalVolume : Int
  score : Int

/-- A contest, with its entries. -/
structure Contest where
  id : Nat
  name : String
  startTime : Nat
  endTime : Nat
  metric : ContestMetric
  minSignals : Nat
  entries : Store Address ContestEntry
  winners : List Address
  prizePool : Int
  status : ContestStatus
  randomSeed : Nat
  finalizeAfterLedger : Nat

/-- A signal, and whose it is. -/
structure Signal where
  id : Nat
  provider : Address

/-- The errors of the contests. -/
inductive ContestError where
  | invalidTimeRange
  | invalidPrizePool
  | contestNotFound
  | contestNotEnded
  | alreadyFinalized
  | randomnessNotAvailable

/-- `prizes` are stored under the id of the contest and the winner. -/
structure Storage where
  contestCounter : Nat
  contests : Store Nat Contest
  activeContests : List Nat
  prizes : Store (Nat × Address) Int

def Storage.deployed : Storage := ⟨0, ∅, [], ∅⟩

/-- The ledger and the storage. -/
structure World where
  ledger : Ledger
  store : Storage

/-- `env.crypto().sha256`, `address.to_string()`, and the place of an address in the order of the host. -/
structure Host where
  sha256 : Bytes → BytesN 32
  strkey : Address → Bytes
  rank : Address → Nat

/-! ## Functions -/

abbrev C := Tx World (Fault ContestError)

def err (e : ContestError) : Fault ContestError := .err e

/-- A plain operation on `i128`, which traps on overflow. -/
def plain (x : Int) : C Int := Tx.ofOption (checked x) .panic

def save (f : Storage → Storage) : C Unit := Tx.modify fun w => { w with store := f w.store }

/-- `create_contest`: an open contest under the next identifier. -/
def createContest (name : String) (startTime endTime : Nat) (metric : ContestMetric) (minSignals : Nat)
    (prizePool : Int) : C Nat := do
  let ledger ← Tx.gets (·.ledger)
  Tx.failIf (endTime ≤ startTime) (err .invalidTimeRange)
  Tx.failIf (endTime ≤ ledger.timestamp) (err .invalidTimeRange)
  Tx.failIf (prizePool < 0) (err .invalidPrizePool)
  let counter ← Tx.gets (·.store.contestCounter)
  Tx.failIf (u64Max < counter + 1) .panic
  save fun s => { s with contestCounter := counter + 1 }
  save fun s => { s with contests := s.contests.insert (counter + 1) {
    id := counter + 1
    name, startTime, endTime, metric, minSignals
    entries := ∅
    winners := []
    prizePool
    status := .active
    randomSeed := counter + 1
    finalizeAfterLedger := u32Add ledger.sequence MIN_RANDOMNESS_DELAY_LEDGERS } }
  save fun s => { s with activeContests := s.activeContests ++ [counter + 1] }
  return counter + 1

/-- `calculate_contest_score`: the score by the metric of the contest. -/
def calculateContestScore (entry : ContestEntry) : ContestMetric → Int
  | .highestROI => entry.totalRoi
  | .bestSuccessRate => entry.successRate
  | .mostVolume => entry.totalVolume
  | .mostFollowers => 0

/-- The contest takes signals and trades. -/
def Contest.Open (c : Contest) (now : Nat) : Prop := c.status = .active ∧ c.startTime ≤ now ∧ now ≤ c.endTime

instance (c : Contest) (now : Nat) : Decidable (c.Open now) := inferInstanceAs (Decidable (_ ∧ _))

/-- The entry is stored with its score. -/
def Contest.withEntry (c : Contest) (provider : Address) (entry : ContestEntry) : Contest :=
  { c with entries := c.entries.insert provider { entry with score := calculateContestScore entry c.metric } }

/-- `if let Some(contest) = contests.get(id) { .. contests.set(id, ..) }`, where `f` says what is set, and none that
nothing is. -/
def updateOne (f : Contest → Option Contest) (contests : Store Nat Contest) (id : Nat) : Store Nat Contest :=
  match (contests.lookup id).bind f with
  | some c => contests.insert id c
  | none => contests

/-- The active contests in turn. -/
def updateEach (f : Contest → Option Contest) (contests : Store Nat Contest) (active : List Nat) :
    Store Nat Contest := active.foldl (updateOne f) contests

/-- The contest with one more signal of the provider, if it is open. -/
def Contest.entered (now : Nat) (signal : Signal) (c : Contest) : Option Contest :=
  if c.Open now then
    let entry := (c.entries.lookup signal.provider).getD ⟨signal.provider, [], 0, 0, 0, 0⟩
    some (c.withEntry signal.provider { entry with signalsSubmitted := entry.signalsSubmitted ++ [signal.id] })
  else none

/-- `auto_enter_signal`: the signal enters every open contest. -/
def autoEnterSignal (signal : Signal) : C Unit := do
  let now ← Tx.gets (·.ledger.timestamp)
  save fun s => { s with contests := updateEach (·.entered now signal) s.contests s.activeContests }

/-- The entry with the trade, if it lists the signal. -/
def Contest.traded (now signalId : Nat) (provider : Address) (tradeRoi volume : Int) (c : Contest) :
    Option Contest :=
  if c.Open now then
    match c.entries.lookup provider with
    | none => none
    | some entry =>
      if signalId ∈ entry.signalsSubmitted then
        some (c.withEntry provider { entry with
          totalRoi := saturatingAdd entry.totalRoi tradeRoi
          totalVolume := saturatingAdd entry.totalVolume volume })
      else none
  else none

/-- `apply_trade_to_contest_entries`: the trade counts for the entries with its signal. -/
def applyTradeToContestEntries (signalId : Nat) (provider : Address) (tradeRoi volume : Int) : C Unit := do
  let now ← Tx.gets (·.ledger.timestamp)
  save fun s => { s with
    contests := updateEach (·.traded now signalId provider tradeRoi volume) s.contests s.activeContests }

section Finalize

variable (host : Host)

/-- The first 8 bytes of `SHA-256(seed_bytes || finalize_ledger_bytes)`, as a big-endian `u64`. -/
def deriveTiebreakNonce (randomSeed ledgerSequence : Nat) : Nat :=
  ((host.sha256 (toBeBytes 8 randomSeed ++ toBeBytes 4 ledgerSequence)).1.take 8).foldl
    (fun n b => n * 256 + b.toNat) 0

/-- XOR-fold the first 8 bytes of the address against the nonce. -/
def providerTiebreakKey (nonce : Nat) (provider : Address) : Nat :=
  ((host.strkey provider).take 8).zipIdx.foldl (fun key b => key ^^^ (b.1.toNat <<< (b.2 * 8))) nonce

/-- The order of the entries; a tie is broken at random. -/
def shouldSwap (nonce : Nat) (a b : ContestEntry) : Bool :=
  if a.score ≠ b.score then a.score < b.score
  else providerTiebreakKey host nonce b.provider < providerTiebreakKey host nonce a.provider

/-- `contest.entries.keys()`. -/
def Contest.entryKeys (c : Contest) : List Address := c.entries.keys.insertionSort (host.rank · ≤ host.rank ·)

/-- The entries with enough signals. -/
def Contest.qualifiedEntries (c : Contest) : List ContestEntry :=
  (c.entryKeys host).filterMap fun key =>
    (c.entries.lookup key).filter fun entry => c.minSignals ≤ entry.signalsSubmitted.length

/-- 1st: 50%, 2nd: 30%, 3rd: 20%. -/
def percentages : List Int := [50, 30, 20]

/-- The prize of a winner. -/
def storePrize (contest : Contest) (share : Address × Int) : C Unit := do
  let product ← plain (contest.prizePool * share.2)
  save fun s => { s with prizes := s.prizes.insert (contest.id, share.1) (product.tdiv 100) }

/-- `distribute_prize_pool`: every winner gets its percentage. -/
def distributePrizePool (contest : Contest) (winners : List Address) : C Unit :=
  if contest.prizePool = 0 ∨ winners = [] then return ()
  else Tx.each (storePrize contest) (winners.zip percentages)

/-- `finalize_contest`: the entries are ranked, and the winners stored. -/
def finalizeContest (contestId : Nat) : C (List Address) := do
  let ledger ← Tx.gets (·.ledger)
  let found ← Tx.gets (·.store.contests.lookup contestId)
  let contest ← Tx.ofOption found (err .contestNotFound)
  Tx.failIf (ledger.timestamp < contest.endTime) (err .contestNotEnded)
  Tx.failIf (contest.status ≠ .active) (err .alreadyFinalized)
  Tx.failIf (ledger.sequence < contest.finalizeAfterLedger) (err .randomnessNotAvailable)
  let nonce := deriveTiebreakNonce host contest.randomSeed ledger.sequence
  let sorted := bubbleSortBy (shouldSwap host nonce) (contest.qualifiedEntries host)
  let winners := (sorted.take 3).map (·.provider)
  distributePrizePool contest winners
  save fun s => { s with contests := s.contests.insert contestId { contest with winners, status := .finalized } }
  save fun s => { s with activeContests := s.activeContests.filter (· ≠ contestId) }
  return winners

end Finalize

/-- `get_provider_prize`: nothing for those who did not win. -/
def getProviderPrize (w : World) (contestId : Nat) (provider : Address) : Int :=
  (w.store.prizes.lookup (contestId, provider)).getD 0

/-! ## Runs -/

/-- The entrypoints with their arguments. -/
inductive Call where
  | createContest (name : String) (startTime endTime : Nat) (metric : ContestMetric) (minSignals : Nat)
      (prizePool : Int)
  | autoEnterSignal (signal : Signal)
  | applyTradeToContestEntries (signalId : Nat) (provider : Address) (tradeRoi volume : Int)
  | finalizeContest (contestId : Nat)

def invoke (host : Host) : Call → C Unit
  | .createContest name startTime endTime metric minSignals prizePool =>
    Tx.void (createContest name startTime endTime metric minSignals prizePool)
  | .autoEnterSignal signal => autoEnterSignal signal
  | .applyTradeToContestEntries signalId provider tradeRoi volume =>
    applyTradeToContestEntries signalId provider tradeRoi volume
  | .finalizeContest contestId => Tx.void (finalizeContest host contestId)

/-- A call, or the time goes on. -/
inductive Event where
  | call (c : Call)
  | advance (ledger : Ledger)

/-- What an event leaves; a call that fails is undone. -/
def next (host : Host) (w : World) : Event → World
  | .call c => (invoke host c).exec w
  | .advance ledger => { w with ledger }

/-- Any call may be made; the time does not go back. -/
def Allowed (w : World) : Event → Prop
  | .call _ => True
  | .advance ledger => w.ledger.Before ledger

instance (w : World) : (ev : Event) → Decidable (Allowed w ev)
  | .call _ => inferInstanceAs (Decidable True)
  | .advance ledger => inferInstanceAs (Decidable (w.ledger.Before ledger))

/-- The step relation of the runs. -/
def Step (host : Host) (w : World) (ev : Event) (w' : World) : Prop := Allowed w ev ∧ w' = next host w ev

def World.deployed (ledger : Ledger) : World := ⟨ledger, .deployed⟩

end CallStake.Contests
