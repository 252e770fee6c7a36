import CallStake.Lib.Tickets
import CallStake.StakeVault.Effects

/-!
# The time-lock of large withdrawals

A payout of `LARGE_WITHDRAWAL_THRESHOLD` or more uses up the request that its staker made before.

* `Act`: what a run does that the time-lock is about: deposits, requests, and the payouts of
  `withdrawStake`, `partialUnstake` and `processUnstakeQueue`. `actsOf`, `acts`: those of an event and of a
  run, oldest first.
* `Recorded acts w`: the requests stored in `w` are the open ones of `acts`, and the ledgers stored are
  those of the last deposits. `Recorded.step`: every event keeps it.
* `large_payouts_time_locked`: every large payout of a run has a request of its own, the cooldown in force
  before it (up to the last moment of the clock), and no payout is in a ledger of an earlier deposit.
-/

namespace CallStake.StakeVault

open List

variable {τ : Type}

/-- What an accepted call has done to a withdrawal. -/
inductive Act where
  | deposited (staker : Address) (sequence : Nat)
  | requested (staker : Address) (requestedAt : Nat)
  /-- A payout, with the cooldown in force and the ledger it is in. -/
  | paid (staker : Address) (amount : Int) (cooldown : Nat) (ledger : Ledger)
  deriving DecidableEq

/-- The request that an act makes. -/
def Act.request? : Act → Option (Address × Nat)
  | .requested staker requestedAt => some (staker, requestedAt)
  | _ => none

/-- The payout of an act that needs a request: the cooldown in force, and the time. -/
def Act.large? : Act → Option (Address × Nat × Nat)
  | .paid staker amount cooldown ledger =>
    if LARGE_WITHDRAWAL_THRESHOLD ≤ amount then some (staker, cooldown, ledger.timestamp) else none
  | _ => none

/-- The cooldown `payout.1` has passed since the request at the time `payout.2`. -/
def Elapsed (requestedAt : Nat) (payout : Nat × Nat) : Prop := u64Add requestedAt payout.1 ≤ payout.2

/-- The second act is not a payout in the ledger in which the first deposits. -/
def Apart : Act → Act → Prop
  | .deposited staker sequence, .paid staker' _ _ ledger =>
    staker' = staker → ledger.sequence = sequence → sequence = 0
  | _, _ => True

/-- The payout that a log entry is, in a call made in `w`. -/
def payout? (self : Address) (w : World τ) : LogEntry → Option Act
  | .transfer _ src dst amount =>
    if src = self then some (.paid dst amount w.store.config.withdrawalCooldownSecs w.ledger) else none
  | _ => none

/-- The payouts of a call that led from `w` to `w'`. -/
def payouts (self : Address) (w w' : World τ) : List Act :=
  (w'.log.take (w'.log.length - w.log.length)).reverse.filterMap (payout? self w)

/-- The acts of a call that led from `w` to `w'`. -/
def callActs (self : Address) (w w' : World τ) : Call → List Act
  | .depositStake staker _ => [.deposited staker w.ledger.sequence]
  | .requestWithdrawal staker =>
    if getStake w.store staker < LARGE_WITHDRAWAL_THRESHOLD then []
    else [.requested staker w.ledger.timestamp]
  | .withdrawStake _ | .partialUnstake .. | .processUnstakeQueue _ => payouts self w w'
  | _ => []

section Runs

variable (T : Tokens τ) (self : Address)

def actsOf (w : World τ) : Event τ → List Act
  | .call auth c =>
    match invoke ⟨T, self, auth⟩ c w with
    | (.ok _, w') => callActs self w w' c
    | (.error _, _) => []
  | .advance _ | .external _ => []

/-- The acts of a run from `w`, oldest first. -/
def acts (w : World τ) : List (Event τ) → List Act
  | [] => []
  | ev :: evs => actsOf T self w ev ++ acts (next T self w ev) evs

end Runs

/-! ## What the storage knows of the acts -/

/-- The pending request of each staker. -/
def pendingRequests (w : World τ) (staker : Address) : Option Nat :=
  w.store.guards.largeWithdrawalRequestedAt.lookup staker

/-- The ledger of the last deposit of a staker. -/
def lastDeposit (w : World τ) (staker : Address) : Nat := (w.store.guards.lastStakeLedger.lookup staker).getD 0

structure Recorded (done : List Act) (w : World τ) : Prop where
  requests : Tickets.Honoured Act.request? Act.large? Elapsed done (pendingRequests w)
  deposits (staker : Address) (sequence : Nat) (h : .deposited staker sequence ∈ done) :
    sequence ≤ lastDeposit w staker
  last (staker : Address) : lastDeposit w staker ≤ w.ledger.sequence
  apart : done.Pairwise Apart

section Steps

variable {env : Env τ} {T : Tokens τ} {self : Address} {w w' : World τ} {done : List Act} {staker : Address}

theorem recorded_deployed (ledger : Ledger) (token : τ) : Recorded [] (World.deployed ledger token) where
  requests := .nil
  deposits _ _ h := by cases h
  last _ := Nat.zero_le _
  apart := .nil

/-- Only the requests, the ledgers of the deposits and the ledger are looked at. -/
theorem Recorded.congr (h : Recorded done w)
    (hr : w'.store.guards.largeWithdrawalRequestedAt = w.store.guards.largeWithdrawalRequestedAt)
    (hd : w'.store.guards.lastStakeLedger = w.store.guards.lastStakeLedger)
    (hl : w.ledger.sequence ≤ w'.ledger.sequence) : Recorded done w' := by
  have hpending : pendingRequests w' = pendingRequests w := by unfold pendingRequests; rw [hr]
  have hlast : lastDeposit w' = lastDeposit w := by unfold lastDeposit; rw [hd]
  constructor
  · rw [hpending]
    exact h.requests
  · rw [hlast]
    exact h.deposits
  · rw [hlast]
    exact fun staker => Nat.le_trans (h.last staker) hl
  · exact h.apart

/-- What may follow the acts of a run: nothing in the ledger of a deposit. -/
theorem pairwise_snoc {a : Act} (h : done.Pairwise Apart) (ha : ∀ b ∈ done, Apart b a) :
    (done ++ [a]).Pairwise Apart :=
  List.pairwise_append.mpr ⟨h, pairwise_singleton Apart a, by simpa using ha⟩

theorem Recorded.deposit (h : Recorded done w) {token : Address} {amount : Int} {t : τ} :
    Recorded (done ++ [.deposited staker w.ledger.sequence]) (w.afterDeposit env token staker amount t) where
  requests := h.requests.skip rfl rfl
  deposits a n hd := by
    have hlast : lastDeposit (w.afterDeposit env token staker amount t) a =
        if a = staker then w.ledger.sequence else lastDeposit w a := by
      simp only [lastDeposit, World.afterDeposit, Store.getD_insert]
    rw [hlast]
    rcases List.mem_append.mp hd with hd | hd
    · have := h.deposits a n hd
      have := h.last a
      split <;> omega
    · cases List.mem_singleton.mp hd
      simp
  last a := by
    have := h.last a
    simp only [lastDeposit, World.afterDeposit, Store.getD_insert] at this ⊢
    split <;> omega
  apart := pairwise_snoc h.apart fun b _ => by cases b <;> trivial

theorem Recorded.request (h : Recorded done w) :
    Recorded (done ++ [.requested staker w.ledger.timestamp])
      { w with store := { w.store with
        guards.largeWithdrawalRequestedAt :=
          w.store.guards.largeWithdrawalRequestedAt.insert staker w.ledger.timestamp } } where
  requests := by
    have hslots : pendingRequests { w with store := { w.store with
        guards.largeWithdrawalRequestedAt :=
          w.store.guards.largeWithdrawalRequestedAt.insert staker w.ledger.timestamp } } =
        Function.update (pendingRequests w) staker (some w.ledger.timestamp) := by
      funext a
      simp only [pendingRequests, Store.lookup_insert_eq, Function.update_apply]
    rw [hslots]
    exact h.requests.issue rfl rfl
  deposits a n hd := by
    rcases List.mem_append.mp hd with hd | hd
    · exact h.deposits a n hd
    · cases List.mem_singleton.mp hd
  last a := h.last a
  apart := pairwise_snoc h.apart fun b _ => by cases b <;> trivial

/-- A payout that passed the checks of a stake uses a request if it is large. -/
theorem Recorded.payout (h : Recorded done w) (env : Env τ) (token : Address) (t : τ) {info : StakeInfoV2}
    {amount : Int} (hw : Withdrawable w staker info amount) :
    Recorded (done ++ [.paid staker amount w.store.config.withdrawalCooldownSecs w.ledger])
      (w.afterPayout env token staker info amount t) where
  requests := by
    by_cases hlarge : LARGE_WITHDRAWAL_THRESHOLD ≤ amount
    · obtain ⟨requestedAt, hr, he⟩ := hw.timelock hlarge
      have hslots : pendingRequests (w.afterPayout env token staker info amount t) =
          Function.update (pendingRequests w) staker none := by
        funext a
        simp [pendingRequests, World.afterPayout, GuardStorage.consume, hlarge, Store.lookup_erase_eq,
          Function.update_apply]
      rw [hslots]
      have huse : Act.large? (.paid staker amount w.store.config.withdrawalCooldownSecs w.ledger) =
          some (staker, w.store.config.withdrawalCooldownSecs, w.ledger.timestamp) := if_pos hlarge
      exact h.requests.use huse hr he
    · have hslots : pendingRequests (w.afterPayout env token staker info amount t) = pendingRequests w := by
        funext a
        simp [pendingRequests, World.afterPayout, GuardStorage.consume, hlarge]
      rw [hslots]
      exact h.requests.skip rfl (if_neg hlarge)
  deposits a n hd := by
    have hlast : lastDeposit (w.afterPayout env token staker info amount t) a = lastDeposit w a := by
      simp only [lastDeposit, World.afterPayout, GuardStorage.consume]
      split <;> rfl
    rw [hlast]
    rcases List.mem_append.mp hd with hd | hd
    · exact h.deposits a n hd
    · cases List.mem_singleton.mp hd
  last a := by
    have hlast : lastDeposit (w.afterPayout env token staker info amount t) a = lastDeposit w a := by
      simp only [lastDeposit, World.afterPayout, GuardStorage.consume]
      split <;> rfl
    rw [hlast]
    exact h.last a
  apart := by
    refine pairwise_snoc h.apart fun b hb => ?_
    cases b with
    | deposited =>
      rintro rfl rfl
      -- the last deposit was in this ledger
      have h1 := h.deposits staker _ hb
      have h2 := h.last staker
      by_contra h0
      exact hw.noFlashLoan ⟨by unfold lastDeposit at h1 h2; omega, h0⟩
    | requested => trivial
    | paid => trivial

theorem payouts_eq {entries : List LogEntry} (h : w'.log = entries ++ w.log) :
    payouts self w w' = entries.reverse.filterMap (payout? self w) := by
  unfold payouts
  rw [h, length_append, Nat.add_sub_cancel, take_left]

theorem payouts_self : payouts self w w = [] := payouts_eq (nil_append _).symm

/-- One payout that was logged. -/
theorem payouts_transfer {token : Address} {amount : Int}
    (h : w'.log = .transfer token self staker amount :: w.log) :
    payouts self w w' = [.paid staker amount w.store.config.withdrawalCooldownSecs w.ledger] := by
  have hone : w'.log = [.transfer token self staker amount] ++ w.log := h
  rw [payouts_eq hone]
  simp [payout?]

/-- A request of the queue was paid: the log has the payout and the end of the request. -/
theorem payouts_dequeued {entries : List LogEntry} {token user : Address} {ticket : Nat} {amount : Int} :
    (LogEntry.unstakeProcessed user ticket amount :: .transfer token self user amount ::
        entries).reverse.filterMap (payout? self w) =
      entries.reverse.filterMap (payout? self w) ++
        [.paid user amount w.store.config.withdrawalCooldownSecs w.ledger] := by
  simp [filterMap_cons, payout?]

/-- The rounds of the unstake queue pay one request after another. -/
theorem Recorded.process (h : Recorded done w) {limit tail fuel m head h' : Nat} {w₁ : World τ}
    (hd : processLoop env limit tail fuel 0 head w = (.ok (m, h'), w₁)) :
    Recorded (done ++ payouts env.self w w₁) w₁ := by
  let P : Nat → World τ → Prop := fun _ w₁ => w₁.ledger = w.ledger ∧ w₁.store.config = w.store.config ∧
    ∃ entries, w₁.log = entries ++ w.log ∧ Recorded (done ++ entries.reverse.filterMap (payout? env.self w)) w₁
  have h0 : P head w := ⟨rfl, rfl, [], rfl, by simpa using h⟩
  have hpay : ∀ head w₂ request amount w₃, P head w₂ → head < tail →
      w₂.store.queue.unstakeQueueEntry.lookup head = some request →
      doWithdraw env request.user w₂ = (.ok amount, w₃) →
      P (u64Add head 1) (w₃.dequeued head request amount) := by
    rintro head w₂ request amount w₃ ⟨hledger, hconfig, entries, hlog, hrec⟩ - - hd
    obtain ⟨-, token, -, info, hw, -, t, -, rfl⟩ := doWithdraw_ok.mp hd
    refine ⟨hledger, hconfig, .unstakeProcessed request.user request.ticket amount ::
      .transfer token env.self request.user amount :: entries, by
        simp [World.dequeued, World.afterPayout, hlog], ?_⟩
    have hpaid := hrec.payout env token t hw
    rw [hledger, hconfig, append_assoc] at hpaid
    rw [payouts_dequeued]
    exact hpaid.congr rfl rfl (Nat.le_refl _)
  obtain ⟨_, _, w₂, hr, -, -, entries, hlog, hrec⟩ :=
    processLoop_rule env limit tail fuel 0 (P := P) (fun _ _ hP _ _ => hP) hpay h0
  rw [hr] at hd
  cases hd
  rw [payouts_eq hlog]
  exact hrec

theorem requestWithdrawal_ok {u : Unit} (h : requestWithdrawal env staker w = (.ok u, w')) :
    getStake w.store staker < LARGE_WITHDRAWAL_THRESHOLD ∧ w' = w ∨
      ¬ getStake w.store staker < LARGE_WITHDRAWAL_THRESHOLD ∧
        w' = { w with store := { w.store with
          guards.largeWithdrawalRequestedAt :=
            w.store.guards.largeWithdrawalRequestedAt.insert staker w.ledger.timestamp } } := by
  obtain ⟨-, h⟩ := bind_requireAuth_ok.mp h
  simp only [Tx.bind_ok, requireNotPaused_ok, load_ok] at h
  obtain ⟨_, _, ⟨-, rfl⟩, _, _, ⟨rfl, rfl⟩, h⟩ := h
  split at h
  · exact .inl ⟨‹_›, (Tx.pure_ok.mp h).2.symm⟩
  · simp at h
    obtain ⟨_, _, ⟨rfl, rfl⟩, rfl⟩ := h
    exact .inr ⟨‹_›, rfl⟩

/-- A call that returned adds its acts. -/
theorem Recorded.call (h : Recorded done w) {auth : Auth} {c : Call}
    (hc : invoke ⟨T, self, auth⟩ c w = (.ok (), w')) : Recorded (done ++ callActs self w w' c) w' := by
  have hsame := (invoke_writes ⟨T, self, auth⟩ c).of_run hc
  cases c with
  | depositStake =>
    obtain ⟨-, -, -, -, token, -, -, -, t, -, rfl⟩ := depositStake_ok.mp hc
    exact h.deposit
  | requestWithdrawal =>
    rcases requestWithdrawal_ok hc with ⟨hlow, rfl⟩ | ⟨hlarge, rfl⟩
    · rw [callActs, if_pos hlow, append_nil]
      exact h
    · rw [callActs, if_neg hlarge]
      exact h.request
  | withdrawStake =>
    obtain ⟨n, hn⟩ := Tx.void_ok.mp hc
    obtain ⟨-, w₁, hd, rfl⟩ := withdrawStake_ok hn
    obtain ⟨-, token, -, info, hw, -, t, -, rfl⟩ := doWithdraw_ok.mp hd
    rw [callActs, payouts_transfer rfl]
    exact (h.payout ⟨T, self, auth⟩ token t hw).congr rfl rfl (Nat.le_refl _)
  | partialUnstake =>
    obtain ⟨n, hn⟩ := Tx.void_ok.mp hc
    obtain ⟨-, -, w₁, hd, rfl⟩ := partialUnstake_ok hn
    obtain ⟨-, token, -, info, hw, -, t, -, rfl⟩ := doPartialUnstake_ok hd
    rw [callActs, payouts_transfer rfl]
    exact (h.payout ⟨T, self, auth⟩ token t hw).congr rfl rfl (Nat.le_refl _)
  | processUnstakeQueue =>
    obtain ⟨n, hn⟩ := Tx.void_ok.mp hc
    rcases processUnstakeQueue_ok hn with rfl | ⟨-, m, h', w₁, hd, rfl⟩
    · rw [callActs, payouts_self, append_nil]
      exact h
    · exact (h.process hd).congr rfl rfl (Nat.le_refl _)
  | notifyStakeBelowMinimum =>
    simp only [invoke, notifyStakeBelowMinimum, Tx.bind_ok, load_ok] at hc
    obtain ⟨_, _, ⟨-, rfl⟩, _, _, ⟨-, rfl⟩, hc⟩ := hc
    change Recorded (done ++ []) w'
    rw [append_nil]
    split at hc
    · rw [← (Tx.pure_ok.mp hc).2]
      exact h
    · simp at hc
      obtain ⟨_, _, ⟨-, rfl⟩, rfl⟩ := hc
      exact h.congr rfl rfl (Nat.le_refl _)
  | checkSignalSubmissionAllowed =>
    simp only [invoke, checkSignalSubmissionAllowed, Tx.bind_ok, load_ok] at hc
    obtain ⟨_, _, ⟨-, rfl⟩, _, _, ⟨-, rfl⟩, hc⟩ := hc
    change Recorded (done ++ []) w'
    rw [append_nil]
    split at hc
    · rw [← save_ok.mp hc]
      exact h.congr rfl rfl (Nat.le_refl _)
    · simp only [Tx.bind_ok, timestamp_ok, load_ok, Tx.failIf_ok] at hc
      obtain ⟨_, _, ⟨-, rfl⟩, _, _, ⟨-, rfl⟩, -, rfl⟩ := hc
      exact h
  | _ =>
    have hg := hsame.guards (by simp [Call.footprint])
    change Recorded (done ++ []) w'
    rw [append_nil]
    exact h.congr (by rw [hg]) (by rw [hg]) (by rw [hsame.ledger])

/-- Every event adds its acts. -/
theorem Recorded.step (h : Recorded done w) {ev : Event τ} (ha : Allowed self w ev) :
    Recorded (done ++ actsOf T self w ev) (next T self w ev) := by
  cases ev with
  | call auth c =>
    rcases hc : invoke ⟨T, self, auth⟩ c w with ⟨r, w'⟩
    cases r with
    | ok u =>
      have hacts : actsOf T self w (.call auth c) = callActs self w w' c := by simp only [actsOf, hc]
      have hnext : next T self w (.call auth c) = w' := Tx.exec_of_ok hc
      rw [hacts, hnext]
      exact h.call hc
    | error e =>
      have hacts : actsOf T self w (.call auth c) = [] := by simp only [actsOf, hc]
      have hnext : next T self w (.call auth c) = w := Tx.exec_of_error hc
      rw [hacts, hnext, append_nil]
      exact h
  | advance =>
    rw [actsOf, append_nil]
    exact h.congr rfl rfl ha.2
  | external =>
    rw [actsOf, append_nil]
    exact h.congr rfl rfl (Nat.le_refl _)

theorem Recorded.run (h : Recorded done w) {evs : List (Event τ)}
    (ha : Reaches.Along (next T self) (Allowed self) w evs) :
    Recorded (done ++ acts T self w evs) (run T self w evs) := by
  induction evs generalizing done w with
  | nil =>
    rw [acts, append_nil]
    exact h
  | cons ev evs ih =>
    rw [acts, ← append_assoc]
    exact ih (h.step ha.1) ha.2

end Steps

/-- Each large payout is matched to a request of its own, made before it with the cooldown in force at the
payout in between (as a sum that stops at the last moment of the clock), and no payout is in a ledger other
than `0` in which its staker deposited before. -/
theorem large_payouts_time_locked {T : Tokens τ} {self : Address} {ledger : Ledger} {token : τ}
    {evs : List (Event τ)} (h : Reaches.Along (next T self) (Allowed self) (World.deployed ledger token) evs) :
    (∃ f, Tickets.Matching Act.request? Act.large? Elapsed (acts T self (World.deployed ledger token) evs) f) ∧
      (acts T self (World.deployed ledger token) evs).Pairwise Apart := by
  have hrec := (recorded_deployed ledger token).run (T := T) h
  rw [nil_append] at hrec
  obtain ⟨f, hf, -⟩ := hrec.requests.matching
  exact ⟨⟨f, hf⟩, hrec.apart⟩

namespace Sample

/-- Alice stakes enough for the time-lock, asks for her stake and takes it at `paidAt`. -/
def withdrawalRun (paidAt : Nat) : List (Event Unit) :=
  [call (.initializeVault admin stakeToken registry), call (.depositStake alice LARGE_WITHDRAWAL_THRESHOLD),
    call (.requestWithdrawal alice), .advance ⟨paidAt, 2⟩, call (.withdrawStake alice)]

def withdrawalActs (startedAt paidAt : Nat) : List Act :=
  [.deposited alice 1, .requested alice startedAt,
    .paid alice LARGE_WITHDRAWAL_THRESHOLD LARGE_WITHDRAWAL_TIMELOCK_SECS ⟨paidAt, 2⟩]

end Sample

open Sample in
/-- The withdrawal waits for the delay of its own request. -/
theorem alice_withdraws :
    Reaches.Along (next freeTokens vault) (Allowed vault) (World.deployed ⟨1000, 1⟩ ()) (withdrawalRun 5000) ∧
      acts freeTokens vault (World.deployed ⟨1000, 1⟩ ()) (withdrawalRun 5000) = withdrawalActs 1000 5000 ∧
      (∃ f, Tickets.Matching Act.request? Act.large? Elapsed
        (acts freeTokens vault (World.deployed ⟨1000, 1⟩ ()) (withdrawalRun 5000)) f) ∧
      (acts freeTokens vault (World.deployed ⟨1000, 1⟩ ()) (withdrawalRun 5000)).Pairwise Apart := by
  have h : Reaches.Along (next freeTokens vault) (Allowed vault) (World.deployed ⟨1000, 1⟩ ())
      (withdrawalRun 5000) := by decide +kernel
  exact ⟨h, by decide +kernel, large_payouts_time_locked h⟩

open Sample in
/-- At the last moment of the clock ten seconds are enough for a cooldown of an hour. -/
theorem last_moment_cuts_cooldown :
    Reaches.Along (next freeTokens vault) (Allowed vault) (World.deployed ⟨u64Max - 10, 1⟩ ())
        (withdrawalRun u64Max) ∧
      ¬ ∃ f, Tickets.Matching Act.request? Act.large?
        (fun requestedAt (payout : Nat × Nat) => requestedAt + payout.1 ≤ payout.2)
        (acts freeTokens vault (World.deployed ⟨u64Max - 10, 1⟩ ()) (withdrawalRun u64Max)) f := by
  have hacts : acts freeTokens vault (World.deployed ⟨u64Max - 10, 1⟩ ()) (withdrawalRun u64Max) =
      withdrawalActs (u64Max - 10) u64Max := by decide +kernel
  refine ⟨by decide +kernel, ?_⟩
  rw [hacts]
  rintro ⟨f, hf⟩
  obtain ⟨-, r, ⟨a, ha, hr⟩, hle⟩ := hf.served (i := 2) rfl rfl
  have hmem := mem_of_getElem? ha
  simp [withdrawalActs] at hmem
  rcases hmem with rfl | rfl | rfl
  · cases hr
  · cases hr
    exact absurd hle (by decide)
  · cases hr

end CallStake.StakeVault
