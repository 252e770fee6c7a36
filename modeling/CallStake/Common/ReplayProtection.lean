import CallStake.Lib.Store
import CallStake.Lib.Trace
import CallStake.Shared.Host

/-!
# Replay protection (`common::replay_protection`)

Each user commits transactions with consecutive nonces, and the hash of a transaction is not accepted again
for an hour. A queue of the committed hashes lets a keeper remove old ones.

* `verifyAndCommit`, `purgeExpiredNonces`: the operations, at a ledger time `now`.
* `Protected`: what the journal of a run says about the commits. A purge goes by the expiry of a
  transaction, not by the time of its commit, and may take a hash out within its hour
  (`Sample.purge_weakens_check`).
* `Harmless`: the purge takes out no such hash. `protected_of_harmless`: then every run is protected.
-/

namespace CallStake.ReplayProtection

open Tx

def TX_HASH_TTL_SECS : Nat := 3600

/-- The errors of the replay protection. -/
inductive ReplayError where
  | invalidNonce
  | duplicateTx
  | expired

/-- A transaction that was committed. -/
structure PendingNonceRecord where
  user : Address
  txHash : Bytes
  expiryTs : Nat

/-- The entries under `ReplayKey`. Their lifetimes are not part of the model. -/
structure ReplayStorage where
  userNonce : Store Address Nat
  txHash : Store Bytes Nat
  pendingQueue : List PendingNonceRecord

def ReplayStorage.empty : ReplayStorage := ⟨∅, ∅, []⟩

abbrev R := Tx ReplayStorage (Fault ReplayError)

/-! ## Operations -/

/-- The last nonce of a user. -/
def currentNonce (s : ReplayStorage) (user : Address) : Nat := (s.userNonce.lookup user).getD 0

def verifyAndCommit (now : Nat) (user : Address) (nonce : Nat) (txHash : Bytes) (expiryTs : Nat) :
    R Unit := do
  failIf (expiryTs < now) (.err .expired)
  let current ← Tx.gets fun s => currentNonce s user
  failIf (u64Max < current + 1) .panic
  failIf (nonce ≠ current + 1) (.err .invalidNonce)
  let executedAt ← Tx.gets fun s => s.txHash.lookup txHash
  failIf (∃ t ∈ executedAt, now - t < TX_HASH_TTL_SECS) (.err .duplicateTx)
  Tx.modify fun s => { s with userNonce := s.userNonce.insert user nonce }
  Tx.modify fun s => { s with txHash := s.txHash.insert txHash now }
  Tx.modify fun s => { s with pendingQueue := s.pendingQueue ++ [⟨user, txHash, expiryTs⟩] }

/-- The variables of the loop of `purge_expired_nonces`. -/
structure Scan where
  txHash : Store Bytes Nat
  remaining : List PendingNonceRecord
  purged : Nat

/-- The record at this place of the queue is purged. -/
def Due (now max : Nat) (e : PendingNonceRecord × Nat) : Prop := e.2 < max ∧ e.1.expiryTs < now
  deriving Decidable

def scanRecord (now max : Nat) (acc : Scan) (e : PendingNonceRecord × Nat) : Scan :=
  if Due now max e then
    { acc with txHash := acc.txHash.erase e.1.txHash, purged := u32Add acc.purged 1 }
  else { acc with remaining := acc.remaining ++ [e.1] }

def scan (now max : Nat) (s : ReplayStorage) : Scan :=
  s.pendingQueue.zipIdx.foldl (scanRecord now max) ⟨s.txHash, [], 0⟩

def purgeExpiredNonces (now max : Nat) : R Nat := do
  let result ← Tx.gets (scan now max)
  Tx.modify fun s => { s with txHash := result.txHash, pendingQueue := result.remaining }
  return result.purged

/-- What an accepted commit checked and wrote. -/
theorem verifyAndCommit_ok {now nonce expiryTs : Nat} {user : Address} {txHash : Bytes}
    {s s' : ReplayStorage} {u : Unit} (h : verifyAndCommit now user nonce txHash expiryTs s = (.ok u, s')) :
    now ≤ expiryTs ∧ nonce = currentNonce s user + 1 ∧
    (∀ t, s.txHash.lookup txHash = some t → TX_HASH_TTL_SECS ≤ now - t) ∧
    s' = { userNonce := s.userNonce.insert user nonce, txHash := s.txHash.insert txHash now,
           pendingQueue := s.pendingQueue ++ [⟨user, txHash, expiryTs⟩] } := by
  simp only [verifyAndCommit, bind_failIf_ok, bind_gets_ok, bind_modify_ok, modify_ok] at h
  obtain ⟨hexp, -, hnonce, hdup, rfl⟩ := h
  refine ⟨Nat.not_lt.mp hexp, not_not.mp hnonce, fun t ht => ?_, rfl⟩
  exact Nat.not_lt.mp fun hlt => hdup ⟨t, ht, hlt⟩

/-- A hash that no purged record names is stored as before. -/
theorem scanRecord_lookup {now max : Nat} {l : List (PendingNonceRecord × Nat)} {acc : Scan} {txHash : Bytes}
    (h : ∀ e ∈ l, Due now max e → e.1.txHash ≠ txHash) :
    (l.foldl (scanRecord now max) acc).txHash.lookup txHash = acc.txHash.lookup txHash := by
  induction l generalizing acc with
  | nil => rfl
  | cons e l ih =>
    rw [List.foldl_cons, ih fun e' he' => h e' (List.mem_cons_of_mem _ he')]
    by_cases hdue : Due now max e
    · have hne := h e (List.mem_cons_self ..) hdue
      rw [scanRecord, if_pos hdue, Store.lookup_erase_eq, if_neg (Ne.symm hne)]
    · rw [scanRecord, if_neg hdue]

theorem purgeExpiredNonces_ok {now max purged : Nat} {s s' : ReplayStorage}
    (h : purgeExpiredNonces now max s = (.ok purged, s')) :
    s' = { s with txHash := (scan now max s).txHash, pendingQueue := (scan now max s).remaining } := by
  simp [purgeExpiredNonces] at h
  exact h.2.symm

/-! ## Runs -/

/-- A commit that was accepted. -/
structure Commit where
  user : Address
  nonce : Nat
  txHash : Bytes
  expiryTs : Nat
  committedAt : Nat
  deriving DecidableEq

/-- What a keeper or a user does; only commits are entered with their data. -/
inductive Entry where
  | committed (c : Commit)
  | purged (count : Nat)

abbrev State := Journal ReplayStorage Entry

def State.init (now : Nat) : State := ⟨.empty, now, []⟩

/-- The operations, and the passing of time. -/
inductive Op where
  | advance (now : Nat)
  | commit (user : Address) (nonce : Nat) (txHash : Bytes) (expiryTs : Nat)
  | purge (max : Nat)

def step (s : State) : Op → State
  | .advance now => s.advance now
  | .commit user nonce txHash expiryTs =>
    s.commit (verifyAndCommit s.now user nonce txHash expiryTs) fun _ =>
      .committed ⟨user, nonce, txHash, expiryTs, s.now⟩
  | .purge max => s.commit (purgeExpiredNonces s.now max) .purged

/-- Time does not go back. -/
def Allowed (s : State) : Op → Prop
  | .advance now => s.now ≤ now
  | _ => True

instance (s : State) : (op : Op) → Decidable (Allowed s op)
  | .advance now => inferInstanceAs (Decidable (s.now ≤ now))
  | .commit .. => inferInstanceAs (Decidable True)
  | .purge _ => inferInstanceAs (Decidable True)

/-- No record that a purge takes out names a hash that was committed less than an hour ago. -/
def Harmless (s : State) : Op → Prop
  | .purge max => ∀ e ∈ s.store.pendingQueue.zipIdx, Due s.now max e →
      ∀ t ∈ s.store.txHash.lookup e.1.txHash, TX_HASH_TTL_SECS ≤ s.now - t
  | _ => True

instance (s : State) : (op : Op) → Decidable (Harmless s op)
  | .advance _ => inferInstanceAs (Decidable True)
  | .commit .. => inferInstanceAs (Decidable True)
  | .purge max => inferInstanceAs (Decidable (∀ e ∈ s.store.pendingQueue.zipIdx, Due s.now max e →
      ∀ t ∈ s.store.txHash.lookup e.1.txHash, TX_HASH_TTL_SECS ≤ s.now - t))

/-- The step relation of the runs. -/
def Step (s : State) (op : Op) (s' : State) : Prop := Allowed s op ∧ s' = step s op

def Entry.commit? : Entry → Option Commit
  | .committed c => some c
  | .purged _ => none

/-- The commits of a run, newest first. -/
def commits (log : List Entry) : List Commit := log.filterMap Entry.commit?

/-- The nonces that a user committed, in their order. -/
def noncesOf (user : Address) (log : List Entry) : List Nat :=
  (((commits log).filter (·.user = user)).map (·.nonce)).reverse

/-- The nonces of each user are `1, 2, 3, ...`, no commit is late, and no hash is committed twice within
an hour. -/
structure Protected (s : State) : Prop where
  sequential : ∀ user, ∃ k, noncesOf user s.log = List.range' 1 k
  inTime : ∀ c ∈ commits s.log, c.committedAt ≤ c.expiryTs
  spaced : (commits s.log).Pairwise fun newer older =>
    newer.txHash = older.txHash → older.committedAt + TX_HASH_TTL_SECS ≤ newer.committedAt

/-! ## The invariant -/

/-- A hash that was committed less than an hour ago is stored, with a commit that is not older. -/
def Guarded (s : State) : Prop :=
  ∀ c ∈ commits s.log, s.now < c.committedAt + TX_HASH_TTL_SECS →
    ∃ t, s.store.txHash.lookup c.txHash = some t ∧ c.committedAt ≤ t

structure Inv (s : State) : Prop where
  nonces : ∀ user, noncesOf user s.log = List.range' 1 (currentNonce s.store user)
  past : ∀ c ∈ commits s.log, c.committedAt ≤ s.now
  inTime : ∀ c ∈ commits s.log, c.committedAt ≤ c.expiryTs
  guarded : Guarded s
  spaced : (commits s.log).Pairwise fun newer older =>
    newer.txHash = older.txHash → older.committedAt + TX_HASH_TTL_SECS ≤ newer.committedAt

theorem Inv.init (now : Nat) : Inv (State.init now) where
  nonces _ := rfl
  past _ h := nomatch h
  inTime _ h := nomatch h
  guarded _ h := nomatch h
  spaced := .nil

theorem Inv.advance {s : State} (h : Inv s) {now : Nat} (hnow : s.now ≤ now) : Inv (s.advance now) where
  nonces := h.nonces
  past c hc := Nat.le_trans (h.past c hc) hnow
  inTime := h.inTime
  guarded c hc hlt := h.guarded c hc (Nat.lt_of_le_of_lt hnow hlt)
  spaced := h.spaced

theorem noncesOf_cons (c : Commit) (log : List Entry) (user : Address) :
    noncesOf user (.committed c :: log) =
      if c.user = user then noncesOf user log ++ [c.nonce] else noncesOf user log := by
  have hc : commits (.committed c :: log) = c :: commits log := rfl
  rw [noncesOf, hc, List.filter_cons]
  by_cases hu : c.user = user
  · simp [hu, noncesOf]
  · simp [hu, noncesOf]

theorem Inv.committed {s : State} (h : Inv s) {user : Address} {txHash : Bytes} {expiryTs : Nat}
    (hexp : s.now ≤ expiryTs)
    (hdup : ∀ t, s.store.txHash.lookup txHash = some t → TX_HASH_TTL_SECS ≤ s.now - t)
    (queue : List PendingNonceRecord) :
    Inv { s with
      store := ⟨s.store.userNonce.insert user (currentNonce s.store user + 1),
        s.store.txHash.insert txHash s.now, queue⟩
      log := .committed ⟨user, currentNonce s.store user + 1, txHash, expiryTs, s.now⟩ :: s.log } where
  nonces user' := by
    rw [noncesOf_cons, h.nonces user']
    by_cases hu : user = user'
    · subst hu
      simp [currentNonce, List.range'_concat, Nat.add_comm 1]
    · simp [currentNonce, hu, Ne.symm hu]
  past c hc := by
    rcases List.mem_cons.mp hc with rfl | hc
    · exact Nat.le_refl _
    · exact h.past c hc
  inTime c hc := by
    rcases List.mem_cons.mp hc with rfl | hc
    · exact hexp
    · exact h.inTime c hc
  guarded c hc hlt := by
    rcases List.mem_cons.mp hc with rfl | hc
    · exact ⟨s.now, AList.lookup_insert _, Nat.le_refl _⟩
    · by_cases he : c.txHash = txHash
      · exact ⟨s.now, by rw [he]; exact AList.lookup_insert _, h.past c hc⟩
      · obtain ⟨t, ht, hle⟩ := h.guarded c hc hlt
        exact ⟨t, by rw [AList.lookup_insert_ne he]; exact ht, hle⟩
  spaced := by
    refine List.Pairwise.cons (fun c hc he => ?_) h.spaced
    by_contra hlt
    -- within the hour the older commit is still stored, and the check would have refused the hash
    obtain ⟨t, ht, hle⟩ := h.guarded c hc (Nat.not_le.mp hlt)
    have hold := hdup t ((congrArg (AList.lookup · s.store.txHash) he).trans ht)
    simp only [TX_HASH_TTL_SECS] at hlt hold
    omega

theorem Inv.purged {s : State} (h : Inv s) {max count : Nat} (hh : Harmless s (.purge max)) :
    Inv { s with
      store := { s.store with
        txHash := (scan s.now max s.store).txHash
        pendingQueue := (scan s.now max s.store).remaining }
      log := .purged count :: s.log } where
  nonces := h.nonces
  past := h.past
  inTime := h.inTime
  spaced := h.spaced
  guarded c hc hlt := by
    obtain ⟨t, ht, hle⟩ := h.guarded c hc hlt
    refine ⟨t, ?_, hle⟩
    rw [← ht]
    refine scanRecord_lookup fun e he hdue heq => ?_
    have hold := hh e he hdue t (heq ▸ ht)
    simp only [TX_HASH_TTL_SECS] at hlt hold
    omega

theorem Inv.step {s : State} (h : Inv s) {op : Op} (ha : Allowed s op) (hh : Harmless s op) :
    Inv (step s op) := by
  cases op with
  | advance => exact h.advance ha
  | commit =>
    refine Journal.commit_rule h fun u st hx => ?_
    obtain ⟨hexp, rfl, hdup, rfl⟩ := verifyAndCommit_ok hx
    exact h.committed hexp hdup _
  | purge max =>
    show Inv (s.commit (purgeExpiredNonces s.now max) .purged)
    refine Journal.commit_rule h fun count st hx => ?_
    obtain rfl := purgeExpiredNonces_ok hx
    exact h.purged hh

/-- In every run whose purges take out no hash within its hour, the nonces of each user are `1, 2, 3, ...`,
no commit is late, and no hash is committed twice within an hour. -/
theorem protected_of_harmless {now : Nat} {s : State}
    (h : Reaches (fun a op b => Harmless a op ∧ Step a op b) (State.init now) s) : Protected s := by
  have hinv : Inv s := by
    refine h.invariant (Inv.init now) fun a op b ha ⟨hh, hal, hb⟩ => ?_
    rw [hb]
    exact ha.step hal hh
  exact ⟨fun user => ⟨_, hinv.nonces user⟩, hinv.inTime, hinv.spaced⟩

namespace Sample

def alice : Address := ⟨1⟩
def bob : Address := ⟨2⟩

/-- Two users commit, the hash of one is purged after its hour and committed again. -/
def purgedInTime : List Op :=
  [.commit alice 1 [7] 5000, .commit bob 1 [8] 9000, .advance 5001, .purge 10, .commit alice 2 [7] 6000]

/-- Three commits are accepted, and no hash comes twice within its hour. -/
theorem purge_after_the_hour_is_harmless :
    Protected (purgedInTime.foldl step (State.init 0)) ∧
      (commits (purgedInTime.foldl step (State.init 0)).log).map (·.nonce) = [2, 1, 1] := by
  have hrun : Reaches.Along step (fun s op => Harmless s op ∧ Allowed s op) (State.init 0) purgedInTime := by
    decide
  exact ⟨protected_of_harmless (Reaches.of_along_and hrun), by decide⟩

/-- A transaction with a short life is purged once it has expired, and its hash is committed again eleven
seconds after the first time. -/
def replayed : List Op := [.commit alice 1 [7] 10, .advance 11, .purge 10, .commit alice 2 [7] 100]

/-- A purged hash is accepted again within its hour. -/
theorem purge_weakens_check :
    ¬ ∀ (now : Nat) (s : State), Reaches Step (State.init now) s → Protected s := by
  intro h
  have hrun : Reaches.Along step Allowed (State.init 0) replayed := by decide
  have hp := (h 0 _ (Reaches.of_along hrun)).spaced
  have hlog : commits (replayed.foldl step (State.init 0)).log =
      [⟨alice, 2, [7], 100, 11⟩, ⟨alice, 1, [7], 10, 0⟩] := by decide
  rw [hlog] at hp
  simp [TX_HASH_TTL_SECS] at hp

end Sample

end CallStake.ReplayProtection
