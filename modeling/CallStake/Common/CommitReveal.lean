import CallStake.Lib.Bytes
import CallStake.Lib.Store
import CallStake.Lib.Trace
import CallStake.Shared.Host

/-!
# Commit and reveal (`common::commit_reveal`)

A user stores the hash of a trade under a salt, and reveals the trade later. A commitment that was not
revealed in time can be removed by anyone.

* `storeCommitment`, `revealAndClear`, `forfeitExpired`: the operations, at a ledger sequence.
* `Binds`, `SingleUse`: a reveal is of the trade that was committed, and each salt serves once. The storage
  forgets a salt with its commitment, so it can be committed and revealed again (`Sample.salt_is_used_again`).
* `Fresh`: no salt is committed again after its commitment was removed. `single_use_of_fresh`: then both
  hold in every run.
-/

namespace CallStake.CommitReveal

open Tx List

/-! ## Hashes -/

/-- What a trade commits to, in the widths of its fields. -/
structure TradeIntent where
  signalId : Nat
  amount : Int
  minOut : Int
  salt : Nat
  validUntilLedger : Nat
  signalId_le : signalId ≤ u64Max
  amount_inRange : InRange amount
  minOut_inRange : InRange minOut
  salt_le : salt ≤ u64Max
  validUntilLedger_le : validUntilLedger ≤ u32Max

/-- `env.crypto().sha256` and `address.to_string()`. -/
structure Host where
  sha256 : Bytes → BytesN 32
  strkey : Address → Bytes

/-- `"sw_exec_v1"`. -/
def DOMAIN : Bytes := [115, 119, 95, 101, 120, 101, 99, 95, 118, 49]

example : DOMAIN = "sw_exec_v1".toUTF8.toList := by decide +kernel

/-- The fields of a trade after the address, in order. -/
def TradeIntent.encode (i : TradeIntent) : Bytes :=
  toBeBytes 8 i.signalId ++ (toBeBytes 16 (twosComplement i.amount) ++
    (toBeBytes 16 (twosComplement i.minOut) ++ (toBeBytes 8 i.salt ++ toBeBytes 4 i.validUntilLedger)))

/-- The bytes that are hashed. -/
def preimage (host : Host) (user : Address) (i : TradeIntent) : Bytes := DOMAIN ++ (host.strkey user ++ i.encode)

/-- The hash of a trade. The host gives SHA-256 and the text of an address (`Host`); the encoding in between is
injective (`preimage_inj`). -/
def hashTradeIntent (host : Host) (user : Address) (i : TradeIntent) : BytesN 32 := host.sha256 (preimage host user i)

def verifyCommitment (expected actual : BytesN 32) : Bool := constantTimeEq expected actual

theorem TradeIntent.length_encode (i : TradeIntent) : i.encode.length = 52 := by
  simp [TradeIntent.encode]

theorem TradeIntent.encode_inj {i j : TradeIntent} (h : i.encode = j.encode) : i = j := by
  unfold TradeIntent.encode at h
  obtain ⟨h1, h⟩ := append_inj h (by simp)
  obtain ⟨h2, h⟩ := append_inj h (by simp)
  obtain ⟨h3, h⟩ := append_inj h (by simp)
  obtain ⟨h4, h5⟩ := append_inj h (by simp)
  have hu64 : ∀ n, n ≤ u64Max → n < 256 ^ 8 := fun n hn => by unfold u64Max at hn; omega
  have hu32 : ∀ n, n ≤ u32Max → n < 256 ^ 4 := fun n hn => by unfold u32Max at hn; omega
  have e1 := toBeBytes_inj (hu64 _ i.signalId_le) (hu64 _ j.signalId_le) h1
  have e2 := twosComplement_inj i.amount_inRange j.amount_inRange
    (toBeBytes_inj (twosComplement_lt _) (twosComplement_lt _) h2)
  have e3 := twosComplement_inj i.minOut_inRange j.minOut_inRange
    (toBeBytes_inj (twosComplement_lt _) (twosComplement_lt _) h3)
  have e4 := toBeBytes_inj (hu64 _ i.salt_le) (hu64 _ j.salt_le) h4
  have e5 := toBeBytes_inj (hu32 _ i.validUntilLedger_le) (hu32 _ j.validUntilLedger_le) h5
  cases i
  cases j
  simp only at e1 e2 e3 e4 e5
  subst e1 e2 e3 e4 e5
  rfl

/-- The fields have fixed widths, so what precedes them is the address, whatever its length. -/
theorem preimage_inj {host : Host} (hkey : Function.Injective host.strkey) {user user' : Address}
    {i j : TradeIntent} (h : preimage host user i = preimage host user' j) : user = user' ∧ i = j := by
  obtain ⟨-, h⟩ := append_inj h rfl
  obtain ⟨huser, hi⟩ := append_inj' h (by rw [i.length_encode, j.length_encode])
  exact ⟨hkey huser, TradeIntent.encode_inj hi⟩

/-! ## Operations -/

/-- The errors of the commitments. -/
inductive CommitRevealError where
  | notFound
  | expired
  | mismatch
  | saltReused
  | notYetExpired

/-- A user and a salt. -/
structure CommitKey where
  user : Address
  salt : Nat
  deriving DecidableEq

/-- A commitment that waits to be revealed. -/
structure CommitRecord where
  commitment : BytesN 32
  committer : Address
  expiresAtLedger : Nat
  deriving DecidableEq

/-- The entries under `CommitKey`. -/
abbrev CommitStorage := Store CommitKey CommitRecord

abbrev C := Tx CommitStorage (Fault CommitRevealError)

def storeCommitment (user : Address) (salt : Nat) (commitment : BytesN 32) (expiresAtLedger : Nat) :
    C Unit := do
  let record ← Tx.gets fun s => s.lookup ⟨user, salt⟩
  failIf (record.isSome = true) (.err .saltReused)
  Tx.modify fun s => s.insert ⟨user, salt⟩ ⟨commitment, user, expiresAtLedger⟩

def revealAndClear (sequence : Nat) (user : Address) (salt : Nat) (actualHash : BytesN 32) :
    C CommitRecord := do
  let entry ← Tx.gets fun s => s.lookup ⟨user, salt⟩
  let record ← Tx.ofOption entry (.err .notFound)
  failIf (record.expiresAtLedger < sequence) (.err .expired)
  failIf (verifyCommitment record.commitment actualHash = false) (.err .mismatch)
  Tx.modify fun s => s.erase ⟨user, salt⟩
  return record

def forfeitExpired (sequence : Nat) (user : Address) (salt : Nat) : C CommitRecord := do
  let entry ← Tx.gets fun s => s.lookup ⟨user, salt⟩
  let record ← Tx.ofOption entry (.err .notFound)
  failIf (sequence ≤ record.expiresAtLedger) (.err .notYetExpired)
  Tx.modify fun s => s.erase ⟨user, salt⟩
  return record

section Inversion

variable {s s' : CommitStorage} {user : Address} {salt sequence : Nat}

theorem storeCommitment_ok {commitment : BytesN 32} {expiresAtLedger : Nat} {u : Unit}
    (h : storeCommitment user salt commitment expiresAtLedger s = (.ok u, s')) :
    s.lookup ⟨user, salt⟩ = none ∧ s' = s.insert ⟨user, salt⟩ ⟨commitment, user, expiresAtLedger⟩ := by
  simp only [storeCommitment, bind_gets_ok, bind_failIf_ok, modify_ok] at h
  obtain ⟨hnone, rfl⟩ := h
  exact ⟨Option.not_isSome_iff_eq_none.mp hnone, rfl⟩

theorem revealAndClear_ok {actualHash : BytesN 32} {record : CommitRecord}
    (h : revealAndClear sequence user salt actualHash s = (.ok record, s')) :
    s.lookup ⟨user, salt⟩ = some record ∧ sequence ≤ record.expiresAtLedger ∧
      record.commitment = actualHash ∧ s' = s.erase ⟨user, salt⟩ := by
  simp only [revealAndClear, bind_gets_ok, bind_ofOption_ok, bind_failIf_ok, bind_modify_ok, pure_ok] at h
  obtain ⟨_, hentry, htime, hhash, rfl, rfl⟩ := h
  rw [Bool.not_eq_false, verifyCommitment, constantTimeEq_iff] at hhash
  exact ⟨hentry, Nat.not_lt.mp htime, hhash, rfl⟩

theorem forfeitExpired_ok {record : CommitRecord}
    (h : forfeitExpired sequence user salt s = (.ok record, s')) :
    s.lookup ⟨user, salt⟩ = some record ∧ s' = s.erase ⟨user, salt⟩ := by
  simp only [forfeitExpired, bind_gets_ok, bind_ofOption_ok, bind_failIf_ok, bind_modify_ok, pure_ok] at h
  obtain ⟨_, hentry, -, rfl, rfl⟩ := h
  exact ⟨hentry, rfl⟩

end Inversion

/-! ## Runs -/

/-- What the history notes of an accepted operation. -/
inductive Entry where
  | stored (key : CommitKey) (record : CommitRecord)
  | revealed (key : CommitKey) (hash : BytesN 32) (sequence : Nat)
  | forfeited (key : CommitKey)
  deriving DecidableEq

/-- The time of the journal is the ledger sequence. -/
abbrev State := Journal CommitStorage Entry

def State.init (sequence : Nat) : State := ⟨∅, sequence, []⟩

/-- The operations, and the passing of ledgers. -/
inductive Op where
  | advance (sequence : Nat)
  | store (user : Address) (salt : Nat) (commitment : BytesN 32) (expiresAtLedger : Nat)
  | reveal (user : Address) (salt : Nat) (actualHash : BytesN 32)
  | forfeit (user : Address) (salt : Nat)

def step (s : State) : Op → State
  | .advance sequence => s.advance sequence
  | .store user salt commitment expiresAtLedger =>
    s.commit (storeCommitment user salt commitment expiresAtLedger) fun _ =>
      .stored ⟨user, salt⟩ ⟨commitment, user, expiresAtLedger⟩
  | .reveal user salt actualHash =>
    s.commit (revealAndClear s.now user salt actualHash) fun _ => .revealed ⟨user, salt⟩ actualHash s.now
  | .forfeit user salt => s.commit (forfeitExpired s.now user salt) fun _ => .forfeited ⟨user, salt⟩

/-- The ledger does not go back. -/
def Allowed (s : State) : Op → Prop
  | .advance sequence => s.now ≤ sequence
  | _ => True

instance (s : State) : (op : Op) → Decidable (Allowed s op)
  | .advance sequence => inferInstanceAs (Decidable (s.now ≤ sequence))
  | .store .. => inferInstanceAs (Decidable True)
  | .reveal .. => inferInstanceAs (Decidable True)
  | .forfeit .. => inferInstanceAs (Decidable True)

/-- The step relation of the runs. -/
def Step (s : State) (op : Op) (s' : State) : Prop := Allowed s op ∧ s' = step s op

/-- The commitment under `key` that the journal leaves open. -/
def outstanding (key : CommitKey) : List Entry → Option CommitRecord
  | [] => none
  | .stored k record :: log => if key = k then some record else outstanding key log
  | .revealed k _ _ :: log => if key = k then none else outstanding key log
  | .forfeited k :: log => if key = k then none else outstanding key log

def Entry.stores (key : CommitKey) : Entry → Bool
  | .stored k _ => k = key
  | _ => false

def Entry.reveals (key : CommitKey) : Entry → Bool
  | .revealed k _ _ => k = key
  | _ => false

/-- Every reveal is in time and has the hash that was committed. Where it is the hash of a trade, this is
the only trade with that hash among those whose encodings are in `S`. -/
def Binds (host : Host) (S : Set Bytes) (log : List Entry) : Prop :=
  ∀ later earlier key hash sequence, log = later ++ .revealed key hash sequence :: earlier →
    ∃ record, outstanding key earlier = some record ∧ sequence ≤ record.expiresAtLedger ∧
      record.commitment = hash ∧
      ∀ i, hash = hashTradeIntent host key.user i → preimage host key.user i ∈ S →
        ∀ user' i', record.commitment = hashTradeIntent host user' i' → preimage host user' i' ∈ S →
          user' = key.user ∧ i' = i

/-- Every salt of a user is accepted once, and revealed at most once. -/
def SingleUse (log : List Entry) : Prop :=
  ∀ key, log.countP (Entry.stores key) ≤ 1 ∧ log.countP (Entry.reveals key) ≤ 1

/-- A salt is committed again only while its commitment is open, when it is refused. -/
def Fresh (s : State) : Op → Prop
  | .store user salt _ _ =>
    s.log.countP (Entry.stores ⟨user, salt⟩) = 0 ∨ s.store.lookup ⟨user, salt⟩ ≠ none
  | _ => True

instance (s : State) : (op : Op) → Decidable (Fresh s op)
  | .advance _ => inferInstanceAs (Decidable True)
  | .store .. => inferInstanceAs (Decidable (_ ∨ _))
  | .reveal .. => inferInstanceAs (Decidable True)
  | .forfeit .. => inferInstanceAs (Decidable True)

/-! ## The invariant -/

/-- The storage is what the journal leaves open, and a salt that is open or was revealed was accepted for
it. -/
structure Inv (host : Host) (S : Set Bytes) (s : State) : Prop where
  opened : ∀ key, s.store.lookup key = outstanding key s.log
  stores : ∀ key, s.log.countP (Entry.stores key) ≤ 1
  reveals : ∀ key, s.log.countP (Entry.reveals key) + (if (s.store.lookup key).isSome then 1 else 0) ≤
    s.log.countP (Entry.stores key)
  binds : Binds host S s.log

section Steps

variable {host : Host} {S : Set Bytes} {s : State}

theorem Inv.init (sequence : Nat) : Inv host S (State.init sequence) where
  opened _ := rfl
  stores _ := Nat.zero_le _
  reveals _ := Nat.le_refl _
  binds later _ _ _ _ h := by cases later <;> cases h

theorem Inv.advance (h : Inv host S s) (sequence : Nat) : Inv host S (s.advance sequence) :=
  ⟨h.opened, h.stores, h.reveals, h.binds⟩

/-- An entry that is no reveal adds nothing to be bound. -/
theorem Binds.cons {log : List Entry} (h : Binds host S log) {e : Entry}
    (he : ∀ key hash sequence, e ≠ .revealed key hash sequence) : Binds host S (e :: log) := by
  intro later earlier key hash sequence heq
  cases later with
  | nil => exact absurd (List.cons.inj heq).1 (he key hash sequence)
  | cons e' later => exact h later earlier key hash sequence (List.cons.inj heq).2

theorem Inv.stored (h : Inv host S s) {key : CommitKey} {record : CommitRecord}
    (hnone : s.store.lookup key = none) (hfresh : s.log.countP (Entry.stores key) = 0) :
    Inv host S { s with store := s.store.insert key record, log := .stored key record :: s.log } where
  opened key' := by
    rw [Store.lookup_insert_eq, outstanding, h.opened]
  stores key' := by
    rw [countP_cons]
    by_cases hk : key = key'
    · subst hk
      simp [Entry.stores, hfresh]
    · simpa [Entry.stores, hk] using h.stores key'
  reveals key' := by
    have hr := h.reveals key'
    rw [countP_cons, countP_cons, Store.lookup_insert_eq]
    by_cases hk : key' = key
    · subst hk
      rw [hnone] at hr
      simp [Entry.stores, Entry.reveals] at hr ⊢
      omega
    · simpa [Entry.stores, Entry.reveals, hk, Ne.symm hk] using hr
  binds := h.binds.cons fun _ _ _ he => by cases he

/-- A commitment that is removed by a reveal or a forfeit, entered as `e`. -/
theorem Inv.removed (h : Inv host S s) {key : CommitKey} {record : CommitRecord} {e : Entry}
    (hsome : s.store.lookup key = some record)
    (hout : ∀ key', outstanding key' (e :: s.log) = if key' = key then none else outstanding key' s.log)
    (hstores : ∀ key', e.stores key' = false) (hreveals : ∀ key', e.reveals key' = true → key = key')
    (hbinds : Binds host S (e :: s.log)) :
    Inv host S { s with store := s.store.erase key, log := e :: s.log } where
  opened key' := by
    rw [Store.lookup_erase_eq, hout, h.opened]
  stores key' := by
    rw [countP_cons, hstores]
    exact h.stores key'
  reveals key' := by
    have hr := h.reveals key'
    rw [countP_cons, countP_cons, hstores, Store.lookup_erase_eq]
    by_cases hk : key' = key
    · subst hk
      rw [hsome] at hr
      simp at hr ⊢
      split <;> omega
    · have hno : e.reveals key' = false := by
        by_contra hyes
        exact hk (hreveals key' (Bool.not_eq_false _ ▸ hyes)).symm
      simpa [hno, hk] using hr
  binds := hbinds

theorem Inv.revealed (h : Inv host S s) (hsha : Set.InjOn host.sha256 S)
    (hkey : Function.Injective host.strkey) {key : CommitKey} {record : CommitRecord}
    (hsome : s.store.lookup key = some record) (htime : s.now ≤ record.expiresAtLedger) :
    Binds host S (.revealed key record.commitment s.now :: s.log) := by
  intro later earlier key' hash sequence heq
  cases later with
  | nil =>
    obtain ⟨he, rfl⟩ := List.cons.inj heq
    cases he
    refine ⟨record, (h.opened key).symm.trans hsome, htime, rfl, fun i hi hiS user' i' hi' hiS' => ?_⟩
    exact preimage_inj hkey (hsha hiS' hiS (hi'.symm.trans hi))
  | cons e later => exact h.binds later earlier key' hash sequence (List.cons.inj heq).2

theorem Inv.step (h : Inv host S s) (hsha : Set.InjOn host.sha256 S)
    (hkey : Function.Injective host.strkey) {op : Op} (hf : Fresh s op) : Inv host S (step s op) := by
  cases op with
  | advance sequence => exact h.advance sequence
  | store =>
    refine Journal.commit_rule h fun u st hx => ?_
    obtain ⟨hnone, rfl⟩ := storeCommitment_ok hx
    exact h.stored hnone (hf.resolve_right (not_not.mpr hnone))
  | reveal =>
    refine Journal.commit_rule h fun record st hx => ?_
    obtain ⟨hsome, htime, rfl, rfl⟩ := revealAndClear_ok hx
    refine h.removed hsome (fun _ => rfl) (fun _ => rfl) (fun key' hk => ?_)
      (h.revealed hsha hkey hsome htime)
    exact of_decide_eq_true hk
  | forfeit =>
    refine Journal.commit_rule h fun record st hx => ?_
    obtain ⟨hsome, rfl⟩ := forfeitExpired_ok hx
    refine h.removed hsome (fun _ => rfl) (fun _ => rfl) (fun key' hk => ?_)
      (h.binds.cons fun _ _ _ he => by cases he)
    cases hk

end Steps

/-- In every run in which no salt is committed again after its commitment was removed, each reveal is in
time and of the trade that was committed, and each salt of a user is accepted once and revealed at most
once. SHA-256 has no collisions among the encodings in `S`. -/
theorem single_use_of_fresh {host : Host} {S : Set Bytes} (hsha : Set.InjOn host.sha256 S)
    (hkey : Function.Injective host.strkey) {sequence : Nat} {s : State}
    (h : Reaches (fun a op b => Fresh a op ∧ Step a op b) (State.init sequence) s) :
    Binds host S s.log ∧ SingleUse s.log := by
  have hinv : Inv host S s := by
    refine h.invariant (Inv.init sequence) fun a op b ha ⟨hf, _, hb⟩ => ?_
    rw [hb]
    exact ha.step hsha hkey hf
  refine ⟨hinv.binds, fun key => ⟨hinv.stores key, ?_⟩⟩
  have h1 := hinv.stores key
  have h2 := hinv.reveals key
  omega

namespace Sample

def alice : Address := ⟨0⟩

/-- The text of the account whose key is all zeros. -/
def zeroAccount : Bytes := 71 :: List.replicate 52 65 ++ [87, 72, 70]

def intent : TradeIntent where
  signalId := 1
  amount := 500
  minOut := 450
  salt := 99
  validUntilLedger := 200
  signalId_le := by decide
  amount_inRange := by decide
  minOut_inRange := by decide
  salt_le := by decide
  validUntilLedger_le := by decide

def intentBytes : Bytes := DOMAIN ++ (zeroAccount ++ intent.encode)

/-- The SHA-256 of `intentBytes`. -/
def digest : BytesN 32 :=
  ⟨[253, 126, 86, 43, 67, 239, 140, 57, 77, 18, 222, 15, 205, 27, 60, 230, 121, 15, 36, 239, 213, 163, 233,
    99, 6, 27, 125, 122, 247, 218, 128, 120], rfl⟩

/-- A host on which `alice` is the account of `zeroAccount`. -/
def host : Host where
  sha256 b := if b = intentBytes then digest else ⟨List.replicate 32 0, rfl⟩
  strkey a := zeroAccount ++ List.replicate a.id 0

theorem strkey_injective : Function.Injective host.strkey := by
  intro a b h
  have hid := congrArg List.length (append_cancel_left h)
  rw [length_replicate, length_replicate] at hid
  cases a
  cases b
  exact congrArg Address.mk hid

def committed : List Op := [.store alice 99 digest 200, .reveal alice 99 digest]

/-- The trade that is revealed is the one that was committed. -/
theorem committed_trade_is_revealed :
    hashTradeIntent host alice intent = digest ∧
    (committed.foldl step (State.init 100)).log =
      [.revealed ⟨alice, 99⟩ digest 100, .stored ⟨alice, 99⟩ ⟨digest, alice, 200⟩] ∧
    Binds host {intentBytes} (committed.foldl step (State.init 100)).log ∧
    SingleUse (committed.foldl step (State.init 100)).log := by
  have hrun : Reaches.Along step (fun s op => Fresh s op ∧ Allowed s op) (State.init 100) committed := by
    decide
  have haccount : host.strkey alice = zeroAccount := append_nil zeroAccount
  have hbytes : preimage host alice intent = intentBytes := by
    rw [preimage, haccount, intentBytes]
  have hhash : hashTradeIntent host alice intent = digest := by
    rw [hashTradeIntent, hbytes]
    simp [host]
  exact ⟨hhash, by decide, single_use_of_fresh (Set.injOn_singleton _ _) strkey_injective (Reaches.of_along_and hrun)⟩

/-- The same trade, committed and revealed twice. -/
theorem salt_is_used_again :
    ¬ ∀ (host : Host) (S : Set Bytes), Set.InjOn host.sha256 S → Function.Injective host.strkey →
      ∀ (sequence : Nat) (s : State), Reaches Step (State.init sequence) s →
        Binds host S s.log ∧ SingleUse s.log := by
  intro h
  have hrun : Reaches.Along step Allowed (State.init 100) (committed ++ committed) := by decide
  have huse := (h host {intentBytes} (Set.injOn_singleton _ _) strkey_injective 100 _
    (Reaches.of_along hrun)).2 ⟨alice, 99⟩
  have htwice : ((committed ++ committed).foldl step (State.init 100)).log.countP
      (Entry.reveals ⟨alice, 99⟩) = 2 := by decide
  omega

end Sample

end CallStake.CommitReveal
