import CallStake.StakeVault.Entrypoints

/-!
# The migration of the stakes

`migration`: the stakes of the first layout, bare balances, are copied into the map of the second
one in batches, while the vault is open for deposits into that same map.

* `migrateStakesV1ToV2`, `recoverMigrationEntry`: the two operations, on the vault together with the
  old map and the cursor (`MigrationWorld`).
* `migrateStakesV1ToV2_ok`: a batch that returned wrote the old balance of every provider it took,
  whatever stood there (`World.copied`); the readback never fails.
* `settled_run`: what the provider will have once it is migrated (`settled`) grows by the deposits
  after its batch, and by those only.
-/

namespace CallStake.StakeVault

open Tx List

namespace Migration

/-- The cursor that makes batched runs idempotent. -/
structure MigrationState where
  migrated : List Address
  totalV1Providers : Nat
  complete : Bool
  batchNumber : Nat
  pendingRecovery : List Address

/-- `get_state` before the first batch. -/
def MigrationState.initial : MigrationState := ⟨[], 0, false, 0, []⟩

/-- What a batch returns. -/
structure MigrationBatchResult where
  migratedThisBatch : Nat
  totalMigrated : Nat
  complete : Bool
  batchNumber : Nat
  pendingRecoveryCount : Nat

/-- What a recovery returns. -/
structure MigrationRecoveryResult where
  provider : Address
  correctedBalance : Int
  remainingRecovery : Nat
  migrationComplete : Bool

/-- The errors of a migration. -/
inductive MigrationError where
  | unauthorized
  | balanceMismatch (provider : Address) (old new : Int)
  | alreadyComplete
  | notInRecovery

/-- The vault, the map of the first layout and the cursor. -/
structure MigrationWorld (τ : Type) where
  vault : World τ
  stakesV1 : Store Address Int
  state : MigrationState

abbrev M (τ : Type) := Tx (MigrationWorld τ) (Fault MigrationError)

variable {τ : Type}

def isInVec (vec : List Address) (target : Address) : Bool := vec.any (· == target)

def removeFromVec (vec : List Address) (target : Address) : List Address := vec.filter (· ≠ target)

def saveV2 (v2 : Store Address StakeInfoV2) : M τ Unit :=
  Tx.modify fun w => { w with vault.store.stake.stakesV2 := v2 }

def saveState (state : MigrationState) : M τ Unit := Tx.modify fun w => { w with state }

/-- `state.complete`, from the lengths of the two lists. -/
def isComplete (migrated pendingRecovery : List Address) (totalV1 : Nat) : Bool :=
  decide (totalV1 ≤ migrated.length + pendingRecovery.length) && pendingRecovery.isEmpty

/-- The old balance of a provider. -/
def v1BalanceOf (v1 : Store Address Int) (provider : Address) : Int := (v1.lookup provider).getD 0

/-- The locals of the batch loop. -/
structure Batch where
  v2 : Store Address StakeInfoV2
  state : MigrationState
  migratedThisBatch : Nat

/-- The batch loop. A provider whose entry does not read back is parked and ends the batch. -/
def migrateEntries (v1 : Store Address Int) (now : Nat) : List Address → Batch → M τ Batch
  | [], b => pure b
  | provider :: rest, b => do
    let oldBalance := v1BalanceOf v1 provider
    let v2 := b.v2.insert provider ⟨oldBalance, 0, now⟩
    let written ← Tx.ofOption (v2.lookup provider) .panic
    if written.balance ≠ oldBalance then do
      saveV2 v2
      saveState { b.state with pendingRecovery := b.state.pendingRecovery ++ [provider] }
      Tx.fail (.err (.balanceMismatch provider oldBalance written.balance))
    else
      migrateEntries v1 now rest
        { v2, state := { b.state with migrated := b.state.migrated ++ [provider] },
          migratedThisBatch := b.migratedThisBatch + 1 }

/-- The providers that wait: those of the first layout in neither list. -/
def pendingOf (v1 : Store Address Int) (state : MigrationState) : List Address :=
  v1.keys.filter fun key => !isInVec state.migrated key && !isInVec state.pendingRecovery key

def migrateStakesV1ToV2 (auth : Auth) (admin : Address) (batchSize : Nat) :
    M τ MigrationBatchResult := do
  requireAuth auth admin
  let state ← Tx.gets (·.state)
  failIf (state.complete = true) (.err .alreadyComplete)
  let v1 ← Tx.gets (·.stakesV1)
  let v2 ← Tx.gets (·.vault.store.stake.stakesV2)
  let now ← Tx.gets (·.vault.ledger.timestamp)
  let totalV1 := v1.keys.length
  let pending := pendingOf v1 state
  -- `state.batch_number += 1` traps when it overflows.
  failIf (u32Max ≤ state.batchNumber) .panic
  let state := { state with totalV1Providers := totalV1, batchNumber := state.batchNumber + 1 }
  let b ← migrateEntries v1 now (pending.take (min batchSize pending.length)) ⟨v2, state, 0⟩
  let complete := isComplete b.state.migrated b.state.pendingRecovery totalV1
  saveV2 b.v2
  saveState { b.state with complete }
  return ⟨b.migratedThisBatch, b.state.migrated.length, complete, b.state.batchNumber, b.state.pendingRecovery.length⟩

def recoverMigrationEntry (auth : Auth) (admin provider : Address) (verifiedBalance : Int) :
    M τ MigrationRecoveryResult := do
  requireAuth auth admin
  let state ← Tx.gets (·.state)
  failIf (isInVec state.pendingRecovery provider = false) (.err .notInRecovery)
  let v2 ← Tx.gets (·.vault.store.stake.stakesV2)
  let now ← Tx.gets (·.vault.ledger.timestamp)
  let pendingRecovery := removeFromVec state.pendingRecovery provider
  let migrated := state.migrated ++ [provider]
  let complete := isComplete migrated pendingRecovery state.totalV1Providers
  saveV2 (v2.insert provider ⟨verifiedBalance, 0, now⟩)
  saveState { state with pendingRecovery, migrated, complete }
  return ⟨provider, verifiedBalance, pendingRecovery.length, complete⟩

/-! ## What a batch did -/

@[simp] theorem isInVec_iff {vec : List Address} {target : Address} :
    isInVec vec target = true ↔ target ∈ vec := by
  simp [isInVec]

theorem mem_pendingOf {v1 : Store Address Int} {state : MigrationState} {p : Address} :
    p ∈ pendingOf v1 state ↔ p ∈ v1 ∧ p ∉ state.migrated ∧ p ∉ state.pendingRecovery := by
  simp [pendingOf, ← AList.mem_keys, ← Bool.not_eq_true]

/-- The new map with the old balances of `providers` written over it. -/
def copied (v1 : Store Address Int) (now : Nat) (v2 : Store Address StakeInfoV2)
    (providers : List Address) : Store Address StakeInfoV2 :=
  providers.foldl (fun v2 p => v2.insert p ⟨v1BalanceOf v1 p, 0, now⟩) v2

theorem lookup_copied (v1 : Store Address Int) (now : Nat) (v2 : Store Address StakeInfoV2)
    (providers : List Address) (p : Address) :
    (copied v1 now v2 providers).lookup p =
      if p ∈ providers then some ⟨v1BalanceOf v1 p, 0, now⟩ else v2.lookup p := by
  induction providers generalizing v2 with
  | nil => simp [copied]
  | cons q rest ih =>
    have hc : copied v1 now v2 (q :: rest) = copied v1 now (v2.insert q ⟨v1BalanceOf v1 q, 0, now⟩) rest := rfl
    rw [hc, ih, Store.lookup_insert_eq]
    by_cases hr : p ∈ rest
    · simp [hr]
    · by_cases hq : p = q
      · subst hq; simp
      · simp [hr, hq]

/-- The loop goes to its end: what was just written reads back. -/
theorem migrateEntries_eq (v1 : Store Address Int) (now : Nat) (providers : List Address) (b : Batch)
    (w : MigrationWorld τ) :
    migrateEntries v1 now providers b w =
      (.ok ⟨copied v1 now b.v2 providers,
        { b.state with migrated := b.state.migrated ++ providers },
        b.migratedThisBatch + providers.length⟩, w) := by
  induction providers generalizing b with
  | nil => simp [migrateEntries, copied]
  | cons p rest ih =>
    have hw : (b.v2.insert p ⟨v1BalanceOf v1 p, 0, now⟩).lookup p =
        some ⟨v1BalanceOf v1 p, 0, now⟩ := AList.lookup_insert _
    simp only [migrateEntries, bind_ok, ofOption_ok, hw]
    refine ⟨_, w, ⟨rfl, rfl⟩, ?_⟩
    rw [if_neg (by simp), ih]
    simp [copied, Nat.add_assoc, Nat.add_comm 1]

/-- The providers that a batch of the given size takes. -/
def taken (w : MigrationWorld τ) (batchSize : Nat) : List Address :=
  (pendingOf w.stakesV1 w.state).take (min batchSize (pendingOf w.stakesV1 w.state).length)

/-- The world after a batch: the old balances stand in the new map, and the cursor has moved. -/
def MigrationWorld.afterBatch (w : MigrationWorld τ) (batchSize : Nat) : MigrationWorld τ :=
  { w with
    vault.store.stake.stakesV2 :=
      copied w.stakesV1 w.vault.ledger.timestamp w.vault.store.stake.stakesV2 (taken w batchSize)
    state :=
      { w.state with
        migrated := w.state.migrated ++ taken w batchSize
        totalV1Providers := w.stakesV1.keys.length
        complete := isComplete (w.state.migrated ++ taken w batchSize) w.state.pendingRecovery
          w.stakesV1.keys.length
        batchNumber := w.state.batchNumber + 1 } }

theorem migrateStakesV1ToV2_ok {auth : Auth} {admin : Address} {batchSize : Nat}
    {w w' : MigrationWorld τ} {r : MigrationBatchResult} :
    migrateStakesV1ToV2 auth admin batchSize w = (.ok r, w') ↔
      auth admin = true ∧ w.state.complete = false ∧ w.state.batchNumber < u32Max ∧
        ⟨(taken w batchSize).length, (w.state.migrated ++ taken w batchSize).length,
          (w.afterBatch batchSize).state.complete, w.state.batchNumber + 1,
          w.state.pendingRecovery.length⟩ = r ∧
        w.afterBatch batchSize = w' := by
  unfold migrateStakesV1ToV2
  simp [requireAuth, saveV2, saveState, migrateEntries_eq, taken, MigrationWorld.afterBatch]

/-! ## The cursor -/

/-- Every migrated provider is listed once and comes from the first layout, none is parked, and after
the first batch the cursor is complete exactly when it lists them all. -/
structure MigrationWorld.Ok (w : MigrationWorld τ) : Prop where
  nodup : w.state.migrated.Nodup
  subset : ∀ p ∈ w.state.migrated, p ∈ w.stakesV1
  recovery : w.state.pendingRecovery = []
  started : w.state.complete = true → 0 < w.state.batchNumber
  complete : 0 < w.state.batchNumber → (w.state.complete = true ↔ ∀ p ∈ w.stakesV1, p ∈ w.state.migrated)

theorem taken_pending {w : MigrationWorld τ} {batchSize : Nat} {p : Address}
    (h : p ∈ taken w batchSize) :
    p ∈ w.stakesV1 ∧ p ∉ w.state.migrated ∧ p ∉ w.state.pendingRecovery :=
  mem_pendingOf.mp (mem_of_mem_take h)

/-- A list without repetition of elements of the map is as long as the map iff it has them all. -/
theorem length_le_iff {l : List Address} {v1 : Store Address Int} (hn : l.Nodup)
    (hs : ∀ p ∈ l, p ∈ v1) : v1.keys.length ≤ l.length ↔ ∀ p ∈ v1, p ∈ l := by
  have hsub : l ⊆ v1.keys := fun p hp => AList.mem_keys.mp (hs p hp)
  constructor
  · intro hle p hp
    have hperm := (subperm_of_subset hn hsub).perm_of_length_le hle
    exact hperm.mem_iff.mpr (AList.mem_keys.mp hp)
  · intro hall
    have hkeys : v1.keys ⊆ l := fun p hp => hall p (AList.mem_keys.mpr hp)
    exact (subperm_of_subset v1.keys_nodup hkeys).length_le

theorem isComplete_iff {l : List Address} {v1 : Store Address Int} (hn : l.Nodup)
    (hs : ∀ p ∈ l, p ∈ v1) : isComplete l [] v1.keys.length = true ↔ ∀ p ∈ v1, p ∈ l := by
  rw [← length_le_iff hn hs]
  simp [isComplete]

theorem MigrationWorld.Ok.afterBatch {w : MigrationWorld τ} (h : w.Ok) (batchSize : Nat) :
    (w.afterBatch batchSize).Ok := by
  have hn : (w.state.migrated ++ taken w batchSize).Nodup := by
    refine List.nodup_append'.mpr ⟨h.nodup, ?_, ?_⟩
    · exact (w.stakesV1.keys_nodup.filter _).sublist (take_sublist _ _)
    · intro p hp ht
      exact (taken_pending ht).2.1 hp
  have hs : ∀ p ∈ w.state.migrated ++ taken w batchSize, p ∈ w.stakesV1 := by
    intro p hp
    rcases List.mem_append.mp hp with hp | hp
    · exact h.subset p hp
    · exact (taken_pending hp).1
  refine ⟨hn, hs, h.recovery, fun _ => Nat.succ_pos _, fun _ => ?_⟩
  change isComplete _ w.state.pendingRecovery _ = true ↔ _
  rw [h.recovery]
  exact isComplete_iff hn hs

/-! ## Runs -/

/-- What can happen while the vault migrates: a batch, a recovery, a deposit, the next ledger, or a
change of the token contracts that the vault has no part in. -/
inductive MigrationEvent (τ : Type) where
  | migrate (auth : Auth) (admin : Address) (batchSize : Nat)
  | recover (auth : Auth) (admin provider : Address) (verifiedBalance : Int)
  | deposit (auth : Auth) (staker : Address) (amount : Int)
  | advance (ledger : Ledger)
  | external (token : τ)

def MigrationEvent.IsDeposit : MigrationEvent τ → Prop
  | .deposit .. => True
  | _ => False

/-- The vault with a map of the first layout, before the first batch. -/
def MigrationWorld.seeded (vault : World τ) (v1 : Store Address Int) : MigrationWorld τ := ⟨vault, v1, .initial⟩

section Runs

variable (T : Tokens τ) (self : Address)

def step (w : MigrationWorld τ) : MigrationEvent τ → MigrationWorld τ
  | .migrate auth admin batchSize => (migrateStakesV1ToV2 auth admin batchSize).exec w
  | .recover auth admin provider balance => (recoverMigrationEntry auth admin provider balance).exec w
  | .deposit auth staker amount =>
    { w with vault := (depositStake ⟨T, self, auth⟩ staker amount).exec w.vault }
  | .advance ledger => { w with vault.ledger := ledger }
  | .external token => { w with vault.token := token }

/-- The vault takes the deposit: it is authorized, positive and fits, the vault is open, and the
token moves. -/
def Accepted (w : MigrationWorld τ) (auth : Auth) (staker : Address) (amount : Int) : Prop :=
  w.vault.store.guards.sharedContractLock = false ∧ auth staker = true ∧
    w.vault.store.config.paused = false ∧ 0 < amount ∧
    InRange ((infoOf w.vault.store.stake.stakesV2 staker).balance + amount) ∧
    ∃ token t, w.vault.store.config.stakeToken = some token ∧
      T.transfer token staker self amount w.vault.token = .ok t

/-- What the step credits to the stake of `p`: the amount of its deposit, if the call returned. -/
def credited (p : Address) (e : MigrationWorld τ × MigrationEvent τ) : Int :=
  match e.2 with
  | .deposit auth staker amount =>
    match (depositStake ⟨T, self, auth⟩ staker amount e.1.vault).1 with
    | .ok _ => if staker = p then amount else 0
    | .error _ => 0
  | _ => 0

/-- The deposits of `p` in a run. -/
def deposited (w : MigrationWorld τ) (evs : List (MigrationEvent τ)) (p : Address) : Int :=
  ((Reaches.visited (step T self) w evs).map (credited T self p)).sum

/-- A provider of the first layout that no batch has taken yet. -/
def Waiting (w : MigrationWorld τ) (p : Address) : Prop := p ∈ w.stakesV1 ∧ p ∉ w.state.migrated
  deriving Decidable

/-- The event is a deposit that the vault takes from a provider that still waits for its batch. -/
def Early (w : MigrationWorld τ) : MigrationEvent τ → Prop
  | .deposit auth staker amount => Accepted T self w auth staker amount ∧ Waiting w staker
  | _ => False

variable {T self} {w : MigrationWorld τ} {auth : Auth} {admin staker provider p : Address}
  {batchSize : Nat} {amount balance : Int} {ev : MigrationEvent τ} {evs : List (MigrationEvent τ)}

/-! ### One step -/

/-- A batch runs when the administrator authorized it, the migration is open and its counter is not
full. -/
theorem step_migrate (T : Tokens τ) (self : Address) (w : MigrationWorld τ) (auth : Auth)
    (admin : Address) (batchSize : Nat) :
    step T self w (.migrate auth admin batchSize) =
      if auth admin = true ∧ w.state.complete = false ∧ w.state.batchNumber < u32Max
      then w.afterBatch batchSize else w := by
  change (migrateStakesV1ToV2 auth admin batchSize).exec w = _
  split
  · rename_i h
    exact exec_of_ok (migrateStakesV1ToV2_ok.mpr ⟨h.1, h.2.1, h.2.2, rfl, rfl⟩)
  · rename_i h
    rcases exec_cases (migrateStakesV1ToV2 auth admin batchSize) w with ⟨r, hr⟩ | hr
    · obtain ⟨h1, h2, h3, -⟩ := migrateStakesV1ToV2_ok.mp hr
      exact absurd ⟨h1, h2, h3⟩ h
    · exact hr

/-- Nothing is ever parked, so there is nothing to recover. -/
theorem step_recover (h : w.Ok) : step T self w (.recover auth admin provider balance) = w := by
  change (recoverMigrationEntry auth admin provider balance).exec w = w
  rcases exec_cases (recoverMigrationEntry auth admin provider balance) w with ⟨r, hr⟩ | hr
  · generalize (recoverMigrationEntry auth admin provider balance).exec w = w' at hr ⊢
    simp [recoverMigrationEntry, requireAuth, h.recovery, isInVec] at hr
  · exact hr

theorem accepted_iff : Accepted T self w auth staker amount ↔
    ∃ w', depositStake ⟨T, self, auth⟩ staker amount w.vault = (.ok (), w') := by
  constructor
  · rintro ⟨hl, ha, hp, hpos, hr, token, t, htok, ht⟩
    exact ⟨_, depositStake_ok.mpr ⟨hl, ha, hp, hpos, token, htok, hr.1, hr.2, t, ht, rfl⟩⟩
  · rintro ⟨w', h⟩
    obtain ⟨hl, ha, hp, hpos, token, htok, h1, h2, t, ht, -⟩ := depositStake_ok.mp h
    exact ⟨hl, ha, hp, hpos, ⟨h1, h2⟩, token, t, htok, ht⟩

/-- A deposit counts when the vault takes it. -/
theorem credited_deposit :
    (Accepted T self w auth staker amount →
      credited T self p (w, .deposit auth staker amount) = if staker = p then amount else 0) ∧
    (¬ Accepted T self w auth staker amount → credited T self p (w, .deposit auth staker amount) = 0) := by
  constructor
  · intro h
    obtain ⟨w', hw⟩ := accepted_iff.mp h
    simp [credited, hw]
  · intro h
    unfold credited
    rcases hd : depositStake ⟨T, self, auth⟩ staker amount w.vault with ⟨r, w'⟩
    cases r with
    | ok u => exact absurd (accepted_iff.mpr ⟨w', hd⟩) h
    | error e => simp [hd]

/-- A deposit touches neither the old map nor the cursor, and adds what it is credited with. -/
theorem step_deposit (T : Tokens τ) (self : Address) (w : MigrationWorld τ) (auth : Auth)
    (staker : Address) (amount : Int) (p : Address) :
    (step T self w (.deposit auth staker amount)).stakesV1 = w.stakesV1 ∧
      (step T self w (.deposit auth staker amount)).state = w.state ∧
      (infoOf (step T self w (.deposit auth staker amount)).vault.store.stake.stakesV2 p).balance =
        (infoOf w.vault.store.stake.stakesV2 p).balance + credited T self p (w, .deposit auth staker amount) := by
  refine ⟨rfl, rfl, ?_⟩
  change (infoOf ((depositStake ⟨T, self, auth⟩ staker amount).exec w.vault).store.stake.stakesV2
    p).balance = _
  by_cases h : Accepted T self w auth staker amount
  · obtain ⟨w', hw⟩ := accepted_iff.mp h
    obtain ⟨-, -, -, -, token, -, -, -, t, -, rfl⟩ := depositStake_ok.mp hw
    rw [exec_of_ok hw, credited_deposit.1 h]
    unfold World.afterDeposit infoOf
    rw [Store.lookup_insert_eq]
    by_cases hp : p = staker
    · subst hp; simp
    · simp [hp, Ne.symm hp]
  · rw [credited_deposit.2 h]
    rcases exec_cases (depositStake ⟨T, self, auth⟩ staker amount) w.vault with ⟨u, hu⟩ | hu
    · exact absurd (accepted_iff.mpr ⟨_, hu⟩) h
    · rw [hu, Int.add_zero]

theorem step_ok (h : w.Ok) (ev : MigrationEvent τ) : (step T self w ev).Ok := by
  cases ev with
  | migrate _ _ batchSize =>
    rw [step_migrate]
    split
    · exact h.afterBatch batchSize
    · exact h
  | recover => rw [step_recover h]; exact h
  | deposit => exact ⟨h.nodup, h.subset, h.recovery, h.started, h.complete⟩
  | advance => exact ⟨h.nodup, h.subset, h.recovery, h.started, h.complete⟩
  | external => exact ⟨h.nodup, h.subset, h.recovery, h.started, h.complete⟩

theorem step_stakesV1 (h : w.Ok) (ev : MigrationEvent τ) :
    (step T self w ev).stakesV1 = w.stakesV1 := by
  cases ev with
  | migrate => rw [step_migrate]; split <;> rfl
  | recover => rw [step_recover h]
  | deposit => rfl
  | advance => rfl
  | external => rfl

/-- What `p` has, or will have once its batch has run. -/
def settled (w : MigrationWorld τ) (p : Address) : Int :=
  if Waiting w p then v1BalanceOf w.stakesV1 p
  else (infoOf w.vault.store.stake.stakesV2 p).balance

/-- A batch settles nothing anew: it writes what the waiting providers were to have. -/
theorem settled_afterBatch (w : MigrationWorld τ) (batchSize : Nat) (p : Address) :
    settled (w.afterBatch batchSize) p = settled w p := by
  have hw : Waiting (w.afterBatch batchSize) p ↔ Waiting w p ∧ p ∉ taken w batchSize := by
    simp [Waiting, MigrationWorld.afterBatch, and_assoc]
  have hi : infoOf (w.afterBatch batchSize).vault.store.stake.stakesV2 p =
      if p ∈ taken w batchSize then ⟨v1BalanceOf w.stakesV1 p, 0, w.vault.ledger.timestamp⟩
      else infoOf w.vault.store.stake.stakesV2 p := by
    unfold infoOf MigrationWorld.afterBatch
    rw [lookup_copied]
    split <;> rfl
  unfold settled
  rw [hi]
  by_cases ht : p ∈ taken w batchSize
  · have hp : Waiting w p := ⟨(taken_pending ht).1, (taken_pending ht).2.1⟩
    rw [if_neg (fun hc => (hw.mp hc).2 ht), if_pos ht, if_pos hp]
  · rw [if_neg ht]
    exact if_congr (hw.trans (and_iff_left ht)) rfl rfl

/-- What a deposit adds to what the provider will have. -/
def late (T : Tokens τ) (self p : Address) (e : MigrationWorld τ × MigrationEvent τ) : Int :=
  if Waiting e.1 p then 0 else credited T self p e

theorem settled_step (h : w.Ok) (ev : MigrationEvent τ) (p : Address) :
    settled (step T self w ev) p = settled w p + late T self p (w, ev) := by
  have h0 : credited T self p (w, ev) = 0 → late T self p (w, ev) = 0 := by
    intro hc; unfold late; split
    · rfl
    · exact hc
  cases ev with
  | migrate _ _ batchSize =>
    rw [h0 rfl, step_migrate, Int.add_zero]
    split
    · exact settled_afterBatch w batchSize p
    · rfl
  | recover => rw [h0 rfl, step_recover h, Int.add_zero]
  | deposit auth staker amount =>
    obtain ⟨-, -, hb⟩ := step_deposit T self w auth staker amount p
    have hwait : Waiting (step T self w (.deposit auth staker amount)) p ↔ Waiting w p := Iff.rfl
    unfold settled late
    by_cases hw : Waiting w p
    · rw [if_pos (hwait.mpr hw), if_pos hw, if_pos hw, Int.add_zero]
      rfl
    · rw [if_neg (mt hwait.mp hw), if_neg hw, if_neg hw, hb]
  | advance => rw [h0 rfl, Int.add_zero]; rfl
  | external => rw [h0 rfl, Int.add_zero]; rfl

/-! ### Whole runs -/

variable (T self) in
/-- The world after a list of events. -/
def run (w : MigrationWorld τ) (evs : List (MigrationEvent τ)) : MigrationWorld τ := evs.foldl (step T self) w

theorem seeded_ok (vault : World τ) (v1 : Store Address Int) :
    (MigrationWorld.seeded vault v1).Ok where
  nodup := nodup_nil
  subset _ h := absurd h not_mem_nil
  recovery := rfl
  started h := Bool.noConfusion h
  complete h := absurd h (Nat.lt_irrefl 0)

theorem run_ok (h : w.Ok) (evs : List (MigrationEvent τ)) : (run T self w evs).Ok := by
  induction evs generalizing w with
  | nil => exact h
  | cons ev evs ih => exact ih (step_ok h ev)

theorem run_stakesV1 (h : w.Ok) (evs : List (MigrationEvent τ)) :
    (run T self w evs).stakesV1 = w.stakesV1 := by
  induction evs generalizing w with
  | nil => rfl
  | cons ev evs ih => exact (ih (step_ok h ev)).trans (step_stakesV1 h ev)

/-- Over a run, the deposits after its batch are what the provider gains. -/
theorem settled_run (h : w.Ok) (evs : List (MigrationEvent τ)) (p : Address) :
    settled (run T self w evs) p = settled w p + ((Reaches.visited (step T self) w evs).map (late T self p)).sum := by
  induction evs generalizing w with
  | nil => simp [run, Reaches.visited]
  | cons ev evs ih =>
    have hs : settled (run T self w (ev :: evs)) p = _ := ih (step_ok h ev)
    rw [hs, settled_step h ev p, Int.add_assoc]
    rfl

/-- Once the migration is complete, nobody waits. -/
theorem settled_of_complete (h : w.Ok) (hc : w.state.complete = true) (p : Address) :
    settled w p = (infoOf w.vault.store.stake.stakesV2 p).balance := by
  have hall := (h.complete (h.started hc)).mp hc
  exact if_neg fun hw => hw.2 (hall p hw.1)

theorem credited_nonneg (p : Address) (e : MigrationWorld τ × MigrationEvent τ) :
    0 ≤ credited T self p e := by
  obtain ⟨w, ev⟩ := e
  cases ev with
  | deposit auth staker amount =>
    by_cases h : Accepted T self w auth staker amount
    · rw [credited_deposit.1 h]
      split
      · exact h.2.2.2.1.le
      · exact Int.le_refl 0
    · rw [credited_deposit.2 h]
  | _ => exact Int.le_refl 0

/-- A deposit that is credited and does not last is an early one. -/
theorem late_eq_credited_iff (e : MigrationWorld τ × MigrationEvent τ) :
    (∀ p, late T self p e = credited T self p e) ↔ ¬ Early T self e.1 e.2 := by
  obtain ⟨w, ev⟩ := e
  cases ev with
  | deposit auth staker amount =>
    constructor
    · rintro h ⟨ha, hw⟩
      have hs := h staker
      rw [late, if_pos hw, credited_deposit.1 ha, if_pos rfl] at hs
      exact absurd ha.2.2.2.1 (by omega)
    · intro hne p
      unfold late
      split
      · rename_i hw
        by_cases ha : Accepted T self w auth staker amount
        · rw [credited_deposit.1 ha, if_neg]
          rintro rfl
          exact hne ⟨ha, hw⟩
        · rw [credited_deposit.2 ha]
      · rfl
  | _ => simp [late, credited, Early]

/-- Two sums of the same length, one below the other term by term, agree iff all terms do. -/
theorem sum_eq_iff {ι : Type} {f g : ι → Int} (hle : ∀ i, f i ≤ g i) (l : List ι) :
    (l.map f).sum = (l.map g).sum ↔ ∀ i ∈ l, f i = g i := by
  induction l with
  | nil => simp
  | cons i l ih =>
    have h1 := hle i
    have h2 : (l.map f).sum ≤ (l.map g).sum := sum_le_sum fun i _ => hle i
    simp [← ih]
    omega

theorem late_le (p : Address) (e : MigrationWorld τ × MigrationEvent τ) :
    late T self p e ≤ credited T self p e := by
  unfold late
  split
  · exact credited_nonneg p e
  · exact Int.le_refl _

/-- A completed migration has kept all deposits iff no waiting provider made one: the batch of such a
provider writes its old balance over what it deposited. -/
theorem migration_keeps_deposits_iff (T : Tokens τ) (self : Address) (vault : World τ)
    (hempty : vault.store.stake.stakesV2 = ∅) (v1 : Store Address Int)
    (evs : List (MigrationEvent τ))
    (hc : (run T self (.seeded vault v1) evs).state.complete = true) :
    (∀ p, (infoOf (run T self (.seeded vault v1) evs).vault.store.stake.stakesV2 p).balance =
        v1BalanceOf v1 p + deposited T self (.seeded vault v1) evs p) ↔
      ∀ e ∈ Reaches.visited (step T self) (.seeded vault v1) evs, ¬ Early T self e.1 e.2 := by
  have h0 := seeded_ok vault v1
  have hstart : ∀ p, settled (.seeded vault v1) p = v1BalanceOf v1 p := by
    intro p
    by_cases hp : p ∈ v1
    · exact if_pos ⟨hp, not_mem_nil⟩
    · refine (if_neg fun hw => hp hw.1).trans ?_
      have hv1 : v1.lookup p = none := AList.lookup_eq_none.mpr hp
      simp [MigrationWorld.seeded, infoOf, hempty, v1BalanceOf, hv1]
  -- The balance at the end is the old one and the late deposits.
  have hend : ∀ p, (infoOf (run T self (.seeded vault v1) evs).vault.store.stake.stakesV2
      p).balance = v1BalanceOf v1 p +
        ((Reaches.visited (step T self) (.seeded vault v1) evs).map (late T self p)).sum := by
    intro p
    rw [← settled_of_complete (run_ok h0 evs) hc, settled_run h0, hstart]
  simp only [hend, deposited, Int.add_right_inj, sum_eq_iff (late_le _)]
  constructor
  · intro h e he
    exact (late_eq_credited_iff e).mp fun p => h p e he
  · intro h p e he
    exact (late_eq_credited_iff e).mpr (h e he) p

end Runs

/-! ## A provider that deposits

The vault of the sample runs with one stake of the first layout. -/

section Deposits

open StakeVault.Sample (vault alice admin freeTokens started)

def aliceInV1 : Store Address Int := (∅ : Store Address Int).insert alice 100

/-- `alice` deposits 50 after her batch. -/
def migrateThenDeposit : List (MigrationEvent Unit) := [.migrate (· ≠ vault) admin 1, .deposit (· ≠ vault) alice 50]

/-- A deposit after the batch is added to the migrated balance. -/
theorem late_deposit_kept :
    ((∀ p, (infoOf (run freeTokens vault (.seeded (started freeTokens () []) aliceInV1)
          migrateThenDeposit).vault.store.stake.stakesV2 p).balance =
        v1BalanceOf aliceInV1 p + deposited freeTokens vault
          (.seeded (started freeTokens () []) aliceInV1) migrateThenDeposit p) ↔
      ∀ e ∈ Reaches.visited (step freeTokens vault) (.seeded (started freeTokens () []) aliceInV1)
        migrateThenDeposit, ¬ Early freeTokens vault e.1 e.2) ∧
    (infoOf (run freeTokens vault (.seeded (started freeTokens () []) aliceInV1)
      migrateThenDeposit).vault.store.stake.stakesV2 alice).balance = 150 :=
  ⟨migration_keeps_deposits_iff freeTokens vault _ rfl aliceInV1 migrateThenDeposit
    (by decide +kernel), by decide +kernel⟩

/-- `alice` deposits 50 before her batch, which leaves her with her old balance. -/
theorem early_deposit_lost :
    ¬ ∀ (v1 : Store Address Int) (evs : List (MigrationEvent Unit)),
      (run freeTokens vault (.seeded (started freeTokens () []) v1) evs).state.complete = true →
      ∀ p, (infoOf (run freeTokens vault (.seeded (started freeTokens () []) v1)
          evs).vault.store.stake.stakesV2 p).balance =
        v1BalanceOf v1 p + deposited freeTokens vault (.seeded (started freeTokens () []) v1) evs p := by
  intro h
  have ha := h aliceInV1
    [.deposit (· ≠ vault) alice 50, .migrate (· ≠ vault) admin 1] (by decide +kernel) alice
  exact absurd ha (by decide +kernel)

end Deposits

/-! ## Batches of any sizes -/

section Sizes

variable {T : Tokens τ} {self : Address} {w : MigrationWorld τ} {auth : Auth} {admin : Address}
  {ev : MigrationEvent τ} {evs : List (MigrationEvent τ)}

/-- An authorized batch leaves the counter of batches positive, as does everything after it. -/
theorem batchNumber_pos (h : w.Ok) {evs : List (MigrationEvent τ)}
    (hm : 0 < w.state.batchNumber ∨ ∃ auth admin n, .migrate auth admin n ∈ evs ∧ auth admin = true) :
    0 < (run T self w evs).state.batchNumber := by
  induction evs generalizing w with
  | nil =>
    rcases hm with hm | ⟨auth, admin, n, hmem, -⟩
    · exact hm
    · exact absurd hmem not_mem_nil
  | cons ev evs ih =>
    refine ih (step_ok h ev) ?_
    have hkeep : 0 < w.state.batchNumber → 0 < (step T self w ev).state.batchNumber := by
      intro hpos
      cases ev with
      | migrate =>
        rw [step_migrate]
        split
        · exact Nat.succ_pos _
        · exact hpos
      | recover => rw [step_recover h]; exact hpos
      | deposit => exact hpos
      | advance => exact hpos
      | external => exact hpos
    rcases hm with hm | ⟨auth, admin, n, hmem, hauth⟩
    · exact .inl (hkeep hm)
    · rcases List.mem_cons.mp hmem with rfl | hmem
      · -- A refused batch was preceded by another: the cursor is complete, or its counter is full.
        refine .inl ?_
        rw [step_migrate]
        split
        · exact Nat.succ_pos _
        · rename_i hno
          by_cases hc : w.state.complete = true
          · exact h.started hc
          · have hfull : ¬ w.state.batchNumber < u32Max := fun hlt =>
              hno ⟨hauth, Bool.eq_false_iff.mpr hc, hlt⟩
            exact Nat.lt_of_lt_of_le (by decide) (Nat.le_of_not_lt hfull)
      · exact .inr ⟨auth, admin, n, hmem, hauth⟩

theorem late_eq_zero (hev : ¬ ev.IsDeposit) (w : MigrationWorld τ) (p : Address) :
    late T self p (w, ev) = 0 := by
  cases ev with
  | deposit => exact absurd trivial hev
  | _ => simp [late, credited]

/-- Without deposits, nobody's final balance changes. -/
theorem settled_run_of_no_deposit (h : w.Ok) (hevs : ∀ ev ∈ evs, ¬ ev.IsDeposit) (p : Address) :
    settled (run T self w evs) p = settled w p := by
  induction evs generalizing w with
  | nil => rfl
  | cons ev evs ih =>
    have hs : settled (run T self w (ev :: evs)) p = _ :=
      ih (step_ok h ev) fun ev' hmem => hevs ev' (mem_cons_of_mem _ hmem)
    rw [hs, settled_step h, late_eq_zero (hevs ev (mem_cons_self ..)), Int.add_zero]

/-- Completed without deposits, the migration has copied the old balances and touched nothing else. -/
theorem balance_of_complete (vault : World τ) (v1 : Store Address Int)
    (hevs : ∀ ev ∈ evs, ¬ ev.IsDeposit)
    (hc : (run T self (.seeded vault v1) evs).state.complete = true) (p : Address) :
    (infoOf (run T self (.seeded vault v1) evs).vault.store.stake.stakesV2 p).balance =
      if p ∈ v1 then v1BalanceOf v1 p else (infoOf vault.store.stake.stakesV2 p).balance := by
  have h0 := seeded_ok vault v1
  rw [← settled_of_complete (run_ok h0 evs) hc, settled_run_of_no_deposit h0 hevs]
  refine if_congr ?_ rfl rfl
  simp [Waiting, MigrationWorld.seeded, MigrationState.initial]

/-- One batch as large as the old map completes the migration. -/
theorem covering_batch_complete (T : Tokens τ) (self : Address) (vault : World τ)
    (v1 : Store Address Int) {n : Nat} (hauth : auth admin = true) (hn : v1.keys.length ≤ n) :
    (run T self (.seeded vault v1) [.migrate auth admin n]).state.complete = true := by
  have h0 := seeded_ok vault v1
  have hfirst : 0 < u32Max := by decide
  have hrun : run T self (.seeded vault v1) [.migrate auth admin n] =
      (MigrationWorld.seeded vault v1).afterBatch n :=
    (step_migrate T self _ auth admin n).trans (if_pos ⟨hauth, rfl, hfirst⟩)
  rw [hrun]
  refine ((h0.afterBatch n).complete (Nat.succ_pos _)).mpr fun p hp => ?_
  have hpend : p ∈ pendingOf v1 .initial := mem_pendingOf.mpr ⟨hp, not_mem_nil, not_mem_nil⟩
  have hlen : (pendingOf v1 .initial).length ≤ n := (length_filter_le _ _).trans hn
  change p ∈ [] ++ taken _ n
  simp [taken, MigrationWorld.seeded, Nat.min_eq_right hlen]
  exact hpend

/-- Batches of any sizes list every provider at most once and end complete exactly when they have
listed them all; then the balances are those of one batch that covers everybody. -/
theorem migration_batch_independent (T : Tokens τ) (self : Address) (vault : World τ)
    (v1 : Store Address Int) (evs : List (MigrationEvent τ)) (hevs : ∀ ev ∈ evs, ¬ ev.IsDeposit) :
    (run T self (.seeded vault v1) evs).state.migrated.Nodup ∧
    (∀ p ∈ (run T self (.seeded vault v1) evs).state.migrated, p ∈ v1) ∧
    ((∃ auth admin n, .migrate auth admin n ∈ evs ∧ auth admin = true) →
      ((run T self (.seeded vault v1) evs).state.complete = true ↔
        (∀ p ∈ v1, p ∈ (run T self (.seeded vault v1) evs).state.migrated) ∧
          (run T self (.seeded vault v1) evs).state.pendingRecovery = [])) ∧
    ((run T self (.seeded vault v1) evs).state.complete = true →
      (∀ p, (infoOf (run T self (.seeded vault v1) evs).vault.store.stake.stakesV2 p).balance =
        if p ∈ v1 then v1BalanceOf v1 p else (infoOf vault.store.stake.stakesV2 p).balance) ∧
      ∀ auth admin n, auth admin = true → v1.keys.length ≤ n →
        (run T self (.seeded vault v1) [.migrate auth admin n]).state.complete = true ∧
        ∀ p, (infoOf (run T self (.seeded vault v1) evs).vault.store.stake.stakesV2 p).balance =
          (infoOf (run T self (.seeded vault v1)
            [.migrate auth admin n]).vault.store.stake.stakesV2 p).balance) := by
  have h0 := seeded_ok vault v1
  have h : (run T self (.seeded vault v1) evs).Ok := run_ok h0 evs
  have hv1 : (run T self (.seeded vault v1) evs).stakesV1 = v1 := run_stakesV1 h0 evs
  have hsub := h.subset
  rw [hv1] at hsub
  refine ⟨h.nodup, hsub, ?_, ?_⟩
  · intro hm
    rw [h.complete (batchNumber_pos h0 (.inr hm)), hv1]
    exact (and_iff_left h.recovery).symm
  · intro hc
    refine ⟨balance_of_complete vault v1 hevs hc, ?_⟩
    intro auth admin n hauth hn
    have hone := covering_batch_complete T self vault v1 hauth hn
    refine ⟨hone, fun p => ?_⟩
    rw [balance_of_complete vault v1 hevs hc, balance_of_complete vault v1 _ hone]
    simp [MigrationEvent.IsDeposit]

end Sizes

section Batches

open StakeVault.Sample (vault alice bob admin freeTokens started)

def twoInV1 : Store Address Int := ((∅ : Store Address Int).insert alice 100).insert bob 7

/-- An empty batch and two batches of one. -/
def threeBatches : List (MigrationEvent Unit) :=
  [.migrate (· ≠ vault) admin 0, .migrate (· ≠ vault) admin 1, .migrate (· ≠ vault) admin 1]

/-- Each provider has its old balance, once. -/
theorem two_providers_in_three_batches :
    (run freeTokens vault (.seeded (started freeTokens () []) twoInV1)
      threeBatches).state.complete = true ∧
    ∀ p, (infoOf (run freeTokens vault (.seeded (started freeTokens () []) twoInV1)
        threeBatches).vault.store.stake.stakesV2 p).balance =
      if p ∈ twoInV1 then v1BalanceOf twoInV1 p
      else (infoOf (started freeTokens () []).store.stake.stakesV2 p).balance := by
  have hc : (run freeTokens vault (.seeded (started freeTokens () []) twoInV1)
      threeBatches).state.complete = true := by decide +kernel
  have hevs : ∀ ev ∈ threeBatches, ¬ ev.IsDeposit := by simp [threeBatches, MigrationEvent.IsDeposit]
  exact ⟨hc, ((migration_batch_independent freeTokens vault (started freeTokens () []) twoInV1
    threeBatches hevs).2.2.2 hc).1⟩

end Batches

end Migration

end CallStake.StakeVault
