import CallStake.TradeExecutor.Footprint

/-!
# States that differ in nothing but the last shortfall

* `Alike`: the stored entries are the same, read one by one, apart from `lastInsufficientBalance`; the journal does
  not matter.
* `respects_executeMarketCopyTrade`: from alike states a trade has the same outcome, and ends in alike states. So
  has what the queue does with the outcome (`respects_settleAttempt`).
-/

namespace CallStake.TradeExecutor

open Tx

/-- The last shortfall may differ, and how the daily volumes are kept. -/
structure Exposure.Alike (a b : Exposure) : Prop where
  openInterest : b.openInterest = a.openInterest
  userPositionCount : b.userPositionCount = a.userPositionCount
  dailyVolume : ∀ user, b.dailyVolume.lookup user = a.dailyVolume.lookup user
  dailyVolumeDay : ∀ user, b.dailyVolumeDay.lookup user = a.dailyVolumeDay.lookup user
  circuitBreakerActive : b.circuitBreakerActive = a.circuitBreakerActive
  circuitBreakerLedger : b.circuitBreakerLedger = a.circuitBreakerLedger

structure Alike {ξ : Type} (a b : World ξ) : Prop where
  ledger : b.ledger = a.ledger
  config : b.store.config = a.store.config
  exposure : a.store.exposure.Alike b.store.exposure
  receipts : b.store.receipts = a.store.receipts
  orders : b.store.orders = a.store.orders
  thresholds : b.store.thresholds = a.store.thresholds
  queue : b.store.queue = a.store.queue
  replay : b.store.replay = a.store.replay
  ext : b.ext = a.ext
  locked : b.locked = a.locked

section Alike

variable {ξ α : Type} {a b c : World ξ}

theorem Exposure.Alike.refl (e : Exposure) : e.Alike e := ⟨rfl, rfl, fun _ => rfl, fun _ => rfl, rfl, rfl⟩

theorem Alike.refl (a : World ξ) : Alike a a := ⟨rfl, rfl, .refl _, rfl, rfl, rfl, rfl, rfl, rfl, rfl⟩

theorem Alike.symm (h : Alike a b) : Alike b a :=
  ⟨h.ledger.symm, h.config.symm, ⟨h.exposure.1.symm, h.exposure.2.symm, fun u => (h.exposure.3 u).symm,
    fun u => (h.exposure.4 u).symm, h.exposure.5.symm, h.exposure.6.symm⟩, h.receipts.symm, h.orders.symm,
    h.thresholds.symm, h.queue.symm, h.replay.symm, h.ext.symm, h.locked.symm⟩

theorem Alike.trans (h : Alike a b) (h' : Alike b c) : Alike a c :=
  ⟨h'.ledger.trans h.ledger, h'.config.trans h.config,
    ⟨h'.exposure.1.trans h.exposure.1, h'.exposure.2.trans h.exposure.2,
      fun u => (h'.exposure.3 u).trans (h.exposure.3 u), fun u => (h'.exposure.4 u).trans (h.exposure.4 u),
      h'.exposure.5.trans h.exposure.5, h'.exposure.6.trans h.exposure.6⟩,
    h'.receipts.trans h.receipts, h'.orders.trans h.orders, h'.thresholds.trans h.thresholds,
    h'.queue.trans h.queue, h'.replay.trans h.replay, h'.ext.trans h.ext, h'.locked.trans h.locked⟩

instance : IsPreorder (World ξ) Alike where
  refl := Alike.refl
  trans _ _ _ := Alike.trans

/-! ## Primitives -/

theorem respects_load {f : Storage → α} (hf : ∀ a b : World ξ, Alike a b → f b.store = f a.store) :
    Respects Alike (load (ξ := ξ) f) := respects_gets fun a b h => (hf a b h).symm

theorem respects_timestamp : Respects Alike (timestamp (ξ := ξ)) := respects_gets fun _ _ h => by rw [h.ledger]

theorem respects_sequence : Respects Alike (sequence (ξ := ξ)) := respects_gets fun _ _ h => by rw [h.ledger]

theorem respects_saveExposure {f : Exposure → Exposure} (hf : ∀ e e', e.Alike e' → (f e).Alike (f e')) :
    Respects Alike (saveExposure (ξ := ξ) f) :=
  respects_modify fun _ _ h => ⟨h.ledger, h.config, hf _ _ h.exposure, h.receipts, h.orders, h.thresholds, h.queue,
    h.replay, h.ext, h.locked⟩

theorem respects_saveReceipts (f : Receipts → Receipts) : Respects Alike (saveReceipts (ξ := ξ) f) :=
  respects_modify fun _ _ h => ⟨h.ledger, h.config, h.exposure, congrArg f h.receipts, h.orders, h.thresholds,
    h.queue, h.replay, h.ext, h.locked⟩

theorem respects_saveQueue (f : Queue → Queue) : Respects Alike (saveQueue (ξ := ξ) f) :=
  respects_modify fun _ _ h => ⟨h.ledger, h.config, h.exposure, h.receipts, h.orders, h.thresholds,
    congrArg f h.queue, h.replay, h.ext, h.locked⟩

theorem respects_note (e : Entry) : Respects Alike (note (ξ := ξ) e) :=
  respects_modify fun _ _ h => ⟨h.ledger, h.config, h.exposure, h.receipts, h.orders, h.thresholds, h.queue,
    h.replay, h.ext, h.locked⟩

theorem respects_view (f : ξ → Option α) : Respects Alike (view f) := by
  refine ⟨fun a b h => ?_⟩
  unfold view
  rw [h.ext]
  cases f a.ext <;> exact ⟨rfl, h⟩

/-- The shortfall of a user is written. -/
theorem alike_lastInsufficientBalance (e e' : Exposure) (h : e.Alike e')
    (d d' : Store Address InsufficientBalanceDetail) :
    Exposure.Alike { e with lastInsufficientBalance := d } { e' with lastInsufficientBalance := d' } :=
  ⟨h.1, h.2, h.3, h.4, h.5, h.6⟩

/-! ## Trades -/

variable (X : Externals ξ)

theorem respects_marketCircuitBreakerActive : Respects Alike (marketCircuitBreakerActive (ξ := ξ)) := by
  refine respects_bind (respects_load fun _ _ h => h.exposure.circuitBreakerActive) fun _ =>
    respects_ite ?_ (respects_pure _)
  refine respects_bind (respects_load fun _ _ h => h.exposure.circuitBreakerLedger) fun _ =>
    respects_bind respects_sequence fun _ => respects_bind (respects_when ?_) fun _ => respects_pure _
  exact respects_saveExposure fun _ _ h => ⟨h.1, h.2, h.3, h.4, rfl, rfl⟩

theorem openInterest_of_alike (h : Alike a b) (pair : Address) :
    b.store.openInterest pair = a.store.openInterest pair := by
  unfold Storage.openInterest
  rw [h.exposure.openInterest]

theorem userPositionCount_of_alike (h : Alike a b) (user : Address) :
    b.store.userPositionCount user = a.store.userPositionCount user := by
  unfold Storage.userPositionCount
  rw [h.exposure.userPositionCount]

theorem newVolume_of_alike (h : Alike a b) (today : Nat) (user : Address) (amount : Int) :
    b.store.newVolume today user amount = a.store.newVolume today user amount := by
  unfold Storage.newVolume Storage.dailyVolume Storage.dailyVolumeDay
  rw [h.exposure.dailyVolume, h.exposure.dailyVolumeDay]

theorem respects_checkDailyVolume (limit : Int) (user : Address) (amount : Int) :
    Respects Alike (checkDailyVolume (ξ := ξ) limit user amount) := by
  refine respects_when (respects_bind respects_timestamp fun _ =>
    respects_bind (respects_load fun _ _ h => newVolume_of_alike h _ _ _) fun volume =>
    respects_bind (respects_failIf _ _) fun _ => respects_bind (respects_saveExposure fun _ _ h => ?_) fun _ =>
    respects_saveExposure fun _ _ h => ?_)
  · refine ⟨h.1, h.2, fun u => ?_, h.4, h.5, h.6⟩
    rw [Store.lookup_insert_eq, Store.lookup_insert_eq, h.dailyVolume]
  · refine ⟨h.1, h.2, h.3, fun u => ?_, h.5, h.6⟩
    rw [Store.lookup_insert_eq, Store.lookup_insert_eq, h.dailyVolumeDay]

theorem respects_admitTrade (t : TradeInput) (ctx : Option BatchExecutionContext) :
    Respects Alike (admitTrade (ξ := ξ) t ctx) := by
  refine respects_bind (respects_failIf _ _) fun _ =>
    respects_bind (respects_load fun _ _ h => by unfold Storage.minTradeSize; rw [h.config]) fun _ =>
    respects_bind (respects_failIf _ _) fun _ => respects_bind ?breaker fun _ =>
    respects_bind (respects_failIf _ _) fun _ => respects_bind ?interest fun _ =>
    respects_bind (respects_gets fun _ _ h => h.locked.symm) fun _ => respects_failIf _ _
  case breaker =>
    cases ctx with
    | none => exact respects_marketCircuitBreakerActive
    | some => exact respects_pure _
  case interest =>
    exact respects_bind (respects_load fun _ _ h => by rw [h.config]) fun _ =>
      respects_bind (respects_load fun _ _ h => openInterest_of_alike h _) fun _ => respects_failIf _ _

theorem respects_resolveTradeAmount (user token : Address) (amount : Int) (pct : Option Nat) :
    Respects Alike (resolveTradeAmount X user token amount pct) := by
  cases pct with
  | none => exact respects_pure _
  | some =>
    exact respects_bind (respects_failIf _ _) fun _ => respects_bind (respects_load fun _ _ h => by rw [h.config])
      fun _ => respects_ite (respects_pure _) (respects_bind (respects_view _) fun _ => respects_pure _)

theorem respects_checkUserBalance (user token : Address) (amount fee : Int) :
    Respects Alike (checkUserBalance X user token amount fee) :=
  respects_bind (respects_view _) fun _ => respects_pure _

theorem respects_clearShortfall (user : Address) : Respects Alike (clearShortfall (ξ := ξ) user) :=
  respects_saveExposure fun _ _ h => alike_lastInsufficientBalance _ _ h _ _

theorem respects_checkBalance (user token : Address) (amount fee : Int) :
    Respects Alike (checkBalance X user token amount fee) := by
  refine respects_bind (respects_checkUserBalance X _ _ _ _) fun short => ?_
  cases short with
  | none => exact respects_bind (respects_clearShortfall _) fun _ => respects_pure _
  | some =>
    exact respects_bind (respects_checkUserBalance X _ _ _ _) fun _ => respects_ite
      (respects_bind (respects_clearShortfall _) fun _ => respects_pure _)
      (respects_bind (respects_saveExposure fun _ _ h => alike_lastInsufficientBalance _ _ h _ _)
        fun _ => respects_fail _)

theorem respects_gateTrade (t : TradeInput) (fee : Int) (exempt : Bool) :
    Respects Alike (gateTrade X t fee exempt) :=
  respects_bind (respects_bind (respects_load fun _ _ h => userPositionCount_of_alike h _) fun _ =>
      respects_bind (respects_load fun _ _ h => by rw [h.config]) fun _ => respects_failIf _ _) fun _ =>
    respects_bind (respects_resolveTradeAmount X _ _ _ _) fun _ => respects_bind (respects_checkBalance X _ _ _ _)
      fun _ => respects_pure _

theorem respects_openPosition (portfolio : Address) (t : TradeInput) (exempt : Bool) :
    Respects Alike (openPosition X portfolio t exempt) := by
  refine respects_bind ⟨fun a b h => ?_⟩ fun _ => respects_bind (respects_note _) fun _ => respects_bind ?interest
    fun _ => ?count
  · unfold validateAndRecordPosition
    rw [h.ext]
    split
    · exact ⟨rfl, h.ledger, h.config, h.exposure, h.receipts, h.orders, h.thresholds, h.queue, h.replay, rfl,
        h.locked⟩
    · exact ⟨rfl, h⟩
  case interest =>
    exact respects_bind (respects_load fun _ _ h => openInterest_of_alike h _) fun _ =>
      respects_saveExposure fun _ _ h => ⟨by rw [h.1], h.2, h.3, h.4, h.5, h.6⟩
  case count =>
    exact respects_bind (respects_load fun _ _ h => userPositionCount_of_alike h _) fun _ =>
      respects_saveExposure fun _ _ h => ⟨h.1, by rw [h.2], h.3, h.4, h.5, h.6⟩

theorem respects_recordTrade (t : TradeInput) (amount : Int) : Respects Alike (recordTrade (ξ := ξ) t amount) :=
  respects_bind (respects_bind (respects_load fun _ _ h => by unfold Storage.sdexPrice; rw [h.config]) fun _ =>
      respects_bind respects_timestamp fun _ => respects_bind (respects_load fun _ _ h => by rw [h.receipts]) fun _ =>
      respects_bind (respects_saveReceipts _) fun _ => respects_pure _) fun _ =>
    respects_bind respects_sequence fun _ => respects_saveReceipts _

theorem respects_settleTrade (t : TradeInput) (ctx : Option BatchExecutionContext) :
    Respects Alike (settleTrade X t ctx) := by
  refine respects_bind ?portfolio fun _ =>
    respects_bind (respects_load fun _ _ h => by unfold Storage.exempt; rw [h.config]) fun _ =>
    respects_bind ?fee fun _ => respects_bind (respects_gateTrade X _ _ _) fun _ =>
    respects_bind (respects_openPosition X _ _ _) fun _ =>
    respects_bind (respects_when (respects_saveReceipts _)) fun _ => respects_recordTrade _ _
  case portfolio =>
    cases ctx with
    | none => exact respects_bind (respects_load fun _ _ h => by rw [h.config]) fun _ => respects_ofOption _ _
    | some => exact respects_pure _
  case fee =>
    cases ctx with
    | none => exact respects_gets fun _ _ h => by dsimp only; rw [h.config]
    | some => exact respects_pure _

theorem Alike.setLocked (h : Alike a b) (locked : Bool) : Alike { a with locked } { b with locked } :=
  ⟨h.ledger, h.config, h.exposure, h.receipts, h.orders, h.thresholds, h.queue, h.replay, h.ext, rfl⟩

theorem respects_withLock {x : T ξ α} (hx : Respects Alike x) : Respects Alike (withLock x) where
  run _ _ h :=
    have hrun := hx.run _ _ (h.setLocked true)
    ⟨hrun.1, hrun.2.setLocked false⟩

theorem respects_executeMarketCopyTrade (t : TradeInput) (ctx : Option BatchExecutionContext) :
    Respects Alike (executeMarketCopyTrade X t ctx) := by
  refine respects_bind (respects_admitTrade _ _) fun _ => respects_withLock (respects_bind ?_ fun _ =>
    respects_bind (respects_checkDailyVolume _ _ _) fun _ => respects_settleTrade X _ _)
  cases ctx with
  | none => exact respects_gets fun _ _ h => by dsimp only; rw [h.config]
  | some => exact respects_pure _

/-! ## The queue -/

theorem respects_settleAttempt (trade : QueuedTrade) (id : Nat) (result : Except ContractError Unit) :
    Respects Alike (settleAttempt (ξ := ξ) trade id result) := by
  refine respects_bind respects_sequence fun _ => respects_bind (respects_note _) fun _ => ?_
  cases result with
  | ok => exact respects_bind (respects_saveQueue _) fun _ => respects_pure _
  | error e =>
    refine respects_bind (respects_bind (respects_load fun _ _ h => by rw [h.config]) fun _ => respects_ite ?_
        (respects_bind (respects_saveQueue _) fun _ => respects_pure _)) fun _ => respects_pure _
    refine respects_bind ?_ fun _ => respects_bind (respects_saveQueue _) fun _ => respects_pure _
    exact respects_bind respects_sequence fun _ => respects_bind (respects_saveQueue _) fun _ =>
      respects_bind (respects_load fun _ _ h => by unfold Storage.deadLetterIds; rw [h.queue]) fun _ =>
      respects_bind (respects_saveQueue _) fun _ => respects_bind (respects_saveQueue _) fun _ => respects_note _

theorem respects_processQueuedTrade {run : TradeInput → T ξ Unit} (hrun : ∀ t, Respects Alike (run t)) (id : Nat) :
    Respects Alike (processQueuedTrade run id) := by
  refine respects_bind (respects_load fun _ _ h => by rw [h.queue]) fun trade => ?_
  cases trade with
  | none => exact respects_pure _
  | some =>
    exact respects_bind (respects_load fun _ _ h => by rw [h.config]) fun _ =>
      respects_bind respects_sequence fun _ => respects_ite
        (respects_bind (respects_attempt (hrun _)) fun _ => respects_settleAttempt _ _ _) (respects_pure _)

end Alike

end CallStake.TradeExecutor
