import CallStake.TradeExecutor.Traceless

/-!
# A batch and the queue, against trades apart

A batch executes its trades in one call, with the settings that it has read before, and so does the queue. What
comes of it is compared with what comes of each trade in a transaction of its own.

* `Current ctx`: the settings of a batch are those that a trade would read, and stay so (`agree_...`).
* `BatchApart`: a batch leaves the storage that its trades leave when each is a transaction, and each trade that
  fails leaves it as it was. `QueueApart`: the same for the queue.
* `failed_trades_traceless`: when that is so.
-/

namespace CallStake.TradeExecutor

open Tx List

set_option synthInstance.maxSize 1000000000

section Current

variable {ξ : Type} (X : Externals ξ) {a b w w' : World ξ} (t : TradeInput) {ctx : BatchExecutionContext}

/-! ## The settings of a batch -/

/-- A trade would read what the batch has read. -/
structure Current (ctx : BatchExecutionContext) (w : World ξ) : Prop where
  portfolio : w.store.config.userPortfolio = some ctx.portfolio
  fee : w.store.config.copyTradeEstimatedFee = ctx.estimatedFee
  limit : w.store.config.dailyVolumeLimit = ctx.dailyLimit
  breaker : decide (Broken w) = ctx.circuitBreakerActive
  fresh : ¬ Stale w

theorem Current.same (h : Current ctx a) (hledger : b.ledger = a.ledger) (hconfig : b.store.config = a.store.config)
    (hactive : b.store.exposure.circuitBreakerActive = a.store.exposure.circuitBreakerActive)
    (hactivated : b.store.exposure.circuitBreakerLedger = a.store.exposure.circuitBreakerLedger) :
    Current ctx b := by
  have hbroken : Broken b ↔ Broken a := by unfold Broken; rw [hledger, hactive, hactivated]
  have hstale : Stale b ↔ Stale a := by unfold Stale; rw [hledger, hactive, hactivated]
  constructor
  · rw [hconfig]; exact h.portfolio
  · rw [hconfig]; exact h.fee
  · rw [hconfig]; exact h.limit
  · rw [← h.breaker]; exact decide_eq_decide.mpr hbroken
  · rw [hstale]; exact h.fresh

theorem prepareBatchContext_ok (hr : prepareBatchContext w = (.ok ctx, w')) :
    w' = w.afterBreaker ∧ Current ctx w' := by
  rw [prepareBatchContext, load, bind_gets_ok, bind_ofOption_ok] at hr
  obtain ⟨portfolio, hportfolio, hr⟩ := hr
  rw [load, bind_gets_ok, load, bind_gets_ok] at hr
  obtain ⟨active, w₁, hactive, hr₁⟩ := bind_ok.mp hr
  obtain ⟨hctx, rfl⟩ := pure_ok.mp hr₁
  rw [marketCircuitBreakerActive_run] at hactive
  obtain ⟨hdecide, rfl⟩ := Prod.mk.inj hactive
  have hconfig : w.afterBreaker.store.config = w.store.config := by
    unfold World.afterBreaker
    split <;> rfl
  subst hctx
  refine ⟨rfl, ?_, ?_, ?_, ?_, not_stale_afterBreaker w⟩
  · rw [hconfig]; exact hportfolio
  · rw [hconfig]
  · rw [hconfig]
  · exact (decide_eq_decide.mpr (broken_afterBreaker w)).trans (Except.ok.inj hdecide)

instance {f : ξ → Except InvokeFailure ξ} : Within (Keeps (Current ctx)) (tryInvoke f) := by
  refine ⟨fun w h => ?_⟩
  unfold tryInvoke
  split
  · exact h.same rfl rfl rfl rfl
  · exact h

theorem quiet_current : Quiet X (Keeps (Current ctx)) where
  exposure _ hf := ⟨fun w h => h.same rfl rfl (hf w.store.exposure).2.2.1 (hf w.store.exposure).2.2.2⟩
  breaker := by
    refine ⟨fun w h => ?_⟩
    rw [marketCircuitBreakerActive_run]
    change Current ctx w.afterBreaker
    rw [afterBreaker_of_not_stale h.fresh]
    exact h
  receipts _ := ⟨fun _ h => h.same rfl rfl rfl rfl⟩
  orders _ := ⟨fun _ h => h.same rfl rfl rfl rfl⟩
  thresholds _ := ⟨fun _ h => h.same rfl rfl rfl rfl⟩
  replay _ _ h := h.same rfl rfl rfl rfl
  lock _ _ h := h.same rfl rfl rfl rfl
  approve _ _ _ _ := inferInstance
  swap _ _ _ _ _ _ := inferInstance

theorem openPosition_current (portfolio : Address) (exempt : Bool) :
    Within (Keeps (Current ctx)) (openPosition X portfolio t exempt) := by
  have hsave (f : Exposure → Exposure) (hf : ∀ e, (f e).circuitBreakerActive = e.circuitBreakerActive ∧
      (f e).circuitBreakerLedger = e.circuitBreakerLedger) : Within (Keeps (Current ctx)) (saveExposure (ξ := ξ) f) :=
    ⟨fun w h => h.same rfl rfl (hf w.store.exposure).1 (hf w.store.exposure).2⟩
  refine within_bind ⟨fun w h => ?_⟩ fun _ => within_bind ⟨fun _ h => h.same rfl rfl rfl rfl⟩ fun _ =>
    within_bind (within_bind inferInstance fun _ => hsave _ fun _ => ⟨rfl, rfl⟩) fun _ =>
    within_bind inferInstance fun _ => hsave _ fun _ => ⟨rfl, rfl⟩
  unfold validateAndRecordPosition
  split
  · exact h.same rfl rfl rfl rfl
  · exact h

/-- Two ways to read a setting agree where they read the same. -/
theorem agree_setting {α : Type} {x y : T ξ α} {f : World ξ → α} (hx : ∀ w, Current ctx w → x w = (.ok (f w), w))
    (hy : ∀ w, Current ctx w → y w = (.ok (f w), w)) : Agree (Current ctx) x y where
  run w h := (hx w h).trans (hy w h).symm
  kept w h := by rw [hx w h]; exact h

instance : Agree (Current ctx) (breakerFor (ξ := ξ) (some ctx)) (breakerFor none) := by
  refine agree_setting (f := fun _ => ctx.circuitBreakerActive) (fun _ _ => rfl) fun w h => ?_
  change marketCircuitBreakerActive w = _
  rw [marketCircuitBreakerActive_run, h.breaker, afterBreaker_of_not_stale h.fresh]

instance : Agree (Current ctx) (dailyLimitFor (ξ := ξ) (some ctx)) (dailyLimitFor none) := by
  refine agree_setting (f := fun _ => ctx.dailyLimit) (fun _ _ => rfl) fun w h => ?_
  change ((.ok w.store.config.dailyVolumeLimit, w) : Except _ _ × _) = _
  rw [h.limit]

instance : Agree (Current ctx) (feeFor (ξ := ξ) (some ctx)) (feeFor none) := by
  refine agree_setting (f := fun _ => ctx.estimatedFee) (fun _ _ => rfl) fun w h => ?_
  change ((.ok w.store.config.copyTradeEstimatedFee, w) : Except _ _ × _) = _
  rw [h.fee]

instance : Agree (Current ctx) (portfolioFor (ξ := ξ) (some ctx)) (portfolioFor none) := by
  refine agree_setting (f := fun _ => ctx.portfolio) (fun _ _ => rfl) fun w h => ?_
  change (Tx.ofOption w.store.config.userPortfolio (err .notInitialized)) w = _
  rw [h.portfolio]
  rfl

instance {α : Type} {x y : T ξ α} [h : Agree (Current ctx) x y] :
    Agree (Current ctx) (withLock x) (withLock y) where
  run w hw := by
    have hlocked : Current ctx { w with locked := true } := hw.same rfl rfl rfl rfl
    unfold withLock
    rw [h.run _ hlocked]
  kept w hw := by
    have hlocked : Current ctx { w with locked := true } := hw.same rfl rfl rfl rfl
    exact (h.kept _ hlocked).same rfl rfl rfl rfl

/-- With the settings of the batch a trade does what it does without. -/
instance agree_executeMarketCopyTrade :
    Agree (Current ctx) (executeMarketCopyTrade X t (some ctx)) (executeMarketCopyTrade X t none) := by
  have : Quiet X (Keeps (Current ctx)) := quiet_current X
  have (p : Address) (exempt : Bool) : Within (Keeps (Current ctx)) (openPosition X p t exempt) :=
    openPosition_current X t p exempt
  unfold executeMarketCopyTrade admitTrade settleTrade countFeeDeducted recordTrade recordTradeReceipt
  infer_instance

theorem agree_executeAuthorizedTrade (env : Env) :
    Agree (Current ctx) (executeAuthorizedTrade X env t (some ctx)) (executeAuthorizedTrade X env t none) := by
  unfold executeAuthorizedTrade
  infer_instance

end Current

/-! ## Batches -/

section Batch

variable {ξ : Type} (X : Externals ξ) (env : Env) {w w' : World ξ}

/-- A trade inside the call of a batch: what it wrote before an error stays. -/
def inBatch (ctx : BatchExecutionContext) (w : World ξ) (t : BatchTradeInput) : World ξ :=
  (executeAuthorizedTrade X env t.input (some ctx)).settle w

/-- The trades one after the other, each a transaction. -/
def separately (w : World ξ) (trades : List BatchTradeInput) : World ξ :=
  trades.foldl (fun w t => (executeAuthorizedTrade X env t.input none).exec w) w

/-- A trade does the same with a breaker that has run out and with one that was reset, unless it fails before. -/
theorem executeMarketCopyTrade_afterBreaker (t : TradeInput) (w : World ξ) :
    executeMarketCopyTrade X t none w = executeMarketCopyTrade X t none w.afterBreaker ∨
    ∃ e, executeMarketCopyTrade X t none w = (.error (.err e), w) ∧
      executeMarketCopyTrade X t none w.afterBreaker = (.error (.err e), w.afterBreaker) := by
  obtain ⟨rest, hrest⟩ : ∃ rest : Bool → T ξ Unit, executeMarketCopyTrade X t none =
      failIf (t.amount ≤ 0) (err .invalidAmount) >>= fun _ => load (·.minTradeSize t.token) >>= fun minimum =>
        failIf (t.amount < minimum) (err .belowMinimumTradeSize) >>= fun _ =>
        marketCircuitBreakerActive >>= rest := by
    refine ⟨fun active => failIf (active = true) (err .circuitBreakerActive) >>= fun _ =>
      checkOpenInterestLimit t.token t.amount >>= fun _ => Tx.gets (·.locked) >>= fun locked =>
      failIf (locked = true) (err .reentrancyDetected) >>= fun _ =>
      withLock (dailyLimitFor none >>= fun limit => checkDailyVolume limit t.user t.amount >>= fun _ =>
        settleTrade X t none), ?_⟩
    rw [executeMarketCopyTrade, admitTrade]
    simp only [bind_assoc_eq]
    rfl
  have hminimum : w.afterBreaker.store.minTradeSize t.token = w.store.minTradeSize t.token := by
    unfold World.afterBreaker
    split <;> rfl
  by_cases hamount : t.amount ≤ 0
  · refine .inr ⟨.invalidAmount, ?_, ?_⟩ <;> rw [hrest, failIf, if_pos hamount] <;> rfl
  rw [hrest, failIf, if_neg hamount]
  change (failIf (t.amount < w.store.minTradeSize t.token) _ >>= _) w =
    (failIf (t.amount < w.afterBreaker.store.minTradeSize t.token) _ >>= _) w.afterBreaker ∨ ∃ e,
    (failIf (t.amount < w.store.minTradeSize t.token) _ >>= _) w = _ ∧
    (failIf (t.amount < w.afterBreaker.store.minTradeSize t.token) _ >>= _) w.afterBreaker = _
  rw [hminimum]
  by_cases hsmall : t.amount < w.store.minTradeSize t.token
  · refine .inr ⟨.belowMinimumTradeSize, ?_, ?_⟩ <;> rw [failIf, if_pos hsmall] <;> rfl
  left
  rw [failIf, if_neg hsmall]
  change Tx.bind marketCircuitBreakerActive rest w = Tx.bind marketCircuitBreakerActive rest w.afterBreaker
  unfold Tx.bind
  rw [marketCircuitBreakerActive_run, marketCircuitBreakerActive_run,
    afterBreaker_of_not_stale (not_stale_afterBreaker w)]
  rw [decide_eq_decide.mpr (broken_afterBreaker w)]

/-- The trade is carried out when its turn comes in the batch. -/
def Executes (ctx : BatchExecutionContext) (e : World ξ × BatchTradeInput) : Prop :=
  (executeAuthorizedTrade X env e.2.input (some ctx) e.1).1.isOk = true

/-- The trade does not end the batch with a trap. -/
def Returns (ctx : BatchExecutionContext) (e : World ξ × BatchTradeInput) : Prop :=
  (executeAuthorizedTrade X env e.2.input (some ctx) e.1).1 ≠ .error .panic

/-- A batch that returns runs its trades one after the other, and tells of each whether it was executed. -/
theorem batchTrades_ok {run : TradeInput → T ξ Unit} {trades : List BatchTradeInput}
    {results : List BatchTradeResult} (hr : batchTrades run trades w = (.ok results, w')) :
    w' = trades.foldl (fun w t => (run t.input).settle w) w ∧
    List.Forall₂ (fun e r => (run e.2.input e.1).1 ≠ .error .panic ∧ r.ok = (run e.2.input e.1).1.isOk)
      (Reaches.visited (fun w t => (run t.input).settle w) w trades) results := by
  induction trades generalizing w results with
  | nil =>
    obtain ⟨rfl, rfl⟩ := pure_ok.mp hr
    exact ⟨rfl, .nil⟩
  | cons t ts ih =>
    obtain ⟨result, w₁, hrun, hr₁⟩ := bind_ok.mp hr
    obtain ⟨rest, w₂, hrest, hr₂⟩ := bind_ok.mp hr₁
    obtain ⟨rfl, rfl⟩ := pure_ok.mp hr₂
    have hstep : (run t.input).settle w = w₁ ∧ (run t.input w).1 ≠ .error .panic ∧
        (BatchTradeResult.of result).ok = (run t.input w).1.isOk := by
      rcases attempt_ok.mp hrun with ⟨u, rfl, hok⟩ | ⟨e, rfl, herr⟩
      · rw [Tx.settle, hok]
        exact ⟨rfl, by nofun, rfl⟩
      · rw [Tx.settle, herr]
        exact ⟨rfl, by nofun, rfl⟩
    obtain ⟨hfinal, hresults⟩ := ih hrest
    rw [foldl_cons, Reaches.visited, hstep.1]
    exact ⟨hfinal, .cons hstep.2 hresults⟩

theorem executeAuthorizedTrade_eq {t : TradeInput} (h : env.auth t.user = true)
    (ctx : Option BatchExecutionContext) :
    executeAuthorizedTrade X env t ctx = executeMarketCopyTrade X t ctx := by
  unfold executeAuthorizedTrade requireAuth failIf
  rw [if_neg (by rw [h]; nofun)]
  rfl

theorem auth_of_returns {ctx : BatchExecutionContext} {t : BatchTradeInput} (h : Returns X env ctx (w, t)) :
    env.auth t.user = true := by
  by_contra hauth
  have hfalse : env.auth t.input.user = false := Bool.eq_false_iff.mpr hauth
  refine h ?_
  dsimp only
  unfold executeAuthorizedTrade requireAuth failIf
  rw [if_pos hfalse]
  rfl

section Steps

variable {X env} {ctx : BatchExecutionContext} {t : BatchTradeInput} {r : World ξ}

theorem current_inBatch (h : Current ctx w) (hreturns : Returns X env ctx (w, t)) :
    Current ctx (inBatch X env ctx w t) := by
  have hkept := (agree_executeAuthorizedTrade X t.input env).kept w h
  unfold inBatch Tx.settle
  rcases hr : executeAuthorizedTrade X env t.input (some ctx) w with ⟨(e | _) | u, w'⟩ <;> rw [hr] at hkept
  · exact hkept
  · exact absurd (congrArg Prod.fst hr) hreturns
  · exact hkept

/-- A trade of a batch is the trade by itself: it is accepted and executed, or fails. -/
theorem inBatch_cases (h : Current ctx w) (hreturns : Returns X env ctx (w, t)) :
    (Executes X env ctx (w, t) ∧ Accepted X w t.input ∧
      executeMarketCopyTrade X t.input none w = (.ok (), inBatch X env ctx w t)) ∨
    (¬ Executes X env ctx (w, t) ∧ ∃ e, Left X t.input w (inBatch X env ctx w t) ∧
      executeMarketCopyTrade X t.input none w = (.error (.err e), inBatch X env ctx w t)) := by
  have hsame : executeAuthorizedTrade X env t.input (some ctx) w = executeMarketCopyTrade X t.input none w := by
    rw [executeAuthorizedTrade_eq X env (auth_of_returns X env hreturns)]
    exact (agree_executeMarketCopyTrade X t.input).run w h
  have hends := ends_executeMarketCopyTrade X t.input w
  unfold Returns at hreturns
  unfold Executes inBatch Tx.settle
  rw [hsame] at hreturns ⊢
  rcases hr : executeMarketCopyTrade X t.input none w with ⟨(e | _) | u, w'⟩
  · exact .inr ⟨by nofun, e, hends.of_error hr, rfl⟩
  · rw [hr] at hreturns
    exact absurd rfl hreturns
  · exact .inl ⟨rfl, hends.of_ok hr, rfl⟩

theorem stale_of_alike {a b : World ξ} (h : Alike a b) : Stale b ↔ Stale a := by
  unfold Stale
  rw [h.ledger, h.exposure.circuitBreakerActive, h.exposure.circuitBreakerLedger]

/-- A trade of a batch against a transaction of its own, which may find a breaker that the batch has reset. -/
theorem separate_step (h : Current ctx w) (halike : Alike w r.afterBreaker) (hreturns : Returns X env ctx (w, t))
    (hfails : ¬ Executes X env ctx (w, t) → Alike w (inBatch X env ctx w t)) :
    Alike (inBatch X env ctx w t) ((executeAuthorizedTrade X env t.input none).exec r).afterBreaker ∧
    (Stale ((executeAuthorizedTrade X env t.input none).exec r) ↔ Stale r ∧ ¬ Executes X env ctx (w, t)) := by
  rw [executeAuthorizedTrade_eq X env (auth_of_returns X env hreturns)]
  have hrun := (respects_executeMarketCopyTrade X t.input none).run w r.afterBreaker halike
  have hreset := executeMarketCopyTrade_afterBreaker X t.input r
  rcases inBatch_cases h hreturns with ⟨hexec, -, hok⟩ | ⟨hexec, e, -, herr⟩
  · have hcurrent := current_inBatch h hreturns
    rw [hok] at hrun
    rcases hr : executeMarketCopyTrade X t.input none r.afterBreaker with ⟨q, r'⟩
    rw [hr] at hrun hreset
    obtain ⟨hq, hsame⟩ := hrun
    change Except.ok () = q at hq
    subst hq
    have hexec' : (executeMarketCopyTrade X t.input none).exec r = r' := by
      rcases hreset with hreset | ⟨e, -, hne⟩
      · exact exec_of_ok hreset
      · cases hne
    have hfresh : ¬ Stale r' := fun hs => hcurrent.fresh ((stale_of_alike hsame).mp hs)
    rw [hexec', afterBreaker_of_not_stale hfresh]
    exact ⟨hsame, iff_of_false hfresh fun hs => hs.2 hexec⟩
  · have hexec' : (executeMarketCopyTrade X t.input none).exec r = r := by
      rw [herr] at hrun
      rcases hreset with hreset | ⟨e', hr, -⟩
      · unfold Tx.exec
        rw [hreset]
        rcases hr : executeMarketCopyTrade X t.input none r.afterBreaker with ⟨q, r'⟩
        rw [hr] at hrun
        obtain ⟨hq, -⟩ := hrun
        change Except.error (.err e) = q at hq
        subst hq
        rfl
      · unfold Tx.exec
        rw [hr]
    rw [hexec']
    exact ⟨(hfails hexec).symm.trans halike, (and_iff_left hexec).symm⟩

/-- The trades of a batch, of which those that fail leave no trace, against transactions. -/
theorem separate_run {trades : List BatchTradeInput} (h : Current ctx w) (halike : Alike w r.afterBreaker)
    (hvisited : ∀ e ∈ Reaches.visited (inBatch X env ctx) w trades, Returns X env ctx e ∧
      (¬ Executes X env ctx e → Alike e.1 (inBatch X env ctx e.1 e.2))) :
    Alike (trades.foldl (inBatch X env ctx) w) (separately X env r trades).afterBreaker ∧
    (Stale (separately X env r trades) ↔ Stale r ∧
      ∀ e ∈ Reaches.visited (inBatch X env ctx) w trades, ¬ Executes X env ctx e) := by
  induction trades generalizing w r with
  | nil => exact ⟨halike, (and_iff_left fun _ he => absurd he not_mem_nil).symm⟩
  | cons t ts ih =>
    obtain ⟨hreturns, hfails⟩ := hvisited (w, t) (mem_cons_self ..)
    obtain ⟨hstep, hstale⟩ := separate_step h halike hreturns hfails
    obtain ⟨hfinal, hstale'⟩ := ih (current_inBatch h hreturns) hstep
      fun e he => hvisited e (mem_cons_of_mem _ he)
    refine ⟨hfinal, hstale'.trans ?_⟩
    rw [hstale, Reaches.visited, forall_mem_cons]
    exact and_assoc

end Steps

/-- A batch leaves what its trades leave one by one, and a trade that it reports as failed leaves no trace. -/
structure BatchApart (trades : List BatchTradeInput) (results : List BatchTradeResult) (w w' : World ξ) : Prop where
  same : Alike w' (separately X env w trades)
  unharmed : ∀ ctx w₁, prepareBatchContext w = (.ok ctx, w₁) →
    List.Forall₂ (fun e r => r.ok = false → Alike e.1 (inBatch X env ctx e.1 e.2))
      (Reaches.visited (inBatch X env ctx) w₁ trades) results

/-- Every trade is traceless when its turn comes, and one is accepted if the breaker has run out. -/
structure BatchTraceless (trades : List BatchTradeInput) (w : World ξ) : Prop where
  each : ∀ ctx w₁, prepareBatchContext w = (.ok ctx, w₁) →
    Reaches.Along (inBatch X env ctx) (fun w t => Traceless X w t.input) w₁ trades
  breaker : Stale w → ∀ ctx w₁, prepareBatchContext w = (.ok ctx, w₁) →
    ∃ e ∈ Reaches.visited (inBatch X env ctx) w₁ trades, Accepted X e.1 e.2.input

theorem along_iff_mem_visited {σ ι : Type} (next : σ → ι → σ) (ok : σ → ι → Prop) (s : σ) (l : List ι) :
    Reaches.Along next ok s l ↔ ∀ e ∈ Reaches.visited next s l, ok e.1 e.2 :=
  Reaches.along_iff_visited (P := fun _ => True) (fun _ _ _ => trivial) (fun _ _ _ _ => rfl) trivial

theorem forall₂_iff_forall_mem {α β : Type} {P Q : α → β → Prop} {A : α → Prop} {l : List α} {l' : List β}
    (h : List.Forall₂ P l l') (hiff : ∀ a b, P a b → (Q a b ↔ A a)) :
    List.Forall₂ Q l l' ↔ ∀ a ∈ l, A a := by
  induction h with
  | nil => simp
  | cons hab _ ih => rw [forall₂_cons, forall_mem_cons, hiff _ _ hab, ih]

theorem forall_mem_of_forall₂ {α β : Type} {P : α → β → Prop} {A : α → Prop} {l : List α} {l' : List β}
    (h : List.Forall₂ P l l') (hP : ∀ a b, P a b → A a) : ∀ a ∈ l, A a := by
  induction h with
  | nil => exact fun _ he => absurd he not_mem_nil
  | cons hab _ ih => exact List.forall_mem_cons.mpr ⟨hP _ _ hab, ih⟩

section Theorem

variable {X env} {ctx : BatchExecutionContext}

/-- In a batch that goes on, a trade leaves no trace when it fails iff it is traceless. -/
theorem inBatch_traceless_iff {e : World ξ × BatchTradeInput} (h : Current ctx e.1)
    (hreturns : Returns X env ctx e) :
    (¬ Executes X env ctx e → Alike e.1 (inBatch X env ctx e.1 e.2)) ↔ Traceless X e.1 e.2.input := by
  obtain ⟨w, t⟩ := e
  rcases inBatch_cases h hreturns with ⟨hexec, haccepted, -⟩ | ⟨hexec, e, hleft, -⟩
  · exact iff_of_true (fun hn => absurd hexec hn) (traceless_of_accepted X t.input haccepted)
  · exact (forall_prop_of_true hexec).trans hleft.alike_iff

theorem executes_iff_accepted {e : World ξ × BatchTradeInput} (h : Current ctx e.1)
    (hreturns : Returns X env ctx e) : Executes X env ctx e ↔ Accepted X e.1 e.2.input := by
  obtain ⟨w, t⟩ := e
  rcases inBatch_cases h hreturns with ⟨hexec, haccepted, -⟩ | ⟨hexec, e, hleft, -⟩
  · exact iff_of_true hexec haccepted
  · exact iff_of_false hexec hleft.not_accepted

theorem current_of_visited {trades : List BatchTradeInput} (h : Current ctx w)
    (hreturns : ∀ e ∈ Reaches.visited (inBatch X env ctx) w trades, Returns X env ctx e) :
    ∀ e ∈ Reaches.visited (inBatch X env ctx) w trades, Current ctx e.1 := by
  induction trades generalizing w with
  | nil => exact fun _ he => absurd he not_mem_nil
  | cons t ts ih =>
    rw [Reaches.visited, forall_mem_cons] at hreturns ⊢
    exact ⟨h, ih (current_inBatch h hreturns.1) hreturns.2⟩

theorem batchExecute_ok {trades : List BatchTradeInput} {results : List BatchTradeResult}
    (hr : batchExecute X env trades w = (.ok results, w')) :
    ∃ ctx w₁, prepareBatchContext w = (.ok ctx, w₁) ∧
      batchTrades (fun t => executeAuthorizedTrade X env t (some ctx)) trades w₁ = (.ok results, w') := by
  rw [batchExecute, batchExecuteAtomic, bind_failIf_ok, bind_failIf_ok] at hr
  obtain ⟨-, -, hr₁⟩ := hr
  obtain ⟨ctx, w₁, hctx, hr₂⟩ := bind_ok.mp hr₁
  obtain ⟨results', w₂, hbatch, hr₃⟩ := bind_ok.mp hr₂
  rw [bind_failIf_ok] at hr₃
  obtain ⟨-, hr₄⟩ := hr₃
  obtain ⟨rfl, rfl⟩ := pure_ok.mp hr₄
  exact ⟨ctx, w₁, hctx, hbatch⟩

theorem batch_apart_iff {trades : List BatchTradeInput} {results : List BatchTradeResult}
    (hr : batchExecute X env trades w = (.ok results, w')) :
    BatchApart X env trades results w w' ↔ BatchTraceless X env trades w := by
  obtain ⟨ctx, w₁, hctx, hbatch⟩ := batchExecute_ok hr
  obtain ⟨hw₁, hcurrent⟩ := prepareBatchContext_ok hctx
  obtain ⟨hfinal, hresults⟩ := batchTrades_ok hbatch
  have hreturns : ∀ e ∈ Reaches.visited (inBatch X env ctx) w₁ trades, Returns X env ctx e :=
    forall_mem_of_forall₂ hresults fun _ _ h => h.1
  have hcurrents := current_of_visited hcurrent hreturns
  -- a batch reads its settings in one way only
  have hunique : ∀ ctx' w₂, prepareBatchContext w = (.ok ctx', w₂) → ctx' = ctx ∧ w₂ = w₁ := by
    intro ctx' w₂ h
    cases hctx.symm.trans h
    exact ⟨rfl, rfl⟩
  have hunharmed : List.Forall₂ (fun e (r : BatchTradeResult) => r.ok = false →
        Alike e.1 (inBatch X env ctx e.1 e.2)) (Reaches.visited (inBatch X env ctx) w₁ trades) results ↔
      ∀ e ∈ Reaches.visited (inBatch X env ctx) w₁ trades,
        ¬ Executes X env ctx e → Alike e.1 (inBatch X env ctx e.1 e.2) := by
    refine forall₂_iff_forall_mem hresults fun e r h => ?_
    rw [h.2, ← Bool.not_eq_true]
    exact Iff.rfl
  have htraceless : (∀ e ∈ Reaches.visited (inBatch X env ctx) w₁ trades,
        ¬ Executes X env ctx e → Alike e.1 (inBatch X env ctx e.1 e.2)) ↔
      Reaches.Along (inBatch X env ctx) (fun w t => Traceless X w t.input) w₁ trades := by
    rw [along_iff_mem_visited]
    exact forall₂_congr fun e he => inBatch_traceless_iff (hcurrents e he) (hreturns e he)
  have hsame : (∀ e ∈ Reaches.visited (inBatch X env ctx) w₁ trades,
        ¬ Executes X env ctx e → Alike e.1 (inBatch X env ctx e.1 e.2)) →
      (Alike w' (separately X env w trades) ↔ (Stale w →
        ∃ e ∈ Reaches.visited (inBatch X env ctx) w₁ trades, Accepted X e.1 e.2.input)) := by
    intro hfails
    obtain ⟨halike, hstale⟩ := separate_run (r := w) hcurrent (hw₁ ▸ Alike.refl w₁)
      fun e he => ⟨hreturns e he, hfails e he⟩
    change Alike (trades.foldl (fun w t => (executeAuthorizedTrade X env t.input (some ctx)).settle w) w₁) _ at halike
    rw [← hfinal] at halike
    have hexists : (∃ e ∈ Reaches.visited (inBatch X env ctx) w₁ trades, Accepted X e.1 e.2.input) ↔
        ¬ ∀ e ∈ Reaches.visited (inBatch X env ctx) w₁ trades, ¬ Executes X env ctx e := by
      push Not
      exact exists_congr fun e => and_congr_right fun he =>
        (executes_iff_accepted (hcurrents e he) (hreturns e he)).symm
    have hreset : Alike w' (separately X env w trades) ↔ ¬ Stale (separately X env w trades) := by
      rw [← alike_afterBreaker]
      exact ⟨fun h => h.symm.trans halike, fun h => halike.trans h.symm⟩
    rw [hreset, hstale, hexists, not_and]
  constructor
  · rintro ⟨hs, hu⟩
    have hfails := hunharmed.mp (hu ctx w₁ hctx)
    refine ⟨fun ctx' w₂ h => ?_, fun hstale ctx' w₂ h => ?_⟩
    · obtain ⟨rfl, rfl⟩ := hunique ctx' w₂ h
      exact htraceless.mp hfails
    · obtain ⟨rfl, rfl⟩ := hunique ctx' w₂ h
      exact (hsame hfails).mp hs hstale
  · rintro ⟨ht, hb⟩
    have hfails := htraceless.mpr (ht ctx w₁ hctx)
    refine ⟨(hsame hfails).mpr fun hstale => hb hstale ctx w₁ hctx, fun ctx' w₂ h => ?_⟩
    obtain ⟨rfl, rfl⟩ := hunique ctx' w₂ h
    exact hunharmed.mpr hfails

end Theorem

end Batch

/-! ## The queue -/

section Queue

variable {ξ : Type} (X : Externals ξ) {w w' : World ξ} {run : TradeInput → T ξ Unit}

/-- The queued trade is tried when its turn comes. -/
structure Due (w : World ξ) (id : Nat) (trade : QueuedTrade) : Prop where
  queued : w.store.queue.queuedTrades.lookup id = some trade
  elapsed : gracePeriodElapsed w.store.config.tradeGracePeriod w.ledger.sequence trade.queuedAtLedger

/-- An id of the queue inside the call: what a trade wrote before an error stays. -/
def inQueue (run : TradeInput → T ξ Unit) (w : World ξ) (id : Nat) : World ξ := (processQueuedTrade run id).settle w

/-- The queue leaves what it leaves when every trade is a transaction, and a trade that fails leaves no trace. -/
structure QueueApart (count : Nat) (w w' : World ξ) : Prop where
  same : ∃ r, executeQueue (fun t => undoing (executeMarketCopyTrade X t none)) w = (.ok count, r) ∧ Alike w' r
  unharmed : Reaches.Along (inQueue fun t => executeMarketCopyTrade X t none)
    (fun w id => ∀ trade, Due w id trade → Unharmed (executeMarketCopyTrade X trade.input none) w) w
    w.store.queue.queuedTradeIds

/-- Every trade of the queue is traceless when it is tried. -/
def QueueTraceless (w : World ξ) : Prop :=
  Reaches.Along (inQueue fun t => executeMarketCopyTrade X t none)
    (fun w id => ∀ trade, Due w id trade → Traceless X w trade.input) w w.store.queue.queuedTradeIds

section Steps

variable {X} {b : Bool × Bool} {id : Nat}

theorem processQueuedTrade_of_none (h : w.store.queue.queuedTrades.lookup id = none) :
    processQueuedTrade run id w = (.ok (false, false), w) := by
  unfold processQueuedTrade
  rw [bind_of_ok (x := load _) (gets_ok.mpr ⟨h, rfl⟩)]
  rfl

theorem processQueuedTrade_of_some {trade : QueuedTrade} (h : w.store.queue.queuedTrades.lookup id = some trade) :
    processQueuedTrade run id w = attemptTrade run trade id w := by
  unfold processQueuedTrade
  rw [bind_of_ok (x := load _) (gets_ok.mpr ⟨h, rfl⟩)]

theorem processQueuedTrade_of_due {trade : QueuedTrade} (h : Due w id trade) :
    processQueuedTrade run id w = (Tx.attempt (run trade.input) >>= settleAttempt trade id) w := by
  rw [processQueuedTrade_of_some h.queued]
  change (if gracePeriodElapsed w.store.config.tradeGracePeriod w.ledger.sequence trade.queuedAtLedger
    then Tx.attempt (run trade.input) >>= settleAttempt trade id else pure (false, true)) w = _
  rw [if_pos h.elapsed]

/-- An id without a trade that is due does not depend on how trades are executed. -/
theorem processQueuedTrade_of_not_due {run' : TradeInput → T ξ Unit} (h : ¬ ∃ trade, Due w id trade) :
    processQueuedTrade run id w = processQueuedTrade run' id w := by
  cases hlookup : w.store.queue.queuedTrades.lookup id with
  | none => rw [processQueuedTrade_of_none hlookup, processQueuedTrade_of_none hlookup]
  | some trade =>
    have hgrace : ¬ gracePeriodElapsed w.store.config.tradeGracePeriod w.ledger.sequence trade.queuedAtLedger :=
      fun he => h ⟨trade, hlookup, he⟩
    rw [processQueuedTrade_of_some hlookup, processQueuedTrade_of_some hlookup]
    change (if gracePeriodElapsed w.store.config.tradeGracePeriod w.ledger.sequence trade.queuedAtLedger
        then Tx.attempt (run trade.input) >>= settleAttempt trade id else pure (false, true)) w =
      (if gracePeriodElapsed w.store.config.tradeGracePeriod w.ledger.sequence trade.queuedAtLedger
        then Tx.attempt (run' trade.input) >>= settleAttempt trade id else pure (false, true)) w
    rw [if_neg hgrace, if_neg hgrace]

/-- A trade of the queue that leaves no trace when it fails does what it does as a transaction. -/
theorem undone_step (hr : processQueuedTrade run id w = (.ok b, w'))
    (hfails : ∀ trade, Due w id trade → Unharmed (run trade.input) w) :
    ∃ r, processQueuedTrade (fun t => undoing (run t)) id w = (.ok b, r) ∧ Alike w' r := by
  by_cases hdue : ∃ trade, Due w id trade
  · obtain ⟨trade, hdue⟩ := hdue
    rw [processQueuedTrade_of_due hdue] at hr ⊢
    obtain ⟨result, w₁, hattempt, hsettle⟩ := bind_ok.mp hr
    rcases attempt_ok.mp hattempt with ⟨u, rfl, hok⟩ | ⟨e, rfl, herr⟩
    · have hundone : Tx.attempt (undoing (run trade.input)) w = (.ok (.ok u), w₁) :=
        attempt_ok.mpr (.inl ⟨u, rfl, undoing_of_ok hok⟩)
      exact ⟨w', bind_ok.mpr ⟨_, w₁, hundone, hsettle⟩, .refl w'⟩
    · have hundone : Tx.attempt (undoing (run trade.input)) w = (.ok (.error e), w) :=
        attempt_ok.mpr (.inr ⟨e, rfl, undoing_of_error herr⟩)
      have halike : Alike w₁ w := (hfails trade hdue e w₁ herr).symm
      obtain ⟨hout, hsame⟩ := (respects_settleAttempt trade id (.error e)).run w₁ w halike
      rw [hsettle] at hout hsame
      exact ⟨(settleAttempt trade id (.error e) w).2, bind_ok.mpr ⟨_, w, hundone, Prod.ext hout.symm rfl⟩, hsame⟩
  · rw [processQueuedTrade_of_not_due hdue] at hr
    exact ⟨w', hr, .refl w'⟩

theorem undone_run (hrun : ∀ t, Respects Alike (run t)) {ids : List Nat} {result : List Nat × Nat} {r : World ξ}
    (hr : processQueue run ids w = (.ok result, w')) (halike : Alike w r)
    (hfails : Reaches.Along (inQueue run) (fun w id => ∀ trade, Due w id trade → Unharmed (run trade.input) w) w
      ids) :
    ∃ r', processQueue (fun t => undoing (run t)) ids r = (.ok result, r') ∧ Alike w' r' := by
  induction ids generalizing w w' r result with
  | nil =>
    obtain ⟨rfl, rfl⟩ := pure_ok.mp hr
    exact ⟨r, rfl, halike⟩
  | cons id ids ih =>
    obtain ⟨b, w₁, hstep, hr₁⟩ := bind_ok.mp hr
    obtain ⟨rest, w₂, hrest, hr₂⟩ := bind_ok.mp hr₁
    obtain ⟨hfirst, hlater⟩ := hfails
    have hnext : inQueue run w id = w₁ := by
      unfold inQueue Tx.settle
      rw [hstep]
    rw [hnext] at hlater
    obtain ⟨r₀, hundone, hsame⟩ := undone_step hstep hfirst
    obtain ⟨hout, hsame'⟩ := (respects_processQueuedTrade (fun t => respects_undoing (hrun t)) id).run w r halike
    rw [hundone] at hout hsame'
    obtain ⟨r₂, hrest', hfinal⟩ := ih hrest (hsame.trans hsame') hlater
    obtain ⟨hresult, rfl⟩ := pure_ok.mp hr₂
    exact ⟨r₂, bind_ok.mpr ⟨b, (processQueuedTrade (fun t => undoing (run t)) id r).2, Prod.ext hout.symm rfl,
      bind_ok.mpr ⟨rest, r₂, hrest', pure_ok.mpr ⟨hresult, rfl⟩⟩⟩, hfinal⟩

/-- In a queue that is gone through, no trade that is due traps. -/
theorem returns_of_processQueue {ids : List Nat} {result : List Nat × Nat}
    (hr : processQueue run ids w = (.ok result, w')) :
    ∀ e ∈ Reaches.visited (inQueue run) w ids, ∀ trade, Due e.1 e.2 trade →
      ∀ w', run trade.input e.1 ≠ (.error .panic, w') := by
  induction ids generalizing w w' result with
  | nil => exact fun _ he => absurd he not_mem_nil
  | cons id ids ih =>
    obtain ⟨b, w₁, hstep, hr₁⟩ := bind_ok.mp hr
    obtain ⟨rest, w₂, hrest, -⟩ := bind_ok.mp hr₁
    have hnext : inQueue run w id = w₁ := by
      unfold inQueue Tx.settle
      rw [hstep]
    rw [Reaches.visited, forall_mem_cons, hnext]
    refine ⟨fun trade hdue w'' htrap => ?_, ih hrest⟩
    rw [processQueuedTrade_of_due hdue] at hstep
    obtain ⟨result, w₃, hattempt, -⟩ := bind_ok.mp hstep
    rcases attempt_ok.mp hattempt with ⟨u, -, hok⟩ | ⟨e, -, herr⟩
    · cases hok.symm.trans htrap
    · cases herr.symm.trans htrap

theorem executeQueue_ok {count : Nat} (hr : executeQueue run w = (.ok count, w')) :
    ∃ remaining w₁, processQueue run w.store.queue.queuedTradeIds w = (.ok (remaining, count), w₁) ∧
      saveQueue (fun q => { q with queuedTradeIds := remaining }) w₁ = (.ok (), w') := by
  rw [executeQueue, load, bind_gets_ok] at hr
  obtain ⟨⟨remaining, executed⟩, w₁, hprocess, hr₁⟩ := bind_ok.mp hr
  obtain ⟨u, w₂, hsave, hr₂⟩ := bind_ok.mp hr₁
  obtain ⟨rfl, rfl⟩ := pure_ok.mp hr₂
  exact ⟨remaining, w₁, hprocess, hsave⟩

theorem queue_apart_iff {count : Nat} (hr : executeQueuedTrades X w = (.ok count, w')) :
    QueueApart X count w w' ↔ QueueTraceless X w := by
  obtain ⟨remaining, w₁, hprocess, hsave⟩ := executeQueue_ok hr
  have hreturns := returns_of_processQueue hprocess
  have hiff : Reaches.Along (inQueue fun t => executeMarketCopyTrade X t none)
        (fun w id => ∀ trade, Due w id trade → Unharmed (executeMarketCopyTrade X trade.input none) w) w
        w.store.queue.queuedTradeIds ↔ QueueTraceless X w := by
    unfold QueueTraceless
    rw [along_iff_mem_visited, along_iff_mem_visited]
    exact forall₂_congr fun e he => forall₂_congr fun trade hdue =>
      traceless_iff_unharmed X trade.input (hreturns e he trade hdue)
  rw [← hiff]
  refine ⟨fun h => h.unharmed, fun hfails => ⟨?_, hfails⟩⟩
  obtain ⟨r, hundone, halike⟩ := undone_run (fun t => respects_executeMarketCopyTrade X t none) hprocess (.refl w)
    hfails
  obtain ⟨-, hsame⟩ := (respects_saveQueue fun q => { q with queuedTradeIds := remaining }).run w₁ r halike
  rw [hsave] at hsame
  refine ⟨(saveQueue (fun q => { q with queuedTradeIds := remaining }) r).2, ?_, hsame⟩
  rw [executeQueue, load, bind_gets_ok]
  exact bind_ok.mpr ⟨(remaining, count), r, hundone, rfl⟩

end Steps

/-- A batch that is accepted leaves what its trades leave one by one, and a trade that fails in it leaves no trace,
iff no trade fails after its volume was recorded and no failing trade is alone in resetting the breaker. So does the
queue, of the trades that are due. -/
theorem failed_trades_traceless (w : World ξ) :
    (∀ env trades results w', batchExecute X env trades w = (.ok results, w') →
      (BatchApart X env trades results w w' ↔ BatchTraceless X env trades w)) ∧
    ∀ count w', executeQueuedTrades X w = (.ok count, w') → (QueueApart X count w w' ↔ QueueTraceless X w) :=
  ⟨fun _ _ _ _ hr => batch_apart_iff hr, fun _ _ hr => queue_apart_iff hr⟩

end Queue

namespace Sample

/-- An executor with a limit of the daily volume. -/
def limited : World Contracts := World.start ledger { config with dailyVolumeLimit := 50000 } ⟨6000, 1, []⟩

/-- A trade within the balance, and one below the minimum. -/
def mixed : List BatchTradeInput := [⟨alice, token, 5000⟩, ⟨bob, token, 500⟩]

/-- The first trade is executed, whatever becomes of the second. -/
theorem mixed_batch_apart : ∃ results w', batchExecute externals env mixed limited = (.ok results, w') ∧
    results.map (·.ok) = [true, false] ∧ BatchApart externals env mixed results limited w' := by
  refine ⟨[⟨true, 0, false⟩, ⟨false, 25, false⟩], (batchExecute externals env mixed limited).2,
    Prod.ext (by decide +kernel) rfl, rfl, ?_⟩
  refine ((failed_trades_traceless externals limited).1 env mixed _ _ (Prod.ext (by decide +kernel) rfl)).mpr
    ⟨fun ctx w₁ h => ?_, fun hstale => absurd hstale (by decide +kernel)⟩
  have hctx : prepareBatchContext limited = (.ok ⟨⟨20⟩, 500000, 50000, false⟩, limited) := rfl
  cases hctx.symm.trans h
  have hunsized : ∀ w : World Contracts, w.store.config = limited.store.config →
      ¬ Sized w (⟨bob, token, 500, none⟩ : TradeInput) := by
    intro w hw hs
    have hminimum := hs.2
    unfold Storage.minTradeSize at hminimum
    rw [hw] at hminimum
    revert hminimum
    decide
  refine ⟨traceless_of_accepted _ _ (by decide +kernel), ⟨fun hs => ?_, fun hs => ?_⟩, trivial⟩
  · exact absurd hs (hunsized _ rfl)
  · exact absurd hs (hunsized _ rfl)

/-- A trade that exceeds the balance, in a batch of its own or in the queue. -/
def exceeding : List BatchTradeInput := [⟨alice, token, 10000⟩]

def waiting : World Contracts :=
  { limited with store.queue := { limited.store.queue with
    queuedTrades := (∅ : Store Nat QueuedTrade).insert 1 ⟨1, alice, token, 10000, 0, none, 0⟩
    queuedTradeIds := [1] } }

/-- A trade that fails for want of balance has used up the daily volume of its user, where the trade by itself does
not; and so has a trade of the queue. -/
theorem failed_trade_uses_volume :
    (∃ results w', batchExecute externals env exceeding limited = (.ok results, w') ∧
      results.map (·.ok) = [false] ∧ limited.store.dailyVolume alice = 0 ∧ w'.store.dailyVolume alice = 10000 ∧
      (separately externals env limited exceeding).store.dailyVolume alice = 0 ∧
      ¬ BatchApart externals env exceeding results limited w') ∧
    ∃ w', executeQueuedTrades externals waiting = (.ok 0, w') ∧ waiting.store.dailyVolume alice = 0 ∧
      w'.store.dailyVolume alice = 10000 ∧ ¬ QueueApart externals 0 waiting w' := by
  refine ⟨⟨[⟨false, 3, false⟩], (batchExecute externals env exceeding limited).2, Prod.ext (by decide +kernel) rfl,
    rfl, by decide +kernel, by decide +kernel, by decide +kernel, fun h => ?_⟩,
    (executeQueuedTrades externals waiting).2, Prod.ext (by decide +kernel) rfl, by decide +kernel,
    by decide +kernel, fun h => ?_⟩
  · have hvolume := h.same.exposure.dailyVolume alice
    revert hvolume
    decide +kernel
  · obtain ⟨r, hr, halike⟩ := h.same
    have hvolume := halike.exposure.dailyVolume alice
    obtain rfl : r = _ := (congrArg Prod.snd hr).symm
    revert hvolume
    decide +kernel

end Sample

end CallStake.TradeExecutor
