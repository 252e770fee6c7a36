import CallStake.TradeExecutor.Footprint
import CallStake.TradeExecutor.Confirmation

/-!
# Which trade waits for its confirmation

* `Traded`: trades were executed, and the order of the last one waits. Every event of the world moves along it.
* `Due`: a finalization is of the trade before it in the history, after the depth.
* `awaiting_confirmed`: in every run the trade that was executed last is found until it is finalized or recorded as
  partially filled. An order that still waited when another trade was executed is gone (`Sample.order_replaced`).
-/

namespace CallStake.TradeExecutor

open Tx List

/-! ## The order that waits -/

/-- The order of a trade waits for its confirmation, under the id of its receipt and the user. -/
structure Awaits (r : Receipts) (id : Nat) (user : Address) (ledger : Nat) (order : TradeOrder) : Prop where
  pending : r.pendingTradeConfirmation = some order
  tradeId : order.tradeId = id
  owner : order.user = user
  ledger : order.executionLedger = ledger
  status : order.status = .executedAwaitingConfirmation
  receipt : ∃ receipt, r.tradeReceipts.lookup id = some receipt ∧ receipt.receiptId = id ∧ receipt.user = user ∧
    receipt.amount = order.amount

/-- The receipts differ at most in the fees. -/
structure SameTrades (r r' : Receipts) : Prop where
  pending : r'.pendingTradeConfirmation = r.pendingTradeConfirmation
  receipts : r'.tradeReceipts = r.tradeReceipts
  next : r'.nextTradeReceiptId = r.nextTradeReceiptId

theorem SameTrades.refl (r : Receipts) : SameTrades r r := ⟨rfl, rfl, rfl⟩

theorem SameTrades.trans {r r' r'' : Receipts} (h : SameTrades r r') (h' : SameTrades r' r'') : SameTrades r r'' :=
  ⟨h'.pending.trans h.pending, h'.receipts.trans h.receipts, h'.next.trans h.next⟩

theorem Awaits.same {r r' : Receipts} {id : Nat} {user : Address} {ledger : Nat} {order : TradeOrder}
    (h : Awaits r id user ledger order) (hsame : SameTrades r r') : Awaits r' id user ledger order := by
  constructor
  · exact hsame.pending.trans h.pending
  · exact h.tradeId
  · exact h.owner
  · exact h.ledger
  · exact h.status
  · rw [hsame.receipts]
    exact h.receipt

section Traded

variable {ξ : Type}

/-- After trades of the given users, the newest first, the order of the first one waits. Each took an id. -/
def Leaves (r r' : Receipts) (ledger : Nat) : List Address → Prop
  | [] => SameTrades r r'
  | user :: users => r.nextTradeReceiptId ≤ u64Max →
    r'.nextTradeReceiptId = u64Add r.nextTradeReceiptId (users.length + 1) ∧
    ∃ order, Awaits r' (u64Add r.nextTradeReceiptId users.length) user ledger order

theorem Leaves.append {r r' r'' : Receipts} {ledger : Nat} {users users' : List Address}
    (h : Leaves r r' ledger users) (h' : Leaves r' r'' ledger users') : Leaves r r'' ledger (users' ++ users) := by
  cases users' with
  | nil =>
    cases users with
    | nil => exact SameTrades.trans h h'
    | cons user users =>
      intro hfits
      obtain ⟨hnext, order, horder⟩ := h hfits
      exact ⟨h'.next.trans hnext, order, horder.same h'⟩
  | cons user' users' =>
    cases users with
    | nil =>
      rw [append_nil]
      intro hfits
      obtain ⟨hnext, order, horder⟩ := h' (h.next.trans_le hfits)
      rw [h.next] at hnext horder
      exact ⟨hnext, order, horder⟩
    | cons user users =>
      intro hfits
      obtain ⟨hnext, -⟩ := h hfits
      obtain ⟨hnext', order, horder⟩ := h' (hnext ▸ Nat.min_le_right _ _)
      rw [hnext] at hnext' horder
      have hlen : (users' ++ user :: users).length = users.length + 1 + users'.length := by
        rw [length_append, length_cons, Nat.add_comm]
      rw [u64Add_add, ← hlen] at horder
      rw [u64Add_add, ← Nat.add_assoc, ← hlen] at hnext'
      exact ⟨hnext', order, horder⟩

/-- Trades were executed, at one ledger. -/
structure Traded (a b : World ξ) : Prop where
  ledger : b.ledger = a.ledger
  trades : ∃ users, traders b.journal = users ++ traders a.journal ∧
    Leaves a.store.receipts b.store.receipts b.ledger.sequence users

/-- Nothing happened that concerns the orders. -/
theorem Traded.none {a b : World ξ} (hledger : b.ledger = a.ledger) (hjournal : traders b.journal = traders a.journal)
    (hsame : SameTrades a.store.receipts b.store.receipts) : Traded a b :=
  ⟨hledger, [], hjournal, hsame⟩

instance : IsPreorder (World ξ) Traded where
  refl _ := .none rfl rfl (.refl _)
  trans a b c h h' := by
    obtain ⟨users, hb, hleaves⟩ := h.trades
    obtain ⟨users', hc, hleaves'⟩ := h'.trades
    refine ⟨h'.ledger.trans h.ledger, users' ++ users, ?_, ?_⟩
    · rw [hc, hb, append_assoc]
    · rw [h'.ledger]
      rw [h'.ledger] at hleaves'
      exact hleaves.append hleaves'

theorem traded_save {f : Storage → Storage} (hf : ∀ s, (f s).receipts = s.receipts) :
    Within Traded (save (ξ := ξ) f) := by
  refine ⟨fun w => .none rfl rfl ?_⟩
  change SameTrades w.store.receipts (f w.store).receipts
  rw [hf]
  exact .refl _

theorem traded_note {e : Entry} (he : e.trader = none) : Within Traded (note (ξ := ξ) e) := by
  refine ⟨fun w => .none rfl ?_ (.refl _)⟩
  change traders (e :: w.journal) = traders w.journal
  rw [traders, filterMap_cons, he]
  rfl

instance (user : Address) (id : Nat) : Within Traded (note (ξ := ξ) (.closed user id)) := traded_note rfl

instance (f : Exposure → Exposure) : Within Traded (saveExposure (ξ := ξ) f) := traded_save fun _ => rfl

instance (f : ξ → Option ξ) : Within Traded (invoke f) := by
  refine ⟨fun w => ?_⟩
  unfold invoke
  split <;> exact .none rfl rfl (.refl _)

instance (f : ξ → Except InvokeFailure ξ) : Within Traded (tryInvoke f) := by
  refine ⟨fun w => ?_⟩
  unfold tryInvoke
  split <;> exact .none rfl rfl (.refl _)

variable (X : Externals ξ)

theorem traded_calm : Calm X Traded where
  exposure _ _ := inferInstance
  breaker := by
    refine within_marketCircuitBreakerActive ?_
    unfold resetCircuitBreaker
    infer_instance
  orders _ := traded_save fun _ => rfl
  thresholds _ := traded_save fun _ => rfl
  replay _ _ := .none rfl rfl (.refl _)
  lock _ _ := .none rfl rfl (.refl _)
  approve _ _ _ _ := inferInstance
  swap _ _ _ _ _ _ := inferInstance

theorem traded_queues : Queues (Traded (ξ := ξ)) where
  queue _ := traded_save fun _ => rfl
  note e he := traded_note (by cases e <;> first | rfl | exact absurd rfl he)

/-- A trade that is recorded waits, whatever the state. -/
theorem recordTrade_leaves (t : TradeInput) (amount : Int) (w : World ξ) :
    Leaves w.store.receipts (recordTrade t amount w).2.store.receipts w.ledger.sequence [t.user] := by
  intro hfits
  have hid : u64Add w.store.receipts.nextTradeReceiptId 0 = w.store.receipts.nextTradeReceiptId :=
    Nat.min_eq_left hfits
  refine ⟨rfl, ⟨w.ledger.sequence, w.store.receipts.nextTradeReceiptId, t.user, amount,
    u32Add w.ledger.sequence TRADE_TIMEOUT_LEDGERS, .executedAwaitingConfirmation⟩, ?_⟩
  rw [length_nil, hid]
  exact ⟨rfl, rfl, rfl, rfl, rfl, _, AList.lookup_insert _, rfl, rfl, rfl⟩

theorem openPosition_run (t : TradeInput) (portfolio : Address) (exempt : Bool) (w : World ξ) :
    (∃ e, openPosition X portfolio t exempt w = (.error e, w)) ∨
    ∃ w₁, openPosition X portfolio t exempt w = (.ok (), w₁) ∧ w₁.ledger = w.ledger ∧
      w₁.store.receipts = w.store.receipts ∧ traders w₁.journal = t.user :: traders w.journal := by
  change (∃ e, Tx.bind (validateAndRecordPosition X portfolio t.user exempt) _ w = _) ∨
    ∃ w₁, Tx.bind (validateAndRecordPosition X portfolio t.user exempt) _ w = _ ∧ _
  unfold Tx.bind validateAndRecordPosition
  rcases X.validateAndRecord portfolio t.user (maxPositions exempt) w.ext with _ | ⟨id, ext'⟩
  · exact .inl ⟨_, rfl⟩
  · exact .inr ⟨_, rfl, rfl, rfl, rfl⟩

theorem countFeeDeducted_run (counts : Prop) [Decidable counts] (user : Address) (w : World ξ) :
    ∃ w₁, Tx.when counts (countFeeDeducted user) w = (.ok (), w₁) ∧ w₁.ledger = w.ledger ∧
      w₁.journal = w.journal ∧ SameTrades w.store.receipts w₁.store.receipts := by
  by_cases hcounts : counts
  · rw [Tx.when, if_pos hcounts]
    exact ⟨_, rfl, rfl, rfl, rfl, rfl, rfl⟩
  · rw [Tx.when, if_neg hcounts]
    exact ⟨w, rfl, rfl, rfl, .refl _⟩

/-- A position that is opened gets a receipt and an order, as nothing after it can fail. -/
theorem traded_settle (t : TradeInput) (portfolio : Address) (exempt : Bool) (counts : Prop) [Decidable counts]
    (amount : Int) : Within Traded (do
      openPosition X portfolio t exempt
      Tx.when counts (countFeeDeducted t.user)
      recordTrade t amount) := by
  refine ⟨fun w => ?_⟩
  obtain ⟨e, hopen⟩ | ⟨w₁, hopen, hledger, hreceipts, htraders⟩ := openPosition_run X t portfolio exempt w
  · rw [bind_of_error hopen]
    exact refl_of Traded w
  · obtain ⟨w₂, hcount, hledger', hjournal, hsame⟩ := countFeeDeducted_run counts t.user w₁
    rw [bind_of_ok hopen, bind_of_ok hcount]
    have hleaves := recordTrade_leaves t amount w₂
    rw [hreceipts] at hsame
    rw [hledger', hledger] at hleaves
    refine ⟨hledger'.trans hledger, [t.user], ?_, ?_⟩
    · change traders w₂.journal = _
      rw [hjournal, htraders]
      rfl
    · change Leaves _ _ w₂.ledger.sequence _
      rw [hledger', hledger]
      exact Leaves.append (show Leaves _ _ _ [] from hsame) hleaves

theorem traded_settles : Settles X Traded where
  settle t ctx _ := by
    have := traded_calm X
    have := traded_settle X t
    unfold settleTrade
    infer_instance

instance (portfolio user : Address) (exempt : Bool) :
    Within Traded (validateAndRecordPosition X portfolio user exempt) := by
  refine ⟨fun w => ?_⟩
  unfold validateAndRecordPosition
  split <;> exact .none rfl rfl (.refl _)

/-- The position of a plan has no order. -/
instance traded_openInterval (user : Address) (portfolio : Option Address) :
    Within Traded (openInterval X user portfolio) := by
  have (id : Nat) : Within Traded (note (ξ := ξ) (.opened user id none)) := traded_note rfl
  unfold openInterval
  split <;> infer_instance

instance (portfolio : Address) (p : CancelParams) (pnl : Int) : Within Traded (closePosition X portfolio p pnl) := by
  unfold closePosition decreaseOpenInterest decrementUserPositionCount
  infer_instance

instance (env : Env) (portfolio user : Address) (tradeId assetPair : Nat) :
    Within Traded (closePositionKeeper X env portfolio user tradeId assetPair) := by
  unfold closePositionKeeper decrementUserPositionCount
  infer_instance

theorem traded_call (env : Env) (c : Call) : Within Traded (call X env c) :=
  have := traded_calm X
  have := traded_settles X
  within_call (fun _ => traded_queues) env

/-- Every event of the world executes some trades, mostly none. -/
theorem leaves_next (w : World ξ) (ev : Event ξ) :
    Leaves w.store.receipts (next X w ev).store.receipts (next X w ev).ledger.sequence
      (executedBetween w (next X w ev)) := by
  have hleaves : ∃ users, traders (next X w ev).journal = users ++ traders w.journal ∧
      Leaves w.store.receipts (next X w ev).store.receipts (next X w ev).ledger.sequence users := by
    cases ev with
    | call env c => exact ((traded_call X env c).exec w).trades
    | advance | configure | setBreaker | external => exact ⟨[], rfl, .refl _⟩
  obtain ⟨users, hjournal, hleaves⟩ := hleaves
  have hbetween : executedBetween w (next X w ev) = users := by
    rw [executedBetween, hjournal, length_append, Nat.add_sub_cancel]
    exact take_left
  rw [hbetween]
  exact hleaves

end Traded

/-! ## The history -/

/-- The number of trades so far. -/
def executions : List Milestone → Nat
  | [] => 0
  | .executed .. :: h => executions h + 1
  | .finalized .. :: h | .partiallyFilled .. :: h => executions h

/-- The id of the receipt of the last trade. The first one has the id `1`. -/
def lastReceiptId (h : List Milestone) : Nat := min (executions h) u64Max

/-- The user and the ledger of the last trade, if nothing has happened to it since. -/
def unconfirmed : List Milestone → Option (Address × Nat)
  | .executed user ledger :: _ => some (user, ledger)
  | _ => none

/-- A finalization is of the trade just before it, and after the depth of that time. -/
def Timely : List Milestone → Prop
  | [] => True
  | .finalized order now depth :: h =>
    (unconfirmed h = some (order.user, order.executionLedger) ∧ order.tradeId = lastReceiptId h ∧
      depth ≤ now - order.executionLedger) ∧ Timely h
  | .executed .. :: h | .partiallyFilled .. :: h => Timely h

/-- The numbers of the trades that were finalized. -/
def finalizations : List Milestone → List Nat
  | [] => []
  | .finalized .. :: h => executions h :: finalizations h
  | .executed .. :: h | .partiallyFilled .. :: h => finalizations h

section History

variable {h : List Milestone}

theorem executions_follow (users : List Address) (ledger : Nat) :
    executions (users.map (.executed · ledger) ++ h) = executions h + users.length := by
  induction users with
  | nil => rfl
  | cons user users ih =>
    change executions (users.map (.executed · ledger) ++ h) + 1 = _
    rw [ih, length_cons, Nat.add_assoc]

theorem Timely.follow (ht : Timely h) (users : List Address) (ledger : Nat) :
    Timely (users.map (.executed · ledger) ++ h) := by
  induction users with
  | nil => exact ht
  | cons user users ih => exact ih

/-- A trade is finalized before the next one. -/
theorem finalizations_le (ht : Timely h) :
    (∀ k ∈ finalizations h, k ≤ executions h) ∧ (unconfirmed h ≠ none → ∀ k ∈ finalizations h, k < executions h) := by
  induction h with
  | nil => exact ⟨nofun, nofun⟩
  | cons m h ih =>
    cases m with
    | executed =>
      have hlt : ∀ k ∈ finalizations h, k < executions h + 1 := fun k hk => Nat.lt_succ_of_le ((ih ht).1 k hk)
      exact ⟨fun k hk => (hlt k hk).le, fun _ => hlt⟩
    | partiallyFilled => exact ⟨(ih ht).1, fun hn => absurd rfl hn⟩
    | finalized =>
      refine ⟨fun k hk => ?_, fun hn => absurd rfl hn⟩
      rcases List.mem_cons.mp hk with rfl | hk
      · exact le_refl _
      · exact (ih ht.2).1 k hk

/-- No trade is finalized twice. -/
theorem finalizations_nodup (ht : Timely h) : (finalizations h).Nodup := by
  induction h with
  | nil => exact nodup_nil
  | cons m h ih =>
    cases m with
    | executed | partiallyFilled => exact ih ht
    | finalized =>
      obtain ⟨⟨hlast, -, -⟩, ht⟩ := ht
      refine List.nodup_cons.mpr ⟨fun hk => ?_, ih ht⟩
      exact Nat.lt_irrefl _ ((finalizations_le ht).2 (by rw [hlast]; nofun) _ hk)

end History

/-! ## The desk -/

/-- The order that was found last, with another status. -/
def Desk.settled {ξ : Type} (d : Desk ξ) (order : TradeOrder) (status : TradeStatus) (m : Milestone) : Desk ξ :=
  { d with
    world.store.receipts.pendingTradeConfirmation := some { order with status }
    history := m :: d.history }

section Desk

variable {ξ : Type} {d d' : Desk ξ}

theorem inWorld_requireAdmin_ok {env : Env} {u : Unit} (hr : inWorld (requireAdmin env) d = (.ok u, d')) :
    d' = d := by
  obtain ⟨w, hrun, rfl⟩ := zoom_ok.mp hr
  obtain rfl : d.world = w := (within_requireAdmin env).of_run hrun
  rfl

theorem settled_run (d : Desk ξ) (order : TradeOrder) (status : TradeStatus) (m : Milestone) :
    (storeOrder { order with status } >>= fun _ => mark m) d = (.ok (), d.settled order status m) := rfl

theorem finalizeTrade_ok :
    finalizeTrade d = (.ok (), d') ↔ ∃ order, d.world.store.receipts.pendingTradeConfirmation = some order ∧
      order.status = .executedAwaitingConfirmation ∧
      d.confirmationDepth ≤ d.world.ledger.sequence - order.executionLedger ∧
      d' = d.settled order .filled (.finalized order d.world.ledger.sequence d.confirmationDepth) := by
  rw [finalizeTrade, loadOrder, bind_assoc_eq, bind_gets_ok, bind_ofOption_ok]
  refine exists_congr fun order => and_congr_right fun _ => ?_
  rw [bind_failIf_ok, not_not, bind_gets_ok, bind_gets_ok, bind_failIf_ok, Nat.not_lt]
  refine and_congr_right fun _ => and_congr_right fun _ => ?_
  rw [settled_run, Prod.mk.injEq, and_iff_right rfl]
  exact eq_comm

theorem recordPartialFill_ok {env : Env} {caller user : Address} {tradeId : Nat} {requested filled : Int}
    (hr : recordPartialFill env caller user tradeId requested filled d = (.ok (), d')) :
    d' = d ∨ ∃ order partialFills, d.world.store.receipts.pendingTradeConfirmation = some order ∧
      d' = { d.settled order .partiallyFilled (.partiallyFilled order) with partialFills } := by
  rw [recordPartialFill, bind_failIf_ok] at hr
  obtain ⟨-, hr⟩ := hr
  obtain ⟨_, d₁, hauth, hr₁⟩ := bind_ok.mp hr
  obtain rfl := (failIf_ok.mp hauth).2
  obtain ⟨_, d₂, hadmin, hr₂⟩ := bind_ok.mp hr₁
  obtain rfl := inWorld_requireAdmin_ok hadmin
  rw [loadOrder, bind_assoc_eq, bind_gets_ok, bind_ofOption_ok] at hr₂
  obtain ⟨order, horder, hr₃⟩ := hr₂
  rw [bind_failIf_ok, when_ok] at hr₃
  obtain ⟨-, hr₄⟩ := hr₃
  split at hr₄
  · rw [bind_gets_ok, bind_modify_ok, settled_run] at hr₄
    obtain ⟨-, rfl⟩ := Prod.mk.inj hr₄
    exact .inr ⟨order, _, horder, rfl⟩
  · exact .inl hr₄.symm

theorem setDepth_ok {env : Env} {depth : Nat} (hr : setDepth env depth d = (.ok (), d')) :
    d' = { d with confirmationDepth := depth } := by
  obtain ⟨_, d₁, hadmin, hr₁⟩ := bind_ok.mp hr
  obtain rfl := inWorld_requireAdmin_ok hadmin
  exact (modify_ok.mp hr₁).symm

/-! ## Runs -/

/-- The order in the storage is the one of the last trade, and waits as long as nothing has happened to it. -/
structure Followed (d : Desk ξ) : Prop where
  next : d.world.store.receipts.nextTradeReceiptId = u64Add (executions d.history) 1
  found : ∀ user ledger, unconfirmed d.history = some (user, ledger) →
    ∃ order, Awaits d.world.store.receipts (lastReceiptId d.history) user ledger order
  others : unconfirmed d.history = none →
    ∀ order, d.world.store.receipts.pendingTradeConfirmation = some order →
      order.status ≠ .executedAwaitingConfirmation
  timely : Timely d.history

/-- An order that waits is the one of the last trade. -/
theorem Followed.last (h : Followed d) {order : TradeOrder}
    (hpending : d.world.store.receipts.pendingTradeConfirmation = some order)
    (hstatus : order.status = .executedAwaitingConfirmation) :
    unconfirmed d.history = some (order.user, order.executionLedger) ∧ order.tradeId = lastReceiptId d.history := by
  rcases hlast : unconfirmed d.history with _ | ⟨user, ledger⟩
  · exact absurd hstatus (h.others hlast order hpending)
  · obtain ⟨order', hawaits⟩ := h.found user ledger hlast
    obtain rfl := Option.some.inj (hpending.symm.trans hawaits.pending)
    rw [hawaits.owner, hawaits.ledger]
    exact ⟨rfl, hawaits.tradeId⟩

theorem Followed.settled (h : Followed d) {order : TradeOrder} {status : TradeStatus} {m : Milestone}
    (hstatus : status ≠ .executedAwaitingConfirmation) (hcount : executions (m :: d.history) = executions d.history)
    (hlast : unconfirmed (m :: d.history) = none) (htimely : Timely (m :: d.history)) :
    Followed (d.settled order status m) where
  next := h.next.trans (congrArg (u64Add · 1) hcount.symm)
  found user ledger hsome := by
    cases hlast.symm.trans hsome
  others _ order' hpending := Option.some.inj hpending ▸ hstatus
  timely := htimely

theorem Followed.follow (h : Followed d) {w : World ξ}
    (hleaves : Leaves d.world.store.receipts w.store.receipts w.ledger.sequence (executedBetween d.world w)) :
    Followed (d.follow w) := by
  unfold Desk.follow
  generalize executedBetween d.world w = users at hleaves
  cases users with
  | nil =>
    constructor
    · exact hleaves.next.trans h.next
    · intro user ledger hlast
      obtain ⟨order, horder⟩ := h.found user ledger hlast
      exact ⟨order, horder.same hleaves⟩
    · intro hlast order hpending
      exact h.others hlast order (hleaves.pending.symm.trans hpending)
    · exact h.timely
  | cons user users =>
    obtain ⟨hnext, order, horder⟩ := hleaves (h.next ▸ Nat.min_le_right _ _)
    have hcount := executions_follow (h := d.history) (user :: users) w.ledger.sequence
    rw [h.next, u64Add_add] at hnext horder
    constructor
    · refine hnext.trans ?_
      rw [hcount]
      unfold u64Add
      rw [length_cons]
      omega
    · rintro _ _ ⟨⟩
      refine ⟨order, ?_⟩
      rw [lastReceiptId, hcount, length_cons, Nat.add_comm users.length]
      exact horder
    · nofun
    · exact h.timely.follow _ _

variable {X : Externals ξ}

theorem followed_next (h : Followed d) (ev : DeskEvent ξ) : Followed (nextDesk X d ev) := by
  cases ev with
  | world ev => exact h.follow (leaves_next X d.world ev)
  | setDepth env depth =>
    obtain ⟨_, hr⟩ | hsame := exec_cases (setDepth env depth) d
    · rw [nextDesk, setDepth_ok hr]
      exact ⟨h.next, h.found, h.others, h.timely⟩
    · rw [nextDesk, hsame]
      exact h
  | finalizeTrade =>
    obtain ⟨_, hr⟩ | hsame := exec_cases finalizeTrade d
    · obtain ⟨order, hpending, hstatus, hdepth, hd⟩ := finalizeTrade_ok.mp hr
      obtain ⟨hlast, hid⟩ := h.last hpending hstatus
      rw [nextDesk, hd]
      exact h.settled nofun rfl rfl ⟨⟨hlast, hid, hdepth⟩, h.timely⟩
    · rw [nextDesk, hsame]
      exact h
  | recordPartialFill env caller user tradeId requested filled =>
    obtain ⟨_, hr⟩ | hsame := exec_cases (recordPartialFill env caller user tradeId requested filled) d
    · rw [nextDesk]
      obtain hd | ⟨order, partialFills, -, hd⟩ := recordPartialFill_ok hr
      · rw [hd]
        exact h
      · have hsettled : Followed (d.settled order .partiallyFilled (.partiallyFilled order)) :=
          h.settled nofun rfl rfl h.timely
        rw [hd]
        exact ⟨hsettled.next, hsettled.found, hsettled.others, hsettled.timely⟩
    · rw [nextDesk, hsame]
      exact h

theorem start_followed (ledger : Ledger) (config : Config) (ext : ξ) :
    Followed (Desk.start (World.start ledger config ext)) := ⟨rfl, nofun, nofun, trivial⟩

/-- The last trade is found under its receipt and its user until something happens to it, and it can be finalized
as soon as the depth is reached. No other trade can. Each was finalized at most once, and after the depth. -/
structure Confirmed (d : Desk ξ) : Prop where
  found : ∀ user ledger, unconfirmed d.history = some (user, ledger) →
    ∃ order, Awaits d.world.store.receipts (lastReceiptId d.history) user ledger order ∧
      ((finalizeTrade d).1 = .ok () ↔ d.confirmationDepth ≤ d.world.ledger.sequence - ledger)
  others : unconfirmed d.history = none → (finalizeTrade d).1 ≠ .ok ()
  timely : Timely d.history
  once : (finalizations d.history).Nodup

theorem Followed.confirmed (h : Followed d) : Confirmed d where
  found user ledger hlast := by
    obtain ⟨order, horder⟩ := h.found user ledger hlast
    refine ⟨order, horder, fun hok => ?_, fun hdepth => ?_⟩
    · obtain ⟨order', hpending, -, hdepth, -⟩ := finalizeTrade_ok.mp (Prod.ext hok rfl)
      obtain rfl := Option.some.inj (hpending.symm.trans horder.pending)
      rw [horder.ledger] at hdepth
      exact hdepth
    · exact congrArg Prod.fst
        (finalizeTrade_ok.mpr ⟨order, horder.pending, horder.status, horder.ledger.symm ▸ hdepth, rfl⟩)
  others hlast hok := by
    obtain ⟨order, hpending, hstatus, -⟩ := finalizeTrade_ok.mp (Prod.ext hok rfl)
    exact h.others hlast order hpending hstatus
  timely := h.timely
  once := finalizations_nodup h.timely

/-- From a contract in which nothing was traded yet, with any settings and any other contracts. -/
theorem awaiting_confirmed {ledger : Ledger} {config : Config} {ext : ξ}
    (hrun : Reaches (DeskStep X) (Desk.start (World.start ledger config ext)) d) : Confirmed d :=
  Followed.confirmed (hrun.invariant (I := Followed) (start_followed ledger config ext) fun _ ev _ h hstep =>
    hstep.2 ▸ followed_next h ev)

end Desk

namespace Sample

def trade (user : Address) (txHash : Bytes) : DeskEvent Contracts :=
  .world (.call env (.executeCopyTrade ⟨user, token, 5000, none⟩ .market none ⟨1, txHash, 5000⟩))

def desk (l : List (DeskEvent Contracts)) : Desk Contracts :=
  l.foldl (nextDesk externals) (Desk.start (World.start ledger config ⟨100000, 1, []⟩))

/-- Alice trades, and her trade is finalized ten ledgers later. Then Bob trades. -/
def confirming : List (DeskEvent Contracts) :=
  [trade alice [1], .finalizeTrade, .world (.advance ⟨1050, 20⟩), .finalizeTrade, .finalizeTrade, trade bob [2]]

/-- Her trade is finalized once, and Bob's still waits. -/
theorem alice_confirmed : unconfirmed (desk confirming).history = some (bob, 20) ∧
    finalizations (desk confirming).history = [1] ∧ Confirmed (desk confirming) :=
  ⟨by decide +kernel, by decide +kernel, awaiting_confirmed (Reaches.of_along
    ⟨trivial, trivial, by change Ledger.Before _ _; decide +kernel, trivial, trivial, trivial, trivial⟩)⟩

/-- Both trade, and the order of Alice is gone. -/
theorem order_replaced : ¬ ∀ d,
    Reaches (DeskStep externals) (Desk.start (World.start ledger config ⟨100000, 1, []⟩)) d →
    ∀ newer user ledger older, d.history = newer ++ .executed user ledger :: older →
      (∀ m ∈ newer, ∃ user ledger, m = .executed user ledger) →
      ∃ order, Awaits d.world.store.receipts (lastReceiptId (.executed user ledger :: older)) user ledger order := by
  intro hall
  have hrun : Reaches (DeskStep externals) _ (desk [trade alice [1], trade bob [2]]) :=
    Reaches.of_along ⟨trivial, trivial, trivial⟩
  have hhistory : (desk [trade alice [1], trade bob [2]]).history = [.executed bob 10, .executed alice 10] := by
    decide +kernel
  obtain ⟨order, horder⟩ := hall _ hrun [.executed bob 10] alice 10 [] hhistory fun m hm =>
    ⟨bob, 10, List.mem_singleton.mp hm⟩
  have hpending : (desk [trade alice [1], trade bob [2]]).world.store.receipts.pendingTradeConfirmation.map (·.user) =
    some bob := by decide +kernel
  rw [horder.pending, Option.map_some, horder.owner] at hpending
  exact absurd hpending (by decide)

end Sample

end CallStake.TradeExecutor
