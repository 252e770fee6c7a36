import CallStake.TradeExecutor.Filing
import CallStake.TradeExecutor.Footprint

/-!
# Queued trades are executed once and not lost

* `Filed`: the storage is the one of the journal, and the journal is lawful. Each operation keeps it, for a list
  of queued ids that may still be in the making (`processQueue_filed`).
* `Custody`: what that says about ids, lists and the past. `Counted`: the counts that calls return. Both hold
  after every run (`queued_trades_accounted`).
-/

namespace CallStake.TradeExecutor

open Registry Tx

/-! ## The invariant -/

def Entry.issues : Entry → Bool
  | .queued .. => true
  | _ => false

/-- How many trades were queued. -/
def issued (j : List Entry) : Nat := j.countP Entry.issues

/-- The storage agrees with the phases of the journal. -/
structure Filed {ξ : Type} (grace retries : Nat) (ids : List Nat) (w : World ξ) : Prop where
  grace_eq : w.store.config.tradeGracePeriod = grace
  retries_eq : w.store.config.maxRetryCount = retries
  queue : QueueFiled ids w.store.queue.queuedTrades (phases w.journal)
  letters : LettersFiled w.store.queue (phases w.journal)
  waiting : ∀ id since n, phases w.journal id = .queued since n → n < retries ∧ since ≤ w.ledger.sequence
  lawful : Lawful grace retries w.journal
  next_eq : w.store.queue.nextQueuedTradeId = min (issued w.journal + 1) u64Max
  numbered : ∀ id, phases w.journal id ≠ .unissued → id ≤ issued w.journal

section Filed

variable {ξ : Type} {grace retries : Nat} {ids ids' : List Nat} {w w' : World ξ}

/-- What is not about the queue keeps it. -/
theorem Filed.kept (h : Filed grace retries ids w) (hk : QueueKept w w') : Filed grace retries ids w' := by
  obtain ⟨l, hl, hj⟩ := hk.journal
  have hφ : phases w'.journal = phases w.journal := by rw [hj, phases_append hl]
  have hissued : issued w'.journal = issued w.journal := by
    have hnone : l.countP Entry.issues = 0 := by
      refine List.countP_eq_zero.mpr fun e he => ?_
      have hnone := hl e he
      intro hissues
      cases e <;> first | (cases hissues; done) | cases hnone
    rw [hj, issued, List.countP_append, hnone, Nat.zero_add]
    rfl
  constructor
  · rw [hk.config]; exact h.grace_eq
  · rw [hk.config]; exact h.retries_eq
  · rw [hk.queue, hφ]; exact h.queue
  · rw [hk.queue, hφ]; exact h.letters
  · rw [hφ, hk.ledger]; exact h.waiting
  · rw [hj]; exact h.lawful.append hl
  · rw [hk.queue, hissued]; exact h.next_eq
  · rw [hφ, hissued]; exact h.numbered

/-- An issued trade moves to another phase. -/
theorem Filed.move (h : Filed grace retries ids w) {id : Nat} {p : Phase} {q : Queue} {j : List Entry}
    (hold : phases w.journal id ≠ .unissued) (hφ : phases j = Function.update (phases w.journal) id p)
    (hlawful : Lawful grace retries j) (hissued : issued j = issued w.journal)
    (hnext : q.nextQueuedTradeId = w.store.queue.nextQueuedTradeId)
    (hwaits : ∀ since n, p = .queued since n → n < retries ∧ since ≤ w.ledger.sequence)
    (hqueue : QueueFiled ids' q.queuedTrades (Function.update (phases w.journal) id p))
    (hletters : LettersFiled q (Function.update (phases w.journal) id p)) :
    Filed grace retries ids' { w with store.queue := q, journal := j } where
  grace_eq := h.grace_eq
  retries_eq := h.retries_eq
  queue := hφ ▸ hqueue
  letters := hφ ▸ hletters
  waiting i since n hi := by
    change phases j i = _ at hi
    rw [hφ] at hi
    by_cases hid : i = id
    · subst hid
      rw [Function.update_self] at hi
      exact hwaits since n hi
    · rw [Function.update_of_ne hid] at hi
      exact h.waiting i since n hi
  lawful := hlawful
  next_eq := by rw [hissued]; exact hnext.trans h.next_eq
  numbered i hi := by
    change phases j i ≠ _ at hi
    rw [hissued]
    rw [hφ] at hi
    by_cases hid : i = id
    · subst hid
      exact h.numbered i hold
    · rw [Function.update_of_ne hid] at hi
      exact h.numbered i hi

end Filed

/-! ## Queueing and cancelling -/

section Operations

variable {ξ : Type} {grace retries : Nat} {ids kept : List Nat} {w w' : World ξ} {env : Env}

/-- A queued trade gets the next id. -/
theorem queueCopyTrade_ok {user token : Address} {amount : Int} {pct : Option Nat} {id : Nat}
    (hr : queueCopyTrade env user token amount pct w = (.ok id, w')) :
    id = w.store.queue.nextQueuedTradeId ∧ w' = { w with
      store.queue := { w.store.queue with
        nextQueuedTradeId := u64Add id 1
        queuedTrades := w.store.queue.queuedTrades.insert id ⟨id, user, token, amount, w.ledger.sequence, pct, 0⟩
        queuedTradeIds := w.store.queue.queuedTradeIds ++ [id] } } := by
  simp only [queueCopyTrade, requireAuth, load, bind_failIf_ok, bind_gets_ok] at hr
  obtain ⟨-, hr⟩ := hr
  obtain ⟨_, w₁, hcap, hr⟩ := Tx.bind_ok.mp hr
  have hw : w = w₁ := by
    simp only [checkPositionCap, load, bind_gets_ok, failIf_ok] at hcap
    exact hcap.2
  rw [← hw] at hr
  simp [nextQueuedTradeId, storeQueuedTrade, load, saveQueue, save, sequence, bind_assoc_eq, pure_bind_eq] at hr
  obtain ⟨rfl, rfl⟩ := hr
  exact ⟨rfl, rfl⟩

theorem queueCopyTrade_filed (hretries : 1 ≤ retries) (h : Filed grace retries ids w)
    (hids : w.store.queue.queuedTradeIds = ids) {user token : Address} {amount : Int} {pct : Option Nat} {id : Nat}
    (hr : queueCopyTrade env user token amount pct w = (.ok id, w')) (hfew : issued w.journal < u64Max) :
    Filed grace retries w'.store.queue.queuedTradeIds (w'.enter (.queued id)) := by
  obtain ⟨hid, rfl⟩ := queueCopyTrade_ok hr
  have hcount : issued (Entry.queued id w.ledger.sequence :: w.journal) = issued w.journal + 1 :=
    List.countP_cons_of_pos rfl
  have hnext : id = issued w.journal + 1 := by
    rw [hid, h.next_eq]
    omega
  have hnew : phases w.journal id = .unissued := by
    by_contra hne
    have := h.numbered id hne
    omega
  have hφ := phases_cons (e := .queued id w.ledger.sequence) (j := w.journal) rfl
  rw [hnew] at hφ
  unfold World.enter
  constructor
  · exact h.grace_eq
  · exact h.retries_eq
  · rw [hφ]
    exact hids ▸ h.queue.join (by rw [hnew]; rfl) rfl
  · rw [hφ]
    exact (h.letters.frame (by rw [hnew]; nofun) (by nofun)).congr rfl rfl rfl
  · intro i since n hi
    rw [hφ] at hi
    by_cases hii : i = id
    · subst hii
      rw [Function.update_self] at hi
      obtain ⟨rfl, rfl⟩ := Phase.queued.inj hi
      exact ⟨hretries, Nat.le_refl _⟩
    · rw [Function.update_of_ne hii] at hi
      exact h.waiting i since n hi
  · refine ⟨fun i hi => ?_, h.lawful⟩
    obtain rfl : id = i := Option.some.inj hi
    rw [hnew]
    trivial
  · rw [hcount]
    subst hnext
    rfl
  · intro i hi
    rw [hφ] at hi
    rw [hcount]
    by_cases hii : i = id
    · omega
    · rw [Function.update_of_ne hii] at hi
      have := h.numbered i hi
      omega

/-- A trade is cancelled by its user before the grace period is over. -/
theorem cancelQueuedTrade_ok {user : Address} {id : Nat} {u : Unit}
    (hr : cancelQueuedTrade env user id w = (.ok u, w')) :
    ∃ trade, w.store.queue.queuedTrades.lookup id = some trade ∧
      ¬ gracePeriodElapsed w.store.config.tradeGracePeriod w.ledger.sequence trade.queuedAtLedger ∧
      w' = { w with
        store.queue := { w.store.queue with
          queuedTrades := w.store.queue.queuedTrades.erase id
          queuedTradeIds := removeId id w.store.queue.queuedTradeIds } } := by
  simp [cancelQueuedTrade, requireAuth, load, removeQueuedTrade, saveQueue, save, sequence] at hr
  obtain ⟨-, trade, ht, -, hgrace, rfl⟩ := hr
  exact ⟨trade, ht, hgrace, rfl⟩

theorem cancelQueuedTrade_filed (h : Filed grace retries ids w) (hids : w.store.queue.queuedTradeIds = ids)
    {user : Address} {id : Nat} {u : Unit} (hr : cancelQueuedTrade env user id w = (.ok u, w')) :
    Filed grace retries w'.store.queue.queuedTradeIds (w'.enter (.cancelled id)) := by
  obtain ⟨trade, ht, hgrace, rfl⟩ := cancelQueuedTrade_ok hr
  obtain ⟨-, hphase⟩ := h.queue.phase_of_stored ht
  have hφ : phases (.cancelled id w.ledger.sequence :: w.journal) =
      Function.update (phases w.journal) id .cancelled := by rw [phases_cons rfl, hphase]; rfl
  refine h.move (by rw [hphase]; nofun) hφ ⟨fun i hi => ?_, h.lawful⟩ rfl rfl nofun ?_ ?_
  · obtain rfl : id = i := Option.some.inj hi
    rw [hphase]
    rw [gracePeriodElapsed, h.grace_eq] at hgrace
    have := (h.waiting _ _ _ hphase).2
    change w.ledger.sequence < trade.queuedAtLedger + grace
    omega
  · exact h.queue.leave rfl (hids ▸ h.queue.listed.erase fun _ => Iff.rfl)
  · exact (h.letters.frame (by rw [hphase]; nofun) (by nofun)).congr rfl rfl rfl

/-! ## Execution -/

/-- The dead letter of a trade. -/
def QueuedTrade.letter (trade : QueuedTrade) (e : ContractError) (now : Nat) : FailedTrade :=
  ⟨trade.queuedTradeId, trade.user, trade.token, trade.amount, trade.portfolioPctBps, e.code,
    u32Add trade.retryCount 1, now⟩

/-- A trade that failed too often becomes a dead letter, and is tried again before. -/
theorem retryOrDeadLetter_eq (trade : QueuedTrade) (id : Nat) (e : ContractError) (w : World ξ) :
    retryOrDeadLetter trade id e w =
      if w.store.config.maxRetryCount ≤ u32Add trade.retryCount 1 then
        (.ok false, { w with
          store.queue := { w.store.queue.letter trade.queuedTradeId (trade.letter e w.ledger.sequence) with
            queuedTrades := w.store.queue.queuedTrades.erase id }
          journal := .deadLettered trade.queuedTradeId :: w.journal })
      else
        (.ok true, { w with
          store.queue := { w.store.queue with
            queuedTrades := w.store.queue.queuedTrades.insert id
              { trade with retryCount := u32Add trade.retryCount 1 } } }) := by
  change (if w.store.config.maxRetryCount ≤ u32Add trade.retryCount 1 then _ else _ : T ξ Bool) w = _
  split <;> rfl

theorem settleAttempt_filed (hmax : retries ≤ u32Max) {later : List Nat} {trade : QueuedTrade} {id : Nat}
    (h : Filed grace retries (kept ++ id :: later) w) (ht : w.store.queue.queuedTrades.lookup id = some trade)
    (hgrace : gracePeriodElapsed grace w.ledger.sequence trade.queuedAtLedger) {result : Except ContractError Unit}
    {executed stays : Bool} (hr : settleAttempt trade id result w = (.ok (executed, stays), w')) :
    Filed grace retries (if stays then kept ++ id :: later else kept ++ later) w' := by
  obtain ⟨hid, hphase⟩ := h.queue.phase_of_stored ht
  obtain ⟨hlt, hle⟩ := h.waiting _ _ _ hphase
  have hissued : phases w.journal id ≠ .unissued := by simp [hphase]
  have hdue : trade.queuedAtLedger + grace ≤ w.ledger.sequence := by
    unfold gracePeriodElapsed at hgrace
    omega
  have hleft : Lists (kept ++ later) fun i => i ≠ id ∧ (phases w.journal i).waits.isSome :=
    h.queue.listed.leaveOut fun _ => Iff.rfl
  cases result with
  | ok =>
    -- the trade leaves the queue for good
    simp [settleAttempt, concludeAttempt, removeQueuedTrade, saveQueue, save, sequence, note, Entry.ofAttempt]
      at hr
    obtain ⟨⟨-, rfl⟩, rfl⟩ := hr
    have hφ : phases (.executed id w.ledger.sequence :: w.journal) =
        Function.update (phases w.journal) id .executed := by rw [phases_cons rfl, hphase]; rfl
    refine h.move hissued hφ ⟨fun i hi => ?_, h.lawful⟩ rfl rfl (by simp) (h.queue.leave rfl hleft) ?_
    · obtain rfl : id = i := Option.some.inj hi
      rw [hphase]
      exact ⟨hlt, hdue⟩
    · exact (h.letters.frame (by simp [hphase]) (by simp)).congr rfl rfl rfl
  | error e =>
    have hfailed : phases (.failed id w.ledger.sequence :: w.journal) = Function.update (phases w.journal) id
        (.queued trade.queuedAtLedger (trade.retryCount + 1)) := by rw [phases_cons rfl, hphase]; rfl
    have hlawful : Lawful grace retries (.failed id w.ledger.sequence :: w.journal) := by
      refine ⟨fun i hi => ?_, h.lawful⟩
      obtain rfl : id = i := Option.some.inj hi
      rw [hphase]
      exact ⟨hlt, hdue⟩
    have hcount : u32Add trade.retryCount 1 = trade.retryCount + 1 := by
      unfold u32Add
      omega
    simp only [settleAttempt, concludeAttempt, sequence, note, Entry.ofAttempt, bind_gets_ok, bind_modify_ok] at hr
    obtain ⟨b, w₁, hretry, hb⟩ := Tx.bind_ok.mp hr
    simp at hb
    obtain ⟨⟨-, rfl⟩, rfl⟩ := hb
    rw [retryOrDeadLetter_eq, hcount, hid] at hretry
    dsimp only at hretry
    rw [h.retries_eq] at hretry
    split at hretry
    · cases hretry
      -- the last attempt: the trade becomes a dead letter
      have hlast : trade.retryCount + 1 = retries := by omega
      have hφ : phases (.deadLettered id :: .failed id w.ledger.sequence :: w.journal) =
          Function.update (phases w.journal) id .deadLettered := by
        rw [phases_cons rfl, hfailed, Function.update_self, Function.update_idem]
        rfl
      refine h.move hissued hφ ⟨fun i hi => ?_, hlawful⟩ rfl rfl (by simp) (h.queue.leave rfl hleft) ?_
      · obtain rfl : id = i := Option.some.inj hi
        rw [hfailed, Function.update_self]
        exact hlast
      · exact (h.letters.letter (by simp [hphase]) _).congr rfl rfl rfl
    · cases hretry
      -- the trade stays, with one more failed attempt
      refine h.move hissued hfailed hlawful rfl rfl (fun since n hq => ?_) ?_ ?_
      · obtain ⟨rfl, rfl⟩ := Phase.queued.inj hq
        exact ⟨by omega, hle⟩
      · exact h.queue.rewrite (by rw [hphase]; rfl) rfl
      · exact (h.letters.frame (by simp [hphase]) (by simp)).congr rfl rfl rfl

/-- A trade of the queue is executed, stays in the queue, or leaves it. -/
theorem processQueuedTrade_filed (hmax : retries ≤ u32Max) {run : TradeInput → T ξ Unit}
    (hrun : ∀ t, Tx.Within QueueKept (run t)) {later : List Nat} {id : Nat}
    (h : Filed grace retries (kept ++ id :: later) w) {executed stays : Bool}
    (hr : processQueuedTrade run id w = (.ok (executed, stays), w')) :
    Filed grace retries (if stays then kept ++ id :: later else kept ++ later) w' := by
  have hlisted := (h.queue.listed.mem_iff id).mp (by simp)
  obtain ⟨trade, ht⟩ := Option.isSome_iff_exists.mp ((h.queue.stored_iff id).mpr hlisted)
  simp only [processQueuedTrade, load, bind_gets_ok, ht] at hr
  simp only [attemptTrade, load, sequence, bind_gets_ok, h.grace_eq] at hr
  split at hr
  · rename_i hgrace
    obtain ⟨result, w₁, hattempt, hsettle⟩ := Tx.bind_ok.mp hr
    have hk := (within_attempt (hrun trade.input)).of_run hattempt
    refine settleAttempt_filed hmax (h.kept hk) (hk.queue ▸ ht) (hk.ledger ▸ hgrace) hsettle
  · simp at hr
    obtain ⟨⟨-, rfl⟩, rfl⟩ := hr
    exact h

/-- The loop over the queue, where `kept` are the ids that were kept so far. -/
theorem processQueue_filed (hmax : retries ≤ u32Max) {run : TradeInput → T ξ Unit}
    (hrun : ∀ t, Tx.Within QueueKept (run t)) (h : Filed grace retries (kept ++ ids) w) {remaining : List Nat}
    {n : Nat} (hr : processQueue run ids w = (.ok (remaining, n), w')) :
    Filed grace retries (kept ++ remaining) w' := by
  induction ids generalizing kept w remaining n with
  | nil =>
    simp [processQueue] at hr
    obtain ⟨⟨rfl, -⟩, rfl⟩ := hr
    exact h
  | cons id ids ih =>
    obtain ⟨⟨executed, stays⟩, w₁, hone, hr⟩ := Tx.bind_ok.mp hr
    obtain ⟨⟨remaining', n'⟩, w₂, hrest, hr⟩ := Tx.bind_ok.mp hr
    simp at hr
    obtain ⟨⟨rfl, -⟩, rfl⟩ := hr
    have h₁ := processQueuedTrade_filed hmax hrun h hone
    cases stays with
    | true =>
      have hkept : Filed grace retries ((kept ++ [id]) ++ ids) w₁ := by simpa using h₁
      have h₂ := ih hkept hrest
      simpa using h₂
    | false => exact ih h₁ hrest

theorem executeQueue_filed (hmax : retries ≤ u32Max) {run : TradeInput → T ξ Unit}
    (hrun : ∀ t, Tx.Within QueueKept (run t)) (h : Filed grace retries ids w)
    (hids : w.store.queue.queuedTradeIds = ids) {n : Nat} (hr : executeQueue run w = (.ok n, w')) :
    Filed grace retries w'.store.queue.queuedTradeIds w' := by
  simp only [executeQueue, load, bind_gets_ok, hids] at hr
  obtain ⟨⟨remaining, n'⟩, w₁, hloop, hr⟩ := Tx.bind_ok.mp hr
  simp [saveQueue, save] at hr
  obtain ⟨-, rfl⟩ := hr
  have h₁ : Filed grace retries ([] ++ remaining) w₁ := processQueue_filed hmax hrun h hloop
  exact ⟨h₁.grace_eq, h₁.retries_eq, h₁.queue, h₁.letters.congr rfl rfl rfl, h₁.waiting, h₁.lawful, h₁.next_eq,
    h₁.numbered⟩

/-! ## Dead letters -/

/-- A dead letter is thrown away. -/
theorem throwAway_filed (h : Filed grace retries ids w) {id : Nat} {failed : FailedTrade}
    (hf : w.store.queue.deadLetterTrades.lookup id = some failed) {e : Entry} (hs : e.subject = some id)
    (hallows : Phase.deadLettered.Allows grace retries e) (hfinal : (Phase.deadLettered.move e).Final) :
    Filed grace retries ids { w with
      store.queue := w.store.queue.unletter failed.user id, journal := e :: w.journal } := by
  have hphase : phases w.journal id = .deadLettered := (h.letters.stored id).mp (by rw [hf]; rfl)
  have hφ := phases_cons (j := w.journal) hs
  rw [hphase] at hφ
  have hissues : ¬ e.issues = true := by
    intro hi
    cases e <;> first | (cases hi; done) | exact hallows
  refine h.move (by rw [hphase]; nofun) hφ ⟨fun i hi => ?_, h.lawful⟩ (List.countP_cons_of_neg hissues) rfl
    (fun since n hq => ?_) (h.queue.frame (by rw [hphase]; rfl) hfinal.waits) (h.letters.unletter ?_ hf)
  · obtain rfl : id = i := Option.some.inj (hs.symm.trans hi)
    rw [hphase]
    exact hallows
  · rw [hq] at hfinal
    exact hfinal.elim
  · intro hq
    rw [hq] at hfinal
    exact hfinal

/-- The administrator does something to a dead letter. -/
theorem onDeadLetter_ok {id : Nat} {k : FailedTrade → T ξ Unit} {u : Unit}
    (hr : (requireAdmin env >>= fun _ => loadDeadLetter id >>= k) w = (.ok u, w')) :
    ∃ failed, w.store.queue.deadLetterTrades.lookup id = some failed ∧ k failed w = (.ok u, w') := by
  simp [requireAdmin, requireAuth, loadDeadLetter, load, bind_assoc_eq] at hr
  obtain ⟨_, -, -, failed, hf, hk⟩ := hr
  exact ⟨failed, hf, hk⟩

theorem discardDeadLetteredTrade_filed (h : Filed grace retries ids w)
    (hids : w.store.queue.queuedTradeIds = ids) {id : Nat} {u : Unit}
    (hr : discardDeadLetteredTrade env id w = (.ok u, w')) :
    Filed grace retries w'.store.queue.queuedTradeIds (w'.enter fun _ => .discarded id) := by
  subst hids
  obtain ⟨failed, hf, hk⟩ := onDeadLetter_ok hr
  cases hk
  exact throwAway_filed h hf rfl trivial trivial

/-- A dead letter is queued anew. -/
theorem requeueDeadLetteredTrade_filed (hretries : 1 ≤ retries) (h : Filed grace retries ids w)
    (hids : w.store.queue.queuedTradeIds = ids) {id : Nat} {u : Unit}
    (hr : requeueDeadLetteredTrade env id w = (.ok u, w')) :
    Filed grace retries w'.store.queue.queuedTradeIds (w'.enter (.requeued id)) := by
  subst hids
  obtain ⟨failed, hf, hk⟩ := onDeadLetter_ok hr
  cases hk
  have hphase : phases w.journal id = .deadLettered := (h.letters.stored id).mp (by rw [hf]; rfl)
  have hφ : phases (.requeued id w.ledger.sequence :: w.journal) =
      Function.update (phases w.journal) id (.queued w.ledger.sequence 0) := by rw [phases_cons rfl, hphase]; rfl
  refine h.move (by rw [hphase]; nofun) hφ ⟨fun i hi => ?_, h.lawful⟩ (List.countP_cons_of_neg nofun) rfl
    (fun since n hq => ?_) ?_ ?_
  · obtain rfl : id = i := Option.some.inj hi
    rw [hphase]
    trivial
  · obtain ⟨rfl, rfl⟩ := Phase.queued.inj hq
    exact ⟨hretries, Nat.le_refl _⟩
  · exact h.queue.join (by rw [hphase]; rfl) rfl
  · exact (h.letters.unletter (by nofun) hf).congr rfl rfl rfl

theorem pruneDeadLetter_filed (h : Filed grace retries ids w) (hids : w.store.queue.queuedTradeIds = ids)
    {retention id : Nat} {pruned : Bool} (hr : pruneDeadLetter retention id w = (.ok pruned, w')) :
    Filed grace retries ids w' ∧ w'.store.queue.queuedTradeIds = ids := by
  simp only [pruneDeadLetter, load, sequence, bind_gets_ok] at hr
  cases hf : w.store.queue.deadLetterTrades.lookup id with
  | none =>
    rw [hf] at hr
    obtain ⟨-, rfl⟩ := Tx.pure_ok.mp hr
    exact ⟨h, hids⟩
  | some failed =>
    rw [hf] at hr
    dsimp only at hr
    split at hr
    · cases hr
      exact ⟨throwAway_filed h hf rfl trivial trivial, hids⟩
    · obtain ⟨-, rfl⟩ := Tx.pure_ok.mp hr
      exact ⟨h, hids⟩

/-- The loop, whatever the ids are. -/
theorem pruneDeadLetters_filed (h : Filed grace retries ids w) (hids : w.store.queue.queuedTradeIds = ids)
    {retention maxEntries removed total : Nat} {letters : List Nat}
    (hr : pruneDeadLetters retention maxEntries removed letters w = (.ok total, w')) :
    Filed grace retries ids w' ∧ w'.store.queue.queuedTradeIds = ids := by
  induction letters generalizing w removed with
  | nil =>
    obtain ⟨-, rfl⟩ := Tx.pure_ok.mp hr
    exact ⟨h, hids⟩
  | cons id letters ih =>
    unfold pruneDeadLetters at hr
    split at hr
    · obtain ⟨pruned, w₁, hone, hrest⟩ := Tx.bind_ok.mp hr
      obtain ⟨h₁, hids₁⟩ := pruneDeadLetter_filed h hids hone
      exact ih h₁ hids₁ hrest
    · obtain ⟨-, rfl⟩ := Tx.pure_ok.mp hr
      exact ⟨h, hids⟩

theorem pruneDeadLetterQueue_filed (h : Filed grace retries ids w) (hids : w.store.queue.queuedTradeIds = ids)
    {user : Option Address} {maxEntries total : Nat}
    (hr : pruneDeadLetterQueue env user maxEntries w = (.ok total, w')) :
    Filed grace retries w'.store.queue.queuedTradeIds w' := by
  simp [pruneDeadLetterQueue, requireAdmin, requireAuth, load, bind_assoc_eq] at hr
  obtain ⟨_, -, -, hr⟩ := hr
  obtain ⟨h', hids'⟩ := pruneDeadLetters_filed h hids hr
  exact hids'.symm ▸ h'

end Operations

/-! ## What the calls return -/

/-- How many entries end the life of a trade in the phase. -/
def verdicts (p : Phase) (j : List Entry) : Nat := j.countP fun e => e.verdict = some p

/-- So many lives ended in the phase, as a number of 32 bits. -/
def Ended {ξ : Type} (p : Phase) (w w' : World ξ) (n : Nat) : Prop :=
  ∃ m, verdicts p w'.journal = verdicts p w.journal + m ∧ n = min m u32Max

/-- What the calls return that treat many trades. -/
structure Counted {ξ : Type} (X : Externals ξ) (w : World ξ) : Prop where
  executed : ∀ n w', executeQueuedTrades X w = (.ok n, w') → Ended .executed w w' n
  pruned : ∀ env user maxEntries n w', pruneDeadLetterQueue env user maxEntries w = (.ok n, w') → Ended .pruned w w' n

section Counted

variable {ξ : Type} {w w' : World ξ} {p : Phase}

theorem verdicts_cons (p : Phase) (e : Entry) (j : List Entry) :
    verdicts p (e :: j) = verdicts p j + if e.verdict = some p then 1 else 0 := by
  simp [verdicts, List.countP_cons]

theorem verdicts_kept (h : QueueKept w w') : verdicts p w'.journal = verdicts p w.journal := by
  obtain ⟨l, hl, hj⟩ := h.journal
  have hnone : l.countP (fun e => e.verdict = some p) = 0 := by
    refine List.countP_eq_zero.mpr fun e he hv => ?_
    have hsubject := hl e he
    cases e <;> first | (cases hsubject; done) | exact absurd (of_decide_eq_true hv) nofun
  rw [hj, verdicts, List.countP_append, hnone, Nat.zero_add]
  rfl

/-- One more life, or none, before the others. -/
theorem Ended.cons {w₁ : World ξ} {n : Nat} {b : Bool} (h : Ended p w₁ w' n)
    (hone : verdicts p w₁.journal = verdicts p w.journal + if b = true then 1 else 0) :
    Ended p w w' (if b = true then u32Add n 1 else n) := by
  obtain ⟨m, hm, rfl⟩ := h
  refine ⟨m + if b = true then 1 else 0, by omega, ?_⟩
  cases b with
  | true =>
    rw [if_pos rfl, if_pos rfl, u32Add]
    omega
  | false => rfl

theorem settleAttempt_counted {trade : QueuedTrade} {id : Nat} {result : Except ContractError Unit}
    {executed stays : Bool} (hr : settleAttempt trade id result w = (.ok (executed, stays), w')) :
    verdicts .executed w'.journal = verdicts .executed w.journal + if executed = true then 1 else 0 := by
  cases result with
  | ok =>
    cases hr
    exact verdicts_cons _ _ _
  | error e =>
    simp only [settleAttempt, concludeAttempt, sequence, note, Entry.ofAttempt, bind_gets_ok, bind_modify_ok] at hr
    obtain ⟨b, w₁, hretry, hb⟩ := Tx.bind_ok.mp hr
    simp at hb
    obtain ⟨⟨rfl, rfl⟩, rfl⟩ := hb
    rw [retryOrDeadLetter_eq] at hretry
    split at hretry
    · cases hretry
      rw [verdicts_cons, verdicts_cons]
      rfl
    · cases hretry
      exact verdicts_cons _ _ _

theorem processQueuedTrade_counted {run : TradeInput → T ξ Unit} (hrun : ∀ t, Tx.Within QueueKept (run t)) {id : Nat}
    {executed stays : Bool} (hr : processQueuedTrade run id w = (.ok (executed, stays), w')) :
    verdicts .executed w'.journal = verdicts .executed w.journal + if executed = true then 1 else 0 := by
  simp only [processQueuedTrade, load, bind_gets_ok] at hr
  cases ht : w.store.queue.queuedTrades.lookup id with
  | none =>
    rw [ht] at hr
    cases hr
    rfl
  | some trade =>
    rw [ht] at hr
    simp only [attemptTrade, load, sequence, bind_gets_ok] at hr
    split at hr
    · obtain ⟨result, w₁, hattempt, hsettle⟩ := Tx.bind_ok.mp hr
      rw [settleAttempt_counted hsettle, verdicts_kept ((within_attempt (hrun trade.input)).of_run hattempt)]
    · cases hr
      rfl

/-- The executions of a pass over the queue. -/
theorem processQueue_counted {run : TradeInput → T ξ Unit} (hrun : ∀ t, Tx.Within QueueKept (run t))
    {ids remaining : List Nat} {n : Nat} (hr : processQueue run ids w = (.ok (remaining, n), w')) :
    Ended .executed w w' n := by
  induction ids generalizing w remaining n with
  | nil =>
    cases hr
    exact ⟨0, rfl, rfl⟩
  | cons id ids ih =>
    obtain ⟨⟨executed, stays⟩, w₁, hone, hr⟩ := Tx.bind_ok.mp hr
    obtain ⟨⟨remaining', n'⟩, w₂, hrest, hr⟩ := Tx.bind_ok.mp hr
    simp at hr
    obtain ⟨⟨-, rfl⟩, rfl⟩ := hr
    exact (ih hrest).cons (processQueuedTrade_counted hrun hone)

theorem pruneDeadLetter_counted {retention id : Nat} {pruned : Bool}
    (hr : pruneDeadLetter retention id w = (.ok pruned, w')) :
    verdicts .pruned w'.journal = verdicts .pruned w.journal + if pruned = true then 1 else 0 := by
  simp only [pruneDeadLetter, load, sequence, bind_gets_ok] at hr
  cases hf : w.store.queue.deadLetterTrades.lookup id with
  | none =>
    rw [hf] at hr
    cases hr
    rfl
  | some failed =>
    rw [hf] at hr
    dsimp only at hr
    split at hr
    · cases hr
      exact verdicts_cons _ _ _
    · cases hr
      rfl

/-- The loop goes on from the number of those removed before. -/
theorem pruneDeadLetters_counted {retention maxEntries removed total : Nat} {letters : List Nat}
    (hmax : removed ≤ u32Max) (hr : pruneDeadLetters retention maxEntries removed letters w = (.ok total, w')) :
    ∃ m, verdicts .pruned w'.journal = verdicts .pruned w.journal + m ∧ total = u32Add removed m := by
  induction letters generalizing w removed with
  | nil =>
    obtain ⟨rfl, rfl⟩ := Tx.pure_ok.mp hr
    exact ⟨0, rfl, (Nat.min_eq_left hmax).symm⟩
  | cons id letters ih =>
    unfold pruneDeadLetters at hr
    split at hr
    · obtain ⟨pruned, w₁, hone, hrest⟩ := Tx.bind_ok.mp hr
      have hcount := pruneDeadLetter_counted hone
      have hmore : (if pruned = true then u32Add removed 1 else removed) ≤ u32Max := by
        unfold u32Add
        split <;> omega
      obtain ⟨m, hm, rfl⟩ := ih hmore hrest
      refine ⟨m + if pruned = true then 1 else 0, by omega, ?_⟩
      cases pruned with
      | true =>
        rw [if_pos rfl, if_pos rfl, u32Add_add, Nat.add_comm 1]
      | false => rfl
    · obtain ⟨rfl, rfl⟩ := Tx.pure_ok.mp hr
      exact ⟨0, rfl, (Nat.min_eq_left hmax).symm⟩

/-- The numbers returned are the ones of the trades executed, and of the dead letters pruned. -/
theorem counted (X : Externals ξ) (w : World ξ) : Counted X w where
  executed n w' hr := by
    simp only [executeQueuedTrades, executeQueue, load, bind_gets_ok] at hr
    obtain ⟨⟨remaining, n'⟩, w₁, hloop, hr⟩ := Tx.bind_ok.mp hr
    simp [saveQueue, save] at hr
    obtain ⟨rfl, rfl⟩ := hr
    obtain ⟨m, hm, hn⟩ := processQueue_counted (fun t => queueKept_executeMarketCopyTrade X t none) hloop
    exact ⟨m, hm, hn⟩
  pruned env user maxEntries n w' hr := by
    simp [pruneDeadLetterQueue, requireAdmin, requireAuth, load, bind_assoc_eq] at hr
    obtain ⟨_, -, -, hr⟩ := hr
    obtain ⟨m, hm, htotal⟩ := pruneDeadLetters_counted (Nat.zero_le _) hr
    exact ⟨m, hm, htotal.trans (by rw [u32Add, Nat.zero_add])⟩

end Counted

/-! ## Runs -/

section Runs

variable {ξ : Type} {grace retries : Nat} {w w' : World ξ} {id : Nat}

/-- Fewer than `2 ^ 64` trades are queued, and two settings stay the same. -/
def Ordinary (grace retries : Nat) (w : World ξ) : Event ξ → Prop
  | .call _ (.queueCopyTrade ..) => issued w.journal < u64Max
  | .configure config => config.tradeGracePeriod = grace ∧ config.maxRetryCount = retries
  | _ => True

theorem call_filed {X : Externals ξ} {env : Env} {c : Call} {u : Unit} (hretries : 1 ≤ retries)
    (hmax : retries ≤ u32Max) (h : Filed grace retries w.store.queue.queuedTradeIds w)
    (hord : Ordinary grace retries w (.call env c)) (hr : call X env c w = (.ok u, w')) :
    Filed grace retries w'.store.queue.queuedTradeIds w' := by
  by_cases hq : c.ofQueue = true
  · cases c
    case queueCopyTrade =>
      obtain ⟨id, w₁, hdone, henter⟩ := Tx.bind_ok.mp hr
      obtain rfl := Tx.modify_ok.mp henter
      exact queueCopyTrade_filed hretries h rfl hdone hord
    case cancelQueuedTrade =>
      obtain ⟨_, w₁, hdone, henter⟩ := Tx.bind_ok.mp hr
      obtain rfl := Tx.modify_ok.mp henter
      exact cancelQueuedTrade_filed h rfl hdone
    case executeQueuedTrades =>
      obtain ⟨_, hr⟩ := Tx.void_ok.mp hr
      exact executeQueue_filed hmax (fun t => queueKept_executeMarketCopyTrade X t none) h rfl hr
    case requeueDeadLetteredTrade =>
      obtain ⟨_, w₁, hdone, henter⟩ := Tx.bind_ok.mp hr
      obtain rfl := Tx.modify_ok.mp henter
      exact requeueDeadLetteredTrade_filed hretries h rfl hdone
    case discardDeadLetteredTrade =>
      obtain ⟨_, w₁, hdone, henter⟩ := Tx.bind_ok.mp hr
      obtain rfl := Tx.modify_ok.mp henter
      exact discardDeadLetteredTrade_filed h rfl hdone
    case pruneDeadLetterQueue =>
      obtain ⟨_, hr⟩ := Tx.void_ok.mp hr
      exact pruneDeadLetterQueue_filed h rfl hr
    all_goals cases hq
  · have hk := (queueKept_of_call X env (Bool.eq_false_iff.mpr hq)).of_run hr
    rw [hk.queue]
    exact h.kept hk

theorem next_filed {X : Externals ξ} {ev : Event ξ} (hretries : 1 ≤ retries) (hmax : retries ≤ u32Max)
    (h : Filed grace retries w.store.queue.queuedTradeIds w) (hord : Ordinary grace retries w ev)
    (hstep : Step X w ev w') : Filed grace retries w'.store.queue.queuedTradeIds w' := by
  obtain ⟨hallowed, rfl⟩ := hstep
  cases ev with
  | call env c =>
    rcases exec_cases (call X env c) w with ⟨u, hr⟩ | hsame
    · exact call_filed hretries hmax h hord hr
    · change Filed grace retries ((call X env c).exec w).store.queue.queuedTradeIds ((call X env c).exec w)
      rw [hsame]
      exact h
  | advance =>
    exact ⟨h.grace_eq, h.retries_eq, h.queue, h.letters,
      fun i since n hi => ⟨(h.waiting i since n hi).1, Nat.le_trans (h.waiting i since n hi).2 hallowed.2⟩,
      h.lawful, h.next_eq, h.numbered⟩
  | configure =>
    exact ⟨hord.1, hord.2, h.queue, h.letters, h.waiting, h.lawful, h.next_eq, h.numbered⟩
  | setBreaker =>
    exact ⟨h.grace_eq, h.retries_eq, h.queue, h.letters, h.waiting, h.lawful, h.next_eq, h.numbered⟩
  | external =>
    exact ⟨h.grace_eq, h.retries_eq, h.queue, h.letters, h.waiting, h.lawful, h.next_eq, h.numbered⟩

theorem start_filed (ledger : Ledger) (config : Config) (ext : ξ) :
    Filed config.tradeGracePeriod config.maxRetryCount [] (World.start ledger config ext) where
  grace_eq := rfl
  retries_eq := rfl
  queue := ⟨.nil fun _ => nofun, fun _ => rfl⟩
  letters := ⟨fun _ => iff_of_false nofun nofun, .nil fun _ => nofun, fun _ => .nil fun _ => nofun⟩
  waiting _ _ _ hi := by cases hi
  lawful := trivial
  next_eq := rfl
  numbered _ hi := absurd rfl hi

/-! ## What the invariant says -/

/-- Where a trade that was queued is. -/
inductive Place where
  | queued
  | executed
  | cancelled
  | deadLettered
  | discarded
  | pruned

/-- The trade is at the place, by the storage and the journal. -/
def World.At (w : World ξ) (id : Nat) : Place → Prop
  | .queued => (w.store.queue.queuedTrades.lookup id).isSome
  | .executed => ∃ ledger, .executed id ledger ∈ w.journal
  | .cancelled => ∃ ledger, .cancelled id ledger ∈ w.journal
  | .deadLettered => (w.store.queue.deadLetterTrades.lookup id).isSome
  | .discarded => .discarded id ∈ w.journal
  | .pruned => .pruned id ∈ w.journal

/-- Where the history leaves a trade. -/
def Phase.place : Phase → Option Place
  | .unissued => none
  | .queued .. => some .queued
  | .executed => some .executed
  | .cancelled => some .cancelled
  | .deadLettered => some .deadLettered
  | .discarded => some .discarded
  | .pruned => some .pruned

/-- The lists are exact, every trade is in one place, the one where the accepted calls, the executions and the events
left it, and what happened to it was in order. -/
structure Custody (grace retries : Nat) (w : World ξ) : Prop where
  queue_listed : Lists w.store.queue.queuedTradeIds fun id => (w.store.queue.queuedTrades.lookup id).isSome
  letters_listed : Lists w.store.queue.deadLetterAllIds fun id => (w.store.queue.deadLetterTrades.lookup id).isSome
  letters_listedOf : ∀ user, Lists (w.store.deadLetterIds user) fun id =>
    (w.store.queue.deadLetterTrades.lookup id).map FailedTrade.user = some user
  placed : ∀ id, (∃ ledger, .queued id ledger ∈ w.journal) → ∃! p, w.At id p
  place_iff : ∀ id p, w.At id p ↔ (phases w.journal id).place = some p
  issued_of_placed : ∀ id p, w.At id p → ∃ ledger, .queued id ledger ∈ w.journal
  executed_once : ∀ id, endings .executed id w.journal ≤ 1
  executed_due : ∀ id ledger before after, w.journal = after ++ .executed id ledger :: before →
    ∃ since, lastQueueing id before = some since ∧ since + grace ≤ ledger
  not_cancelled : ∀ id ledger before after, w.journal = after ++ .executed id ledger :: before →
    ∀ l, .cancelled id l ∉ before
  attempts : ∀ id before after, w.journal = after ++ before → failures id before ≤ retries

theorem Phase.place_eq_iff {p q : Phase} (hp : p.Final) : q.place = p.place ↔ q = p := by
  cases p <;> first
    | exact hp.elim
    | (cases q <;> simp [Phase.place])

/-- The journal says where a trade is that is not stored any more. -/
theorem Lawful.place_eq_iff {j : List Entry} (h : Lawful grace retries j) {p : Phase} (hp : p.Final) (id : Nat) :
    (phases j id).place = p.place ↔ ∃ e ∈ j, e.subject = some id ∧ e.verdict = some p :=
  (Phase.place_eq_iff hp).trans (h.phases_eq_iff hp)

/-- A trade is in the place of its phase. -/
theorem Filed.at_iff {ids : List Nat} (h : Filed grace retries ids w) (id : Nat) (p : Place) :
    w.At id p ↔ (phases w.journal id).place = some p := by
  cases p with
  | queued =>
    refine (h.queue.stored_iff id).trans ?_
    cases phases w.journal id <;> simp [Phase.place, Phase.waits]
  | executed =>
    refine Iff.trans ⟨fun hl => hl.elim fun _ hl => ⟨_, hl, rfl, rfl⟩, fun he => ?_⟩
      (h.lawful.place_eq_iff (p := .executed) trivial id).symm
    obtain ⟨e, he, hs, hv⟩ := he
    cases e <;> cases hv
    cases hs
    exact ⟨_, he⟩
  | cancelled =>
    refine Iff.trans ⟨fun hl => hl.elim fun _ hl => ⟨_, hl, rfl, rfl⟩, fun he => ?_⟩
      (h.lawful.place_eq_iff (p := .cancelled) trivial id).symm
    obtain ⟨e, he, hs, hv⟩ := he
    cases e <;> cases hv
    cases hs
    exact ⟨_, he⟩
  | deadLettered =>
    refine (h.letters.stored id).trans ?_
    cases phases w.journal id <;> simp [Phase.place]
  | discarded =>
    refine Iff.trans ⟨fun hl => ⟨_, hl, rfl, rfl⟩, fun he => ?_⟩
      (h.lawful.place_eq_iff (p := .discarded) trivial id).symm
    obtain ⟨e, he, hs, hv⟩ := he
    cases e <;> cases hv
    cases hs
    exact he
  | pruned =>
    refine Iff.trans ⟨fun hl => ⟨_, hl, rfl, rfl⟩, fun he => ?_⟩
      (h.lawful.place_eq_iff (p := .pruned) trivial id).symm
    obtain ⟨e, he, hs, hv⟩ := he
    cases e <;> cases hv
    cases hs
    exact he

/-- A trade is executed when it waits. -/
theorem Lawful.waits_of_executed {j before after : List Entry} {ledger : Nat} (h : Lawful grace retries j)
    (hj : j = after ++ .executed id ledger :: before) :
    ∃ since n, phases before id = .queued since n ∧ since + grace ≤ ledger := by
  subst hj
  have hallows := h.suffix.1 id rfl
  cases hp : phases before id <;> rw [hp] at hallows <;> first | exact hallows.elim | skip
  exact ⟨_, _, rfl, hallows.2⟩

theorem Filed.custody (h : Filed grace retries w.store.queue.queuedTradeIds w) : Custody grace retries w where
  queue_listed := h.queue.listed.congr fun id => h.queue.stored_iff id
  letters_listed := h.letters.listed.congr fun id => h.letters.stored id
  letters_listedOf := h.letters.listedOf
  placed id hissued := by
    have hne := h.lawful.issued_iff.mpr hissued
    obtain ⟨p, hp⟩ : ∃ p, (phases w.journal id).place = some p := by
      cases hφ : phases w.journal id <;> first | exact ⟨_, rfl⟩ | exact absurd hφ hne
    refine ⟨p, (h.at_iff id p).mpr hp, fun p' hp' => ?_⟩
    exact Option.some.inj (((h.at_iff id p').mp hp').symm.trans hp)
  place_iff := h.at_iff
  issued_of_placed id p hp := by
    refine h.lawful.issued_iff.mp fun hφ => ?_
    have := (h.at_iff id p).mp hp
    rw [hφ] at this
    cases this
  executed_once id := h.lawful.endings_le trivial
  executed_due id ledger before after hj := by
    obtain ⟨since, n, hp, hle⟩ := h.lawful.waits_of_executed hj
    have hbefore : Lawful grace retries before := (hj ▸ h.lawful).suffix.2
    exact ⟨since, (hbefore.failures_le.2 since n hp).1, hle⟩
  not_cancelled id ledger before after hj l hmem := by
    obtain ⟨since, n, hp, -⟩ := h.lawful.waits_of_executed hj
    have hbefore : Lawful grace retries before := (hj ▸ h.lawful).suffix.2
    have hcancelled : phases before id = .cancelled :=
      (hbefore.phases_eq_iff (p := .cancelled) trivial).mpr ⟨_, hmem, rfl, rfl⟩
    rw [hp] at hcancelled
    cases hcancelled
  attempts id before after hj := (hj ▸ h.lawful).suffix.failures_le.1

/-- From a contract in which nothing was traded yet, with any settings. -/
theorem queued_trades_accounted (X : Externals ξ) (ledger : Ledger) (config : Config) (ext : ξ)
    (hretries : 1 ≤ config.maxRetryCount) (hmax : config.maxRetryCount ≤ u32Max)
    (hrun : Reaches (fun a ev b => Ordinary config.tradeGracePeriod config.maxRetryCount a ev ∧ Step X a ev b)
      (World.start ledger config ext) w) :
    Custody config.tradeGracePeriod config.maxRetryCount w ∧ Counted X w := by
  refine ⟨Filed.custody (hrun.invariant
    (I := fun w => Filed config.tradeGracePeriod config.maxRetryCount w.store.queue.queuedTradeIds w) ?_ ?_),
    counted X w⟩
  · exact start_filed ledger config ext
  · exact fun a ev b h hstep => next_filed hretries hmax h hstep.1 hstep.2

end Runs

namespace Sample

/-- Trades that fail are not tried again. -/
def strict : Config := { config with maxRetryCount := 1 }

/-- Two trades are queued. The second is too small: it is a dead letter, and is queued anew. -/
def queueing : List (Event Contracts) :=
  [.call env (.queueCopyTrade alice token 5000 none), .call env (.queueCopyTrade bob token 500 none),
    .advance ⟨1050, 20⟩, .call env .executeQueuedTrades, .call env (.requeueDeadLetteredTrade 2)]

def queued : World Contracts := queueing.foldl (next externals) (World.start ledger strict ⟨100000, 1, []⟩)

/-- Of two trades one is executed, and the other waits again with no failed attempt. -/
theorem one_executed_one_requeued : endings .executed 1 queued.journal = 1 ∧
    phases queued.journal 2 = .queued 20 0 ∧ Custody 10 1 queued ∧ Counted externals queued :=
  ⟨by decide +kernel, by decide +kernel,
    queued_trades_accounted externals ledger strict ⟨100000, 1, []⟩ (by decide) (by decide)
      (Reaches.of_along_and ⟨⟨by change issued _ < _; decide +kernel, trivial⟩,
        ⟨by change issued _ < _; decide +kernel, trivial⟩, ⟨trivial, by change Ledger.Before _ _; decide +kernel⟩,
        ⟨trivial, trivial⟩, ⟨trivial, trivial⟩, trivial⟩)⟩

end Sample

end CallStake.TradeExecutor
