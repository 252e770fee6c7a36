import CallStake.StakeVault.Amounts
import Mathlib.Order.Interval.Finset.Nat

/-!
# The order of the unstake queue

Requests wait under consecutive tickets and are paid in the order of their tickets.

* `Lined`: the requests from the head up to the tail wait under their own ticket, and the requests
  processed so far are the tickets below the head, in order, each right after its payment. This holds
  in every reachable state.
* `Tight`: nothing else is in the queue. This holds until the ticket counter has reached its end,
  where a request gets the last ticket without moving the tail (`Sample.Idle`).
* `unstake_queue_fifo` puts the two together.
-/

namespace CallStake.StakeVault

open Store List

variable {τ : Type}

/-! ## The log -/

/-- The tickets of the processed requests, oldest first. -/
def processedTickets (log : List LogEntry) : List Nat := log.reverse.filterMap LogEntry.ticket?

/-- Right before a request was reported as processed, its amount was paid to its user. -/
def PaidBefore (vault : Address) (log : List LogEntry) : Prop :=
  ∀ later earlier user ticket amount,
    log = later ++ .unstakeProcessed user ticket amount :: earlier →
    ∃ token rest, earlier = .transfer token vault user amount :: rest

/-- The log of `w'` is that of `w` with token movements on top. -/
def Grows (w w' : World τ) : Prop := ∃ l, (∀ e ∈ l, LogEntry.ticket? e = none) ∧ w'.log = l ++ w.log

section Log

variable {w w₁ w' : World τ} {log l : List LogEntry} {vault : Address}

theorem Grows.refl (w : World τ) : Grows w w := ⟨[], by simp, rfl⟩

theorem Grows.of_eq (h : w'.log = w.log) : Grows w w' := ⟨[], by simp, h⟩

theorem Grows.trans (h : Grows w w₁) (h' : Grows w₁ w') : Grows w w' := by
  obtain ⟨l, hl, he⟩ := h
  obtain ⟨l', hl', he'⟩ := h'
  refine ⟨l' ++ l, ?_, by rw [he', he, append_assoc]⟩
  intro e hm
  exact (List.mem_append.mp hm).elim (hl' e) (hl e)

theorem Grows.cons {e : LogEntry} (he : e.ticket? = none) (h : w'.log = e :: w.log) : Grows w w' :=
  ⟨[e], by simp [he], h⟩

theorem processedTickets_moves (h : ∀ e ∈ l, LogEntry.ticket? e = none) :
    processedTickets (l ++ log) = processedTickets log := by
  have hnone : l.reverse.filterMap LogEntry.ticket? = [] := by
    rw [filterMap_eq_nil_iff]
    intro e he
    exact h e (List.mem_reverse.mp he)
  unfold processedTickets
  rw [reverse_append, filterMap_append, hnone, append_nil]

theorem PaidBefore.cons {e : LogEntry} (h : PaidBefore vault log)
    (he : ∀ user ticket amount, e = .unstakeProcessed user ticket amount →
      ∃ token rest, log = .transfer token vault user amount :: rest) :
    PaidBefore vault (e :: log) := by
  intro later earlier user ticket amount heq
  cases later with
  | nil =>
    obtain ⟨rfl, rfl⟩ := List.cons.inj heq
    exact he user ticket amount rfl
  | cons x later =>
    obtain ⟨-, htail⟩ := List.cons.inj heq
    exact h later earlier user ticket amount htail

theorem PaidBefore.moves (h : PaidBefore vault log) (hl : ∀ e ∈ l, LogEntry.ticket? e = none) :
    PaidBefore vault (l ++ log) := by
  induction l with
  | nil => exact h
  | cons e l ih =>
    refine (ih fun x hx => hl x (mem_cons_of_mem _ hx)).cons ?_
    rintro user ticket amount rfl
    have := hl _ (mem_cons_self ..)
    cases this

/-- A payment and the report of its request. -/
theorem PaidBefore.paid {token user : Address} {ticket : Nat} {amount : Int}
    (h : PaidBefore vault log) :
    PaidBefore vault (.unstakeProcessed user ticket amount :: .transfer token vault user amount :: log) := by
  refine (h.cons (e := .transfer token vault user amount) ?_).cons ?_
  · intro u t n he; cases he
  · intro u t n he; cases he; exact ⟨token, log, rfl⟩

theorem processedTickets_cons (e : LogEntry) (log : List LogEntry) :
    processedTickets (e :: log) = processedTickets log ++ e.ticket?.toList := by
  unfold processedTickets
  cases he : e.ticket? <;> simp [he]

end Log

/-! ## The queue -/

/-- The requests between head and tail wait under their own ticket, and those below the head were
processed in order and paid. -/
structure Lined (vault : Address) (q : QueueStorage) (log : List LogEntry) : Prop where
  le : q.unstakeQueueHead ≤ q.unstakeQueueTail
  bound : q.unstakeQueueTail ≤ u64Max
  waiting : ∀ t, q.unstakeQueueHead ≤ t → t < q.unstakeQueueTail →
    ∃ r, q.unstakeQueueEntry.lookup t = some r ∧ r.ticket = t ∧ q.userUnstakeTicket.lookup r.user = some t
  processed : processedTickets log = List.range q.unstakeQueueHead
  paid : PaidBefore vault log

/-- Nothing else is in the queue. -/
structure Tight (q : QueueStorage) : Prop where
  only : ∀ t r, q.unstakeQueueEntry.lookup t = some r → q.unstakeQueueHead ≤ t ∧ t < q.unstakeQueueTail
  owned : ∀ u t, q.userUnstakeTicket.lookup u = some t → ∃ r, q.unstakeQueueEntry.lookup t = some r ∧ r.user = u

section Queue

variable {vault user : Address} {q : QueueStorage} {log : List LogEntry} {now : Nat}
  {r : UnstakeRequest}

/-- The queue after `user` joined it. -/
def QueueStorage.enqueue (q : QueueStorage) (user : Address) (now : Nat) : QueueStorage where
  unstakeQueueTail := u64Add q.unstakeQueueTail 1
  unstakeQueueHead := q.unstakeQueueHead
  unstakeQueueEntry := q.unstakeQueueEntry.insert q.unstakeQueueTail
    { ticket := q.unstakeQueueTail, user, queuedAt := now }
  userUnstakeTicket := q.userUnstakeTicket.insert user q.unstakeQueueTail

/-- The queue after the request at the head was paid. -/
def QueueStorage.dequeue (q : QueueStorage) (r : UnstakeRequest) : QueueStorage where
  unstakeQueueTail := q.unstakeQueueTail
  unstakeQueueHead := q.unstakeQueueHead + 1
  unstakeQueueEntry := q.unstakeQueueEntry.erase q.unstakeQueueHead
  userUnstakeTicket := q.userUnstakeTicket.erase r.user

theorem Lined.enqueue (h : Lined vault q log) (hn : q.userUnstakeTicket.lookup user = none) :
    Lined vault (q.enqueue user now) log where
  le := Nat.le_trans h.le (le_u64Add_one h.bound)
  bound := u64Add_le _ _
  processed := h.processed
  paid := h.paid
  waiting t h1 h2 := by
    have hle : t < q.unstakeQueueTail + 1 := Nat.lt_of_lt_of_le h2 (Nat.min_le_left _ _)
    simp only [QueueStorage.enqueue, lookup_insert_eq]
    by_cases ht : t = q.unstakeQueueTail
    · exact ⟨_, if_pos ht, ht.symm, by simp [ht]⟩
    · obtain ⟨r, hr, hrt, hu⟩ := h.waiting t h1 (by omega)
      refine ⟨r, by rw [if_neg ht, hr], hrt, ?_⟩
      rw [if_neg, hu]
      rintro rfl
      rw [hn] at hu
      cases hu

theorem Tight.enqueue (h : Tight q) (hl : Lined vault q log) (hlt : q.unstakeQueueTail < u64Max) :
    Tight (q.enqueue user now) := by
  have htail : (q.enqueue user now).unstakeQueueTail = q.unstakeQueueTail + 1 := u64Add_one hlt
  constructor
  · intro t r hr
    rw [htail]
    simp only [QueueStorage.enqueue, lookup_insert_eq] at hr ⊢
    split at hr
    · rename_i ht
      have := hl.le
      omega
    · have := h.only t r hr
      omega
  · intro u t hu
    simp only [QueueStorage.enqueue, lookup_insert_eq] at hu ⊢
    split at hu
    · rename_i he
      cases hu
      exact ⟨_, if_pos rfl, he.symm⟩
    · obtain ⟨r, hr, hru⟩ := h.owned u t hu
      have hne : t ≠ q.unstakeQueueTail := Nat.ne_of_lt (h.only t r hr).2
      exact ⟨r, by rw [if_neg hne, hr], hru⟩

theorem Lined.dequeue {token : Address} {amount : Int} (h : Lined vault q log)
    (hlt : q.unstakeQueueHead < q.unstakeQueueTail)
    (hr : q.unstakeQueueEntry.lookup q.unstakeQueueHead = some r) :
    Lined vault (q.dequeue r) (.unstakeProcessed r.user r.ticket amount ::
      .transfer token vault r.user amount :: log) := by
  obtain ⟨r', hr', hrt, hru⟩ := h.waiting _ (Nat.le_refl _) hlt
  rw [hr] at hr'
  cases hr'
  refine ⟨hlt, h.bound, ?_, ?_, h.paid.paid⟩
  · intro t h1 h2
    simp only [QueueStorage.dequeue] at h1 h2 ⊢
    obtain ⟨s, hs, hst, hsu⟩ := h.waiting t (by omega) h2
    have hne : t ≠ q.unstakeQueueHead := by omega
    have huser : s.user ≠ r.user := by
      intro he
      rw [he, hru] at hsu
      exact hne (Option.some.inj hsu).symm
    exact ⟨s, by rw [lookup_erase_eq, if_neg hne, hs], hst,
      by rw [lookup_erase_eq, if_neg huser, hsu]⟩
  · rw [processedTickets_cons, processedTickets_cons, h.processed]
    simp [LogEntry.ticket?, QueueStorage.dequeue, range_succ, hrt]

theorem Tight.dequeue (h : Tight q)
    (hr : q.unstakeQueueEntry.lookup q.unstakeQueueHead = some r) : Tight (q.dequeue r) := by
  constructor
  · intro t s hs
    simp only [QueueStorage.dequeue, lookup_erase_eq] at hs ⊢
    split at hs
    · cases hs
    · have := h.only t s hs
      omega
  · intro u t hu
    simp only [QueueStorage.dequeue, lookup_erase_eq] at hu ⊢
    split at hu
    · cases hu
    · rename_i hne
      obtain ⟨s, hs, hsu⟩ := h.owned u t hu
      refine ⟨s, ?_, hsu⟩
      rw [if_neg, hs]
      rintro rfl
      rw [hr] at hs
      cases hs
      exact hne hsu.symm

/-- Token movements leave the order alone. -/
theorem Lined.moves {l : List LogEntry} (h : Lined vault q log)
    (hl : ∀ e ∈ l, LogEntry.ticket? e = none) : Lined vault q (l ++ log) :=
  ⟨h.le, h.bound, h.waiting, by rw [processedTickets_moves hl, h.processed], h.paid.moves hl⟩

/-- The entries ahead of a ticket are as many as there are tickets from the head to it. -/
theorem Lined.count_ahead {t : Nat} (h : Lined vault q log) (ht : Tight q)
    (hle : t ≤ q.unstakeQueueTail) :
    (q.unstakeQueueEntry.keys.filter (· < t)).length = t - q.unstakeQueueHead := by
  have hnd : (q.unstakeQueueEntry.keys.filter (· < t)).Nodup := q.unstakeQueueEntry.keys_nodup.filter _
  have hset : (q.unstakeQueueEntry.keys.filter (· < t)).toFinset =
      Finset.Ico q.unstakeQueueHead t := by
    ext k
    simp only [mem_toFinset, mem_filter, decide_eq_true_eq, Finset.mem_Ico]
    constructor
    · rintro ⟨hk, hlt⟩
      obtain ⟨r, hr⟩ := Option.isSome_iff_exists.mp
        (AList.lookup_isSome.mpr (AList.mem_keys.mp hk))
      exact ⟨(ht.only k r hr).1, hlt⟩
    · rintro ⟨hk, hlt⟩
      obtain ⟨r, hr, -⟩ := h.waiting k hk (by omega)
      exact ⟨AList.mem_keys.mpr (AList.lookup_isSome.mp (by rw [hr]; rfl)), hlt⟩
  rw [← toFinset_card_of_nodup hnd, hset, Nat.card_Ico]

end Queue

/-! ## The vault -/

/-- The calls that touch the queue. -/
def Call.Queues : Call → Prop
  | .queueUnstake .. | .processUnstakeQueue .. => True
  | _ => False

section Vault

variable {env : Env τ} {c : Call} {w w₁ w' : World τ}

theorem SlashEffect.grows {provider : Address} {severity : SlashSeverity} {reason : Symbol}
    (he : SlashEffect env provider severity reason w w') : Grows w w' := by
  cases he with
  | failed | held | refused => exact .of_eq rfl
  | burned => exact .cons rfl rfl

theorem ResolveEffect.grows {slashId : Nat} {uphold : Bool}
    (he : ResolveEffect env slashId uphold w w') : Grows w w' := by
  cases he with
  | failed | upheld | reversed | unbacked | refused => exact .of_eq rfl
  | burned => exact .cons rfl rfl

/-- Only the queue reports processed requests. -/
theorem Effect.grows (hc : ¬ c.Queues) (he : Effect env w c w') : Grows w w' := by
  cases he with
  | rejected | appeal | approval => exact .of_eq rfl
  | aside hf hs => exact .of_eq (hs.token (hf _ (by simp [books]))).2
  | deposit | delegate | withdraw | part => exact .cons rfl rfl
  | @slash caller provider severity reason n w' hd =>
    have he := doSlash_effect env provider severity reason w
    rw [hd] at he
    exact he.grows
  | batchSlash hd =>
    exact slashEntries_rule (P := Grows w) hd
      (fun w₁ p sev _ h₁ => h₁.trans (doSlash_effect env p sev _ w₁).grows) (.refl w)
  | @resolve slashId uphold w' _ hd =>
    have he := doResolveAppeal_effect env slashId uphold w
    rw [hd] at he
    exact he.grows
  | batchResolve _ hd =>
    exact resolveEntries_rule (P := Grows w) hd
      (fun w₁ i u _ h₁ => h₁.trans (doResolveAppeal_effect env i u w₁).grows) (.refl w)
  | execute _ hs => exact .of_eq (hs.token (by simp)).2
  | @executeResolve _ _ slashId uphold _ w₁ _ hd =>
    have he := doResolveAppeal_effect env slashId uphold w
    rw [hd] at he
    exact he.grows.trans (.of_eq rfl)
  | @emergency signer staker token cfg req w₁ _ _ _ hd =>
    obtain ⟨info, -, -, w₂, hb, ht⟩ := EmergencyUnstake.executeEarlyUnstake_ok.mp hd
    have h₂ : Grows w w₂ := by
      rcases EmergencyUnstake.burnIfPositive_ok.mp hb with ⟨-, t, -, rfl⟩ | ⟨-, rfl⟩
      · exact .cons rfl rfl
      · exact .of_eq rfl
    rcases EmergencyUnstake.transferIfPositive_ok.mp ht with ⟨-, t, -, rfl⟩ | ⟨-, rfl⟩
    · exact h₂.trans (.cons rfl rfl)
    · exact h₂.trans (.of_eq rfl)
  | process => exact absurd trivial hc
  | reward _ _ hl => exact hl

/-- The queue is in line, and tight unless the ticket counter is at its end. -/
structure QueueOk (vault : Address) (w : World τ) : Prop where
  lined : Lined vault w.store.queue w.log
  tight : w.store.queue.unstakeQueueTail < u64Max → Tight w.store.queue

/-- What the loop keeps, with the head it has come to. -/
structure LoopOk (vault : Address) (tail head : Nat) (w : World τ) : Prop where
  tail : w.store.queue.unstakeQueueTail = tail
  queue : QueueOk vault { w with store.queue.unstakeQueueHead := head }

/-- One round pays the request at the head. -/
theorem LoopOk.pay {tail head : Nat} {request : UnstakeRequest} {amount : Int}
    (h : LoopOk env.self tail head w) (hlt : head < tail)
    (hr : w.store.queue.unstakeQueueEntry.lookup head = some request)
    (hd : doWithdraw env request.user w = (.ok amount, w₁)) :
    LoopOk env.self tail (u64Add head 1) (w₁.dequeued head request amount) := by
  obtain ⟨-, token, -, info, -, -, t, -, rfl⟩ := doWithdraw_ok.mp hd
  obtain ⟨rfl, hq⟩ := h
  have hb := hq.lined.bound
  have hhead : u64Add head 1 = head + 1 := u64Add_one (Nat.lt_of_lt_of_le hlt hb)
  refine ⟨rfl, ?_, ?_⟩
  · rw [hhead]
    exact hq.lined.dequeue hlt hr
  · intro ht
    rw [hhead]
    exact (hq.tight ht).dequeue hr

/-- A run of the loop over a queue in line never meets an empty slot. -/
theorem QueueOk.process {limit m h' : Nat} (h : QueueOk env.self w)
    (hd : processLoop env limit w.store.queue.unstakeQueueTail
      (w.store.queue.unstakeQueueTail - w.store.queue.unstakeQueueHead) 0
      w.store.queue.unstakeQueueHead w = (.ok (m, h'), w₁)) :
    QueueOk env.self { w₁ with store.queue.unstakeQueueHead := h' } := by
  obtain ⟨m', h₂, w₂, hr, hok⟩ := processLoop_rule env limit
    w.store.queue.unstakeQueueTail
    (w.store.queue.unstakeQueueTail - w.store.queue.unstakeQueueHead) 0
    (P := LoopOk env.self w.store.queue.unstakeQueueTail)
    (fun head w₂ h₂ hlt hn => by
      obtain ⟨r, hr, -⟩ := h₂.queue.lined.waiting head (Nat.le_refl _) (h₂.tail ▸ hlt)
      simp only [hn] at hr
      cases hr)
    (fun _ _ _ _ _ h₂ hlt hr hw => h₂.pay hlt hr hw) ⟨rfl, h⟩
  rw [hr] at hd
  cases hd
  exact hok.queue

theorem QueueOk.invoke (env : Env τ) (h : QueueOk env.self w) : QueueOk env.self ((invoke env c).exec w) := by
  by_cases hc : c.Queues
  · cases c with
    | queueUnstake staker =>
      rcases Tx.exec_cases (StakeVault.invoke env (.queueUnstake staker)) w with ⟨u, hu⟩ | hu
      · obtain ⟨n, hn⟩ := Tx.void_ok.mp hu
        obtain ⟨-, -, hnone, -, -, -, -, -, hw⟩ := queueUnstake_ok.mp hn
        rw [← hw]
        refine ⟨h.lined.enqueue hnone, fun hlt => ?_⟩
        have hlt' : w.store.queue.unstakeQueueTail < u64Max := Nat.lt_of_le_of_lt (le_u64Add_one h.lined.bound) hlt
        exact (h.tight hlt').enqueue h.lined hlt'
      · rw [hu]; exact h
    | processUnstakeQueue limit =>
      have he := invoke_effect env (.processUnstakeQueue limit) w
      generalize (StakeVault.invoke env (.processUnstakeQueue limit)).exec w = w' at he
      cases he with
      | rejected => exact h
      | aside hf => exact absurd (hf .stake (by simp [books])) (by simp [Call.footprint])
      | process _ hd => exact h.process hd
      | reward hf => simp [Call.footprint] at hf
    | _ => exact hc.elim
  · have hq : ((StakeVault.invoke env c).exec w).store.queue = w.store.queue := by
      refine ((invoke_writes env c).exec w).queue ?_
      cases c <;> first | exact absurd trivial hc | simp [Call.footprint]
    obtain ⟨l, hl, hlog⟩ := (invoke_effect env c w).grows hc
    refine ⟨?_, fun hlt => ?_⟩
    · rw [hq, hlog]; exact h.lined.moves hl
    · rw [hq] at hlt ⊢; exact h.tight hlt

variable {T : Tokens τ} {self : Address}

theorem Reachable.queueOk (h : Reachable T self w) : QueueOk self w := by
  obtain ⟨ledger, token, hr⟩ := h
  refine hr.invariant ⟨⟨Nat.le_refl 0, Nat.zero_le _, ?_, rfl, ?_⟩, fun _ => ⟨?_, ?_⟩⟩ ?_
  · intro t _ ht; exact absurd ht (Nat.not_lt_zero t)
  · intro later earlier user ticket amount he
    exact absurd he (by simp [World.deployed])
  · intro t r hr; cases hr
  · intro u t hu; cases hu
  · rintro a ev b ha ⟨-, rfl⟩
    cases ev with
    | call auth => exact QueueOk.invoke ⟨T, self, auth⟩ ha
    | advance | external => exact ⟨ha.lined, ha.tight⟩

/-- In every reachable state, until the ticket counter is at its end: the entries are those from the
head up to the tail, a user has the ticket of the entry with its name and no other, its position is
the number of entries ahead, and the requests processed so far are the tickets below the head in
their order, each right after its payment. -/
theorem unstake_queue_fifo (h : Reachable T self w)
    (ht : w.store.queue.unstakeQueueTail < u64Max) :
    w.store.queue.unstakeQueueHead ≤ w.store.queue.unstakeQueueTail ∧
      (∀ t, (w.store.queue.unstakeQueueEntry.lookup t).isSome = true ↔
        w.store.queue.unstakeQueueHead ≤ t ∧ t < w.store.queue.unstakeQueueTail) ∧
      (∀ u t, w.store.queue.userUnstakeTicket.lookup u = some t ↔
        ∃ r, w.store.queue.unstakeQueueEntry.lookup t = some r ∧ r.user = u) ∧
      (∀ u, getQueuePosition w.store u = (w.store.queue.userUnstakeTicket.lookup u).map
        fun t => (w.store.queue.unstakeQueueEntry.keys.filter (· < t)).length) ∧
      processedTickets w.log = List.range w.store.queue.unstakeQueueHead ∧
      PaidBefore self w.log := by
  obtain ⟨hl, htight⟩ := h.queueOk
  have hx := htight ht
  refine ⟨hl.le, fun t => ?_, fun u t => ⟨hx.owned u t, ?_⟩, fun u => ?_, hl.processed, hl.paid⟩
  · constructor
    · intro hs
      obtain ⟨r, hr⟩ := Option.isSome_iff_exists.mp hs
      exact hx.only t r hr
    · rintro ⟨h1, h2⟩
      obtain ⟨r, hr, -⟩ := hl.waiting t h1 h2
      rw [hr]; rfl
  · rintro ⟨r, hr, rfl⟩
    obtain ⟨h1, h2⟩ := hx.only t r hr
    obtain ⟨r', hr', -, hu⟩ := hl.waiting t h1 h2
    rw [hr] at hr'
    cases hr'
    exact hu
  · unfold getQueuePosition
    cases hu : w.store.queue.userUnstakeTicket.lookup u with
    | none => rfl
    | some t =>
      obtain ⟨r, hr, -⟩ := hx.owned u t hu
      have hle := Nat.le_of_lt (hx.only t r hr).2
      simp [hl.count_ahead hx hle]

end Vault

open Sample in
/-- `alice` and `bob` wait, and one request is processed. -/
def oneProcessed : List (Event Unit) :=
  [call (.initializeVault admin stakeToken registry), call (.depositStake alice 5),
    call (.depositStake bob 7), call (.queueUnstake alice), call (.queueUnstake bob),
    call (.processUnstakeQueue 1)]

open Sample in
/-- The ticket that came first is paid first. -/
theorem unstake_queue_fifo_one :
    (run freeTokens vault (World.deployed ⟨0, 0⟩ ()) oneProcessed).store.queue.unstakeQueueTail = 2 ∧
      processedTickets (run freeTokens vault (World.deployed ⟨0, 0⟩ ()) oneProcessed).log = [0] ∧
      PaidBefore vault (run freeTokens vault (World.deployed ⟨0, 0⟩ ()) oneProcessed).log := by
  have htail : (run freeTokens vault (World.deployed ⟨0, 0⟩ ())
      oneProcessed).store.queue.unstakeQueueTail = 2 := by decide +kernel
  have hhead : (run freeTokens vault (World.deployed ⟨0, 0⟩ ())
      oneProcessed).store.queue.unstakeQueueHead = 1 := by decide +kernel
  have hreach : Reachable freeTokens vault (run freeTokens vault (World.deployed ⟨0, 0⟩ ())
      oneProcessed) := reachable_run _ _ (by decide +kernel)
  obtain ⟨-, -, -, -, hp, hpaid⟩ := unstake_queue_fifo hreach (by rw [htail]; decide)
  exact ⟨htail, by rw [hp, hhead]; rfl, hpaid⟩

/-! ## The last ticket -/

namespace Sample

/-- An empty queue whose next ticket is `n`, at the first ledger. -/
structure Idle (n : Nat) (w : World Unit) : Prop where
  reachable : Reachable freeTokens vault w
  ledger : w.ledger = ⟨0, 0⟩
  head : w.store.queue.unstakeQueueHead = n
  tail : w.store.queue.unstakeQueueTail = n
  ticket : w.store.queue.userUnstakeTicket.lookup alice = none
  stake : infoOf w.store.stake.stakesV2 alice = ⟨0, 0, 0⟩
  token : w.store.config.stakeToken = some stakeToken
  paused : w.store.config.paused = false
  duration : w.store.config.minimumStakeDuration = 0
  room : 0 < w.store.config.maxUnstakeQueueSize
  locks : w.store.guards.withdrawLock = false ∧ w.store.guards.sharedContractLock = false

abbrev free : Env Unit := ⟨freeTokens, vault, fun a => a ≠ vault⟩

/-- `alice` stakes one unit and queues for it. -/
def queued (w : World Unit) : World Unit := (w.afterDeposit free stakeToken alice 1 ()).enqueued alice

theorem reachable_call {w w' : World Unit} {c : Call} (h : Reachable freeTokens vault w)
    (hc : invoke free c w = (.ok (), w')) : Reachable freeTokens vault w' := by
  obtain ⟨ledger, token, hr⟩ := h
  exact ⟨ledger, token, hr.tail (i := .call free.auth c) ⟨rfl, (Tx.exec_of_ok hc).symm⟩⟩

section Idle

variable {n : Nat} {w : World Unit}

theorem Idle.queued (h : Idle n w) : Reachable freeTokens vault (queued w) := by
  have hdep : invoke free (.depositStake alice 1) w =
      (.ok (), w.afterDeposit free stakeToken alice 1 ()) :=
    depositStake_ok.mpr ⟨h.locks.2, by decide, h.paused, by decide, stakeToken, h.token,
      by rw [h.stake]; decide, by rw [h.stake]; decide, (), rfl, rfl⟩
  refine reachable_call (reachable_call h.reachable hdep) (c := .queueUnstake alice)
    (Tx.void_ok.mpr ⟨n, queueUnstake_ok.mpr ⟨by decide, h.paused, h.ticket, _,
      AList.lookup_insert _, ?_, ?_, h.tail, rfl⟩⟩)
  · simp [h.stake]
  · change w.store.queue.unstakeQueueTail - w.store.queue.unstakeQueueHead < _
    rw [h.tail, h.head, Nat.sub_self]
    exact h.room

/-- Her unit can be withdrawn at once: nothing is locked at the first ledger. -/
theorem Idle.withdraws (h : Idle n w) : doWithdraw free alice (Sample.queued w) =
    (.ok 1, (Sample.queued w).afterPayout free stakeToken alice ⟨1, 0, 0⟩ 1 ()) := by
  refine doWithdraw_ok.mpr ⟨h.locks.1, stakeToken, h.token, ⟨1, 0, 0⟩,
    ⟨?_, by decide, Nat.zero_le _, ?_, ?_⟩, rfl, (), rfl, rfl⟩
  · simp [Sample.queued, World.enqueued, World.afterDeposit, h.stake, h.ledger, h.duration, lockAfterDeposit, u64Add]
  · rintro ⟨-, hne⟩
    exact hne (congrArg Ledger.sequence h.ledger)
  · intro hl
    exact absurd hl (by decide)

/-- The request is paid, and the next ticket is the next number. -/
theorem Idle.succ (h : Idle n w) (hn : n < u64Max) : ∃ w', Idle (n + 1) w' := by
  have htail : (Sample.queued w).store.queue.unstakeQueueTail = n + 1 := by
    change u64Add w.store.queue.unstakeQueueTail 1 = n + 1
    rw [h.tail, u64Add_one hn]
  have hhead : (Sample.queued w).store.queue.unstakeQueueHead = n := h.head
  have hentry : (Sample.queued w).store.queue.unstakeQueueEntry.lookup n =
      some ⟨n, alice, 0⟩ := by
    simp [Sample.queued, World.enqueued, World.afterDeposit, h.ledger, h.tail]
  have hloop : processLoop free 1 (n + 1) 1 0 n (Sample.queued w) = (.ok (1, n + 1),
      ((Sample.queued w).afterPayout free stakeToken alice ⟨1, 0, 0⟩ 1 ()).dequeued n
        ⟨n, alice, 0⟩ 1) := by
    rw [processLoop_succ, if_pos ⟨by decide, Nat.lt_succ_self n⟩, hentry]
    simp only [h.withdraws, u64Add_one hn]
    rfl
  have hproc := processUnstakeQueue_run (w := Sample.queued w) h.paused (Nat.one_ne_zero)
    (by rw [htail, hhead]; exact Nat.lt_succ_self n)
    (by rw [htail, hhead, Nat.add_sub_cancel_left]; exact hloop)
  refine ⟨_, reachable_call (c := .processUnstakeQueue 1) h.queued (Tx.void_ok.mpr ⟨1, hproc⟩),
    h.ledger, rfl, htail, ?_, ?_, h.token, h.paused, h.duration, h.room, ?_⟩
  · exact AList.lookup_erase _ _
  · have hts : w.ledger.timestamp = 0 := congrArg Ledger.timestamp h.ledger
    change infoOf (AList.insert alice _ _) alice = _
    rw [infoOf, AList.lookup_insert]
    simp [Sample.queued, World.enqueued, World.afterDeposit, hts]
  · exact h.locks

end Idle

theorem exists_idle (n : Nat) (hn : n ≤ u64Max) : ∃ w, Idle n w := by
  induction n with
  | zero =>
    exact ⟨started freeTokens () [], reachable_run _ _ (by decide +kernel), by decide +kernel,
      by decide +kernel, by decide +kernel, by decide +kernel, by decide +kernel, by decide +kernel,
      by decide +kernel, by decide +kernel, by decide +kernel, by decide +kernel⟩
  | succ n ih =>
    obtain ⟨w, hw⟩ := ih (Nat.le_of_succ_le hn)
    exact hw.succ hn

end Sample

open Sample in
/-- After the last number the queue holds an entry that is not below its tail. -/
theorem last_ticket_is_past_the_tail :
    ¬ ∀ w : World Unit, Reachable freeTokens vault w → ∀ t,
      (w.store.queue.unstakeQueueEntry.lookup t).isSome = true ↔
        w.store.queue.unstakeQueueHead ≤ t ∧ t < w.store.queue.unstakeQueueTail := by
  intro h
  obtain ⟨w, hw⟩ := exists_idle u64Max (Nat.le_refl _)
  have hlt := ((h (queued w) hw.queued u64Max).mp ?_).2
  · change u64Max < u64Add w.store.queue.unstakeQueueTail 1 at hlt
    rw [hw.tail, u64Add_max] at hlt
    exact absurd hlt (Nat.lt_irrefl _)
  · change ((w.store.queue.unstakeQueueEntry.insert w.store.queue.unstakeQueueTail _).lookup _).isSome
      = true
    rw [hw.tail, AList.lookup_insert]
    rfl

end CallStake.StakeVault
