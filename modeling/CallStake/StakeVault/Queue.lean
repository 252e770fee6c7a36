import CallStake.StakeVault.Stake

/-!
# The unstake queue

Requests get consecutive tickets and are paid in their order. The head is the next ticket to
process, the tail the next ticket to assign.

* `processLoop_rule`: what skipping an empty slot and paying the head entry both keep, the loop
  keeps.
-/

namespace CallStake.StakeVault

variable {τ : Type}

/-- `queue_unstake`: the next ticket. -/
def queueUnstake (env : Env τ) (staker : Address) : V τ Nat := do
  requireAuth env.auth staker
  requireNotPaused
  let queued ← load fun s => s.queue.userUnstakeTicket.lookup staker
  Tx.failIf (queued.isSome = true) (err .unstakeAlreadyQueued)
  let stakes ← load (·.stake.stakesV2)
  let info ← Tx.ofOption (stakes.lookup staker) (err .noStake)
  Tx.failIf (info.balance = 0) (err .noStake)
  let tail ← load (·.queue.unstakeQueueTail)
  let head ← load (·.queue.unstakeQueueHead)
  let maxQueueSize ← load (·.config.maxUnstakeQueueSize)
  Tx.failIf (maxQueueSize ≤ tail - head) (err .queueFull)
  let ticket := tail
  let now ← timestamp
  save fun s => { s with
    queue.unstakeQueueEntry := s.queue.unstakeQueueEntry.insert ticket { ticket, user := staker, queuedAt := now } }
  save fun s => { s with
    queue.userUnstakeTicket := s.queue.userUnstakeTicket.insert staker ticket }
  save fun s => { s with queue.unstakeQueueTail := u64Add tail 1 }
  return ticket

/-- `emit_unstake_processed`. -/
def emitUnstakeProcessed (user : Address) (ticket : Nat) (amount : Int) : V τ Unit :=
  Tx.modify fun w => { w with log := .unstakeProcessed user ticket amount :: w.log }

/-- The effects of a paid request on the queue. -/
def finishRequest (head : Nat) (request : UnstakeRequest) (amount : Int) : V τ Unit := do
  save fun s => { s with queue.unstakeQueueEntry := s.queue.unstakeQueueEntry.erase head }
  save fun s => { s with queue.userUnstakeTicket := s.queue.userUnstakeTicket.erase request.user }
  recordStakeChange request.user
  emitUnstakeProcessed request.user request.ticket amount

/-- The loop of `process_unstake_queue`, at most `fuel` rounds: the number of processed requests and
the new head. A request whose withdrawal fails stays at the head and ends the loop. -/
def processLoop (env : Env τ) (limit tail : Nat) (fuel processed head : Nat) : V τ (Nat × Nat) :=
  match fuel with
  | 0 => pure (processed, head)
  | fuel + 1 =>
    if processed < limit ∧ head < tail then do
      let entry ← load fun s => s.queue.unstakeQueueEntry.lookup head
      match entry with
      | none => processLoop env limit tail fuel processed (u64Add head 1)
      | some request =>
        let result ← Tx.attempt (doWithdraw env request.user)
        match result with
        | .ok amount =>
          finishRequest head request amount
          processLoop env limit tail fuel (u32Add processed 1) (u64Add head 1)
        | .error _ => return (processed, head)
    else pure (processed, head)

/-- Every round moves the head by one, so the distance to the tail is enough fuel. -/
def processUnstakeQueue (env : Env τ) (limit : Nat) : V τ Nat := do
  requireNotPaused
  if limit = 0 then
    return 0
  else
    let head ← load (·.queue.unstakeQueueHead)
    let tail ← load (·.queue.unstakeQueueTail)
    Tx.failIf (tail ≤ head) (err .queueEmpty)
    let result ← processLoop env limit tail (tail - head) 0 head
    save fun s => { s with queue.unstakeQueueHead := result.2 }
    return result.1

/-- `get_queue_position`. -/
def getQueuePosition (s : Storage) (user : Address) : Option Nat :=
  (s.queue.userUnstakeTicket.lookup user).map fun ticket => ticket - s.queue.unstakeQueueHead

/-! ## What the queue operations did -/

section Run

variable {env : Env τ} {w w' : World τ} {staker : Address} {n : Nat}

/-- The world after `staker` joined the queue. -/
def World.enqueued (w : World τ) (staker : Address) : World τ :=
  { w with store := { w.store with
    queue.unstakeQueueEntry := w.store.queue.unstakeQueueEntry.insert
      w.store.queue.unstakeQueueTail
      { ticket := w.store.queue.unstakeQueueTail, user := staker, queuedAt := w.ledger.timestamp }
    queue.userUnstakeTicket := w.store.queue.userUnstakeTicket.insert staker w.store.queue.unstakeQueueTail
    queue.unstakeQueueTail := u64Add w.store.queue.unstakeQueueTail 1 } }

theorem queueUnstake_ok : queueUnstake env staker w = (.ok n, w') ↔
    env.auth staker = true ∧ w.store.config.paused = false ∧
      w.store.queue.userUnstakeTicket.lookup staker = none ∧
      ∃ info, w.store.stake.stakesV2.lookup staker = some info ∧ info.balance ≠ 0 ∧
      w.store.queue.unstakeQueueTail - w.store.queue.unstakeQueueHead < w.store.config.maxUnstakeQueueSize ∧
      w.store.queue.unstakeQueueTail = n ∧ w.enqueued staker = w' := by
  unfold queueUnstake World.enqueued
  simp [and_assoc]

/-- The world after the request at `head` was paid. -/
def World.dequeued (w : World τ) (head : Nat) (request : UnstakeRequest) (amount : Int) : World τ :=
  { w.counted request.user with
    store := { (w.counted request.user).store with
      queue.unstakeQueueEntry := w.store.queue.unstakeQueueEntry.erase head
      queue.userUnstakeTicket := w.store.queue.userUnstakeTicket.erase request.user }
    log := .unstakeProcessed request.user request.ticket amount :: w.log }

theorem finishRequest_ok {head : Nat} {request : UnstakeRequest} {amount : Int} {u : Unit} :
    (finishRequest head request amount : V τ Unit) w = (.ok u, w') ↔ w.dequeued head request amount = w' := by
  simp [finishRequest, emitUnstakeProcessed, World.dequeued, World.counted]

theorem finishRequest_run (w : World τ) (head : Nat) (request : UnstakeRequest) (amount : Int) :
    (finishRequest head request amount : V τ Unit) w = (.ok (), w.dequeued head request amount) :=
  finishRequest_ok.mpr rfl

/-- One round of the loop, from the state it starts in. -/
theorem processLoop_succ {limit tail fuel processed head : Nat} :
    processLoop env limit tail (fuel + 1) processed head w =
      if processed < limit ∧ head < tail then
        match w.store.queue.unstakeQueueEntry.lookup head with
        | none => processLoop env limit tail fuel processed (u64Add head 1) w
        | some request =>
          match doWithdraw env request.user w with
          | (.ok amount, w₁) =>
            processLoop env limit tail fuel (u32Add processed 1) (u64Add head 1)
              (w₁.dequeued head request amount)
          | (.error _, _) => (.ok (processed, head), w)
      else (.ok (processed, head), w) := by
  rw [processLoop]
  split
  · change Tx.bind _ _ w = _
    unfold Tx.bind load Tx.gets
    simp only
    cases w.store.queue.unstakeQueueEntry.lookup head with
    | none => rfl
    | some request =>
      simp only
      rcases hd : doWithdraw env request.user w with ⟨r, w₁⟩
      rcases r with e | amount
      · obtain ⟨⟨x, rfl⟩, rfl⟩ := doWithdraw_error hd
        change Tx.bind _ _ w₁ = _
        unfold Tx.bind Tx.attempt
        rw [hd]
        rfl
      · change Tx.bind _ _ w = _
        unfold Tx.bind Tx.attempt
        rw [hd]
        simp only
        change Tx.bind _ _ w₁ = _
        unfold Tx.bind
        rw [finishRequest_run]
  · rfl

/-- What the loop keeps: skipping an empty slot and paying the request at the head both do. -/
theorem processLoop_rule (env : Env τ) (limit tail fuel processed : Nat) {P : Nat → World τ → Prop}
    (hskip : ∀ head w, P head w → head < tail → w.store.queue.unstakeQueueEntry.lookup head = none →
      P (u64Add head 1) w)
    (hpay : ∀ head w request amount w₁, P head w → head < tail →
      w.store.queue.unstakeQueueEntry.lookup head = some request →
      doWithdraw env request.user w = (.ok amount, w₁) →
      P (u64Add head 1) (w₁.dequeued head request amount))
    {head : Nat} (h0 : P head w) :
    ∃ m h' w', processLoop env limit tail fuel processed head w = (.ok (m, h'), w') ∧ P h' w' := by
  induction fuel generalizing processed head w with
  | zero => exact ⟨processed, head, w, rfl, h0⟩
  | succ fuel ih =>
    rw [processLoop_succ]
    split
    · rename_i hc
      cases he : w.store.queue.unstakeQueueEntry.lookup head with
      | none => exact ih processed (hskip head w h0 hc.2 he)
      | some request =>
        rcases hd : doWithdraw env request.user w with ⟨r, w₁⟩
        rcases r with e | amount
        · exact ⟨processed, head, w, by simp only [hd], h0⟩
        · obtain ⟨m, h', w', hr, hP⟩ :=
            ih (u32Add processed 1) (hpay head w request amount w₁ h0 hc.2 he hd)
          exact ⟨m, h', w', by simp only [hd, hr], hP⟩
    · exact ⟨processed, head, w, rfl, h0⟩

/-- A processing call did nothing, or ran the loop from the stored head and stored the new one. -/
theorem processUnstakeQueue_ok {limit : Nat} (h : processUnstakeQueue env limit w = (.ok n, w')) :
    w' = w ∨ (w.store.queue.unstakeQueueHead < w.store.queue.unstakeQueueTail ∧
      ∃ m h' w₁, processLoop env limit w.store.queue.unstakeQueueTail
        (w.store.queue.unstakeQueueTail - w.store.queue.unstakeQueueHead) 0
        w.store.queue.unstakeQueueHead w = (.ok (m, h'), w₁) ∧
      w' = { w₁ with store := { w₁.store with queue.unstakeQueueHead := h' } }) := by
  unfold processUnstakeQueue at h
  by_cases h0 : limit = 0
  · simp [h0] at h
    exact .inl h.1.2.symm
  · simp [h0, and_assoc] at h
    obtain ⟨-, hlt, h', w₁, hl, rfl⟩ := h
    exact .inr ⟨hlt, _, h', w₁, hl, rfl⟩

/-- A processing call that finds requests runs the loop and stores the new head. -/
theorem processUnstakeQueue_run {limit m h' : Nat} {w₁ : World τ}
    (hp : w.store.config.paused = false) (hl : limit ≠ 0)
    (hlt : w.store.queue.unstakeQueueHead < w.store.queue.unstakeQueueTail)
    (hd : processLoop env limit w.store.queue.unstakeQueueTail
      (w.store.queue.unstakeQueueTail - w.store.queue.unstakeQueueHead) 0
      w.store.queue.unstakeQueueHead w = (.ok (m, h'), w₁)) :
    processUnstakeQueue env limit w =
      (.ok m, { w₁ with store := { w₁.store with queue.unstakeQueueHead := h' } }) := by
  simp [processUnstakeQueue, hl, hp, hlt, hd]

end Run

end CallStake.StakeVault
