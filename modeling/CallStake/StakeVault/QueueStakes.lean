import CallStake.StakeVault.QueueOrder

/-!
# The stakes of those who wait

A request is paid from the stake of its user, in strict order. Nothing ties the queue to the stakes:
a withdrawal, a slash or an emergency unstake of someone who waits leaves the request where it is, and
with no stake behind it the request can only fail, along with all that wait behind it.

* `World.InLine`: those who wait; `Funded`: they all have a stake.
* `Spares`: the call takes nobody's whole stake while they wait.
* `no_dead_head`: in the runs of such calls everyone in the line has a stake.
-/

namespace CallStake.StakeVault

variable {τ : Type}

/-- `user` has a request between the head and the tail. -/
def World.InLine (w : World τ) (user : Address) : Prop :=
  ∃ t r, w.store.queue.unstakeQueueHead ≤ t ∧ t < w.store.queue.unstakeQueueTail ∧
    w.store.queue.unstakeQueueEntry.lookup t = some r ∧ r.user = user

/-- Everyone in the line has a stake. -/
def Funded (w : World τ) : Prop := ∀ user, w.InLine user → 0 < getStake w.store user

/-- A slash that goes through takes less than the whole own stake of a provider that waits. -/
def SlashSpares (w : World τ) (provider : Address) (severity : SlashSeverity) : Prop :=
  w.InLine provider → ∀ info, Slashable w provider info → ownSlash info.balance (w.slashBps severity) < info.balance

/-- The call, if it goes through, takes nobody's whole stake while they wait: no withdrawal and no
last approval of an emergency unstake of someone in the line, and no slash of the whole stake. -/
def Spares (env : Env τ) (w : World τ) : Call → Prop
  | .withdrawStake staker => ¬ w.InLine staker
  | .slashStake _ provider severity _ => SlashSpares w provider severity
  | .batchSlashStake _ providers severities reason =>
    ∀ e ∈ slashWorlds env reason w (providers.zip severities), SlashSpares e.1 e.2.1 e.2.2
  | .approveEmergencyUnstake signer staker =>
    (∃ cfg req, EmergencyUnstake.Approvable w signer staker cfg req ∧
      cfg.required ≤ req.approvals.length + 1) → ¬ w.InLine staker
  | _ => True

/-- An allowed event whose call, if it goes through, spares those who wait. -/
def SparingEvent (T : Tokens τ) (self : Address) (w : World τ) (ev : Event τ) : Prop :=
  Allowed self w ev ∧
    match ev with
    | .call auth c =>
      (∃ w', invoke ⟨T, self, auth⟩ c w = (.ok (), w')) → Spares ⟨T, self, auth⟩ w c
    | .advance _ | .external _ => True

def SparingStep (T : Tokens τ) (self : Address) (w : World τ) (ev : Event τ) (w' : World τ) : Prop :=
  SparingEvent T self w ev ∧ w' = next T self w ev

/-! ## The calls outside the queue -/

section Calls

variable {env : Env τ} {c : Call} {w w' : World τ} {user provider : Address}
  {severity : SlashSeverity} {reason : Symbol} {slashId : Nat} {uphold : Bool}

theorem World.InLine.congr (h : w'.InLine user) (hq : w'.store.queue = w.store.queue) :
    w.InLine user := by
  unfold World.InLine at h ⊢
  rwa [hq] at h

/-- A stake that was set: the one of `staker` is the new one and the others are as before. -/
theorem getStake_insert (s : Storage) (staker user : Address) (info : StakeInfoV2) :
    getStake { s with stake.stakesV2 := s.stake.stakesV2.insert staker info } user =
      if user = staker then info.balance else getStake s user := by
  unfold getStake
  simp only [Store.lookup_insert_eq]
  split <;> rfl

/-- A slash keeps the stake of someone in the line above zero. -/
theorem SlashSpares.keeps (hs : SlashSpares w provider severity) (ha : Amounts w.store)
    (hu : w.InLine user) (h : 0 < getStake w.store user)
    (he : SlashEffect env provider severity reason w w') : 0 < getStake w'.store user := by
  have hkeep : ∀ {info : StakeInfoV2}, Slashable w provider info →
      0 < getStake (w.slashed provider severity reason info).store user := by
    intro info hsl
    rw [(getStake_slashed ha user severity reason hsl).1]
    split
    · rename_i heq
      have := hs (heq ▸ hu) info hsl
      omega
    · exact h
  cases he with
  | failed => exact h
  | held hsl | burned _ hsl | refused hsl => exact hkeep hsl

/-- A resolution never lowers a stake. -/
theorem keeps_stake_of_resolve (ha : Amounts w.store) (h : 0 < getStake w.store user)
    (he : ResolveEffect env slashId uphold w w') : 0 < getStake w'.store user := by
  have hcredit : ∀ {p : Address} {amount : Int}, 0 < amount →
      0 < getStake (w.credited p amount).store user := by
    intro p amount hpos
    rw [getStake_credited]
    split
    · unfold saturatingAdd clamp i128Max i128Min
      omega
    · exact h
  cases he with
  | failed | upheld | burned | refused => exact h
  | reversed _ h0 => exact hcredit h0
  | unbacked hr => exact hcredit (ha.slashes.recorded _ _ hr.recorded)

/-- A call outside the queue that spares those who wait keeps their stakes above zero. -/
theorem Spares.keeps (hs : Spares env w c) (ha : Amounts w.store) (hc : ¬ c.Queues)
    (hu : w.InLine user) (h : 0 < getStake w.store user) (he : Effect env w c w') :
    0 < getStake w'.store user := by
  have hstake : ∀ {w' : World τ}, w'.store.stake = w.store.stake → 0 < getStake w'.store user := by
    intro w' heq
    unfold getStake at h ⊢
    rwa [heq]
  cases he with
  | rejected | delegate | appeal | approval => exact h
  | aside hf hsame => exact hstake (hsame.stake (hf _ (by simp [books])))
  | @deposit staker token amount t _ hpos =>
    change 0 < getStake { w.store with stake.stakesV2 := _ } user
    rw [getStake_insert, ← getStake_eq]
    split
    · rename_i heq
      rw [← heq]
      exact Int.add_pos h hpos
    · exact h
  | @withdraw staker token info t =>
    change 0 < getStake { w.store with stake.stakesV2 := _ } user
    rw [getStake_insert, if_neg]
    · exact h
    · rintro rfl
      exact hs hu
  | @part staker token amount info t _ _ _ _ hlt =>
    change 0 < getStake { w.store with stake.stakesV2 := _ } user
    rw [getStake_insert]
    split
    · change 0 < info.balance - amount
      omega
    · exact h
  | @slash _ provider severity reason n w' hd =>
    have he := doSlash_effect env provider severity reason w
    rw [hd] at he
    exact SlashSpares.keeps hs ha hu h he
  | @batchSlash caller providers severities reason amounts w' hd =>
    -- the entries leave the queue alone, so those in the line stay in it
    refine (slashEntries_rule (P := fun w₁ => Amounts w₁.store ∧
      w₁.store.queue = w.store.queue ∧ 0 < getStake w₁.store user) hd ?_ ⟨ha, rfl, h⟩).2.2
    rintro w₁ p sev hm ⟨ha₁, hq₁, h₁⟩
    have he₁ := doSlash_effect env p sev reason w₁
    have hu₁ : w₁.InLine user := World.InLine.congr hu hq₁.symm
    refine ⟨ha₁.slashEffect he₁, ?_, (hs _ hm).keeps ha₁ hu₁ h₁ he₁⟩
    rw [← hq₁]
    have hs : Writes [.stake, .slash, .token] (doSlash env p sev reason) := inferInstance
    exact (hs.moves w₁).queue (by simp)
  | @resolve slashId uphold w' _ hd =>
    have he := doResolveAppeal_effect env slashId uphold w
    rw [hd] at he
    exact keeps_stake_of_resolve ha h he
  | batchResolve _ hd =>
    refine (resolveEntries_rule (P := fun w₁ => Amounts w₁.store ∧ 0 < getStake w₁.store user) hd
      ?_ ⟨ha, h⟩).2
    rintro w₁ i u - ⟨ha₁, h₁⟩
    have he₁ := doResolveAppeal_effect env i u w₁
    exact ⟨ha₁.resolveEffect he₁, keeps_stake_of_resolve ha₁ h₁ he₁⟩
  | execute _ hsame => exact hstake (hsame.stake (by simp))
  | @executeResolve _ _ slashId uphold _ w₁ _ hd =>
    have he := doResolveAppeal_effect env slashId uphold w
    rw [hd] at he
    have hres : 0 < getStake w₁.store user := keeps_stake_of_resolve ha h he
    exact hres
  | @emergency signer staker token cfg req w₁ _ hap hreq hd =>
    obtain ⟨info, -, -, w₂, hb, ht⟩ := EmergencyUnstake.executeEarlyUnstake_ok.mp hd
    have hne : user ≠ staker := by
      rintro rfl
      exact hs ⟨cfg, req, hap, hreq⟩ hu
    have hempty : 0 < getStake (EmergencyUnstake.World.emptied w staker).store user := by
      change 0 < getStake { w.store with stake.stakesV2 := _ } user
      rw [getStake_insert, if_neg hne]
      exact h
    have h₂ : 0 < getStake w₂.store user := by
      rcases EmergencyUnstake.burnIfPositive_ok.mp hb with ⟨-, t, -, rfl⟩ | ⟨-, rfl⟩ <;> exact hempty
    rcases EmergencyUnstake.transferIfPositive_ok.mp ht with ⟨-, t, -, rfl⟩ | ⟨-, rfl⟩ <;> exact h₂
  | process => exact absurd trivial hc
  | reward _ hsame => exact hstake (hsame.stake (by simp))

end Calls

/-! ## The queue -/

section Queue

variable {env : Env τ} {c : Call} {w w₁ w' : World τ} {user staker : Address}

/-- Who joins the line has a stake. -/
theorem Funded.enqueue {n : Nat} (h : Funded w) (ha : Amounts w.store)
    (hd : queueUnstake env staker w = (.ok n, w')) : Funded w' := by
  obtain ⟨-, -, -, info, hi, h0, -, -, rfl⟩ := queueUnstake_ok.mp hd
  rintro user ⟨t, r, h1, h2, hr, rfl⟩
  have hlt : t < w.store.queue.unstakeQueueTail + 1 := Nat.lt_of_lt_of_le h2 (Nat.min_le_left _ _)
  simp only [World.enqueued, Store.lookup_insert_eq] at h1 hr
  split at hr
  · cases hr
    have hb := (ha.stakes.balances _ _ hi).1
    change 0 < getStake w.store staker
    simp [getStake, hi]
    omega
  · exact h _ ⟨t, r, h1, by omega, hr, rfl⟩

/-- What the loop keeps, with the head it has come to. -/
structure LoopFunded (vault : Address) (tail head : Nat) (w : World τ) : Prop where
  loop : LoopOk vault tail head w
  amounts : Amounts w.store
  funded : Funded { w with store.queue.unstakeQueueHead := head }

/-- The request at the head is paid from the stake of its user, who has no other request. -/
theorem LoopFunded.pay {tail head : Nat} {request : UnstakeRequest} {amount : Int}
    (h : LoopFunded env.self tail head w) (hlt : head < tail)
    (hr : w.store.queue.unstakeQueueEntry.lookup head = some request)
    (hd : doWithdraw env request.user w = (.ok amount, w₁)) :
    LoopFunded env.self tail (u64Add head 1) (w₁.dequeued head request amount) := by
  refine ⟨h.loop.pay hlt hr hd, (h.amounts.withdraw hd).congr rfl rfl, ?_⟩
  obtain ⟨-, token, -, info, -, -, t, -, rfl⟩ := doWithdraw_ok.mp hd
  obtain ⟨rfl, hq⟩ := h.loop
  have hhead : u64Add head 1 = head + 1 := u64Add_one (Nat.lt_of_lt_of_le hlt hq.lined.bound)
  rintro user ⟨t, r, h1, h2, hr', rfl⟩
  simp only [World.dequeued, World.counted, World.afterPayout, Store.lookup_erase_eq, hhead]
    at h1 h2 hr'
  have hne : t ≠ head := Nat.ne_of_gt h1
  rw [if_neg hne] at hr'
  have huser : r.user ≠ request.user := by
    obtain ⟨r₁, hr₁, -, hu₁⟩ := hq.lined.waiting t (Nat.le_of_succ_le h1) h2
    obtain ⟨r₂, hr₂, -, hu₂⟩ := hq.lined.waiting head (Nat.le_refl _) hlt
    simp [hr', hr] at hr₁ hr₂
    subst hr₁ hr₂
    intro heq
    rw [heq, hu₂] at hu₁
    exact hne (Option.some.inj hu₁).symm
  change 0 < getStake { w.store with stake.stakesV2 := _ } r.user
  rw [getStake_insert, if_neg huser]
  exact h.funded _ ⟨t, r, Nat.le_of_succ_le h1, h2, hr', rfl⟩

theorem Funded.process {limit m h' : Nat} (h : Funded w) (ha : Amounts w.store)
    (hq : QueueOk env.self w)
    (hd : processLoop env limit w.store.queue.unstakeQueueTail
      (w.store.queue.unstakeQueueTail - w.store.queue.unstakeQueueHead) 0
      w.store.queue.unstakeQueueHead w = (.ok (m, h'), w₁)) :
    Funded { w₁ with store.queue.unstakeQueueHead := h' } := by
  obtain ⟨m', h₂, w₂, hr, hok⟩ := processLoop_rule env limit
    w.store.queue.unstakeQueueTail
    (w.store.queue.unstakeQueueTail - w.store.queue.unstakeQueueHead) 0
    (P := LoopFunded env.self w.store.queue.unstakeQueueTail)
    (fun head w₂ h₂ hlt hn => by
      obtain ⟨r, hr, -⟩ := h₂.loop.queue.lined.waiting head (Nat.le_refl _) (h₂.loop.tail ▸ hlt)
      simp only [hn] at hr
      cases hr)
    (fun _ _ _ _ _ h₂ hlt hr hw => h₂.pay hlt hr hw) ⟨⟨rfl, hq⟩, ha, h⟩
  rw [hr] at hd
  cases hd
  exact hok.funded

/-- A call that spares those who wait, if it goes through, leaves everyone in the line a stake. -/
theorem Funded.invoke (env : Env τ) (h : Funded w) (ha : Amounts w.store) (hq : QueueOk env.self w)
    (hs : (∃ w₁, invoke env c w = (.ok (), w₁)) → Spares env w c) :
    Funded ((invoke env c).exec w) := by
  rcases Tx.exec_cases (StakeVault.invoke env c) w with ⟨u, hu⟩ | hu
  · by_cases hc : c.Queues
    · cases c with
      | queueUnstake =>
        obtain ⟨n, hn⟩ := Tx.void_ok.mp hu
        exact h.enqueue ha hn
      | processUnstakeQueue limit =>
        have he := invoke_effect env (.processUnstakeQueue limit) w
        generalize (StakeVault.invoke env (.processUnstakeQueue limit)).exec w = w' at he
        cases he with
        | rejected => exact h
        | aside hf => exact absurd (hf .stake (by simp [books])) (by simp [Call.footprint])
        | process _ hd => exact h.process ha hq hd
        | reward hf => simp [Call.footprint] at hf
      | _ => exact hc.elim
    · have hqueue : ((StakeVault.invoke env c).exec w).store.queue = w.store.queue := by
        refine ((invoke_writes env c).exec w).queue ?_
        cases c <;> first | exact absurd trivial hc | simp [Call.footprint]
      intro user hl
      have hl' := hl.congr hqueue
      exact (hs ⟨_, hu⟩).keeps ha hc hl' (h user hl') (invoke_effect env c w)
  · rw [hu]; exact h

theorem checkTimelock_ne_noStake {amount : Int} {now : Nat} :
    (checkTimelock staker amount now : V τ Bool) w ≠ (.error (err .noStake), w') := by
  unfold checkTimelock
  split <;> simp

theorem doWithdrawLocked_noStake (h : doWithdrawLocked env staker w = (.error (err .noStake), w')) :
    getStake w.store staker = 0 := by
  simp [doWithdrawLocked, checkTimelock_ok] at h
  obtain ⟨token, -, ⟨hn, -⟩ | ⟨info, hi, ⟨h0, -⟩ | ⟨-, -, -, ht | ⟨-, f, -, hf⟩⟩⟩⟩ := h
  · simp [getStake, hn]
  · simp [getStake, hi, h0]
  · exact absurd ht checkTimelock_ne_noStake
  · cases hc : classify f <;> simp [hc, StakeVaultError.ofTokenFailure] at hf

/-- A withdrawal fails for lack of a stake only where there is none. -/
theorem doWithdraw_noStake (h : doWithdraw env staker w = (.error (err .noStake), w')) :
    getStake w.store staker = 0 := by
  unfold doWithdraw withWithdrawLock at h
  simp [Tx.attempt_error, Tx.attempt_ok] at h
  obtain ⟨-, r, w₁, ⟨a, rfl, -⟩ | ⟨x, rfl, hx⟩, hr, -⟩ := h
  · cases hr
  · cases hr
    exact (doWithdrawLocked_noStake hx :)

end Queue

/-! ## Runs -/

section Runs

variable {T : Tokens τ} {self : Address} {ledger : Ledger} {token : τ} {w : World τ}

theorem funded_of_sparing (h : Reaches (SparingStep T self) (World.deployed ledger token) w) :
    Reachable T self w ∧ Funded w := by
  refine h.invariant (I := fun w => Reachable T self w ∧ Funded w)
    ⟨⟨ledger, token, .refl _⟩, ?_⟩ ?_
  · rintro user ⟨t, r, -, -, hr, -⟩
    cases hr
  · rintro a ev b ⟨⟨ledger, token, ha⟩, hf⟩ ⟨⟨hal, hs⟩, rfl⟩
    have hreach : Reachable T self a := ⟨ledger, token, ha⟩
    refine ⟨⟨ledger, token, ha.tail ⟨hal, rfl⟩⟩, ?_⟩
    cases ev with
    | call auth =>
      exact Funded.invoke ⟨T, self, auth⟩ hf hreach.amounts hreach.queueOk hs
    | advance | external => exact hf

/-- In every run whose calls spare those who wait, everyone in the line has a stake, and no
withdrawal of theirs fails for lack of one. -/
theorem no_dead_head (h : Reaches (SparingStep T self) (World.deployed ledger token) w) (t : Nat)
    (r : UnstakeRequest) (h1 : w.store.queue.unstakeQueueHead ≤ t)
    (h2 : t < w.store.queue.unstakeQueueTail)
    (hr : w.store.queue.unstakeQueueEntry.lookup t = some r) :
    0 < getStake w.store r.user ∧ ∀ env w', doWithdraw env r.user w ≠ (.error (err .noStake), w') := by
  have hpos := (funded_of_sparing h).2 r.user ⟨t, r, h1, h2, hr, rfl⟩
  refine ⟨hpos, fun env w' hd => ?_⟩
  have h0 := doWithdraw_noStake hd
  omega

end Runs

open Sample in
/-- `alice` is slashed while she waits. -/
def slashedInLine : List (Event Unit) :=
  [call (.initializeVault admin stakeToken registry), call (.depositStake alice 100),
    call (.queueUnstake alice), call (.slashStake registry alice .minor "")]

open Sample in
/-- There is something left for her turn. -/
theorem no_dead_head_slashed :
    0 < getStake (run freeTokens vault (World.deployed ⟨0, 0⟩ ()) slashedInLine).store alice := by
  have hs : Reaches.Along (next freeTokens vault) (SparingEvent freeTokens vault)
      (World.deployed ⟨0, 0⟩ ()) slashedInLine := by
    refine ⟨⟨by decide, fun _ => trivial⟩, ⟨by decide, fun _ => trivial⟩,
      ⟨by decide, fun _ => trivial⟩, ⟨by decide, fun _ _ info hi => ?_⟩, trivial⟩
    have hl : (run freeTokens vault (World.deployed ⟨0, 0⟩ ())
        (slashedInLine.take 3)).store.stake.stakesV2.lookup alice = some ⟨100, 0, 0⟩ := by
      decide +kernel
    have hinfo := hl.symm.trans hi.staked
    cases hinfo
    decide +kernel
  exact (no_dead_head (Reaches.of_along hs) 0 ⟨0, alice, 0⟩ (by decide +kernel)
    (by decide +kernel) (by decide +kernel)).1

/-! ## A withdrawal out of the line -/

open Sample in
/-- `alice` and `bob` wait, and `alice` withdraws her stake directly. -/
def withdrawnInLine : List (Event Unit) :=
  [call (.initializeVault admin stakeToken registry), call (.depositStake alice 100),
    call (.depositStake bob 50), call (.queueUnstake alice), call (.queueUnstake bob),
    .advance ⟨5, 1⟩, call (.withdrawStake alice)]

open Sample in
/-- The request at the head has no stake behind it, and the one behind it is not paid. -/
theorem withdrawal_leaves_a_dead_head :
    (∃ w : World Unit, Reachable freeTokens vault w ∧ w.InLine alice ∧ w.InLine bob ∧
      0 < getStake w.store bob ∧ (processUnstakeQueue free 100 w).1 = .ok 0) ∧
    ¬ ∀ w : World Unit, Reachable freeTokens vault w → ∀ user, w.InLine user → 0 < getStake w.store user := by
  have hreach : Reachable freeTokens vault (run freeTokens vault (World.deployed ⟨0, 0⟩ ())
      withdrawnInLine) := reachable_run _ _ (by decide +kernel)
  have halice : (run freeTokens vault (World.deployed ⟨0, 0⟩ ()) withdrawnInLine).InLine alice :=
    ⟨0, ⟨0, alice, 0⟩, by decide +kernel, by decide +kernel, by decide +kernel, rfl⟩
  have hbob : (run freeTokens vault (World.deployed ⟨0, 0⟩ ()) withdrawnInLine).InLine bob :=
    ⟨1, ⟨1, bob, 0⟩, by decide +kernel, by decide +kernel, by decide +kernel, rfl⟩
  refine ⟨⟨_, hreach, halice, hbob, by decide +kernel, by decide +kernel⟩, fun h => ?_⟩
  exact absurd (h _ hreach alice halice) (by decide +kernel)

end CallStake.StakeVault
