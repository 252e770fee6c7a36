import CallStake.StakeVault.QueueStakes

/-!
# Who can lower a stake

The stake of a user is written by its withdrawals, by the queue, by slashes and appeals, and by emergency
unstakes that its user never signs.

* `Against`: the calls that others make to lower the stake of a user, with the right to make them.
* `stake_le_of_invoke`: any other call that the user did not sign leaves the stake at least as high, unless
  the user waits in the queue.
* `stake_kept`: so does every run of such calls, in which the user never gets in the line.
-/

namespace CallStake.StakeVault

variable {τ : Type}

/-- The registry slashes `user`, or the last approval of an emergency unstake of `user` is given. -/
def Against (env : Env τ) (w : World τ) (user : Address) : Call → Prop
  | .slashStake caller provider _ _ =>
    provider = user ∧ w.store.config.signalRegistry = some caller ∧ env.auth caller = true
  | .batchSlashStake caller providers _ _ =>
    user ∈ providers ∧ w.store.config.signalRegistry = some caller ∧ env.auth caller = true
  | .approveEmergencyUnstake signer staker => staker = user ∧ env.auth signer = true ∧
    ∃ cfg req, EmergencyUnstake.Approvable w signer user cfg req ∧ cfg.required ≤ req.approvals.length + 1
  | _ => False

/-! ## Slashes and appeals -/

section Calls

variable {env : Env τ} {c : Call} {w w₁ w' : World τ} {user provider staker : Address}
  {severity : SlashSeverity} {reason : Symbol} {slashId : Nat} {uphold : Bool}

theorem getStake_le_max (ha : Amounts w.store) : getStake w.store user ≤ i128Max := by
  unfold getStake
  cases hi : w.store.stake.stakesV2.lookup user with
  | none => exact show (0 : Int) ≤ i128Max by decide
  | some info => exact (ha.stakes.balances user info hi).2

theorem stake_eq_of_slash (ha : Amounts w.store) (hne : user ≠ provider)
    (he : SlashEffect env provider severity reason w w') : getStake w'.store user = getStake w.store user := by
  have hslashed : ∀ {info : StakeInfoV2}, Slashable w provider info →
      getStake (w.slashed provider severity reason info).store user = getStake w.store user := by
    intro info hs
    rw [(getStake_slashed ha user severity reason hs).1, if_neg hne]
  cases he with
  | failed => rfl
  | held hs | burned _ hs | refused hs => exact hslashed hs

/-- An appeal gives back, or leaves the stakes alone. -/
theorem stake_le_of_resolve (ha : Amounts w.store) (he : ResolveEffect env slashId uphold w w') :
    getStake w.store user ≤ getStake w'.store user := by
  have hcredit : ∀ {p : Address} {amount : Int}, 0 < amount →
      getStake w.store user ≤ getStake (w.credited p amount).store user := by
    intro p amount hpos
    have hmax : getStake w.store user ≤ i128Max := getStake_le_max ha
    rw [getStake_credited]
    split
    · unfold saturatingAdd clamp
      omega
    · exact le_rfl
  cases he with
  | failed | upheld | burned | refused => exact le_rfl
  | reversed _ h0 => exact hcredit h0
  | unbacked hr => exact hcredit (ha.slashes.recorded _ _ hr.recorded)

/-! ## The queue -/

/-- What the loop keeps for someone who does not wait. -/
structure LoopApart (vault : Address) (w : World τ) (user : Address) (head : Nat) (w₁ : World τ) : Prop where
  loop : LoopOk vault w.store.queue.unstakeQueueTail head w₁
  head : w.store.queue.unstakeQueueHead ≤ head
  entries (t : Nat) (r : UnstakeRequest) : w₁.store.queue.unstakeQueueEntry.lookup t = some r →
    w.store.queue.unstakeQueueEntry.lookup t = some r
  stake : getStake w₁.store user = getStake w.store user

theorem LoopApart.pay {head : Nat} {request : UnstakeRequest} {amount : Int} (hline : ¬ w.InLine user)
    {w₂ : World τ} (h : LoopApart env.self w user head w₁) (hlt : head < w.store.queue.unstakeQueueTail)
    (hr : w₁.store.queue.unstakeQueueEntry.lookup head = some request)
    (hd : doWithdraw env request.user w₁ = (.ok amount, w₂)) :
    LoopApart env.self w user (u64Add head 1) (w₂.dequeued head request amount) := by
  have hne : user ≠ request.user := by
    rintro rfl
    exact hline ⟨head, request, h.head, hlt, h.entries head request hr, rfl⟩
  have hhead : u64Add head 1 = head + 1 :=
    u64Add_one (Nat.lt_of_lt_of_le hlt (h.loop.tail ▸ h.loop.queue.lined.bound))
  refine ⟨h.loop.pay hlt hr hd, by have := h.head; omega, fun t r ht => ?_, ?_⟩
  all_goals obtain ⟨-, token, -, info, -, -, t', -, rfl⟩ := doWithdraw_ok.mp hd
  · simp only [World.dequeued, World.counted, World.afterPayout, Store.lookup_erase_eq] at ht
    split at ht
    · cases ht
    · exact h.entries t r ht
  · change getStake { w₁.store with stake.stakesV2 := _ } user = _
    rw [getStake_insert, if_neg hne]
    exact h.stake

theorem apart_of_process {limit m h' : Nat} (hline : ¬ w.InLine user) (hq : QueueOk env.self w)
    (hd : processLoop env limit w.store.queue.unstakeQueueTail
      (w.store.queue.unstakeQueueTail - w.store.queue.unstakeQueueHead) 0
      w.store.queue.unstakeQueueHead w = (.ok (m, h'), w₁)) : LoopApart env.self w user h' w₁ := by
  obtain ⟨m', h₂, w₂, hr, hok⟩ := processLoop_rule env limit
    w.store.queue.unstakeQueueTail
    (w.store.queue.unstakeQueueTail - w.store.queue.unstakeQueueHead) 0
    (P := LoopApart env.self w user)
    (fun head w₂ h₂ hlt hn => by
      obtain ⟨r, hr, -⟩ := h₂.loop.queue.lined.waiting head (Nat.le_refl _) (h₂.loop.tail ▸ hlt)
      simp only [hn] at hr
      cases hr)
    (fun _ _ _ _ _ h₂ hlt hr hw => h₂.pay hline hlt hr hw) ⟨⟨rfl, hq⟩, le_rfl, fun _ _ h => h, rfl⟩
  rw [hr] at hd
  cases hd
  exact hok

/-! ## One call -/

/-- A call that the user did not sign and that does not go against its stake. -/
theorem stake_le_of_invoke {u : Unit} (ha : Amounts w.store) (hq : QueueOk env.self w)
    (hline : ¬ w.InLine user) (hauth : env.auth user = false) (hnot : ¬ Against env w user c)
    (h : invoke env c w = (.ok u, w')) : getStake w.store user ≤ getStake w'.store user := by
  have hne {a : Address} (hsigned : env.auth a = true) : user ≠ a := by
    rintro rfl
    rw [hauth] at hsigned
    cases hsigned
  have hstake : ∀ {w' : World τ}, w'.store.stake = w.store.stake →
      getStake w.store user ≤ getStake w'.store user := by
    intro w' heq
    unfold getStake
    rw [heq]
  have hw : (invoke env c).exec w = w' := by rw [Tx.exec, h]
  have he := invoke_effect env c w
  rw [hw] at he
  cases he with
  | rejected | delegate | appeal | approval => exact le_rfl
  | aside hf hsame => exact hstake (hsame.stake (hf _ (by simp [books])))
  | deposit hsigned | withdraw hsigned | part hsigned =>
    change _ ≤ getStake { w.store with stake.stakesV2 := _ } user
    rw [getStake_insert, if_neg (hne hsigned)]
  | @slash caller provider severity reason n w' hd =>
    obtain ⟨_, hslash⟩ := Tx.void_ok.mp h
    obtain ⟨-, hcaller, hregistry, -⟩ := slashStake_ok.mp hslash
    have he := doSlash_effect env provider severity reason w
    rw [hd] at he
    refine le_of_eq (stake_eq_of_slash ha ?_ he).symm
    rintro rfl
    exact hnot ⟨rfl, hregistry, hcaller⟩
  | @batchSlash caller providers severities reason amounts w' hd =>
    obtain ⟨_, hslash⟩ := Tx.void_ok.mp h
    obtain ⟨hcaller, hregistry, -⟩ := batchSlashStake_ok.mp hslash
    have hkept := slashEntries_rule (P := fun w₁ => Amounts w₁.store ∧ getStake w₁.store user = getStake w.store user)
      hd ?_ ⟨ha, rfl⟩
    · exact le_of_eq hkept.2.symm
    rintro w₁ p sev hm ⟨ha₁, h₁⟩
    have he₁ := doSlash_effect env p sev reason w₁
    refine ⟨ha₁.slashEffect he₁, (stake_eq_of_slash ha₁ ?_ he₁).trans h₁⟩
    rintro rfl
    exact hnot ⟨(List.of_mem_zip (Reaches.mem_of_mem_visited hm)).1, hregistry, hcaller⟩
  | @resolve slashId uphold w' _ hd =>
    have he := doResolveAppeal_effect env slashId uphold w
    rw [hd] at he
    exact stake_le_of_resolve ha he
  | batchResolve _ hd =>
    refine (resolveEntries_rule (P := fun w₁ => Amounts w₁.store ∧ getStake w.store user ≤ getStake w₁.store user)
      hd ?_ ⟨ha, le_rfl⟩).2
    rintro w₁ i u - ⟨ha₁, h₁⟩
    have he₁ := doResolveAppeal_effect env i u w₁
    exact ⟨ha₁.resolveEffect he₁, h₁.trans (stake_le_of_resolve ha₁ he₁)⟩
  | execute _ hsame => exact hstake (hsame.stake (by simp))
  | @executeResolve _ _ slashId uphold _ w₁ _ hd =>
    have he := doResolveAppeal_effect env slashId uphold w
    rw [hd] at he
    have hres : getStake w.store user ≤ getStake w₁.store user := stake_le_of_resolve ha he
    exact hres
  | @emergency signer staker token cfg req w₁ _ hap hreq hd =>
    obtain ⟨hsigner, -⟩ := EmergencyUnstake.approveEmergencyUnstake_ok h
    obtain ⟨info, -, -, w₂, hb, ht⟩ := EmergencyUnstake.executeEarlyUnstake_ok.mp hd
    have hstaker : user ≠ staker := by
      rintro rfl
      exact hnot ⟨rfl, hsigner, cfg, req, hap, hreq⟩
    have hempty : getStake w.store user ≤ getStake (EmergencyUnstake.World.emptied w staker).store user := by
      change _ ≤ getStake { w.store with stake.stakesV2 := _ } user
      rw [getStake_insert, if_neg hstaker]
    have h₂ : getStake w.store user ≤ getStake w₂.store user := by
      rcases EmergencyUnstake.burnIfPositive_ok.mp hb with ⟨-, t, -, rfl⟩ | ⟨-, rfl⟩ <;> exact hempty
    rcases EmergencyUnstake.transferIfPositive_ok.mp ht with ⟨-, t, -, rfl⟩ | ⟨-, rfl⟩ <;> exact h₂
  | process _ hd => exact le_of_eq (apart_of_process hline hq hd).stake.symm
  | reward _ hsame => exact hstake (hsame.stake (by simp))

/-- Nobody gets in the line without signing for it. -/
theorem not_inLine_of_invoke {u : Unit} (hq : QueueOk env.self w) (hline : ¬ w.InLine user)
    (hauth : env.auth user = false) (h : invoke env c w = (.ok u, w')) : ¬ w'.InLine user := by
  by_cases hc : c.Queues
  · cases c with
    | queueUnstake =>
      obtain ⟨n, hn⟩ := Tx.void_ok.mp h
      obtain ⟨hsigned, -, -, info, -, -, -, -, rfl⟩ := queueUnstake_ok.mp hn
      rintro ⟨t, r, h1, h2, hr, rfl⟩
      have hlt : t < w.store.queue.unstakeQueueTail + 1 := Nat.lt_of_lt_of_le h2 (Nat.min_le_left _ _)
      simp only [World.enqueued, Store.lookup_insert_eq] at h1 hr
      split at hr
      · cases hr
        exact Bool.false_ne_true (hauth.symm.trans hsigned)
      · exact hline ⟨t, r, h1, by omega, hr, rfl⟩
    | processUnstakeQueue =>
      obtain ⟨n, hn⟩ := Tx.void_ok.mp h
      rcases processUnstakeQueue_ok hn with rfl | ⟨-, m, h', w₁, hd, rfl⟩
      · exact hline
      · have hapart := apart_of_process hline hq hd
        rintro ⟨t, r, h1, h2, hr, rfl⟩
        refine hline ⟨t, r, hapart.head.trans h1, ?_, hapart.entries t r hr, rfl⟩
        rw [← hapart.loop.tail]
        exact h2
    | _ => exact hc.elim
  · intro hl
    refine hline (hl.congr (((invoke_writes env c).of_run h).queue ?_))
    cases c <;> first | exact absurd trivial hc | simp [Call.footprint]

end Calls

/-! ## Runs -/

/-- The event is no call that `user` signed, or that goes against its stake. -/
def Elsewhere (T : Tokens τ) (self user : Address) (w : World τ) : Event τ → Prop
  | .call auth c => auth user = false ∧ ¬ Against ⟨T, self, auth⟩ w user c
  | .advance _ | .external _ => True

section Runs

variable {T : Tokens τ} {self user : Address} {w w' : World τ}

/-- From any reachable state in which a user does not wait for an unstake: as long as the user signs nothing, and
is neither slashed by the registry nor unstaked by an emergency that enough of its admins approved, whatever
else is called in whatever order, its stake never shrinks and it never gets in the line. -/
theorem stake_kept (h : Reachable T self w) (hline : ¬ w.InLine user)
    (hrun : Reaches (fun a ev b => Elsewhere T self user a ev ∧ Step T self a ev b) w w') :
    getStake w.store user ≤ getStake w'.store user ∧ ¬ w'.InLine user := by
  obtain ⟨ledger, token, h⟩ := h
  refine (hrun.invariant (I := fun a => Reaches (Step T self) (World.deployed ledger token) a ∧
    getStake w.store user ≤ getStake a.store user ∧ ¬ a.InLine user) ⟨h, le_rfl, hline⟩ ?_).2
  rintro a ev b ⟨hreach, hstake, hout⟩ ⟨hev, hs⟩
  have ha : Reachable T self a := ⟨ledger, token, hreach⟩
  refine ⟨hreach.tail hs, ?_⟩
  obtain ⟨-, rfl⟩ := hs
  cases ev with
  | call auth c =>
    rcases Tx.exec_cases (invoke ⟨T, self, auth⟩ c) a with ⟨u, hr⟩ | hsame
    · have hle := stake_le_of_invoke ha.amounts ha.queueOk hout hev.1 hev.2 hr
      exact ⟨hstake.trans hle, not_inLine_of_invoke ha.queueOk hout hev.1 hr⟩
    · have hnext : next T self a (.call auth c) = a := hsame
      rw [hnext]
      exact ⟨hstake, hout⟩
  | advance | external => exact ⟨hstake, hout⟩

end Runs

namespace Sample

/-- Alice and Bob hold a stake. -/
def bothStaked : World Unit := started freeTokens () [call (.depositStake alice 100), call (.depositStake bob 50)]

/-- A call that everyone but the vault and Alice authorized. -/
def others (c : Call) : Event Unit := .call (fun a => a ≠ vault ∧ a ≠ alice) c

/-- Bob waits in the queue and is slashed, and someone signs for Alice in vain. -/
def withoutAlice : List (Event Unit) :=
  [others (.queueUnstake bob), others (.slashStake registry bob .minor ""), others (.withdrawStake alice),
    others (.queueUnstake alice), .advance ⟨1000000, 1000⟩, others (.processUnstakeQueue 10)]

/-- Her stake is what it was, and Bob's is less. -/
theorem alice_keeps_her_stake : 100 ≤ getStake (run freeTokens vault bothStaked withoutAlice).store alice ∧
    getStake (run freeTokens vault bothStaked withoutAlice).store bob < 50 := by
  have hline : ¬ bothStaked.InLine alice := by
    rintro ⟨t, r, -, ht, -⟩
    have htail : bothStaked.store.queue.unstakeQueueTail = 0 := by decide +kernel
    omega
  have hstake : getStake bothStaked.store alice = 100 := by decide +kernel
  have hrun : Reaches.Along (next freeTokens vault) (fun a ev => Elsewhere freeTokens vault alice a ev ∧
      Allowed vault a ev) bothStaked withoutAlice := by
    refine ⟨⟨⟨by decide, ?_⟩, by decide⟩, ⟨⟨by decide, ?_⟩, by decide⟩, ⟨⟨by decide, ?_⟩, by decide⟩,
      ⟨⟨by decide, ?_⟩, by decide⟩, ⟨trivial, by decide +kernel⟩, ⟨⟨by decide, ?_⟩, by decide⟩, trivial⟩
    case refine_2 => exact fun hagainst => absurd hagainst.1 (by decide)
    all_goals exact id
  refine ⟨?_, by decide +kernel⟩
  rw [← hstake]
  exact (stake_kept (reachable_run freeTokens vault (by decide +kernel)) hline ((Reaches.of_along hrun).mono
    fun _ _ _ ⟨⟨hev, hal⟩, he⟩ => ⟨hev, hal, he⟩)).1

end Sample

end CallStake.StakeVault
