import CallStake.StakeVault.Amounts
import CallStake.StakeVault.Settings

/-!
# Solvency

The stake tokens of the vault against what it owes: own stakes, delegated stakes and held slashes.

* `Sound`: the calls that keep the two sides equal. A reversal must have funds to give back, a batch
  must not swallow a refused burn, and a slash must not reuse the id of held funds.
* `Solvent.effect` is the step, `vault_solvent` the run.
-/

namespace CallStake.StakeVault

open Store

variable {τ : Type}

/-! ## What the vault owes -/

def stakedTotal (s : StakeStorage) : Int := s.stakesV2.total (·.balance)

def delegatedTotal (s : StakeStorage) : Int := s.providerDelegatedStakes.total (Store.total id)

def heldTotal (s : SlashStorage) : Int := s.slashedFundsHeld.total id

/-- The sum of the three ledgers. Each operation changes it by what it moves (`liabilities_slashed` for a slash). -/
def liabilities (s : Storage) : Int := stakedTotal s.stake + delegatedTotal s.stake + heldTotal s.slash

section Totals

variable {s : StakeStorage} {provider : Address} {info : StakeInfoV2} {bps now : Nat}

theorem part_balance (stakes : Store Address StakeInfoV2) (a : Address) :
    Store.part (·.balance) stakes a = (infoOf stakes a).balance := by
  unfold Store.part infoOf; cases stakes.lookup a <;> rfl

theorem part_delegations (s : StakeStorage) (p : Address) :
    Store.part (Store.total id) s.providerDelegatedStakes p = (delegationsOf s p).total id := by
  unfold Store.part delegationsOf; cases s.providerDelegatedStakes.lookup p <;> rfl

theorem part_held (s : SlashStorage) (slashId : Nat) :
    Store.part id s.slashedFundsHeld slashId = heldFor s slashId := part_id _ _

theorem infoOf_eq (h : s.stakesV2.lookup provider = some info) :
    infoOf s.stakesV2 provider = info := by simp [infoOf, h]

theorem StakesOk.all_balance (h : StakesOk s) : s.stakesV2.All (0 ≤ ·.balance) := h.balances.mono fun _ hb => hb.1

theorem StakesOk.all_delegations (h : StakesOk s) :
    s.providerDelegatedStakes.All fun d => 0 ≤ Store.total id d := by
  intro p d hd
  have hp := h.delegated p
  rw [delegationsOf, hd] at hp
  exact total_nonneg hp

/-- What one provider has is at most what all have. -/
theorem StakesOk.part_le (h : StakesOk s) (p : Address) :
    (infoOf s.stakesV2 p).balance ≤ stakedTotal s ∧ totalDelegatedOf s p ≤ delegatedTotal s := by
  constructor
  · rw [← part_balance]; exact part_le_total h.all_balance p
  · rw [h.cached, ← part_delegations]; exact part_le_total h.all_delegations p

theorem Amounts.held_le {s : Storage} (h : Amounts s) (slashId : Nat) :
    0 ≤ heldTotal s.slash ∧ heldFor s.slash slashId ≤ heldTotal s.slash := by
  have hall : s.slash.slashedFundsHeld.All (fun a => 0 ≤ id a) := h.slashes.held.mono fun _ ha => Int.le_of_lt ha
  refine ⟨total_nonneg hall, ?_⟩
  rw [← part_held]; exact part_le_total hall slashId

/-- A slash takes its own and its delegated part off the books. -/
theorem liabilities_slashed (h : StakesOk s) (hi : s.stakesV2.lookup provider = some info)
    (now bps : Nat) :
    stakedTotal (s.slashed now provider bps info) +
        delegatedTotal (s.slashed now provider bps info) =
      stakedTotal s + delegatedTotal s -
        (ownSlash info.balance bps + (slashDelegations bps (delegationsOf s provider)).2) := by
  have hst := (h.slashed_eq now bps hi).1
  have hs := h.slashing provider bps
  have hc := hs.conserved
  have ht := hs.taken
  have hdel : delegatedTotal (s.slashed now provider bps info) =
      delegatedTotal s - (slashDelegations bps (delegationsOf s provider)).2 := by
    unfold delegatedTotal StakeStorage.slashed
    by_cases hpos : 0 < (slashDelegations bps (delegationsOf s provider)).2
    · simp only [if_pos hpos]
      rw [total_insert, part_delegations, ← h.cached]
      omega
    · simp only [if_neg hpos]
      omega
  have hown : stakedTotal (s.slashed now provider bps info) =
      stakedTotal s - ownSlash info.balance bps := by
    unfold stakedTotal
    rw [hst, total_insert, part_balance, infoOf_eq hi]
    simp only
    omega
  omega

end Totals

/-! ## The calls that keep the vault solvent -/

/-- A slash that holds its funds does not find others under its id. Before the counter has reached
its largest value this is so of itself. -/
def World.IdFree (w : World τ) : Prop :=
  0 < w.store.config.appealWindowSecs → w.store.slash.slashCounter = u64Max →
    w.store.slash.slashedFundsHeld.lookup u64Max = none

/-- A reversal of a pending appeal finds the funds of the slash. -/
def World.Backed (w : World τ) (slashId : Nat) (uphold : Bool) : Prop :=
  uphold = false → ∀ record appeal, Resolvable w slashId record appeal → 0 < heldFor w.store.slash slashId

/-- The calls with which tokens and books move together. The reward vault is left out: it may hold
the same token. -/
def Sound (env : Env τ) (w : World τ) : Call → Prop
  | .slashStake .. => w.IdFree
  | .batchSlashStake _ providers severities reason =>
    ∀ w₁ provider severity,
      (w₁, provider, severity) ∈ slashWorlds env reason w (providers.zip severities) →
      w₁.IdFree ∧ ¬ SlashRefused env w₁ provider severity
  | .resolveAppeal slashId uphold => w.Backed slashId uphold
  | .batchResolveAppeal slashIds upholds =>
    ∀ w₁ slashId uphold, (w₁, slashId, uphold) ∈ resolveWorlds env w (slashIds.zip upholds) →
      w₁.Backed slashId uphold ∧ ¬ UpholdRefused env w₁ slashId uphold
  | .executeAction _ proposalId =>
    ∀ slashId uphold, Executable w proposalId (.resolveAppeal slashId uphold) → w.Backed slashId uphold
  | .depositReward .. | .batchClaimRewards .. => False
  | _ => True

/-- An allowed event: calls are sound, and nobody else moves stake tokens of the vault. -/
def SoundEvent (T : Tokens τ) (self : Address) (w : World τ) (ev : Event τ) : Prop :=
  Allowed self w ev ∧
    match ev with
    | .call auth c => Sound ⟨T, self, auth⟩ w c
    | .advance _ => True
    | .external t => ∀ token, w.store.config.stakeToken = some token →
      T.balance token self t = T.balance token self w.token

def SoundStep (T : Tokens τ) (self : Address) (w : World τ) (ev : Event τ) (w' : World τ) : Prop :=
  SoundEvent T self w ev ∧ w' = next T self w ev

/-- A vault that was just deployed and initialized. -/
def World.initialized (ledger : Ledger) (t : τ) (admin stakeToken registry : Address) : World τ :=
  (initializeVault admin stakeToken registry).exec (World.deployed ledger t)

/-! ## The invariant -/

/-- The tokens are what the vault owes, and the vault is not among its own stakers. -/
structure Solvent (T : Tokens τ) (vault stakeToken : Address) (w : World τ) : Prop where
  token : w.store.config.stakeToken = some stakeToken
  amounts : Amounts w.store
  notSelf : w.store.stake.stakesV2.lookup vault = none
  records : w.store.slash.slashRecord.All fun record => record.provider ≠ vault
  balance : T.balance stakeToken vault w.token = liabilities w.store

section Steps

variable {T : Tokens τ} {self token : Address} {auth : Auth} {w w' : World τ} {t : τ}
  {a provider : Address} {amount : Int} {severity : SlashSeverity} {reason : Symbol}
  {slashId : Nat} {uphold : Bool}

theorem balance_in (hT : T.Exact) (ht : T.transfer token a self amount w.token = .ok t)
    (hne : a ≠ self) : T.balance token self t = T.balance token self w.token + amount := by
  have h := hT.transfer ht token self
  simp [Ne.symm hne] at h
  omega

theorem balance_out (hT : T.Exact) (ht : T.transfer token self a amount w.token = .ok t)
    (hne : a ≠ self) : T.balance token self t = T.balance token self w.token - amount := by
  have h := hT.transfer ht token self
  simp [Ne.symm hne] at h
  omega

theorem balance_burned (hT : T.Exact) (ht : T.burn token self amount w.token = .ok t) :
    T.balance token self t = T.balance token self w.token - amount := by
  have h := hT.burn ht token self
  simpa using h

theorem Solvent.ne_self {info : StakeInfoV2} (h : Solvent T self token w)
    (hs : w.store.stake.stakesV2.lookup a = some info) : a ≠ self := by
  rintro rfl
  rw [h.notSelf] at hs
  cases hs

/-- What one provider has, own and delegated, and one hold fit in 128 bits together: the vault has
the tokens. -/
theorem Solvent.fits (hT : T.Exact) (h : Solvent T self token w) (p : Address) (slashId : Nat) :
    (infoOf w.store.stake.stakesV2 p).balance + totalDelegatedOf w.store.stake p +
      heldFor w.store.slash slashId ≤ i128Max := by
  have hp := h.amounts.stakes.part_le p
  have hh := h.amounts.held_le slashId
  have hb := h.balance
  have hm := hT.le_max token self w.token
  unfold liabilities at hb
  omega

/-- The books of a slash, before its tokens move. -/
theorem Solvent.slashed {info : StakeInfoV2} (hT : T.Exact) (h : Solvent T self token w)
    (hs : Slashable w provider info) (severity : SlashSeverity) (reason : Symbol) :
    w.slashAmount provider severity info + liabilities (w.slashed provider severity reason info).store
      = liabilities w.store ∧
    (w.slashed provider severity reason info).store.stake.stakesV2.lookup self = none ∧
    (w.slashed provider severity reason info).store.slash.slashRecord.All
      (fun record => record.provider ≠ self) := by
  have hok := h.amounts.stakes
  have hne := h.ne_self hs.staked
  have hfit := h.fits hT provider 0
  rw [infoOf_eq hs.staked] at hfit
  have h0 : 0 ≤ heldFor w.store.slash 0 := by
    rw [← part_held]; exact part_nonneg (h.amounts.slashes.held.mono fun _ ha => Int.le_of_lt ha) 0
  have hamt : w.slashAmount provider severity info = _ :=
    hok.slashAmount_eq (w.slashBps severity) hs.staked hs.nonzero (by omega)
  have hl := liabilities_slashed hok hs.staked w.ledger.timestamp (w.slashBps severity)
  refine ⟨?_, ?_, ?_⟩
  · rw [hamt]
    unfold liabilities heldTotal
    simp only [World.slashed]
    omega
  · change ((w.store.stake.slashed _ _ _ _).stakesV2).lookup self = none
    rw [(hok.slashed_eq _ _ hs.staked).1, lookup_insert_eq, if_neg (Ne.symm hne)]
    exact h.notSelf
  · exact h.records.insert hne

theorem Solvent.slashEffect (hT : T.Exact) (h : Solvent T self token w) (hid : w.IdFree)
    (hr : ¬ SlashRefused ⟨T, self, auth⟩ w provider severity)
    (he : SlashEffect ⟨T, self, auth⟩ provider severity reason w w') : Solvent T self token w' := by
  have hamt := h.amounts.slashEffect he
  cases he with
  | failed => exact h
  | @held info hs hwin =>
    obtain ⟨hl, hself, hrec⟩ := h.slashed hT hs severity reason
    have hfree : w.store.slash.slashedFundsHeld.lookup w.store.slash.slashCounter = none := by
      cases hx : w.store.slash.slashedFundsHeld.lookup w.store.slash.slashCounter with
      | none => rfl
      | some b =>
        rcases h.amounts.slashes.numbered _ _ hx with hlt | ⟨-, hmax⟩
        · exact absurd hlt (Nat.lt_irrefl _)
        · have := hid hwin hmax
          rw [← hmax, hx] at this
          cases this
    refine ⟨h.token, hamt, hself, hrec, ?_⟩
    change T.balance token self w.token = _
    rw [h.balance, ← hl]
    unfold liabilities heldTotal
    simp only [World.hold, World.slashed]
    rw [total_insert, part_none hfree]
    simp only [id]
    omega
  | @burned token' info t htok hs ht =>
    obtain ⟨hl, hself, hrec⟩ := h.slashed hT hs severity reason
    rw [h.token] at htok
    cases htok
    refine ⟨h.token, hamt, hself, hrec, ?_⟩
    change T.balance token self t = _
    rw [balance_burned hT ht, h.balance, ← hl]
    simp only [World.burned]
    omega
  | refused _ hx => exact absurd hx hr

/-- The own stake of one address is replaced, and the tokens follow. -/
theorem Solvent.setStake {w' : World τ} (h : Solvent T self token w) (ha : a ≠ self)
    (info : StakeInfoV2) (hamt : Amounts w'.store)
    (hcfg : w'.store.config = w.store.config) (hsl : w'.store.slash = w.store.slash)
    (hst : w'.store.stake = { w.store.stake with
      stakesV2 := w.store.stake.stakesV2.insert a info })
    (hb : T.balance token self w'.token = T.balance token self w.token -
      (infoOf w.store.stake.stakesV2 a).balance + info.balance) : Solvent T self token w' := by
  refine ⟨hcfg ▸ h.token, hamt, ?_, hsl ▸ h.records, ?_⟩
  · rw [hst]
    simp only
    rw [lookup_insert_eq, if_neg (Ne.symm ha)]
    exact h.notSelf
  · rw [hb, h.balance]
    unfold liabilities stakedTotal delegatedTotal
    rw [hst, hsl]
    simp only
    rw [total_insert, part_balance]
    omega

theorem Solvent.resolveEffect (hT : T.Exact) (h : Solvent T self token w)
    (hback : w.Backed slashId uphold) (hr : ¬ UpholdRefused ⟨T, self, auth⟩ w slashId uphold)
    (he : ResolveEffect ⟨T, self, auth⟩ slashId uphold w w') : Solvent T self token w' := by
  have hamt := h.amounts.resolveEffect he
  cases he with
  | failed => exact h
  | upheld => exact ⟨h.token, hamt, h.notSelf, h.records, h.balance⟩
  | @burned token' record appeal t htok _ _ ht =>
    rw [h.token] at htok
    cases htok
    refine ⟨h.token, hamt, h.notSelf, h.records, ?_⟩
    change T.balance token self t = _
    rw [balance_burned hT ht, h.balance]
    unfold liabilities heldTotal
    simp only [World.closed, World.burned, World.release]
    rw [total_erase, part_held]
    omega
  | @reversed record appeal hres h0 =>
    have hne := h.records _ _ hres.recorded
    have hfit := h.fits hT record.provider slashId
    have hb := h.amounts.stakes.infoOf_bounds record.provider
    have hd := total_nonneg (f := id) (h.amounts.stakes.delegated record.provider)
    rw [← h.amounts.stakes.cached] at hd
    refine ⟨h.token, hamt, ?_, h.records, ?_⟩
    · change (w.store.stake.stakesV2.insert _ _).lookup self = none
      rw [lookup_insert_eq, if_neg (Ne.symm hne)]
      exact h.notSelf
    · change T.balance token self w.token = _
      rw [h.balance]
      unfold liabilities stakedTotal delegatedTotal heldTotal
      simp only [World.closed, World.credited, World.release]
      rw [total_insert, total_erase, part_held, part_balance, saturatingAdd_part hb.1 (by omega) (by omega)]
      simp only
      omega
  | @unbacked record appeal hres hu h0 =>
    have := hback hu record appeal hres
    omega
  | refused hx => exact absurd hx hr

theorem Solvent.payout {info : StakeInfoV2} (hT : T.Exact) (h : Solvent T self token w)
    (hs : w.store.stake.stakesV2.lookup a = some info) (h0 : 0 ≤ amount)
    (hle : amount ≤ info.balance) (ht : T.transfer token self a amount w.token = .ok t)
    (auth : Auth) :
    Solvent T self token (w.afterPayout ⟨T, self, auth⟩ token a info amount t) := by
  have hne := h.ne_self hs
  refine h.setStake hne _ (h.amounts.payout hs h0 hle) rfl rfl rfl ?_
  rw [infoOf_eq hs]
  change T.balance token self t = _
  rw [balance_out hT ht hne]
  simp only
  omega

theorem Solvent.withdraw {n : Int} (hT : T.Exact) (h : Solvent T self token w)
    (hd : doWithdraw ⟨T, self, auth⟩ a w = (.ok n, w')) : Solvent T self token w' := by
  obtain ⟨-, token', htok, info, hw, rfl, t, ht, rfl⟩ := doWithdraw_ok.mp hd
  rw [h.token] at htok
  cases htok
  exact h.payout hT hw.staked (h.amounts.stakes.balances a info hw.staked).1 (Int.le_refl _) ht _

/-- Nothing but the queue, the guards, the emergency requests, the multi-sig, the rate limiter, the
rewards, the strategies and the log was written. -/
theorem Solvent.congr (h : Solvent T self token w) (hc : w'.store.config.stakeToken = some token)
    (hst : w'.store.stake = w.store.stake) (hsl : w'.store.slash = w.store.slash)
    (ht : T.balance token self w'.token = T.balance token self w.token) :
    Solvent T self token w' := by
  refine ⟨hc, h.amounts.congr hst hsl, hst ▸ h.notSelf, hsl ▸ h.records, ?_⟩
  rw [ht, h.balance]
  unfold liabilities
  rw [hst, hsl]

/-- An emergency unstake pays the whole stake, the penalty to nobody. -/
theorem Solvent.earlyUnstake {penaltyBps : Nat} (hT : T.Exact) (h : Solvent T self token w)
    (hd : EmergencyUnstake.executeEarlyUnstake ⟨T, self, auth⟩ a token penaltyBps w = (.ok (), w')) :
    Solvent T self token w' := by
  obtain ⟨info, hs, -, w₁, hb, ht⟩ := EmergencyUnstake.executeEarlyUnstake_ok.mp hd
  have hne := h.ne_self hs
  obtain ⟨h0, hmax⟩ := h.amounts.stakes.balances a info hs
  obtain ⟨hp0, hp1⟩ := EmergencyUnstake.penaltyOf_bounds penaltyBps h0
  rw [saturatingSub_part hp0 hp1 hmax] at ht
  have hb₁ : w₁.store = (EmergencyUnstake.World.emptied w a).store ∧ T.balance token self w₁.token =
      T.balance token self w.token - EmergencyUnstake.penaltyOf info.balance penaltyBps := by
    rcases EmergencyUnstake.burnIfPositive_ok.mp hb with ⟨-, t, hx, rfl⟩ | ⟨hz, rfl⟩
    · exact ⟨rfl, balance_burned hT hx⟩
    · exact ⟨rfl, by simp only [EmergencyUnstake.World.emptied]; omega⟩
  have hb₂ : w'.store = (EmergencyUnstake.World.emptied w a).store ∧ T.balance token self w'.token =
      T.balance token self w.token - info.balance := by
    rcases EmergencyUnstake.transferIfPositive_ok.mp ht with ⟨-, t, hx, rfl⟩ | ⟨hz, rfl⟩
    · refine ⟨hb₁.1, ?_⟩
      have hout : T.balance token self t = T.balance token self w₁.token - _ := balance_out hT hx hne
      simp only
      omega
    · exact ⟨hb₁.1, by omega⟩
  have hamt : Amounts w'.store := by
    rw [hb₂.1]
    exact h.amounts.emptied a
  refine h.setStake hne ⟨0, 0, w.ledger.timestamp⟩ hamt ?_ ?_ ?_ ?_
  · rw [hb₂.1]; rfl
  · rw [hb₂.1]; rfl
  · rw [hb₂.1]; rfl
  · rw [hb₂.2, infoOf_eq hs]
    simp only
    omega

/-- A sound call keeps the vault solvent. -/
theorem Solvent.effect {c : Call} (hT : T.Exact) (hauth : auth self = false)
    (h : Solvent T self token w) (hs : Sound ⟨T, self, auth⟩ w c)
    (hc : w'.store.config.stakeToken = some token) (he : Effect ⟨T, self, auth⟩ w c w') :
    Solvent T self token w' := by
  have hne : ∀ {b : Address}, auth b = true → b ≠ self := by
    rintro b hb rfl
    rw [hauth] at hb
    cases hb
  have hamt := h.amounts.effect he
  cases he with
  | rejected => exact h
  | aside hf hsame =>
    refine h.congr hc (hsame.stake (hf _ (by simp [books]))) (hsame.slash (hf _ (by simp [books]))) ?_
    rw [(hsame.token (hf _ (by simp [books]))).1]
  | @deposit staker token' amount t ha _ htok _ ht =>
    rw [h.token] at htok
    cases htok
    refine h.setStake (hne ha) _ hamt rfl rfl rfl ?_
    change T.balance token self t = _
    rw [balance_in hT ht (hne ha)]
    simp only
    omega
  | @delegate delegator provider token' amount t ha _ htok _ ht =>
    rw [h.token] at htok
    cases htok
    refine ⟨hc, hamt, h.notSelf, h.records, ?_⟩
    change T.balance token self t = _
    rw [balance_in hT ht (hne ha), h.balance]
    unfold liabilities stakedTotal delegatedTotal
    simp only [World.afterDelegation]
    rw [total_insert, part_delegations, total_insert, part_id]
    simp only [id]
    omega
  | @withdraw staker token' info t _ htok hw ht =>
    rw [h.token] at htok
    cases htok
    have hb := (h.amounts.stakes.balances staker info hw.staked).1
    exact (h.payout hT hw.staked hb (Int.le_refl _) ht auth).congr hc rfl rfl rfl
  | @part staker token' amount info t _ hpos htok hw hlt ht =>
    rw [h.token] at htok
    cases htok
    exact (h.payout hT hw.staked (by omega) (by omega) ht auth).congr hc rfl rfl rfl
  | @slash caller provider severity reason n w' hd =>
    have he := doSlash_effect ⟨T, self, auth⟩ provider severity reason w
    rw [hd] at he
    exact h.slashEffect hT hs (not_slashRefused_of_ok hd) he
  | batchSlash hd =>
    exact slashEntries_rule hd (fun w₁ p sev hm h₁ =>
      h₁.slashEffect hT (hs w₁ p sev hm).1 (hs w₁ p sev hm).2 (doSlash_effect _ p sev _ w₁)) h
  | appeal => exact ⟨hc, hamt, h.notSelf, h.records, h.balance⟩
  | @resolve slashId uphold w' _ hd =>
    have he := doResolveAppeal_effect ⟨T, self, auth⟩ slashId uphold w
    rw [hd] at he
    exact h.resolveEffect hT hs (not_upholdRefused_of_ok hd) he
  | batchResolve _ hd =>
    exact resolveEntries_rule hd (fun w₁ i u hm h₁ =>
      h₁.resolveEffect hT (hs w₁ i u hm).1 (hs w₁ i u hm).2 (doResolveAppeal_effect _ i u w₁)) h
  | execute _ hsame =>
    refine h.congr hc (hsame.stake (by simp)) (hsame.slash (by simp)) ?_
    rw [(hsame.token (by simp)).1]
  | @executeResolve _ _ slashId uphold _ w₁ hx hd =>
    have he := doResolveAppeal_effect ⟨T, self, auth⟩ slashId uphold w
    rw [hd] at he
    exact (h.resolveEffect hT (hs _ _ hx) (not_upholdRefused_of_ok hd) he).congr hc rfl rfl rfl
  | @emergency signer staker token' cfg req w₁ htok _ _ hd =>
    rw [h.token] at htok
    cases htok
    exact (h.earlyUnstake hT hd).congr hc rfl rfl rfl
  | approval => exact ⟨hc, hamt, h.notSelf, h.records, h.balance⟩
  | process _ hd =>
    obtain ⟨m, h', w₂, hr, h₂⟩ := processLoop_rule ⟨T, self, auth⟩ _ _ _ _
      (P := fun _ w => Solvent T self token w) (fun _ _ h₁ _ _ => h₁)
      (fun _ _ _ _ _ h₁ _ _ hw => (h₁.withdraw hT hw).congr (h₁.withdraw hT hw).token rfl rfl rfl) h
    rw [hr] at hd
    cases hd
    exact h₂.congr hc rfl rfl rfl
  | @reward c w' hf =>
    cases c
    case depositReward | batchClaimRewards => exact hs.elim
    all_goals simp [Call.footprint] at hf

theorem Solvent.next {ev : Event τ} (hT : T.Exact) (h : Solvent T self token w)
    (hi : w.store.config.initialized = true) (hev : SoundEvent T self w ev) :
    Solvent T self token (next T self w ev) ∧ (StakeVault.next T self w ev).store.config.initialized = true := by
  obtain ⟨hal, hs⟩ := hev
  cases ev with
  | call auth c =>
    have hid := (invoke_settings ⟨T, self, auth⟩ c w (.inl hi)).identity
    simp [ConfigStorage.identity] at hid
    obtain ⟨h1, -, h3, -⟩ := hid
    exact ⟨h.effect hT hal hs (h3.trans h.token) (invoke_effect ⟨T, self, auth⟩ c w), h1.trans hi⟩
  | advance => exact ⟨h.congr h.token rfl rfl rfl, hi⟩
  | external => exact ⟨h.congr h.token rfl rfl (hs token h.token), hi⟩

theorem Solvent.initialized {ledger : Ledger} {admin registry : Address}
    (h0 : T.balance token self t = 0) :
    Solvent T self token (World.initialized ledger t admin token registry) where
  token := rfl
  amounts := Amounts.congr (w := World.deployed ledger t) Amounts.deployed rfl rfl
  notSelf := rfl
  records := all_empty _
  balance := h0

/-- In every run of sound steps from a freshly initialized vault without tokens, the stake tokens of
the vault are the own stakes, the delegated stakes and the held slashes together. -/
theorem vault_solvent {ledger : Ledger} {admin stakeToken registry : Address} (hT : T.Exact)
    (h0 : T.balance stakeToken self t = 0)
    (hr : Reaches (SoundStep T self) (World.initialized ledger t admin stakeToken registry) w) :
    T.balance stakeToken self w.token =
      stakedTotal w.store.stake + delegatedTotal w.store.stake + heldTotal w.store.slash := by
  refine (hr.invariant (I := fun w => Solvent T self stakeToken w ∧
    w.store.config.initialized = true) ⟨.initialized h0, rfl⟩ ?_).1.balance
  rintro a ev b ⟨ha, hi⟩ ⟨hev, rfl⟩
  exact ha.next hT hi hev

end Steps

open Sample in
/-- A slash is held, appealed and reversed. -/
def heldThenReversed : List (Event Balances) :=
  [call (.setAppealWindow 1000), call (.depositStake alice 100), call (.delegateStake bob alice 50),
    call (.slashStake registry alice .critical ""), call (.appealSlash alice 0 ""),
    call (.resolveAppeal 0 false)]

open Sample in
/-- The vault holds what is staked, delegated and held. -/
theorem vault_solvent_reversed :
    (run Balances.tokens vault (World.initialized ⟨0, 0⟩ funds admin stakeToken registry)
      heldThenReversed).token.of stakeToken vault = 150 ∧
    stakedTotal (run Balances.tokens vault
        (World.initialized ⟨0, 0⟩ funds admin stakeToken registry) heldThenReversed).store.stake +
      delegatedTotal (run Balances.tokens vault
        (World.initialized ⟨0, 0⟩ funds admin stakeToken registry) heldThenReversed).store.stake +
      heldTotal (run Balances.tokens vault
        (World.initialized ⟨0, 0⟩ funds admin stakeToken registry) heldThenReversed).store.slash
      = 150 := by
  have hsound : Reaches.Along (next Balances.tokens vault) (SoundEvent Balances.tokens vault)
      (World.initialized ⟨0, 0⟩ funds admin stakeToken registry) heldThenReversed := by
    refine ⟨⟨by decide, trivial⟩, ⟨by decide, trivial⟩, ⟨by decide, trivial⟩,
      ⟨by decide, fun _ h => ?_⟩, ⟨by decide, trivial⟩, ⟨by decide, fun _ _ _ _ => ?_⟩, trivial⟩
    · revert h; decide +kernel
    · decide +kernel
  have hb : (run Balances.tokens vault (World.initialized ⟨0, 0⟩ funds admin stakeToken registry)
      heldThenReversed).token.of stakeToken vault = 150 := by decide +kernel
  have hs := vault_solvent Balances.tokens_exact (by decide +kernel) (Reaches.of_along hsound)
  exact ⟨hb, hs.symm.trans hb⟩

/-! ## A reversal without funds -/

open Sample in
/-- A slash without an appeal window is burned; opened afterwards, the window lets it be appealed
and reversed. -/
def burnedThenReversed : List (Event Balances) :=
  [call (.depositStake alice 100), call (.slashStake registry alice .critical ""),
    call (.setAppealWindow 1000), call (.appealSlash alice 0 ""), call (.resolveAppeal 0 false)]

open Sample in
/-- The vault then owes a stake for which it has no tokens. -/
theorem reversal_of_a_burned_slash_is_unbacked :
    Balances.tokens.Exact ∧ funds.of stakeToken vault = 0 ∧
    Reaches.Along (next Balances.tokens vault) (Allowed vault)
      (World.initialized ⟨0, 0⟩ funds admin stakeToken registry) burnedThenReversed ∧
    (run Balances.tokens vault (World.initialized ⟨0, 0⟩ funds admin stakeToken registry)
      burnedThenReversed).token.of stakeToken vault = 0 ∧
    liabilities (run Balances.tokens vault
      (World.initialized ⟨0, 0⟩ funds admin stakeToken registry) burnedThenReversed).store = 100 :=
  ⟨Balances.tokens_exact, by decide +kernel, by decide +kernel, by decide +kernel,
    by decide +kernel⟩

end CallStake.StakeVault
