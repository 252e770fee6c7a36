import CallStake.StakeVault.Amounts

/-!
# Reversing a slash

A slash that is held, appealed and reversed, against the stakes before it. The hold and the record
keep only the sum of what was taken from the provider and from its delegators, and the reversal
credits that sum to the provider.

* `Pending`: what any steps that leave the provider alone keep of a slash (`Pending.next`,
  `Pending.run`).
* `reversal_credits_the_provider`: where the funds of the slash go, and that the reversal restores the
  stakes iff no delegator had anything.
-/

namespace CallStake.StakeVault

variable {τ : Type}

/-- The own stake of `provider` and the stakes delegated to it are the same. -/
structure SameStake (provider : Address) (s s' : Storage) : Prop where
  own : getStake s' provider = getStake s provider
  delegated : ∀ d, getDelegatedStake s' d provider = getDelegatedStake s d provider
  total : getTotalDelegated s' provider = getTotalDelegated s provider

theorem SameStake.trans {provider : Address} {s s' s'' : Storage} (h : SameStake provider s s')
    (h' : SameStake provider s' s'') : SameStake provider s s'' :=
  ⟨h'.own.trans h.own, fun d => (h'.delegated d).trans (h.delegated d), h'.total.trans h.total⟩

/-! ## What is kept of a slash -/

/-- Under `slashId` is the record `record` with its funds, if they are still held, or the record of
another provider that took the id over. -/
structure Pending (provider : Address) (slashId : Nat) (record : SlashRecord) (s : SlashStorage) :
    Prop where
  numbered : slashId < s.slashCounter ∨ s.slashCounter = u64Max
  kept : (s.slashRecord.lookup slashId = some record ∧
      ∀ a, s.slashedFundsHeld.lookup slashId = some a → a = record.slashAmount) ∨
    (slashId = u64Max ∧ ∃ r, s.slashRecord.lookup slashId = some r ∧ r.provider ≠ provider)

section Steps

variable {env : Env τ} {w w' : World τ} {provider q : Address} {severity : SlashSeverity}
  {reason : Symbol} {slashId : Nat} {uphold : Bool} {record : SlashRecord}

/-- Only the last id is given out again. -/
theorem Pending.eq_max {s : SlashStorage} (h : Pending provider slashId record s)
    (heq : slashId = s.slashCounter) : slashId = u64Max := by
  rcases h.numbered with hlt | hmax
  · exact absurd heq (Nat.ne_of_lt hlt)
  · exact heq.trans hmax

/-- The books of a slash of another provider. -/
theorem Pending.slashed (h : Pending provider slashId record w.store.slash) (hne : provider ≠ q)
    (severity : SlashSeverity) (reason : Symbol) (info : StakeInfoV2) :
    Pending provider slashId record (w.slashed q severity reason info).store.slash := by
  refine ⟨?_, ?_⟩
  · change slashId < u64Add w.store.slash.slashCounter 1 ∨ u64Add w.store.slash.slashCounter 1 = _
    rcases h.numbered with hlt | hmax
    · exact (u64Add_one_cases _).imp (Nat.lt_trans hlt) id
    · exact .inr (by rw [hmax, u64Add_max])
  · simp only [World.slashed, Store.lookup_insert_eq]
    split
    · rename_i heq
      exact .inr ⟨h.eq_max heq, _, rfl, Ne.symm hne⟩
    · exact h.kept

/-- One slash: it lowers the stake of `provider`, or it leaves that and the slash alone. -/
theorem Pending.slashEffect (ha : Amounts w.store)
    (h : Pending provider slashId record w.store.slash)
    (he : SlashEffect env q severity reason w w') :
    getStake w'.store provider < getStake w.store provider ∨
      (getStake w'.store provider = getStake w.store provider ∧ Pending provider slashId record w'.store.slash) := by
  by_cases hq : provider = q
  · subst hq
    have hlt : ∀ {info : StakeInfoV2}, Slashable w provider info →
        getStake (w.slashed provider severity reason info).store provider < getStake w.store provider := by
      intro info hs
      obtain ⟨h1, h2, h3⟩ := getStake_slashed ha provider severity reason hs
      rw [if_pos rfl] at h1
      omega
    cases he with
    | failed => exact .inr ⟨rfl, h⟩
    | held hs | burned _ hs | refused hs => exact .inl (hlt hs)
  · have hst : ∀ {info : StakeInfoV2}, Slashable w q info →
        getStake (w.slashed q severity reason info).store provider = getStake w.store provider := by
      intro info hs
      have h1 := (getStake_slashed ha provider severity reason hs).1
      rwa [if_neg hq] at h1
    cases he with
    | failed => exact .inr ⟨rfl, h⟩
    | @held info hs =>
      have hp := h.slashed hq severity reason info
      refine .inr ⟨hst hs, hp.numbered, ?_⟩
      by_cases hid : slashId = w.store.slash.slashCounter
      · right
        refine ⟨h.eq_max hid, w.slashRecordOf q severity reason info, ?_, Ne.symm hq⟩
        simp only [World.hold, World.slashed]
        rw [Store.lookup_insert_eq, if_pos hid]
      · simp only [World.hold, World.slashed, Store.lookup_insert_eq, if_neg hid]
        exact h.kept
    | burned _ hs => exact .inr ⟨hst hs, h.slashed hq _ _ _⟩
    | refused hs => exact .inr ⟨hst hs, h.slashed hq _ _ _⟩

/-- A slash never raises a stake. -/
theorem getStake_slashEffect_le (provider : Address) (ha : Amounts w.store)
    (he : SlashEffect env q severity reason w w') :
    getStake w'.store provider ≤ getStake w.store provider := by
  have hle : ∀ {info : StakeInfoV2}, Slashable w q info →
      getStake (w.slashed q severity reason info).store provider ≤ getStake w.store provider := by
    intro info hs
    obtain ⟨h1, h2, h3⟩ := getStake_slashed ha provider severity reason hs
    rw [h1]
    split
    · rename_i heq; rw [heq]; omega
    · exact Int.le_refl _
  cases he with
  | failed => exact Int.le_refl _
  | held hs | burned _ hs | refused hs => exact hle hs

/-- A resolution releases the funds of a slash or leaves them. -/
theorem Pending.resolveEffect {i : Nat} (h : Pending provider slashId record w.store.slash)
    (he : ResolveEffect env i uphold w w') : Pending provider slashId record w'.store.slash := by
  have herase : (w.store.slash.slashRecord.lookup slashId = some record ∧
      ∀ a, (w.store.slash.slashedFundsHeld.erase i).lookup slashId = some a → a = record.slashAmount) ∨
      (slashId = u64Max ∧ ∃ r, w.store.slash.slashRecord.lookup slashId = some r ∧ r.provider ≠ provider) := by
    refine h.kept.imp_left fun ⟨hr, hk⟩ => ⟨hr, fun a ha => ?_⟩
    rw [Store.lookup_erase_eq] at ha
    split at ha
    · cases ha
    · exact hk a ha
  cases he with
  | failed => exact h
  | upheld | unbacked => exact ⟨h.numbered, h.kept⟩
  | burned | reversed | refused => exact ⟨h.numbered, herase⟩

/-- A transaction lowers the stake of `provider`, raises it, or leaves the slash pending. -/
theorem Pending.effect {c : Call} (ha : Amounts w.store)
    (h : Pending provider slashId record w.store.slash) (he : Effect env w c w')
    (hsame : getStake w'.store provider = getStake w.store provider) :
    Pending provider slashId record w'.store.slash := by
  cases he with
  | rejected | deposit | delegate | withdraw | part | approval => exact h
  | aside hf hs => rw [hs.slash (hf _ (by simp [books]))]; exact h
  | appeal => exact ⟨h.numbered, h.kept⟩
  | @slash caller q severity reason n w' hd =>
    have he := doSlash_effect env q severity reason w
    rw [hd] at he
    rcases h.slashEffect ha he with hlt | ⟨-, hp⟩
    · simp only at hlt
      omega
    · exact hp
  | @batchSlash caller providers severities reason amounts w' hd =>
    -- the stake never rises along a batch, so an entry that lowers it shows at the end
    have hrun := slashEntries_rule (P := fun w₁ => Amounts w₁.store ∧
        getStake w₁.store provider ≤ getStake w.store provider ∧
        (getStake w₁.store provider = getStake w.store provider →
          Pending provider slashId record w₁.store.slash)) hd ?_ ⟨ha, Int.le_refl _, fun _ => h⟩
    · exact hrun.2.2 hsame
    · rintro w₁ q sev - ⟨ha₁, hle, hp⟩
      have he := doSlash_effect env q sev reason w₁
      refine ⟨ha₁.slashEffect he, ?_⟩
      by_cases heq : getStake w₁.store provider = getStake w.store provider
      · rcases (hp heq).slashEffect ha₁ he with hlt | ⟨hst, hp'⟩
        · exact ⟨by omega, fun hx => by omega⟩
        · exact ⟨by omega, fun _ => hp'⟩
      · have hle' := getStake_slashEffect_le provider ha₁ he
        exact ⟨by omega, fun hx => by omega⟩
  | @resolve i uphold w' _ hd =>
    have he := doResolveAppeal_effect env i uphold w
    rw [hd] at he
    exact h.resolveEffect he
  | batchResolve _ hd =>
    exact resolveEntries_rule (P := fun w => Pending provider slashId record w.store.slash) hd
      (fun w₁ i u _ h₁ => h₁.resolveEffect (doResolveAppeal_effect env i u w₁)) h
  | execute _ hs => rw [hs.slash (by simp)]; exact h
  | @executeResolve _ _ i uphold _ w₁ _ hd =>
    have he := doResolveAppeal_effect env i uphold w
    rw [hd] at he
    have hp := h.resolveEffect he
    exact hp
  | @emergency signer staker token cfg req w₁ _ _ _ hd =>
    obtain ⟨info, -, -, w₂, hb, ht⟩ := EmergencyUnstake.executeEarlyUnstake_ok.mp hd
    have h₂ : Pending provider slashId record w₂.store.slash := by
      rcases EmergencyUnstake.burnIfPositive_ok.mp hb with ⟨-, t, -, rfl⟩ | ⟨-, rfl⟩ <;> exact h
    rcases EmergencyUnstake.transferIfPositive_ok.mp ht with ⟨-, t, -, rfl⟩ | ⟨-, rfl⟩ <;> exact h₂
  | @process limit m h' w₁ _ hd =>
    have hs : SameOutside [.stake, .queue, .guards, .rate, .token] w w₁ := Tx.Within.of_run inferInstance hd
    change Pending provider slashId record w₁.store.slash
    rw [hs.slash (by simp)]
    exact h
  | reward _ hs => rw [hs.slash (by simp)]; exact h

end Steps

/-! ## Steps that leave a provider alone -/

section Runs

variable {T : Tokens τ} {self provider caller : Address} {w w' : World τ} {slashId : Nat}
  {record : SlashRecord}

/-- A step that does not touch the own or the delegated stake of `provider`. -/
def QuietStep (T : Tokens τ) (self provider : Address) (w : World τ) (ev : Event τ)
    (w' : World τ) : Prop :=
  Step T self w ev w' ∧ SameStake provider w.store w'.store

/-- Quiet steps keep the slash pending, the stake as it is and the amounts in order. -/
theorem Pending.run (hr : Reaches (QuietStep T self provider) w w') (ha : Amounts w.store)
    (h : Pending provider slashId record w.store.slash) :
    Amounts w'.store ∧ Pending provider slashId record w'.store.slash ∧ SameStake provider w.store w'.store := by
  refine hr.invariant (I := fun w' => Amounts w'.store ∧
    Pending provider slashId record w'.store.slash ∧ SameStake provider w.store w'.store)
    ⟨ha, h, rfl, fun _ => rfl, rfl⟩ ?_
  rintro a ev b ⟨ha', h', hs'⟩ ⟨⟨-, rfl⟩, hs⟩
  refine ⟨ha'.next, ?_, hs'.trans hs⟩
  cases ev with
  | call auth c => exact h'.effect ha' (invoke_effect ⟨T, self, auth⟩ c a) hs.own
  | advance | external => exact h'

end Runs

/-! ## Slash, appeal, reversal -/

section Reversal

variable {T : Tokens τ} {self provider caller : Address} {w w₁ w₂ w₃ w₄ w₅ : World τ}
  {auth₁ auth₂ auth₃ : Auth} {severity : SlashSeverity} {reason : Symbol} {n : Int}
  {evidenceUri : String}

/-- The slash leaves its record and its funds under the id that the counter had. -/
theorem pending_of_slash {info : StakeInfoV2} :
    Pending provider w.store.slash.slashCounter (w.slashRecordOf provider severity reason info)
      ((w.slashed provider severity reason info).hold w.store.slash.slashCounter
        (w.slashAmount provider severity info)).store.slash := by
  refine ⟨u64Add_one_cases _, .inl ⟨?_, ?_⟩⟩
  · simp [World.hold, World.slashed]
  · intro a ha
    simp [World.hold] at ha
    exact ha.symm

/-- What the slash leaves to its provider. -/
theorem slashed_reads {info : StakeInfoV2} (h : Amounts w.store) (hs : Slashable w provider info)
    (severity : SlashSeverity) (reason : Symbol) :
    getStake (w.slashed provider severity reason info).store provider =
        info.balance - ownSlash info.balance (w.slashBps severity) ∧
      (∀ d, getDelegatedStake (w.slashed provider severity reason info).store d provider =
        ((slashDelegations (w.slashBps severity)
          (delegationsOf w.store.stake provider)).1.lookup d).getD 0) ∧
      getTotalDelegated (w.slashed provider severity reason info).store provider =
        getTotalDelegated w.store provider -
          (slashDelegations (w.slashBps severity) (delegationsOf w.store.stake provider)).2 := by
  have h1 := (getStake_slashed h provider severity reason hs).1
  obtain ⟨-, hdel, htot⟩ := h.stakes.slashed_eq w.ledger.timestamp (w.slashBps severity)
    hs.staked
  rw [if_pos rfl] at h1
  refine ⟨h1, ?_, ?_⟩
  · intro d
    change ((delegationsOf (w.store.stake.slashed _ _ _ _) provider).lookup d).getD 0 = _
    rw [hdel, if_pos rfl]
  · change totalDelegatedOf (w.store.stake.slashed _ _ _ _) provider = _
    rw [htot, if_pos rfl]
    rfl

/-- A reversal credits its amount to the provider of the record, and nothing to anybody else. -/
theorem reversal_reads {env : Env τ} {slashId : Nat} (provider : Address)
    (h : doResolveAppeal env slashId false w = (.ok (), w₁)) :
    ∃ record amount, w.store.slash.slashRecord.lookup slashId = some record ∧
      (amount = record.slashAmount ∨ w.store.slash.slashedFundsHeld.lookup slashId = some amount) ∧
      getStake w₁.store provider = (if provider = record.provider then
        saturatingAdd (getStake w.store provider) amount else getStake w.store provider) ∧
      (∀ d, getDelegatedStake w₁.store d provider = getDelegatedStake w.store d provider) ∧
      getTotalDelegated w₁.store provider = getTotalDelegated w.store provider := by
  obtain ⟨-, -, record, appeal, hr, ⟨hu, -⟩ | ⟨hu, -⟩ | ⟨-, h0, rfl⟩ | ⟨-, -, rfl⟩⟩ := doResolveAppeal_ok h
  · cases hu
  · cases hu
  · refine ⟨record, heldFor w.store.slash slashId, hr.recorded, .inr ?_,
      getStake_credited w record.provider provider _, fun _ => rfl, rfl⟩
    unfold heldFor at h0 ⊢
    cases hl : w.store.slash.slashedFundsHeld.lookup slashId with
    | none => simp [hl] at h0
    | some a => rfl
  · exact ⟨record, record.slashAmount, hr.recorded, .inl rfl,
      getStake_credited w record.provider provider _, fun _ => rfl, rfl⟩

theorem getDelegatedStake_zero_iff {s : Storage} :
    (∀ d, getDelegatedStake s d provider = 0) ↔
      ∀ d a, (delegationsOf s.stake provider).lookup d = some a → a = 0 := by
  have hread : ∀ d, getDelegatedStake s d provider =
      ((delegationsOf s.stake provider).lookup d).getD 0 := fun _ => rfl
  constructor
  · intro hz d a hd
    have h := hz d
    rw [hread, hd] at h
    exact h
  · intro hz d
    rw [hread]
    cases hd : (delegationsOf s.stake provider).lookup d with
    | none => rfl
    | some a => exact hz d a hd

/-- The slash takes nothing from the delegators iff they have nothing. -/
theorem taken_eq_zero_iff (h : Amounts w.store) (bps : Nat) :
    (slashDelegations bps (delegationsOf w.store.stake provider)).2 = 0 ↔
      ∀ d, getDelegatedStake w.store d provider = 0 := by
  have hb : Store.total id (delegationsOf w.store.stake provider) ≤ i128Max := by
    rw [← h.stakes.cached]; exact h.stakes.bounded provider
  rw [slashDelegations_eq_zero (h.stakes.delegated provider) hb, getDelegatedStake_zero_iff]

/-- The sum of the two parts, clamped as the slash and the reversal do, gives the stake and what was
taken from the delegators. -/
theorem saturatingAdd_slashAmount {info : StakeInfoV2} (h : Amounts w.store)
    (hs : Slashable w provider info) :
    saturatingAdd (info.balance - ownSlash info.balance (w.slashBps severity))
        (w.slashAmount provider severity info) =
      min i128Max (info.balance +
        (slashDelegations (w.slashBps severity) (delegationsOf w.store.stake provider)).2) := by
  obtain ⟨h0, hmax⟩ := h.stakes.balances provider info hs.staked
  have hnz := hs.nonzero
  obtain ⟨ho1, ho2⟩ := ownSlash_pos (w.slashBps severity) (show 0 < info.balance by omega)
  have ht := (h.stakes.slashing provider (w.slashBps severity)).taken
  have hpos : 0 < saturatingAdd (ownSlash info.balance (w.slashBps severity))
      (slashDelegations (w.slashBps severity) (delegationsOf w.store.stake provider)).2 := by
    simp only [saturatingAdd, clamp, i128Min, i128Max]
    omega
  simp only [World.slashAmount, slashAmount]
  rw [if_neg (Int.ne_of_gt hpos)]
  simp only [saturatingAdd, clamp, i128Min, i128Max] at hmax ⊢
  omega

/-- A slash with an appeal window, an appeal and a reversal, with nothing in between that touches the
provider. The reversal credits all that the slash took to the provider's own stake, also what came
from the delegators, whose stakes stay slashed. So the stakes are restored iff no delegator had
anything, as long as the record that the reversal finds is the provider's; the id of a slash is taken
over only once the counter is at its end. -/
theorem reversal_credits_the_provider (hw : Reachable T self w)
    (hwin : 0 < w.store.config.appealWindowSecs)
    (hslash : slashStake ⟨T, self, auth₁⟩ caller provider severity reason w = (.ok n, w₁))
    (h₁₂ : Reaches (QuietStep T self provider) w₁ w₂)
    (happeal : appealSlash ⟨T, self, auth₂⟩ provider w.store.slash.slashCounter evidenceUri w₂ = (.ok (), w₃))
    (h₃₄ : Reaches (QuietStep T self provider) w₃ w₄)
    (hres : doResolveAppeal ⟨T, self, auth₃⟩ w.store.slash.slashCounter false w₄ = (.ok (), w₅)) :
    ∃ record, w₄.store.slash.slashRecord.lookup w.store.slash.slashCounter = some record ∧
      (w.store.slash.slashCounter < u64Max → record.provider = provider) ∧
      (record.provider = provider → getStake w₅.store provider = min i128Max
        (getStake w.store provider + (getTotalDelegated w.store provider - getTotalDelegated w₁.store provider))) ∧
      (∀ d, getDelegatedStake w₅.store d provider = getDelegatedStake w₁.store d provider) ∧
      getTotalDelegated w₅.store provider = getTotalDelegated w₁.store provider ∧
      (SameStake provider w.store w₅.store ↔
        (∀ d, getDelegatedStake w.store d provider = 0) ∧ record.provider = provider) := by
  have ha := hw.amounts
  obtain ⟨-, -, -, hd⟩ := slashStake_ok.mp hslash
  obtain ⟨token, -, info, hs, rfl, ⟨-, rfl⟩ | ⟨h0, -⟩⟩ := doSlash_ok.mp hd
  swap
  · omega
  -- the slash stays pending, and the provider is left alone, until it is reversed
  have hheld : SlashEffect ⟨T, self, auth₁⟩ provider severity reason w
      ((w.slashed provider severity reason info).hold w.store.slash.slashCounter
        (w.slashAmount provider severity info)) := .held hs hwin
  obtain ⟨ha₂, hp₂, hs₂⟩ := Pending.run h₁₂ (ha.slashEffect hheld) pending_of_slash
  obtain ⟨-, -, -, -, -, -, hw₃⟩ := appealSlash_ok happeal
  have hs₃ : SameStake provider w₂.store w₃.store := by rw [hw₃]; exact ⟨rfl, fun _ => rfl, rfl⟩
  have ha₃ : Amounts w₃.store := by rw [hw₃]; exact ⟨ha₂.stakes, ha₂.slashes.appeals _⟩
  obtain ⟨-, hp₄, hs₄⟩ := Pending.run h₃₄ ha₃ (by rw [hw₃]; exact ⟨hp₂.numbered, hp₂.kept⟩)
  have hs₁₄ := (hs₂.trans hs₃).trans hs₄
  obtain ⟨hown, hdel, htot⟩ := slashed_reads ha hs severity reason
  obtain ⟨record, amount, hrec, hamt, hown₅, hdel₅, htot₅⟩ := reversal_reads provider hres
  have hown₄ := hs₁₄.own.trans hown
  have hbal : getStake w.store provider = info.balance := by simp [getStake, hs.staked]
  -- what the reversal finds is what the slash left, unless another provider took the id over
  have hnamed : record.provider = provider → amount = w.slashAmount provider severity info := by
    intro hprov
    rcases hp₄.kept with ⟨hr, hh⟩ | ⟨-, r, hr, hne⟩
    · rw [hrec] at hr
      cases hr
      exact hamt.elim id (hh amount)
    · rw [hrec] at hr
      cases hr
      exact absurd hprov hne
  have hcredit : record.provider = provider → getStake w₅.store provider = min i128Max
      (info.balance + (slashDelegations (w.slashBps severity)
        (delegationsOf w.store.stake provider)).2) := by
    intro hprov
    rw [hown₅, if_pos hprov.symm, hown₄, hnamed hprov, saturatingAdd_slashAmount ha hs]
  refine ⟨record, hrec, ?_, ?_, fun d => (hdel₅ d).trans (hs₁₄.delegated d), htot₅.trans hs₁₄.total, ?_⟩
  · intro hlt
    rcases hp₄.kept with ⟨hr, -⟩ | ⟨heq, -⟩
    · rw [hrec] at hr
      cases hr
      rfl
    · exact absurd heq (Nat.ne_of_lt hlt)
  · intro hprov
    rw [hcredit hprov, hbal]
    change _ = min i128Max (info.balance + (getTotalDelegated w.store provider -
      getTotalDelegated (w.slashed provider severity reason info).store provider))
    rw [htot]
    congr 2
    omega
  · constructor
    · intro hsame
      refine ⟨(taken_eq_zero_iff ha (w.slashBps severity)).mp ?_, ?_⟩
      · have h1 := hsame.total.symm.trans (htot₅.trans (hs₁₄.total.trans htot))
        omega
      · by_contra hne
        obtain ⟨-, -, h1⟩ := getStake_slashed ha provider severity reason hs
        rw [if_neg (Ne.symm hne), hown₄, hsame.own, hbal] at hown₅
        omega
    · rintro ⟨hz, hprov⟩
      have htaken := (taken_eq_zero_iff ha (w.slashBps severity)).mpr hz
      have hkeep := slashDelegations_of_zero (ha.stakes.delegated provider)
        (by rw [← ha.stakes.cached]; exact ha.stakes.bounded provider) htaken
      refine ⟨?_, ?_, ?_⟩
      · rw [hcredit hprov, htaken, Int.add_zero, hbal]
        exact Int.min_eq_right (ha.stakes.balances provider info hs.staked).2
      · intro d
        rw [hdel₅, hs₁₄.delegated]
        change getDelegatedStake (w.slashed provider severity reason info).store d provider = _
        rw [hdel, hkeep]
        rfl
      · rw [htot₅, hs₁₄.total]
        change getTotalDelegated (w.slashed provider severity reason info).store provider = _
        rw [htot, htaken, Int.sub_zero]

end Reversal

/-! ## Two concrete reversals -/

namespace Sample

/-- A vault with an appeal window in which `alice` has staked `100` and `bob` may have delegated to
her. -/
def staked (delegations : List (Event Balances)) : World Balances :=
  started Balances.tokens funds
    ([call (.setAppealWindow 1000), call (.depositStake alice 100)] ++ delegations)

abbrev host : Env Balances := ⟨Balances.tokens, vault, fun a => a ≠ vault⟩

def delegated : Event Balances := call (.delegateStake bob alice 50)

/-- `alice` is slashed, appeals and is heard. -/
def reversed (w : World Balances) : World Balances :=
  (doResolveAppeal host 0 false
    (appealSlash host alice 0 "" (slashStake host registry alice .critical "" w).2).2).2

end Sample

open Sample in
/-- Alone, the provider has its stake back; with a delegator, also what the slash took from that one. -/
theorem reversal_credits_the_provider_alone :
    SameStake alice (staked []).store (reversed (staked [])).store ∧
      getStake (reversed (staked [delegated])).store alice = 150 ∧
      getTotalDelegated (reversed (staked [delegated])).store alice = 0 ∧
      ¬ SameStake alice (staked [delegated]).store (reversed (staked [delegated])).store := by
  have hslash : slashStake host registry alice .critical "" (staked []) = (.ok 100, _) := rfl
  have hslash' : slashStake host registry alice .critical "" (staked [delegated]) = (.ok 150, _) := rfl
  have happeal : appealSlash host alice 0 ""
      (slashStake host registry alice .critical "" (staked [])).2 = (.ok (), _) := rfl
  have happeal' : appealSlash host alice 0 ""
      (slashStake host registry alice .critical "" (staked [delegated])).2 = (.ok (), _) := rfl
  have hres : doResolveAppeal host 0 false (appealSlash host alice 0 ""
      (slashStake host registry alice .critical "" (staked [])).2).2 = (.ok (), reversed (staked [])) := rfl
  have hres' : doResolveAppeal host 0 false (appealSlash host alice 0 ""
      (slashStake host registry alice .critical "" (staked [delegated])).2).2 =
      (.ok (), reversed (staked [delegated])) := rfl
  obtain ⟨_, -, hprov, -, -, -, hsame⟩ := reversal_credits_the_provider
    (reachable_run _ _ (by decide +kernel)) (by decide +kernel) hslash (.refl _) happeal (.refl _) hres
  obtain ⟨_, -, hprov', hown, -, htotal, hsame'⟩ := reversal_credits_the_provider
    (reachable_run _ _ (by decide +kernel)) (by decide +kernel) hslash' (.refl _) happeal' (.refl _) hres'
  refine ⟨hsame.mpr ⟨fun _ => rfl, hprov (by decide +kernel)⟩, (hown (hprov' (by decide +kernel))).trans rfl,
    htotal.trans rfl, fun h => ?_⟩
  exact absurd ((hsame'.mp h).1 bob) (by decide +kernel)

open Sample in
/-- The stake that was delegated ends up with the provider. -/
theorem reversal_keeps_what_was_delegated :
    ¬ ∀ (w w₁ w₂ w₃ : World Balances) (n : Int), Reachable Balances.tokens vault w →
      0 < w.store.config.appealWindowSecs →
      slashStake host registry alice .critical "" w = (.ok n, w₁) →
      appealSlash host alice w.store.slash.slashCounter "" w₁ = (.ok (), w₂) →
      resolveAppeal host w.store.slash.slashCounter false w₂ = (.ok (), w₃) →
      SameStake alice w.store w₃.store := by
  intro h
  have hs := h (staked [delegated]) _ _ _ 150
    (reachable_run _ _ (by decide +kernel)) (by decide +kernel) rfl rfl rfl
  exact absurd hs.own (by decide +kernel)

end CallStake.StakeVault
