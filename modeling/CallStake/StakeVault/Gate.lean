import CallStake.StakeVault.Amounts
import CallStake.StakeVault.Settings

/-!
# The multi-sig gate

Once a multi-sig configuration is stored, the pause flag, the settings behind the gate, the appeals
and the held slashes should only change through approved proposals and governance.

* `ResolvesPending`: the one call that gets past the gate, a batch of resolutions that lists a
  pending appeal. `resolve_appeal` asks for the configuration, `batch_resolve_appeal` does not.
* `multisig_gate`: every other call of every reachable state keeps the gate closed, and
  `execute_action` opens it only for an approved proposal.
-/

namespace CallStake.StakeVault

variable {τ : Type}

/-- The recorded appeals have the same status and the held slashes the same amount. -/
structure SlashesKept (s s' : SlashStorage) : Prop where
  appeals : ∀ slashId a, s.slashAppeal.lookup slashId = some a →
    ∃ a', s'.slashAppeal.lookup slashId = some a' ∧ a'.status = a.status
  holds : ∀ slashId n, s.slashedFundsHeld.lookup slashId = some n → s'.slashedFundsHeld.lookup slashId = some n

/-- What is behind the gate is the same: the settings, the status of every recorded appeal and the
amount of every held slash. -/
structure GateKept (w w' : World τ) : Prop extends
    SlashesKept w.store.slash w'.store.slash where
  settings : w'.store.config.gated = w.store.config.gated

theorem SlashesKept.refl (s : SlashStorage) : SlashesKept s s := ⟨fun _ a h => ⟨a, h, rfl⟩, fun _ _ h => h⟩

theorem SlashesKept.of_eq {s s' : SlashStorage} (h : s' = s) : SlashesKept s s' := h ▸ .refl s

/-- The batch of resolutions passes its own checks, and one of its slashes has a pending appeal. -/
def ResolvesPending (env : Env τ) (w : World τ) : Call → Prop
  | .batchResolveAppeal slashIds upholds =>
    (∃ admin, w.store.config.admin = some admin ∧ env.auth admin = true) ∧
      ¬ (slashIds.length = 0 ∨ MAX_BATCH_SIZE < slashIds.length) ∧
      slashIds.length = upholds.length ∧
      ∃ slashId ∈ slashIds, ∃ record appeal, Resolvable w slashId record appeal
  | _ => False

/-- The calls that slash. -/
def Call.Slashes : Call → Prop
  | .slashStake .. | .batchSlashStake .. => True
  | _ => False

/-- The slash counter is not at its end while funds are held under the last id. -/
def LastIdFree (w : World τ) : Prop :=
  w.store.slash.slashCounter = u64Max → w.store.slash.slashedFundsHeld.lookup u64Max = none

/-! ## Slashes -/

section Slashes

variable {env : Env τ} {w w₁ w₂ w' : World τ} {provider : Address} {severity : SlashSeverity}
  {reason : Symbol} {slashId : Nat} {uphold : Bool}

/-- Every recorded hold is below the counter. -/
theorem LastIdFree.lt_counter (h : LastIdFree w) (ha : Amounts w.store) {slashId : Nat} {n : Int}
    (hn : w.store.slash.slashedFundsHeld.lookup slashId = some n) :
    slashId < w.store.slash.slashCounter := by
  rcases ha.slashes.numbered slashId n hn with hlt | ⟨rfl, hc⟩
  · exact hlt
  · rw [h hc] at hn
    cases hn

/-- What the entries of a batch of slashes keep, and a single slash with them: the counter only
rises, and the holds below its first value stay. -/
structure SlashesGrow (w w₁ : World τ) : Prop where
  amounts : Amounts w₁.store
  counter : w.store.slash.slashCounter ≤ w₁.store.slash.slashCounter
  appeals : w₁.store.slash.slashAppeal = w.store.slash.slashAppeal
  holds : ∀ slashId, slashId < w.store.slash.slashCounter →
    w₁.store.slash.slashedFundsHeld.lookup slashId = w.store.slash.slashedFundsHeld.lookup slashId

theorem SlashesGrow.slashEffect (h : SlashesGrow w w₁)
    (he : SlashEffect env provider severity reason w₁ w₂) : SlashesGrow w w₂ := by
  have ha := h.amounts.slashEffect he
  have hc : w.store.slash.slashCounter ≤ u64Add w₁.store.slash.slashCounter 1 :=
    Nat.le_trans h.counter (le_u64Add_one h.amounts.slashes.counter)
  cases he with
  | failed => exact h
  | held =>
    refine ⟨ha, hc, h.appeals, fun i hi => ?_⟩
    simp only [World.hold, World.slashed, Store.lookup_insert_eq]
    rw [if_neg (Nat.ne_of_lt (Nat.lt_of_lt_of_le hi h.counter))]
    exact h.holds i hi
  | burned => exact ⟨ha, hc, h.appeals, h.holds⟩
  | refused => exact ⟨ha, hc, h.appeals, h.holds⟩

theorem SlashesGrow.kept (h : SlashesGrow w w') (ha : Amounts w.store) (hl : LastIdFree w) :
    SlashesKept w.store.slash w'.store.slash where
  appeals _ a hi := ⟨a, h.appeals ▸ hi, rfl⟩
  holds _ _ hi := (h.holds _ (hl.lt_counter ha hi)).trans hi

/-! ## Resolutions -/

/-- The appeal of `slashId` was resolved, or its funds were released. -/
def Touched (w w' : World τ) (slashId : Nat) : Prop :=
  (∃ a, w'.store.slash.slashAppeal.lookup slashId = some a ∧ a.status ≠ .pending) ∨
    (0 < heldFor w.store.slash slashId ∧ w'.store.slash.slashedFundsHeld.lookup slashId = none)

/-- A resolution of a pending appeal leaves its mark. -/
theorem touched_of_resolvable {record : SlashRecord} {appeal : SlashAppeal}
    (ht : w.store.config.stakeToken.isSome = true) (hr : Resolvable w slashId record appeal)
    (he : ResolveEffect env slashId uphold w w') : Touched w w' slashId := by
  cases he with
  | failed hn =>
    rcases hn with hn | hn
    · rw [hn] at ht; cases ht
    · exact absurd hr (hn record appeal)
  | upheld | burned | reversed | unbacked =>
    exact .inl ⟨_, AList.lookup_insert _, by simp [resolvedStatus]⟩
  | refused hx =>
    obtain ⟨-, -, -, -, -, -, h0, -⟩ := hx
    exact .inr ⟨h0, AList.lookup_erase _ _⟩

/-- A resolution of anything else leaves everything. -/
theorem eq_of_not_resolvable (hn : ∀ record appeal, ¬ Resolvable w slashId record appeal)
    (he : ResolveEffect env slashId uphold w w') : w' = w := by
  cases he with
  | failed => rfl
  | upheld hr | burned _ hr | reversed hr | unbacked hr => exact absurd hr (hn _ _)
  | refused hx =>
    obtain ⟨-, -, record, appeal, hr, -⟩ := hx
    exact absurd hr (hn record appeal)

/-- A resolved appeal stays resolved, and released funds stay released. -/
theorem Touched.resolveEffect {i : Nat} (h : Touched w w₁ slashId)
    (he : ResolveEffect env i uphold w₁ w₂) : Touched w w₂ slashId := by
  have herase : ∀ {j : Nat}, w₁.store.slash.slashedFundsHeld.lookup slashId = none →
      (w₁.store.slash.slashedFundsHeld.erase j).lookup slashId = none := by
    intro j hn
    rw [Store.lookup_erase_eq]
    split
    · rfl
    · exact hn
  have hclose : ∀ {a : SlashAppeal} {u : Bool},
      (∃ a, w₁.store.slash.slashAppeal.lookup slashId = some a ∧ a.status ≠ .pending) →
      ∃ a', (w₁.store.slash.slashAppeal.insert i { a with status := resolvedStatus u }).lookup slashId
        = some a' ∧ a'.status ≠ .pending := by
    intro a u hx
    rw [Store.lookup_insert_eq]
    split
    · exact ⟨_, rfl, by cases u <;> simp [resolvedStatus]⟩
    · exact hx
  cases he with
  | failed => exact h
  | upheld | unbacked => exact h.imp hclose id
  | burned | reversed => exact h.imp hclose fun hx => ⟨hx.1, herase hx.2⟩
  | refused => exact h.imp id fun hx => ⟨hx.1, herase hx.2⟩

/-- A batch that lists no pending appeal changes nothing. -/
theorem resolveEntries_idle {entries : List (Nat × Bool)}
    (hn : ∀ e ∈ entries, ∀ record appeal, ¬ Resolvable w e.1 record appeal) :
    entries.foldl (resolveEntry env) w = w := by
  induction entries with
  | nil => rfl
  | cons e rest ih =>
    have hw : resolveEntry env w e = w := eq_of_not_resolvable (hn e (List.mem_cons_self ..))
      (doResolveAppeal_effect env e.1 e.2 w)
    rw [List.foldl_cons, hw]
    exact ih fun e he => hn e (List.mem_cons_of_mem _ he)

/-- A batch that lists a pending appeal leaves a mark on one. -/
theorem resolveEntries_touches {entries : List (Nat × Bool)}
    (ht : w.store.config.stakeToken.isSome = true)
    (hp : ∃ e ∈ entries, ∃ record appeal, Resolvable w e.1 record appeal) :
    ∃ slashId record appeal, Resolvable w slashId record appeal ∧
      Touched w (entries.foldl (resolveEntry env) w) slashId := by
  induction entries with
  | nil => obtain ⟨e, he, -⟩ := hp; cases he
  | cons e rest ih =>
    have he := doResolveAppeal_effect env e.1 e.2 w
    rw [List.foldl_cons]
    by_cases hr : ∃ record appeal, Resolvable w e.1 record appeal
    · obtain ⟨record, appeal, hr⟩ := hr
      refine ⟨e.1, record, appeal, hr, ?_⟩
      exact Reaches.foldl_rule (P := fun w₁ => Touched w w₁ e.1)
        (fun e₁ _ h₁ => h₁.resolveEffect (doResolveAppeal_effect env e₁.2.1 e₁.2.2 e₁.1))
        (touched_of_resolvable ht hr he)
    · have hw : resolveEntry env w e = w :=
        eq_of_not_resolvable (fun record appeal hx => hr ⟨record, appeal, hx⟩) he
      rw [hw]
      refine ih ?_
      obtain ⟨e, hmem, hx⟩ := hp
      rcases List.mem_cons.mp hmem with rfl | hmem
      · exact absurd hx hr
      · exact ⟨e, hmem, hx⟩

/-- The mark is a change behind the gate. -/
theorem Touched.not_kept {record : SlashRecord} {appeal : SlashAppeal}
    (h : Touched w w' slashId) (hr : Resolvable w slashId record appeal) :
    ¬ SlashesKept w.store.slash w'.store.slash := by
  intro hk
  rcases h with ⟨a, ha, hs⟩ | ⟨h0, hn⟩
  · obtain ⟨a', ha', hs'⟩ := hk.appeals slashId appeal hr.appealed
    rw [ha] at ha'
    cases ha'
    exact hs (hs'.trans hr.pending)
  · unfold heldFor at h0
    cases hl : w.store.slash.slashedFundsHeld.lookup slashId with
    | none => simp [hl] at h0
    | some n =>
      rw [hk.holds slashId n hl] at hn
      cases hn

end Slashes

/-! ## The gate -/

section Gate

variable {T : Tokens τ} {self : Address} {auth : Auth} {env : Env τ} {c : Call} {w w' : World τ}

/-- Behind the gate, a call that is not exempt changes no appeal and no hold, unless it is a batch
that lists a pending appeal. -/
theorem Effect.slashesKept (ha : Amounts w.store) (hm : w.store.multisig.config.isSome = true)
    (hx : ¬ c.Exempt) (hl : c.Slashes → LastIdFree w) (hp : ¬ ResolvesPending env w c)
    (he : Effect env w c w') : SlashesKept w.store.slash w'.store.slash := by
  cases he with
  | rejected | deposit | delegate | withdraw | part | approval => exact .refl _
  | aside hf hs => exact .of_eq (hs.slash (hf _ (by simp [books])))
  | reward _ hs => exact .of_eq (hs.slash (by simp))
  | @appeal appellant slashId uri record _ _ hn =>
    refine ⟨fun i a hi => ⟨a, ?_, rfl⟩, fun _ _ hi => hi⟩
    rw [Store.lookup_insert_eq, if_neg, hi]
    rintro rfl
    rw [hn] at hi
    cases hi
  | @slash caller provider severity reason n w' hd =>
    have he := doSlash_effect env provider severity reason w
    rw [hd] at he
    exact (SlashesGrow.slashEffect ⟨ha, Nat.le_refl _, rfl, fun _ _ => rfl⟩ he).kept ha (hl trivial)
  | batchSlash hd =>
    exact (slashEntries_rule (P := SlashesGrow w) hd
      (fun w₁ p sev _ h₁ => h₁.slashEffect (doSlash_effect env p sev _ w₁))
      ⟨ha, Nat.le_refl _, rfl, fun _ _ => rfl⟩).kept ha (hl trivial)
  | resolve hn => rw [hn] at hm; cases hm
  | @batchResolve slashIds upholds n w' hok hd =>
    obtain ⟨admin, hadm, hau, hlen, heq, -⟩ := batchResolveAppeal_ok.mp hok
    rw [resolveEntries_run] at hd
    cases hd
    rw [resolveEntries_idle]
    · exact .refl _
    intro e hmem record appeal hr
    exact hp ⟨⟨admin, hadm, hau⟩, hlen, heq, e.1, (List.of_mem_zip hmem).1, record, appeal, hr⟩
  | execute | executeResolve => exact absurd trivial hx
  | @emergency signer staker token cfg req w₁ _ _ _ hd =>
    obtain ⟨info, -, -, w₂, hb, ht⟩ := EmergencyUnstake.executeEarlyUnstake_ok.mp hd
    have h₂ : w₂.store.slash = w.store.slash := by
      rcases EmergencyUnstake.burnIfPositive_ok.mp hb with ⟨-, t, -, rfl⟩ | ⟨-, rfl⟩ <;> rfl
    rcases EmergencyUnstake.transferIfPositive_ok.mp ht with ⟨-, t, -, rfl⟩ | ⟨-, rfl⟩ <;>
      exact .of_eq h₂
  | process _ hd => exact .of_eq ((Tx.Within.of_run (R := SameOutside [.stake, .queue, .guards, .rate, .token])
    inferInstance hd).slash (by simp))

/-- A batch that lists a pending appeal gets past the gate. -/
theorem not_kept_of_resolvesPending (ht : w.store.config.stakeToken.isSome = true)
    (hp : ResolvesPending env w c) :
    ¬ SlashesKept w.store.slash ((invoke env c).exec w).store.slash := by
  cases c with
  | batchResolveAppeal slashIds upholds =>
    obtain ⟨⟨admin, hadm, hau⟩, hlen, heq, slashId, hmem, record, appeal, hr⟩ := hp
    have hok : invoke env (.batchResolveAppeal slashIds upholds) w =
        (.ok (), (slashIds.zip upholds).foldl (resolveEntry env) w) :=
      Tx.void_ok.mpr ⟨_, batchResolveAppeal_ok.mpr ⟨admin, hadm, hau, hlen, heq, resolveEntries_run env _ w⟩⟩
    rw [Tx.exec_of_ok hok]
    -- the listed id stands in the zipped list with its decision
    have hzip : ∃ e ∈ slashIds.zip upholds, ∃ record appeal, Resolvable w e.1 record appeal := by
      have hfst : (slashIds.zip upholds).map Prod.fst = slashIds := List.map_fst_zip (Nat.le_of_eq heq)
      obtain ⟨e, he, rfl⟩ := List.mem_map.mp (hfst ▸ hmem)
      exact ⟨e, he, record, appeal, hr⟩
    obtain ⟨i, record', appeal', hr', htouch⟩ := resolveEntries_touches ht hzip
    exact htouch.not_kept hr'
  | _ => exact hp.elim

/-- In every reachable state with a multi-sig configuration, a call other than `execute_action`,
`set_multisig_config` and those of governance keeps everything behind the gate iff it is not a batch
of resolutions with a pending appeal; and `execute_action` changes it only for a pending proposal
that has enough approvals and has not expired. A slash must not find the counter at its end, where
it would write over the funds held under the last id. -/
theorem multisig_gate (h : Reachable T self w) (hm : w.store.multisig.config.isSome = true)
    (auth : Auth) (c : Call) (hl : c.Slashes → LastIdFree w) :
    (¬ c.Exempt → (GateKept w ((invoke ⟨T, self, auth⟩ c).exec w) ↔ ¬ ResolvesPending ⟨T, self, auth⟩ w c)) ∧
    ∀ caller proposalId, c = .executeAction caller proposalId →
      GateKept w ((invoke ⟨T, self, auth⟩ c).exec w) ∨ ∃ action, Executable w proposalId action := by
  have hest := h.established
  obtain ⟨hi, ht⟩ := hest.initialized (hest.administered hm)
  have heff := invoke_effect ⟨T, self, auth⟩ c w
  refine ⟨fun hx => ⟨?_, fun hp => ?_⟩, ?_⟩
  · intro hk hp
    exact not_kept_of_resolvesPending ht hp hk.toSlashesKept
  · refine ⟨heff.slashesKept h.amounts hm hx hl hp, ?_⟩
    rcases (invoke_settings ⟨T, self, auth⟩ c w (.inl hi)).gated with he | hn | hs
    · exact absurd he hx
    · rw [hn] at hm; cases hm
    · exact hs
  · rintro caller proposalId rfl
    generalize (invoke ⟨T, self, auth⟩ (.executeAction caller proposalId)).exec w = w' at heff
    cases heff with
    | rejected => exact .inl ⟨.refl _, rfl⟩
    | aside hf => exact absurd (hf .stake (by simp [books])) (by simp [Call.footprint])
    | execute hx => exact .inr ⟨_, hx⟩
    | executeResolve hx => exact .inr ⟨_, hx⟩
    | reward hf => simp [Call.footprint] at hf

open Sample in
/-- A slash of `alice` is held and appealed, and then the multi-sig takes over. -/
def appealedThenGated : World Balances :=
  started Balances.tokens funds
    [call (.setAppealWindow 1000), call (.depositStake alice 100),
      call (.slashStake registry alice .critical ""), call (.appealSlash alice 0 ""),
      call (.setMultisigConfig admin (some ⟨[alice, bob], 2, 0⟩))]

open Sample in
/-- The administrator alone cannot unpause or pause the vault. -/
theorem multisig_gate_pause :
    GateKept appealedThenGated
      ((invoke ⟨Balances.tokens, vault, fun a => a ≠ vault⟩ .pause).exec appealedThenGated) := by
  have hr : Reachable Balances.tokens vault appealedThenGated := reachable_run _ _ (by decide +kernel)
  exact ((multisig_gate hr (by decide +kernel) (fun a => a ≠ vault) .pause fun h => h.elim).1
    fun h => h).mpr fun h => h

open Sample in
/-- But the administrator alone decides a pending appeal, with a batch of one. -/
theorem batch_resolution_passes_the_gate :
    Reachable Balances.tokens vault appealedThenGated ∧
      appealedThenGated.store.multisig.config = some ⟨[alice, bob], 2, 0⟩ ∧
      ¬ (Call.batchResolveAppeal [0] [true]).Exempt ∧
      ¬ GateKept appealedThenGated
        ((invoke ⟨Balances.tokens, vault, fun a => a = admin⟩ (.batchResolveAppeal [0] [true])).exec
          appealedThenGated) := by
  refine ⟨reachable_run _ _ (by decide +kernel), by decide +kernel, fun h => h, fun h => ?_⟩
  exact absurd (h.holds 0 100 (by decide +kernel)) (by decide +kernel)

end Gate

end CallStake.StakeVault
