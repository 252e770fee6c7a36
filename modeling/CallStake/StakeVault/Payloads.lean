import CallStake.Lib.Bytes
import CallStake.StakeVault.Settings

/-!
# Actions by proposal and by the administrator

Every privileged action has an entrypoint of the administrator, which a multi-sig configuration closes, and a payload
for a proposal. Both ways do the same.

* `encodeAction`, `Action.payload`: the tag of an action and its arguments, the lowest byte first.
* `decodeAction_payload`: a payload is read back as the action it was made of, if the arguments have their types.
* `Action.direct`: the entrypoint of the administrator; `direct_ok`: it is the action itself behind its gates.
* `executeAction_agrees`: an approved proposal is executed iff the administrator could have called the entrypoint.
-/

namespace CallStake.StakeVault

/-! ## Payloads -/

namespace ActionTag

def PAUSE : UInt8 := 0
def UNPAUSE : UInt8 := 1
def SET_MINIMUM_STAKE : UInt8 := 2
def SET_MINIMUM_STAKE_DURATION : UInt8 := 3
def CONFIGURE_SLASH_TIERS : UInt8 := 4
def SET_APPEAL_WINDOW : UInt8 := 5
def SET_WITHDRAWAL_COOLDOWN : UInt8 := 6
def RESOLVE_APPEAL : UInt8 := 7

end ActionTag

def encodeAction (tag : UInt8) (data : Bytes) : Bytes := tag :: data

def encodeI128Bytes (value : Int) : Bytes := toLeBytes 16 (twosComplement value)

/-- The payload that asks for an action. -/
def Action.payload : Action → Bytes
  | .pause => encodeAction ActionTag.PAUSE []
  | .unpause => encodeAction ActionTag.UNPAUSE []
  | .setMinimumStake minimum => encodeAction ActionTag.SET_MINIMUM_STAKE (encodeI128Bytes minimum)
  | .setMinimumStakeDuration duration => encodeAction ActionTag.SET_MINIMUM_STAKE_DURATION (toLeBytes 8 duration)
  | .configureSlashTiers minor major critical => encodeAction ActionTag.CONFIGURE_SLASH_TIERS
    (encodeI128Bytes minor ++ encodeI128Bytes major ++ encodeI128Bytes critical)
  | .setAppealWindow window => encodeAction ActionTag.SET_APPEAL_WINDOW (toLeBytes 8 window)
  | .setWithdrawalCooldown cooldown => encodeAction ActionTag.SET_WITHDRAWAL_COOLDOWN (toLeBytes 8 cooldown)
  | .resolveAppeal slashId uphold => encodeAction ActionTag.RESOLVE_APPEAL
    (toLeBytes 8 slashId ++ [if uphold then 1 else 0])

/-- The arguments are values of their types. -/
def Action.WellTyped : Action → Prop
  | .pause | .unpause => True
  | .setMinimumStake minimum => InRange minimum
  | .setMinimumStakeDuration n | .setAppealWindow n | .setWithdrawalCooldown n | .resolveAppeal n _ => n ≤ u64Max
  | .configureSlashTiers minor major critical => minor ≤ u32Max ∧ major ≤ u32Max ∧ critical ≤ u32Max

section Decoding

variable {x : Nat} {v : Int}

theorem decodeLe_toLeBytes (before rest : Bytes) (w x : Nat) :
    decodeLe (before ++ (toLeBytes w x ++ rest)) before.length w = x % 256 ^ w := by
  induction w generalizing before x with
  | zero => rw [decodeLe, Nat.pow_zero, Nat.mod_one]
  | succ w ih =>
    have hbyte : (before ++ (toLeBytes (w + 1) x ++ rest)).getD before.length 0 = UInt8.ofNat (x % 256) := by
      simp [toLeBytes]
    have hnext : before ++ (toLeBytes (w + 1) x ++ rest) =
        (before ++ [UInt8.ofNat (x % 256)]) ++ (toLeBytes w (x / 256) ++ rest) := by
      simp [toLeBytes]
    have hlen : before.length + 1 = (before ++ [UInt8.ofNat (x % 256)]).length := by simp
    rw [decodeLe, hbyte, hnext, hlen, ih]
    have hval : (UInt8.ofNat (x % 256)).toNat = x % 256 := by simp
    rw [hval, Nat.pow_succ', Nat.mod_mul]

theorem decodeLe_u64 (before rest : Bytes) (h : x ≤ u64Max) :
    decodeLe (before ++ (toLeBytes 8 x ++ rest)) before.length 8 = x := by
  rw [decodeLe_toLeBytes, Nat.mod_eq_of_lt]
  unfold u64Max at h
  omega

theorem decodeI128_encode (before rest : Bytes) (h : InRange v) :
    decodeI128FromBytes (before ++ (encodeI128Bytes v ++ rest)) before.length = v := by
  unfold decodeI128FromBytes encodeI128Bytes
  rw [decodeLe_toLeBytes, Nat.mod_eq_of_lt (twosComplement_lt v)]
  unfold InRange i128Min i128Max at h
  unfold twosComplement
  dsimp only
  split <;> omega

@[simp] theorem length_encodeI128Bytes (v : Int) : (encodeI128Bytes v).length = 16 := length_toLeBytes _ _

theorem inRange_u32 (h : x ≤ u32Max) : InRange (x : Int) ∧ asU32 (x : Int) = x := by
  unfold InRange i128Min i128Max asU32
  unfold u32Max at h
  omega

/-- A payload is read back as the action that it was made of. -/
theorem decodeAction_payload {a : Action} (h : a.WellTyped) : decodeAction a.payload = some a := by
  cases a with
  | pause | unpause => rfl
  | setMinimumStake =>
    have hm := decodeI128_encode [ActionTag.SET_MINIMUM_STAKE] [] h
    rw [List.append_nil] at hm
    exact congrArg (fun n => some (Action.setMinimumStake n)) hm
  | setMinimumStakeDuration n =>
    have hn := decodeLe_u64 [ActionTag.SET_MINIMUM_STAKE_DURATION] [] h
    rw [List.append_nil] at hn
    exact congrArg (fun n => some (Action.setMinimumStakeDuration n)) hn
  | setAppealWindow n =>
    have hn := decodeLe_u64 [ActionTag.SET_APPEAL_WINDOW] [] h
    rw [List.append_nil] at hn
    exact congrArg (fun n => some (Action.setAppealWindow n)) hn
  | setWithdrawalCooldown n =>
    have hn := decodeLe_u64 [ActionTag.SET_WITHDRAWAL_COOLDOWN] [] h
    rw [List.append_nil] at hn
    exact congrArg (fun n => some (Action.setWithdrawalCooldown n)) hn
  | configureSlashTiers minor major critical =>
    obtain ⟨h1, h2, h3⟩ := h
    -- the three fields start at the bytes 1, 17 and 33
    have hminor := decodeI128_encode [ActionTag.CONFIGURE_SLASH_TIERS]
      (encodeI128Bytes major ++ encodeI128Bytes critical) (inRange_u32 h1).1
    have hmajor := decodeI128_encode (ActionTag.CONFIGURE_SLASH_TIERS :: encodeI128Bytes minor)
      (encodeI128Bytes critical) (inRange_u32 h2).1
    have hcritical := decodeI128_encode
      (ActionTag.CONFIGURE_SLASH_TIERS :: (encodeI128Bytes minor ++ encodeI128Bytes major)) [] (inRange_u32 h3).1
    simp at hminor hmajor hcritical
    have hdecode : decodeAction (Action.configureSlashTiers minor major critical).payload =
        some (.configureSlashTiers
          (asU32 (decodeI128FromBytes (Action.configureSlashTiers minor major critical).payload 1))
          (asU32 (decodeI128FromBytes (Action.configureSlashTiers minor major critical).payload 17))
          (asU32 (decodeI128FromBytes (Action.configureSlashTiers minor major critical).payload 33))) := rfl
    rw [hdecode]
    simp only [Action.payload, encodeAction, List.append_assoc]
    rw [hminor, hmajor, hcritical, (inRange_u32 h1).2, (inRange_u32 h2).2, (inRange_u32 h3).2]
  | resolveAppeal n uphold =>
    have hn := decodeLe_u64 [ActionTag.RESOLVE_APPEAL] [if uphold then 1 else 0] h
    have hflag : decide ((Action.resolveAppeal n uphold).payload.getD 9 0 = 1) = uphold := by
      cases uphold <;> rfl
    exact congrArg some (congrArg₂ Action.resolveAppeal hn hflag)

end Decoding

/-! ## The administrator's way -/

section Direct

variable {τ : Type} {T : Tokens τ} {vault : Address} {auth auth' : Auth} {env : Env τ} {w w' w₁ w₂ : World τ}
  {a : Action} {u : Unit}

/-- The entrypoint of the administrator for an action. -/
def Action.direct (env : Env τ) : Action → V τ Unit
  | .pause => StakeVault.pause env
  | .unpause => StakeVault.unpause env
  | .setMinimumStake minimum => StakeVault.setMinimumStake env minimum
  | .setMinimumStakeDuration duration => StakeVault.setMinimumStakeDuration env duration
  | .configureSlashTiers minor major critical => StakeVault.configureSlashTiers env minor major critical
  | .setAppealWindow window => StakeVault.setAppealWindow env window
  | .setWithdrawalCooldown cooldown => StakeVault.setWithdrawalCooldown env cooldown
  | .resolveAppeal slashId uphold => StakeVault.resolveAppeal env slashId uphold

@[simp] theorem expectAdmin_ok : (expectAdmin env : V τ Unit) w = (.ok u, w') ↔
    ∃ admin, w.store.config.admin = some admin ∧ env.auth admin = true ∧ w = w' := by
  simp [expectAdmin, and_assoc]

/-- What is behind the gate and a check of the administrator. -/
theorem gate_ok {g x : V τ Unit} (hg : ∀ u w', g w = (.ok u, w') ↔
      ∃ admin, w.store.config.admin = some admin ∧ env.auth admin = true ∧ w = w') :
    (requireNoMultisig >>= fun _ => g >>= fun _ => x) w = (.ok u, w') ↔ w.store.multisig.config = none ∧
      (∃ admin, w.store.config.admin = some admin ∧ env.auth admin = true) ∧ x w = (.ok u, w') := by
  rw [Tx.bind_ok]
  constructor
  · rintro ⟨_, _, hm, h⟩
    obtain ⟨hnone, rfl⟩ := requireNoMultisig_ok.mp hm
    obtain ⟨_, _, ha, hx⟩ := Tx.bind_ok.mp h
    obtain ⟨admin, hsome, hauth, rfl⟩ := (hg _ _).mp ha
    exact ⟨hnone, ⟨admin, hsome, hauth⟩, hx⟩
  · rintro ⟨hm, ⟨admin, ha, hauth⟩, hx⟩
    exact ⟨(), w, requireNoMultisig_ok.mpr ⟨hm, rfl⟩,
      Tx.bind_ok.mpr ⟨(), w, (hg _ _).mpr ⟨admin, ha, hauth, rfl⟩, hx⟩⟩

/-- An entrypoint is the action behind the gate and the authorization of the administrator. -/
theorem direct_ok : a.direct env w = (.ok u, w') ↔ w.store.multisig.config = none ∧
    (∃ admin, w.store.config.admin = some admin ∧ env.auth admin = true) ∧
    performAction env a w = (.ok u, w') := by
  cases a with
  | pause | unpause | setMinimumStake => exact gate_ok fun _ _ => expectAdmin_ok
  | setMinimumStakeDuration | configureSlashTiers | setAppealWindow | setWithdrawalCooldown | resolveAppeal =>
    exact gate_ok fun _ _ => requireAdmin_ok

/-- Who authorized the call makes no difference to an action. -/
theorem performAction_auth (a : Action) :
    performAction ⟨T, vault, auth⟩ a = performAction ⟨T, vault, auth'⟩ a := by
  cases a <;> rfl

/-! ## The records of the multi-sig -/

/-- The worlds differ in the records of the multi-sig only. -/
def Ungoverned (w w' : World τ) : Prop := ∃ m, w' = { w with store.multisig := m }

section Respects

open Tx

theorem respects_load {α : Type} {f : Storage → α} (hf : ∀ s m, f { s with multisig := m } = f s) :
    Respects Ungoverned (load f : V τ α) :=
  respects_gets fun s t ⟨m, h⟩ => by rw [h]; exact (hf _ m).symm

theorem respects_timestamp : Respects Ungoverned (timestamp : V τ Nat) := respects_gets fun s t ⟨m, h⟩ => by rw [h]

theorem respects_save {f : Storage → Storage}
    (hf : ∀ s m, f { s with multisig := m } = { f s with multisig := m }) :
    Respects Ungoverned (save f : V τ Unit) :=
  respects_modify fun s t ⟨m, h⟩ => ⟨m, by rw [h]; exact congrArg (World.mk _ · _ _) (hf _ m)⟩

theorem respects_tryBurn {token src : Address} {amount : Int} :
    Respects Ungoverned (tryBurn env token src amount : V τ Unit) :=
  respects_mapErr _ ⟨by
    rintro s _ ⟨m, rfl⟩
    unfold invokeToken
    dsimp only
    cases env.tokens.burn token src amount s.token with
    | error e => exact ⟨rfl, m, rfl⟩
    | ok t => exact ⟨rfl, m, rfl⟩⟩

theorem respects_upholdSlash {token : Address} {slashId : Nat} {held : Int} :
    Respects Ungoverned (upholdSlash env token slashId held : V τ Unit) :=
  respects_ite (respects_bind (respects_save fun _ _ => rfl) fun _ => respects_tryBurn) (respects_pure _)

theorem respects_reverseSlash {record : SlashRecord} {slashId : Nat} {held : Int} :
    Respects Ungoverned (reverseSlash record slashId held : V τ Unit) :=
  respects_bind (respects_load fun _ _ => rfl) fun _ => respects_bind respects_timestamp fun _ =>
    respects_bind (respects_save fun _ _ => rfl) fun _ => respects_save fun _ _ => rfl

theorem respects_doResolveAppeal {slashId : Nat} {uphold : Bool} :
    Respects Ungoverned (doResolveAppeal env slashId uphold : V τ Unit) := by
  refine respects_bind (respects_load fun _ _ => rfl) fun _ => respects_bind (respects_ofOption _ _) fun record =>
    respects_bind (respects_load fun _ _ => rfl) fun _ => respects_bind (respects_ofOption _ _) fun appeal =>
    respects_bind (respects_failIf _ _) fun _ => respects_bind (respects_load fun _ _ => rfl) fun held =>
    respects_bind (respects_bind (respects_load fun _ _ => rfl) fun _ => respects_ofOption _ _) fun token =>
    respects_bind ?_ fun _ => respects_save fun _ _ => rfl
  cases uphold with
  | true => exact respects_upholdSlash
  | false => exact respects_reverseSlash

theorem respects_performAction (a : Action) : Respects Ungoverned (performAction env a : V τ Unit) := by
  unfold performAction setPaused
  cases a with
  | pause | unpause | setMinimumStake | setMinimumStakeDuration => exact respects_save fun _ _ => rfl
  | configureSlashTiers =>
    exact respects_bind (respects_bind (respects_failIf _ _) fun _ => respects_failIf _ _) fun _ =>
      respects_save fun _ _ => rfl
  | setAppealWindow | setWithdrawalCooldown =>
    exact respects_bind (respects_failIf _ _) fun _ => respects_save fun _ _ => rfl
  | resolveAppeal => exact respects_doResolveAppeal

end Respects

/-- An action leaves the records of the multi-sig alone. -/
theorem performAction_multisig (h : performAction env a w = (.ok u, w')) :
    w'.store.multisig = w.store.multisig := by
  rcases performAction_cases h with hs | ⟨slashId, uphold, rfl, hr⟩
  · exact hs.multisig (by simp)
  · have hw : Writes [.stake, .slash, .token] (doResolveAppeal env slashId uphold) := inferInstance
    exact (hw.of_run hr).multisig (by simp)

/-- The vault as it would be without a multi-sig configuration. -/
def World.withoutMultisig (w : World τ) : World τ := { w with store.multisig.config := none }

/-- The proposal is pending with enough approvals, has not expired, and carries the payload. -/
structure Approved (w : World τ) (proposalId : Nat) (payload : Bytes) : Prop where
  approved : ∃ config proposal, w.store.multisig.config = some config ∧
    w.store.multisig.proposals.lookup proposalId = some proposal ∧ proposal.status = .pending ∧
    config.threshold ≤ proposal.approvals.length ∧ w.ledger.timestamp ≤ proposal.expiresAt ∧
    proposal.payload = payload

/-- An approved proposal is executed iff its action returns. -/
theorem executeAction_iff {caller : Address} {proposalId : Nat} (ha : a.WellTyped)
    (hx : Approved w proposalId a.payload) (hcaller : env.auth caller = true) :
    executeAction env caller proposalId w = (.ok u, w') ↔
      ∃ w₁ p, performAction env a w = (.ok (), w₁) ∧
        w.store.multisig.proposals.lookup proposalId = some p ∧
        { w₁ with store.multisig.proposals :=
          w₁.store.multisig.proposals.insert proposalId { p with status := .executed } } = w' := by
  obtain ⟨config, proposal, hc, hp, hpending, hthreshold, hexpiry, hpayload⟩ := hx.approved
  have hdecode : decodeAction proposal.payload = some a := by rw [hpayload]; exact decodeAction_payload ha
  constructor
  · intro h
    obtain ⟨_, proposal', a', -, hp', -, -, -, ha', w₁, hrun, p, hp₁, rfl⟩ := executeAction_ok h
    rw [hp] at hp'
    cases hp'
    rw [hdecode] at ha'
    cases ha'
    rw [performAction_multisig hrun] at hp₁
    exact ⟨w₁, p, hrun, hp₁, rfl⟩
  · rintro ⟨w₁, p, hrun, hp', rfl⟩
    rw [hp] at hp'
    cases hp'
    have hmark : w₁.store.multisig.proposals.lookup proposalId = some proposal := by
      rw [performAction_multisig hrun]; exact hp
    simp only [executeAction, Tx.bind_ok, requireAuth_ok, onMultisig_ok, Multisig.getProposal_ok, timestamp_ok,
      Multisig.requireCanExecute_ok, Tx.ofOption_ok, Multisig.markExecuted_ok]
    exact ⟨(), w, ⟨hcaller, rfl⟩, proposal, w, ⟨_, ⟨hp, rfl⟩, rfl⟩, _, w, ⟨rfl, rfl⟩, (), w,
      ⟨_, ⟨config, hc, hpending, hthreshold, hexpiry, rfl⟩, rfl⟩, a, w, ⟨hdecode, rfl⟩, (), w₁, hrun,
      ⟨_, ⟨proposal, hmark, hpending, rfl⟩, rfl⟩⟩

/-- Executing an approved proposal succeeds iff the administrator's own call would without the multi-sig, and leaves
the same but for the records of the multi-sig. -/
theorem executeAction_agrees {caller : Address} {proposalId : Nat} (hr : Reachable T vault w) (ha : a.WellTyped)
    (hx : Approved w proposalId a.payload) (hcaller : auth caller = true)
    (hadmin : ∀ admin, w.store.config.admin = some admin → auth' admin = true) :
    ((∃ w₁, executeAction ⟨T, vault, auth⟩ caller proposalId w = (.ok (), w₁)) ↔
      ∃ w₂, a.direct ⟨T, vault, auth'⟩ w.withoutMultisig = (.ok (), w₂)) ∧
    ∀ w₁ w₂, executeAction ⟨T, vault, auth⟩ caller proposalId w = (.ok (), w₁) →
      a.direct ⟨T, vault, auth'⟩ w.withoutMultisig = (.ok (), w₂) → Ungoverned w₂ w₁ := by
  have hgov : ∃ admin, w.store.config.admin = some admin := by
    obtain ⟨config, _, hc, -⟩ := hx.approved
    exact Option.isSome_iff_exists.mp (hr.established.administered (by rw [hc]; rfl))
  obtain ⟨admin, hsome⟩ := hgov
  have hdirect : ∀ w₂, a.direct ⟨T, vault, auth'⟩ w.withoutMultisig = (.ok (), w₂) ↔
      performAction ⟨T, vault, auth⟩ a w.withoutMultisig = (.ok (), w₂) := by
    intro w₂
    have hauth : performAction ⟨T, vault, auth'⟩ a = performAction ⟨T, vault, auth⟩ a := performAction_auth a
    rw [direct_ok, hauth]
    exact ⟨fun h => h.2.2, fun h => ⟨rfl, ⟨admin, hsome, hadmin admin hsome⟩, h⟩⟩
  have hrespects : Tx.Respects Ungoverned (performAction ⟨T, vault, auth⟩ a) := respects_performAction a
  have hsame := hrespects.run w.withoutMultisig w ⟨_, rfl⟩
  obtain ⟨_, p, -, hp, -⟩ := hx.approved
  rcases hrun : performAction ⟨T, vault, auth⟩ a w with ⟨r, w₁⟩
  rcases hrun' : performAction ⟨T, vault, auth⟩ a w.withoutMultisig with ⟨r', w₂⟩
  rw [hrun, hrun'] at hsame
  obtain ⟨hres, m, hw⟩ := hsame
  change r' = r at hres
  change w₁ = { w₂ with store.multisig := m } at hw
  subst hres hw
  have hcaller' : Env.auth ⟨T, vault, auth⟩ caller = true := hcaller
  simp only [executeAction_iff ha hx hcaller', hdirect, hrun, hrun']
  constructor
  · constructor
    · rintro ⟨_, _, _, hok, -⟩
      cases hok
      exact ⟨_, rfl⟩
    · rintro ⟨_, hok⟩
      cases hok
      exact ⟨_, _, p, rfl, hp, rfl⟩
  · rintro _ _ ⟨_, _, hok, -, rfl⟩ hok'
    cases hok
    cases hok'
    exact ⟨_, rfl⟩

end Direct

open Sample in
/-- Two signers ask for slash tiers. -/
def tiersProposed : World Balances :=
  started Balances.tokens funds
    [call (.setMultisigConfig admin (some ⟨[alice, bob], 2, 0⟩)),
      call (.proposeAction alice (Action.configureSlashTiers 100 200 300).payload), call (.approveAction bob 1)]

open Sample in
/-- The approved action does what the direct call does. -/
theorem executeAction_agrees_tiers :
    (executeAction ⟨Balances.tokens, vault, fun a => a = bob⟩ bob 1 tiersProposed).1 = .ok () ∧
      ((∃ w₁, executeAction ⟨Balances.tokens, vault, fun a => a = bob⟩ bob 1 tiersProposed = (.ok (), w₁)) ↔
        ∃ w₂, (Action.configureSlashTiers 100 200 300).direct ⟨Balances.tokens, vault, fun a => a = admin⟩
          tiersProposed.withoutMultisig = (.ok (), w₂)) := by
  have hr : Reachable Balances.tokens vault tiersProposed := reachable_run _ _ (by decide +kernel)
  have hx : Approved tiersProposed 1 (Action.configureSlashTiers 100 200 300).payload :=
    ⟨_, _, rfl, rfl, rfl, by decide +kernel, by decide +kernel, rfl⟩
  have hadmin : ∀ a, tiersProposed.store.config.admin = some a → decide (a = admin) = true := by
    rintro a ha
    cases (show some admin = some a from ha)
    rfl
  have ht : (Action.configureSlashTiers 100 200 300).WellTyped := ⟨by decide, by decide, by decide⟩
  exact ⟨rfl, (executeAction_agrees hr ht hx (by decide) hadmin).1⟩

end CallStake.StakeVault
