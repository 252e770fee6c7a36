import CallStake.StakeVault.Effects

/-!
# What a call does to the settings

* `invoke_settings`: once initialized, no call changes the identity, and only the calls that the
  gate exempts change the gated settings while a multi-sig configuration is stored.
* `Established`: a multi-sig configuration is only stored in an initialized vault.
-/

namespace CallStake.StakeVault

open Tx

variable {τ : Type}

/-- The settings that initialization fixes. -/
def ConfigStorage.identity (c : ConfigStorage) :
    Bool × Option Address × Option Address × Option Address :=
  (c.initialized, c.admin, c.stakeToken, c.signalRegistry)

/-- The settings behind the multi-sig gate. -/
structure GatedSettings where
  paused : Bool
  minimumStake : Int
  minimumStakeDuration : Nat
  slashTierConfig : SlashTierConfig
  appealWindowSecs : Nat
  withdrawalCooldownSecs : Nat

/-- The settings that a multi-sig configuration takes out of the administrator's hands. -/
def ConfigStorage.gated (c : ConfigStorage) : GatedSettings where
  paused := c.paused
  minimumStake := c.minimumStake
  minimumStakeDuration := c.minimumStakeDuration
  slashTierConfig := c.slashTierConfig
  appealWindowSecs := c.appealWindowSecs
  withdrawalCooldownSecs := c.withdrawalCooldownSecs

/-- The calls that may pass the gate: the multi-sig's own and those of governance. -/
def Call.Exempt : Call → Prop
  | .executeAction .. | .setMultisigConfig .. | .applyGovernancePause .. |
    .governanceConfigureSlashTiers .. => True
  | _ => False

/-- The settings of `w'` come from those of `w` by a call of `c` to an initialized vault. -/
structure SettingsKept (c : Call) (w w' : World τ) : Prop where
  identity : w'.store.config.identity = w.store.config.identity
  gated : c.Exempt ∨ w.store.multisig.config = none ∨ w'.store.config.gated = w.store.config.gated

/-- An action changes no more than the gated settings. -/
theorem performAction_identity {env : Env τ} {action : Action} {w w' : World τ}
    (h : performAction env action w = (.ok (), w')) :
    w'.store.config.identity = w.store.config.identity := by
  cases action with
  | resolveAppeal slashId uphold =>
    have hw : Writes [.stake, .slash, .token] (doResolveAppeal env slashId uphold) := inferInstance
    rw [(hw.of_run h).config (by simp)]
  | _ =>
    simp [performAction, setPaused, validateSlashTiers, validateCooldown] at h
    first
    | obtain rfl := h
    | obtain ⟨-, rfl⟩ := h
    rfl

/-- The call that sets the identity of the vault. -/
def Call.Initializes : Call → Prop
  | .initializeVault .. => True
  | _ => False

section Writers

variable {env : Env τ} {c : Call} {w w' : World τ} {u : Unit}

theorem reads_requireAdmin : Tx.Reads (requireAdmin env) :=
  reads_bind (reads_gets _) fun _ => reads_bind (reads_ofOption _ _) fun _ => reads_failIf _ _

theorem reads_expectAdmin : Tx.Reads (expectAdmin env) :=
  reads_bind (reads_gets _) fun _ => reads_bind (reads_ofOption _ _) fun _ => reads_failIf _ _

theorem reads_guardUpgrade (n : Nat) : Tx.Reads (guardUpgrade (τ := τ) n) :=
  reads_bind (reads_gets _) fun _ => reads_failIf _ _

theorem reads_validateSlashTiers (a b d : Nat) : Tx.Reads (validateSlashTiers (τ := τ) a b d) :=
  reads_bind (reads_failIf _ _) fun _ => reads_failIf _ _

/-- What is behind the gate returns only while the gate is open. -/
theorem bind_requireNoMultisig_ok {k : Unit → V τ Unit} (h : (requireNoMultisig >>= k) w = (.ok u, w')) :
    w.store.multisig.config = none ∧ k () w = (.ok u, w') := by
  obtain ⟨_, w₁, hgate, hk⟩ := Tx.bind_ok.mp h
  obtain ⟨hnone, rfl⟩ := requireNoMultisig_ok.mp hgate
  exact ⟨hnone, hk⟩

/-- A setting that is not the identity is written after the reads. -/
theorem SettingsKept.behindGate (hnone : w.store.multisig.config = none) {f : Storage → Storage}
    (h : save f w = (.ok u, w')) (hf : ∀ s, (f s).config.identity = s.config.identity) : SettingsKept c w w' := by
  obtain rfl := save_ok.mp h
  exact ⟨hf _, .inr (.inl hnone)⟩

/-- A setting that is neither. -/
theorem SettingsKept.outside {f : Storage → Storage} (h : save f w = (.ok u, w'))
    (hf : ∀ s, (f s).config.identity = s.config.identity) (hg : ∀ s, (f s).config.gated = s.config.gated) :
    SettingsKept c w w' := by
  obtain rfl := save_ok.mp h
  exact ⟨hf _, .inr (.inr (hg _))⟩

theorem SettingsKept.exempt (hc : c.Exempt) {f : Storage → Storage} (h : save f w = (.ok u, w'))
    (hf : ∀ s, (f s).config.identity = s.config.identity) : SettingsKept c w w' := by
  obtain rfl := save_ok.mp h
  exact ⟨hf _, .inl hc⟩

theorem upgradeWithMigrationGuard_kept {newVersion nextLayout : Nat} {keys : List Symbol}
    (h : upgradeWithMigrationGuard env newVersion nextLayout keys w = (.ok u, w')) : SettingsKept c w w' := by
  obtain ⟨_, h₁⟩ := bind_ok_of_reads reads_requireAdmin h
  obtain ⟨_, h₂⟩ := bind_ok_of_reads (reads_guardUpgrade _) h₁
  obtain ⟨_, w₁, hguard, h₃⟩ := Tx.bind_ok.mp h₂
  obtain ⟨_, hguard⟩ := bind_ok_of_reads (reads_gets _) hguard
  obtain ⟨_, hguard⟩ := bind_ok_of_reads (reads_ofOption _ _) hguard
  obtain ⟨_, hguard⟩ := bind_ok_of_reads (reads_failIf _ _) hguard
  obtain ⟨_, hguard⟩ := bind_ok_of_reads (reads_failIf _ _) hguard
  obtain rfl := save_ok.mp hguard
  obtain rfl := save_ok.mp h₃
  exact ⟨rfl, .inr (.inr rfl)⟩

/-- A call that returned and may write the settings. The writers ask for the gate to be open, or write what is not
behind it. -/
theorem settingsKept_of_ok (hi : w.store.config.initialized = true ∨ ¬ c.Initializes) (hf : .config ∈ c.footprint)
    (h : invoke env c w = (.ok u, w')) : SettingsKept c w w' := by
  cases c with
  | executeAction =>
    obtain ⟨_, _, action, -, -, -, -, -, -, w₁, hd, p, -, rfl⟩ := executeAction_ok h
    have hid := performAction_identity hd
    exact ⟨hid, .inl trivial⟩
  | initializeVault =>
    rcases hi with hi | hn
    · simp [invoke, initializeVault, hi] at h
    · exact absurd trivial hn
  | applyGovernancePause =>
    obtain ⟨_, h₁⟩ := bind_ok_of_reads (reads_gets _) h
    obtain ⟨_, h₂⟩ := bind_ok_of_reads (reads_ofOption _ _) h₁
    obtain ⟨_, h₃⟩ := bind_ok_of_reads (reads_failIf _ _) h₂
    exact .exempt trivial h₃ fun _ => rfl
  | governanceConfigureSlashTiers =>
    obtain ⟨_, h₁⟩ := bind_ok_of_reads (reads_gets _) h
    obtain ⟨_, h₂⟩ := bind_ok_of_reads (reads_ofOption _ _) h₁
    obtain ⟨_, h₃⟩ := bind_ok_of_reads (reads_failIf _ _) h₂
    obtain ⟨_, h₄⟩ := bind_ok_of_reads (reads_failIf _ _) h₃
    obtain ⟨_, h₅⟩ := bind_ok_of_reads (reads_validateSlashTiers _ _ _) h₄
    exact .exempt trivial h₅ fun _ => rfl
  | upgrade =>
    obtain ⟨_, h₁⟩ := bind_ok_of_reads reads_requireAdmin h
    obtain ⟨_, h₂⟩ := bind_ok_of_reads (reads_guardUpgrade _) h₁
    exact .outside h₂ (fun _ => rfl) fun _ => rfl
  | upgradeWithMigrationGuard => exact upgradeWithMigrationGuard_kept h
  | setGovernance =>
    obtain ⟨_, h₁⟩ := bind_ok_of_reads (reads_gets _) h
    obtain ⟨_, h₂⟩ := bind_ok_of_reads (reads_ofOption _ _) h₁
    obtain ⟨_, h₃⟩ := bind_ok_of_reads (reads_failIf _ _) h₂
    obtain ⟨_, h₄⟩ := bind_ok_of_reads (reads_failIf _ _) h₃
    exact .outside h₄ (fun _ => rfl) fun _ => rfl
  | setLockMultiplierTier =>
    obtain ⟨_, h₁⟩ := bind_ok_of_reads reads_requireAdmin h
    obtain ⟨_, h₂⟩ := bind_ok_of_reads (reads_failIf _ _) h₁
    exact .outside h₂ (fun _ => rfl) fun _ => rfl
  | setSlashCooldown =>
    obtain ⟨_, h₁⟩ := bind_ok_of_reads reads_expectAdmin h
    exact .outside h₁ (fun _ => rfl) fun _ => rfl
  | pause | unpause | setMinimumStake =>
    obtain ⟨hnone, h₁⟩ := bind_requireNoMultisig_ok h
    obtain ⟨_, h₂⟩ := bind_ok_of_reads reads_expectAdmin h₁
    exact .behindGate hnone h₂ fun _ => rfl
  | setMinimumStakeDuration | setMaxUnstakeQueueSize =>
    obtain ⟨hnone, h₁⟩ := bind_requireNoMultisig_ok h
    obtain ⟨_, h₂⟩ := bind_ok_of_reads reads_requireAdmin h₁
    exact .behindGate hnone h₂ fun _ => rfl
  | setWithdrawalCooldown | setAppealWindow =>
    obtain ⟨hnone, h₁⟩ := bind_requireNoMultisig_ok h
    obtain ⟨_, h₂⟩ := bind_ok_of_reads reads_requireAdmin h₁
    obtain ⟨_, h₃⟩ := bind_ok_of_reads (reads_failIf _ _) h₂
    exact .behindGate hnone h₃ fun _ => rfl
  | configureSlashTiers =>
    obtain ⟨hnone, h₁⟩ := bind_requireNoMultisig_ok h
    obtain ⟨_, h₂⟩ := bind_ok_of_reads reads_requireAdmin h₁
    obtain ⟨_, h₃⟩ := bind_ok_of_reads (reads_validateSlashTiers _ _ _) h₂
    exact .behindGate hnone h₃ fun _ => rfl
  | _ => exact absurd hf (by simp [Call.footprint])

end Writers

/-- The identity is fixed by the initialization, and the gate holds for the settings. -/
theorem invoke_settings (env : Env τ) (c : Call) (w : World τ)
    (hi : w.store.config.initialized = true ∨ ¬ c.Initializes) :
    SettingsKept c w ((invoke env c).exec w) := by
  have hsame := (invoke_writes env c).exec w
  rcases exec_cases (invoke env c) w with ⟨u, h⟩ | h
  · by_cases hf : .config ∈ c.footprint
    · exact settingsKept_of_ok hi hf h
    · have hc := hsame.config hf
      exact ⟨by rw [hc], .inr (.inr (by rw [hc]))⟩
  · rw [h]
    exact ⟨rfl, .inr (.inr rfl)⟩

/-! ## A multi-sig configuration needs an administrator -/

/-- The multi-sig storage is only written with a configuration or an administrator. -/
theorem invoke_multisig (env : Env τ) (c : Call) (w : World τ) :
    ((invoke env c).exec w).store.multisig = w.store.multisig ∨
      w.store.multisig.config.isSome = true ∨ w.store.config.admin.isSome = true := by
  rcases exec_cases (invoke env c) w with ⟨u, h⟩ | h
  · by_cases hf : .multisig ∈ c.footprint
    · cases c
      case setMultisigConfig caller config =>
        simp only [invoke, setMultisigConfig, bind_ok, requireAuth_ok, load_ok, ofOption_ok] at h
        obtain ⟨_, _, ⟨-, rfl⟩, _, _, ⟨rfl, rfl⟩, admin, _, ⟨ha, rfl⟩, -⟩ := h
        exact .inr (.inr (by rw [ha]; rfl))
      case proposeAction caller payload =>
        simp only [invoke, proposeAction, void_ok, bind_ok, requireAuth_ok, timestamp_ok,
          onMultisig_ok, Multisig.propose_ok] at h
        obtain ⟨_, _, _, ⟨-, rfl⟩, _, _, ⟨rfl, rfl⟩, _, ⟨config, hc, -⟩, -⟩ := h
        exact .inr (.inl (by rw [hc]; rfl))
      case approveAction caller proposalId =>
        simp only [invoke, approveAction, void_ok, bind_ok, requireAuth_ok, timestamp_ok,
          onMultisig_ok, Multisig.approve_ok] at h
        obtain ⟨_, _, _, ⟨-, rfl⟩, _, _, ⟨rfl, rfl⟩, _, ⟨config, hc, -⟩, -⟩ := h
        exact .inr (.inl (by rw [hc]; rfl))
      case executeAction caller proposalId =>
        obtain ⟨config, _, action, hc, -⟩ := executeAction_ok h
        exact .inr (.inl (by rw [hc]; rfl))
      all_goals simp [Call.footprint] at hf
    · exact .inl (((invoke_writes env c).exec w).multisig hf)
  · exact .inl (by rw [h])

/-- Who has an administrator is initialized, and who has a multi-sig configuration has an
administrator. -/
structure Established (s : Storage) : Prop where
  initialized : s.config.admin.isSome = true → s.config.initialized = true ∧ s.config.stakeToken.isSome = true
  administered : s.multisig.config.isSome = true → s.config.admin.isSome = true

/-- Nobody has an administrator or a configuration before the initialization. -/
theorem Established.of_none {s : Storage} (ha : s.config.admin = none)
    (hm : s.multisig.config = none) : Established s :=
  ⟨fun h => by simp [ha] at h, fun h => by simp [hm] at h⟩

theorem Established.invoke {env : Env τ} {c : Call} {w : World τ} (h : Established w.store) :
    Established ((invoke env c).exec w).store := by
  have hid : ∀ {w' : World τ}, w'.store.config.identity = w.store.config.identity →
      w'.store.config.initialized = w.store.config.initialized ∧
      w'.store.config.admin = w.store.config.admin ∧
      w'.store.config.stakeToken = w.store.config.stakeToken := by
    intro w' he
    simp [ConfigStorage.identity] at he
    exact ⟨he.1, he.2.1, he.2.2.1⟩
  cases ha : w.store.config.admin with
  | some admin =>
    have hsome : w.store.config.admin.isSome = true := by rw [ha]; rfl
    obtain ⟨hi, ht⟩ := h.initialized hsome
    obtain ⟨h1, h2, h3⟩ := hid (invoke_settings env c w (.inl hi)).identity
    exact ⟨fun _ => ⟨h1.trans hi, h3 ▸ ht⟩, fun _ => h2 ▸ hsome⟩
  | none =>
    have hm : w.store.multisig.config = none := by
      cases hc : w.store.multisig.config with
      | none => rfl
      | some cfg =>
        have := h.administered (by rw [hc]; rfl)
        rw [ha] at this
        cases this
    have hm' : ((StakeVault.invoke env c).exec w).store.multisig.config = none := by
      rcases invoke_multisig env c w with he | hs | hs
      · rw [he]; exact hm
      · rw [hm] at hs; cases hs
      · rw [ha] at hs; cases hs
    by_cases hc : c.Initializes
    · cases c with
      | initializeVault admin token registry =>
        refine ⟨fun _ => ?_, fun hx => by rw [hm'] at hx; cases hx⟩
        rcases exec_cases (StakeVault.invoke env (.initializeVault admin token registry)) w with
          ⟨u, hx⟩ | hx
        · generalize (StakeVault.invoke env (.initializeVault admin token registry)).exec w = w' at hx
          simp [StakeVault.invoke, initializeVault] at hx
          obtain ⟨-, rfl⟩ := hx
          exact ⟨rfl, rfl⟩
        · rename_i hsome
          rw [hx, ha] at hsome
          cases hsome
      | _ => exact hc.elim
    · obtain ⟨-, h2, -⟩ := hid (invoke_settings env c w (.inr hc)).identity
      exact .of_none (h2.trans ha) hm'

theorem Reachable.established {T : Tokens τ} {self : Address} {w : World τ}
    (h : Reachable T self w) : Established w.store := by
  obtain ⟨ledger, token, hr⟩ := h
  refine hr.invariant (I := fun w => Established w.store) (.of_none rfl rfl) ?_
  rintro a ev b ha ⟨-, rfl⟩
  cases ev with
  | call => exact ha.invoke
  | advance | external => exact ha

end CallStake.StakeVault
