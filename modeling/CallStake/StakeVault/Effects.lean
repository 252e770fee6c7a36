import CallStake.StakeVault.Footprint

/-!
# What a call does to the stakes, the slashes and the tokens

One case per way a call can end, with what it checked and the world it leaves. Every invariant about
these regions is proved from this one case analysis.

* `Effect env w c w'`: the call `c` in `w` may leave `w'`.
* `invoke_effect`: a transaction has one of these effects.
* `SlashEffect`, `ResolveEffect`: what one slash or one resolution may leave, also when it fails.
* `slashEntries_rule`, `resolveEntries_rule`: what every entry of a batch keeps, the batch keeps. The
  worlds that the entries start in are `slashWorlds` and `resolveWorlds`.
-/

namespace CallStake.StakeVault

variable {τ : Type}

/-! ## Batches -/

/-- The world after one entry of a batch of slashes, whose error is swallowed. -/
def slashEntry (env : Env τ) (reason : Symbol) (w : World τ) (e : Address × SlashSeverity) :
    World τ :=
  (doSlash env e.1 e.2 reason w).2

/-- The world after one entry of a batch of resolutions, whose error is swallowed. -/
def resolveEntry (env : Env τ) (w : World τ) (e : Nat × Bool) : World τ := (doResolveAppeal env e.1 e.2 w).2

/-- The entries of a batch of slashes with the worlds they start in. -/
def slashWorlds (env : Env τ) (reason : Symbol) (w : World τ)
    (entries : List (Address × SlashSeverity)) : List (World τ × Address × SlashSeverity) :=
  Reaches.visited (slashEntry env reason) w entries

/-- The entries of a batch of resolutions with the worlds they start in. -/
def resolveWorlds (env : Env τ) (w : World τ) (entries : List (Nat × Bool)) :
    List (World τ × Nat × Bool) :=
  Reaches.visited (resolveEntry env) w entries

/-- What a batch of slashes reports for an entry. -/
def slashReport (env : Env τ) (reason : Symbol) (e : World τ × Address × SlashSeverity) : Int :=
  match (doSlash env e.2.1 e.2.2 reason e.1).1 with
  | .ok amount => amount
  | .error _ => 0

/-- A batch of resolutions counts the entry. -/
def Counted (env : Env τ) (e : World τ × Nat × Bool) : Bool := (doResolveAppeal env e.2.1 e.2.2 e.1).1.isOk

/-- A slash never traps. -/
theorem attempt_doSlash (env : Env τ) (provider : Address) (severity : SlashSeverity)
    (reason : Symbol) (w : World τ) :
    ∃ r, Tx.attempt (doSlash env provider severity reason) w =
      (.ok r, (doSlash env provider severity reason w).2) ∧
      (doSlash env provider severity reason w).1 = r.mapError .err := by
  rcases h : doSlash env provider severity reason w with ⟨q, w'⟩
  rcases q with e | n
  · obtain ⟨⟨x, rfl⟩, -⟩ := doSlash_error h
    exact ⟨.error x, Tx.attempt_ok.mpr (.inr ⟨x, rfl, h⟩), rfl⟩
  · exact ⟨.ok n, Tx.attempt_ok.mpr (.inl ⟨n, rfl, h⟩), rfl⟩

/-- A resolution never traps. -/
theorem attempt_doResolveAppeal (env : Env τ) (slashId : Nat) (uphold : Bool) (w : World τ) :
    ∃ r, Tx.attempt (doResolveAppeal env slashId uphold) w =
      (.ok r, (doResolveAppeal env slashId uphold w).2) ∧
      (doResolveAppeal env slashId uphold w).1 = r.mapError .err := by
  rcases h : doResolveAppeal env slashId uphold w with ⟨q, w'⟩
  rcases q with e | u
  · obtain ⟨⟨x, rfl⟩, -⟩ := doResolveAppeal_error h
    exact ⟨.error x, Tx.attempt_ok.mpr (.inr ⟨x, rfl, h⟩), rfl⟩
  · exact ⟨.ok u, Tx.attempt_ok.mpr (.inl ⟨u, rfl, h⟩), rfl⟩

/-- The loop of a batch of slashes runs through all entries and reports on each. -/
theorem slashEntries_run (env : Env τ) (reason : Symbol) (entries : List (Address × SlashSeverity))
    (w : World τ) : slashEntries env reason entries w =
      (.ok ((slashWorlds env reason w entries).map (slashReport env reason)),
        entries.foldl (slashEntry env reason) w) := by
  induction entries generalizing w with
  | nil => rfl
  | cons e rest ih =>
    obtain ⟨provider, severity⟩ := e
    obtain ⟨r, ha, hr⟩ := attempt_doSlash env provider severity reason w
    refine Tx.bind_ok.mpr ⟨r, _, ha, Tx.bind_ok.mpr ⟨_, _, ih _, Tx.pure_ok.mpr ⟨?_, rfl⟩⟩⟩
    simp only [slashWorlds, Reaches.visited, List.map_cons, slashReport, hr]
    cases r <;> rfl

/-- The loop of a batch of resolutions runs through all entries and counts the successful ones. -/
theorem resolveEntries_run (env : Env τ) (entries : List (Nat × Bool)) (w : World τ) :
    resolveEntries env entries w =
      (.ok ((resolveWorlds env w entries).countP (Counted env)), entries.foldl (resolveEntry env) w) := by
  induction entries generalizing w with
  | nil => rfl
  | cons e rest ih =>
    obtain ⟨slashId, uphold⟩ := e
    obtain ⟨r, ha, hr⟩ := attempt_doResolveAppeal env slashId uphold w
    refine Tx.bind_ok.mpr ⟨r, _, ha, Tx.bind_ok.mpr ⟨_, _, ih _, Tx.pure_ok.mpr ⟨?_, rfl⟩⟩⟩
    simp only [resolveWorlds, Reaches.visited, List.countP_cons, Counted, hr]
    cases r <;> rfl

/-- What every entry of a batch of slashes keeps, the batch keeps. -/
theorem slashEntries_rule {env : Env τ} {reason : Symbol} {P : World τ → Prop}
    {entries : List (Address × SlashSeverity)} {w w' : World τ} {amounts : List Int}
    (h : slashEntries env reason entries w = (.ok amounts, w'))
    (hstep : ∀ w₁ provider severity, (w₁, provider, severity) ∈ slashWorlds env reason w entries →
      P w₁ → P (doSlash env provider severity reason w₁).2) (h0 : P w) : P w' := by
  rw [slashEntries_run] at h
  cases h
  exact Reaches.foldl_rule (fun e he => hstep e.1 e.2.1 e.2.2 he) h0

/-- What every entry of a batch of resolutions keeps, the batch keeps. -/
theorem resolveEntries_rule {env : Env τ} {P : World τ → Prop} {entries : List (Nat × Bool)}
    {w w' : World τ} {n : Nat} (h : resolveEntries env entries w = (.ok n, w'))
    (hstep : ∀ w₁ slashId uphold, (w₁, slashId, uphold) ∈ resolveWorlds env w entries →
      P w₁ → P (doResolveAppeal env slashId uphold w₁).2) (h0 : P w) : P w' := by
  rw [resolveEntries_run] at h
  cases h
  exact Reaches.foldl_rule (fun e he => hstep e.1 e.2.1 e.2.2 he) h0

/-! ## Slashes and resolutions -/

/-- The token refuses the burn of a slash that has passed every check. -/
def SlashRefused (env : Env τ) (w : World τ) (provider : Address) (severity : SlashSeverity) :
    Prop :=
  ∃ token, w.store.config.stakeToken = some token ∧ ∃ info, Slashable w provider info ∧
    w.store.config.appealWindowSecs = 0 ∧
    ∃ f, env.tokens.burn token env.self (w.slashAmount provider severity info) w.token = .error f

/-- The token refuses the burn of an upheld slash that has passed every check. -/
def UpholdRefused (env : Env τ) (w : World τ) (slashId : Nat) (uphold : Bool) : Prop :=
  ∃ token, w.store.config.stakeToken = some token ∧ ∃ record appeal,
    Resolvable w slashId record appeal ∧ uphold = true ∧ 0 < heldFor w.store.slash slashId ∧
    ∃ f, env.tokens.burn token env.self (heldFor w.store.slash slashId) w.token = .error f

/-- A run of `doSlash` in `w`, successful or not, may leave the world `w'`. -/
inductive SlashEffect (env : Env τ) (provider : Address) (severity : SlashSeverity)
    (reason : Symbol) (w : World τ) : World τ → Prop
  | failed (hn : w.store.config.stakeToken = none ∨ ∀ info, ¬ Slashable w provider info) :
      SlashEffect env provider severity reason w w
  | held {info : StakeInfoV2} (hs : Slashable w provider info)
      (hwin : 0 < w.store.config.appealWindowSecs) :
      SlashEffect env provider severity reason w
        ((w.slashed provider severity reason info).hold w.store.slash.slashCounter
          (w.slashAmount provider severity info))
  | burned {token : Address} {info : StakeInfoV2} {t : τ}
      (htok : w.store.config.stakeToken = some token) (hs : Slashable w provider info)
      (ht : env.tokens.burn token env.self (w.slashAmount provider severity info) w.token = .ok t) :
      SlashEffect env provider severity reason w
        ((w.slashed provider severity reason info).burned env token
          (w.slashAmount provider severity info) t)
  | refused {info : StakeInfoV2} (hs : Slashable w provider info)
      (hr : SlashRefused env w provider severity) :
      SlashEffect env provider severity reason w (w.slashed provider severity reason info)

/-- A run of `doResolveAppeal` in `w`, successful or not, may leave the world `w'`. -/
inductive ResolveEffect (env : Env τ) (slashId : Nat) (uphold : Bool) (w : World τ) :
    World τ → Prop
  | failed (hn : w.store.config.stakeToken = none ∨
      ∀ record appeal, ¬ Resolvable w slashId record appeal) : ResolveEffect env slashId uphold w w
  | upheld {record : SlashRecord} {appeal : SlashAppeal} (hr : Resolvable w slashId record appeal)
      (h0 : heldFor w.store.slash slashId ≤ 0) :
      ResolveEffect env slashId uphold w (w.closed slashId appeal true)
  | burned {token : Address} {record : SlashRecord} {appeal : SlashAppeal} {t : τ}
      (htok : w.store.config.stakeToken = some token) (hr : Resolvable w slashId record appeal)
      (h0 : 0 < heldFor w.store.slash slashId)
      (ht : env.tokens.burn token env.self (heldFor w.store.slash slashId) w.token = .ok t) :
      ResolveEffect env slashId uphold w
        (((w.release slashId).burned env token (heldFor w.store.slash slashId) t).closed
          slashId appeal true)
  | reversed {record : SlashRecord} {appeal : SlashAppeal} (hr : Resolvable w slashId record appeal)
      (h0 : 0 < heldFor w.store.slash slashId) :
      ResolveEffect env slashId uphold w
        (((w.credited record.provider (heldFor w.store.slash slashId)).release slashId).closed
          slashId appeal false)
  /-- A reversal with nothing held credits the recorded amount. -/
  | unbacked {record : SlashRecord} {appeal : SlashAppeal} (hr : Resolvable w slashId record appeal)
      (hu : uphold = false) (h0 : heldFor w.store.slash slashId ≤ 0) :
      ResolveEffect env slashId uphold w
        ((w.credited record.provider record.slashAmount).closed slashId appeal false)
  | refused (hr : UpholdRefused env w slashId uphold) : ResolveEffect env slashId uphold w (w.release slashId)

theorem doSlash_effect (env : Env τ) (provider : Address) (severity : SlashSeverity)
    (reason : Symbol) (w : World τ) :
    SlashEffect env provider severity reason w (doSlash env provider severity reason w).2 := by
  rcases h : doSlash env provider severity reason w with ⟨r, w'⟩
  rcases r with e | n
  · obtain ⟨-, ⟨hn, rfl⟩ | ⟨token, htok, info, hs, hwin, hf, rfl⟩⟩ := doSlash_error h
    · exact .failed hn
    · exact .refused hs ⟨token, htok, info, hs, hwin, hf⟩
  · obtain ⟨token, htok, info, hs, rfl, ⟨hwin, rfl⟩ | ⟨-, t, ht, rfl⟩⟩ := doSlash_ok.mp h
    · exact .held hs hwin
    · exact .burned htok hs ht

theorem doResolveAppeal_effect (env : Env τ) (slashId : Nat) (uphold : Bool) (w : World τ) :
    ResolveEffect env slashId uphold w (doResolveAppeal env slashId uphold w).2 := by
  rcases h : doResolveAppeal env slashId uphold w with ⟨r, w'⟩
  rcases r with e | u
  · obtain ⟨-, ⟨hn, rfl⟩ | ⟨token, htok, record, appeal, hr, hu, h0, hf, rfl⟩⟩ :=
      doResolveAppeal_error h
    · exact .failed hn
    · exact .refused ⟨token, htok, record, appeal, hr, hu, h0, hf⟩
  · obtain ⟨token, htok, record, appeal, hr, ⟨-, h0, rfl⟩ | ⟨-, h0, t, ht, rfl⟩ | ⟨-, h0, rfl⟩ |
      ⟨hu, h0, rfl⟩⟩ := doResolveAppeal_ok h
    · exact .upheld hr h0
    · exact .burned htok hr h0 ht
    · exact .reversed hr h0
    · exact .unbacked hr hu h0

/-- A slash that returned was not refused its burn. -/
theorem not_slashRefused_of_ok {env : Env τ} {w w' : World τ} {provider : Address}
    {severity : SlashSeverity} {reason : Symbol} {n : Int}
    (hd : doSlash env provider severity reason w = (.ok n, w')) :
    ¬ SlashRefused env w provider severity := by
  rintro ⟨token, htok, info, hs, hwin, f, hf⟩
  obtain ⟨token', htok', info', hs', rfl, ⟨hpos, -⟩ | ⟨-, t, ht, -⟩⟩ := doSlash_ok.mp hd
  · omega
  · rw [htok] at htok'
    cases htok'
    have hi := hs.staked.symm.trans hs'.staked
    cases hi
    rw [hf] at ht
    cases ht

theorem not_upholdRefused_of_ok {env : Env τ} {w w' : World τ} {slashId : Nat} {uphold : Bool}
    {u : Unit} (hd : doResolveAppeal env slashId uphold w = (.ok u, w')) :
    ¬ UpholdRefused env w slashId uphold := by
  rintro ⟨token, htok, record, appeal, hr, rfl, h0, f, hf⟩
  obtain ⟨token', htok', -, -, -, ⟨-, hz, -⟩ | ⟨-, -, t, ht, -⟩ | ⟨hu, -⟩ | ⟨hu, -⟩⟩ := doResolveAppeal_ok hd
  · omega
  · rw [htok] at htok'
    cases htok'
    rw [hf] at ht
    cases ht
  · cases hu
  · cases hu

/-- An action of a proposal sets something, or resolves an appeal. -/
theorem performAction_cases {env : Env τ} {action : Action} {w w' : World τ}
    (h : performAction env action w = (.ok (), w')) :
    SameOutside [.config] w w' ∨ ∃ slashId uphold, action = .resolveAppeal slashId uphold ∧
      doResolveAppeal env slashId uphold w = (.ok (), w') := by
  cases action with
  | resolveAppeal slashId uphold => exact .inr ⟨slashId, uphold, rfl, h⟩
  | _ =>
    simp [performAction, setPaused, validateSlashTiers, validateCooldown] at h
    first
    | obtain rfl := h
    | obtain ⟨-, rfl⟩ := h
    exact .inl (by constructor <;> simp)

/-! ## Effects -/

/-- The regions that this module is about. -/
def books : List Region := [.stake, .slash, .token]

/-- A pending proposal that has enough approvals and has not expired asks for `action`. -/
structure Executable (w : World τ) (proposalId : Nat) (action : Action) : Prop where
  approved : ∃ config proposal, w.store.multisig.config = some config ∧
    w.store.multisig.proposals.lookup proposalId = some proposal ∧ proposal.status = .pending ∧
    config.threshold ≤ proposal.approvals.length ∧ w.ledger.timestamp ≤ proposal.expiresAt ∧
    decodeAction proposal.payload = some action

/-- The call `c` in `w` may leave the world `w'`. -/
inductive Effect (env : Env τ) (w : World τ) : Call → World τ → Prop
  /-- The call failed. -/
  | rejected (c : Call) : Effect env w c w
  /-- The call does not write the books. -/
  | aside {c : Call} {w' : World τ} (hf : ∀ r ∈ books, r ∉ c.footprint)
      (hs : SameOutside c.footprint w w') : Effect env w c w'
  | deposit {staker token : Address} {amount : Int} {t : τ} (hauth : env.auth staker = true)
      (hpos : 0 < amount) (htok : w.store.config.stakeToken = some token)
      (hmax : (infoOf w.store.stake.stakesV2 staker).balance + amount ≤ i128Max)
      (ht : env.tokens.transfer token staker env.self amount w.token = .ok t) :
      Effect env w (.depositStake staker amount) (w.afterDeposit env token staker amount t)
  | delegate {delegator provider token : Address} {amount : Int} {t : τ}
      (hauth : env.auth delegator = true) (hpos : 0 < amount)
      (htok : w.store.config.stakeToken = some token)
      (hmax : totalDelegatedOf w.store.stake provider + amount ≤ i128Max)
      (ht : env.tokens.transfer token delegator env.self amount w.token = .ok t) :
      Effect env w (.delegateStake delegator provider amount)
        (w.afterDelegation env token delegator provider amount t)
  | withdraw {staker token : Address} {info : StakeInfoV2} {t : τ} (hauth : env.auth staker = true)
      (htok : w.store.config.stakeToken = some token)
      (hw : Withdrawable w staker info info.balance)
      (ht : env.tokens.transfer token env.self staker info.balance w.token = .ok t) :
      Effect env w (.withdrawStake staker)
        ((w.afterPayout env token staker info info.balance t).counted staker)
  | part {staker token : Address} {amount : Int} {info : StakeInfoV2} {t : τ}
      (hauth : env.auth staker = true) (hpos : 0 < amount)
      (htok : w.store.config.stakeToken = some token) (hw : Withdrawable w staker info amount)
      (hlt : amount < info.balance)
      (ht : env.tokens.transfer token env.self staker amount w.token = .ok t) :
      Effect env w (.partialUnstake staker amount)
        ((w.afterPayout env token staker info amount t).counted staker)
  | slash {caller provider : Address} {severity : SlashSeverity} {reason : Symbol} {n : Int}
      {w' : World τ} (hd : doSlash env provider severity reason w = (.ok n, w')) :
      Effect env w (.slashStake caller provider severity reason) w'
  | batchSlash {caller : Address} {providers : List Address} {severities : List SlashSeverity}
      {reason : Symbol} {amounts : List Int} {w' : World τ}
      (hd : slashEntries env reason (providers.zip severities) w = (.ok amounts, w')) :
      Effect env w (.batchSlashStake caller providers severities reason) w'
  | appeal {appellant : Address} {slashId : Nat} {evidenceUri : String} {record : SlashRecord}
      (hr : w.store.slash.slashRecord.lookup slashId = some record)
      (hp : record.provider = appellant)
      (hn : w.store.slash.slashAppeal.lookup slashId = none) :
      Effect env w (.appealSlash appellant slashId evidenceUri)
        { w with store := { w.store with
          slash.slashAppeal := w.store.slash.slashAppeal.insert slashId
            { slashId, appellant, evidenceUri, submittedAt := w.ledger.timestamp
              status := .pending } } }
  | resolve {slashId : Nat} {uphold : Bool} {w' : World τ}
      (hm : w.store.multisig.config = none)
      (hd : doResolveAppeal env slashId uphold w = (.ok (), w')) :
      Effect env w (.resolveAppeal slashId uphold) w'
  | batchResolve {slashIds : List Nat} {upholds : List Bool} {n : Nat} {w' : World τ}
      (hok : batchResolveAppeal env slashIds upholds w = (.ok n, w'))
      (hd : resolveEntries env (slashIds.zip upholds) w = (.ok n, w')) :
      Effect env w (.batchResolveAppeal slashIds upholds) w'
  | execute {caller : Address} {proposalId : Nat} {action : Action} {w' : World τ}
      (ha : Executable w proposalId action) (hs : SameOutside [.config, .multisig] w w') :
      Effect env w (.executeAction caller proposalId) w'
  | executeResolve {caller : Address} {proposalId slashId : Nat} {uphold : Bool}
      {p : Multisig.Proposal} {w₁ : World τ}
      (ha : Executable w proposalId (.resolveAppeal slashId uphold))
      (hd : doResolveAppeal env slashId uphold w = (.ok (), w₁)) :
      Effect env w (.executeAction caller proposalId)
        { w₁ with store.multisig.proposals :=
          w₁.store.multisig.proposals.insert proposalId { p with status := .executed } }
  | emergency {signer staker token : Address} {cfg : EmergencyMultiSigConfig}
      {req : EmergencyRequest} {w₁ : World τ} (htok : w.store.config.stakeToken = some token)
      (ha : EmergencyUnstake.Approvable w signer staker cfg req)
      (hreq : cfg.required ≤ req.approvals.length + 1)
      (hd : EmergencyUnstake.executeEarlyUnstake env staker token cfg.penaltyBps w = (.ok (), w₁)) :
      Effect env w (.approveEmergencyUnstake signer staker)
        { w₁ with store := { w₁.store with
          emergency.emergencyRequest := w₁.store.emergency.emergencyRequest.erase staker
          emergency.lastEmergencyUnstakeAt :=
            w₁.store.emergency.lastEmergencyUnstakeAt.insert staker w.ledger.timestamp } }
  | approval {signer staker : Address} {cfg : EmergencyMultiSigConfig} {req : EmergencyRequest}
      (ha : EmergencyUnstake.Approvable w signer staker cfg req) :
      Effect env w (.approveEmergencyUnstake signer staker)
        { w with store := { w.store with
          emergency.emergencyRequest := w.store.emergency.emergencyRequest.insert req.staker
            { req with approvals := req.approvals ++ [signer] } } }
  | process {limit m h' : Nat} {w₁ : World τ}
      (hlt : w.store.queue.unstakeQueueHead < w.store.queue.unstakeQueueTail)
      (hd : processLoop env limit w.store.queue.unstakeQueueTail
        (w.store.queue.unstakeQueueTail - w.store.queue.unstakeQueueHead) 0
        w.store.queue.unstakeQueueHead w = (.ok (m, h'), w₁)) :
      Effect env w (.processUnstakeQueue limit)
        { w₁ with store := { w₁.store with queue.unstakeQueueHead := h' } }
  /-- The reward vault moves tokens and leaves the other books alone. -/
  | reward {c : Call} {w' : World τ} (hf : c.footprint = [.reward, .token])
      (hs : SameOutside [.reward, .token] w w')
      (hl : ∃ l, (∀ e ∈ l, LogEntry.ticket? e = none) ∧ w'.log = l ++ w.log) : Effect env w c w'

/-- Every transaction of the vault has one of the effects. -/
theorem invoke_effect (env : Env τ) (c : Call) (w : World τ) :
    Effect env w c ((invoke env c).exec w) := by
  have hsame := (invoke_writes env c).exec w
  rcases Tx.exec_cases (invoke env c) w with ⟨u, h⟩ | h
  · generalize (invoke env c).exec w = w' at h hsame
    cases c with
    | depositStake =>
      obtain ⟨-, ha, -, hpos, token, htok, -, hmax, t, ht, rfl⟩ := depositStake_ok.mp h
      exact .deposit ha hpos htok hmax ht
    | delegateStake =>
      obtain ⟨ha, hpos, token, htok, hmax, t, ht, rfl⟩ := delegateStake_ok h
      exact .delegate ha hpos htok hmax ht
    | withdrawStake =>
      obtain ⟨n, hn⟩ := Tx.void_ok.mp h
      obtain ⟨ha, w₁, hd, rfl⟩ := withdrawStake_ok hn
      obtain ⟨-, token, htok, info, hw, rfl, t, ht, rfl⟩ := doWithdraw_ok.mp hd
      exact .withdraw ha htok hw ht
    | partialUnstake =>
      obtain ⟨n, hn⟩ := Tx.void_ok.mp h
      obtain ⟨ha, hpos, w₁, hd, rfl⟩ := partialUnstake_ok hn
      obtain ⟨-, token, htok, info, hw, hlt, t, ht, rfl⟩ := doPartialUnstake_ok hd
      exact .part ha hpos htok hw hlt ht
    | slashStake =>
      obtain ⟨n, hn⟩ := Tx.void_ok.mp h
      obtain ⟨-, -, -, hd⟩ := slashStake_ok.mp hn
      exact .slash hd
    | batchSlashStake =>
      obtain ⟨n, hn⟩ := Tx.void_ok.mp h
      obtain ⟨-, -, -, -, hd⟩ := batchSlashStake_ok.mp hn
      exact .batchSlash hd
    | appealSlash =>
      obtain ⟨record, hr, hp, hn, -, -, rfl⟩ := appealSlash_ok h
      exact .appeal hr hp hn
    | resolveAppeal =>
      obtain ⟨hm, -, -, -, hd⟩ := resolveAppeal_ok.mp h
      exact .resolve hm hd
    | batchResolveAppeal =>
      obtain ⟨n, hn⟩ := Tx.void_ok.mp h
      obtain ⟨-, -, -, -, -, hd⟩ := batchResolveAppeal_ok.mp hn
      exact .batchResolve hn hd
    | executeAction _ proposalId =>
      obtain ⟨config, proposal, action, hc, hp, hs, hthr, hexp, ha, w₁, hd, p, -, rfl⟩ := executeAction_ok h
      have hx : Executable w proposalId action := ⟨config, proposal, hc, hp, hs, hthr, hexp, ha⟩
      rcases performAction_cases hd with hset | ⟨slashId, uphold, rfl, hr⟩
      · exact .execute hx (by constructor <;> simp_all [hset.ledger, hset.stake, hset.slash,
          hset.queue, hset.guards, hset.emergency, hset.rate, hset.reward, hset.strategy, hset.token])
      · exact .executeResolve hx hr
    | approveEmergencyUnstake =>
      obtain ⟨-, token, htok, cfg, req, ha, ⟨hreq, w₁, hd, rfl⟩ | ⟨-, rfl⟩⟩ :=
        EmergencyUnstake.approveEmergencyUnstake_ok h
      · exact .emergency htok ha hreq hd
      · exact .approval ha
    | processUnstakeQueue =>
      obtain ⟨n, hn⟩ := Tx.void_ok.mp h
      rcases processUnstakeQueue_ok hn with rfl | ⟨hlt, m, h', w₁, hd, rfl⟩
      · exact .rejected _
      · exact .process hlt hd
    | depositReward depositor _ asset amount =>
      obtain ⟨n, hn⟩ := Tx.void_ok.mp h
      obtain ⟨-, -, -, -, ⟨t, -, rfl⟩, -⟩ := RewardVault.depositReward_ok.mp hn
      exact .reward rfl hsame ⟨[.transfer asset depositor env.self amount], by simp [LogEntry.ticket?], rfl⟩
    | batchClaimRewards =>
      obtain ⟨rs, hn⟩ := Tx.void_ok.mp h
      obtain ⟨-, hp⟩ := RewardVault.batchClaimRewards_ok hn
      obtain ⟨-, -, hl⟩ := RewardVault.payAssets_ok hp
      refine .reward rfl hsame ⟨_, ?_, hl⟩
      intro e he
      obtain ⟨p, -, rfl⟩ := List.mem_map.mp (List.mem_reverse.mp he)
      rfl
    | _ => exact .aside (by simp [books, Call.footprint]) hsame
  · rw [h]; exact .rejected c

end CallStake.StakeVault
