import CallStake.Lib.Trace
import CallStake.StakeVault.Footprint

/-!
# Emergency unstakes over whole runs

What stands behind an emergency payout in any run of the vault: the approvals of the request it
answers, their times, and the distance to the payout before.

* `EmergencyStep`, `emergency_step`: all that an event can do to the request of one staker.
* `emergency_payout_safe`: what a payout needed. A reconfiguration voids no approval, so an approver
  need not be an administrator any more (`approval_of_former_admin_counts`).
-/

namespace CallStake.StakeVault

open List

namespace EmergencyUnstake

variable {τ : Type}

/-! ## Events of a history -/

section Events

variable (T : Tokens τ) (self : Address)

/-- The event is a call, authorized by `a`, that returned. -/
def Returned (e : World τ × Event τ) (a : Address) (c : Call) : Prop :=
  ∃ auth w', e.2 = .call auth c ∧ auth a = true ∧ invoke ⟨T, self, auth⟩ c e.1 = (.ok (), w')

/-- `staker` asked for an emergency unstake. -/
abbrev Requested (e : World τ × Event τ) (staker : Address) : Prop :=
  Returned T self e staker (.requestEmergencyUnstake staker)

/-- `a` approved the request of `staker`. -/
abbrev Approved (e : World τ × Event τ) (a staker : Address) : Prop :=
  Returned T self e a (.approveEmergencyUnstake a staker)

/-- An approval emptied the stake of `staker`. -/
def PaysOut (e : World τ × Event τ) (staker : Address) : Prop :=
  (∃ auth signer, e.2 = .call auth (.approveEmergencyUnstake signer staker)) ∧
    (infoOf e.1.store.stake.stakesV2 staker).balance ≠ 0 ∧
    (infoOf (next T self e.1 e.2).store.stake.stakesV2 staker).balance = 0

end Events

/-- The request of a staker. -/
def requestOf (w : World τ) (staker : Address) : Option EmergencyRequest :=
  w.store.emergency.emergencyRequest.lookup staker

/-- When a staker was last paid. -/
def lastPayoutOf (w : World τ) (staker : Address) : Option Nat :=
  w.store.emergency.lastEmergencyUnstakeAt.lookup staker

/-- A request is stored under its staker. -/
def Keyed (w : World τ) : Prop := ∀ staker req, requestOf w staker = some req → req.staker = staker

/-! ## One event -/

/-- What an event does to the request of `staker`. -/
inductive EmergencyStep (T : Tokens τ) (self : Address) (w : World τ) (ev : Event τ) (w' : World τ)
    (staker : Address) : Prop where
  | nothing (unpaid : ¬ PaysOut T self (w, ev) staker) (req : requestOf w' staker = requestOf w staker)
      (last : lastPayoutOf w' staker = lastPayoutOf w staker)
  | requested (call : Requested T self (w, ev) staker) (unpaid : ¬ PaysOut T self (w, ev) staker)
      (cooled : cooldownRemainingSecs w.store.emergency w.ledger.timestamp staker = 0)
      (req : requestOf w' staker = some ⟨staker, w.ledger.timestamp, []⟩)
      (last : lastPayoutOf w' staker = lastPayoutOf w staker)
  | approved {a : Address} {cfg : EmergencyMultiSigConfig} {r : EmergencyRequest}
      (call : Approved T self (w, ev) a staker) (seen : Approvable w a staker cfg r)
      (unpaid : ¬ PaysOut T self (w, ev) staker)
      (req : requestOf w' staker = some { r with approvals := r.approvals ++ [a] })
      (last : lastPayoutOf w' staker = lastPayoutOf w staker)
  | paid {a : Address} {cfg : EmergencyMultiSigConfig} {r : EmergencyRequest}
      (call : Approved T self (w, ev) a staker) (seen : Approvable w a staker cfg r)
      (enough : cfg.required ≤ r.approvals.length + 1) (req : requestOf w' staker = none)
      (last : lastPayoutOf w' staker = some w.ledger.timestamp)
  | removed (unpaid : ¬ PaysOut T self (w, ev) staker) (req : requestOf w' staker = none)
      (last : lastPayoutOf w' staker = lastPayoutOf w staker)

section Step

variable {T : Tokens τ} {self : Address} {w w' : World τ} {ev : Event τ} {env : Env τ}
  {u : Unit}

/-- What does not touch the stake of `staker` does not pay it. -/
theorem not_paysOut {staker : Address}
    (h : infoOf (next T self w ev).store.stake.stakesV2 staker =
      infoOf w.store.stake.stakesV2 staker) : ¬ PaysOut T self (w, ev) staker := by
  rintro ⟨-, h1, h2⟩
  exact h1 (h ▸ h2)

theorem not_paysOut_of_ne {auth : Auth} {c : Call} {staker : Address}
    (h : ∀ signer, c ≠ .approveEmergencyUnstake signer staker) :
    ¬ PaysOut T self (w, .call auth c) staker := by
  rintro ⟨⟨auth', signer, he⟩, -⟩
  cases he
  exact h signer rfl

theorem request_ok {staker : Address} :
    requestEmergencyUnstake env staker w = (.ok u, w') ↔
      env.auth staker = true ∧ (∃ cfg, w.store.emergency.emergencyMultiSigConfig = some cfg) ∧
      requestOf w staker = none ∧
      cooldownRemainingSecs w.store.emergency w.ledger.timestamp staker = 0 ∧
      { w with store.emergency.emergencyRequest :=
        w.store.emergency.emergencyRequest.insert staker ⟨staker, w.ledger.timestamp, []⟩ } = w' := by
  simp [requestEmergencyUnstake, request, getConfig, saveRequest, requestOf]

theorem expire_ok {staker : Address} :
    expireEmergencyRequest staker w = (.ok u, w') ↔
      ∃ cfg, w.store.emergency.emergencyMultiSigConfig = some cfg ∧
      ∃ req, requestOf w staker = some req ∧ expired cfg req w.ledger.timestamp ∧
      { w with store.emergency.emergencyRequest := w.store.emergency.emergencyRequest.erase staker } = w' := by
  simp [expireEmergencyRequest, expireRequest, getConfig, getRequest, removeRequest, requestOf]

/-- The request of `staker` after an approval of a request, be it the same or another. -/
theorem emergency_step_approve {auth : Auth} {signer target staker : Address} (hk : Keyed w)
    (h : invoke ⟨T, self, auth⟩ (.approveEmergencyUnstake signer target) w = (.ok u, w')) :
    EmergencyStep T self w (.call auth (.approveEmergencyUnstake signer target)) w' staker := by
  have hnext : next T self w (.call auth (.approveEmergencyUnstake signer target)) = w' := Tx.exec_of_ok h
  obtain ⟨ha, token, -, cfg, req, hseen, hcase⟩ := approveEmergencyUnstake_ok h
  have hkey : req.staker = target := hk target req hseen.requested
  by_cases hs : staker = target
  · subst hs
    have hcall : Approved T self (w, .call auth (.approveEmergencyUnstake signer staker)) signer
        staker := ⟨auth, w', rfl, ha, h⟩
    rcases hcase with ⟨hle, w₁, hex, rfl⟩ | ⟨-, rfl⟩
    · refine .paid hcall hseen hle ?_ ?_
      · exact AList.lookup_erase _ _
      · exact AList.lookup_insert _
    · refine .approved hcall hseen (not_paysOut (by rw [hnext])) ?_ rfl
      change (AList.insert req.staker _ _).lookup staker = _
      rw [hkey]
      exact AList.lookup_insert _
  · have hun : ¬ PaysOut T self (w, .call auth (.approveEmergencyUnstake signer target)) staker :=
      not_paysOut_of_ne fun _ he => by cases he; exact hs rfl
    rcases hcase with ⟨-, w₁, hex, rfl⟩ | ⟨-, rfl⟩
    · have hout : SameOutside [.stake, .token] w w₁ := Tx.Within.of_run inferInstance hex
      have hem := hout.emergency (by simp)
      refine .nothing hun ?_ ?_
      · change (AList.erase target _).lookup staker = _
        rw [Store.lookup_erase_eq, if_neg hs, hem]
        rfl
      · change (AList.insert target _ _).lookup staker = _
        rw [Store.lookup_insert_eq, if_neg hs, hem]
        rfl
    · refine .nothing hun ?_ rfl
      change (AList.insert req.staker _ _).lookup staker = _
      rw [hkey, Store.lookup_insert_eq, if_neg hs]
      rfl

/-- An event does one of these to the request of a staker. -/
theorem emergency_step (hk : Keyed w) (ev : Event τ) (staker : Address) :
    EmergencyStep T self w ev (next T self w ev) staker := by
  cases ev with
  | advance => exact .nothing (not_paysOut rfl) rfl rfl
  | external => exact .nothing (not_paysOut rfl) rfl rfl
  | call auth c =>
    rcases Tx.exec_cases (invoke ⟨T, self, auth⟩ c) w with ⟨u, h⟩ | h0
    · have hnext : next T self w (.call auth c) = (invoke ⟨T, self, auth⟩ c).exec w := rfl
      generalize (invoke ⟨T, self, auth⟩ c).exec w = w' at h hnext
      rw [hnext]
      by_cases hc : .emergency ∈ c.footprint
      · cases c <;> simp [Call.footprint] at hc
        case configureEmergencyMultisig =>
          simp [invoke, configureEmergencyMultisig, configure, requireIsAdmin] at h
          obtain ⟨-, -, -, -, -, rfl⟩ := h
          exact .nothing (not_paysOut_of_ne fun _ he => by cases he) rfl rfl
        case requestEmergencyUnstake target =>
          have hun : ¬ PaysOut T self (w, .call auth (.requestEmergencyUnstake target)) staker :=
            not_paysOut_of_ne fun _ he => by cases he
          obtain ⟨ha, -, hnone, hcool, rfl⟩ := request_ok.mp h
          by_cases ht : staker = target
          · subst ht
            exact .requested ⟨auth, _, rfl, ha, h⟩ hun hcool (AList.lookup_insert _) rfl
          · refine .nothing hun ?_ rfl
            exact (Store.lookup_insert_eq ..).trans (if_neg ht)
        case approveEmergencyUnstake signer target =>
          exact emergency_step_approve hk h
        case expireEmergencyRequest target =>
          have hun : ¬ PaysOut T self (w, .call auth (.expireEmergencyRequest target)) staker :=
            not_paysOut_of_ne fun _ he => by cases he
          obtain ⟨cfg, -, req, -, -, rfl⟩ := expire_ok.mp h
          by_cases ht : staker = target
          · subst ht
            exact .removed hun (AList.lookup_erase _ _) rfl
          · refine .nothing hun ?_ rfl
            exact (Store.lookup_erase_eq ..).trans (if_neg ht)
        case setEmergencyCooldown =>
          simp [invoke, setEmergencyCooldown, setCooldown, requireIsAdmin] at h
          obtain ⟨-, -, rfl⟩ := h
          exact .nothing (not_paysOut_of_ne fun _ he => by cases he) rfl rfl
      · have hem := ((invoke_writes ⟨T, self, auth⟩ c).of_run h).emergency hc
        refine .nothing (not_paysOut_of_ne fun signer he => ?_) ?_ ?_
        · subst he
          exact hc (by simp [Call.footprint])
        · unfold requestOf; rw [hem]
        · unfold lastPayoutOf; rw [hem]
    · have h0' : next T self w (.call auth c) = w := h0
      rw [h0']
      exact .nothing (not_paysOut (by rw [h0'])) rfl rfl

end Step

/-! ## Whole runs -/

/-- The request of `staker` was made in the history, nothing was paid to the staker since, and each
approval it carries was made since. -/
structure Backed (T : Tokens τ) (vault : Address) (hist : List (World τ × Event τ)) (staker : Address)
    (req : EmergencyRequest) (later : List (World τ × Event τ)) (asked : World τ × Event τ)
    (earlier : List (World τ × Event τ)) : Prop where
  split : hist = later ++ asked :: earlier
  request : Requested T vault asked staker
  at_time : asked.1.ledger.timestamp = req.requestedAt
  cooled : cooldownRemainingSecs asked.1.store.emergency asked.1.ledger.timestamp staker = 0
  unpaid : ∀ e ∈ later, ¬ PaysOut T vault e staker
  nodup : req.approvals.Nodup
  approved : ∀ a ∈ req.approvals, ∃ e ∈ later, Approved T vault e a staker ∧
    ∃ cfg r, Approvable e.1 a staker cfg r ∧ r.requestedAt = req.requestedAt

/-- Every request is backed by the history, and every payout of the history started a cooldown. -/
structure EmergencyInv (T : Tokens τ) (vault : Address) (hist : List (World τ × Event τ))
    (w : World τ) : Prop where
  keyed : Keyed w
  times : ∀ e ∈ hist, e.1.ledger.timestamp ≤ w.ledger.timestamp
  backed : ∀ staker req, requestOf w staker = some req →
    ∃ later asked earlier, Backed T vault hist staker req later asked earlier
  last : ∀ e ∈ hist, ∀ staker, PaysOut T vault e staker →
    ∃ t, lastPayoutOf w staker = some t ∧ e.1.ledger.timestamp ≤ t

section Runs

variable {T : Tokens τ} {self staker : Address} {w w' : World τ} {ev : Event τ}
  {hist later earlier : List (World τ × Event τ)} {asked : World τ × Event τ}
  {req : EmergencyRequest}

theorem step_timestamp (hs : Step T self w ev w') : w.ledger.timestamp ≤ w'.ledger.timestamp := by
  obtain ⟨hallow, rfl⟩ := hs
  cases ev with
  | call auth c =>
    have hl := ((invoke_writes ⟨T, self, auth⟩ c).exec w).ledger
    change w.ledger.timestamp ≤ ((invoke ⟨T, self, auth⟩ c).exec w).ledger.timestamp
    rw [hl]
  | advance => exact hallow.1
  | external => exact Nat.le_refl _

/-- An event that does not pay the staker leaves its request backed. -/
theorem Backed.after (h : Backed T self hist staker req later asked earlier)
    (hu : ¬ PaysOut T self (w, ev) staker) :
    Backed T self ((w, ev) :: hist) staker req ((w, ev) :: later) asked earlier where
  split := by rw [h.split]; rfl
  request := h.request
  at_time := h.at_time
  cooled := h.cooled
  unpaid := List.forall_mem_cons.mpr ⟨hu, h.unpaid⟩
  nodup := h.nodup
  approved a ha :=
    have ⟨e, he, hap⟩ := h.approved a ha
    ⟨e, mem_cons_of_mem _ he, hap⟩

theorem EmergencyInv.step (h : EmergencyInv T self hist w) (hs : Step T self w ev w') :
    EmergencyInv T self ((w, ev) :: hist) w' := by
  have htime := step_timestamp hs
  have hcases : ∀ staker, EmergencyStep T self w ev w' staker := by
    rw [hs.2]; exact emergency_step h.keyed ev
  refine ⟨?_, ?_, ?_, ?_⟩
  · intro staker req hreq
    cases hcases staker with
    | nothing _ he => exact h.keyed staker req (he ▸ hreq)
    | requested _ _ _ he => rw [he] at hreq; cases hreq; rfl
    | @approved _ _ r _ hseen _ he _ =>
      rw [he] at hreq
      cases hreq
      exact h.keyed staker r hseen.requested
    | paid _ _ _ he => rw [he] at hreq; cases hreq
    | removed _ he => rw [he] at hreq; cases hreq
  · exact List.forall_mem_cons.mpr ⟨htime, fun e he => (h.times e he).trans htime⟩
  · intro staker req hreq
    cases hcases staker with
    | nothing hu he =>
      obtain ⟨later, asked, earlier, hb⟩ := h.backed staker req (he ▸ hreq)
      exact ⟨_, asked, earlier, hb.after hu⟩
    | requested hcall _ hcool he =>
      rw [he] at hreq
      cases hreq
      exact ⟨[], (w, ev), hist, rfl, hcall, rfl, hcool, by simp, nodup_nil, by simp⟩
    | @approved a cfg r hcall hseen hu he _ =>
      rw [he] at hreq
      cases hreq
      obtain ⟨later, asked, earlier, hb⟩ := h.backed staker r hseen.requested
      have hb' := hb.after hu
      refine ⟨_, asked, earlier, ⟨hb'.split, hb'.request, hb'.at_time, hb'.cooled, hb'.unpaid, ?_, ?_⟩⟩
      · refine List.nodup_append'.mpr ⟨hb.nodup, nodup_singleton a, ?_⟩
        exact List.disjoint_singleton.mpr hseen.fresh
      · intro b hb₁
        rcases List.mem_append.mp hb₁ with hb₁ | hb₁
        · exact hb'.approved b hb₁
        · rw [mem_singleton] at hb₁
          subst hb₁
          exact ⟨_, mem_cons_self .., hcall, cfg, r, hseen, rfl⟩
    | paid _ _ _ he => rw [he] at hreq; cases hreq
    | removed _ he => rw [he] at hreq; cases hreq
  · intro e he staker hp
    -- Only a payment of this very event can move the time of the last payout.
    have hold : ¬ PaysOut T self (w, ev) staker → lastPayoutOf w' staker = lastPayoutOf w staker →
        ∃ t, lastPayoutOf w' staker = some t ∧ e.1.ledger.timestamp ≤ t := by
      intro hu hl
      rcases List.mem_cons.mp he with rfl | he
      · exact absurd hp hu
      · rw [hl]; exact h.last e he staker hp
    cases hcases staker with
    | nothing hu _ hl => exact hold hu hl
    | requested _ hu _ _ hl => exact hold hu hl
    | approved _ _ hu _ hl => exact hold hu hl
    | removed hu _ hl => exact hold hu hl
    | paid _ _ _ _ hl =>
      refine ⟨_, hl, ?_⟩
      rcases List.mem_cons.mp he with rfl | he
      · exact Nat.le_refl _
      · exact h.times e he

theorem emergencyInv_of_trace {ledger : Ledger} {token : τ}
    (ht : Trace (Step T self) (World.deployed ledger token) hist w) : EmergencyInv T self hist w := by
  refine ht.invariant ⟨?_, by simp, ?_, by simp⟩ fun hist a ev b h hs => h.step hs
  · intro staker req h; simp [requestOf, World.deployed, Storage.deployed] at h
  · intro staker req h; simp [requestOf, World.deployed, Storage.deployed] at h

/-- An earlier payout comes before the request that the next one answers. -/
theorem Backed.asked_after {later' earlier' : List (World τ × Event τ)} {e : World τ × Event τ}
    (h : Backed T self hist staker req later asked earlier) (he : hist = later' ++ e :: earlier')
    (hp : PaysOut T self e staker) : asked ∈ later' ∧ e ∈ earlier := by
  have hasked : e ≠ asked := by
    rintro rfl
    obtain ⟨auth, w', hev, -⟩ := h.request
    obtain ⟨⟨auth', signer, hev'⟩, -⟩ := hp
    rw [hev] at hev'
    cases hev'
  rw [h.split] at he
  rcases List.append_eq_append_iff.mp he with ⟨mid, hl, hr⟩ | ⟨mid, hl, hr⟩
  · cases mid with
    | nil => exact absurd (List.cons.inj hr).1.symm hasked
    | cons d mid =>
      obtain ⟨rfl, rfl⟩ := List.cons.inj hr
      exact ⟨by rw [hl]; simp, by simp⟩
  · cases mid with
    | nil => exact absurd (List.cons.inj hr).1 hasked
    | cons d mid =>
      obtain ⟨rfl, -⟩ := List.cons.inj hr
      exact absurd hp (h.unpaid e (by rw [hl]; simp))

/-- A request is accepted only once the cooldown of the payouts before it is over. -/
theorem cooled_after {c t t₀ : Nat} {w : World τ}
    (hcool : cooldownRemainingSecs w.store.emergency w.ledger.timestamp staker = 0)
    (hc : w.store.emergency.emergencyCooldownSecs = c) (hl : lastPayoutOf w staker = some t)
    (ht : t₀ ≤ t) (hw : t₀ ≤ w.ledger.timestamp) : u64Add t₀ c ≤ w.ledger.timestamp := by
  unfold lastPayoutOf at hl
  unfold cooldownRemainingSecs at hcool
  rw [hl, hc] at hcool
  split at hcool
  · rename_i h0
    subst h0
    exact (Nat.min_le_left _ _).trans hw
  · calc
      u64Add t₀ c ≤ u64Add t c := by unfold u64Add; omega
      _ ≤ w.ledger.timestamp := Nat.le_of_sub_eq_zero hcool

/-- In every run, an emergency payout answers a request of the staker that nothing was paid for
before, with at least as many distinct approvers as the configuration in force asks for, each of them
an administrator when it approved and none of them after the timeout; and while the cooldown is set
to `c`, the payouts of a staker are `c` apart. -/
theorem emergency_payout_safe {ledger : Ledger} {token : τ}
    (ht : Trace (Step T self) (World.deployed ledger token) hist w)
    (hp : PaysOut T self (w, ev) staker) :
    ∃ cfg req, w.store.emergency.emergencyMultiSigConfig = some cfg ∧
      requestOf w staker = some req ∧
      ∃ later asked earlier, hist = later ++ asked :: earlier ∧ Requested T self asked staker ∧
        asked.1.ledger.timestamp = req.requestedAt ∧ (∀ e ∈ later, ¬ PaysOut T self e staker) ∧
        (∃ approvers : List Address, approvers.Nodup ∧ cfg.required ≤ approvers.length ∧
          ∀ a ∈ approvers, ∃ e ∈ (w, ev) :: later, Approved T self e a staker ∧
            (∃ cfg', e.1.store.emergency.emergencyMultiSigConfig = some cfg' ∧ a ∈ cfg'.admins) ∧
            (0 < cfg.timeoutSecs → e.1.ledger.timestamp ≤ req.requestedAt + cfg.timeoutSecs)) ∧
        ∀ later' e earlier', hist = later' ++ e :: earlier' → PaysOut T self e staker →
          ∀ c, (∀ d ∈ later', d.1.store.emergency.emergencyCooldownSecs = c) →
            u64Add e.1.ledger.timestamp c ≤ w.ledger.timestamp := by
  have hinv := emergencyInv_of_trace ht
  have hstep : EmergencyStep T self w ev (next T self w ev) staker := emergency_step hinv.keyed ev staker
  cases hstep with
  | nothing hu => exact absurd hp hu
  | requested _ hu => exact absurd hp hu
  | approved _ _ hu => exact absurd hp hu
  | removed hu => exact absurd hp hu
  | @paid a cfg req hcall hseen hle _ _ =>
    obtain ⟨later, asked, earlier, hb⟩ := hinv.backed staker req hseen.requested
    refine ⟨cfg, req, hseen.configured, hseen.requested, later, asked, earlier, hb.split, hb.request,
      hb.at_time, hb.unpaid, ⟨req.approvals ++ [a], ?_, ?_, ?_⟩, ?_⟩
    · exact List.nodup_append'.mpr ⟨hb.nodup, nodup_singleton a, List.disjoint_singleton.mpr hseen.fresh⟩
    · simpa using hle
    · intro b hmem
      -- The last approval is in time, and the others came before it.
      have hlast : 0 < cfg.timeoutSecs → w.ledger.timestamp ≤ req.requestedAt + cfg.timeoutSecs := by
        intro hpos
        have hlive := hseen.live
        simp [expired] at hlive
        exact (hlive hpos).trans (Nat.min_le_left _ _)
      rcases List.mem_append.mp hmem with hmem | hmem
      · obtain ⟨e, he, hap, cfg', r, hseen', -⟩ := hb.approved b hmem
        have htime : e.1.ledger.timestamp ≤ w.ledger.timestamp :=
          hinv.times e (by rw [hb.split]; exact mem_append_left _ he)
        exact ⟨e, mem_cons_of_mem _ he, hap, ⟨cfg', hseen'.configured, hseen'.isAdmin⟩,
          fun hpos => htime.trans (hlast hpos)⟩
      · rw [mem_singleton] at hmem
        subst hmem
        exact ⟨_, mem_cons_self .., hcall, ⟨cfg, hseen.configured, hseen.isAdmin⟩, hlast⟩
    · intro later' e earlier' he hpe c hc
      obtain ⟨hmem, hearlier⟩ := hb.asked_after he hpe
      have hinv₁ := emergencyInv_of_trace (hb.split ▸ ht).split.1
      obtain ⟨t, hlast, hle⟩ := hinv₁.last e hearlier staker hpe
      have hasked : asked.1.ledger.timestamp ≤ w.ledger.timestamp := hinv.times asked (by rw [hb.split]; simp)
      exact (cooled_after hb.cooled (hc asked hmem) hlast hle (hinv₁.times e hearlier)).trans hasked

end Runs

/-! ## A former administrator -/

section Sample

open StakeVault.Sample

def carol : Address := ⟨6⟩

/-- `alice` approves the request of `carol` and is then replaced. -/
def replacedAdmin : List (Event Unit) :=
  [call (.initializeVault admin stakeToken registry),
    call (.configureEmergencyMultisig admin [alice, bob] 2 0 0), call (.depositStake carol 100),
    call (.requestEmergencyUnstake carol), call (.approveEmergencyUnstake alice carol),
    call (.configureEmergencyMultisig admin [bob, registry] 2 0 0)]

def lastApproval : Event Unit := call (.approveEmergencyUnstake bob carol)

def beforePayout : World Unit := run freeTokens vault (World.deployed ⟨0, 0⟩ ()) replacedAdmin

def historyOfPayout : List (World Unit × Event Unit) :=
  (Reaches.visited (next freeTokens vault) (World.deployed ⟨0, 0⟩ ()) replacedAdmin).reverse

theorem trace_beforePayout : Trace (Step freeTokens vault) (World.deployed ⟨0, 0⟩ ())
    historyOfPayout beforePayout := by
  have h : Reaches.Along (next freeTokens vault) (Allowed vault) (World.deployed ⟨0, 0⟩ ())
      replacedAdmin := by decide +kernel
  exact Trace.of_along h

theorem paysOut_lastApproval : PaysOut freeTokens vault (beforePayout, lastApproval) carol :=
  ⟨⟨_, bob, rfl⟩, by decide +kernel, by decide +kernel⟩

/-- Carol had asked for what the last approval pays. -/
theorem payout_of_carol_backed :
    ∃ cfg req, beforePayout.store.emergency.emergencyMultiSigConfig = some cfg ∧
      requestOf beforePayout carol = some req ∧
      ∃ later asked earlier, historyOfPayout = later ++ asked :: earlier ∧
        Requested freeTokens vault asked carol := by
  obtain ⟨cfg, req, hc, hr, later, asked, earlier, hs, ha, -⟩ :=
    emergency_payout_safe trace_beforePayout paysOut_lastApproval
  exact ⟨cfg, req, hc, hr, later, asked, earlier, hs, ha⟩

/-- The approvers of a payout need not be administrators of the configuration in force. -/
theorem approval_of_former_admin_counts :
    ¬ ∀ (ledger : Ledger) (hist : List (World Unit × Event Unit)) (w : World Unit) (ev : Event Unit)
        (staker : Address), Trace (Step freeTokens vault) (World.deployed ledger ()) hist w →
      PaysOut freeTokens vault (w, ev) staker →
      ∃ cfg, w.store.emergency.emergencyMultiSigConfig = some cfg ∧
        ∃ approvers : List Address, approvers.Nodup ∧ cfg.required ≤ approvers.length ∧
          ∀ a ∈ approvers, a ∈ cfg.admins ∧ ∃ e ∈ (w, ev) :: hist, Approved freeTokens vault e a staker := by
  intro h
  obtain ⟨cfg, hc, approvers, hnodup, hle, ha⟩ := h _ _ _ _ _ trace_beforePayout paysOut_lastApproval
  have hcfg : beforePayout.store.emergency.emergencyMultiSigConfig =
      some ⟨[bob, registry], 2, 0, 0⟩ := by decide +kernel
  rw [hcfg] at hc
  cases hc
  have hbob : approvers ⊆ [bob] := by
    intro a hmem
    obtain ⟨hadmin, e, he, auth, w', hev, -⟩ := ha a hmem
    have hmem' : e.2 ∈ lastApproval :: replacedAdmin := by
      rcases List.mem_cons.mp he with rfl | he
      · exact mem_cons_self ..
      · exact mem_cons_of_mem _ (Reaches.mem_of_mem_visited (List.mem_reverse.mp he))
    rw [hev] at hmem'
    simp [lastApproval, replacedAdmin, call] at hmem' hadmin ⊢
    rcases hadmin with rfl | rfl
    · rfl
    · simp [registry, alice, bob] at hmem'
  have hlen := (subperm_of_subset hnodup hbob).length_le
  exact absurd (hle.trans hlen) (by decide)

end Sample

end EmergencyUnstake

end CallStake.StakeVault
