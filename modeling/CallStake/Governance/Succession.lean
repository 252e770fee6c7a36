import CallStake.Governance.Footprint
import CallStake.Lib.Trace

/-!
# The succession of administrators

The administrator hands over by a proposal that the successor accepts, or is revoked by the guardian;
a contract without an administrator can be initialized again.

* `SeatMove`: the five ways in which a call changes the administrator, the proposed one or the
  initialization.
* `seat_invariant`: in every run, a proposed administrator was proposed by the present one, and a
  contract that lost its administrator was revoked by its guardian.
* `succession_of_guarded`: where acceptances are authorized by the successor and initializations
  after a revocation by the guardian or the revoked administrator, the succession is in order.
* `accepted_by_stranger`, `initialized_by_stranger`: neither is asked for.
-/

namespace CallStake.Governance

open List

/-- A history, newest event first. -/
abbrev History := List (World × Event)

/-! ## What changes the administrator -/

/-- What a call that returned did to the administrator, the proposed administrator and the
initialization. -/
inductive SeatMove (auth : Auth) (s s' : CoreStorage) : Call → Prop where
  | propose {a b : Address} (ha : auth a = true) (hadmin : s.admin = some a) (hne : b ≠ a)
      (h : s' = { s with pendingAdmin := some b }) : SeatMove auth s s' (.proposeKeyRotation a b)
  | accept {b : Address} (hp : s.pendingAdmin = some b)
      (h : s' = { s with admin := some b, pendingAdmin := none }) :
      SeatMove auth s s' (.acceptKeyRotation b)
  | cancel {a : Address} (h : s' = { s with pendingAdmin := none }) : SeatMove auth s s' (.cancelKeyRotation a)
  | revoke {g : Address} (hg : s.guardian = some g) (ha : auth g = true)
      (h : s' = { s with admin := none, pendingAdmin := none, initialized := false }) :
      SeatMove auth s s' (.emergencyRevokeAdmin g)
  | install {b : Address} {name symbol : Bytes} {decimals : Nat} {totalSupply : Int}
      {recipients : DistributionRecipients} (ha : auth b = true) (hi : s.initialized = false)
      (hadmin : s'.admin = some b) (hp : s'.pendingAdmin = s.pendingAdmin)
      (hi' : s'.initialized = true) :
      SeatMove auth s s' (.initializeGovernance b name symbol decimals totalSupply recipients)
  | other {c : Call} (hadmin : s'.admin = s.admin) (hp : s'.pendingAdmin = s.pendingAdmin)
      (hi : s'.initialized = s.initialized) : SeatMove auth s s' c

section Calls

variable {w w' : World} {auth : Auth} {c : Call}

theorem initialize_seat {b : Address} {name symbol : Bytes} {decimals : Nat} {totalSupply : Int}
    {recipients : DistributionRecipients}
    (h : initializeGovernance auth b name symbol decimals totalSupply recipients w = (.ok (), w')) :
    SeatMove auth w.store.core w'.store.core
      (.initializeGovernance b name symbol decimals totalSupply recipients) := by
  obtain ⟨⟨ha, hi, -⟩, d, w₁, hd, rfl⟩ := initializeGovernance_ok.mp h
  have hs : SameOutside [.token] _ w₁ := Tx.Within.of_run inferInstance hd
  have hcore := hs.same .core (by simp)
  change w₁.store.core = _ at hcore
  refine .install ha hi ?_ ?_ rfl
  · change w₁.store.core.admin = some b
    rw [hcore]; rfl
  · change w₁.store.core.pendingAdmin = w.store.core.pendingAdmin
    rw [hcore]; rfl

theorem perform_seat {action : AdminAction} {caller : Address}
    (h : action.perform auth caller w = (.ok (), w')) :
    w'.store.core.admin = w.store.core.admin ∧
      w'.store.core.pendingAdmin = w.store.core.pendingAdmin ∧
      w'.store.core.initialized = w.store.core.initialized := by
  cases action
  case setGuardian => simp [AdminAction.perform, writeGuardian] at h; rw [← h]; exact ⟨rfl, rfl, rfl⟩
  all_goals
    have hcore := ((writes_perform _).of_run h).same .core (by simp [AdminAction.footprint])
    change w'.store.core = w.store.core at hcore
    rw [hcore]
    exact ⟨rfl, rfl, rfl⟩

/-- Every call that returned is one of the moves. -/
theorem seatMove_of_call (h : invoke auth c w = (.ok (), w')) :
    SeatMove auth w.store.core w'.store.core c := by
  by_cases hf : .core ∈ c.footprint
  · cases c <;> simp [Call.footprint, executionRegions] at hf
    case initializeGovernance => exact initialize_seat h
    case proposeKeyRotation a b =>
      simp [invoke, proposeKeyRotation] at h
      obtain ⟨⟨-, ha, hadmin⟩, hne, rfl⟩ := h
      exact .propose ha hadmin hne rfl
    case acceptKeyRotation b =>
      simp [invoke, acceptKeyRotation] at h
      obtain ⟨hp, rfl⟩ := h
      exact .accept hp rfl
    case cancelKeyRotation a =>
      simp [invoke, cancelKeyRotation] at h
      obtain ⟨-, rfl⟩ := h
      exact .cancel rfl
    case emergencyRevokeAdmin g =>
      simp [invoke, emergencyRevokeAdmin] at h
      obtain ⟨hg, ha, rfl⟩ := h
      exact .revoke hg ha rfl
    case setContractPaused a paused =>
      simp [invoke, setContractPaused] at h
      obtain ⟨-, rfl⟩ := h
      exact .other rfl rfl rfl
    case enforceAdminTimelock a =>
      simp [invoke, enforceAdminTimelock] at h
      obtain ⟨-, rfl⟩ := h
      exact .other rfl rfl rfl
    case initializeTimelock a minDelay maxDelay g =>
      simp [invoke, initializeTimelock, Timelock.initializeTimelock, writeGuardian] at h
      obtain ⟨-, -, rfl⟩ := h
      exact .other rfl rfl rfl
    case direct caller action =>
      cases action <;> simp [AdminAction.footprint] at hf
      simp [invoke, invokeDirect, setGuardian, writeGuardian] at h
      obtain ⟨-, -, rfl⟩ := h
      exact .other rfl rfl rfl
    case timelocked caller actionId action =>
      obtain ⟨-, entry, hr, hx⟩ := invokeTimelocked_ok h
      obtain ⟨h1, h2, h3⟩ := perform_seat hx
      exact .other h1 h2 h3
  · have hcore := ((invoke_writes auth c).of_run h).same .core hf
    change w'.store.core = w.store.core at hcore
    rw [hcore]
    exact .other rfl rfl rfl

end Calls

/-- A step moves the seat by a call, or leaves it alone. -/
theorem seatMove_of_step {w w' : World} {ev : Event} (h : Step w ev w') :
    (∃ auth c, ev = .call auth c ∧ SeatMove auth w.store.core w'.store.core c) ∨ w'.store.core = w.store.core := by
  rcases h.cases with ⟨auth, c, rfl, hc⟩ | ⟨auth, c, rfl, rfl⟩ | ⟨l, rfl, -, rfl⟩ |
    ⟨t, c, r, m, rfl, rfl⟩
  · exact .inl ⟨auth, c, rfl, seatMove_of_call hc⟩
  · exact .inr rfl
  · exact .inr rfl
  · exact .inr rfl

/-! ## Succession -/

/-- As administrator, `a` proposed `b`, and the call returned. -/
def ProposedBy (hist : History) (a b : Address) : Prop :=
  ∃ w₁ auth, (w₁, .call auth (.proposeKeyRotation a b)) ∈ hist ∧ auth a = true ∧
    w₁.store.core.admin = some a ∧
    (next w₁ (.call auth (.proposeKeyRotation a b))).store.core.pendingAdmin = some b

/-- The guardian `g` revoked the administrator `a`, and there was none since. -/
def RevokedBy (hist : History) (a g : Address) : Prop :=
  ∃ later w₁ auth earlier, hist = later ++ (w₁, .call auth (.emergencyRevokeAdmin g)) :: earlier ∧
    auth g = true ∧ w₁.store.core.guardian = some g ∧ w₁.store.core.admin = some a ∧
    ∀ e ∈ later, e.1.store.core.admin = none

/-- The event keeps the succession in order: an administrator `a` is followed by `b` when `a` proposed
`b` and `b` authorized the acceptance, or is revoked by its guardian; and once there was an
administrator, the next one after a revocation is installed by a call that the guardian or the revoked
administrator authorized. -/
structure InOrder (hist : History) (w : World) (ev : Event) : Prop where
  accepted (a b : Address) : w.store.core.admin = some a → (next w ev).store.core.admin = some b →
    b ≠ a → ∃ auth, ev = .call auth (.acceptKeyRotation b) ∧ auth b = true ∧ ProposedBy hist a b
  revoked (a : Address) : w.store.core.admin = some a → (next w ev).store.core.admin = none →
    ∃ auth g, ev = .call auth (.emergencyRevokeAdmin g) ∧ auth g = true ∧ w.store.core.guardian = some g
  installed (b : Address) : (∃ e ∈ hist, e.1.store.core.admin ≠ none) → w.store.core.admin = none →
    (next w ev).store.core.admin = some b →
    ∃ auth c a g, ev = .call auth c ∧ RevokedBy hist a g ∧ (auth g = true ∨ auth a = true)

/-- An event that leaves the administrator alone. -/
theorem InOrder.of_same {hist : History} {w : World} {ev : Event}
    (h : (next w ev).store.core.admin = w.store.core.admin) : InOrder hist w ev where
  accepted a b ha hb hne := by rw [h, ha] at hb; cases hb; exact absurd rfl hne
  revoked a ha hnone := by rw [h, ha] at hnone; cases hnone
  installed b _ hnone hb := by rw [h, hnone] at hb; cases hb

/-- What the code does not ask: an acceptance is authorized by the proposed administrator, and an
initialization after a revocation by the guardian or the revoked administrator. -/
structure Guarded (hist : History) (w : World) (ev : Event) : Prop where
  accepted (auth : Auth) (b : Address) : ev = .call auth (.acceptKeyRotation b) →
    w.store.core.pendingAdmin = some b → auth b = true
  installed (auth : Auth) (b : Address) (name symbol : Bytes) (decimals : Nat) (totalSupply : Int)
    (recipients : DistributionRecipients) (a g : Address) :
    ev = .call auth (.initializeGovernance b name symbol decimals totalSupply recipients) →
    w.store.core.initialized = false → RevokedBy hist a g → auth g = true ∨ auth a = true

/-- What holds of the seat in every run. -/
structure SeatInv (hist : History) (w : World) : Prop where
  pending (b : Address) : w.store.core.pendingAdmin = some b → ∃ a, w.store.core.admin = some a ∧ ProposedBy hist a b
  vacant : w.store.core.admin = none → (∀ e ∈ hist, e.1.store.core.admin = none) ∨ ∃ a g, RevokedBy hist a g
  occupied (a : Address) : w.store.core.admin = some a → w.store.core.initialized = true

section History

variable {hist : History} {w w' : World} {ev : Event} {a b g : Address}

theorem ProposedBy.cons (h : ProposedBy hist a b) (e : World × Event) :
    ProposedBy (e :: hist) a b := by
  obtain ⟨w₁, auth, hm, h⟩ := h
  exact ⟨w₁, auth, mem_cons_of_mem _ hm, h⟩

theorem RevokedBy.cons (h : RevokedBy hist a g) (hw : w.store.core.admin = none) :
    RevokedBy ((w, ev) :: hist) a g := by
  obtain ⟨later, w₁, auth, earlier, rfl, ha, hg, hadmin, hl⟩ := h
  refine ⟨(w, ev) :: later, w₁, auth, earlier, rfl, ha, hg, hadmin, ?_⟩
  intro e he
  rcases List.mem_cons.mp he with rfl | he
  · exact hw
  · exact hl e he

/-- A seat that stays vacant. -/
theorem SeatInv.vacant_cons (hI : SeatInv hist w) (hw : w.store.core.admin = none) :
    (∀ e ∈ (w, ev) :: hist, e.1.store.core.admin = none) ∨ ∃ a g, RevokedBy ((w, ev) :: hist) a g := by
  rcases hI.vacant hw with hnone | ⟨a, g, hr⟩
  · refine .inl fun e he => ?_
    rcases List.mem_cons.mp he with rfl | he
    · exact hw
    · exact hnone e he
  · exact .inr ⟨a, g, hr.cons hw⟩

/-- A step that leaves the administrator, the proposed one and the initialization alone. -/
theorem SeatInv.same (hI : SeatInv hist w) (hadmin : w'.store.core.admin = w.store.core.admin)
    (hp : w'.store.core.pendingAdmin = w.store.core.pendingAdmin)
    (hi : w'.store.core.initialized = w.store.core.initialized) : SeatInv ((w, ev) :: hist) w' where
  pending b h := by
    obtain ⟨a, ha, hprop⟩ := hI.pending b (hp ▸ h)
    exact ⟨a, hadmin.trans ha, hprop.cons _⟩
  vacant h := hI.vacant_cons (hadmin ▸ h)
  occupied a h := by rw [hi]; exact hI.occupied a (hadmin ▸ h)

theorem seat_step (hI : SeatInv hist w) (h : Step w ev w') : SeatInv ((w, ev) :: hist) w' := by
  rcases seatMove_of_step h with ⟨auth, c, rfl, hm⟩ | hcore
  · cases hm with
    | @propose a b ha hadmin hne hs =>
      constructor
      · intro b' hb'
        rw [hs] at hb'
        cases hb'
        refine ⟨a, by rw [hs]; exact hadmin, w, auth, mem_cons_self .., ha, hadmin, ?_⟩
        rw [← h.2, hs]
      · intro hnone; rw [hs] at hnone; exact hI.vacant_cons hnone
      · intro a' ha'; rw [hs] at ha' ⊢; exact hI.occupied a' ha'
    | @accept b hp hs =>
      constructor
      · intro b' hb'; rw [hs] at hb'; cases hb'
      · intro hnone; rw [hs] at hnone; cases hnone
      · intro a' _
        obtain ⟨a, ha, -⟩ := hI.pending b hp
        rw [hs]
        exact hI.occupied a ha
    | @cancel a hs =>
      constructor
      · intro b' hb'; rw [hs] at hb'; cases hb'
      · intro hnone; rw [hs] at hnone; exact hI.vacant_cons hnone
      · intro a' ha'; rw [hs] at ha' ⊢; exact hI.occupied a' ha'
    | @revoke g hg ha hs =>
      constructor
      · intro b' hb'; rw [hs] at hb'; cases hb'
      · intro _
        cases hadmin : w.store.core.admin with
        | none => exact hI.vacant_cons hadmin
        | some a => exact .inr ⟨a, g, [], w, auth, hist, rfl, ha, hg, hadmin, by simp⟩
      · intro a' ha'; rw [hs] at ha'; cases ha'
    | install _ hi hadmin hp hi' =>
      constructor
      · -- nobody is proposed while the contract is not initialized
        intro b' hb'
        obtain ⟨a, hadm, -⟩ := hI.pending b' (hp ▸ hb')
        rw [hI.occupied a hadm] at hi
        cases hi
      · intro hnone; rw [hadmin] at hnone; cases hnone
      · intro _ _; exact hi'
    | other hadmin hp hi => exact hI.same hadmin hp hi
  · exact hI.same (by rw [hcore]) (by rw [hcore]) (by rw [hcore])

theorem seat_start (ledger : Ledger) : SeatInv [] (World.deployed ledger) where
  pending b h := by cases h
  vacant _ := .inl (by simp)
  occupied a h := by cases h

/-- One event: where the two checks would have passed, the succession is in order. -/
theorem inOrder_of_guarded (hI : SeatInv hist w) (h : Step w ev w') (hg : Guarded hist w ev) :
    InOrder hist w ev := by
  have hnext : next w ev = w' := h.2.symm
  rcases seatMove_of_step h with ⟨auth, c, rfl, hm⟩ | hcore
  · cases hm with
    | @accept b hp hs =>
      obtain ⟨a, ha, hprop⟩ := hI.pending b hp
      constructor
      · intro a' b' ha' hb' _
        rw [hnext, hs] at hb'
        cases hb'
        rw [ha] at ha'
        cases ha'
        exact ⟨auth, rfl, hg.accepted auth b rfl hp, hprop⟩
      · intro a' _ hnone; rw [hnext, hs] at hnone; cases hnone
      · intro b' _ hnone; rw [ha] at hnone; cases hnone
    | @revoke g hguard ha hs =>
      constructor
      · intro a' b' _ hb'; rw [hnext, hs] at hb'; cases hb'
      · intro a' _ _; exact ⟨auth, g, rfl, ha, hguard⟩
      · intro b' _ _ hb'; rw [hnext, hs] at hb'; cases hb'
    | @install b name symbol decimals totalSupply recipients ha hi hadmin hp hi' =>
      constructor
      · intro a' b' ha'; rw [hI.occupied a' ha'] at hi; cases hi
      · intro a' ha'; rw [hI.occupied a' ha'] at hi; cases hi
      · rintro b' ⟨e, he, hsome⟩ hnone -
        rcases hI.vacant hnone with hall | ⟨a, g, hr⟩
        · exact absurd (hall e he) hsome
        · exact ⟨auth, _, a, g, rfl, hr, hg.installed auth b _ _ _ _ _ a g rfl hi hr⟩
    | propose _ _ _ hs => exact .of_same (by rw [hnext, hs])
    | cancel hs => exact .of_same (by rw [hnext, hs])
    | other hadmin => exact .of_same (by rw [hnext, hadmin])
  · exact .of_same (by rw [hnext, hcore])

end History

/-- In every run in which acceptances are authorized by the proposed administrator, and
initializations after a revocation by the guardian or the revoked administrator, the succession is in
order at every event. -/
theorem succession_of_guarded {ledger : Ledger} {hist : History} {w : World}
    (h : Trace Step (World.deployed ledger) hist w) (hg : Trace.Every Guarded hist) :
    Trace.Every InOrder hist :=
  h.every_imp (seat_start ledger) (fun _ _ _ _ hI hs => seat_step hI hs)
    (fun _ _ _ _ hI hs hc => inOrder_of_guarded hI hs hc) hg

namespace Sample

/-- The administrator hands over to the team, which accepts. -/
def handover : List Event :=
  [callBy admin initializeCall, callBy admin (.proposeKeyRotation admin team), callBy team (.acceptKeyRotation team)]

/-- The team had been proposed and accepts for itself. -/
theorem handover_in_order :
    Trace.Every InOrder (Reaches.visited next (World.deployed ⟨0, 0⟩) handover).reverse := by
  refine succession_of_guarded (Trace.of_along (by decide +kernel)) ⟨⟨?_, ?_⟩, ⟨?_, ?_⟩, ⟨?_, ?_⟩, trivial⟩
  · intro auth b he _
    cases he
    decide
  · intro auth b name symbol decimals totalSupply recipients a g he
    cases he
  · intro auth b he
    cases he
  · intro auth b name symbol decimals totalSupply recipients a g he
    cases he
  · intro auth b he
    cases he
  · -- nothing happened before the first initialization
    rintro auth b name symbol decimals totalSupply recipients a g - - ⟨later, w₁, auth₁, earlier, he, -⟩
    exact absurd he.symm (append_ne_nil_of_right_ne_nil _ (cons_ne_nil _ _))

/-- A stranger accepts for the team. -/
def acceptance : List Event :=
  [callBy admin initializeCall, callBy admin (.proposeKeyRotation admin team),
    callBy mallory (.acceptKeyRotation team)]

/-- The guardian revokes the administrator, and a stranger initializes the contract for itself. The schedules of
the first team and investors are still there, so that others take their places. -/
def seizure : List Event :=
  [callBy admin initializeCall, callBy admin (.direct admin (.setGuardian guardian)),
    callBy guardian (.emergencyRevokeAdmin guardian),
    callBy mallory (.initializeGovernance mallory [67] [67] 7 100000
      { recipients with team := mallory, earlyInvestors := guardian })]

/-- A call that only a stranger authorized installs the proposed administrator, and another one the
stranger. -/
theorem stranger_moves_seat :
    (¬ Trace.Every InOrder (Reaches.visited next (World.deployed ⟨0, 0⟩) seizure).reverse ∧
      (deployedRun seizure).store.core.admin = some mallory) ∧
    ¬ Trace.Every InOrder (Reaches.visited next (World.deployed ⟨0, 0⟩) acceptance).reverse := by
  refine ⟨⟨fun h => ?_, by decide +kernel⟩, fun h => ?_⟩
  · obtain ⟨auth, c, a, g, he, ⟨later, w₁, auth₁, earlier, hl, hg, hguard, hadmin, -⟩, hauth⟩ :=
      h.1.installed mallory ⟨_, mem_cons_self .., by decide +kernel⟩ (by decide +kernel)
        (by decide +kernel)
    cases he
    have hm : (w₁, .call auth₁ (.emergencyRevokeAdmin g)) ∈
        Reaches.visited next (World.deployed ⟨0, 0⟩) (seizure.take 3) := by
      rw [← mem_reverse]
      exact (show (Reaches.visited next (World.deployed ⟨0, 0⟩) (seizure.take 3)).reverse = _ from hl) ▸
        mem_append_right _ (mem_cons_self ..)
    simp [seizure, Reaches.visited, callBy, initializeCall] at hm
    obtain ⟨rfl, rfl, rfl⟩ := hm
    have ha : a = admin := Option.some.inj (hadmin.symm.trans (by decide +kernel))
    subst ha
    exact absurd hauth (by decide)
  · obtain ⟨auth, he, hauth, -⟩ := h.1.accepted admin team (by decide +kernel) (by decide +kernel)
      (by decide)
    cases he
    exact absurd hauth (by decide)

end Sample

end CallStake.Governance
