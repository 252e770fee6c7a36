import CallStake.Governance.Payload

/-!
# Failures that are swallowed

`execute_multiple_actions` drops the error of an action, and `finalize_proposal` that of the automatic
execution. Both return, so nothing that was written before the error is taken back.

* `attempts`: what became of each action of a list. `executeEach_attempts`: what the call reports of them.
* `Untouched`: nothing was written.
* `Leaks`: a spend that the treasury pays, but that nobody is credited with. `Strands`: an action of such a
  spend, when its turn has come.
* `swallowed_failures_iff`: a failure leaves the contract as it was exactly when no such spend is its cause.
-/

namespace CallStake.Governance

open Tx

/-- An action of a list, with the contract before and after its turn. -/
structure Attempt where
  actionId : Nat
  before : World
  after : World
  returned : Bool

/-- The actions of a list, one after another. -/
def attempts (auth : Auth) (executor : Address) : List Nat → World → List Attempt
  | [], _ => []
  | id :: ids, w =>
    let r := Timelock.executeQueuedAction auth id executor w
    ⟨id, w, r.2, r.1.isOk⟩ :: attempts auth executor ids r.2

/-- The actions that are reported. -/
def reported (actions : List Attempt) : List Nat := (actions.filter (·.returned)).map (·.actionId)

/-- Everything is as it was; the assets of the treasury as a map. -/
structure Untouched (w w' : World) : Prop where
  assets (asset : Asset) : w'.store.treasury.assets.lookup asset = w.store.treasury.assets.lookup asset
  rest : { w' with store.treasury.assets := w.store.treasury.assets } = w

/-- The debit of a spend changes what the treasury holds. -/
def DebitShows (s : Storage) : ProposalType → Prop
  | .treasurySpend _ amount asset _ =>
    s.treasury.assets.lookup asset ≠ some (s.treasury.balanceOf asset - amount)
  | _ => False

/-- The treasury pays a spend that nobody is credited with. -/
def Leaks (s : Storage) (t : ProposalType) : Prop := CreditFails s t ∧ DebitShows s t

/-- The action is open and its time has come, and its spend leaks. -/
structure Strands (w : World) (actionId : Nat) (timelock : Timelock) (a : QueuedAction) (p : Proposal) :
    Prop where
  started : w.store.timelock.timelock = some timelock
  found : Registry.first QueuedAction.id timelock.queuedActions actionId = some a
  notExecuted : a.executed = false
  notCancelled : a.cancelled = false
  ready : a.executionAvailable ≤ w.ledger.timestamp
  stored : w.docket.proposals.lookup a.proposalId = some p
  leaks : Leaks w.store p.proposalType

/-- The decision is to execute at once, and the execution fails. -/
structure SwallowsExecution (auth : Auth) (id : Nat) (p : Proposal) (w w' : World) : Prop where
  stored : w.docket.proposals.lookup id = some p
  decided : Proposals.finalizeProposal auth id w = (.ok .succeeded, w')
  immediate : w.store.config.governanceConfig.executionDelay = 0
  failed : ∃ e, (Proposals.executeProposal auth id p.proposer
    (w.putProposal (p.withStatus .succeeded))).1 = .error e

section Swallowed

variable {w w' : World} {t : ProposalType} {p : Proposal} {id actionId : Nat} {auth : Auth}
  {executor : Address} {u : Unit} {e : Fault GovernanceError}

/-! ## Untouched -/

theorem Untouched.refl (w : World) : Untouched w w := ⟨fun _ => rfl, rfl⟩

/-- A debit is seen exactly when it changes the entry of its asset. -/
theorem untouched_debited (hc : CreditFails w.store t) :
    Untouched w (w.debited t) ↔ ¬ DebitShows w.store t := by
  cases t with
  | treasurySpend _ _ asset =>
    simp [DebitShows]
    constructor
    · intro h
      have hasset := h.assets asset
      rw [World.debited, AList.lookup_insert] at hasset
      exact hasset.symm
    · intro h
      refine ⟨fun a => ?_, rfl⟩
      change (w.store.treasury.assets.insert asset _).lookup a = _
      rw [Store.lookup_insert_eq]
      split
      · subst ‹a = asset›
        exact h.symm
      · rfl
  | _ => exact hc.elim

/-- An action that fails leaves the contract as it was exactly when it does not leak. -/
theorem performAction_untouched (h : performAction t w = (.error e, w')) :
    Untouched w w' ↔ ¬ Leaks w.store t := by
  obtain ⟨-, ⟨hn, rfl⟩ | ⟨hc, rfl⟩⟩ := performAction_failed h
  · exact ⟨fun _ hl => hn hl.1, fun _ => .refl w'⟩
  · rw [untouched_debited hc, Leaks, not_and]
    exact ⟨fun hs _ => hs, fun hs => hs hc⟩

theorem not_fits_of_leaks {s : Storage} (h : Leaks s t) : ¬ PayloadFits s t := by
  cases t with
  | treasurySpend => exact fun hf => h.1.2 hf.2
  | _ => exact h.2.elim

theorem executeProposalAction_failed (h : executeProposalAction p w = (.error e, w')) :
    performAction p.proposalType w = (.error e, w') := by
  simpa [executeProposalAction] using h

/-! ## Actions of the timelock -/

/-- An entry fails where its proposal is gone, or in its action. -/
theorem runEntry_failed {timelock : Timelock} {a : QueuedAction} (hw : w.docket.WellFormed)
    (h : Timelock.runEntry timelock a w = (.error e, w')) :
    w.docket.proposals.lookup a.proposalId = none ∧ w' = w ∨
      ∃ p, w.docket.proposals.lookup a.proposalId = some p ∧ performAction p.proposalType w = (.error e, w') := by
  simp [Timelock.runEntry, Proposals.executeProposalActionById, Timelock.putTimelock,
    Proposals.markProposalExecuted] at h
  rcases h with (⟨hnone, -, rfl⟩ | ⟨p, hp, h⟩) | ⟨_, w₁, ⟨p, hp, hact⟩, h⟩
  · exact .inl ⟨hnone, rfl⟩
  · exact .inr ⟨p, hp, executeProposalAction_failed h⟩
  · -- an action that was applied has left its proposal where it can be marked
    obtain ⟨hid, hkey⟩ := stored_of_action hw hp hact
    rcases h with ⟨hnone, -⟩ | ⟨p', hp', hnone, -⟩
    · exact absurd (hid.symm.trans hnone) (by simp)
    · rw [hid] at hp'
      cases hp'
      exact absurd (hkey.symm.trans hnone) (by simp)

/-- An action that fails leaves the contract as it was exactly when it is not stranded. -/
theorem executeQueuedAction_untouched (hw : w.docket.WellFormed) (hauth : auth executor = true)
    (h : Timelock.executeQueuedAction auth actionId executor w = (.error e, w')) :
    Untouched w w' ↔ ∀ timelock a p, ¬ Strands w actionId timelock a p := by
  simp [Timelock.executeQueuedAction, Timelock.getTimelock, Timelock.findAction, Timelock.requireOpen, hauth] at h
  rcases h with ⟨hnone, -, rfl⟩ | ⟨timelock, ht, ⟨hnone, -, rfl⟩ | ⟨a, ha, ⟨hclosed, -, rfl⟩ |
    ⟨hopen, ⟨hlate, -, rfl⟩ | ⟨hready, h⟩⟩⟩⟩
  · exact iff_of_true (.refl _) fun timelock a p hs => by cases hnone.symm.trans hs.started
  · refine iff_of_true (.refl _) fun timelock' a p hs => ?_
    cases ht.symm.trans hs.started
    cases hnone.symm.trans hs.found
  · refine iff_of_true (.refl _) fun timelock' a' p hs => ?_
    cases ht.symm.trans hs.started
    cases ha.symm.trans hs.found
    simp [hs.notExecuted, hs.notCancelled] at hclosed
  · refine iff_of_true (.refl _) fun timelock' a' p hs => ?_
    cases ht.symm.trans hs.started
    cases ha.symm.trans hs.found
    exact absurd hs.ready (Nat.not_le.mpr hlate)
  · rcases runEntry_failed hw h with ⟨hnone, rfl⟩ | ⟨p, hp, hact⟩
    · refine iff_of_true (.refl _) fun timelock' a' p hs => ?_
      cases ht.symm.trans hs.started
      cases ha.symm.trans hs.found
      cases hnone.symm.trans hs.stored
    · rw [performAction_untouched hact]
      constructor
      · intro hn timelock' a' p' hs
        cases ht.symm.trans hs.started
        cases ha.symm.trans hs.found
        cases hp.symm.trans hs.stored
        exact hn hs.leaks
      · exact fun hn hl => hn timelock a p ⟨ht, ha, hopen.1, hopen.2, hready, hp, hl⟩

/-- An action that is stranded fails. -/
theorem executeQueuedAction_stranded {timelock : Timelock} {a : QueuedAction}
    (hs : Strands w actionId timelock a p) :
    Timelock.executeQueuedAction auth actionId executor w ≠ (.ok u, w') := by
  intro h
  simp [Timelock.executeQueuedAction] at h
  obtain ⟨-, timelock', ht, a', ha, -, -, h⟩ := h
  cases hs.started.symm.trans ht
  cases hs.found.symm.trans ha
  simp [Timelock.runEntry, Proposals.executeProposalActionById] at h
  obtain ⟨_, w₁, ⟨p', hp, hact⟩, -⟩ := h
  cases hs.stored.symm.trans hp
  exact not_fits_of_leaks hs.leaks (executeProposalAction_iff.mp hact).1

/-! ## Lists of actions -/

theorem mem_attempts {ids : List Nat} {a : Attempt} (hw : w.docket.WellFormed)
    (ha : a ∈ attempts auth executor ids w) : a.before.docket.WellFormed ∧
      ∃ r, Timelock.executeQueuedAction auth a.actionId executor a.before = (r, a.after) ∧ a.returned = r.isOk := by
  induction ids generalizing w with
  | nil => cases ha
  | cons id ids ih =>
    rcases List.mem_cons.mp ha with rfl | ha
    · exact ⟨hw, _, rfl, rfl⟩
    · refine ih ?_ ha
      rcases hr : Timelock.executeQueuedAction auth id executor w with ⟨e | u, w₁⟩
      · change w₁.docket.WellFormed
        rw [executeQueuedAction_error hw hr]
        exact hw
      · obtain ⟨a', p, t, hrun⟩ := executeQueuedAction_ok hw hr
        exact hw.runsEntry hrun

/-- A call reports the actions that returned. -/
theorem executeEach_attempts {ids executed : List Nat}
    (h : Timelock.executeEach auth executor ids w = (.ok executed, w')) :
    executed = reported (attempts auth executor ids w) := by
  induction ids generalizing w executed with
  | nil =>
    simp only [Timelock.executeEach, pure_ok] at h
    exact h.1.symm
  | cons id ids ih =>
    simp only [Timelock.executeEach, bind_ok, attempt_ok, pure_ok] at h
    obtain ⟨_, w₁, hfirst, rest, w₂, hrest, heq, rfl⟩ := h
    have hrest := ih hrest
    rcases hfirst with ⟨u, rfl, hrun⟩ | ⟨e, rfl, hrun⟩
    · simp [attempts, hrun, reported, ← heq, hrest, Except.isOk, Except.toBool]
    · simp [attempts, hrun, reported, ← heq, hrest, Except.isOk, Except.toBool]

/-! ## The automatic execution -/

/-- An execution whose time has come leaves the contract as it was, where it fails, exactly when it is past
the deadline or does not leak. -/
theorem executeProposal_untouched (hw : w.docket.WellFormed)
    (hp : w.docket.proposals.lookup id = some p) (hstatus : p.status = .succeeded)
    (hready : u64Add p.votingEnds w.store.config.governanceConfig.executionDelay ≤ w.ledger.timestamp)
    (h : Proposals.executeProposal auth id executor w = (.error e, w')) (hauth : auth executor = true) :
    Untouched w w' ↔ ¬ (w.ledger.timestamp ≤ p.executionDeadline ∧ Leaks w.store p.proposalType) := by
  simp [Proposals.executeProposal, hauth] at h
  rcases h with ⟨hnone, -⟩ | ⟨q, hq, ⟨hne, -⟩ | ⟨-, ⟨hlate, -⟩ | ⟨-,
    ⟨hpast, -, rfl⟩ | ⟨hlive, h | ⟨⟨_, hact⟩, hnone, -⟩⟩⟩⟩⟩
  · cases hnone.symm.trans hp
  · cases hp.symm.trans hq
    exact absurd hstatus hne
  · cases hp.symm.trans hq
    exact absurd hready (Nat.not_le.mpr hlate)
  · cases hp.symm.trans hq
    exact iff_of_true (.refl _) fun hl => absurd hl.1 (Nat.not_le.mpr hpast)
  · cases hp.symm.trans hq
    rw [performAction_untouched (executeProposalAction_failed h)]
    exact not_congr ⟨fun hl => ⟨hlive, hl⟩, fun hl => hl.2⟩
  · exact absurd ((stored_of_action hw hq hact).2.symm.trans hnone) (by simp)

/-- The error that a decision drops. -/
theorem SwallowsExecution.run (hs : SwallowsExecution auth id p w w') :
    p.votingEnds ≤ w.ledger.timestamp ∧ auth p.proposer = true ∧
      ∃ e, Proposals.executeProposal auth id p.proposer (w.putProposal (p.withStatus .succeeded)) =
        (.error e, w') := by
  obtain ⟨hp, h, himmediate, e, he⟩ := hs
  simp only [Proposals.finalizeProposal, bind_ok, getProposal_ok, timestamp_ok, failIf_ok, not_lt,
    load_ok, putProposal_ok] at h
  obtain ⟨q, _, ⟨hq, rfl⟩, _, _, ⟨rfl, rfl⟩, _, _, ⟨hended, rfl⟩, _, _, ⟨-, rfl⟩, _, _, ⟨rfl, rfl⟩,
    supply, w₁, hsupply, _, w₂, ⟨-, hput⟩, h⟩ := h
  obtain rfl := referenceSupply_ok hsupply
  cases hp.symm.trans hq
  generalize outcome p supply (resolveCategoryThresholds w₁.store.config p.category).1
    (resolveCategoryThresholds w₁.store.config p.category).2 = decided at hput h
  refine ⟨hended, ?_⟩
  split at h
  · rename_i hdecided
    obtain ⟨rfl, -⟩ := hdecided
    obtain rfl : w₁.putProposal (p.withStatus .succeeded) = w₂ := hput
    simp only [bind_ok, attempt_ok, pure_ok] at h
    obtain ⟨r, w₃, hexec, -, rfl⟩ := h
    rcases hexec with ⟨_, -, hexec⟩ | ⟨e', -, hexec⟩
    · rw [hexec] at he
      cases he
    · -- a proposer who did not authorize would stop the decision as well
      have hauth : auth p.proposer = true := by
        by_contra hn
        simp [Proposals.executeProposal, hn] at hexec
      exact ⟨hauth, _, hexec⟩
  · rename_i hdecided
    simp at h
    exact absurd ⟨h.1, himmediate⟩ hdecided

end Swallowed

/-- No action of a list that fails leaves anything behind. -/
def ListFailuresHarmless (auth : Auth) (w : World) : Prop :=
  ∀ ids executor executed w', executeMultipleActions auth ids executor w = (.ok executed, w') →
    ∀ a ∈ attempts auth executor ids w, a.returned = false → Untouched a.before a.after

/-- No automatic execution that fails leaves anything behind; the proposal has its new status. -/
def ExecutionFailuresHarmless (auth : Auth) (w : World) : Prop :=
  ∀ id p w', SwallowsExecution auth id p w w' → Untouched (w.putProposal (p.withStatus .succeeded)) w'

/-- A failure that is swallowed leaves the contract as it was exactly when no spend that leaks is its
cause. -/
theorem swallowed_failures_iff {ledger : Ledger} {w : World} {auth : Auth}
    (h : Reaches Step (World.deployed ledger) w) :
    (∀ ids executor executed w',
      executeMultipleActions auth ids executor w = (.ok executed, w') →
        executed = reported (attempts auth executor ids w) ∧
        ((∀ a ∈ attempts auth executor ids w, a.returned = false → Untouched a.before a.after) ↔
          ∀ a ∈ attempts auth executor ids w, ∀ timelock action p, ¬ Strands a.before a.actionId timelock action p)) ∧
    ∀ id p w', SwallowsExecution auth id p w w' →
      (Untouched (w.putProposal (p.withStatus .succeeded)) w' ↔
        ¬ (w.ledger.timestamp ≤ p.executionDeadline ∧ Leaks w.store p.proposalType)) := by
  have hw : w.docket.WellFormed := h.invariant (I := fun w => w.docket.WellFormed) (wellFormed_start ledger)
    fun _ _ _ hw hs => wellFormed_step hw hs
  constructor
  · intro ids executor executed w' hrun
    simp [executeMultipleActions, Timelock.executeMultipleActions] at hrun
    obtain ⟨-, -, hauth, -, hrun⟩ := hrun
    refine ⟨executeEach_attempts hrun, forall₂_congr fun a ha => ?_⟩
    obtain ⟨hwa, r, hr, hreturned⟩ := mem_attempts hw ha
    rw [hreturned]
    cases r with
    | error e =>
      -- what a dropped error leaves behind
      rw [← executeQueuedAction_untouched hwa hauth hr]
      exact ⟨fun hall => hall rfl, fun hu _ => hu⟩
    | ok u =>
      refine iff_of_true (fun hfailed => ?_) fun timelock action p hs => executeQueuedAction_stranded hs hr
      cases hfailed
  · intro id p w' hs
    obtain ⟨hended, hauth, e, hrun⟩ := hs.run
    have hput : (w.putProposal (p.withStatus .succeeded)).docket = w.docket.put (p.withStatus .succeeded) := rfl
    have hlook : (w.putProposal (p.withStatus .succeeded)).docket.proposals.lookup id =
        some (p.withStatus .succeeded) := by
      rw [← hw.keyed id p hs.stored]
      exact AList.lookup_insert _
    have hready : u64Add (p.withStatus .succeeded).votingEnds
        (w.putProposal (p.withStatus .succeeded)).store.config.governanceConfig.executionDelay ≤
        (w.putProposal (p.withStatus .succeeded)).ledger.timestamp := by
      have himmediate : (w.putProposal (p.withStatus .succeeded)).store.config.governanceConfig.executionDelay =
          0 := hs.immediate
      rw [himmediate]
      exact (Nat.min_le_left _ _).trans hended
    exact executeProposal_untouched (p := p.withStatus .succeeded) (hput ▸ hw.put hs.stored rfl) hlook rfl hready
      hrun hauth

namespace Sample

def anyone : Auth := fun _ => true

/-- A spend is voted that is all that the treasury can hold, for a recipient who has something. -/
def leakingRun : List Event :=
  [callBy admin initializeCall, callBy admin (.direct admin (.setTreasuryAsset ⟨[67], none⟩ i128Max)),
    callBy community (.stake community 20000),
    callBy community (propose community (.treasurySpend community i128Max ⟨[67], none⟩ [112])),
    atTime 100, callBy community (.castVote 1 community .inFavor), atTime 700000]

/-- The same, but the execution is delayed, and the action is queued. -/
def queuedLeakRun : List Event :=
  [callBy admin initializeCall, callBy admin (.initializeTimelock admin 3600 86400 guardian),
    callBy admin (.direct admin (.configureGovernance { defaultGovernanceConfig with executionDelay := 1 })),
    callBy admin (.direct admin (.setTreasuryAsset ⟨[67], none⟩ i128Max)),
    callBy community (.stake community 20000),
    callBy community (propose community (.treasurySpend community i128Max ⟨[67], none⟩ [112])),
    atTime 100, callBy community (.castVote 1 community .inFavor), atTime 700000,
    call (.finalizeProposal 1), callBy mallory (.queueAction 1), atTime 900000]

/-- Nobody has decided the proposal before its deadline. -/
def lateWorld : World := deployedRun (leakingRun ++ [atTime 100000000])

end Sample

open Sample in
/-- An action that is not in the list, and a decision that comes after the deadline. -/
theorem late_decision_is_harmless :
    (∃ w', executeMultipleActions anyone [7] mallory (deployedRun queuedLeakRun) = (.ok [], w') ∧
      ∀ a ∈ attempts anyone mallory [7] (deployedRun queuedLeakRun), a.returned = false →
        Untouched a.before a.after) ∧
    ∃ p w', SwallowsExecution anyone 1 p lateWorld w' ∧
      Untouched (lateWorld.putProposal (p.withStatus .succeeded)) w' := by
  constructor
  · have hreach : Reaches Step (World.deployed ⟨0, 0⟩) (deployedRun queuedLeakRun) :=
      Reaches.of_along (by decide +kernel)
    have hrun : executeMultipleActions anyone [7] mallory (deployedRun queuedLeakRun) = (.ok [], _) :=
      Prod.ext (by decide +kernel) rfl
    refine ⟨_, hrun, ((swallowed_failures_iff hreach).1 _ _ _ _ hrun).2.mpr fun a ha timelock action p hs => ?_⟩
    rw [attempts, attempts, List.mem_singleton] at ha
    subst ha
    have hnone : ((deployedRun queuedLeakRun).store.timelock.timelock.map fun timelock =>
        (Registry.first QueuedAction.id timelock.queuedActions 7).isSome) = some false := by decide +kernel
    rw [hs.started, Option.map_some, hs.found] at hnone
    cases hnone
  · have hreach : Reaches Step (World.deployed ⟨0, 0⟩) lateWorld :=
      Reaches.of_along (by decide +kernel)
    obtain ⟨p, hp, hfailed⟩ := Option.map_eq_some_iff.mp (by decide +kernel :
      (lateWorld.docket.proposals.lookup 1).map (fun p => ((Proposals.executeProposal anyone 1 p.proposer
        (lateWorld.putProposal (p.withStatus .succeeded))).1,
          decide (lateWorld.ledger.timestamp ≤ p.executionDeadline))) =
        some (.error (err .proposalExpired), false))
    obtain ⟨hfailed, hlate⟩ := Prod.mk.inj hfailed
    have hs : SwallowsExecution anyone 1 p lateWorld (Proposals.finalizeProposal anyone 1 lateWorld).2 :=
      ⟨hp, Prod.ext (by decide +kernel) rfl, by decide +kernel, _, hfailed⟩
    exact ⟨p, _, hs, ((swallowed_failures_iff hreach).2 1 p _ hs).mpr fun hn => of_decide_eq_false hlate hn.1⟩

open Sample in
/-- The treasury is debited, and nobody has the amount. -/
theorem leaking_spend_is_lost :
    Reaches Step (World.deployed ⟨0, 0⟩) (deployedRun leakingRun) ∧
    ¬ ExecutionFailuresHarmless anyone (deployedRun leakingRun) ∧
    Reaches Step (World.deployed ⟨0, 0⟩) (deployedRun queuedLeakRun) ∧
    ¬ ListFailuresHarmless anyone (deployedRun queuedLeakRun) := by
  refine ⟨Reaches.of_along (by decide +kernel), fun hall => ?_, Reaches.of_along (by decide +kernel), fun hall => ?_⟩
  · obtain ⟨p, hp, hfailed⟩ := Option.map_eq_some_iff.mp (by decide +kernel :
      ((deployedRun leakingRun).docket.proposals.lookup 1).map (fun p =>
        (Proposals.executeProposal anyone 1 p.proposer ((deployedRun leakingRun).putProposal
          (p.withStatus .succeeded))).1) = some (.error (err .arithmeticOverflow)))
    have hs : SwallowsExecution anyone 1 p (deployedRun leakingRun)
        (Proposals.finalizeProposal anyone 1 (deployedRun leakingRun)).2 :=
      ⟨hp, Prod.ext (by decide +kernel) rfl, by decide +kernel, _, hfailed⟩
    have hasset : (Proposals.finalizeProposal anyone 1 (deployedRun leakingRun)).2.store.treasury.assets.lookup
        ⟨[67], none⟩ = (deployedRun leakingRun).store.treasury.assets.lookup ⟨[67], none⟩ :=
      (hall 1 p _ hs).assets _
    exact absurd hasset (by decide +kernel)
  · have hrun : executeMultipleActions anyone [1] mallory (deployedRun queuedLeakRun) = (.ok [], _) :=
      Prod.ext (by decide +kernel) rfl
    have hasset : (Timelock.executeQueuedAction anyone 1 mallory
        (deployedRun queuedLeakRun)).2.store.treasury.assets.lookup ⟨[67], none⟩ =
        (deployedRun queuedLeakRun).store.treasury.assets.lookup ⟨[67], none⟩ :=
      (hall _ _ _ _ hrun _ (List.mem_singleton.mpr rfl) (by decide +kernel)).assets _
    exact absurd hasset (by decide +kernel)

end CallStake.Governance
