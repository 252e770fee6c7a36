import CallStake.Governance.Lifecycle

/-!
# A proposal takes effect once

The action of a proposal is reached by its execution, by the finalization that executes it at once, and
by an entry of the queue. The first two look at the status and at the deadline of the proposal; an entry
is run for its own state alone.

* `EffectInv`: a proposal whose action was applied is over for good, and no two entries wait for one
  proposal.
* `effects_of_live`: where the entries that are run find their proposals succeeded and before their
  deadlines, and no identifier is used twice, the effects are in order.
* `queued_action_applied_again`: the entry of an executed proposal applies its action again.
-/

namespace CallStake.Governance

/-! ## Effects -/

def LogEntry.appliedId : LogEntry → Option Nat
  | .applied id .. => some id
  | _ => none

/-- The proposals whose action was applied, once for each time. -/
def appliedIds (log : List LogEntry) : List Nat := log.filterMap LogEntry.appliedId

/-- Every action was applied once, to a proposal that had succeeded, before its deadline. -/
structure EffectsInOrder (log : List LogEntry) : Prop where
  once : (appliedIds log).Nodup
  live (id : Nat) (status : ProposalStatus) (deadline now : Nat) :
    .applied id status deadline now ∈ log → status = .succeeded ∧ now ≤ deadline

/-- The entry is not open, or its proposal is not stored, or has succeeded and is before its deadline. -/
def Docket.LiveEntry (d : Docket) (actionId : Nat) : Prop :=
  ∀ a ∈ Registry.first QueuedAction.id d.queue actionId, a.executed = false → a.cancelled = false →
    ∀ p ∈ d.proposals.lookup a.proposalId, p.status = .succeeded ∧ d.now ≤ p.executionDeadline

instance (d : Docket) (actionId : Nat) : Decidable (d.LiveEntry actionId) :=
  inferInstanceAs (Decidable (∀ a ∈ Registry.first QueuedAction.id d.queue actionId, _))

/-- What the code does not ask: an open entry of the queue that is run finds its proposal succeeded and
before its deadline; and no identifier of a proposal is used twice. -/
def Live (w : World) : Event → Prop
  | .call _ c => (∀ actionId ∈ c.runs, w.docket.LiveEntry actionId) ∧ (c.creates = true → w.docket.FreshId)
  | _ => True

instance (w : World) (ev : Event) : Decidable (Live w ev) :=
  match ev with
  | .call _ _ => inferInstanceAs (Decidable (_ ∧ _))
  | .advance _ => inferInstanceAs (Decidable True)
  | .maintenance .. => inferInstanceAs (Decidable True)

/-! ## Invariant -/

/-- A proposal was created under the identifier, and it is over. -/
def Docket.Spent (d : Docket) (id : Nat) : Prop :=
  (d.snapshots.lookup id).isSome ∧ ∀ p, d.proposals.lookup id = some p → p.status.terminal = true

structure EffectInv (d : Docket) : Prop where
  order : EffectsInOrder d.log
  spent (id : Nat) : id ∈ appliedIds d.log → d.Spent id
  waiting (i j id : Nat) : 0 < id → d.Waiting i id → d.Waiting j id → i = j

theorem EffectsInOrder.cons {log : List LogEntry} {e : LogEntry} (h : EffectsInOrder log)
    (he : e.appliedId = none) : EffectsInOrder (e :: log) where
  once := by
    simp only [appliedIds, List.filterMap_cons, he]
    exact h.once
  live id status deadline now hm := by
    rcases List.mem_cons.mp hm with rfl | hm
    · cases he
    · exact h.live id status deadline now hm

namespace EffectInv

variable {d d' : Docket} {p p' : Proposal} {id : Nat}

theorem put (hI : EffectInv d) (hw : d.WellFormed) (hp : d.proposals.lookup id = some p)
    (hid : p'.id = p.id) (hstatus : p.status.terminal = true → p'.status.terminal = true) :
    EffectInv (d.put p') where
  order := hI.order
  spent i hi := by
    obtain ⟨hkept, hover⟩ := hI.spent i hi
    refine ⟨hkept, fun q hq => ?_⟩
    rw [Docket.put, Store.lookup_insert_eq] at hq
    split at hq
    · rename_i heq
      cases hq
      exact hstatus (hover p (by rw [heq, hid, hw.keyed id p hp]; exact hp))
    · exact hover q hq
  waiting := hI.waiting

/-- A proposal that is still voted on was not applied. -/
theorem not_terminal (hopen : p.status = .pending ∨ p.status = .active) :
    ¬ p.status.terminal = true := by
  rcases hopen with h | h <;> rw [h] <;> decide

theorem vote (hI : EffectInv d) (hw : d.WellFormed) (hp : d.proposals.lookup id = some p)
    (hopen : p.status = .pending ∨ p.status = .active) {v : Vote} {sum : Int} :
    EffectInv (d.put (p.addVote v sum)) :=
  hI.put hw hp (Proposal.addVote_id _ _ _) fun h => absurd h (not_terminal hopen)

theorem requeue (hI : EffectInv d) {queue : List QueuedAction}
    (hqueue : ∀ i id, (d.requeue queue).Waiting i id → d.Waiting i id) : EffectInv (d.requeue queue) where
  order := hI.order
  spent := hI.spent
  waiting i j id hpos hi hj := hI.waiting i j id hpos (hqueue i id hi) (hqueue j id hj)

/-- The action of a stored proposal that succeeded is applied, and the proposal is marked. -/
theorem applied (hI : EffectInv d) (hw : d.WellFormed) (hp : d.proposals.lookup id = some p)
    (hstatus : p.status = .succeeded) (hlive : d.now ≤ p.executionDeadline) (t : TokenStorage) :
    EffectInv ((d.apply p t).put (p.markExecuted d.now)) where
  order := by
    constructor
    · -- a proposal that succeeded is not over, so it was not applied before
      refine List.nodup_cons.mpr ⟨fun hm => ?_, hI.order.once⟩
      have hover := (hI.spent p.id hm).2 p (by rw [hw.keyed id p hp]; exact hp)
      rw [hstatus] at hover
      cases hover
    · intro i status deadline now hm
      rcases List.mem_cons.mp hm with heq | hm
      · cases heq
        exact ⟨hstatus, hlive⟩
      · exact hI.order.live i status deadline now hm
  spent i hi := by
    have hkey := hw.keyed id p hp
    rcases List.mem_cons.mp (show i ∈ p.id :: appliedIds d.log from hi) with rfl | hi
    · refine ⟨by rw [hkey]; exact hw.kept_of hp, fun q hq => ?_⟩
      have : q = p.markExecuted d.now := Option.some.inj (hq.symm.trans (AList.lookup_insert _))
      rw [this]
      rfl
    · refine ⟨(hI.spent i hi).1, fun q hq => ?_⟩
      rw [Docket.put, Store.lookup_insert_eq] at hq
      split at hq
      · cases hq; rfl
      · exact (hI.spent i hi).2 q hq
  waiting := hI.waiting

theorem executed (hI : EffectInv d) (hw : d.WellFormed) (hp : d.proposals.lookup id = some p)
    (h : Executed d p d') : EffectInv d' := by
  obtain ⟨t, -, rfl⟩ := h.effect
  exact hI.applied hw hp h.succeeded h.live t

theorem runsEntry (hI : EffectInv d) (hw : d.WellFormed) {actionId : Nat} {a : QueuedAction}
    {t : TokenStorage} (h : RunsEntry d actionId a p t d') (hstatus : p.status = .succeeded)
    (hlive : d.now ≤ p.executionDeadline) : EffectInv d' := by
  have happlied := hI.applied hw h.stored hstatus hlive t
  rw [h.eq]
  exact happlied.requeue fun i id hwait => waiting_of_closed (fun _ => .inl rfl) hwait

/-- The entries of a list that are run one after another: after each, the rest still find their
proposals as they were, since no two entries wait for one proposal. -/
theorem runsEach (hI : EffectInv d) (hw : d.WellFormed) {ids : List Nat}
    (hlive : ∀ i ∈ ids, d.LiveEntry i) (h : RunsEach ids d d') : EffectInv d' := by
  induction h with
  | nil => exact hI
  | skip _ ih => exact ih hI hw fun i hi => hlive i (List.mem_cons_of_mem _ hi)
  | @run actionId ids d d₁ d' a p t hrun _ ih =>
    obtain ⟨hstatus, hdue⟩ :=
      hlive actionId (List.mem_cons_self ..) a hrun.found hrun.executed hrun.cancelled p hrun.stored
    refine ih (hI.runsEntry hw hrun hstatus hdue) (hw.runsEntry hrun) fun j hj b hb hbe hbc q hq => ?_
    have hqueue : d₁.queue = Registry.updateFirst QueuedAction.id d.queue actionId
        fun e => { e with executed := true } := by rw [hrun.eq]; rfl
    have hnow : d₁.now = d.now := by rw [hrun.eq]; rfl
    rw [Option.mem_def, hqueue, Registry.first_updateFirst (by intro _; rfl)] at hb
    split at hb
    · -- the entry that was just run is not open any more
      rw [hrun.found] at hb
      cases hb
      cases hbe
    · rename_i hne
      have hpid := hw.keyed _ p hrun.stored
      have hdiff : b.proposalId ≠ a.proposalId := by
        intro hsame
        refine hne (hI.waiting j actionId a.proposalId (hw.pos _ (hw.kept_of hrun.stored)) ?_ ?_)
        · exact ⟨b, Registry.mem_of_first hb, hbe, hbc, Registry.key_of_first hb, hsame⟩
        · exact ⟨a, Registry.mem_of_first hrun.found, hrun.executed, hrun.cancelled,
            Registry.key_of_first hrun.found, rfl⟩
      have hq' : d.proposals.lookup b.proposalId = some q := by
        rw [Option.mem_def, hrun.eq, Docket.put, Store.lookup_insert_eq] at hq
        rw [if_neg (show b.proposalId ≠ (p.markExecuted d.now).id by
          change b.proposalId ≠ p.id; rw [hpid]; exact hdiff)] at hq
        exact hq
      rw [hnow]
      exact hlive j (List.mem_cons_of_mem _ hj) b hb hbe hbc q hq'

theorem credit (hI : EffectInv d) (recipient : Address) : EffectInv (d.credit id recipient) :=
  ⟨hI.order.cons rfl, hI.spent, hI.waiting⟩

theorem release (hI : EffectInv d) : EffectInv (d.release id) := ⟨hI.order, hI.spent, hI.waiting⟩

theorem settled (hI : EffectInv d) {treasury : Address} (h : Settled d id treasury d') :
    EffectInv d' := by
  cases h with
  | none => exact hI
  | paid => exact (hI.credit _).release
  | stuck => exact hI

theorem refunded (hI : EffectInv d) {proposer : Address} (h : Refunded d id proposer d') :
    EffectInv d' := by
  cases h with
  | none => exact hI
  | paid => exact (hI.credit _).release
  | lost => exact hI.release

/-- A new proposal under a new identifier. -/
theorem create (hI : EffectInv d) (hid : (d.snapshots.lookup p.id).isSome = false)
    (snapshots : Store Address Int) (proposer : Address) :
    EffectInv ((d.add p snapshots).lock p.id proposer) where
  order := hI.order.cons rfl
  spent i hi := by
    obtain ⟨hkept, hover⟩ := hI.spent i hi
    have hne : i ≠ p.id := by
      rintro rfl
      rw [hid] at hkept
      cases hkept
    refine ⟨?_, fun q hq => ?_⟩
    · simp only [Docket.lock, Docket.add, Store.lookup_insert_eq, if_neg hne]
      exact hkept
    · simp only [Docket.lock, Docket.add, Store.lookup_insert_eq, if_neg hne] at hq
      exact hover q hq
  waiting := hI.waiting

theorem removed (hI : EffectInv d) (h : Removed d d') : EffectInv d' := by
  rw [h.eq]
  refine ⟨hI.order, fun i hi => ⟨(hI.spent i hi).1, fun q hq => ?_⟩, hI.waiting⟩
  rcases h.cases i with heq | ⟨hnone, -⟩
  · exact (hI.spent i hi).2 q (heq ▸ hq)
  · exact absurd (hnone.symm.trans hq) (by simp)

theorem quiet (hI : EffectInv d) (h : Quiet d d') : EffectInv d' where
  order := by rw [h.log]; exact hI.order
  spent := by
    rw [h.log]
    intro i hi
    rw [Docket.Spent, h.snapshots, h.proposals]
    exact hI.spent i hi
  waiting i j id hpos hi hj := hI.waiting i j id hpos (h.waiting i id hpos hi) (h.waiting j id hpos hj)

theorem queue (hI : EffectInv d) {a : QueuedAction} (hnone : ∀ i, ¬ d.Waiting i a.proposalId) :
    EffectInv (d.requeue (d.queue ++ [a])) where
  order := hI.order
  spent := hI.spent
  waiting i j id hpos hi hj := by
    have hcases : ∀ k, (d.requeue (d.queue ++ [a])).Waiting k id →
        d.Waiting k id ∨ k = a.id ∧ id = a.proposalId := by
      rintro k ⟨b, hb, h1, h2, rfl, rfl⟩
      rcases List.mem_append.mp hb with hb | hb
      · exact .inl ⟨b, hb, h1, h2, rfl, rfl⟩
      · rw [List.mem_singleton.mp hb]
        exact .inr ⟨rfl, rfl⟩
    rcases hcases i hi with hi | ⟨rfl, rfl⟩
    · rcases hcases j hj with hj | ⟨rfl, rfl⟩
      · exact hI.waiting i j id hpos hi hj
      · exact absurd hi (hnone i)
    · rcases hcases j hj with hj | ⟨rfl, -⟩
      · exact absurd hj (hnone j)
      · rfl

theorem start (ledger : Ledger) : EffectInv (World.deployed ledger).docket where
  order := ⟨List.nodup_nil, fun _ _ _ _ h => by cases h⟩
  spent i hi := by cases hi
  waiting i j id _ hi := by
    obtain ⟨a, ha, -⟩ := hi
    cases ha

theorem move {w : World} {auth : Auth} {c : Call} (hw : w.docket.WellFormed) (hI : EffectInv w.docket)
    (hlive : Live w (.call auth c)) (h : DocketMove w c d') : EffectInv d' := by
  cases h with
  | create hp _ h =>
    subst h hp
    refine hI.create ?_ _ _
    exact hlive.2 rfl
  | vote hp hv _ _ h =>
    subst h
    exact hI.vote hw hp (requireVotable_ok hv).1
  | reputationVote hp hv _ h =>
    subst h
    exact hI.vote hw hp (requireVotable_ok hv).1
  | @finalize id p status d₁ _ hp hopen _ hexec hsettle =>
    have hput : EffectInv (w.docket.put (p.withStatus status)) :=
      hI.put hw hp rfl fun h => absurd h (not_terminal hopen)
    have hwput : (w.docket.put (p.withStatus status)).WellFormed := hw.put hp rfl
    rcases hexec with rfl | ⟨-, hexec⟩
    · exact hput.settled hsettle
    · exact (hput.executed hwput (AList.lookup_insert _) hexec).settled hsettle
  | execute hp h => exact hI.executed hw hp h
  | run h => exact hI.runsEach hw hlive.1 h
  | cancel hp _ h => subst h; exact hI.put hw hp rfl fun _ => rfl
  | @cancelQueued actionId _ _ _ _ _ _ _ hp h =>
    subst h
    have hrequeue : EffectInv (w.docket.requeue (Registry.updateFirst QueuedAction.id w.docket.queue
        actionId fun e => { e with cancelled := true })) :=
      hI.requeue fun i id => waiting_of_closed fun _ => .inr rfl
    exact hrequeue.put (hw.requeue _) hp rfl fun _ => rfl
  | @withdraw id p _ hp _ h =>
    have hput : EffectInv (w.docket.put (p.withStatus .withdrawn)) := hI.put hw hp rfl fun _ => rfl
    exact hput.refunded h
  | remove h => exact hI.removed h
  | restart _ h =>
    rw [h]
    exact ⟨hI.order, fun i hi => ⟨(hI.spent i hi).1, by simp⟩, hI.waiting⟩
  | queue _ _ hnone ha h =>
    subst h ha
    exact hI.queue hnone
  | other _ h => exact hI.quiet h

end EffectInv

/-- In every run in which the entries of the queue that are run find their proposals succeeded and before
their deadlines, and no identifier is used twice, every action is applied at most once, to a proposal
that succeeded, before its deadline. -/
theorem effects_of_live {ledger : Ledger} {w : World}
    (h : Reaches (fun w ev w' => Live w ev ∧ Step w ev w') (World.deployed ledger) w) :
    EffectsInOrder w.log :=
  (docket_invariant h (EffectInv.start ledger) (fun _ _ _ _ hw hI hC hm => hI.move hw hC hm)
    (fun _ _ hI hq => hI.quiet hq)).2.order

namespace Sample

def slowConfig : GovernanceConfig := { defaultGovernanceConfig with executionDelay := 1 }

/-- A proposal succeeds, and its action is queued. -/
def queuedRun : List Event :=
  [callBy admin initializeCall, callBy admin (.initializeTimelock admin 3600 86400 guardian),
    callBy admin (.direct admin (.configureGovernance slowConfig)),
    callBy community (.stake community 20000), callBy community (propose community signal),
    atTime 100, callBy community (.castVote 1 community .inFavor), atTime 700000,
    callBy mallory (.finalizeProposal 1), callBy mallory (.queueAction 1)]

/-- The action of the proposal is applied once, in its window. -/
theorem queued_action_applied :
    EffectsInOrder (deployedRun (queuedRun ++
      [atTime 900000, callBy mallory (.executeQueuedAction 1 mallory)])).log :=
  effects_of_live (reaches_run (by decide +kernel))

/-- The entry of a proposal that was executed since applies the action again. -/
theorem queued_action_applied_again :
    ¬ EffectsInOrder (deployedRun (queuedRun ++
      [callBy mallory (.executeProposal 1 mallory), atTime 900000,
        callBy mallory (.executeQueuedAction 1 mallory)])).log := by
  intro h
  exact absurd h.once (by decide +kernel)

end Sample

end CallStake.Governance
