import CallStake.Governance.Lifecycle

/-!
# Statuses that are final (`proposals::mark_proposal_executed`, `cancel_proposal`, `timelock`)

A proposal that was executed, failed, was cancelled or was withdrawn is over. Voting, the finalization,
the execution and the withdrawal look at the status before they change it; a cancellation refuses an
executed proposal only, and an entry of the queue is run or cancelled for its own state alone.

* `Lasting d d'`: from `d` to `d'`, a final status stays or its proposal is removed, and what is removed
  stays removed.
* `Lasting.move`: every move is lasting, if what it ends was not over before in another way, and a new
  proposal has a new identifier.
* `final_of_guarded`: so it is in every run of such moves.
* `failed_proposal_cancelled`: a proposal that failed becomes a cancelled one.
-/

namespace CallStake.Governance

/-- `Executed`, `Failed`, `Cancelled` or `Withdrawn`. -/
def ProposalStatus.final : ProposalStatus → Bool
  | .executed | .failed | .cancelled | .withdrawn => true
  | .pending | .active | .succeeded | .expired => false

/-! ## Condition -/

/-- If the proposal `id` is over, its status is `status` already. -/
def Docket.Ends (d : Docket) (status : ProposalStatus) (id : Nat) : Prop :=
  ∀ p ∈ d.proposals.lookup id, p.status.final = true → p.status = status

/-- The same of the proposal of an open entry of the queue. -/
def Docket.EndsEntry (d : Docket) (status : ProposalStatus) (actionId : Nat) : Prop :=
  ∀ a ∈ Registry.first QueuedAction.id d.queue actionId, a.executed = false → a.cancelled = false →
    d.Ends status a.proposalId

/-- The entry of the queue that a call cancels. -/
def Call.cancelsEntry : Call → Option Nat
  | .cancelQueuedAction actionId _ => some actionId
  | _ => none

/-- The proposal that a call cancels. -/
def Call.cancels : Call → Option Nat
  | .cancelProposal id _ => some id
  | _ => none

/-- What the code does not ask: the proposal of an open entry that is run is not over in another way than
by its execution, and the one of an open entry that is cancelled in another way than by cancellation; a
proposal that is cancelled has not failed and was not withdrawn; and no identifier is used twice. -/
def GuardsFinal (w : World) : Event → Prop
  | .call _ c => (∀ actionId ∈ c.runs, w.docket.EndsEntry .executed actionId) ∧
      (∀ actionId ∈ c.cancelsEntry, w.docket.EndsEntry .cancelled actionId) ∧
      (∀ id ∈ c.cancels, ∀ p ∈ w.docket.proposals.lookup id, p.status ≠ .failed ∧ p.status ≠ .withdrawn) ∧
      (c.creates = true → w.docket.FreshId)
  | _ => True

instance (d : Docket) (status : ProposalStatus) (id : Nat) : Decidable (d.Ends status id) :=
  inferInstanceAs (Decidable (∀ p ∈ d.proposals.lookup id, _))

instance (d : Docket) (status : ProposalStatus) (actionId : Nat) :
    Decidable (d.EndsEntry status actionId) :=
  inferInstanceAs (Decidable (∀ a ∈ Registry.first QueuedAction.id d.queue actionId, _))

instance (w : World) (ev : Event) : Decidable (GuardsFinal w ev) :=
  match ev with
  | .call _ _ => inferInstanceAs (Decidable (_ ∧ _))
  | .advance _ => inferInstanceAs (Decidable True)
  | .maintenance .. => inferInstanceAs (Decidable True)

/-! ## What lasts -/

/-- From `d` to `d'`: a proposal that was created stays created; where none was stored, none is; and a
final status is the same as long as its proposal is stored. -/
structure Lasting (d d' : Docket) : Prop where
  created (id : Nat) : (d.snapshots.lookup id).isSome → (d'.snapshots.lookup id).isSome
  gone (id : Nat) : (d.snapshots.lookup id).isSome → d.proposals.lookup id = none → d'.proposals.lookup id = none
  final (id : Nat) (p q : Proposal) : d.proposals.lookup id = some p → p.status.final = true →
    d'.proposals.lookup id = some q → q.status = p.status

namespace Lasting

variable {d d₁ d' : Docket} {p p' : Proposal} {id : Nat}

theorem of_same (hs : d'.snapshots = d.snapshots) (hp : d'.proposals = d.proposals) : Lasting d d' where
  created i hi := by rw [hs]; exact hi
  gone i _ hi := by rw [hp]; exact hi
  final i p q hi _ hq := by
    rw [hp, hi] at hq
    cases hq
    rfl

theorem trans (hw : d.WellFormed) (h : Lasting d d₁) (h' : Lasting d₁ d') : Lasting d d' where
  created i hi := h'.created i (h.created i hi)
  gone i hi hnone := h'.gone i (h.created i hi) (h.gone i hi hnone)
  final i p q hi hfinal hq := by
    cases h₁ : d₁.proposals.lookup i with
    | none =>
      have hnone := h'.gone i (h.created i (hw.kept_of hi)) h₁
      rw [hnone] at hq
      cases hq
    | some p₁ =>
      have heq := h.final i p p₁ hi hfinal h₁
      exact (h'.final i p₁ q h₁ (by rw [heq]; exact hfinal) hq).trans heq

/-- A stored proposal gets another status, unless its own was final. -/
theorem put (hw : d.WellFormed) (hp : d.proposals.lookup id = some p) (hid : p'.id = p.id)
    (hstatus : p.status.final = true → p'.status = p.status) : Lasting d (d.put p') where
  created i hi := hi
  gone i _ hnone := by
    have hne : i ≠ p'.id := by
      rintro rfl
      rw [hid, hw.keyed id p hp, hp] at hnone
      cases hnone
    rw [Docket.put, AList.lookup_insert_ne hne]
    exact hnone
  final i p₀ q hp₀ hfinal hq := by
    rw [Docket.put, Store.lookup_insert_eq] at hq
    split at hq
    · rename_i heq
      rw [heq, hid, hw.keyed id p hp, hp] at hp₀
      cases hp₀
      cases hq
      exact hstatus hfinal
    · rw [hp₀] at hq
      cases hq
      rfl

theorem executed (hw : d.WellFormed) (hp : d.proposals.lookup id = some p) (h : Executed d p d') :
    Lasting d d' := by
  obtain ⟨t, -, rfl⟩ := h.effect
  refine (of_same rfl rfl : Lasting d (d.apply p t)).trans hw (put (hw.apply t) hp rfl fun hfinal => ?_)
  rw [h.succeeded] at hfinal
  cases hfinal

/-- After an entry was run, the rest still find their proposals not over, or executed. -/
theorem runsEach (hw : d.WellFormed) {ids : List Nat} (hends : ∀ i ∈ ids, d.EndsEntry .executed i)
    (h : RunsEach ids d d') : Lasting d d' := by
  induction h with
  | nil => exact of_same rfl rfl
  | skip _ ih => exact ih hw fun i hi => hends i (List.mem_cons_of_mem _ hi)
  | @run actionId ids d d₁ d' a p t hrun _ ih =>
    have hend := hends actionId (List.mem_cons_self ..) a hrun.found hrun.executed hrun.cancelled p
      hrun.stored
    have hlast : Lasting d d₁ := by
      rw [hrun.eq]
      exact (of_same rfl rfl : Lasting d ((d.apply p t).requeue _)).trans hw
        (put ((hw.apply t).requeue _) hrun.stored rfl fun hfinal => (hend hfinal).symm)
    refine hlast.trans hw (ih (hw.runsEntry hrun) fun j hj b hb hbe hbc q hq => ?_)
    have hqueue : d₁.queue = Registry.updateFirst QueuedAction.id d.queue actionId
        fun e => { e with executed := true } := by rw [hrun.eq]; rfl
    rw [Option.mem_def, hqueue, Registry.first_updateFirst (by intro _; rfl)] at hb
    split at hb
    · -- the entry that was just run is not open any more
      rw [hrun.found] at hb
      cases hb
      cases hbe
    · rw [Option.mem_def, hrun.eq, Docket.put, Store.lookup_insert_eq] at hq
      split at hq
      · cases hq
        exact fun _ => rfl
      · exact hends j (List.mem_cons_of_mem _ hj) b hb hbe hbc q hq

theorem settled {treasury : Address} (h : Settled d id treasury d') : Lasting d d' := by
  cases h <;> exact of_same rfl rfl

theorem refunded {proposer : Address} (h : Refunded d id proposer d') : Lasting d d' := by
  cases h <;> exact of_same rfl rfl

/-- A new proposal under a new identifier. -/
theorem create (hid : (d.snapshots.lookup p.id).isSome = false) (hw : d.WellFormed)
    (snapshots : Store Address Int) (proposer : Address) :
    Lasting d ((d.add p snapshots).lock p.id proposer) where
  created i hi := by
    simp only [Docket.lock, Docket.add, Store.lookup_insert_eq]
    split
    · rfl
    · exact hi
  gone i hi hnone := by
    have hne : i ≠ p.id := by
      rintro rfl
      rw [hid] at hi
      cases hi
    simp only [Docket.lock, Docket.add, AList.lookup_insert_ne hne]
    exact hnone
  final i p₀ q hp₀ hfinal hq := by
    have hne : i ≠ p.id := by
      rintro rfl
      have := hw.kept_of hp₀
      rw [hid] at this
      cases this
    simp only [Docket.lock, Docket.add, AList.lookup_insert_ne hne] at hq
    rw [hp₀] at hq
    cases hq
    rfl

theorem removed (h : Removed d d') : Lasting d d' where
  created i hi := by rw [h.eq]; exact hi
  gone i _ hnone := by
    rcases h.cases i with heq | ⟨hgone, -⟩
    · rw [heq]; exact hnone
    · exact hgone
  final i p q hp _ hq := by
    rcases h.cases i with heq | ⟨hgone, -⟩
    · rw [heq, hp] at hq
      cases hq
      rfl
    · rw [hgone] at hq
      cases hq

/-- An open status is not final. -/
theorem not_final (hopen : p.status = .pending ∨ p.status = .active) : ¬ p.status.final = true := by
  rcases hopen with h | h <;> rw [h] <;> decide

theorem move {w : World} {auth : Auth} {c : Call} (hw : w.docket.WellFormed)
    (hg : GuardsFinal w (.call auth c)) (h : DocketMove w c d') : Lasting w.docket d' := by
  obtain ⟨hruns, hentry, hcancel, hfresh⟩ := hg
  cases h with
  | create hp _ h =>
    subst h hp
    exact create (p := Proposals.newProposal ..) (hfresh rfl) hw _ _
  | vote hp hv _ _ h =>
    subst h
    exact put hw hp (Proposal.addVote_id _ _ _) fun hf => absurd hf (not_final (requireVotable_ok hv).1)
  | reputationVote hp hv _ h =>
    subst h
    exact put hw hp (Proposal.addVote_id _ _ _) fun hf => absurd hf (not_final (requireVotable_ok hv).1)
  | @finalize id p status d₁ _ hp hopen _ hexec hsettle =>
    have hput : Lasting w.docket (w.docket.put (p.withStatus status)) :=
      put hw hp rfl fun hf => absurd hf (not_final hopen)
    have hwput : (w.docket.put (p.withStatus status)).WellFormed := hw.put hp rfl
    rcases hexec with rfl | ⟨-, hexec⟩
    · exact hput.trans hw (settled hsettle)
    · exact hput.trans hw ((executed hwput (AList.lookup_insert _) hexec).trans hwput (settled hsettle))
  | execute hp h => exact executed hw hp h
  | run h => exact runsEach hw hruns h
  | @cancel id _ p _ hp hstatus h =>
    subst h
    obtain ⟨hfailed, hwithdrawn⟩ := hcancel id rfl p hp
    refine put hw hp rfl fun hf => ?_
    cases hs : p.status <;> simp_all [Proposal.withStatus, ProposalStatus.final]
  | @cancelQueued actionId _ a p _ ha hexecuted hcancelled hp h =>
    subst h
    have hend := hentry actionId rfl a ha hexecuted hcancelled p hp
    generalize Registry.updateFirst QueuedAction.id w.docket.queue actionId _ = queue
    have hput : Lasting (w.docket.requeue queue)
        ((w.docket.requeue queue).put (p.withStatus .cancelled)) :=
      put (hw.requeue queue) hp rfl fun hf => (hend hf).symm
    exact (of_same rfl rfl : Lasting w.docket (w.docket.requeue queue)).trans hw hput
  | @withdraw id p _ hp hstatus h =>
    have hput : Lasting w.docket (w.docket.put (p.withStatus .withdrawn)) :=
      put hw hp rfl fun hf => absurd hf (not_final (.inl hstatus))
    exact hput.trans hw (refunded h)
  | remove h => exact removed h
  | restart _ h =>
    rw [h]
    exact ⟨fun _ hi => hi, fun _ _ _ => rfl, fun _ _ _ _ _ hq => by cases hq⟩
  | queue _ _ _ _ h => subst h; exact of_same rfl rfl
  | other _ h => exact of_same h.snapshots h.proposals

end Lasting

/-! ## Runs -/

theorem lasting_of_reaches {w w' : World} (hw : w.docket.WellFormed)
    (h : Reaches (fun w ev w' => GuardsFinal w ev ∧ Step w ev w') w w') :
    w'.docket.WellFormed ∧ Lasting w.docket w'.docket := by
  refine h.invariant (I := fun w' => w'.docket.WellFormed ∧ Lasting w.docket w'.docket)
    ⟨hw, .of_same rfl rfl⟩ ?_
  rintro a ev b ⟨hwa, hlast⟩ ⟨hg, hs⟩
  refine ⟨wellFormed_step hwa hs, hlast.trans hw ?_⟩
  rcases docket_step hwa hs with ⟨auth, c, rfl, hm⟩ | hq
  · exact .move hwa hg hm
  · exact .of_same hq.snapshots hq.proposals

/-- In every run in which no call ends a proposal that is over in another way already, and no identifier
is used twice: a proposal that is executed, failed, cancelled or withdrawn keeps its status as long as it
is stored, and once a proposal is removed there is none under its identifier any more. -/
theorem final_of_guarded {ledger : Ledger} {w w₁ : World} {id : Nat} {p : Proposal}
    (h : Reaches (fun w ev w' => GuardsFinal w ev ∧ Step w ev w') (World.deployed ledger) w)
    (hp : w.store.proposal.state.proposals.lookup id = some p)
    (h₁ : Reaches (fun w ev w' => GuardsFinal w ev ∧ Step w ev w') w w₁) :
    (p.status.final = true → ∀ q ∈ w₁.store.proposal.state.proposals.lookup id, q.status = p.status) ∧
    (w₁.store.proposal.state.proposals.lookup id = none →
      ∀ w₂, Reaches (fun w ev w' => GuardsFinal w ev ∧ Step w ev w') w₁ w₂ →
        w₂.store.proposal.state.proposals.lookup id = none) := by
  have hw := (lasting_of_reaches (wellFormed_start ledger) h).1
  obtain ⟨hw₁, hlast⟩ := lasting_of_reaches hw h₁
  refine ⟨fun hfinal q hq => hlast.final id p q hp hfinal hq, fun hnone w₂ h₂ => ?_⟩
  exact (lasting_of_reaches hw₁ h₂).2.gone id (hlast.created id (hw.kept_of hp)) hnone

namespace Sample

/-- Nobody votes for a proposal in time. -/
def failedRun : List Event :=
  [callBy admin initializeCall, callBy community (.stake community 20000),
    callBy community (propose community signal), atTime 700000, call (.finalizeProposal 1)]

def statusIn (w : World) (id : Nat) : Option ProposalStatus :=
  (w.store.proposal.state.proposals.lookup id).map (·.status)

/-- The next proposal is withdrawn, the one that failed is removed, and a third is created. -/
def afterFailure : List Event :=
  [callBy community (propose community signal), callBy community (.withdrawProposal 2 community),
    atTime 4000000, callBy mallory (.cleanupProposals 0 1), callBy community (propose community signal)]

/-- A proposal that failed stays so until it is removed. -/
theorem failed_proposal_stays :
    (∀ q ∈ (run (deployedRun failedRun) afterFailure).store.proposal.state.proposals.lookup 1,
      q.status = .failed) ∧ statusIn (run (deployedRun failedRun) afterFailure) 2 = some .withdrawn := by
  refine ⟨?_, by decide +kernel⟩
  obtain ⟨p, hp, hs⟩ := Option.map_eq_some_iff.mp
    (show statusIn (deployedRun failedRun) 1 = some .failed by decide +kernel)
  have h : Reaches (fun w ev w' => GuardsFinal w ev ∧ Step w ev w') (deployedRun failedRun)
      (run (deployedRun failedRun) afterFailure) := reaches_run (by decide +kernel)
  rw [← hs]
  exact (final_of_guarded (reaches_run (by decide +kernel)) hp h).1 (by rw [hs]; rfl)

/-- Its proposer cancels a proposal that has failed already. -/
theorem failed_proposal_cancelled : statusIn (deployedRun failedRun) 1 = some .failed ∧
    statusIn (deployedRun (failedRun ++ [callBy community (.cancelProposal 1 community)])) 1 = some .cancelled := by
  decide +kernel

end Sample

end CallStake.Governance
