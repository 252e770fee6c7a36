import CallStake.Governance.Lifecycle

/-!
# Deposits

A deposit is locked when a proposal is created, and settled when the proposal is finalized or withdrawn.
The lock has no amount: a settlement pays the amount of the present configuration. A cancellation leaves
the lock, and so does a finalization that finds no room for the payment.

* `DepositInv`: what carries this through a run.
* `deposits_of_settling`: where cancelled proposals have no deposit, the configured amount is the one that
  was locked and there is room for the payment, the deposits are in order.
* `cancelled_deposit_stays`: the deposit of a cancelled proposal stays locked.
-/

namespace CallStake.Governance

open Store List

/-! ## Order -/

def LogEntry.lockedId : LogEntry → Option Nat
  | .depositLocked id .. => some id
  | _ => none

def LogEntry.creditedId : LogEntry → Option Nat
  | .depositCredited id .. => some id
  | _ => none

/-- The proposals whose deposit was locked, once for each time. -/
def lockedIds (log : List LogEntry) : List Nat := log.filterMap LogEntry.lockedId

/-- The proposals whose deposit was paid out, once for each time. -/
def creditedIds (log : List LogEntry) : List Nat := log.filterMap LogEntry.creditedId

/-- A deposit is locked once and settled at most once, in the amount in which it was locked; and it is
locked only for a stored proposal that is not over. -/
structure DepositsInOrder (w : World) : Prop where
  lockedOnce : (lockedIds w.log).Nodup
  settledOnce : (creditedIds w.log).Nodup
  amount (id : Nat) (recipient : Address) (amount : Int) :
    .depositCredited id recipient amount ∈ w.log → ∃ proposer, .depositLocked id proposer amount ∈ w.log
  ended (id : Nat) (proposer : Address) : w.store.lockedDeposit.lookup id = some proposer →
    ∃ p, w.store.proposal.state.proposals.lookup id = some p ∧
      (Proposals.effectiveStatus w.ledger.timestamp p).terminal = false

/-- A settlement pays what was locked, to the proposer whose deposit it is or to the treasury. -/
def PaysOut (w : World) (ev : Event) : Prop :=
  ∀ id recipient amount, .depositCredited id recipient amount ∈ (next w ev).log →
    .depositCredited id recipient amount ∉ w.log →
    ∃ proposer, w.store.lockedDeposit.lookup id = some proposer ∧ w.held.lookup id = some amount ∧
      (recipient = proposer ∨ recipient = w.store.core.treasuryAddress.getD proposer)

/-! ## Condition -/

/-- The token after the action of a proposal. -/
def TokenStorage.afterAction (t : TokenStorage) : ProposalType → TokenStorage
  | .treasurySpend recipient amount _ _ => t.setBalance recipient (balanceOf t recipient + amount)
  | _ => t

theorem Effect.eq {t t' : TokenStorage} {proposalType : ProposalType} (h : Effect t proposalType t') :
    t' = t.afterAction proposalType := by
  cases proposalType
  case treasurySpend => exact h.2.2
  all_goals exact h

/-- There is room for a deposit in the balance of `recipient`, also after the action of `p` where it is
applied at once. -/
def World.Room (w : World) (p : Proposal) (recipient : Address) : Prop :=
  InRange (balanceOf w.store.token recipient + w.docket.deposit) ∧
    (w.store.config.governanceConfig.executionDelay = 0 →
      InRange (balanceOf (w.store.token.afterAction p.proposalType) recipient + w.docket.deposit))

instance (w : World) (p : Proposal) (recipient : Address) : Decidable (w.Room p recipient) :=
  inferInstanceAs (Decidable (_ ∧ _))

/-- What the code does not ask of a call. -/
def World.Settles (w : World) : Call → Prop
  | .createProposal .. => w.docket.FreshId
  | .cancelProposal id _ => w.docket.locked.lookup id = none
  | .finalizeProposal id => ∀ p ∈ w.docket.proposals.lookup id, ∀ proposer ∈ w.docket.locked.lookup id,
      w.docket.held.lookup id = some w.docket.deposit ∧ w.Room p proposer ∧
        w.Room p (w.store.core.treasuryAddress.getD proposer)
  | .withdrawProposal id proposer => w.docket.locked.lookup id = some proposer →
      w.docket.held.lookup id = some w.docket.deposit ∧ InRange (balanceOf w.store.token proposer + w.docket.deposit)
  | .initializeGovernance .. => w.store.core.initialized = false → w.docket.locked.entries = []
  | _ => True

/-- A new proposal has a new identifier; a proposal with a deposit is not cancelled; a settlement finds the
configured amount to be the one that was locked, and room for it; and the contract is not initialized
again while a deposit is locked. -/
def Settling (w : World) : Event → Prop
  | .call _ c => w.Settles c
  | _ => True

instance (w : World) (c : Call) : Decidable (w.Settles c) := by
  induction c using Call.casesOn with
  | createProposal => exact inferInstanceAs (Decidable w.docket.FreshId)
  | cancelProposal => exact inferInstanceAs (Decidable (_ = _))
  | finalizeProposal => exact inferInstanceAs (Decidable (∀ _ ∈ _, _))
  | withdrawProposal | initializeGovernance => exact inferInstanceAs (Decidable (_ → _))
  | _ => exact isTrue trivial

instance (w : World) (ev : Event) : Decidable (Settling w ev) :=
  match ev with
  | .call _ c => inferInstanceAs (Decidable (w.Settles c))
  | .advance _ => inferInstanceAs (Decidable True)
  | .maintenance .. => inferInstanceAs (Decidable True)

/-! ## Invariant -/

/-- The proposal is voted on, or will be. -/
def Proposal.IsOpen (p : Proposal) : Prop := p.status = .pending ∨ p.status = .active

theorem effectiveStatus_of_open {now : Nat} {p : Proposal} (h : p.IsOpen) :
    Proposals.effectiveStatus now p = p.status := by
  refine if_neg fun hs => ?_
  rcases h with h | h <;> rw [h] at hs <;> cases hs.1

structure DepositInv (d : Docket) : Prop where
  lockedOnce : (lockedIds d.log).Nodup
  settledOnce : (creditedIds d.log).Nodup
  amount (id : Nat) (recipient : Address) (amount : Int) :
    .depositCredited id recipient amount ∈ d.log → ∃ proposer, .depositLocked id proposer amount ∈ d.log
  held (id : Nat) (amount : Int) : d.held.lookup id = some amount →
    ∃ proposer, .depositLocked id proposer amount ∈ d.log
  unsettled (id : Nat) : (d.locked.lookup id).isSome → id ∉ creditedIds d.log
  created (id : Nat) : id ∈ lockedIds d.log → (d.snapshots.lookup id).isSome
  isOpen (id : Nat) (proposer : Address) : d.locked.lookup id = some proposer →
    ∃ p, d.proposals.lookup id = some p ∧ p.proposer = proposer ∧ p.IsOpen
  waiting (actionId id : Nat) : 0 < id → d.Waiting actionId id →
    (d.snapshots.lookup id).isSome ∧ d.locked.lookup id = none

theorem mem_lockedIds {log : List LogEntry} {id : Nat} {proposer : Address} {amount : Int}
    (h : .depositLocked id proposer amount ∈ log) : id ∈ lockedIds log :=
  List.mem_filterMap.mpr ⟨_, h, rfl⟩

theorem mem_creditedIds {log : List LogEntry} {id : Nat} (h : id ∈ creditedIds log) :
    ∃ recipient amount, .depositCredited id recipient amount ∈ log := by
  obtain ⟨e, he, hid⟩ := List.mem_filterMap.mp h
  cases e <;> cases hid
  exact ⟨_, _, he⟩

namespace DepositInv

variable {d d' : Docket} {p p' : Proposal} {id : Nat}

/-- A proposal is replaced: it keeps its proposer and stays open, or it has no deposit. -/
theorem put (hI : DepositInv d) (hw : d.WellFormed) (hp : d.proposals.lookup id = some p)
    (hid : p'.id = p.id) (h : d.locked.lookup id = none ∨ p'.proposer = p.proposer ∧ p'.IsOpen) :
    DepositInv (d.put p') where
  lockedOnce := hI.lockedOnce
  settledOnce := hI.settledOnce
  amount := hI.amount
  held := hI.held
  unsettled := hI.unsettled
  created := hI.created
  isOpen i proposer hi := by
    obtain ⟨q, hq, hproposer, hopen⟩ := hI.isOpen i proposer hi
    simp only [Docket.put, lookup_insert_eq, hid, hw.keyed id p hp]
    by_cases heq : i = id
    · subst heq
      rw [hp] at hq
      cases hq
      rcases h with hnone | ⟨hsame, hopen'⟩
      · exact absurd (hnone.symm.trans hi) (by simp)
      · exact ⟨p', if_pos rfl, hsame.trans hproposer, hopen'⟩
    · exact ⟨q, by rw [if_neg heq]; exact hq, hproposer, hopen⟩
  waiting := hI.waiting

theorem apply (hI : DepositInv d) (t : TokenStorage) : DepositInv (d.apply p t) where
  lockedOnce := hI.lockedOnce
  settledOnce := hI.settledOnce
  amount i r a h := by
    obtain ⟨q, hq⟩ := hI.amount i r a (by simpa [Docket.apply] using h)
    exact ⟨q, mem_cons_of_mem _ hq⟩
  held i a h := by
    obtain ⟨q, hq⟩ := hI.held i a h
    exact ⟨q, mem_cons_of_mem _ hq⟩
  unsettled := hI.unsettled
  created := hI.created
  isOpen := hI.isOpen
  waiting := hI.waiting

theorem requeue (hI : DepositInv d) {queue : List QueuedAction}
    (hqueue : ∀ i id, (d.requeue queue).Waiting i id → d.Waiting i id) :
    DepositInv (d.requeue queue) where
  __ := hI
  waiting i id hpos h := hI.waiting i id hpos (hqueue i id h)

theorem executed (hI : DepositInv d) (hw : d.WellFormed) (hp : d.proposals.lookup id = some p)
    (hnone : d.locked.lookup id = none) (h : Executed d p d') : DepositInv d' := by
  obtain ⟨t, -, rfl⟩ := h.effect
  exact (hI.apply t).put (hw.apply t) hp rfl (.inl hnone)

/-- What waits in the queue has no deposit any more. -/
theorem runsEntry (hI : DepositInv d) (hw : d.WellFormed) {actionId : Nat} {a : QueuedAction}
    {t : TokenStorage} (h : RunsEntry d actionId a p t d') : DepositInv d' := by
  have hwait : d.Waiting actionId a.proposalId := ⟨a, Registry.mem_of_first h.found, h.executed,
    h.cancelled, Registry.key_of_first h.found, rfl⟩
  have hnone := (hI.waiting _ _ (hw.pos _ (hw.kept_of h.stored)) hwait).2
  rw [h.eq]
  exact ((hI.apply t).requeue fun i id => waiting_of_closed fun _ => .inl rfl).put
    ((hw.apply t).requeue _) h.stored rfl (.inl hnone)

theorem runsEach (hI : DepositInv d) (hw : d.WellFormed) {ids : List Nat} (h : RunsEach ids d d') :
    DepositInv d' := by
  induction h with
  | nil => exact hI
  | run hrun _ ih => exact ih (hI.runsEntry hw hrun) (hw.runsEntry hrun)
  | skip _ ih => exact ih hI hw

theorem release (hI : DepositInv d) : DepositInv (d.release id) where
  lockedOnce := hI.lockedOnce
  settledOnce := hI.settledOnce
  amount := hI.amount
  held i a h := by
    simp only [Docket.release, lookup_erase_eq] at h
    split at h
    · cases h
    · exact hI.held i a h
  unsettled i h := by
    simp only [Docket.release, lookup_erase_eq] at h
    split at h
    · cases h
    · exact hI.unsettled i h
  created := hI.created
  isOpen i q h := by
    simp only [Docket.release, lookup_erase_eq] at h
    split at h
    · cases h
    · exact hI.isOpen i q h
  waiting i j hpos h := by
    obtain ⟨hkept, hnone⟩ := hI.waiting i j hpos h
    refine ⟨hkept, ?_⟩
    simp only [Docket.release, lookup_erase_eq]
    split
    · rfl
    · exact hnone

/-- A deposit that is not locked any more is paid in the amount in which it was locked. -/
theorem credit (hI : DepositInv d) {recipient : Address} (hnone : d.locked.lookup id = none)
    (hnew : id ∉ creditedIds d.log) (hamount : ∃ proposer, .depositLocked id proposer d.deposit ∈ d.log) :
    DepositInv (d.credit id recipient) where
  lockedOnce := hI.lockedOnce
  settledOnce := List.nodup_cons.mpr ⟨hnew, hI.settledOnce⟩
  amount i r a h := by
    rcases List.mem_cons.mp h with heq | h
    · cases heq
      obtain ⟨q, hq⟩ := hamount
      exact ⟨q, mem_cons_of_mem _ hq⟩
    · obtain ⟨q, hq⟩ := hI.amount i r a h
      exact ⟨q, mem_cons_of_mem _ hq⟩
  held i a h := by
    obtain ⟨q, hq⟩ := hI.held i a h
    exact ⟨q, mem_cons_of_mem _ hq⟩
  unsettled i h hm := by
    rcases List.mem_cons.mp (show i ∈ id :: creditedIds d.log from hm) with rfl | hm
    · rw [show (d.credit i recipient).locked = d.locked from rfl, hnone] at h
      cases h
    · exact hI.unsettled i h hm
  created := hI.created
  isOpen := hI.isOpen
  waiting := hI.waiting

theorem create (hI : DepositInv d) (hid : (d.snapshots.lookup p.id).isSome = false)
    (hopen : p.status = .pending) (snapshots : Store Address Int) :
    DepositInv ((d.add p snapshots).lock p.id p.proposer) where
  lockedOnce := by
    refine List.nodup_cons.mpr ⟨fun hm => ?_, hI.lockedOnce⟩
    have := hI.created p.id hm
    rw [hid] at this
    cases this
  settledOnce := hI.settledOnce
  amount i r a h := by
    rcases List.mem_cons.mp h with heq | h
    · cases heq
    · obtain ⟨q, hq⟩ := hI.amount i r a h
      exact ⟨q, mem_cons_of_mem _ hq⟩
  held i a h := by
    simp only [Docket.lock, Docket.add, lookup_insert_eq] at h
    split at h
    · cases h
      rename_i heq
      rw [heq]
      exact ⟨p.proposer, mem_cons_self ..⟩
    · obtain ⟨q, hq⟩ := hI.held i a h
      exact ⟨q, mem_cons_of_mem _ hq⟩
  unsettled i h hm := by
    simp only [Docket.lock, Docket.add, lookup_insert_eq] at h
    split at h
    · -- what was settled was created before
      rename_i heq
      obtain ⟨r, a, hcredit⟩ := mem_creditedIds (show i ∈ creditedIds d.log from hm)
      obtain ⟨q, hlocked⟩ := hI.amount i r a hcredit
      have := hI.created i (mem_lockedIds hlocked)
      rw [heq, hid] at this
      cases this
    · exact hI.unsettled i h hm
  created i h := by
    simp only [Docket.lock, Docket.add, lookup_insert_eq]
    split
    · rfl
    · rename_i hne
      rcases List.mem_cons.mp (show i ∈ p.id :: lockedIds d.log from h) with heq | h
      · exact absurd heq hne
      · exact hI.created i h
  isOpen i q h := by
    simp only [Docket.lock, Docket.add, lookup_insert_eq] at h ⊢
    split at h
    · cases h
      exact ⟨p, if_pos ‹_›, rfl, .inl hopen⟩
    · rw [if_neg ‹_›]
      exact hI.isOpen i q h
  waiting i j hpos h := by
    obtain ⟨hkept, hnone⟩ := hI.waiting i j hpos h
    have hne : j ≠ p.id := by
      rintro rfl
      rw [hid] at hkept
      cases hkept
    simp only [Docket.lock, Docket.add, lookup_insert_eq, if_neg hne]
    exact ⟨hkept, hnone⟩

/-- A proposal that is over, or is about to be, and has no deposit. -/
theorem unlocked (hI : DepositInv d) (hp : d.proposals.lookup id = some p) (hopen : ¬ p.IsOpen) :
    d.locked.lookup id = none := by
  rw [Option.eq_none_iff_forall_ne_some]
  intro proposer h
  obtain ⟨q, hq, -, hq'⟩ := hI.isOpen id proposer h
  rw [hp] at hq
  cases hq
  exact hopen hq'

theorem removed (hI : DepositInv d) (h : Removed d d') : DepositInv d' := by
  rw [h.eq]
  refine { hI with isOpen := fun i proposer hi => ?_ }
  obtain ⟨p, hp, hproposer, hopen⟩ := hI.isOpen i proposer hi
  rcases h.cases i with heq | ⟨-, q, hq, hover⟩
  · exact ⟨p, heq.trans hp, hproposer, hopen⟩
  · rw [hp] at hq
    cases hq
    rw [effectiveStatus_of_open hopen] at hover
    rcases hopen with h | h <;> rw [h] at hover <;> cases hover

theorem quiet (hI : DepositInv d) (h : Quiet d d') : DepositInv d' where
  lockedOnce := by rw [h.log]; exact hI.lockedOnce
  settledOnce := by rw [h.log]; exact hI.settledOnce
  amount := by rw [h.log]; exact hI.amount
  held := by rw [h.log, h.held]; exact hI.held
  unsettled := by rw [h.log, h.locked]; exact hI.unsettled
  created := by rw [h.log, h.snapshots]; exact hI.created
  isOpen := by rw [h.locked, h.proposals]; exact hI.isOpen
  waiting i id hpos hwait := by
    rw [h.snapshots, h.locked]
    exact hI.waiting i id hpos (h.waiting i id hpos hwait)

theorem start (ledger : Ledger) : DepositInv (World.deployed ledger).docket where
  lockedOnce := nodup_nil
  settledOnce := nodup_nil
  amount _ _ _ h := by cases h
  held := by simp [World.docket, World.deployed]
  unsettled _ _ h := by cases h
  created _ h := by cases h
  isOpen := by simp [World.docket, World.deployed, Storage.deployed]
  waiting i id _ h := by
    obtain ⟨a, ha, -⟩ := h
    cases ha

/-- Room before a finalization is room at its settlement. -/
theorem room_of_exec {w : World} {d₁ : Docket} {status : ProposalStatus} {recipient : Address}
    (hroom : w.Room p recipient)
    (hexec : d₁ = w.docket.put (p.withStatus status) ∨
      w.store.config.governanceConfig.executionDelay = 0 ∧
        Executed (w.docket.put (p.withStatus status)) (p.withStatus status) d₁) :
    InRange (balanceOf d₁.token recipient + d₁.deposit) := by
  rcases hexec with rfl | ⟨hdelay, hexec⟩
  · exact hroom.1
  · obtain ⟨t, heffect, rfl⟩ := hexec.effect
    have := hroom.2 hdelay
    rw [← Effect.eq (show Effect w.store.token p.proposalType t from heffect)] at this
    exact this

/-- A vote keeps the proposer, and the proposal open. -/
theorem vote (hI : DepositInv d) (hw : d.WellFormed) (hp : d.proposals.lookup id = some p)
    (hopen : p.IsOpen) {v : Vote} {sum : Int} : DepositInv (d.put (p.addVote v sum)) := by
  refine hI.put hw hp (Proposal.addVote_id _ _ _) (.inr ⟨Proposal.addVote_proposer _ _ _, ?_⟩)
  rw [Proposal.IsOpen, Proposal.addVote_status]
  rcases hopen with h | h <;> simp [h]

theorem release_lookup : (d.release id).locked.lookup id = none := AList.lookup_erase _ _

/-- The proposal ends, and its deposit is paid. -/
theorem finalize {w : World} {status : ProposalStatus} {d₁ : Docket} (hI : DepositInv w.docket)
    (hw : w.docket.WellFormed) (hs : w.Settles (.finalizeProposal id))
    (hp : w.docket.proposals.lookup id = some p)
    (hexec : d₁ = w.docket.put (p.withStatus status) ∨
      w.store.config.governanceConfig.executionDelay = 0 ∧
        Executed (w.docket.put (p.withStatus status)) (p.withStatus status) d₁)
    (hsettle : Settled d₁ id (w.store.core.treasuryAddress.getD p.proposer) d') : DepositInv d' := by
  have hid : (p.withStatus status).id = id := hw.keyed id p hp
  have hlocked : d₁.locked = w.docket.locked := by
    rcases hexec with rfl | ⟨-, hexec⟩
    · rfl
    · obtain ⟨t, -, rfl⟩ := hexec.effect
      rfl
  cases hl : w.docket.locked.lookup id with
  | none =>
    have hput : DepositInv (w.docket.put (p.withStatus status)) := hI.put hw hp rfl (.inl hl)
    have hwput : (w.docket.put (p.withStatus status)).WellFormed := hw.put hp rfl
    have hd₁ : DepositInv d₁ := by
      rcases hexec with rfl | ⟨-, hexec⟩
      · exact hput
      · exact hput.executed hwput (AList.lookup_insert _) (by rw [hid]; exact hl) hexec
    cases hsettle with
    | none => exact hd₁
    | paid h => rw [hlocked, hl] at h; cases h
    | stuck => exact hd₁
  | some proposer =>
    obtain ⟨hheld, hroom, hroom'⟩ := hs p hp proposer hl
    obtain ⟨q, hq, hproposer, -⟩ := hI.isOpen id proposer hl
    rw [hp] at hq
    cases hq
    subst hproposer
    cases hsettle with
    | none h => rw [hlocked, hl] at h; cases h
    | stuck h hr hfull =>
      rw [hlocked, hl] at h
      cases h
      rcases hr with rfl | rfl
      · exact absurd (room_of_exec hroom hexec) hfull
      · exact absurd (room_of_exec hroom' hexec) hfull
    | paid =>
      -- the lock can be taken out first
      have hfree : DepositInv (w.docket.release id) := hI.release
      have hwfree : (w.docket.release id).WellFormed := hw.release
      have hnew : id ∉ creditedIds w.docket.log := hI.unsettled id (by rw [hl]; rfl)
      have hamount := hI.held id _ hheld
      have hput : DepositInv ((w.docket.release id).put (p.withStatus status)) :=
        hfree.put hwfree hp rfl (.inl release_lookup)
      have hwput : ((w.docket.release id).put (p.withStatus status)).WellFormed := hwfree.put hp rfl
      rcases hexec with rfl | ⟨-, hexec⟩
      · exact hput.credit release_lookup hnew hamount
      · obtain ⟨t, heffect, rfl⟩ := hexec.effect
        have hdone := hput.executed hwput (AList.lookup_insert _) (by rw [hid]; exact release_lookup)
          ⟨hexec.succeeded, hexec.live, t, heffect, rfl⟩
        obtain ⟨q, hq⟩ := hamount
        exact hdone.credit release_lookup hnew ⟨q, mem_cons_of_mem _ hq⟩

theorem withdraw {w : World} (hI : DepositInv w.docket) (hw : w.docket.WellFormed)
    (hs : w.Settles (.withdrawProposal id p.proposer)) (hp : w.docket.proposals.lookup id = some p)
    (h : Refunded (w.docket.put (p.withStatus .withdrawn)) id p.proposer d') : DepositInv d' := by
  cases h with
  | none hne =>
    refine hI.put hw hp rfl (.inl ?_)
    rw [Option.eq_none_iff_forall_ne_some]
    intro proposer hl
    obtain ⟨q, hq, hproposer, -⟩ := hI.isOpen id proposer hl
    rw [hp] at hq
    cases hq
    exact hne (hl.trans (by rw [hproposer]))
  | paid hl =>
    have hput : DepositInv ((w.docket.release id).put (p.withStatus .withdrawn)) :=
      hI.release.put hw.release hp rfl (.inl release_lookup)
    have hsome : (w.docket.locked.lookup id).isSome = true := Option.isSome_of_eq_some hl
    exact hput.credit release_lookup (hI.unsettled id hsome) (hI.held id _ (hs hl).1)
  | lost hl hfull => exact absurd (hs hl).2 hfull

theorem move {w : World} {auth : Auth} {c : Call} (hw : w.docket.WellFormed) (hI : DepositInv w.docket)
    (hs : Settling w (.call auth c)) (h : DocketMove w c d') : DepositInv d' := by
  cases h with
  | create hp _ h =>
    subst h hp
    refine hI.create ?_ rfl _
    exact hs
  | vote hp hv _ _ h => subst h; exact hI.vote hw hp (requireVotable_ok hv).1
  | reputationVote hp hv _ h => subst h; exact hI.vote hw hp (requireVotable_ok hv).1
  | finalize hp _ _ hexec hsettle => exact hI.finalize hw hs hp hexec hsettle
  | @execute id _ p _ hp h =>
    refine hI.executed hw hp (hI.unlocked hp ?_) h
    rw [Proposal.IsOpen, h.succeeded]
    simp
  | run h => exact hI.runsEach hw h
  | cancel hp _ h => subst h; exact hI.put hw hp rfl (.inl hs)
  | @cancelQueued actionId _ a p _ ha hexecuted hcancelled hp h =>
    subst h
    have hwait : w.docket.Waiting actionId a.proposalId :=
      ⟨a, Registry.mem_of_first ha, hexecuted, hcancelled, Registry.key_of_first ha, rfl⟩
    have hnone := (hI.waiting _ _ (hw.pos _ (hw.kept_of hp)) hwait).2
    have hrequeue : DepositInv (w.docket.requeue (Registry.updateFirst QueuedAction.id w.docket.queue
        actionId fun e => { e with cancelled := true })) :=
      hI.requeue fun i id => waiting_of_closed fun _ => .inr rfl
    exact hrequeue.put (hw.requeue _) hp rfl (.inl hnone)
  | withdraw hp _ h => exact hI.withdraw hw hs hp h
  | remove h => exact hI.removed h
  | restart hi h =>
    have hnone : ∀ i, w.docket.locked.lookup i = none := by
      intro i
      rw [AList.lookup, hs hi]
      rfl
    rw [h]
    exact { hI with isOpen := fun i proposer hl => absurd ((hnone i).symm.trans hl) (by simp) }
  | @queue id p a _ hp hstatus hnone ha h =>
    subst h ha
    refine { hI with waiting := fun i j hpos hwait => ?_ }
    obtain ⟨b, hb, hexecuted, hcancelled, hi, hj⟩ := hwait
    rcases List.mem_append.mp hb with hb | hb
    · exact hI.waiting i j hpos ⟨b, hb, hexecuted, hcancelled, hi, hj⟩
    · rw [List.mem_singleton.mp hb] at hj
      subst hj
      refine ⟨hw.kept_of hp, hI.unlocked hp ?_⟩
      rw [Proposal.IsOpen, hstatus]
      simp
  | other _ h => exact hI.quiet h

end DepositInv

/-! ## Runs -/

section Credits

variable {d d' : Docket} {p : Proposal} {id i : Nat} {recipient : Address} {amount : Int}

theorem credit_of_executed (h : Executed d p d')
    (hc : .depositCredited i recipient amount ∈ d'.log) :
    .depositCredited i recipient amount ∈ d.log := by
  obtain ⟨t, -, rfl⟩ := h.effect
  simpa [Docket.put, Docket.apply] using hc

theorem credit_of_runsEach {ids : List Nat} (h : RunsEach ids d d')
    (hc : .depositCredited i recipient amount ∈ d'.log) :
    .depositCredited i recipient amount ∈ d.log := by
  induction h with
  | nil => exact hc
  | skip _ ih => exact ih hc
  | run hrun _ ih =>
    have := ih hc
    rw [hrun.eq] at this
    simpa [Docket.put, Docket.requeue, Docket.apply] using this

/-- The payment that a settlement adds to the log. -/
theorem credit_of_settled {treasury : Address} (h : Settled d id treasury d')
    (hc : .depositCredited i recipient amount ∈ d'.log) :
    .depositCredited i recipient amount ∈ d.log ∨
      i = id ∧ amount = d.deposit ∧ ∃ proposer, d.locked.lookup id = some proposer ∧
        (recipient = proposer ∨ recipient = treasury) := by
  cases h with
  | none => exact .inl hc
  | stuck => exact .inl hc
  | paid hl hr =>
    rcases List.mem_cons.mp hc with heq | hc
    · cases heq
      exact .inr ⟨rfl, rfl, _, hl, hr⟩
    · exact .inl hc

theorem credit_of_refunded {proposer : Address} (h : Refunded d id proposer d')
    (hc : .depositCredited i recipient amount ∈ d'.log) :
    .depositCredited i recipient amount ∈ d.log ∨
      i = id ∧ amount = d.deposit ∧ d.locked.lookup id = some proposer ∧ recipient = proposer := by
  cases h with
  | none => exact .inl hc
  | lost => exact .inl hc
  | paid hl =>
    rcases List.mem_cons.mp hc with heq | hc
    · cases heq
      exact .inr ⟨rfl, rfl, hl, rfl⟩
    · exact .inl hc

/-- A payment is of a locked deposit, in the amount that is held, to its proposer or to the treasury. -/
theorem paysOut_of_move {w : World} {auth : Auth} {c : Call} (hI : DepositInv w.docket)
    (hs : Settling w (.call auth c)) (h : DocketMove w c d')
    (hc : .depositCredited i recipient amount ∈ d'.log)
    (hnew : .depositCredited i recipient amount ∉ w.log) :
    ∃ proposer, w.store.lockedDeposit.lookup i = some proposer ∧ w.held.lookup i = some amount ∧
      (recipient = proposer ∨ recipient = w.store.core.treasuryAddress.getD proposer) := by
  cases h with
  | create _ _ h =>
    subst h
    rcases List.mem_cons.mp hc with heq | hc
    · cases heq
    · exact absurd hc hnew
  | vote _ _ _ _ h => subst h; exact absurd hc hnew
  | reputationVote _ _ _ h => subst h; exact absurd hc hnew
  | @finalize id p status d₁ _ hp _ _ hexec hsettle =>
    have hlog : .depositCredited i recipient amount ∉ d₁.log := by
      rcases hexec with rfl | ⟨-, hexec⟩
      · exact hnew
      · exact fun hm => hnew (credit_of_executed hexec hm)
    have hsame : d₁.locked = w.docket.locked ∧ d₁.deposit = w.docket.deposit := by
      rcases hexec with rfl | ⟨-, hexec⟩
      · exact ⟨rfl, rfl⟩
      · obtain ⟨t, -, rfl⟩ := hexec.effect
        exact ⟨rfl, rfl⟩
    rcases credit_of_settled hsettle hc with hc | ⟨rfl, rfl, proposer, hl, hr⟩
    · exact absurd hc hlog
    · rw [hsame.1] at hl
      obtain ⟨q, hq, hproposer, -⟩ := hI.isOpen i proposer hl
      rw [hp] at hq
      cases hq
      rw [hproposer] at hr
      rw [hsame.2]
      exact ⟨proposer, hl, (hs p hp proposer hl).1, hr⟩
  | execute _ h => exact absurd (credit_of_executed h hc) hnew
  | run h => exact absurd (credit_of_runsEach h hc) hnew
  | cancel _ _ h => subst h; exact absurd hc hnew
  | cancelQueued _ _ _ _ h => subst h; exact absurd hc hnew
  | withdraw _ _ h =>
    rcases credit_of_refunded h hc with hc | ⟨rfl, rfl, hl, rfl⟩
    · exact absurd hc hnew
    · exact ⟨_, hl, (hs hl).1, .inl rfl⟩
  | remove h => rw [h.eq] at hc; exact absurd hc hnew
  | restart _ h => rw [h] at hc; exact absurd hc hnew
  | queue _ _ _ _ h => subst h; exact absurd hc hnew
  | other _ h => rw [h.log] at hc; exact absurd hc hnew

end Credits

theorem DepositInv.inOrder {w : World} (hI : DepositInv w.docket) : DepositsInOrder w where
  lockedOnce := hI.lockedOnce
  settledOnce := hI.settledOnce
  amount := hI.amount
  ended id proposer h := by
    obtain ⟨p, hp, -, hopen⟩ := hI.isOpen id proposer h
    refine ⟨p, hp, ?_⟩
    rw [effectiveStatus_of_open hopen]
    rcases hopen with h | h <;> rw [h] <;> rfl

/-- In every run in which new proposals have new identifiers, proposals with a deposit are not cancelled,
settlements find the configured amount to be the one that was locked and room for it, and the contract is
not initialized again while a deposit is locked: the deposits are in order, and every payment is of a
locked deposit. -/
theorem deposits_of_settling {ledger : Ledger} {w : World}
    (h : Reaches (fun w ev w' => Settling w ev ∧ Step w ev w') (World.deployed ledger) w) :
    DepositsInOrder w ∧ ∀ ev, Allowed w ev → Settling w ev → PaysOut w ev := by
  obtain ⟨hw, hI⟩ := docket_invariant h (DepositInv.start ledger)
    (fun _ _ _ _ hw hI hC hm => hI.move hw hC hm) fun _ _ hI hq => hI.quiet hq
  refine ⟨hI.inOrder, fun ev ha hs i r a hc hnew => ?_⟩
  rcases docket_step hw ⟨ha, rfl⟩ with ⟨auth, c, rfl, hm⟩ | hq
  · exact paysOut_of_move hI hs hm hc hnew
  · have hlog : (next w ev).log = w.log := hq.log
    rw [hlog] at hc
    exact absurd hc hnew

namespace Sample

/-- A proposal is withdrawn, and one is voted on and finalized. -/
def settledRun : List Event :=
  [callBy admin initializeCall, callBy community (.stake community 20000),
    callBy community (propose community signal), callBy community (.withdrawProposal 1 community),
    callBy community (propose community signal), atTime 100,
    callBy community (.castVote 2 community .inFavor), atTime 700000, call (.finalizeProposal 2)]

/-- Each deposit is settled once, in full. -/
theorem withdrawn_and_finalized_settled : DepositsInOrder (deployedRun settledRun) :=
  (deposits_of_settling (reaches_run (by decide +kernel))).1

/-- The administrator cancels a proposal that has a deposit. -/
def cancelledRun : List Event :=
  [callBy admin initializeCall, callBy community (.stake community 20000),
    callBy community (propose community signal), callBy admin (.cancelProposal 1 admin)]

/-- The deposit of a cancelled proposal is never settled. -/
theorem cancelled_deposit_stays : ¬ DepositsInOrder (deployedRun cancelledRun) := by
  intro h
  obtain ⟨p, hp, hnot⟩ := h.ended 1 community (by decide +kernel)
  have hover : ((deployedRun cancelledRun).store.proposal.state.proposals.lookup 1).map
      (fun p => (Proposals.effectiveStatus (deployedRun cancelledRun).ledger.timestamp p).terminal) =
      some true := by decide +kernel
  rw [hp, Option.map_some, hnot] at hover
  cases hover

end Sample

end CallStake.Governance
