import CallStake.Governance.Footprint

/-!
# The docket

What the life of a proposal is about: the stored proposals, the powers that were kept for their votes,
the deposits, the queue of the timelock, and what was applied, locked and paid so far. A docket forgets
the rest of the contract.

* `Docket`, `World.docket`: the docket of the contract.
* `Executed`, `RunsEach`, `Settled`, `Refunded`, `Removed`: what the parts of a call do.
* `DocketMove`: what a call does to the docket; one constructor for each way in which a proposal is
  created, counted, decided, applied, ended or removed.
* `Docket.WellFormed`: what every move keeps.
-/

namespace CallStake.Governance

open Store

/-- All that proposals and deposits depend on. -/
structure Docket where
  now : Nat
  proposals : Store Nat Proposal
  nextId : Nat
  snapshots : Store Nat (Store Address Int)
  locked : Store Nat Address
  held : Store Nat Int
  log : List LogEntry
  token : TokenStorage
  /-- The amount that a new deposit has. -/
  deposit : Int
  queue : List QueuedAction

/-- The docket of the contract. -/
def World.docket (w : World) : Docket where
  now := w.ledger.timestamp
  proposals := w.store.proposal.state.proposals
  nextId := w.store.proposal.state.nextProposalId
  snapshots := w.store.proposal.voteSnapshots
  locked := w.store.lockedDeposit
  held := w.held
  log := w.log
  token := w.store.token
  deposit := w.store.config.depositConfig.amount
  queue := (w.store.timelock.timelock.map (·.queuedActions)).getD []

/-- `p` with another status. -/
def Proposal.withStatus (p : Proposal) (status : ProposalStatus) : Proposal := { p with status }

namespace Docket

/-! ## Writes -/

variable (d : Docket)

/-- A proposal is replaced. -/
def put (p : Proposal) : Docket := { d with proposals := d.proposals.insert p.id p }

/-- A proposal is added with the powers that were kept for it. -/
def add (p : Proposal) (snapshots : Store Address Int) : Docket :=
  { d with
    proposals := d.proposals.insert p.id p
    snapshots := d.snapshots.insert p.id snapshots
    nextId := u64Add p.id 1 }

/-- A deposit of the present amount is taken from `proposer`. -/
def lock (id : Nat) (proposer : Address) : Docket :=
  { d with
    token := d.token.setBalance proposer (balanceOf d.token proposer - d.deposit)
    locked := d.locked.insert id proposer
    held := d.held.insert id d.deposit
    log := .depositLocked id proposer d.deposit :: d.log }

/-- The present amount is paid to `recipient` as the deposit of `id`. -/
def credit (id : Nat) (recipient : Address) : Docket :=
  { d with
    token := d.token.setBalance recipient (balanceOf d.token recipient + d.deposit)
    log := .depositCredited id recipient d.deposit :: d.log }

def release (id : Nat) : Docket := { d with locked := d.locked.erase id, held := d.held.erase id }

/-- The action of `p` is applied and leaves the token as `token`. -/
def apply (p : Proposal) (token : TokenStorage) : Docket :=
  { d with token, log := .applied p.id p.status p.executionDeadline d.now :: d.log }

def requeue (queue : List QueuedAction) : Docket := { d with queue }

/-- An open entry `actionId` of the queue is about the proposal `id`. -/
def Waiting (actionId id : Nat) : Prop :=
  ∃ a ∈ d.queue, a.executed = false ∧ a.cancelled = false ∧ a.id = actionId ∧ a.proposalId = id

end Docket

/-! ## Parts of calls -/

/-- What the action of a proposal does to the governance token. -/
def Effect (t : TokenStorage) : ProposalType → TokenStorage → Prop
  | .treasurySpend recipient amount _ _, t' =>
    0 < amount ∧ InRange (balanceOf t recipient + amount) ∧
      t' = t.setBalance recipient (balanceOf t recipient + amount)
  | _, t' => t' = t

/-- `p`, which succeeded and is not past its deadline, is executed. -/
structure Executed (d : Docket) (p : Proposal) (d' : Docket) : Prop where
  succeeded : p.status = .succeeded
  live : d.now ≤ p.executionDeadline
  effect : ∃ t, Effect d.token p.proposalType t ∧ d' = (d.apply p t).put (p.markExecuted d.now)

/-- An entry of the queue is run, whatever became of its proposal. -/
structure RunsEntry (d : Docket) (actionId : Nat) (a : QueuedAction) (p : Proposal) (t : TokenStorage)
    (d' : Docket) : Prop where
  found : Registry.first QueuedAction.id d.queue actionId = some a
  executed : a.executed = false
  cancelled : a.cancelled = false
  stored : d.proposals.lookup a.proposalId = some p
  effect : Effect d.token p.proposalType t
  eq : d' = ((d.apply p t).requeue (Registry.updateFirst QueuedAction.id d.queue actionId
    fun e => { e with executed := true })).put (p.markExecuted d.now)

/-- Entries are run one after another; one that cannot be run is skipped. -/
inductive RunsEach : List Nat → Docket → Docket → Prop where
  | nil (d : Docket) : RunsEach [] d d
  | run {actionId : Nat} {ids : List Nat} {d d₁ d' : Docket} {a : QueuedAction} {p : Proposal}
      {t : TokenStorage} (h : RunsEntry d actionId a p t d₁) (hs : RunsEach ids d₁ d') :
      RunsEach (actionId :: ids) d d'
  | skip {actionId : Nat} {ids : List Nat} {d d' : Docket} (hs : RunsEach ids d d') : RunsEach (actionId :: ids) d d'

/-- The settlement of a deposit: it is paid in the present amount, if there is room for it. -/
inductive Settled (d : Docket) (id : Nat) (treasury : Address) : Docket → Prop where
  | none (h : d.locked.lookup id = none) : Settled d id treasury d
  | paid {proposer recipient : Address} (h : d.locked.lookup id = some proposer)
      (hr : recipient = proposer ∨ recipient = treasury)
      (hroom : InRange (balanceOf d.token recipient + d.deposit)) :
      Settled d id treasury ((d.credit id recipient).release id)
  | stuck {proposer recipient : Address} (h : d.locked.lookup id = some proposer)
      (hr : recipient = proposer ∨ recipient = treasury)
      (hroom : ¬ InRange (balanceOf d.token recipient + d.deposit)) : Settled d id treasury d

/-- The refund of a withdrawal: the lock is removed also where there is no room for the amount. -/
inductive Refunded (d : Docket) (id : Nat) (proposer : Address) : Docket → Prop where
  | none (h : d.locked.lookup id ≠ some proposer) : Refunded d id proposer d
  | paid (h : d.locked.lookup id = some proposer)
      (hroom : InRange (balanceOf d.token proposer + d.deposit)) :
      Refunded d id proposer ((d.credit id proposer).release id)
  | lost (h : d.locked.lookup id = some proposer)
      (hroom : ¬ InRange (balanceOf d.token proposer + d.deposit)) :
      Refunded d id proposer (d.release id)

/-- Proposals are removed that nothing happens to any more. -/
structure Removed (d d' : Docket) : Prop where
  eq : d' = { d with proposals := d'.proposals }
  cases (id : Nat) : d'.proposals.lookup id = d.proposals.lookup id ∨
    d'.proposals.lookup id = none ∧ ∃ p, d.proposals.lookup id = some p ∧
      (Proposals.effectiveStatus d.now p).terminal = true

/-- The proposals, the deposits and the log are as they were, and nothing waits that did not, apart
from the actions of the administrator, which are about no proposal. -/
structure Quiet (d d' : Docket) : Prop where
  proposals : d'.proposals = d.proposals
  nextId : d'.nextId = d.nextId
  snapshots : d'.snapshots = d.snapshots
  locked : d'.locked = d.locked
  held : d'.held = d.held
  log : d'.log = d.log
  deposit : 0 < d.deposit → 0 < d'.deposit
  waiting (actionId id : Nat) : 0 < id → d'.Waiting actionId id → d.Waiting actionId id

/-- The entries of the queue that a call tries to run. -/
def Call.runs : Call → List Nat
  | .executeQueuedAction actionId _ | .emergencyExecute actionId _ |
    .emergencyUnblockAction actionId _ => [actionId]
  | .executeMultipleActions actionIds _ => actionIds
  | _ => []

def Call.creates : Call → Bool
  | .createProposal .. => true
  | _ => false

/-- No proposal was created under the next identifier. A second initialization counts from one again,
and the count stays at the largest identifier. -/
def Docket.FreshId (d : Docket) : Prop := (d.snapshots.lookup d.nextId).isSome = false

instance (d : Docket) : Decidable d.FreshId := inferInstanceAs (Decidable (_ = _))

/-- What a call that returned did to the docket. -/
inductive DocketMove (w : World) : Call → Docket → Prop where
  | create {proposer : Address} {proposalType : ProposalType}
      {title description executionPayload : Bytes} {category : ProposalCategory} {quadratic : Bool}
      {p : Proposal} {d' : Docket}
      (hp : p = Proposals.newProposal w.store w.ledger.timestamp proposer proposalType title
        description executionPayload category quadratic)
      (hbal : w.docket.deposit ≤ balanceOf w.store.token proposer)
      (h : d' = (w.docket.add p (Proposals.takeSnapshots w.store quadratic).1).lock p.id proposer) :
      DocketMove w (.createProposal proposer proposalType title description executionPayload category
        quadratic) d'
  | vote {id : Nat} {voter : Address} {voteType : VoteType} {p : Proposal} {power sum : Int}
      {d' : Docket} (hp : w.docket.proposals.lookup id = some p)
      (hv : requireVotable p voter w.ledger.timestamp = .ok ())
      (hpower : votePower p ((getVoteSnapshot w.store id voter).getD 0) = .ok power)
      (hsum : checkedAddR (p.tally voteType) power = .ok sum)
      (h : d' = w.docket.put (p.addVote ⟨voter, voteType, power, w.ledger.timestamp⟩ sum)) :
      DocketMove w (.castVote id voter voteType) d'
  | reputationVote {id : Nat} {voter : Address} {voteType : VoteType} {p : Proposal} {power : Int}
      {d' : Docket} (hp : w.docket.proposals.lookup id = some p)
      (hv : requireVotable p voter w.ledger.timestamp = .ok ())
      (hpower : reputationPower ((getVoteSnapshot w.store id voter).getD 0)
        (Reputation.getGovernanceReputation w.store w.ledger.timestamp voter).reputationScore =
        .ok power)
      (h : d' = w.docket.put (p.addVote ⟨voter, voteType, power, w.ledger.timestamp⟩
        (saturatingAdd (p.tally voteType) power))) :
      DocketMove w (.castReputationWeightedVote id voter voteType) d'
  | finalize {id : Nat} {p : Proposal} {status : ProposalStatus} {d₁ d' : Docket}
      (hp : w.docket.proposals.lookup id = some p) (hopen : p.status = .pending ∨ p.status = .active)
      (hstatus : status = .succeeded ∨ status = .failed)
      (hexec : d₁ = w.docket.put (p.withStatus status) ∨
        w.store.config.governanceConfig.executionDelay = 0 ∧
          Executed (w.docket.put (p.withStatus status)) (p.withStatus status) d₁)
      (hsettle : Settled d₁ id (w.store.core.treasuryAddress.getD p.proposer) d') :
      DocketMove w (.finalizeProposal id) d'
  | execute {id : Nat} {executor : Address} {p : Proposal} {d' : Docket}
      (hp : w.docket.proposals.lookup id = some p) (h : Executed w.docket p d') :
      DocketMove w (.executeProposal id executor) d'
  | run {c : Call} {d' : Docket} (h : RunsEach c.runs w.docket d') : DocketMove w c d'
  | cancel {id : Nat} {canceller : Address} {p : Proposal} {d' : Docket}
      (hp : w.docket.proposals.lookup id = some p) (hstatus : p.status ≠ .executed)
      (h : d' = w.docket.put (p.withStatus .cancelled)) :
      DocketMove w (.cancelProposal id canceller) d'
  | cancelQueued {actionId : Nat} {canceller : Address} {a : QueuedAction} {p : Proposal}
      {d' : Docket} (ha : Registry.first QueuedAction.id w.docket.queue actionId = some a)
      (hexecuted : a.executed = false) (hcancelled : a.cancelled = false)
      (hp : w.docket.proposals.lookup a.proposalId = some p)
      (h : d' = (w.docket.requeue (Registry.updateFirst QueuedAction.id w.docket.queue actionId
        fun e => { e with cancelled := true })).put (p.withStatus .cancelled)) :
      DocketMove w (.cancelQueuedAction actionId canceller) d'
  | withdraw {id : Nat} {p : Proposal} {d' : Docket} (hp : w.docket.proposals.lookup id = some p)
      (hstatus : p.status = .pending)
      (h : Refunded (w.docket.put (p.withStatus .withdrawn)) id p.proposer d') :
      DocketMove w (.withdrawProposal id p.proposer) d'
  | remove {c : Call} {d' : Docket} (h : Removed w.docket d') : DocketMove w c d'
  | restart {admin : Address} {name symbol : Bytes} {decimals : Nat} {totalSupply : Int}
      {recipients : DistributionRecipients} {d' : Docket} (hi : w.store.core.initialized = false)
      (h : d' = { w.docket with proposals := ∅, nextId := 1, token := d'.token }) :
      DocketMove w (.initializeGovernance admin name symbol decimals totalSupply recipients) d'
  | queue {id : Nat} {p : Proposal} {a : QueuedAction} {d' : Docket}
      (hp : w.docket.proposals.lookup id = some p) (hstatus : p.status = .succeeded)
      (hnone : ∀ actionId, ¬ w.docket.Waiting actionId id) (ha : a.proposalId = id)
      (h : d' = w.docket.requeue (w.docket.queue ++ [a])) : DocketMove w (.queueAction id) d'
  | other {c : Call} {d' : Docket} (hc : .log ∉ c.footprint) (h : Quiet w.docket d') : DocketMove w c d'

/-! ## What every move keeps -/

/-- An entry that was run or cancelled does not wait any more, and no other starts to. -/
theorem waiting_of_closed {d : Docket} {actionId i id : Nat} {f : QueuedAction → QueuedAction}
    (hf : ∀ a, (f a).executed = true ∨ (f a).cancelled = true)
    (h : (d.requeue (Registry.updateFirst QueuedAction.id d.queue actionId f)).Waiting i id) :
    d.Waiting i id := by
  obtain ⟨a, ha, hexecuted, hcancelled, hi, hid⟩ := h
  rcases Registry.mem_updateFirst ha with ha | ⟨b, -, rfl⟩
  · exact ⟨a, ha, hexecuted, hcancelled, hi, hid⟩
  · rcases hf b with hb | hb
    · rw [hb] at hexecuted; cases hexecuted
    · rw [hb] at hcancelled; cases hcancelled

/-- A proposal is stored under its own identifier, which is not zero and has the powers that were kept;
a deposit is held where one is locked, for a proposal that was created; and a deposit costs something. -/
structure Docket.WellFormed (d : Docket) : Prop where
  keyed (id : Nat) (p : Proposal) : d.proposals.lookup id = some p → p.id = id
  kept (id : Nat) : (d.proposals.lookup id).isSome → (d.snapshots.lookup id).isSome
  pos (id : Nat) : (d.snapshots.lookup id).isSome → 0 < id
  nextId : 0 < d.nextId
  held (id : Nat) : (d.held.lookup id).isSome = (d.locked.lookup id).isSome
  locked (id : Nat) : (d.locked.lookup id).isSome → (d.snapshots.lookup id).isSome
  deposit : 0 < d.deposit

namespace Docket.WellFormed

variable {d d' : Docket} {p p' : Proposal} {id : Nat}

theorem kept_of (hw : d.WellFormed) (hp : d.proposals.lookup id = some p) :
    (d.snapshots.lookup id).isSome := hw.kept id (by rw [hp]; rfl)

theorem put (hw : d.WellFormed) (hp : d.proposals.lookup id = some p) (hid : p'.id = p.id) :
    (d.put p').WellFormed where
  keyed i q hq := by
    rw [Docket.put, lookup_insert_eq] at hq
    split at hq
    · cases hq; exact Eq.symm ‹_›
    · exact hw.keyed i q hq
  kept i hi := by
    rw [Docket.put, lookup_insert_eq] at hi
    split at hi
    · subst ‹i = _›
      rw [hid, hw.keyed id p hp]
      exact hw.kept_of hp
    · exact hw.kept i hi
  pos := hw.pos
  nextId := hw.nextId
  held := hw.held
  locked := hw.locked
  deposit := hw.deposit

theorem apply (hw : d.WellFormed) (t : TokenStorage) : (d.apply p t).WellFormed :=
  ⟨hw.keyed, hw.kept, hw.pos, hw.nextId, hw.held, hw.locked, hw.deposit⟩

theorem requeue (hw : d.WellFormed) (queue : List QueuedAction) : (d.requeue queue).WellFormed :=
  ⟨hw.keyed, hw.kept, hw.pos, hw.nextId, hw.held, hw.locked, hw.deposit⟩

theorem credit (hw : d.WellFormed) (recipient : Address) : (d.credit id recipient).WellFormed :=
  ⟨hw.keyed, hw.kept, hw.pos, hw.nextId, hw.held, hw.locked, hw.deposit⟩

theorem release (hw : d.WellFormed) : (d.release id).WellFormed where
  keyed := hw.keyed
  kept := hw.kept
  pos := hw.pos
  nextId := hw.nextId
  held i := by
    simp only [Docket.release, lookup_erase_eq]
    split
    · rfl
    · exact hw.held i
  locked i hi := by
    simp only [Docket.release, lookup_erase_eq] at hi
    split at hi
    · cases hi
    · exact hw.locked i hi
  deposit := hw.deposit

theorem add (hw : d.WellFormed) (hid : p.id = d.nextId) (snapshots : Store Address Int) :
    (d.add p snapshots).WellFormed where
  keyed i q hq := by
    simp only [Docket.add, lookup_insert_eq] at hq
    split at hq
    · cases hq; exact Eq.symm ‹_›
    · exact hw.keyed i q hq
  kept i hi := by
    simp only [Docket.add, lookup_insert_eq] at hi ⊢
    split at hi
    · rw [if_pos ‹_›]; rfl
    · rw [if_neg ‹_›]; exact hw.kept i hi
  pos i hi := by
    simp only [Docket.add, lookup_insert_eq] at hi
    split at hi
    · rename_i h; rw [h, hid]; exact hw.nextId
    · exact hw.pos i hi
  nextId := by
    have := hw.nextId
    simp only [Docket.add, hid, u64Add, u64Max]
    omega
  held := hw.held
  locked i hi := by
    have := hw.locked i hi
    simp only [Docket.add, lookup_insert_eq]
    split
    · rfl
    · exact this
  deposit := hw.deposit

theorem lock (hw : d.WellFormed) (hid : (d.snapshots.lookup id).isSome) (proposer : Address) :
    (d.lock id proposer).WellFormed where
  keyed := hw.keyed
  kept := hw.kept
  pos := hw.pos
  nextId := hw.nextId
  held i := by
    simp only [Docket.lock, lookup_insert_eq]
    split
    · rfl
    · exact hw.held i
  locked i hi := by
    simp only [Docket.lock, lookup_insert_eq] at hi
    split at hi
    · subst ‹i = _›; exact hid
    · exact hw.locked i hi
  deposit := hw.deposit

theorem executed (hw : d.WellFormed) (hp : d.proposals.lookup id = some p) (h : Executed d p d') :
    d'.WellFormed := by
  obtain ⟨t, -, rfl⟩ := h.effect
  exact (hw.apply t).put hp rfl

theorem runsEntry (hw : d.WellFormed) {actionId : Nat} {a : QueuedAction} {t : TokenStorage}
    (h : RunsEntry d actionId a p t d') : d'.WellFormed := by
  rw [h.eq]
  exact ((hw.apply t).requeue _).put h.stored rfl

theorem runsEach (hw : d.WellFormed) {ids : List Nat} (h : RunsEach ids d d') : d'.WellFormed := by
  induction h with
  | nil => exact hw
  | run h _ ih => exact ih (hw.runsEntry h)
  | skip _ ih => exact ih hw

theorem settled (hw : d.WellFormed) {treasury : Address} (h : Settled d id treasury d') :
    d'.WellFormed := by
  cases h with
  | none => exact hw
  | paid => exact (hw.credit _).release
  | stuck => exact hw

theorem refunded (hw : d.WellFormed) {proposer : Address} (h : Refunded d id proposer d') :
    d'.WellFormed := by
  cases h with
  | none => exact hw
  | paid => exact (hw.credit _).release
  | lost => exact hw.release

theorem removed (hw : d.WellFormed) (h : Removed d d') : d'.WellFormed := by
  have hsub : ∀ i q, d'.proposals.lookup i = some q → d.proposals.lookup i = some q := by
    intro i q hq
    rcases h.cases i with heq | ⟨hnone, -⟩
    · exact heq ▸ hq
    · rw [hnone] at hq; cases hq
  rw [h.eq]
  exact
    { hw with
      keyed := fun i q hq => hw.keyed i q (hsub i q hq)
      kept := fun i hi => by
        obtain ⟨q, hq⟩ := Option.isSome_iff_exists.mp hi
        exact hw.kept_of (hsub i q hq) }

theorem quiet (hw : d.WellFormed) (h : Quiet d d') : d'.WellFormed where
  keyed := by rw [h.proposals]; exact hw.keyed
  kept := by rw [h.proposals, h.snapshots]; exact hw.kept
  pos := by rw [h.snapshots]; exact hw.pos
  nextId := by rw [h.nextId]; exact hw.nextId
  held := by rw [h.held, h.locked]; exact hw.held
  locked := by rw [h.locked, h.snapshots]; exact hw.locked
  deposit := h.deposit hw.deposit

/-- Every move keeps a docket well formed. -/
theorem move {w : World} {c : Call} (hw : w.docket.WellFormed) (h : DocketMove w c d') :
    d'.WellFormed := by
  cases h with
  | create hp _ h =>
    subst h hp
    exact (hw.add rfl _).lock (by simp [Docket.add]) _
  | vote hp _ _ _ h =>
    subst h
    exact hw.put hp (Proposal.addVote_id _ _ _)
  | reputationVote hp _ _ h =>
    subst h
    exact hw.put hp (Proposal.addVote_id _ _ _)
  | @finalize id p status d₁ _ hp _ _ hexec hsettle =>
    have hput : (w.docket.put (p.withStatus status)).WellFormed := hw.put hp rfl
    rcases hexec with rfl | ⟨-, hexec⟩
    · exact hput.settled hsettle
    · exact (hput.executed (AList.lookup_insert _) hexec).settled hsettle
  | execute hp h => exact hw.executed hp h
  | run h => exact hw.runsEach h
  | cancel hp _ h => subst h; exact hw.put hp rfl
  | cancelQueued _ _ _ hp h => subst h; exact (hw.requeue _).put hp rfl
  | @withdraw id p _ hp _ h =>
    have hput : (w.docket.put (p.withStatus .withdrawn)).WellFormed := hw.put hp rfl
    exact hput.refunded h
  | remove h => exact hw.removed h
  | restart _ h =>
    rw [h]
    exact { hw with keyed := by simp, kept := by simp, nextId := Nat.one_pos }
  | queue _ _ _ _ h => subst h; exact hw.requeue _
  | other _ h => exact hw.quiet h

end Docket.WellFormed

end CallStake.Governance
