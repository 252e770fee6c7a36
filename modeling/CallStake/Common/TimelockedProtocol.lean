import CallStake.Common.TimelockedMultisig

/-!
# Safety of the timelocked approvals

Runs of `propose`, `approve`, `cancel`, `prepare_execution` and `set_timelock_config` in any order, with any
signers and threshold at each call, at ledger times that never decrease.

* `approversOf`, `Reached`: who approved a proposal, and that an approval met the threshold of its call.
* `Waited`: an execution comes after the delay, as it was configured when the threshold was first met.
* `Workflow`: what holds in every state of a run. `workflow_of_reachable`: it does, with the times added up in 64
  bits; `Sample.delay_is_cut_short`: with exact sums it does not.
-/

namespace CallStake.TimelockedMultisig

open Store List

/-- An approval is entered with the signers and the threshold of its call; that of the proposer is the
first one. -/
inductive Entry where
  | configured (config : MultisigTimelockConfig)
  | approved (id : Nat) (signer : Address) (signers : List Address) (threshold : Nat)
      (action : CriticalActionType) (time : Nat)
  | noted (id : Nat) (signer : Address)
  | cancelled (id : Nat)
  | executed (id time : Nat)
  deriving DecidableEq

abbrev State := Journal MultisigStorage Entry

def State.init (now : Nat) : State := ⟨.empty, now, []⟩

/-- The operations, and the passing of time. -/
inductive Op where
  | advance (now : Nat)
  | configure (config : MultisigTimelockConfig)
  | propose (auth : Auth) (proposer : Address) (signers : List Address) (threshold : Nat)
      (action : CriticalActionType) (payload : Bytes)
  | approve (auth : Auth) (caller : Address) (signers : List Address) (threshold id : Nat)
  | cancel (auth : Auth) (caller : Address) (signers : List Address) (id : Nat)
  | execute (auth : Auth) (executor : Address) (signers : List Address) (id : Nat)

/-- An approval of a proposal that is approved already is not one of its approvals. -/
def State.approval (s : State) (caller : Address) (signers : List Address) (threshold id : Nat) : Entry :=
  match s.store.proposals.lookup id with
  | some p => if p.status = .approved then .noted id caller
    else .approved id caller signers threshold p.actionType s.now
  | none => .noted id caller

def step (s : State) : Op → State
  | .advance now => s.advance now
  | .configure config => s.commit (setTimelockConfig config) fun _ => .configured config
  | .propose auth proposer signers threshold action payload =>
    s.commit (propose auth s.now proposer signers threshold action payload) fun id =>
      .approved id proposer signers threshold action s.now
  | .approve auth caller signers threshold id =>
    s.commit (approve auth s.now caller signers threshold id) fun _ => s.approval caller signers threshold id
  | .cancel auth caller signers id => s.commit (cancel auth caller signers id) fun _ => .cancelled id
  | .execute auth executor signers id =>
    s.commit (prepareExecution auth s.now executor signers id) fun _ => .executed id s.now

/-- Time does not go back, and is a 64-bit number. -/
def Allowed (s : State) : Op → Prop
  | .advance now => s.now ≤ now ∧ now ≤ u64Max
  | _ => True

instance (s : State) : (op : Op) → Decidable (Allowed s op)
  | .advance _ => inferInstanceAs (Decidable (_ ∧ _))
  | .configure _ => inferInstanceAs (Decidable True)
  | .propose .. => inferInstanceAs (Decidable True)
  | .approve .. => inferInstanceAs (Decidable True)
  | .cancel .. => inferInstanceAs (Decidable True)
  | .execute .. => inferInstanceAs (Decidable True)

/-- The step relation of the runs. -/
def Step (s : State) (op : Op) (s' : State) : Prop := Allowed s op ∧ s' = step s op

/-- A state of some run. -/
def Reachable (s : State) : Prop := ∃ now, now ≤ u64Max ∧ Reaches Step (State.init now) s

/-! ## Journals -/

/-- The configuration in force after a journal. -/
def inForce : List Entry → MultisigTimelockConfig
  | [] => .defaultConfig
  | .configured config :: _ => config
  | _ :: log => inForce log

def Entry.approver? (id : Nat) : Entry → Option Address
  | .approved id' signer .. => if id' = id then some signer else none
  | _ => none

/-- Who approved `id`, the last one first. -/
def approversOf (id : Nat) (log : List Entry) : List Address := log.filterMap (Entry.approver? id)

/-- An approval of `id` met the threshold of its call. -/
def Reached (id : Nat) : List Entry → Prop
  | [] => False
  | .approved id' _ _ threshold _ _ :: log =>
    (id' = id ∧ threshold ≤ (approversOf id log).length + 1) ∨ Reached id log
  | _ :: log => Reached id log

def Entry.executes (id : Nat) : Entry → Bool
  | .executed id' _ => id' = id
  | _ => false

/-- The threshold was first met by one of the approvals of `id`, which are by distinct addresses, and the
delay then in force had passed at `time`. -/
def Waited (add : Nat → Nat → Nat) (log : List Entry) (id time : Nat) : Prop :=
  ∃ mid before signer signers threshold action since,
    log = mid ++ .approved id signer signers threshold action since :: before ∧
    threshold ≤ (signer :: approversOf id before).length ∧ (signer :: approversOf id before).Nodup ∧
    ¬ Reached id before ∧ add since ((inForce before).delayFor action) ≤ time

def ApprovalProposal.isActive (p : ApprovalProposal) : Bool := p.status = .pending ∨ p.status = .approved

/-- How many proposals are pending or approved. -/
def activeProposals (s : MultisigStorage) : Int := Store.total (fun p => if p.isActive then 1 else 0) s.proposals

/-- What holds in every state of a run, when times are added up by `add`. -/
structure Workflow (add : Nat → Nat → Nat) (s : State) : Prop where
  once : ∀ id, s.log.countP (Entry.executes id) ≤ 1
  signers : ∀ id signer signers threshold action time,
    .approved id signer signers threshold action time ∈ s.log → signer ∈ signers
  executed : ∀ later earlier id time, s.log = later ++ .executed id time :: earlier →
    .cancelled id ∉ earlier ∧ Waited add earlier id time
  count : (s.store.activeProposalCount : Int) = activeProposals s.store
  bounded : s.store.activeProposalCount ≤ MAX_ACTIVE_PROPOSALS

/-! ## What the journal says about a proposal -/

/-- The proposal that an entry is about. -/
def Entry.subject : Entry → Option Nat
  | .configured _ => none
  | .approved id .. => some id
  | .noted .. => none
  | .cancelled id => some id
  | .executed id _ => some id

/-- The stored proposal `p` under `id`, if there is one, is what the journal says. -/
structure Tracks (log : List Entry) (id : Nat) (p : Option ApprovalProposal) : Prop where
  approvers : approversOf id log = (p.elim [] (·.approvals)).reverse
  nodup : (approversOf id log).Nodup
  executions : log.countP (Entry.executes id) = if p.any (·.status = .executed) then 1 else 0
  cancelled : .cancelled id ∈ log → p.any (·.status = .cancelled)
  reached : Reached id log → p.any (·.status ≠ .pending)
  waited : ∀ q ∈ p, q.status = .approved → Waited u64Add log id q.executableAt

section Journals

variable {log : List Entry} {e : Entry} {id : Nat}

theorem Waited.cons {add : Nat → Nat → Nat} {time : Nat} (h : Waited add log id time) (e : Entry) :
    Waited add (e :: log) id time := by
  obtain ⟨mid, before, signer, signers, threshold, action, since, rfl, h⟩ := h
  exact ⟨e :: mid, before, signer, signers, threshold, action, since, rfl, h⟩

theorem Waited.mono {add : Nat → Nat → Nat} {time time' : Nat} (h : Waited add log id time)
    (ht : time ≤ time') : Waited add log id time' := by
  obtain ⟨mid, before, signer, signers, threshold, action, since, hlog, h1, h2, h3, hle⟩ := h
  exact ⟨mid, before, signer, signers, threshold, action, since, hlog, h1, h2, h3, Nat.le_trans hle ht⟩

theorem approversOf_other (h : e.subject ≠ some id) : approversOf id (e :: log) = approversOf id log := by
  refine filterMap_cons_none ?_
  cases e with
  | approved => exact if_neg fun he => h (congrArg some he)
  | _ => rfl

theorem reached_other (h : e.subject ≠ some id) : Reached id (e :: log) ↔ Reached id log := by
  cases e with
  | approved =>
    exact or_iff_right fun hr => h (congrArg some hr.1)
  | _ => exact Iff.rfl

theorem executes_other (h : e.subject ≠ some id) : e.executes id = false := by
  cases e with
  | executed => exact decide_eq_false fun he => h (congrArg some he)
  | _ => rfl

/-- An entry about something else says nothing new about `id`. -/
theorem Tracks.other {p : Option ApprovalProposal} (h : Tracks log id p) (he : e.subject ≠ some id) :
    Tracks (e :: log) id p where
  approvers := (approversOf_other he).trans h.approvers
  nodup := by rw [approversOf_other he]; exact h.nodup
  executions := by
    rw [countP_cons_of_neg (by rw [executes_other he]; exact Bool.false_ne_true)]
    exact h.executions
  cancelled hc := by
    rcases List.mem_cons.mp hc with rfl | hc
    · exact absurd rfl he
    · exact h.cancelled hc
  reached hr := h.reached ((reached_other he).mp hr)
  waited q hq hs := (h.waited q hq hs).cons e

/-- What the journal says about a proposal that is open for approvals, or not there yet. -/
structure Open (log : List Entry) (id : Nat) (approvals : List Address) : Prop where
  approvers : approversOf id log = approvals.reverse
  nodup : approvals.Nodup
  executions : log.countP (Entry.executes id) = 0
  cancelled : .cancelled id ∉ log
  reached : ¬ Reached id log

theorem Tracks.open_of_none (h : Tracks log id none) : Open log id [] where
  approvers := h.approvers
  nodup := .nil
  executions := h.executions
  cancelled hc := Bool.false_ne_true (h.cancelled hc)
  reached hr := Bool.false_ne_true (h.reached hr)

theorem Tracks.open_of_pending {p : ApprovalProposal} (h : Tracks log id (some p)) (hs : p.status = .pending) :
    Open log id p.approvals where
  approvers := h.approvers
  nodup := List.nodup_reverse.mp (h.approvers ▸ h.nodup)
  executions := by simpa [hs] using h.executions
  cancelled hc := by simpa [hs] using h.cancelled hc
  reached hr := by simpa [hs] using h.reached hr

/-- An open proposal gets one more approval. -/
theorem Open.approve {approvals : List Address} {caller : Address} {signers : List Address}
    {threshold now : Nat} {action : CriticalActionType} {p : ApprovalProposal} (h : Open log id approvals)
    (hnew : caller ∉ approvals) (hp : p.approvals = approvals ++ [caller]) (hs : p.status = .pending) :
    Tracks (.approved id caller signers threshold action now :: log) id
      (some (p.settle threshold now ((inForce log).delayFor action))) := by
  have happrovers : approversOf id (.approved id caller signers threshold action now :: log) =
      caller :: approversOf id log := filterMap_cons_some (if_pos rfl)
  have hlength : (approversOf id log).length + 1 = p.approvals.length := by
    rw [h.approvers, length_reverse, hp, length_append, length_singleton]
  have hnodup : (caller :: approversOf id log).Nodup := by
    rw [h.approvers]
    exact List.nodup_cons.mpr ⟨fun hm => hnew (List.mem_reverse.mp hm), List.nodup_reverse.mpr h.nodup⟩
  have hlog : ∀ q : ApprovalProposal, q.approvals = p.approvals → q.status ≠ .executed →
      (q.status = .pending → ¬ threshold ≤ p.approvals.length) →
      (q.status = .approved → threshold ≤ p.approvals.length ∧
        u64Add now ((inForce log).delayFor action) = q.executableAt) →
      Tracks (.approved id caller signers threshold action now :: log) id (some q) := by
    intro q hqa hqe hqp hqw
    refine ⟨?_, happrovers ▸ hnodup, ?_, fun hc => ?_, fun hr => ?_, fun q' hq' hs' => ?_⟩
    · rw [happrovers, h.approvers, Option.elim_some, hqa, hp, reverse_append]
      rfl
    · rw [countP_cons_of_neg (by simp [Entry.executes]), h.executions]
      simp [hqe]
    · exact absurd ((List.mem_cons.mp hc).resolve_left (by simp)) h.cancelled
    · have hmet := hr.resolve_right h.reached
      refine decide_eq_true fun hpending => hqp hpending ?_
      rw [← hlength]
      exact hmet.2
    · cases hq'
      obtain ⟨hmet, hat⟩ := hqw hs'
      refine ⟨[], log, caller, signers, threshold, action, now, rfl, ?_, hnodup, h.reached, Nat.le_of_eq hat⟩
      rw [length_cons, hlength]
      exact hmet
  unfold ApprovalProposal.settle
  split
  · rename_i hmet
    exact hlog _ rfl (by simp) (by simp) fun _ => ⟨hmet, rfl⟩
  · rename_i hnot
    exact hlog p rfl (by simp [hs]) (fun _ => hnot) (by simp [hs])

theorem Tracks.cancel {p : ApprovalProposal} (h : Tracks log id (some p)) (hs : p.status ≠ .executed) :
    Tracks (.cancelled id :: log) id (some { p with status := .cancelled }) where
  approvers := h.approvers
  nodup := h.nodup
  executions := by
    rw [countP_cons_of_neg (by simp [Entry.executes]), h.executions]
    simp [hs]
  cancelled _ := by simp
  reached _ := by simp
  waited q hq hq' := by cases hq; cases hq'

theorem Tracks.execute {p : ApprovalProposal} {now : Nat} (h : Tracks log id (some p))
    (hs : p.status = .approved) :
    Tracks (.executed id now :: log) id (some { p with status := .executed }) where
  approvers := h.approvers
  nodup := h.nodup
  executions := by
    rw [countP_cons_of_pos (by simp [Entry.executes]), h.executions]
    simp [hs]
  cancelled hc := by
    have := h.cancelled ((List.mem_cons.mp hc).resolve_left (by simp))
    simp [hs] at this
  reached _ := by simp
  waited q hq hq' := by cases hq; cases hq'

end Journals

/-! ## The invariant -/

structure Inv (s : State) : Prop where
  ids : ∀ id p, s.store.proposals.lookup id = some p → p.id = id
  fresh : ∀ id, s.store.nextProposalId ≤ id → s.store.proposals.lookup id = none
  tracks : ∀ id, Tracks s.log id (s.store.proposals.lookup id)
  config : inForce s.log = s.store.timelockConfig
  workflow : Workflow u64Add s

section Steps

variable {s : State}

theorem Inv.init (now : Nat) : Inv (State.init now) where
  ids _ _ h := by simp [State.init, MultisigStorage.empty] at h
  fresh _ _ := rfl
  tracks _ := ⟨rfl, .nil, rfl, (nomatch ·), (nomatch ·), fun _ h => by cases h⟩
  config := rfl
  workflow :=
    { once := fun _ => Nat.zero_le _
      signers := fun _ _ _ _ _ _ h => by cases h
      executed := fun later _ _ _ h => by cases later <;> cases h
      count := rfl
      bounded := Nat.zero_le _ }

theorem Inv.advance (h : Inv s) (now : Nat) : Inv (s.advance now) :=
  ⟨h.ids, h.fresh, h.tracks, h.config, ⟨h.workflow.once, h.workflow.signers, h.workflow.executed,
    h.workflow.count, h.workflow.bounded⟩⟩

/-- The executions of a longer journal are the new one and those of the shorter one. -/
theorem executed_cons {e : Entry} {log : List Entry} {P : List Entry → Nat → Nat → Prop}
    (hnew : ∀ id time, e = .executed id time → P log id time)
    (hold : ∀ later earlier id time, log = later ++ .executed id time :: earlier → P earlier id time)
    {later earlier : List Entry} {id time : Nat} (heq : e :: log = later ++ .executed id time :: earlier) :
    P earlier id time := by
  cases later with
  | nil =>
    obtain ⟨he, rfl⟩ := List.cons.inj heq
    exact hnew id time he
  | cons e' later => exact hold later earlier id time (List.cons.inj heq).2

/-- An entry that is about no proposal, with the configuration that is then in force. -/
theorem Inv.entered (h : Inv s) {e : Entry} {config : MultisigTimelockConfig} (he : e.subject = none)
    (hconfig : inForce (e :: s.log) = config) :
    Inv { s with store := { s.store with timelockConfig := config }, log := e :: s.log } where
  ids := h.ids
  fresh := h.fresh
  tracks id := (h.tracks id).other (by rw [he]; exact (Option.some_ne_none id).symm)
  config := hconfig
  workflow := by
    refine ⟨fun id => ?_, fun id signer signers threshold action time hm => ?_,
      fun later earlier id time heq => ?_, h.workflow.count, h.workflow.bounded⟩
    · rw [countP_cons_of_neg]
      · exact h.workflow.once id
      · rw [executes_other (by rw [he]; exact (Option.some_ne_none id).symm)]
        exact Bool.false_ne_true
    · rcases List.mem_cons.mp hm with rfl | hm
      · cases he
      · exact h.workflow.signers id signer signers threshold action time hm
    · refine executed_cons (fun id time hex => ?_) h.workflow.executed heq
      rw [hex] at he
      cases he

/-- A proposal is written, and entered with `e`. -/
theorem Inv.wrote (h : Inv s) {e : Entry} {id next active : Nat} {p : ApprovalProposal} (hp : p.id = id)
    (he : e.subject = some id) (hid : id < next) (hnext : s.store.nextProposalId ≤ next)
    (ht : Tracks (e :: s.log) id (some p))
    (hsigner : ∀ signer signers threshold action time,
      e = .approved id signer signers threshold action time → signer ∈ signers)
    (hexecuted : ∀ time, e = .executed id time → .cancelled id ∉ s.log ∧ Waited u64Add s.log id time)
    (hactive : (active : Int) = s.store.activeProposalCount -
      Store.part (fun p => if p.isActive then 1 else 0) s.store.proposals id + (if p.isActive then 1 else 0))
    (hbounded : active ≤ MAX_ACTIVE_PROPOSALS) :
    Inv { s with
      store := { s.store with
        nextProposalId := next
        activeProposalCount := active
        proposals := s.store.proposals.insert id p }
      log := e :: s.log } where
  ids id' p' h' := by
    rw [lookup_insert_eq] at h'
    split at h'
    · rename_i heq
      cases h'
      exact hp.trans heq.symm
    · exact h.ids id' p' h'
  fresh id' hle := by
    simp only at hle
    rw [lookup_insert_eq, if_neg (by omega)]
    exact h.fresh id' (Nat.le_trans hnext hle)
  tracks id' := by
    rw [lookup_insert_eq]
    by_cases heq : id' = id
    · subst heq
      rw [if_pos rfl]
      exact ht
    · rw [if_neg heq]
      exact (h.tracks id').other (by rw [he]; exact fun hs => heq (Option.some.inj hs).symm)
  config := by
    rw [← h.config]
    cases e with
    | configured => cases he
    | _ => rfl
  workflow := by
    refine ⟨fun id' => ?_, fun id' signer signers threshold action time hm => ?_,
      fun later earlier id' time heq => ?_, ?_, hbounded⟩
    · by_cases heq : id' = id
      · subst heq
        rw [ht.executions]
        split <;> omega
      · rw [countP_cons_of_neg]
        · exact h.workflow.once id'
        · rw [executes_other (by rw [he]; exact fun hs => heq (Option.some.inj hs).symm)]
          exact Bool.false_ne_true
    · rcases List.mem_cons.mp hm with heq | hm
      · rw [← heq] at he
        cases he
        exact hsigner signer signers threshold action time heq.symm
      · exact h.workflow.signers id' signer signers threshold action time hm
    · refine executed_cons (fun id' time hex => ?_) h.workflow.executed heq
      rw [hex] at he
      cases he
      exact hexecuted time hex
    · have hcount := h.workflow.count
      simp only [activeProposals] at hcount ⊢
      rw [hactive, total_insert, hcount]

theorem settle_isActive {p : ApprovalProposal} (hs : p.status = .pending) (threshold now delay : Nat) :
    (p.settle threshold now delay).isActive = true := by
  unfold ApprovalProposal.settle
  split <;> simp [ApprovalProposal.isActive, hs]

/-- An open proposal is one of those that are counted. -/
theorem Inv.pos (h : Inv s) {id : Nat} {p : ApprovalProposal} (hp : s.store.proposals.lookup id = some p)
    (ha : p.isActive = true) : 0 < s.store.activeProposalCount := by
  have hle : Store.part (fun p : ApprovalProposal => if p.isActive then 1 else 0) s.store.proposals id ≤
      activeProposals s.store := by
    refine part_le_total (fun _ q _ => ?_) id
    show (0 : Int) ≤ if q.isActive then 1 else 0
    split <;> decide
  rw [part_some hp, if_pos ha, ← h.workflow.count] at hle
  omega

/-- An open proposal is closed. -/
theorem Inv.closed (h : Inv s) {e : Entry} {id : Nat} {p p' : ApprovalProposal}
    (hp : s.store.proposals.lookup id = some p) (ha : p.isActive = true) (hp' : p'.id = p.id)
    (ha' : p'.isActive = false) (he : e.subject = some id) (ht : Tracks (e :: s.log) id (some p'))
    (hexecuted : ∀ time, e = .executed id time → .cancelled id ∉ s.log ∧ Waited u64Add s.log id time)
    (hsigner : ∀ signer signers threshold action time, e ≠ .approved id signer signers threshold action time) :
    Inv { s with
      store := { s.store with
        activeProposalCount := s.store.activeProposalCount - 1
        proposals := s.store.proposals.insert p.id p' }
      log := e :: s.log } := by
  have hid : p.id = id := h.ids id p hp
  have hlt : id < s.store.nextProposalId := by
    by_contra hle
    rw [h.fresh id (Nat.not_lt.mp hle)] at hp
    cases hp
  have hpos := h.pos hp ha
  have hb := h.workflow.bounded
  rw [hid]
  refine h.wrote (hp'.trans hid) he hlt (Nat.le_refl _) ht
    (fun signer signers threshold action time heq => absurd heq (hsigner signer signers threshold action time))
    hexecuted ?_ (by omega)
  rw [part_some hp, ha, ha']
  simp
  omega

theorem Inv.step (h : Inv s) (op : Op) : Inv (step s op) := by
  cases op with
  | advance now => exact h.advance now
  | configure => exact h.entered rfl rfl
  | propose _ proposer =>
    -- a new identifier has no entries yet, and its proposer has approved
    refine Journal.commit_rule h fun id st hx => ?_
    obtain ⟨hsigner, hfew, rfl, rfl⟩ := propose_ok hx
    have hnone := h.fresh _ (Nat.le_refl s.store.nextProposalId)
    have hopen := (hnone ▸ h.tracks s.store.nextProposalId).open_of_none
    refine h.wrote ?_ ?_ (Nat.lt_succ_self _) (Nat.le_succ _) ?_ ?_ ?_ ?_ hfew
    · exact settle_id ..
    · rfl
    · rw [← h.config]
      exact hopen.approve not_mem_nil rfl rfl
    · intro _ _ _ _ _ heq
      cases heq
      exact hsigner
    · intro _ heq
      cases heq
    · rw [part_none hnone, settle_isActive rfl, if_pos rfl]
      omega
  | approve _ caller signers threshold id =>
    refine Journal.commit_rule h fun status st hx => ?_
    obtain ⟨hsigner, p, hp, ⟨hs, rfl⟩ | ⟨hs, hnew, rfl⟩⟩ := approve_ok hx
    · have he : s.approval caller signers threshold id = .noted id caller := by
        simp [State.approval, hp, hs]
      rw [he]
      exact h.entered rfl h.config
    · have he : s.approval caller signers threshold id =
          .approved id caller signers threshold p.actionType s.now := by
        simp [State.approval, hp, hs]
      have hid : p.id = id := h.ids id p hp
      have hlt : id < s.store.nextProposalId := by
        by_contra hle
        rw [h.fresh id (Nat.not_lt.mp hle)] at hp
        cases hp
      have hopen := (hp ▸ h.tracks id).open_of_pending hs
      rw [he, hid]
      refine h.wrote ?_ ?_ hlt (Nat.le_refl _) ?_ ?_ ?_ ?_ h.workflow.bounded
      · exact settle_id ..
      · rfl
      · rw [← h.config]
        exact hopen.approve hnew rfl hs
      · intro _ _ _ _ _ heq
        cases heq
        exact hsigner
      · intro _ heq
        cases heq
      · rw [part_some hp, settle_isActive, if_pos rfl]
        · simp [ApprovalProposal.isActive, hs]
        · exact hs
  | cancel _ _ _ id =>
    refine Journal.commit_rule h fun u st hx => ?_
    obtain ⟨p, hp, hexecuted, hcancelled, rfl⟩ := cancel_ok hx
    have ht := (hp ▸ h.tracks id).cancel hexecuted
    have ha : p.isActive = true := by
      cases hs : p.status <;> simp_all [ApprovalProposal.isActive]
    exact h.closed hp ha rfl rfl rfl ht (fun _ heq => by cases heq) (fun _ _ _ _ _ heq => by cases heq)
  | execute _ _ _ id =>
    -- the delay is over since the threshold was met, and no entry cancels the proposal
    refine Journal.commit_rule h fun proposal st hx => ?_
    obtain ⟨p, hp, hs, htime, rfl⟩ := prepareExecution_ok hx
    have htracks := hp ▸ h.tracks id
    have ha : p.isActive = true := by simp [ApprovalProposal.isActive, hs]
    refine h.closed hp ha rfl rfl rfl (htracks.execute hs) (fun time heq => ?_)
      (fun _ _ _ _ _ heq => by cases heq)
    cases heq
    refine ⟨fun hc => ?_, (htracks.waited p rfl hs).mono htime⟩
    have := htracks.cancelled hc
    simp [hs] at this

end Steps

/-- In every run, a proposal is executed at most once, not after it was cancelled, and not before the delay
that was in force when its distinct approvers first met the threshold of a call, added up in 64 bits; each
approver was a signer of its call; and the counter of open proposals is exact and at most the maximum. -/
theorem workflow_of_reachable {s : State} (h : Reachable s) : Workflow u64Add s := by
  obtain ⟨now, -, hreach⟩ := h
  have hinv : Inv s := by
    refine hreach.invariant (Inv.init now) fun a op b ha ⟨_, hb⟩ => ?_
    rw [hb]
    exact ha.step op
  exact hinv.workflow

namespace Sample

def signers : List Address := [⟨1⟩, ⟨2⟩, ⟨3⟩]

/-- Two of three signers raise a fee, which waits for its three days; a second proposal is cancelled. -/
def feeChange : List Op :=
  [.propose (fun _ => true) ⟨1⟩ signers 2 .feeChange [7], .advance 100,
    .approve (fun _ => true) ⟨2⟩ signers 2 1, .propose (fun _ => true) ⟨3⟩ signers 2 .pause [8],
    .cancel (fun _ => true) ⟨1⟩ signers 2, .advance 259300, .execute (fun _ => true) ⟨3⟩ signers 1]

/-- The fee is changed three days after the second approval. -/
theorem fee_change_waits_three_days :
    (feeChange.foldl step (State.init 0)).log.head? = some (.executed 1 259300) ∧
      Workflow u64Add (feeChange.foldl step (State.init 0)) := by
  have hrun : Reaches.Along step Allowed (State.init 0) feeChange := by decide
  exact ⟨by decide, workflow_of_reachable ⟨0, by decide, Reaches.of_along hrun⟩⟩

/-- The longest delay there is, started at second 1000. -/
def longestDelay : List Op :=
  [.configure { MultisigTimelockConfig.defaultConfig with feeChangeDelay := u64Max },
    .propose (fun _ => true) ⟨1⟩ signers 1 .feeChange [7], .advance u64Max,
    .execute (fun _ => true) ⟨1⟩ signers 1]

/-- It ends with the last second there is, and not as late as it should. -/
theorem delay_is_cut_short : ¬ ∀ s, Reachable s → Workflow (· + ·) s := by
  intro h
  have hrun : Reaches.Along step Allowed (State.init 1000) longestDelay := by decide
  have hw := h _ ⟨1000, by decide, Reaches.of_along hrun⟩
  have hlog : (longestDelay.foldl step (State.init 1000)).log =
      [] ++ .executed 1 u64Max ::
        [.approved 1 ⟨1⟩ signers 1 .feeChange 1000,
          .configured { MultisigTimelockConfig.defaultConfig with feeChangeDelay := u64Max }] := by decide
  obtain ⟨mid, before, signer, signers', threshold, action, since, heq, -, -, -, hle⟩ := (hw.executed _ _ _ _ hlog).2
  -- the only approval is that of the proposer
  cases mid with
  | nil =>
    obtain ⟨he, rfl⟩ := List.cons.inj heq
    cases he
    simp [inForce, MultisigTimelockConfig.delayFor, u64Max] at hle
  | cons e mid =>
    obtain ⟨-, heq⟩ := List.cons.inj heq
    cases mid with
    | nil => cases (List.cons.inj heq).1
    | cons e' mid => cases mid <;> cases (List.cons.inj heq).2

end Sample

end CallStake.TimelockedMultisig
