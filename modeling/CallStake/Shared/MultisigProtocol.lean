import CallStake.Shared.Multisig

/-!
# Safety of the approval protocol

Runs of `set_config`, `propose`, `approve` and execution (`require_can_execute` followed by
`mark_executed`) in any order, at ledger times that never decrease, with the configuration replaced
or removed at any point. A run keeps its history, newest entry first.

* `ApprovedAsSigner`: an approval by an address that the configuration then in force listed.
* `executed_once_in_time_with_approvals`: a proposal is executed at most once, in time, and with at
  least as many approvals by distinct addresses as the threshold in force asks for, each given by a
  signer of the configuration in force when it was given.
* `approvals_of_former_signers_count`: these signers may all have been replaced by then.
-/

namespace CallStake.Multisig

open Store

/-- What the journal notes of an accepted operation. -/
inductive Entry where
  | configured (config : Option MultisigConfig)
  | approved (id : Nat) (signer : Address) (now : Nat)
  | executed (id : Nat) (now : Nat)
  deriving DecidableEq

/-- The storage, the time, and what was accepted. -/
structure State where
  storage : MultisigStorage
  now : Nat
  history : List Entry

def State.init (now : Nat) : State := ⟨.empty, now, []⟩

/-- The operations, and the passing of time. -/
inductive Op where
  | advance (secs : Nat)
  | setConfig (config : MultisigConfig)
  | clearConfig
  | propose (proposer : Address) (payload : Bytes)
  | approve (caller : Address) (id : Nat)
  | execute (id : Nat)

/-- The two halves of an execution. The privileged action between them does not touch the storage
of the module. -/
def execute (now id : Nat) : M Unit := do
  let p ← getProposal id
  requireCanExecute now p
  markExecuted id

/-- An accepted operation is written to the history, a rejected one leaves no trace. -/
def State.commit {α : Type} (s : State) (x : M α) (entry : α → Entry) : State :=
  match x s.storage with
  | (.ok a, st) => { s with storage := st, history := entry a :: s.history }
  | (.error _, _) => s

def step (s : State) : Op → State
  | .advance secs => { s with now := s.now + secs }
  | .setConfig config => s.commit (setConfig config) fun _ => .configured (some config)
  | .clearConfig => s.commit clearConfig fun _ => .configured none
  | .propose a payload => s.commit (propose s.now a payload) fun id => .approved id a s.now
  | .approve a id => s.commit (approve s.now a id) fun _ => .approved id a s.now
  | .execute id => s.commit (execute s.now id) fun _ => .executed id s.now

/-- The states of a run that starts at time `now`. -/
def Reachable (now : Nat) (s : State) : Prop := Reaches (fun a op b => b = step a op) (State.init now) s

/-! ## Histories -/

/-- The configuration in force after a history. -/
def inForce : List Entry → Option MultisigConfig
  | [] => none
  | .configured config :: _ => config
  | .approved .. :: h => inForce h
  | .executed .. :: h => inForce h

/-- `a` approved `id` when the configuration in force listed it as a signer. -/
def ApprovedAsSigner (h : List Entry) (id : Nat) (a : Address) : Prop :=
  ∃ later earlier t config, h = later ++ .approved id a t :: earlier ∧
    inForce earlier = some config ∧ a ∈ config.signers

def Entry.executes (id : Nat) : Entry → Bool
  | .executed id' _ => id' = id
  | _ => false

/-- How often `id` was executed. -/
def executions (id : Nat) (h : List Entry) : Nat := h.countP (Entry.executes id)

/-- At its execution a proposal had enough approvals by distinct addresses. -/
def EnoughApprovals (earlier : List Entry) (id : Nat) : Prop :=
  ∃ config, inForce earlier = some config ∧ ∃ approvers : List Address, approvers.Nodup ∧
    config.threshold ≤ approvers.length ∧ ∀ a ∈ approvers, ApprovedAsSigner earlier id a

theorem ApprovedAsSigner.cons {h : List Entry} {id : Nat} {a : Address} (e : Entry)
    (ha : ApprovedAsSigner h id a) : ApprovedAsSigner (e :: h) id a := by
  obtain ⟨later, earlier, t, config, rfl, hc, hm⟩ := ha
  exact ⟨e :: later, earlier, t, config, rfl, hc, hm⟩

theorem ApprovedAsSigner.new {h : List Entry} {id t : Nat} {a : Address} {config : MultisigConfig}
    (hc : inForce h = some config) (ha : a ∈ config.signers) :
    ApprovedAsSigner (.approved id a t :: h) id a :=
  ⟨[], h, t, config, rfl, hc, ha⟩

theorem executions_cons (id : Nat) (e : Entry) (h : List Entry) :
    executions id (e :: h) = executions id h + if e.executes id then 1 else 0 := by
  simp [executions, List.countP_cons]

/-- The executions of a longer history are the new one and those of the shorter one. -/
theorem splits_cons {e : Entry} {h : List Entry} {P : List Entry → Nat → Prop}
    (hnew : ∀ id t, e = .executed id t → P h id)
    (hold : ∀ later earlier id t, h = later ++ .executed id t :: earlier → P earlier id)
    {later earlier : List Entry} {id t : Nat}
    (heq : e :: h = later ++ .executed id t :: earlier) : P earlier id := by
  cases later with
  | nil =>
    obtain ⟨he, rfl⟩ := List.cons.inj heq
    exact hnew id t he
  | cons e' later =>
    obtain ⟨-, hh⟩ := List.cons.inj heq
    exact hold later earlier id t hh

/-! ## The invariant -/

/-- What the storage knows about the history of the run that led to it. -/
structure Inv (s : State) : Prop where
  config : inForce s.history = s.storage.config
  ids : ∀ id p, s.storage.proposals.lookup id = some p → id < s.storage.nextId.getD 1
  approvals : ∀ id p, s.storage.proposals.lookup id = some p →
    p.approvals.Nodup ∧ ∀ a ∈ p.approvals, ApprovedAsSigner s.history id a
  pending : ∀ id p, s.storage.proposals.lookup id = some p → p.status = .pending → executions id s.history = 0
  once : ∀ id, executions id s.history ≤ 1
  inTime : ∀ id t, .executed id t ∈ s.history → ∃ p, s.storage.proposals.lookup id = some p ∧ t ≤ p.expiresAt
  enough : ∀ later earlier id t, s.history = later ++ .executed id t :: earlier → EnoughApprovals earlier id

theorem Inv.init (now : Nat) : Inv (State.init now) where
  config := rfl
  ids _ _ h := by simp [State.init, MultisigStorage.empty] at h
  approvals _ _ h := by simp [State.init, MultisigStorage.empty] at h
  pending _ _ h := by simp [State.init, MultisigStorage.empty] at h
  once _ := Nat.zero_le 1
  inTime _ _ h := by simp [State.init] at h
  enough later _ _ _ h := by simp [State.init] at h

theorem Inv.advance {s : State} (h : Inv s) (now : Nat) : Inv { s with now } :=
  ⟨h.config, h.ids, h.approvals, h.pending, h.once, h.inTime, h.enough⟩

/-- A new configuration leaves the proposals, and what is known about them, as they are. -/
theorem Inv.configured {s : State} (h : Inv s) (config : Option MultisigConfig) :
    Inv { s with
      storage := { s.storage with config }
      history := .configured config :: s.history } where
  config := rfl
  ids := h.ids
  approvals id p hp := by
    obtain ⟨hn, ha⟩ := h.approvals id p hp
    exact ⟨hn, fun a hm => (ha a hm).cons _⟩
  pending id p hp hs := by
    rw [executions_cons, h.pending id p hp hs]; rfl
  once id := by
    rw [executions_cons]; exact h.once id
  inTime id t ht := h.inTime id t (by simpa using ht)
  enough _ _ _ _ heq := splits_cons (by simp) h.enough heq

/-- A pending proposal is stored with one more approval, by a signer of the configuration in force.
Its expiry is the one it had, if it was stored before. -/
theorem Inv.approved {s : State} (h : Inv s) {config : MultisigConfig} {id : Nat} {p : Proposal}
    {nextId : Option Nat} {a : Address} (hc : s.storage.config = some config)
    (ha : a ∈ config.signers) (hid : id < nextId.getD 1)
    (hnext : s.storage.nextId.getD 1 ≤ nextId.getD 1) (hnodup : p.approvals.Nodup)
    (hold : ∀ b ∈ p.approvals, b = a ∨ ApprovedAsSigner s.history id b)
    (hnone : executions id s.history = 0) :
    Inv { s with
      storage := { s.storage with nextId, proposals := s.storage.proposals.insert id p }
      history := .approved id a s.now :: s.history } where
  config := h.config
  ids id' p' hp := by
    simp only [lookup_insert_eq] at hp
    split at hp
    · rename_i he; subst he; exact hid
    · exact Nat.lt_of_lt_of_le (h.ids id' p' hp) hnext
  approvals id' p' hp := by
    simp only [lookup_insert_eq] at hp
    split at hp
    · rename_i he
      subst he
      cases hp
      refine ⟨hnodup, fun b hb => ?_⟩
      rcases hold b hb with rfl | hb
      · exact .new (h.config.trans hc) ha
      · exact hb.cons _
    · obtain ⟨hn, hap⟩ := h.approvals id' p' hp
      exact ⟨hn, fun b hb => (hap b hb).cons _⟩
  pending id' p' hp hs := by
    simp only [lookup_insert_eq] at hp
    rw [executions_cons]
    split at hp
    · rename_i he; subst he; exact hnone
    · exact h.pending id' p' hp hs
  once id' := by
    rw [executions_cons]; exact h.once id'
  inTime id' t ht := by
    obtain ⟨p', hp, hle⟩ := h.inTime id' t (by simpa using ht)
    refine ⟨p', ?_, hle⟩
    -- an executed proposal is not the one that is written now
    have hne : id' ≠ id := by
      rintro rfl
      have hpos : 0 < executions id' s.history :=
        List.countP_pos_iff.mpr ⟨_, by simpa using ht, by simp [Entry.executes]⟩
      omega
    simp only [lookup_insert_eq, if_neg hne]
    exact hp
  enough _ _ _ _ heq := splits_cons (by simp) h.enough heq

/-- A pending proposal with enough approvals is executed in time. -/
theorem Inv.executed {s : State} (h : Inv s) {config : MultisigConfig} {id : Nat} {p : Proposal}
    (hc : s.storage.config = some config) (hp : s.storage.proposals.lookup id = some p)
    (hstatus : p.status = .pending) (hthr : config.threshold ≤ p.approvals.length)
    (htime : s.now ≤ p.expiresAt) :
    Inv { s with
      storage := { s.storage with
        proposals := s.storage.proposals.insert id { p with status := .executed } }
      history := .executed id s.now :: s.history } where
  config := h.config
  ids id' p' hp' := by
    simp only [lookup_insert_eq] at hp'
    split at hp'
    · rename_i he; subst he; exact h.ids id' p hp
    · exact h.ids id' p' hp'
  approvals id' p' hp' := by
    simp only [lookup_insert_eq] at hp'
    split at hp'
    · rename_i he
      subst he
      cases hp'
      obtain ⟨hn, ha⟩ := h.approvals id' p hp
      exact ⟨hn, fun a hm => (ha a hm).cons _⟩
    · obtain ⟨hn, ha⟩ := h.approvals id' p' hp'
      exact ⟨hn, fun a hm => (ha a hm).cons _⟩
  pending id' p' hp' hs' := by
    simp only [lookup_insert_eq] at hp'
    split at hp'
    · cases hp'; cases hs'
    · rename_i hne
      rw [executions_cons, h.pending id' p' hp' hs']
      simp [Entry.executes, Ne.symm hne]
  once id' := by
    rw [executions_cons]
    by_cases he : id = id'
    · subst he
      rw [h.pending id p hp hstatus]
      split <;> omega
    · simpa [Entry.executes, he] using h.once id'
  inTime id' t ht := by
    simp only [lookup_insert_eq]
    rcases List.mem_cons.mp ht with he | ht
    · cases he
      exact ⟨{ p with status := .executed }, by simp, htime⟩
    · obtain ⟨p', hp', hle⟩ := h.inTime id' t ht
      by_cases he : id' = id
      · subst he
        rw [hp] at hp'
        cases hp'
        exact ⟨{ p with status := .executed }, by simp, hle⟩
      · exact ⟨p', by simp [he, hp'], hle⟩
  enough _ _ _ _ heq := by
    -- the entry has the approvals behind it, each by a signer of its time
    refine splits_cons ?_ h.enough heq
    intro id' t he
    cases he
    obtain ⟨hn, ha⟩ := h.approvals id p hp
    exact ⟨config, h.config.trans hc, p.approvals, hn, hthr, ha⟩

/-! ## Steps and runs -/

theorem execute_ok {s s' : MultisigStorage} {now id : Nat} {u : Unit} :
    execute now id s = (.ok u, s') ↔ ∃ p, s.proposals.lookup id = some p ∧
      ∃ config, s.config = some config ∧ p.status = .pending ∧
        config.threshold ≤ p.approvals.length ∧ now ≤ p.expiresAt ∧
        { s with proposals := s.proposals.insert id { p with status := .executed } } = s' := by
  unfold execute
  simp only [Tx.bind_ok, getProposal_ok, requireCanExecute_ok, markExecuted_ok]
  constructor
  · rintro ⟨p, _, ⟨hp, rfl⟩, _, _, ⟨config, hc, hs, ht, hn, rfl⟩, p', hp', -, rfl⟩
    rw [hp] at hp'
    cases hp'
    exact ⟨p, hp, config, hc, hs, ht, hn, rfl⟩
  · rintro ⟨p, hp, config, hc, hs, ht, hn, rfl⟩
    exact ⟨p, s, ⟨hp, rfl⟩, (), s, ⟨config, hc, hs, ht, hn, rfl⟩, p, hp, hs, rfl⟩

/-- A committed operation returned, or nothing happened. -/
theorem State.commit_cases {α : Type} (s : State) (x : M α) (entry : α → Entry) :
    s.commit x entry = s ∨ ∃ a st, x s.storage = (.ok a, st) ∧
      s.commit x entry = { s with storage := st, history := entry a :: s.history } := by
  unfold State.commit
  split
  · rename_i a st he; exact .inr ⟨a, st, he, rfl⟩
  · exact .inl rfl

theorem Inv.step {s : State} (h : Inv s) (op : Op) : Inv (step s op) := by
  cases op with
  | advance secs => exact h.advance (s.now + secs)
  | setConfig config =>
    obtain he | ⟨u, st, hx, he⟩ := s.commit_cases (setConfig config) fun _ => .configured (some config)
    · rw [Multisig.step, he]; exact h
    · obtain ⟨-, rfl⟩ := setConfig_ok.mp hx
      rw [Multisig.step, he]
      exact h.configured (some config)
  | clearConfig => exact h.configured none
  | propose a payload =>
    obtain he | ⟨id, st, hx, he⟩ := s.commit_cases (propose s.now a payload) fun id => .approved id a s.now
    · rw [Multisig.step, he]; exact h
    · obtain ⟨config, hc, ha, -, rfl, rfl⟩ := propose_ok.mp hx
      rw [Multisig.step, he]
      refine h.approved hc ha (by simp) (by simp) (by simp) (by simp) ?_
      -- the id is fresh, so no execution of it can have happened
      refine List.countP_eq_zero.mpr fun e hm => ?_
      cases e with
      | configured => simp [Entry.executes]
      | approved => simp [Entry.executes]
      | executed id' t =>
        obtain ⟨p, hp, -⟩ := h.inTime id' t hm
        have := h.ids id' p hp
        simp [Entry.executes]
        omega
  | approve a id =>
    obtain he | ⟨n, st, hx, he⟩ := s.commit_cases (approve s.now a id) fun _ => .approved id a s.now
    · rw [Multisig.step, he]; exact h
    · obtain ⟨config, hc, ha, p, hp, hs, -, hna, -, rfl⟩ := approve_ok.mp hx
      rw [Multisig.step, he]
      obtain ⟨hn, hap⟩ := h.approvals id p hp
      refine h.approved hc ha (h.ids id p hp) (Nat.le_refl _) ?_ ?_ (h.pending id p hp hs)
      · exact List.Nodup.append hn (List.nodup_singleton a) (by simpa using hna)
      · intro b hb
        rcases List.mem_append.mp hb with hb | hb
        · exact .inr (hap b hb)
        · exact .inl (List.mem_singleton.mp hb)
  | execute id =>
    obtain he | ⟨u, st, hx, he⟩ := s.commit_cases (execute s.now id) fun _ => .executed id s.now
    · rw [Multisig.step, he]; exact h
    · obtain ⟨p, hp, config, hc, hs, ht, hn, rfl⟩ := execute_ok.mp hx
      rw [Multisig.step, he]
      exact h.executed hc hp hs ht hn

theorem Reachable.inv {now : Nat} {s : State} (h : Reachable now s) : Inv s := by
  refine Reaches.invariant h (Inv.init now) fun a op b ha hb => ?_
  rw [hb]
  exact ha.step op

/-- In every run, a proposal is executed at most once, never after its expiry, and with at least
as many distinct approvers as the threshold then in force asks for, each of them a signer of the
configuration in force when it approved. -/
theorem executed_once_in_time_with_approvals {now : Nat} {s : State} (h : Reachable now s) :
    (∀ id, executions id s.history ≤ 1) ∧
    (∀ id t, .executed id t ∈ s.history → ∃ p, s.storage.proposals.lookup id = some p ∧ t ≤ p.expiresAt) ∧
    ∀ later earlier id t, s.history = later ++ .executed id t :: earlier → EnoughApprovals earlier id :=
  ⟨h.inv.once, h.inv.inTime, h.inv.enough⟩

/-- Two signers approve, are replaced by two others, and the proposal still runs. -/
def replacedSigners : List Op :=
  [.setConfig ⟨[⟨1⟩, ⟨2⟩], 2, 0⟩, .propose ⟨1⟩ [0], .approve ⟨2⟩ 1, .setConfig ⟨[⟨3⟩, ⟨4⟩], 2, 0⟩, .execute 1]

theorem replacedSigners_history : (replacedSigners.foldl step (State.init 0)).history =
    [.executed 1 0, .configured (some ⟨[⟨3⟩, ⟨4⟩], 2, 0⟩), .approved 1 ⟨2⟩ 0, .approved 1 ⟨1⟩ 0,
      .configured (some ⟨[⟨1⟩, ⟨2⟩], 2, 0⟩)] := by
  decide

/-- The accepted approvals need not come from signers of the configuration in force at the
execution. -/
theorem approvals_of_former_signers_count :
    ¬ ∀ (now : Nat) (s : State), Reachable now s →
      ∀ later earlier id t, s.history = later ++ .executed id t :: earlier →
        ∃ config, inForce earlier = some config ∧ ∃ approvers : List Address, approvers.Nodup ∧
          config.threshold ≤ approvers.length ∧ ∀ a ∈ approvers, a ∈ config.signers ∧
            ∃ t', .approved id a t' ∈ earlier := by
  intro h
  obtain ⟨config, hc, approvers, -, hthr, ha⟩ :=
    h 0 _ (Reaches.foldl step _ replacedSigners) [] _ 1 0 replacedSigners_history
  simp [inForce] at hc
  subst hc
  cases approvers with
  | nil => simp at hthr
  | cons a l =>
    obtain ⟨hm, t', ht⟩ := ha a (by simp)
    simp at hm ht
    rcases hm with rfl | rfl <;> simp at ht

/-- The run of `replacedSigners` reaches a state with an execution in its history. -/
theorem executed_once_in_time_with_approvals_run :
    EnoughApprovals [.configured (some ⟨[⟨3⟩, ⟨4⟩], 2, 0⟩), .approved 1 ⟨2⟩ 0, .approved 1 ⟨1⟩ 0,
      .configured (some ⟨[⟨1⟩, ⟨2⟩], 2, 0⟩)] 1 :=
  (executed_once_in_time_with_approvals (Reaches.foldl step (State.init 0) replacedSigners)).2.2
    [] _ 1 0 replacedSigners_history

end CallStake.Multisig
