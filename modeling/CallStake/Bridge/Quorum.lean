import CallStake.Bridge.Entrypoints

/-!
# Quorum safety of the transfers

A transfer should be completed at most once, only with the approvals of enough validators, and never after
it failed for good.

* `Completes`: the step completes the transfer. `Approved`: a validator approved it before.
* `QuorumSafe`: the property, of a history.
* `Sample.transfers_lack_quorum_safety`: the contract does not have it. A retry
  makes a transfer executable that validators never approved, and a late approval makes one executable that
  failed for good.
* `Orderly`: no retry below the quorum, and no approval that meets the quorum of a transfer that failed for
  good. `quorumSafe_of_orderly`: then every run has the property.
-/

namespace CallStake.Bridge

open List

/-! ## The property -/

def Completed (w : World) (id : Nat) : Prop :=
  ∃ t ∈ w.store.books.transfers.lookup id, t.status = .completed
  deriving Decidable

def PermanentlyFailed (w : World) (id : Nat) : Prop :=
  ∃ t ∈ w.store.books.transfers.lookup id, t.status = .failed ∧ t.retryable = false
  deriving Decidable

section Property

variable (host : Host)

/-- The event, taken in the world, completes the transfer. -/
def Completes (id : Nat) (e : World × Event) : Prop := ¬ Completed e.1 id ∧ Completed (next host e.1 e.2) id
  deriving Decidable

/-- An approval of the transfer by the validator was accepted. -/
def Approved (hist : List (World × Event)) (id : Nat) (validator : Address) : Prop :=
  ∃ e ∈ hist, ∃ auth kind signature, e.2 = .call auth (.approve kind validator id signature) ∧
    auth validator = true ∧ Accepted host e.1 e.2

/-- Enough members of the validator set approved the transfer. -/
def QuorumReached (hist : List (World × Event)) (w : World) (id : Nat) : Prop :=
  ∃ config, w.store.config = some config ∧ ∃ vs : List Address, vs.Nodup ∧
    config.security.requiredValidatorSignatures ≤ vs.length ∧
    ∀ v ∈ vs, v ∈ config.validatorSet.validators ∧ Approved host hist id v

/-- Every transfer is completed at most once, with a quorum of approvals before, and was at no time before
failed for good. -/
structure QuorumSafe (hist : List (World × Event)) : Prop where
  once : ∀ id, hist.countP (fun e => Completes host id e) ≤ 1
  quorum : ∀ id, Trace.Every
    (fun earlier w ev => Completes host id (w, ev) → QuorumReached host earlier w id) hist
  final : ∀ id, Trace.Every (fun earlier w ev => Completes host id (w, ev) →
    ¬ PermanentlyFailed w id ∧ ∀ e ∈ earlier, ¬ PermanentlyFailed e.1 id) hist

end Property

/-! ## The condition -/

/-- An approval that goes through and meets the quorum is not one of a transfer that failed for good. -/
def OrderlyApproval (w : World) (auth : Auth) (kind : TransferKind) (validator : Address) (id : Nat)
    (signature : Bytes) : Prop :=
  ∀ config ∈ w.store.config, ∀ t ∈ w.store.books.transfers.lookup id, auth validator = true →
    t.kind = kind → validator ∈ config.validatorSet.validators →
    validator ∉ t.approvals.map (·.validator) →
    w.store.books.usedSignatures.lookup (validator, id, kind, signature) = none →
    config.security.requiredValidatorSignatures ≤ t.approvals.length + 1 →
    ¬ (t.status = .failed ∧ t.retryable = false)
  deriving Decidable

/-- A retry that goes through is one of a transfer that has its approvals. -/
def OrderlyRetry (w : World) (auth : Auth) (admin : Address) (id : Nat) : Prop :=
  ∀ config ∈ w.store.config, ∀ t ∈ w.store.books.transfers.lookup id, auth admin = true →
    config.admin = admin → t.status = .failed → t.retryable = true →
    config.security.requiredValidatorSignatures ≤ t.approvals.length
  deriving Decidable

def Orderly (w : World) : Event → Prop
  | .call auth (.approveLockMint validator id signature) =>
    OrderlyApproval w auth .lockMint validator id signature
  | .call auth (.approveBurnUnlock validator id signature) =>
    OrderlyApproval w auth .burnUnlock validator id signature
  | .call auth (.retryTransfer admin id) => OrderlyRetry w auth admin id
  | _ => True

instance (w : World) (ev : Event) : Decidable (Orderly w ev) := by
  rcases ev with ⟨_, c⟩ | _
  · cases c with
    | approveLockMint | approveBurnUnlock => exact inferInstanceAs (Decidable (OrderlyApproval ..))
    | retryTransfer => exact inferInstanceAs (Decidable (OrderlyRetry ..))
    | _ => exact isTrue trivial
  · exact isTrue trivial

/-! ## The invariant -/

/-- The approvals of a transfer come from different members of the validator set, who gave them, and an
executable transfer has enough of them. -/
structure Backed (host : Host) (hist : List (World × Event)) (config : BridgeConfig) (id : Nat)
    (t : BridgeTransfer) : Prop where
  distinct : (t.approvals.map (·.validator)).Nodup
  members : ∀ v ∈ t.approvals.map (·.validator), v ∈ config.validatorSet.validators ∧ Approved host hist id v
  ready : t.status = .readyToExecute → config.security.requiredValidatorSignatures ≤ t.approvals.length

structure QuorumInv (host : Host) (hist : List (World × Event)) (w : World) : Prop where
  ordered : Ordered w
  backed : ∀ id t config, w.store.books.transfers.lookup id = some t → w.store.config = some config →
    Backed host hist config id t
  once : ∀ id, hist.countP (fun e => Completes host id e) ≤ if Completed w id then 1 else 0
  final : ∀ id, ∀ e ∈ hist, PermanentlyFailed e.1 id → PermanentlyFailed w id

section Steps

variable {host : Host} {hist : List (World × Event)} {w w' : World} {ev : Event} {id : Nat}

theorem Approved.cons {v : Address} (h : Approved host hist id v) (e : World × Event) :
    Approved host (e :: hist) id v := by
  obtain ⟨e', he', hc⟩ := h
  exact ⟨e', mem_cons_of_mem e he', hc⟩

theorem Backed.cons {config : BridgeConfig} {t : BridgeTransfer} (h : Backed host hist config id t)
    (e : World × Event) : Backed host (e :: hist) config id t where
  distinct := h.distinct
  members v hv := ⟨(h.members v hv).1, (h.members v hv).2.cons e⟩
  ready := h.ready

/-- The counter of ids is of no matter. -/
theorem Backed.recount {config : BridgeConfig} {t : BridgeTransfer} (h : Backed host hist config id t)
    (n : Nat) : Backed host hist { config with nextTransferId := n } id t := ⟨h.distinct, h.members, h.ready⟩

/-- A transfer that was just initiated. -/
theorem Backed.initial {config : BridgeConfig} {t : BridgeTransfer} (hstatus : t.status = .pendingValidators)
    (happrovals : t.approvals = []) : Backed host hist config id t where
  distinct := by rw [happrovals]; exact nodup_nil
  members := by rw [happrovals]; exact nofun
  ready h := by rw [hstatus] at h; cases h

/-- A transfer keeps its approvals, and its status is not moved to the executable one. -/
theorem Backed.same {config : BridgeConfig} {t t' : BridgeTransfer} (h : Backed host hist config id t)
    (happrovals : t'.approvals = t.approvals) (hstatus : t'.status ≠ .readyToExecute) :
    Backed host hist config id t' where
  distinct := by rw [happrovals]; exact h.distinct
  members := by rw [happrovals]; exact h.members
  ready hready := absurd hready hstatus

/-- One more approval, of a member that did not give one. -/
theorem Backed.approved {config : BridgeConfig} {t : BridgeTransfer} {approval : ValidatorApproval}
    (h : Backed host hist config id t) (hmem : approval.validator ∈ config.validatorSet.validators)
    (hnew : approval.validator ∉ t.approvals.map (·.validator))
    (happroved : Approved host hist id approval.validator) :
    Backed host hist config id (t.approved config.security.requiredValidatorSignatures approval) where
  distinct := by
    rw [BridgeTransfer.approved, map_append]
    exact List.Nodup.append h.distinct (nodup_singleton _) (by simpa using hnew)
  members v hv := by
    simp only [BridgeTransfer.approved, map_append, mem_append, map_cons, map_nil, mem_singleton] at hv
    rcases hv with hv | rfl
    · exact h.members v hv
    · exact ⟨hmem, happroved⟩
  ready hready := by
    simp only [BridgeTransfer.approved] at hready ⊢
    by_cases hq : hasQuorum (t.approvals ++ [approval]) config.security.requiredValidatorSignatures
    · exact hq
    · rw [if_neg hq] at hready
      have := h.ready hready
      rw [length_append]
      omega

/-- What an accepted call of an orderly run keeps of the backing of one transfer. -/
theorem Backed.change {auth : Auth} {c : Call} {config : BridgeConfig} {o : Option BridgeTransfer}
    {t' : BridgeTransfer} (hconfig : w.store.config = some config)
    (ho : w.store.books.transfers.lookup id = o)
    (hback : ∀ t ∈ o, Backed host hist config id t) (horderly : Orderly w (.call auth c))
    (haccepted : Accepted host w (.call auth c)) (hch : Change ⟨host, auth⟩ w id c o (some t')) :
    Backed host ((w, .call auth c) :: hist) config id t' := by
  generalize ho' : some t' = o' at hch
  cases hch with
  | same => exact (hback t' ho'.symm).cons _
  | opened hstatus happrovals =>
    cases ho'
    exact .initial hstatus happrovals
  | @approved kind validator signature config' t now hauth hconfig' hkind hopen hmem hnew hunused =>
    obtain rfl : config = config' := Option.some.inj (hconfig.symm.trans hconfig')
    cases ho'
    exact ((hback t rfl).cons _).approved hmem hnew
      ⟨_, mem_cons_self .., auth, kind, signature, rfl, hauth, haccepted⟩
  | @executed c t now hready =>
    cases ho'
    exact ((hback t rfl).cons _).same rfl nofun
  | @failed c t reason retryable hopen hretryable =>
    cases ho'
    exact ((hback t rfl).cons _).same rfl nofun
  | @retried admin config' t hauth hconfig' hadmin hfailed hretryable =>
    obtain rfl : config = config' := Option.some.inj (hconfig.symm.trans hconfig')
    cases ho'
    have h := (hback t rfl).cons (w, .call auth (.retryTransfer admin id))
    exact ⟨h.distinct, h.members, fun _ => horderly config hconfig t ho hauth hadmin hfailed hretryable⟩

/-- A completed transfer stays completed. -/
theorem Completed.step (ho : Ordered w) (hs : Step host w ev w') (h : Completed w id) : Completed w' id := by
  obtain ⟨t, ht, hcompleted⟩ := h
  exact ho.completed hs ht hcompleted

/-- In an orderly run, a transfer that failed for good stays so. -/
theorem PermanentlyFailed.step (ho : Ordered w) (horderly : Orderly w ev) (hs : Step host w ev w')
    (h : PermanentlyFailed w id) : PermanentlyFailed w' id := by
  obtain ⟨t, ht, hfailed, hfinal⟩ := h
  rw [Option.mem_def] at ht
  obtain ⟨auth, c, rfl, -, he⟩ | ⟨-, hstore, -⟩ := step_effect hs
  · have hch := he.change ho id
    rw [ht] at hch
    generalize hb : w'.store.books.transfers.lookup id = o' at hch
    cases hch with
    | same => exact ⟨t, hb, hfailed, hfinal⟩
    | @approved kind validator signature config t now hauth hconfig hkind hopen hmem hnew hunused =>
      refine ⟨_, hb, ?_, hfinal⟩
      have hquorum : ¬ hasQuorum (t.approvals ++ [⟨validator, signature, now, kind⟩])
          config.security.requiredValidatorSignatures := by
        intro hq
        have hor : OrderlyApproval w auth kind validator id signature := by
          cases kind with
          | lockMint => exact horderly
          | burnUnlock => exact horderly
        unfold hasQuorum at hq
        rw [length_append] at hq
        exact hor config hconfig t ht hauth hkind hmem hnew hunused hq ⟨hfailed, hfinal⟩
      rw [BridgeTransfer.approved, if_neg hquorum]
      exact hfailed
    | executed _ hready => rw [hfailed] at hready; cases hready
    | failed _ _ _ hretryable => rw [hretryable hfailed] at hfinal; cases hfinal
    | retried _ _ _ _ hretryable => rw [hretryable] at hfinal; cases hfinal
  · exact ⟨t, by rw [hstore]; exact ht, hfailed, hfinal⟩

/-- A step that completes a transfer found it executable. -/
theorem ready_of_completes (ho : Ordered w) (hs : Step host w ev w') (h : Completes host id (w, ev)) :
    ∃ t, w.store.books.transfers.lookup id = some t ∧ t.status = .readyToExecute := by
  obtain ⟨hopen, t', ht', hcompleted⟩ := h
  rw [← hs.2, Option.mem_def] at ht'
  obtain ⟨auth, c, -, -, he⟩ | ⟨-, hstore, -⟩ := step_effect hs
  · have hch := he.change ho id
    rw [ht'] at hch
    generalize ha : w.store.books.transfers.lookup id = o, hb : some t' = o' at hch
    cases hch with
    | same => exact absurd ⟨t', ha.trans hb.symm, hcompleted⟩ hopen
    | opened hstatus => cases hb; rw [hstatus] at hcompleted; cases hcompleted
    | @approved _ _ _ _ t _ _ _ _ hne =>
      cases hb
      simp only [BridgeTransfer.approved] at hcompleted
      split at hcompleted
      · cases hcompleted
      · exact absurd hcompleted hne
    | @executed c t now hready => exact ⟨t, rfl, hready⟩
    | failed => cases hb; cases hcompleted
    | retried => cases hb; cases hcompleted
  · rw [hstore] at ht'
    exact absurd ⟨t', ht', hcompleted⟩ hopen

theorem QuorumInv.step (h : QuorumInv host hist w) (horderly : Orderly w ev) (hs : Step host w ev w') :
    QuorumInv host ((w, ev) :: hist) w' where
  ordered := h.ordered.step hs
  backed id t' config' ht' hconfig' := by
    obtain ⟨auth, c, rfl, haccepted, he⟩ | ⟨-, hstore, -⟩ := step_effect hs
    · cases hconfig : w.store.config with
      | none =>
        have hch := he.change h.ordered id
        have hnone : w.store.books.transfers.lookup id = none := by
          cases ht : w.store.books.transfers.lookup id with
          | none => rfl
          | some t =>
            obtain ⟨config, hc, -⟩ := h.ordered.fresh id t ht
            rw [hconfig] at hc
            cases hc
        rw [hnone, ht'] at hch
        cases hch with
        | opened hstatus happrovals => exact .initial hstatus happrovals
      | some config =>
        obtain ⟨n, hn⟩ := he.config hconfig
        obtain rfl : _ = config' := Option.some.inj (hn.symm.trans hconfig')
        have hch := he.change h.ordered id
        rw [ht'] at hch
        exact (Backed.change hconfig rfl (fun t ht => h.backed id t config ht hconfig) horderly haccepted
          hch).recount n
    · rw [hstore] at ht' hconfig'
      exact (h.backed id t' config' ht' hconfig').cons _
  once id := by
    have hcount := h.once id
    rw [countP_cons]
    -- a completed transfer stays completed, so only a step from the other state completes it
    by_cases hbefore : Completed w id
    · rw [if_pos (hbefore.step h.ordered hs)]
      have hno : ¬ Completes host id (w, ev) := fun hc => hc.1 hbefore
      rw [if_pos hbefore] at hcount
      simp [hno]
      exact hcount
    · rw [if_neg hbefore] at hcount
      by_cases hafter : Completed w' id
      · rw [if_pos hafter]
        split <;> omega
      · rw [if_neg hafter]
        have hno : ¬ Completes host id (w, ev) := fun hc => hafter (by rw [hs.2]; exact hc.2)
        simp only [hno, decide_false, Bool.false_eq_true, if_false]
        exact hcount
  final id e he hfailed := by
    have hbefore : PermanentlyFailed w id := by
      rcases List.mem_cons.mp he with rfl | he
      · exact hfailed
      · exact h.final id e he hfailed
    exact hbefore.step h.ordered horderly hs

end Steps

/-- In every run in which no retry is below the quorum, and no approval that meets the quorum is one of a
transfer that failed for good, transfers are completed at most once, with a quorum, and not after they
failed for good. -/
theorem quorumSafe_of_orderly {host : Host} {ledger : Ledger} {hist : List (World × Event)} {w : World}
    (h : Trace (fun a ev b => Orderly a ev ∧ Step host a ev b) (.deployed ledger) hist w) :
    QuorumSafe host hist := by
  have hinit : QuorumInv host [] (.deployed ledger) :=
    ⟨.deployed ledger, fun id t config ht => (by cases ht), fun id => Nat.zero_le _, fun id e he => by cases he⟩
  have hstep : ∀ hist a ev b, QuorumInv host hist a → Orderly a ev ∧ Step host a ev b →
      QuorumInv host ((a, ev) :: hist) b := fun hist a ev b ha hs => ha.step hs.1 hs.2
  refine ⟨fun id => ?_, fun id => ?_, fun id => ?_⟩
  · have hcount := (h.invariant hinit hstep).once id
    split at hcount <;> omega
  · refine h.every_of_invariant hinit hstep fun earlier a ev b ha hs hc => ?_
    obtain ⟨t, ht, hready⟩ := ready_of_completes ha.ordered hs.2 hc
    obtain ⟨config, hconfig, -⟩ := ha.ordered.fresh id t ht
    have hback := ha.backed id t config ht hconfig
    refine ⟨config, hconfig, t.approvals.map (·.validator), hback.distinct, ?_, hback.members⟩
    rw [length_map]
    exact hback.ready hready
  · refine h.every_of_invariant hinit hstep fun earlier a ev b ha hs hc => ?_
    have hnow : ¬ PermanentlyFailed a id := by
      rintro ⟨t, ht, hfailed, -⟩
      obtain ⟨t', ht', hready⟩ := ready_of_completes ha.ordered hs.2 hc
      rw [Option.mem_def.mp ht] at ht'
      cases ht'
      rw [hfailed] at hready
      cases hready
    exact ⟨hnow, fun e he hfailed => hnow (ha.final id e he hfailed)⟩

namespace Sample

/-- A transfer with two approvals fails for a while, is retried and executed. -/
def orderly : List Event :=
  [lock 500 [7] 1, approve 4 1, approve 5 1, call (.markTransferFailed admin 1 [] true), approve 6 1,
    call (.markTransferFailed admin 1 [] true), call (.retryTransfer admin 1), call (.executeLockMint admin 1)]

/-- It has its quorum when it is executed. -/
theorem retried_transfer_is_completed :
    QuorumSafe host (history orderly) ∧ Completed (final orderly) 1 := by
  have hrun : Reaches.Along (next host) (fun w ev => Orderly w ev ∧ Allowed w ev) (.deployed ⟨0, 0⟩)
      (started orderly) := by decide +kernel
  exact ⟨quorumSafe_of_orderly (trace_of_along hrun), by decide +kernel⟩

/-- A transfer that nobody approved fails for a while, is retried and executed. -/
def unapproved : List Event :=
  [lock 500 [7] 1, call (.markTransferFailed admin 1 [] true), call (.retryTransfer admin 1),
    call (.executeLockMint admin 1)]

/-- A transfer with one approval fails for good; the second approval comes later. -/
def revived : List Event :=
  [lock 500 [7] 1, approve 4 1, call (.markTransferFailed admin 1 [] false), approve 5 1,
    call (.executeLockMint admin 1)]

/-- The event is an approval. -/
def isApproval : Event → Bool
  | .call _ (.approveLockMint ..) | .call _ (.approveBurnUnlock ..) => true
  | _ => false

/-- The contract completes a transfer that nobody approved, and one that failed for good. -/
theorem transfers_lack_quorum_safety :
    (∃ hist w, Trace (Step host) (.deployed ⟨0, 0⟩) hist w ∧ ¬ ∀ id, Trace.Every
      (fun earlier w ev => Completes host id (w, ev) → QuorumReached host earlier w id) hist) ∧
    (∃ hist w, Trace (Step host) (.deployed ⟨0, 0⟩) hist w ∧ ¬ ∀ id, Trace.Every
      (fun earlier w ev => Completes host id (w, ev) →
        ¬ PermanentlyFailed w id ∧ ∀ e ∈ earlier, ¬ PermanentlyFailed e.1 id) hist) := by
  refine ⟨⟨history unapproved, _, trace_of_allowed (by decide +kernel), fun h => ?_⟩,
    ⟨history revived, _, trace_of_allowed (by decide +kernel), fun h => ?_⟩⟩
  · obtain ⟨config, hconfig, vs, -, hlength, happroved⟩ := (h 1).1 (by decide +kernel)
    have hrequired : some 2 = some config.security.requiredValidatorSignatures :=
      congrArg (Option.map fun c : BridgeConfig => c.security.requiredValidatorSignatures) hconfig
    obtain ⟨v, hv⟩ : ∃ v, v ∈ vs := exists_mem_of_length_pos (by
      have := Option.some.inj hrequired
      omega)
    obtain ⟨-, e, he, auth, kind, signature, hev, -⟩ := happroved v hv
    have hnone : ∀ e ∈ (history unapproved).tail, isApproval e.2 = false := by decide +kernel
    have hfalse := hnone e he
    rw [hev] at hfalse
    cases kind <;> cases hfalse
  · have hfinal := h 1
    revert hfinal
    decide +kernel

end Sample

end CallStake.Bridge
