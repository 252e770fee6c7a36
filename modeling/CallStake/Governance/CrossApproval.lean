import CallStake.Governance.Decisions

/-!
# Requests between committees (`committees`)

A member of a committee asks other committees to approve a proposal. Each of them approves by one of its
members and one of its own decisions; the request is approved when as many committees have approved it as its
list is long.

* `requestCrossCommitteeApproval`, `approveCrossCommitteeRequest`: the two entries of `CommitteesState` that
  they write are kept apart (`Requests`), since nothing else in the contract reads or writes them.
* `World`, `Event`, `next`: runs of the two entrypoints and of all others of the committees. The journal
  lists what was requested and who approved it; it is not stored by the contract.
* `Inv`: the stored approvals of a request are those of the journal.
* `count_eq_length_iff`: when a duplicate-free part of a list is as long as the list.
* `approved_as_claimed_iff`: a request is approved when all its committees have approved it exactly if none
  is listed twice, or some have not approved it; `listed_twice_stays_pending`: one that is.
-/

namespace CallStake.Governance

namespace Committees

namespace Cross

/-! ## Requests -/

/-- Whether every asked committee has approved. -/
inductive CrossCommitteeStatus where
  | pending
  | approved
  deriving DecidableEq

/-- A request to other committees. -/
structure CrossCommitteeRequest where
  id : Nat
  requestingCommittee : Nat
  approvingCommittees : List Nat
  proposal : Bytes
  approvals : Store Nat Nat
  status : CrossCommitteeStatus

/-- The requests, with the next identifier. -/
structure Requests where
  crossCommitteeRequests : Store Nat CrossCommitteeRequest
  nextCrossReqId : Nat

def getCrossCommitteeRequest (requests : Requests) (requestId : Nat) : Res CrossCommitteeRequest :=
  Res.ofOption (requests.crossCommitteeRequests.lookup requestId) .crossCommitteeRequestNotFound

/-- The request that is stored when it is made. -/
def newRequest (id requestingCommittee : Nat) (approvingCommittees : List Nat) (proposal : Bytes) :
    CrossCommitteeRequest :=
  { id, requestingCommittee, approvingCommittees, proposal, approvals := ∅, status := .pending }

def requestCrossCommitteeApproval (state : CommitteesState) (requests : Requests)
    (requestingCommittee : Nat) (requester : Address) (approvingCommittees : List Nat) (proposal : Bytes)
    (now : Nat) : Res (Requests × CrossCommitteeRequest) := do
  Res.failIf (proposal = [] ∨ approvingCommittees = []) .invalidCommitteeConfig
  let committee ← getCommittee state requestingCommittee
  ensureCommitteeActive committee now
  Res.failIf (requester ∉ committee.members) .unauthorized
  Res.failIf (∃ id ∈ approvingCommittees, id = requestingCommittee ∨ (state.committees.lookup id).isSome = false)
    .invalidCommitteeConfig
  let request := newRequest requests.nextCrossReqId requestingCommittee approvingCommittees proposal
  return ({ crossCommitteeRequests := requests.crossCommitteeRequests.insert request.id request
            nextCrossReqId := u64Add requests.nextCrossReqId 1 }, request)

/-- The request with one more approval. -/
def CrossCommitteeRequest.approve (request : CrossCommitteeRequest) (approvingCommittee decisionId : Nat) :
    CrossCommitteeRequest :=
  let approvals := request.approvals.insert approvingCommittee decisionId
  { request with
    approvals
    status := if approvals.keys.length = request.approvingCommittees.length then .approved
      else request.status }

def approveCrossCommitteeRequest (state : CommitteesState) (requests : Requests)
    (requestId approvingCommittee : Nat) (approver : Address) (decisionId : Nat) :
    Res (Requests × CrossCommitteeRequest) := do
  let request ← getCrossCommitteeRequest requests requestId
  Res.failIf (request.status ≠ .pending ∨ approvingCommittee ∉ request.approvingCommittees)
    .invalidCommitteeConfig
  Res.failIf ((request.approvals.lookup approvingCommittee).isSome = true) .alreadyVoted
  let committee ← getCommittee state approvingCommittee
  Res.failIf (approver ∉ committee.members) .unauthorized
  let (_, decision) ← findDecision committee.decisions decisionId
  Res.failIf (decision.status ≠ .approved ∧ decision.status ≠ .executed) .committeeDecisionNotOpen
  let request := request.approve approvingCommittee decisionId
  return ({ requests with
    crossCommitteeRequests := requests.crossCommitteeRequests.insert requestId request }, request)

/-! ## Runs -/

/-- `members` and `chair` are those of the approving committee at the time. -/
inductive Entry where
  | requested (requestId : Nat)
  | approved (requestId committeeId : Nat) (approver : Address) (members : List Address) (chair : Address)

/-- The committees, the requests, and the accepted approvals. -/
structure World where
  base : Committees.World
  requests : Requests
  journal : List Entry

def World.deployed (now : Nat) (books : Books) : World := ⟨.deployed now books, ⟨∅, 1⟩, []⟩

abbrev X (α : Type) := Tx World (Fault GovernanceError) α

/-- The entrypoints with their arguments. -/
inductive Call where
  | requestCrossCommitteeApproval (requestingCommittee : Nat) (requester : Address)
      (approvingCommittees : List Nat) (proposal : Bytes)
  | approveCrossCommitteeRequest (requestId approvingCommittee : Nat) (approver : Address)
      (decisionId : Nat)

/-- What the journal keeps of an approval. -/
def approvalEntry (state : CommitteesState) (requestId committeeId : Nat) (approver : Address) : Entry :=
  match state.committees.lookup committeeId with
  | some committee => .approved requestId committeeId approver committee.members committee.chair
  | none => .approved requestId committeeId approver [] approver

def invoke (auth : Auth) : Call → X Unit
  | .requestCrossCommitteeApproval requestingCommittee requester approvingCommittees proposal => do
    requireAuth auth requester
    let w ← Tx.gets id
    let (requests, request) ← Tx.ofExcept (Cross.requestCrossCommitteeApproval w.base.committees w.requests
      requestingCommittee requester approvingCommittees proposal w.base.now)
    Tx.modify fun w => { w with requests, journal := .requested request.id :: w.journal }
  | .approveCrossCommitteeRequest requestId approvingCommittee approver decisionId => do
    requireAuth auth approver
    let w ← Tx.gets id
    let (requests, _) ← Tx.ofExcept (Cross.approveCrossCommitteeRequest w.base.committees w.requests requestId
      approvingCommittee approver decisionId)
    Tx.modify fun w => { w with
      requests
      journal := approvalEntry w.base.committees requestId approvingCommittee approver :: w.journal }

/-- `base` is an event of the other entrypoints of the committees. -/
inductive Event where
  | call (auth : Auth) (c : Call)
  | base (ev : Committees.Event)

def next (w : World) : Event → World
  | .call auth c => (invoke auth c).exec w
  | .base ev => { w with base := Committees.next w.base ev }

/-- What the committees allow. -/
def Allowed (w : World) : Event → Prop
  | .call .. => True
  | .base ev => Committees.Allowed w.base ev

instance (w : World) : (ev : Event) → Decidable (Allowed w ev)
  | .call .. => isTrue trivial
  | .base ev => inferInstanceAs (Decidable (Committees.Allowed w.base ev))

def Step (w : World) (ev : Event) (w' : World) : Prop := Allowed w ev ∧ w' = next w ev

/-! ## Approvals -/

/-- The committees that approved a request since it was made, the newest first. -/
def approvers (requestId : Nat) : List Entry → List Nat
  | [] => []
  | .requested id :: journal => if id = requestId then [] else approvers requestId journal
  | .approved id committeeId _ _ _ :: journal =>
    if id = requestId then committeeId :: approvers requestId journal else approvers requestId journal

/-- An approval was given by a member or the chair of the committee. -/
def Entry.ByOwn : Entry → Prop
  | .requested _ => True
  | .approved _ _ approver members chair => approver ∈ members ∨ approver = chair

/-- Every committee of the list has approved the request. -/
def World.AllApproved (w : World) (requestId : Nat) (request : CrossCommitteeRequest) : Prop :=
  ∀ c ∈ request.approvingCommittees, c ∈ approvers requestId w.journal

/-- A part of a list without duplicates is as long as the list exactly if the list has none and is the part. -/
theorem count_eq_length_iff {α : Type} {part list : List α} (hpart : part.Nodup)
    (hsub : ∀ a ∈ part, a ∈ list) :
    part.length = list.length ↔ list.Nodup ∧ ∀ a ∈ list, a ∈ part := by
  constructor
  · intro hlength
    have hperm : part.Perm list := (List.subperm_of_subset hpart hsub).perm_of_length_le hlength.ge
    exact ⟨hperm.nodup_iff.mp hpart, fun a ha => hperm.mem_iff.mpr ha⟩
  · rintro ⟨hlist, hall⟩
    exact ((List.perm_ext_iff_of_nodup hpart hlist).mpr fun a => ⟨hsub a, hall a⟩).length_eq

/-- The stored approvals of a request are those of `committees`. -/
structure Tracked (committees : List Nat) (request : CrossCommitteeRequest) : Prop where
  nonempty : request.approvingCommittees ≠ []
  nodup : committees.Nodup
  stored (c : Nat) : c ∈ request.approvals ↔ c ∈ committees
  listed : ∀ c ∈ committees, c ∈ request.approvingCommittees
  status : request.status = .approved ↔ request.approvals.keys.length = request.approvingCommittees.length

structure Inv (w : World) : Prop where
  tracked (id : Nat) (request : CrossCommitteeRequest) :
    w.requests.crossCommitteeRequests.lookup id = some request → Tracked (approvers id w.journal) request
  byOwn : ∀ e ∈ w.journal, e.ByOwn

namespace Tracked

variable {committees : List Nat} {request : CrossCommitteeRequest} {c decisionId : Nat}

theorem length_keys (h : Tracked committees request) : request.approvals.keys.length = committees.length :=
  ((List.perm_ext_iff_of_nodup request.approvals.keys_nodup h.nodup).mpr fun c =>
    AList.mem_keys.symm.trans (h.stored c)).length_eq

/-- A request is approved exactly if it lists no committee twice and all have approved it. -/
theorem approved_iff (h : Tracked committees request) : request.status = .approved ↔
    request.approvingCommittees.Nodup ∧ ∀ c ∈ request.approvingCommittees, c ∈ committees := by
  rw [h.status, h.length_keys, count_eq_length_iff h.nodup h.listed]

theorem new {id requestingCommittee : Nat} {approvingCommittees : List Nat} {proposal : Bytes}
    (hne : approvingCommittees ≠ []) :
    Tracked [] (newRequest id requestingCommittee approvingCommittees proposal) where
  nonempty := hne
  nodup := List.nodup_nil
  stored c := by simp [newRequest]
  listed := by simp
  status := by
    refine iff_of_false (by simp [newRequest]) fun h => hne ?_
    exact List.eq_nil_of_length_eq_zero h.symm

theorem approve (h : Tracked committees request) (hpending : request.status = .pending)
    (hlisted : c ∈ request.approvingCommittees) (hnew : request.approvals.lookup c = none) :
    Tracked (c :: committees) (request.approve c decisionId) where
  nonempty := h.nonempty
  nodup := by
    refine List.nodup_cons.mpr ⟨fun hc => ?_, h.nodup⟩
    exact AList.lookup_eq_none.mp hnew ((h.stored c).mpr hc)
  stored i := by
    simp [CrossCommitteeRequest.approve, h.stored i]
  listed i hi := by
    rcases List.mem_cons.mp hi with rfl | hi
    · exact hlisted
    · exact h.listed i hi
  status := by
    simp only [CrossCommitteeRequest.approve]
    split
    · exact iff_of_true rfl ‹_›
    · exact iff_of_false (by simp [hpending]) ‹_›

end Tracked

section Calls

variable {w w' : World} {auth : Auth}

theorem requestCrossCommitteeApproval_ok {state : CommitteesState} {requests requests' : Requests}
    {requestingCommittee : Nat} {requester : Address} {approvingCommittees : List Nat} {proposal : Bytes}
    {now : Nat} {request : CrossCommitteeRequest}
    (h : requestCrossCommitteeApproval state requests requestingCommittee requester approvingCommittees
      proposal now = .ok (requests', request)) :
    approvingCommittees ≠ [] ∧
      request = newRequest requests.nextCrossReqId requestingCommittee approvingCommittees proposal ∧
      requests'.crossCommitteeRequests = requests.crossCommitteeRequests.insert request.id request := by
  simp only [requestCrossCommitteeApproval, Res.bind_ok, Res.failIf_ok, Res.pure_ok, Prod.mk.injEq] at h
  obtain ⟨_, hne, _, -, _, -, _, -, _, -, rfl, rfl⟩ := h
  exact ⟨fun hnil => hne (.inr hnil), rfl, rfl⟩

theorem approveCrossCommitteeRequest_ok {state : CommitteesState} {requests requests' : Requests}
    {requestId approvingCommittee decisionId : Nat} {approver : Address} {request' : CrossCommitteeRequest}
    (h : approveCrossCommitteeRequest state requests requestId approvingCommittee approver decisionId =
      .ok (requests', request')) :
    ∃ request committee, requests.crossCommitteeRequests.lookup requestId = some request ∧
      request.status = .pending ∧ approvingCommittee ∈ request.approvingCommittees ∧
      request.approvals.lookup approvingCommittee = none ∧
      state.committees.lookup approvingCommittee = some committee ∧ approver ∈ committee.members ∧
      requests'.crossCommitteeRequests = requests.crossCommitteeRequests.insert requestId
        (request.approve approvingCommittee decisionId) := by
  simp only [approveCrossCommitteeRequest, getCrossCommitteeRequest, getCommittee, Res.bind_ok,
    Res.failIf_ok, Res.ofOption_ok, Res.pure_ok, Prod.mk.injEq, not_or, not_not, Bool.not_eq_true,
    Option.isSome_eq_false_iff, Option.isNone_iff_eq_none] at h
  obtain ⟨request, hr, _, ⟨hpending, hlisted⟩, _, hnew, committee, hc, _, hmember, ⟨_, _⟩, -, _, -, rfl, -⟩ := h
  exact ⟨request, committee, hr, hpending, hlisted, hnew, hc, hmember, rfl⟩

theorem Inv.call {c : Call} (h : Inv w) (hcall : invoke auth c w = (.ok (), w')) : Inv w' := by
  cases c with
  | requestCrossCommitteeApproval =>
    simp only [invoke, Tx.bind_ok, requireAuth_ok, Tx.gets_ok, Tx.ofExcept_ok, Tx.modify_ok] at hcall
    obtain ⟨_, _, ⟨-, rfl⟩, _, _, ⟨rfl, rfl⟩, ⟨requests, request⟩, _, ⟨hrequest, rfl⟩, rfl⟩ := hcall
    obtain ⟨hne, rfl, hstored⟩ := requestCrossCommitteeApproval_ok hrequest
    constructor
    case tracked =>
      intro id r hr
      simp only [hstored, Store.lookup_insert_eq] at hr
      split at hr
      · cases hr
        rw [approvers, if_pos (Eq.symm ‹_›)]
        exact .new hne
      · rw [approvers, if_neg (Ne.symm ‹_›)]
        exact h.tracked id r hr
    case byOwn =>
      intro e he
      rcases List.mem_cons.mp he with rfl | he
      · trivial
      · exact h.byOwn e he
  | approveCrossCommitteeRequest requestId approvingCommittee approver =>
    simp only [invoke, Tx.bind_ok, requireAuth_ok, Tx.gets_ok, Tx.ofExcept_ok, Tx.modify_ok] at hcall
    obtain ⟨_, _, ⟨-, rfl⟩, _, _, ⟨rfl, rfl⟩, ⟨requests, _⟩, _, ⟨happrove, rfl⟩, rfl⟩ := hcall
    simp at happrove ⊢
    obtain ⟨request, committee, hr, hpending, hlisted, hnew, hc, hmember, hstored⟩ :=
      approveCrossCommitteeRequest_ok happrove
    have hentry : approvalEntry w.base.committees requestId approvingCommittee approver =
        .approved requestId approvingCommittee approver committee.members committee.chair := by
      simp only [approvalEntry, hc]
    constructor
    case tracked =>
      intro id r hr'
      simp only [hentry, hstored, Store.lookup_insert_eq] at hr' ⊢
      split at hr'
      · cases hr'
        rw [approvers, if_pos (Eq.symm ‹_›)]
        subst ‹id = requestId›
        exact (h.tracked _ _ hr).approve hpending hlisted hnew
      · rw [approvers, if_neg (Ne.symm ‹_›)]
        exact h.tracked id r hr'
    case byOwn =>
      intro e he
      simp only [hentry] at he
      rcases List.mem_cons.mp he with rfl | he
      · exact .inl hmember
      · exact h.byOwn e he

theorem Inv.step {ev : Event} (h : Inv w) (hs : Step w ev w') : Inv w' := by
  obtain ⟨-, rfl⟩ := hs
  cases ev with
  | call auth c =>
    rcases Tx.exec_cases (invoke auth c) w with ⟨_, hc⟩ | hsame
    · exact h.call hc
    · rw [next, hsame]
      exact h
  | base => exact ⟨h.tracked, h.byOwn⟩

theorem Inv.start (now : Nat) (books : Books) : Inv (World.deployed now books) where
  tracked _ _ hr := absurd hr Store.lookup_empty_ne
  byOwn := by simp [World.deployed]

end Calls

/-- In every run: a request is approved exactly when all its committees have approved it, if none of them is
listed twice, or some have not approved it. Every approval was given by a member or the chair of the
committee, and no committee has two. -/
theorem approved_as_claimed_iff {now : Nat} {books : Books} {w : World}
    (h : Reaches Step (World.deployed now books) w) {id : Nat} {request : CrossCommitteeRequest}
    (hr : w.requests.crossCommitteeRequests.lookup id = some request) :
    ((request.status = .approved ↔ w.AllApproved id request) ↔
        request.approvingCommittees.Nodup ∨ ¬ w.AllApproved id request) ∧
      (∀ e ∈ w.journal, e.ByOwn) ∧ (approvers id w.journal).Nodup := by
  have hinv : Inv w := h.invariant (I := Inv) (.start now books) fun _ _ _ hI hs => hI.step hs
  have ht := hinv.tracked id request hr
  refine ⟨?_, hinv.byOwn, ht.nodup⟩
  have happroved : request.status = .approved ↔
      request.approvingCommittees.Nodup ∧ w.AllApproved id request := ht.approved_iff
  rw [happroved]
  by_cases hall : w.AllApproved id request
  · simp [hall]
  · simp [hall]

namespace Sample

def member : Address := ⟨1⟩

def call (c : Call) : Event := .call (fun _ => true) c
def baseCall (c : Committees.Call) : Event := .base (.call (fun _ => true) c)

/-- A committee of one member. -/
def create : Event := baseCall (.createCommittee [67] [68] [member] member 3 [.grantApproval 1] none)

/-- A committee decides something. -/
def decides (committeeId decisionId : Nat) : List Event :=
  [baseCall (.proposeDecision committeeId member [112] (.emergencyAction [112] [])),
    baseCall (.voteOnDecision committeeId decisionId member .inFavor)]

/-- Three committees, of which the second and the third have decided something. -/
def decidedRun : List Event := [create, create, create] ++ decides 2 1 ++ decides 3 2

def approve (committeeId decisionId : Nat) : Event :=
  call (.approveCrossCommitteeRequest 1 committeeId member decisionId)

/-- The first committee asks the two others, and both approve. -/
def approvedRun : List Event :=
  decidedRun ++ [call (.requestCrossCommitteeApproval 1 member [2, 3] [112]), approve 3 2, approve 2 1]

/-- The first committee asks the second one twice, which approves. -/
def twiceRun : List Event := decidedRun ++ [call (.requestCrossCommitteeApproval 1 member [2, 2] [112]), approve 2 1]

def deployedRun (evs : List Event) : World := evs.foldl next (.deployed 0 ⟨Treasury.empty, none⟩)

/-- The request is approved once both committees have approved it. -/
theorem both_approve : ∃ request,
    (deployedRun approvedRun).requests.crossCommitteeRequests.lookup 1 = some request ∧
      request.status = .approved ∧
      ((request.status = .approved ↔ (deployedRun approvedRun).AllApproved 1 request) ↔
        request.approvingCommittees.Nodup ∨ ¬ (deployedRun approvedRun).AllApproved 1 request) := by
  have hreach : Reaches Step (World.deployed 0 ⟨Treasury.empty, none⟩) (deployedRun approvedRun) :=
    Reaches.of_along (by decide +kernel)
  have hstored : ((deployedRun approvedRun).requests.crossCommitteeRequests.lookup 1).map
      (·.status) = some .approved := by decide +kernel
  obtain ⟨request, hr, hstatus⟩ := Option.map_eq_some_iff.mp hstored
  exact ⟨request, hr, hstatus, (approved_as_claimed_iff hreach hr).1⟩

/-- The only committee of the list has approved the request, which is still pending. -/
theorem listed_twice_stays_pending :
    ¬ ∀ (w : World) (id : Nat) (request : CrossCommitteeRequest),
      Reaches Step (World.deployed 0 ⟨Treasury.empty, none⟩) w →
      w.requests.crossCommitteeRequests.lookup id = some request →
      (request.status = .approved ↔ w.AllApproved id request) := by
  intro h
  have hreach : Reaches Step (World.deployed 0 ⟨Treasury.empty, none⟩) (deployedRun twiceRun) :=
    Reaches.of_along (by decide +kernel)
  have hstored : ((deployedRun twiceRun).requests.crossCommitteeRequests.lookup 1).map
      (fun r => (r.status, r.approvingCommittees)) = some (.pending, [2, 2]) := by decide +kernel
  obtain ⟨request, hr, heq⟩ := Option.map_eq_some_iff.mp hstored
  simp at heq
  obtain ⟨hstatus, hlist⟩ := heq
  have hall : (deployedRun twiceRun).AllApproved 1 request := by
    unfold World.AllApproved
    rw [hlist]
    decide +kernel
  have happroved := (h _ 1 request hreach hr).mpr hall
  rw [hstatus] at happroved
  cases happroved

end Sample

end Cross

end Committees

end CallStake.Governance
