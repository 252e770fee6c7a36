import CallStake.Governance.Succession

/-!
# What the timelock of the administrator binds

An announcement is an entry of a list that only grows; its flags are only ever set, and a timelocked
call uses up the first entry with the identifier it names.

* `Entries.Extends`: how the list changes along a run.
* `Bound`: a timelocked call that returned has an announcement of its own: made by the matching
  `queue_*` entrypoint with the same arguments, authorized by the same caller, a full delay before,
  open ever since, and used up by this call.
* `timelock_binds_of_matching`: that is so where calls name announcements of their own action. The
  caller, the delay and the single use are checked; the action, its arguments and, for capabilities,
  the authorization of the announcement are not.
* `announced_asset_spent_on_guardian`: an announcement of one action spent on another one.
-/

namespace CallStake.Governance

/-! ## The list of announcements -/

abbrev Entries := List AdminTimelockEntry

/-- The announcements of a world. -/
def entries (w : World) : Entries := w.store.timelock.adminPendingActions

/-- `e'` is `e` later: the same announcement, with flags that are only ever set. -/
structure Later (e e' : AdminTimelockEntry) : Prop where
  id : e'.id = e.id
  available : e'.executionAvailable = e.executionAvailable
  executed : e'.executed = false → e.executed = false
  cancelled : e'.cancelled = false → e.cancelled = false

theorem Later.refl (e : AdminTimelockEntry) : Later e e := ⟨rfl, rfl, fun h => h, fun h => h⟩

/-- Every announcement is still there, at its position. -/
def Entries.Extends (l l' : Entries) : Prop :=
  ∀ (n : Nat) (e : AdminTimelockEntry), l[n]? = some e → ∃ e', l'[n]? = some e' ∧ Later e e'

/-- The announcement at position `n` is neither executed nor cancelled. -/
def OpenAt (w : World) (n : Nat) : Prop := ∃ e, (entries w)[n]? = some e ∧ e.executed = false ∧ e.cancelled = false

def Grows (w w' : World) : Prop := (entries w).Extends (entries w') ∧ w.ledger.timestamp ≤ w'.ledger.timestamp

instance : IsPreorder World Grows where
  refl _ := ⟨fun _ e h => ⟨e, h, .refl e⟩, le_refl _⟩
  trans _ _ _ h h' := by
    refine ⟨fun n e he => ?_, le_trans h.2 h'.2⟩
    obtain ⟨e₁, h₁, l₁⟩ := h.1 n e he
    obtain ⟨e₂, h₂, l₂⟩ := h'.1 n e₁ h₁
    exact ⟨e₂, h₂, l₂.id.trans l₁.id, l₂.available.trans l₁.available,
      fun hx => l₁.executed (l₂.executed hx), fun hx => l₁.cancelled (l₂.cancelled hx)⟩

/-- The announcements after `actionId` was marked. -/
theorem setEntry_extends {w : World} {actionId : Nat} {f : AdminTimelockEntry → AdminTimelockEntry}
    (hf : ∀ e, Later e (f e)) :
    (entries w).Extends (entries (Timelock.setEntry w actionId f)) := by
  intro n e he
  have h : (entries (Timelock.setEntry w actionId f))[n]? = some e ∨
      (entries (Timelock.setEntry w actionId f))[n]? = some (f e) := Registry.getElem?_updateFirst he
  rcases h with h | h
  · exact ⟨e, h, .refl e⟩
  · exact ⟨f e, h, hf e⟩

theorem later_execute (e : AdminTimelockEntry) : Later e { e with executed := true } :=
  ⟨rfl, rfl, fun h => (by cases h), fun h => h⟩

theorem later_cancel (e : AdminTimelockEntry) : Later e { e with cancelled := true } :=
  ⟨rfl, rfl, fun h => h, fun h => by cases h⟩

/-- The entry of a new announcement. -/
def newEntry (w : World) (caller : Address) (request : AdminRequest) (id : Nat) :
    AdminTimelockEntry where
  id := id
  actionType := request.actionType
  caller := caller
  queuedAt := w.ledger.timestamp
  executionAvailable := u64Add w.ledger.timestamp ADMIN_ACTION_DELAY
  executed := false
  cancelled := false

section Calls

variable {w w' : World} {auth : Auth} {c : Call} {caller : Address} {id : Nat}

theorem invokeQueue_entries {request : AdminRequest}
    (h : invokeQueue auth caller request w = (.ok id, w')) :
    entries w' = entries w ++ [newEntry w caller request id] := by
  obtain ⟨timelock, -, -, rfl⟩ := Timelock.queueAdminAction_ok.mp (invokeQueue_ok h)
  rfl

/-- A timelocked call that returned marked the first announcement with its identifier. -/
theorem timelocked_entries {action : AdminAction}
    (h : invoke auth (.timelocked caller id action) w = (.ok (), w')) :
    entries w' = entries (Timelock.setEntry w id fun e => { e with executed := true }) := by
  obtain ⟨-, entry, -, hx⟩ := invokeTimelocked_ok h
  have hmem : .announcements ∉ action.footprint := by cases action <;> simp [AdminAction.footprint]
  exact ((writes_perform action).of_run hx).same .announcements hmem

/-- A call appends an announcement, marks one, or leaves them alone. -/
theorem entries_of_call (h : invoke auth c w = (.ok (), w')) :
    (∃ caller request id, c = .queue caller request ∧ invokeQueue auth caller request w = (.ok id, w')) ∨
    (∃ id f, (∀ e, Later e (f e)) ∧ entries w' = entries (Timelock.setEntry w id f)) ∨
    entries w' = entries w := by
  by_cases hf : .announcements ∈ c.footprint
  · cases c <;> simp [Call.footprint, executionRegions] at hf
    case cancelAdminAction id canceller =>
      simp [invoke, cancelAdminAction, Timelock.cancelAdminAction_ok] at h
      obtain ⟨-, entry, -, rfl⟩ := h
      exact .inr (.inl ⟨id, _, later_cancel, rfl⟩)
    case direct caller action => cases action <;> simp [AdminAction.footprint] at hf
    case queue caller request =>
      obtain ⟨id, h⟩ := Tx.void_ok.mp h
      exact .inl ⟨caller, request, id, rfl, h⟩
    case timelocked caller id action =>
      exact .inr (.inl ⟨id, _, later_execute, timelocked_entries h⟩)
  · exact .inr (.inr (((invoke_writes auth c).of_run h).same .announcements hf))

/-- An announcement at the end changes no position. -/
theorem extends_append (l : Entries) (e : AdminTimelockEntry) : l.Extends (l ++ [e]) := by
  intro n a ha
  have hn : n < l.length := (List.getElem?_eq_some_iff.mp ha).1
  exact ⟨a, by rw [List.getElem?_append_left hn]; exact ha, .refl a⟩

theorem step_grows {ev : Event} (h : Step w ev w') : Grows w w' := by
  rcases h.cases with ⟨auth, c, rfl, hc⟩ | ⟨auth, c, rfl, rfl⟩ | ⟨l, rfl, hl, rfl⟩ |
    ⟨t, c, r, m, rfl, rfl⟩
  · have hledger : w.ledger.timestamp ≤ w'.ledger.timestamp :=
      ((invoke_writes auth c).of_run hc).ledger ▸ le_refl _
    refine ⟨?_, hledger⟩
    rcases entries_of_call hc with ⟨caller, request, id, -, hq⟩ | ⟨id, f, hf, he⟩ | he
    · rw [invokeQueue_entries hq]; exact extends_append _ _
    · rw [he]; exact setEntry_extends hf
    · rw [he]; exact fun n e h => ⟨e, h, .refl e⟩
  · exact refl_of Grows w'
  · exact ⟨fun n e h => ⟨e, h, .refl e⟩, hl.1⟩
  · exact ⟨fun n e h => ⟨e, h, .refl e⟩, le_refl _⟩

end Calls

/-! ## Announcements in a history -/

/-- The event is an announcement that returned `id`. -/
def Announces (e : World × Event) (id : Nat) : Prop :=
  ∃ auth caller request, e.2 = .call auth (.queue caller request) ∧ (invokeQueue auth caller request e.1).1 = .ok id

/-- Every announcement in the list was announced in the history, under its identifier. -/
def AnnouncedIn (hist : History) (w : World) : Prop :=
  ∀ (n : Nat) (e : AdminTimelockEntry), (entries w)[n]? = some e → ∃ a ∈ hist, Announces a e.id

theorem announcedIn_step {hist : History} {w w' : World} {ev : Event} (hI : AnnouncedIn hist w)
    (h : Step w ev w') : AnnouncedIn ((w, ev) :: hist) w' := by
  -- an entry that was at its position before was announced before
  have hold : ∀ (n : Nat) (e e' : AdminTimelockEntry), (entries w)[n]? = some e → e'.id = e.id →
      ∃ a ∈ (w, ev) :: hist, Announces a e'.id := by
    intro n e e' he hid
    obtain ⟨a, ha, han⟩ := hI n e he
    exact ⟨a, List.mem_cons_of_mem _ ha, hid ▸ han⟩
  have hsame : entries w' = entries w → AnnouncedIn ((w, ev) :: hist) w' := by
    intro heq n e he
    exact hold n e e (heq ▸ he) rfl
  rcases h.cases with ⟨auth, c, rfl, hc⟩ | ⟨auth, c, rfl, rfl⟩ | ⟨l, rfl, hl, rfl⟩ |
    ⟨t, c, r, m, rfl, rfl⟩
  · rcases entries_of_call hc with ⟨caller, request, id, rfl, hq⟩ | ⟨id, f, hf, he⟩ | he
    · intro n e he
      rw [invokeQueue_entries hq] at he
      by_cases hn : n < (entries w).length
      · rw [List.getElem?_append_left hn] at he
        exact hold n e e he rfl
      · -- the new entry
        rw [List.getElem?_append_right (Nat.not_lt.mp hn)] at he
        obtain rfl := List.mem_singleton.mp (List.mem_of_getElem? he)
        exact ⟨_, List.mem_cons_self .., auth, caller, request, rfl, by rw [hq]; rfl⟩
    · intro n e' he'
      rw [he] at he'
      have hn : n < (entries w).length := by
        have := (List.getElem?_eq_some_iff.mp he').1
        rwa [entries, Timelock.setEntry, Registry.length_updateFirst] at this
      obtain ⟨e'', he'', hl⟩ := setEntry_extends hf n _ (List.getElem?_eq_getElem hn)
      rw [he'] at he''
      cases he''
      exact hold n _ e' (List.getElem?_eq_getElem hn) hl.id
    · exact hsame he
  · exact hsame rfl
  · exact hsame rfl
  · exact hsame rfl

theorem announcedIn_start (ledger : Ledger) : AnnouncedIn [] (World.deployed ledger) := by
  intro n e he
  simp [entries, World.deployed, Storage.deployed] at he

/-! ## What binds a timelocked call -/

/-- The announcement at position `n` was used up. -/
def UsedAt (w : World) (n : Nat) : Prop := ∃ e, (entries w)[n]? = some e ∧ e.executed = true

/-- A timelocked call that returned has an announcement of its own: its caller made and authorized the
matching `queue_*` call with the same arguments, at least the delay before; the entry of that call has
not been cancelled or used by another call since, and is used by this one. -/
def Bound (hist : History) (w : World) (ev : Event) : Prop :=
  ∀ auth caller actionId action, ev = .call auth (.timelocked caller actionId action) →
    (invoke auth (.timelocked caller actionId action) w).1 = .ok () →
    ∃ later w₁ auth₁ earlier,
      hist = later ++ (w₁, .call auth₁ (.queue caller action.request)) :: earlier ∧
      auth₁ caller = true ∧ (invokeQueue auth₁ caller action.request w₁).1 = .ok actionId ∧
      w₁.ledger.timestamp + ADMIN_ACTION_DELAY ≤ w.ledger.timestamp ∧
      (OpenAt w (entries w₁).length ∧ ∀ e ∈ later, OpenAt e.1 (entries w₁).length) ∧
      UsedAt (next w ev) (entries w₁).length

/-- What the code does not check: of the announcements that returned the identifier which the call
names, the first one was of this action with these arguments, and the caller authorized it; and it was
not made in the last two days that the clock can show. -/
def Matching (hist : History) (w : World) (ev : Event) : Prop :=
  ∀ auth caller actionId action entry, ev = .call auth (.timelocked caller actionId action) →
    Timelock.Ready auth actionId caller w entry →
    ∃ later w₁ auth₁ earlier,
      hist = later ++ (w₁, .call auth₁ (.queue caller action.request)) :: earlier ∧
      auth₁ caller = true ∧ (invokeQueue auth₁ caller action.request w₁).1 = .ok actionId ∧
      (∀ e ∈ earlier, ¬ Announces e actionId) ∧
      w₁.ledger.timestamp + ADMIN_ACTION_DELAY ≤ u64Max

section Runs

variable {ledger : Ledger} {hist later earlier : History} {w w₁ w₂ : World} {ev : Event}
  {auth₁ : Auth} {caller : Address} {request : AdminRequest} {actionId : Nat}

/-- A computation that returned, with the state it ended in. -/
theorem eq_of_fst_ok {α : Type} {x : G α} {a : α} (h : (x w).1 = .ok a) :
    x w = (.ok a, (x w).2) := by
  rw [← h]

/-- The step of an announcement that returned. -/
theorem invokeQueue_of_step (hs : Step w₁ (.call auth₁ (.queue caller request)) w₂)
    (hq : (invokeQueue auth₁ caller request w₁).1 = .ok actionId) :
    invokeQueue auth₁ caller request w₁ = (.ok actionId, w₂) := by
  have h := eq_of_fst_ok hq
  have hv : invoke auth₁ (.queue caller request) w₁ = (.ok (), _) := Tx.void_ok.mpr ⟨actionId, h⟩
  rw [hs.2, next, Tx.exec_of_ok hv]
  exact h

/-- The first announcement that returned an identifier is the first one with it in every later
list. -/
theorem no_entry_before (ht : Trace Step (World.deployed ledger) earlier w₁) (hg : Grows w₁ w)
    (hfirst : ∀ e ∈ earlier, ¬ Announces e actionId) (m : Nat) (a : AdminTimelockEntry)
    (hm : m < (entries w₁).length) (ha : (entries w)[m]? = some a) : a.id ≠ actionId := by
  have hann : AnnouncedIn earlier w₁ :=
    ht.invariant (announcedIn_start ledger) fun _ _ _ _ hI hs => announcedIn_step hI hs
  have h0 := List.getElem?_eq_getElem hm
  obtain ⟨a', ha', hl⟩ := hg.1 m _ h0
  rw [ha] at ha'
  cases ha'
  obtain ⟨e, he, hid⟩ := hann m _ h0
  rw [hl.id]
  exact fun heq => hfirst e he (heq ▸ hid)

/-- One timelocked call: an announcement of its own action binds it. -/
theorem bound_of_matching (ht : Trace Step (World.deployed ledger) hist w)
    (hm : Matching hist w ev) : Bound hist w ev := by
  rintro auth caller actionId action rfl hret
  have hcall := eq_of_fst_ok hret
  obtain ⟨-, entry, hready, -⟩ := invokeTimelocked_ok hcall
  obtain ⟨later, w₁, auth₁, earlier, rfl, hauth, hq, hfirst, hclock⟩ :=
    hm auth caller actionId action entry rfl hready
  refine ⟨later, w₁, auth₁, earlier, rfl, hauth, hq, ?_⟩
  obtain ⟨ht₁, w₂, hs, ht₂⟩ := ht.split
  have hgrow : ∀ a i b, Step a i b → Grows a b := fun _ _ _ h => step_grows h
  obtain ⟨hafter, hlater⟩ := ht₂.after hgrow
  have hbefore := ht₂.before hgrow
  -- the new entry stands at the end of the list, and stays there
  have hnew : (entries w₂)[(entries w₁).length]? =
      some (newEntry w₁ caller action.request actionId) := by
    rw [invokeQueue_entries (invokeQueue_of_step hs hq)]
    simp
  obtain ⟨e, he, hle⟩ := hafter.1 _ _ hnew
  have hno := no_entry_before ht₁ (trans_of Grows (step_grows hs) hafter) hfirst
  have hentry : entry = e := Option.some.inj (hready.first.symm.trans (Registry.first_eq_of_getElem? he hle.id hno))
  subst hentry
  refine ⟨?_, ⟨⟨entry, he, hready.executed, hready.cancelled⟩, ?_⟩, ?_⟩
  · have hdue := hready.due
    rw [hle.available] at hdue
    simp only [newEntry, u64Add] at hdue
    omega
  · intro s hs'
    obtain ⟨e₁, he₁, -⟩ := (hlater s hs').1 _ _ hnew
    obtain ⟨e₂, he₂, hl₂⟩ := (hbefore s hs').1 _ _ he₁
    rw [he] at he₂
    cases he₂
    exact ⟨e₁, he₁, hl₂.executed hready.executed, hl₂.cancelled hready.cancelled⟩
  · refine ⟨{ entry with executed := true }, ?_, rfl⟩
    rw [next, Tx.exec_of_ok hcall, timelocked_entries hcall]
    exact Registry.updateFirst_getElem? he hle.id hno

/-- In every run in which each timelocked call that finds an announcement finds one of its own action
with its own arguments, every timelocked call is bound by an announcement. -/
theorem timelock_binds_of_matching (h : Trace Step (World.deployed ledger) hist w)
    (hm : Trace.Every Matching hist) : Trace.Every Bound hist :=
  h.every_imp .nil (fun _ _ _ _ ht hs => ht.snoc hs) (fun _ _ _ _ ht _ hc => bound_of_matching ht hc) hm

end Runs

namespace Sample

def asset : Asset := ⟨[88], none⟩

/-- The timelock is enforced; the administrator announces a guardian and installs it two days later. -/
def guardianRun : List Event :=
  [callBy admin initializeCall, callBy admin (.initializeTimelock admin 3600 86400 guardian),
    callBy admin (.enforceAdminTimelock admin), callBy admin (.queue admin (.setGuardian team)),
    atTime 172800, callBy admin (.timelocked admin 1 (.setGuardian team))]

/-- The same, but what was announced is a balance of the treasury. -/
def assetRun : List Event :=
  [callBy admin initializeCall, callBy admin (.initializeTimelock admin 3600 86400 guardian),
    callBy admin (.enforceAdminTimelock admin), callBy admin (.queue admin (.setTreasuryAsset asset 5)),
    atTime 172800, callBy admin (.timelocked admin 1 (.setGuardian mallory))]

/-- The guardian that is set is the one that was announced. -/
theorem announced_guardian_bound :
    Trace.Every Bound (Reaches.visited next (World.deployed ⟨0, 0⟩) guardianRun).reverse := by
  refine timelock_binds_of_matching (Trace.of_along (by decide +kernel)) ⟨?_, ?_, ?_, ?_, ?_, ?_, trivial⟩
  · rintro auth caller actionId action entry he -
    cases he
    refine ⟨[(_, _)], deployedRun (guardianRun.take 3), _,
      (Reaches.visited next (World.deployed ⟨0, 0⟩) (guardianRun.take 3)).reverse, rfl, rfl, rfl, ?_,
      by decide +kernel⟩
    rintro e he ⟨auth, caller, request, hcall, -⟩
    have hev := Reaches.mem_of_mem_visited (List.mem_reverse.mp he)
    rw [hcall] at hev
    simp [guardianRun, callBy, initializeCall] at hev
  all_goals
    intro auth caller actionId action entry he
    cases he

/-- With the timelock enforced, an announcement of a balance of the treasury is spent on another
guardian. -/
theorem announced_asset_spent_on_guardian :
    ((deployedRun assetRun).store.core.enforceAdminTimelock = true ∧
      (deployedRun assetRun).store.core.guardian = some mallory) ∧
    ¬ Trace.Every Bound (Reaches.visited next (World.deployed ⟨0, 0⟩) assetRun).reverse := by
  refine ⟨by decide +kernel, fun h => ?_⟩
  obtain ⟨later, w₁, auth₁, earlier, hl, -⟩ := h.1 _ admin 1 (.setGuardian mallory) rfl rfl
  have hm : (w₁, .call auth₁ (.queue admin (.setGuardian mallory))) ∈
      Reaches.visited next (World.deployed ⟨0, 0⟩) (assetRun.take 5) := by
    rw [← List.mem_reverse]
    exact (show (Reaches.visited next (World.deployed ⟨0, 0⟩) (assetRun.take 5)).reverse = _ from hl) ▸
      List.mem_append_right _ (List.mem_cons_self ..)
  simp [assetRun, Reaches.visited, callBy, initializeCall, atTime] at hm

end Sample

end CallStake.Governance
