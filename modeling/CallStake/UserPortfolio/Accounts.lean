import CallStake.UserPortfolio.Indexes

/-!
# The invariants of the positions

What the documentation of the contract asks of its positions, in every run from the deployment.

* `openings`, `closedAmount`, `realized`: what the accepted calls in the journal say of an id. `Account`: the position
  agrees with them.
* `Invariants`: the lists, the indexes and the accounts. `positions_kept`: they hold in every state that is reached,
  and a closed position stays as it is.
-/

namespace CallStake.UserPortfolio

open Tx

/-! ## The journal -/

/-- By whom and with how much the entry opens the position. -/
def Entry.opening (id : Nat) : Entry → Option (Address × Int)
  | .opened user i amount => if i = id then some (user, amount) else none
  | .closed .. | .closedByKeeper .. | .partiallyClosed .. | .soldFifo .. => none

/-- What the entry takes out of the position. -/
def Entry.closedAmount (id : Nat) : Entry → Int
  | .partiallyClosed _ i closeAmount _ => if i = id then closeAmount else 0
  | .opened .. | .closed .. | .closedByKeeper .. | .soldFifo .. => 0

/-- The P&L that the entry realizes for the position. -/
def Entry.realized (id : Nat) : Entry → Int
  | .closed _ i realizedPnl => if i = id then realizedPnl else 0
  | .partiallyClosed _ i _ realizedPnlDelta => if i = id then realizedPnlDelta else 0
  | .opened .. | .closedByKeeper .. | .soldFifo .. => 0

/-- The accepted openings of an id. -/
def openings (j : List Entry) (id : Nat) : List (Address × Int) := j.filterMap (Entry.opening id)

/-- What was closed in part of an id. -/
def closedAmount (j : List Entry) (id : Nat) : Int := (j.map (Entry.closedAmount id)).sum

/-- The P&L that was passed for an id. -/
def realized (j : List Entry) (id : Nat) : Int := (j.map (Entry.realized id)).sum

/-- The position of a user, against the accepted calls about its id. -/
structure Account (j : List Entry) (u : Address) (id : Nat) (pos : Position) : Prop where
  amount : ∃ a, openings j id = [(u, a)] ∧ pos.amount = a - closedAmount j id
  nonneg : 0 ≤ pos.amount
  realized : pos.realizedPnl = realized j id

/-- What holds in every state that is reached, the accounts against the calls that were accepted until then. -/
structure Invariants (w : World) : Prop where
  opened : ∀ id, openings w.journal id ≠ [] → id ∈ w.store.book.positions.keys
  owner : ∀ id ∈ w.store.book.positions.keys, ∃ u, (w.store.book.ids u).count id = 1 ∧
    ∀ v, v ≠ u → id ∉ w.store.book.ids v
  opens : ∀ u l, w.store.book.userOpenPositions.lookup u = some l → w.store.book.Lists u .open l
  closeds : ∀ u l, w.store.book.userClosedPositions.lookup u = some l → w.store.book.Lists u .closed l
  settled : ∀ id pos, w.store.book.positions.lookup id = some pos → pos.status ≠ .closing
  accounts : ∀ u, ∀ id ∈ w.store.book.ids u, ∀ pos, w.store.book.positions.lookup id = some pos →
    Account w.journal u id pos

/-! ## What the moves keep -/

/-- Every position is in a list, and an id without a position has no history. -/
structure Accounted (w : World) : Prop where
  listed : ∀ id pos, w.store.book.positions.lookup id = some pos → ∃ u, id ∈ w.store.book.ids u
  unborn : ∀ id, w.store.book.positions.lookup id = none →
    openings w.journal id = [] ∧ closedAmount w.journal id = 0 ∧ realized w.journal id = 0
  accounts : ∀ u, ∀ id ∈ w.store.book.ids u, ∀ pos, w.store.book.positions.lookup id = some pos →
    Account w.journal u id pos

/-- A missing index would be empty. -/
structure Modern (b : Book) : Prop where
  opens : ∀ u, b.userOpenPositions.lookup u = none → b.ids u = []
  closeds : ∀ u, b.userClosedPositions.lookup u = none → ∀ id, ¬ b.Has u .closed id

section Journal

variable {j : List Entry} {e : Entry} {id : Nat}

theorem openings_cons : openings (e :: j) id = (e.opening id).toList ++ openings j id := by
  unfold openings
  rw [List.filterMap_cons]
  cases e.opening id <;> rfl

theorem closedAmount_cons : closedAmount (e :: j) id = e.closedAmount id + closedAmount j id := rfl

theorem realized_cons : realized (e :: j) id = e.realized id + realized j id := rfl

/-- An entry that does not touch the id adds nothing to its history. -/
theorem history_cons (hopening : e.opening id = none) (hamount : e.closedAmount id = 0)
    (hrealized : e.realized id = 0) : openings (e :: j) id = openings j id ∧
      closedAmount (e :: j) id = closedAmount j id ∧ realized (e :: j) id = realized j id := by
  rw [openings_cons, hopening, closedAmount_cons, hamount, realized_cons, hrealized, zero_add, zero_add]
  exact ⟨rfl, rfl, rfl⟩

/-- An entry about another position. -/
theorem Account.cons {u : Address} {pos : Position} (h : Account j u id pos) (hopening : e.opening id = none)
    (hamount : e.closedAmount id = 0) (hrealized : e.realized id = 0) : Account (e :: j) u id pos := by
  obtain ⟨hopenings, hclosed, hpnl⟩ := history_cons (j := j) hopening hamount hrealized
  obtain ⟨a, ha, hpos⟩ := h.amount
  exact ⟨⟨a, hopenings.trans ha, hclosed.symm ▸ hpos⟩, h.nonneg, h.realized.trans hpnl.symm⟩

theorem Reduction.entry_opening (r : Reduction) (id : Nat) : r.entry.opening id = none := by
  unfold Reduction.entry
  split <;> rfl

theorem Reduction.entry_other (r : Reduction) (hid : id ≠ r.id) :
    r.entry.closedAmount id = 0 ∧ r.entry.realized id = 0 := by
  have hne : r.id ≠ id := fun h => hid h.symm
  unfold Reduction.entry
  split <;> simp [Entry.closedAmount, Entry.realized, hne]

/-- The position that is reduced, against the longer history. -/
theorem Account.reduced {r : Reduction} {b : Book} {u : Address} (h : Account j u r.id r.pos) (hmeets : r.Meets b) :
    Account (r.entry :: j) u r.id r.after := by
  obtain ⟨a, ha, hpos⟩ := h.amount
  have hrealized := h.realized
  have hnonneg := h.nonneg
  have hfits := hmeets.fits
  have hopenings : openings (r.entry :: j) r.id = [(u, a)] := by
    rw [openings_cons, r.entry_opening, ha]
    rfl
  obtain ⟨user, id, pos, way⟩ := r
  dsimp only at hpos hrealized hnonneg hfits
  cases way with
  | byUser =>
    refine ⟨⟨a, hopenings, ?_⟩, hnonneg, ?_⟩
    · simp [Reduction.after, Way.after, closedAmount_cons, Reduction.entry, Entry.closedAmount, hpos]
    · simp [Reduction.after, Way.after, realized_cons, Reduction.entry, Entry.realized]
      omega
  | byKeeper =>
    refine ⟨⟨a, hopenings, ?_⟩, hnonneg, ?_⟩
    · simp [Reduction.after, Way.after, closedAmount_cons, Reduction.entry, Entry.closedAmount, hpos]
    · simp [Reduction.after, Way.after, realized_cons, Reduction.entry, Entry.realized, hrealized]
  | inPart =>
    refine ⟨⟨a, hopenings, ?_⟩, ?_, ?_⟩
    · simp [Reduction.after, Way.after, closedAmount_cons, Reduction.entry, Entry.closedAmount]
      omega
    · have hle := hfits.1.2
      simp only [Reduction.after, Way.after]
      omega
    · simp [Reduction.after, Way.after, realized_cons, Reduction.entry, Entry.realized]
      omega

end Journal

namespace Accounted

variable {w w' : World} {ev : Event}

theorem unlisted (h : Accounted w) (hsound : Sound w) {id : Nat} (hnext : w.store.book.nextPositionId = some id) :
    w.store.book.positions.lookup id = none := by
  cases hl : w.store.book.positions.lookup id with
  | none => rfl
  | some pos =>
    obtain ⟨u, hu⟩ := h.listed id pos hl
    exact absurd hu (hsound.fresh hnext u)

theorem opened (h : Accounted w) (hsound : Sound w) {o : Opening} (ho : openingOf w ev = some o) :
    Accounted (w.opened o) := by
  obtain ⟨hnext, -, hpositive⟩ := openingOf_spec ho
  have hnone := h.unlisted hsound hnext
  have hlookup : ∀ id, (w.opened o).store.book.positions.lookup id =
      if id = o.id then some o.position else w.store.book.positions.lookup id := fun id => position_opened
  refine ⟨fun id pos hpos => ?_, fun id hid => ?_, fun u id hu pos hpos => ?_⟩
  · rw [hlookup] at hpos
    split at hpos
    · rename_i hid
      exact ⟨o.user, mem_ids_opened.mpr (.inr ⟨rfl, hid⟩)⟩
    · obtain ⟨u, hu⟩ := h.listed id pos hpos
      exact ⟨u, mem_ids_opened.mpr (.inl hu)⟩
  · rw [hlookup] at hid
    split at hid
    · cases hid
    · rename_i hne
      obtain ⟨hopenings, hclosed, hpnl⟩ := history_cons (e := .opened o.user o.id o.amount) (j := w.journal)
        (if_neg fun heq => hne heq.symm) rfl rfl
      obtain ⟨hopenings', hclosed', hpnl'⟩ := h.unborn id hid
      exact ⟨hopenings.trans hopenings', hclosed.trans hclosed', hpnl.trans hpnl'⟩
  · rw [hlookup] at hpos
    rcases mem_ids_opened.mp hu with hu | ⟨rfl, rfl⟩
    · have hne : id ≠ o.id := fun heq => hsound.fresh hnext u (heq ▸ hu)
      rw [if_neg hne] at hpos
      exact (h.accounts u id hu pos hpos).cons (if_neg fun heq => hne heq.symm) rfl rfl
    · obtain ⟨hopenings, hclosed, hrealized⟩ := h.unborn o.id hnone
      rw [if_pos rfl, Option.some_inj] at hpos
      subst hpos
      refine ⟨⟨o.amount, ?_, ?_⟩, hpositive.le, ?_⟩
      · change openings (.opened o.user o.id o.amount :: w.journal) o.id = _
        rw [openings_cons, Entry.opening, if_pos rfl, hopenings]
        rfl
      · change o.amount = o.amount - (0 + closedAmount w.journal o.id)
        omega
      · change 0 = 0 + realized w.journal o.id
        omega

theorem reduced (h : Accounted w) {r : Reduction} (hr : reductionOf w ev = some r) : Accounted (w.reduced r) := by
  have hmeets := reductionOf_spec hr
  have hlookup : ∀ id, (w.reduced r).store.book.positions.lookup id =
      if id = r.id then some r.after else w.store.book.positions.lookup id := fun id => position_reduced
  have hids : ∀ u, (w.reduced r).store.book.ids u = w.store.book.ids u := fun u => ids_reduced
  refine ⟨fun id pos hpos => ?_, fun id hid => ?_, fun u id hu pos hpos => ?_⟩
  · simp only [hids]
    rw [hlookup] at hpos
    split at hpos
    · rename_i hid
      exact ⟨r.user, hid ▸ hmeets.listed⟩
    · exact h.listed id pos hpos
  · rw [hlookup] at hid
    split at hid
    · cases hid
    · rename_i hne
      obtain ⟨hopenings, hclosed, hrealized⟩ := h.unborn id hid
      obtain ⟨hamount, hpnl⟩ := r.entry_other hne
      change openings (r.entry :: w.journal) id = [] ∧ closedAmount (r.entry :: w.journal) id = 0 ∧
        realized (r.entry :: w.journal) id = 0
      rw [openings_cons, r.entry_opening, hopenings, closedAmount_cons, hamount, hclosed, realized_cons, hpnl,
        hrealized]
      exact ⟨rfl, rfl, rfl⟩
  · rw [hids] at hu
    rw [hlookup] at hpos
    split at hpos
    · rename_i hid
      subst hid
      rw [Option.some_inj] at hpos
      subst hpos
      exact (h.accounts u r.id hu r.pos hmeets.stored).reduced hmeets
    · rename_i hne
      obtain ⟨hamount, hpnl⟩ := r.entry_other hne
      exact (h.accounts u id hu pos hpos).cons (r.entry_opening id) hamount hpnl

theorem relisted (h : Accounted w) {b : Book} (hb : Relisted w.store.book b) : Accounted (w.relisted b) := by
  have hids : ∀ u, b.ids u = w.store.book.ids u := fun u => by
    unfold Book.ids
    rw [hb.userPositions]
  refine ⟨fun id pos hpos => ?_, fun id hid => ?_, fun u id hu pos hpos => ?_⟩
  · obtain ⟨u, hu⟩ := h.listed id pos ((congrArg (·.lookup id) hb.positions).symm.trans hpos)
    exact ⟨u, (hids u).symm ▸ hu⟩
  · exact h.unborn id ((congrArg (·.lookup id) hb.positions).symm.trans hid)
  · exact h.accounts u id (hids u ▸ hu) pos ((congrArg (·.lookup id) hb.positions).symm.trans hpos)

/-- Every event keeps the accounts. -/
theorem move (h : Accounted w) (hsound : Sound w) (hmove : Move w ev w') : Accounted w' := by
  cases hmove with
  | opened _ ho => exact h.opened hsound ho
  | reduced _ hr => exact h.reduced hr
  | started => exact ⟨h.listed, h.unborn, h.accounts⟩
  | relisted _ hb => exact h.relisted hb
  | sold user _ pnl =>
    refine ⟨h.listed, fun id hid => ?_, fun u id hu pos hpos => (h.accounts u id hu pos hpos).cons rfl rfl rfl⟩
    obtain ⟨hopenings, hclosed, hpnl⟩ := history_cons (e := .soldFifo user pnl) (j := w.journal) rfl rfl rfl
    obtain ⟨hopenings', hclosed', hpnl'⟩ := h.unborn id hid
    exact ⟨hopenings.trans hopenings', hclosed.trans hclosed', hpnl.trans hpnl'⟩
  | aside => exact ⟨h.listed, h.unborn, h.accounts⟩

end Accounted

namespace Modern

variable {w w' : World} {ev : Event}

/-- Where a missing index would be empty, every event is familiar. -/
theorem familiar (h : Modern w.store.book) : Familiar w ev := by
  have hopen : ∀ u apart, w.store.book.Known w.store.book.userOpenPositions u .open apart := by
    intro u apart
    by_cases hl : w.store.book.userOpenPositions.lookup u = none
    · refine .inr fun id hid => ?_
      rw [h.opens u hl] at hid
      cases hid
    · exact .inl hl
  have hclosed : ∀ u, w.store.book.Known w.store.book.userClosedPositions u .closed none := by
    intro u
    by_cases hl : w.store.book.userClosedPositions.lookup u = none
    · exact .inr fun id hid => absurd (mem_having_status.mp hid) (h.closeds u hl id)
    · exact .inl hl
  exact ⟨fun o _ => hopen o.user none, fun r _ _ => ⟨hopen r.user (some r.id), hclosed r.user⟩⟩

theorem opened (h : Modern w.store.book) (hsound : Sound w) {o : Opening} (ho : openingOf w ev = some o) :
    Modern (w.store.book.opened o) where
  opens u hl := by
    change AList.lookup u (w.store.book.userOpenPositions.insert o.user _) = none at hl
    rw [Store.lookup_insert_eq] at hl
    split at hl
    · cases hl
    · rename_i hu
      rw [ids_opened, if_neg hu, h.opens u hl]
  closeds u hl id := by
    rw [has_opened (hsound.fresh (openingOf_spec ho).1 u)]
    simp [h.closeds u hl id]

theorem reduced (h : Modern w.store.book) (hsound : Sound w) {r : Reduction} (hr : reductionOf w ev = some r) :
    Modern (w.store.book.reduced r) := by
  have hmeets := reductionOf_spec hr
  by_cases hclosed : r.after.status = .closed
  · refine ⟨fun u hl => ?_, fun u hl id => ?_⟩
    · rw [opens_reduced hclosed] at hl
      split at hl
      · cases hl
      · rw [ids_reduced]
        exact h.opens u hl
    · by_cases hnot : r.id ∈ (w.store.book.userClosedPositions.lookup r.user).getD []
      · have hkept : (w.store.book.reduced r).userClosedPositions = w.store.book.userClosedPositions := by
          rw [Book.reduced, if_pos hclosed, Book.marked]
          exact if_pos hnot
        rw [hkept] at hl
        have hu : u ≠ r.user := by
          rintro rfl
          rw [hl] at hnot
          cases hnot
        rw [Exact.has_kept hsound hmeets (.inl hu)]
        exact h.closeds u hl id
      · rw [closeds_reduced hclosed hnot] at hl
        split at hl
        · cases hl
        · rename_i hu
          rw [Exact.has_kept hsound hmeets (.inl hu)]
          exact h.closeds u hl id
  · have hkept := fun u => Exact.has_kept hsound hmeets (u := u) (.inr (r.way.after_status.resolve_left hclosed))
    refine ⟨fun u hl => ?_, fun u hl id => ?_⟩
    · rw [ids_reduced]
      rw [Book.reduced, if_neg hclosed] at hl
      exact h.opens u hl
    · rw [hkept]
      rw [Book.reduced, if_neg hclosed] at hl
      exact h.closeds u hl id

theorem relisted (h : Modern w.store.book) {b : Book} (hb : Relisted w.store.book b) : Modern b where
  opens u hl := by
    have hids : b.ids u = w.store.book.ids u := by
      unfold Book.ids
      rw [hb.userPositions]
    rcases hb.indexes u with heq | heq
    · rw [hids]
      exact h.opens u ((Prod.mk.inj heq).1 ▸ hl)
    · rw [(Prod.mk.inj heq).1] at hl
      cases hl
  closeds u hl id := by
    have hhas : b.Has u .closed id ↔ w.store.book.Has u .closed id := by
      unfold Book.Has Book.ids
      rw [hb.positions, hb.userPositions]
    rcases hb.indexes u with heq | heq
    · rw [hhas]
      exact h.closeds u ((Prod.mk.inj heq).2 ▸ hl) id
    · rw [(Prod.mk.inj heq).2] at hl
      cases hl

theorem move (h : Modern w.store.book) (hsound : Sound w) (hmove : Move w ev w') : Modern w'.store.book := by
  cases hmove with
  | opened _ ho => exact h.opened hsound ho
  | reduced _ hr => exact h.reduced hsound hr
  | started => exact ⟨h.opens, h.closeds⟩
  | relisted _ hb => exact h.relisted hb
  | sold => exact h
  | aside => exact h

end Modern

/-! ## Runs -/

/-- What every event keeps, in a run from the deployment. -/
structure Kept (w : World) : Prop where
  sound : Sound w
  indexes : Exact w.store.book
  modern : Modern w.store.book
  accounted : Accounted w

namespace Kept

variable {w w' : World} {ev : Event}

theorem deployed (ledger : Ledger) : Kept (.deployed ledger) where
  sound := sound_deployed ledger
  indexes := ⟨fun _ _ hl => absurd hl nofun, fun _ _ hl => absurd hl nofun⟩
  modern := ⟨fun _ _ => rfl, fun _ _ _ hhas => absurd hhas.1 List.not_mem_nil⟩
  accounted := ⟨fun _ _ hl => absurd hl nofun, fun _ _ => ⟨rfl, rfl, rfl⟩, fun _ _ hid => absurd hid List.not_mem_nil⟩

theorem step (h : Kept w) (hstep : Step w ev w') : Kept w' := by
  obtain ⟨-, rfl⟩ := hstep
  have hmove := move_next w ev
  exact ⟨h.sound.move hmove, h.indexes.move h.sound h.modern.familiar hmove, h.modern.move h.sound hmove,
    h.accounted.move h.sound hmove⟩

theorem run (h : Kept w) (hrun : Reaches Step w w') : Kept w' := hrun.invariant h fun _ _ _ => Kept.step

theorem invariants (h : Kept w) : Invariants w where
  opened id hopened := by
    by_contra hid
    exact hopened (h.accounted.unborn id (AList.lookup_eq_none.mpr hid)).1
  owner id hid := by
    obtain ⟨pos, hpos⟩ := Option.isSome_iff_exists.mp (AList.lookup_isSome.mpr (AList.mem_keys.mpr hid))
    obtain ⟨u, hu⟩ := h.accounted.listed id pos hpos
    exact ⟨u, List.count_eq_one_of_mem (h.sound.nodup u) hu, fun v hv hmem => hv (h.sound.owner v u id hmem hu)⟩
  opens := h.indexes.opens
  closeds := h.indexes.closeds
  settled id pos hpos := by
    obtain ⟨u, hu⟩ := h.accounted.listed id pos hpos
    obtain ⟨pos', hpos', hstatus⟩ := h.sound.stored u id hu
    cases hpos.symm.trans hpos'
    exact hstatus
  accounts := h.accounted.accounts

/-- An event leaves a closed position as it is. -/
theorem closed_step (h : Kept w) {id : Nat} {pos : Position} (hpos : w.store.book.positions.lookup id = some pos)
    (hclosed : pos.status = .closed) (hstep : Step w ev w') : w'.store.book.positions.lookup id = some pos := by
  obtain ⟨-, rfl⟩ := hstep
  have hmove := move_next w ev
  generalize next w ev = w' at hmove
  cases hmove with
  | opened o ho =>
    have hne : id ≠ o.id := by
      rintro rfl
      rw [h.accounted.unlisted h.sound (openingOf_spec ho).1] at hpos
      cases hpos
    exact position_opened.trans ((if_neg hne).trans hpos)
  | reduced r hr =>
    have hne : id ≠ r.id := by
      rintro rfl
      have hmeets := reductionOf_spec hr
      cases hmeets.stored.symm.trans hpos
      cases hmeets.isOpen.symm.trans hclosed
    exact position_reduced.trans ((if_neg hne).trans hpos)
  | started => exact hpos
  | relisted _ hb => exact (congrArg (·.lookup id) hb.positions).trans hpos
  | sold => exact hpos
  | aside => exact hpos

end Kept

/-- In every run from the deployment the invariants hold, and a closed position stays as it is from then on. -/
theorem positions_kept {ledger : Ledger} {w : World} (hrun : Reaches Step (.deployed ledger) w) :
    Invariants w ∧ ∀ w', Reaches Step w w' → ∀ id pos, w.store.book.positions.lookup id = some pos →
      pos.status = .closed → w'.store.book.positions.lookup id = some pos := by
  have hkept := (Kept.deployed ledger).run hrun
  refine ⟨hkept.invariants, fun w' hrest id pos hpos hclosed => ?_⟩
  have hboth : Kept w' ∧ w'.store.book.positions.lookup id = some pos := by
    refine hrest.invariant (I := fun a => Kept a ∧ a.store.book.positions.lookup id = some pos) ⟨hkept, hpos⟩ ?_
    rintro a ev a' ⟨ha, hsame⟩ hstep
    exact ⟨ha.step hstep, ha.closed_step hsame hclosed hstep⟩
  exact hboth.2

/-! ## Authority -/

/-- Neither `user` nor the trade executor signed the call. -/
def Unsigned (user : Address) (w : World) : Event → Prop
  | .call auth _ => auth user = false ∧ ∀ executor ∈ w.store.config.tradeExecutor, auth executor = false
  | .advance _ => True

instance (user : Address) (w : World) : (ev : Event) → Decidable (Unsigned user w ev)
  | .call .. => inferInstanceAs (Decidable (_ ∧ _))
  | .advance _ => inferInstanceAs (Decidable True)

/-- The user has the same positions, and each is as it was. -/
structure SamePositions (user : Address) (w w' : World) : Prop where
  ids : w'.store.book.ids user = w.store.book.ids user
  positions (id : Nat) : id ∈ w.store.book.ids user →
    w'.store.book.positions.lookup id = w.store.book.positions.lookup id

section Authority

variable {w w' : World} {ev : Event} {user : Address}

theorem ne_of_opening {o : Opening} (h : openingOf w ev = some o) (hev : Unsigned user w ev) : user ≠ o.user := by
  rintro rfl
  cases ev with
  | advance => cases h
  | call _ c =>
    cases c with
    | openPosition =>
      rw [openingOf] at h
      split at h
      · rename_i hadmits
        obtain ⟨id, -, rfl⟩ := Option.map_eq_some_iff.mp h
        exact Bool.false_ne_true (hev.1.symm.trans hadmits.1)
      · cases h
    | openPositionWithCapCheck =>
      rw [openingOf] at h
      split at h
      · rename_i hadmits
        obtain ⟨id, -, rfl⟩ := Option.map_eq_some_iff.mp h
        exact Bool.false_ne_true (hev.1.symm.trans hadmits.1.1)
      · cases h
    | _ => cases h

theorem ne_of_reduction {r : Reduction} (h : reductionOf w ev = some r) (hev : Unsigned user w ev) :
    user ≠ r.user := by
  have huser {a : Address} {id : Nat} {way : Way} (h : w.store.book.reduction a id way = some r) : r.user = a := by
    obtain ⟨pos, -, -, rfl⟩ := reduction_eq_some.mp h
    rfl
  rintro rfl
  cases ev with
  | advance => cases h
  | call _ c =>
    cases c with
    | closePosition | closePositionPartial =>
      rw [reductionOf] at h
      split at h
      · rename_i hauth
        exact Bool.false_ne_true (hev.1.symm.trans (huser h ▸ hauth))
      · cases h
    | closePositionKeeper caller =>
      rw [reductionOf] at h
      split at h
      · rename_i hauth
        exact Bool.false_ne_true ((hev.2 caller hauth.2).symm.trans hauth.1)
      · cases h
    | _ => cases h

theorem samePositions_step (h : Sound w) (hev : Unsigned user w ev) (hstep : Step w ev w') :
    SamePositions user w w' := by
  obtain ⟨-, rfl⟩ := hstep
  have hmove := move_next w ev
  generalize next w ev = w' at hmove
  cases hmove with
  | opened _ ho =>
    refine ⟨ids_opened.trans (if_neg (ne_of_opening ho hev)), fun id hid => position_opened.trans (if_neg ?_)⟩
    rintro rfl
    exact h.fresh (openingOf_spec ho).1 user hid
  | reduced r hr =>
    refine ⟨ids_reduced, fun id hid => position_reduced.trans (if_neg ?_)⟩
    rintro rfl
    exact ne_of_reduction hr hev (h.owner user r.user r.id hid (reductionOf_spec hr).listed)
  | relisted _ hb =>
    refine ⟨?_, fun id _ => congrArg (·.lookup id) hb.positions⟩
    exact congrArg (fun s : Store Address (List Nat) => (s.lookup user).getD []) hb.userPositions
  | started | sold | aside => exact ⟨rfl, fun _ _ => rfl⟩

/-- From any state on, as long as neither a user nor the trade executor of the time signs a call, the user has the
same positions, and none of them changes. -/
theorem positions_of_unsigned {ledger : Ledger} (hrun : Reaches Step (.deployed ledger) w)
    (hrest : Reaches (fun a ev b => Unsigned user a ev ∧ Step a ev b) w w') : SamePositions user w w' := by
  have hsound := ((Kept.deployed ledger).run hrun).sound
  refine (hrest.invariant (I := fun a => Sound a ∧ SamePositions user w a) ⟨hsound, rfl, fun _ _ => rfl⟩ ?_).2
  rintro a ev b ⟨ha, hsame⟩ ⟨hev, hstep⟩
  have hb := samePositions_step ha hev hstep
  obtain ⟨-, rfl⟩ := hstep
  refine ⟨ha.move (move_next a ev), hb.ids.trans hsame.ids, fun id hid => ?_⟩
  exact (hb.positions id (hsame.ids ▸ hid)).trans (hsame.positions id hid)

end Authority

namespace Sample

def trader : Address := ⟨7⟩
def manager : Address := ⟨8⟩

/-- Two positions: the first one is sold in three parts, and the second one by the keeper. -/
def tradingRun : List Event := [
  .call (· = manager) (.initializePortfolio manager ⟨9⟩),
  .call (· = manager) (.configure (.setTradeExecutor manager)),
  .call (· = trader) (.openPosition trader 100 50),
  .call (· = trader) (.openPositionWithCapCheck trader 1 200 30),
  .call (· = trader) (.closePositionPartial trader 1 20 5),
  .call (· = trader) (.closePositionPartial trader 1 10 (-2)),
  .call (· = manager) (.closePositionKeeper manager trader 2 0),
  .call (· = trader) (.closePosition trader 1 4 110 0)]

/-- Opening, closing in parts and closing in full keep the books. -/
theorem trading_kept : Invariants (tradingRun.foldl next (.deployed ⟨1000, 10⟩)) :=
  (positions_kept (Reaches.of_along (by decide +kernel))).1

/-- Another user trades, and tries to close the position of the trader. -/
def strangers : List Event :=
  [.call (· = ⟨6⟩) (.openPosition ⟨6⟩ 100 10), .call (· = ⟨6⟩) (.closePosition trader 1 0 1 0),
    .call (· = ⟨6⟩) (.closePositionKeeper ⟨6⟩ trader 2 0), .call (· = ⟨6⟩) (.closePosition ⟨6⟩ 3 5 105 0)]

/-- The positions of the trader are as they were. -/
theorem trader_undisturbed : SamePositions trader ((tradingRun.take 5).foldl next (.deployed ⟨1000, 10⟩))
    (strangers.foldl next ((tradingRun.take 5).foldl next (.deployed ⟨1000, 10⟩))) :=
  positions_of_unsigned (Reaches.of_along (by decide +kernel)) (Reaches.of_along_and (by decide +kernel))

end Sample

end CallStake.UserPortfolio
