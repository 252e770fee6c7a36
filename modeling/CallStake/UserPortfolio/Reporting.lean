import CallStake.UserPortfolio.Accounts
import Mathlib.Algebra.Order.Group.Abs

/-!
# What is reported of the realized P&L

The answer of `getPnl` and the tax events, against the P&L that was passed to the closes.

* `closePnl`, `fifoPnl`: what the journal says of a user. `Reported`: the answer, the tax events and the amounts in
  them agree with it.
* `foldl_addIfFits`: a sum that leaves out what would overflow leaves out nothing where all sums are in range.
* `Sums`: what every event keeps. `Taxes`: what those keep that are `Whole`, so that nothing is realized on a position
  that stays open, and a position is closed at once.
* `pnl_reported`: runs of such events.
-/

namespace CallStake.UserPortfolio

open Tx List

/-! ## The property -/

/-- The P&L that the entry realizes on a position of the user. -/
def Entry.closePnl (u : Address) : Entry → Int
  | .closed v _ realizedPnl => if v = u then realizedPnl else 0
  | .partiallyClosed v _ _ realizedPnlDelta => if v = u then realizedPnlDelta else 0
  | .opened .. | .closedByKeeper .. | .soldFifo .. => 0

/-- The P&L that the entry realizes on lots of the user. -/
def Entry.fifoPnl (u : Address) : Entry → Int
  | .soldFifo v pnl => if v = u then pnl else 0
  | .opened .. | .closed .. | .closedByKeeper .. | .partiallyClosed .. => 0

def sumOf (f : Entry → Int) (j : List Entry) : Int := (j.map f).sum

/-- All sums of the P&L of the user are in range. -/
def Moderate (j : List Entry) (u : Address) : Prop :=
  sumOf (fun e => |e.closePnl u| + |e.fifoPnl u|) j ≤ i128Max
  deriving Decidable

/-- The amounts in the tax events of a position. -/
def Records.taxAmount (r : Records) (u : Address) (id : Nat) : Int :=
  (((r.taxEvents u).filter (·.positionId = id)).map (·.amount)).sum

/-- The reports have all that was realized. -/
structure Reported (w : World) (u : Address) : Prop where
  pnl : Moderate w.journal u → ∀ price, ∃ s, (getPnl price u w).1 = .ok s ∧
    s.realizedPnl = sumOf (Entry.closePnl u) w.journal + sumOf (Entry.fifoPnl u) w.journal
  taxes : ((w.store.records.taxEvents u).map (·.realizedPnl)).sum = sumOf (Entry.closePnl u) w.journal
  amounts : ∀ id ∈ w.store.book.ids u, ∀ pos, w.store.book.positions.lookup id = some pos → pos.status = .closed →
    ∃ a, openings w.journal id = [(u, a)] ∧ w.store.records.taxAmount u id = a

/-- A part is closed without P&L and leaves something, and a close is of the amount that was opened. -/
def Reduction.Whole (j : List Entry) (r : Reduction) : Prop :=
  match r.way with
  | .byUser .. | .byKeeper _ => closedAmount j r.id = 0
  | .inPart closeAmount realizedPnlDelta => closeAmount < r.pos.amount ∧ realizedPnlDelta = 0

instance (j : List Entry) : (r : Reduction) → Decidable (r.Whole j)
  | ⟨_, _, _, .byUser ..⟩ | ⟨_, _, _, .byKeeper _⟩ => inferInstanceAs (Decidable (_ = _))
  | ⟨_, _, _, .inPart ..⟩ => inferInstanceAs (Decidable (_ ∧ _))

/-- What the step closes was whole before. -/
def Whole (w : World) (ev : Event) : Prop := ∀ r ∈ reductionOf w ev, r.Whole w.journal

instance (w : World) (ev : Event) : Decidable (Whole w ev) := inferInstanceAs (Decidable (∀ _ ∈ _, _))

/-! ## Sums -/

/-- Nothing is left out where the absolute values stay in range. -/
theorem foldl_addIfFits {α : Type} {f : α → Int} {step : Int → α → Int}
    (hstep : ∀ s x, InRange (s + f x) → step s x = s + f x) (l : List α) (s : Int)
    (h : |s| + (l.map fun x => |f x|).sum ≤ i128Max) : l.foldl step s = s + (l.map f).sum := by
  induction l generalizing s with
  | nil => simp
  | cons x l ih =>
    have hrest : 0 ≤ (l.map fun x => |f x|).sum := sum_nonneg fun y hy => by
      obtain ⟨z, -, rfl⟩ := List.mem_map.mp hy
      exact abs_nonneg _
    rw [map_cons, sum_cons] at h
    have hadd := abs_add_le s (f x)
    have hle : |s + f x| ≤ i128Max := by omega
    have hrange : InRange (s + f x) := by
      obtain ⟨h1, h2⟩ := abs_le.mp hle
      exact ⟨le_trans (by decide) h1, h2⟩
    rw [foldl_cons, hstep s x hrange, ih (s + f x) (by omega), map_cons, sum_cons]
    omega

theorem addIfFits_eq {s x : Int} (h : InRange (s + x)) : addIfFits s x = s + x := checkedAdd_getD h.1 h.2 s

theorem sumOf_cons (f : Entry → Int) (e : Entry) (j : List Entry) : sumOf f (e :: j) = f e + sumOf f j := rfl

/-- The P&L of a position that is not open. -/
def Position.reportedPnl (pos : Position) : Int := if pos.status = .open then 0 else pos.realizedPnl

theorem realizedOf_eq {positions : List Position}
    (h : (positions.map fun pos => |pos.reportedPnl|).sum ≤ i128Max) :
    realizedOf positions = (positions.map Position.reportedPnl).sum := by
  unfold realizedOf
  rw [foldl_addIfFits (f := Position.reportedPnl) ?_ positions 0 (by simpa using h), zero_add]
  intro s pos hrange
  unfold Position.reportedPnl at hrange ⊢
  split
  · omega
  · rename_i hstatus
    rw [if_neg hstatus] at hrange
    exact addIfFits_eq hrange

/-! ## What every event keeps -/

def Book.realizedAt (b : Book) (id : Nat) : Int := (b.positions.lookup id).elim 0 Position.realizedPnl

/-- Realized values sum to what was passed to the closes. -/
structure Sums (w : World) : Prop where
  oracle : w.store.config.initialized = true → w.store.config.oracle.isSome = true
  total : ∀ u, ((w.store.book.ids u).map w.store.book.realizedAt).sum = sumOf (Entry.closePnl u) w.journal
  magnitude : ∀ u, ((w.store.book.ids u).map fun id => |w.store.book.realizedAt id|).sum ≤
    sumOf (fun e => |e.closePnl u|) w.journal
  fifo : ∀ u, Moderate w.journal u → (w.store.fifo.realizedPnl.lookup u).getD 0 = sumOf (Entry.fifoPnl u) w.journal

/-- The P&L of a way. -/
def Way.pnl : Way → Int
  | .byUser realizedPnl _ _ => realizedPnl
  | .byKeeper _ => 0
  | .inPart _ realizedPnlDelta => realizedPnlDelta

theorem Way.after_realizedPnl (pos : Position) (way : Way) :
    (way.after pos).realizedPnl = pos.realizedPnl + way.pnl := by
  cases way with
  | byKeeper => exact (Int.add_zero _).symm
  | _ => rfl

theorem Reduction.entry_closePnl (r : Reduction) (u : Address) :
    r.entry.closePnl u = if r.user = u then r.way.pnl else 0 := by
  unfold Reduction.entry
  cases r.way with
  | byKeeper => exact (ite_self 0).symm
  | _ => rfl

theorem Reduction.entry_fifoPnl (r : Reduction) (u : Address) : r.entry.fifoPnl u = 0 := by
  unfold Reduction.entry
  split <;> rfl

section Totals

variable {w w' : World} {ev : Event} {u : Address} {g : Int → Int}

theorem realizedAt_opened {o : Opening} {id : Nat} : (w.store.book.opened o).realizedAt id =
    if id = o.id then 0 else w.store.book.realizedAt id := by
  unfold Book.realizedAt
  rw [position_opened]
  split <;> rfl

theorem realizedAt_reduced {r : Reduction} {id : Nat} : (w.store.book.reduced r).realizedAt id =
    if id = r.id then r.pos.realizedPnl + r.way.pnl else w.store.book.realizedAt id := by
  unfold Book.realizedAt
  rw [position_reduced]
  split
  · exact Way.after_realizedPnl r.pos r.way
  · rfl

/-- A new position has realized nothing. -/
theorem total_opened (hsound : Sound w) {o : Opening} (ho : openingOf w ev = some o) (hg : g 0 = 0) :
    (((w.store.book.opened o).ids u).map fun id => g ((w.store.book.opened o).realizedAt id)).sum =
      ((w.store.book.ids u).map fun id => g (w.store.book.realizedAt id)).sum := by
  have hold : ∀ id ∈ w.store.book.ids u,
      g ((w.store.book.opened o).realizedAt id) = g (w.store.book.realizedAt id) := by
    intro id hid
    have hne : id ≠ o.id := fun heq => hsound.fresh (openingOf_spec ho).1 u (heq ▸ hid)
    rw [realizedAt_opened, if_neg hne]
  have hnew : g ((w.store.book.opened o).realizedAt o.id) = 0 := by rw [realizedAt_opened, if_pos rfl, hg]
  rw [ids_opened]
  split
  · rw [map_append, sum_append, map_congr_left hold, map_singleton, sum_singleton, hnew, add_zero]
  · rw [map_congr_left hold]

/-- A reduction changes what the position has realized, for its user. -/
theorem total_reduced (hsound : Sound w) {r : Reduction} (hmeets : r.Meets w.store.book) :
    (((w.store.book.reduced r).ids u).map fun id => g ((w.store.book.reduced r).realizedAt id)).sum =
      ((w.store.book.ids u).map fun id => g (w.store.book.realizedAt id)).sum +
        if r.user = u then g (r.pos.realizedPnl + r.way.pnl) - g r.pos.realizedPnl else 0 := by
  have hbefore : w.store.book.realizedAt r.id = r.pos.realizedPnl := by
    unfold Book.realizedAt
    rw [hmeets.stored]
    rfl
  have hothers : ∀ id ∈ w.store.book.ids u, id ≠ r.id →
      g ((w.store.book.reduced r).realizedAt id) = g (w.store.book.realizedAt id) := by
    intro id _ hne
    rw [realizedAt_reduced, if_neg hne]
  rw [ids_reduced]
  by_cases hu : r.user = u
  · subst hu
    rw [sum_map_update (hsound.nodup r.user) hmeets.listed hothers, hbefore, realizedAt_reduced, if_pos rfl,
      if_pos rfl]
    omega
  · rw [if_neg hu, add_zero]
    refine congrArg List.sum (map_congr_left fun id hid => hothers id hid ?_)
    rintro rfl
    exact hu (hsound.owner r.user u r.id hmeets.listed hid)

end Totals

theorem sumOf_nonneg {f : Entry → Int} (hf : ∀ e, 0 ≤ f e) (j : List Entry) : 0 ≤ sumOf f j :=
  sum_nonneg fun x hx => by
    obtain ⟨e, -, rfl⟩ := List.mem_map.mp hx
    exact hf e

theorem abs_sumOf_le (f : Entry → Int) (j : List Entry) : |sumOf f j| ≤ sumOf (fun e => |f e|) j := by
  induction j with
  | nil => exact le_refl 0
  | cons e j ih =>
    rw [sumOf_cons, sumOf_cons]
    have hadd := abs_add_le (f e) (sumOf f j)
    omega

theorem sumOf_add (f g : Entry → Int) (j : List Entry) : sumOf (fun e => f e + g e) j = sumOf f j + sumOf g j := by
  induction j with
  | nil => rfl
  | cons e j ih =>
    rw [sumOf_cons, sumOf_cons, sumOf_cons, ih]
    omega

/-- The P&L of the closes, and that of the lots. -/
theorem Moderate.sums {j : List Entry} {u : Address} (h : Moderate j u) :
    sumOf (fun e => |e.closePnl u|) j + sumOf (fun e => |e.fifoPnl u|) j ≤ i128Max := by
  rw [← sumOf_add]
  exact h

theorem Moderate.tail {j : List Entry} {e : Entry} {u : Address} (h : Moderate (e :: j) u) : Moderate j u := by
  have hcons : |e.closePnl u| + |e.fifoPnl u| + sumOf (fun e => |e.closePnl u| + |e.fifoPnl u|) j ≤ i128Max := h
  have h1 := abs_nonneg (e.closePnl u)
  have h2 := abs_nonneg (e.fifoPnl u)
  unfold Moderate
  omega

theorem inRange_of_abs {x : Int} (h : |x| ≤ i128Max) : InRange x := by
  obtain ⟨h1, h2⟩ := abs_le.mp h
  exact ⟨le_trans (by decide) h1, h2⟩

namespace Sums

variable {w w' : World} {ev : Event}

theorem deployed (ledger : Ledger) : Sums (.deployed ledger) where
  oracle hinit := nomatch hinit
  total _ := rfl
  magnitude _ := le_refl 0
  fifo _ _ := rfl

theorem opened (h : Sums w) (hsound : Sound w) {o : Opening} (ho : openingOf w ev = some o) : Sums (w.opened o) where
  oracle := h.oracle
  total u := by
    change _ = 0 + sumOf (Entry.closePnl u) w.journal
    rw [zero_add]
    exact (total_opened (g := id) hsound ho rfl).trans (h.total u)
  magnitude u := by
    change _ ≤ |(0 : Int)| + sumOf (fun e => |e.closePnl u|) w.journal
    rw [abs_zero, zero_add]
    exact (total_opened (g := abs) hsound ho abs_zero).trans_le (h.magnitude u)
  fifo u hmoderate := by
    change _ = 0 + sumOf (Entry.fifoPnl u) w.journal
    rw [zero_add]
    exact h.fifo u hmoderate.tail

theorem reduced (h : Sums w) (hsound : Sound w) {r : Reduction} (hr : reductionOf w ev = some r) :
    Sums (w.reduced r) where
  oracle := h.oracle
  total u := by
    have htotal := total_reduced (u := u) (g := id) hsound (reductionOf_spec hr)
    have hsum := h.total u
    change _ = sumOf (Entry.closePnl u) (r.entry :: w.journal)
    rw [sumOf_cons, r.entry_closePnl]
    refine htotal.trans ?_
    change ((w.store.book.ids u).map w.store.book.realizedAt).sum + _ = _
    rw [hsum]
    simp only [id]
    split <;> omega
  magnitude u := by
    have htotal := total_reduced (u := u) (g := abs) hsound (reductionOf_spec hr)
    have hsum := h.magnitude u
    change _ ≤ sumOf (fun e => |e.closePnl u|) (r.entry :: w.journal)
    rw [sumOf_cons, r.entry_closePnl]
    refine htotal.trans_le ?_
    have hadd := abs_add_le r.pos.realizedPnl r.way.pnl
    split
    · omega
    · rw [abs_zero]
      omega
  fifo u hmoderate := by
    change _ = sumOf (Entry.fifoPnl u) (r.entry :: w.journal)
    rw [sumOf_cons, r.entry_fifoPnl, zero_add]
    exact h.fifo u hmoderate.tail

/-- A sale adds its P&L to the sum. -/
theorem sold (h : Sums w) (user : Address) (lots : Store Address (List CostLot)) (pnl : Int) :
    Sums (w.sold user lots pnl) where
  oracle := h.oracle
  total u := by
    change _ = 0 + sumOf (Entry.closePnl u) w.journal
    rw [zero_add]
    exact h.total u
  magnitude u := by
    change _ ≤ |(0 : Int)| + sumOf (fun e => |e.closePnl u|) w.journal
    rw [abs_zero, zero_add]
    exact h.magnitude u
  fifo u hmoderate := by
    have hold := h.fifo u hmoderate.tail
    change ((w.store.fifo.realizedPnl.insert user _).lookup u).getD 0 =
      (Entry.soldFifo user pnl).fifoPnl u + sumOf (Entry.fifoPnl u) w.journal
    rw [Store.getD_insert]
    by_cases hu : u = user
    · subst hu
      have hmoderate : Moderate (.soldFifo u pnl :: w.journal) u := hmoderate
      have hsums := hmoderate.sums
      have hclose := sumOf_nonneg (f := fun e => |e.closePnl u|) (fun e => abs_nonneg _) (.soldFifo u pnl :: w.journal)
      have habs := abs_sumOf_le (Entry.fifoPnl u) (.soldFifo u pnl :: w.journal)
      have hrange : InRange (pnl + sumOf (Entry.fifoPnl u) w.journal) := by
        have hsum : sumOf (Entry.fifoPnl u) (.soldFifo u pnl :: w.journal) =
            pnl + sumOf (Entry.fifoPnl u) w.journal := by
          rw [sumOf_cons, Entry.fifoPnl, if_pos rfl]
        rw [← hsum]
        exact inRange_of_abs (by omega)
      rw [add_comm] at hrange
      rw [if_pos rfl, hold, saturatingAdd_eq hrange.1 hrange.2, Entry.fifoPnl, if_pos rfl, add_comm]
    · rw [if_neg hu, hold, Entry.fifoPnl, if_neg fun heq => hu heq.symm, zero_add]

theorem relisted (h : Sums w) {b : Book} (hb : Relisted w.store.book b) : Sums (w.relisted b) := by
  have hids : ∀ u, b.ids u = w.store.book.ids u := fun u => by
    unfold Book.ids
    rw [hb.userPositions]
  have hrealized : b.realizedAt = w.store.book.realizedAt := by
    funext id
    unfold Book.realizedAt
    rw [hb.positions]
  refine ⟨h.oracle, fun u => ?_, fun u => ?_, h.fifo⟩
  · change ((b.ids u).map b.realizedAt).sum = _
    rw [hids, hrealized]
    exact h.total u
  · change ((b.ids u).map fun id => |b.realizedAt id|).sum ≤ _
    rw [hids, hrealized]
    exact h.magnitude u

theorem move (h : Sums w) (hsound : Sound w) (hmove : Move w ev w') : Sums w' := by
  cases hmove with
  | opened _ ho => exact h.opened hsound ho
  | reduced _ hr => exact h.reduced hsound hr
  | started => exact ⟨fun _ => rfl, h.total, h.magnitude, h.fifo⟩
  | relisted _ hb => exact h.relisted hb
  | sold user lots pnl => exact h.sold user lots pnl
  | aside _ _ _ _ hconfig =>
    exact ⟨fun hinit => hconfig.oracle (h.oracle (hconfig.initialized ▸ hinit)), h.total, h.magnitude, h.fifo⟩

end Sums

/-! ## The tax events -/

/-- The tax event that a close appends. -/
def Records.newTaxes (rec : Records) (r : Reduction) (now : Nat) : List TaxEvent :=
  match r.way with
  | .byUser realizedPnl exitPrice assetPair => [rec.taxEvent r now exitPrice realizedPnl assetPair]
  | .byKeeper assetPair => [rec.taxEvent r now 0 0 assetPair]
  | .inPart .. => []

theorem taxEvents_taxed (rec : Records) (user u : Address) (e : TaxEvent) :
    (rec.taxed user e).taxEvents u = rec.taxEvents u ++ if u = user then [e] else [] := by
  change ((rec.userTaxEvents.insert user (rec.taxEvents user ++ [e])).lookup u).getD [] = _
  rw [Store.getD_insert]
  split
  · rename_i hu
    rw [hu]
  · exact (append_nil _).symm

theorem taxEvents_streaked (rec : Records) (user u : Address) (pnl : Int) :
    (rec.streaked user pnl).taxEvents u = rec.taxEvents u := by
  unfold Records.streaked
  split <;> rfl

theorem taxEvents_reduced (rec : Records) (r : Reduction) (now : Nat) (u : Address) :
    (rec.reduced r now).taxEvents u = rec.taxEvents u ++ if u = r.user then rec.newTaxes r now else [] := by
  unfold Records.reduced Records.newTaxes
  cases r.way with
  | byUser =>
    dsimp only
    rw [taxEvents_streaked, taxEvents_taxed]
  | byKeeper => exact taxEvents_taxed _ _ _ _
  | inPart => simp

theorem taxEvents_opened (rec : Records) (o : Opening) (now : Nat) (u : Address) :
    (rec.opened o now).taxEvents u = rec.taxEvents u := by
  unfold Records.opened
  split <;> rfl

theorem newTaxes_id (rec : Records) (r : Reduction) (now : Nat) : ∀ e ∈ rec.newTaxes r now, e.positionId = r.id := by
  unfold Records.newTaxes
  cases r.way with
  | inPart => exact fun e he => absurd he not_mem_nil
  | _ =>
    intro e he
    rw [List.mem_singleton.mp he]
    rfl

theorem taxAmount_reduced (rec : Records) (r : Reduction) (now : Nat) (u : Address) (id : Nat) :
    (rec.reduced r now).taxAmount u id = rec.taxAmount u id +
      if u = r.user ∧ id = r.id then ((rec.newTaxes r now).map (·.amount)).sum else 0 := by
  unfold Records.taxAmount
  rw [taxEvents_reduced, filter_append, map_append, sum_append]
  by_cases hu : u = r.user
  · by_cases hid : id = r.id
    · have hall : (rec.newTaxes r now).filter (·.positionId = id) = rec.newTaxes r now :=
        List.filter_eq_self.mpr fun e he => decide_eq_true ((newTaxes_id rec r now e he).trans hid.symm)
      rw [if_pos hu, hall, if_pos ⟨hu, hid⟩]
    · have hnone : (rec.newTaxes r now).filter (·.positionId = id) = [] :=
        List.filter_eq_nil_iff.mpr fun e he hc =>
          hid ((of_decide_eq_true hc).symm.trans (newTaxes_id rec r now e he))
      rw [if_pos hu, hnone, if_neg fun hc => hid hc.2]
      rfl
  · rw [if_neg hu, if_neg fun hc => hu hc.1]
    rfl

/-- A whole close has a tax event with all of the amount, and a part has no P&L and leaves the position open. -/
inductive WholeTaxes (rec : Records) (j : List Entry) (r : Reduction) (now : Nat) : Prop
  | closed (hstatus : r.after.status = .closed) (hfirst : closedAmount j r.id = 0)
    (hrealized : ((rec.newTaxes r now).map (·.realizedPnl)).sum = r.way.pnl)
    (hamount : ((rec.newTaxes r now).map (·.amount)).sum = r.pos.amount)
  | part (hstatus : r.after.status = .open) (hpnl : r.way.pnl = 0) (hnone : rec.newTaxes r now = [])

theorem wholeTaxes {j : List Entry} {r : Reduction} (hwhole : r.Whole j) (rec : Records) (now : Nat) :
    WholeTaxes rec j r now := by
  obtain ⟨user, id, pos, way⟩ := r
  cases way with
  | byUser => exact .closed rfl hwhole (add_zero _) (add_zero _)
  | byKeeper => exact .closed rfl hwhole rfl (add_zero _)
  | inPart closeAmount =>
    have hsome : pos.amount - closeAmount ≠ 0 := by
      have hlt : closeAmount < pos.amount := hwhole.1
      omega
    exact .part (if_neg hsome) hwhole.2 rfl

/-- What those events keep that are whole. -/
structure Taxes (w : World) : Prop where
  realized : ∀ u, ((w.store.records.taxEvents u).map (·.realizedPnl)).sum = sumOf (Entry.closePnl u) w.journal
  unborn : ∀ u id, w.store.book.positions.lookup id = none → w.store.records.taxAmount u id = 0
  opens : ∀ u, ∀ id ∈ w.store.book.ids u, ∀ pos, w.store.book.positions.lookup id = some pos → pos.status = .open →
    pos.realizedPnl = 0 ∧ w.store.records.taxAmount u id = 0
  closeds : ∀ u, ∀ id ∈ w.store.book.ids u, ∀ pos, w.store.book.positions.lookup id = some pos →
    pos.status = .closed → ∃ a, openings w.journal id = [(u, a)] ∧ w.store.records.taxAmount u id = a

namespace Taxes

variable {w w' : World} {ev : Event}

theorem deployed (ledger : Ledger) : Taxes (.deployed ledger) where
  realized _ := rfl
  unborn _ _ _ := rfl
  opens _ _ hid := absurd hid not_mem_nil
  closeds _ _ hid := absurd hid not_mem_nil

theorem opened (h : Taxes w) (hkept : Kept w) {o : Opening} (ho : openingOf w ev = some o) : Taxes (w.opened o) := by
  have hnext := (openingOf_spec ho).1
  have hlookup : ∀ id, (w.opened o).store.book.positions.lookup id =
      if id = o.id then some o.position else w.store.book.positions.lookup id := fun id => position_opened
  have htaxes : ∀ u, (w.opened o).store.records.taxEvents u = w.store.records.taxEvents u := fun u =>
    taxEvents_opened _ o _ u
  have hamount : ∀ u id, (w.opened o).store.records.taxAmount u id = w.store.records.taxAmount u id := by
    intro u id
    unfold Records.taxAmount
    rw [htaxes]
  refine ⟨fun u => ?_, fun u id hid => ?_, fun u id hu pos hpos hopen => ?_, fun u id hu pos hpos hclosed => ?_⟩
  · change _ = 0 + sumOf (Entry.closePnl u) w.journal
    rw [htaxes, zero_add]
    exact h.realized u
  · rw [hamount]
    rw [hlookup] at hid
    split at hid
    · cases hid
    · exact h.unborn u id hid
  · rw [hamount]
    rw [hlookup] at hpos
    rcases mem_ids_opened.mp hu with hu | ⟨rfl, rfl⟩
    · have hne : id ≠ o.id := fun heq => hkept.sound.fresh hnext u (heq ▸ hu)
      rw [if_neg hne] at hpos
      exact h.opens u id hu pos hpos hopen
    · rw [if_pos rfl, Option.some_inj] at hpos
      subst hpos
      exact ⟨rfl, h.unborn _ _ (hkept.accounted.unlisted hkept.sound hnext)⟩
  · rw [hamount]
    rw [hlookup] at hpos
    split at hpos
    · rw [Option.some_inj] at hpos
      subst hpos
      cases hclosed
    · rename_i hne
      have hold := (mem_ids_opened.mp hu).resolve_right fun hnew => hne hnew.2
      obtain ⟨a, ha, hsum⟩ := h.closeds u id hold pos hpos hclosed
      refine ⟨a, ?_, hsum⟩
      have hhistory := history_cons (e := .opened o.user o.id o.amount) (j := w.journal)
        (if_neg fun heq => hne heq.symm) rfl rfl
      exact hhistory.1.trans ha

theorem reduced (h : Taxes w) (hkept : Kept w) {r : Reduction} (hr : reductionOf w ev = some r)
    (hwhole : r.Whole w.journal) : Taxes (w.reduced r) := by
  have hmeets := reductionOf_spec hr
  have hlookup : ∀ id, (w.reduced r).store.book.positions.lookup id =
      if id = r.id then some r.after else w.store.book.positions.lookup id := fun id => position_reduced
  have hids : ∀ u, (w.reduced r).store.book.ids u = w.store.book.ids u := fun u => ids_reduced
  have howner : ∀ u, r.id ∈ w.store.book.ids u → u = r.user := fun u hu =>
    hkept.sound.owner u r.user r.id hu hmeets.listed
  have hamount : ∀ u id, (w.reduced r).store.records.taxAmount u id = w.store.records.taxAmount u id +
      if u = r.user ∧ id = r.id then ((w.store.records.newTaxes r w.ledger.timestamp).map (·.amount)).sum else 0 :=
    fun u id => taxAmount_reduced w.store.records r w.ledger.timestamp u id
  have hopenings : ∀ id, openings (r.entry :: w.journal) id = openings w.journal id := by
    intro id
    rw [openings_cons, r.entry_opening]
    rfl
  obtain ⟨hquiet, hnothing⟩ := h.opens r.user r.id hmeets.listed r.pos hmeets.stored hmeets.isOpen
  have hnew := wholeTaxes hwhole w.store.records w.ledger.timestamp
  refine ⟨fun u => ?_, fun u id hid => ?_, fun u id hu pos hpos hopen => ?_, fun u id hu pos hpos hclosed => ?_⟩
  · have hrealized : ((w.store.records.newTaxes r w.ledger.timestamp).map (·.realizedPnl)).sum = r.way.pnl := by
      cases hnew with
      | closed _ _ hrealized => exact hrealized
      | part _ hpnl hnone => rw [hnone, hpnl]; rfl
    change (((w.store.records.reduced r w.ledger.timestamp).taxEvents u).map (·.realizedPnl)).sum =
      sumOf (Entry.closePnl u) (r.entry :: w.journal)
    rw [taxEvents_reduced, map_append, sum_append, h.realized u, sumOf_cons, r.entry_closePnl]
    by_cases hu : u = r.user
    · rw [if_pos hu, hrealized, if_pos hu.symm, add_comm]
    · rw [if_neg hu, if_neg fun heq => hu heq.symm, zero_add]
      exact add_zero _
  · rw [hlookup] at hid
    split at hid
    · cases hid
    · rename_i hne
      rw [hamount, if_neg fun hc => hne hc.2, h.unborn u id hid, add_zero]
  · rw [hids] at hu
    rw [hlookup] at hpos
    split at hpos
    · rename_i hid
      subst hid
      obtain rfl := howner u hu
      rw [Option.some_inj] at hpos
      subst hpos
      cases hnew with
      | closed hstatus => cases hstatus.symm.trans hopen
      | part _ hpnl hnone =>
        rw [hamount, hnone, hnothing, if_pos ⟨rfl, rfl⟩]
        exact ⟨(Way.after_realizedPnl r.pos r.way).trans (by rw [hquiet, hpnl, add_zero]), rfl⟩
    · rename_i hne
      rw [hamount, if_neg fun hc => hne hc.2, add_zero]
      exact h.opens u id hu pos hpos hopen
  · rw [hids] at hu
    rw [hlookup] at hpos
    split at hpos
    · rename_i hid
      subst hid
      obtain rfl := howner u hu
      rw [Option.some_inj] at hpos
      subst hpos
      cases hnew with
      | part hstatus => cases hstatus.symm.trans hclosed
      | closed _ _ _ hsum =>
        -- nothing was closed before, so the amount is the one of the opening
        obtain ⟨a, ha, hleft⟩ := (hkept.accounted.accounts r.user r.id hu r.pos hmeets.stored).amount
        refine ⟨a, (hopenings r.id).trans ha, ?_⟩
        rw [hamount, if_pos ⟨rfl, rfl⟩, hnothing, hsum]
        omega
    · rename_i hne
      obtain ⟨a, ha, hsum⟩ := h.closeds u id hu pos hpos hclosed
      refine ⟨a, (hopenings id).trans ha, ?_⟩
      rw [hamount, if_neg fun hc => hne hc.2, add_zero]
      exact hsum

theorem relisted (h : Taxes w) {b : Book} (hb : Relisted w.store.book b) : Taxes (w.relisted b) := by
  have hids : ∀ u, b.ids u = w.store.book.ids u := fun u => by
    unfold Book.ids
    rw [hb.userPositions]
  have hlookup : ∀ id, b.positions.lookup id = w.store.book.positions.lookup id := fun id => by rw [hb.positions]
  refine ⟨h.realized, fun u id hid => ?_, fun u id hu pos hpos => ?_, fun u id hu pos hpos => ?_⟩
  · exact h.unborn u id ((hlookup id).symm.trans hid)
  · exact h.opens u id (hids u ▸ hu) pos ((hlookup id).symm.trans hpos)
  · exact h.closeds u id (hids u ▸ hu) pos ((hlookup id).symm.trans hpos)

theorem move (h : Taxes w) (hkept : Kept w) (hwhole : Whole w ev) (hmove : Move w ev w') : Taxes w' := by
  cases hmove with
  | opened _ ho => exact h.opened hkept ho
  | reduced r hr => exact h.reduced hkept hr (hwhole r hr)
  | started => exact ⟨h.realized, h.unborn, h.opens, h.closeds⟩
  | relisted _ hb => exact h.relisted hb
  | sold user _ pnl =>
    refine ⟨fun u => ?_, h.unborn, h.opens, fun u id hu pos hpos hclosed => ?_⟩
    · change _ = 0 + sumOf (Entry.closePnl u) w.journal
      rw [zero_add]
      exact h.realized u
    · obtain ⟨a, ha, hsum⟩ := h.closeds u id hu pos hpos hclosed
      exact ⟨a, (history_cons (e := .soldFifo user pnl) (j := w.journal) rfl rfl rfl).1.trans ha, hsum⟩
  | aside => exact ⟨h.realized, h.unborn, h.opens, h.closeds⟩

end Taxes

/-! ## The answer -/

theorem getPnl_run {w : World} (horacle : w.store.config.oracle.isSome = true) (price : Address → Nat → Option Int)
    (u : Address) : ∃ s, (getPnl price u w).1 = .ok s ∧ s.realizedPnl =
      addIfFits (realizedOf (w.store.book.positionsOf u)) ((w.store.fifo.realizedPnl.lookup u).getD 0) := by
  obtain ⟨oracle, horacle⟩ := Option.isSome_iff_exists.mp horacle
  rcases hr : getPnl price u w with ⟨r, w'⟩
  cases r with
  | ok s =>
    rw [getPnl, bind_gets_ok] at hr
    obtain ⟨o, -, hr⟩ := bind_ofOption_ok.mp hr
    rw [bind_gets_ok, bind_gets_ok, bind_gets_ok] at hr
    obtain ⟨rfl, -⟩ := pure_ok.mp hr
    exact ⟨_, rfl, rfl⟩
  | error e =>
    simp [getPnl, horacle] at hr

theorem sum_positionsOf (b : Book) (u : Address) (f : Position → Int) :
    ((b.positionsOf u).map f).sum = ((b.ids u).map fun id => (b.positions.lookup id).elim 0 f).sum := by
  unfold Book.positionsOf
  induction b.ids u with
  | nil => rfl
  | cons id ids ih =>
    rw [filterMap_cons, map_cons, sum_cons, ← ih]
    cases b.positions.lookup id with
    | none => exact (zero_add _).symm
    | some pos => rfl

/-- Where the open positions have realized nothing, the answer is complete. -/
theorem Sums.pnl {w : World} (h : Sums w) (hinit : w.store.config.initialized = true) {u : Address}
    (hopens : ∀ id ∈ w.store.book.ids u, ∀ pos, w.store.book.positions.lookup id = some pos → pos.status = .open →
      pos.realizedPnl = 0) (hmoderate : Moderate w.journal u) (price : Address → Nat → Option Int) :
    ∃ s, (getPnl price u w).1 = .ok s ∧
      s.realizedPnl = sumOf (Entry.closePnl u) w.journal + sumOf (Entry.fifoPnl u) w.journal := by
  obtain ⟨s, hs, hpnl⟩ := getPnl_run (h.oracle hinit) price u
  have hreported : ∀ id ∈ w.store.book.ids u,
      (w.store.book.positions.lookup id).elim 0 Position.reportedPnl = w.store.book.realizedAt id := by
    intro id hid
    unfold Book.realizedAt Position.reportedPnl
    cases hl : w.store.book.positions.lookup id with
    | none => rfl
    | some pos =>
      rw [Option.elim_some, Option.elim_some]
      split
      · exact (hopens id hid pos hl ‹_›).symm
      · rfl
  have habs : ∀ id ∈ w.store.book.ids u,
      ((w.store.book.positions.lookup id).elim 0 fun pos => |pos.reportedPnl|) = |w.store.book.realizedAt id| := by
    intro id hid
    rw [← hreported id hid]
    cases w.store.book.positions.lookup id with
    | none => exact abs_zero.symm
    | some pos => rfl
  have hsums := hmoderate.sums
  have hclose := h.magnitude u
  have hfifo := abs_sumOf_le (Entry.fifoPnl u) w.journal
  have hnonneg := abs_nonneg (sumOf (Entry.fifoPnl u) w.journal)
  have hrealized : realizedOf (w.store.book.positionsOf u) = sumOf (Entry.closePnl u) w.journal := by
    rw [realizedOf_eq, sum_positionsOf, map_congr_left hreported]
    · exact h.total u
    · rw [sum_positionsOf, map_congr_left habs]
      omega
  refine ⟨s, hs, ?_⟩
  rw [hpnl, hrealized, h.fifo u hmoderate]
  have hadd := abs_add_le (sumOf (Entry.closePnl u) w.journal) (sumOf (Entry.fifoPnl u) w.journal)
  have hle := abs_sumOf_le (Entry.closePnl u) w.journal
  exact addIfFits_eq (inRange_of_abs (by omega))

/-- In every run of whole events from the deployment, once the contract is initialized, all of it is reported. -/
theorem pnl_reported {ledger : Ledger} {w : World}
    (hrun : Reaches (fun a ev b => Whole a ev ∧ Step a ev b) (.deployed ledger) w)
    (hinit : w.store.config.initialized = true) (u : Address) : Reported w u := by
  have hall : Kept w ∧ Sums w ∧ Taxes w := by
    refine hrun.invariant (I := fun a => Kept a ∧ Sums a ∧ Taxes a)
      ⟨.deployed ledger, .deployed ledger, .deployed ledger⟩ ?_
    rintro a ev b ⟨hkept, hsums, htaxes⟩ ⟨hwhole, hstep⟩
    have hkept' := hkept.step hstep
    obtain ⟨-, rfl⟩ := hstep
    exact ⟨hkept', hsums.move hkept.sound (move_next a ev), htaxes.move hkept hwhole (move_next a ev)⟩
  obtain ⟨-, hsums, htaxes⟩ := hall
  have hopens := fun id hid pos hpos hopen => (htaxes.opens u id hid pos hpos hopen).1
  exact ⟨hsums.pnl hinit hopens, htaxes.realized u, htaxes.closeds u⟩

namespace Sample

/-- A profit, a part without P&L, a close by the keeper, and lots. -/
def reportedRun : List Event := [
  .call (· = manager) (.initializePortfolio manager ⟨9⟩),
  .call (· = manager) (.configure (.setTradeExecutor manager)),
  .call (· = trader) (.openPosition trader 100 50),
  .call (· = trader) (.openPosition trader 100 30),
  .call (· = trader) (.openPosition trader 200 10),
  .call (· = trader) (.closePosition trader 1 12 110 0),
  .call (· = trader) (.closePositionPartial trader 2 5 0),
  .call (· = manager) (.closePositionKeeper manager trader 3 0),
  .call (· = trader) (.addCostLot trader 100 10),
  .call (· = trader) (.addCostLot trader 50 10),
  .call (· = trader) (.closeFifo trader 15 200)]

/-- The reports have all that was realized. -/
theorem trader_reported : Reported (reportedRun.foldl next (.deployed ⟨1000, 10⟩)) trader :=
  pnl_reported (Reaches.of_along_and (by decide +kernel)) (by decide +kernel) trader

/-- Two parts with P&L, of which the second one closes the position. -/
def partsRun : List Event := [
  .call (· = manager) (.initializePortfolio manager ⟨9⟩),
  .call (· = trader) (.openPosition trader 100 50),
  .call (· = trader) (.closePositionPartial trader 1 20 5),
  .call (· = trader) (.closePositionPartial trader 1 30 7)]

/-- The P&L of a part is missing while the position is open, and the tax events never get it. -/
theorem parts_missing : ¬ ∀ (ledger : Ledger) (w : World), Reaches Step (.deployed ledger) w →
    w.store.config.initialized = true → ∀ u, Reported w u := by
  intro hall
  have hrun : Reaches Step (.deployed ⟨1000, 10⟩) (partsRun.foldl next (.deployed ⟨1000, 10⟩)) :=
    Reaches.of_along (by decide +kernel)
  have htaxes := (hall ⟨1000, 10⟩ _ hrun (by decide +kernel) trader).taxes
  exact absurd htaxes (by decide +kernel)

end Sample

end CallStake.UserPortfolio
