import CallStake.UserPortfolio.Indexes

/-!
# Portfolios of the first layout

What a user sees of their positions while the lists are migrated.

* `V1`: a state of the first layout, without indexes. `Shows`: the portfolio has exactly the positions of the user.
* `getPortfolio_shows`: so it is where the indexes are exact. `legacy_visible`: in every run of familiar events.
-/

namespace CallStake.UserPortfolio

open Tx

/-- The lists of all positions are there, and neither an index nor a flag. -/
structure V1 (w : World) : Prop where
  sound : Sound w
  opens : ∀ u, w.store.book.userOpenPositions.lookup u = none
  closeds : ∀ u, w.store.book.userClosedPositions.lookup u = none
  migrated : ∀ u, w.store.book.migratedUser.lookup u = none

/-- Exactly the positions of the user, each once. -/
structure Shows (b : Book) (u : Address) (p : Portfolio) : Prop where
  opens : (p.openPositions.map (·.positionId)).Nodup
  mem_opens : ∀ e, e ∈ p.openPositions ↔ e.positionId ∈ b.ids u ∧
    b.positions.lookup e.positionId = some e.position ∧ e.position.status = .open
  closeds : p.closedPositionIds.Nodup
  mem_closeds : ∀ id, id ∈ p.closedPositionIds ↔ b.Has u .closed id

section Run

variable {w : World} {u : Address}

theorem Listing.sound {w' : World} (h : Listing w w') (hsound : Sound w) : Sound w' := by
  obtain ⟨b, hb, rfl⟩ := h
  exact hsound.relisted hb

theorem Listing.exact {w' : World} (h : Listing w w') (hsound : Sound w) (hexact : Exact w.store.book) :
    Exact w'.store.book := by
  obtain ⟨b, hb, rfl⟩ := h
  exact hexact.relisted hsound hb

theorem Listing.has {w' : World} (h : Listing w w') (s : PositionStatus) (id : Nat) :
    w'.store.book.Has u s id ↔ w.store.book.Has u s id := by
  obtain ⟨b, hb, rfl⟩ := h
  change b.Has u s id ↔ _
  unfold Book.Has Book.ids
  rw [hb.positions, hb.userPositions]

theorem Listing.position {w' : World} (h : Listing w w') : w'.store.book.positions = w.store.book.positions := by
  obtain ⟨b, hb, rfl⟩ := h
  exact hb.positions

theorem getOpenPositionIds_run (hsound : Sound w) (hexact : Exact w.store.book) :
    ∃ ids w', getOpenPositionIds u w = (.ok ids, w') ∧ w.store.book.Lists u .open ids := by
  change ∃ ids w', orRebuild u (w.store.book.userOpenPositions.lookup u) Prod.fst w = _ ∧ _
  cases hl : w.store.book.userOpenPositions.lookup u with
  | some l => exact ⟨l, w, rfl, hexact.opens u l hl⟩
  | none => exact ⟨_, _, rfl, (hsound.lists_split u).1⟩

theorem getClosedPositionIds_run (hsound : Sound w) (hexact : Exact w.store.book) :
    ∃ ids w', getClosedPositionIds u w = (.ok ids, w') ∧ w.store.book.Lists u .closed ids := by
  change ∃ ids w', orRebuild u (w.store.book.userClosedPositions.lookup u) Prod.snd w = _ ∧ _
  cases hl : w.store.book.userClosedPositions.lookup u with
  | some l => exact ⟨l, w, rfl, hexact.closeds u l hl⟩
  | none => exact ⟨_, _, rfl, (hsound.lists_split u).2⟩

theorem mem_entries {b : Book} {s : PositionStatus} {ids : List Nat} {e : PortfolioPosition} :
    e ∈ ids.filterMap (b.entry s) ↔ e.positionId ∈ ids ∧
      b.positions.lookup e.positionId = some e.position ∧ e.position.status = s := by
  rw [List.mem_filterMap]
  unfold Book.entry
  constructor
  · rintro ⟨id, hid, he⟩
    obtain ⟨pos, hpos, rfl⟩ := Option.map_eq_some_iff.mp he
    obtain ⟨hlookup, hstatus⟩ := Option.filter_eq_some_iff.mp hpos
    exact ⟨hid, hlookup, of_decide_eq_true hstatus⟩
  · rintro ⟨hid, hlookup, hstatus⟩
    refine ⟨e.positionId, hid, ?_⟩
    rw [hlookup, Option.filter_some, if_pos (decide_eq_true hstatus)]
    rfl

/-- The ids of the entries are some of the list. -/
theorem entries_nodup {b : Book} {s : PositionStatus} {ids : List Nat} (h : ids.Nodup) :
    ((ids.filterMap (b.entry s)).map (·.positionId)).Nodup := by
  induction ids with
  | nil => exact List.nodup_nil
  | cons id ids ih =>
    obtain ⟨hid, hrest⟩ := List.nodup_cons.mp h
    rw [List.filterMap_cons]
    cases he : b.entry s id with
    | none => exact ih hrest
    | some e =>
      obtain ⟨pos, -, rfl⟩ := Option.map_eq_some_iff.mp he
      refine List.nodup_cons.mpr ⟨fun hmem => hid ?_, ih hrest⟩
      obtain ⟨e', he', heq⟩ := List.mem_map.mp hmem
      have heq : e'.positionId = id := heq
      exact heq ▸ (mem_entries.mp he').1

/-- Where the indexes are exact, or missing, the portfolio shows what there is. -/
theorem getPortfolio_shows (hsound : Sound w) (hexact : Exact w.store.book) :
    ∃ p w', getPortfolio u true w = (.ok p, w') ∧ Shows w.store.book u p := by
  obtain ⟨openIds, w₁, hopens, hopenLists⟩ := getOpenPositionIds_run (u := u) hsound hexact
  have hlisting := (within_getOpenPositionIds u).of_run hopens
  obtain ⟨closedIds, w₂, hcloseds, hclosedLists⟩ :=
    getClosedPositionIds_run (u := u) (hlisting.sound hsound) (hlisting.exact hsound hexact)
  have hrun : getPortfolio u true w = (.ok ⟨openIds.filterMap (w₁.store.book.entry .open),
      if closedIds.length ≤ MAX_INLINE_CLOSED_POSITIONS then closedIds.filterMap (w₂.store.book.entry .closed)
      else [], closedIds⟩, w₂) := by
    have hclosed : getClosed u true w₁ = (.ok (if closedIds.length ≤ MAX_INLINE_CLOSED_POSITIONS then
        closedIds.filterMap (w₂.store.book.entry .closed) else [], closedIds), w₂) :=
      bind_ok.mpr ⟨closedIds, w₂, hcloseds, rfl⟩
    exact bind_ok.mpr ⟨openIds, w₁, hopens, bind_ok.mpr ⟨_, w₁, rfl, bind_ok.mpr ⟨_, w₂, hclosed, rfl⟩⟩⟩
  refine ⟨_, w₂, hrun, entries_nodup hopenLists.nodup, fun e => ?_, hclosedLists.nodup, fun id => ?_⟩
  · rw [mem_entries, hopenLists.mem, hlisting.position]
    constructor
    · rintro ⟨hhas, hlookup, hstatus⟩
      exact ⟨hhas.1, hlookup, hstatus⟩
    · rintro ⟨hid, hlookup, hstatus⟩
      exact ⟨⟨hid, e.position, hlookup, hstatus⟩, hlookup, hstatus⟩
  · rw [hclosedLists.mem, hlisting.has]

end Run

theorem V1.exact {w : World} (h : V1 w) : Exact w.store.book where
  opens u _ hl := absurd ((h.opens u).symm.trans hl) nofun
  closeds u _ hl := absurd ((h.closeds u).symm.trans hl) nofun

/-- In every run of familiar events from a state of the first layout, every user sees exactly their positions. -/
theorem legacy_visible {w w' : World} (h : V1 w)
    (hrun : Reaches (fun a ev b => Familiar a ev ∧ Step a ev b) w w') (u : Address) :
    ∃ p, (getPortfolio u true w').1 = .ok p ∧ Shows w'.store.book u p := by
  have hkept : Sound w' ∧ Exact w'.store.book := by
    refine hrun.invariant (I := fun a => Sound a ∧ Exact a.store.book) ⟨h.sound, h.exact⟩ ?_
    rintro a ev _ ⟨hsound, hexact⟩ ⟨hfamiliar, -, rfl⟩
    exact ⟨hsound.move (move_next a ev), hexact.move hsound hfamiliar (move_next a ev)⟩
  obtain ⟨p, w'', hp, hshows⟩ := getPortfolio_shows (u := u) hkept.1 hkept.2
  exact ⟨p, by rw [hp], hshows⟩

namespace Sample

def admin : Address := ⟨1⟩
def oracle : Address := ⟨2⟩
def executor : Address := ⟨3⟩
def alice : Address := ⟨4⟩
def bob : Address := ⟨5⟩

/-- Alice has an open position and a closed one. -/
def legacy : World where
  ledger := ⟨1000, 10⟩
  store := { Storage.deployed with
    config := { Config.deployed with
      initialized := true
      admin := some admin
      oracle := some oracle
      tradeExecutor := some executor }
    book := { Book.deployed with
      nextPositionId := some 3
      positions := ((∅ : Store Nat Position).insert 1 ⟨100, 50, .open, 0⟩).insert 2 ⟨100, 50, .closed, 7⟩
      userPositions := (∅ : Store Address (List Nat)).insert alice [1, 2] } }
  journal := []

theorem mem_legacy_ids {u : Address} {id : Nat} (h : id ∈ legacy.store.book.ids u) :
    u = alice ∧ (id = 1 ∨ id = 2) := by
  change id ∈ ((∅ : Store Address (List Nat)).insert alice [1, 2] |>.lookup u).getD [] at h
  rw [Store.getD_insert] at h
  split at h
  · rename_i hu
    exact ⟨hu, by simpa using h⟩
  · cases h

theorem legacy_v1 : V1 legacy where
  sound := by
    refine ⟨fun u => ?_, fun u v id hu hv => ?_, fun u id hid => ?_, fun u id hid => ?_, nofun⟩
    · change ((∅ : Store Address (List Nat)).insert alice [1, 2] |>.lookup u).getD [] |>.Nodup
      rw [Store.getD_insert]
      split
      · decide
      · exact List.nodup_nil
    · exact (mem_legacy_ids hu).1.trans (mem_legacy_ids hv).1.symm
    · rcases (mem_legacy_ids hid).2 with rfl | rfl
      · exact ⟨⟨100, 50, .open, 0⟩, by decide, by decide⟩
      · exact ⟨⟨100, 50, .closed, 7⟩, by decide, by decide⟩
    · rcases (mem_legacy_ids hid).2 with rfl | rfl <;> exact ⟨3, rfl, by decide⟩
  opens _ := rfl
  closeds _ := rfl
  migrated _ := rfl

/-- Alice is migrated, and trades on. Bob is new. -/
def migratedRun : List Event := [
  .call (· = admin) (.registerMigrationUsers [alice, bob, alice]),
  .call (· = bob) (.openPosition bob 20 5),
  .call (· = admin) (.migratePortfolioV1ToV2 2),
  .call (· = alice) (.openPosition alice 100 30),
  .call (· = alice) (.closePosition alice 1 12 110 0),
  .call (· = bob) (.getTradeHistory alice none 10),
  .call (· = admin) (.migratePortfolioV1ToV2 5),
  .call (· = executor) (.closePositionKeeper executor bob 3 0)]

/-- The portfolio shows the positions that were migrated. -/
theorem legacy_seen : ∃ p, (getPortfolio alice true (migratedRun.foldl next legacy)).1 = .ok p ∧
    Shows (migratedRun.foldl next legacy).store.book alice p :=
  legacy_visible legacy_v1 (Reaches.of_along_and (by decide +kernel)) alice

/-- Alice opens a position before the migration reaches her: the first one is gone. -/
theorem legacy_hidden : ¬ ∀ w w' : World, V1 w → Reaches Step w w' → ∀ u,
    ∃ p, (getPortfolio u true w').1 = .ok p ∧ Shows w'.store.book u p := by
  intro hall
  have hrun : Reaches Step legacy ([.call (· = alice) (.openPosition alice 100 30)].foldl next legacy) :=
    Reaches.of_along (by decide +kernel)
  obtain ⟨p, hp, hshows⟩ := hall legacy _ legacy_v1 hrun alice
  have hcomputed : ((getPortfolio alice true (next legacy (.call (· = alice) (.openPosition alice 100 30)))).1).map
      (·.openPositions) = .ok [⟨3, ⟨100, 30, .open, 0⟩⟩] := by rfl
  rw [List.foldl_cons, List.foldl_nil] at hp hshows
  rw [hp] at hcomputed
  have hopens : p.openPositions = [⟨3, ⟨100, 30, .open, 0⟩⟩] := Except.ok.inj hcomputed
  have hfirst := (hshows.mem_opens ⟨1, ⟨100, 50, .open, 0⟩⟩).mpr ⟨by decide +kernel, by decide +kernel, rfl⟩
  rw [hopens] at hfirst
  exact absurd hfirst (by decide)

end Sample

end CallStake.UserPortfolio
