import CallStake.UserPortfolio.Accounts

/-!
# Caps on the exposure to an asset

The exposure that the caps are checked against, and what the user holds.

* `liveExposure`: what is left in the open positions of the user in the asset. `Tracked`: the exposure is that, and
  the cap is checked against it.
* `liveExposure_opened`, `liveExposure_reduced`: what the events do to it. No event reduces the exposure itself.
* `Undiminished`: nothing is taken out of a position in an asset. `exposure_tracked`: runs of such events.
-/

namespace CallStake.UserPortfolio

open Tx List

/-! ## The property -/

/-- What is left in the position, if it is an open one in the asset. -/
def World.liveOf (w : World) (assetId id : Nat) : Int :=
  if w.store.records.positionAsset.lookup id = some assetId then
    (w.store.book.positions.lookup id).elim 0 fun pos => if pos.status = .open then pos.amount else 0
  else 0

def World.liveExposure (w : World) (u : Address) (assetId : Nat) : Int :=
  ((w.store.book.ids u).map (w.liveOf assetId)).sum

structure Tracked (w : World) : Prop where
  exposure : ∀ u assetId, w.store.exposures.exposureOf u assetId = w.liveExposure u assetId
  cap : ∀ auth u assetId entryPrice amount, w.store.config.Admits auth u entryPrice amount →
    w.liveExposure u assetId + amount ≤ i128Max →
    ((openPositionWithCapCheck auth u assetId entryPrice amount w).1 = .error (.err .exposureCapExceeded) ↔
      ∃ c ∈ w.store.exposures.cap.lookup (u, assetId), c < w.liveExposure u assetId + amount)

/-- The sum with the new position fits 128 bits. -/
def Fitting (w : World) (ev : Event) : Prop :=
  ∀ o ∈ openingOf w ev, ∀ assetId ∈ o.asset, w.liveExposure o.user assetId + o.amount ≤ i128Max
  deriving Decidable

/-- No position in an asset is closed, not even in part. -/
def Undiminished (w : World) (ev : Event) : Prop :=
  ∀ r ∈ reductionOf w ev, w.store.records.positionAsset.lookup r.id = none
  deriving Decidable

/-! ## The check of the cap -/

section Check

variable {w w' : World} {auth : Auth} {u : Address} {assetId : Nat} {entryPrice amount : Int}

theorem checkOpening_run (h : w.store.config.Admits auth u entryPrice amount) :
    checkOpening auth u entryPrice amount w = (.ok (), w) := by
  obtain ⟨hauth, hprice, hamount, hkyc, hrestricted⟩ := h
  rw [checkOpening, bind_requireAuth_ok, bind_failIf_ok, bind_gets_ok, bind_failIf_ok, failIf_ok]
  refine ⟨hauth, by omega, ?_, by simp [hrestricted], rfl⟩
  rintro ⟨hmode, hnot⟩
  rw [hkyc hmode] at hnot
  cases hnot

theorem checkCap_run (u : Address) (assetId : Nat) (amount : Int) (w : World) : checkCap u assetId amount w =
    (if w.store.exposures.BelowCap u assetId amount then .ok () else .error (.err .exposureCapExceeded), w) := by
  have hiff : (∃ c ∈ w.store.exposures.cap.lookup (u, assetId),
      c < saturatingAdd (w.store.exposures.exposureOf u assetId) amount) ↔
        ¬ w.store.exposures.BelowCap u assetId amount := by
    unfold Exposures.BelowCap
    push Not
    rfl
  change failIf _ _ w = _
  unfold failIf
  by_cases hbelow : w.store.exposures.BelowCap u assetId amount
  · rw [if_neg (not_not.mpr hbelow ∘ hiff.mp), if_pos hbelow]
    rfl
  · rw [if_pos (hiff.mpr hbelow), if_neg hbelow]
    rfl

/-- A missing or exhausted counter traps. -/
theorem nextId_error {e : Fault Error} (hr : nextId w = (.error e, w')) : e = .panic := by
  rw [nextId, bind_error] at hr
  rcases hr with hfail | ⟨n, w₁, -, hr⟩
  · exact absurd hfail gets_error
  · rcases bind_error.mp hr with hfail | ⟨id, w₂, -, hr⟩
    · exact (ofOption_error.mp hfail).2.1.symm
    · rcases bind_error.mp hr with hfail | ⟨_, w₃, -, hr⟩
      · exact (failIf_error.mp hfail).2.1.symm
      · simp [saveBook] at hr

/-- The only error that is no trap is the one of the cap. -/
theorem openPositionWithCapCheck_error (h : w.store.config.Admits auth u entryPrice amount) :
    (openPositionWithCapCheck auth u assetId entryPrice amount w).1 = .error (.err .exposureCapExceeded) ↔
      ¬ w.store.exposures.BelowCap u assetId amount := by
  have hcheck := checkOpening_run h
  have hcap := checkCap_run u assetId amount w
  rcases hr : openPositionWithCapCheck auth u assetId entryPrice amount w with ⟨r, w'⟩
  by_cases hbelow : w.store.exposures.BelowCap u assetId amount
  · -- then only the counter can fail
    rw [if_pos hbelow] at hcap
    refine ⟨fun hrun => ?_, fun hnot => absurd hbelow hnot⟩
    change r = _ at hrun
    subst hrun
    unfold openPositionWithCapCheck at hr
    rcases bind_error.mp hr with hfail | ⟨_, w₁, hok, hr⟩
    · cases hcheck.symm.trans hfail
    · cases hcheck.symm.trans hok
      rcases bind_error.mp hr with hfail | ⟨_, w₂, hok, hr⟩
      · cases hcap.symm.trans hfail
      · rcases bind_error.mp hr with hfail | ⟨id, w₃, -, hr⟩
        · cases nextId_error hfail
        · simp [storePosition, saveBook, saveRecords, enlist, addExposure, saveExposures] at hr
  · rw [if_neg hbelow] at hcap
    refine ⟨fun _ => hbelow, fun _ => ?_⟩
    have hfail : openPositionWithCapCheck auth u assetId entryPrice amount w =
        (.error (.err .exposureCapExceeded), w) := by
      unfold openPositionWithCapCheck
      exact bind_error.mpr (.inr ⟨(), w, hcheck, bind_error.mpr (.inl hcap)⟩)
    rw [hr] at hfail
    exact (Prod.mk.inj hfail).1

end Check

/-! ## What the moves keep -/

structure Tracks (w : World) : Prop where
  kept : Kept w
  assets : ∀ id assetId, w.store.records.positionAsset.lookup id = some assetId →
    w.store.book.positions.lookup id ≠ none
  exposure : ∀ u assetId, w.store.exposures.exposureOf u assetId = w.liveExposure u assetId

section Live

variable {w w' : World} {ev : Event} {u : Address} {assetId : Nat}

theorem liveExposure_congr (hids : w'.store.book.ids u = w.store.book.ids u)
    (h : ∀ id ∈ w.store.book.ids u, w'.liveOf assetId id = w.liveOf assetId id) :
    w'.liveExposure u assetId = w.liveExposure u assetId := by
  unfold World.liveExposure
  rw [hids]
  exact congrArg List.sum (map_congr_left h)

theorem Kept.liveOf_nonneg (h : Kept w) {id : Nat} (hid : id ∈ w.store.book.ids u) : 0 ≤ w.liveOf assetId id := by
  unfold World.liveOf
  split
  · cases hl : w.store.book.positions.lookup id with
    | none => exact le_refl 0
    | some pos =>
      have hnonneg := (h.accounted.accounts u id hid pos hl).nonneg
      rw [Option.elim_some]
      split
      · exact hnonneg
      · exact le_refl 0
  · exact le_refl 0

theorem Kept.liveExposure_nonneg (h : Kept w) : 0 ≤ w.liveExposure u assetId := by
  refine sum_nonneg fun x hx => ?_
  obtain ⟨id, hid, rfl⟩ := List.mem_map.mp hx
  exact h.liveOf_nonneg hid

/-- The new position adds its amount to the exposure to its asset. -/
theorem liveExposure_opened (h : Tracks w) {o : Opening} (ho : openingOf w ev = some o) :
    (w.opened o).liveExposure u assetId =
      w.liveExposure u assetId + if u = o.user ∧ o.asset = some assetId then o.amount else 0 := by
  have hnext := (openingOf_spec ho).1
  have hnone := h.kept.accounted.unlisted h.kept.sound hnext
  have hnew : (w.opened o).liveOf assetId o.id = if o.asset = some assetId then o.amount else 0 := by
    have hposition : (w.opened o).store.book.positions.lookup o.id = some o.position :=
      position_opened.trans (if_pos rfl)
    have hasset : (w.opened o).store.records.positionAsset.lookup o.id = o.asset := by
      change (w.store.records.opened o w.ledger.timestamp).positionAsset.lookup o.id = o.asset
      unfold Records.opened
      cases hasset : o.asset with
      | none =>
        change w.store.records.positionAsset.lookup o.id = none
        cases ha : w.store.records.positionAsset.lookup o.id with
        | none => rfl
        | some a => exact absurd hnone (h.assets o.id a ha)
      | some a => exact AList.lookup_insert _
    rw [World.liveOf, hposition, hasset]
    rfl
  -- the other positions stay as they are
  have hold : ∀ id ∈ w.store.book.ids u, (w.opened o).liveOf assetId id = w.liveOf assetId id := by
    intro id hid
    have hne : id ≠ o.id := fun heq => h.kept.sound.fresh hnext u (heq ▸ hid)
    have hposition : (w.opened o).store.book.positions.lookup id = w.store.book.positions.lookup id :=
      position_opened.trans (if_neg hne)
    have hasset : (w.opened o).store.records.positionAsset.lookup id = w.store.records.positionAsset.lookup id := by
      change (w.store.records.opened o w.ledger.timestamp).positionAsset.lookup id = _
      unfold Records.opened
      cases o.asset with
      | none => rfl
      | some a => exact AList.lookup_insert_ne hne
    rw [World.liveOf, hposition, hasset]
    rfl
  have hids : (w.opened o).store.book.ids u = if u = o.user then w.store.book.ids u ++ [o.id]
    else w.store.book.ids u := ids_opened
  unfold World.liveExposure
  rw [hids]
  by_cases hu : u = o.user
  · rw [if_pos hu, map_append, sum_append, map_congr_left hold, map_singleton, sum_singleton,
      hnew]
    simp [hu]
  · rw [if_neg hu, map_congr_left hold, if_neg fun hc => hu hc.1, add_zero]

theorem positionAsset_reduced (r : Reduction) :
    (w.reduced r).store.records.positionAsset = w.store.records.positionAsset := by
  change (w.store.records.reduced r w.ledger.timestamp).positionAsset = _
  unfold Records.reduced Records.streaked Records.taxed
  split
  · split <;> rfl
  · rfl
  · rfl

/-- A position without an asset is in no exposure. -/
theorem liveExposure_reduced {r : Reduction} (hasset : w.store.records.positionAsset.lookup r.id = none) :
    (w.reduced r).liveExposure u assetId = w.liveExposure u assetId := by
  refine liveExposure_congr ids_reduced fun id _ => ?_
  unfold World.liveOf
  rw [positionAsset_reduced]
  by_cases hid : id = r.id
  · subst hid
    rw [hasset]
    rfl
  · have hposition : (w.reduced r).store.book.positions.lookup id = w.store.book.positions.lookup id :=
      position_reduced.trans (if_neg hid)
    rw [hposition]

end Live

namespace Tracks

variable {w w' : World} {ev : Event}

theorem deployed (ledger : Ledger) : Tracks (.deployed ledger) where
  kept := .deployed ledger
  assets _ _ ha := absurd ha nofun
  exposure _ _ := rfl

/-- The exposure grows by what is opened. -/
theorem opened (h : Tracks w) {o : Opening} (ho : openingOf w ev = some o) (hfitting : Fitting w ev)
    (hkept : Kept (w.opened o)) : Tracks (w.opened o) where
  kept := hkept
  assets id a ha := by
    change (w.store.book.opened o).positions.lookup id ≠ none
    rw [position_opened]
    split
    · exact nofun
    · rename_i hid
      change (w.store.records.opened o w.ledger.timestamp).positionAsset.lookup id = some a at ha
      unfold Records.opened at ha
      cases hasset : o.asset with
      | none =>
        rw [hasset] at ha
        exact h.assets id a ha
      | some assetId =>
        rw [hasset] at ha
        exact h.assets id a ((AList.lookup_insert_ne hid).symm.trans ha)
  exposure u assetId := by
    rw [liveExposure_opened h ho, ← h.exposure u assetId]
    change (w.store.exposures.opened o).exposureOf u assetId = _
    unfold Exposures.opened
    cases hasset : o.asset with
    | none => simp
    | some a =>
      have hfits := hfitting o ho a hasset
      rw [← h.exposure] at hfits
      have hnonneg : 0 ≤ w.store.exposures.exposureOf o.user a := h.exposure o.user a ▸ h.kept.liveExposure_nonneg
      have hpositive := (openingOf_spec ho).2.2
      change ((w.store.exposures.exposure.insert (o.user, a) _).lookup (u, assetId)).getD 0 = _
      rw [Store.lookup_insert_eq]
      by_cases hkey : u = o.user ∧ a = assetId
      · obtain ⟨rfl, rfl⟩ := hkey
        rw [if_pos rfl, if_pos ⟨rfl, rfl⟩, Option.getD_some, saturatingAdd_part hnonneg hpositive.le hfits]
      · rw [if_neg fun heq => hkey ⟨(Prod.mk.inj heq).1, (Prod.mk.inj heq).2.symm⟩,
          if_neg fun hc => hkey ⟨hc.1, Option.some_inj.mp hc.2⟩, add_zero]
        rfl

theorem reduced (h : Tracks w) {r : Reduction} (hasset : w.store.records.positionAsset.lookup r.id = none)
    (hkept : Kept (w.reduced r)) : Tracks (w.reduced r) where
  kept := hkept
  assets id a ha := by
    rw [positionAsset_reduced] at ha
    change (w.store.book.reduced r).positions.lookup id ≠ none
    rw [position_reduced]
    split
    · exact nofun
    · exact h.assets id a ha
  exposure u assetId := by
    rw [liveExposure_reduced hasset]
    exact h.exposure u assetId

/-- An event that takes nothing out of a position in an asset keeps the exposures. -/
theorem step (h : Tracks w) (hfitting : Fitting w ev) (hundiminished : Undiminished w ev) (hstep : Step w ev w') :
    Tracks w' := by
  have hkept := h.kept.step hstep
  obtain ⟨-, rfl⟩ := hstep
  have hmove := move_next w ev
  generalize next w ev = w' at hmove hkept
  cases hmove with
  | opened _ ho => exact h.opened ho hfitting hkept
  | reduced r hr => exact h.reduced (hundiminished r hr) hkept
  | started => exact ⟨hkept, h.assets, h.exposure⟩
  | relisted b hb =>
    refine ⟨hkept, fun id a ha => ?_, fun u assetId => ?_⟩
    · exact (congrArg (·.lookup id) hb.positions).symm ▸ h.assets id a ha
    · have hids : b.ids u = w.store.book.ids u := by
        unfold Book.ids
        rw [hb.userPositions]
      refine (h.exposure u assetId).trans (liveExposure_congr hids fun id _ => ?_).symm
      unfold World.liveOf World.relisted
      rw [hb.positions]
  | sold => exact ⟨hkept, h.assets, h.exposure⟩
  | aside => exact ⟨hkept, h.assets, h.exposure⟩

theorem tracked (h : Tracks w) : Tracked w where
  exposure := h.exposure
  cap auth u assetId entryPrice amount hadmits hfits := by
    have hnonneg : 0 ≤ w.store.exposures.exposureOf u assetId := h.exposure u assetId ▸ h.kept.liveExposure_nonneg
    rw [openPositionWithCapCheck_error hadmits, ← h.exposure]
    rw [← h.exposure] at hfits
    unfold Exposures.BelowCap
    rw [saturatingAdd_part hnonneg hadmits.2.2.1.le hfits]
    push Not
    rfl

end Tracks

/-- In every run in which no position in an asset is closed or reduced, the exposures are live. -/
theorem exposure_tracked {ledger : Ledger} {w : World}
    (hrun : Reaches (fun a ev b => (Undiminished a ev ∧ Fitting a ev) ∧ Step a ev b) (.deployed ledger) w) :
    Tracked w := by
  have htracks : Tracks w := by
    refine hrun.invariant (.deployed ledger) ?_
    rintro a ev b ha ⟨⟨hundiminished, hfitting⟩, hstep⟩
    exact ha.step hfitting hundiminished hstep
  exact htracks.tracked

namespace Sample

/-- One position in the asset, with a cap of 100, and one in none. -/
def cappedRun : List Event := [
  .call (· = manager) (.initializePortfolio manager ⟨9⟩),
  .call (· = trader) (.setAssetExposureCap trader 1 100),
  .call (· = trader) (.openPositionWithCapCheck trader 1 200 60),
  .call (· = trader) (.openPosition trader 100 50),
  .call (· = trader) (.closePositionPartial trader 2 20 5),
  .call (· = trader) (.openPositionWithCapCheck trader 1 200 60),
  .call (· = trader) (.removeAssetExposureCap trader 1),
  .call (· = trader) (.openPositionWithCapCheck trader 1 200 60)]

/-- The exposures are what is open, and the cap is tested against them. -/
theorem capped_tracked : Tracked (cappedRun.foldl next (.deployed ⟨1000, 10⟩)) :=
  exposure_tracked (Reaches.of_along_and (by decide +kernel))

/-- The position is closed, and the exposure stays. -/
def closedRun : List Event := [
  .call (· = manager) (.initializePortfolio manager ⟨9⟩),
  .call (· = trader) (.setAssetExposureCap trader 1 100),
  .call (· = trader) (.openPositionWithCapCheck trader 1 200 60),
  .call (· = trader) (.closePosition trader 1 7 210 0)]

/-- The allowance of a closed position is lost. -/
theorem allowance_lost : ¬ ∀ (ledger : Ledger) (w : World),
    Reaches (fun a ev b => Fitting a ev ∧ Step a ev b) (.deployed ledger) w → Tracked w := by
  intro hall
  have halong : Reaches.Along next (fun a ev => Fitting a ev ∧ Allowed a ev) (.deployed ⟨1000, 10⟩) closedRun := by
    decide +kernel
  have htracked := hall ⟨1000, 10⟩ _ (Reaches.of_along_and halong)
  exact absurd (htracked.exposure trader 1) (by decide +kernel)

end Sample

end CallStake.UserPortfolio
