import CallStake.Bridge.Supply

/-!
# Burned amounts

A burn-unlock takes its amount from the balance of the user when it is initiated. What becomes of the
transfer is decided later, by calls that only edit its status.

* `Burn`, `burnOf`: the amounts that were deducted, by transfer.
* `Settled`: the balances as they would be if a burn-unlock that failed for good were refunded.
  `Sample.failed_burn_is_not_refunded`: the contract has no refund.
* `burns_accounted`: what it does have. Every deducted amount belongs to a transfer of its own that is still
  executable, completed, or failed for good, and all of them stay deducted.
-/

namespace CallStake.Bridge

/-- A deducted amount. -/
structure Burn where
  id : Nat
  user : Address
  asset : Bytes
  amount : Int

/-- The amount that the event, taken in the world, deducts. -/
def burnOf (host : Host) (e : World × Event) : Option Burn :=
  match e.2 with
  | .call auth (.initiateBurnUnlock user source destination asset wrapped amount recipient) =>
    match (initiateBurnUnlock ⟨host, auth⟩ user source destination asset wrapped amount recipient e.1).1 with
    | .ok id => some ⟨id, user, wrapped, amount⟩
    | .error _ => none
  | _ => none

/-- The transfer can still be executed: with further approvals, at once, or after a retry. -/
def Executable (t : BridgeTransfer) : Prop :=
  t.status = .pendingValidators ∨ t.status = .readyToExecute ∨ (t.status = .failed ∧ t.retryable = true)

/-- `t` is the transfer of the burn. -/
structure Burn.Of (b : Burn) (t : BridgeTransfer) : Prop where
  kind : t.kind = .burnUnlock
  user : t.user = b.user
  asset : t.wrappedAsset = b.asset
  amount : t.amount = b.amount

/-- The sum of `f` over the transfers of one holding. -/
def totalOf (f : BridgeTransfer → Int) (w : World) (key : Address × Bytes) : Int :=
  Store.total (fun t => if t.holding = key then f t else 0) w.store.books.transfers

/-- The amount of a burn-unlock that did not fail for good. -/
def standingBurn (t : BridgeTransfer) : Int :=
  if t.kind = .burnUnlock ∧ ¬ (t.status = .failed ∧ t.retryable = false) then t.amount else 0

/-- The balances with every burn-unlock that failed for good refunded. -/
def Settled (w : World) : Prop :=
  ∀ key, wrappedBalance w key = totalOf mintedAmount w key - totalOf standingBurn w key

/-- What holds of the burns of a run. -/
structure BurnsAccounted (host : Host) (hist : List (World × Event)) (w : World) : Prop where
  distinct : ((hist.filterMap (burnOf host)).map (·.id)).Nodup
  stored : ∀ b ∈ hist.filterMap (burnOf host), ∃ t, w.store.books.transfers.lookup b.id = some t ∧ b.Of t ∧
    (Executable t ∨ t.status = .completed ∨ (t.status = .failed ∧ t.retryable = false))
  deducted : ∀ key, wrappedBalance w key = totalOf mintedAmount w key - totalOf burnedAmount w key

section Steps

variable {host : Host} {hist : List (World × Event)} {w w' : World} {ev : Event}

/-- A burn takes a free id, and its transfer is stored under it. -/
theorem burnOf_eq_some (ho : Ordered w) (hs : Step host w ev w') {b : Burn}
    (h : burnOf host (w, ev) = some b) : w.store.books.transfers.lookup b.id = none ∧
      ∃ t, w'.store.books.transfers.lookup b.id = some t ∧ b.Of t := by
  unfold burnOf at h
  split at h
  · rename_i auth user source destination asset wrapped amount recipient hev
    dsimp only at hev
    subst hev
    split at h
    · rename_i id hok
      cases h
      rcases hx : initiateBurnUnlock ⟨host, auth⟩ user source destination asset wrapped amount recipient w with
        ⟨r, w₁⟩
      rw [hx] at hok
      obtain rfl : r = .ok id := hok
      have hw' : w' = w₁ := by
        rw [hs.2, next, invoke, Tx.exec_of_ok (Tx.void_ok (u := ()).mpr ⟨id, hx⟩)]
      obtain ⟨config, t, ht, hadm, -, rfl, hw₁⟩ := initiateBurnUnlock_ok hx
      refine ⟨ho.free hadm.configured, t, ?_, ?_⟩
      · rw [hw', hw₁]
        show (w.store.books.transfers.insert t.id t).lookup config.nextTransferId = _
        rw [Store.lookup_insert_eq, if_pos (by rw [ht]; rfl)]
      · rw [ht]
        exact ⟨rfl, rfl, rfl, rfl⟩
    · cases h
  · cases h

theorem Burn.Of.kept {b : Burn} {t t' : BridgeTransfer} (h : b.Of t) (hterms : SameTerms t t') : b.Of t' where
  kind := hterms.kind.trans h.kind
  user := hterms.user.trans h.user
  asset := hterms.wrappedAsset.trans h.asset
  amount := hterms.amount.trans h.amount

/-- No transfer is ever cancelled. -/
theorem not_cancelled_step (ho : Ordered w) (hs : Step host w ev w')
    (h : Store.All (·.status ≠ .cancelled) w.store.books.transfers) :
    Store.All (·.status ≠ .cancelled) w'.store.books.transfers := by
  intro id t' ht'
  obtain ⟨auth, c, -, -, he⟩ | ⟨-, hstore, -⟩ := step_effect hs
  · have hch := he.change ho id
    generalize ha : w.store.books.transfers.lookup id = o, hb : w'.store.books.transfers.lookup id = o' at hch
    rw [ht'] at hb
    cases hch with
    | same => exact h id t' (ha.trans hb.symm)
    | opened hstatus => cases hb; rw [hstatus]; exact nofun
    | @approved kind validator signature config t now =>
      cases hb
      simp only [BridgeTransfer.approved]
      split
      · exact nofun
      · exact h id t ha
    | executed => cases hb; exact nofun
    | failed => cases hb; exact nofun
    | retried => cases hb; exact nofun
  · rw [hstore] at ht'
    exact h id t' ht'

/-- The burns of the history have transfers of their own. -/
structure BurnInv (host : Host) (hist : List (World × Event)) (w : World) : Prop where
  balanced : Balanced w
  open_ : Store.All (·.status ≠ .cancelled) w.store.books.transfers
  distinct : ((hist.filterMap (burnOf host)).map (·.id)).Nodup
  stored : ∀ b ∈ hist.filterMap (burnOf host), ∃ t, w.store.books.transfers.lookup b.id = some t ∧ b.Of t

theorem BurnInv.step (h : BurnInv host hist w) (hs : Step host w ev w') :
    BurnInv host ((w, ev) :: hist) w' := by
  have ho := h.balanced.ordered
  have hbalanced := h.balanced.step hs
  have hopen := not_cancelled_step ho hs h.open_
  have hkept : ∀ b ∈ hist.filterMap (burnOf host),
      ∃ t, w'.store.books.transfers.lookup b.id = some t ∧ b.Of t := by
    intro b hb
    obtain ⟨t, ht, hof⟩ := h.stored b hb
    obtain ⟨t', ht', hterms⟩ := ho.kept hs ht
    exact ⟨t', ht', hof.kept hterms⟩
  cases hburn : burnOf host (w, ev) with
  | none =>
    rw [← List.filterMap_cons_none (l := hist) hburn] at hkept
    refine ⟨hbalanced, hopen, ?_, hkept⟩
    rw [List.filterMap_cons_none hburn]
    exact h.distinct
  | some b =>
    obtain ⟨hfree, hstored⟩ := burnOf_eq_some ho hs hburn
    refine ⟨hbalanced, hopen, ?_, ?_⟩
    · rw [List.filterMap_cons_some hburn, List.map_cons]
      refine List.nodup_cons.mpr ⟨fun hmem => ?_, h.distinct⟩
      obtain ⟨b', hb', heq⟩ := List.mem_map.mp hmem
      obtain ⟨t, ht, -⟩ := h.stored b' hb'
      rw [heq, hfree] at ht
      cases ht
    · rw [List.filterMap_cons_some hburn]
      intro b' hb'
      rcases List.mem_cons.mp hb' with rfl | hb'
      · exact hstored
      · exact hkept b' hb'

end Steps

/-- The net amounts of a holding are what was minted less what was burned. -/
theorem netTotal_holding (w : World) (key : Address × Bytes) :
    netTotal (· = key) w = totalOf mintedAmount w key - totalOf burnedAmount w key := by
  have hneg := Store.total_mul (-1) (fun t => if t.holding = key then burnedAmount t else 0)
    w.store.books.transfers
  have hadd := Store.total_add (fun t => if t.holding = key then mintedAmount t else 0)
    (fun t => -1 * if t.holding = key then burnedAmount t else 0) w.store.books.transfers
  have heq : netTotal (· = key) w = Store.total (fun t => (if t.holding = key then mintedAmount t else 0) +
      -1 * if t.holding = key then burnedAmount t else 0) w.store.books.transfers := by
    refine Store.total_congr fun id t _ => ?_
    simp only [netOf, netAmount]
    split <;> omega
  unfold totalOf
  omega

/-- In every run, each deducted amount belongs to a stored transfer of its own that is still executable,
completed, or failed for good; and a balance is what was minted less everything that was burned, so a
transfer that failed for good stays deducted. -/
theorem burns_accounted {host : Host} {ledger : Ledger} {hist : List (World × Event)} {w : World}
    (h : Trace (Step host) (.deployed ledger) hist w) : BurnsAccounted host hist w := by
  have hinit : BurnInv host [] (.deployed ledger) :=
    ⟨.deployed ledger, Store.all_empty _, List.nodup_nil, fun b hb => (by cases hb)⟩
  have hinv := h.invariant hinit fun _ _ _ _ hi hs => hi.step hs
  refine ⟨hinv.distinct, fun b hb => ?_, fun key => ?_⟩
  · obtain ⟨t, ht, hof⟩ := hinv.stored b hb
    refine ⟨t, ht, hof, ?_⟩
    have hcancelled := hinv.open_ b.id t ht
    unfold Executable
    cases hstatus : t.status with
    | pendingValidators => exact .inl (.inl rfl)
    | readyToExecute => exact .inl (.inr (.inl rfl))
    | completed => exact .inr (.inl rfl)
    | cancelled => exact absurd hstatus hcancelled
    | failed =>
      cases hretryable : t.retryable with
      | true => exact .inl (.inr (.inr ⟨rfl, rfl⟩))
      | false => exact .inr (.inr ⟨rfl, rfl⟩)
  · rw [hinv.balanced.balance key, netTotal_holding]

namespace Sample

/-- A part of a mint is burned, and the transfer fails for good. -/
def failedBurn : List Event :=
  [lock 500 [7] 1, approve 4 1, approve 5 1, call (.executeLockMint admin 1), burn 300,
    call (.markTransferFailed admin 2 [] false)]

/-- What was burned is gone from the balance, although the transfer failed. -/
theorem failed_burn_stays_deducted :
    BurnsAccounted host (history failedBurn) (final failedBurn) ∧
      wrappedBalance (final failedBurn) (alice, weth) = 200 := by
  have hrun : Reaches.Along (next host) Allowed (.deployed ⟨0, 0⟩) (started failedBurn) := by decide +kernel
  exact ⟨burns_accounted (trace_of_allowed hrun), by decide +kernel⟩

/-- The burned amount of a transfer that failed for good is not credited back. -/
theorem failed_burn_is_not_refunded :
    ¬ ∀ host ledger w, Reaches (Step host) (.deployed ledger) w → Settled w := by
  intro h
  have hrun : Reaches.Along (next host) Allowed (.deployed ⟨0, 0⟩) (started failedBurn) := by decide +kernel
  have hsettled := h host ⟨0, 0⟩ _ (trace_of_allowed hrun).reaches (alice, weth)
  revert hsettled
  decide +kernel

end Sample

end CallStake.Bridge
